import Quipu.BigEndian
import Quipu.Mundo

namespace Quipu

namespace Honey

def honeyInfo : List UInt8 := utf8 "quipu-honey-v1/pad"

def streamBytesPerToken : Nat := 8

/-- The bytes of `QHNY`. -/
def magic : List UInt8 := [0x51, 0x48, 0x4e, 0x59]

def version : UInt8 := 1

def headerLen : Nat := 39

def maxTokens : Nat := 1000

inductive HoneyError where
  | tokenOutOfRange
  | badAlphabet
  | badLength
  | truncated
  | badMagic
  | unsupportedVersion (version : UInt8)
  | insaneKdf
  deriving DecidableEq, Repr

/-- A uniform alphabet; `new` refuses sizes below 2. -/
structure Alphabet where
  size : UInt16
  dos : 2 ≤ size.toNat

def Alphabet.new (size : UInt16) : Except HoneyError Alphabet :=
  if h : 2 ≤ size.toNat then .ok ⟨size, h⟩ else .error .badAlphabet

def Alphabet.digits : Alphabet := ⟨10, by decide⟩

structure HoneyOptions where
  pepper : List UInt8
  kdfParams : KdfParams

variable {n : Nat} {M K ε α : Type}

def chunksExact (k : Nat) (xs : List α) : List (List α) :=
  (List.range (xs.length / k)).map fun i => (xs.drop (i * k)).take k

/-- The indexing `xs[i]`. -/
def indice (xs : List α) (i : Nat) : Res ε α :=
  match xs[i]? with
  | some x => .ok x
  | none => panico "index out of bounds"

def digitos (size : UInt16) (buf : List UInt8) : List UInt16 :=
  (chunksExact streamBytesPerToken buf).map fun chunk => UInt16.ofNat (ofBe chunk % size.toNat)

def keystreamDigits (kdf : Kdf M K) (passphrase : String) (salt : Arr 16) (pepper : List UInt8)
    (params : KdfParams) (size : UInt16) (len : Nat) : Res HoneyError (List UInt16) := do
  let master ← deriveMasterKey kdf passphrase salt pepper params
  let buf ← deriveStream kdf master honeyInfo (len * streamBytesPerToken)
  pure (digitos size buf.toList)

/-- What a honey container declares before its words. -/
structure Cabecera where
  salt : Arr 16
  params : KdfParams
  size : UInt16
  len : UInt32

def Cabecera.toBytes (h : Cabecera) : List UInt8 :=
  magic ++ [version] ++ h.salt.toList ++ u32Be h.params.memKib ++ u32Be h.params.iterations ++
    u32Be h.params.parallelism ++ u16Be h.size ++ u32Be h.len

def cerrarToken (a : UInt16) (ks : List UInt16) (t : UInt16) (i : Nat) :
    Res HoneyError (List UInt8) := do
  let k ← indice ks i
  pure (u16Be (UInt16.ofNat ((t.toNat + k.toNat) % a.toNat)))

def encrypt (kdf : Kdf M K) (tokens : List UInt16) (alphabet : Alphabet) (passphrase : String)
    (opts : HoneyOptions) : Prog (Mundo n K) HoneyError (List UInt8) := do
  Prog.rechazarSi (tokens = [] ∨ maxTokens < tokens.length) .badLength
  Prog.rechazarSi (tokens.any fun t => alphabet.size ≤ t) .tokenOutOfRange
  let salt ← pedirRng 16
  registrar salt opts.kdfParams
  let ks ← Prog.deRes (keystreamDigits kdf passphrase salt opts.pepper opts.kdfParams
    alphabet.size tokens.length)
  let header : Cabecera := ⟨salt, opts.kdfParams, alphabet.size,
    UInt32.ofNat tokens.length⟩
  let words ← Prog.deRes (tokens.zipIdx.mapM fun ti => cerrarToken alphabet.size ks ti.1 ti.2)
  pure (header.toBytes ++ words.flatten)

/-- The structural part of `decrypt`, which no key enters. -/
def leerCabecera (blob : List UInt8) : Res HoneyError Cabecera := do
  rechazarSi (blob.length < headerLen) .truncated
  rechazarSi (blob.take 4 ≠ magic) .badMagic
  let v ← octeto blob 4
  rechazarSi (v ≠ version) (.unsupportedVersion v)
  let salt ← campo blob 5 16
  let memKib ← leerU32 blob 21
  let iterations ← leerU32 blob 25
  let parallelism ← leerU32 blob 29
  let size ← campo blob 33 2
  let len ← leerU32 blob 35
  rechazarSi (u16OfBe size.toList < 2) .badAlphabet
  rechazarSi (len.toNat = 0 ∨ maxTokens < len.toNat) .badLength
  let params : KdfParams := ⟨memKib, iterations, parallelism⟩
  rechazarSi (params.isSane = false) .insaneKdf
  rechazarSi (blob.length < headerLen + len.toNat * 2) .truncated
  pure ⟨salt, params, u16OfBe size.toList, len⟩

/-- The subtraction `c + a - k` on `u32`, which must not go below zero. -/
def restar (c a k : Nat) : Res HoneyError Nat :=
  if k ≤ c + a then .ok (c + a - k) else panico "attempt to subtract with overflow"

def abrirToken (blob : List UInt8) (a : UInt16) (ks : List UInt16) (i : Nat) :
    Res HoneyError UInt16 := do
  let c ← campo blob (headerLen + i * 2) 2
  let k ← indice ks i
  let t ← restar (ofBe c.toList) a.toNat k.toNat
  pure (UInt16.ofNat (t % a.toNat))

def decrypt (kdf : Kdf M K) (blob : List UInt8) (passphrase : String) (pepper : List UInt8) :
    Res HoneyError (List UInt16) := do
  let h ← leerCabecera blob
  let ks ← keystreamDigits kdf passphrase h.salt pepper h.params h.size h.len.toNat
  (List.range h.len.toNat).mapM (abrirToken blob h.size ks)

end Honey

end Quipu
