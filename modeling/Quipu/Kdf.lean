import Quipu.Fallo

namespace Quipu

structure KdfParams where
  memKib : UInt32
  iterations : UInt32
  parallelism : UInt32
  deriving DecidableEq, Repr

/-- NFKC, Argon2id and HKDF as the code calls them. `M` is the type of master keys and `K`
the type of subkeys; `acepta` is the parameter check of `argon2::Params::new`. -/
structure Kdf (M K : Type) where
  nfkc : String → String
  acepta : KdfParams → Bool
  argon2id : List UInt8 → List UInt8 → KdfParams → M
  expandKey : M → List UInt8 → K
  expand : M → List UInt8 → (n : Nat) → Arr n

variable {M K ε : Type}

def saltLen : Nat := 16

def maxMemKib : UInt32 := 262144

def maxParallelism : UInt32 := 16

/-- The shared test of both profiles, which differ in their ceiling of iterations. -/
def KdfParams.isSaneUpTo (maxIterations : UInt32) (p : KdfParams) : Bool :=
  1 ≤ p.parallelism && p.parallelism ≤ maxParallelism &&
    1 ≤ p.iterations && p.iterations ≤ maxIterations &&
    8 * p.parallelism ≤ p.memKib && p.memKib ≤ maxMemKib

def KdfParams.isSane (p : KdfParams) : Bool := p.isSaneUpTo 16

/-- The bytes of a string, as `into_bytes` gives them. -/
def utf8 (s : String) : List UInt8 := s.toUTF8.data.toList

theorem utf8_inj {s t : String} (h : utf8 s = utf8 t) : s = t := by
  have hd : s.toUTF8.data = t.toUTF8.data := Array.toList_inj.mp h
  exact String.toByteArray_inj.mp (ByteArray.ext hd)

def normalizar (kdf : Kdf M K) (passphrase : String) : String := kdf.nfkc passphrase

def deriveMasterKey (kdf : Kdf M K) (passphrase : String) (salt : Arr 16) (pepper : List UInt8)
    (params : KdfParams) : Res ε M :=
  if kdf.acepta params then
    .ok (kdf.argon2id (utf8 (normalizar kdf passphrase) ++ pepper) salt.toList params)
  else panico "parámetros Argon2id válidos"

def deriveSubkey (kdf : Kdf M K) (master : M) (info : List UInt8) : K := kdf.expandKey master info

/-- HKDF-Expand of `quipu` stops at 255 blocks of SHA-256. -/
def deriveStream (kdf : Kdf M K) (master : M) (info : List UInt8) (n : Nat) : Res ε (Arr n) :=
  if n ≤ 255 * 32 then .ok (kdf.expand master info n)
  else panico "longitud de expansión HKDF dentro del límite (<= 8160 bytes)"

theorem deriveMasterKey_ok {kdf : Kdf M K} {params : KdfParams}
    (ha : kdf.acepta params = true) (passphrase : String) (salt : Arr 16) (pepper : List UInt8) :
    (deriveMasterKey kdf passphrase salt pepper params : Res ε M) =
      .ok (kdf.argon2id (utf8 (normalizar kdf passphrase) ++ pepper) salt.toList params) :=
  if_pos ha

theorem deriveMasterKey_eq_ok {kdf : Kdf M K} {passphrase : String} {salt : Arr 16}
    {pepper : List UInt8} {params : KdfParams} {m : M} :
    (deriveMasterKey kdf passphrase salt pepper params : Res ε M) = .ok m ↔
      kdf.acepta params = true ∧
        kdf.argon2id (utf8 (normalizar kdf passphrase) ++ pepper) salt.toList params = m := by
  unfold deriveMasterKey
  split
  next h => simp [h]
  next h => simp [h, panico]

theorem deriveStream_ok {kdf : Kdf M K} {m : M} {info : List UInt8} {n : Nat} (h : n ≤ 8160) :
    (deriveStream kdf m info n : Res ε (Arr n)) = .ok (kdf.expand m info n) := by
  simp [deriveStream, h]

/-- No two inputs of the derivation meet, nor two labels of one master key. -/
structure Kdf.Inyectiva (kdf : Kdf M K) : Prop where
  argon2id : ∀ {s salt p s' salt' p'}, kdf.argon2id s salt p = kdf.argon2id s' salt' p' →
    s = s' ∧ salt = salt' ∧ p = p'
  expandKey : ∀ {m i m' i'}, kdf.expandKey m i = kdf.expandKey m' i' → m = m' ∧ i = i'

/-- Argon2 accepts every cost that the program takes for sane. -/
def Kdf.AceptaSanos (kdf : Kdf M K) : Prop :=
  ∀ p : KdfParams, p.isSane = true → kdf.acepta p = true

end Quipu
