import Quipu.BigEndian
import Quipu.Kdf

namespace Quipu

/-- The signature scheme of a crate, over the encodings of its keys and signatures; `acepta`
decodes the signature and verifies it. -/
structure Esquema (s v f : Nat) where
  publica : Arr s → Arr v
  firma : Arr s → List UInt8 → Arr f
  acepta : Arr v → List UInt8 → Arr f → Bool

/-- Ed25519, ML-DSA-87 and, with an empty context, SLH-DSA-SHA2-256s. -/
structure Esquemas where
  ed : Esquema 32 32 64
  ml : Esquema 32 2592 4627
  slh : Esquema 128 64 29792
  leeSlh : Arr 128 → Bool

/-- Ghost record: the public keys and preimages each scheme has signed. -/
structure Firmas where
  ed : List (Arr 32 × List UInt8)
  ml : List (Arr 2592 × List UInt8)
  slh : List (Arr 64 × List UInt8)

variable {ε : Type}

/-- `<[u8; n]>::try_from`. -/
def tryInto (n : Nat) (b : List UInt8) : Option (Arr n) :=
  if h : b.length = n then some (Arr.of b h) else none

theorem tryInto_eq_some {n : Nat} {b : List UInt8} {a : Arr n} :
    tryInto n b = some a ↔ a.toList = b := by
  unfold tryInto
  constructor
  · intro h
    split at h
    next => cases h; rfl
    next => cases h
  · rintro rfl
    rw [dif_pos a.toList_length, Arr.of_toList]

def firmarEd (es : Esquemas) (seed : Arr 32) (p : List UInt8) : Prog Firmas ε (Arr 64) := fun r =>
  .ok (es.ed.firma seed p) { r with ed := r.ed ++ [(es.ed.publica seed, p)] }

def firmarMl (es : Esquemas) (seed : Arr 32) (p : List UInt8) : Prog Firmas ε (Arr 4627) :=
  fun r => .ok (es.ml.firma seed p) { r with ml := r.ml ++ [(es.ml.publica seed, p)] }

def firmarSlh (es : Esquemas) (sk : Arr 128) (p : List UInt8) : Prog Firmas ε (Arr 29792) :=
  fun r => .ok (es.slh.firma sk p) { r with slh := r.slh ++ [(es.slh.publica sk, p)] }

namespace Pqsign

def ed25519SigLen : Nat := 64

def mldsaSigLen : Nat := 4627

def slhSigLen : Nat := 29792

def signatureLen : Nat := ed25519SigLen + mldsaSigLen

def tripleSignatureLen : Nat := ed25519SigLen + mldsaSigLen + slhSigLen

def signingKeyLen : Nat := 32 + 32

def signContext : List UInt8 := utf8 "quipu/v3/sign"

def signTripleContext : List UInt8 := utf8 "quipu/v4/sign-triple"

/-- Both preimages of this module: label, full public key, message. -/
def preimageCon (context vkBytes message : List UInt8) : List UInt8 := context ++ vkBytes ++ message

def buildPreimage (vkBytes message : List UInt8) : List UInt8 :=
  preimageCon signContext vkBytes message

def buildTriplePreimage (vkBytes message : List UInt8) : List UInt8 :=
  preimageCon signTripleContext vkBytes message

@[ext]
structure VerifyingKey where
  ed : Arr 32
  ml : Arr 2592
  deriving DecidableEq

structure SigningKey where
  edSeed : Arr 32
  mlSeed : Arr 32
  deriving DecidableEq

def VerifyingKey.toBytes (vk : VerifyingKey) : List UInt8 := vk.ed.toList ++ vk.ml.toList

def SigningKey.verifyingKey (es : Esquemas) (sk : SigningKey) : VerifyingKey :=
  ⟨es.ed.publica sk.edSeed, es.ml.publica sk.mlSeed⟩

def SigningKey.sign (es : Esquemas) (sk : SigningKey) (message : List UInt8) :
    Prog Firmas ε (List UInt8) := do
  let vk := sk.verifyingKey es
  let preimage := buildPreimage vk.toBytes message
  let edSig ← firmarEd es sk.edSeed preimage
  let mlSig ← firmarMl es sk.mlSeed preimage
  pure (edSig.toList ++ mlSig.toList)

def SigningKey.toBytes (sk : SigningKey) : List UInt8 := sk.edSeed.toList ++ sk.mlSeed.toList

def SigningKey.fromBytes (b : List UInt8) : Option SigningKey :=
  if b.length ≠ signingKeyLen then none else do
    let edSeed ← tryInto 32 (b.take 32)
    let mlSeed ← tryInto 32 (b.drop 32)
    pure ⟨edSeed, mlSeed⟩

/-- A half that is not of its length is not valid. -/
def aceptaBytes {s v f : Nat} (e : Esquema s v f) (pk : Arr v) (p sig : List UInt8) : Bool :=
  match tryInto f sig with
  | some a => e.acepta pk p a
  | none => false

def VerifyingKey.verify (es : Esquemas) (vk : VerifyingKey) (message signature : List UInt8) :
    Bool :=
  if signature.length ≠ signatureLen then false else
    let preimage := buildPreimage vk.toBytes message
    let edOk := aceptaBytes es.ed vk.ed preimage (signature.take ed25519SigLen)
    let mlOk := aceptaBytes es.ml vk.ml preimage (signature.drop ed25519SigLen)
    edOk && mlOk

@[ext]
structure TripleVerifyingKey where
  ed : Arr 32
  ml : Arr 2592
  slh : Arr 64
  deriving DecidableEq

structure TripleSigningKey where
  edSeed : Arr 32
  mlSeed : Arr 32
  slhSk : Arr 128
  deriving DecidableEq

def TripleVerifyingKey.toBytes (vk : TripleVerifyingKey) : List UInt8 :=
  vk.ed.toList ++ vk.ml.toList ++ vk.slh.toList

def slhSigningKey (es : Esquemas) (sk : Arr 128) : Res ε (Arr 128) :=
  if es.leeSlh sk then .ok sk else panico "clave secreta SLH de 128 bytes"

def TripleSigningKey.verifyingKey (es : Esquemas) (sk : TripleSigningKey) :
    Res ε TripleVerifyingKey := do
  let slh ← slhSigningKey es sk.slhSk
  pure ⟨es.ed.publica sk.edSeed, es.ml.publica sk.mlSeed, es.slh.publica slh⟩

def TripleSigningKey.sign (es : Esquemas) (sk : TripleSigningKey) (message : List UInt8) :
    Prog Firmas ε (List UInt8) := do
  let vk ← Prog.deRes (sk.verifyingKey es)
  let preimage := buildTriplePreimage vk.toBytes message
  let edSig ← firmarEd es sk.edSeed preimage
  let mlSig ← firmarMl es sk.mlSeed preimage
  let slh ← Prog.deRes (slhSigningKey es sk.slhSk)
  let slhSig ← firmarSlh es slh preimage
  pure (edSig.toList ++ mlSig.toList ++ slhSig.toList)

def TripleVerifyingKey.verify (es : Esquemas) (vk : TripleVerifyingKey)
    (message signature : List UInt8) : Bool :=
  if signature.length ≠ tripleSignatureLen then false else
    let preimage := buildTriplePreimage vk.toBytes message
    let rest := signature.drop ed25519SigLen
    let edOk := aceptaBytes es.ed vk.ed preimage (signature.take ed25519SigLen)
    let mlOk := aceptaBytes es.ml vk.ml preimage (rest.take mldsaSigLen)
    let slhOk := aceptaBytes es.slh vk.slh preimage (rest.drop mldsaSigLen)
    edOk && mlOk && slhOk

end Pqsign

namespace Cnsa.Firma

def signatureLen : Nat := 4627

def etiqueta : List UInt8 := utf8 "quipu-cnsa/firma/ml-dsa-87/v1"

@[ext]
structure VerifyingKey where
  ml : Arr 2592
  deriving DecidableEq

structure SigningKey where
  semilla : Arr 32
  deriving DecidableEq

def VerifyingKey.aBytes (vk : VerifyingKey) : List UInt8 := vk.ml.toList

/-- The length of the key goes in front of it. -/
def preimagen (vk mensaje : List UInt8) : List UInt8 := etiqueta ++ be 8 vk.length ++ vk ++ mensaje

def SigningKey.claveDeVerificacion (es : Esquemas) (sk : SigningKey) : VerifyingKey :=
  ⟨es.ml.publica sk.semilla⟩

def SigningKey.firmar (es : Esquemas) (sk : SigningKey) (mensaje : List UInt8) :
    Prog Firmas ε (List UInt8) := do
  let vk := sk.claveDeVerificacion es
  let p := preimagen vk.aBytes mensaje
  let firma ← firmarMl es sk.semilla p
  pure firma.toList

def VerifyingKey.verificar (es : Esquemas) (vk : VerifyingKey) (mensaje firma : List UInt8) :
    Bool :=
  if firma.length ≠ signatureLen then false else
    Pqsign.aceptaBytes es.ml vk.ml (preimagen vk.aBytes mensaje) firma

end Cnsa.Firma

/-- A scheme whose public keys start with the secret and that accepts what a record lists. -/
def Esquema.deRegistro {s v f : Nat} (firmado : List (Arr v × List UInt8)) : Esquema s v f where
  publica := fun sk => ajustar v sk.toList
  firma := fun sk _ => ajustar f sk.toList
  acepta := fun pk p sig => decide ((pk, p) ∈ firmado) && decide (sig = ajustar f pk.toList)

theorem Esquema.acepta_deRegistro {s v f : Nat} {firmado : List (Arr v × List UInt8)} {pk : Arr v}
    {p : List UInt8} (h : (pk, p) ∈ firmado) :
    (Esquema.deRegistro firmado : Esquema s v f).acepta pk p (ajustar f pk.toList) = true :=
  Bool.and_eq_true_iff.mpr ⟨decide_eq_true h, decide_eq_true rfl⟩

def Esquemas.deRegistro (r : Firmas) : Esquemas where
  ed := Esquema.deRegistro r.ed
  ml := Esquema.deRegistro r.ml
  slh := Esquema.deRegistro r.slh
  leeSlh := fun _ => true

end Quipu
