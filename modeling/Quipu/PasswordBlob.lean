import Quipu.Container
import Quipu.Dictionary
import Quipu.Mundo
import Quipu.Padme

namespace Quipu

open Container

variable {n : Nat} {M K ε ε' : Type}

/-- What a profile of the family puts into its password container: the label of the subkey, the
ceiling of iterations of its reader, and its errors. -/
structure Modo (ε : Type) where
  info : List UInt8
  maxIterations : UInt32
  container : ContainerError → ε
  codebookMismatch : ε
  decrypt : ε

def cabeceraDe (huella : Arr 8) (params : KdfParams) (salt : Arr 16) (nonce : Arr n) :
    Header 16 n where
  version := Container.version
  flags := 0
  codebookId := 0
  codebookHashPrefix := huella
  salt := salt
  nonce := nonce
  kdfMemKib := params.memKib
  kdfIterations := params.iterations
  kdfParallelism := params.parallelism

def Container.Header.params (h : Header 16 n) : KdfParams :=
  ⟨h.kdfMemKib, h.kdfIterations, h.kdfParallelism⟩

namespace Modo

/-- What both writers do once they have a salt and a nonce. -/
def cifrar (modo : Modo ε) (kdf : Kdf M K) (aead : Aead n K) (data : List UInt8)
    (passphrase : String) (huella : Arr 8) (params : KdfParams) (pepper : List UInt8)
    (salt : Arr 16) (nonce : Arr n) : Prog (Mundo n K) ε' (List UInt8) := do
  let master ← derivar kdf passphrase salt pepper params
  let cipherKey := deriveSubkey kdf master modo.info
  let header := cabeceraDe huella params salt nonce
  let padded := Prelayers.pad data
  let ciphertext ← sellar aead cipherKey nonce padded header.toBytes
  pure (serialize header ciphertext)

def descifrar (modo : Modo ε) (kdf : Kdf M K) (aead : Aead n K) (blob : List UInt8)
    (passphrase : String) (huella : Arr 8) (pepper : List UInt8) : Res ε (List UInt8) := do
  let (header, ciphertext) ← Res.mapErr modo.container (parse 16 n blob)
  rechazarSi (header.codebookHashPrefix ≠ huella) modo.codebookMismatch
  rechazarSi (header.params.isSaneUpTo modo.maxIterations = false) modo.decrypt
  let master ← deriveMasterKey kdf passphrase header.salt pepper header.params
  let cipherKey := deriveSubkey kdf master modo.info
  match Cipher.decrypt aead cipherKey header.nonce ciphertext header.toBytes with
  | .error _ => fallar modo.decrypt
  | .ok padded =>
    match Prelayers.unpad padded with
    | .error _ => fallar modo.decrypt
    | .ok data => pure data

def selloDe (modo : Modo ε) (kdf : Kdf M K) (aead : Aead n K) (data : List UInt8)
    (passphrase : String) (huella : Arr 8) (params : KdfParams) (pepper : List UInt8)
    (salt : Arr 16) (nonce : Arr n) : Sello n K :=
  let k := kdf.expandKey (kdf.argon2id (utf8 (normalizar kdf passphrase) ++ pepper) salt.toList
    params) modo.info
  let aad := (cabeceraDe huella params salt nonce).toBytes
  ⟨k, nonce, aad, Prelayers.pad data, aead.sella k nonce (Prelayers.pad data) aad⟩

variable {modo : Modo ε} {kdf : Kdf M K} {aead : Aead n K} {data blob : List UInt8}
  {passphrase : String} {huella : Arr 8} {params : KdfParams} {pepper : List UInt8}
  {salt : Arr 16} {nonce : Arr n}

theorem cifrar_eq_ok {m m' : Mundo n K} :
    (modo.cifrar kdf aead data passphrase huella params pepper salt nonce :
        Prog (Mundo n K) ε' (List UInt8)) m = .ok blob m' ↔
      kdf.acepta params = true ∧
        blob = serialize (cabeceraDe huella params salt nonce) (modo.selloDe kdf aead data
          passphrase huella params pepper salt nonce).ciphertext ∧
        m' = ⟨m.cinta, m.derivaciones ++ [(salt, params)], m.sellos ++ [modo.selloDe kdf aead data
          passphrase huella params pepper salt nonce]⟩ := by
  simp only [cifrar, Prog.bind_ok, derivar_eq_ok, sellar_apply, deriveSubkey]
  constructor
  · rintro ⟨_, _, ⟨ha, rfl, rfl⟩, c, _, hs, hp⟩
    cases hs
    cases hp
    exact ⟨ha, rfl, rfl⟩
  · rintro ⟨ha, rfl, rfl⟩
    exact ⟨_, _, ⟨ha, rfl, rfl⟩, _, _, rfl, rfl⟩

/-- The reader on a container whose seal opens: all hangs on the sanity bound. -/
theorem descifrar_serialize_of_abre (hd : data.length < 2 ^ 63) (ha : kdf.acepta params = true)
    (habre : aead.abre (modo.selloDe kdf aead data passphrase huella params pepper salt nonce).key
      nonce (modo.selloDe kdf aead data passphrase huella params pepper salt nonce).ciphertext
      (cabeceraDe huella params salt nonce).toBytes = some (Prelayers.pad data)) :
    modo.descifrar kdf aead (serialize (cabeceraDe huella params salt nonce) (modo.selloDe kdf
        aead data passphrase huella params pepper salt nonce).ciphertext) passphrase huella
        pepper =
      if params.isSaneUpTo modo.maxIterations then .ok data else fallar modo.decrypt := by
  have hparams : (cabeceraDe huella params salt nonce).params = params := rfl
  have hhuella : ¬(cabeceraDe huella params salt nonce).codebookHashPrefix ≠ huella :=
    not_not.mpr rfl
  have hunpad := Prelayers.unpad_pad_append hd []
  rw [List.append_nil] at hunpad
  rw [descifrar, parse_serialize rfl rfl, Res.mapErr_ok, Res.ok_bind]
  simp only [hparams]
  rw [rechazarSi_of_not _ hhuella, Res.ok_bind]
  by_cases hs : params.isSaneUpTo modo.maxIterations = true
  · have hsella := Cipher.decrypt_eq_ok.mpr habre
    rw [rechazarSi_of_not _ (by simp [hs]), Res.ok_bind, if_pos hs]
    simp only [cabeceraDe, selloDe, deriveSubkey] at hsella ⊢
    simp only [deriveMasterKey_ok ha, Res.ok_bind, hsella, hunpad]
    rfl
  · rw [rechazarSi_of _ (by simpa using hs), Res.error_bind, if_neg hs]
    rfl

/-- The reader on a container that its writer made: all hangs on the sanity bound. -/
theorem descifrar_serialize (hU : aead.Undoes) (hd : data.length < 2 ^ 63)
    (ha : kdf.acepta params = true) :
    modo.descifrar kdf aead (serialize (cabeceraDe huella params salt nonce) (modo.selloDe kdf
        aead data passphrase huella params pepper salt nonce).ciphertext) passphrase huella
        pepper =
      if params.isSaneUpTo modo.maxIterations then .ok data else fallar modo.decrypt :=
  descifrar_serialize_of_abre hd ha (hU _ nonce (Prelayers.pad data) _)

/-- What a writer returned, its reader opens exactly if the cost is in the reader's range. -/
theorem descifrar_cifrar_iff (hU : aead.Undoes) (hd : data.length < 2 ^ 63) {m m' : Mundo n K}
    (h : (modo.cifrar kdf aead data passphrase huella params pepper salt nonce :
      Prog (Mundo n K) ε' (List UInt8)) m = .ok blob m') :
    modo.descifrar kdf aead blob passphrase huella pepper = .ok data ↔
      params.isSaneUpTo modo.maxIterations = true := by
  obtain ⟨ha, rfl, _⟩ := cifrar_eq_ok.mp h
  rw [descifrar_serialize hU hd ha]
  split
  next hs => simp [hs]
  next hs => simp [hs, fallar]

end Modo

namespace Api

inductive DecodeError where
  | symbol (e : DictionaryError)
  | container (e : ContainerError)
  | codebookMismatch
  | decrypt
  | badSignature
  deriving DecidableEq, Repr

structure Options where
  pepper : List UInt8
  kdfParams : KdfParams

def cipherSubkeyInfo : List UInt8 := utf8 "quipu/v1/cipher"

def modo : Modo DecodeError :=
  ⟨cipherSubkeyInfo, 16, .container, .codebookMismatch, .decrypt⟩

def encodeToBlob (kdf : Kdf M K) (aead : Aead 24 K) (data : List UInt8) (passphrase : String)
    (codebookFingerprint : Arr 8) (opts : Options) : Prog (Mundo 24 K) Empty (List UInt8) := do
  let salt ← pedirRng 16
  let nonce ← pedirRng 24
  modo.cifrar kdf aead data passphrase codebookFingerprint opts.kdfParams opts.pepper salt nonce

def decodeFromBlob (kdf : Kdf M K) (aead : Aead 24 K) (blob : List UInt8) (passphrase : String)
    (expectedFingerprint : Arr 8) (pepper : List UInt8) : Res DecodeError (List UInt8) :=
  modo.descifrar kdf aead blob passphrase expectedFingerprint pepper

end Api

namespace Cnsa

inductive DecodeError where
  | container (e : ContainerError)
  | codebookMismatch
  | decrypt
  deriving DecidableEq, Repr

/-- The only error of the writer. -/
inductive SinEntropia where
  | sinEntropia
  deriving DecidableEq, Repr

structure Options where
  kdfParams : KdfParams
  pepper : List UInt8

def cipherSubkeyInfo : List UInt8 := utf8 "quipu-cnsa/v1/cipher"

def modo : Modo DecodeError :=
  ⟨cipherSubkeyInfo, 32, .container, .codebookMismatch, .decrypt⟩

def encodeToBlob (kdf : Kdf M K) (aead : Aead 12 K) (data : List UInt8) (passphrase : String)
    (codebookFingerprint : Arr 8) (opts : Options) :
    Prog (Mundo 12 K) SinEntropia (List UInt8) := do
  let salt ← pedirFill .sinEntropia 16
  let nonce ← pedirFill .sinEntropia 12
  modo.cifrar kdf aead data passphrase codebookFingerprint opts.kdfParams opts.pepper salt nonce

def decodeFromBlob (kdf : Kdf M K) (aead : Aead 12 K) (blob : List UInt8) (passphrase : String)
    (expectedFingerprint : Arr 8) (pepper : List UInt8) : Res DecodeError (List UInt8) :=
  modo.descifrar kdf aead blob passphrase expectedFingerprint pepper

end Cnsa

end Quipu
