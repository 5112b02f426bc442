import Quipu.PasswordBlob

namespace Quipu

namespace Api

/-- The blob that a text stands for, as each decoder of texts gets it. -/
def blobDe (dict : Dictionary) (symbols : String) : Res DecodeError (List UInt8) := do
  let indices ← (dict.decode symbols).mapError fun e => .error (.symbol e)
  pure (Codec.decodeBaseN indices dict.base)

/-- A signed format: `QSG1` and `QSG3` differ in their magic and the length of the signature. -/
structure Firmado where
  magic : List UInt8
  version : UInt8
  signatureLen : Nat

/-- Magic, version, flags and the length of the message. -/
def signedPrefix : Nat := 10

def Firmado.abrir (formato : Firmado) (verify : List UInt8 → List UInt8 → Bool)
    (blob : List UInt8) : Res DecodeError (List UInt8) := do
  rechazarSi (blob.length < signedPrefix + formato.signatureLen) (.container .tooShort)
  rechazarSi (blob.take 4 ≠ formato.magic) (.container .badMagic)
  let v ← octeto blob 4
  rechazarSi (v ≠ formato.version) (.container (.unsupportedVersion v))
  let largo ← campo blob 6 4
  let msgEnd := signedPrefix + ofBe largo.toList
  rechazarSi (blob.length ≠ msgEnd + formato.signatureLen) (.container .tooShort)
  let message := (blob.take msgEnd).drop signedPrefix
  let signature := blob.drop msgEnd
  rechazarSi (verify message signature = false) .badSignature
  pure message

/-- The bytes of `QSG1`, and the lengths of an Ed25519 and an ML-DSA-87 signature. -/
def qsg1 : Firmado := ⟨[0x51, 0x53, 0x47, 0x31], 1, 64 + 4627⟩

/-- The bytes of `QSG3`, with an SLH-DSA signature after the other two. -/
def qsg3 : Firmado := ⟨[0x51, 0x53, 0x47, 0x33], 1, 64 + 4627 + 29792⟩

def decodeVerified (symbols : String) (verify : List UInt8 → List UInt8 → Bool)
    (dict : Dictionary) : Res DecodeError (List UInt8) := do
  let blob ← blobDe dict symbols
  qsg1.abrir verify blob

def decodeVerifiedTriple (symbols : String) (verify : List UInt8 → List UInt8 → Bool)
    (dict : Dictionary) : Res DecodeError (List UInt8) := do
  let blob ← blobDe dict symbols
  qsg3.abrir verify blob

/-- The bytes of `QPQ1`. -/
def hybridMagic : List UInt8 := [0x51, 0x50, 0x51, 0x31]

def hybridVersion : UInt8 := 1

def hybridPrefix : Nat := 30

def encapsulationLen : Nat := 32 + 1568

def abrirHibrido {K : Type} (aead : Aead 24 K) (decapsulate : List UInt8 → Option K)
    (blob : List UInt8) : Res DecodeError (List UInt8) := do
  let headerLen := hybridPrefix + encapsulationLen
  rechazarSi (blob.length < headerLen) (.container .tooShort)
  rechazarSi (blob.take 4 ≠ hybridMagic) (.container .badMagic)
  let v ← octeto blob 4
  rechazarSi (v ≠ hybridVersion) (.container (.unsupportedVersion v))
  let nonce ← campo blob 6 24
  let encapsulation := (blob.take headerLen).drop hybridPrefix
  let aad := blob.take headerLen
  let ciphertext := blob.drop headerLen
  match decapsulate encapsulation with
  | none => fallar .decrypt
  | some contentKey =>
    match Cipher.decrypt aead contentKey nonce ciphertext aad with
    | .error _ => fallar .decrypt
    | .ok padded =>
      match Prelayers.unpad padded with
      | .error _ => fallar .decrypt
      | .ok data => pure data

def decodeAsRecipient {K : Type} (aead : Aead 24 K) (symbols : String)
    (decapsulate : List UInt8 → Option K) (dict : Dictionary) : Res DecodeError (List UInt8) := do
  let blob ← blobDe dict symbols
  abrirHibrido aead decapsulate blob

/-- What `abrir` asks of a blob; the flags byte has no part in it. -/
def Firmado.Admisible (formato : Firmado) (verify : List UInt8 → List UInt8 → Bool)
    (b : List UInt8) : Prop :=
  signedPrefix + formato.signatureLen ≤ b.length ∧ b.take 4 = formato.magic ∧
    b[4]? = some formato.version ∧
    ∃ largo : Arr 4, largo.toList = (b.drop 6).take 4 ∧
      b.length = signedPrefix + ofBe largo.toList + formato.signatureLen ∧
      verify ((b.take (signedPrefix + ofBe largo.toList)).drop signedPrefix)
        (b.drop (signedPrefix + ofBe largo.toList)) = true

/-- What `abrirHibrido` asks of a blob; the flags byte enters it only as associated data. -/
def HibridoAdmisible {K : Type} (aead : Aead 24 K) (decapsulate : List UInt8 → Option K)
    (b : List UInt8) : Prop :=
  hybridPrefix + encapsulationLen ≤ b.length ∧ b.take 4 = hybridMagic ∧
    b[4]? = some hybridVersion ∧
    ∃ (nonce : Arr 24) (k : K) (padded data : List UInt8), nonce.toList = (b.drop 6).take 24 ∧
      decapsulate ((b.take (hybridPrefix + encapsulationLen)).drop hybridPrefix) = some k ∧
      aead.abre k nonce (b.drop (hybridPrefix + encapsulationLen))
        (b.take (hybridPrefix + encapsulationLen)) = some padded ∧
      Prelayers.unpad padded = .ok data

section Firmado

variable {formato : Firmado} {verify : List UInt8 → List UInt8 → Bool} {b : List UInt8}

theorem Firmado.sinPanico : Res.SinPanico (formato.abrir verify b) := by
  have h10 : signedPrefix = 10 := rfl
  rw [Firmado.abrir, rechazarSi_bind]
  refine Res.sinPanico_ite fun hl => ?_
  rw [octeto_ok (by omega), campo_ok (by omega)]
  simp only [rechazarSi_bind, Res.ok_bind]
  exact Res.sinPanico_ite fun _ => Res.sinPanico_ite fun _ => Res.sinPanico_ite fun _ =>
    Res.sinPanico_ite fun _ => Res.sinPanico_ok _

theorem Firmado.acepta_iff : Res.Acepta (formato.abrir verify b) ↔ formato.Admisible verify b := by
  constructor
  · rintro ⟨m, h⟩
    simp only [Firmado.abrir, Res.bind_ok, rechazarSi_eq_ok] at h
    obtain ⟨_, hl, _, hm, v, hv, _, hver, largo, hlargo, _, hlen, _, hfirma, _⟩ := h
    refine ⟨Nat.not_lt.mp hl, not_not.mp hm, ?_, largo, (campo_eq_ok.mp hlargo).2,
      not_not.mp hlen, by simpa using hfirma⟩
    rw [octeto_eq_ok.mp hv, not_not.mp hver]
  · rintro ⟨hl, hm, hv, largo, hlargo, hlen, hver⟩
    have h10 : signedPrefix = 10 := rfl
    have hcampo := (campo_eq_ok (ε := DecodeError)).mpr ⟨by omega, hlargo⟩
    simp only [Firmado.abrir, octeto_eq_ok.mpr hv, hcampo, rechazarSi_bind, Res.ok_bind]
    rw [if_neg (by omega), if_neg (not_not.mpr hm), if_neg (not_not.mpr rfl),
      if_neg (not_not.mpr hlen), if_neg (by simp [hver])]
    exact ⟨_, rfl⟩

end Firmado

section Hibrido

variable {K : Type} {aead : Aead 24 K} {decapsulate : List UInt8 → Option K} {b : List UInt8}

theorem sinPanico_abrirHibrido : Res.SinPanico (abrirHibrido aead decapsulate b) := by
  have h30 : hybridPrefix = 30 := rfl
  rw [abrirHibrido, rechazarSi_bind]
  refine Res.sinPanico_ite fun hl => ?_
  rw [octeto_ok (by omega), campo_ok (by omega)]
  simp only [rechazarSi_bind, Res.ok_bind]
  refine Res.sinPanico_ite fun _ => Res.sinPanico_ite fun _ => ?_
  split
  next => exact Res.sinPanico_fallar _
  next =>
    split
    next => exact Res.sinPanico_fallar _
    next =>
      split
      next => exact Res.sinPanico_fallar _
      next => exact Res.sinPanico_ok _

/-- What the reader found in a blob that it opened. -/
theorem abrirHibrido_eq_ok {d : List UInt8} :
    abrirHibrido aead decapsulate b = .ok d ↔
      hybridPrefix + encapsulationLen ≤ b.length ∧ b.take 4 = hybridMagic ∧
        b[4]? = some hybridVersion ∧
        ∃ (nonce : Arr 24) (k : K) (padded : List UInt8), nonce.toList = (b.drop 6).take 24 ∧
          decapsulate ((b.take (hybridPrefix + encapsulationLen)).drop hybridPrefix) = some k ∧
          aead.abre k nonce (b.drop (hybridPrefix + encapsulationLen))
            (b.take (hybridPrefix + encapsulationLen)) = some padded ∧
          Prelayers.unpad padded = .ok d := by
  constructor
  · intro h
    simp only [abrirHibrido, Res.bind_ok, rechazarSi_eq_ok] at h
    obtain ⟨_, hl, _, hm, v, hv, _, hver, nonce, hn, h⟩ := h
    have hv : b[4]? = some hybridVersion := by rw [octeto_eq_ok.mp hv, not_not.mp hver]
    split at h
    next => cases h
    next k hk =>
      split at h
      next => cases h
      next padded hp =>
        split at h
        next => cases h
        next datos hd =>
          cases h
          exact ⟨Nat.not_lt.mp hl, not_not.mp hm, hv, nonce, k, padded, (campo_eq_ok.mp hn).2, hk,
            Cipher.decrypt_eq_ok.mp hp, hd⟩
  · rintro ⟨hl, hm, hv, nonce, k, padded, hn, hk, hp, hd⟩
    have h30 : hybridPrefix = 30 := rfl
    have hcampo := (campo_eq_ok (ε := DecodeError)).mpr ⟨by omega, hn⟩
    simp only [abrirHibrido, octeto_eq_ok.mpr hv, hcampo, rechazarSi_bind, Res.ok_bind, hk,
      Cipher.decrypt_eq_ok.mpr hp, hd]
    rw [if_neg (by omega), if_neg (not_not.mpr hm), if_neg (not_not.mpr rfl)]
    rfl

theorem acepta_abrirHibrido_iff :
    Res.Acepta (abrirHibrido aead decapsulate b) ↔ HibridoAdmisible aead decapsulate b := by
  constructor
  · rintro ⟨data, h⟩
    obtain ⟨hl, hm, hv, nonce, k, padded, hn, hk, hp, hd⟩ := abrirHibrido_eq_ok.mp h
    exact ⟨hl, hm, hv, nonce, k, padded, data, hn, hk, hp, hd⟩
  · rintro ⟨hl, hm, hv, nonce, k, padded, data, hn, hk, hp, hd⟩
    exact ⟨data, abrirHibrido_eq_ok.mpr ⟨hl, hm, hv, nonce, k, padded, hn, hk, hp, hd⟩⟩

end Hibrido

end Api

end Quipu
