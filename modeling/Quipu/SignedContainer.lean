import Quipu.Destinatario
import Quipu.FirmaPreimagen

namespace Quipu

variable {ε : Type}

/-- `usize::checked_add` where the largest `usize` is `usizeMax`. -/
def checkedAdd (usizeMax a b : Nat) : Option Nat := if a + b ≤ usizeMax then some (a + b) else none

theorem checkedAdd_of_le {usizeMax a b : Nat} (h : a + b ≤ usizeMax) :
    checkedAdd usizeMax a b = some (a + b) := if_pos h

theorem checkedAdd_eq_some {usizeMax a b c : Nat} (h : checkedAdd usizeMax a b = some c) :
    a + b = c := by
  unfold checkedAdd at h
  split at h
  next => exact Option.some.inj h
  next => cases h

namespace Api

/-- `Firmado.abrir` with every sum checked against the `usize` of the machine and every slice
against the blob. -/
def Firmado.abrirEn (usizeMax : Nat) (formato : Firmado) (verify : List UInt8 → List UInt8 → Bool)
    (blob : List UInt8) : Res DecodeError (List UInt8) := do
  rechazarSi (blob.length < signedPrefix + formato.signatureLen) (.container .tooShort)
  let magic ← tramo blob 0 4
  rechazarSi (magic ≠ formato.magic) (.container .badMagic)
  let v ← octeto blob 4
  rechazarSi (v ≠ formato.version) (.container (.unsupportedVersion v))
  let largo ← campo blob 6 4
  match checkedAdd usizeMax signedPrefix (ofBe largo.toList) with
  | none => fallar (.container .tooShort)
  | some msgEnd =>
    match checkedAdd usizeMax msgEnd formato.signatureLen with
    | none => fallar (.container .tooShort)
    | some expectedLen => do
      rechazarSi (blob.length ≠ expectedLen) (.container .tooShort)
      let message ← tramo blob signedPrefix msgEnd
      let signature ← tramo blob msgEnd blob.length
      rechazarSi (verify message signature = false) .badSignature
      pure message

def decodeVerifiedEn (usizeMax : Nat) (symbols : String)
    (verify : List UInt8 → List UInt8 → Bool) (dict : Dictionary) :
    Res DecodeError (List UInt8) := do
  let blob ← blobDe dict symbols
  qsg1.abrirEn usizeMax verify blob

def decodeVerifiedTripleEn (usizeMax : Nat) (symbols : String)
    (verify : List UInt8 → List UInt8 → Bool) (dict : Dictionary) :
    Res DecodeError (List UInt8) := do
  let blob ← blobDe dict symbols
  qsg3.abrirEn usizeMax verify blob

/-- Magic, version, flags, the length in 32 bits, the message and its signature. -/
def Firmado.armar (formato : Firmado) (data signature : List UInt8) : List UInt8 :=
  formato.magic ++ [formato.version] ++ [0] ++ u32Be (UInt32.ofNat data.length) ++ data ++
    signature

def armarFirmado (data signature : List UInt8) (dict : Dictionary) : Res ε String :=
  textoDe dict (qsg1.armar data signature)

def encodeSigned (es : Esquemas) (data : List UInt8) (signer : Pqsign.SigningKey)
    (dict : Dictionary) : Prog Firmas ε String := do
  let signature ← signer.sign es data
  Prog.deRes (armarFirmado data signature dict)

def encodeSignedTriple (es : Esquemas) (data : List UInt8) (signer : Pqsign.TripleSigningKey)
    (dict : Dictionary) : Prog Firmas ε String := do
  let signature ← signer.sign es data
  Prog.deRes (textoDe dict (qsg3.armar data signature))

section Abrir

variable {formato : Firmado} {verify : List UInt8 → List UInt8 → Bool} {b : List UInt8}

/-- No sum is lost and no slice is out of range, whatever length the blob declares. -/
theorem Firmado.abrirEn_eq {usizeMax : Nat} (hb : b.length ≤ usizeMax) :
    formato.abrirEn usizeMax verify b = formato.abrir verify b := by
  have h10 : signedPrefix = 10 := rfl
  rw [Firmado.abrirEn, Firmado.abrir, rechazarSi_bind, rechazarSi_bind]
  by_cases hl : b.length < signedPrefix + formato.signatureLen
  · rw [if_pos hl, if_pos hl]
  rw [if_neg hl, if_neg hl, tramo_ok (Nat.zero_le 4) (by omega), Res.ok_bind, List.drop_zero,
    rechazarSi_bind, rechazarSi_bind]
  by_cases hm : b.take 4 ≠ formato.magic
  · rw [if_pos hm, if_pos hm]
  obtain ⟨largo, hcampo⟩ : ∃ largo, (campo b 6 4 : Res DecodeError (Arr 4)) = .ok largo :=
    ⟨_, campo_ok (by omega)⟩
  rw [if_neg hm, if_neg hm, octeto_ok (by omega), hcampo]
  simp only [Res.ok_bind, rechazarSi_bind]
  by_cases hv : b[4] ≠ formato.version
  · rw [if_pos hv, if_pos hv]
  rw [if_neg hv, if_neg hv]
  by_cases hlargo : b.length ≠ signedPrefix + ofBe largo.toList + formato.signatureLen
  · rw [if_pos hlargo]
    split
    next => rfl
    next msgEnd hsuma =>
      split
      next => rfl
      next expectedLen hsuma' =>
        rw [← checkedAdd_eq_some hsuma', ← checkedAdd_eq_some hsuma, if_pos hlargo]
  · have hcabe := not_not.mp hlargo
    rw [if_neg hlargo, checkedAdd_of_le (by omega)]
    simp only
    rw [checkedAdd_of_le (by omega)]
    simp only
    rw [if_neg hlargo, tramo_ok (by omega) (by omega), tramo_ok (by omega) (Nat.le_refl _),
      Res.ok_bind, Res.ok_bind, List.take_length]

/-- The blob is the magic, the version, a flags byte, the length of `m`, `m`, and a signature of
the length of the scheme that verifies over `m`. -/
def Firmado.Contiene (formato : Firmado) (verify : List UInt8 → List UInt8 → Bool)
    (b m : List UInt8) : Prop :=
  ∃ flags signature, b = formato.magic ++ [formato.version] ++ [flags] ++ be 4 m.length ++ m ++
      signature ∧
    m.length < 2 ^ 32 ∧ signature.length = formato.signatureLen ∧ verify m signature = true

theorem Firmado.contiene_of_abrir {m : List UInt8} (h : formato.abrir verify b = .ok m) :
    formato.Contiene verify b m := by
  have h10 : signedPrefix = 10 := rfl
  simp only [Firmado.abrir, Res.bind_ok, rechazarSi_eq_ok] at h
  obtain ⟨_, hl, _, hm, v, hv, _, hver, largo, hlargo, _, hlen, _, hfirma, hres⟩ := h
  have hl' := Nat.not_lt.mp hl
  have hlen' := not_not.mp hlen
  have h5 : 5 < b.length := by omega
  have hmax := ofBe_arr_lt largo
  have hcuerpo : b.drop 10 = m ++ b.drop (signedPrefix + ofBe largo.toList) := by
    rw [← Res.pure_eq_ok.mp hres, List.drop_take, ← List.drop_drop, h10,
      Nat.add_sub_cancel_left, List.take_append_drop]
  have hmlen : m.length = ofBe largo.toList := by
    rw [← Res.pure_eq_ok.mp hres, List.length_drop, List.length_take]
    omega
  have hbytes : be 4 m.length = largo.toList := by
    rw [hmlen, be_ofBe_arr]
  refine ⟨b[5], b.drop (signedPrefix + ofBe largo.toList), ?_, hmlen ▸ hmax, ?_, ?_⟩
  · rw [hbytes, ← not_not.mp hm, ← not_not.mp hver]
    simp only [List.append_assoc, List.cons_append, List.nil_append]
    rw [← hcuerpo, ← drop_of_campo hlargo, ← List.drop_eq_getElem_cons h5, ← drop_of_octeto hv,
      List.take_append_drop]
  · rw [List.length_drop]
    omega
  · rw [← Res.pure_eq_ok.mp hres]
    simpa using hfirma

theorem Firmado.Contiene.abrir (hmagic : formato.magic.length = 4) {m : List UInt8}
    (h : formato.Contiene verify b m) : formato.abrir verify b = .ok m := by
  have h10 : signedPrefix = 10 := rfl
  obtain ⟨flags, signature, hb, hlen, hfirma, hver⟩ := h
  have hnum : ofBe (be 4 m.length) = m.length := ofBe_be hlen
  have htake : b.take 4 = formato.magic := by
    rw [hb]
    simp only [List.append_assoc]
    exact List.take_left' hmagic
  have r : Sigue b 4 (formato.version :: flags :: ((Arr.of (be 4 m.length)
      (length_be 4 _)).toList ++ (m ++ signature))) := by
    refine ⟨formato.magic, ?_, hmagic⟩
    rw [hb, Arr.toList_of]
    simp only [List.append_assoc, List.cons_append, List.nil_append]
  obtain ⟨hv, r⟩ := r.octeto (ε := DecodeError)
  obtain ⟨_, r⟩ := r.octeto (ε := DecodeError)
  obtain ⟨hcampo, a, hcuerpo, halen⟩ := r.campo (ε := DecodeError)
  have hdrop : b.drop 10 = m ++ signature := by
    rw [hcuerpo]
    exact List.drop_left' halen
  have hblen : b.length = 10 + m.length + signature.length := by
    rw [hcuerpo, List.length_append, List.length_append, halen]
    omega
  have hmsg : (b.take (10 + m.length)).drop 10 = m := by
    rw [List.drop_take, hdrop, Nat.add_sub_cancel_left, List.take_left]
  have hsig : b.drop (10 + m.length) = signature := by
    rw [← List.drop_drop, hdrop, List.drop_left]
  simp only [Nat.reduceAdd] at hcampo
  rw [Firmado.abrir, rechazarSi_of_not _ (by omega), Res.ok_bind,
    rechazarSi_of_not _ (not_not.mpr htake), Res.ok_bind, hv, Res.ok_bind,
    rechazarSi_of_not _ (not_not.mpr rfl), Res.ok_bind, hcampo, Res.ok_bind, Arr.toList_of, hnum,
    h10]
  simp only [hmsg, hsig]
  rw [rechazarSi_of_not _ (by omega), Res.ok_bind, rechazarSi_of_not _ (by simp [hver]),
    Res.ok_bind]
  rfl

/-- What the reader found in a blob that it opened. -/
theorem Firmado.abrir_eq_ok (hmagic : formato.magic.length = 4) {m : List UInt8} :
    formato.abrir verify b = .ok m ↔ formato.Contiene verify b m :=
  ⟨Firmado.contiene_of_abrir, fun h => h.abrir hmagic⟩

theorem Firmado.contiene_armar {data signature : List UInt8} (hlen : data.length < 2 ^ 32)
    (hfirma : signature.length = formato.signatureLen) (hver : verify data signature = true) :
    formato.Contiene verify (formato.armar data signature) data := by
  refine ⟨0, signature, ?_, hlen, hfirma, hver⟩
  rw [Firmado.armar, u32Be_ofNat hlen]

theorem Firmado.length_armar (hmagic : formato.magic.length = 4) {data signature : List UInt8}
    (hfirma : signature.length = formato.signatureLen) :
    (formato.armar data signature).length = signedPrefix + data.length + formato.signatureLen := by
  have h10 : signedPrefix = 10 := rfl
  simp only [Firmado.armar, List.length_append, length_u32Be, List.length_singleton]
  omega

end Abrir

end Api

/-- What a secret key signs, its public key accepts. -/
def Esquema.Correcto {s v f : Nat} (e : Esquema s v f) (sk : Arr s) : Prop :=
  ∀ p, e.acepta (e.publica sk) p (e.firma sk p) = true

namespace Pqsign

variable {es : Esquemas}

/-- A signature has its length and verifies over its message. -/
theorem SigningKey.verify_sign {sk : SigningKey} (hed : es.ed.Correcto sk.edSeed)
    (hml : es.ml.Correcto sk.mlSeed) (message : List UInt8) (r : Firmas) :
    ∃ sig r', (sk.sign es message : Prog Firmas ε (List UInt8)) r = .ok sig r' ∧
      sig.length = signatureLen ∧ (sk.verifyingKey es).verify es message sig = true := by
  let p := buildPreimage (sk.verifyingKey es).toBytes message
  have hlen : ((es.ed.firma sk.edSeed p).toList ++ (es.ml.firma sk.mlSeed p).toList).length =
      signatureLen := by
    rw [List.length_append, List.Vector.toList_length, List.Vector.toList_length]
    rfl
  refine ⟨_, _, rfl, hlen, ?_⟩
  rw [verify_append]
  exact Bool.and_eq_true_iff.mpr ⟨hed p, hml p⟩

theorem TripleSigningKey.verify_sign {sk : TripleSigningKey} (hlee : es.leeSlh sk.slhSk = true)
    (hed : es.ed.Correcto sk.edSeed) (hml : es.ml.Correcto sk.mlSeed)
    (hslh : es.slh.Correcto sk.slhSk) (message : List UInt8) (r : Firmas) :
    ∃ vk sig r', (sk.verifyingKey es : Res ε TripleVerifyingKey) = .ok vk ∧
      (sk.sign es message : Prog Firmas ε (List UInt8)) r = .ok sig r' ∧
      sig.length = tripleSignatureLen ∧ vk.verify es message sig = true := by
  have hclave : (slhSigningKey es sk.slhSk : Res ε (Arr 128)) = .ok sk.slhSk := if_pos hlee
  let vk : TripleVerifyingKey :=
    ⟨es.ed.publica sk.edSeed, es.ml.publica sk.mlSeed, es.slh.publica sk.slhSk⟩
  have hvk : (sk.verifyingKey es : Res ε TripleVerifyingKey) = .ok vk := by
    rw [TripleSigningKey.verifyingKey, hclave]
    rfl
  let p := buildTriplePreimage vk.toBytes message
  have hted : (es.ed.firma sk.edSeed p).toList.length = ed25519SigLen :=
    List.Vector.toList_length _
  have html : (es.ml.firma sk.mlSeed p).toList.length = mldsaSigLen :=
    List.Vector.toList_length _
  have htslh : (es.slh.firma sk.slhSk p).toList.length = slhSigLen :=
    List.Vector.toList_length _
  have hlen : ((es.ed.firma sk.edSeed p).toList ++ (es.ml.firma sk.mlSeed p).toList ++
      (es.slh.firma sk.slhSk p).toList).length = tripleSignatureLen := by
    rw [List.length_append, List.length_append, hted, html, htslh]
    rfl
  have hsign : ∃ r', (sk.sign es message : Prog Firmas ε (List UInt8)) r =
      .ok ((es.ed.firma sk.edSeed p).toList ++ (es.ml.firma sk.mlSeed p).toList ++
        (es.slh.firma sk.slhSk p).toList) r' := by
    rw [TripleSigningKey.sign, Prog.deRes_bind_of_ok hvk, hclave]
    exact ⟨_, rfl⟩
  obtain ⟨r', hsign⟩ := hsign
  refine ⟨vk, _, r', hvk, hsign, hlen, ?_⟩
  rw [TripleVerifyingKey.verify, if_neg (not_not.mpr hlen), List.append_assoc,
    List.take_left' hted, List.drop_left' hted]
  simp only [List.take_left' html, List.drop_left' html, aceptaBytes_toList]
  exact Bool.and_eq_true_iff.mpr ⟨Bool.and_eq_true_iff.mpr ⟨hed p, hml p⟩, hslh p⟩

end Pqsign

namespace Api

variable {es : Esquemas} {dict : Dictionary}

/-- A blob that starts with another magic is refused. -/
theorem Firmado.rechaza_de_magic {formato : Firmado} {verify : List UInt8 → List UInt8 → Bool}
    {b : List UInt8} (h : b.take 4 ≠ formato.magic) : Res.Rechaza (formato.abrir verify b) := by
  refine Firmado.sinPanico.rechaza_iff.mpr fun hacepta => h ?_
  exact (Firmado.acepta_iff.mp hacepta).2.1

theorem leer_texto {usizeMax : Nat} {formato : Firmado} (hmagic : formato.magic.length = 4)
    {verify : List UInt8 → List UInt8 → Bool} {data signature : List UInt8} {text : String}
    (htext : (textoDe dict (formato.armar data signature) : Res ε String) = .ok text)
    (hlen : data.length < 2 ^ 32) (hfirma : signature.length = formato.signatureLen)
    (hver : verify data signature = true)
    (hcabe : signedPrefix + data.length + formato.signatureLen ≤ usizeMax) :
    (do let blob ← blobDe dict text
        formato.abrirEn usizeMax verify blob) = .ok data := by
  rw [blobDe_of_textoDe htext, Res.ok_bind,
    Firmado.abrirEn_eq (by rw [Firmado.length_armar hmagic hfirma]; exact hcabe)]
  exact (Firmado.abrir_eq_ok hmagic).mpr (Firmado.contiene_armar hlen hfirma hver)

theorem decode_encodeSigned {usizeMax : Nat} {signer : Pqsign.SigningKey} {m : List UInt8}
    (hed : es.ed.Correcto signer.edSeed) (hml : es.ml.Correcto signer.mlSeed)
    (hlen : m.length < 2 ^ 32)
    (hcabe : signedPrefix + m.length + Pqsign.signatureLen ≤ usizeMax) (r : Firmas) :
    ∃ text r', (encodeSigned es m signer dict : Prog Firmas ε String) r = .ok text r' ∧
      decodeVerifiedEn usizeMax text ((signer.verifyingKey es).verify es) dict = .ok m := by
  obtain ⟨sig, r', hsign, hslen, hver⟩ := signer.verify_sign (ε := ε) hed hml m r
  obtain ⟨text, htext, _⟩ := textoDe_ok (ε := ε) dict (qsg1.armar m sig)
  refine ⟨text, r', ?_, leer_texto (ε := ε) rfl htext hlen hslen hver hcabe⟩
  rw [encodeSigned, Prog.bind_of_ok hsign, armarFirmado, htext]
  rfl

theorem decode_encodeSignedTriple {usizeMax : Nat} {signer : Pqsign.TripleSigningKey}
    {m : List UInt8} (hlee : es.leeSlh signer.slhSk = true) (hed : es.ed.Correcto signer.edSeed)
    (hml : es.ml.Correcto signer.mlSeed) (hslh : es.slh.Correcto signer.slhSk)
    (hlen : m.length < 2 ^ 32)
    (hcabe : signedPrefix + m.length + Pqsign.tripleSignatureLen ≤ usizeMax) (r : Firmas) :
    ∃ vk text r', (signer.verifyingKey es : Res ε Pqsign.TripleVerifyingKey) = .ok vk ∧
      (encodeSignedTriple es m signer dict : Prog Firmas ε String) r = .ok text r' ∧
      decodeVerifiedTripleEn usizeMax text (vk.verify es) dict = .ok m := by
  obtain ⟨vk, sig, r', hvk, hsign, hslen, hver⟩ :=
    signer.verify_sign (ε := ε) hlee hed hml hslh m r
  obtain ⟨text, htext, _⟩ := textoDe_ok (ε := ε) dict (qsg3.armar m sig)
  refine ⟨vk, text, r', hvk, ?_, leer_texto (ε := ε) rfl htext hlen hslen hver hcabe⟩
  rw [encodeSignedTriple, Prog.bind_of_ok hsign, htext]
  rfl

/-- Both signed formats, on a machine whose largest `usize` is `usizeMax`. -/
theorem contenedor_firmado (es : Esquemas) (dict : Dictionary) (usizeMax : Nat) :
    (∀ symbols blob, blobDe dict symbols = .ok blob → blob.length ≤ usizeMax →
      ∀ verify,
        (Res.SinPanico (decodeVerifiedEn usizeMax symbols verify dict) ∧
          Res.SinPanico (decodeVerifiedTripleEn usizeMax symbols verify dict)) ∧
        (∀ m, (decodeVerifiedEn usizeMax symbols verify dict = .ok m ↔
            qsg1.Contiene verify blob m) ∧
          (decodeVerifiedTripleEn usizeMax symbols verify dict = .ok m ↔
            qsg3.Contiene verify blob m)) ∧
        (blob.take 4 = qsg3.magic → Res.Rechaza (decodeVerifiedEn usizeMax symbols verify dict)) ∧
        (blob.take 4 = qsg1.magic →
          Res.Rechaza (decodeVerifiedTripleEn usizeMax symbols verify dict))) ∧
    (∀ (signer : Pqsign.SigningKey) m r, es.ed.Correcto signer.edSeed →
      es.ml.Correcto signer.mlSeed → m.length < 2 ^ 32 →
      signedPrefix + m.length + Pqsign.signatureLen ≤ usizeMax →
        ∃ text r', (encodeSigned es m signer dict : Prog Firmas Empty String) r = .ok text r' ∧
          decodeVerifiedEn usizeMax text ((signer.verifyingKey es).verify es) dict = .ok m) ∧
    ∀ (signer : Pqsign.TripleSigningKey) m r, es.leeSlh signer.slhSk = true →
      es.ed.Correcto signer.edSeed → es.ml.Correcto signer.mlSeed →
      es.slh.Correcto signer.slhSk → m.length < 2 ^ 32 →
      signedPrefix + m.length + Pqsign.tripleSignatureLen ≤ usizeMax →
        ∃ vk text r', (signer.verifyingKey es : Res Empty Pqsign.TripleVerifyingKey) = .ok vk ∧
          (encodeSignedTriple es m signer dict : Prog Firmas Empty String) r = .ok text r' ∧
          decodeVerifiedTripleEn usizeMax text (vk.verify es) dict = .ok m := by
  refine ⟨?_, ?_, ?_⟩
  · intro symbols blob hblob hcabe verify
    have hdos : decodeVerifiedEn usizeMax symbols verify dict = qsg1.abrir verify blob := by
      rw [decodeVerifiedEn, hblob, Res.ok_bind, Firmado.abrirEn_eq hcabe]
    have htres : decodeVerifiedTripleEn usizeMax symbols verify dict = qsg3.abrir verify blob := by
      rw [decodeVerifiedTripleEn, hblob, Res.ok_bind, Firmado.abrirEn_eq hcabe]
    rw [hdos, htres]
    refine ⟨⟨Firmado.sinPanico, Firmado.sinPanico⟩,
      fun m => ⟨Firmado.abrir_eq_ok rfl, Firmado.abrir_eq_ok rfl⟩, fun h => ?_, fun h => ?_⟩
    · exact Firmado.rechaza_de_magic (by rw [h]; decide)
    · exact Firmado.rechaza_de_magic (by rw [h]; decide)
  · intro signer m r hed hml hlen hcabe
    exact decode_encodeSigned hed hml hlen hcabe r
  · intro signer m r hlee hed hml hslh hlen hcabe
    exact decode_encodeSignedTriple hlee hed hml hslh hlen hcabe r

end Api

/-- A scheme whose public key starts the secret one, and that signs with the public key. -/
def Esquema.abierto {s v f : Nat} : Esquema s v f where
  publica := fun sk => ajustar v sk.toList
  firma := fun sk _ => ajustar f (ajustar v sk.toList).toList
  acepta := fun pk _ sig => decide (sig = ajustar f pk.toList)

theorem Esquema.abierto_correcto {s v f : Nat} (sk : Arr s) :
    (Esquema.abierto : Esquema s v f).Correcto sk := fun _ => decide_eq_true rfl

def Esquemas.abiertos : Esquemas := ⟨.abierto, .abierto, .abierto, fun _ => true⟩

namespace Api

theorem contenedor_firmado_ab :
    (Res.SinPanico (decodeVerifiedEn 4294967295 "B" (fun _ _ => true) alfabetoAB) ∧
      ∀ m, decodeVerifiedEn 4294967295 "B" (fun _ _ => true) alfabetoAB = .ok m ↔
        qsg1.Contiene (fun _ _ => true) [] m) ∧
    (∃ text r', (encodeSigned .abiertos [0, 7] ⟨ajustar 32 [1], ajustar 32 [2]⟩ alfabetoAB :
        Prog Firmas Empty String) ⟨[], [], []⟩ = .ok text r' ∧
      decodeVerifiedEn 4294967295 text ((Pqsign.SigningKey.verifyingKey .abiertos
        ⟨ajustar 32 [1], ajustar 32 [2]⟩).verify .abiertos) alfabetoAB = .ok [0, 7]) ∧
    ∃ vk text r', (encodeSignedTriple .abiertos [0, 7] ⟨ajustar 32 [1], ajustar 32 [2],
        ajustar 128 [3]⟩ alfabetoAB : Prog Firmas Empty String) ⟨[], [], []⟩ = .ok text r' ∧
      decodeVerifiedTripleEn 4294967295 text (Pqsign.TripleVerifyingKey.verify .abiertos vk)
        alfabetoAB = .ok [0, 7] := by
  obtain ⟨hlee, hdos, htres⟩ := contenedor_firmado .abiertos alfabetoAB 4294967295
  have hB : blobDe alfabetoAB "B" = .ok [] := by
    have hdec : alfabetoAB.decode "B" = .ok [1] := by decide
    rw [blobDe, hdec]
    rfl
  obtain ⟨⟨hsin, _⟩, hiff, _⟩ := hlee "B" [] hB (by decide) fun _ _ => true
  refine ⟨⟨hsin, fun m => (hiff m).1⟩, ?_, ?_⟩
  · exact hdos ⟨ajustar 32 [1], ajustar 32 [2]⟩ [0, 7] _ (Esquema.abierto_correcto _)
      (Esquema.abierto_correcto _) (by decide) (by decide)
  · obtain ⟨vk, text, r', _, henc, hdec⟩ := htres ⟨ajustar 32 [1], ajustar 32 [2], ajustar 128 [3]⟩
      [0, 7] _ rfl (Esquema.abierto_correcto _) (Esquema.abierto_correcto _)
      (Esquema.abierto_correcto _) (by decide) (by decide)
    exact ⟨vk, text, r', henc, hdec⟩

end Api

end Quipu
