import Quipu.Firmante
import Quipu.SignedContainer

namespace Quipu.Api

open Firmante Pqsign

variable {σ : Type}

/-- `encode_signed` against a custodian, whose errors it hands on. -/
def encodeSignedConCustodio (data : List UInt8) (custodio : Custodio σ) (dict : Dictionary) :
    Prog σ ErrorDeFirma String := do
  let signature ← firmar custodio data
  Prog.deRes (armarFirmado data signature dict)

/-- A written blob is accepted as its own message or not at all. -/
theorem Firmado.contiene_armar_iff {formato : Firmado} {verify : List UInt8 → List UInt8 → Bool}
    {data signature m : List UInt8} (hfirma : signature.length = formato.signatureLen) :
    formato.Contiene verify (formato.armar data signature) m ↔
      data.length < 2 ^ 32 ∧ m = data ∧ verify data signature = true := by
  constructor
  · rintro ⟨flags, sig, hb, hlen, hsig, hver⟩
    rw [Firmado.armar] at hb
    obtain ⟨hcuerpo, rfl⟩ := List.append_inj' hb (hfirma.trans hsig.symm)
    have hl := congrArg List.length hcuerpo
    simp only [List.length_append, length_u32Be, length_be, List.length_singleton] at hl
    obtain ⟨_, rfl⟩ := List.append_inj' hcuerpo (by omega)
    exact ⟨hlen, rfl, hver⟩
  · rintro ⟨hlen, rfl, hver⟩
    exact Firmado.contiene_armar hlen hfirma hver

theorem armarFirmado_ok {ε : Type} (data signature : List UInt8) (dict : Dictionary) :
    ∃ text, (armarFirmado data signature dict : Res ε String) = .ok text := by
  obtain ⟨text, htext, _⟩ := textoDe_ok (ε := ε) dict (qsg1.armar data signature)
  exact ⟨text, htext⟩

/-- What any verifier makes of a text with a signature of the right length. -/
theorem decodeVerified_armarFirmado {ε : Type} {data signature m : List UInt8} {dict : Dictionary}
    {text : String} (h : (armarFirmado data signature dict : Res ε String) = .ok text)
    (hfirma : signature.length = signatureLen) (verify : List UInt8 → List UInt8 → Bool) :
    decodeVerified text verify dict = .ok m ↔
      data.length < 2 ^ 32 ∧ m = data ∧ verify data signature = true := by
  rw [decodeVerified, blobDe_of_textoDe h, Res.ok_bind, Firmado.abrir_eq_ok rfl]
  exact Firmado.contiene_armar_iff hfirma

theorem encodeSignedConCustodio_eq_ok {data : List UInt8} {custodio : Custodio σ}
    {dict : Dictionary} {s s' : σ} {text : String} :
    encodeSignedConCustodio data custodio dict s = .ok text s' ↔
      ∃ signature, firmar custodio data s = .ok signature s' ∧
        (armarFirmado data signature dict : Res ErrorDeFirma String) = .ok text := by
  rw [encodeSignedConCustodio, Prog.bind_ok]
  constructor
  · rintro ⟨signature, s₁, hfirma, h⟩
    obtain ⟨htext, rfl⟩ := Prog.deRes_eq_ok.mp h
    exact ⟨signature, hfirma, htext⟩
  · rintro ⟨signature, hfirma, htext⟩
    exact ⟨signature, s', hfirma, Prog.deRes_eq_ok.mpr ⟨htext, rfl⟩⟩

/-- The text fails only where the custodian does. -/
theorem encodeSignedConCustodio_eq_error {data : List UInt8} {custodio : Custodio σ}
    {dict : Dictionary} {s s' : σ} {e : Fallo ErrorDeFirma} :
    encodeSignedConCustodio data custodio dict s = .error e s' ↔
      firmar custodio data s = .error e s' := by
  rw [encodeSignedConCustodio]
  cases hf : firmar custodio data s with
  | ok signature s₁ =>
    obtain ⟨text, htext⟩ := armarFirmado_ok (ε := ErrorDeFirma) data signature dict
    rw [Prog.bind_of_ok hf, htext, Prog.deRes_ok]
    constructor
    · intro h
      cases h
    · intro h
      cases h
  | error e' s₁ =>
    rw [Prog.bind_of_error hf]
    constructor
    · intro h
      cases h
      rfl
    · intro h
      cases h
      rfl

/-- With the key in memory the text is that of `encode_signed`; with any other custodian it is a
text that opens, as the message, exactly if both halves are good signatures under the key that the
custodian gives. -/
theorem custodio_texto (es : Esquemas) (data : List UInt8) (dict : Dictionary) :
    (∀ sk : SigningKey, encodeSignedConCustodio data (enMemoria es sk) dict =
      encodeSigned es data sk dict) ∧
    ∀ (σ : Type) (custodio : Custodio σ) (s s' : σ),
      (∀ e, encodeSignedConCustodio data custodio dict s = .error e s' ↔
        firmar custodio data s = .error e s') ∧
      ∀ text, encodeSignedConCustodio data custodio dict s = .ok text s' →
        ∃ (vk : VerifyingKey) (ed : Arr 64) (ml : Arr 4627) (s₁ s₂ : σ),
          custodio.claveDeVerificacion s = .ok vk s₁ ∧
          custodio.firmarEd25519 (buildPreimage vk.toBytes data) s₁ = .ok ed.toList s₂ ∧
          custodio.firmarMldsa (buildPreimage vk.toBytes data) s₂ = .ok ml.toList s' ∧
          ∀ m, decodeVerified text (vk.verify es) dict = .ok m ↔
            data.length < 2 ^ 32 ∧ m = data ∧
              es.ed.acepta vk.ed (buildPreimage vk.toBytes data) ed = true ∧
              es.ml.acepta vk.ml (buildPreimage vk.toBytes data) ml = true := by
  refine ⟨fun sk => ?_, fun σ custodio s s' =>
    ⟨fun e => encodeSignedConCustodio_eq_error, fun text h => ?_⟩⟩
  · rw [encodeSignedConCustodio, firmar_enMemoria]
    rfl
  · obtain ⟨signature, hfirma, htext⟩ := encodeSignedConCustodio_eq_ok.mp h
    obtain ⟨vk, ed, ml, s₁, s₂, hvk, hed, hled, hml, hlml, rfl⟩ := firmar_eq_ok.mp hfirma
    have h64 : ed.length = 64 := hled
    have h4627 : ml.length = 4627 := hlml
    refine ⟨vk, Arr.of ed h64, Arr.of ml h4627, s₁, s₂, hvk, hed, hml, fun m => ?_⟩
    have hlen : (ed ++ ml).length = signatureLen := by
      rw [List.length_append, hled, hlml]
      rfl
    have hver := verify_append es vk data (Arr.of ed h64) (Arr.of ml h4627)
    rw [Arr.toList_of, Arr.toList_of] at hver
    rw [decodeVerified_armarFirmado htext hlen, hver, Bool.and_eq_true_iff]

theorem custodio_texto_ab :
    ∃ (text : String) (r r' : Firmas) (vk : VerifyingKey),
      encodeSignedConCustodio [0, 7] (enMemoria .abiertos ⟨ajustar 32 [1], ajustar 32 [2]⟩)
        alfabetoAB r = .ok text r' ∧
      ∃ (ed : Arr 64) (ml : Arr 4627), decodeVerified text (vk.verify .abiertos) alfabetoAB =
        .ok [0, 7] ↔ Esquemas.abiertos.ed.acepta vk.ed (buildPreimage vk.toBytes [0, 7]) ed = true ∧
          Esquemas.abiertos.ml.acepta vk.ml (buildPreimage vk.toBytes [0, 7]) ml = true := by
  generalize hsk : (⟨ajustar 32 [1], ajustar 32 [2]⟩ : SigningKey) = sk
  have hed : Esquemas.abiertos.ed.Correcto sk.edSeed := Esquema.abierto_correcto _
  have hml : Esquemas.abiertos.ml.Correcto sk.mlSeed := Esquema.abierto_correcto _
  obtain ⟨sig, r', hsign, _, _⟩ :=
    sk.verify_sign (ε := ErrorDeFirma) hed hml [0, 7] ⟨[], [], []⟩
  obtain ⟨text, htext⟩ := armarFirmado_ok (ε := ErrorDeFirma) [0, 7] sig alfabetoAB
  have h : encodeSignedConCustodio [0, 7] (enMemoria .abiertos sk) alfabetoAB ⟨[], [], []⟩ =
      .ok text r' := by
    refine encodeSignedConCustodio_eq_ok.mpr ⟨sig, ?_, htext⟩
    rw [firmar_enMemoria, hsign]
  obtain ⟨_, hcustodia⟩ := custodio_texto .abiertos [0, 7] alfabetoAB
  obtain ⟨vk, ed, ml, _, _, _, _, _, hm⟩ := (hcustodia _ _ _ _).2 text h
  refine ⟨text, _, r', vk, h, ed, ml, (hm [0, 7]).trans ⟨fun h => h.2.2, fun h => ?_⟩⟩
  exact ⟨by decide, rfl, h⟩

end Quipu.Api
