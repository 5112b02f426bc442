import Quipu.HackerbotBrechas
import Quipu.SignedContainer
import Quipu.SustitucionBits

namespace Quipu

variable {es : Esquemas}

/-- Under the public key of `sk` nothing is accepted but the signature that it made over `p`. -/
def Esquema.SoloFirma {s v f : Nat} (e : Esquema s v f) (sk : Arr s) (p : List UInt8) : Prop :=
  ∀ q sig, e.acepta (e.publica sk) q sig = true ↔ q = p ∧ sig = e.firma sk p

namespace Hackerbot

/-- The places of `(0..n).step_by(stride)`. -/
def posiciones (n stride : Nat) : List Nat := (List.range n).filter (· % stride = 0)

def forgeryAttack (es : Esquemas) (data : List UInt8) (signer : Pqsign.SigningKey)
    (verifier : Pqsign.VerifyingKey) (dict : Dictionary) (stride : Nat) :
    Prog Firmas Empty AttackReport := do
  let stride := max stride 1
  let symbols ← Api.encodeSigned es data signer dict
  let chars := symbols.toList
  let (attempts, breaches) ← Prog.deRes (sustituir dict
    (fun s => isOk (Api.decodeVerified s (verifier.verify es) dict)) chars
    (posiciones chars.length stride) 0 0)
  pure ⟨"forgery", attempts, breaches⟩

section Firma

variable {signer : Pqsign.SigningKey} {data : List UInt8}

/-- What `sign` returns for the message. -/
def firmaDe (es : Esquemas) (signer : Pqsign.SigningKey) (data : List UInt8) : List UInt8 :=
  let p := Pqsign.buildPreimage (signer.verifyingKey es).toBytes data
  (es.ed.firma signer.edSeed p).toList ++ (es.ml.firma signer.mlSeed p).toList

theorem length_firmaDe : (firmaDe es signer data).length = 64 + 4627 := by
  rw [firmaDe, List.length_append, List.Vector.toList_length, List.Vector.toList_length]

/-- The key that has signed one message verifies that message and signature alone. -/
theorem verify_iff
    (hed : es.ed.SoloFirma signer.edSeed
      (Pqsign.buildPreimage (signer.verifyingKey es).toBytes data))
    (hml : es.ml.SoloFirma signer.mlSeed
      (Pqsign.buildPreimage (signer.verifyingKey es).toBytes data)) {m sig : List UInt8} :
    (signer.verifyingKey es).verify es m sig = true ↔ m = data ∧ sig = firmaDe es signer data := by
  constructor
  · intro h
    have hlen : sig.length = Pqsign.signatureLen := by
      by_contra hno
      rw [Pqsign.VerifyingKey.verify, if_pos hno] at h
      cases h
    have h64 : sig.length = 64 + 4627 := hlen
    obtain ⟨a, ha⟩ : ∃ a : Arr 64, a.toList = sig.take 64 :=
      ⟨Arr.of (sig.take 64) (by rw [List.length_take, h64]; rfl), rfl⟩
    obtain ⟨b, hb⟩ : ∃ b : Arr 4627, b.toList = sig.drop 64 :=
      ⟨Arr.of (sig.drop 64) (by rw [List.length_drop, h64]), rfl⟩
    have hsig : sig = a.toList ++ b.toList := by rw [ha, hb, List.take_append_drop]
    rw [hsig, Pqsign.verify_append, Bool.and_eq_true_iff] at h
    obtain ⟨hq, hfed⟩ := (hed _ _).mp h.1
    obtain ⟨_, hfml⟩ := (hml _ _).mp h.2
    refine ⟨List.append_cancel_left hq, ?_⟩
    rw [hsig, hfed, hfml]
    rfl
  · rintro ⟨rfl, rfl⟩
    rw [firmaDe, Pqsign.verify_append, Bool.and_eq_true_iff]
    exact ⟨(hed _ _).mpr ⟨rfl, rfl⟩, (hml _ _).mpr ⟨rfl, rfl⟩⟩

/-- The blob that the writer makes, with `f` for its flags. -/
def conBanderas (es : Esquemas) (signer : Pqsign.SigningKey) (data : List UInt8) (f : UInt8) :
    List UInt8 :=
  (Api.qsg1.magic ++ [Api.qsg1.version]) ++ f :: (be 4 data.length ++ data ++
    firmaDe es signer data)

/-- The reader opens the signed blob under any flags, and nothing else; it opens nothing where the
length field could not hold the length of the message. -/
theorem abrir_iff
    (hed : es.ed.SoloFirma signer.edSeed
      (Pqsign.buildPreimage (signer.verifyingKey es).toBytes data))
    (hml : es.ml.SoloFirma signer.mlSeed
      (Pqsign.buildPreimage (signer.verifyingKey es).toBytes data)) {b : List UInt8} :
    (∃ m, Api.qsg1.abrir ((signer.verifyingKey es).verify es) b = .ok m) ↔
      data.length < 2 ^ 32 ∧ ∃ f, b = conBanderas es signer data f := by
  constructor
  · rintro ⟨m, hm⟩
    obtain ⟨f, sig, hb, hlen, _, hver⟩ := Api.Firmado.contiene_of_abrir hm
    obtain ⟨rfl, rfl⟩ := (verify_iff hed hml).mp hver
    refine ⟨hlen, f, hb.trans ?_⟩
    simp only [conBanderas, List.append_assoc, List.cons_append, List.nil_append]
  · rintro ⟨hlen, f, rfl⟩
    refine ⟨data, Api.Firmado.Contiene.abrir rfl
      ⟨f, firmaDe es signer data, ?_, hlen, length_firmaDe, (verify_iff hed hml).mpr ⟨rfl, rfl⟩⟩⟩
    simp only [conBanderas, List.append_assoc, List.cons_append, List.nil_append]

end Firma

theorem mem_posiciones {n stride i : Nat} :
    i ∈ posiciones n stride ↔ i < n ∧ i % stride = 0 := by
  rw [posiciones, List.mem_filter, List.mem_range, decide_eq_true_eq]

/-- Some sampled place turns the text into one that differs in that byte alone. -/
theorem countP_octeto {n : Nat} (hn : 2 ≤ n) (hle : n ≤ 0x110000) {pre rest : List UInt8}
    (hpre : pre.length = 5) (hrest : 200 ≤ rest.length) {p : List Nat → Bool}
    (hp : ∀ is, p is = true ↔ ∃ f, Codec.decodeBaseN is n = pre ++ f :: rest) {ds : List Nat}
    (h : Codec.Escrito n (pre ++ 0 :: rest) ds) (stride : Nat) :
    0 < ((posiciones ds.length stride).countP fun i => p (ds.modify i (Codec.siguiente n))) ↔
      ∃ a j, n = 2 ^ a ∧ (ds.length - 1 - j) % stride = 0 ∧
        (8 * rest.length ≤ a * j ∧ a * j < 8 * (rest.length + 1) ∨
          2 ≤ a ∧ a * j = 8 * (rest.length + 6)) := by
  have hcada : ∀ i < ds.length,
      ((∃ f, Codec.decodeBaseN (ds.modify i (Codec.siguiente n)) n = pre ++ f :: rest) ↔
        ∃ a, n = 2 ^ a ∧ (8 * rest.length ≤ a * (ds.length - 1 - i) ∧
            a * (ds.length - 1 - i) < 8 * (rest.length + 1) ∨
          2 ≤ a ∧ a * (ds.length - 1 - i) = 8 * (rest.length + 6))) := by
    intro i hi
    have hds : ds = ds.take i ++ ds[i] :: ds.drop (i + 1) := by
      rw [← List.drop_eq_getElem_cons hi, List.take_append_drop]
    have hr : (ds.drop (i + 1)).length = ds.length - 1 - i := by
      rw [List.length_drop]
      omega
    rw [List.modify_eq_take_cons_drop hi, ← hr]
    exact h.decode_siguiente_octeto hn hle hpre hrest hds
  simp only [List.countP_pos_iff, mem_posiciones, hp]
  constructor
  · rintro ⟨i, ⟨hi, hs⟩, hf⟩
    obtain ⟨a, ha, hbit⟩ := (hcada i hi).mp hf
    refine ⟨a, ds.length - 1 - i, ha, ?_, hbit⟩
    rwa [Nat.sub_sub_self (by omega)]
  · rintro ⟨a, j, ha, hs, hbit⟩
    have hj : j < ds.length := by
      refine h.lt_length hn ?_
      rw [ha, Codec.Escrito.length_octeto hpre, ← Nat.pow_mul, Codec.Escrito.pow_bytes]
      exact Nat.pow_le_pow_right (by decide) (by omega)
    refine ⟨ds.length - 1 - j, ⟨by omega, hs⟩, (hcada _ (by omega)).mpr ⟨a, ha, ?_⟩⟩
    rwa [Nat.sub_sub_self (by omega)]

section Corrida

variable (es : Esquemas) (signer : Pqsign.SigningKey) (data : List UInt8)

/-- Whether the reader opens what some digits read as. -/
def abreDigitos (dict : Dictionary) (is : List Nat) : Bool :=
  (Api.qsg1.abrir ((signer.verifyingKey es).verify es) (Codec.decodeBaseN is dict.base)).isOk

/-- The attack tries every sampled place of the text that it signs, and counts the changes under
which the reader opens what the digits read as. -/
theorem forgeryAttack_corre (dict : Dictionary) (stride : Nat) (r : Firmas) :
    ∃ text r' ds k,
      (Api.encodeSigned es data signer dict : Prog Firmas Empty String) r = .ok text r' ∧
      Codec.Escrito dict.base (Api.qsg1.armar data (firmaDe es signer data)) ds ∧
      ds.length = text.toList.length ∧
      k = (posiciones ds.length (max stride 1)).countP (fun i =>
        abreDigitos es signer dict (ds.modify i (Codec.siguiente dict.base))) ∧
      forgeryAttack es data signer (signer.verifyingKey es) dict stride r =
        .ok ⟨"forgery", (posiciones text.toList.length (max stride 1)).length, k⟩ r' := by
  have hdos : 2 ≤ dict.base := dict.dos
  have hle : dict.base ≤ Codec.u64Max := dict.base_le.trans (by decide)
  obtain ⟨r', hsign⟩ : ∃ r', (signer.sign es data : Prog Firmas Empty (List UInt8)) r =
      .ok (firmaDe es signer data) r' := ⟨_, rfl⟩
  obtain ⟨ds, hi, _⟩ := Codec.decodeBaseN_encodeBaseN (ε := Empty) hdos hle
    (Api.qsg1.armar data (firmaDe es signer data))
  have hesc := Codec.escrito_of_encodeBaseN hdos hle hi
  obtain ⟨text, ht, hdec⟩ := dict.decode_indices hesc.lt
  have htexto : (Api.textoDe dict (Api.qsg1.armar data (firmaDe es signer data)) :
      Res Empty String) = .ok text := by
    rw [Api.textoDe, hi, Res.ok_bind, ht]
  have hwrite : (Api.encodeSigned es data signer dict : Prog Firmas Empty String) r =
      .ok text r' := by
    rw [Api.encodeSigned, Prog.bind_of_ok hsign, Api.armarFirmado, htexto]
    rfl
  have hlargo : ds.length = text.toList.length := Dictionary.length_decodeChars hdec
  have hdig : PorDigitos dict
      (fun s => isOk (Api.decodeVerified s ((signer.verifyingKey es).verify es) dict))
      (abreDigitos es signer dict) := by
    intro cs is his
    have hblob : Api.blobDe dict (String.ofList cs) = .ok (Codec.decodeBaseN is dict.base) := by
      rw [Api.blobDe, Dictionary.decode, String.toList_ofList, his]
      rfl
    simp only [Api.decodeVerified, hblob, Res.ok_bind, abreDigitos]
    exact isOk_of_sinPanico Api.Firmado.sinPanico
  have hpos : ∀ i ∈ posiciones text.toList.length (max stride 1), i < ds.length := fun i hi' =>
    hlargo ▸ List.mem_range.mp (List.mem_of_mem_filter hi')
  have hsust := sustituir_eq hdig hdec hpos 0 0
  rw [Nat.zero_add, Nat.zero_add] at hsust
  refine ⟨text, r', ds, _, hwrite, hesc, hlargo, rfl, ?_⟩
  rw [forgeryAttack, hlargo]
  simp only
  rw [Prog.bind_of_ok hwrite, hsust]
  rfl

end Corrida

/-- Over a text that is signed the attack runs to its end, and it finds a breach exactly if the
length field holds the length of the message, the alphabet has a power of two of symbols, and one
that the attack changes starts at a bit of the flags or is the marker alone. -/
theorem forgery_brechas (es : Esquemas) (signer : Pqsign.SigningKey) (data : List UInt8)
    (hed : es.ed.SoloFirma signer.edSeed
      (Pqsign.buildPreimage (signer.verifyingKey es).toBytes data))
    (hml : es.ml.SoloFirma signer.mlSeed
      (Pqsign.buildPreimage (signer.verifyingKey es).toBytes data))
    (dict : Dictionary) (stride : Nat) (r : Firmas) :
    ∃ text r' report,
      (Api.encodeSigned es data signer dict : Prog Firmas Empty String) r = .ok text r' ∧
      forgeryAttack es data signer (signer.verifyingKey es) dict stride r = .ok report r' ∧
      report.attempts = (posiciones text.toList.length (max stride 1)).length ∧
      (report.isClean = false ↔ data.length < 2 ^ 32 ∧ ∃ a j, dict.base = 2 ^ a ∧
        (text.toList.length - 1 - j) % max stride 1 = 0 ∧
        (8 * (data.length + 4695) ≤ a * j ∧ a * j < 8 * (data.length + 4696) ∨
          2 ≤ a ∧ a * j = 8 * (data.length + 4701))) := by
  obtain ⟨text, r', ds, k, hwrite, hesc, hlargo, hk, hcorre⟩ :=
    forgeryAttack_corre es signer data dict stride r
  refine ⟨text, r', _, hwrite, hcorre, rfl, ?_⟩
  rw [AttackReport.isClean, beq_eq_false_iff_ne, ← Nat.pos_iff_ne_zero, hk]
  have habre : ∀ is, abreDigitos es signer dict is = true ↔ data.length < 2 ^ 32 ∧
      ∃ f, Codec.decodeBaseN is dict.base = conBanderas es signer data f := by
    intro is
    rw [← abrir_iff hed hml]
    exact isOk_iff
  by_cases hlen : data.length < 2 ^ 32
  · have harmar : Api.qsg1.armar data (firmaDe es signer data) = conBanderas es signer data 0 := by
      simp only [Api.Firmado.armar, conBanderas, u32Be_ofNat hlen, List.append_assoc,
        List.cons_append, List.nil_append]
    have hrest : (be 4 data.length ++ data ++ firmaDe es signer data).length =
        data.length + 4695 := by
      rw [List.length_append, List.length_append, length_be, length_firmaDe]
      omega
    rw [harmar] at hesc
    have hdos : 2 ≤ dict.base := dict.dos
    have hcuenta := countP_octeto hdos dict.base_le rfl (by omega)
      (fun is => (habre is).trans (and_iff_right hlen)) hesc (max stride 1)
    rw [hrest, hlargo] at hcuenta
    rw [and_iff_right hlen, hlargo]
    exact hcuenta
  · refine iff_of_false (fun hpos => ?_) fun h => hlen h.1
    obtain ⟨i, -, hi⟩ := List.countP_pos_iff.mp hpos
    exact hlen ((habre _).mp hi).1

end Hackerbot

/-- A scheme that signs with the public key, and accepts nothing but the signature over `p`. -/
def Esquema.soloPara {s v f : Nat} (p : List UInt8) : Esquema s v f where
  publica := fun sk => ajustar v sk.toList
  firma := fun sk _ => ajustar f (ajustar v sk.toList).toList
  acepta := fun pk q sig => decide (q = p ∧ sig = ajustar f pk.toList)

theorem Esquema.soloPara_soloFirma {s v f : Nat} (sk : Arr s) (p : List UInt8) :
    (Esquema.soloPara p : Esquema s v f).SoloFirma sk p := fun _ _ => decide_eq_true_iff

def Esquemas.soloPara (p : List UInt8) : Esquemas :=
  ⟨.soloPara p, .soloPara p, .soloPara p, fun _ => true⟩

namespace Hackerbot

def alfabetoABC : Dictionary := ⟨['A', 'B', 'C'], by decide, by decide⟩

/-- Three symbols withstand the attack at every stride; two do not. -/
theorem forgery_brechas_abc :
    ∃ (es : Esquemas) (signer : Pqsign.SigningKey),
      (∀ stride r, ∃ r' report, forgeryAttack es [1] signer (signer.verifyingKey es) alfabetoABC
        stride r = .ok report r' ∧ report.isClean = true) ∧
      ∀ r, ∃ r' report, forgeryAttack es [1] signer (signer.verifyingKey es) Api.alfabetoAB
        1 r = .ok report r' ∧ report.isClean = false := by
  obtain ⟨es, signer, hed, hml⟩ : ∃ (es : Esquemas) (signer : Pqsign.SigningKey),
      es.ed.SoloFirma signer.edSeed
        (Pqsign.buildPreimage (signer.verifyingKey es).toBytes [1]) ∧
      es.ml.SoloFirma signer.mlSeed
        (Pqsign.buildPreimage (signer.verifyingKey es).toBytes [1]) :=
    ⟨.soloPara (Pqsign.buildPreimage (Pqsign.SigningKey.verifyingKey .abiertos
      ⟨ajustar 32 [7], ajustar 32 [8]⟩).toBytes [1]), ⟨ajustar 32 [7], ajustar 32 [8]⟩,
      Esquema.soloPara_soloFirma _ _, Esquema.soloPara_soloFirma _ _⟩
  refine ⟨es, signer, fun stride r => ?_, fun r => ?_⟩
  · obtain ⟨text, r', report, _, h, _, hclean⟩ :=
      forgery_brechas es signer [1] hed hml alfabetoABC stride r
    refine ⟨r', report, h, ?_⟩
    rw [← Bool.not_eq_false, hclean]
    rintro ⟨-, a, j, hbase, _⟩
    have htres : alfabetoABC.base = 3 := rfl
    rw [htres] at hbase
    cases a with
    | zero => omega
    | succ a =>
      rw [Nat.pow_succ] at hbase
      omega
  · obtain ⟨text, r', report, _, h, _, hclean⟩ :=
      forgery_brechas es signer [1] hed hml Api.alfabetoAB 1 r
    refine ⟨r', report, h, hclean.mpr ⟨by decide, 1, 8 * 4696, rfl, Nat.mod_one _, .inl ?_⟩⟩
    rw [List.length_singleton]
    omega

end Hackerbot

end Quipu
