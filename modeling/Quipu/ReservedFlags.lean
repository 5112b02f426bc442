import Quipu.Decoders
import Quipu.Libre
import Quipu.StreamHeader

namespace Quipu

theorem octeto_take {ε : Type} {b : List UInt8} {i k : Nat} (h : i < k) :
    (octeto (b.take k) i : Res ε UInt8) = octeto b i := by
  simp only [octeto, List.getElem?_take_of_lt h]

theorem campo_take {ε : Type} {b : List UInt8} {i n k : Nat} (h : i + n ≤ k) (hk : k ≤ b.length) :
    (campo (b.take k) i n : Res ε (Arr n)) = campo b i n := by
  rw [campo_ok (by rw [List.length_take]; omega), campo_ok (by omega)]
  refine congrArg Except.ok (Arr.ext ?_)
  rw [Arr.toList_of, Arr.toList_of, List.drop_take, List.take_take, Nat.min_eq_left (by omega)]

theorem octeto_set {ε : Type} {b : List UInt8} {i k : Nat} {x : UInt8} (h : i ≠ k) :
    (octeto (b.set k x) i : Res ε UInt8) = octeto b i := by
  simp only [octeto, List.getElem?_set_ne h.symm]

theorem campo_set {ε : Type} {b : List UInt8} {i n k : Nat} {x : UInt8} (h : k < i) :
    (campo (b.set k x) i n : Res ε (Arr n)) = campo b i n := by
  simp only [campo, List.length_set, List.drop_set_of_lt h]

namespace Stream

/-- What `from_bytes` asks of a byte string, of which it reads the first 57 bytes. -/
def StreamHeader.Aceptable (b : List UInt8) : Prop :=
  ∃ h : (b.take 57).length = 57, StreamHeader.Admisible (b.take 57) h

theorem StreamHeader.fromBytes_take {b : List UInt8} (h : 57 ≤ b.length) :
    StreamHeader.fromBytes (b.take 57) = StreamHeader.fromBytes b := by
  have hl : (b.take 57).length = 57 := List.length_take_of_le h
  have hlargo : ¬(b.take 57).length < headerLen := Nat.not_lt.mpr hl.ge
  have hlargo' : ¬b.length < headerLen := Nat.not_lt.mpr h
  unfold StreamHeader.fromBytes rd
  rw [rechazarSi_of_not _ hlargo, rechazarSi_of_not _ hlargo', octeto_take (by omega),
    campo_take (by omega) h, campo_take (by omega) h, campo_take (by omega) h,
    campo_take (by omega) h, campo_take (by omega) h, campo_take (by omega) h, List.take_take]
  rfl

theorem StreamHeader.sinPanico (b : List UInt8) : Res.SinPanico (StreamHeader.fromBytes b) := by
  have h57 : headerLen = 57 := rfl
  unfold StreamHeader.fromBytes
  rw [rechazarSi_bind]
  refine Res.sinPanico_ite fun hl => ?_
  rw [rd_ok (by omega), rd_ok (by omega), rd_ok (by omega), rd_ok (by omega),
    octeto_ok (by omega), campo_ok (by omega), campo_ok (by omega)]
  simp only [rechazarSi_bind, Res.ok_bind]
  exact Res.sinPanico_ite fun _ => Res.sinPanico_ite fun _ => Res.sinPanico_ite fun _ =>
    Res.sinPanico_ite fun _ => Res.sinPanico_ok _

theorem StreamHeader.acepta_iff {b : List UInt8} :
    Res.Acepta (StreamHeader.fromBytes b) ↔ StreamHeader.Aceptable b := by
  constructor
  · rintro ⟨c, h⟩
    have hl : 57 ≤ b.length := by
      unfold StreamHeader.fromBytes at h
      obtain ⟨_, hl, _⟩ := Res.bind_ok.mp h
      exact Nat.not_lt.mp (rechazarSi_eq_ok.mp hl)
    rw [← fromBytes_take hl] at h
    exact ⟨_, ((fromBytes_eq_ok (List.length_take_of_le hl)).mp h).1⟩
  · rintro ⟨hl, ha⟩
    have h57 : 57 ≤ b.length := by
      rw [List.length_take] at hl
      omega
    exact ⟨_, fromBytes_take h57 ▸ (fromBytes_eq_ok hl).mpr ⟨ha, rfl⟩⟩

/-- `from_bytes` never looks at the flags byte. -/
theorem StreamHeader.fromBytes_set (b : List UInt8) (flags : UInt8) :
    StreamHeader.fromBytes (b.set 5 flags) = StreamHeader.fromBytes b := by
  simp only [StreamHeader.fromBytes, rd, List.length_set,
    List.take_set_of_le (show 4 ≤ 5 by decide), octeto_set (show 4 ≠ 5 by decide),
    campo_set (show 5 < 6 by decide),
    campo_set (show 5 < 10 by decide), campo_set (show 5 < 14 by decide),
    campo_set (show 5 < 18 by decide), campo_set (show 5 < 34 by decide),
    campo_set (show 5 < 53 by decide)]

end Stream

/-- The verifiers of signed containers never look at the flags byte either. -/
theorem Api.Firmado.abrir_set (formato : Api.Firmado) (verify : List UInt8 → List UInt8 → Bool)
    (b : List UInt8) (flags : UInt8) :
    formato.abrir verify (b.set 5 flags) = formato.abrir verify b := by
  have hpre : (b.set 5 flags).drop signedPrefix = b.drop signedPrefix :=
    List.drop_set_of_lt (by decide)
  have hdrop (k : Nat) : (b.set 5 flags).drop (signedPrefix + k) = b.drop (signedPrefix + k) :=
    List.drop_set_of_lt (by unfold signedPrefix; omega)
  simp only [Firmado.abrir, List.length_set, List.take_set_of_le (show 4 ≤ 5 by decide),
    octeto_set (show 4 ≠ 5 by decide), campo_set (show 5 < 6 by decide), List.drop_take, hpre,
    hdrop]

open Api Container

/-- The hybrid container binds the flags byte as associated data: two strings that differ there
alone open both only where the AEAD opens one ciphertext under two of them. -/
theorem Api.acepta_abrirHibrido_set {K : Type} {aead : Aead 24 K}
    {decapsulate : List UInt8 → Option K} {b : List UInt8} {flags otro : UInt8}
    (hf : b[5]? = some flags) (hne : otro ≠ flags)
    (h : Res.Acepta (abrirHibrido aead decapsulate b))
    (h' : Res.Acepta (abrirHibrido aead decapsulate (b.set 5 otro))) :
    ∃ k nonce c a a', a ≠ a' ∧ (aead.abre k nonce c a).isSome ∧
      (aead.abre k nonce c a').isSome := by
  have h30 : hybridPrefix = 30 := rfl
  obtain ⟨hl, -, -, nonce, k, p, _, hn, hk, hp, -⟩ := acepta_abrirHibrido_iff.mp h
  obtain ⟨-, -, -, nonce', k', p', _, hn', hk', hp', -⟩ := acepta_abrirHibrido_iff.mp h'
  rw [List.drop_set_of_lt (by decide), ← hn] at hn'
  rw [List.drop_take, List.drop_set_of_lt (by omega), ← List.drop_take, hk] at hk'
  rw [List.drop_set_of_lt (by omega)] at hp'
  obtain rfl : nonce' = nonce := Arr.ext hn'
  obtain rfl : k = k' := Option.some.inj hk'
  refine ⟨k, nonce', _, _, _, fun ha => hne ?_, Option.isSome_of_mem hp, Option.isSome_of_mem hp'⟩
  have h5 := congrArg (fun bs => bs[5]?) ha
  simp only [List.getElem?_take_of_lt (show 5 < hybridPrefix + encapsulationLen by decide), hf,
    List.getElem?_set_self (show 5 < b.length by omega), Option.some.injEq] at h5
  exact h5.symm

/-- With a flag that it does not know, the password container is refused, and each other format
is refused exactly if one of its other checks fails; the streams and the signed containers even
treat all the strings that differ in that byte alike, and the hybrid container opens no two of them
unless its AEAD opens one ciphertext under two associated data. -/
theorem flags_reservados_iff {K : Type} (aead : Aead 24 K) (decapsulate : List UInt8 → Option K)
    (verify verifyTriple : List UInt8 → List UInt8 → Bool) (blob : List UInt8) (flags : UInt8)
    (h : blob[5]? = some flags) (hf : flags ≠ 0) :
    (∀ s n, Res.Rechaza (parse s n blob)) ∧
    (Res.Rechaza (Stream.StreamHeader.fromBytes blob) ↔ ¬Stream.StreamHeader.Aceptable blob) ∧
    (∀ dict symbols, blobDe dict symbols = .ok blob →
      (Res.Rechaza (decodeVerified symbols verify dict) ↔ ¬qsg1.Admisible verify blob) ∧
      (Res.Rechaza (decodeVerifiedTriple symbols verifyTriple dict) ↔
        ¬qsg3.Admisible verifyTriple blob) ∧
      (Res.Rechaza (decodeAsRecipient aead symbols decapsulate dict) ↔
        ¬HibridoAdmisible aead decapsulate blob)) ∧
    ∀ otro : UInt8,
      Stream.StreamHeader.fromBytes (blob.set 5 otro) = Stream.StreamHeader.fromBytes blob ∧
      ∀ dict symbols symbols', blobDe dict symbols = .ok blob →
        blobDe dict symbols' = .ok (blob.set 5 otro) →
        decodeVerified symbols' verify dict = decodeVerified symbols verify dict ∧
        decodeVerifiedTriple symbols' verifyTriple dict =
          decodeVerifiedTriple symbols verifyTriple dict ∧
        (otro ≠ flags → Res.Acepta (decodeAsRecipient aead symbols decapsulate dict) →
          Res.Acepta (decodeAsRecipient aead symbols' decapsulate dict) →
            ∃ k nonce c a a', a ≠ a' ∧ (aead.abre k nonce c a).isSome ∧
              (aead.abre k nonce c a').isSome) := by
  refine ⟨fun s n => parse_of_flags h hf, ?_, fun dict symbols hb => ?_, fun otro =>
    ⟨Stream.StreamHeader.fromBytes_set blob otro, fun dict symbols symbols' hb hb' => ?_⟩⟩
  · exact (Stream.StreamHeader.sinPanico blob).rechaza_iff.trans
      (not_congr Stream.StreamHeader.acepta_iff)
  · rw [decodeVerified, decodeVerifiedTriple, decodeAsRecipient, hb]
    exact ⟨Firmado.sinPanico.rechaza_iff.trans (not_congr Firmado.acepta_iff),
      Firmado.sinPanico.rechaza_iff.trans (not_congr Firmado.acepta_iff),
      sinPanico_abrirHibrido.rechaza_iff.trans (not_congr acepta_abrirHibrido_iff)⟩
  · rw [decodeVerified, decodeVerified, decodeVerifiedTriple, decodeVerifiedTriple,
      decodeAsRecipient, decodeAsRecipient, hb, hb']
    exact ⟨qsg1.abrir_set verify blob otro, qsg3.abrir_set verifyTriple blob otro,
      acepta_abrirHibrido_set h⟩

def cabeceraConFlag : List UInt8 :=
  Stream.StreamHeader.toBytes ⟨⟨64, 1, 1⟩, List.Vector.replicate 16 0, List.Vector.replicate 19 0,
    4096⟩ |>.set 5 1

theorem flags_reservados_iff_stream :
    cabeceraConFlag[5]? = some 1 ∧
      (Res.Rechaza (Stream.StreamHeader.fromBytes cabeceraConFlag) ↔
        ¬Stream.StreamHeader.Aceptable cabeceraConFlag) := by
  have h : cabeceraConFlag[5]? = some 1 := by decide
  exact ⟨h, (flags_reservados_iff (Aead.deMarca : Aead 24 Unit) (fun _ => none) (fun _ _ => false)
    (fun _ _ => false) cabeceraConFlag 1 h (by decide)).2.1⟩

/-- The stream reader accepts a header with a flag, and the same one without it. -/
theorem not_flags_reservados :
    cabeceraConFlag[5]? = some 1 ∧
      Res.Acepta (Stream.StreamHeader.fromBytes cabeceraConFlag) ∧
      Res.Acepta (Stream.StreamHeader.fromBytes (cabeceraConFlag.set 5 0)) := by
  have hok : Stream.StreamHeader.fromBytes cabeceraConFlag = .ok ⟨⟨64, 1, 1⟩,
      List.Vector.replicate 16 0, List.Vector.replicate 19 0, 4096⟩ := by
    rw [cabeceraConFlag, Stream.StreamHeader.fromBytes_set]
    exact Stream.StreamHeader.fromBytes_toBytes (by decide) (by decide) (by decide)
  exact ⟨by decide, ⟨_, hok⟩, ⟨_, (Stream.StreamHeader.fromBytes_set _ 0).trans hok⟩⟩

end Quipu
