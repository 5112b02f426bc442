import Quipu.Hackerbot
import Quipu.Online
import Quipu.PasswordOracle

namespace Quipu

open Container

variable {M K : Type} {kdf : Kdf M K} {aead : Aead 24 K} {sha256 : List UInt8 → Arr 32}

/-- The reader never panics, whatever the blob says. -/
theorem Modo.descifrar_sinPanico {n : Nat} {ε : Type} {modo : Modo ε} {aead : Aead n K}
    (ha : ∀ p : KdfParams, p.isSaneUpTo modo.maxIterations = true → kdf.acepta p = true)
    (b : List UInt8) (passphrase : String) (huella : Arr 8) (pepper : List UInt8) :
    (modo.descifrar kdf aead b passphrase huella pepper).SinPanico := by
  have hex : (modo.examinar b huella : Res ε (Header 16 n)).SinPanico :=
    Modo.examinar_sinPanico b huella
  rcases hex with ⟨h, hok⟩ | ⟨e, he⟩
  · rcases Modo.descifrar_of_examinar_ok hok ha aead passphrase pepper with ⟨d, hd⟩ | hd
    · exact .inl ⟨d, hd⟩
    · exact .inr ⟨modo.decrypt, hd⟩
  · exact .inr ⟨e, Modo.descifrar_of_examinar_error he kdf aead passphrase pepper⟩

namespace Hackerbot

theorem isOk_of_sinPanico {ε α : Type} {r : Res ε α} (h : r.SinPanico) :
    isOk r = .ok r.isOk := by
  rcases h with ⟨d, rfl⟩ | ⟨e, rfl⟩ <;> rfl

theorem isOk_iff {ε α : Type} {r : Res ε α} : r.isOk = true ↔ ∃ d, r = .ok d := by
  cases r with
  | ok d => exact iff_of_true rfl ⟨d, rfl⟩
  | error e => exact iff_of_false (by intro h; cases h) (by rintro ⟨d, h⟩; cases h)

section Clave

variable {data : Slice} {passphrase : String} {dict : Dictionary} {opts : Api.Options}

/-- With an ideal AEAD the only container that opens is the one that was written, if its cost is in
the range of the reader. -/
theorem decodeFromBlob_iff {huella : Arr 8} {m m' : Mundo 24 K} (hm : m.sellos = [])
    {blob : List UInt8}
    (h : Api.encodeToBlob kdf aead data passphrase huella opts m = .ok blob m')
    (hA : aead.Ideal m'.sellos) (b : List UInt8) :
    (∃ d, Api.decodeFromBlob kdf aead b passphrase huella opts.pepper = .ok d) ↔
      opts.kdfParams.isSane = true ∧ b = blob := by
  obtain ⟨salt, m₁, h₁, hc⟩ := Prog.bind_ok.mp h
  obtain ⟨nonce, m₂, h₂, hc⟩ := Prog.bind_ok.mp hc
  obtain ⟨hacepta, hblob, hm'⟩ := Modo.cifrar_eq_ok.mp hc
  have hlee : Api.decodeFromBlob kdf aead blob passphrase huella opts.pepper =
      if opts.kdfParams.isSane = true then .ok data.1 else fallar .decrypt := by
    rw [hblob]
    refine Modo.descifrar_serialize_of_abre data.2 hacepta ((hA _ _ _ _ _).mpr ?_)
    rw [hm']
    exact List.mem_append_right _ (List.mem_singleton_self _)
  constructor
  · rintro ⟨d, hd⟩
    obtain ⟨r, hr, hb, _⟩ := Modo.descifrar_integro
      (Api.encodeToBlob_escribe kdf aead passphrase huella opts.pepper)
      [⟨data, opts.kdfParams, m, m', blob, hm, h⟩]
      (fun k nonce c a p hp => by
        rw [List.flatMap_singleton]
        exact (hA k nonce c a p).mp hp) hd
    obtain rfl : b = blob := by rw [hb, List.mem_singleton.mp hr]
    refine ⟨?_, rfl⟩
    by_contra hs
    rw [hlee, if_neg hs] at hd
    cases hd
  · rintro ⟨hs, rfl⟩
    exact ⟨data, by rw [hlee, if_pos hs]⟩

/-- A text decodes exactly if its digits read as the container that was written. -/
theorem porDigitos_decode (ha : kdf.AceptaSanos) {m m' : Mundo 24 K} (hm : m.sellos = [])
    {blob : List UInt8}
    (h : Api.encodeToBlob kdf aead data passphrase (dict.fingerprint sha256) opts m = .ok blob m')
    (hA : aead.Ideal m'.sellos) :
    PorDigitos dict
      (fun s => isOk (Api.decode kdf aead sha256 s passphrase dict opts.pepper))
      fun ds => decide (opts.kdfParams.isSane = true ∧ Codec.decodeBaseN ds dict.base = blob) := by
  intro cs ds hds
  have hblob : Api.blobDe dict (String.ofList cs) = .ok (Codec.decodeBaseN ds dict.base) := by
    rw [Api.blobDe, Dictionary.decode, String.toList_ofList, hds]
    rfl
  have hsin : (Api.decodeFromBlob kdf aead (Codec.decodeBaseN ds dict.base) passphrase
      (dict.fingerprint sha256) opts.pepper).SinPanico := by
    refine Modo.descifrar_sinPanico ?_ _ _ _ _
    exact ha
  simp only [Api.decode, hblob, Res.ok_bind]
  rw [isOk_of_sinPanico hsin, Except.ok.injEq, Bool.eq_iff_iff, isOk_iff, decide_eq_true_eq]
  exact decodeFromBlob_iff hm h hA _

/-- Under costs that the reader refuses no place counts. -/
theorem countP_si {l : List Nat} {sano : Bool} {p : Nat → Prop} [DecidablePred p] :
    l.countP (fun i => decide (sano = true ∧ p i)) =
      if sano = true then l.countP fun i => decide (p i) else 0 := by
  cases sano with
  | false => simp
  | true => simp

/-- Both attacks run to their end on every text that is written. Cutting it is never a breach;
passing a symbol to the next one is a breach exactly where the reader accepts the costs and a
symbol holds the marker alone. -/
theorem ataques_brechas (kdf : Kdf M K) (aead : Aead 24 K) (sha256 : List UInt8 → Arr 32)
    (ha : kdf.AceptaSanos) (data : Slice) (passphrase : String) (dict : Dictionary)
    (opts : Api.Options) (m : Mundo 24 K) (hm : m.sellos = []) {text : String} {m' : Mundo 24 K}
    (h : Api.encode kdf aead sha256 data passphrase dict opts m = .ok text m')
    (hA : aead.Ideal m'.sellos) :
    ∃ blob tamper truncation, Api.blobDe dict text = .ok blob ∧
      tamperAttack kdf aead sha256 data passphrase dict opts.pepper opts m = .ok tamper m' ∧
      truncationAttack kdf aead sha256 data passphrase dict opts.pepper opts m =
        .ok truncation m' ∧
      tamper.attempts = text.toList.length ∧ tamper.breaches ≤ 1 ∧
      (tamper.isClean = false ↔ opts.kdfParams.isSane = true ∧
        ∃ a, 2 ≤ a ∧ dict.base = 2 ^ a ∧ a ∣ 8 * blob.length) ∧
      truncation.attempts = text.toList.length ∧ truncation.isClean = true := by
  obtain ⟨blob, hb, indices, hi, ht⟩ := Api.encode_eq_ok.mp h
  have hdos : 2 ≤ dict.base := dict.dos
  have hle : dict.base ≤ Codec.u64Max := dict.base_le.trans (by decide)
  have hesc := Codec.escrito_of_encodeBaseN hdos hle hi
  obtain ⟨text', ht', hdec⟩ := dict.decode_indices hesc.lt
  obtain rfl : text = text' := Except.ok.inj (ht.symm.trans ht')
  have hback : Codec.decodeBaseN indices dict.base = blob := by
    obtain ⟨ds, hds, _, hd⟩ := Codec.decodeBaseN_encodeBaseN (ε := Empty) hdos hle blob
    rw [← Except.ok.inj (hds.symm.trans hi)]
    exact hd
  have hblob : Api.blobDe dict text = .ok blob := by
    rw [Api.blobDe, hdec]
    exact congrArg Except.ok hback
  have hlen : indices.length = text.toList.length := Dictionary.length_decodeChars hdec
  have hne : blob ≠ [] := by
    obtain ⟨salt, m₁, _, hb⟩ := Prog.bind_ok.mp hb
    obtain ⟨nonce, m₂, _, hb⟩ := Prog.bind_ok.mp hb
    obtain ⟨_, rfl, _⟩ := Modo.cifrar_eq_ok.mp hb
    intro hnil
    have := congrArg List.length hnil
    rw [serialize, List.length_append, Header.length_toBytes] at this
    simp [Header.size] at this
  have hp : PorDigitos dict (fun s => isOk (Api.decode kdf aead sha256 s passphrase dict
    opts.pepper)) _ := porDigitos_decode ha hm hb hA
  have hrange : ∀ i ∈ List.range text.toList.length, i < indices.length := fun i hi' =>
    hlen ▸ List.mem_range.mp hi'
  have htamper := sustituir_eq hp hdec hrange 0 0
  have htrunc := truncar_eq hp hdec (List.range text.toList.length) 0 0
  rw [← hlen, countP_si, countP_siguiente hdos hesc hne] at htamper
  rw [← hlen, countP_si, countP_take hdos hesc hne, ite_self] at htrunc
  rw [hlen, List.length_range, Nat.zero_add, Nat.zero_add] at htamper htrunc
  generalize hk : (if opts.kdfParams.isSane = true then
    if 3 ≤ dict.base ∧ dict.base ^ (text.toList.length - 1) = 256 ^ blob.length then 1 else 0
    else 0) = k at htamper
  refine ⟨blob, ⟨"tamper", text.toList.length, k⟩, ⟨"truncation", text.toList.length, 0⟩, hblob,
    ?_, ?_, rfl, ?_, ?_, rfl, rfl⟩
  · rw [tamperAttack, Prog.bind_of_ok h, htamper]
    rfl
  · rw [truncationAttack, Prog.bind_of_ok h, htrunc]
    rfl
  · show k ≤ 1
    rw [← hk, ← ite_and]
    split <;> decide
  · rw [← marca_sola_iff (List.length_pos_iff.mpr hne), ← hk]
    by_cases hbase : 3 ≤ dict.base
    · rw [← primera_potencia hbase hesc, hlen]
      simp [AttackReport.isClean, hbase]
    · simp [AttackReport.isClean, hbase]

end Clave

def alfabetoABCD : Dictionary := ⟨['A', 'B', 'C', 'D'], by decide, by decide⟩

/-- Over two symbols the attacks find nothing, and over four the marker is a symbol of its own. -/
theorem ataques_brechas_ab :
    ∃ (sellos sellos' : List (Sello 24 ClaveLibre)) (tamper tamper' : AttackReport)
      (m m' : Mundo 24 ClaveLibre),
      tamperAttack (Kdf.libre id) (Aead.deRegistro marcar sellos)
          (fun _ => List.Vector.replicate 32 0) [7] "clave" Api.alfabetoAB [] ⟨[], ⟨64, 1, 1⟩⟩
          .sereno = .ok tamper m ∧ tamper.isClean = true ∧
      tamperAttack (Kdf.libre id) (Aead.deRegistro marcar sellos')
          (fun _ => List.Vector.replicate 32 0) [7] "clave" alfabetoABCD [] ⟨[], ⟨64, 1, 1⟩⟩
          .sereno = .ok tamper' m' ∧ tamper'.isClean = false := by
  have ha : (Kdf.libre id).acepta ⟨64, 1, 1⟩ = true := by decide
  have hcorre : ∀ dict : Dictionary, ∃ sellos blob tamper m,
      tamperAttack (Kdf.libre id) (Aead.deRegistro marcar sellos)
          (fun _ => List.Vector.replicate 32 0) [7] "clave" dict [] ⟨[], ⟨64, 1, 1⟩⟩ .sereno =
        .ok tamper (m : Mundo 24 ClaveLibre) ∧
      (tamper.isClean = false ↔
        ∃ a, 2 ≤ a ∧ dict.base = 2 ^ a ∧ a ∣ 8 * (blob : List UInt8).length) := by
    intro dict
    obtain ⟨text, m', h⟩ := Api.exists_encode ha (Aead.deRegistro marcar [])
      (fun _ => List.Vector.replicate 32 0) [7] "clave" dict []
    obtain ⟨blob, hb, _⟩ := Api.encode_eq_ok.mp h
    obtain ⟨salt, m₁, h₁, hb⟩ := Prog.bind_ok.mp hb
    obtain ⟨nonce, m₂, h₂, hb⟩ := Prog.bind_ok.mp hb
    obtain ⟨_, _, hm'⟩ := Modo.cifrar_eq_ok.mp hb
    have hideal : (Aead.deRegistro marcar m'.sellos).Ideal m'.sellos := by
      refine Aead.deRegistro_ideal marcar fun s hs t ht _ _ _ _ => ?_
      rw [hm', (pedir_eq_ok.mp h₂).2, (pedir_eq_ok.mp h₁).2] at hs ht
      rw [List.mem_singleton.mp hs, List.mem_singleton.mp ht]
    obtain ⟨blob', tamper, _, _, ht, _, _, _, hclean, _⟩ := ataques_brechas (Kdf.libre id)
      (Aead.deRegistro marcar m'.sellos) (fun _ => List.Vector.replicate 32 0)
      (Kdf.libre_aceptaSanos id) ⟨[7], by decide⟩ "clave" dict ⟨[], ⟨64, 1, 1⟩⟩ .sereno rfl h hideal
    exact ⟨m'.sellos, blob', tamper, m', ht, hclean.trans (and_iff_right (by decide))⟩
  obtain ⟨sellos, blob, tamper, m, h, hclean⟩ := hcorre Api.alfabetoAB
  obtain ⟨sellos', blob', tamper', m', h', hclean'⟩ := hcorre alfabetoABCD
  refine ⟨sellos, sellos', tamper, tamper', m, m', h, ?_, h', ?_⟩
  · rw [← Bool.not_eq_false, hclean]
    rintro ⟨a, ha, hbase, _⟩
    have : 2 ^ 2 ≤ 2 ^ a := Nat.pow_le_pow_right (by decide) ha
    have : Api.alfabetoAB.base = 2 := rfl
    omega
  · exact hclean'.mpr ⟨2, Nat.le_refl 2, rfl, 4 * blob'.length, by omega⟩

end Hackerbot

end Quipu
