import Quipu.Hackerbot
import Quipu.Online

namespace Quipu

open Container

variable {M K : Type}

namespace Hackerbot

/-- The loop of `uniqueness_attack`, with the texts that were seen. -/
def unicidad (kdf : Kdf M K) (aead : Aead 24 K) (sha256 : List UInt8 → Arr 32)
    (data : List UInt8) (passphrase : String) (dict : Dictionary) (opts : Api.Options) :
    Nat → List String → Nat → Prog (Mundo 24 K) Empty Nat
  | 0, _, breaches => pure breaches
  | rounds + 1, seen, breaches => do
    let symbols ← Api.encode kdf aead sha256 data passphrase dict opts
    if symbols ∈ seen then
      unicidad kdf aead sha256 data passphrase dict opts rounds seen (breaches + 1)
    else unicidad kdf aead sha256 data passphrase dict opts rounds (symbols :: seen) breaches

def uniquenessAttack (kdf : Kdf M K) (aead : Aead 24 K) (sha256 : List UInt8 → Arr 32)
    (data : List UInt8) (passphrase : String) (dict : Dictionary) (opts : Api.Options)
    (rounds : Nat) : Prog (Mundo 24 K) Empty AttackReport := do
  let breaches ← unicidad kdf aead sha256 data passphrase dict opts rounds [] 0
  pure ⟨"uniqueness", rounds, breaches⟩

variable {kdf : Kdf M K} {aead : Aead 24 K} {sha256 : List UInt8 → Arr 32} {data : List UInt8}
  {passphrase : String} {dict : Dictionary} {opts : Api.Options}

/-- The text that the drawn salt and nonce give. -/
def Sale (kdf : Kdf M K) (aead : Aead 24 K) (sha256 : List UInt8 → Arr 32) (data : List UInt8)
    (passphrase : String) (dict : Dictionary) (opts : Api.Options) (azar : Arr 16 × Arr 24)
    (text : String) : Prop :=
  ∃ indices, (Codec.encodeBaseN (serialize
      (cabeceraDe (dict.fingerprint sha256) opts.kdfParams azar.1 azar.2)
      (Api.modo.selloDe kdf aead data passphrase (dict.fingerprint sha256) opts.kdfParams
        opts.pepper azar.1 azar.2).ciphertext) dict.base : Res Empty (List Nat)) = .ok indices ∧
    dict.encode indices = .ok text

theorem sale_of_encode {m m' : Mundo 24 K} {text : String}
    (h : Api.encode kdf aead sha256 data passphrase dict opts m = .ok text m') :
    ∃ azar : Arr 16 × Arr 24, Sale kdf aead sha256 data passphrase dict opts azar text ∧
      m'.derivaciones = m.derivaciones ++ [(azar.1, opts.kdfParams)] ∧
      m'.sellos.map Sello.nonce = m.sellos.map Sello.nonce ++ [azar.2] := by
  obtain ⟨blob, hb, indices, hi, ht⟩ := Api.encode_eq_ok.mp h
  obtain ⟨salt, m₁, h₁, hb⟩ := Prog.bind_ok.mp hb
  obtain ⟨nonce, m₂, h₂, hb⟩ := Prog.bind_ok.mp hb
  obtain ⟨_, rfl, hm'⟩ := Modo.cifrar_eq_ok.mp hb
  refine ⟨(salt, nonce), ⟨indices, hi, ht⟩, ?_, ?_⟩
  · rw [hm', (pedir_eq_ok.mp h₂).2, (pedir_eq_ok.mp h₁).2]
  · rw [hm', (pedir_eq_ok.mp h₂).2, (pedir_eq_ok.mp h₁).2, List.map_append, List.map_singleton]
    rfl

/-- A text has the salt and the nonce in it, and they make the text. -/
theorem sale_biUnique :
    Relator.BiUnique (Sale kdf aead sha256 data passphrase dict opts) := by
  constructor
  · rintro ⟨salt, nonce⟩ ⟨salt', nonce'⟩ text ⟨is, hi, ht⟩ ⟨is', hi', ht'⟩
    have hle : dict.base ≤ Codec.u64Max := dict.base_le.trans (by decide)
    have hdos : 2 ≤ dict.base := dict.dos
    obtain ⟨ds, hds, hlt, hd⟩ := Codec.decodeBaseN_encodeBaseN (ε := Empty) hdos hle (serialize
      (cabeceraDe (dict.fingerprint sha256) opts.kdfParams salt nonce) _)
    obtain ⟨ds', hds', hlt', hd'⟩ := Codec.decodeBaseN_encodeBaseN (ε := Empty) hdos hle (serialize
      (cabeceraDe (dict.fingerprint sha256) opts.kdfParams salt' nonce') _)
    obtain rfl : is = ds := Except.ok.inj (hi.symm.trans hds)
    obtain rfl : is' = ds' := Except.ok.inj (hi'.symm.trans hds')
    obtain ⟨text₁, ht₁, hback⟩ := dict.decode_indices hlt
    obtain ⟨text₂, ht₂, hback'⟩ := dict.decode_indices hlt'
    obtain rfl : text = text₁ := Except.ok.inj (ht.symm.trans ht₁)
    obtain rfl : text = text₂ := Except.ok.inj (ht'.symm.trans ht₂)
    obtain rfl : is = is' := Except.ok.inj (hback.symm.trans hback')
    have hblob := congrArg (parse 16 24) (hd.symm.trans hd')
    rw [parse_serialize rfl rfl, parse_serialize rfl rfl, Except.ok.injEq, Prod.mk.injEq] at hblob
    have hcab := hblob.1
    simp only [cabeceraDe, Header.mk.injEq] at hcab
    exact Prod.ext hcab.2.2.2.2.1 hcab.2.2.2.2.2.1
  · rintro azar text text' ⟨is, hi, ht⟩ ⟨is', hi', ht'⟩
    obtain rfl : is = is' := Except.ok.inj (hi.symm.trans hi')
    exact Except.ok.inj (ht.symm.trans ht')

/-- Over the rounds, each breach is a salt and a nonce that had been drawn. -/
theorem unicidad_cuenta {rounds : Nat} {seen : List String} {vistos : List (Arr 16 × Arr 24)}
    (hseen : List.Forall₂ (Sale kdf aead sha256 data passphrase dict opts) vistos seen)
    {breaches b : Nat} {m m' : Mundo 24 K}
    (h : unicidad kdf aead sha256 data passphrase dict opts rounds seen breaches m = .ok b m') :
    ∃ azar : List (Arr 16 × Arr 24), azar.length = rounds ∧
      m'.derivaciones = m.derivaciones ++ azar.map (fun p => (p.1, opts.kdfParams)) ∧
      m'.sellos.map Sello.nonce = m.sellos.map Sello.nonce ++ azar.map Prod.snd ∧
      b + (azar ++ vistos).toFinset.card = breaches + rounds + vistos.toFinset.card := by
  induction rounds generalizing seen vistos breaches m with
  | zero =>
    cases h
    exact ⟨[], rfl, (List.append_nil _).symm, (List.append_nil _).symm, rfl⟩
  | succ rounds ih =>
    obtain ⟨text, m₁, he, h⟩ := Prog.bind_ok.mp h
    obtain ⟨p, hp, hder, hsel⟩ := sale_of_encode he
    have hmem : p ∈ vistos ↔ text ∈ seen := List.rel_mem sale_biUnique hp hseen
    split at h
    next hs =>
      obtain ⟨azar, hl, hd, hn, hb⟩ := ih hseen h
      refine ⟨p :: azar, by rw [List.length_cons, hl], ?_, ?_, ?_⟩
      · rw [hd, hder, List.append_assoc, List.map_cons, List.singleton_append]
      · rw [hn, hsel, List.append_assoc, List.map_cons, List.singleton_append]
      · have hp' : p ∈ (azar ++ vistos).toFinset :=
          List.mem_toFinset.mpr (List.mem_append_right azar (hmem.mpr hs))
        rw [List.cons_append, List.toFinset_cons, Finset.insert_eq_of_mem hp']
        omega
    next hs =>
      obtain ⟨azar, hl, hd, hn, hb⟩ := ih (.cons hp hseen) h
      refine ⟨p :: azar, by rw [List.length_cons, hl], ?_, ?_, ?_⟩
      · rw [hd, hder, List.append_assoc, List.map_cons, List.singleton_append]
      · rw [hn, hsel, List.append_assoc, List.map_cons, List.singleton_append]
      · have hp' : p ∉ vistos.toFinset := fun hp' => hs (hmem.mp (List.mem_toFinset.mp hp'))
        have hperm : (azar ++ p :: vistos).toFinset = (p :: (azar ++ vistos)).toFinset :=
          List.toFinset_eq_of_perm _ _ List.perm_middle
        rw [List.toFinset_cons, Finset.card_insert_of_notMem hp', hperm] at hb
        rw [List.cons_append]
        omega

/-- The breaches are the draws of a salt and a nonce that had come before, no more and no less. -/
theorem uniqueness_exacta (kdf : Kdf M K) (aead : Aead 24 K) (sha256 : List UInt8 → Arr 32)
    (data : List UInt8) (passphrase : String) (dict : Dictionary) (opts : Api.Options)
    (rounds : Nat) {m m' : Mundo 24 K} {report : AttackReport}
    (h : uniquenessAttack kdf aead sha256 data passphrase dict opts rounds m = .ok report m') :
    ∃ azar : List (Arr 16 × Arr 24), azar.length = rounds ∧
      m'.derivaciones = m.derivaciones ++ azar.map (fun p => (p.1, opts.kdfParams)) ∧
      m'.sellos.map Sello.nonce = m.sellos.map Sello.nonce ++ azar.map Prod.snd ∧
      report.attempts = rounds ∧ report.breaches + azar.toFinset.card = rounds ∧
      (report.isClean = true ↔ azar.Nodup) := by
  obtain ⟨b, m₁, hb, h⟩ := Prog.bind_ok.mp h
  cases h
  obtain ⟨azar, hl, hd, hn, hcard⟩ := unicidad_cuenta .nil hb
  rw [List.append_nil, List.toFinset_nil, Finset.card_empty] at hcard
  have hb : b + azar.toFinset.card = rounds := by omega
  have hnodup : azar.toFinset.card = azar.length ↔ azar.Nodup := by
    rw [← Multiset.coe_nodup, ← Multiset.toFinset_card_eq_card_iff_nodup, Multiset.coe_card]
    rfl
  refine ⟨azar, hl, hd, hn, rfl, hb, ?_⟩
  rw [← hnodup, AttackReport.isClean, beq_iff_eq]
  show b = 0 ↔ _
  omega

/-- The serene source lets the attack run through. -/
theorem exists_unicidad {params : KdfParams} (ha : kdf.acepta params = true)
    (aead : Aead 24 K) (sha256 : List UInt8 → Arr 32) (data : List UInt8) (passphrase : String)
    (dict : Dictionary) (pepper : List UInt8) (rounds : Nat) (seen : List String) (breaches : Nat)
    (m : Mundo 24 K)
    (hm : m.cinta = (Mundo.sereno : Mundo 24 K).cinta) :
    ∃ b m', unicidad kdf aead sha256 data passphrase dict ⟨pepper, params⟩ rounds seen breaches m =
      .ok b m' := by
  induction rounds generalizing seen breaches m with
  | zero => exact ⟨breaches, m, rfl⟩
  | succ rounds ih =>
    obtain ⟨text, m', he, hm'⟩ := Api.exists_encode_de ha aead sha256 data passphrase dict pepper hm
    rw [unicidad, Prog.bind_of_ok he]
    split
    next => exact ih _ _ _ hm'
    next => exact ih _ _ _ hm'

theorem uniqueness_exacta_tres :
    ∃ (report : AttackReport) (azar : List (Arr 16 × Arr 24)) (m' : Mundo 24 ClaveLibre),
      uniquenessAttack (Kdf.libre id) Aead.deMarca (fun _ => List.Vector.replicate 32 0) [7] "clave"
        Api.alfabetoAB ⟨[], ⟨64, 1, 1⟩⟩ 3 .sereno = .ok report m' ∧
      azar.length = 3 ∧ report.breaches + azar.toFinset.card = 3 := by
  have ha : (Kdf.libre id).acepta ⟨64, 1, 1⟩ = true := by decide
  obtain ⟨b, m', h⟩ := exists_unicidad ha Aead.deMarca (fun _ => List.Vector.replicate 32 0) [7]
    "clave" Api.alfabetoAB [] 3 [] 0 .sereno rfl
  have hrun : uniquenessAttack (Kdf.libre id) Aead.deMarca (fun _ => List.Vector.replicate 32 0)
      [7] "clave" Api.alfabetoAB ⟨[], ⟨64, 1, 1⟩⟩ 3 .sereno =
        .ok (⟨"uniqueness", 3, b⟩ : AttackReport) m' := by
    rw [uniquenessAttack, Prog.bind_of_ok h]
    rfl
  obtain ⟨azar, hl, _, _, _, hb, _⟩ := uniqueness_exacta (Kdf.libre id) Aead.deMarca
    (fun _ => List.Vector.replicate 32 0) [7] "clave" Api.alfabetoAB ⟨[], ⟨64, 1, 1⟩⟩ 3 hrun
  exact ⟨_, azar, m', hrun, hl, hb⟩

end Hackerbot

end Quipu
