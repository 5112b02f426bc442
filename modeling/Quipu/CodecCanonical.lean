import Quipu.CodecNaive
import Quipu.TextRoundTrip

namespace Quipu

namespace Codec

variable {ε : Type}

/-- The digits do not start with a zero, and the highest byte of their number is a one. -/
def Canonica (n : Nat) (ds : List Nat) : Prop :=
  ds.head? ≠ some 0 ∧
    ∃ L, 256 ^ L ≤ Nat.ofDigits n ds.reverse ∧ Nat.ofDigits n ds.reverse < 2 * 256 ^ L

theorem toBytesBe_valor {v : Nat} (hv : v ≠ 0) :
    ∃ b bs, toBytesBe v = b :: bs ∧ b ≠ 0 ∧ ofBe (b :: bs) = v := by
  obtain ⟨d, resto, hd, hne⟩ := reverse_digits_ne_zero (n := 256) hv
  have hlt : ∀ x ∈ d :: resto, x < 256 := fun x hx =>
    Nat.digits_lt_base (by decide) (List.mem_reverse.mp (hd ▸ hx))
  have hbytes : toBytesBe v = (d :: resto).map UInt8.ofNat := by
    rw [toBytesBe, if_neg hv, ← List.map_reverse, hd]
  have hback : ((d :: resto).map UInt8.ofNat).map UInt8.toNat = d :: resto := by
    rw [List.map_map]
    refine (List.map_congr_left fun x hx => ?_).trans (List.map_id _)
    have := hlt x hx
    simp only [Function.comp_apply, UInt8.toNat_ofNat', id_eq]
    omega
  refine ⟨UInt8.ofNat d, resto.map UInt8.ofNat, hbytes, fun h => hne ?_, ?_⟩
  · have hcero := congrArg UInt8.toNat h
    have := hlt d List.mem_cons_self
    simp only [UInt8.toNat_ofNat', UInt8.toNat_zero] at hcero
    omega
  · rw [← List.map_cons, ofBe_eq_ofDigits, hback, ← hd, List.reverse_reverse,
      Nat.ofDigits_digits]

/-- The highest byte of a number, read off its size. -/
theorem primer_byte_iff {b : UInt8} (hb : b ≠ 0) (bs : List UInt8) :
    (∃ L, 256 ^ L ≤ ofBe (b :: bs) ∧ ofBe (b :: bs) < 2 * 256 ^ L) ↔ b = 1 := by
  have hcons := ofBe_cons b bs
  have hresto := ofBe_lt bs
  have hpos : 0 < b.toNat := Nat.pos_of_ne_zero fun h => hb (UInt8.toNat_inj.mp h)
  have h256 := b.toNat_lt
  have hle : 256 ^ bs.length ≤ ofBe (b :: bs) := by
    have := Nat.mul_le_mul_right (256 ^ bs.length) hpos
    omega
  constructor
  · rintro ⟨L, hL, hlt⟩
    have h₁ : 256 ^ bs.length < 256 ^ (L + 1) := by
      rw [Nat.pow_succ]
      omega
    have h₂ : 256 ^ L < 256 ^ (bs.length + 1) := by
      have := Nat.mul_le_mul_right (256 ^ bs.length) (by omega : b.toNat ≤ 255)
      rw [Nat.pow_succ]
      omega
    have hlen₁ := (Nat.pow_lt_pow_iff_right (by decide)).mp h₁
    have hlen₂ := (Nat.pow_lt_pow_iff_right (by decide)).mp h₂
    obtain rfl : L = bs.length := by omega
    have hdos : b.toNat < 2 := by
      refine Nat.lt_of_mul_lt_mul_right (a := 256 ^ bs.length) ?_
      omega
    have huno : b.toNat = (1 : UInt8).toNat := by
      show b.toNat = 1
      omega
    exact UInt8.toNat_inj.mp huno
  · intro h
    have huno : b.toNat = 1 := by rw [h]; rfl
    rw [huno, Nat.one_mul] at hcons
    exact ⟨bs.length, hle, by omega⟩

/-- Reading and writing again gives the same digits exactly when they are canonical. -/
theorem encodeBaseN_decodeBaseN {n : Nat} (hn : 2 ≤ n) (hle : n ≤ u32Max) {ds : List Nat}
    (hds : ∀ d ∈ ds, d < n) :
    (encodeBaseN (decodeBaseN ds n) n : Res ε (List Nat)) = .ok ds ↔ Canonica n ds := by
  have hdec : decodeBaseN ds n = (toBytesBe (Nat.ofDigits n ds.reverse)).drop 1 := by
    rw [decodeBaseN, foldl_eq_ofDigits]
  rw [encodeBaseN_eq hn (hle.trans (by decide)), Except.ok.injEq]
  constructor
  · intro h
    have hval : Nat.ofDigits n ds.reverse = ofBe (1 :: decodeBaseN ds n) := by
      conv_lhs => rw [← h, List.reverse_reverse, Nat.ofDigits_digits]
    obtain ⟨d, resto, hd, hne⟩ := reverse_digits_ne_zero (n := n)
      (ofBe_marca_ne_zero (decodeBaseN ds n))
    refine ⟨?_, ?_⟩
    · rw [← h, hd, List.head?_cons, ne_eq, Option.some.injEq]
      exact hne
    · rw [hval]
      exact (primer_byte_iff (by decide) _).mpr rfl
  · rintro ⟨hhead, hmarca⟩
    have hv : Nat.ofDigits n ds.reverse ≠ 0 := by
      obtain ⟨L, hL, _⟩ := hmarca
      have hpos : 0 < 256 ^ L := Nat.pow_pos (by decide)
      omega
    obtain ⟨b, bs, hbytes, hb, hval⟩ := toBytesBe_valor hv
    rw [← hval] at hmarca
    obtain rfl := (primer_byte_iff hb bs).mp hmarca
    rw [hdec, hbytes, List.drop_succ_cons, List.drop_zero, hval, Nat.digits_ofDigits n hn,
      List.reverse_reverse]
    · intro d hd
      exact hds d (List.mem_reverse.mp hd)
    · intro hne
      rw [List.getLast_reverse]
      intro hcero
      refine hhead ?_
      rw [List.head?_eq_some_head (by simpa using hne), hcero]

/-- Leading zero digits have no part in what is read. -/
theorem decodeBaseN_zero_cons (ds : List Nat) (n : Nat) :
    decodeBaseN (0 :: ds) n = decodeBaseN ds n := by
  simp only [decodeBaseN, List.foldl_cons, Nat.zero_mul, Nat.add_zero]

end Codec

namespace Dictionary

theorem symbolToIndex_eq_some {d : Dictionary} {c : Char} {i : Nat} :
    d.symbolToIndex c = some i ↔ d.symbols[i]? = some c := by
  rw [symbolToIndex, List.idxOf?_eq_some_iff, List.getElem?_eq_some_iff]
  constructor
  · rintro ⟨hi, hc, _⟩
    exact ⟨hi, hc⟩
  · rintro ⟨hi, hc⟩
    refine ⟨hi, hc, fun j hj he => ?_⟩
    exact hj.ne (d.nodup.getElem_inj_iff.mp (he.trans hc.symm))

theorem decodeChars_cons_eq_ok {d : Dictionary} {c : Char} {cs : List Char} {ds : List Nat} :
    d.decodeChars (c :: cs) = .ok ds ↔
      ∃ i is, d.symbols[i]? = some c ∧ d.decodeChars cs = .ok is ∧ ds = i :: is := by
  rw [decodeChars]
  cases hc : d.symbolToIndex c with
  | none =>
    refine iff_of_false (fun h => by cases h) ?_
    rintro ⟨i, is, hi, _⟩
    rw [symbolToIndex_eq_some.mpr hi] at hc
    cases hc
  | some i =>
    have hi := symbolToIndex_eq_some.mp hc
    cases his : d.decodeChars cs with
    | error e =>
      refine iff_of_false (fun h => by cases h) ?_
      rintro ⟨_, is, _, his', _⟩
      cases his'
    | ok is =>
      constructor
      · intro h
        cases h
        exact ⟨i, is, hi, rfl, rfl⟩
      · rintro ⟨j, is', hj, his', rfl⟩
        have hj' := symbolToIndex_eq_some.mpr hj
        obtain rfl := Option.some.inj (hj'.symm.trans hc)
        cases his'
        rfl

/-- The digits of a text are the places of its symbols. -/
theorem decodeChars_spec {d : Dictionary} {cs : List Char} {ds : List Nat}
    (h : d.decodeChars cs = .ok ds) : ds.map (d.symbols[·]?) = cs.map some := by
  induction cs generalizing ds with
  | nil =>
    cases h
    rfl
  | cons c cs ih =>
    obtain ⟨i, is, hi, his, rfl⟩ := decodeChars_cons_eq_ok.mp h
    rw [List.map_cons, List.map_cons, hi, ih his]

theorem decode_lt_base {d : Dictionary} {text : String} {ds : List Nat}
    (h : d.decode text = .ok ds) : ∀ i ∈ ds, i < d.base := by
  intro i hi
  have hspec := decodeChars_spec h
  have hmem : d.symbols[i]? ∈ text.toList.map some := by
    rw [← hspec]
    exact List.mem_map_of_mem hi
  obtain ⟨c, _, hc⟩ := List.mem_map.mp hmem
  exact (List.getElem?_eq_some_iff.mp hc.symm).1

theorem decode_inj {d : Dictionary} {text text' : String} {ds : List Nat}
    (h : d.decode text = .ok ds) (h' : d.decode text' = .ok ds) : text = text' := by
  have hspec := (decodeChars_spec h).symm.trans (decodeChars_spec h')
  refine String.toList_inj.mp ?_
  exact List.map_injective_iff.mpr (fun _ _ he => Option.some.inj he) hspec

end Dictionary

namespace Api

/-- The symbol of zero in front of a text changes the text alone. -/
theorem blobDe_cero (dict : Dictionary) {symbols : String} {blob : List UInt8}
    (h : blobDe dict symbols = .ok blob) :
    ∃ symbols', symbols' ≠ symbols ∧ blobDe dict symbols' = .ok blob := by
  have hcero : 0 < dict.symbols.length := Nat.lt_of_lt_of_le (by decide) dict.dos
  refine ⟨String.ofList (dict.symbols[0] :: symbols.toList), fun he => ?_, ?_⟩
  · have hlen := congrArg (fun s => s.toList.length) he
    simp only [String.toList_ofList, List.length_cons] at hlen
    omega
  · unfold blobDe at h ⊢
    cases hd : dict.decode symbols with
    | error e =>
      rw [hd] at h
      cases h
    | ok ds =>
      rw [hd] at h
      have hcons : dict.decode (String.ofList (dict.symbols[0] :: symbols.toList)) =
          .ok (0 :: ds) := by
        rw [Dictionary.decode, String.toList_ofList]
        exact Dictionary.decodeChars_cons_eq_ok.mpr
          ⟨0, ds, List.getElem?_eq_getElem hcero, hd, rfl⟩
      rw [hcons]
      cases h
      exact congrArg Except.ok (Codec.decodeBaseN_zero_cons ds dict.base)

/-- A digit list is what the writer gives for what it reads as exactly when it is canonical, and
two canonical texts that read as the same bytes are one. -/
theorem forma_canonica {n : Nat} {ds : List Nat} (hn : 2 ≤ n) (hle : n ≤ Codec.u32Max)
    (hds : ∀ d ∈ ds, d < n) :
    ((Codec.encodeBaseN (Codec.decodeBaseN ds n) n : Res Empty (List Nat)) = .ok ds ↔
        Codec.Canonica n ds) ∧
      ∀ (dict : Dictionary) symbols symbols' ds', dict.base = n →
        dict.decode symbols = .ok ds → dict.decode symbols' = .ok ds' →
        Codec.Canonica n ds → Codec.Canonica n ds' →
        Codec.decodeBaseN ds n = Codec.decodeBaseN ds' n → symbols = symbols' := by
  refine ⟨Codec.encodeBaseN_decodeBaseN hn hle hds, ?_⟩
  intro dict symbols symbols' ds' hbase h h' hcan hcan' heq
  have hds' : ∀ d ∈ ds', d < n := fun d hd => hbase ▸ Dictionary.decode_lt_base h' d hd
  have hw := (Codec.encodeBaseN_decodeBaseN (ε := Empty) hn hle hds).mpr hcan
  have hw' := (Codec.encodeBaseN_decodeBaseN (ε := Empty) hn hle hds').mpr hcan'
  rw [heq] at hw
  obtain rfl := Except.ok.inj (hw.symm.trans hw')
  exact Dictionary.decode_inj h h'

/-- The digits of `quipu` in base 94, and the one canonical text of no bytes over two symbols. -/
theorem forma_canonica_quipu :
    (Codec.encodeBaseN (Codec.decodeBaseN [2, 28, 20, 22, 35, 86, 69] 94) 94 :
        Res Empty (List Nat)) = .ok [2, 28, 20, 22, 35, 86, 69] ∧
      ∀ symbols ds, alfabetoAB.decode symbols = .ok ds → Codec.Canonica 2 ds →
        Codec.decodeBaseN ds 2 = [] → symbols = "B" := by
  have hquipu := forma_canonica (n := 94) (by decide) (by decide)
    (show ∀ d ∈ [2, 28, 20, 22, 35, 86, 69], d < 94 by decide)
  refine ⟨hquipu.1.mpr ⟨by decide, 5, by decide, by decide⟩, ?_⟩
  intro symbols ds h hcan hvacio
  have hB : alfabetoAB.decode "B" = .ok [1] := by decide
  have hcanB : Codec.Canonica 2 [1] := ⟨by decide, 0, by decide, by decide⟩
  have htextos := (forma_canonica (n := 2) (by decide) (by decide) (by decide)).2 alfabetoAB "B"
    symbols ds rfl hB h hcanB hcan
  refine (htextos ?_).symm
  rw [hvacio]
  rfl

/-- A leading zero and another marker both read as no bytes, and every text has another one that
reads as the same bytes. -/
theorem forma_no_canonica :
    (Codec.decodeBaseN [0, 1] 94 = Codec.decodeBaseN [1] 94 ∧
      (Codec.encodeBaseN (Codec.decodeBaseN [0, 1] 94) 94 : Res Empty (List Nat)) ≠
        .ok [0, 1]) ∧
    (Codec.decodeBaseN [2] 94 = Codec.decodeBaseN [1] 94 ∧
      (Codec.encodeBaseN (Codec.decodeBaseN [2] 94) 94 : Res Empty (List Nat)) ≠ .ok [2]) ∧
    ∀ dict symbols blob, blobDe dict symbols = .ok blob →
      ∃ symbols', symbols' ≠ symbols ∧ blobDe dict symbols' = .ok blob := by
  refine ⟨⟨Codec.decodeBaseN_zero_cons [1] 94, fun h => ?_⟩, ⟨?_, fun h => ?_⟩,
    fun dict symbols blob => blobDe_cero dict⟩
  · have hcan := (Codec.encodeBaseN_decodeBaseN (by decide) (by decide) (by decide)).mp h
    exact hcan.1 rfl
  · simp [Codec.decodeBaseN, Codec.toBytesBe]
  · obtain ⟨_, L, hL, hlt⟩ :=
      (Codec.encodeBaseN_decodeBaseN (by decide) (by decide) (by decide)).mp h
    have hdos : Nat.ofDigits 94 [2].reverse = 2 := by decide
    rw [hdos] at hL hlt
    cases L with
    | zero => omega
    | succ L =>
      have hpos : 0 < 256 ^ L := Nat.pow_pos (by decide)
      rw [Nat.pow_succ] at hL
      omega

end Api

end Quipu
