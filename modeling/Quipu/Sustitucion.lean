import Quipu.CodecCanonical

namespace Quipu

namespace Dictionary

variable {dict : Dictionary}

/-- Another symbol in a place of a text is another digit there. -/
theorem decodeChars_set {cs : List Char} {ds : List Nat} (h : dict.decodeChars cs = .ok ds)
    {i j : Nat} {c : Char} (hc : dict.symbols[j]? = some c) :
    dict.decodeChars (cs.set i c) = .ok (ds.set i j) := by
  induction cs generalizing ds i with
  | nil =>
    cases h
    rfl
  | cons a cs ih =>
    obtain ⟨k, is, hk, his, rfl⟩ := decodeChars_cons_eq_ok.mp h
    cases i with
    | zero => exact decodeChars_cons_eq_ok.mpr ⟨j, is, hc, his, rfl⟩
    | succ i => exact decodeChars_cons_eq_ok.mpr ⟨k, is.set i j, hk, ih his, rfl⟩

theorem decodeChars_take {cs : List Char} {ds : List Nat} (h : dict.decodeChars cs = .ok ds)
    (i : Nat) : dict.decodeChars (cs.take i) = .ok (ds.take i) := by
  induction cs generalizing ds i with
  | nil =>
    cases h
    rw [List.take_nil, List.take_nil]
    rfl
  | cons a cs ih =>
    obtain ⟨k, is, hk, his, rfl⟩ := decodeChars_cons_eq_ok.mp h
    cases i with
    | zero => rfl
    | succ i => exact decodeChars_cons_eq_ok.mpr ⟨k, is.take i, hk, ih his i, rfl⟩

theorem length_decodeChars {cs : List Char} {ds : List Nat} (h : dict.decodeChars cs = .ok ds) :
    ds.length = cs.length := by
  have := congrArg List.length (decodeChars_spec h)
  simpa using this

end Dictionary

namespace Codec

/-- Adding one to a digit is wrapping it to zero at the end of the base. -/
def siguiente (n d : Nat) : Nat := (d + 1) % n

theorem siguiente_of_lt {n d : Nat} (h : d + 1 < n) : siguiente n d = d + 1 := Nat.mod_eq_of_lt h

theorem siguiente_of_eq {n d : Nat} (h : d + 1 = n) : siguiente n d = 0 := by
  rw [siguiente, h, Nat.mod_self]

theorem siguiente_ne {n d : Nat} (hn : 2 ≤ n) (hd : d < n) : siguiente n d ≠ d := by
  rcases Nat.lt_or_eq_of_le (Nat.succ_le_of_lt hd) with h | h
  · rw [siguiente_of_lt h]
    omega
  · rw [siguiente_of_eq h]
    omega

theorem Escrito.pow_bytes (m : Nat) : 256 ^ m = 2 ^ (8 * m) := by rw [Nat.pow_mul]

/-- The number of some digits, one of them apart. -/
theorem ofDigits_reverse_cons (n d : Nat) (l r : List Nat) :
    Nat.ofDigits n (l ++ d :: r).reverse = Nat.ofDigits n r.reverse +
      n ^ r.length * (d + n * Nat.ofDigits n l.reverse) := by
  rw [List.reverse_append, List.reverse_cons, List.append_assoc, List.singleton_append,
    Nat.ofDigits_append, Nat.ofDigits_cons, List.length_reverse]

/-- The reader drops the highest byte of a number, whatever it is. -/
theorem decodeBaseN_eq_iff {ds : List Nat} {n : Nat} {data : List UInt8} (hd : data ≠ []) :
    decodeBaseN ds n = data ↔
      ∃ c : UInt8, c ≠ 0 ∧ Nat.ofDigits n ds.reverse = ofBe (c :: data) := by
  have hdec : decodeBaseN ds n = (toBytesBe (Nat.ofDigits n ds.reverse)).drop 1 := by
    rw [decodeBaseN, foldl_eq_ofDigits]
  rw [hdec]
  constructor
  · intro h
    have hv : Nat.ofDigits n ds.reverse ≠ 0 := by
      intro hv
      rw [hv] at h
      exact hd h.symm
    obtain ⟨c, bs, hbytes, hc, hval⟩ := toBytesBe_valor hv
    rw [hbytes, List.drop_succ_cons, List.drop_zero] at h
    exact ⟨c, hc, by rw [← hval, h]⟩
  · rintro ⟨c, hc, hval⟩
    rw [hval, toBytesBe_ofBe hc, List.drop_succ_cons, List.drop_zero]

/-- The digits that a writer gives for some bytes. -/
structure Escrito (n : Nat) (data : List UInt8) (ds : List Nat) : Prop where
  lt : ∀ d ∈ ds, d < n
  valor : Nat.ofDigits n ds.reverse = ofBe (1 :: data)
  cabeza : ds.head? ≠ some 0

theorem escrito_of_encodeBaseN {ε : Type} {n : Nat} (hn : 2 ≤ n) (hle : n ≤ u64Max)
    {data : List UInt8} {ds : List Nat} (h : (encodeBaseN data n : Res ε (List Nat)) = .ok ds) :
    Escrito n data ds := by
  rw [encodeBaseN_eq hn hle, Except.ok.injEq] at h
  refine ⟨fun d hd => ?_, ?_, ?_⟩
  · rw [← h] at hd
    exact Nat.digits_lt_base hn (List.mem_reverse.mp hd)
  · rw [← h, List.reverse_reverse, Nat.ofDigits_digits]
  · obtain ⟨d, resto, hd, hne⟩ := reverse_digits_ne_zero (n := n) (ofBe_marca_ne_zero data)
    rw [← h, hd, List.head?_cons, ne_eq, Option.some.injEq]
    exact hne

namespace Escrito

variable {n : Nat} {data : List UInt8} {ds : List Nat}

theorem valor_eq (h : Escrito n data ds) :
    Nat.ofDigits n ds.reverse = 256 ^ data.length + ofBe data := by
  have hcons := ofBe_cons 1 data
  have huno : (1 : UInt8).toNat = 1 := rfl
  rw [huno, Nat.one_mul] at hcons
  rw [h.valor, hcons]

theorem valor_lt (h : Escrito n data ds) : Nat.ofDigits n ds.reverse < 2 * 256 ^ data.length := by
  have := ofBe_lt data
  rw [h.valor_eq]
  omega

/-- A power of the base that the marker reaches is the weight of a digit. -/
theorem lt_length (hn : 2 ≤ n) (h : Escrito n data ds) {j : Nat}
    (hj : n ^ j ≤ 256 ^ data.length) : j < ds.length := by
  have hval := h.valor_eq
  have hsup := Nat.ofDigits_lt_base_pow_length (b := n) (l := ds.reverse) (by omega) fun x hx =>
    h.lt x (List.mem_reverse.mp hx)
  rw [List.length_reverse] at hsup
  refine (Nat.pow_lt_pow_iff_right (by omega : 1 < n)).mp ?_
  omega

/-- Digits up to a place are zero in all only when there are none. -/
theorem alto_pos (hn : 2 ≤ n) (h : Escrito n data ds) {l r : List Nat} (hds : ds = l ++ r)
    (hl : l ≠ []) : 0 < Nat.ofDigits n l.reverse := by
  obtain ⟨d, l', rfl⟩ := List.exists_cons_of_ne_nil hl
  have hd : d ≠ 0 := by
    rintro rfl
    refine h.cabeza ?_
    rw [hds]
    rfl
  have hcons := ofDigits_reverse_cons n d [] l'
  have hpos : 0 < n ^ l'.length := Nat.pow_pos (by omega)
  rw [List.nil_append, List.reverse_nil, Nat.ofDigits_nil, Nat.mul_zero, Nat.add_zero] at hcons
  have := Nat.mul_le_mul_left (n ^ l'.length) (Nat.pos_of_ne_zero hd)
  omega

/-- The weight of each digit is at most the number. -/
theorem pow_le_valor (hn : 2 ≤ n) (h : Escrito n data ds) {l r : List Nat} {d : Nat}
    (hds : ds = l ++ d :: r) : n ^ r.length ≤ Nat.ofDigits n ds.reverse := by
  have hpos := h.alto_pos hn (l := l ++ [d]) (r := r) (by rw [hds]; simp) (by simp)
  have hcons := ofDigits_reverse_cons n d l []
  rw [List.reverse_nil, Nat.ofDigits_nil, List.length_nil, Nat.pow_zero, Nat.one_mul,
    Nat.zero_add] at hcons
  rw [hds, ofDigits_reverse_cons, ← hcons]
  have := Nat.mul_le_mul_left (n ^ r.length) hpos
  omega

/-- A number that reads as other bytes of the same length is at least as large only if the digit
was not the last of the base, and then the weight of that digit is the difference. -/
theorem sucesor (hn : 2 ≤ n) (h : Escrito n data ds) {l r : List Nat} {d : Nat}
    (hds : ds = l ++ d :: r) {v : Nat} (hv : Nat.ofDigits n ds.reverse ≤ v) :
    Nat.ofDigits n (l ++ siguiente n d :: r).reverse = v ↔
      d + 1 < n ∧ Nat.ofDigits n ds.reverse + n ^ r.length = v := by
  have hd : d < n := h.lt d (by rw [hds]; simp)
  have hpos : 0 < n ^ r.length := Nat.pow_pos (by omega)
  rw [hds, ofDigits_reverse_cons] at hv ⊢
  rw [ofDigits_reverse_cons]
  rcases Nat.lt_or_eq_of_le (Nat.succ_le_of_lt hd) with hlt | heq
  · have hmul : n ^ r.length * (d + 1 + n * Nat.ofDigits n l.reverse) =
        n ^ r.length * (d + n * Nat.ofDigits n l.reverse) + n ^ r.length := by
      rw [Nat.add_right_comm, Nat.mul_succ]
    rw [siguiente_of_lt hlt, hmul]
    constructor
    · intro heq
      exact ⟨hlt, by omega⟩
    · rintro ⟨_, heq⟩
      omega
  · have hlt : n ^ r.length * (0 + n * Nat.ofDigits n l.reverse) <
        n ^ r.length * (d + n * Nat.ofDigits n l.reverse) :=
      Nat.mul_lt_mul_of_pos_left (by omega) hpos
    rw [siguiente_of_eq heq]
    constructor
    · intro heq
      omega
    · rintro ⟨hlt', _⟩
      omega

/-- Where the weight of a digit is that of the marker, the digits up to it are a single one. -/
theorem marca_eq_uno (hn : 2 ≤ n) (h : Escrito n data ds) {l r : List Nat} {d : Nat}
    (hds : ds = l ++ d :: r) (hpow : n ^ r.length = 256 ^ data.length) : l = [] ∧ d = 1 := by
  have hlt := h.valor_lt
  have hval := h.valor_eq
  have hbajo := Nat.ofDigits_lt_base_pow_length (b := n) (l := r.reverse) (by omega) fun x hx =>
    h.lt x (by rw [hds]; simp [List.mem_reverse.mp hx])
  rw [List.length_reverse, hpow] at hbajo
  rw [hds, ofDigits_reverse_cons, hpow] at hlt hval
  have hhi : d + n * Nat.ofDigits n l.reverse < 2 := by
    refine Nat.lt_of_mul_lt_mul_left (a := 256 ^ data.length) ?_
    omega
  have hlo : d + n * Nat.ofDigits n l.reverse ≠ 0 := by
    intro hcero
    rw [hcero] at hval
    omega
  have hl : l = [] := by
    by_contra hl
    have := Nat.mul_le_mul hn (h.alto_pos hn hds hl)
    omega
  rw [hl, List.reverse_nil, Nat.ofDigits_nil] at hhi hlo
  exact ⟨hl, by omega⟩

/-- A digit passed to its successor reads as bytes of the same length and no less only if it adds
its weight to the number. -/
theorem decode_siguiente_iff (hn : 2 ≤ n) (h : Escrito n data ds) (hdata : data ≠ [])
    {l r : List Nat} {d : Nat} (hds : ds = l ++ d :: r) {data' : List UInt8}
    (hlen : data'.length = data.length) (hle : ofBe data ≤ ofBe data') :
    decodeBaseN (l ++ siguiente n d :: r) n = data' ↔
      d + 1 < n ∧ ∃ c : UInt8, c ≠ 0 ∧
        Nat.ofDigits n ds.reverse + n ^ r.length = c.toNat * 256 ^ data.length + ofBe data' := by
  have hval := h.valor_eq
  have hne : data' ≠ [] := by
    rintro rfl
    exact hdata (List.length_eq_zero_iff.mp hlen.symm)
  rw [decodeBaseN_eq_iff hne]
  have hcada : ∀ c : UInt8, c ≠ 0 →
      (Nat.ofDigits n (l ++ siguiente n d :: r).reverse = ofBe (c :: data') ↔ d + 1 < n ∧
        Nat.ofDigits n ds.reverse + n ^ r.length = c.toNat * 256 ^ data.length + ofBe data') := by
    intro c hc
    have hcpos : 0 < c.toNat := Nat.pos_of_ne_zero fun h => hc (UInt8.toNat_inj.mp h)
    have hmul := Nat.mul_le_mul_right (256 ^ data.length) hcpos
    rw [ofBe_cons, hlen]
    exact h.sucesor hn hds (by omega)
  constructor
  · rintro ⟨c, hc, hv⟩
    obtain ⟨hd, hv⟩ := (hcada c hc).mp hv
    exact ⟨hd, c, hc, hv⟩
  · rintro ⟨hd, c, hc, hv⟩
    exact ⟨c, hc, (hcada c hc).mpr ⟨hd, hv⟩⟩

/-- A digit passed to its successor reads as the same bytes only where it is the marker. -/
theorem decode_siguiente (hn : 2 ≤ n) (h : Escrito n data ds) (hdata : data ≠ [])
    {l r : List Nat} {d : Nat} (hds : ds = l ++ d :: r) :
    decodeBaseN (l ++ siguiente n d :: r) n = data ↔
      l = [] ∧ 3 ≤ n ∧ n ^ r.length = 256 ^ data.length := by
  have hpos : 0 < n ^ r.length := Nat.pow_pos (by omega)
  have hval := h.valor_eq
  have hlt := h.valor_lt
  have hle := h.pow_le_valor hn hds
  rw [h.decode_siguiente_iff hn hdata hds rfl (Nat.le_refl _)]
  constructor
  · rintro ⟨hd, c, hc, hv⟩
    have hcpos : 0 < c.toNat := Nat.pos_of_ne_zero fun h => hc (UInt8.toNat_inj.mp h)
    have hlo : c.toNat ≠ 1 := by
      intro huno
      rw [huno] at hv
      omega
    have hhi : c.toNat < 3 := by
      refine Nat.lt_of_mul_lt_mul_right (a := 256 ^ data.length) ?_
      omega
    have hdos : c.toNat = 2 := by omega
    rw [hdos] at hv
    have hpow : n ^ r.length = 256 ^ data.length := by omega
    obtain ⟨hl, rfl⟩ := h.marca_eq_uno hn hds hpow
    exact ⟨hl, hd, hpow⟩
  · rintro ⟨_, htres, hpow⟩
    obtain ⟨_, rfl⟩ := h.marca_eq_uno hn hds hpow
    have hdos : (2 : UInt8).toNat = 2 := rfl
    refine ⟨htres, 2, by decide, ?_⟩
    rw [hdos]
    omega

/-- What is left of a text that is cut reads as other bytes. -/
theorem decode_take (hn : 2 ≤ n) (h : Escrito n data ds) (hdata : data ≠ []) {i : Nat}
    (hi : i < ds.length) : decodeBaseN (ds.take i) n ≠ data := by
  intro hdec
  obtain ⟨c, hc, hv⟩ := (decodeBaseN_eq_iff hdata).mp hdec
  have hcpos : 0 < c.toNat := Nat.pos_of_ne_zero fun h => hc (UInt8.toNat_inj.mp h)
  have hmul := Nat.mul_le_mul_right (256 ^ data.length) hcpos
  have hP : 0 < 256 ^ data.length := Nat.pow_pos (by decide)
  rw [ofBe_cons] at hv
  have hval := h.valor_eq
  have hparte : Nat.ofDigits n ds.reverse = Nat.ofDigits n (ds.drop i).reverse +
      n ^ (ds.drop i).length * Nat.ofDigits n (ds.take i).reverse := by
    conv_lhs => rw [← List.take_append_drop i ds, List.reverse_append, Nat.ofDigits_append,
      List.length_reverse]
  have hlen : (ds.drop i).length = (ds.length - i - 1) + 1 := by
    rw [List.length_drop]
    omega
  have hdos : 2 ≤ n ^ (ds.drop i).length := by
    rw [hlen]
    exact hn.trans (Nat.le_self_pow (by omega) n)
  have := Nat.mul_le_mul_right (Nat.ofDigits n (ds.take i).reverse) hdos
  omega

end Escrito

end Codec

end Quipu
