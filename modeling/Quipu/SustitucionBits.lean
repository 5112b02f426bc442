import Quipu.Sustitucion
import Mathlib.Data.Nat.Factorization.Basic

namespace Quipu

theorem ofBe_append (as bs : List UInt8) :
    ofBe (as ++ bs) = ofBe as * 256 ^ bs.length + ofBe bs := by
  rw [Codec.ofBe_eq_ofDigits, Codec.ofBe_eq_ofDigits, Codec.ofBe_eq_ofDigits, List.map_append,
    List.reverse_append, Nat.ofDigits_append, List.length_reverse, List.length_map, Nat.mul_comm,
    Nat.add_comm]

namespace Codec

/-- The weight of a byte among others. -/
theorem ofBe_octeto (pre rest : List UInt8) (f : UInt8) :
    ofBe (pre ++ f :: rest) = ofBe (pre ++ 0 :: rest) + f.toNat * 256 ^ rest.length := by
  have hcero : (0 : UInt8).toNat = 0 := rfl
  rw [ofBe_append, ofBe_append, ofBe_cons, ofBe_cons, hcero, Nat.zero_mul, Nat.zero_add,
    List.length_cons, List.length_cons]
  omega

/-- A base whose powers come to that many factors of two while they are no larger has no other
factor. -/
theorem base_de_bits {n k L : Nat} (hn : 2 ≤ n) (hle : n ≤ 0x110000) (hL : 200 ≤ L)
    (hdvd : 256 ^ L ∣ n ^ k) (hlt : n ^ k < 2 * 256 ^ (L + 6)) : ∃ a, n = 2 ^ a := by
  obtain ⟨a, t, ht, rfl⟩ := Nat.exists_eq_two_pow_mul_odd (n := n) (by omega)
  have hcop : Nat.Coprime (2 ^ (8 * L)) (t ^ k) := by
    refine Nat.Coprime.pow _ _ ?_
    exact (Nat.coprime_two_left).mpr ht
  rw [Escrito.pow_bytes, Nat.mul_pow] at hdvd
  have hpow := hcop.dvd_of_dvd_mul_right hdvd
  rw [← Nat.pow_mul] at hpow
  have hak : 8 * L ≤ a * k := (Nat.pow_dvd_pow_iff_le_right (by decide)).mp hpow
  by_cases huno : t = 1
  · exact ⟨a, by rw [huno, Nat.mul_one]⟩
  obtain ⟨u, hu⟩ := ht
  have htres : 2 ≤ t := by omega
  have htk : 2 ^ k ≤ t ^ k := Nat.pow_le_pow_left htres k
  have hk : k < 49 := by
    have h₁ : 2 ^ (8 * L) * 2 ^ k ≤ 2 ^ (a * k) * t ^ k :=
      Nat.mul_le_mul (Nat.pow_le_pow_right (by decide) hak) htk
    have h₂ : 2 * 256 ^ (L + 6) = 2 ^ (8 * L) * 2 ^ 49 := by
      rw [Escrito.pow_bytes, ← Nat.pow_add, ← Nat.pow_succ']
      congr 1
    rw [Nat.mul_pow, ← Nat.pow_mul, h₂] at hlt
    have h₃ := Nat.lt_of_mul_lt_mul_left (h₁.trans_lt hlt)
    exact (Nat.pow_lt_pow_iff_right (by decide)).mp h₃
  have ha : a < 21 := by
    have h₁ : 2 ^ a ≤ 2 ^ a * t := Nat.le_mul_of_pos_right _ (by omega)
    refine (Nat.pow_lt_pow_iff_right (by decide : 1 < 2)).mp ?_
    omega
  have := Nat.mul_le_mul (Nat.le_of_lt_succ ha) (Nat.le_of_lt_succ hk)
  omega

namespace Escrito

variable {n : Nat} {ds : List Nat} {pre rest : List UInt8}

/-- A power of two that is a sum of marker units and units of a byte is a bit of that byte or the
marker itself. -/
theorem bit_de_marca {c f e : Nat} (hc : 0 < c) (hf : f < 256)
    (h : (c - 1) * 256 ^ 6 + f = 2 ^ e) (hlt : 2 ^ e < 2 * 256 ^ 6) :
    c = 1 ∧ f = 2 ^ e ∧ e < 8 ∨ c = 2 ∧ f = 0 ∧ e = 48 := by
  have he : e < 49 := (Nat.pow_lt_pow_iff_right (by decide : 1 < 2)).mp hlt
  have h256 := pow_bytes 6
  rcases Nat.lt_or_ge e 48 with he' | he'
  · have hpow : 2 ^ e < 2 ^ 48 := Nat.pow_lt_pow_right (by decide) he'
    have huno : c = 1 := by omega
    have hf' : f = 2 ^ e := by omega
    refine .inl ⟨huno, hf', (Nat.pow_lt_pow_iff_right (by decide : 1 < 2)).mp ?_⟩
    omega
  · obtain rfl : e = 48 := by omega
    exact .inr ⟨by omega, by omega, rfl⟩

/-- The digit that starts at a bit of a zero byte is even. -/
theorem digito_par {a : Nat} (h : Escrito (2 ^ a) (pre ++ 0 :: rest) ds) {l r : List Nat} {d : Nat}
    (hds : ds = l ++ d :: r) (ha : 0 < a) (hlo : 8 * rest.length ≤ a * r.length)
    (hhi : a * r.length < 8 * (rest.length + 1)) : d % 2 = 0 := by
  have hcero : (0 : UInt8).toNat = 0 := rfl
  have hpos : 0 < 2 ^ (a * r.length) := Nat.pow_pos (by decide)
  have hval : Nat.ofDigits (2 ^ a) ds.reverse =
      2 ^ (8 * (rest.length + 1)) * (256 ^ pre.length + ofBe pre) + ofBe rest := by
    rw [h.valor_eq, ofBe_append, ofBe_cons, hcero, Nat.zero_mul, Nat.zero_add, ← pow_bytes,
      List.length_append, List.length_cons, Nat.pow_add, ← Nat.add_assoc, ← Nat.add_mul,
      Nat.mul_comm]
  have hresto : ofBe rest < 2 ^ (a * r.length) :=
    ((pow_bytes _).symm ▸ ofBe_lt rest).trans_le (Nat.pow_le_pow_right (by decide) hlo)
  have hbit : (Nat.ofDigits (2 ^ a) ds.reverse).testBit (a * r.length) = false := by
    rw [hval, Nat.testBit_two_pow_mul_add _
      (hresto.trans (Nat.pow_lt_pow_right (by decide) hhi)), if_pos hhi,
      Nat.testBit_lt_two_pow hresto]
  have hbajo := Nat.ofDigits_lt_base_pow_length (b := 2 ^ a) (l := r.reverse)
    (Nat.one_lt_two_pow ha.ne') fun x hx => h.lt x (by rw [hds]; simp [List.mem_reverse.mp hx])
  rw [List.length_reverse, ← Nat.pow_mul] at hbajo
  rw [hds, ofDigits_reverse_cons, ← Nat.pow_mul, Nat.testBit_eq_decide_div_mod_eq,
    Nat.add_mul_div_left _ _ hpos, Nat.div_eq_of_lt hbajo, Nat.zero_add,
    decide_eq_false_iff_not] at hbit
  rw [← Nat.two_pow_pred_mul_two ha, Nat.mul_right_comm, Nat.add_mul_mod_self_right] at hbit
  omega

theorem length_octeto (hpre : pre.length = 5) (f : UInt8) :
    (pre ++ f :: rest).length = rest.length + 6 := by
  rw [List.length_append, List.length_cons, hpre]
  omega

/-- What a digit passed to its successor adds, where the bytes change in one that was zero. -/
theorem decode_octeto_iff (hn : 2 ≤ n) (hpre : pre.length = 5)
    (h : Escrito n (pre ++ 0 :: rest) ds) {l r : List Nat} {d : Nat} (hds : ds = l ++ d :: r)
    (f : UInt8) : decodeBaseN (l ++ siguiente n d :: r) n = pre ++ f :: rest ↔
      d + 1 < n ∧ ∃ c : UInt8, c ≠ 0 ∧
        n ^ r.length = ((c.toNat - 1) * 256 ^ 6 + f.toNat) * 256 ^ rest.length := by
  have hval := h.valor_eq
  have hsuma : 256 ^ (rest.length + 6) = 256 ^ 6 * 256 ^ rest.length := by
    rw [Nat.pow_add, Nat.mul_comm]
  rw [h.decode_siguiente_iff hn (by simp) hds (by rw [length_octeto hpre, length_octeto hpre])
    (by rw [ofBe_octeto pre rest f]; exact Nat.le_add_right _ _)]
  refine and_congr_right fun _ => exists_congr fun c => and_congr_right fun hc => ?_
  obtain ⟨k, hk⟩ := Nat.exists_eq_succ_of_ne_zero fun h => hc (UInt8.toNat_inj.mp h)
  rw [hval, ofBe_octeto pre rest f, length_octeto hpre, hk, Nat.succ_sub_one, Nat.add_mul,
    Nat.mul_assoc, ← hsuma, Nat.succ_mul]
  omega

theorem octeto_of_decode (hn : 2 ≤ n) (hle : n ≤ 0x110000) (hpre : pre.length = 5)
    (hrest : 200 ≤ rest.length) (h : Escrito n (pre ++ 0 :: rest) ds) {l r : List Nat} {d : Nat}
    (hds : ds = l ++ d :: r) {f : UInt8}
    (hf : decodeBaseN (l ++ siguiente n d :: r) n = pre ++ f :: rest) :
    ∃ a, n = 2 ^ a ∧ (8 * rest.length ≤ a * r.length ∧ a * r.length < 8 * (rest.length + 1) ∨
      2 ≤ a ∧ a * r.length = 8 * (rest.length + 6)) := by
  have hpeso := (h.pow_le_valor hn hds).trans_lt h.valor_lt
  have hP : 0 < 256 ^ rest.length := Nat.pow_pos (by decide)
  rw [length_octeto hpre] at hpeso
  obtain ⟨hd, c, hc, hdif⟩ := (h.decode_octeto_iff hn hpre hds f).mp hf
  have hcpos : 0 < c.toNat := Nat.pos_of_ne_zero fun h => hc (UInt8.toNat_inj.mp h)
  obtain ⟨a, rfl⟩ := base_de_bits hn hle hrest ⟨_, hdif.trans (Nat.mul_comm _ _)⟩ hpeso
  refine ⟨a, rfl, ?_⟩
  rw [← Nat.pow_mul] at hdif hpeso
  have hak : 8 * rest.length ≤ a * r.length := by
    refine (Nat.pow_dvd_pow_iff_le_right (by decide : 1 < 2)).mp ?_
    rw [hdif, ← pow_bytes]
    exact Nat.dvd_mul_left _ _
  obtain ⟨e, he⟩ := Nat.exists_eq_add_of_le hak
  rw [he, Nat.pow_add, ← pow_bytes, Nat.mul_comm] at hdif hpeso
  have hM := Nat.eq_of_mul_eq_mul_right hP hdif
  have hM' : 2 ^ e < 2 * 256 ^ 6 := by
    refine Nat.lt_of_mul_lt_mul_right (a := 256 ^ rest.length) (hpeso.trans_eq ?_)
    rw [Nat.pow_add, Nat.mul_assoc, Nat.mul_comm (256 ^ 6)]
  rcases bit_de_marca hcpos f.toNat_lt hM.symm hM' with ⟨_, _, hocho⟩ | ⟨_, _, hmarca⟩
  · exact .inl ⟨hak, by omega⟩
  · have hpow : (2 ^ a) ^ r.length = 256 ^ (pre ++ 0 :: rest).length := by
      rw [length_octeto hpre, ← Nat.pow_mul, pow_bytes, he, hmarca, Nat.mul_add]
    obtain ⟨_, rfl⟩ := h.marca_eq_uno hn hds hpow
    exact .inr ⟨(Nat.pow_lt_pow_iff_right (by decide : 1 < 2)).mp hd, by omega⟩

/-- A digit that starts at a bit of the zero byte sets this bit when it passes to its successor. -/
theorem decode_bit {a : Nat} (hpre : pre.length = 5) (ha : 0 < a)
    (h : Escrito (2 ^ a) (pre ++ 0 :: rest) ds) {l r : List Nat} {d : Nat} (hds : ds = l ++ d :: r)
    (hlo : 8 * rest.length ≤ a * r.length) (hhi : a * r.length < 8 * (rest.length + 1)) :
    ∃ f : UInt8, decodeBaseN (l ++ siguiente (2 ^ a) d :: r) (2 ^ a) = pre ++ f :: rest := by
  have hpar := h.digito_par hds ha hlo hhi
  have hd := h.lt d (by rw [hds]; simp)
  have hbase := Nat.two_pow_pred_mul_two ha
  obtain ⟨e, he⟩ := Nat.exists_eq_add_of_le hlo
  have hbit : 2 ^ e < 2 ^ 8 := Nat.pow_lt_pow_right (by decide) (by omega)
  have hf : (UInt8.ofNat (2 ^ e)).toNat = 2 ^ e := by
    rw [UInt8.toNat_ofNat', Nat.mod_eq_of_lt hbit]
  have huno : (1 : UInt8).toNat = 1 := rfl
  have hn : 2 ≤ 2 ^ a := Nat.le_self_pow ha.ne' 2
  refine ⟨UInt8.ofNat (2 ^ e), (h.decode_octeto_iff hn hpre hds _).mpr
    ⟨by omega, 1, by decide, ?_⟩⟩
  rw [hf, huno, Nat.sub_self, Nat.zero_mul, Nat.zero_add, ← Nat.pow_mul, he, Nat.pow_add,
    pow_bytes, Nat.mul_comm]

/-- A digit passed to its successor reads as the same bytes but for one, that was zero, exactly
where it starts at a bit of this byte or is the marker. -/
theorem decode_siguiente_octeto (hn : 2 ≤ n) (hle : n ≤ 0x110000) (hpre : pre.length = 5)
    (hrest : 200 ≤ rest.length) (h : Escrito n (pre ++ 0 :: rest) ds) {l r : List Nat} {d : Nat}
    (hds : ds = l ++ d :: r) :
    (∃ f : UInt8, decodeBaseN (l ++ siguiente n d :: r) n = pre ++ f :: rest) ↔
      ∃ a, n = 2 ^ a ∧
        (8 * rest.length ≤ a * r.length ∧ a * r.length < 8 * (rest.length + 1) ∨
          2 ≤ a ∧ a * r.length = 8 * (rest.length + 6)) := by
  constructor
  · rintro ⟨f, hf⟩
    exact h.octeto_of_decode hn hle hpre hrest hds hf
  · rintro ⟨a, rfl, ⟨hlo, hhi⟩ | ⟨ha, hmarca⟩⟩
    · refine h.decode_bit hpre (Nat.pos_of_ne_zero fun h0 => ?_) hds hlo hhi
      rw [h0, Nat.zero_mul] at hlo
      omega
    · have hpow : (2 ^ a) ^ r.length = 256 ^ (rest.length + 6) := by
        rw [← Nat.pow_mul, pow_bytes, hmarca]
      obtain ⟨_, rfl⟩ := h.marca_eq_uno hn hds (by rw [hpow, length_octeto hpre])
      have hcuatro : 2 ^ 2 ≤ 2 ^ a := Nat.pow_le_pow_right (by decide) ha
      have hdos : (2 : UInt8).toNat = 2 := rfl
      have hcero : (0 : UInt8).toNat = 0 := rfl
      refine ⟨0, (h.decode_octeto_iff hn hpre hds 0).mpr ⟨by omega, 2, by decide, ?_⟩⟩
      rw [hpow, hdos, hcero, Nat.pow_add, Nat.add_zero, Nat.one_mul, Nat.mul_comm]

end Escrito

end Codec

end Quipu
