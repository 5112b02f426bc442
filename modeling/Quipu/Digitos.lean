import Mathlib.Data.List.GetD
import Mathlib.Data.Nat.Digits.Lemmas

namespace Quipu.Digitos

/-- The number that digits of `w` bits write, the high digit first. -/
def numero (w : Nat) (ds : List Nat) : Nat := Nat.ofDigits (2 ^ w) ds.reverse

/-- Bit `i` of a string of digits of `w` bits, zero beyond its end. -/
def bitEn (w : Nat) (ds : List Nat) (i : Nat) : Nat := ds.getD (i / w) 0 / 2 ^ (w - 1 - i % w) % 2

@[simp] theorem numero_nil (w : Nat) : numero w [] = 0 := rfl

theorem numero_concat (w : Nat) (ds : List Nat) (d : Nat) :
    numero w (ds ++ [d]) = numero w ds * 2 ^ w + d := by
  rw [numero, List.reverse_append, List.reverse_singleton, List.singleton_append, Nat.ofDigits_cons,
    numero, Nat.mul_comm, Nat.add_comm]

theorem numero_append (w : Nat) (as bs : List Nat) :
    numero w (as ++ bs) = numero w as * 2 ^ (w * bs.length) + numero w bs := by
  rw [numero, List.reverse_append, Nat.ofDigits_append, List.length_reverse, ← Nat.pow_mul, numero,
    numero, Nat.mul_comm (2 ^ _), Nat.add_comm]

section Cifras

variable {w : Nat} {ds : List Nat} (h : ∀ d ∈ ds, d < 2 ^ w)

include h

theorem numero_lt : numero w ds < 2 ^ (w * ds.length) := by
  induction ds using List.reverseRecOn with
  | nil => exact Nat.one_pos
  | append_singleton ds d ih =>
    have hd := h d (by simp)
    have hn := ih fun x hx => h x (List.mem_append_left _ hx)
    have hp : numero w ds * 2 ^ w + 2 ^ w ≤ 2 ^ (w * ds.length) * 2 ^ w := by
      rw [← Nat.succ_mul]
      exact Nat.mul_le_mul_right _ hn
    rw [numero_concat, List.length_append, List.length_singleton, Nat.mul_succ, Nat.pow_add]
    omega

theorem cifra_eq {i : Nat} (hi : i < ds.length) :
    ds.getD i 0 = numero w ds / 2 ^ (w * (ds.length - 1 - i)) % 2 ^ w := by
  induction ds using List.reverseRecOn with
  | nil => exact absurd hi (Nat.not_lt_zero i)
  | append_singleton ds d ih =>
    have hd := h d (by simp)
    rw [List.length_append, List.length_singleton] at hi ⊢
    rw [numero_concat]
    by_cases he : i = ds.length
    · have hz : ds.length + 1 - 1 - i = 0 := by omega
      rw [hz, Nat.mul_zero, Nat.pow_zero, Nat.div_one, Nat.mul_comm, Nat.mul_add_mod,
        Nat.mod_eq_of_lt hd, he, List.getD_append_right _ _ _ _ (Nat.le_refl _), Nat.sub_self]
      rfl
    · have hlt : i < ds.length := by omega
      have hs : ds.length + 1 - 1 - i = (ds.length - 1 - i) + 1 := by omega
      rw [List.getD_append _ _ _ _ hlt, ih (fun x hx => h x (List.mem_append_left _ hx)) hlt, hs,
        Nat.mul_succ, Nat.add_comm (w * _), Nat.pow_add, ← Nat.div_div_eq_div_mul,
        Nat.mul_comm _ (2 ^ w), Nat.mul_add_div (Nat.two_pow_pos w), Nat.div_eq_of_lt hd,
        Nat.add_zero]

theorem bitEn_eq {i : Nat} (hi : i < w * ds.length) :
    bitEn w ds i = numero w ds / 2 ^ (w * ds.length - 1 - i) % 2 := by
  have hw : 0 < w := Nat.pos_of_mul_pos_right (Nat.zero_lt_of_lt hi)
  have hq : i / w < ds.length := Nat.div_lt_of_lt_mul hi
  have hm := Nat.mod_lt i hw
  have hk : w - 1 - i % w < w := by omega
  have he : w * ds.length - 1 - i = w * (ds.length - 1 - i / w) + (w - 1 - i % w) := by
    have hd := Nat.div_add_mod i w
    have hl : w * ds.length = w * (ds.length - 1 - i / w) + w * (i / w) + w := by
      rw [← Nat.mul_add, ← Nat.mul_succ]
      congr 1
      omega
    omega
  have hp : 2 ^ w = 2 ^ (w - 1 - i % w) * 2 ^ (i % w + 1) := by
    rw [← Nat.pow_add]
    congr 1
    omega
  rw [bitEn, cifra_eq h hq, he, Nat.pow_add, ← Nat.div_div_eq_div_mul, hp,
    Nat.mod_mul_right_div_self, Nat.pow_succ, Nat.mul_comm _ 2]
  exact Nat.mod_mod_of_dvd _ (Nat.dvd_mul_right 2 _)

end Cifras

theorem numero_inj {w : Nat} {as bs : List Nat} (hw : 0 < w) (hl : as.length = bs.length)
    (ha : ∀ d ∈ as, d < 2 ^ w) (hb : ∀ d ∈ bs, d < 2 ^ w) (h : numero w as = numero w bs) :
    as = bs := by
  have hr : as.reverse = bs.reverse := by
    refine Nat.ofDigits_inj_of_len_eq (Nat.one_lt_two_pow (by omega)) ?_ ?_ ?_ h
    · rw [List.length_reverse, List.length_reverse, hl]
    · exact fun d hd => ha d (List.mem_reverse.mp hd)
    · exact fun d hd => hb d (List.mem_reverse.mp hd)
  exact List.reverse_inj.mp hr

/-- Two numbers of `k` bits are equal when their bits are. -/
theorem eq_of_bits {N M k : Nat} (hN : N < 2 ^ k) (hM : M < 2 ^ k)
    (h : ∀ i < k, N / 2 ^ (k - 1 - i) % 2 = M / 2 ^ (k - 1 - i) % 2) : N = M := by
  apply Nat.eq_of_testBit_eq
  intro j
  by_cases hj : j < k
  · have hk : k - 1 - (k - 1 - j) = j := by omega
    have hb := h (k - 1 - j) (by omega)
    rw [hk] at hb
    rw [Nat.testBit_eq_decide_div_mod_eq, Nat.testBit_eq_decide_div_mod_eq, hb]
  · have hp : 2 ^ k ≤ 2 ^ j := Nat.pow_le_pow_right Nat.two_pos (by omega)
    rw [Nat.testBit_lt_two_pow (Nat.lt_of_lt_of_le hN hp),
      Nat.testBit_lt_two_pow (Nat.lt_of_lt_of_le hM hp)]

/-- A loop that regroups bits: digits of `v` bits have left, and `n` low bits of the accumulator
are still to leave, of the `total` bits that write `N`. -/
structure Lleva (v N total acc n : Nat) (salida : List Nat) : Prop where
  cuenta : v * salida.length + n = total
  valor : numero v salida * 2 ^ n + acc % 2 ^ n = N
  cifras : ∀ d ∈ salida, d < 2 ^ v

theorem Lleva.inicio (v : Nat) : Lleva v 0 0 0 0 [] :=
  ⟨rfl, rfl, fun _ hd => absurd hd List.not_mem_nil⟩

theorem mod_mete {a d w k n : Nat} (hd : d < 2 ^ w) (hn : n ≤ k) :
    (a % 2 ^ k * 2 ^ w + d) % 2 ^ (n + w) = a % 2 ^ n * 2 ^ w + d := by
  have hk : 2 ^ n ∣ 2 ^ k := Nat.pow_dvd_pow 2 hn
  rw [Nat.pow_add, Nat.mul_comm (2 ^ n), Nat.mod_mul, Nat.mul_comm (_ % 2 ^ k), Nat.mul_add_mod,
    Nat.mod_eq_of_lt hd, Nat.mul_add_div (Nat.two_pow_pos w), Nat.div_eq_of_lt hd, Nat.add_zero,
    Nat.mod_mod_of_dvd _ hk, Nat.mul_comm (2 ^ w), Nat.add_comm]

namespace Lleva

variable {v N total acc n : Nat} {salida : List Nat} (h : Lleva v N total acc n salida)

include h

/-- A digit of `w` bits enters an accumulator that keeps `k` bits beside it. -/
theorem mete {w k d acc' : Nat} (hd : d < 2 ^ w) (hn : n ≤ k)
    (ha : acc' = acc % 2 ^ k * 2 ^ w + d) :
    Lleva v (N * 2 ^ w + d) (total + w) acc' (n + w) salida := by
  have hc := h.cuenta
  refine ⟨by omega, ?_, h.cifras⟩
  rw [ha, mod_mete hd hn, ← h.valor, Nat.pow_add, Nat.add_mul, Nat.mul_assoc, Nat.add_assoc]

theorem sale {c : Nat} (hv : v ≤ n) (hc : c = acc / 2 ^ (n - v) % 2 ^ v) :
    Lleva v N total acc (n - v) (salida ++ [c]) := by
  have hp : 2 ^ n = 2 ^ (n - v) * 2 ^ v := by
    rw [← Nat.pow_add, Nat.sub_add_cancel hv]
  have ha : acc % 2 ^ n = acc % 2 ^ (n - v) + 2 ^ (n - v) * c := by
    rw [hp, Nat.mod_mul, hc]
  have hk := h.cuenta
  refine ⟨?_, ?_, ?_⟩
  · rw [List.length_append, List.length_singleton, Nat.mul_succ]
    omega
  · rw [numero_concat, Nat.add_mul, Nat.mul_assoc, ← h.valor, ha, hp, Nat.mul_comm (2 ^ v),
      Nat.mul_comm c]
    omega
  · intro d hd
    rcases List.mem_append.mp hd with hd | hd
    · exact h.cifras d hd
    · rw [List.mem_singleton.mp hd, hc]
      exact Nat.mod_lt _ (Nat.two_pow_pos v)

/-- The bits left over go to the high end of one more digit. -/
theorem cierra {c : Nat} (hv : n ≤ v) (hc : c = acc % 2 ^ n * 2 ^ (v - n)) :
    numero v (salida ++ [c]) = N * 2 ^ (v - n) := by
  have hp : 2 ^ v = 2 ^ n * 2 ^ (v - n) := by
    rw [← Nat.pow_add, Nat.add_sub_cancel' hv]
  rw [numero_concat, ← h.valor, hc, hp, Nat.add_mul, Nat.mul_assoc]

theorem cierra_lt {c : Nat} (hv : n ≤ v) (hc : c = acc % 2 ^ n * 2 ^ (v - n)) :
    ∀ d ∈ salida ++ [c], d < 2 ^ v := by
  intro d hd
  rcases List.mem_append.mp hd with hd | hd
  · exact h.cifras d hd
  · have hp : 2 ^ v = 2 ^ n * 2 ^ (v - n) := by
      rw [← Nat.pow_add, Nat.add_sub_cancel' hv]
    rw [List.mem_singleton.mp hd, hc, hp]
    exact Nat.mul_lt_mul_of_pos_right (Nat.mod_lt _ (Nat.two_pow_pos n)) (Nat.two_pow_pos _)

/-- The bits left over are lost. -/
theorem pierde : numero v salida = N / 2 ^ n := by
  have hm := Nat.mod_lt acc (Nat.two_pow_pos n)
  rw [← h.valor, Nat.mul_comm, Nat.mul_add_div (Nat.two_pow_pos n), Nat.div_eq_of_lt hm,
    Nat.add_zero]

end Lleva

end Quipu.Digitos
