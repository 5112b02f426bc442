import Mathlib.Data.Finset.Card
import Mathlib.Data.Finset.Range
import Mathlib.Algebra.Order.BigOperators.Group.Finset
import Mathlib.Data.Nat.ModEq
import Mathlib.Order.Interval.Finset.Nat
import Mathlib.Tactic.Common

namespace Quipu

variable {α : Type} [DecidableEq α]

def diferencias (xs ys : List α) : Finset Nat :=
  (Finset.range (max xs.length ys.length)).filter fun i => xs[i]? ≠ ys[i]?

def errores (xs ys : List α) : Nat := (diferencias xs ys).card

def erroresEn (s n : Nat) (xs ys : List α) : Nat :=
  ((diferencias xs ys).filter fun i => s ≤ i ∧ i < s + n).card

@[simp] theorem mem_diferencias {xs ys : List α} {i : Nat} :
    i ∈ diferencias xs ys ↔ xs[i]? ≠ ys[i]? := by
  simp only [diferencias, Finset.mem_filter, Finset.mem_range, and_iff_right_iff_imp]
  intro h
  by_contra hlt
  exact h (by rw [List.getElem?_eq_none (by omega), List.getElem?_eq_none (by omega)])

theorem errores_comm (xs ys : List α) : errores xs ys = errores ys xs := by
  have h : diferencias xs ys = diferencias ys xs := by
    ext i
    simp only [mem_diferencias, ne_comm]
  rw [errores, errores, h]

theorem errores_triangle (xs ys zs : List α) :
    errores xs zs ≤ errores xs ys + errores ys zs := by
  refine (Finset.card_le_card ?_).trans (Finset.card_union_le (diferencias xs ys) _)
  intro i hi
  rw [Finset.mem_union, mem_diferencias, mem_diferencias]
  by_contra hn
  simp only [not_or, not_not] at hn
  exact mem_diferencias.mp hi (hn.1.trans hn.2)

@[simp] theorem errores_self (xs : List α) : errores xs xs = 0 := by
  simp [errores, diferencias]

theorem errores_take_le (n : Nat) (xs ys : List α) :
    errores (xs.take n) (ys.take n) ≤ errores xs ys := by
  refine Finset.card_le_card fun i hi => ?_
  simp only [mem_diferencias, List.getElem?_take] at hi ⊢
  split at hi
  next => exact hi
  next => exact absurd rfl hi

theorem erroresEn_le_errores (s n : Nat) (xs ys : List α) :
    erroresEn s n xs ys ≤ errores xs ys := Finset.card_filter_le _ _

theorem errores_cons_self (x : α) (xs ys : List α) :
    errores (x :: xs) (x :: ys) ≤ errores xs ys := by
  refine (Finset.card_le_card ?_).trans
    (Finset.card_image_le (s := diferencias xs ys) (f := (· + 1)))
  intro i hi
  have hd := mem_diferencias.mp hi
  cases i with
  | zero => exact absurd rfl hd
  | succ i =>
    rw [List.getElem?_cons_succ, List.getElem?_cons_succ] at hd
    exact Finset.mem_image.mpr ⟨i, mem_diferencias.mpr hd, rfl⟩

theorem errores_cons_le (x y : α) (xs ys : List α) :
    errores (x :: xs) (y :: ys) ≤ errores xs ys + 1 := by
  refine (Finset.card_le_card (t := insert 0 ((diferencias xs ys).image (· + 1))) ?_).trans ?_
  · intro i hi
    have hd := mem_diferencias.mp hi
    cases i with
    | zero => exact Finset.mem_insert_self _ _
    | succ i =>
      rw [List.getElem?_cons_succ, List.getElem?_cons_succ] at hd
      exact Finset.mem_insert_of_mem (Finset.mem_image.mpr ⟨i, mem_diferencias.mpr hd, rfl⟩)
  · exact (Finset.card_insert_le _ _).trans (Nat.succ_le_succ Finset.card_image_le)

theorem errores_window (s n : Nat) (xs ys : List α) :
    errores ((xs.drop s).take n) ((ys.drop s).take n) = erroresEn s n xs ys := by
  refine Finset.card_bij (fun i _ => s + i) ?_ ?_ ?_
  · intro i hi
    simp only [mem_diferencias, List.getElem?_take, List.getElem?_drop] at hi
    split at hi
    next h =>
      simp only [Finset.mem_filter, mem_diferencias]
      exact ⟨hi, by omega, by omega⟩
    next => exact absurd rfl hi
  · intro i _ j _ h
    omega
  · intro i hi
    simp only [Finset.mem_filter, mem_diferencias] at hi
    refine ⟨i - s, ?_, by omega⟩
    simp only [mem_diferencias, List.getElem?_take, List.getElem?_drop]
    rw [if_pos (by omega), if_pos (by omega), Nat.add_sub_cancel' hi.2.1]
    exact hi.1

theorem eq_of_mod_eq_of_div_eq {total s i k : Nat} (ht : 0 < total) (hs : s ≤ i) (hik : i ≤ k)
    (hm : i % total = k % total) (hd : (i - s) / total = (k - s) / total) : i = k := by
  obtain ⟨m, hk⟩ := (Nat.modEq_iff_dvd' hik).mp hm
  have hks : k - s = (i - s) + total * m := by omega
  rw [hks, Nat.add_mul_div_left _ _ ht] at hd
  obtain rfl : m = 0 := by omega
  omega

theorem erroresEn_set_le (s n i : Nat) (xs : List α) (a : α) :
    erroresEn s n (xs.set i a) xs ≤ 1 := by
  refine (Finset.card_le_card (t := {i}) fun j hj => ?_).trans_eq (Finset.card_singleton i)
  simp only [Finset.mem_filter, mem_diferencias] at hj
  rw [Finset.mem_singleton]
  by_contra hne
  exact hj.1 (List.getElem?_set_ne (Ne.symm hne))

/-- Among `n` consecutive positions at most `⌈n / total⌉` have a given residue. -/
theorem card_residuo_le {total : Nat} (ht : 0 < total) (s n j : Nat) :
    ((Finset.Ico s (s + n)).filter fun i => i % total = j).card ≤ (n + total - 1) / total := by
  rw [← Finset.card_range ((n + total - 1) / total)]
  refine Finset.card_le_card_of_injOn (fun i => (i - s) / total) ?_ ?_
  · intro i hi
    simp only [Finset.coe_filter, Finset.mem_Ico, Set.mem_ofPred_eq] at hi
    simp only [Finset.coe_range, Set.mem_Iio]
    have h : i - s < n := by omega
    apply Nat.div_lt_of_lt_mul
    have := Nat.div_add_mod (n + total - 1) total
    have := Nat.mod_lt (n + total - 1) ht
    omega
  · intro i hi k hk h
    simp only [Finset.coe_filter, Finset.mem_Ico, Set.mem_ofPred_eq] at hi hk
    rcases Nat.le_total i k with hik | hki
    · exact eq_of_mod_eq_of_div_eq ht hi.1.1 hik (hi.2.trans hk.2.symm) h
    · exact (eq_of_mod_eq_of_div_eq ht hk.1.1 hki (hk.2.trans hi.2.symm) h.symm).symm

/-- If two words differ only at positions whose residue is in `perdidos`, a window of `n`
positions has at most `⌈n / total⌉` errors for each of them. -/
theorem erroresEn_le {total : Nat} (ht : 0 < total) (perdidos : Finset Nat) {xs ys : List α}
    (h : ∀ i, xs[i]? ≠ ys[i]? → i % total ∈ perdidos) (s n : Nat) :
    erroresEn s n xs ys ≤ perdidos.card * ((n + total - 1) / total) := by
  refine (Finset.card_le_card (t := perdidos.biUnion fun j =>
    (Finset.Ico s (s + n)).filter fun i => i % total = j) ?_).trans
    (Finset.card_biUnion_le_card_mul _ _ _ fun j _ => card_residuo_le ht s n j)
  intro i hi
  simp only [Finset.mem_filter, mem_diferencias] at hi
  simp only [Finset.mem_biUnion, Finset.mem_filter, Finset.mem_Ico]
  exact ⟨i % total, h i hi.1, hi.2, rfl⟩

end Quipu
