import Mathlib.Data.List.Perm.Basic
import Mathlib.Tactic.Common

namespace Quipu

variable {α : Type}

/-- `p` carries the positions `j`, `j + total`, `j + 2 * total` and so on of `xs`. -/
def Lleva (total j : Nat) (xs p : List α) : Prop := ∀ k, p[k]? = xs[j + k * total]?

theorem Lleva.lt_length {total j : Nat} {xs p : List α} (h : Lleva total j xs p) (k : Nat) :
    k < p.length ↔ j + k * total < xs.length := by
  rw [← Nat.not_le, ← Nat.not_le, ← List.getElem?_eq_none_iff, ← List.getElem?_eq_none_iff, h k]

theorem lleva_nil (total j : Nat) : Lleva total j ([] : List α) [] := by
  intro k
  simp

theorem Lleva.div_le_length {total j : Nat} {xs p : List α} (h : Lleva total j xs p)
    (hj : j < total) : xs.length / total ≤ p.length := by
  by_contra hlt
  have hle : (p.length + 1) * total ≤ xs.length :=
    (Nat.le_div_iff_mul_le (by omega)).mp (by omega)
  have := (h.lt_length p.length).mpr (by rw [Nat.add_mul] at hle; omega)
  omega

theorem Lleva.append_self {total j : Nat} {xs p : List α} (h : Lleva total j xs p)
    (hj : xs.length % total = j) (ht : 0 < total) (b : α) :
    Lleva total j (xs ++ [b]) (p ++ [b]) := by
  have hdm := Nat.mod_add_div xs.length total
  have hp : p.length = xs.length / total := by
    rcases Nat.lt_trichotomy p.length (xs.length / total) with hlt | he | hgt
    · have hmul := Nat.mul_lt_mul_of_pos_left hlt ht
      have := (h.lt_length p.length).mpr (by rw [Nat.mul_comm p.length]; omega)
      omega
    · exact he
    · have := (h.lt_length (xs.length / total)).mp hgt
      rw [Nat.mul_comm] at this
      omega
  have hpos : j + p.length * total = xs.length := by
    rw [hp, Nat.mul_comm]
    omega
  intro k
  rcases Nat.lt_trichotomy k p.length with hlt | rfl | hgt
  · have hx := (h.lt_length k).mp hlt
    rw [List.getElem?_append_left hlt, List.getElem?_append_left hx, h k]
  · rw [hpos, List.getElem?_concat_length, List.getElem?_concat_length]
  · have hmul := Nat.mul_lt_mul_of_pos_right hgt ht
    rw [List.getElem?_eq_none (by simp; omega), List.getElem?_eq_none (by simp; omega)]

theorem Lleva.append_other {total j : Nat} {xs p : List α} (h : Lleva total j xs p)
    (hj : xs.length % total ≠ j) (hjt : j < total) (b : α) : Lleva total j (xs ++ [b]) p := by
  intro k
  rw [h k]
  rcases Nat.lt_trichotomy (j + k * total) xs.length with hlt | he | hgt
  · rw [List.getElem?_append_left hlt]
  · refine absurd ?_ hj
    rw [← he, Nat.add_mul_mod_self_right, Nat.mod_eq_of_lt hjt]
  · rw [List.getElem?_eq_none (by omega), List.getElem?_eq_none (by simp; omega)]

theorem exists_map_of_perm {β : Type} [DecidableEq α] (f : α → β) {l : List β} {ks : List α}
    (h : l.Perm (ks.map f)) : ∃ js : List α, js.Perm ks ∧ l = js.map f := by
  induction l generalizing ks with
  | nil => exact ⟨[], by simpa using h, rfl⟩
  | cons b l ih =>
    obtain ⟨k, hk, rfl⟩ := List.mem_map.mp (h.subset List.mem_cons_self)
    have hp := List.perm_cons_erase hk
    obtain ⟨js, hjs, rfl⟩ := ih ((h.trans (hp.map f)).cons_inv)
    exact ⟨k :: js, (hjs.cons k).trans hp.symm, rfl⟩

end Quipu
