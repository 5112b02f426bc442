import Mathlib.Data.List.GetD
import Mathlib.LinearAlgebra.Lagrange

namespace Quipu

open Polynomial Lagrange

variable {F : Type} [Field F]

/-- The polynomial with these coefficients, the constant one first. -/
noncomputable def polDe (cs : List F) : F[X] := cs.foldr (fun c p => C c + X * p) 0

@[simp] theorem polDe_nil : polDe ([] : List F) = 0 := rfl

theorem polDe_cons (c : F) (cs : List F) : polDe (c :: cs) = C c + X * polDe cs := rfl

theorem eval_polDe_cons (x c : F) (cs : List F) :
    (polDe (c :: cs)).eval x = c + x * (polDe cs).eval x := by
  rw [polDe_cons, eval_add, eval_C, eval_mul, eval_X]

theorem coeff_polDe (cs : List F) (n : Nat) : (polDe cs).coeff n = cs.getD n 0 := by
  induction cs generalizing n with
  | nil => simp
  | cons c cs ih =>
    rw [polDe_cons, coeff_add]
    cases n with
    | zero => simp
    | succ n => simp [coeff_X_mul, ih]

theorem degree_polDe_lt (cs : List F) : (polDe cs).degree < (cs.length : WithBot Nat) := by
  refine degree_lt_iff_coeff_zero _ _ |>.mpr fun n hn => ?_
  rw [coeff_polDe, List.getD_eq_getElem?_getD, List.getElem?_eq_none hn]
  rfl

theorem polDe_inj {cs cs' : List F} (hl : cs.length = cs'.length) (h : polDe cs = polDe cs') :
    cs = cs' := by
  refine List.ext_getElem hl fun n h₁ h₂ => ?_
  have hc := congrArg (fun p => p.coeff n) h
  simp only [coeff_polDe, List.getD_eq_getElem _ _ h₁, List.getD_eq_getElem _ _ h₂] at hc
  exact hc

theorem exists_polDe {p : F[X]} {n : Nat} (h : p.degree < (n : WithBot Nat)) :
    ∃ cs : List F, cs.length = n ∧ polDe cs = p := by
  refine ⟨(List.range n).map p.coeff, by simp, ?_⟩
  ext k
  rw [coeff_polDe]
  by_cases hk : k < n
  · simp [hk]
  · rw [List.getD_eq_getElem?_getD, List.getElem?_eq_none (by simpa using hk),
      coeff_eq_zero_of_degree_lt]
    · rfl
    · exact h.trans_le (by exact_mod_cast Nat.not_lt.mp hk)

theorem polDe_zipWith_add {cs ds : List F} (hl : cs.length = ds.length) :
    polDe (List.zipWith (· + ·) cs ds) = polDe cs + polDe ds := by
  induction cs generalizing ds with
  | nil =>
    have hd := List.length_eq_zero_iff.mp hl.symm
    simp [hd]
  | cons c cs ih =>
    cases ds with
    | nil => cases hl
    | cons d ds =>
      rw [List.zipWith_cons_cons, polDe_cons, polDe_cons, polDe_cons,
        ih (Nat.succ.inj hl), C_add]
      ring

section Nodos

theorem injOn_getD {xs : List F} (hn : xs.Nodup) :
    Set.InjOn (fun i => xs.getD i 0) (Finset.range xs.length : Finset Nat) := by
  intro i hi j hj h
  rw [Finset.coe_range, Set.mem_Iio] at hi hj
  simp only [List.getD_eq_getElem _ _ hi, List.getD_eq_getElem _ _ hj] at h
  exact hn.getElem_inj_iff.mp h

/-- Two polynomials of degree below the number of nodes that agree at the nodes are equal. -/
theorem eq_of_eval_nodos {xs : List F} (hn : xs.Nodup) {p q : F[X]}
    (hp : p.degree < (xs.length : WithBot Nat)) (hq : q.degree < (xs.length : WithBot Nat))
    (h : ∀ x ∈ xs, p.eval x = q.eval x) : p = q := by
  have hcard : (Finset.range xs.length).card = xs.length := Finset.card_range _
  refine eq_of_degrees_lt_of_eval_index_eq (Finset.range xs.length) (injOn_getD hn)
    (by rwa [hcard]) (by rwa [hcard]) fun i hi => ?_
  rw [Finset.mem_range] at hi
  apply h _
  rw [List.getD_eq_getElem _ _ hi]
  exact List.getElem_mem hi

theorem exists_eval_nodos {xs : List F} (hn : xs.Nodup) (f : F → F) :
    ∃ cs : List F, cs.length = xs.length ∧ ∀ x ∈ xs, (polDe cs).eval x = f x := by
  have hd := degree_interpolate_lt (fun i => f (xs.getD i 0)) (injOn_getD hn)
  rw [Finset.card_range] at hd
  obtain ⟨cs, hl, hp⟩ := exists_polDe hd
  refine ⟨cs, hl, fun x hx => ?_⟩
  obtain ⟨i, hi, rfl⟩ := List.mem_iff_getElem.mp hx
  have hv := eval_interpolate_at_node (fun i => f (xs.getD i 0)) (injOn_getD hn)
    (Finset.mem_range.mpr hi)
  simp only [List.getD_eq_getElem _ _ hi] at hv
  rw [hp]
  exact hv

/-- The coefficients above a given constant one are free to give any values at nonzero nodes, one
for each coefficient, and only one choice of them does. -/
theorem existsUnique_polDe {xs : List F} (hn : xs.Nodup) (h₀ : (0 : F) ∉ xs) (b : F)
    (f : F → F) :
    ∃! cs : List F, cs.length = xs.length ∧ ∀ x ∈ xs, (polDe (b :: cs)).eval x = f x := by
  obtain ⟨cs, hl, hv⟩ := exists_eval_nodos hn fun x => (f x - b) * x⁻¹
  refine ⟨cs, ⟨hl, fun x hx => ?_⟩, fun ds ⟨hds, hvd⟩ => ?_⟩
  · have hx₀ : x ≠ 0 := fun h => h₀ (h ▸ hx)
    rw [eval_polDe_cons, hv x hx, mul_comm (f x - b), mul_inv_cancel_left₀ hx₀]
    ring
  · refine polDe_inj (hds.trans hl.symm) (eq_of_eval_nodos hn ?_ ?_ fun x hx => ?_)
    · rw [← hds]
      exact degree_polDe_lt ds
    · rw [← hl]
      exact degree_polDe_lt cs
    · have hx₀ : x ≠ 0 := fun h => h₀ (h ▸ hx)
      have hd := hvd x hx
      rw [eval_polDe_cons] at hd
      rw [hv x hx, ← hd, add_sub_cancel_left, mul_comm x, mul_assoc, mul_inv_cancel₀ hx₀, mul_one]

/-- The weights that rebuild a polynomial at zero from its values at the nodes. -/
theorem eval_zero_eq_sum {v : Nat → F} {k : Nat} (hv : Set.InjOn v (Finset.range k : Finset Nat))
    {p : F[X]} (hp : p.degree < (k : WithBot Nat)) :
    p.eval 0 = ∑ i ∈ Finset.range k, p.eval (v i) *
      ((∏ j ∈ Finset.range k, if i = j then 1 else v j) *
        (∏ j ∈ Finset.range k, if i = j then 1 else v j - v i)⁻¹) := by
  have hcard : (Finset.range k).card = k := Finset.card_range k
  have hint := eq_interpolate hv (f := p) (by rwa [hcard])
  conv_lhs => rw [hint, interpolate_apply, eval_finsetSum]
  refine Finset.sum_congr rfl fun i _ => ?_
  have hite : ∀ f : Nat → F, (∏ j ∈ Finset.range k, if i = j then 1 else f j) =
      ∏ j ∈ (Finset.range k).erase i, f j := by
    intro f
    rw [← Finset.prod_erase (Finset.range k) (f := fun j => if i = j then 1 else f j)
      (if_pos rfl)]
    exact Finset.prod_congr rfl fun j hj => if_neg (Finset.ne_of_mem_erase hj).symm
  rw [eval_mul, eval_C, Lagrange.basis, eval_prod, hite, hite, ← Finset.prod_inv_distrib,
    ← Finset.prod_mul_distrib]
  congr 1
  refine Finset.prod_congr rfl fun j _ => ?_
  rw [basisDivisor, eval_mul, eval_C, eval_sub, eval_X, eval_C, zero_sub, mul_comm,
    ← neg_sub (v j), inv_neg, neg_mul_neg]

end Nodos

end Quipu
