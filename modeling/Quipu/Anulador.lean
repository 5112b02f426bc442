import Mathlib.Tactic.LinearCombination
import Quipu.Interpolation

namespace Quipu

open Polynomial

variable {F : Type} [Field F]

/-- The polynomial with constant coefficient one whose roots are the inverses of `ys`. -/
noncomputable def anulador (ys : List F) : F[X] := (ys.map fun y => 1 - C y * X).prod

theorem anulador_cons (y : F) (ys : List F) :
    anulador (y :: ys) = anulador ys - C y * (anulador ys * X) := by
  rw [anulador, List.map_cons, List.prod_cons, ← anulador]
  ring

theorem eval_anulador {ys : List F} {x : F} (hx : x ≠ 0) (h : x⁻¹ ∈ ys) :
    (anulador ys).eval x = 0 := by
  induction ys with
  | nil => cases h
  | cons y ys ih =>
    rw [anulador_cons]
    simp only [eval_sub, eval_mul, eval_C, eval_X]
    rcases List.mem_cons.mp h with rfl | h
    · rw [mul_comm _ x, inv_mul_cancel_left₀ hx, sub_self]
    · rw [ih h]
      ring

theorem coeff_anulador_zero (ys : List F) : (anulador ys).coeff 0 = 1 := by
  induction ys with
  | nil => simp [anulador]
  | cons y ys ih => rw [anulador_cons, coeff_sub, coeff_C_mul, coeff_mul_X_zero, ih]; ring

theorem coeff_anulador_succ (y : F) (ys : List F) (n : Nat) :
    (anulador (y :: ys)).coeff (n + 1) =
      (anulador ys).coeff (n + 1) - y * (anulador ys).coeff n := by
  rw [anulador_cons, coeff_sub, coeff_C_mul, coeff_mul_X]

theorem coeff_anulador_one (y : F) (ys : List F) :
    (anulador (y :: ys)).coeff 1 = (anulador ys).coeff 1 - y := by
  rw [coeff_anulador_succ y ys 0, coeff_anulador_zero, mul_one]

theorem degree_anulador_lt (ys : List F) :
    (anulador ys).degree < ((ys.length + 1 : Nat) : WithBot Nat) := by
  refine degree_lt_iff_coeff_zero _ _ |>.mpr fun n hn => ?_
  induction ys generalizing n with
  | nil =>
    have h1 : (1 : F[X]).coeff n = 0 := coeff_one.trans (if_neg (by simp at hn; omega))
    simpa [anulador] using h1
  | cons y ys ih =>
    rw [List.length_cons] at hn
    obtain ⟨m, rfl⟩ : ∃ m, n = m + 1 := ⟨n - 1, by omega⟩
    rw [coeff_anulador_succ, ih m (by omega), ih (m + 1) (by omega)]
    ring

theorem exists_polDe_anulador (ys : List F) :
    ∃ ls : List F, ls.length = ys.length ∧ polDe (1 :: ls) = anulador ys := by
  obtain ⟨cs, hl, hp⟩ := exists_polDe (degree_anulador_lt ys)
  cases cs with
  | nil => cases hl
  | cons c ls =>
    have hc : c = 1 := by
      rw [← coeff_anulador_zero ys, ← hp, coeff_polDe, List.getD_cons_zero]
    exact ⟨ls, Nat.succ.inj hl, hc ▸ hp⟩

theorem elegir_mul_ne {a b : F} (hab : a ≠ b) {u : F} (hu : u ≠ 0) (c : F) :
    a * u ≠ c ∨ b * u ≠ c := by
  by_contra h
  push Not at h
  exact hab (mul_right_cancel₀ hu (h.1.trans h.2.symm))

/-- Among three roots there are two that, put before any others, separate the first two
coefficients. -/
theorem elegir_dos {a b c : F} (hab : a ≠ b) (hac : a ≠ c) (hbc : b ≠ c) (ys : List F) :
    ∃ u v : F, u ≠ v ∧ (u = a ∨ u = b) ∧ (v = a ∨ v = b ∨ v = c) ∧
      (anulador (v :: u :: ys)).coeff 1 ≠ (anulador (v :: u :: ys)).coeff 2 := by
  have hsegundo : ∀ u p q : F, p ≠ q → (anulador ys).coeff 1 - u ≠ 1 →
      ∃ v, (v = p ∨ v = q) ∧
        (anulador (v :: u :: ys)).coeff 1 ≠ (anulador (v :: u :: ys)).coeff 2 := by
    intro u p q hpq hu
    have hne : (anulador (u :: ys)).coeff 1 - 1 ≠ 0 := by
      rw [coeff_anulador_one]
      exact sub_ne_zero_of_ne hu
    have hv : ∀ v, v * ((anulador (u :: ys)).coeff 1 - 1) ≠
        (anulador (u :: ys)).coeff 2 - (anulador (u :: ys)).coeff 1 →
        (anulador (v :: u :: ys)).coeff 1 ≠ (anulador (v :: u :: ys)).coeff 2 := by
      intro v hv he
      rw [coeff_anulador_one, coeff_anulador_succ v (u :: ys) 1] at he
      exact hv (by linear_combination he)
    rcases elegir_mul_ne hpq hne _ with hp | hq
    · exact ⟨p, Or.inl rfl, hv p hp⟩
    · exact ⟨q, Or.inr rfl, hv q hq⟩
  have hprimero : ∀ u, u * 1 ≠ (anulador ys).coeff 1 - 1 → (anulador ys).coeff 1 - u ≠ 1 := by
    intro u hu he
    exact hu (by linear_combination -he)
  rcases elegir_mul_ne hab one_ne_zero ((anulador ys).coeff 1 - 1) with ha | hb
  · obtain ⟨v, hv, hc⟩ := hsegundo a b c hbc (hprimero a ha)
    rcases hv with rfl | rfl
    · exact ⟨a, v, hab, Or.inl rfl, Or.inr (Or.inl rfl), hc⟩
    · exact ⟨a, v, hac, Or.inl rfl, Or.inr (Or.inr rfl), hc⟩
  · obtain ⟨v, hv, hc⟩ := hsegundo b a c hac (hprimero b hb)
    rcases hv with rfl | rfl
    · exact ⟨b, v, hab.symm, Or.inr rfl, Or.inl rfl, hc⟩
    · exact ⟨b, v, hbc, Or.inr rfl, Or.inr (Or.inr rfl), hc⟩

/-- Every number of roots that leaves two nonzero values out has a choice of them whose first two
coefficients differ. -/
theorem exists_anulador_distinto [Fintype F] [DecidableEq F] {n : Nat} (h2 : 2 ≤ n)
    (hn : n + 2 ≤ Fintype.card F) :
    ∃ ys : List F, ys.length = n ∧ ys.Nodup ∧ (0 : F) ∉ ys ∧
      (anulador ys).coeff 1 ≠ (anulador ys).coeff 2 := by
  obtain ⟨m, rfl⟩ : ∃ m, n = m + 2 := ⟨n - 2, by omega⟩
  have hlen : (Finset.univ.erase (0 : F)).toList.length = Fintype.card F - 1 := by
    rw [Finset.length_toList, Finset.card_erase_of_mem (Finset.mem_univ 0), Finset.card_univ]
  have hnodup := Finset.nodup_toList (Finset.univ.erase (0 : F))
  have hcero : (0 : F) ∉ (Finset.univ.erase (0 : F)).toList := by simp
  generalize (Finset.univ.erase (0 : F)).toList = todos at hlen hnodup hcero
  obtain ⟨a, b, c, resto, hr⟩ : ∃ a b c resto, todos.drop m = a :: b :: c :: resto := by
    have hd : 3 ≤ (todos.drop m).length := by
      rw [List.length_drop]
      omega
    match h : todos.drop m with
    | a :: b :: c :: resto => exact ⟨a, b, c, resto, rfl⟩
    | [] => simp [h] at hd
    | [_] => simp [h] at hd
    | [_, _] => simp [h] at hd
  rw [← List.take_append_drop m todos, hr] at hnodup hcero
  obtain ⟨ht, hd, hdis⟩ := List.nodup_append.mp hnodup
  simp only [List.nodup_cons, List.mem_cons, not_or] at hd
  obtain ⟨⟨hab, hac, _⟩, ⟨hbc, _⟩, _⟩ := hd
  obtain ⟨u, v, huv, hu, hv, hc⟩ := elegir_dos hab hac hbc (todos.take m)
  have hum : u ∈ a :: b :: c :: resto := by
    rcases hu with rfl | rfl <;> simp
  have hvm : v ∈ a :: b :: c :: resto := by
    rcases hv with rfl | rfl | rfl <;> simp
  have hut : u ∉ todos.take m := fun h => hdis u h u hum rfl
  have hvt : v ∉ todos.take m := fun h => hdis v h v hvm rfl
  refine ⟨v :: u :: todos.take m, ?_, ?_, ?_, hc⟩
  · simp only [List.length_cons, List.length_take]
    omega
  · refine List.nodup_cons.mpr ⟨?_, List.nodup_cons.mpr ⟨hut, ht⟩⟩
    exact fun h => (List.mem_cons.mp h).elim huv.symm hvt
  · intro h
    refine hcero (List.mem_append.mpr ?_)
    rcases List.mem_cons.mp h with rfl | h
    · exact Or.inr hvm
    · rcases List.mem_cons.mp h with rfl | h
      · exact Or.inr hum
      · exact Or.inl h

end Quipu
