import Mathlib

namespace Quipu.Cegado

section Uniforme

variable {α β : Type*} [Fintype α] [Nonempty α]

/-- A uniform value moved by a permutation is uniform. -/
theorem map_uniforme (e : α ≃ α) :
    (PMF.uniformOfFintype α).map e = PMF.uniformOfFintype α := by
  ext a
  rw [PMF.map_apply, tsum_eq_single (e.symm a)]
  · rw [if_pos (e.apply_symm_apply a).symm, PMF.uniformOfFintype_apply,
      PMF.uniformOfFintype_apply]
  · intro b hb
    rw [if_neg]
    rintro rfl
    exact hb (e.symm_apply_apply b).symm

theorem map_uniforme_comp (e : α ≃ α) (f : α → β) :
    (PMF.uniformOfFintype α).map (f ∘ e) = (PMF.uniformOfFintype α).map f := by
  rw [← PMF.map_comp, map_uniforme]

end Uniforme

variable {F G : Type*} [Field F] [AddCommGroup G] [Module F G] {B P Q X : G}

/-- Every element is a multiple of `B`. -/
def Genera (F : Type*) {G : Type*} [Field F] [AddCommGroup G] [Module F G] (B : G) : Prop :=
  ∀ X : G, ∃ k : F, k • B = X

theorem Genera.exists_unidad (h : Genera F B) (hP : P ≠ 0) (hQ : Q ≠ 0) :
    ∃ u : Fˣ, u • P = Q := by
  obtain ⟨p, rfl⟩ := h P
  obtain ⟨k, rfl⟩ := h Q
  have hp : p ≠ 0 := fun hp => hP (by rw [hp, zero_smul])
  have hk : k ≠ 0 := fun hk => hQ (by rw [hk, zero_smul])
  refine ⟨Units.mk0 (k / p) (div_ne_zero hk hp), ?_⟩
  rw [Units.smul_mk0, smul_smul, div_mul_cancel₀ k hp]

/-- Any element but zero is a blinding of any other, by one scalar. -/
theorem Genera.existsUnique (h : Genera F B) (hP : P ≠ 0) (hX : X ≠ 0) :
    ∃! r : F, r ≠ 0 ∧ r • P = X := by
  obtain ⟨u, hu⟩ := h.exists_unidad hP hX
  refine ⟨u, ⟨u.ne_zero, hu⟩, ?_⟩
  rintro r ⟨-, hr⟩
  have hcero : (r - u) • P = 0 := by rw [sub_smul, hr, ← Units.smul_def, hu, sub_self]
  exact sub_eq_zero.mp ((smul_eq_zero.mp hcero).resolve_right hP)

variable [Fintype F]

/-- What a uniform scalar makes of an element has the same law for every element but zero. -/
theorem Genera.map_cegado (h : Genera F B) (hP : P ≠ 0) (hQ : Q ≠ 0) :
    (PMF.uniformOfFintype F).map (fun r => r • P) =
      (PMF.uniformOfFintype F).map fun r => r • Q := by
  obtain ⟨u, rfl⟩ := h.exists_unidad hP hQ
  have hu : (fun r : F => r • u • P) =
      (fun r : F => r • P) ∘ Equiv.mulRight₀ (u : F) u.ne_zero := by
    funext r
    rw [Function.comp_apply, Equiv.mulRight₀_apply, mul_smul, Units.smul_def]
  rw [hu, map_uniforme_comp]

end Quipu.Cegado
