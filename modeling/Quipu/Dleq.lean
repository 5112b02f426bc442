import Mathlib.Algebra.Module.Basic
import Mathlib.Algebra.Field.Basic
import Mathlib.Algebra.NoZeroSMulDivisors.Basic
import Mathlib.Tactic.Module

namespace Quipu.Dleq

variable {F G : Type*} [Field F] [AddCommGroup G] [Module F G] {B M Z : G} {k c c' s s' : F}

/-- The commitments that a challenge and a response recompute, for the statement that `pk` is
to `B` as `Z` is to `M`. -/
def compromisos (B M pk Z : G) (c s : F) : G × G := (s • B + c • pk, s • M + c • Z)

theorem compromisos_honesto (B M : G) (k c t : F) :
    compromisos B M (k • B) (k • M) c (t - c * k) = (t • B, t • M) := by
  have hresta : ∀ X : G, (t - c * k) • X + c • k • X = t • X := by
    intro X
    module
  rw [compromisos, hresta, hresta]

/-- Two openings of the same commitments differ by the secret times the challenges. -/
theorem respuesta_sub (hB : B ≠ 0)
    (h : (compromisos B M (k • B) Z c s).1 = (compromisos B M (k • B) Z c' s').1) :
    s - s' = (c' - c) * k := by
  have hsmul : (s - s') • B = ((c' - c) * k) • B := by
    have h : s • B + c • k • B = s' • B + c' • k • B := h
    calc (s - s') • B = (s • B + c • k • B) - (s' • B + c • k • B) := by module
      _ = (s' • B + c' • k • B) - (s' • B + c • k • B) := by rw [h]
      _ = ((c' - c) * k) • B := by module
  have hcero : (s - s' - (c' - c) * k) • B = 0 := by rw [sub_smul, hsmul, sub_self]
  exact sub_eq_zero.mp ((smul_eq_zero.mp hcero).resolve_right hB)

/-- When `Z` is not `k • M`, one challenge at most opens each pair of commitments. -/
theorem reto_unico (hB : B ≠ 0) (hZ : Z ≠ k • M)
    (h : compromisos B M (k • B) Z c s = compromisos B M (k • B) Z c' s') : c = c' := by
  have hs := respuesta_sub hB (congrArg Prod.fst h)
  have hM : s • M + c • Z = s' • M + c' • Z := congrArg Prod.snd h
  have hcero : (c' - c) • (k • M - Z) = 0 := by
    calc (c' - c) • (k • M - Z) = ((c' - c) * k) • M - (c' - c) • Z := by module
      _ = (s - s') • M - (c' - c) • Z := by rw [hs]
      _ = (s • M + c • Z) - (s' • M + c' • Z) := by module
      _ = 0 := by rw [hM, sub_self]
  rcases smul_eq_zero.mp hcero with hc | hZ'
  · exact (sub_eq_zero.mp hc).symm
  · exact absurd (sub_eq_zero.mp hZ').symm hZ

end Quipu.Dleq
