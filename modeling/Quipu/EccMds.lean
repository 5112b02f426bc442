import Mathlib.FieldTheory.Finite.GaloisField
import Quipu.Ecc
import Quipu.Mds

namespace Quipu

variable {F : Type} [Field F]

namespace ReedSolomon

open Classical in
/-- The code that evaluates the polynomial of a block, with nearest-word decoding. -/
noncomputable def deEvaluacion (e : UInt8 ≃ F) (v : Nat → F) : ReedSolomon where
  ecc p block := Arr.of ((Mds.evaluacion e v (block.length + p) block).drop block.length) (by simp)
  correct p msg :=
    if h : ∃ block : List UInt8, block.length + p = msg.length ∧
        errores msg (Mds.evaluacion e v msg.length block) ≤ p / 2 then
      some (Arr.of (Mds.evaluacion e v msg.length h.choose) (by simp))
    else none

theorem encode_deEvaluacion {e : UInt8 ≃ F} {v : Nat → F} {n p : Nat}
    (hv : Set.InjOn v (Finset.range n : Finset Nat)) {block : List UInt8}
    (hb : block.length + p ≤ n) :
    (deEvaluacion e v).encode p block = Mds.evaluacion e v (block.length + p) block := by
  have hv' : Set.InjOn v (Finset.range (block.length + p) : Finset Nat) :=
    hv.mono (Finset.coe_subset.mpr (Finset.range_subset_range.mpr hb))
  have ht := Mds.take_evaluacion (e := e) hv' (Nat.le_add_right block.length p)
  have hs := List.take_append_drop block.length (Mds.evaluacion e v (block.length + p) block)
  rwa [ht] at hs

theorem corrige_deEvaluacion {e : UInt8 ≃ F} {v : Nat → F}
    (hv : Set.InjOn v (Finset.range 255 : Finset Nat)) : (deEvaluacion e v).Corrige := by
  intro p block r _ hb hr he
  have hv' : Set.InjOn v (Finset.range r.length : Finset Nat) :=
    hv.mono (Finset.coe_subset.mpr (Finset.range_subset_range.mpr (by omega)))
  rw [encode_deEvaluacion hv hb, ← hr] at he ⊢
  have hex : ∃ b : List UInt8, b.length + p = r.length ∧
      errores r (Mds.evaluacion e v r.length b) ≤ p / 2 := ⟨block, hr.symm, he⟩
  obtain ⟨hl, hd⟩ := hex.choose_spec
  have heq : block = hex.choose := by
    apply Mds.evaluacion_inj (e := e) hv' (by omega) (by omega)
    have htri := errores_triangle (Mds.evaluacion e v r.length block) r
      (Mds.evaluacion e v r.length hex.choose)
    rw [errores_comm _ r] at htri
    omega
  simp only [deEvaluacion, dif_pos hex, Option.map_some, Arr.toList_of, ← heq]

/-- Over the field of 256 elements such a code exists. -/
theorem exists_corrige : ∃ rs : ReedSolomon, rs.Corrige := by
  have hcard : Nat.card (GaloisField 2 8) = Nat.card (Fin 256) := by
    rw [GaloisField.card 2 8 (by decide), Nat.card_eq_fintype_card, Fintype.card_fin]
    norm_num
  have : Finite (GaloisField 2 8) := Nat.finite_of_card_ne_zero (by rw [hcard]; simp)
  obtain ⟨f⟩ := Finite.card_eq.mp hcard
  let g : UInt8 ≃ Fin 256 := ⟨UInt8.toFin, UInt8.ofFin, fun _ => rfl, fun _ => rfl⟩
  refine ⟨deEvaluacion (g.trans f.symm) (fun i => f.symm (Fin.ofNat 256 i)),
    corrige_deEvaluacion fun i hi j hj h => ?_⟩
  simp only [Finset.coe_range, Set.mem_Iio] at hi hj
  have hfin := congrArg Fin.val (f.symm.injective h)
  simp only [Fin.ofNat] at hfin
  omega

end ReedSolomon

end Quipu
