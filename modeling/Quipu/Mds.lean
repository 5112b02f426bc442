import Mathlib.LinearAlgebra.Lagrange
import Quipu.Hamming

namespace Quipu

namespace Mds

open Polynomial

variable {α F : Type} [Field F] {e : α ≃ F} {v : Nat → F}

/-- The polynomial of lowest degree through a block at the first points of `v`. -/
noncomputable def polinomio (e : α ≃ F) (v : Nat → F) (block : List α) : F[X] :=
  Lagrange.interpolate (Finset.range block.length) v
    fun i => (block[i]?.map e).getD 0

/-- The first `n` values of that polynomial. -/
noncomputable def evaluacion (e : α ≃ F) (v : Nat → F) (n : Nat) (block : List α) : List α :=
  (List.range n).map fun i => e.symm ((polinomio e v block).eval (v i))

@[simp] theorem length_evaluacion (n : Nat) (block : List α) :
    (evaluacion e v n block).length = n := by
  simp [evaluacion]

theorem getElem?_evaluacion {n i : Nat} (h : i < n) (block : List α) :
    (evaluacion e v n block)[i]? = some (e.symm ((polinomio e v block).eval (v i))) := by
  simp [evaluacion, h]

theorem polinomio_degree_lt {n : Nat} (hv : Set.InjOn v (Finset.range n : Finset Nat))
    {block : List α} (hb : block.length ≤ n) :
    (polinomio e v block).degree < (block.length : WithBot Nat) := by
  have hs : Set.InjOn v (Finset.range block.length : Finset Nat) :=
    hv.mono (Finset.coe_subset.mpr (Finset.range_subset_range.mpr hb))
  have hd := Lagrange.degree_interpolate_lt (fun i => (block[i]?.map e).getD 0) hs
  rwa [Finset.card_range] at hd

/-- The code is systematic: a block is where its word starts. -/
theorem take_evaluacion {n : Nat} (hv : Set.InjOn v (Finset.range n : Finset Nat))
    {block : List α} (hb : block.length ≤ n) :
    (evaluacion e v n block).take block.length = block := by
  have hs : Set.InjOn v (Finset.range block.length : Finset Nat) :=
    hv.mono (Finset.coe_subset.mpr (Finset.range_subset_range.mpr hb))
  refine List.ext_getElem? fun i => ?_
  rw [List.getElem?_take]
  split
  next hi =>
    rw [getElem?_evaluacion (by omega), polinomio,
      Lagrange.eval_interpolate_at_node _ hs (Finset.mem_range.mpr hi),
      List.getElem?_eq_getElem hi]
    simp
  next hi => rw [List.getElem?_eq_none (by omega)]

/-- Two words of blocks of one length that differ in no more places than there are check
symbols come from the same block. -/
theorem evaluacion_inj [DecidableEq α] {n : Nat} (hv : Set.InjOn v (Finset.range n : Finset Nat))
    {b b' : List α} (hl : b.length = b'.length) (hb : b.length ≤ n)
    (h : errores (evaluacion e v n b) (evaluacion e v n b') + b.length ≤ n) : b = b' := by
  let iguales := Finset.range n \ diferencias (evaluacion e v n b) (evaluacion e v n b')
  have hsub : diferencias (evaluacion e v n b) (evaluacion e v n b') ⊆ Finset.range n := by
    intro i hi
    rw [mem_diferencias] at hi
    by_contra hn
    rw [Finset.mem_range, Nat.not_lt] at hn
    apply hi
    rw [List.getElem?_eq_none (by simpa using hn), List.getElem?_eq_none (by simpa using hn)]
  have hcard : b.length ≤ iguales.card := by
    rw [Finset.card_sdiff_of_subset hsub, Finset.card_range]
    unfold errores at h
    omega
  have hv' : Set.InjOn v iguales := hv.mono (Finset.coe_subset.mpr Finset.sdiff_subset)
  have hdeg : ∀ {c : List α}, c.length = b.length →
      (polinomio e v c).degree < (iguales.card : WithBot Nat) := by
    intro c hc
    apply (polinomio_degree_lt hv (by omega)).trans_le
    rw [hc]
    exact_mod_cast hcard
  have heq : polinomio e v b = polinomio e v b' := by
    refine eq_of_degrees_lt_of_eval_index_eq iguales hv' (hdeg rfl) (hdeg hl.symm) fun i hi => ?_
    obtain ⟨hi, hd⟩ := Finset.mem_sdiff.mp hi
    rw [mem_diferencias, not_not, getElem?_evaluacion (Finset.mem_range.mp hi),
      getElem?_evaluacion (Finset.mem_range.mp hi)] at hd
    exact e.symm.injective (Option.some.inj hd)
  have htake : (evaluacion e v n b').take b'.length = b' := take_evaluacion hv (by omega)
  rw [← take_evaluacion (e := e) hv hb, ← htake, evaluacion, evaluacion, heq, hl]

end Mds

end Quipu
