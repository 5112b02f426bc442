import Quipu.Interpolation
import Quipu.Shamir

namespace Quipu

namespace Shamir

open Polynomial

/-- The sharing polynomial of a byte. -/
noncomputable def polinomioDe (coeficientes : List UInt8) (byte : UInt8) : Gf256[X] :=
  polDe ((byte :: coeficientes).map Gf256.mk)

theorem foldl_horner (cs : List UInt8) (x : UInt8) :
    cs.reverse.foldl (fun acc c => gfMul acc x ^^^ c) 0 =
      ((polDe (cs.map Gf256.mk)).eval ⟨x⟩).byte := by
  rw [List.foldl_reverse]
  induction cs with
  | nil => simp
  | cons c cs ih =>
    rw [List.foldr_cons, ih, List.map_cons, eval_polDe_cons, Gf256.byte_add, Gf256.byte_mul,
      gfMul_comm, UInt8.xor_comm]

/-- The loop of `split` evaluates the sharing polynomial. -/
theorem evaluar_eq (cs : List UInt8) (byte x : UInt8) :
    evaluar cs byte x = ((polinomioDe cs byte).eval ⟨x⟩).byte := by
  rw [evaluar, foldl_horner, polinomioDe, List.map_cons, eval_polDe_cons, Gf256.byte_add,
    Gf256.byte_mul, gfMul_comm, UInt8.xor_comm]

theorem eval_zero_polinomioDe (cs : List UInt8) (byte : UInt8) :
    ((polinomioDe cs byte).eval 0).byte = byte := by
  rw [polinomioDe, List.map_cons, eval_polDe_cons, zero_mul, add_zero]

theorem degree_polinomioDe_lt (cs : List UInt8) (byte : UInt8) :
    (polinomioDe cs byte).degree < ((cs.length + 1 : Nat) : WithBot Nat) := by
  have h := degree_polDe_lt ((byte :: cs).map Gf256.mk)
  rwa [List.length_map, List.length_cons] at h

/-- The indices of some shares, as points of the field. -/
def nodos (usadas : List Share) : List Gf256 := usadas.map fun s => ⟨s.index⟩

theorem nodos_nodup {usadas : List Share} (h : (usadas.map Share.index).Nodup) :
    (nodos usadas).Nodup := by
  have hm := h.map (f := Gf256.mk) fun a b hab => congrArg Gf256.byte hab
  rwa [List.map_map] at hm

theorem zipIdx_map_eq {α β : Type} (l : List α) (f : α × Nat → β) (g : Nat → β)
    (h : ∀ j (hj : j < l.length), f (l[j], j) = g j) :
    l.zipIdx.map f = (List.range l.length).map g := by
  refine List.ext_getElem (by simp) fun j h₁ h₂ => ?_
  have hj : j < l.length := by simpa using h₂
  simp [h j hj]

theorem foldl_pesos (i : Nat) (si : UInt8) (l : List (Share × Nat)) (num den : Gf256) :
    l.foldl (fun nd p => if i = p.2 then nd
        else (gfMul nd.1 p.1.index, gfMul nd.2 (si ^^^ p.1.index))) (num.byte, den.byte) =
      ((num * (l.map fun p => if i = p.2 then 1 else (⟨p.1.index⟩ : Gf256)).prod).byte,
        (den *
          (l.map fun p => if i = p.2 then 1 else (⟨si⟩ + ⟨p.1.index⟩ : Gf256)).prod).byte) := by
  induction l generalizing num den with
  | nil => simp
  | cons p l ih =>
    rw [List.foldl_cons, List.map_cons, List.map_cons, List.prod_cons, List.prod_cons]
    by_cases hi : i = p.2
    · rw [if_pos hi, if_pos hi, if_pos hi, one_mul, one_mul, ih]
    · have hnum : gfMul num.byte p.1.index = (num * ⟨p.1.index⟩).byte := rfl
      have hden : gfMul den.byte (si ^^^ p.1.index) = (den * (⟨si⟩ + ⟨p.1.index⟩)).byte := rfl
      rw [if_neg hi, if_neg hi, if_neg hi, ← mul_assoc, ← mul_assoc, hnum, hden, ih]

theorem lambdaDe_eq (usadas : List Share) (i : Nat) (si : UInt8) :
    lambdaDe usadas i si =
      ((∏ j ∈ Finset.range usadas.length, if i = j then 1 else (nodos usadas).getD j 0) *
        (∏ j ∈ Finset.range usadas.length,
          if i = j then 1 else (nodos usadas).getD j 0 - ⟨si⟩)⁻¹).byte := by
  have hfold := foldl_pesos i si usadas.zipIdx 1 1
  rw [one_mul, one_mul, Gf256.byte_one] at hfold
  have hnodo : ∀ j (hj : j < usadas.length), (nodos usadas).getD j 0 = ⟨usadas[j].index⟩ := by
    intro j hj
    simp [nodos, hj]
  have hnum := zipIdx_map_eq usadas
    (fun p => if i = p.2 then 1 else (⟨p.1.index⟩ : Gf256))
    (fun j => if i = j then 1 else (nodos usadas).getD j 0)
    (fun j hj => by rw [hnodo j hj])
  have hden := zipIdx_map_eq usadas
    (fun p => if i = p.2 then 1 else (⟨si⟩ + ⟨p.1.index⟩ : Gf256))
    (fun j => if i = j then 1 else (nodos usadas).getD j 0 - ⟨si⟩)
    (fun j hj => by rw [hnodo j hj, Gf256.sub_eq, add_comm])
  rw [hnum, hden] at hfold
  simp only [lambdaDe]
  rw [hfold, Gf256.byte_mul, Gf256.byte_inv]
  rfl

theorem foldl_xor (l : List (Share × Nat)) (f : Share × Nat → Gf256) (a : Gf256) :
    l.foldl (fun acc p => acc ^^^ (f p).byte) a.byte = (a + (l.map f).sum).byte := by
  induction l generalizing a with
  | nil => simp
  | cons p l ih =>
    rw [List.foldl_cons, List.map_cons, List.sum_cons, ← add_assoc]
    exact ih (a + f p)

/-- Shares on polynomials of degree below their number give the values of these at zero. -/
theorem recuperar_eq {usadas : List Share} (hn : (usadas.map Share.index).Nodup) {largo : Nat}
    {ps : Nat → Gf256[X]} (hd : ∀ pos < largo, (ps pos).degree < (usadas.length : WithBot Nat))
    (hy : ∀ s ∈ usadas, ∀ pos < largo, s.y.getD pos 0 = ((ps pos).eval ⟨s.index⟩).byte) :
    recuperar usadas largo = (List.range largo).map fun pos => ((ps pos).eval 0).byte := by
  have hlen : (nodos usadas).length = usadas.length := by rw [nodos, List.length_map]
  have hinj := injOn_getD (nodos_nodup hn)
  rw [hlen] at hinj
  refine List.map_congr_left fun pos hpos => ?_
  rw [List.mem_range] at hpos
  rw [eval_zero_eq_sum hinj (hd pos hpos)]
  have hterm := zipIdx_map_eq usadas
    (fun p => (⟨p.1.y.getD pos 0⟩ : Gf256) * ⟨(lambdasDe usadas).getD p.2 0⟩)
    (fun i => (ps pos).eval ((nodos usadas).getD i 0) *
      ((∏ j ∈ Finset.range usadas.length, if i = j then 1 else (nodos usadas).getD j 0) *
        (∏ j ∈ Finset.range usadas.length,
          if i = j then 1 else (nodos usadas).getD j 0 - (nodos usadas).getD i 0)⁻¹))
    (fun i hi => by
      have hnodo : (nodos usadas).getD i 0 = ⟨usadas[i].index⟩ := by simp [nodos, hi]
      have hlam : (lambdasDe usadas).getD i 0 = lambdaDe usadas i usadas[i].index := by
        simp [lambdasDe, hi]
      simp only [hlam, lambdaDe_eq, hnodo, hy _ (List.getElem_mem hi) pos hpos])
  have hfold := foldl_xor usadas.zipIdx
    (fun p => (⟨p.1.y.getD pos 0⟩ : Gf256) * ⟨(lambdasDe usadas).getD p.2 0⟩) 0
  rw [hterm, zero_add] at hfold
  exact hfold

end Shamir

end Quipu
