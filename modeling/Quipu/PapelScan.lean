import Quipu.PapelLoss

namespace Quipu

namespace Papel

/-- The checks against hostile pages let every scan of a true page through to the decoder. -/
theorem reensamblar_subperm (rs : ReedSolomon) (datos : List UInt8) (capacidad : Nat)
    (paridad : UInt8) (trozos leidos : List (List UInt8))
    (h : empaquetar rs datos capacidad paridad = .ok trozos)
    (hlargo : (Ecc.protect rs datos paridad).length < 2 ^ 32)
    (hne : leidos ≠ []) (hsub : leidos.Subperm trozos) :
    (∃ d, reensamblar rs leidos = .ok d) ∨ reensamblar rs leidos = fallar .noSeRecupera := by
  obtain ⟨simbolo, htr, ht, ht', _, hs⟩ := empaquetar_ok h
  obtain ⟨orden, hperm, hord⟩ := hsub
  rw [htr] at hord
  obtain ⟨js, hjs, rfl⟩ := List.sublist_map_iff.mp hord
  obtain ⟨ls, hls, rfl⟩ := exists_map_of_perm simbolo hperm.symm
  have hnodup : ls.Nodup := hls.nodup_iff.mpr (List.nodup_range.sublist hjs)
  have hlt : ∀ j ∈ ls, j < trozos.length := fun j hj =>
    List.mem_range.mp (hjs.subset (hls.subset hj))
  have hne' : ls ≠ [] := by
    rintro rfl
    exact hne rfl
  obtain ⟨flujo, _, _, hr⟩ := reensamblar_simbolos rs ht ht'
    (length_protect_pos rs datos paridad) hlargo hs hne' hnodup hlt
  rw [hr]
  cases Ecc.recover rs flujo with
  | none => exact Or.inr rfl
  | some d => exact Or.inl ⟨d, rfl⟩

theorem reensamblar_subperm_corto :
    ∃ (rs : ReedSolomon) (trozos : List (List UInt8)),
      empaquetar rs [1, 2, 3] 16 128 = .ok trozos ∧ (trozos.drop 20).length = 1 ∧
      ((∃ d, reensamblar rs (trozos.drop 20) = .ok d) ∨
        reensamblar rs (trozos.drop 20) = fallar .noSeRecupera) := by
  obtain ⟨rs, _⟩ := ReedSolomon.exists_corrige
  obtain ⟨trozos, h, ht, hlen⟩ := exists_empaquetar_tres rs
  have huno : (trozos.drop 20).length = 1 := by rw [List.length_drop, ht]
  refine ⟨rs, trozos, h, huno, reensamblar_subperm rs [1, 2, 3] 16 128 trozos (trozos.drop 20)
    h (by omega) ?_ (List.drop_sublist 20 trozos).subperm⟩
  intro hnil
  rw [hnil] at huno
  exact absurd huno (by decide)

end Papel

end Quipu
