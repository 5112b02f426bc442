import Quipu.ShamirCombine

namespace Quipu

namespace Shamir

variable {k n : Nat}

/-- The coefficients that give a payload these bytes at these indices. -/
def Explica (css : List.Vector (Arr k) n) (payload : Arr n)
    (observadas : List (UInt8 × List UInt8)) : Prop :=
  ∀ s ∈ observadas, s.2 = valores css payload s.1

instance (css : List.Vector (Arr k) n) (payload : Arr n) (observadas : List (UInt8 × List UInt8)) :
    Decidable (Explica css payload observadas) :=
  inferInstanceAs (Decidable (∀ s ∈ observadas, s.2 = valores css payload s.1))

theorem getElem_valores (css : List.Vector (Arr k) n) (payload : Arr n) (x : UInt8) (i : Fin n) :
    (valores css payload x)[i.val]? =
      some (evaluar (css.get i).toList (payload.get i) x) := by
  have hc : i.val < css.toList.length := css.toList_length.symm ▸ i.2
  have hp : i.val < payload.toList.length := payload.toList_length.symm ▸ i.2
  rw [valores, List.getElem?_eq_getElem (by simp), List.getElem_zipWith]
  rfl

theorem explica_iff {css : List.Vector (Arr k) n} {payload : Arr n}
    {observadas : List (UInt8 × List UInt8)} (hy : ∀ s ∈ observadas, s.2.length = n) :
    Explica css payload observadas ↔ ∀ i : Fin n, ∀ s ∈ observadas,
      s.2[i.val]? = some (evaluar (css.get i).toList (payload.get i) s.1) := by
  constructor
  · intro h i s hs
    rw [h s hs, getElem_valores]
  · intro h s hs
    refine List.ext_getElem? fun i => ?_
    by_cases hi : i < n
    · rw [h ⟨i, hi⟩ s hs, ← getElem_valores css payload s.1 ⟨i, hi⟩]
    · rw [List.getElem?_eq_none (by rw [hy s hs]; omega), List.getElem?_eq_none (by simpa using hi)]

theorem exists_funcion {α β : Type} [DecidableEq α] [Inhabited β] {l : List (α × β)}
    (hn : (l.map Prod.fst).Nodup) : ∃ f : α → β, ∀ s ∈ l, f s.1 = s.2 := by
  induction l with
  | nil => exact ⟨fun _ => default, fun s hs => by cases hs⟩
  | cons a l ih =>
    obtain ⟨hnot, hn⟩ := List.nodup_cons.mp hn
    obtain ⟨f, hf⟩ := ih hn
    refine ⟨fun x => if x = a.1 then a.2 else f x, fun s hs => ?_⟩
    rcases List.mem_cons.mp hs with rfl | hs
    · exact if_pos rfl
    · have hne : s.1 ≠ a.1 := fun he => hnot (he ▸ List.mem_map_of_mem hs)
      exact (if_neg hne).trans (hf s hs)

theorem map_mk_map_byte (cs : List Gf256) : (cs.map Gf256.byte).map Gf256.mk = cs := by
  rw [List.map_map]
  exact List.map_id cs

/-- For one byte: as many shares as coefficients are explained by exactly one choice of them,
whatever the byte is. -/
theorem existsUnique_coeficientes {observadas : List (UInt8 × UInt8)}
    (hk : observadas.length = k) (hn : (observadas.map Prod.fst).Nodup)
    (h₀ : (0 : UInt8) ∉ observadas.map Prod.fst) (byte : UInt8) :
    ∃! c : Arr k, ∀ s ∈ observadas, s.2 = evaluar c.toList byte s.1 := by
  have hmk : Function.Injective Gf256.mk := fun a b h => congrArg Gf256.byte h
  have hnx : ((observadas.map Prod.fst).map Gf256.mk).Nodup := hn.map hmk
  have h₀x : (0 : Gf256) ∉ (observadas.map Prod.fst).map Gf256.mk := by
    intro h
    obtain ⟨x, hx, he⟩ := List.mem_map.mp h
    obtain rfl : x = 0 := congrArg Gf256.byte he
    exact h₀ hx
  obtain ⟨f, hf⟩ := exists_funcion hn
  obtain ⟨cs, ⟨hl, hv⟩, huni⟩ :=
    existsUnique_polDe hnx h₀x ⟨byte⟩ fun x => ⟨f x.byte⟩
  rw [List.length_map, List.length_map, hk] at hl
  have hpol : ∀ c : Arr k, (∀ s ∈ observadas, s.2 = evaluar c.toList byte s.1) ↔
      ∀ x ∈ (observadas.map Prod.fst).map Gf256.mk,
        (polDe (⟨byte⟩ :: c.toList.map Gf256.mk)).eval x = ⟨f x.byte⟩ := by
    intro c
    rw [List.map_map, List.forall_mem_map]
    refine forall₂_congr fun s hs => ?_
    rw [evaluar_eq, ← hf s hs, polinomioDe, List.map_cons]
    exact ⟨fun h => Gf256.ext h.symm, fun h => (congrArg Gf256.byte h).symm⟩
  refine ⟨Arr.of (cs.map Gf256.byte) (by rw [List.length_map, hl]), ?_, fun c hc => ?_⟩
  · apply (hpol _).mpr
    rwa [Arr.toList_of, map_mk_map_byte]
  · have hcs := huni (c.toList.map Gf256.mk) ⟨by simp [hk], (hpol c).mp hc⟩
    apply Arr.ext
    rw [Arr.toList_of, ← hcs, List.map_map]
    exact (List.map_id c.toList).symm

/-- For a whole payload: one choice of coefficients explains what as many shares show. -/
theorem existsUnique_explica {observadas : List (UInt8 × List UInt8)}
    (hk : observadas.length = k) (hn : (observadas.map Prod.fst).Nodup)
    (h₀ : (0 : UInt8) ∉ observadas.map Prod.fst) (hy : ∀ s ∈ observadas, s.2.length = n)
    (payload : Arr n) : ∃! css : List.Vector (Arr k) n, Explica css payload observadas := by
  have hbyte : ∀ i : Fin n, ∃! c : Arr k, ∀ s ∈ observadas,
      s.2[i.val]? = some (evaluar c.toList (payload.get i) s.1) := by
    intro i
    have hfst : (observadas.map fun s => (s.1, s.2.getD i.val 0)).map Prod.fst =
        observadas.map Prod.fst := by
      rw [List.map_map]
      rfl
    obtain ⟨c, hc, huni⟩ : ∃! c : Arr k,
        ∀ s ∈ observadas.map fun s => (s.1, s.2.getD i.val 0),
          s.2 = evaluar c.toList (payload.get i) s.1 :=
      existsUnique_coeficientes (by rw [List.length_map, hk]) (hfst ▸ hn) (hfst ▸ h₀) _
    have heq : ∀ d : Arr k, (∀ s ∈ observadas.map fun s => (s.1, s.2.getD i.val 0),
        s.2 = evaluar d.toList (payload.get i) s.1) ↔ ∀ s ∈ observadas,
          s.2[i.val]? = some (evaluar d.toList (payload.get i) s.1) := by
      intro d
      rw [List.forall_mem_map]
      refine forall₂_congr fun s hs => ?_
      have hi : i.val < s.2.length := (hy s hs).symm ▸ i.2
      rw [List.getElem?_eq_getElem hi, List.getD_eq_getElem _ _ hi, Option.some.injEq]
    exact ⟨c, (heq c).mp hc, fun d hd => huni d ((heq d).mpr hd)⟩
  choose c hc huni using hbyte
  refine ⟨List.Vector.ofFn c, ?_, fun css hcss => ?_⟩
  · refine (explica_iff hy).mpr fun i => ?_
    rw [List.Vector.get_ofFn]
    exact hc i
  · refine List.Vector.ext fun i => ?_
    rw [List.Vector.get_ofFn]
    exact huni i _ ((explica_iff hy).mp hcss i)

/-- What one share less than the threshold shows is explained once by each payload. -/
theorem explican_ncard (k : Nat) (observadas : List (UInt8 × List UInt8))
    (hk : observadas.length = k - 1) (hn : (observadas.map Prod.fst).Nodup)
    (h₀ : (0 : UInt8) ∉ observadas.map Prod.fst) (hy : ∀ s ∈ observadas, s.2.length = n)
    (payload payload' : Arr n) :
    Set.ncard {css : List.Vector (Arr (k - 1)) n | Explica css payload observadas} = 1 ∧
      Set.ncard {css : List.Vector (Arr (k - 1)) n | Explica css payload observadas} =
        Set.ncard {css : List.Vector (Arr (k - 1)) n | Explica css payload' observadas} := by
  have huno : ∀ payload : Arr n,
      Set.ncard {css : List.Vector (Arr (k - 1)) n | Explica css payload observadas} = 1 := by
    intro payload
    obtain ⟨css, hcss, huni⟩ := existsUnique_explica hk hn h₀ hy payload
    refine Set.ncard_eq_one.mpr ⟨css, Set.ext fun d => ⟨fun hd => huni d hd, fun hd => ?_⟩⟩
    rw [Set.mem_singleton_iff.mp hd]
    exact hcss
  exact ⟨huno payload, (huno payload).trans (huno payload').symm⟩

theorem explican_ncard_dos :
    Set.ncard {css : List.Vector (Arr 2) 1 |
        Explica css (List.Vector.replicate 1 9) [(1, [7]), (3, [200])]} = 1 ∧
      Set.ncard {css : List.Vector (Arr 2) 1 |
        Explica css (List.Vector.replicate 1 9) [(1, [7]), (3, [200])]} =
        Set.ncard {css : List.Vector (Arr 2) 1 |
          Explica css (List.Vector.replicate 1 4) [(1, [7]), (3, [200])]} :=
  explican_ncard 3 [(1, [7]), (3, [200])] rfl (by decide) (by decide) (by decide) _ _

end Shamir

end Quipu
