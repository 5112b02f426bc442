import Quipu.Aleatorio

namespace Quipu

namespace Aleatorio

/-- Eight equal bytes in a row. -/
def Racha (xs : List UInt8) : Prop := ∃ i b, ∀ j < 8, xs[i + j]? = some b

theorem racha_length {xs : List UInt8} (h : Racha xs) : 8 ≤ xs.length := by
  obtain ⟨i, b, hb⟩ := h
  have := (List.getElem?_eq_some_iff.mp (hb 7 (by omega))).1
  omega

theorem not_racha_of_vecinos {xs : List UInt8}
    (h : ∀ i, i + 1 < xs.length → xs[i]? ≠ xs[i + 1]?) : ¬Racha xs := by
  rintro ⟨i, b, hb⟩
  have h₁ := hb 1 (by omega)
  exact h i (List.getElem?_eq_some_iff.mp h₁).1 ((hb 0 (by omega)).trans h₁.symm)

theorem racha_append_left {xs : List UInt8} (h : Racha xs) (ys : List UInt8) :
    Racha (xs ++ ys) := by
  obtain ⟨i, b, hb⟩ := h
  refine ⟨i, b, fun j hj => ?_⟩
  rw [List.getElem?_append_left (List.getElem?_eq_some_iff.mp (hb j hj)).1, hb j hj]

theorem racha_append_right {ys : List UInt8} (h : Racha ys) (xs : List UInt8) :
    Racha (xs ++ ys) := by
  obtain ⟨i, b, hb⟩ := h
  refine ⟨xs.length + i, b, fun j hj => ?_⟩
  rw [List.getElem?_append_right (by omega), ← hb j hj]
  congr 1
  omega

theorem racha_drop {xs : List UInt8} {n : Nat} (h : Racha (xs.drop n)) : Racha xs := by
  rw [← List.take_append_drop n xs]
  exact racha_append_right h _

theorem racha_take {xs : List UInt8} {n : Nat} (h : Racha (xs.take n)) : Racha xs := by
  rw [← List.take_append_drop n xs]
  exact racha_append_left h _

theorem racha_replicate_append {k : Nat} (hk : k ≤ 7) {a b : UInt8} (hab : a ≠ b)
    (xs : List UInt8) : Racha (List.replicate k a ++ b :: xs) ↔ Racha (b :: xs) := by
  refine ⟨fun ⟨i, c, hc⟩ => ?_, fun h => racha_append_right h _⟩
  by_cases hi : i < k
  · have h₀ := hc 0 (by omega)
    have h₁ := hc (k - i) (by omega)
    rw [List.getElem?_append_left (by simpa using hi), List.getElem?_replicate,
      if_pos (by omega)] at h₀
    rw [List.getElem?_append_right (by simp; omega), List.length_replicate,
      Nat.add_sub_cancel' (by omega), Nat.sub_self, List.getElem?_cons_zero] at h₁
    exact absurd (Option.some.inj (h₀.trans h₁.symm)) hab
  · refine ⟨i - k, c, fun j hj => ?_⟩
    rw [← hc j hj, List.getElem?_append_right (by simp; omega), List.length_replicate]
    congr 1
    omega

/-- The counting loop stops exactly at a racha, its current run included. -/
theorem rachas_eq_none_iff {k : Nat} (h₁ : 1 ≤ k) (h₇ : k ≤ 7) (a : UInt8) (xs : List UInt8) :
    rachas k (a :: xs) = none ↔ ¬Racha (List.replicate k a ++ xs) := by
  induction xs generalizing k a with
  | nil =>
    simp only [rachas, List.append_nil, true_iff]
    intro h
    have := racha_length h
    rw [List.length_replicate] at this
    omega
  | cons b xs ih =>
    have hrep : List.replicate k a ++ a :: xs = List.replicate (k + 1) a ++ xs := by
      rw [List.replicate_succ', List.append_assoc, List.singleton_append]
    by_cases hab : a = b
    · subst b
      rw [rachas, if_pos rfl, hrep]
      by_cases h8 : repeticionQueDelata ≤ k + 1
      · have hk : k + 1 = 8 := by
          unfold repeticionQueDelata at h8
          omega
        rw [if_pos h8, hk]
        simp only [reduceCtorEq, false_iff, not_not]
        refine racha_append_left ⟨0, a, fun j hj => ?_⟩ xs
        rw [Nat.zero_add, List.getElem?_replicate, if_pos hj]
      · rw [if_neg h8]
        exact ih (by omega) (by unfold repeticionQueDelata at h8; omega) a
    · rw [rachas, if_neg hab, racha_replicate_append h₇ hab]
      exact ih (Nat.le_refl 1) (by omega) b

/-- The health check lets through exactly the samples with no racha. -/
theorem saludDe_eq_none_iff (xs : List UInt8) : saludDe xs = none ↔ ¬Racha xs := by
  unfold saludDe
  split
  next h =>
    simp only [Bool.and_eq_true, decide_eq_true_eq, List.all_eq_true, beq_iff_eq] at h
    simp only [reduceCtorEq, false_iff, not_not]
    refine ⟨0, 0, fun j hj => ?_⟩
    unfold repeticionQueDelata at h
    rw [Nat.zero_add, List.getElem?_eq_getElem (by omega), h.2 _ (List.getElem_mem _)]
  next =>
    cases xs with
    | nil =>
      simp only [rachas, true_iff]
      exact fun h => absurd (racha_length h) (by decide)
    | cons a xs => exact rachas_eq_none_iff (Nat.le_refl 1) (by omega) a xs

theorem not_racha_separado {xs ys zs : List UInt8} (hx : ¬Racha xs) (hz : ¬Racha zs)
    (hne : ys ≠ [])
    (h : ∀ i, xs.length ≤ i + 1 → i < xs.length + ys.length →
      (xs ++ ys ++ zs)[i]? ≠ (xs ++ ys ++ zs)[i + 1]?) :
    ¬Racha (xs ++ ys ++ zs) := by
  have hpos := List.length_pos_iff.mpr hne
  rintro ⟨i, b, hb⟩
  by_cases hleft : i + 8 ≤ xs.length
  · refine hx ⟨i, b, fun j hj => ?_⟩
    rw [← hb j hj, List.append_assoc, List.getElem?_append_left (by omega)]
  · by_cases hright : xs.length + ys.length ≤ i
    · refine hz ⟨i - (xs.length + ys.length), b, fun j hj => ?_⟩
      rw [← hb j hj, List.getElem?_append_right (by rw [List.length_append]; omega),
        List.length_append]
      congr 1
      omega
    · obtain ⟨j, hj, hlo, hhi⟩ : ∃ j, j < 7 ∧ xs.length ≤ i + j + 1 ∧
          i + j < xs.length + ys.length := by
        rcases Nat.le_total xs.length (i + 1) with hle | hle
        · exact ⟨0, by omega, by omega, by omega⟩
        · exact ⟨xs.length - i - 1, by omega, by omega, by omega⟩
      exact h (i + j) hlo hhi ((hb j (by omega)).trans (hb (j + 1) (by omega)).symm)

def alternado (p q : UInt8) (n : Nat) : List UInt8 :=
  (List.range n).map fun i => if i % 2 = 0 then p else q

@[simp] theorem length_alternado (p q : UInt8) (n : Nat) : (alternado p q n).length = n := by
  simp [alternado]

theorem getElem?_alternado {p q : UInt8} {n i : Nat} (h : i < n) :
    (alternado p q n)[i]? = some (if i % 2 = 0 then p else q) := by
  simp [alternado, h]

theorem alternado_vecinos {p q : UInt8} (hpq : p ≠ q) {n i : Nat} (h : i + 1 < n) :
    (alternado p q n)[i]? ≠ (alternado p q n)[i + 1]? := by
  intro he
  rw [getElem?_alternado (by omega), getElem?_alternado h] at he
  have hif := Option.some.inj he
  rcases Nat.mod_two_eq_zero_or_one i with h0 | h1
  · rw [if_pos h0, if_neg (by omega)] at hif
    exact hpq hif
  · rw [if_neg (by omega), if_pos (by omega)] at hif
    exact hpq hif.symm

theorem alternado_cases {p q b : UInt8} {n i : Nat} (h : (alternado p q n)[i]? = some b) :
    b = p ∨ b = q := by
  have hi : i < n := by simpa using (List.getElem?_eq_some_iff.mp h).1
  rw [getElem?_alternado hi, Option.some.injEq] at h
  subst h
  split
  next => exact Or.inl rfl
  next => exact Or.inr rfl

/-- Two different bytes in turn, both unlike the bytes beside them, separate two samples. -/
theorem not_racha_alternado {xs zs : List UInt8} (hx : ¬Racha xs) (hz : ¬Racha zs)
    {p q : UInt8} {n : Nat} (hn : 0 < n) (hpq : p ≠ q)
    (hl : ∀ b, xs[xs.length - 1]? = some b → b ≠ p ∧ b ≠ q)
    (hr : ∀ b, zs[0]? = some b → b ≠ p ∧ b ≠ q) :
    ¬Racha (xs ++ alternado p q n ++ zs) := by
  have hmid : ∀ k < n, (xs ++ alternado p q n ++ zs)[xs.length + k]? =
      (alternado p q n)[k]? := by
    intro k hk
    rw [List.append_assoc, List.getElem?_append_right (by omega), Nat.add_sub_cancel_left,
      List.getElem?_append_left (by simpa using hk)]
  have hne : alternado p q n ≠ [] := List.ne_nil_of_length_pos (by simpa using hn)
  refine not_racha_separado hx hz hne fun i hlo hhi he => ?_
  rw [length_alternado] at hhi
  rcases Nat.lt_or_ge i xs.length with hlt | hge
  · have hi : i + 1 = xs.length := by omega
    have hfirst := hmid 0 hn
    rw [Nat.add_zero, ← hi, ← he, getElem?_alternado hn, List.append_assoc,
      List.getElem?_append_left hlt] at hfirst
    rw [← hi, Nat.add_sub_cancel] at hl
    exact (hl _ hfirst).1 (if_pos rfl)
  · obtain ⟨k, rfl⟩ : ∃ k, i = xs.length + k := ⟨i - xs.length, by omega⟩
    rw [hmid k (by omega)] at he
    by_cases hk : k + 1 < n
    · rw [Nat.add_assoc, hmid (k + 1) hk] at he
      exact alternado_vecinos hpq hk he
    · have hkn : k < n := by omega
      rw [List.getElem?_append_right (by simp; omega), List.length_append, length_alternado,
        Nat.sub_eq_zero_of_le (by omega), getElem?_alternado hkn] at he
      obtain ⟨hp, hq⟩ := hr _ he.symm
      exact (alternado_cases (getElem?_alternado hkn)).elim hp hq

theorem not_racha_alternado_nil {p q : UInt8} (hpq : p ≠ q) (n : Nat) :
    ¬Racha (alternado p q n) :=
  not_racha_of_vecinos fun _ hi => alternado_vecinos hpq (length_alternado p q n ▸ hi)

theorem saludDe_ascendente (n : Nat) : saludDe (tomar UInt8.ofNat n).toList = none := by
  rw [saludDe_eq_none_iff]
  refine not_racha_of_vecinos fun i hi he => ?_
  simp only [tomar, Arr.toList_of, List.length_map, List.length_range] at hi
  simp only [tomar, Arr.toList_of, List.getElem?_map, List.getElem?_range hi,
    List.getElem?_range (Nat.lt_of_succ_lt hi), Option.map_some, Option.some.injEq] at he
  have hn := congrArg UInt8.toNat he
  simp only [UInt8.toNat_ofNat'] at hn
  omega

theorem exists_distintos (u v : Option UInt8) :
    ∃ p q : UInt8, p ≠ q ∧ (∀ b, u = some b → b ≠ p ∧ b ≠ q) ∧
      ∀ b, v = some b → b ≠ p ∧ b ≠ q := by
  have hpares : (u ≠ some 0 ∧ u ≠ some 1 ∧ v ≠ some 0 ∧ v ≠ some 1) ∨
      (u ≠ some 2 ∧ u ≠ some 3 ∧ v ≠ some 2 ∧ v ≠ some 3) ∨
      (u ≠ some 4 ∧ u ≠ some 5 ∧ v ≠ some 4 ∧ v ≠ some 5) := by
    by_contra hn
    grind
  rcases hpares with h | h | h
  · exact ⟨0, 1, by decide, by grind, by grind⟩
  · exact ⟨2, 3, by decide, by grind, by grind⟩
  · exact ⟨4, 5, by decide, by grind, by grind⟩

end Aleatorio

end Quipu
