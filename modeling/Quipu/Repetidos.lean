import Mathlib.Data.List.AList
import Mathlib.Data.List.Basic
import Mathlib.Data.List.Induction

namespace Quipu.Repetidos

section Primera

variable {α : Type*} [BEq α] [LawfulBEq α] {xs ys : List α} {a : α} {i j : Nat}

/-- The first position of an element. -/
theorem idxOf?_eq_some : xs.idxOf? a = some i ↔ xs[i]? = some a ∧ ∀ m < i, xs[m]? ≠ some a := by
  rw [List.idxOf?_eq_some_iff]
  constructor
  · rintro ⟨hi, ha, hm⟩
    refine ⟨List.getElem?_eq_some_iff.mpr ⟨hi, ha⟩, fun m hmi he => ?_⟩
    exact hm m hmi (List.getElem?_eq_some_iff.mp he).2
  · rintro ⟨ha, hm⟩
    obtain ⟨hi, he⟩ := List.getElem?_eq_some_iff.mp ha
    exact ⟨hi, he, fun m hmi hx => hm m hmi (List.getElem?_eq_some_iff.mpr ⟨by omega, hx⟩)⟩

omit [LawfulBEq α] in
theorem idxOf?_append : (xs ++ ys).idxOf? a =
    (xs.idxOf? a).or ((ys.idxOf? a).map (· + xs.length)) := List.findIdx?_append

theorem idxOf?_lt (h : xs.idxOf? a = some i) : i < xs.length :=
  (List.getElem?_eq_some_iff.mp (idxOf?_eq_some.mp h).1).1

theorem idxOf?_take_eq_some :
    (xs.take i).idxOf? a = some j ↔ j < i ∧ xs[j]? = some a ∧ ∀ m < j, xs[m]? ≠ some a := by
  rw [idxOf?_eq_some]
  constructor
  · rintro ⟨hj, hm⟩
    obtain ⟨hl, -⟩ := List.getElem?_eq_some_iff.mp hj
    have hji : j < i := Nat.lt_of_lt_of_le hl (List.length_take_le i xs)
    rw [List.getElem?_take_of_lt hji] at hj
    refine ⟨hji, hj, fun m hmj => ?_⟩
    have hx := hm m hmj
    rwa [List.getElem?_take_of_lt (by omega)] at hx
  · rintro ⟨hji, hj, hm⟩
    rw [List.getElem?_take_of_lt hji]
    refine ⟨hj, fun m hmj => ?_⟩
    rw [List.getElem?_take_of_lt (by omega)]
    exact hm m hmj

end Primera

variable {κ : Type*} [DecidableEq κ]

/-- The pair that one more key gives, behind the keys already seen: the first position of the key
and its own. -/
def parDe (vistas : List (Option κ)) (x : Option κ) : Option (Nat × Nat) :=
  x.bind fun k => (vistas.idxOf? (some k)).map fun j => (j, vistas.length)

/-- The pairs of a list of keys, where some positions have none. -/
def repetidos (ks : List (Option κ)) : List (Nat × Nat) :=
  (List.range ks.length).filterMap fun i => ks[i]?.bind (parDe (ks.take i))

theorem parDe_eq_some {vistas : List (Option κ)} {x : Option κ} {p : Nat × Nat} :
    parDe vistas x = some p ↔
      ∃ k j, x = some k ∧ vistas.idxOf? (some k) = some j ∧ p = (j, vistas.length) := by
  constructor
  · intro h
    obtain ⟨k, rfl, h⟩ := Option.bind_eq_some_iff.mp h
    obtain ⟨j, hj, rfl⟩ := Option.map_eq_some_iff.mp h
    exact ⟨k, j, rfl, hj, rfl⟩
  · rintro ⟨k, j, rfl, hj, rfl⟩
    rw [parDe, Option.bind_some, hj, Option.map_some]

theorem repetidos_concat (ks : List (Option κ)) (x : Option κ) :
    repetidos (ks ++ [x]) = repetidos ks ++ (parDe ks x).toList := by
  have hlast : (ks ++ [x])[ks.length]?.bind (parDe ((ks ++ [x]).take ks.length)) = parDe ks x := by
    rw [List.getElem?_concat_length, List.take_left]
    rfl
  have hantes : ∀ i ∈ List.range ks.length, (ks ++ [x])[i]?.bind (parDe ((ks ++ [x]).take i)) =
      ks[i]?.bind (parDe (ks.take i)) := by
    intro i hi
    have hlt := List.mem_range.mp hi
    rw [List.getElem?_append_left hlt, List.take_append_of_le_length (Nat.le_of_lt hlt)]
  rw [repetidos, List.length_append, List.length_singleton, List.range_succ, List.filterMap_append,
    List.filterMap_congr hantes, repetidos]
  congr 1
  rw [List.filterMap_cons, hlast]
  cases parDe ks x with
  | none => rfl
  | some p => rfl

/-- A position is paired with the first one of its key. -/
theorem mem_repetidos {ks : List (Option κ)} {i j : Nat} : (j, i) ∈ repetidos ks ↔
    ∃ k, ks[i]? = some (some k) ∧ j < i ∧ ks[j]? = some (some k) ∧
      ∀ m < j, ks[m]? ≠ some (some k) := by
  rw [repetidos, List.mem_filterMap]
  constructor
  · rintro ⟨i', hi, h⟩
    obtain ⟨x, hx, h⟩ := Option.bind_eq_some_iff.mp h
    obtain ⟨k, j', rfl, hj, h⟩ := parDe_eq_some.mp h
    rw [List.length_take_of_le (Nat.le_of_lt (List.mem_range.mp hi))] at h
    obtain ⟨rfl, rfl⟩ := Prod.mk.inj h
    exact ⟨k, hx, idxOf?_take_eq_some.mp hj⟩
  · rintro ⟨k, hi, h⟩
    obtain ⟨hl, -⟩ := List.getElem?_eq_some_iff.mp hi
    refine ⟨i, List.mem_range.mpr hl, Option.bind_eq_some_iff.mpr ⟨_, hi, ?_⟩⟩
    refine parDe_eq_some.mpr ⟨k, j, rfl, idxOf?_take_eq_some.mpr h, ?_⟩
    rw [List.length_take_of_le (Nat.le_of_lt hl)]

/-- Every position is paired once at most, in the order of the list. -/
theorem pairwise_repetidos (ks : List (Option κ)) :
    (repetidos ks).Pairwise fun p q => p.2 < q.2 := by
  induction ks using List.reverseRecOn with
  | nil => exact List.Pairwise.nil
  | append_singleton ks x ih =>
    rw [repetidos_concat, List.pairwise_append]
    refine ⟨ih, ?_, ?_⟩
    · cases parDe ks x with
      | none => exact List.Pairwise.nil
      | some p => exact List.pairwise_singleton _ p
    · rintro ⟨j, i⟩ hp q hq
      obtain ⟨k, hi, -⟩ := mem_repetidos.mp hp
      obtain ⟨hl, -⟩ := List.getElem?_eq_some_iff.mp hi
      obtain ⟨-, -, -, -, rfl⟩ := parDe_eq_some.mp (Option.mem_toList.mp hq)
      exact hl

/-- Where a position goes when one more is put in at `n`. -/
def saltar (n i : Nat) : Nat := if i < n then i else i + 1

theorem idxOf?_sin_clave (as bs : List (Option κ)) (k : κ) :
    (as ++ none :: bs).idxOf? (some k) = ((as ++ bs).idxOf? (some k)).map (saltar as.length) := by
  rw [idxOf?_append, idxOf?_append, List.idxOf?_cons, if_neg (by simp)]
  cases ha : as.idxOf? (some k) with
  | some i =>
    have hi := idxOf?_lt ha
    rw [Option.some_or, Option.some_or, Option.map_some, saltar, if_pos hi]
  | none =>
    cases bs.idxOf? (some k) with
    | none => rfl
    | some j =>
      have hs : saltar as.length (j + as.length) = j + 1 + as.length := by
        rw [saltar, if_neg (by omega)]
        omega
      simp only [Option.none_or, Option.map_some, hs]

/-- A position without a key only moves the ones behind it. -/
theorem repetidos_sin_clave (as bs : List (Option κ)) :
    repetidos (as ++ none :: bs) =
      (repetidos (as ++ bs)).map (Prod.map (saltar as.length) (saltar as.length)) := by
  induction bs using List.reverseRecOn with
  | nil =>
    have hid : ∀ p ∈ repetidos as, Prod.map (saltar as.length) (saltar as.length) p = p := by
      rintro ⟨j, i⟩ hp
      obtain ⟨k, hi, hji, -⟩ := mem_repetidos.mp hp
      obtain ⟨hl, -⟩ := List.getElem?_eq_some_iff.mp hi
      rw [Prod.map_apply, saltar, saltar, if_pos hl, if_pos (by omega)]
    rw [List.append_nil, List.map_congr_left hid, List.map_id', repetidos_concat]
    exact List.append_nil _
  | append_singleton bs x ih =>
    have hpar : parDe (as ++ none :: bs) x = (parDe (as ++ bs) x).map
        (Prod.map (saltar as.length) (saltar as.length)) := by
      cases x with
      | none => rfl
      | some k =>
        have hl : (as ++ none :: bs).length = saltar as.length (as ++ bs).length := by
          rw [saltar, if_neg (by simp)]
          simp [Nat.add_assoc]
        rw [parDe, parDe, Option.bind_some, Option.bind_some, idxOf?_sin_clave, hl]
        cases (as ++ bs).idxOf? (some k) with
        | none => rfl
        | some j => rfl
    rw [← List.cons_append, ← List.append_assoc, ← List.append_assoc, repetidos_concat,
      repetidos_concat, ih, hpar, List.map_append]
    cases parDe (as ++ bs) x with
    | none => rfl
    | some p => rfl

/-- The table holds the first position of every key. -/
def Visto (ks : List (Option κ)) (visto : AList fun _ : κ => Nat) : Prop :=
  ∀ k, visto.lookup k = ks.idxOf? (some k)

namespace Visto

variable {ks : List (Option κ)} {visto : AList fun _ : κ => Nat}

theorem nil : Visto ([] : List (Option κ)) ∅ := fun k => AList.lookup_empty k

theorem sin_clave (h : Visto ks visto) : Visto (ks ++ [none]) visto := by
  intro k
  have hn : ([none] : List (Option κ)).idxOf? (some k) = none := rfl
  rw [h k, idxOf?_append, hn, Option.map_none, Option.or_none]

theorem conocida {k : κ} {j : Nat} (h : Visto ks visto) (hk : visto.lookup k = some j) :
    Visto (ks ++ [some k]) visto := by
  intro c
  rw [idxOf?_append, ← h c, List.idxOf?_singleton]
  by_cases hc : c = k
  · rw [hc, hk, Option.some_or]
  · have hne : (some k == some c) = false := by simp [Ne.symm hc]
    rw [hne]
    exact (Option.or_none).symm

theorem nueva {k : κ} (h : Visto ks visto) (hk : visto.lookup k = none) :
    Visto (ks ++ [some k]) (visto.insert k ks.length) := by
  intro c
  rw [idxOf?_append, ← h c, List.idxOf?_singleton]
  by_cases hc : c = k
  · subst hc
    rw [AList.lookup_insert, hk, Option.none_or, beq_self_eq_true, if_pos rfl, Option.map_some,
      Nat.zero_add]
  · have hne : (some k == some c) = false := by simp [Ne.symm hc]
    rw [AList.lookup_insert_ne hc, hne]
    exact (Option.or_none).symm

end Visto

end Quipu.Repetidos
