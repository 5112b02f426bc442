import Mathlib.Data.List.Infix

namespace Quipu.Busqueda

variable {α : Type} {pat antes : List α}

/-- No occurrence of `pat` starts in `antes` when `pat` follows it. -/
def Despejado (pat antes : List α) : Prop := ∀ i < antes.length, ¬pat <+: (antes ++ pat).drop i

theorem Despejado.tail {c : α} (h : Despejado pat (c :: antes)) : Despejado pat antes :=
  fun i hi => h (i + 1) (Nat.succ_lt_succ hi)

/-- A pattern does not start at a character that is not its first one. -/
theorem despejado_of_not_mem {p : α} {ps : List α} (h : p ∉ antes) : Despejado (p :: ps) antes := by
  intro i hi hp
  rw [List.drop_append_of_le_length hi.le, List.drop_eq_getElem_cons hi] at hp
  exact h ((List.cons_prefix_cons.mp hp).1 ▸ List.getElem_mem hi)

variable [DecidableEq α]

instance (pat antes : List α) : Decidable (Despejado pat antes) :=
  inferInstanceAs (Decidable (∀ i < antes.length, ¬pat <+: (antes ++ pat).drop i))

/-- What stands before the first occurrence of `pat` and what stands behind it. -/
def partir (pat : List α) : List α → Option (List α × List α)
  | [] => if pat = [] then some ([], []) else none
  | c :: l =>
    if pat <+: c :: l then some ([], (c :: l).drop pat.length)
    else (partir pat l).map fun p => (c :: p.1, p.2)

theorem partir_prefijo (pat despues : List α) :
    partir pat (pat ++ despues) = some ([], despues) := by
  have hp : pat <+: pat ++ despues := List.prefix_append pat despues
  have hd : (pat ++ despues).drop pat.length = despues := List.drop_left
  cases hl : pat ++ despues with
  | nil =>
    obtain ⟨rfl, rfl⟩ := List.append_eq_nil_iff.mp hl
    rfl
  | cons c l =>
    rw [hl] at hp hd
    rw [partir, if_pos hp, hd]

/-- The first occurrence of a pattern is found. -/
theorem partir_append (h : Despejado pat antes) (despues : List α) :
    partir pat (antes ++ (pat ++ despues)) = some (antes, despues) := by
  induction antes with
  | nil => exact partir_prefijo pat despues
  | cons c antes ih =>
    have hno : ¬pat <+: c :: (antes ++ (pat ++ despues)) := by
      intro hp
      rw [← List.append_assoc, ← List.cons_append] at hp
      refine h 0 (Nat.succ_pos _) (List.prefix_of_prefix_length_le hp
        (List.prefix_append (c :: antes ++ pat) despues) ?_)
      show pat.length ≤ (c :: antes ++ pat).length
      rw [List.length_append]
      exact Nat.le_add_left _ _
    rw [List.cons_append, partir, if_neg hno, ih h.tail]
    rfl

end Quipu.Busqueda
