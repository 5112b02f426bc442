import Mathlib.Data.List.Basic

namespace Quipu.Lineas

/-- A line without the carriage return before its end. -/
def sinRetorno (l : List Char) : List Char := if l.getLast? = some '\r' then l.dropLast else l

/-- The lines of a text; a last line without its end is a line unless it is empty. -/
def lines (texto : List Char) : List (List Char) :=
  let trozos := texto.splitOn '\n'
  trozos.dropLast.map sinRetorno ++ trozos.getLast?.toList.filter fun l => !l.isEmpty

/-- Lines, each with its end. -/
def deLineas (ls : List (List Char)) : List Char := ls.flatMap (· ++ ['\n'])

/-- The digits of a number up to `maximo`, a plus sign allowed before them. -/
def parseUnsigned (maximo : Nat) (s : String) : Option Nat :=
  let cs := if s.toList.head? = some '+' then s.toList.tail else s.toList
  if cs.isEmpty || !cs.all Char.isDigit then none
  else
    let n := Nat.ofDigitChars 10 cs 0
    if n ≤ maximo then some n else none

theorem lines_append {l : List Char} (h : '\n' ∉ l) (resto : List Char) :
    lines (l ++ '\n' :: resto) = sinRetorno l :: lines resto := by
  have hne : resto.splitOn '\n' ≠ [] := List.splitOn_ne_nil '\n' resto
  simp only [lines, List.splitOn_append_cons_self_of_not_mem h resto,
    List.dropLast_cons_of_ne_nil hne, List.getLast?_cons_of_ne_nil hne, List.map_cons,
    List.cons_append]

/-- The lines of a text that ends each of its lines. -/
theorem lines_deLineas {ls : List (List Char)} (h : ∀ l ∈ ls, '\n' ∉ l) :
    lines (deLineas ls) = ls.map sinRetorno := by
  induction ls with
  | nil => rfl
  | cons l ls ih =>
    have hl := h l List.mem_cons_self
    have hls : ∀ l ∈ ls, '\n' ∉ l := fun l' hm => h l' (List.mem_cons_of_mem l hm)
    have hcons : deLineas (l :: ls) = l ++ '\n' :: deLineas ls := by
      rw [deLineas, List.flatMap_cons, List.append_assoc]
      rfl
    rw [hcons, lines_append hl, ih hls, List.map_cons]

theorem parseUnsigned_toString {maximo n : Nat} (h : n ≤ maximo) :
    parseUnsigned maximo (toString n) = some n := by
  have hcs : (toString n).toList = Nat.toDigits 10 n := Nat.toList_repr
  have hdigito : ∀ c ∈ Nat.toDigits 10 n, c.isDigit = true := fun c hc =>
    Nat.isDigit_of_mem_toDigits (by decide) (by decide) hc
  have hmas : (Nat.toDigits 10 n).head? ≠ some '+' := by
    intro he
    exact absurd (hdigito '+' (List.mem_of_head? he)) (by decide)
  have hvacia : (Nat.toDigits 10 n).isEmpty = false := by
    rw [List.isEmpty_eq_false_iff]
    exact Nat.toDigits_ne_nil
  have htodos : (Nat.toDigits 10 n).all Char.isDigit = true := List.all_eq_true.mpr hdigito
  rw [parseUnsigned, hcs, if_neg hmas]
  simp only [hvacia, htodos, Bool.not_true, Bool.or_self, Bool.false_eq_true, if_false,
    Nat.ofDigitChars_ten_toDigits, if_pos h]

end Quipu.Lineas
