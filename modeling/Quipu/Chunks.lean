import Mathlib.Data.List.Basic
import Mathlib.Tactic.Common

namespace Quipu

variable {α : Type}

/-- The chunks of a stream cut every `c` elements by a loop that looks one chunk ahead: the
last chunk is the first one with nothing behind it. -/
def lookaheadChunks (c : Nat) (xs : List α) : List (List α) :=
  if 0 < c ∧ c < xs.length then xs.take c :: lookaheadChunks c (xs.drop c) else [xs]
termination_by xs.length
decreasing_by simp only [List.length_drop]; omega

/-- The shape of such a cut: full chunks, then a last one that is empty only when alone. -/
inductive Framed (c : Nat) : List (List α) → Prop where
  | last {b : List α} : b.length ≤ c → Framed c [b]
  | cons {b d : List α} {bs : List (List α)} :
    b.length = c → d ≠ [] → Framed c (d :: bs) → Framed c (b :: d :: bs)

theorem lookaheadChunks_of_le {c : Nat} {xs : List α} (h : xs.length ≤ c) :
    lookaheadChunks c xs = [xs] := by
  rw [lookaheadChunks, if_neg (by omega)]

theorem lookaheadChunks_of_lt {c : Nat} {xs : List α} (hc : 0 < c) (h : c < xs.length) :
    lookaheadChunks c xs = xs.take c :: lookaheadChunks c (xs.drop c) := by
  rw [lookaheadChunks, if_pos ⟨hc, h⟩]

theorem lookaheadChunks_append {c : Nat} {b xs : List α} (hc : 0 < c) (hb : b.length = c)
    (hx : xs ≠ []) : lookaheadChunks c (b ++ xs) = b :: lookaheadChunks c xs := by
  have hl : 0 < xs.length := List.length_pos_iff.mpr hx
  rw [lookaheadChunks_of_lt hc (by simp; omega), ← hb, List.take_left, List.drop_left]

theorem lookaheadChunks_cases {c : Nat} (hc : 0 < c) (xs : List α) :
    (xs.length ≤ c ∧ lookaheadChunks c xs = [xs]) ∨
      ∃ b ys, b.length = c ∧ ys ≠ [] ∧ xs = b ++ ys ∧
        lookaheadChunks c xs = b :: lookaheadChunks c ys := by
  by_cases h : xs.length ≤ c
  · exact Or.inl ⟨h, lookaheadChunks_of_le h⟩
  · refine Or.inr ⟨xs.take c, xs.drop c, by simp; omega, ?_, (List.take_append_drop c xs).symm,
      lookaheadChunks_of_lt hc (by omega)⟩
    simp only [ne_eq, List.drop_eq_nil_iff]
    omega

theorem lookaheadChunks_head {c : Nat} {b xs : List α} (hc : 0 < c) (hb : b.length ≤ c)
    (hx : b.length < c → xs = []) : ∃ bs, lookaheadChunks c (b ++ xs) = b :: bs := by
  by_cases hn : xs = []
  · subst xs
    rw [List.append_nil]
    exact ⟨[], lookaheadChunks_of_le hb⟩
  · have hl : b.length = c := Nat.le_antisymm hb (Nat.not_lt.mp fun h => hn (hx h))
    exact ⟨_, lookaheadChunks_append hc hl hn⟩

theorem lookaheadChunks_ne_nil (c : Nat) (xs : List α) : lookaheadChunks c xs ≠ [] := by
  rw [lookaheadChunks]
  split <;> simp

theorem lookaheadChunks_flatten {c : Nat} (hc : 0 < c) (xs : List α) :
    (lookaheadChunks c xs).flatten = xs := by
  induction xs using lookaheadChunks.induct c with
  | case1 xs h ih => rw [lookaheadChunks_of_lt hc h.2, List.flatten_cons, ih, List.take_append_drop]
  | case2 xs h => rw [lookaheadChunks_of_le (by omega)]; simp

theorem length_le_lookaheadChunks {c : Nat} (hc : 0 < c) (xs : List α) :
    xs.length ≤ (lookaheadChunks c xs).length * c := by
  induction xs using lookaheadChunks.induct c with
  | case1 xs h ih =>
    rw [List.length_drop] at ih
    rw [lookaheadChunks_of_lt hc h.2, List.length_cons, Nat.succ_mul]
    omega
  | case2 xs h =>
    rw [lookaheadChunks_of_le (by omega), List.length_singleton]
    omega

theorem framed_lookaheadChunks {c : Nat} (hc : 0 < c) (xs : List α) :
    Framed c (lookaheadChunks c xs) := by
  induction xs using lookaheadChunks.induct c with
  | case1 xs h ih =>
    have hne : xs.drop c ≠ [] := by simp only [ne_eq, List.drop_eq_nil_iff]; omega
    have hl : (xs.take c).length = c := by simp; omega
    rw [lookaheadChunks_of_lt hc h.2]
    rcases lookaheadChunks_cases hc (xs.drop c) with ⟨_, he⟩ | ⟨d, zs, hd, _, _, he⟩
    · rw [he] at ih ⊢
      exact Framed.cons hl hne ih
    · rw [he] at ih ⊢
      exact Framed.cons hl (List.ne_nil_of_length_pos (by omega)) ih
  | case2 xs h =>
    rw [lookaheadChunks_of_le (by omega)]
    exact Framed.last (by omega)

/-- A framed list is the cut of its own concatenation, so the reader finds the writer's cuts. -/
theorem Framed.lookaheadChunks_flatten {c : Nat} {bs : List (List α)} (hc : 0 < c)
    (h : Framed c bs) : lookaheadChunks c bs.flatten = bs := by
  induction h with
  | last hb => simpa using lookaheadChunks_of_le hb
  | @cons b d bs hb hd _ ih =>
    rw [List.flatten_cons, lookaheadChunks_append hc hb (by simp [hd]), ih]

/-- The chunks of a slice: `c` elements each, the last one shorter, none when it is empty. -/
def chunks (c : Nat) (xs : List α) : List (List α) :=
  if 0 < c ∧ xs ≠ [] then xs.take c :: chunks c (xs.drop c) else []
termination_by xs.length
decreasing_by
  have := List.length_pos_iff.mpr ‹0 < c ∧ xs ≠ []›.2
  simp only [List.length_drop]
  omega

@[simp] theorem chunks_nil (c : Nat) : chunks c ([] : List α) = [] := by
  rw [chunks, if_neg (by simp)]

theorem chunks_of_ne_nil {c : Nat} {xs : List α} (hc : 0 < c) (h : xs ≠ []) :
    chunks c xs = xs.take c :: chunks c (xs.drop c) := by
  rw [chunks, if_pos ⟨hc, h⟩]

theorem flatten_chunks {c : Nat} (hc : 0 < c) (xs : List α) : (chunks c xs).flatten = xs := by
  induction xs using chunks.induct c with
  | case1 xs h ih => rw [chunks_of_ne_nil hc h.2, List.flatten_cons, ih, List.take_append_drop]
  | case2 xs h =>
    obtain rfl : xs = [] := by_contra fun hne => h ⟨hc, hne⟩
    rw [chunks_nil, List.flatten_nil]

theorem length_chunks_lt {c : Nat} (hc : 0 < c) (xs : List α) :
    (chunks c xs).length * c < xs.length + c := by
  induction xs using chunks.induct c with
  | case1 xs h ih =>
    have hpos := List.length_pos_iff.mpr h.2
    rw [chunks_of_ne_nil hc h.2, List.length_cons, Nat.succ_mul]
    rw [List.length_drop] at ih
    by_cases hle : xs.length ≤ c
    · rw [List.drop_of_length_le hle, chunks_nil, List.length_nil]
      omega
    · omega
  | case2 xs h =>
    obtain rfl : xs = [] := by_contra fun hne => h ⟨hc, hne⟩
    rw [chunks_nil, List.length_nil, Nat.zero_mul]
    omega

theorem take_drop_flatten {k i : Nat} {ws : List (List α)} (hw : ∀ w ∈ ws, w.length = k)
    (hi : i < ws.length) : (ws.flatten.drop (i * k)).take k = ws[i] := by
  induction ws generalizing i with
  | nil => simp at hi
  | cons w ws ih =>
    have hk := hw w List.mem_cons_self
    rw [List.flatten_cons]
    cases i with
    | zero => rw [Nat.zero_mul, List.drop_zero, List.take_left' hk, List.getElem_cons_zero]
    | succ i =>
      rw [Nat.add_mul, Nat.one_mul, Nat.add_comm, ← List.drop_drop, List.drop_left' hk,
        ih (fun v hv => hw v (List.mem_cons_of_mem w hv)) (by simpa using hi),
        List.getElem_cons_succ]

theorem length_flatten_of_length {k : Nat} {ws : List (List α)} (hw : ∀ w ∈ ws, w.length = k) :
    ws.flatten.length = ws.length * k := by
  induction ws with
  | nil => simp
  | cons w ws ih =>
    rw [List.flatten_cons, List.length_append, hw w List.mem_cons_self,
      ih fun v hv => hw v (List.mem_cons_of_mem w hv), List.length_cons, Nat.add_mul]
    omega

end Quipu
