import Quipu.Fallo
import Mathlib.Tactic.Common

namespace Quipu

/-- An I/O error whose kind is not `Interrupted`. -/
structure ErrorIo where
  codigo : Nat
  deriving DecidableEq, Repr

/-- A read that gives fewer bytes than it could, at most `n + 1`, or is interrupted. -/
inductive Corte where
  | corto (n : Nat)
  | interrumpido
  deriving DecidableEq, Repr

inductive Turno where
  | corte (c : Corte)
  | falla (e : ErrorIo)
  deriving DecidableEq, Repr

/-- A reader over `resto`: its next calls go as `turnos` says, and past them each call gives
all it can. -/
structure Lector where
  resto : List UInt8
  turnos : List Turno

inductive Lectura where
  | datos (bs : List UInt8)
  | interrumpido
  | falla (e : ErrorIo)

def Lector.read (l : Lector) (k : Nat) : Lectura × Lector :=
  match l.turnos with
  | [] => (.datos (l.resto.take k), ⟨l.resto.drop k, []⟩)
  | .corte (.corto n) :: ts =>
    (.datos (l.resto.take (min k (n + 1))), ⟨l.resto.drop (min k (n + 1)), ts⟩)
  | .corte .interrumpido :: ts => (.interrumpido, ⟨l.resto, ts⟩)
  | .falla e :: ts => (.falla e, ⟨l.resto, ts⟩)

/-- A writer: what it holds, and for each coming `write_all` whether it fails and after how
many bytes. A `Vec` has no failures ahead. -/
structure Escritor where
  salida : List UInt8
  fallas : List (Option (Nat × ErrorIo))

def Escritor.vec (salida : List UInt8) : Escritor := ⟨salida, []⟩

def Escritor.writeAll (w : Escritor) (bs : List UInt8) : Except ErrorIo Unit × Escritor :=
  match w.fallas with
  | [] => (.ok (), ⟨w.salida ++ bs, []⟩)
  | none :: fs => (.ok (), ⟨w.salida ++ bs, fs⟩)
  | some (n, e) :: fs => (.error e, ⟨w.salida ++ bs.take n, fs⟩)

def Lector.SinFallas (l : Lector) : Prop := ∀ e, Turno.falla e ∉ l.turnos

theorem Lector.read_datos {l l' : Lector} {k : Nat} {bs : List UInt8}
    (h : l.read k = (.datos bs, l')) :
    l.resto = bs ++ l'.resto ∧ bs.length ≤ k ∧ l'.turnos <:+ l.turnos ∧
      (bs = [] → k = 0 ∨ l'.resto = []) := by
  unfold Lector.read at h
  split at h
  next ht =>
    obtain ⟨hb, hl⟩ := Prod.mk.inj h
    cases hb; cases hl
    refine ⟨by simp, by simp, by simp, ?_⟩
    intro he
    rcases List.take_eq_nil_iff.mp he with hk | hr
    · exact Or.inl hk
    · exact Or.inr (by simp [hr])
  next n ts ht =>
    obtain ⟨hb, hl⟩ := Prod.mk.inj h
    cases hb; cases hl
    refine ⟨by simp, by simp, by simp [ht], ?_⟩
    intro he
    rcases List.take_eq_nil_iff.mp he with hk | hr
    · exact Or.inl (by omega)
    · exact Or.inr (by simp [hr])
  next => simp at h
  next => simp at h

theorem Lector.read_interrumpido {l l' : Lector} {k : Nat}
    (h : l.read k = (.interrumpido, l')) :
    l'.resto = l.resto ∧ ∃ t, l.turnos = t :: l'.turnos := by
  unfold Lector.read at h
  split at h
  next => simp at h
  next => simp at h
  next ts ht =>
    cases (Prod.mk.inj h).2
    exact ⟨rfl, _, ht⟩
  next => simp at h

theorem Lector.read_falla {l l' : Lector} {k : Nat} {e : ErrorIo}
    (h : l.read k = (.falla e, l')) : Turno.falla e ∈ l.turnos := by
  unfold Lector.read at h
  split at h
  next => simp at h
  next => simp at h
  next => simp at h
  next e' ts ht =>
    obtain ⟨hb, _⟩ := Prod.mk.inj h
    cases hb
    simp [ht]

/-- `read_chunk` over the `k` bytes of the buffer still to fill. -/
def readChunk (l : Lector) (k : Nat) : Except ErrorIo (List UInt8) × Lector :=
  if k = 0 then (.ok [], l) else
  match _h : l.read k with
  | (.datos [], l') => (.ok [], l')
  | (.datos (b :: bs), l') =>
    match readChunk l' (k - (bs.length + 1)) with
    | (.ok ys, l'') => (.ok (b :: bs ++ ys), l'')
    | (.error e, l'') => (.error e, l'')
  | (.interrumpido, l') => readChunk l' k
  | (.falla e, l') => (.error e, l')
termination_by l.turnos.length + k
decreasing_by
  · have hr := (Lector.read_datos _h).2
    have := hr.2.1.length_le
    omega
  · obtain ⟨_, t, ht⟩ := Lector.read_interrumpido _h
    simp [ht]

theorem readChunk_zero (l : Lector) : readChunk l 0 = (.ok [], l) := by
  rw [readChunk, if_pos rfl]

theorem readChunk_step {l : Lector} {k : Nat} (hk : k ≠ 0) :
    readChunk l k =
      match l.read k with
      | (.datos [], l') => (.ok [], l')
      | (.datos (b :: bs), l') =>
        ((readChunk l' (k - (bs.length + 1))).1.map (b :: bs ++ ·),
          (readChunk l' (k - (bs.length + 1))).2)
      | (.interrumpido, l') => readChunk l' k
      | (.falla e, l') => (.error e, l') := by
  rw [readChunk, if_neg hk]
  split
  next h => simp [h]
  next b bs l' h =>
    simp only [h]
    split
    next hn => simp [hn, Except.map]
    next hn => simp [hn, Except.map]
  next h => simp [h]
  next h => simp [h]

/-- What `read_chunk` gives is what comes next, and it stops short only at the end. -/
theorem readChunk_ok {l l' : Lector} {k : Nat} {bs : List UInt8}
    (h : readChunk l k = (.ok bs, l')) :
    l.resto = bs ++ l'.resto ∧ bs.length ≤ k ∧ (bs.length < k → l'.resto = []) := by
  induction hn : l.turnos.length + k using Nat.strongRecOn generalizing l k bs with
  | _ n ih =>
    by_cases hk : k = 0
    · subst k
      rw [readChunk_zero] at h
      obtain ⟨hb, hl⟩ := by simpa using h
      subst bs; subst l'
      simp
    rw [readChunk_step hk] at h
    split at h
    next l₁ hr =>
      obtain ⟨hb, hl⟩ := by simpa using h
      subst bs; subst l'
      have hs := Lector.read_datos hr
      exact ⟨by simpa using hs.1, by simp, fun _ => (hs.2.2.2 rfl).resolve_left hk⟩
    next b xs l₁ hr =>
      obtain ⟨hx, hxk, ht, _⟩ := Lector.read_datos hr
      have htl := ht.length_le
      simp only [List.length_cons] at hxk
      cases hc : readChunk l₁ (k - (xs.length + 1)) with
      | mk r l₂ =>
        cases r with
        | error e => simp [hc, Except.map] at h
        | ok ys =>
          obtain ⟨hb, hl⟩ := by simpa [hc, Except.map] using h
          subst bs; subst l'
          obtain ⟨hy, hyk, hend⟩ := ih _ (by omega) hc rfl
          refine ⟨by simp [hx, hy], by simp; omega, fun hlt => hend ?_⟩
          simp only [List.length_cons, List.length_append] at hlt
          omega
    next l₁ hr =>
      obtain ⟨he, t, ht⟩ := Lector.read_interrumpido hr
      have htl : l.turnos.length = l₁.turnos.length + 1 := by simp [ht]
      rw [← he]
      exact ih _ (by omega) h rfl
    next => simp at h

theorem readChunk_sinFallas {l : Lector} (hl : l.SinFallas) (k : Nat) :
    ∃ bs l', readChunk l k = (.ok bs, l') ∧ l'.SinFallas := by
  induction hn : l.turnos.length + k using Nat.strongRecOn generalizing l k with
  | _ n ih =>
    by_cases hk : k = 0
    · subst k
      exact ⟨[], l, readChunk_zero l, hl⟩
    rw [readChunk_step hk]
    split
    next l₁ hr =>
      have hs := (Lector.read_datos hr).2.2.1
      exact ⟨[], l₁, rfl, fun e he => hl e (hs.subset he)⟩
    next b xs l₁ hr =>
      obtain ⟨_, hxk, ht, _⟩ := Lector.read_datos hr
      have htl := ht.length_le
      obtain ⟨ys, l₂, hc, h₂⟩ :=
        ih (l₁.turnos.length + (k - (xs.length + 1))) (by simp at hxk; omega)
          (fun e he => hl e (ht.subset he)) _ rfl
      exact ⟨b :: xs ++ ys, l₂, by simp [hc, Except.map], h₂⟩
    next l₁ hr =>
      obtain ⟨_, t, ht⟩ := Lector.read_interrumpido hr
      exact ih (l₁.turnos.length + k) (by simp [ht] at hn; omega)
        (fun e he => hl e (by simp [ht, he])) k rfl
    next e l₁ hr => exact absurd (Lector.read_falla hr) (hl e)

theorem readChunk_exacto {l : Lector} {bs rs : List UInt8} (hl : l.SinFallas)
    (h : l.resto = bs ++ rs) :
    ∃ l', readChunk l bs.length = (.ok bs, l') ∧ l'.resto = rs ∧ l'.SinFallas := by
  obtain ⟨xs, l', hr, hl'⟩ := readChunk_sinFallas hl bs.length
  obtain ⟨hx, hle, hshort⟩ := readChunk_ok hr
  have hlen : xs.length = bs.length := by
    by_contra hne
    have hnil := hshort (by omega)
    have := congrArg List.length (h.symm.trans hx)
    simp only [hnil, List.length_append, List.length_nil] at this
    omega
  obtain ⟨rfl, rfl⟩ := List.append_inj (h.symm.trans hx) hlen.symm
  exact ⟨l', hr, rfl, hl'⟩

end Quipu
