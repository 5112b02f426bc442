import Mathlib.Data.List.Induction

namespace Quipu.Cadena

variable {E B H : Type} (h : B → H) (pre : H → E → B) (hash : E → H)

/-- The hash that a chain ends with; an empty one ends with what it starts from. -/
def cabeza (raiz : H) (es : List E) : H := (es.getLast?.map hash).getD raiz

/-- Each entry carries the hash of what it says and of the hash before it. -/
def Enlazada : H → List E → Prop
  | _, [] => True
  | prev, e :: es => hash e = h (pre prev e) ∧ Enlazada (hash e) es

/-- What is hashed along a chain. -/
def preimagenes : H → List E → List B
  | _, [] => []
  | prev, e :: es => pre prev e :: preimagenes (hash e) es

theorem cabeza_cons (raiz : H) (e : E) (es : List E) :
    cabeza hash raiz (e :: es) = cabeza hash (hash e) es := by
  cases es with
  | nil => rfl
  | cons e' es =>
    rw [cabeza, cabeza, List.getLast?_cons_cons]
    cases hl : (e' :: es).getLast? with
    | none => cases List.getLast?_eq_none_iff.mp hl
    | some x => rfl

theorem cabeza_concat (raiz : H) (es : List E) (e : E) :
    cabeza hash raiz (es ++ [e]) = hash e := by
  rw [cabeza, List.getLast?_concat]
  rfl

theorem enlazada_concat (raiz : H) (es : List E) (e : E) :
    Enlazada h pre hash raiz (es ++ [e]) ↔
      Enlazada h pre hash raiz es ∧ hash e = h (pre (cabeza hash raiz es) e) := by
  induction es generalizing raiz with
  | nil => exact and_comm
  | cons e' es ih => rw [List.cons_append, Enlazada, Enlazada, ih, and_assoc, cabeza_cons]

theorem preimagenes_concat (raiz : H) (es : List E) (e : E) :
    preimagenes pre hash raiz (es ++ [e]) =
      preimagenes pre hash raiz es ++ [pre (cabeza hash raiz es) e] := by
  induction es generalizing raiz with
  | nil => rfl
  | cons e' es ih => rw [List.cons_append, preimagenes, ih, preimagenes, cabeza_cons]; rfl

/-- Two different values among those of two chains have one hash, or one of them has the hash
that the chains start from. -/
def Colision (raiz : H) (es es' : List E) : Prop :=
  (∃ x ∈ preimagenes pre hash raiz es, ∃ y ∈ preimagenes pre hash raiz es', x ≠ y ∧ h x = h y) ∨
    (∃ x ∈ preimagenes pre hash raiz es, h x = raiz) ∨
    ∃ y ∈ preimagenes pre hash raiz es', h y = raiz

theorem Colision.concat {raiz : H} {es es' : List E} (hc : Colision h pre hash raiz es es')
    (e e' : E) : Colision h pre hash raiz (es ++ [e]) (es' ++ [e']) := by
  unfold Colision
  rw [preimagenes_concat, preimagenes_concat]
  rcases hc with ⟨x, hx, y, hy, hne, heq⟩ | ⟨x, hx, heq⟩ | ⟨y, hy, heq⟩
  · exact .inl ⟨x, List.mem_append_left _ hx, y, List.mem_append_left _ hy, hne, heq⟩
  · exact .inr (.inl ⟨x, List.mem_append_left _ hx, heq⟩)
  · exact .inr (.inr ⟨y, List.mem_append_left _ hy, heq⟩)

/-- The hash at the end of a chain commits to all that it says: two chains that end alike say the
same, or show a collision. -/
theorem compromiso (hpre : ∀ p p' e e', pre p e = pre p' e' → p = p') {raiz : H}
    {es es' : List E} (hes : Enlazada h pre hash raiz es) (hes' : Enlazada h pre hash raiz es')
    (hcabeza : cabeza hash raiz es = cabeza hash raiz es') :
    preimagenes pre hash raiz es = preimagenes pre hash raiz es' ∨
      Colision h pre hash raiz es es' := by
  induction es using List.reverseRecOn generalizing es' with
  | nil =>
    rcases List.eq_nil_or_concat es' with rfl | ⟨l', e', rfl⟩
    · exact .inl rfl
    · rw [List.concat_eq_append] at hes' hcabeza ⊢
      rw [cabeza_concat] at hcabeza
      have he' := ((enlazada_concat h pre hash raiz l' e').mp hes').2
      refine .inr (.inr (.inr ⟨pre (cabeza hash raiz l') e', ?_, he'.symm.trans hcabeza.symm⟩))
      rw [preimagenes_concat]
      exact List.mem_append_right _ List.mem_cons_self
  | append_singleton l e ih =>
    obtain ⟨hl, he⟩ := (enlazada_concat h pre hash raiz l e).mp hes
    rw [cabeza_concat] at hcabeza
    have hx : pre (cabeza hash raiz l) e ∈ preimagenes pre hash raiz (l ++ [e]) := by
      rw [preimagenes_concat]
      exact List.mem_append_right _ List.mem_cons_self
    rcases List.eq_nil_or_concat es' with rfl | ⟨l', e', rfl⟩
    · exact .inr (.inr (.inl ⟨_, hx, he.symm.trans hcabeza⟩))
    · rw [List.concat_eq_append] at hes' hcabeza ⊢
      obtain ⟨hl', he'⟩ := (enlazada_concat h pre hash raiz l' e').mp hes'
      rw [cabeza_concat] at hcabeza
      by_cases heq : pre (cabeza hash raiz l) e = pre (cabeza hash raiz l') e'
      · rcases ih hl hl' (hpre _ _ _ _ heq) with hpreim | hcol
        · left
          rw [preimagenes_concat, preimagenes_concat, hpreim, heq]
        · exact .inr (hcol.concat h pre hash e e')
      · refine .inr (.inl ⟨_, hx, pre (cabeza hash raiz l') e', ?_, heq, ?_⟩)
        · rw [preimagenes_concat]
          exact List.mem_append_right _ List.mem_cons_self
        · rw [← he, ← he', hcabeza]

end Quipu.Cadena
