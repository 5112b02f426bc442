import Quipu.Container
import Quipu.Repetidos

namespace Quipu.Antihacker

open Container Repetidos

variable {ε : Type}

/-- The loop of `nonces_repetidos` from the container `i` on; a panic of `parse` is not caught. -/
def noncesRepetidosDesde : List (List UInt8) → Nat → (AList fun _ : Arr 24 => Nat) →
    List (Nat × Nat) → Res ε (List (Nat × Nat))
  | [], _, _, pares => .ok pares
  | c :: cs, i, visto, pares =>
    match parse 16 24 c with
    | .ok (cabecera, _) =>
      match visto.lookup cabecera.nonce with
      | some primero => noncesRepetidosDesde cs (i + 1) visto (pares ++ [(primero, i)])
      | none => noncesRepetidosDesde cs (i + 1) (visto.insert cabecera.nonce i) pares
    | .error (.error _) => noncesRepetidosDesde cs (i + 1) visto pares
    | .error (.panico m) => panico m

def noncesRepetidos (contenedores : List (List UInt8)) : Res ε (List (Nat × Nat)) :=
  noncesRepetidosDesde contenedores 0 ∅ []

/-- The nonce of a blob that is a container. -/
def nonceDe (blob : List UInt8) : Option (Arr 24) :=
  match parse 16 24 blob with
  | .ok (cabecera, _) => some cabecera.nonce
  | .error _ => none

theorem nonceDe_eq_some {blob : List UInt8} {nonce : Arr 24} : nonceDe blob = some nonce ↔
    ∃ h c, parse 16 24 blob = .ok (h, c) ∧ h.nonce = nonce := by
  unfold nonceDe
  split
  next h c hp =>
    constructor
    · intro hn
      exact ⟨h, c, hp, Option.some.inj hn⟩
    · rintro ⟨h', c', hp', hn⟩
      obtain ⟨rfl, rfl⟩ := Prod.mk.inj (Except.ok.inj (hp.symm.trans hp'))
      rw [hn]
  next e hp =>
    constructor
    · intro hn
      cases hn
    · rintro ⟨h, c, hp', -⟩
      cases hp.symm.trans hp'

/-- What one container does to the loop. -/
theorem noncesRepetidosDesde_cons {antes : List (Option (Arr 24))}
    {visto : AList fun _ : Arr 24 => Nat} (hv : Visto antes visto) (c : List UInt8)
    (cs : List (List UInt8)) (pares : List (Nat × Nat)) :
    ∃ visto', Visto (antes ++ [nonceDe c]) visto' ∧
      (noncesRepetidosDesde (c :: cs) antes.length visto pares : Res ε (List (Nat × Nat))) =
        noncesRepetidosDesde cs (antes.length + 1) visto'
          (pares ++ (parDe antes (nonceDe c)).toList) := by
  rw [noncesRepetidosDesde]
  cases hp : parse 16 24 c with
  | ok r =>
    obtain ⟨h, resto⟩ := r
    have hn : nonceDe c = some h.nonce := nonceDe_eq_some.mpr ⟨h, resto, hp, rfl⟩
    rw [hn, parDe, Option.bind_some, ← hv]
    simp only
    cases hl : visto.lookup h.nonce with
    | some primero => exact ⟨visto, hv.conocida hl, rfl⟩
    | none =>
      refine ⟨visto.insert h.nonce antes.length, hv.nueva hl, ?_⟩
      rw [Option.map_none, Option.toList_none, List.append_nil]
  | error e =>
    have hn : nonceDe c = none := by rw [nonceDe, hp]
    obtain ⟨e, rfl⟩ : ∃ e', e = Fallo.error e' := by
      rcases parse_sinPanico (s := 16) (n := 24) c with ⟨r, hr⟩ | ⟨e', he⟩
      · cases hp.symm.trans hr
      · exact ⟨e', Except.error.inj (hp.symm.trans he)⟩
    rw [hn]
    refine ⟨visto, hv.sin_clave, ?_⟩
    rw [parDe, Option.bind_none, Option.toList_none, List.append_nil]

theorem noncesRepetidosDesde_eq {antes : List (Option (Arr 24))}
    {visto : AList fun _ : Arr 24 => Nat} (hv : Visto antes visto) (cs : List (List UInt8)) :
    (noncesRepetidosDesde cs antes.length visto (repetidos antes) : Res ε (List (Nat × Nat))) =
      .ok (repetidos (antes ++ cs.map nonceDe)) := by
  induction cs generalizing antes visto with
  | nil => rw [List.map_nil, List.append_nil, noncesRepetidosDesde]
  | cons c cs ih =>
    obtain ⟨visto', hv', he⟩ := noncesRepetidosDesde_cons (ε := ε) hv c cs (repetidos antes)
    have hs := ih hv'
    rw [List.length_append, List.length_singleton, repetidos_concat, List.append_assoc] at hs
    exact he.trans hs

/-- The detector finds the repeated nonces of the blobs that are containers. -/
theorem noncesRepetidos_eq (contenedores : List (List UInt8)) :
    (noncesRepetidos contenedores : Res ε (List (Nat × Nat))) =
      .ok (repetidos (contenedores.map nonceDe)) :=
  noncesRepetidosDesde_eq Visto.nil contenedores

/-- The blob `i` parses, and its nonce is `nonce`. -/
def TieneNonce (contenedores : List (List UInt8)) (i : Nat) (nonce : Arr 24) : Prop :=
  ∃ blob h c, contenedores[i]? = some blob ∧ parse 16 24 blob = .ok (h, c) ∧ h.nonce = nonce

theorem tieneNonce_iff {contenedores : List (List UInt8)} {i : Nat} {nonce : Arr 24} :
    TieneNonce contenedores i nonce ↔ (contenedores.map nonceDe)[i]? = some (some nonce) := by
  rw [List.getElem?_map, Option.map_eq_some_iff]
  constructor
  · rintro ⟨blob, h, c, hb, hp⟩
    exact ⟨blob, hb, nonceDe_eq_some.mpr ⟨h, c, hp⟩⟩
  · rintro ⟨blob, hb, hn⟩
    obtain ⟨h, c, hp⟩ := nonceDe_eq_some.mp hn
    exact ⟨blob, h, c, hb, hp⟩

/-- Every reuse of a nonce is reported once, against its first use, and nothing else is. -/
theorem noncesRepetidos_exacto (contenedores : List (List UInt8)) :
    ∃ pares, (noncesRepetidos contenedores : Res Empty (List (Nat × Nat))) = .ok pares ∧
      (∀ j i, (j, i) ∈ pares ↔ ∃ nonce, TieneNonce contenedores i nonce ∧ j < i ∧
        TieneNonce contenedores j nonce ∧ ∀ m < j, ¬TieneNonce contenedores m nonce) ∧
      (pares.Pairwise fun p q => p.2 < q.2) ∧
      ∀ antes malo despues, contenedores = antes ++ malo :: despues →
        (∀ r, parse 16 24 malo ≠ .ok r) →
          ∃ otros, (noncesRepetidos (antes ++ despues) : Res Empty (List (Nat × Nat))) = .ok otros ∧
            pares = otros.map (Prod.map (saltar antes.length) (saltar antes.length)) := by
  refine ⟨_, noncesRepetidos_eq contenedores, ?_, pairwise_repetidos _, ?_⟩
  · intro j i
    simp only [tieneNonce_iff]
    exact mem_repetidos
  · intro antes malo despues hc hmalo
    have hn : nonceDe malo = none := by
      cases h : nonceDe malo with
      | none => rfl
      | some nonce =>
        obtain ⟨c, r, hp, -⟩ := nonceDe_eq_some.mp h
        exact absurd hp (hmalo _)
    refine ⟨_, noncesRepetidos_eq _, ?_⟩
    rw [hc, List.map_append, List.map_cons, hn, repetidos_sin_clave, List.length_map,
      List.map_append]

end Quipu.Antihacker
