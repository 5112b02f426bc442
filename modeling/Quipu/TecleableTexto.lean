import Quipu.TecleableBits

namespace Quipu.Tecleable

open Servidor

/-- The characters of a text that count. -/
def utiles (cs : List Char) : List Char := cs.filter fun c => !saltado c

def letra (s : UInt8) : Char := alfabeto.getD s.toNat relleno

/-- The symbol that a character of the text stands for. -/
def valor (c : Char) : UInt8 := UInt8.ofNat (alfabeto.idxOf (subir c))

theorem alfabeto_length : alfabeto.length = 32 := by decide

theorem alfabeto_nodup : alfabeto.Nodup := by decide

theorem alfabeto_fijo {c : Char} (h : c ∈ alfabeto) : saltado c = false ∧ subir c = c := by
  have ha : (alfabeto.all fun c => !saltado c && subir c == c) = true := by decide
  have hc := List.all_eq_true.mp ha c h
  simpa using hc

theorem letra_mem {s : UInt8} (h : s.toNat < 2 ^ 5) :
    alfabeto[s.toNat]? = some (letra s) ∧ letra s ∈ alfabeto := by
  have hs : s.toNat < alfabeto.length := by rwa [alfabeto_length]
  have he : alfabeto[s.toNat]? = some (letra s) := by
    rw [letra, List.getD_eq_getElem?_getD, List.getElem?_eq_getElem hs]
    rfl
  exact ⟨he, List.mem_of_getElem? he⟩

theorem valor_letra {s : UInt8} (h : s.toNat < 2 ^ 5) : valor (letra s) = s := by
  have hs : s.toNat < alfabeto.length := by rwa [alfabeto_length]
  obtain ⟨he, hm⟩ := letra_mem h
  have hl : letra s = alfabeto[s.toNat] := by
    rw [List.getElem?_eq_getElem hs] at he
    exact (Option.some.inj he).symm
  rw [valor, (alfabeto_fijo hm).2, hl, alfabeto_nodup.idxOf_getElem, UInt8.ofNat_toNat]

theorem toNat_valor {c : Char} (h : subir c ∈ alfabeto) :
    (valor c).toNat = alfabeto.idxOf (subir c) ∧ (valor c).toNat < 2 ^ 5 := by
  have hi := List.idxOf_lt_length_of_mem h
  rw [alfabeto_length] at hi
  have hv : (valor c).toNat = alfabeto.idxOf (subir c) := by
    rw [valor, UInt8.toNat_ofNat']
    omega
  exact ⟨hv, hv ▸ hi⟩

theorem letra_valor {c : Char} (h : subir c ∈ alfabeto) : letra (valor c) = subir c := by
  have hi := List.idxOf_lt_length_of_mem h
  rw [letra, (toNat_valor h).1, List.getD_eq_getElem?_getD, List.getElem?_eq_getElem hi]
  exact List.getElem_idxOf hi

theorem simboloDe_eq_ok {c : Char} {p : Nat} {s : UInt8} :
    simboloDe c p = .ok s ↔ subir c ∈ alfabeto ∧ s = valor c := by
  have h1 : '1' ∉ alfabeto := by decide
  have h8 : '8' ∉ alfabeto := by decide
  unfold simboloDe
  simp only [rechazarSi_bind]
  constructor
  · intro h
    split at h
    next => cases h
    next =>
      split at h
      next => cases h
      next =>
        split at h
        next i hi =>
          obtain ⟨hlt, he, -⟩ := List.findIdx?_eq_some_iff_getElem.mp hi
          have hm : subir c ∈ alfabeto := eq_of_beq he ▸ List.getElem_mem hlt
          have hx : alfabeto.idxOf (subir c) = i := by
            rw [List.idxOf_eq_getD_idxOf?, hi]
            rfl
          rw [valor, hx]
          exact ⟨hm, (Except.ok.inj h).symm⟩
        next => cases h
  · rintro ⟨hm, rfl⟩
    have hn1 : subir c ≠ '1' := fun he => h1 (he ▸ hm)
    have hn8 : subir c ≠ '8' := fun he => h8 (he ▸ hm)
    rw [if_neg hn1, if_neg hn8]
    split
    next i hi =>
      have hx : alfabeto.idxOf (subir c) = i := by
        rw [List.idxOf_eq_getD_idxOf?, hi]
        rfl
      rw [valor, hx]
      rfl
    next hi => exact absurd hm (List.idxOf?_eq_none_iff.mp hi)

theorem utiles_cons (c : Char) (cs : List Char) :
    utiles (c :: cs) = if saltado c then utiles cs else c :: utiles cs := by
  rw [utiles, List.filter_cons]
  cases saltado c with
  | true => rfl
  | false => rfl

/-- The loop of `leer` gives the symbols of the characters that count, or fails at one that has
none. -/
theorem simbolosDe_eq_ok {cs : List Char} {p : Nat} {simbolos r : List UInt8} :
    simbolosDe cs p simbolos = .ok r ↔
      (∀ c ∈ utiles cs, subir c ∈ alfabeto) ∧ r = simbolos ++ (utiles cs).map valor := by
  induction cs generalizing p simbolos with
  | nil =>
    rw [simbolosDe, Res.pure_eq_ok, utiles, List.filter_nil, List.map_nil, List.append_nil]
    exact ⟨fun h => ⟨fun c hc => absurd hc List.not_mem_nil, h.symm⟩, fun h => h.2.symm⟩
  | cons c cs ih =>
    rw [simbolosDe, utiles_cons]
    split
    next => exact ih
    next =>
      rw [Res.bind_ok, List.forall_mem_cons, List.map_cons]
      constructor
      · rintro ⟨s, hs, hr⟩
        obtain ⟨hm, rfl⟩ := simboloDe_eq_ok.mp hs
        obtain ⟨hcs, rfl⟩ := ih.mp hr
        exact ⟨⟨hm, hcs⟩, by rw [List.append_assoc, List.singleton_append]⟩
      · rintro ⟨⟨hm, hcs⟩, rfl⟩
        refine ⟨valor c, simboloDe_eq_ok.mpr ⟨hm, rfl⟩, ih.mpr ⟨hcs, ?_⟩⟩
        rw [List.append_assoc, List.singleton_append]

theorem leer_desnudo_eq_ok {rs : ReedSolomon} {texto : String} {datos : List UInt8} :
    leer rs texto .desnudo = .ok datos ↔
      (∀ c ∈ utiles texto.toList, subir c ∈ alfabeto) ∧ utiles texto.toList ≠ [] ∧
        datos = deCincoBits ((utiles texto.toList).map valor) := by
  rw [leer, Res.bind_ok]
  simp only [rechazarSi_bind]
  constructor
  · rintro ⟨s, hs, h⟩
    obtain ⟨hm, rfl⟩ := simbolosDe_eq_ok.mp hs
    rw [List.nil_append] at h
    split at h
    next => cases h
    next hn =>
      refine ⟨hm, fun he => hn (by rw [he, List.map_nil]), ?_⟩
      exact (Except.ok.inj h).symm
  · rintro ⟨hm, hn, rfl⟩
    refine ⟨_, simbolosDe_eq_ok.mpr ⟨hm, (List.nil_append _).symm⟩, ?_⟩
    rw [if_neg fun he => hn (List.map_eq_nil_iff.mp he)]
    rfl

theorem leer_protegido_of {rs : ReedSolomon} {texto : String} {datos : List UInt8}
    {paridad : UInt8} (hm : ∀ c ∈ utiles texto.toList, subir c ∈ alfabeto)
    (hn : utiles texto.toList ≠ [])
    (hr : Ecc.recover rs (deCincoBits ((utiles texto.toList).map valor)) = some datos) :
    leer rs texto (.protegido paridad) = .ok datos := by
  rw [leer, simbolosDe_eq_ok.mpr ⟨hm, (List.nil_append _).symm⟩, Res.ok_bind,
    rechazarSi_of_not _ fun he => hn (List.map_eq_nil_iff.mp he), Res.ok_bind]
  simp only [hr]
  rfl

/-- The text of some symbols. -/
def textoDe (simbolos : List UInt8) : List Char :=
  (List.range ((simbolos.length + 7) / 8 * 8)).flatMap fun i =>
    separador i ++ [(simbolos[i]?.map letra).getD relleno]

theorem foldl_append_flatMap {α β : Type} (f : α → List β) (xs : List α) (s : List β) :
    xs.foldl (fun s x => s ++ f x) s = s ++ xs.flatMap f := by
  induction xs generalizing s with
  | nil => simp
  | cons x xs ih => rw [List.foldl_cons, ih, List.flatMap_cons, List.append_assoc]

theorem caracterEn_eq {simbolos : List UInt8} (h : ∀ s ∈ simbolos, s.toNat < 2 ^ 5) (i : Nat) :
    caracterEn simbolos i = .ok ((simbolos[i]?.map letra).getD relleno) := by
  unfold caracterEn
  split
  next c hc =>
    rw [(letra_mem (h c (List.mem_of_getElem? hc))).1, hc]
    rfl
  next hc =>
    rw [hc]
    rfl

/-- The text of a stream: what `escribir` gives once the stream is chosen. -/
theorem textoDe_eq (flujo : List UInt8) :
    (List.range (((aCincoBits flujo).length + 7) / 8 * 8)).foldlM
      (fun s i => do
        let c ← caracterEn (aCincoBits flujo) i
        pure (s ++ separador i ++ [c])) [] = .ok (textoDe (aCincoBits flujo)) := by
  refine (Res.foldlM_of_ok
    (g := fun s i => s ++ (separador i ++ [((aCincoBits flujo)[i]?.map letra).getD relleno]))
    ?_ []).trans ?_
  · intro s i _
    rw [caracterEn_eq (aCincoBits_lt flujo), Res.ok_bind, List.append_assoc]
    rfl
  · rw [foldl_append_flatMap, List.nil_append]
    rfl

theorem escribir_desnudo (rs : ReedSolomon) (datos : List UInt8) :
    escribir rs datos .desnudo = .ok (String.ofList (textoDe (aCincoBits datos))) := by
  rw [escribir]
  simp only [pure, Except.pure, Res.ok_bind]
  exact congrArg (· >>= fun s => .ok (String.ofList s)) (textoDe_eq datos)

theorem escribir_protegido (rs : ReedSolomon) (datos : List UInt8) {paridad : UInt8}
    (h : paridad ≤ Ecc.paridadMaxima) :
    escribir rs datos (.protegido paridad) =
      .ok (String.ofList (textoDe (aCincoBits (Ecc.protect rs datos paridad)))) := by
  rw [escribir]
  simp only [rechazarSi_of_not _ (UInt8.not_lt.mpr h), pure, Except.pure, Res.ok_bind]
  exact congrArg (· >>= fun s => .ok (String.ofList s)) (textoDe_eq _)

theorem separador_blanco (i : Nat) : ∀ c ∈ separador i, isWhitespace c = true := by
  unfold separador
  split
  next =>
    split
    next => exact List.forall_mem_singleton.mpr rfl
    next =>
      split
      next => exact List.forall_mem_singleton.mpr rfl
      next => exact fun c hc => absurd hc List.not_mem_nil
  next => exact fun c hc => absurd hc List.not_mem_nil

/-- Without the separators, a text is the letters of its symbols and the padding. -/
theorem filter_textoDe {p : Char → Bool} (hp : ∀ c, isWhitespace c = true → p c = false)
    (simbolos : List UInt8) :
    (textoDe simbolos).filter p = (simbolos.map letra ++
      List.replicate ((simbolos.length + 7) / 8 * 8 - simbolos.length) relleno).filter p := by
  have hs (i : Nat) : (separador i).filter p = [] := by
    apply List.filter_eq_nil_iff.mpr
    intro c hc
    rw [hp c (separador_blanco i c hc)]
    decide
  have hl : (List.range ((simbolos.length + 7) / 8 * 8)).map
      (fun i => (simbolos[i]?.map letra).getD relleno) = simbolos.map letra ++
        List.replicate ((simbolos.length + 7) / 8 * 8 - simbolos.length) relleno := by
    apply List.ext_getElem
    · rw [List.length_map, List.length_range, List.length_append, List.length_map,
        List.length_replicate]
      omega
    · intro i hi hi'
      rw [List.getElem_map, List.getElem_range]
      by_cases h : i < simbolos.length
      · rw [List.getElem_append_left (by rwa [List.length_map]), List.getElem_map,
          List.getElem?_eq_getElem h]
        rfl
      · rw [List.getElem_append_right (by rw [List.length_map]; omega), List.getElem_replicate,
          List.getElem?_eq_none (by omega)]
        rfl
  rw [textoDe, ← hl]
  generalize List.range ((simbolos.length + 7) / 8 * 8) = is
  induction is with
  | nil => rfl
  | cons i is ih =>
    rw [List.flatMap_cons, List.filter_append, ih, List.filter_append, hs, List.nil_append,
      List.map_cons, ← List.filter_append, List.singleton_append]

/-- The characters of a text that count are the letters of its symbols. -/
theorem utiles_textoDe {simbolos : List UInt8} (h : ∀ s ∈ simbolos, s.toNat < 2 ^ 5) :
    utiles (textoDe simbolos) = simbolos.map letra := by
  have hb : ∀ c, isWhitespace c = true → (!saltado c) = false := by
    intro c hc
    rw [saltado, hc]
    rfl
  have hl : utiles (simbolos.map letra) = simbolos.map letra := by
    apply List.filter_eq_self.mpr
    intro c hc
    obtain ⟨s, hs, rfl⟩ := List.mem_map.mp hc
    rw [(alfabeto_fijo (letra_mem (h s hs)).2).1]
    rfl
  have hr (k : Nat) : utiles (List.replicate k relleno) = [] := by
    apply List.filter_eq_nil_iff.mpr
    intro c hc
    rw [List.eq_of_mem_replicate hc]
    decide
  have ht := filter_textoDe hb simbolos
  rw [List.filter_append] at ht
  exact ht.trans ((congrArg₂ (· ++ ·) hl (hr _)).trans (List.append_nil _))

end Quipu.Tecleable
