import Quipu.EccRepair
import Quipu.TecleableTexto

namespace Quipu.Tecleable

open Digitos Servidor

/-- `t` is `s` typed by hand: characters that are passed over are put anywhere, letters may be in
lower case and the letter O a zero. -/
inductive Retecleado : List Char → List Char → Prop where
  | nada : Retecleado [] []
  | escrito {c d : Char} {s t : List Char} (hd : d = c ∨ d = c.toLower ∨ (c = 'O' ∧ d = '0'))
    (h : Retecleado s t) : Retecleado (c :: s) (d :: t)
  | puesto {d : Char} {s t : List Char} (hd : saltado d = true) (h : Retecleado s t) :
    Retecleado s (d :: t)

/-- `t` is `s` with at most `k` characters of the alphabet replaced by others of it. -/
inductive Cambiado : Nat → List Char → List Char → Prop where
  | nada (k : Nat) : Cambiado k [] []
  | igual {k : Nat} {s t : List Char} (c : Char) (h : Cambiado k s t) :
    Cambiado k (c :: s) (c :: t)
  | otro {k : Nat} {c d : Char} {s t : List Char} (hc : c ∈ alfabeto) (hd : d ∈ alfabeto)
    (h : Cambiado k s t) : Cambiado (k + 1) (c :: s) (d :: t)

theorem toLower_spec (c : Char) :
    subir c.toLower = subir c ∧ saltado c.toLower = saltado c := by
  by_cases hc : c.val ≥ 'A'.val ∧ c.val ≤ 'Z'.val
  · have hl : 65 ≤ c.toNat := hc.1
    have hu : c.toNat ≤ 90 := hc.2
    have hn : Char.ofNat c.toNat = c := Char.ofNat_toNat c
    have hall : ∀ i : Fin 26,
        subir (Char.ofNat (65 + i)).toLower = subir (Char.ofNat (65 + i)) ∧
          saltado (Char.ofNat (65 + i)).toLower = saltado (Char.ofNat (65 + i)) := by decide
    have hi := hall ⟨c.toNat - 65, by omega⟩
    rw [show 65 + (c.toNat - 65) = c.toNat by omega, hn] at hi
    exact hi
  · have he : c.toLower = c := dif_neg hc
    rw [he]
    exact ⟨rfl, rfl⟩

theorem escrito_spec {c d : Char} (hd : d = c ∨ d = c.toLower ∨ (c = 'O' ∧ d = '0')) :
    subir d = subir c ∧ saltado d = saltado c := by
  rcases hd with rfl | rfl | ⟨rfl, rfl⟩
  · exact ⟨rfl, rfl⟩
  · exact toLower_spec c
  · decide

/-- Typing keeps the characters that count, up to what `subir` undoes. -/
theorem Retecleado.subir_utiles {s t : List Char} (h : Retecleado s t) :
    (utiles t).map subir = (utiles s).map subir := by
  induction h with
  | nada => rfl
  | escrito hd h ih =>
    obtain ⟨hs, hn⟩ := escrito_spec hd
    rw [utiles_cons, utiles_cons, hn]
    split
    next => exact ih
    next => rw [List.map_cons, List.map_cons, hs, ih]
  | puesto hd h ih => rw [utiles_cons, if_pos hd, ih]

theorem Cambiado.de_utiles {k : Nat} {s t : List Char} (h : Cambiado k s t) :
    Cambiado k (utiles s) (utiles t) := by
  induction h with
  | nada k => exact .nada k
  | igual c h ih =>
    rw [utiles_cons, utiles_cons]
    split
    next => exact ih
    next => exact .igual c ih
  | otro hc hd h ih =>
    rw [utiles_cons, utiles_cons, (alfabeto_fijo hc).1, (alfabeto_fijo hd).1]
    exact .otro hc hd ih

theorem Cambiado.mem_alfabeto {k : Nat} {s t : List Char} (h : Cambiado k s t)
    (hs : ∀ c ∈ s, c ∈ alfabeto) : ∀ c ∈ t, c ∈ alfabeto := by
  induction h with
  | nada k => exact hs
  | igual c h ih =>
    obtain ⟨hc, hs⟩ := List.forall_mem_cons.mp hs
    exact List.forall_mem_cons.mpr ⟨hc, ih hs⟩
  | otro hc hd h ih => exact List.forall_mem_cons.mpr ⟨hd, ih (List.forall_mem_cons.mp hs).2⟩

theorem Cambiado.errores_le {k : Nat} {s t : List Char} (h : Cambiado k s t) :
    t.length = s.length ∧ errores (t.map valor) (s.map valor) ≤ k := by
  induction h with
  | nada k => exact ⟨rfl, by simp⟩
  | igual c h ih =>
    exact ⟨congrArg (· + 1) ih.1, (errores_cons_self _ _ _).trans ih.2⟩
  | otro hc hd h ih =>
    exact ⟨congrArg (· + 1) ih.1, (errores_cons_le _ _ _ _).trans (Nat.succ_le_succ ih.2)⟩

/-- A text that was typed is read as the characters that were typed. -/
theorem Retecleado.lectura {s t : List Char} (h : Retecleado s t)
    (hs : ∀ c ∈ utiles s, c ∈ alfabeto) :
    (∀ c ∈ utiles t, subir c ∈ alfabeto) ∧
      (utiles t).map valor = (utiles s).map valor := by
  have hu := h.subir_utiles
  constructor
  · intro c hc
    have hm : subir c ∈ (utiles s).map subir := hu ▸ List.mem_map_of_mem hc
    obtain ⟨c', hc', he⟩ := List.mem_map.mp hm
    rw [← he, (alfabeto_fijo (hs c' hc')).2]
    exact hs c' hc'
  · have hv := congrArg (List.map fun a => UInt8.ofNat (alfabeto.idxOf a)) hu
    rwa [List.map_map, List.map_map] at hv

/-- Every bit of the bytes is the bit of the symbols at its place. -/
theorem bit_deCincoBits {simbolos : List UInt8} (h : ∀ s ∈ simbolos, s.toNat < 2 ^ 5) {i : Nat}
    (hi : i < 8 * (deCincoBits simbolos).length) :
    bit (deCincoBits simbolos) i = bitEn 5 (simbolos.map UInt8.toNat) i := by
  obtain ⟨hl, hv⟩ := deCincoBits_spec h
  have h8 : ∀ d ∈ (deCincoBits simbolos).map UInt8.toNat, d < 2 ^ 8 :=
    List.forall_mem_map.mpr fun b _ => b.toNat_lt
  have hn := ofBe_eq_numero (deCincoBits simbolos)
  have hb := bitEn_eq h8 (by rwa [List.length_map])
  have h5 : ∀ d ∈ simbolos.map UInt8.toNat, d < 2 ^ 5 := List.forall_mem_map.mpr h
  have hs := bitEn_eq (i := i) h5 (by rw [List.length_map]; omega)
  rw [List.length_map] at hb hs
  have he : 5 * simbolos.length - 1 - i =
      5 * simbolos.length % 8 + (8 * (deCincoBits simbolos).length - 1 - i) := by omega
  rw [bit_eq_bitEn, hb, ← hn, hv, hs, he, Nat.pow_add, Nat.div_div_eq_div_mul]

/-- A symbol that changes changes at most two bytes. -/
theorem errores_deCincoBits_le {as bs : List UInt8} (ha : ∀ s ∈ as, s.toNat < 2 ^ 5)
    (hb : ∀ s ∈ bs, s.toNat < 2 ^ 5) (hl : as.length = bs.length) :
    errores (deCincoBits as) (deCincoBits bs) ≤ errores as bs * 2 := by
  obtain ⟨hla, -⟩ := deCincoBits_spec ha
  obtain ⟨hlb, -⟩ := deCincoBits_spec hb
  have hlen : (deCincoBits as).length = (deCincoBits bs).length := by rw [hla, hlb, hl]
  refine (Finset.card_le_card (t := (diferencias as bs).biUnion fun i =>
    {5 * i / 8, (5 * i + 4) / 8}) ?_).trans (Finset.card_biUnion_le_card_mul _ _ 2 fun i _ =>
      Finset.card_le_two)
  intro j hj
  have hd := mem_diferencias.mp hj
  by_contra hn
  have hjl : j < (deCincoBits as).length := by
    by_contra hle
    exact hd (by rw [List.getElem?_eq_none (by omega), List.getElem?_eq_none (by omega)])
  have he : (deCincoBits as).getD j 0 = (deCincoBits bs).getD j 0 := by
    apply getD_eq_of_bits
    intro r hr
    rw [bit_deCincoBits ha (by omega), bit_deCincoBits hb (by omega), bitEn, bitEn]
    have hi : as[(8 * j + r) / 5]? = bs[(8 * j + r) / 5]? := by
      by_contra hne
      apply hn
      refine Finset.mem_biUnion.mpr ⟨_, mem_diferencias.mpr hne, ?_⟩
      rw [Finset.mem_insert, Finset.mem_singleton]
      omega
    rw [List.getD_eq_getElem?_getD, List.getD_eq_getElem?_getD, List.getElem?_map,
      List.getElem?_map, hi]
  rw [List.getD_eq_getElem?_getD, List.getD_eq_getElem?_getD, List.getElem?_eq_getElem hjl,
    List.getElem?_eq_getElem (hlen ▸ hjl)] at he
  exact hd (by rw [List.getElem?_eq_getElem hjl, List.getElem?_eq_getElem (hlen ▸ hjl),
    Option.some_inj]; exact he)

theorem utiles_escrito (flujo : List UInt8) :
    (∀ c ∈ utiles (textoDe (aCincoBits flujo)), c ∈ alfabeto) ∧
      (utiles (textoDe (aCincoBits flujo))).map valor = aCincoBits flujo := by
  have h5 := aCincoBits_lt flujo
  rw [utiles_textoDe h5, List.map_map]
  refine ⟨List.forall_mem_map.mpr fun s hs => (letra_mem (h5 s hs)).2, ?_⟩
  exact (List.map_congr_left fun s hs => valor_letra (h5 s hs)).trans (List.map_id _)

theorem aCincoBits_ne_nil {flujo : List UInt8} (h : flujo ≠ []) : aCincoBits flujo ≠ [] := by
  have hl := length_aCincoBits flujo
  have hp := List.length_pos_iff.mpr h
  apply List.ne_nil_of_length_pos
  omega

/-- What `protect` gives is recovered from symbols with as many errors as `k`. -/
theorem recover_deCincoBits {rs : ReedSolomon} (hrs : rs.Corrige) {datos bs : List UInt8}
    {paridad : UInt8} {k : Nat} (hd : (Ecc.protect rs datos paridad).length < 2 ^ 32)
    (h5 : ∀ s ∈ bs, s.toNat < 2 ^ 5)
    (hl : bs.length = (aCincoBits (Ecc.protect rs datos paridad)).length)
    (he : errores bs (aCincoBits (Ecc.protect rs datos paridad)) ≤ k)
    (hk : k ≤ 2) (hp : k ≤ max paridad.toNat 2 / 4) (h128 : paridad ≤ Ecc.paridadMaxima) :
    Ecc.recover rs (deCincoBits bs) = some datos := by
  have hb := errores_deCincoBits_le h5 (aCincoBits_lt _) hl
  have hlong := Ecc.length_protect rs datos paridad
  have hdatos := Ecc.le_length_cuerpo rs (Ecc.ajustar_mem paridad).2 datos
  have hlen := (deCincoBits_spec h5).1
  have hlen' := (deCincoBits_spec (aCincoBits_lt (Ecc.protect rs datos paridad))).1
  have hmitad := Ecc.half_le_ajustar h128
  have hdos := (Ecc.ajustar_mem paridad).1
  rw [deCincoBits_aCincoBits] at hb hlen'
  rw [hl, ← hlen'] at hlen
  refine Ecc.recover_of_errores hrs (by omega) hlen ?_ ?_
  · have ht := errores_take_le 15 (deCincoBits bs) (Ecc.protect rs datos paridad)
    omega
  · intro j
    have hw := erroresEn_le_errores (255 * j) 255 ((deCincoBits bs).drop 15)
      ((Ecc.protect rs datos paridad).drop 15)
    have hdr := erroresEn_le_errores 15 (deCincoBits bs).length (deCincoBits bs)
      (Ecc.protect rs datos paridad)
    rw [← errores_window] at hw hdr
    rw [List.take_of_length_le (by rw [List.length_drop]; omega),
      List.take_of_length_le (by rw [List.length_drop]; omega)] at hdr
    rw [Ecc.tramo, Ecc.tramo]
    omega

/-- Typed text survives the hand that types it, and with parity one or two wrong characters. -/
theorem tecleable_sobrevive (rs : ReedSolomon) (hrs : rs.Corrige) (datos : List UInt8) :
    (datos ≠ [] → ∃ s, escribir rs datos .desnudo = .ok s ∧
      ∀ texto : String, Retecleado s.toList texto.toList →
        leer rs texto .desnudo = .ok datos) ∧
    ∀ paridad ≤ Ecc.paridadMaxima, (Ecc.protect rs datos paridad).length < 2 ^ 32 →
      ∃ s, escribir rs datos (.protegido paridad) = .ok s ∧
        ∀ (cambiado : List Char) (texto : String),
          Cambiado (min 2 (max paridad.toNat 2 / 4)) s.toList cambiado →
            Retecleado cambiado texto.toList →
              leer rs texto (.protegido paridad) = .ok datos := by
  constructor
  · intro hn
    refine ⟨_, escribir_desnudo rs datos, ?_⟩
    intro texto ht
    rw [String.toList_ofList] at ht
    obtain ⟨ha, hv⟩ := utiles_escrito datos
    obtain ⟨hm, hr⟩ := ht.lectura ha
    rw [hv] at hr
    apply leer_desnudo_eq_ok.mpr
    refine ⟨hm, ?_, ?_⟩
    · intro he
      rw [he] at hr
      exact aCincoBits_ne_nil hn hr.symm
    · rw [hr, deCincoBits_aCincoBits]
  · intro paridad h128 hd
    refine ⟨_, escribir_protegido rs datos h128, ?_⟩
    intro cambiado texto hc ht
    rw [String.toList_ofList] at hc
    obtain ⟨ha, hv⟩ := utiles_escrito (Ecc.protect rs datos paridad)
    have hcu := hc.de_utiles
    obtain ⟨hm, hr⟩ := ht.lectura (hcu.mem_alfabeto ha)
    obtain ⟨hl, he⟩ := hcu.errores_le
    rw [hv, ← hr] at he
    have hlv := congrArg List.length hv
    have hlb : ((utiles texto.toList).map valor).length =
        (aCincoBits (Ecc.protect rs datos paridad)).length := by
      rw [List.length_map] at hlv
      rw [hr, List.length_map, hl, hlv]
    have h5 : ∀ s ∈ (utiles texto.toList).map valor, s.toNat < 2 ^ 5 :=
      List.forall_mem_map.mpr fun c hc => (toNat_valor (hm c hc)).2
    apply leer_protegido_of hm
    · intro hnil
      rw [hnil, List.map_nil, List.length_nil, length_aCincoBits, Ecc.length_protect] at hlb
      omega
    · exact recover_deCincoBits hrs hd h5 hlb he (by omega) (by omega) h128

theorem Cambiado.mismo (k : Nat) (s : List Char) : Cambiado k s s := by
  induction s with
  | nil => exact .nada k
  | cons c s ih => exact .igual c ih

theorem Retecleado.mismo (s : List Char) : Retecleado s s := by
  induction s with
  | nil => exact .nada
  | cons c s ih => exact .escrito (.inl rfl) ih

theorem textoDe_cons (s : UInt8) (simbolos : List UInt8) :
    ∃ resto, textoDe (s :: simbolos) = letra s :: resto := by
  obtain ⟨m, hm⟩ : ∃ m, ((s :: simbolos).length + 7) / 8 * 8 = m + 1 :=
    ⟨((s :: simbolos).length + 7) / 8 * 8 - 1, by rw [List.length_cons]; omega⟩
  rw [textoDe, hm, List.range_succ_eq_map, List.flatMap_cons]
  exact ⟨_, rfl⟩

theorem escribir_f (rs : ReedSolomon) :
    escribir rs [0x66] .desnudo =
      .ok (String.ofList ['M', 'Y', '=', '=', '=', ' ', '=', '=', '=']) := by
  have ha : aCincoBits [0x66] = [12, 24] := by
    simp [aCincoBits, Acumulador.meterOcho, sacarCinco]
    decide
  rw [escribir_desnudo, ha]
  decide

theorem tecleable_sobrevive_ejemplo :
    ∃ rs : ReedSolomon, rs.Corrige ∧ leer rs " m-y=== ===" .desnudo = .ok [0x66] ∧
      ∃ s c resto, escribir rs [1, 2, 3] (.protegido 4) = .ok s ∧ s.toList = c :: resto ∧
        leer rs (String.ofList ('B' :: resto)) (.protegido 4) = .ok [1, 2, 3] := by
  obtain ⟨rs, hrs⟩ := ReedSolomon.exists_corrige
  have h4 : (Ecc.protect rs [1, 2, 3] 4).length = 22 := by
    have ha : (Ecc.ajustar 4).toNat = 4 := by decide
    rw [Ecc.length_protect, ha, Ecc.cuerpo_of_ne_nil (by decide) (by decide), List.length_append,
      ReedSolomon.length_encode, Ecc.cuerpo, List.drop_of_length_le (by decide), chunks_nil]
    rfl
  refine ⟨rs, hrs, ?_, ?_⟩
  · obtain ⟨s, hs, hl⟩ := (tecleable_sobrevive rs hrs [0x66]).1 (by decide)
    obtain rfl := Except.ok.inj ((escribir_f rs).symm.trans hs)
    apply hl
    rw [String.toList_ofList]
    exact .puesto (d := ' ') (by decide) (.escrito (d := 'm') (.inr (.inl (by decide)))
      (.puesto (d := '-') (by decide) (.escrito (d := 'y') (.inr (.inl (by decide))) (.mismo _))))
  · obtain ⟨s, hs, hl⟩ := (tecleable_sobrevive rs hrs [1, 2, 3]).2 4 (by decide) (by omega)
    have hn : aCincoBits (Ecc.protect rs [1, 2, 3] 4) ≠ [] :=
      aCincoBits_ne_nil (List.ne_nil_of_length_pos (by omega))
    obtain ⟨x, xs, hx⟩ := List.exists_cons_of_ne_nil hn
    obtain ⟨resto, hr⟩ := textoDe_cons x xs
    have h4 : (4 : UInt8) ≤ Ecc.paridadMaxima := by decide
    have hs' := (escribir_protegido rs [1, 2, 3] h4).symm.trans hs
    have ht : s.toList = letra x :: resto := by
      rw [← Except.ok.inj hs', String.toList_ofList, hx, hr]
    have h5 := aCincoBits_lt (Ecc.protect rs [1, 2, 3] 4) x (by rw [hx]; exact List.mem_cons_self)
    refine ⟨s, letra x, resto, hs, ht, hl ('B' :: resto) _ ?_ ?_⟩
    · rw [ht]
      exact .otro (letra_mem h5).2 (by decide) (.mismo 0 resto)
    · rw [String.toList_ofList]
      exact .mismo _

end Quipu.Tecleable
