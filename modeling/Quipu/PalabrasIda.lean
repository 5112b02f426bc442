import Quipu.PalabrasLectura
import Quipu.PalabrasLista
import Quipu.PalabrasTexto

namespace Quipu.Palabras

variable {lista : Lista} {datos : List UInt8}

/-- Four letters tell the words of a list apart. -/
theorem Lista.indice_eq {i j : Nat} {v w : String} (hv : lista.palabras[i]? = some v)
    (hw : lista.palabras[j]? = some w)
    (h : v.toList.take prefijoSuficiente = w.toList.take prefijoSuficiente) : i = j := by
  have hp := lista.prefijos
  have hi : i < lista.palabras.length := (List.getElem?_eq_some_iff.mp hv).1
  apply (List.getElem?_inj (by rwa [List.length_map]) hp).mp
  rw [List.getElem?_map, List.getElem?_map, hv, hw, Option.map_some, Option.map_some, h]

theorem take_prefijo {p w : List Char} (h : p <+: w)
    (ho : p = w ∨ prefijoSuficiente ≤ p.length) :
    w.take prefijoSuficiente = p.take prefijoSuficiente := by
  rcases ho with rfl | ho
  · rfl
  · obtain ⟨s, rfl⟩ := h
    exact List.take_append_of_le_length ho

/-- A search that only one place of the list passes finds that place. -/
theorem filter_zipIdx_eq {α : Type} {xs : List α} {f : α → Bool} {i : Nat} {x : α}
    (hx : xs[i]? = some x) (hf : f x = true)
    (hu : ∀ j y, xs[j]? = some y → f y = true → j = i) :
    (xs.zipIdx.filter fun y => f y.1).map Prod.snd = [i] := by
  have hn : ((xs.zipIdx.filter fun y => f y.1).map Prod.snd).Nodup := by
    have hs := (List.filter_sublist (p := fun y : α × Nat => f y.1) (l := xs.zipIdx)).map Prod.snd
    rw [List.zipIdx_map_snd] at hs
    exact hs.nodup List.nodup_range'
  apply List.perm_singleton.mp
  apply (List.perm_ext_iff_of_nodup hn (List.nodup_singleton i)).mpr
  intro j
  rw [List.mem_singleton]
  constructor
  · intro hj
    obtain ⟨⟨y, k⟩, hy, rfl⟩ := List.mem_map.mp hj
    obtain ⟨hm, hk⟩ := List.mem_filter.mp hy
    exact hu k y (List.mk_mem_zipIdx_iff_getElem?.mp hm) hk
  · rintro rfl
    exact List.mem_map.mpr ⟨(x, j), List.mem_filter.mpr
      ⟨List.mk_mem_zipIdx_iff_getElem?.mpr hx, hf⟩, rfl⟩

theorem getElem?_of_idxOf? {v : String} {j : Nat} (h : lista.palabras.idxOf? v = some j) :
    lista.palabras[j]? = some v := by
  obtain ⟨hlt, he, -⟩ := List.findIdx?_eq_some_iff_getElem.mp h
  rw [List.getElem?_eq_getElem hlt, eq_of_beq he]

/-- Four letters of a word have that word as their only candidate. -/
theorem candidatas_eq {i : Nat} {w : String} {p : List Char} (hw : lista.palabras[i]? = some w)
    (hp : p <+: w.toList) (h4 : prefijoSuficiente ≤ p.length) :
    (lista.palabras.zipIdx.filter fun v => p.isPrefixOf v.1.toList).map Prod.snd = [i] := by
  have ht := take_prefijo hp (.inr h4)
  refine filter_zipIdx_eq (f := fun v => p.isPrefixOf v.toList) hw ?_ ?_
  · exact List.isPrefixOf_iff_prefix.mpr hp
  · intro j v hv hvp
    have hvt := take_prefijo (List.isPrefixOf_iff_prefix.mp hvp) (.inr h4)
    exact Lista.indice_eq hv hw (hvt.trans ht.symm)

theorem indiceDe_eq {i : Nat} {w : String} {p : List Char} (hw : lista.palabras[i]? = some w)
    (hn : p ≠ []) (hp : p <+: w.toList)
    (ho : p = w.toList ∨ prefijoSuficiente ≤ p.length) (posicion : Nat) :
    indiceDe lista.palabras (String.ofList p) posicion = .ok (UInt32.ofNat i) := by
  have ht := take_prefijo hp ho
  have hl : (String.ofList p).toList = p := String.toList_ofList
  have hne : String.ofList p ≠ "" := by
    intro he
    have hnil := congrArg String.toList he
    rw [hl] at hnil
    exact hn hnil
  rw [indiceDe, if_neg hne]
  split
  next j hj =>
    have hij : j = i := Lista.indice_eq (getElem?_of_idxOf? hj) hw (by rw [hl, ht])
    rw [hij]
  next hj =>
    have h4 : prefijoSuficiente ≤ p.length := by
      apply ho.resolve_left
      intro he
      have hmem : String.ofList p ∈ lista.palabras := by
        rw [he, String.ofList_toList]
        exact List.mem_of_getElem? hw
      exact List.idxOf?_eq_none_iff.mp hj hmem
    simp only [hl, candidatas_eq hw hp h4]
    exact if_pos h4

def Lista.en (lista : Lista) (i : Nat) : String := lista.palabras.getD i ""

theorem Lista.getElem?_en (lista : Lista) {i : Nat} (h : i < palabrasEnLaLista) :
    lista.palabras[i]? = some (lista.en i) := by
  have hi : i < lista.palabras.length := by rwa [lista.cuenta]
  rw [Lista.en, List.getD_eq_getElem?_getD, List.getElem?_eq_getElem hi]
  rfl

/-- The words that write `datos` and the digest `suma`. -/
def frase (lista : Lista) (datos : List UInt8) (suma : Arr 32) (m : Nat) : List String :=
  (List.range m).map fun p => lista.en (bits (datos ++ suma.toList) (p * 11) 11)

theorem frase_getElem? {suma : Arr 32} {m p : Nat} (hp : p < m) :
    (frase lista datos suma m)[p]? =
      some (lista.en (bits (datos ++ suma.toList) (p * 11) 11)) := by
  rw [frase, List.getElem?_map, List.getElem?_range hp]
  rfl

theorem frase_mem {suma : Arr 32} {m : Nat} {w : String} (h : w ∈ frase lista datos suma m) :
    w ∈ lista.palabras := by
  obtain ⟨p, -, rfl⟩ := List.mem_map.mp h
  exact List.mem_of_getElem? (lista.getElem?_en (bits_lt _ _ 11))

theorem escribir_eq (lista : Lista) (sha256 : List UInt8 → Arr 32) {m : Nat}
    (h : datos.length ∈ tamanos) (hm : m * 11 = 8 * datos.length + datos.length * 8 / 32) :
    escribir lista sha256 datos =
      .ok (" ".intercalate (frase lista datos (sha256 datos) m)) := by
  have hf : (indicesEscritos (datos ++ (sha256 datos).toList) m).mapM
      (palabraDe lista.palabras) = .ok (frase lista datos (sha256 datos) m) := by
    rw [indicesEscritos, List.mapM_map]
    apply Res.mapM_of_ok
    intro p hp
    have hb := bits_lt (datos ++ (sha256 datos).toList) (p * 11) 11
    apply palabraDe_eq_ok.mpr
    rw [UInt32.toNat_ofNat', Nat.mod_eq_of_lt (by omega)]
    exact lista.getElem?_en hb
  rw [escribir, escribirDe, palabrasDe_eq h hm, hf]
  rfl

/-- Every word of a copy gives the index that was written. -/
theorem indices_eq {suma : Arr 32} {m : Nat} {crudas : List (List Char)}
    (h : List.Forall₂ Manuscrita (frase lista datos suma m) crudas) :
    indicesDe lista.palabras crudas = .ok (indicesEscritos (datos ++ suma.toList) m) := by
  have hl : crudas.length = m := by
    rw [← h.length_eq, frase, List.length_map, List.length_range]
  have hm : indicesDe lista.palabras crudas = .ok (crudas.zipIdx.map fun cruda =>
        UInt32.ofNat (bits (datos ++ suma.toList) (cruda.2 * 11) 11)) := by
    apply Res.mapM_of_ok
    rintro ⟨cruda, p⟩ hx
    have hc := List.mk_mem_zipIdx_iff_getElem?.mp hx
    obtain ⟨hp, he⟩ := List.getElem?_eq_some_iff.mp hc
    have hw : (frase lista datos suma m)[p]? =
        some (lista.en (bits (datos ++ suma.toList) (p * 11) 11)) := frase_getElem? (hl ▸ hp)
    have hm : Manuscrita (lista.en (bits (datos ++ suma.toList) (p * 11) 11)) cruda := by
      obtain ⟨hlt, hf⟩ := List.getElem?_eq_some_iff.mp hw
      rw [← hf, ← he]
      exact h.get hlt hp
    have hi := lista.getElem?_en (bits_lt (datos ++ suma.toList) (p * 11) 11)
    obtain ⟨q, hn, hq, ho, hc, -, -⟩ := hm.prefijo (List.mem_of_getElem? hi)
    show indiceDe lista.palabras (limpiar cruda) (p + 1) = _
    rw [hc, indiceDe_eq hi hn hq ho]
  have hr : crudas.zipIdx.map (fun cruda =>
      UInt32.ofNat (bits (datos ++ suma.toList) (cruda.2 * 11) 11)) =
        (crudas.zipIdx.map Prod.snd).map fun p =>
          UInt32.ofNat (bits (datos ++ suma.toList) (p * 11) 11) := by
    rw [List.map_map]
    rfl
  rw [hm, hr, List.zipIdx_map_snd, hl, indicesEscritos, List.range_eq_range']

theorem leer_copia {sha256 : List UInt8 → Arr 32} {m : Nat} {texto : String}
    (hm : m * 11 = 8 * datos.length + datos.length * 8 / 32)
    (hb : bytesDe m = .ok datos.length)
    (ht : Copia (frase lista datos (sha256 datos) m) texto.toList) :
    leer lista sha256 texto = .ok datos := by
  have hs : List.Forall₂ Manuscrita (frase lista datos (sha256 datos) m)
      (splitWhitespace texto) := ht.trozos fun w hw => frase_mem hw
  have hl : (indicesEscritos (datos ++ (sha256 datos).toList) m).length = m := by
    rw [indicesEscritos, List.length_map, List.length_range]
  apply (leerDe_iff (indices_eq hs) indicesEscritos_lt (hl.symm ▸ hb)).mpr
  exact ⟨rfl, by rw [numeroDe_escritos, hm]⟩

theorem Lista.sinEspacio {w : String} (hw : w ∈ lista.palabras) : ' ' ∉ w.toList := by
  intro h
  have hc := lista.minusculas w hw ' ' h
  exact absurd hc.1 (by decide)

/-- A phrase has one reading as words of the list. -/
theorem intercalate_inj {ws vs : List String} (hw : ∀ w ∈ ws, w ∈ lista.palabras)
    (hv : ∀ v ∈ vs, v ∈ lista.palabras) (hn : vs ≠ [])
    (h : " ".intercalate ws = " ".intercalate vs) : ws = vs := by
  have hs {us : List String} (hu : ∀ u ∈ us, u ∈ lista.palabras) (h0 : us ≠ []) :
      (" ".intercalate us).toList.splitOn ' ' = us.map String.toList := by
    rw [String.toList_intercalate]
    apply List.splitOn_intercalate
    · intro l hl
      obtain ⟨u, hm, rfl⟩ := List.mem_map.mp hl
      exact Lista.sinEspacio (hu u hm)
    · exact fun he => h0 (List.map_eq_nil_iff.mp he)
  have hws : ws ≠ [] := by
    rintro rfl
    have he := hs hv hn
    rw [← h, String.intercalate_nil] at he
    obtain ⟨v, vs, rfl⟩ := List.exists_cons_of_ne_nil hn
    have hnil : v.toList = [] := (List.cons.inj he).1.symm
    exact Lista.toList_ne_nil (hv v List.mem_cons_self) hnil
  have hl := hs hw hws
  rw [h, hs hv hn] at hl
  exact (List.map_injective_iff.mpr (fun _ _ he => String.toList_inj.mp he) hl).symm

/-- What `escribir` gives is read back from every copy by hand. -/
theorem palabras_sobreviven (lista : Lista) (sha256 : List UInt8 → Arr 32) (datos : List UInt8)
    (h : datos.length ∈ tamanos) :
    (∃ ws, (∀ w ∈ ws, w ∈ lista.palabras) ∧
      escribir lista sha256 datos = .ok (" ".intercalate ws)) ∧
    ∀ ws : List String, (∀ w ∈ ws, w ∈ lista.palabras) →
      escribir lista sha256 datos = .ok (" ".intercalate ws) →
        ∀ texto : String, Copia ws texto.toList → leer lista sha256 texto = .ok datos := by
  obtain ⟨m, hm, hb, h0, -⟩ := tamanos_spec h
  have he := escribir_eq lista sha256 h hm
  have hf : ∀ w ∈ frase lista datos (sha256 datos) m, w ∈ lista.palabras :=
    fun w hw => frase_mem hw
  have hn : frase lista datos (sha256 datos) m ≠ [] := by
    intro hnil
    have hl := congrArg List.length hnil
    rw [frase, List.length_map, List.length_range, List.length_nil] at hl
    omega
  refine ⟨⟨_, hf, he⟩, ?_⟩
  intro ws hw hws texto ht
  have hi := intercalate_inj hw hf hn (Except.ok.inj (hws.symm.trans he))
  exact leer_copia hm hb (hi ▸ ht)

theorem palabras_sobreviven_ceros :
    leer Lista.canonica (fun _ => sumaCeros) (" 1.ABAN abandon abandon abandon abandon abandon " ++
      "abandon abandon abandon abandon abandon\nabo-UT, ") = .ok (List.replicate 16 0) := by
  have hz := palabras_sobreviven Lista.canonica (fun _ => sumaCeros) (List.replicate 16 0)
    (by decide)
  have hw : escribir Lista.canonica (fun _ => sumaCeros) (List.replicate 16 0) =
      .ok (" ".intercalate (List.replicate 11 "abandon" ++ ["about"])) := by rfl
  have hl : ∀ w ∈ List.replicate 11 "abandon" ++ ["about"], w ∈ Lista.canonica.palabras := by
    decide +kernel
  have ha : Maltrata "aban".toList "1.ABAN".toList :=
    .intruso (by decide) (.intruso (by decide) (.letra (.inr (by decide)) (.letra (.inr (by decide))
      (.letra (.inr (by decide)) (.letra (.inr (by decide)) .nada)))))
  have hb : Maltrata "about".toList "abo-UT,".toList :=
    .letra (.inl rfl) (.letra (.inl rfl) (.letra (.inl rfl) (.intruso (by decide)
      (.letra (.inr (by decide)) (.letra (.inr (by decide)) (.intruso (by decide) .nada))))))
  have hu : Copia ["about"] ("".toList ++ "abo-UT,".toList ++ " ".toList) :=
    .ultima (by decide) ⟨_, List.prefix_rfl, .inl rfl, hb⟩ (by decide)
  apply hz.2 _ hl hw
  exact .otra (e := [' ']) (m := "1.ABAN".toList) (by decide)
    ⟨_, by decide, .inr (by decide), ha⟩ (by decide) (.igual _ (by decide) (.igual _ (by decide)
      (.igual _ (by decide) (.igual _ (by decide) (.igual _ (by decide) (.igual _ (by decide)
        (.igual _ (by decide) (.igual _ (by decide) (.igual _ (by decide)
          (.igual _ (by decide) hu))))))))))

end Quipu.Palabras
