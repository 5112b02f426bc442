import Quipu.PapelLoss

namespace Quipu

namespace Papel

def indiceDe (t : List UInt8) : Nat := ofBe ((t.drop 1).take 2)

def totalDe (t : List UInt8) : Nat := ofBe ((t.drop 3).take 2)

def largoDe (t : List UInt8) : Nat := ofBe ((t.drop 5).take 4)

/-- `t` is a symbol of some page of `total` symbols and `largo` bytes. -/
structure Encaja (total largo : Nat) (t : List UInt8) : Prop where
  cabe : cabecera ≤ t.length
  conocida : t[0]? = some version
  total_eq : totalDe t = total
  largo_eq : largoDe t = largo
  indice_lt : indiceDe t < total

/-- What the loop over the symbols does to the stream with one of them. -/
def poner (total : Nat) (flujo t : List UInt8) : List UInt8 :=
  colocar total (indiceDe t) 0 (t.drop cabecera) flujo

/-- The symbols that `reensamblar` takes for one page, with no word about their order. -/
structure Hoja (total largo : Nat) (trozos : List (List UInt8)) : Prop where
  ne_nil : trozos ≠ []
  total_pos : 0 < total
  largo_pos : 0 < largo
  encajan : ∀ t ∈ trozos, Encaja total largo t
  nodup : (trozos.map indiceDe).Nodup
  bajo_techo : largo ≤ saturatingMul total (saturatingAdd (mayorCarga trozos) 1)

theorem leerCabecera_eq_ok {t : List UInt8} {c : Cabecera} :
    leerCabecera t = .ok c ↔
      cabecera ≤ t.length ∧ t[0]? = some version ∧ c = ⟨indiceDe t, totalDe t, largoDe t⟩ := by
  simp only [leerCabecera, Res.bind_ok, rechazarSi_eq_ok, Res.pure_eq_ok, octeto_eq_ok,
    exists_const, Nat.not_lt, not_not, eq_comm (a := c)]
  constructor
  · rintro ⟨hl, v, hv, rfl, hc⟩
    exact ⟨hl, hv, hc⟩
  · rintro ⟨hl, hv, hc⟩
    exact ⟨hl, version, hv, rfl, hc⟩

theorem posicion_mod {total j k pos : Nat} (hj : j < total)
    (h : (checkedMul k total).bind (checkedAdd j) = some pos) : pos % total = j := by
  obtain ⟨m, hm, hp⟩ := Option.bind_eq_some_iff.mp h
  have hm' : m = k * total := by
    unfold checkedMul at hm
    split at hm
    next => exact (Option.some.inj hm).symm
    next => cases hm
  have hp' : pos = j + m := by
    unfold checkedAdd at hp
    split at hp
    next => exact (Option.some.inj hp).symm
    next => cases hp
  rw [hp', hm', Nat.add_mul_mod_self_right, Nat.mod_eq_of_lt hj]

theorem colocar_set {total j k pos : Nat} (hj : j < total) (hne : pos % total ≠ j) (b : UInt8)
    (bs flujo : List UInt8) :
    colocar total j k bs (flujo.set pos b) = (colocar total j k bs flujo).set pos b := by
  induction bs generalizing k flujo with
  | nil => rfl
  | cons c bs ih =>
    rw [colocar, colocar, List.length_set]
    cases hp : (checkedMul k total).bind (checkedAdd j) with
    | none => rfl
    | some p =>
      simp only
      by_cases hle : flujo.length ≤ p
      · rw [if_pos hle, if_pos hle]
      · have hpp : pos ≠ p := by
          rintro rfl
          exact hne (posicion_mod hj hp)
        rw [if_neg hle, if_neg hle, List.set_comm _ _ hpp, ih]

/-- Symbols with different indices write to different places. -/
theorem colocar_comm {total i j : Nat} (hi : i < total) (hj : j < total) (hne : i ≠ j)
    (m k : Nat) (bs cs flujo : List UInt8) :
    colocar total i m bs (colocar total j k cs flujo) =
      colocar total j k cs (colocar total i m bs flujo) := by
  induction cs generalizing k flujo with
  | nil => rfl
  | cons c cs ih =>
    rw [colocar, colocar, length_colocar]
    cases hp : (checkedMul k total).bind (checkedAdd j) with
    | none => rfl
    | some p =>
      simp only
      by_cases hle : flujo.length ≤ p
      · rw [if_pos hle, if_pos hle]
      · have hmod : p % total ≠ i := by
          rw [posicion_mod hj hp]
          exact hne.symm
        rw [if_neg hle, if_neg hle, ih, colocar_set hi hmod]

theorem foldl_poner_perm {total : Nat} {ts ts' : List (List UInt8)} (h : ts.Perm ts')
    (hlt : ∀ t ∈ ts, indiceDe t < total) (hn : (ts.map indiceDe).Nodup) (flujo : List UInt8) :
    ts.foldl (poner total) flujo = ts'.foldl (poner total) flujo := by
  refine h.foldl_eq' (fun t ht u hu flujo => ?_) flujo
  by_cases he : indiceDe t = indiceDe u
  · rw [List.inj_on_of_nodup_map hn ht hu he]
  · exact colocar_comm (hlt u hu) (hlt t ht) (Ne.symm he) 0 0 _ _ _

theorem visto_set_self {vistos : List Bool} {i : Nat} (hi : i < vistos.length) :
    (vistos.set i true).getD i false = true := by
  rw [List.getD_eq_getElem?_getD, List.getElem?_set_self hi, Option.getD_some]

theorem visto_set_ne {vistos : List Bool} {i j : Nat} (h : i ≠ j) :
    (vistos.set i true).getD j false = vistos.getD j false := by
  rw [List.getD_eq_getElem?_getD, List.getElem?_set_ne h, ← List.getD_eq_getElem?_getD]

theorem recorrer_eq_ok {c0 : Cabecera} {ts : List (List UInt8)} {vistos : List Bool}
    {flujo flujo' : List UInt8} (hv : vistos.length = c0.total) :
    recorrer c0 ts vistos flujo = .ok flujo' ↔
      (∀ t ∈ ts, Encaja c0.total c0.largo t) ∧ (ts.map indiceDe).Nodup ∧
        (∀ t ∈ ts, vistos.getD (indiceDe t) false = false) ∧
        flujo' = ts.foldl (poner c0.total) flujo := by
  induction ts generalizing vistos flujo with
  | nil =>
    rw [recorrer, Res.pure_eq_ok]
    simpa using eq_comm
  | cons t ts ih =>
    have hset : (vistos.set (indiceDe t) true).length = c0.total := by
      rw [List.length_set, hv]
    simp only [recorrer, Res.bind_ok, rechazarSi_eq_ok, leerCabecera_eq_ok, exists_const]
    constructor
    · rintro ⟨c, ⟨hl, hver, rfl⟩, hc, hvis, hr⟩
      simp only [not_or, not_not, Nat.not_le] at hc
      obtain ⟨ht, hlar, hind⟩ := hc
      obtain ⟨henc, hnod, hfal, hfin⟩ := (ih hset).mp hr
      have hnot : ∀ u ∈ ts, indiceDe u ≠ indiceDe t := by
        intro u hu he
        have hvisto := hfal u hu
        rw [he, visto_set_self (by omega)] at hvisto
        cases hvisto
      refine ⟨?_, ?_, ?_, hfin⟩
      · intro u hu
        rcases List.mem_cons.mp hu with rfl | hu
        · exact ⟨hl, hver, ht, hlar, hind⟩
        · exact henc u hu
      · refine List.nodup_cons.mpr ⟨fun hmem => ?_, hnod⟩
        obtain ⟨u, hu, he⟩ := List.mem_map.mp hmem
        exact hnot u hu he
      · intro u hu
        rcases List.mem_cons.mp hu with rfl | hu
        · simpa using hvis
        · exact (visto_set_ne (hnot u hu).symm).symm.trans (hfal u hu)
    · rintro ⟨henc, hnod, hfal, hfin⟩
      obtain ⟨hnt, hnod⟩ := List.nodup_cons.mp hnod
      have ht := henc t List.mem_cons_self
      refine ⟨_, ⟨ht.cabe, ht.conocida, rfl⟩, ?_, ?_, ?_⟩
      · simp only [not_or, not_not, Nat.not_le]
        exact ⟨ht.total_eq, ht.largo_eq, ht.indice_lt⟩
      · simpa using hfal t List.mem_cons_self
      · refine (ih hset).mpr ⟨fun u hu => henc u (List.mem_cons_of_mem _ hu), hnod, ?_, hfin⟩
        intro u hu
        have hne : indiceDe t ≠ indiceDe u := fun he => hnt (he ▸ List.mem_map_of_mem hu)
        exact (visto_set_ne hne).trans (hfal u (List.mem_cons_of_mem _ hu))

/-- When the reassembler returns data, told with no word about the order of the symbols but
in the fold of `poner`, which `foldl_poner_perm` frees of it. -/
theorem reensamblar_eq_ok {rs : ReedSolomon} {trozos : List (List UInt8)} {d : List UInt8} :
    reensamblar rs trozos = .ok d ↔
      ∃ total largo, Hoja total largo trozos ∧
        Ecc.recover rs (trozos.foldl (poner total) (List.replicate largo 0)) = some d := by
  cases trozos with
  | nil =>
    refine ⟨fun h => ?_, fun ⟨_, _, h, _⟩ => absurd rfl h.ne_nil⟩
    cases h
  | cons t ts =>
    have hvistos : (List.replicate (totalDe t) false).length =
        (⟨indiceDe t, totalDe t, largoDe t⟩ : Cabecera).total := List.length_replicate
    simp only [reensamblar, Res.bind_ok, rechazarSi_eq_ok, leerCabecera_eq_ok, exists_const]
    constructor
    · rintro ⟨c, ⟨_, _, rfl⟩, hcero, htecho, flujo, hr, hfin⟩
      obtain ⟨hpos, hpos'⟩ := not_or.mp hcero
      obtain ⟨henc, hnod, _, rfl⟩ := (recorrer_eq_ok hvistos).mp hr
      refine ⟨totalDe t, largoDe t, ⟨List.cons_ne_nil t ts, Nat.pos_of_ne_zero hpos,
        Nat.pos_of_ne_zero hpos', henc, hnod, Nat.not_lt.mp htecho⟩, ?_⟩
      split at hfin
      next datos hrec =>
        rw [hrec]
        simpa using hfin
      next => cases hfin
    · rintro ⟨total, largo, hh, hrec⟩
      have ht := hh.encajan t List.mem_cons_self
      have htot := ht.total_eq
      have hlar := ht.largo_eq
      subst htot hlar
      have hcero : ¬(totalDe t = 0 ∨ largoDe t = 0) :=
        not_or.mpr ⟨hh.total_pos.ne', hh.largo_pos.ne'⟩
      have hvis : ∀ u ∈ t :: ts,
          (List.replicate (totalDe t) false).getD (indiceDe u) false = false := by
        intro u hu
        simp [(hh.encajan u hu).indice_lt]
      refine ⟨_, ⟨ht.cabe, ht.conocida, rfl⟩, hcero, Nat.not_lt.mpr hh.bajo_techo, _,
        (recorrer_eq_ok hvistos).mpr ⟨hh.encajan, hh.nodup, hvis, rfl⟩, ?_⟩
      rw [hrec]
      rfl

theorem mayorCarga_perm {trozos trozos' : List (List UInt8)} (h : trozos.Perm trozos') :
    mayorCarga trozos = mayorCarga trozos' :=
  (h.map _).foldl_eq 0

theorem Hoja.perm {total largo : Nat} {trozos trozos' : List (List UInt8)}
    (hh : Hoja total largo trozos) (h : trozos.Perm trozos') : Hoja total largo trozos' where
  ne_nil := fun hnil => hh.ne_nil (h.trans (hnil ▸ List.Perm.refl _)).eq_nil
  total_pos := hh.total_pos
  largo_pos := hh.largo_pos
  encajan := fun t ht => hh.encajan t (h.symm.subset ht)
  nodup := (h.map indiceDe).nodup_iff.mp hh.nodup
  bajo_techo := mayorCarga_perm h ▸ hh.bajo_techo

theorem reensamblar_ok_perm {rs : ReedSolomon} {trozos trozos' : List (List UInt8)}
    (h : trozos.Perm trozos') {d : List UInt8} (hr : reensamblar rs trozos = .ok d) :
    reensamblar rs trozos' = .ok d := by
  obtain ⟨total, largo, hh, hrec⟩ := reensamblar_eq_ok.mp hr
  refine reensamblar_eq_ok.mpr ⟨total, largo, hh.perm h, ?_⟩
  rwa [← foldl_poner_perm h (fun t ht => (hh.encajan t ht).indice_lt) hh.nodup]

theorem leerCabecera_sinPanico (t : List UInt8) : (leerCabecera t).SinPanico := by
  unfold leerCabecera
  rw [rechazarSi_bind]
  refine Res.sinPanico_ite fun hl => ?_
  have h₀ : 0 < t.length := by
    unfold cabecera at hl
    omega
  rw [octeto_ok h₀, Res.ok_bind, rechazarSi_bind]
  exact Res.sinPanico_ite fun _ => Res.sinPanico_ok _

theorem recorrer_sinPanico (c0 : Cabecera) (ts : List (List UInt8)) (vistos : List Bool)
    (flujo : List UInt8) : (recorrer c0 ts vistos flujo).SinPanico := by
  induction ts generalizing vistos flujo with
  | nil => exact Res.sinPanico_ok flujo
  | cons t ts ih =>
    rw [recorrer]
    rcases leerCabecera_sinPanico t with ⟨c, hc⟩ | ⟨e, he⟩
    · rw [hc, Res.ok_bind, rechazarSi_bind]
      refine Res.sinPanico_ite fun _ => ?_
      rw [rechazarSi_bind]
      exact Res.sinPanico_ite fun _ => ih _ _
    · exact Or.inr ⟨e, by rw [he]; rfl⟩

theorem reensamblar_sinPanico (rs : ReedSolomon) (trozos : List (List UInt8)) :
    (reensamblar rs trozos).SinPanico := by
  cases trozos with
  | nil => exact Res.sinPanico_fallar PapelError.sinTrozos
  | cons t ts =>
    rw [reensamblar]
    rcases leerCabecera_sinPanico t with ⟨c, hc⟩ | ⟨e, he⟩
    · rw [hc, Res.ok_bind, rechazarSi_bind]
      refine Res.sinPanico_ite fun _ => ?_
      rw [rechazarSi_bind]
      refine Res.sinPanico_ite fun _ => ?_
      rcases recorrer_sinPanico c (t :: ts) (List.replicate c.total false)
        (List.replicate c.largo 0) with ⟨flujo, hf⟩ | ⟨e, he⟩
      · rw [hf, Res.ok_bind]
        split
        next d _ => exact Res.sinPanico_ok d
        next => exact Res.sinPanico_fallar PapelError.noSeRecupera
      · exact Or.inr ⟨e, by rw [he]; rfl⟩
    · exact Or.inr ⟨e, by rw [he]; rfl⟩

/-- The order in which the symbols are read decides nothing, not even for a hostile page. -/
theorem reensamblar_perm (rs : ReedSolomon) (trozos trozos' : List (List UInt8))
    (h : trozos.Perm trozos') :
    (∃ d, reensamblar rs trozos = .ok d ∧ reensamblar rs trozos' = .ok d) ∨
      ((reensamblar rs trozos).Rechaza ∧ (reensamblar rs trozos').Rechaza) := by
  rcases reensamblar_sinPanico rs trozos with ⟨d, hd⟩ | hr
  · exact Or.inl ⟨d, hd, reensamblar_ok_perm h hd⟩
  · rcases reensamblar_sinPanico rs trozos' with ⟨d, hd⟩ | hr'
    · exact absurd ⟨d, reensamblar_ok_perm h.symm hd⟩ hr.not_acepta
    · exact Or.inr ⟨hr, hr'⟩

theorem reensamblar_perm_danados :
    ∃ rs : ReedSolomon,
      (∃ d, reensamblar rs [version :: [0, 0, 0, 2, 0, 0, 0, 9, 7], [1, 2], []] = .ok d ∧
        reensamblar rs [[1, 2], [], version :: [0, 0, 0, 2, 0, 0, 0, 9, 7]] = .ok d) ∨
      ((reensamblar rs [version :: [0, 0, 0, 2, 0, 0, 0, 9, 7], [1, 2], []]).Rechaza ∧
        (reensamblar rs [[1, 2], [], version :: [0, 0, 0, 2, 0, 0, 0, 9, 7]]).Rechaza) := by
  obtain ⟨rs, _⟩ := ReedSolomon.exists_corrige
  exact ⟨rs, reensamblar_perm rs _ _ (by decide)⟩

end Papel

end Quipu
