import Quipu.EccRepair
import Quipu.Interleave
import Quipu.Papel
import Mathlib.Tactic.IntervalCases

namespace Quipu

namespace Papel

/-- Symbol `t` of a page has the header of index `j` and the share of `j`. -/
def EsSimbolo (total : Nat) (protegido : List UInt8) (j : Nat) (t : List UInt8) : Prop :=
  ∃ p, t = cabeceraDe total protegido.length j ++ p ∧ Lleva total j protegido p

@[simp] theorem length_repartir (total i : Nat) (bs : List UInt8) (trozos : List (List UInt8)) :
    (repartir total i bs trozos).length = trozos.length := by
  induction bs generalizing i trozos with
  | nil => rfl
  | cons b bs ih => rw [repartir, ih, List.length_modify]

theorem repartir_lleva {total : Nat} (ht : 0 < total) {cab : Nat → List UInt8}
    {hecho : List UInt8} (resto : List UInt8) {trozos : List (List UInt8)}
    (h : ∀ j < total, ∃ p, trozos[j]? = some (cab j ++ p) ∧ Lleva total j hecho p) :
    ∀ j < total, ∃ p, (repartir total hecho.length resto trozos)[j]? = some (cab j ++ p) ∧
      Lleva total j (hecho ++ resto) p := by
  induction resto generalizing hecho trozos with
  | nil => simpa [repartir] using h
  | cons b bs ih =>
    have hnext : ∀ j < total, ∃ p,
        (trozos.modify (hecho.length % total) (· ++ [b]))[j]? = some (cab j ++ p) ∧
          Lleva total j (hecho ++ [b]) p := by
      intro j hj
      obtain ⟨p, hp, hl⟩ := h j hj
      rw [List.getElem?_modify, hp]
      by_cases he : hecho.length % total = j
      · exact ⟨p ++ [b], by simp [he], hl.append_self he ht b⟩
      · exact ⟨p, by simp [he], hl.append_other he hj b⟩
    have hi := ih hnext
    rwa [List.length_append, List.length_singleton, List.append_assoc] at hi

/-- What `empaquetar` gives: one symbol for each index, of a page of at most 65535. -/
theorem empaquetar_ok {rs : ReedSolomon} {datos : List UInt8} {capacidad : Nat}
    {paridad : UInt8} {trozos : List (List UInt8)}
    (h : empaquetar rs datos capacidad paridad = .ok trozos) :
    ∃ simbolo : Nat → List UInt8,
      trozos = (List.range trozos.length).map simbolo ∧
        0 < trozos.length ∧ trozos.length < 2 ^ 16 ∧ paridad ≤ Ecc.paridadMaxima ∧
        ∀ j < trozos.length,
          EsSimbolo trozos.length (Ecc.protect rs datos paridad) j (simbolo j) := by
  simp only [empaquetar, Res.bind_ok, rechazarSi_eq_ok, Res.pure_eq_ok, exists_const] at h
  obtain ⟨_, hpar, htot, hr⟩ := h
  generalize hn : max (divCeil (Ecc.protect rs datos paridad).length (capacidad - cabecera)) 1 =
    total at htot hr
  have hlen : trozos.length = total := by
    rw [← hr]
    simp
  rw [hlen]
  have hcabs : ∀ j < total, ∃ p,
      ((List.range total).map (cabeceraDe total (Ecc.protect rs datos paridad).length))[j]? =
        some (cabeceraDe total (Ecc.protect rs datos paridad).length j ++ p) ∧
      Lleva total j [] p :=
    fun j hj => ⟨[], by simp [hj], lleva_nil total j⟩
  have hdist := repartir_lleva (by omega) (Ecc.protect rs datos paridad) hcabs
  rw [List.length_nil, hr, List.nil_append] at hdist
  refine ⟨fun j => trozos.getD j [], ?_, by omega, by omega, by simpa using hpar, ?_⟩
  · refine List.ext_getElem (by simp [hlen]) fun j h₁ h₂ => ?_
    simp [h₁]
  · intro j hj
    obtain ⟨p, hp, hl⟩ := hdist j hj
    exact ⟨p, by simp [hp], hl⟩

theorem exists_empaquetar (rs : ReedSolomon) (datos : List UInt8) (capacidad : Nat)
    (paridad : UInt8) {total : Nat} (hc : cabecera < capacidad) (hp : paridad ≤ Ecc.paridadMaxima)
    (hn : max (divCeil (Ecc.protect rs datos paridad).length (capacidad - cabecera)) 1 = total)
    (ht : total ≤ 65535) :
    ∃ trozos, empaquetar rs datos capacidad paridad = .ok trozos ∧ trozos.length = total := by
  refine ⟨repartir total 0 (Ecc.protect rs datos paridad)
    ((List.range total).map (cabeceraDe total (Ecc.protect rs datos paridad).length)), ?_, by simp⟩
  simp only [empaquetar, Res.bind_ok, rechazarSi_eq_ok, Res.pure_eq_ok, exists_const]
  exact ⟨Nat.not_le.mpr hc, UInt8.not_lt.mpr hp, by rw [hn]; omega, by rw [hn]⟩

@[simp] theorem length_colocar (total j k : Nat) (bs flujo : List UInt8) :
    (colocar total j k bs flujo).length = flujo.length := by
  induction bs generalizing k flujo with
  | nil => rfl
  | cons b bs ih =>
    rw [colocar]
    split
    next => rfl
    next pos _ =>
      split
      next => rfl
      next => rw [ih, List.length_set]

theorem posicion_siguiente {total j k pos : Nat} (hj : j < total) (hm : pos % total = j)
    (hle : j + k * total ≤ pos) (hne : pos ≠ j + k * total) : j + (k + 1) * total ≤ pos := by
  have hd := Nat.mod_add_div pos total
  rw [hm, Nat.mul_comm] at hd
  have hk : k ≤ pos / total := Nat.le_of_mul_le_mul_right (by omega) (by omega : 0 < total)
  have hk' : k ≠ pos / total := by
    rintro rfl
    omega
  have := Nat.mul_le_mul_right total (by omega : k + 1 ≤ pos / total)
  omega

/-- Placing the share of `j` from its `k`-th byte on restores those positions and no other. -/
theorem colocar_lleva {total j k : Nat} (hj : j < total) {xs bs flujo : List UInt8}
    (hx : xs.length < 2 ^ 32) (hl : flujo.length = xs.length)
    (h : ∀ m, bs[m]? = xs[j + (k + m) * total]?) (pos : Nat) :
    (colocar total j k bs flujo)[pos]? =
      if pos % total = j ∧ j + k * total ≤ pos then xs[pos]? else flujo[pos]? := by
  induction bs generalizing k flujo with
  | nil =>
    rw [colocar]
    split
    next hc =>
      have h₀ := h 0
      rw [List.getElem?_nil, eq_comm, List.getElem?_eq_none_iff] at h₀
      rw [List.getElem?_eq_none (by simp at h₀; omega),
        List.getElem?_eq_none (by simp at h₀; omega)]
    next => rfl
  | cons b bs ih =>
    have h₀ := h 0
    rw [List.getElem?_cons_zero, eq_comm, Nat.add_zero] at h₀
    obtain ⟨hlt, hb⟩ := List.getElem?_eq_some_iff.mp h₀
    have hch : (checkedMul k total).bind (checkedAdd j) = some (j + k * total) := by
      rw [checkedMul, if_pos (by unfold usizeMax; omega), Option.bind_some, checkedAdd,
        if_pos (by unfold usizeMax; omega)]
    rw [colocar, hch]
    simp only
    rw [if_neg (by omega), ih (by rw [List.length_set, hl])]
    · by_cases hpos : pos = j + k * total
      · subst pos
        have hmod : (j + k * total) % total = j := by
          rw [Nat.add_mul_mod_self_right, Nat.mod_eq_of_lt hj]
        rw [if_neg (by rw [Nat.succ_mul]; omega), if_pos ⟨hmod, Nat.le_refl _⟩,
          List.getElem?_set_self (by omega), h₀]
      · rw [List.getElem?_set_ne (Ne.symm hpos)]
        refine if_congr ⟨fun hc => ⟨hc.1, ?_⟩, fun hc => ⟨hc.1, ?_⟩⟩ rfl rfl
        · have := hc.2
          rw [Nat.succ_mul] at this
          omega
        · exact posicion_siguiente hj hc.1 hc.2 hpos
    · intro m
      have hm := h (m + 1)
      rw [List.getElem?_cons_succ] at hm
      have hk : k + (m + 1) = k + 1 + m := by omega
      rw [hm, hk]

/-- The loop over symbols of one page, none of them twice, restores exactly their positions. -/
theorem recorrer_simbolos {total : Nat} (ht : total < 2 ^ 16) {xs : List UInt8}
    (hx : xs.length < 2 ^ 32) (i₀ : Nat) {simbolo : Nat → List UInt8}
    (hs : ∀ j < total, EsSimbolo total xs j (simbolo j)) {js : List Nat} (hn : js.Nodup)
    (hjs : ∀ j ∈ js, j < total) {vistos : List Bool} {flujo : List UInt8}
    (hv : ∀ j ∈ js, vistos[j]?.getD false = false) (hl : flujo.length = xs.length) :
    ∃ flujo', recorrer ⟨i₀, total, xs.length⟩ (js.map simbolo) vistos flujo = .ok flujo' ∧
      flujo'.length = xs.length ∧
      ∀ pos, flujo'[pos]? = if pos % total ∈ js then xs[pos]? else flujo[pos]? := by
  induction js generalizing vistos flujo with
  | nil => exact ⟨flujo, rfl, hl, fun pos => by simp⟩
  | cons j js ih =>
    obtain ⟨hj, hn⟩ := List.nodup_cons.mp hn
    have hjt := hjs j List.mem_cons_self
    obtain ⟨p, hp, hlleva⟩ := hs j hjt
    have hv' : ∀ i ∈ js, (vistos.set j true)[i]?.getD false = false := by
      intro i hi
      have hne : j ≠ i := fun he => hj (he ▸ hi)
      rw [List.getElem?_set_ne hne]
      exact hv i (List.mem_cons_of_mem _ hi)
    have hl' : (colocar total j 0 p flujo).length = xs.length := by
      rw [length_colocar, hl]
    obtain ⟨flujo', hr, hlen, hpos⟩ :=
      ih hn (fun i hi => hjs i (List.mem_cons_of_mem _ hi)) hv' hl'
    refine ⟨flujo', ?_, hlen, fun pos => ?_⟩
    · rw [List.map_cons, hp, recorrer, leerCabecera_cabeceraDe (by omega) ht hx, Res.ok_bind,
        rechazarSi_of_not _ (by simp; omega), Res.ok_bind,
        rechazarSi_of_not _ (by simp [hv j List.mem_cons_self]), Res.ok_bind]
      simpa [cabecera] using hr
    · rw [hpos pos, colocar_lleva hjt hx hl (fun m => by rw [Nat.zero_add]; exact hlleva m)]
      by_cases hin : pos % total ∈ js
      · rw [if_pos hin, if_pos (List.mem_cons_of_mem _ hin)]
      · rw [if_neg hin]
        refine if_congr ⟨fun hc => List.mem_cons.mpr (Or.inl hc.1), fun hc => ?_⟩ rfl rfl
        obtain rfl := (List.mem_cons.mp hc).resolve_right hin
        exact ⟨rfl, by rw [Nat.zero_mul, Nat.add_zero]; exact Nat.mod_le pos total⟩

theorem le_foldl_max (n : Nat) (ns : List Nat) :
    n ≤ ns.foldl max n ∧ ∀ m ∈ ns, m ≤ ns.foldl max n := by
  induction ns generalizing n with
  | nil => simp
  | cons a ns ih =>
    obtain ⟨hle, hmem⟩ := ih (max n a)
    simp only [List.foldl_cons, List.mem_cons]
    refine ⟨by omega, fun m hm => ?_⟩
    rcases hm with rfl | hm
    · omega
    · exact hmem m hm

/-- The guard against an inflated length lets every true page through. -/
theorem largo_le_techo {total : Nat} (ht : 0 < total) {xs : List UInt8}
    (hx : xs.length < 2 ^ 32) {j : Nat} (hj : j < total) {t : List UInt8}
    (h : EsSimbolo total xs j t) {trozos : List (List UInt8)} (hm : t ∈ trozos) :
    xs.length ≤ saturatingMul total (saturatingAdd (mayorCarga trozos) 1) := by
  obtain ⟨p, rfl, hp⟩ := h
  have hq := hp.div_le_length hj
  have hmax : p.length ≤ mayorCarga trozos := by
    refine (le_foldl_max 0 _).2 _ (List.mem_map.mpr ⟨_, hm, ?_⟩)
    simp [cabecera]
  have hdiv := Nat.div_add_mod xs.length total
  have hmod := Nat.mod_lt xs.length ht
  have hmul := Nat.mul_le_mul_left total (hq.trans hmax)
  unfold saturatingMul saturatingAdd usizeMax
  rcases Nat.le_total (mayorCarga trozos + 1) (2 ^ 64 - 1) with hs | hs
  · rw [Nat.min_eq_left hs, Nat.mul_add]
    omega
  · rw [Nat.min_eq_right hs]
    have := Nat.le_mul_of_pos_left (2 ^ 64 - 1) ht
    omega

/-- The tolerated losses leave some symbol, and no window of the header or of a block loses
more than its own code corrects. -/
theorem simbolosPerdidosTolerados_le {total : Nat} (ht : 0 < total) (paridad : UInt8) :
    simbolosPerdidosTolerados total paridad < total ∧
      simbolosPerdidosTolerados total paridad * divCeil 15 total ≤ 5 ∧
      simbolosPerdidosTolerados total paridad * divCeil 255 total ≤ paridad.toNat / 2 := by
  have hcab : (if cabeceraEcc ≤ total then cabeceraEccCorrige
      else cabeceraEccCorrige / divCeil cabeceraEcc total) < total ∧
      (if cabeceraEcc ≤ total then cabeceraEccCorrige
        else cabeceraEccCorrige / divCeil cabeceraEcc total) * divCeil 15 total ≤ 5 := by
    unfold cabeceraEcc cabeceraEccCorrige
    by_cases h : 15 ≤ total
    · have hone : divCeil 15 total = 1 := by
        have hsum : 15 + total - 1 = 14 + total := by omega
        rw [divCeil, hsum, Nat.add_div_right _ ht, Nat.div_eq_of_lt (by omega)]
      rw [if_pos h, hone]
      omega
    · rw [if_neg h]
      interval_cases total <;> decide
  have hdat : (paridad.toNat / 2 / max (divCeil bloqueRs total) 1) * divCeil 255 total ≤
      paridad.toNat / 2 := by
    refine (Nat.mul_le_mul_left _ ?_).trans (Nat.div_mul_le_self _ _)
    exact Nat.le_max_left _ _
  rw [simbolosPerdidosTolerados, if_neg (by omega)]
  refine ⟨(Nat.min_le_right _ _).trans_lt hcab.1, ?_, ?_⟩
  · exact (Nat.mul_le_mul_right _ (Nat.min_le_right _ _)).trans hcab.2
  · exact (Nat.mul_le_mul_right _ (Nat.min_le_left _ _)).trans hdat

/-- A stream that is wrong only at the positions of the tolerated number of symbols is
repaired. -/
theorem recover_of_perdidos {rs : ReedSolomon} (hrs : rs.Corrige) {datos flujo : List UInt8}
    {paridad : UInt8} {total : Nat} {ps : List Nat} (ht : 0 < total)
    (hpar : paridad ≤ Ecc.paridadMaxima)
    (hlargo : (Ecc.protect rs datos paridad).length < 2 ^ 32)
    (hfl : flujo.length = (Ecc.protect rs datos paridad).length)
    (hn : ps.length ≤ simbolosPerdidosTolerados total paridad)
    (hps : ∀ i, flujo[i]? ≠ (Ecc.protect rs datos paridad)[i]? → i % total ∈ ps) :
    Ecc.recover rs flujo = some datos := by
  obtain ⟨_, h15, h255⟩ := simbolosPerdidosTolerados_le ht paridad
  have herr : ∀ s n, errores ((flujo.drop s).take n)
      (((Ecc.protect rs datos paridad).drop s).take n) ≤ ps.length * divCeil n total := by
    intro s n
    rw [errores_window]
    refine (erroresEn_le ht ps.toFinset (fun i hi => ?_) s n).trans
      (Nat.mul_le_mul_right _ ps.toFinset_card_le)
    exact List.mem_toFinset.mpr (hps i hi)
  have hlen := Ecc.length_protect rs datos paridad
  have hcuerpo := Ecc.le_length_cuerpo rs (Ecc.ajustar_mem paridad).2 datos
  refine Ecc.recover_of_errores hrs (by omega) hfl ?_ fun j => ?_
  · exact (herr 0 15).trans ((Nat.mul_le_mul_right _ hn).trans h15)
  · rw [Ecc.tramo, Ecc.tramo, List.drop_drop, List.drop_drop]
    exact (herr _ 255).trans ((Nat.mul_le_mul_right _ hn).trans
      (h255.trans (Ecc.half_le_ajustar hpar)))

theorem length_protect_pos (rs : ReedSolomon) (datos : List UInt8) (paridad : UInt8) :
    0 < (Ecc.protect rs datos paridad).length := by
  have := Ecc.length_protect rs datos paridad
  omega

/-- Any symbols of a page, none of them twice, reach the decoder as the stream of the page with
zeros where a symbol is missing. -/
theorem reensamblar_simbolos (rs : ReedSolomon) {total : Nat} (ht : 0 < total)
    (ht' : total < 2 ^ 16) {xs : List UInt8} (hpos : 0 < xs.length) (hx : xs.length < 2 ^ 32)
    {simbolo : Nat → List UInt8} (hs : ∀ j < total, EsSimbolo total xs j (simbolo j))
    {ls : List Nat} (hne : ls ≠ []) (hn : ls.Nodup) (hls : ∀ j ∈ ls, j < total) :
    ∃ flujo, flujo.length = xs.length ∧
      (∀ i, flujo[i]? ≠ xs[i]? → i % total ∉ ls) ∧
      reensamblar rs (ls.map simbolo) =
        match Ecc.recover rs flujo with
        | some datos => .ok datos
        | none => fallar .noSeRecupera := by
  obtain ⟨l₀, ls', rfl⟩ := List.exists_cons_of_ne_nil hne
  have hl₀ := hls l₀ List.mem_cons_self
  have hvistos : ∀ j ∈ l₀ :: ls', (List.replicate total false)[j]?.getD false = false := by
    intro j hj
    rw [List.getElem?_replicate, if_pos (hls j hj)]
    rfl
  obtain ⟨flujo, hr, hfl, hget⟩ :=
    recorrer_simbolos ht' hx l₀ hs hn hls hvistos (List.length_replicate (a := (0 : UInt8)))
  refine ⟨flujo, hfl, fun i hi hin => hi ?_, ?_⟩
  · rw [hget i, if_pos hin]
  have hcab : leerCabecera (simbolo l₀) = .ok ⟨l₀, total, xs.length⟩ := by
    obtain ⟨p, hp, _⟩ := hs l₀ hl₀
    rw [hp]
    exact leerCabecera_cabeceraDe (by omega) ht' hx p
  rw [List.map_cons] at hr ⊢
  have hmem : simbolo l₀ ∈ simbolo l₀ :: ls'.map simbolo := List.mem_cons_self
  have htecho := largo_le_techo ht hx hl₀ (hs l₀ hl₀) hmem
  have hcero : ¬(total = 0 ∨ xs.length = 0) := by omega
  rw [reensamblar, hcab, Res.ok_bind, rechazarSi_of_not _ hcero, Res.ok_bind]
  simp only
  rw [rechazarSi_of_not _ (Nat.not_lt.mpr htecho), Res.ok_bind, hr, Res.ok_bind]
  cases Ecc.recover rs flujo with
  | none => rfl
  | some datos => rfl

/-- The symbols of the indices `ls` give the data back when the rest, `ps`, can be lost. -/
theorem reensamblar_indices {rs : ReedSolomon} (hrs : rs.Corrige) {datos : List UInt8}
    {paridad : UInt8} {total : Nat} (ht : 0 < total) (ht' : total < 2 ^ 16)
    (hpar : paridad ≤ Ecc.paridadMaxima)
    (hlargo : (Ecc.protect rs datos paridad).length < 2 ^ 32) {simbolo : Nat → List UInt8}
    (hs : ∀ j < total, EsSimbolo total (Ecc.protect rs datos paridad) j (simbolo j))
    {ps ls : List Nat} (hjs : (ps ++ ls).Perm (List.range total))
    (hn : ps.length ≤ simbolosPerdidosTolerados total paridad) :
    reensamblar rs (ls.map simbolo) = .ok datos := by
  have hnodup : ls.Nodup := (List.nodup_append.mp (hjs.nodup_iff.mpr List.nodup_range)).2.1
  have hls : ∀ j ∈ ls, j < total := fun j hj =>
    List.mem_range.mp (hjs.subset (List.mem_append_right ps hj))
  have hlt := (simbolosPerdidosTolerados_le ht paridad).1
  have hne : ls ≠ [] := by
    rintro rfl
    have := hjs.length_eq
    simp at this
    omega
  obtain ⟨flujo, hfl, hget, hr⟩ := reensamblar_simbolos rs ht ht'
    (length_protect_pos rs datos paridad) hlargo hs hne hnodup hls
  have hrec : Ecc.recover rs flujo = some datos := by
    refine recover_of_perdidos hrs ht hpar hlargo hfl hn fun i hi => ?_
    have hmem := hjs.symm.subset (List.mem_range.mpr (Nat.mod_lt i ht))
    exact (List.mem_append.mp hmem).resolve_right (hget i hi)
  rw [hr, hrec]

/-- Whatever symbols are lost within the tolerated number, the rest give the data back, in
whatever order they are read. -/
theorem reensamblar_empaquetar (rs : ReedSolomon) (hrs : rs.Corrige) (datos : List UInt8)
    (capacidad : Nat) (paridad : UInt8) (trozos perdidos leidos : List (List UInt8))
    (h : empaquetar rs datos capacidad paridad = .ok trozos)
    (hlargo : (Ecc.protect rs datos paridad).length < 2 ^ 32)
    (hp : (perdidos ++ leidos).Perm trozos)
    (hn : perdidos.length ≤ simbolosPerdidosTolerados trozos.length paridad) :
    reensamblar rs leidos = .ok datos := by
  obtain ⟨simbolo, htr, ht, ht', hpar, hs⟩ := empaquetar_ok h
  obtain ⟨js, hjs, hmap⟩ := exists_map_of_perm simbolo (htr ▸ hp)
  obtain ⟨ps, ls, rfl, rfl, rfl⟩ := List.map_eq_append_iff.mp hmap.symm
  rw [List.length_map] at hn
  exact reensamblar_indices hrs ht ht' hpar hlargo hs hjs hn

theorem exists_empaquetar_tres (rs : ReedSolomon) :
    ∃ trozos, empaquetar rs [1, 2, 3] 16 128 = .ok trozos ∧ trozos.length = 21 ∧
      (Ecc.protect rs [1, 2, 3] 128).length = 146 := by
  have hlen : (Ecc.protect rs [1, 2, 3] 128).length = 146 := by
    have h128 : (Ecc.ajustar 128).toNat = 128 := by decide
    rw [Ecc.length_protect, h128, Ecc.cuerpo_of_ne_nil (Nat.le_refl _) (by simp)]
    simp [Ecc.cuerpo]
  have htotal : max (divCeil (Ecc.protect rs [1, 2, 3] 128).length (16 - cabecera)) 1 = 21 := by
    rw [hlen]
    decide
  obtain ⟨trozos, h, ht⟩ :=
    exists_empaquetar rs [1, 2, 3] 16 128 (by decide) (by decide) htotal (by decide)
  exact ⟨trozos, h, ht, hlen⟩

theorem reensamblar_empaquetar_tres :
    ∃ (rs : ReedSolomon) (trozos : List (List UInt8)), rs.Corrige ∧
      empaquetar rs [1, 2, 3] 16 128 = .ok trozos ∧
      reensamblar rs (trozos.drop 2).reverse = .ok [1, 2, 3] := by
  obtain ⟨rs, hrs⟩ := ReedSolomon.exists_corrige
  obtain ⟨trozos, h, ht, hlen⟩ := exists_empaquetar_tres rs
  refine ⟨rs, trozos, hrs, h, reensamblar_empaquetar rs hrs [1, 2, 3] 16 128 trozos
    (trozos.take 2) (trozos.drop 2).reverse h (by omega) ?_ ?_⟩
  · calc (trozos.take 2 ++ (trozos.drop 2).reverse).Perm (trozos.take 2 ++ trozos.drop 2) :=
        (List.reverse_perm _).append_left _
      _ = trozos := List.take_append_drop 2 trozos
  · rw [List.length_take, ht]
    decide

end Papel

end Quipu
