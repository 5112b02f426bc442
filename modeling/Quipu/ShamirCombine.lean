import Quipu.ShamirPoly

namespace Quipu

namespace Shamir

open Aleatorio

/-- Shares that pass the checks of `combine`: of one threshold and length, enough, no index
twice. -/
structure Coherentes (threshold : UInt8) (largo : Nat) (shares : List Share) : Prop where
  ne_nil : shares ≠ []
  umbral : ∀ s ∈ shares, s.threshold = threshold
  largo : ∀ s ∈ shares, s.y.length = largo
  nodup : (shares.map Share.index).Nodup
  bastan : threshold.toNat ≤ shares.length

theorem Coherentes.nodup_take {threshold : UInt8} {largo : Nat} {shares : List Share}
    (h : Coherentes threshold largo shares) :
    ((shares.take threshold.toNat).map Share.index).Nodup :=
  h.nodup.sublist ((List.take_sublist _ _).map _)

theorem Coherentes.length_take {threshold : UInt8} {largo : Nat} {shares : List Share}
    (h : Coherentes threshold largo shares) :
    (shares.take threshold.toNat).length = threshold.toNat :=
  List.length_take_of_le h.bastan

theorem hayRepetidos_eq_false (shares : List Share) :
    hayRepetidos shares = false ↔ (shares.map Share.index).Nodup := by
  induction shares with
  | nil => simp [hayRepetidos]
  | cons a resto ih =>
    rw [hayRepetidos, Bool.or_eq_false_iff, ih, List.map_cons, List.nodup_cons]
    refine and_congr_left' ⟨fun h hm => ?_, fun h => ?_⟩
    · obtain ⟨b, hb, he⟩ := List.mem_map.mp hm
      have := List.any_eq_false.mp h b hb
      simp [he] at this
    · refine List.any_eq_false.mpr fun b hb he => h ?_
      rw [beq_iff_eq] at he
      exact he ▸ List.mem_map_of_mem hb

@[simp] theorem length_recuperar (usadas : List Share) (largo : Nat) :
    (recuperar usadas largo).length = largo := by
  simp [recuperar]

/-- The first share of a list that passes the checks. -/
theorem comprobar_eq_ok {shares : List Share} {primera : Share} :
    comprobar shares = .ok primera ↔
      shares.head? = some primera ∧ Coherentes primera.threshold primera.y.length shares := by
  cases shares with
  | nil =>
    refine iff_of_false ?_ fun h => h.2.ne_nil rfl
    intro h
    cases h
  | cons a resto =>
    simp only [comprobar, Res.bind_ok, rechazarSi_eq_ok, exists_const, Res.pure_eq_ok,
      Bool.not_eq_true, hayRepetidos_eq_false, List.any_eq_false, Bool.or_eq_true, bne_iff_ne,
      beq_iff_eq, not_or, not_not, List.head?_cons, Option.some.injEq]
    constructor
    · rintro ⟨hbastan, higuales, hnodup, rfl⟩
      exact ⟨rfl, List.cons_ne_nil _ _, fun s hs => (higuales s hs).1.1,
        fun s hs => (higuales s hs).1.2, hnodup, Nat.not_lt.mp hbastan⟩
    · rintro ⟨rfl, hc⟩
      exact ⟨Nat.not_lt.mpr hc.bastan, fun s hs => ⟨⟨hc.umbral s hs, hc.largo s hs⟩, s.indice⟩,
        hc.nodup, rfl⟩

/-- When `combine` returns a secret. -/
theorem combine_eq_ok {etiqueta : List UInt8 → Arr tagLen} {shares : List Share}
    {secreto : List UInt8} :
    combine etiqueta shares = .ok secreto ↔
      ∃ threshold largo, Coherentes threshold largo shares ∧
        recuperar (shares.take threshold.toNat) largo =
          secreto ++ (etiqueta secreto).toList := by
  simp only [combine, Res.bind_ok, rechazarSi_eq_ok, exists_const, Res.pure_eq_ok,
    length_recuperar, not_not, comprobar_eq_ok]
  constructor
  · rintro ⟨primera, ⟨-, hc⟩, htag, rfl⟩
    refine ⟨primera.threshold, primera.y.length, hc, ?_⟩
    rw [htag, List.take_append_drop]
  · rintro ⟨threshold, largo, hc, hrec⟩
    obtain ⟨primera, resto, rfl⟩ := List.exists_cons_of_ne_nil hc.ne_nil
    obtain rfl := hc.umbral primera List.mem_cons_self
    obtain rfl := hc.largo primera List.mem_cons_self
    have hlen := congrArg List.length hrec
    rw [length_recuperar, List.length_append, (etiqueta secreto).toList_length] at hlen
    have hcorte : primera.y.length - tagLen = secreto.length := by omega
    refine ⟨primera, ⟨rfl, hc⟩, ?_, ?_⟩
    · rw [hrec, hcorte, List.take_left, List.drop_left]
    · rw [hrec, hcorte, List.take_left]

/-- Each share carries, byte by byte, the values of these polynomials at its index. -/
def Yacen (ps : Nat → Polynomial Gf256) (largo : Nat) (shares : List Share) : Prop :=
  ∀ s ∈ shares, ∀ pos < largo, s.y.getD pos 0 = ((ps pos).eval ⟨s.index⟩).byte

/-- Shares that lie on polynomials of degree below the threshold give what these have at zero. -/
theorem combine_of_yacen {etiqueta : List UInt8 → Arr tagLen} {shares : List Share}
    {threshold : UInt8} {largo : Nat} (hc : Coherentes threshold largo shares)
    {ps : Nat → Polynomial Gf256}
    (hd : ∀ pos < largo, (ps pos).degree < (threshold.toNat : WithBot Nat))
    (hy : Yacen ps largo shares) {secreto : List UInt8}
    (hs : ((List.range largo).map fun pos => ((ps pos).eval 0).byte) =
      secreto ++ (etiqueta secreto).toList) :
    combine etiqueta shares = .ok secreto := by
  refine combine_eq_ok.mpr ⟨threshold, largo, hc, ?_⟩
  rw [← hs]
  refine recuperar_eq hc.nodup_take (by rwa [hc.length_take]) fun s hm => hy s (List.mem_of_mem_take hm)

theorem pedirCoeficientes_eq_ok {k : Nat} {c c' : Cinta} {v : Arr k} :
    pedirCoeficientes k c = .ok v c' ↔ llenar (List.Vector.replicate k 0) c = (.ok (), v, c') := by
  unfold pedirCoeficientes
  split
  next buf cinta h =>
    rw [h]
    constructor
    · intro he
      cases he
      rfl
    · intro he
      cases he
      rfl
  next e buf cinta h =>
    rw [h]
    constructor
    · intro he
      cases he
    · intro he
      cases he

/-- A tag with no information, for concrete runs. -/
def etiquetaNula : List UInt8 → Arr tagLen := fun _ => List.Vector.replicate tagLen 0

variable {etiqueta : List UInt8 → Arr tagLen} {secret : List UInt8} {threshold shares : UInt8}

/-- What `split` returns: the shares of the payload for the coefficients that it drew. -/
theorem split_eq_ok {cinta cinta' : Cinta} {fuera : List Share} :
    split etiqueta secret threshold shares cinta = .ok fuera cinta' ↔
      ∃ (ht : minThreshold ≤ threshold) (hs : secret ≠ []), threshold ≤ shares ∧
        ∃ css, sortear (threshold.toNat - 1) (secret.length + tagLen) cinta = .ok css cinta' ∧
          fuera = repartir ht (tagLen_lt_payload hs) (payloadDe etiqueta secret) css shares := by
  unfold split
  by_cases hs : secret = []
  · rw [dif_pos hs]
    refine ⟨fun h => ?_, fun ⟨_, h, _⟩ => absurd hs h⟩
    cases h
  · rw [dif_neg hs]
    by_cases hp : threshold < minThreshold ∨ shares < threshold
    · rw [dif_pos hp]
      refine ⟨fun h => ?_, fun ⟨ht, _, hle, _⟩ => ?_⟩
      · cases h
      · exact hp.elim (fun h => absurd ht (UInt8.not_le.mpr h))
          fun h => absurd hle (UInt8.not_le.mpr h)
    · rw [dif_neg hp]
      constructor
      · intro h
        obtain ⟨css, c₁, hcss, hf⟩ := Prog.bind_ok.mp h
        cases hf
        exact ⟨umbral_of_parametros hp, hs, UInt8.not_lt.mp fun h => hp (Or.inr h), css, hcss, rfl⟩
      · rintro ⟨ht, _, _, css, hcss, rfl⟩
        exact Prog.bind_ok.mpr ⟨css, cinta', hcss, rfl⟩

theorem indices_nodup (shares : UInt8) : (indices shares).Nodup := by
  refine List.Nodup.map_on (fun i hi j hj h => ?_) List.nodup_range
  have hlt := shares.toNat_lt
  rw [List.mem_range] at hi hj
  have hn := congrArg UInt8.toNat h
  rw [UInt8.toNat_ofNat', UInt8.toNat_ofNat'] at hn
  omega

theorem mem_indices {shares x : UInt8} (h₀ : x ≠ 0) (h : x ≤ shares) : x ∈ indices shares := by
  have hx : 0 < x.toNat := by
    refine Nat.pos_of_ne_zero fun he => h₀ (UInt8.toNat_inj.mp he)
  have hle := UInt8.le_iff_toNat_le.mp h
  refine List.mem_map.mpr ⟨x.toNat - 1, List.mem_range.mpr (by omega), ?_⟩
  rw [Nat.sub_add_cancel hx, UInt8.ofNat_toNat]

theorem le_255 (x : UInt8) : x ≤ 255 :=
  UInt8.le_iff_toNat_le.mpr (Nat.le_of_lt_succ x.toNat_lt)

section Repartir

variable {n : Nat} (ht : minThreshold ≤ threshold) (hn : tagLen < n) (payload : Arr n)
  (css : List.Vector (Arr (threshold.toNat - 1)) n)

theorem mem_repartir {s : Share} :
    s ∈ repartir ht hn payload css shares ↔
      ∃ x, ∃ hx : x ∈ indices shares,
        s = comparticion ht hn payload css x (ne_zero_of_mem_indices hx) := by
  rw [repartir, List.mem_pmap]
  exact ⟨fun ⟨x, hx, h⟩ => ⟨x, hx, h.symm⟩, fun ⟨x, hx, h⟩ => ⟨x, hx, h.symm⟩⟩

theorem map_index_repartir :
    (repartir ht hn payload css shares).map Share.index = indices shares := by
  rw [repartir, List.map_pmap]
  exact List.pmap_eq_self.mpr fun _ _ => rfl

noncomputable def polinomios (pos : Nat) : Polynomial Gf256 :=
  polinomioDe (css.toList.getD pos (List.Vector.replicate _ 0)).toList (payload.toList.getD pos 0)

theorem degree_polinomios_lt (ht : minThreshold ≤ threshold) (pos : Nat) :
    (polinomios payload css pos).degree < (threshold.toNat : WithBot Nat) := by
  have h := degree_polinomioDe_lt
    (css.toList.getD pos (List.Vector.replicate (threshold.toNat - 1) 0)).toList
    (payload.toList.getD pos 0)
  have htwo : 2 ≤ threshold.toNat := UInt8.le_iff_toNat_le.mp ht
  rwa [List.Vector.toList_length, Nat.sub_add_cancel (by omega)] at h

theorem getD_valores {x : UInt8} {pos : Nat} (hpos : pos < n) :
    (valores css payload x).getD pos 0 = ((polinomios payload css pos).eval ⟨x⟩).byte := by
  have hc : pos < css.toList.length := css.toList_length.symm ▸ hpos
  have hp : pos < payload.toList.length := payload.toList_length.symm ▸ hpos
  rw [polinomios, ← evaluar_eq, valores, List.getD_eq_getElem _ _ (by simpa using hpos),
    List.getElem_zipWith, List.getD_eq_getElem _ _ hc, List.getD_eq_getElem _ _ hp]

theorem repartir_yacen :
    Yacen (polinomios payload css) n (repartir ht hn payload css shares) := by
  intro s hs pos hpos
  obtain ⟨x, hx, rfl⟩ := (mem_repartir ht hn payload css).mp hs
  exact getD_valores payload css hpos

theorem polinomios_zero :
    ((List.range n).map fun pos => ((polinomios payload css pos).eval 0).byte) =
      payload.toList := by
  refine List.ext_getElem (by simp) fun pos h₁ h₂ => ?_
  simp only [List.getElem_map, List.getElem_range]
  rw [polinomios, eval_zero_polinomioDe, List.getD_eq_getElem _ _ h₂]

end Repartir

/-- Any shares of a payload with its tag, at least as many as the threshold and in any order. -/
theorem combine_repartir (ht : minThreshold ≤ threshold) (hs : secret ≠ [])
    (css : List.Vector (Arr (threshold.toNat - 1)) (secret.length + tagLen))
    {aportadas : List Share}
    (hsub : aportadas.Subperm
      (repartir ht (tagLen_lt_payload hs) (payloadDe etiqueta secret) css shares))
    (hbastan : threshold.toNat ≤ aportadas.length) :
    combine etiqueta aportadas = .ok secret := by
  obtain ⟨orden, hperm, hord⟩ := hsub
  have hmem : ∀ s ∈ aportadas, s ∈ repartir ht (tagLen_lt_payload hs)
      (payloadDe etiqueta secret) css shares := fun s hm => hord.subset (hperm.symm.subset hm)
  have hnodup : (aportadas.map Share.index).Nodup := by
    have hn : ((repartir ht (tagLen_lt_payload hs) (payloadDe etiqueta secret) css shares).map
        Share.index).Nodup := by
      rw [map_index_repartir]
      exact indices_nodup shares
    exact ((hperm.map Share.index).nodup_iff).mp (hn.sublist (hord.map Share.index))
  have htwo : 2 ≤ threshold.toNat := UInt8.le_iff_toNat_le.mp ht
  have hc : Coherentes threshold (secret.length + tagLen) aportadas := by
    refine ⟨?_, fun s hm => ?_, fun s hm => ?_, hnodup, hbastan⟩
    · rintro rfl
      simp at hbastan
      omega
    · obtain ⟨x, hx, rfl⟩ := (mem_repartir ..).mp (hmem s hm)
      rfl
    · obtain ⟨x, hx, rfl⟩ := (mem_repartir ..).mp (hmem s hm)
      exact length_valores css _ x
  refine combine_of_yacen hc (fun pos _ => degree_polinomios_lt _ css ht pos)
    (fun s hm => repartir_yacen ht (tagLen_lt_payload hs) _ css s (hmem s hm))
    (polinomios_zero _ css)

/-- Any shares of a split, at least as many as its threshold and in any order, give its secret. -/
theorem combine_split (etiqueta : List UInt8 → Arr tagLen) (secret : List UInt8)
    (threshold shares : UInt8) (cinta cinta' : Cinta) (fuera : List Share)
    (h : split etiqueta secret threshold shares cinta = .ok fuera cinta') (aportadas : List Share)
    (hsub : aportadas.Subperm fuera) (hbastan : threshold.toNat ≤ aportadas.length) :
    combine etiqueta aportadas = .ok secret := by
  obtain ⟨ht, hs, _, css, _, rfl⟩ := split_eq_ok.mp h
  exact combine_repartir ht hs css hsub hbastan

/-- The tape that answers each draw of `sortear` with the next of these vectors. -/
def reponerTodos {k n : Nat} (css : List.Vector (Arr k) n) (cinta : Cinta) : Cinta :=
  css.toList.foldr reponer cinta

/-- Coefficients that pass the health check are drawn from the tape that delivers them. -/
theorem sortear_reponerTodos {k n : Nat} {css : List.Vector (Arr k) n}
    (h : ∀ c ∈ css.toList, saludDe c.toList = none) (cinta : Cinta) :
    sortear k n (reponerTodos css cinta) = .ok css cinta := by
  induction n with
  | zero => rw [List.Vector.eq_nil css]; rfl
  | succ n ih =>
    obtain ⟨c, cs, rfl⟩ := List.Vector.exists_eq_cons css
    rw [List.Vector.toList_cons] at h
    have hc : llenar (List.Vector.replicate k 0) (reponer c (reponerTodos cs cinta)) =
        (.ok (), c, reponerTodos cs cinta) := llenar_reponer (h c List.mem_cons_self) _
    have hcs := ih fun d hd => h d (List.mem_cons_of_mem _ hd)
    refine Prog.bind_ok.mpr ⟨c, reponerTodos cs cinta, pedirCoeficientes_eq_ok.mpr ?_,
      Prog.bind_ok.mpr ⟨cs, cinta, hcs, rfl⟩⟩
    rw [reponerTodos, List.Vector.toList_cons]
    exact hc

theorem split_reponerTodos (ht : minThreshold ≤ threshold) (hs : secret ≠ [])
    (hle : threshold ≤ shares)
    {css : List.Vector (Arr (threshold.toNat - 1)) (secret.length + tagLen)}
    (h : ∀ c ∈ css.toList, saludDe c.toList = none) (cinta : Cinta) :
    split etiqueta secret threshold shares (reponerTodos css cinta) =
      .ok (repartir ht (tagLen_lt_payload hs) (payloadDe etiqueta secret) css shares) cinta :=
  split_eq_ok.mpr ⟨ht, hs, hle, css, sortear_reponerTodos h cinta, rfl⟩

theorem combine_split_tres :
    ∃ fuera cinta cinta', split (fun _ => List.Vector.replicate tagLen 0) [7] 2 3 cinta =
        .ok fuera cinta' ∧ fuera.length = 3 ∧
      combine (fun _ => List.Vector.replicate tagLen 0) (fuera.drop 1).reverse = .ok [7] := by
  let css : List.Vector (Arr ((2 : UInt8).toNat - 1)) ([(7 : UInt8)].length + tagLen) :=
    List.Vector.replicate _ (List.Vector.replicate _ 5)
  have hsanos : ∀ c ∈ css.toList, saludDe c.toList = none := by
    intro c hc
    rw [List.eq_of_mem_replicate hc]
    rfl
  have hsplit : split (fun _ => List.Vector.replicate tagLen 0) [7] 2 3
      (reponerTodos css (Stream'.const (.entrega fun _ => 0))) = .ok _ _ :=
    split_reponerTodos (by decide) (by decide) (by decide) hsanos _
  refine ⟨_, _, _, hsplit, rfl, ?_⟩
  refine combine_split _ _ _ _ _ _ _ hsplit _ ?_ (by decide)
  exact (List.reverse_perm _).subperm.trans (List.drop_sublist 1 _).subperm

end Shamir

end Quipu
