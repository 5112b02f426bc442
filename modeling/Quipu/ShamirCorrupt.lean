import Quipu.ShamirCombine

namespace Quipu

namespace Shamir

open Polynomial

/-- The polynomial through the byte `pos` of some shares, of degree below their number. -/
noncomputable def interpolado (usadas : List Share) (pos : Nat) : Gf256[X] :=
  Lagrange.interpolate (Finset.range usadas.length) (fun i => (nodos usadas).getD i 0)
    fun i => ⟨(usadas.map fun s => s.y.getD pos 0).getD i 0⟩

section Interpolado

variable {usadas : List Share} (hn : (usadas.map Share.index).Nodup) (pos : Nat)

include hn

theorem injOn_nodos :
    Set.InjOn (fun i => (nodos usadas).getD i 0) (Finset.range usadas.length : Finset Nat) := by
  have h := injOn_getD (nodos_nodup hn)
  rwa [nodos, List.length_map] at h

theorem degree_interpolado_lt :
    (interpolado usadas pos).degree < (usadas.length : WithBot Nat) := by
  have h := Lagrange.degree_interpolate_lt
    (fun i => (⟨(usadas.map fun s => s.y.getD pos 0).getD i 0⟩ : Gf256)) (injOn_nodos hn)
  rwa [Finset.card_range] at h

theorem eval_interpolado {s : Share} (hs : s ∈ usadas) :
    (interpolado usadas pos).eval ⟨s.index⟩ = ⟨s.y.getD pos 0⟩ := by
  obtain ⟨i, hi, rfl⟩ := List.mem_iff_getElem.mp hs
  have h := Lagrange.eval_interpolate_at_node
    (fun i => (⟨(usadas.map fun s => s.y.getD pos 0).getD i 0⟩ : Gf256)) (injOn_nodos hn)
    (Finset.mem_range.mpr hi)
  have hnodo : (nodos usadas).getD i 0 = ⟨usadas[i].index⟩ := by simp [nodos, hi]
  have hvalor : (usadas.map fun s => s.y.getD pos 0).getD i 0 = usadas[i].y.getD pos 0 := by
    simp [hi]
  simp only [hnodo, hvalor] at h
  exact h

/-- The only polynomial of that degree through the shares. -/
theorem eq_interpolado {p : Gf256[X]} (hd : p.degree < (usadas.length : WithBot Nat))
    (hp : ∀ s ∈ usadas, p.eval ⟨s.index⟩ = ⟨s.y.getD pos 0⟩) : p = interpolado usadas pos := by
  have hlen : (nodos usadas).length = usadas.length := by rw [nodos, List.length_map]
  refine eq_of_eval_nodos (nodos_nodup hn) (by rwa [hlen])
    (by rw [hlen]; exact degree_interpolado_lt hn pos) fun x hx => ?_
  obtain ⟨s, hs, rfl⟩ := List.mem_map.mp hx
  rw [hp s hs, eval_interpolado hn pos hs]

end Interpolado

variable {etiqueta : List UInt8 → Arr tagLen} {shares : List Share} {secreto : List UInt8}

theorem Coherentes.perm {threshold : UInt8} {largo : Nat} {orden : List Share}
    (h : Coherentes threshold largo shares) (hp : orden.Perm shares) :
    Coherentes threshold largo orden where
  ne_nil := fun he => h.ne_nil (List.nil_perm.mp (he ▸ hp))
  umbral := fun s hs => h.umbral s (hp.subset hs)
  largo := fun s hs => h.largo s (hp.subset hs)
  nodup := (hp.map Share.index).nodup_iff.mpr h.nodup
  bastan := hp.length_eq ▸ h.bastan

/-- What is promised of a list of shares: if it gives a secret, all of them lie on polynomials of
degree below the threshold that give it, and every order gives the same. -/
def Detecta (etiqueta : List UInt8 → Arr tagLen) (shares : List Share) : Prop :=
  ∀ secreto, combine etiqueta shares = .ok secreto →
    (∃ threshold largo ps, Coherentes threshold largo shares ∧
      (∀ pos < largo, (ps pos).degree < (threshold.toNat : WithBot Nat)) ∧
      Yacen ps largo shares ∧
      ((List.range largo).map fun pos => ((ps pos).eval 0).byte) =
        secreto ++ (etiqueta secreto).toList) ∧
    ∀ orden, orden.Perm shares → combine etiqueta orden = .ok secreto

/-- Each share beyond the threshold carries the values at its index of the polynomials through the
shares up to it. -/
def SobrantesEnLinea (shares : List Share) : Prop :=
  ∀ s, s ∈ shares.drop s.threshold.toNat → ∀ pos < s.y.length,
    s.y.getD pos 0 =
      ((interpolado (shares.take s.threshold.toNat) pos).eval ⟨s.index⟩).byte

theorem detecta_of_sobrantesEnLinea (h : SobrantesEnLinea shares) : Detecta etiqueta shares := by
  intro secreto hok
  obtain ⟨threshold, largo, hc, hrec⟩ := combine_eq_ok.mp hok
  have hn := hc.nodup_take
  have hd : ∀ pos < largo, (interpolado (shares.take threshold.toNat) pos).degree <
      (threshold.toNat : WithBot Nat) := by
    intro pos _
    have hdeg := degree_interpolado_lt hn pos
    rwa [hc.length_take] at hdeg
  have hprim : ∀ s ∈ shares.take threshold.toNat, ∀ pos < largo, s.y.getD pos 0 =
      ((interpolado (shares.take threshold.toNat) pos).eval ⟨s.index⟩).byte := by
    intro s hs pos _
    rw [eval_interpolado hn pos hs]
  have hy : Yacen (interpolado (shares.take threshold.toNat)) largo shares := by
    intro s hs pos hpos
    rw [← List.take_append_drop threshold.toNat shares] at hs
    rcases List.mem_append.mp hs with htake | hdrop
    · exact hprim s htake pos hpos
    · have hm := List.mem_of_mem_drop hdrop
      have hu := hc.umbral s hm
      have hl := hc.largo s hm
      have hs := h s (by rwa [hu]) pos (by rwa [hl])
      rwa [hu] at hs
  have hzero := recuperar_eq hn (by rwa [hc.length_take]) hprim
  rw [hrec] at hzero
  refine ⟨⟨threshold, largo, _, hc, hd, hy, hzero.symm⟩, fun orden hperm => ?_⟩
  exact combine_of_yacen (hc.perm hperm) hd (fun s hs => hy s (hperm.subset hs)) hzero.symm

theorem sobrantesEnLinea_of_detecta (hok : combine etiqueta shares = .ok secreto)
    (h : Detecta etiqueta shares) : SobrantesEnLinea shares := by
  obtain ⟨⟨threshold, largo, ps, hc, hd, hy, _⟩, _⟩ := h secreto hok
  intro s hdrop pos hpos
  have hs := List.mem_of_mem_drop hdrop
  rw [hc.umbral s hs]
  rw [hc.largo s hs] at hpos
  have hpol : ps pos = interpolado (shares.take threshold.toNat) pos := by
    apply eq_interpolado hc.nodup_take pos (by rw [hc.length_take]; exact hd pos hpos)
    intro t ht
    exact Gf256.ext (hy t (List.mem_of_mem_take ht) pos hpos).symm
  rw [hy s hs pos hpos, hpol]

section Corromper

variable {inicio : List Share} {s s' : Share}

/-- A surplus share is not looked at beyond its threshold, its index and its length. -/
theorem combine_append_congr (hbastan : s.threshold.toNat ≤ inicio.length)
    (hu : s'.threshold = s.threshold) (hi : s'.index = s.index) (hl : s'.y.length = s.y.length)
    (h : combine etiqueta (inicio ++ [s]) = .ok secreto) :
    combine etiqueta (inicio ++ [s']) = .ok secreto := by
  obtain ⟨threshold, largo, hc, hrec⟩ := combine_eq_ok.mp h
  have hus : s.threshold = threshold := hc.umbral s (List.mem_append_right _ List.mem_cons_self)
  have hls : s.y.length = largo := hc.largo s (List.mem_append_right _ List.mem_cons_self)
  rw [hus] at hbastan
  have hmem : ∀ {P : Share → Prop}, (∀ t ∈ inicio ++ [s], P t) → P s' →
      ∀ t ∈ inicio ++ [s'], P t := by
    intro P hP hs' t ht
    rcases List.mem_append.mp ht with hm | hm
    · exact hP t (List.mem_append_left _ hm)
    · exact List.mem_singleton.mp hm ▸ hs'
  refine combine_eq_ok.mpr ⟨threshold, largo, ⟨by simp, hmem hc.umbral (hu.trans hus),
    hmem hc.largo (hl.trans hls), ?_, ?_⟩, ?_⟩
  · have hn := hc.nodup
    rw [List.map_append, List.map_singleton] at hn ⊢
    rwa [hi]
  · rw [List.length_append]
    omega
  · rw [List.take_append_of_le_length hbastan] at hrec ⊢
    exact hrec

theorem mem_drop_append (hbastan : s.threshold.toNat ≤ inicio.length) :
    s ∈ (inicio ++ [s]).drop s.threshold.toNat := by
  rw [List.drop_append_of_le_length hbastan]
  exact List.mem_append_right _ List.mem_cons_self

/-- Two lists in line that differ in the last surplus share alone are equal. -/
theorem y_eq_of_sobrantesEnLinea (hbastan : s.threshold.toNat ≤ inicio.length)
    (hu : s'.threshold = s.threshold) (hi : s'.index = s.index) (hl : s'.y.length = s.y.length)
    (h : SobrantesEnLinea (inicio ++ [s])) (h' : SobrantesEnLinea (inicio ++ [s'])) :
    s'.y = s.y := by
  have hbastan' : s'.threshold.toNat ≤ inicio.length := by rwa [hu]
  refine List.ext_getElem hl fun pos hpos' hpos => ?_
  have hs := h s (mem_drop_append hbastan) pos hpos
  have hs' := h' s' (mem_drop_append hbastan') pos hpos'
  rw [List.take_append_of_le_length hbastan, List.getD_eq_getElem _ _ hpos] at hs
  rw [List.take_append_of_le_length hbastan', List.getD_eq_getElem _ _ hpos', hu, hi] at hs'
  exact hs'.trans hs.symm

theorem tagLen_lt_corrompida (s : Share) : tagLen < (s.y.map (· ^^^ 1)).length := by
  rw [List.length_map]
  exact s.largo

def Share.corromper (s : Share) : Share :=
  { s with y := s.y.map (· ^^^ 1), largo := tagLen_lt_corrompida s }

theorem Share.corromper_y_ne (s : Share) : s.corromper.y ≠ s.y := by
  intro h
  have hpos : 0 < s.y.length := Nat.lt_of_le_of_lt (Nat.zero_le _) s.largo
  have h₀ := congrArg (fun l => l[0]?) h
  simp only [corromper, List.getElem?_map, List.getElem?_eq_getElem hpos, Option.map_some,
    Option.some.injEq] at h₀
  have hb := (UInt8.xor_right_inj s.y[0]).mp (h₀.trans UInt8.xor_zero.symm)
  exact absurd hb (by decide)

/-- For every accepted list with a surplus share at its end, it or its corruption goes
undetected. -/
theorem exists_not_detecta (hbastan : s.threshold.toNat ≤ inicio.length)
    (h : combine etiqueta (inicio ++ [s]) = .ok secreto) :
    ¬Detecta etiqueta (inicio ++ [s]) ∨ ¬Detecta etiqueta (inicio ++ [s.corromper]) := by
  have hl : s.corromper.y.length = s.y.length := List.length_map _
  have hcorr : combine etiqueta (inicio ++ [s.corromper]) = .ok secreto :=
    combine_append_congr hbastan rfl rfl hl h
  by_contra hdet
  rw [not_or, not_not, not_not] at hdet
  exact s.corromper_y_ne (y_eq_of_sobrantesEnLinea hbastan rfl rfl hl
    (sobrantesEnLinea_of_detecta h hdet.1) (sobrantesEnLinea_of_detecta hcorr hdet.2))

end Corromper

theorem Coherentes.length_le {threshold : UInt8} {largo : Nat}
    (h : Coherentes threshold largo shares) : shares.length ≤ 255 := by
  have hsub : (shares.map Share.index) ⊆ indices 255 := by
    intro x hx
    obtain ⟨s, _, rfl⟩ := List.mem_map.mp hx
    exact mem_indices s.indice (le_255 s.index)
  have hle := (h.nodup.subperm hsub).length_le
  rwa [List.length_map, indices, List.length_map, List.length_range] at hle

/-- There are accepted lists of every size from the threshold to 255. -/
theorem exists_aceptada (etiqueta : List UInt8 → Arr tagLen) {threshold : UInt8}
    (ht : minThreshold ≤ threshold) {l : Nat} (hl : threshold.toNat ≤ l) (h255 : l ≤ 255) :
    ∃ shares : List Share, shares.length = l ∧ (∀ s ∈ shares, s.threshold = threshold) ∧
      combine etiqueta shares = .ok [0] := by
  have hcons : [(0 : UInt8)] ≠ [] := List.cons_ne_nil 0 []
  let css : List.Vector (Arr (threshold.toNat - 1)) ([(0 : UInt8)].length + tagLen) :=
    List.Vector.replicate _ (List.Vector.replicate _ 0)
  have hlen : (repartir ht (tagLen_lt_payload hcons) (payloadDe etiqueta [0]) css
      (UInt8.ofNat l)).length = l := by
    rw [repartir, List.length_pmap, indices, List.length_map, List.length_range,
      UInt8.toNat_ofNat', Nat.mod_eq_of_lt (by omega)]
  refine ⟨_, hlen, fun s hs => ?_, combine_repartir ht hcons css (List.Subperm.refl _) ?_⟩
  · obtain ⟨x, _, rfl⟩ := (mem_repartir ..).mp hs
    rfl
  · rwa [hlen]

/-- An accepted list is all it should be exactly when its surplus shares are in line; of the sizes
of list, those without surplus, and those that no list of shares has, are safe. -/
theorem detecta_iff (etiqueta : List UInt8 → Arr tagLen) :
    (∀ shares secreto, combine etiqueta shares = .ok secreto →
      (Detecta etiqueta shares ↔ SobrantesEnLinea shares)) ∧
    ∀ threshold l, minThreshold ≤ threshold →
      ((∀ shares : List Share, shares.length = l → (∀ s ∈ shares, s.threshold = threshold) →
        Detecta etiqueta shares) ↔ l ≤ threshold.toNat ∨ 255 < l) := by
  refine ⟨fun shares secreto hok =>
    ⟨sobrantesEnLinea_of_detecta hok, detecta_of_sobrantesEnLinea⟩,
    fun threshold l ht => ⟨fun h => ?_, fun h shares hlen hu => ?_⟩⟩
  · by_contra hl
    rw [not_or, Nat.not_le, Nat.not_lt] at hl
    obtain ⟨shares, hlen, hu, hok⟩ := exists_aceptada etiqueta ht hl.1.le hl.2
    obtain ⟨inicio, s, rfl⟩ := (List.eq_nil_or_concat' shares).resolve_left
      (List.ne_nil_of_length_pos (by omega))
    have hus := hu s (List.mem_append_right _ List.mem_cons_self)
    rw [List.length_append, List.length_singleton] at hlen
    rcases exists_not_detecta (by rw [hus]; omega) hok with hn | hn
    · exact hn (h _ (by rw [List.length_append, List.length_singleton, hlen]) hu)
    · refine hn (h _ (by rw [List.length_append, List.length_singleton, hlen]) fun t htm => ?_)
      rcases List.mem_append.mp htm with hm | hm
      · exact hu t (List.mem_append_left _ hm)
      · rw [List.mem_singleton.mp hm]
        exact hus
  · intro secreto hok
    obtain ⟨threshold', largo, hc, _⟩ := combine_eq_ok.mp hok
    have h255 := hc.length_le
    refine detecta_of_sobrantesEnLinea (fun s hs => ?_) secreto hok
    rw [hu s (List.mem_of_mem_drop hs), List.drop_eq_nil_of_le (by omega)] at hs
    cases hs

/-- The first 8 bytes of the SHA-256 of the label of the tags and the secret 7, the only secret
whose tag `combine` asks for below. -/
def etiquetaSiete : List UInt8 → Arr tagLen := fun _ =>
  Arr.of [46, 142, 90, 248, 63, 173, 170, 83] rfl

/-- Two shares of the secret 7 and a corrupt third: accepted last, refused first. -/
theorem detecta_tres_falla :
    ∃ uno dos tres : Share,
      [uno, dos, tres].map (fun s => (s.threshold, s.index, s.y)) =
        [(2, 1, [7, 46, 142, 90, 248, 63, 173, 170, 83]),
          (2, 2, [7, 46, 142, 90, 248, 63, 173, 170, 83]),
          (2, 3, [7, 47, 142, 90, 248, 63, 173, 170, 83])] ∧
      combine etiquetaSiete [uno, dos, tres] = .ok [7] ∧
      combine etiquetaSiete [tres, uno, dos] = .error (.error .verificationFailed) ∧
      ¬Detecta etiquetaSiete [uno, dos, tres] := by
  let uno : Share :=
    ⟨2, 1, [7, 46, 142, 90, 248, 63, 173, 170, 83], by decide, by decide, by decide⟩
  let dos : Share :=
    ⟨2, 2, [7, 46, 142, 90, 248, 63, 173, 170, 83], by decide, by decide, by decide⟩
  let tres : Share :=
    ⟨2, 3, [7, 47, 142, 90, 248, 63, 173, 170, 83], by decide, by decide, by decide⟩
  have hok : combine etiquetaSiete [uno, dos, tres] = .ok [7] := by decide +kernel
  have hmal : combine etiquetaSiete [tres, uno, dos] = .error (.error .verificationFailed) := by
    decide +kernel
  refine ⟨uno, dos, tres, rfl, hok, hmal, fun h => ?_⟩
  have hperm : [tres, uno, dos].Perm [uno, dos, tres] :=
    @List.perm_append_comm _ [tres] [uno, dos]
  have := (h [7] hok).2 _ hperm
  rw [hmal] at this
  cases this

end Shamir

end Quipu
