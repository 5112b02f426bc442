import Quipu.NetLimitWindow

namespace Quipu.NetLimit.RateLimiter

open Tabla

/-- Limits under which an IP has at most one instant of admitted calls in each window. -/
def Estrecha (maxPerWindow : UInt32) (window : Nat) : Prop := maxPerWindow ≤ 1 ∨ window = 0

/-- With such limits the admitted calls of an IP stand at the start of its window or more than
a window before. -/
structure Puntual (r : Registro) (reloj : Nat) : Prop where
  contada : ∀ ip e, r.rl.hits.lookup ip = some e → e.1 < r.rl.maxPerWindow → 1 ≤ e.1
  vista : ∀ d ∈ r.admitidas, ∀ e, r.rl.hits.lookup d.1 = some e →
    d.2 = e.2 ∨ d.2 + r.rl.window < e.2
  perdida : ∀ d ∈ r.admitidas, r.rl.hits.lookup d.1 = none → d.2 + r.rl.window < reloj

theorem Puntual.sinSolape {r : Registro} {reloj : Nat} (h : Puntual r reloj) {c : IpAddr × Nat}
    (hc : reloj ≤ c.2) : SinSolape r c := by
  intro hn d hd hip
  cases hl : r.rl.hits.lookup d.1 with
  | none => exact (h.perdida d hd hl).trans_le hc
  | some e =>
    have hvencida : ¬c.2 - e.2 ≤ r.rl.window := hn e (hip ▸ hl)
    have := h.vista d hd e hl
    omega

/-- With such limits a call that is counted opens its window. -/
theorem Puntual.entrada_eq {r : Registro} {reloj : Nat} (h : Puntual r reloj)
    (hest : Estrecha r.rl.maxPerWindow r.rl.window) {c : IpAddr × Nat} (hdia : AlDia r c.2)
    (hcuota : (r.rl.entrada c.1 c.2).1 < r.rl.maxPerWindow) :
    (r.rl.entrada c.1 c.2).2 = c.2 := by
  rcases entrada_cases r.rl c.1 c.2 with ⟨e, he, hv, hent⟩ | ⟨_, hent⟩
  · rw [hent] at hcuota ⊢
    have hpasado := hdia.entradas c.1 e he
    have huna := h.contada c.1 e he hcuota
    rcases hest with hmax | hw
    · grind
    · have hv : c.2 - e.2 ≤ r.rl.window := hv
      omega
  · rw [hent]

/-- The window of a call against the calls admitted before it. -/
theorem Puntual.vista_entrada {r : Registro} {reloj : Nat} (h : Puntual r reloj)
    {c d : IpAddr × Nat} (hc : reloj ≤ c.2) (hd : d ∈ r.admitidas) (hip : d.1 = c.1) :
    d.2 = (r.rl.entrada c.1 c.2).2 ∨ d.2 + r.rl.window < (r.rl.entrada c.1 c.2).2 := by
  rcases entrada_cases r.rl c.1 c.2 with ⟨e, he, _, hent⟩ | ⟨hn, hent⟩
  · rw [hent]
    exact h.vista d hd e (hip ▸ he)
  · rw [hent]
    exact .inr (h.sinSolape hc hn d hd hip)

theorem Puntual.perdida_allowAt {r : Registro} {reloj : Nat} (h : Puntual r reloj)
    (hacotado : r.rl.Acotado) {c d : IpAddr × Nat} (hc : reloj ≤ c.2) (hd : d ∈ r.admitidas)
    (hl : (r.rl.allowAt c.1 c.2).2.hits.lookup d.1 = none) : d.2 + r.rl.window < c.2 := by
  cases hantes : r.rl.hits.lookup d.1 with
  | none => exact (h.perdida d hd hantes).trans_le hc
  | some e =>
    have hvencida : ¬r.rl.Vigente c.2 e := by
      intro hv
      obtain ⟨k, hk, _⟩ := lookup_allowAt c.1 hacotado hantes hv
      cases hk.symm.trans hl
    have hvencida : ¬c.2 - e.2 ≤ r.rl.window := hvencida
    have := h.vista d hd e hantes
    omega

theorem Puntual.contada_paso {r : Registro} {reloj : Nat} (h : Puntual r reloj)
    {c : IpAddr × Nat} {ip : IpAddr} {e : Entrada} (he : (r.paso c).rl.hits.lookup ip = some e)
    (hcuota : e.1 < r.rl.maxPerWindow) : 1 ≤ e.1 := by
  by_cases hip : ip = c.1
  · subst hip
    rcases paso_cases r c with ⟨_, hlibre, hl⟩ | ⟨_, hl | ⟨hl, hllena⟩⟩
    · cases he.symm.trans hl
      grind
    · cases he.symm.trans hl
    · cases he.symm.trans hl
      grind
  · exact h.contada ip e (paso_otra hip he) hcuota

theorem Puntual.vista_paso {r : Registro} {reloj : Nat} (h : Puntual r reloj)
    {c d : IpAddr × Nat} (hc : reloj ≤ c.2) (hd : d ∈ r.admitidas) {e : Entrada}
    (he : (r.paso c).rl.hits.lookup d.1 = some e) : d.2 = e.2 ∨ d.2 + r.rl.window < e.2 := by
  by_cases hip : d.1 = c.1
  · rw [hip] at he
    rw [paso_inicio he]
    exact h.vista_entrada hc hd hip
  · exact h.vista d hd e (paso_otra hip he)

theorem Puntual.paso {r : Registro} {reloj : Nat} (h : Puntual r reloj)
    (hest : Estrecha r.rl.maxPerWindow r.rl.window) (hacotado : r.rl.Acotado)
    {c : IpAddr × Nat} (hdia : AlDia r c.2) (hc : reloj ≤ c.2) : Puntual (r.paso c) c.2 := by
  obtain ⟨hmax, hwindow⟩ := paso_limites r c
  refine ⟨fun ip e he hcuota => h.contada_paso he (hcuota.trans_eq hmax), ?_, ?_⟩
  · intro d hd e he
    rw [hwindow]
    rcases paso_cases r c with ⟨hlog, hcuota, hl⟩ | ⟨hlog, _⟩
    · rw [hlog] at hd
      rcases List.mem_cons.mp hd with rfl | hd
      · cases he.symm.trans hl
        exact .inl (h.entrada_eq hest hdia hcuota).symm
      · exact h.vista_paso hc hd he
    · rw [hlog] at hd
      exact h.vista_paso hc hd he
  · intro d hd hl
    rw [hwindow]
    rcases paso_cases r c with ⟨hlog, _, hl'⟩ | ⟨hlog, _⟩
    · rw [hlog] at hd
      rcases List.mem_cons.mp hd with rfl | hd
      · cases hl.symm.trans hl'
      · exact h.perdida_allowAt hacotado hc hd hl
    · rw [hlog] at hd
      exact h.perdida_allowAt hacotado hc hd hl

theorem Puntual.mono {r : Registro} {t u : Nat} (h : Puntual r t) (htu : t ≤ u) : Puntual r u :=
  ⟨h.contada, h.vista, fun d hd hl => (h.perdida d hd hl).trans_le htu⟩

theorem registrar_puntual {maxPerWindow : UInt32} {window : Nat}
    (hest : Estrecha maxPerWindow window) (maxTracked : Nat) {llamadas : List (IpAddr × Nat)}
    (h : Creciente llamadas) {reloj : Nat} (hreloj : ∀ d ∈ llamadas, d.2 ≤ reloj) :
    Puntual (registrar (new maxPerWindow window maxTracked) llamadas) reloj := by
  induction llamadas using List.reverseRecOn generalizing reloj with
  | nil =>
    refine ⟨fun ip e he => ?_, fun d hd => (List.not_mem_nil hd).elim,
      fun d hd => (List.not_mem_nil hd).elim⟩
    cases he
  | append_singleton previas c ih =>
    obtain ⟨hacotado, hmax, hwindow, _⟩ :=
      correr_acotado (acotado_new maxPerWindow window maxTracked) previas
    rw [← rl_registrar] at hacotado hmax hwindow
    have hprevia := ih h.concat.1 h.concat.2
    have hest' : Estrecha (registrar (new maxPerWindow window maxTracked) previas).rl.maxPerWindow
        (registrar (new maxPerWindow window maxTracked) previas).rl.window := by
      rw [hmax, hwindow]
      exact hest
    rw [registrar_concat]
    have hdia := registrar_alDia (show (new maxPerWindow window maxTracked).hits = ∅ from rfl)
      h.concat.1 h.concat.2
    exact (hprevia.paso hest' hacotado hdia le_rfl).mono
      (hreloj c (List.mem_append_right _ (List.mem_singleton_self c)))

theorem separadas_of_estrecha {maxPerWindow : UInt32} {window : Nat}
    (hest : Estrecha maxPerWindow window) (maxTracked : Nat) {llamadas : List (IpAddr × Nat)}
    (h : Creciente llamadas) : Separadas (new maxPerWindow window maxTracked) llamadas := by
  rintro previas c resto rfl
  obtain ⟨h₁, _, h₂⟩ := List.pairwise_append.mp h
  have hprevias : ∀ d ∈ previas, d.2 ≤ c.2 := fun d hd => h₂ d hd c List.mem_cons_self
  exact (registrar_puntual hest maxTracked h₁ hprevias).sinSolape le_rfl

theorem tracked_purgar_lt {rl : RateLimiter} {ip : IpAddr} {now : Nat} {e : Entrada}
    (he : rl.hits.lookup ip = some e) (hv : ¬rl.Vigente now e) :
    (rl.purgar now).tracked < rl.tracked := by
  apply List.length_filter_lt_length_iff_exists.mpr
  refine ⟨⟨ip, e⟩, AList.mem_lookup_iff.mp he, ?_⟩
  rwa [decide_eq_true_eq]

/-- An IP that is tracked or fits in the table is counted while its window has quota. -/
theorem allowAt_admite {rl : RateLimiter} (h : rl.Acotado) {ip : IpAddr} {now : Nat}
    (hcabe : ip ∈ rl.hits ∨ rl.tracked < rl.maxTracked)
    (hcuota : (rl.entrada ip now).1 < rl.maxPerWindow) :
    (rl.allowAt ip now).1 = true ∧ (rl.allowAt ip now).2.hits.lookup ip =
      some ((rl.entrada ip now).1 + 1, (rl.entrada ip now).2) := by
  have hllena : (rl.allowAt ip now).1 ≠ false := by
    intro hno
    obtain ⟨previo, hprevio, hcaso⟩ := allowAt_cases rl ip now
    rcases hcaso with ⟨hllena, hnueva, _⟩ | ⟨_, hr⟩
    · rcases hprevio with ⟨rfl, hlibre⟩ | rfl
      · exact absurd hlibre (Nat.not_lt.mpr hllena)
      · have hllena : rl.maxTracked ≤ (rl.purgar now).tracked := hllena
        rcases hcabe with hmem | hlibre
        · obtain ⟨e, he⟩ := lookup_of_mem hmem
          have hvencida : ¬rl.Vigente now e := fun hv =>
            hnueva (mem_of_lookup (lookup_purgar.mpr ⟨he, hv⟩))
          have := tracked_purgar_lt he hvencida
          have := h.tabla
          omega
        · have := tracked_purgar_le rl now
          omega
    · have hent : (previo.entrada ip now).1 < previo.maxPerWindow := by
        rcases hprevio with ⟨rfl, _⟩ | rfl
        · exact hcuota
        · rw [entrada_purgar]
          exact hcuota
      obtain ⟨e, _, _, ⟨_, hmax, _⟩ | ⟨hsi, _, _⟩⟩ := contar_eq previo ip now
      · grind
      · rw [hr, hsi] at hno
        cases hno
  rcases (lookup_de_allowAt rl ip now).2 with ⟨hsi, _, hl⟩ | ⟨hno, _⟩
  · exact ⟨hsi, hl⟩
  · exact absurd hno hllena

/-- A call with room and quota is logged, and the limits and the bounds of the table stay. -/
theorem paso_admite {r : Registro} (h : r.rl.Acotado) {ip : IpAddr} {now : Nat} {e : Entrada}
    (hcabe : ip ∈ r.rl.hits ∨ r.rl.tracked < r.rl.maxTracked)
    (hent : r.rl.entrada ip now = e) (hcuota : e.1 < r.rl.maxPerWindow) :
    (r.paso (ip, now)).rl.Acotado ∧
      ((r.paso (ip, now)).rl.maxPerWindow = r.rl.maxPerWindow ∧
        (r.paso (ip, now)).rl.window = r.rl.window) ∧
      (r.paso (ip, now)).admitidas = (ip, now) :: r.admitidas ∧
      (r.paso (ip, now)).rl.hits.lookup ip = some (e.1 + 1, e.2) := by
  subst hent
  obtain ⟨hsi, hl⟩ := allowAt_admite h hcabe hcuota
  exact ⟨h.allowAt ip now, paso_limites r (ip, now), if_pos hsi, hl⟩

/-- Calls at one instant are admitted while the window of their IP has quota. -/
theorem foldl_paso_replicate {r : Registro} (h : r.rl.Acotado) {ip : IpAddr} {now n : Nat}
    {e : Entrada} (he : r.rl.hits.lookup ip = some e) (hv : now - e.2 ≤ r.rl.window)
    (hn : e.1.toNat + n ≤ r.rl.maxPerWindow.toNat) :
    ((List.replicate n (ip, now)).foldl Registro.paso r).admitidas =
      List.replicate n (ip, now) ++ r.admitidas := by
  induction n generalizing r e with
  | zero => rfl
  | succ n ih =>
    have hcuota : e.1 < r.rl.maxPerWindow := UInt32.lt_iff_toNat_lt.mpr (by omega)
    obtain ⟨h', ⟨hmax, hwindow⟩, hlog, hl⟩ :=
      paso_admite h (.inl (mem_of_lookup he)) (entrada_of_vigente he hv) hcuota
    have hresto : (e.1 + 1).toNat + n ≤ (r.paso (ip, now)).rl.maxPerWindow.toNat := by
      rw [hmax, toNat_add_one hcuota]
      omega
    rw [List.replicate_succ, List.foldl_cons,
      ih h' hl (hv.trans_eq hwindow.symm) hresto, hlog, ← List.replicate_succ,
      List.replicate_succ', List.append_assoc, List.singleton_append]

/-- A call that opens the window, one at its last instant and a burst at the next one. -/
def rafaga (maxPerWindow : UInt32) (window : Nat) (ip : IpAddr) : List (IpAddr × Nat) :=
  [(ip, 0), (ip, window)] ++ List.replicate maxPerWindow.toNat (ip, window + 1)

theorem creciente_rafaga (maxPerWindow : UInt32) (window : Nat) (ip : IpAddr) :
    Creciente (rafaga maxPerWindow window ip) := by
  refine List.pairwise_append.mpr ⟨?_, List.pairwise_replicate_of_refl, fun c hc d hd => ?_⟩
  · simp
  · rw [List.eq_of_mem_replicate hd]
    rcases List.mem_pair.mp hc with rfl | rfl
    · exact Nat.zero_le _
    · exact Nat.le_succ window

/-- The first call of an IP and one at the last instant of its window are both admitted. -/
theorem registrar_dos {maxPerWindow : UInt32} (hmax : 1 < maxPerWindow)
    (window maxTracked : Nat) (ip : IpAddr) :
    ∃ r, registrar (new maxPerWindow window maxTracked) [(ip, 0), (ip, window)] = r ∧
      r.rl.Acotado ∧ (r.rl.maxPerWindow = maxPerWindow ∧ r.rl.window = window) ∧
      r.admitidas = [(ip, window), (ip, 0)] ∧ r.rl.hits.lookup ip = some (0 + 1 + 1, 0) := by
  refine ⟨(Registro.paso ⟨new maxPerWindow window maxTracked, []⟩ (ip, 0)).paso (ip, window),
    rfl, ?_⟩
  have h₀ := acotado_new maxPerWindow window maxTracked
  have hcabe₀ : (new maxPerWindow window maxTracked).tracked <
      (new maxPerWindow window maxTracked).maxTracked :=
    Nat.lt_of_lt_of_le Nat.one_pos (le_max_right _ _)
  have hvacia : ∀ e, (new maxPerWindow window maxTracked).hits.lookup ip = some e →
      ¬(new maxPerWindow window maxTracked).Vigente 0 e := fun e he => nomatch he
  have hcuota₀ : (0 : UInt32) < maxPerWindow := UInt32.lt_trans (by decide) hmax
  obtain ⟨h₁, ⟨hmax₁, hwindow₁⟩, hlog₁, hl₁⟩ :=
    paso_admite (r := ⟨new maxPerWindow window maxTracked, []⟩) h₀ (.inr hcabe₀)
      (entrada_of_vencida hvacia) hcuota₀
  have hviva := (Nat.sub_le window 0).trans_eq (show window = _ from hwindow₁.symm)
  have hcuota₁ := lt_of_lt_of_eq (show 0 + 1 < maxPerWindow from hmax)
    (show maxPerWindow = _ from hmax₁.symm)
  obtain ⟨h₂, ⟨hmax₂, hwindow₂⟩, hlog₂, hl₂⟩ :=
    paso_admite h₁ (.inl (mem_of_lookup hl₁)) (entrada_of_vigente hl₁ hviva) hcuota₁
  exact ⟨h₂, ⟨hmax₂.trans hmax₁, hwindow₂.trans hwindow₁⟩, hlog₂.trans (by rw [hlog₁]), hl₂⟩

theorem registrar_rafaga {maxPerWindow : UInt32} {window : Nat} (hmax : 1 < maxPerWindow)
    (hwindow : 0 < window) (maxTracked : Nat) (ip : IpAddr) :
    (registrar (new maxPerWindow window maxTracked)
        (rafaga maxPerWindow window ip)).admitidas =
      List.replicate maxPerWindow.toNat (ip, window + 1) ++ [(ip, window), (ip, 0)] := by
  have hcuota : (0 : UInt32) < maxPerWindow := UInt32.lt_trans (by decide) hmax
  obtain ⟨n, hn⟩ : ∃ n, maxPerWindow.toNat = n + 1 :=
    Nat.exists_eq_add_one.mpr (UInt32.lt_iff_toNat_lt.mp hcuota)
  obtain ⟨r, hr, h, ⟨hmaxr, hwindowr⟩, hlog, hl⟩ :=
    registrar_dos hmax window maxTracked ip
  have hvencida : ∀ e, r.rl.hits.lookup ip = some e → ¬r.rl.Vigente (window + 1) e := by
    intro e he
    cases he.symm.trans hl
    show ¬window + 1 - 0 ≤ r.rl.window
    omega
  rw [← hmaxr] at hcuota
  obtain ⟨h', ⟨hmax', hwindow'⟩, hlog', hl'⟩ :=
    paso_admite h (.inl (mem_of_lookup hl)) (entrada_of_vencida hvencida) hcuota
  have hviva : window + 1 - (window + 1) ≤ (r.paso (ip, window + 1)).rl.window := by omega
  have hresto : ((0 : UInt32) + 1).toNat + n ≤
      (r.paso (ip, window + 1)).rl.maxPerWindow.toNat := by
    rw [hmax', hmaxr, hn]
    exact (Nat.add_comm 1 n).le
  rw [rafaga, registrar_append, hr, hn, List.replicate_succ, List.foldl_cons,
    foldl_paso_replicate h' hl' hviva hresto, hlog', hlog, ← List.replicate_succ,
    List.replicate_succ', List.append_assoc]
  rfl

/-- The burst passes the quota inside the two last instants. -/
theorem not_desliza_rafaga {maxPerWindow : UInt32} {window : Nat} (hmax : 1 < maxPerWindow)
    (hwindow : 0 < window) (maxTracked : Nat) (ip : IpAddr) :
    ¬Desliza maxPerWindow window (registrar (new maxPerWindow window maxTracked)
      (rafaga maxPerWindow window ip)).admitidas := by
  intro h
  have hcuenta := h ip window (window + 1) (by omega)
  have hultimas : decide (ip = ip ∧ window ≤ window + 1 ∧ window + 1 ≤ window + 1) = true :=
    decide_eq_true ⟨rfl, Nat.le_succ window, le_rfl⟩
  have hsegunda : 0 < [(ip, window), (ip, 0)].countP
      fun c => decide (c.1 = ip ∧ window ≤ c.2 ∧ c.2 ≤ window + 1) :=
    List.countP_pos_iff.mpr ⟨(ip, window), List.mem_cons_self,
      decide_eq_true ⟨rfl, le_rfl, Nat.le_succ window⟩⟩
  rw [registrar_rafaga hmax hwindow, enIntervalo, List.countP_append, List.countP_replicate,
    if_pos hultimas] at hcuenta
  omega

/-- A run slides when no window of an IP starts within a window of its admitted calls, and
every run does exactly when the limits are narrow. -/
theorem ventana_desliza_iff (maxPerWindow : UInt32) (window maxTracked : Nat) :
    (∀ llamadas, Creciente llamadas → Separadas (new maxPerWindow window maxTracked) llamadas →
        Desliza maxPerWindow window
          (registrar (new maxPerWindow window maxTracked) llamadas).admitidas) ∧
      ((∀ llamadas, Creciente llamadas → Desliza maxPerWindow window
          (registrar (new maxPerWindow window maxTracked) llamadas).admitidas) ↔
        maxPerWindow ≤ 1 ∨ window = 0) := by
  have hsep : ∀ llamadas, Creciente llamadas →
      Separadas (new maxPerWindow window maxTracked) llamadas →
      Desliza maxPerWindow window
        (registrar (new maxPerWindow window maxTracked) llamadas).admitidas := by
    intro llamadas h hsep
    obtain ⟨_, hmax, hwindow, _⟩ :=
      correr_acotado (acotado_new maxPerWindow window maxTracked) llamadas
    have hdesliza := (registrar_ordenado rfl h hsep).desliza
    rwa [rl_registrar, hmax, hwindow] at hdesliza
  refine ⟨hsep, fun htodas => ?_, fun hest llamadas h => ?_⟩
  · by_contra hancha
    obtain ⟨hmax, hwindow⟩ := not_or.mp hancha
    have ip : IpAddr := .v4 (List.Vector.replicate 4 0)
    exact not_desliza_rafaga (UInt32.not_le.mp hmax) (Nat.pos_of_ne_zero hwindow) maxTracked ip
      (htodas _ (creciente_rafaga maxPerWindow window ip))
  · exact hsep llamadas h (separadas_of_estrecha hest maxTracked h)

theorem ventana_desliza_iff_una :
    Desliza 1 60 (registrar (new 1 60 10)
      (rafaga 1 60 (.v4 (List.Vector.replicate 4 10)))).admitidas := by
  have hcrece := creciente_rafaga 1 60 (.v4 (List.Vector.replicate 4 10))
  have hest : Estrecha 1 60 := .inl (by decide)
  apply (ventana_desliza_iff 1 60 10).1 _ hcrece
  exact separadas_of_estrecha hest 10 hcrece

/-- Two queries a minute: three are admitted within two instants. -/
theorem ventana_no_desliza :
    Creciente (rafaga 2 60000000000 (.v4 (List.Vector.replicate 4 10))) ∧
      ¬Desliza 2 60000000000 (registrar (new 2 60000000000 1000)
        (rafaga 2 60000000000 (.v4 (List.Vector.replicate 4 10)))).admitidas := by
  refine ⟨creciente_rafaga _ _ _, fun h => ?_⟩
  have hcuenta := h (.v4 (List.Vector.replicate 4 10)) 60000000000 60000000001 (by decide)
  revert hcuenta
  decide

end Quipu.NetLimit.RateLimiter
