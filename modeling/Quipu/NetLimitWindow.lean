import Quipu.NetLimit
import Mathlib.Data.List.Count
import Mathlib.Data.List.Induction

namespace Quipu.NetLimit.RateLimiter

open Tabla

/-- A limiter with the calls it has admitted, the last one first. -/
structure Registro where
  rl : RateLimiter
  admitidas : List (IpAddr × Nat)

def Registro.paso (r : Registro) (c : IpAddr × Nat) : Registro where
  rl := (r.rl.allowAt c.1 c.2).2
  admitidas := if (r.rl.allowAt c.1 c.2).1 then c :: r.admitidas else r.admitidas

def registrar (rl : RateLimiter) (llamadas : List (IpAddr × Nat)) : Registro :=
  llamadas.foldl Registro.paso ⟨rl, []⟩

/-- The admitted calls of `ip` from `a` to `b`. -/
def enIntervalo (admitidas : List (IpAddr × Nat)) (ip : IpAddr) (a b : Nat) : Nat :=
  admitidas.countP fun c => c.1 = ip ∧ a ≤ c.2 ∧ c.2 ≤ b

/-- The admitted calls of `ip` from `a` on. -/
def desde (admitidas : List (IpAddr × Nat)) (ip : IpAddr) (a : Nat) : Nat :=
  admitidas.countP fun c => c.1 = ip ∧ a ≤ c.2

/-- No interval as long as the window holds more than `maxPerWindow` admitted calls of an IP. -/
def Desliza (maxPerWindow : UInt32) (window : Nat) (admitidas : List (IpAddr × Nat)) : Prop :=
  ∀ ip a b, b ≤ a + window → enIntervalo admitidas ip a b ≤ maxPerWindow.toNat

def Creciente (llamadas : List (IpAddr × Nat)) : Prop := llamadas.Pairwise fun c d => c.2 ≤ d.2

/-- A call that starts a window for its IP comes more than a window after every call of that
IP admitted before. -/
def SinSolape (r : Registro) (c : IpAddr × Nat) : Prop :=
  (∀ e, r.rl.hits.lookup c.1 = some e → ¬r.rl.Vigente c.2 e) →
    ∀ d ∈ r.admitidas, d.1 = c.1 → d.2 + r.rl.window < c.2

def Separadas (rl : RateLimiter) (llamadas : List (IpAddr × Nat)) : Prop :=
  ∀ previas c resto, llamadas = previas ++ c :: resto → SinSolape (registrar rl previas) c

theorem registrar_concat (rl : RateLimiter) (llamadas : List (IpAddr × Nat)) (c : IpAddr × Nat) :
    registrar rl (llamadas ++ [c]) = (registrar rl llamadas).paso c := by
  simp only [registrar, List.foldl_append, List.foldl_cons, List.foldl_nil]

theorem registrar_append (rl : RateLimiter) (xs ys : List (IpAddr × Nat)) :
    registrar rl (xs ++ ys) = ys.foldl Registro.paso (registrar rl xs) := by
  simp only [registrar, List.foldl_append]

theorem rl_foldl_paso (r : Registro) (llamadas : List (IpAddr × Nat)) :
    (llamadas.foldl Registro.paso r).rl = r.rl.correr llamadas := by
  induction llamadas generalizing r with
  | nil => rfl
  | cons c resto ih => exact ih (r.paso c)

theorem rl_registrar (rl : RateLimiter) (llamadas : List (IpAddr × Nat)) :
    (registrar rl llamadas).rl = rl.correr llamadas := rl_foldl_paso ⟨rl, []⟩ llamadas

theorem Creciente.concat {llamadas : List (IpAddr × Nat)} {c : IpAddr × Nat}
    (h : Creciente (llamadas ++ [c])) : Creciente llamadas ∧ ∀ d ∈ llamadas, d.2 ≤ c.2 := by
  obtain ⟨h₁, _, h₂⟩ := List.pairwise_append.mp h
  exact ⟨h₁, fun d hd => h₂ d hd c (List.mem_singleton_self c)⟩

theorem Separadas.concat {rl : RateLimiter} {llamadas : List (IpAddr × Nat)} {c : IpAddr × Nat}
    (h : Separadas rl (llamadas ++ [c])) :
    Separadas rl llamadas ∧ SinSolape (registrar rl llamadas) c := by
  refine ⟨fun previas d resto he => h previas d (resto ++ [c]) ?_, h llamadas c [] rfl⟩
  rw [he, List.append_assoc, List.cons_append]

/-- The table after a call, read at its own IP and at the others. -/
theorem lookup_de_allowAt (rl : RateLimiter) (ip : IpAddr) (now : Nat) :
    (∀ ip' e, ip' ≠ ip → (rl.allowAt ip now).2.hits.lookup ip' = some e →
        rl.hits.lookup ip' = some e) ∧
      ((rl.allowAt ip now).1 = true ∧ (rl.entrada ip now).1 < rl.maxPerWindow ∧
          (rl.allowAt ip now).2.hits.lookup ip =
            some ((rl.entrada ip now).1 + 1, (rl.entrada ip now).2) ∨
        (rl.allowAt ip now).1 = false ∧
          ((rl.allowAt ip now).2.hits.lookup ip = none ∨
            (rl.allowAt ip now).2.hits.lookup ip = some (rl.entrada ip now) ∧
              rl.maxPerWindow ≤ (rl.entrada ip now).1)) := by
  obtain ⟨previo, hprevio, hcaso⟩ := allowAt_cases rl ip now
  have hmira : ∀ ip' e, previo.hits.lookup ip' = some e → rl.hits.lookup ip' = some e := by
    rcases hprevio with ⟨rfl, _⟩ | rfl
    · exact fun ip' e h => h
    · exact fun ip' e h => (lookup_purgar.mp h).1
  have hent : previo.entrada ip now = rl.entrada ip now ∧
      previo.maxPerWindow = rl.maxPerWindow := by
    rcases hprevio with ⟨rfl, _⟩ | rfl
    · exact ⟨rfl, rfl⟩
    · exact ⟨entrada_purgar rl ip now, rfl⟩
  rcases hcaso with ⟨_, hnueva, hr⟩ | ⟨_, hr⟩
  · rw [hr]
    exact ⟨fun ip' e _ h => hmira ip' e h,
      .inr ⟨rfl, .inl (AList.lookup_eq_none.mpr hnueva)⟩⟩
  · obtain ⟨e, hcontar, hinicio, hcuenta⟩ := contar_eq previo ip now
    rw [hent.1] at hinicio hcuenta
    rw [hent.2] at hcuenta
    rw [hr, hcontar]
    refine ⟨fun ip' e' hne h => hmira ip' e' ?_, ?_⟩
    · rwa [AList.lookup_insert_ne hne] at h
    · rw [AList.lookup_insert]
      rcases hcuenta with ⟨hno, hmax, hc⟩ | ⟨hsi, hmax, hc⟩
      · exact .inr ⟨hno, .inr ⟨congrArg some (Prod.ext hc hinicio), hmax⟩⟩
      · exact .inl ⟨hsi, hmax, congrArg some (Prod.ext hc hinicio)⟩

theorem paso_limites (r : Registro) (c : IpAddr × Nat) :
    (r.paso c).rl.maxPerWindow = r.rl.maxPerWindow ∧ (r.paso c).rl.window = r.rl.window :=
  ⟨(allowAt_limites r.rl c.1 c.2).1, (allowAt_limites r.rl c.1 c.2).2.1⟩

theorem paso_otra {r : Registro} {c : IpAddr × Nat} {ip : IpAddr} {e : Entrada} (hip : ip ≠ c.1)
    (he : (r.paso c).rl.hits.lookup ip = some e) : r.rl.hits.lookup ip = some e :=
  (lookup_de_allowAt r.rl c.1 c.2).1 ip e hip he

/-- A call either is logged and counted at its own IP, or is neither. -/
theorem paso_cases (r : Registro) (c : IpAddr × Nat) :
    (r.paso c).admitidas = c :: r.admitidas ∧ (r.rl.entrada c.1 c.2).1 < r.rl.maxPerWindow ∧
        (r.paso c).rl.hits.lookup c.1 =
          some ((r.rl.entrada c.1 c.2).1 + 1, (r.rl.entrada c.1 c.2).2) ∨
      (r.paso c).admitidas = r.admitidas ∧
        ((r.paso c).rl.hits.lookup c.1 = none ∨
          (r.paso c).rl.hits.lookup c.1 = some (r.rl.entrada c.1 c.2) ∧
            r.rl.maxPerWindow ≤ (r.rl.entrada c.1 c.2).1) := by
  rcases (lookup_de_allowAt r.rl c.1 c.2).2 with ⟨hsi, h⟩ | ⟨hno, h⟩
  · exact .inl ⟨if_pos hsi, h⟩
  · exact .inr ⟨if_neg (by simp only [hno, Bool.false_eq_true, not_false_eq_true]), h⟩

/-- What a call leaves at its own IP is the window it counted in. -/
theorem paso_inicio {r : Registro} {c : IpAddr × Nat} {e : Entrada}
    (he : (r.paso c).rl.hits.lookup c.1 = some e) : e.2 = (r.rl.entrada c.1 c.2).2 := by
  rcases paso_cases r c with ⟨_, _, hl⟩ | ⟨_, hl | ⟨hl, _⟩⟩
  · cases he.symm.trans hl
    rfl
  · cases he.symm.trans hl
  · cases he.symm.trans hl
    rfl

theorem mem_paso {r : Registro} {c d : IpAddr × Nat} (hd : d ∈ (r.paso c).admitidas) :
    d = c ∨ d ∈ r.admitidas := by
  rcases paso_cases r c with ⟨hlog, _⟩ | ⟨hlog, _⟩
  · rw [hlog] at hd
    exact List.mem_cons.mp hd
  · rw [hlog] at hd
    exact .inr hd

/-- An entry counts the admitted calls of its window, and every other admitted call of its IP
came more than a window before it. -/
def Cuadra (window : Nat) (admitidas : List (IpAddr × Nat)) (ip : IpAddr) (e : Entrada) : Prop :=
  e.1.toNat = desde admitidas ip e.2 ∧
    ∀ d ∈ admitidas, d.1 = ip → e.2 ≤ d.2 ∨ d.2 + window < e.2

/-- All that a run has seen happened by the time `reloj`. -/
structure AlDia (r : Registro) (reloj : Nat) : Prop where
  entradas : ∀ ip e, r.rl.hits.lookup ip = some e → e.2 ≤ reloj
  admitidas : ∀ d ∈ r.admitidas, d.2 ≤ reloj

theorem AlDia.entrada {r : Registro} {c : IpAddr × Nat} (h : AlDia r c.2) :
    (r.rl.entrada c.1 c.2).2 ≤ c.2 := by
  rcases entrada_cases r.rl c.1 c.2 with ⟨e, he, _, hent⟩ | ⟨_, hent⟩
  · rw [hent]
    exact h.entradas c.1 e he
  · rw [hent]

theorem AlDia.paso {r : Registro} {c : IpAddr × Nat} (h : AlDia r c.2) : AlDia (r.paso c) c.2 := by
  refine ⟨fun ip e he => ?_, fun d hd => ?_⟩
  · by_cases hip : ip = c.1
    · subst hip
      rw [paso_inicio he]
      exact h.entrada
    · exact h.entradas ip e (paso_otra hip he)
  · rcases mem_paso hd with rfl | hd
    · exact le_rfl
    · exact h.admitidas d hd

theorem AlDia.mono {r : Registro} {t u : Nat} (h : AlDia r t) (htu : t ≤ u) : AlDia r u :=
  ⟨fun ip e he => (h.entradas ip e he).trans htu, fun d hd => (h.admitidas d hd).trans htu⟩

theorem registrar_alDia {rl : RateLimiter} (hnada : rl.hits = ∅) {llamadas : List (IpAddr × Nat)}
    (h : Creciente llamadas) {reloj : Nat} (hreloj : ∀ d ∈ llamadas, d.2 ≤ reloj) :
    AlDia (registrar rl llamadas) reloj := by
  induction llamadas using List.reverseRecOn generalizing reloj with
  | nil =>
    refine ⟨fun ip e he => ?_, fun d hd => by cases hd⟩
    change rl.hits.lookup ip = some e at he
    rw [hnada] at he
    cases he
  | append_singleton previas c ih =>
    rw [registrar_concat]
    have hc := hreloj c (List.mem_append_right _ (List.mem_singleton_self c))
    exact (ih h.concat.1 h.concat.2).paso.mono hc

theorem enIntervalo_cons (c : IpAddr × Nat) (admitidas : List (IpAddr × Nat)) (ip : IpAddr)
    (a b : Nat) : enIntervalo (c :: admitidas) ip a b = enIntervalo admitidas ip a b +
      if c.1 = ip ∧ a ≤ c.2 ∧ c.2 ≤ b then 1 else 0 := by
  simp only [enIntervalo, List.countP_cons, decide_eq_true_eq]

theorem desde_cons (c : IpAddr × Nat) (admitidas : List (IpAddr × Nat)) (ip : IpAddr) (a : Nat) :
    desde (c :: admitidas) ip a = desde admitidas ip a + if c.1 = ip ∧ a ≤ c.2 then 1 else 0 := by
  simp only [desde, List.countP_cons, decide_eq_true_eq]

theorem toNat_add_one {k m : UInt32} (h : k < m) : (k + 1).toNat = k.toNat + 1 := by
  have hk := UInt32.lt_iff_toNat_lt.mp h
  have hm := m.toNat_lt
  rw [UInt32.toNat_add, UInt32.toNat_one]
  omega

/-- The window a call counts in squares with the log, when no window starts over another. -/
theorem cuadra_entrada {r : Registro} {c : IpAddr × Nat}
    (h : ∀ ip e, r.rl.hits.lookup ip = some e → Cuadra r.rl.window r.admitidas ip e)
    (hsolape : SinSolape r c) :
    Cuadra r.rl.window r.admitidas c.1 (r.rl.entrada c.1 c.2) := by
  rcases entrada_cases r.rl c.1 c.2 with ⟨e, he, _, hent⟩ | ⟨hn, hent⟩
  · rw [hent]
    exact h c.1 e he
  · have hlejos := hsolape hn
    rw [hent]
    refine ⟨?_, fun d hd hip => .inr (hlejos d hd hip)⟩
    show 0 = desde r.admitidas c.1 c.2
    refine (List.countP_eq_zero.mpr fun d hd => ?_).symm
    rw [decide_eq_true_eq]
    rintro ⟨hip, hle⟩
    have := hlejos d hd hip
    omega

/-- Counting a call keeps the entry square with the log. -/
theorem Cuadra.cons {window : Nat} {admitidas : List (IpAddr × Nat)} {c : IpAddr × Nat}
    {e : Entrada} {m : UInt32} (h : Cuadra window admitidas c.1 e) (hm : e.1 < m)
    (hle : e.2 ≤ c.2) : Cuadra window (c :: admitidas) c.1 (e.1 + 1, e.2) := by
  refine ⟨?_, fun d hd hip => ?_⟩
  · rw [desde_cons, if_pos ⟨rfl, hle⟩, ← h.1]
    exact toNat_add_one hm
  · rcases List.mem_cons.mp hd with rfl | hd
    · exact .inl hle
    · exact h.2 d hd hip

theorem Cuadra.cons_otra {window : Nat} {admitidas : List (IpAddr × Nat)} {c : IpAddr × Nat}
    {ip : IpAddr} {e : Entrada} (h : Cuadra window admitidas ip e) (hip : ip ≠ c.1) :
    Cuadra window (c :: admitidas) ip e := by
  refine ⟨?_, fun d hd hd' => ?_⟩
  · rw [desde_cons, if_neg fun hc => hip hc.1.symm]
    exact h.1
  · rcases List.mem_cons.mp hd with rfl | hd
    · exact absurd hd'.symm hip
    · exact h.2 d hd hd'

/-- The calls of an interval that ends after the current window started belong to it. -/
theorem Cuadra.intervalo_le {window : Nat} {admitidas : List (IpAddr × Nat)} {ip : IpAddr}
    {e : Entrada} (h : Cuadra window admitidas ip e) {a b : Nat} (hab : b ≤ a + window)
    (hb : e.2 ≤ b) : enIntervalo admitidas ip a b ≤ e.1.toNat := by
  rw [h.1]
  refine List.countP_mono_left fun d hd hin => ?_
  rw [decide_eq_true_eq] at hin ⊢
  rcases h.2 d hd hin.1 with hle | hlejos
  · exact ⟨hin.1, hle⟩
  · omega

theorem Desliza.cons {window : Nat} {admitidas : List (IpAddr × Nat)} {c : IpAddr × Nat}
    {e : Entrada} {m : UInt32} (hd : Desliza m window admitidas)
    (h : Cuadra window admitidas c.1 e) (hm : e.1 < m) (hle : e.2 ≤ c.2) :
    Desliza m window (c :: admitidas) := by
  intro ip a b hab
  rw [enIntervalo_cons]
  by_cases hin : c.1 = ip ∧ a ≤ c.2 ∧ c.2 ≤ b
  · obtain ⟨rfl, _, hcb⟩ := hin
    have hbloque := h.intervalo_le hab (hle.trans hcb)
    have hcuota := UInt32.lt_iff_toNat_lt.mp hm
    split
    next => omega
    next => omega
  · rw [if_neg hin]
    exact hd ip a b hab

/-- What a run with separated windows keeps. -/
structure Ordenado (r : Registro) : Prop where
  cuadra : ∀ ip e, r.rl.hits.lookup ip = some e → Cuadra r.rl.window r.admitidas ip e
  desliza : Desliza r.rl.maxPerWindow r.rl.window r.admitidas

theorem Ordenado.paso {r : Registro} {c : IpAddr × Nat} (h : Ordenado r) (hdia : AlDia r c.2)
    (hsolape : SinSolape r c) : Ordenado (r.paso c) := by
  obtain ⟨hmax, hwindow⟩ := paso_limites r c
  have hcuadra := cuadra_entrada h.cuadra hsolape
  rcases paso_cases r c with ⟨hlog, hcuota, hl⟩ | ⟨hlog, hl⟩
  · refine ⟨fun ip e he => ?_, ?_⟩
    · rw [hlog, hwindow]
      by_cases hip : ip = c.1
      · subst hip
        cases he.symm.trans hl
        exact hcuadra.cons hcuota hdia.entrada
      · exact (h.cuadra ip e (paso_otra hip he)).cons_otra hip
    · rw [hlog, hmax, hwindow]
      exact h.desliza.cons hcuadra hcuota hdia.entrada
  · refine ⟨fun ip e he => ?_, ?_⟩
    · rw [hlog, hwindow]
      by_cases hip : ip = c.1
      · subst hip
        rcases hl with hl | ⟨hl, _⟩
        · cases he.symm.trans hl
        · cases he.symm.trans hl
          exact hcuadra
      · exact h.cuadra ip e (paso_otra hip he)
    · rw [hlog, hmax, hwindow]
      exact h.desliza

theorem registrar_ordenado {rl : RateLimiter} (hnada : rl.hits = ∅)
    {llamadas : List (IpAddr × Nat)} (h : Creciente llamadas) (hsep : Separadas rl llamadas) :
    Ordenado (registrar rl llamadas) := by
  induction llamadas using List.reverseRecOn with
  | nil =>
    refine ⟨fun ip e he => ?_, fun ip a b _ => Nat.zero_le _⟩
    change rl.hits.lookup ip = some e at he
    rw [hnada] at he
    cases he
  | append_singleton previas c ih =>
    rw [registrar_concat]
    exact (ih h.concat.1 hsep.concat.1).paso (registrar_alDia hnada h.concat.1 h.concat.2)
      hsep.concat.2

end Quipu.NetLimit.RateLimiter
