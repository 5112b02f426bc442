import Quipu.Fallo
import Quipu.Tabla
import Mathlib.Tactic.Common

namespace Quipu

inductive IpAddr where
  | v4 (octets : Arr 4)
  | v6 (octets : Arr 16)
  deriving DecidableEq

namespace NetLimit

open Tabla

/-- The count of an IP and the start of its window, in nanoseconds. -/
abbrev Entrada := UInt32 × Nat

/-- `max_per_window` queries for each IP in `window`, and at most `max_tracked` IPs in memory. -/
structure RateLimiter where
  hits : AList fun _ : IpAddr => Entrada
  maxPerWindow : UInt32
  window : Nat
  maxTracked : Nat

def RateLimiter.new (maxPerWindow : UInt32) (window maxTracked : Nat) : RateLimiter :=
  ⟨∅, maxPerWindow, window, max maxTracked 1⟩

namespace RateLimiter

def tracked (rl : RateLimiter) : Nat := tamano rl.hits

/-- `duration_since` is zero for a start in the future. -/
def Vigente (rl : RateLimiter) (now : Nat) (e : Entrada) : Prop := now - e.2 ≤ rl.window

instance (rl : RateLimiter) (now : Nat) (e : Entrada) : Decidable (rl.Vigente now e) :=
  inferInstanceAs (Decidable (_ ≤ _))

def purgar (rl : RateLimiter) (now : Nat) : RateLimiter :=
  { rl with hits := retener (fun e => decide (rl.Vigente now e.2)) rl.hits }

def entrada (rl : RateLimiter) (ip : IpAddr) (now : Nat) : Entrada :=
  let entry := (rl.hits.lookup ip).getD (0, now)
  if now - entry.2 > rl.window then (0, now) else entry

def contar (rl : RateLimiter) (ip : IpAddr) (now : Nat) : Bool × RateLimiter :=
  let entry := rl.entrada ip now
  if entry.1 ≥ rl.maxPerWindow then (false, { rl with hits := rl.hits.insert ip entry })
  else (true, { rl with hits := rl.hits.insert ip (entry.1 + 1, entry.2) })

def allowAt (rl : RateLimiter) (ip : IpAddr) (now : Nat) : Bool × RateLimiter :=
  if rl.tracked ≥ rl.maxTracked then
    let rl := rl.purgar now
    if rl.tracked ≥ rl.maxTracked ∧ ip ∉ rl.hits then (false, rl) else rl.contar ip now
  else rl.contar ip now

/-- What a call can do: refuse a new IP, or count the call on a table that has lost expired
entries alone and has room for the IP. -/
theorem allowAt_cases (rl : RateLimiter) (ip : IpAddr) (now : Nat) :
    ∃ previo : RateLimiter, (previo = rl ∧ rl.tracked < rl.maxTracked ∨ previo = rl.purgar now) ∧
      (previo.tracked ≥ previo.maxTracked ∧ ip ∉ previo.hits ∧
          rl.allowAt ip now = (false, previo) ∨
        (previo.tracked < previo.maxTracked ∨ ip ∈ previo.hits) ∧
          rl.allowAt ip now = previo.contar ip now) := by
  unfold allowAt
  split
  next =>
    refine ⟨rl.purgar now, .inr rfl, ?_⟩
    by_cases hlleno : (rl.purgar now).tracked ≥ (rl.purgar now).maxTracked ∧
        ip ∉ (rl.purgar now).hits
    · exact .inl ⟨hlleno.1, hlleno.2, if_pos hlleno⟩
    · refine .inr ⟨?_, if_neg hlleno⟩
      rcases not_and_or.mp hlleno with h | h
      · exact .inl (not_le.mp h)
      · exact .inr (not_not.mp h)
  next h => exact ⟨rl, .inl ⟨rfl, not_le.mp h⟩, .inr ⟨.inl (not_le.mp h), rfl⟩⟩

theorem contar_eq (rl : RateLimiter) (ip : IpAddr) (now : Nat) :
    ∃ e, (rl.contar ip now).2 = { rl with hits := rl.hits.insert ip e } ∧
      e.2 = (rl.entrada ip now).2 ∧
      ((rl.contar ip now).1 = false ∧ rl.maxPerWindow ≤ (rl.entrada ip now).1 ∧
          e.1 = (rl.entrada ip now).1 ∨
        (rl.contar ip now).1 = true ∧ (rl.entrada ip now).1 < rl.maxPerWindow ∧
          e.1 = (rl.entrada ip now).1 + 1) := by
  by_cases h : (rl.entrada ip now).1 ≥ rl.maxPerWindow
  · refine ⟨rl.entrada ip now, ?_, rfl, .inl ⟨?_, h, rfl⟩⟩
    · simp only [contar, if_pos h]
    · simp only [contar, if_pos h]
  · refine ⟨((rl.entrada ip now).1 + 1, (rl.entrada ip now).2), ?_, rfl,
      .inr ⟨?_, UInt32.not_le.mp h, rfl⟩⟩
    · simp only [contar, if_neg h]
    · simp only [contar, if_neg h]

/-- A live entry is kept; an IP without one starts a window now. -/
theorem entrada_cases (rl : RateLimiter) (ip : IpAddr) (now : Nat) :
    (∃ e, rl.hits.lookup ip = some e ∧ rl.Vigente now e ∧ rl.entrada ip now = e) ∨
      (∀ e, rl.hits.lookup ip = some e → ¬rl.Vigente now e) ∧
        rl.entrada ip now = (0, now) := by
  unfold entrada Vigente
  cases h : rl.hits.lookup ip with
  | none => exact .inr ⟨by simp, by simp⟩
  | some e =>
    by_cases hv : now - e.2 ≤ rl.window
    · refine .inl ⟨e, rfl, hv, ?_⟩
      simp only [Option.getD_some, gt_iff_lt, if_neg (Nat.not_lt.mpr hv)]
    · refine .inr ⟨fun e' he => (Option.some.inj he) ▸ hv, ?_⟩
      simp only [Option.getD_some, gt_iff_lt, if_pos (Nat.not_le.mp hv)]

theorem entrada_of_vigente {rl : RateLimiter} {ip : IpAddr} {now : Nat} {e : Entrada}
    (he : rl.hits.lookup ip = some e) (hv : rl.Vigente now e) : rl.entrada ip now = e := by
  rcases entrada_cases rl ip now with ⟨e', he', _, hent⟩ | ⟨hn, _⟩
  · rw [hent]
    exact Option.some.inj (he'.symm.trans he)
  · exact absurd hv (hn e he)

theorem entrada_of_vencida {rl : RateLimiter} {ip : IpAddr} {now : Nat}
    (h : ∀ e, rl.hits.lookup ip = some e → ¬rl.Vigente now e) : rl.entrada ip now = (0, now) := by
  rcases entrada_cases rl ip now with ⟨e, he, hv, _⟩ | ⟨_, hent⟩
  · exact absurd hv (h e he)
  · exact hent

theorem lookup_purgar {rl : RateLimiter} {ip : IpAddr} {now : Nat} {e : Entrada} :
    (rl.purgar now).hits.lookup ip = some e ↔
      rl.hits.lookup ip = some e ∧ rl.Vigente now e := by
  rw [purgar, lookup_retener, decide_eq_true_eq]

theorem tracked_purgar_le (rl : RateLimiter) (now : Nat) :
    (rl.purgar now).tracked ≤ rl.tracked := tamano_retener_le _ rl.hits

theorem entrada_purgar (rl : RateLimiter) (ip : IpAddr) (now : Nat) :
    (rl.purgar now).entrada ip now = rl.entrada ip now := by
  rcases entrada_cases rl ip now with ⟨e, he, hv, h⟩ | ⟨hn, h⟩
  · rw [h]
    exact entrada_of_vigente (lookup_purgar.mpr ⟨he, hv⟩) hv
  · rw [h]
    exact entrada_of_vencida fun e he => hn e (lookup_purgar.mp he).1

/-- `allow_at` over the calls of a run, in order. -/
def correr (rl : RateLimiter) (llamadas : List (IpAddr × Nat)) : RateLimiter :=
  llamadas.foldl (fun rl c => (rl.allowAt c.1 c.2).2) rl

/-- The table within its bounds. -/
structure Acotado (rl : RateLimiter) : Prop where
  hueco : 1 ≤ rl.maxTracked
  tabla : rl.tracked ≤ rl.maxTracked
  cuotas : ∀ ip e, rl.hits.lookup ip = some e → e.1 ≤ rl.maxPerWindow

theorem acotado_new (maxPerWindow : UInt32) (window maxTracked : Nat) :
    (new maxPerWindow window maxTracked).Acotado where
  hueco := le_max_right _ _
  tabla := Nat.zero_le _
  cuotas := fun ip e h => by cases h

theorem Acotado.purgar {rl : RateLimiter} (h : rl.Acotado) (now : Nat) :
    (rl.purgar now).Acotado where
  hueco := h.hueco
  tabla := (tracked_purgar_le rl now).trans h.tabla
  cuotas := fun ip e he => h.cuotas ip e (lookup_purgar.mp he).1

theorem add_one_le_of_lt {a b : UInt32} (h : a < b) : a + 1 ≤ b := by grind

theorem Acotado.contar {rl : RateLimiter} (h : rl.Acotado) {ip : IpAddr} {now : Nat}
    (hcabe : rl.tracked < rl.maxTracked ∨ ip ∈ rl.hits) : (rl.contar ip now).2.Acotado := by
  obtain ⟨e, hr, _, hcuenta⟩ := contar_eq rl ip now
  rw [hr]
  refine ⟨h.hueco, ?_, ?_⟩
  · show tamano (rl.hits.insert ip e) ≤ rl.maxTracked
    by_cases hmem : ip ∈ rl.hits
    · rw [tamano_insert_of_mem hmem]
      exact h.tabla
    · rw [tamano_insert_of_notMem hmem]
      exact hcabe.resolve_right hmem
  · intro ip' e' he'
    rcases lookup_insert_eq he' with ⟨rfl, rfl⟩ | ⟨_, hviejo⟩
    · show e'.1 ≤ rl.maxPerWindow
      rcases hcuenta with ⟨_, hmax, hc⟩ | ⟨_, hmax, hc⟩
      · rw [hc]
        rcases entrada_cases rl ip' now with ⟨e, he, _, hent⟩ | ⟨_, hent⟩
        · rw [hent]
          exact h.cuotas ip' e he
        · rw [hent]
          exact UInt32.zero_le
      · rw [hc]
        exact add_one_le_of_lt hmax
    · exact h.cuotas ip' e' hviejo

theorem Acotado.allowAt {rl : RateLimiter} (h : rl.Acotado) (ip : IpAddr) (now : Nat) :
    (rl.allowAt ip now).2.Acotado := by
  obtain ⟨previo, hprevio, hcaso⟩ := allowAt_cases rl ip now
  have hacotado : previo.Acotado := by
    rcases hprevio with ⟨rfl, _⟩ | rfl
    · exact h
    · exact h.purgar now
  rcases hcaso with ⟨_, _, hr⟩ | ⟨hcabe, hr⟩
  · rw [hr]
    exact hacotado
  · rw [hr]
    exact hacotado.contar hcabe

theorem allowAt_limites (rl : RateLimiter) (ip : IpAddr) (now : Nat) :
    (rl.allowAt ip now).2.maxPerWindow = rl.maxPerWindow ∧
      (rl.allowAt ip now).2.window = rl.window ∧
      (rl.allowAt ip now).2.maxTracked = rl.maxTracked := by
  obtain ⟨previo, hprevio, hcaso⟩ := allowAt_cases rl ip now
  have hlimites : previo.maxPerWindow = rl.maxPerWindow ∧ previo.window = rl.window ∧
      previo.maxTracked = rl.maxTracked := by
    rcases hprevio with ⟨rfl, _⟩ | rfl
    · exact ⟨rfl, rfl, rfl⟩
    · exact ⟨rfl, rfl, rfl⟩
  rcases hcaso with ⟨_, _, hr⟩ | ⟨_, hr⟩
  · rw [hr]
    exact hlimites
  · obtain ⟨e, hcontar, _⟩ := contar_eq previo ip now
    rw [hr, hcontar]
    exact hlimites

theorem correr_acotado {rl : RateLimiter} (h : rl.Acotado) (llamadas : List (IpAddr × Nat)) :
    (rl.correr llamadas).Acotado ∧ (rl.correr llamadas).maxPerWindow = rl.maxPerWindow ∧
      (rl.correr llamadas).window = rl.window ∧
      (rl.correr llamadas).maxTracked = rl.maxTracked := by
  induction llamadas generalizing rl with
  | nil => exact ⟨h, rfl, rfl, rfl⟩
  | cons c resto ih =>
    obtain ⟨hm, hw, ht⟩ := allowAt_limites rl c.1 c.2
    have := ih (h.allowAt c.1 c.2)
    rwa [hm, hw, ht] at this

/-- A full table of live entries refuses a new IP and stays as it is. -/
theorem allowAt_lleno {rl : RateLimiter} {ip : IpAddr} {now : Nat}
    (hlleno : rl.maxTracked ≤ rl.tracked)
    (hvivas : ∀ ip' e, rl.hits.lookup ip' = some e → rl.Vigente now e) (hnueva : ip ∉ rl.hits) :
    rl.allowAt ip now = (false, rl) := by
  have hpurga : rl.purgar now = rl := by
    have hhits : (rl.purgar now).hits = rl.hits :=
      retener_eq_self (forall_entries.mpr fun a b h => decide_eq_true (hvivas a b h))
    exact congrArg (fun hits => { rl with hits := hits }) hhits
  unfold allowAt
  rw [if_pos hlleno, hpurga]
  exact if_pos ⟨hlleno, hnueva⟩

/-- A call keeps the window of every live entry and only raises the count of its own IP. -/
theorem lookup_allowAt {rl : RateLimiter} (ip : IpAddr) {ip' : IpAddr} {now : Nat} {e : Entrada}
    (hacotado : rl.Acotado) (he : rl.hits.lookup ip' = some e) (hv : rl.Vigente now e) :
    ∃ c, (rl.allowAt ip now).2.hits.lookup ip' = some (c, e.2) ∧ e.1 ≤ c ∧
      (ip' ≠ ip → c = e.1) := by
  obtain ⟨previo, hprevio, hcaso⟩ := allowAt_cases rl ip now
  have hmira : previo.hits.lookup ip' = some e ∧ previo.Vigente now e := by
    rcases hprevio with ⟨rfl, _⟩ | rfl
    · exact ⟨he, hv⟩
    · exact ⟨lookup_purgar.mpr ⟨he, hv⟩, hv⟩
  rcases hcaso with ⟨_, _, hr⟩ | ⟨_, hr⟩
  · rw [hr]
    exact ⟨e.1, hmira.1, UInt32.le_refl _, fun _ => rfl⟩
  · obtain ⟨e', hcontar, hinicio, hcuenta⟩ := contar_eq previo ip now
    rw [hr, hcontar]
    by_cases hip : ip' = ip
    · subst hip
      rw [entrada_of_vigente hmira.1 hmira.2] at hinicio hcuenta
      refine ⟨e'.1, ?_, ?_, fun h => absurd rfl h⟩
      · show (previo.hits.insert ip' e').lookup ip' = some (e'.1, e.2)
        rw [AList.lookup_insert, ← hinicio]
      · rcases hcuenta with ⟨_, _, hc⟩ | ⟨_, hmax, hc⟩
        · rw [hc]
          exact UInt32.le_refl _
        · rw [hc]
          grind
    · refine ⟨e.1, ?_, UInt32.le_refl _, fun _ => rfl⟩
      show (previo.hits.insert ip e').lookup ip' = some (e.1, e.2)
      rw [AList.lookup_insert_ne hip, hmira.1]

/-- In every state of every run the table and its counts are within their bounds, a full table
of live entries refuses a new IP unchanged, and no call drops or resets a live entry. -/
theorem limitador_invariante (maxPerWindow : UInt32) (window maxTracked : Nat)
    (llamadas : List (IpAddr × Nat)) :
    let rl := (new maxPerWindow window maxTracked).correr llamadas
    rl.tracked ≤ max maxTracked 1 ∧
      (∀ ip e, rl.hits.lookup ip = some e → e.1 ≤ maxPerWindow) ∧
      ∀ ip now,
        (rl.tracked = max maxTracked 1 →
          (∀ ip' e, rl.hits.lookup ip' = some e → now - e.2 ≤ window) → ip ∉ rl.hits →
          rl.allowAt ip now = (false, rl)) ∧
        ∀ ip' e, rl.hits.lookup ip' = some e → now - e.2 ≤ window →
          (rl.purgar now).hits.lookup ip' = some e ∧
          ∃ c, (rl.allowAt ip now).2.hits.lookup ip' = some (c, e.2) ∧ e.1 ≤ c ∧
            (ip' ≠ ip → c = e.1) := by
  obtain ⟨h, hmax, hwindow, htope⟩ :=
    correr_acotado (acotado_new maxPerWindow window maxTracked) llamadas
  have hviva : ∀ now (e : Entrada), now - e.2 ≤ window →
      ((new maxPerWindow window maxTracked).correr llamadas).Vigente now e := fun now e hv =>
    hv.trans_eq hwindow.symm
  refine ⟨h.tabla.trans_eq htope, fun ip e he => (h.cuotas ip e he).trans_eq hmax, ?_⟩
  intro ip now
  refine ⟨fun hlleno hvivas hnueva => ?_, fun ip' e he hv => ?_⟩
  · exact allowAt_lleno (htope.trans hlleno.symm).le
      (fun ip' e he => hviva now e (hvivas ip' e he)) hnueva
  · exact ⟨lookup_purgar.mpr ⟨he, hviva now e hv⟩, lookup_allowAt _ h he (hviva now e hv)⟩

end RateLimiter
end NetLimit
end Quipu
