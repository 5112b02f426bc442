import Quipu.Fallo
import Mathlib.Data.Fintype.EquivFin
import Mathlib.Logic.Function.Iterate

namespace Quipu.Lab

/-- SplitMix64, the generator of the attacks. -/
structure Rng where
  state : UInt64
  deriving DecidableEq, Repr

namespace Rng

def seeded (seed : UInt64) : Rng := ⟨seed⟩

/-- The step of the state, an odd number. -/
def gamma : UInt64 := 0x9E3779B97F4A7C15

def mezclar (z : UInt64) : UInt64 :=
  let z := (z ^^^ (z >>> 30)) * 0xBF58476D1CE4E5B9
  let z := (z ^^^ (z >>> 27)) * 0x94D049BB133111EB
  z ^^^ (z >>> 31)

def nextU64 (rng : Rng) : UInt64 × Rng :=
  let state := rng.state + gamma
  (mezclar state, ⟨state⟩)

def below (rng : Rng) (n : Nat) : Nat × Rng :=
  if n = 0 then (0, rng)
  else
    let (x, rng) := rng.nextU64
    (x.toNat % n, rng)

def byte (rng : Rng) : UInt8 × Rng :=
  let (x, rng) := rng.nextU64
  (x.toUInt8, rng)

/-- The bytes of `(0..n).map(|_| rng.byte())`. -/
def bytes (rng : Rng) : Nat → List UInt8 × Rng
  | 0 => ([], rng)
  | n + 1 =>
    let (b, rng) := rng.byte
    let (bs, rng) := rng.bytes n
    (b :: bs, rng)

/-- The generator after `i` draws. -/
def tras (rng : Rng) (i : Nat) : Rng := (fun r : Rng => r.nextU64.2)^[i] rng

theorem below_lt (rng : Rng) {n : Nat} (hn : 0 < n) : (rng.below n).1 < n := by
  rw [below, if_neg hn.ne']
  exact Nat.mod_lt _ hn

theorem length_bytes (rng : Rng) (n : Nat) : (rng.bytes n).1.length = n := by
  induction n generalizing rng with
  | zero => rfl
  | succ n ih => exact congrArg (· + 1) (ih rng.byte.2)

theorem eq_zero_of_shift {d k : UInt64} (hk : 0 < k.toNat % 64) (h : d = d >>> k) : d = 0 := by
  have hn := congrArg UInt64.toNat h
  rw [UInt64.toNat_shiftRight, Nat.shiftRight_eq_div_pow] at hn
  refine UInt64.toNat_inj.mp (Nat.eq_zero_of_not_pos fun hpos => ?_)
  have hlt := Nat.div_lt_self hpos (Nat.one_lt_two_pow hk.ne')
  omega

/-- Adding to a word its own shift loses nothing. -/
theorem xor_shift_inj {x y k : UInt64} (hk : 0 < k.toNat % 64)
    (h : x ^^^ (x >>> k) = y ^^^ (y >>> k)) : x = y := by
  have hcero : (x ^^^ y) ^^^ ((x ^^^ y) >>> k) = 0 := by
    rw [UInt64.shiftRight_xor]
    have hsuma : (x ^^^ y) ^^^ ((x >>> k) ^^^ (y >>> k)) =
        (x ^^^ (x >>> k)) ^^^ (y ^^^ (y >>> k)) := by ac_rfl
    rw [hsuma, h, UInt64.xor_self]
  exact UInt64.xor_eq_zero_iff.mp (eq_zero_of_shift hk (UInt64.xor_eq_zero_iff.mp hcero))

theorem mul_inj {x y c : UInt64} (c' : UInt64) (hc : c * c' = 1) (h : x * c = y * c) : x = y := by
  have hx := congrArg (· * c') h
  simp only [UInt64.mul_assoc, hc, UInt64.mul_one] at hx
  exact hx

/-- Two states give different words. -/
theorem mezclar_inj {x y : UInt64} (h : mezclar x = mezclar y) : x = y := by
  have h₁ := xor_shift_inj (by decide) h
  have h₂ := mul_inj 0x319642B2D24D8EC3 (by decide) h₁
  have h₃ := xor_shift_inj (by decide) h₂
  have h₄ := mul_inj 0x96DE1B173F119089 (by decide) h₃
  exact xor_shift_inj (by decide) h₄

theorem state_nextU64 (rng : Rng) : rng.nextU64.2.state = rng.state + gamma := rfl

theorem state_tras (rng : Rng) (i : Nat) :
    (rng.tras i).state = rng.state + UInt64.ofNat i * gamma := by
  unfold tras
  induction i with
  | zero =>
    have hcero : UInt64.ofNat 0 = 0 := rfl
    rw [hcero, UInt64.zero_mul, UInt64.add_zero, Function.iterate_zero_apply]
  | succ i ih =>
    have huno : UInt64.ofNat 1 = 1 := rfl
    rw [Function.iterate_succ_apply', state_nextU64, ih, UInt64.ofNat_add, huno, UInt64.add_mul,
      UInt64.one_mul, UInt64.add_assoc]

/-- The word of the draw `i`. -/
def salida (seed : UInt64) (i : Nat) : UInt64 := ((seeded seed).tras i).nextU64.1

theorem salida_eq (seed : UInt64) (i : Nat) :
    salida seed i = mezclar (seed + UInt64.ofNat i * gamma + gamma) := by
  rw [salida, nextU64, state_tras, seeded]

theorem gamma_inv : gamma * 0xF1DE83E19937733D = 1 := by decide +kernel

theorem salida_inj {seed : UInt64} {i j : Nat} (hi : i < 2 ^ 64) (hj : j < 2 ^ 64)
    (h : salida seed i = salida seed j) : i = j := by
  rw [salida_eq, salida_eq] at h
  have h₁ := mezclar_inj h
  have h₂ := mul_inj _ gamma_inv ((UInt64.add_right_inj _).mp ((UInt64.add_left_inj _).mp h₁))
  have h₃ := congrArg UInt64.toNat h₂
  rwa [UInt64.toNat_ofNat', UInt64.toNat_ofNat', Nat.mod_eq_of_lt hi, Nat.mod_eq_of_lt hj] at h₃

/-- The generator goes through all words before it repeats one, and two seeds agree at no draw. -/
theorem salida_biyectiva :
    (∀ seed x, ∃! i : Fin (2 ^ 64), salida seed i = x) ∧
      (∀ seed i, salida seed (i + 2 ^ 64) = salida seed i) ∧
      ∀ seed seed' i, salida seed i = salida seed' i ↔ seed = seed' := by
  refine ⟨fun seed x => ?_, fun seed i => ?_, fun seed seed' i => ?_⟩
  · have hinj : Function.Injective fun i : Fin (2 ^ 64) => (salida seed i).toFin := fun i j h =>
      Fin.ext (salida_inj i.isLt j.isLt (UInt64.toFin_inj.mp h))
    obtain ⟨i, hi⟩ := Finite.surjective_of_injective hinj x.toFin
    have hx : salida seed i = x := UInt64.toFin_inj.mp hi
    exact ⟨i, hx, fun j hj => Fin.ext (salida_inj j.isLt i.isLt (hj.trans hx.symm))⟩
  · have hvuelta : UInt64.ofNat (i + 2 ^ 64) = UInt64.ofNat i := by
      refine UInt64.toNat_inj.mp ?_
      rw [UInt64.toNat_ofNat', UInt64.toNat_ofNat', Nat.add_mod_right]
    rw [salida_eq, salida_eq, hvuelta]
  · rw [salida_eq, salida_eq]
    refine ⟨fun h => ?_, fun h => by rw [h]⟩
    exact (UInt64.add_left_inj _).mp ((UInt64.add_left_inj _).mp (mezclar_inj h))

end Rng

/-- The outcome of a step of an attack. -/
inductive AttackOutcome where
  | advanced
  | breach (detail : String)
  | noProgress
  deriving DecidableEq, Repr

variable {σ : Type}

/-- An attack on the library, that keeps its own state in `σ`. -/
structure Attack (σ : Type) where
  name : String
  step : Rng → Prog σ Empty (AttackOutcome × Rng)

structure LabReport where
  name : String
  attempts : Nat
  advances : Nat
  breaches : List String
  deriving DecidableEq, Repr

def LabReport.isClean (report : LabReport) : Bool := report.breaches.isEmpty

def LabReport.anotar (report : LabReport) (outcome : AttackOutcome) : LabReport :=
  let report := { report with attempts := report.attempts + 1 }
  match outcome with
  | .advanced => { report with advances := report.advances + 1 }
  | .breach detail => { report with breaches := report.breaches ++ [detail] }
  | .noProgress => report

/-- The loop of `run`. -/
def runDesde (attack : Attack σ) : Nat → Rng → LabReport → Prog σ Empty LabReport
  | 0, _, report => pure report
  | budget + 1, rng, report => do
    let (outcome, rng) ← attack.step rng
    runDesde attack budget rng (report.anotar outcome)

def run (attack : Attack σ) (seed : UInt64) (budget : Nat) : Prog σ Empty LabReport :=
  runDesde attack budget (Rng.seeded seed) ⟨attack.name, 0, 0, []⟩

/-- Every outcome that the attack can have, from a state that `Inv` holds of, is as `P` says, and
`Inv` holds of the state that it leaves. -/
def Attack.Cumple (attack : Attack σ) (Inv : σ → Prop) (P : AttackOutcome → Prop) : Prop :=
  ∀ rng s outcome rng' s', Inv s → attack.step rng s = .ok (outcome, rng') s' →
    Inv s' ∧ P outcome

theorem runDesde_ok {attack : Attack σ} {Inv : σ → Prop} {P : AttackOutcome → Prop}
    (h : attack.Cumple Inv P) {budget : Nat} {rng : Rng} {report final : LabReport} {s s' : σ}
    (hs : Inv s) (hrun : runDesde attack budget rng report s = .ok final s') :
    ∃ outcomes : List AttackOutcome, outcomes.length = budget ∧ (∀ o ∈ outcomes, P o) ∧
      final = outcomes.foldl LabReport.anotar report ∧ Inv s' := by
  induction budget generalizing rng report s with
  | zero =>
    cases hrun
    exact ⟨[], rfl, fun o ho => absurd ho List.not_mem_nil, rfl, hs⟩
  | succ budget ih =>
    obtain ⟨⟨outcome, rng'⟩, s₁, hstep, hrun⟩ := Prog.bind_ok.mp hrun
    obtain ⟨hs₁, hp⟩ := h _ _ _ _ _ hs hstep
    obtain ⟨outcomes, hl, hall, hfin, hs'⟩ := ih hs₁ hrun
    refine ⟨outcome :: outcomes, by rw [List.length_cons, hl], ?_, hfin, hs'⟩
    intro o ho
    rcases List.mem_cons.mp ho with rfl | ho
    · exact hp
    · exact hall o ho

theorem foldl_anotar_advanced (report : LabReport) {outcomes : List AttackOutcome}
    (h : ∀ o ∈ outcomes, o = .advanced) : outcomes.foldl LabReport.anotar report =
      { report with
        attempts := report.attempts + outcomes.length
        advances := report.advances + outcomes.length } := by
  induction outcomes generalizing report with
  | nil => rfl
  | cons o outcomes ih =>
    rw [List.foldl_cons, h o List.mem_cons_self,
      ih _ fun o' ho => h o' (List.mem_cons_of_mem o ho)]
    simp only [LabReport.anotar, List.length_cons]
    congr 1 <;> omega

/-- An attack that always advances leaves a report without breaches. -/
theorem run_limpia {attack : Attack σ} {Inv : σ → Prop}
    (h : attack.Cumple Inv (· = .advanced)) {seed : UInt64} {budget : Nat} {report : LabReport}
    {s s' : σ} (hs : Inv s) (hrun : run attack seed budget s = .ok report s') :
    report = ⟨attack.name, budget, budget, []⟩ := by
  obtain ⟨outcomes, hl, hall, hfin, _⟩ := runDesde_ok h hs hrun
  rw [hfin, foldl_anotar_advanced _ hall, hl]
  simp

/-- An attack whose steps all return, as long as `Inv` holds of what is left of the budget, runs to
its end. -/
theorem exists_run {attack : Attack σ} {P : Nat → σ → Prop}
    (h : ∀ k rng s, P (k + 1) s → ∃ o s', attack.step rng s = .ok o s' ∧ P k s')
    (seed : UInt64) (budget : Nat) {s : σ} (hs : P budget s) :
    ∃ report s', run attack seed budget s = .ok report s' ∧ P 0 s' := by
  rw [run]
  generalize Rng.seeded seed = rng
  generalize (⟨attack.name, 0, 0, []⟩ : LabReport) = report
  induction budget generalizing rng report s with
  | zero => exact ⟨report, s, rfl, hs⟩
  | succ budget ih =>
    obtain ⟨o, s₁, hstep, hs₁⟩ := h budget rng s hs
    obtain ⟨final, s', hrun, hs'⟩ := ih hs₁ o.2 (report.anotar o.1)
    exact ⟨final, s', Prog.bind_ok.mpr ⟨o, s₁, hstep, hrun⟩, hs'⟩

end Quipu.Lab
