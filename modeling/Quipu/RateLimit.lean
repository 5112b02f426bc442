import Quipu.Tabla
import Mathlib.Algebra.Order.Field.Rat
import Mathlib.Tactic.Linarith

namespace Quipu.RateLimit

open Tabla

/-- The tokens of a key and the instant of its last call, in nanoseconds. -/
abbrev Cubo := ℚ × Nat

structure RateLimiter where
  buckets : AList fun _ : String => Cubo

/-- A call for the bucket of `key`, with the limits of its plan. -/
structure Llamada where
  key : String
  capacity : ℚ
  refillPerSec : ℚ
  now : Nat

def asSecs (ns : Nat) : ℚ := ns / 1000000000

theorem asSecs_nonneg (ns : Nat) : 0 ≤ asSecs ns :=
  div_nonneg (Nat.cast_nonneg ns) (by norm_num)

theorem asSecs_add (m n : Nat) : asSecs (m + n) = asSecs m + asSecs n := by
  unfold asSecs
  rw [Nat.cast_add, add_div]

/-- `duration_since` is zero for a start in the future. -/
def recargar (cubo : Cubo) (capacity refillPerSec : ℚ) (now : Nat) : ℚ :=
  min (cubo.1 + asSecs (now - cubo.2) * refillPerSec) capacity

theorem recargar_le_capacity (cubo : Cubo) (capacity refillPerSec : ℚ) (now : Nat) :
    recargar cubo capacity refillPerSec now ≤ capacity := min_le_right _ _

theorem recargar_le_add (cubo : Cubo) (capacity refillPerSec : ℚ) (now : Nat) :
    recargar cubo capacity refillPerSec now ≤
      cubo.1 + refillPerSec * asSecs (now - cubo.2) := by
  rw [mul_comm]
  exact min_le_left _ _

theorem recargar_nonneg {cubo : Cubo} {capacity refillPerSec : ℚ} (now : Nat)
    (hcubo : 0 ≤ cubo.1) (hcapacity : 0 ≤ capacity) (hrefill : 0 ≤ refillPerSec) :
    0 ≤ recargar cubo capacity refillPerSec now := by
  have hganado := mul_nonneg (asSecs_nonneg (now - cubo.2)) hrefill
  exact le_min (add_nonneg hcubo hganado) hcapacity

namespace RateLimiter

def new : RateLimiter := ⟨∅⟩

/-- The bucket of `key`; a new one is born full. -/
def entrada (rl : RateLimiter) (key : String) (capacity : ℚ) (now : Nat) : Cubo :=
  (rl.buckets.lookup key).getD (capacity, now)

def allow (rl : RateLimiter) (key : String) (capacity refillPerSec : ℚ) (now : Nat) :
    Bool × RateLimiter :=
  let entry := rl.entrada key capacity now
  let tokens := recargar entry capacity refillPerSec now
  if tokens ≥ 1 then (true, ⟨rl.buckets.insert key (tokens - 1, now)⟩)
  else (false, ⟨rl.buckets.insert key (tokens, now)⟩)

/-- The tokens an answer takes. -/
def gasto (concedida : Bool) : ℚ := if concedida then 1 else 0

/-- What a call can do: write the bucket of its key with the tokens its answer leaves, which
are not negative when those before it were not. -/
theorem allow_eq (rl : RateLimiter) (key : String) (capacity refillPerSec : ℚ) (now : Nat) :
    ∃ tokens, (rl.allow key capacity refillPerSec now).2 =
        ⟨rl.buckets.insert key (tokens, now)⟩ ∧
      gasto (rl.allow key capacity refillPerSec now).1 + tokens =
        recargar (rl.entrada key capacity now) capacity refillPerSec now ∧
      (0 ≤ recargar (rl.entrada key capacity now) capacity refillPerSec now → 0 ≤ tokens) := by
  by_cases h : recargar (rl.entrada key capacity now) capacity refillPerSec now ≥ 1
  · refine ⟨recargar (rl.entrada key capacity now) capacity refillPerSec now - 1, ?_, ?_, ?_⟩
    · simp only [allow, if_pos h]
    · simp only [allow, if_pos h, gasto, if_true]
      exact add_sub_cancel _ _
    · intro _
      exact sub_nonneg.mpr h
  · refine ⟨recargar (rl.entrada key capacity now) capacity refillPerSec now, ?_, ?_, id⟩
    · simp only [allow, if_neg h]
    · simp only [allow, if_neg h, gasto, Bool.false_eq_true, if_false]
      exact zero_add _

theorem lookup_allow_ne {rl : RateLimiter} {key otra : String} {capacity refillPerSec : ℚ}
    {now : Nat} (h : otra ≠ key) :
    (rl.allow key capacity refillPerSec now).2.buckets.lookup otra = rl.buckets.lookup otra := by
  obtain ⟨tokens, heq, _⟩ := allow_eq rl key capacity refillPerSec now
  rw [heq]
  exact AList.lookup_insert_ne h

theorem allow_congr {rl rl' : RateLimiter} {key : String}
    (h : rl.buckets.lookup key = rl'.buckets.lookup key) (capacity refillPerSec : ℚ) (now : Nat) :
    (rl.allow key capacity refillPerSec now).1 = (rl'.allow key capacity refillPerSec now).1 ∧
      (rl.allow key capacity refillPerSec now).2.buckets.lookup key =
        (rl'.allow key capacity refillPerSec now).2.buckets.lookup key := by
  have hentrada : rl.entrada key capacity now = rl'.entrada key capacity now := by
    rw [entrada, entrada, h]
  simp only [allow, hentrada]
  split
  next => exact ⟨rfl, by rw [AList.lookup_insert, AList.lookup_insert]⟩
  next => exact ⟨rfl, by rw [AList.lookup_insert, AList.lookup_insert]⟩

/-- The first call for a key finds its bucket full. -/
theorem allow_nueva {rl : RateLimiter} {key : String} {capacity : ℚ} (refillPerSec : ℚ)
    (now : Nat) (h : rl.buckets.lookup key = none) (hcapacity : 1 ≤ capacity) :
    (rl.allow key capacity refillPerSec now).1 = true := by
  have hllena : recargar (rl.entrada key capacity now) capacity refillPerSec now = capacity := by
    rw [entrada, h, Option.getD_none, recargar, Nat.sub_self, asSecs, Nat.cast_zero, zero_div,
      zero_mul, add_zero, min_self]
  rw [allow, hllena, if_pos hcapacity]

theorem entrada_nonneg {rl : RateLimiter} {key : String} {capacity : ℚ} (now : Nat)
    (h : ∀ cubo, rl.buckets.lookup key = some cubo → 0 ≤ cubo.1) (hcapacity : 0 ≤ capacity) :
    0 ≤ (rl.entrada key capacity now).1 := by
  unfold entrada
  cases hl : rl.buckets.lookup key with
  | none => exact hcapacity
  | some cubo => exact h cubo hl

/-- A call leaves its own bucket between zero and its capacity. -/
theorem lookup_allow_self {rl : RateLimiter} {key : String} {capacity refillPerSec : ℚ}
    (now : Nat) (h : ∀ cubo, rl.buckets.lookup key = some cubo → 0 ≤ cubo.1)
    (hcapacity : 0 ≤ capacity) (hrefill : 0 ≤ refillPerSec) :
    ∃ tokens, (rl.allow key capacity refillPerSec now).2.buckets.lookup key =
        some (tokens, now) ∧
      gasto (rl.allow key capacity refillPerSec now).1 + tokens =
        recargar (rl.entrada key capacity now) capacity refillPerSec now ∧
      0 ≤ tokens ∧ tokens ≤ capacity := by
  obtain ⟨tokens, heq, hgasto, hpos⟩ := allow_eq rl key capacity refillPerSec now
  have hcubo := entrada_nonneg now h hcapacity
  have hle := recargar_le_capacity (rl.entrada key capacity now) capacity refillPerSec now
  have hgasta : 0 ≤ gasto (rl.allow key capacity refillPerSec now).1 := by
    unfold gasto
    split
    next => exact zero_le_one
    next => exact le_refl 0
  refine ⟨tokens, ?_, hgasto, hpos (recargar_nonneg now hcubo hcapacity hrefill), by linarith⟩
  rw [heq]
  exact AList.lookup_insert _

/-- The calls of a run with their answers, in order, and the limiter after them. -/
def correr (rl : RateLimiter) : List Llamada → List (Llamada × Bool) × RateLimiter
  | [] => ([], rl)
  | c :: cs =>
    let r := rl.allow c.key c.capacity c.refillPerSec c.now
    let resto := r.2.correr cs
    ((c, r.1) :: resto.1, resto.2)

end RateLimiter

/-- The granted calls of `key` from `a` to `b`. -/
def concedidas (respuestas : List (Llamada × Bool)) (key : String) (a b : Nat) : Nat :=
  respuestas.countP fun r => r.2 ∧ r.1.key = key ∧ a ≤ r.1.now ∧ r.1.now ≤ b

end Quipu.RateLimit
