import Quipu.Fallo
import Mathlib.Order.Defs.Unbundled

namespace Quipu.Prog

variable {σ τ ε ε' α β : Type} {R : σ → σ → Prop}

/-- The state that a call leaves behind, failed or not. -/
def final : EStateM.Result (Fallo ε) σ α → σ
  | .ok _ s => s
  | .error _ s => s

/-- A call, failed or not, leaves a state that `R` relates to the one it found. -/
def Conserva (R : σ → σ → Prop) (p : Prog σ ε α) : Prop := ∀ s, R s (final (p s))

theorem conserva_pure [Std.Refl R] (a : α) : Conserva R (pure a : Prog σ ε α) :=
  fun s => refl_of R s

theorem Conserva.of_ok {p : Prog σ ε α} {a : α} {s s' : σ} (hp : Conserva R p)
    (h : p s = .ok a s') : R s s' := by
  have hs := hp s
  rw [h] at hs
  exact hs

theorem Conserva.of_error {p : Prog σ ε α} {e : Fallo ε} {s s' : σ} (hp : Conserva R p)
    (h : p s = .error e s') : R s s' := by
  have hs := hp s
  rw [h] at hs
  exact hs

theorem Conserva.mono {R' : σ → σ → Prop} {p : Prog σ ε α} (hp : Conserva R p)
    (h : ∀ s s', R s s' → R' s s') : Conserva R' p := fun s => h _ _ (hp s)

theorem final_bind [IsTrans σ R] {p : Prog σ ε α} {f : α → Prog σ ε β} {s : σ}
    (hp : R s (final (p s))) (hf : ∀ a s₁, p s = .ok a s₁ → R s₁ (final (f a s₁))) :
    R s (final ((p >>= f) s)) := by
  cases h : p s with
  | ok a s₁ =>
    rw [h] at hp
    rw [Prog.bind_of_ok h]
    exact trans_of R hp (hf a s₁ h)
  | error e s₁ =>
    rw [h] at hp
    rw [Prog.bind_of_error h]
    exact hp

theorem Conserva.bind [IsTrans σ R] {p : Prog σ ε α} {f : α → Prog σ ε β} (hp : Conserva R p)
    (hf : ∀ a, Conserva R (f a)) : Conserva R (p >>= f) :=
  fun s => final_bind (hp s) fun a s₁ _ => hf a s₁

/-- From `s` the call ends in a value or an error. -/
def Responde (p : Prog σ ε α) (s : σ) : Prop := ∀ m s', p s ≠ .error (.panico m) s'

theorem responde_of_ok {p : Prog σ ε α} {a : α} {s s' : σ} (h : p s = .ok a s') :
    p.Responde s := by
  intro m s₁ he
  rw [h] at he
  cases he

theorem Responde.bind {p : Prog σ ε α} {f : α → Prog σ ε β} {s : σ} (hp : p.Responde s)
    (hf : ∀ a s₁, p s = .ok a s₁ → (f a).Responde s₁) : (p >>= f).Responde s := by
  intro m s'
  cases h : p s with
  | ok a s₁ =>
    rw [Prog.bind_of_ok h]
    exact hf a s₁ h m s'
  | error e s₁ =>
    rw [Prog.bind_of_error h]
    intro he
    cases he
    exact hp m s' h

/-- Runs `p` on a part of the state and hands its error over as a value; a panic goes on. -/
def intentar (get : σ → τ) (set : σ → τ → σ) (p : Prog τ ε α) : Prog σ ε' (Except ε α) := fun s =>
  match p (get s) with
  | .ok a t => .ok (.ok a) (set s t)
  | .error (.error e) t => .ok (.error e) (set s t)
  | .error (.panico m) t => .error (.panico m) (set s t)

theorem final_intentar (get : σ → τ) (set : σ → τ → σ) (p : Prog τ ε α) (s : σ) :
    final ((intentar get set p : Prog σ ε' (Except ε α)) s) = set s (final (p (get s))) := by
  unfold intentar
  split
  next h => rw [h]; rfl
  next h => rw [h]; rfl
  next h => rw [h]; rfl

theorem intentar_eq_ok {get : σ → τ} {set : σ → τ → σ} {p : Prog τ ε α} {a : α} {s s' : σ} :
    (intentar get set p : Prog σ ε' (Except ε α)) s = .ok (.ok a) s' ↔
      ∃ t, p (get s) = .ok a t ∧ s' = set s t := by
  unfold intentar
  split
  next h => simp [h, eq_comm]
  next h => simp [h]
  next h => simp [h]

theorem Responde.intentar {get : σ → τ} {set : σ → τ → σ} {p : Prog τ ε α} {s : σ}
    (hp : p.Responde (get s)) :
    ∃ r, (Prog.intentar get set p : Prog σ ε' (Except ε α)) s =
      .ok r (set s (final (p (get s)))) := by
  unfold Prog.intentar
  cases h : p (get s) with
  | ok a t => exact ⟨.ok a, rfl⟩
  | error e t =>
    cases e with
    | error e => exact ⟨.error e, rfl⟩
    | panico m => exact absurd h (hp m t)

/-- Runs on a part of the state a call that fails by panic alone. -/
def enfocar (get : σ → τ) (set : σ → τ → σ) (p : Prog τ Empty α) : Prog σ ε α := fun s =>
  match p (get s) with
  | .ok a t => .ok a (set s t)
  | .error (.panico m) t => .error (.panico m) (set s t)

theorem final_enfocar (get : σ → τ) (set : σ → τ → σ) (p : Prog τ Empty α) (s : σ) :
    final ((enfocar get set p : Prog σ ε α) s) = set s (final (p (get s))) := by
  unfold enfocar
  split
  next h => rw [h]; rfl
  next h => rw [h]; rfl

theorem enfocar_eq_ok {get : σ → τ} {set : σ → τ → σ} {p : Prog τ Empty α} {a : α} {s s' : σ} :
    (enfocar get set p : Prog σ ε α) s = .ok a s' ↔ ∃ t, p (get s) = .ok a t ∧ s' = set s t := by
  unfold enfocar
  split
  next h => simp [h, eq_comm]
  next h => simp [h]

end Quipu.Prog
