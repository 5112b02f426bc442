import Quipu.Emision
import Quipu.RateLimit

namespace Quipu.Servidor

open Aleatorio Almacen Prog Voprf

/-- The burst limiter between two requests, with the instants that its clock shows from now on. -/
structure Rafaga where
  limitador : RateLimit.RateLimiter
  instantes : Nat → Nat

def Rafaga.allow (key : String) (capacity refillPerSec : ℚ) : Prog Rafaga Empty Bool := fun r =>
  let a := r.limitador.allow key capacity refillPerSec (r.instantes 0)
  .ok a.1 ⟨a.2, fun n => r.instantes (n + 1)⟩

theorem Rafaga.allow_nueva {r : Rafaga} {key : String} {capacity : ℚ} (refillPerSec : ℚ)
    (h : key ∉ r.limitador.buckets) (hcapacity : 1 ≤ capacity) :
    ∃ r', Rafaga.allow key capacity refillPerSec r = .ok true r' := by
  have hconcede := RateLimit.RateLimiter.allow_nueva refillPerSec (r.instantes 0)
    (AList.lookup_eq_none.mpr h) hcapacity
  exact ⟨_, congrArg (EStateM.Result.ok · _) hconcede⟩

/-- The server with its own burst limiter, whoever holds the key. -/
def conRafaga (blindEvaluate : Arr 32 → Prog Cinta Empty (Option (Arr 32 × Arr proofLen))) :
    Server Rafaga := ⟨blindEvaluate, Rafaga.allow⟩

/-- The limiter keeps a bucket for keys of the table alone. -/
def Conocidas (s : Sesion Rafaga) : Prop :=
  ∀ id ∈ s.limiter.limitador.buckets, ∃ k ∈ s.store.tablas.apiKey.filas, k.id = id

def Conoce (s s' : Sesion Rafaga) : Prop := Conocidas s → Conocidas s'

instance : IsPreorder (Sesion Rafaga) Conoce where
  refl := fun _ h => h
  trans := fun _ _ _ h h' hs => h' (h hs)

theorem conoce_enStore {α : Type} {p : Sql α} (hp : Conserva (Avanza Tablas.Sigue) p) :
    Conserva Conoce (enStore p) := by
  intro s hs id hid
  rw [enStore, final_intentar] at hid ⊢
  obtain ⟨k, hk, rfl⟩ := hs id hid
  obtain ⟨k', hk', hsigue⟩ := (hp s.store).tablas k hk
  exact ⟨k', hk', hsigue.id⟩

theorem conoce_enCinta {α : Type} (p : Prog Cinta Empty α) : Conserva Conoce (enCinta p) := by
  intro s hs
  rw [enCinta, final_enfocar]
  exact hs

/-- A call of the limiter writes the bucket of its key alone. -/
theorem conoce_allow {s : Sesion Rafaga} {keyId : String} (capacity refillPerSec : ℚ)
    (hk : ∃ k ∈ s.store.tablas.apiKey.filas, k.id = keyId) :
    Conoce s (final (enLimiter (Rafaga.allow keyId capacity refillPerSec) s)) := by
  intro hs id hid
  rw [enLimiter, final_enfocar] at hid ⊢
  obtain ⟨tokens, heq, -⟩ := s.limiter.limitador.allow_eq keyId capacity refillPerSec
    (s.limiter.instantes 0)
  have hid' : id ∈ (s.limiter.limitador.allow keyId capacity refillPerSec
      (s.limiter.instantes 0)).2.buckets := hid
  rw [heq] at hid'
  rcases AList.mem_insert _ |>.mp hid' with rfl | hid'
  · exact hk
  · exact hs id hid'

variable {blindEvaluate : Arr 32 → Prog Cinta Empty (Option (Arr 32 × Arr proofLen))}
  (sha256 : List UInt8 → Arr 32)

theorem conoce_evaluarClave (bearer : String) (blinded : Arr 32) :
    Conserva Conoce (evaluarClave sha256 (conRafaga blindEvaluate) bearer blinded) := by
  have hverify : Conserva (Avanza Tablas.Sigue) (verify sha256 bearer) :=
    (conserva_verify sha256 bearer).mono fun s s' h => h.mono fun t t' ht => by
      rw [ht]
      exact refl_of Tablas.Sigue t'
  intro s
  unfold evaluarClave
  refine final_bind (R := Conoce) (conoce_enStore hverify s) fun r s₁ hr => ?_
  split
  next keyId customerId quota used plan =>
    obtain ⟨e, he, rfl⟩ := enStore_eq_ok.mp hr
    have htablas : s.store.tablas = e.tablas := ((conserva_verify sha256 bearer).of_ok he).tablas
    obtain ⟨k, hk, hid, -⟩ := verify_fila he
    rw [htablas] at hk
    refine final_bind (R := Conoce) (conoce_allow _ _ ⟨k, hk, hid⟩) fun concedido s₂ _ => ?_
    split
    next =>
      refine final_bind (R := Conoce) (conoce_enCinta _ s₂) fun r s₃ _ => ?_
      split
      next => exact conserva_pure _ s₃
      next => exact conserva_pure _ s₃
    next => exact conserva_pure _ s₂
  next => exact conserva_pure _ s₁
  next => exact conserva_pure _ s₁
  next => exact conserva_pure _ s₁
  next => exact conserva_pure _ s₁
  next => exact conserva_pure _ s₁

theorem conoce_evaluate (req : Request) :
    Conserva Conoce (evaluate sha256 (conRafaga blindEvaluate) req) := by
  have hevaluar : Conserva Conoce (evaluar sha256 (conRafaga blindEvaluate) req) := by
    rcases evaluar_cases sha256 (conRafaga blindEvaluate) req with
      ⟨resp, -, h⟩ | ⟨bearer, blinded, h⟩
    · rw [h]
      exact conserva_pure _
    · rw [h]
      exact conoce_evaluarClave sha256 bearer blinded
  unfold evaluate
  apply hevaluar.bind
  intro r
  split
  next => exact conserva_pure _
  next =>
    refine Conserva.bind (conoce_enStore (conserva_recordUsage _)) fun _ => ?_
    exact conserva_pure _

theorem Paso.conoce (adminToken : Option String)
    (s : Sesion Rafaga) (paso : Paso) :
    Conoce s (paso.dejar sha256 (conRafaga blindEvaluate) adminToken s) := by
  have hsinUso {α : Type} {p : Sql α} (hp : Conserva (Avanza Tablas.SinUso) p) :
      Conserva Conoce (enStore p) :=
    conoce_enStore (hp.mono fun s s' h => h.mono fun t t' ht => ht.1)
  cases paso with
  | evaluate req => exact conoce_evaluate sha256 req s
  | adminIssue req =>
    change Conoce s (final (Servidor.adminIssue sha256 adminToken req s))
    rcases adminIssue_cases (L := Rafaga) sha256 adminToken req with
      ⟨resp, -, h⟩ | ⟨email, plan, quota, -, h⟩
    · rw [h]
      exact conserva_pure resp s
    · rw [h]
      exact conserva_emitir sha256 (fun email plan => hsinUso (conserva_createCustomer email plan))
        (fun customer quota => hsinUso (conserva_issueKey sha256 customer quota none)) email plan
        quota s
  | adminAction req path =>
    exact conserva_adminAction (fun prefijo active => hsinUso (conserva_setActive prefijo active))
      (fun prefijo => hsinUso (conserva_revoke prefijo)) adminToken req path s
  | createCustomer email plan => exact hsinUso (conserva_createCustomer email plan) s
  | issueKey customerId quota expiresAt =>
    exact hsinUso (conserva_issueKey sha256 customerId quota expiresAt) s
  | setActive prefijo active => exact hsinUso (conserva_setActive prefijo active) s
  | revoke prefijo => exact hsinUso (conserva_revoke prefijo) s

theorem correr_conoce (adminToken : Option String)
    (pasos : List Paso) (s : Sesion Rafaga) :
    Conoce s (correr sha256 (conRafaga blindEvaluate) adminToken pasos s) := by
  induction pasos generalizing s with
  | nil => exact refl_of Conoce s
  | cons paso pasos ih =>
    exact trans_of Conoce (paso.conoce sha256 adminToken s) (ih _)

/-- Every plan, known or not, lets the first request of a key through. -/
theorem one_le_rateCapacity (plan : String) : 1 ≤ (limitsFor plan).rateCapacity := by
  unfold limitsFor
  cases h : planFor plan with
  | none => rw [Option.getD_none, fallback]; norm_num
  | some p =>
    rw [Option.getD_some]
    rcases List.mem_pair.mp (List.mem_of_find?_eq_some h) with rfl | rfl
    · norm_num
    · norm_num

end Quipu.Servidor
