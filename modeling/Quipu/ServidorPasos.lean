import Quipu.AlmacenPasos
import Quipu.Servidor

namespace Quipu.Servidor

open Aleatorio Almacen Calendario Prog Tabla Voprf

variable {L α : Type} {T : Tablas → Tablas → Prop}

/-- The stores of two states of the server are related by `Avanza T`. -/
def Avance (T : Tablas → Tablas → Prop) (s s' : Sesion L) : Prop := Avanza T s.store s'.store

instance [IsPreorder Tablas T] : IsPreorder (Sesion L) (Avance T) where
  refl := fun s => refl_of (Avanza T) s.store
  trans := fun _ _ _ h h' => trans_of (Avanza T) h h'

theorem conserva_enStore {p : Sql α} (hp : Conserva (Avanza T) p) :
    Conserva (Avance (L := L) T) (enStore p) := by
  intro s
  rw [enStore, final_intentar]
  exact hp s.store

theorem conserva_enLimiter [IsPreorder Tablas T] (p : Prog L Empty α) :
    Conserva (Avance T) (enLimiter p) := by
  intro s
  rw [enLimiter, final_enfocar]
  exact refl_of (Avanza T) s.store

theorem conserva_enCinta [IsPreorder Tablas T] (p : Prog Cinta Empty α) :
    Conserva (Avance (L := L) T) (enCinta p) := by
  intro s
  rw [enCinta, final_enfocar]
  exact ⟨refl_of T _, 0, fun _ => rfl⟩

variable (sha256 : List UInt8 → Arr 32)

/-- Nothing is written before the use is recorded. -/
theorem conserva_evaluarClave (srv : Server L) (bearer : String) (blinded : Arr 32) :
    Conserva (Avance Eq) (evaluarClave sha256 srv bearer blinded) := by
  unfold evaluarClave
  refine Conserva.bind (conserva_enStore (conserva_verify sha256 bearer)) fun r => ?_
  split
  next =>
    refine Conserva.bind (conserva_enLimiter _) fun concedido => ?_
    split
    next =>
      refine Conserva.bind (conserva_enCinta _) fun r => ?_
      split
      next => exact conserva_pure _
      next => exact conserva_pure _
    next => exact conserva_pure _
  next => exact conserva_pure _
  next => exact conserva_pure _
  next => exact conserva_pure _
  next => exact conserva_pure _
  next => exact conserva_pure _

theorem conserva_evaluar (srv : Server L) (req : Request) :
    Conserva (Avance Eq) (evaluar sha256 srv req) := by
  unfold evaluar
  split
  next => exact conserva_pure _
  next =>
    split
    next => exact conserva_pure _
    next =>
      split
      next => exact conserva_pure _
      next => exact conserva_evaluarClave sha256 srv _ _

theorem conserva_evaluate (srv : Server L) (req : Request) :
    Conserva (Avance Tablas.Sigue) (evaluate sha256 srv req) := by
  have hevaluar : Conserva (Avance Tablas.Sigue) (evaluar sha256 srv req) := by
    refine (conserva_evaluar sha256 srv req).mono fun s s' h => h.mono fun t t' ht => ?_
    rw [ht]
    exact refl_of Tablas.Sigue t'
  unfold evaluate
  apply hevaluar.bind
  intro r
  split
  next => exact conserva_pure _
  next =>
    refine Conserva.bind (conserva_enStore (conserva_recordUsage _)) fun _ => ?_
    exact conserva_pure _

/-- What every call of the store keeps is kept by the two that issue a key. -/
theorem conserva_emitir {R : Sesion L → Sesion L → Prop} [IsPreorder (Sesion L) R]
    (hcliente : ∀ email plan, Conserva R (enStore (createCustomer email plan)))
    (hclave : ∀ customer quota, Conserva R (enStore (issueKey sha256 customer quota none)))
    (email plan : String) (quota : UInt64) : Conserva R (emitir sha256 email plan quota) := by
  unfold emitir
  refine Conserva.bind (hcliente email plan) fun r => ?_
  split
  next => exact conserva_pure _
  next =>
    refine Conserva.bind (hclave _ _) fun r => ?_
    split
    next => exact conserva_pure _
    next => exact conserva_pure _

/-- `admin_issue` refuses, or issues a key of one of the plans. -/
theorem adminIssue_cases (adminToken : Option String) (req : Request) :
    (∃ resp : Resp, resp.status ≠ 200 ∧
        adminIssue (L := L) sha256 adminToken req = pure resp) ∨
      ∃ email plan quota, quotaFor plan = some quota ∧
        adminIssue (L := L) sha256 adminToken req = emitir sha256 email plan quota := by
  unfold adminIssue
  split
  next =>
    split
    next => exact .inl ⟨_, by decide, rfl⟩
    next =>
      split
      next => exact .inl ⟨_, by decide, rfl⟩
      next email _ =>
        split
        next => exact .inl ⟨_, by decide, rfl⟩
        next plan _ =>
          split
          next => exact .inl ⟨_, by decide, rfl⟩
          next quota hquota => exact .inr ⟨email, plan, quota, hquota, rfl⟩
  next => exact .inl ⟨_, by decide, rfl⟩

theorem conserva_adminIssue (adminToken : Option String) (req : Request) :
    Conserva (Avance (L := L) Tablas.SinUso) (adminIssue sha256 adminToken req) := by
  rcases adminIssue_cases sha256 adminToken req with ⟨resp, -, h⟩ | ⟨email, plan, quota, -, h⟩
  · rw [h]
    exact conserva_pure resp
  · rw [h]
    exact conserva_emitir sha256 (fun email plan => conserva_enStore
      (conserva_createCustomer email plan)) (fun customer quota => conserva_enStore
      (conserva_issueKey sha256 customer quota none)) email plan quota

theorem accion_cases {action prefijo : String} {p : Sql Nat} (h : accion action prefijo = some p) :
    (∃ active, p = setActive prefijo active) ∨ p = revoke prefijo := by
  unfold accion at h
  split at h
  next => exact .inl ⟨true, (Option.some.inj h).symm⟩
  next =>
    split at h
    next => exact .inl ⟨false, (Option.some.inj h).symm⟩
    next =>
      split at h
      next => exact .inr (Option.some.inj h).symm
      next => cases h

/-- `admin_action` refuses, or answers for one of the three operations on a prefix. -/
theorem adminAction_cases (adminToken : Option String) (req : Request) (path : String) :
    (∃ resp : Resp, adminAction (L := L) adminToken req path = pure resp) ∨
      ∃ prefijo, ∃ p : Sql Nat, ((∃ active, p = setActive prefijo active) ∨ p = revoke prefijo) ∧
        ∃ f : Except RusqliteError Nat → Prog (Sesion L) Empty Resp,
          (∀ r, ∃ resp, f r = pure resp) ∧ adminAction adminToken req path = enStore p >>= f := by
  unfold adminAction
  split
  next =>
    dsimp only
    split
    next => exact .inl ⟨_, rfl⟩
    next p h =>
      refine .inr ⟨_, p, accion_cases h, _, fun r => ?_, rfl⟩
      split
      next => exact ⟨_, rfl⟩
      next =>
        split
        next => exact ⟨_, rfl⟩
        next => exact ⟨_, rfl⟩
  next => exact .inl ⟨_, rfl⟩

/-- What the three operations on a prefix keep is kept by `admin_action`. -/
theorem conserva_adminAction {R : Sesion L → Sesion L → Prop} [IsPreorder (Sesion L) R]
    (hactive : ∀ prefijo active, Conserva R (enStore (setActive prefijo active)))
    (hrevoke : ∀ prefijo, Conserva R (enStore (revoke prefijo))) (adminToken : Option String)
    (req : Request) (path : String) : Conserva R (adminAction adminToken req path) := by
  rcases adminAction_cases adminToken req path with ⟨resp, h⟩ | ⟨prefijo, p, hp, f, hf, h⟩
  · rw [h]
    exact conserva_pure resp
  · have hresto : ∀ r, Conserva R (f r) := by
      intro r
      obtain ⟨resp, hr⟩ := hf r
      rw [hr]
      exact conserva_pure resp
    rw [h]
    rcases hp with ⟨active, rfl⟩ | rfl
    · exact (hactive prefijo active).bind hresto
    · exact (hrevoke prefijo).bind hresto

theorem enStore_eq_ok {p : Sql α} {a : α} {s s' : Sesion L} :
    enStore p s = .ok (.ok a) s' ↔ ∃ e, p s.store = .ok a e ∧ s' = { s with store := e } :=
  intentar_eq_ok

theorem enStore_responde {p : Sql α} {s : Sesion L} (hp : p.Responde s.store) :
    ∃ r, enStore p s = .ok r { s with store := final (p s.store) } := hp.intentar

/-- Behind a granted evaluation stands a key that `verify` authorised. -/
theorem evaluarClave_ok {srv : Server L} {bearer : String} {blinded : Arr 32}
    {s s' : Sesion L} {keyId : String} {r : Arr 32 × Arr proofLen}
    (h : evaluarClave sha256 srv bearer blinded s = .ok (.ok (keyId, r)) s') :
    ∃ customerId quota used plan e,
      verify sha256 bearer s.store = .ok (.valid keyId customerId quota used plan) e ∧
        s'.store.tablas = e.tablas ∧ s'.store.reloj = e.reloj := by
  obtain ⟨v, s₁, hv, h⟩ := Prog.bind_ok.mp h
  split at h
  next c customerId quota used plan =>
    obtain ⟨b, s₂, hb, h⟩ := Prog.bind_ok.mp h
    split at h
    next =>
      obtain ⟨x, s₃, hx, h⟩ := Prog.bind_ok.mp h
      split at h
      next =>
        cases h
        obtain ⟨e, he, rfl⟩ := enStore_eq_ok.mp hv
        obtain ⟨l, -, rfl⟩ := enfocar_eq_ok.mp hb
        obtain ⟨c, -, rfl⟩ := enfocar_eq_ok.mp hx
        exact ⟨_, _, _, _, e, he, rfl, rfl⟩
      next => cases h
    next => cases h
  next => cases h
  next => cases h
  next => cases h
  next => cases h
  next => cases h

theorem evaluarClave_error {srv : Server L} {bearer : String} {blinded : Arr 32}
    {s s' : Sesion L} {resp : Resp}
    (h : evaluarClave sha256 srv bearer blinded s = .ok (.error resp) s') :
    resp.status ≠ 200 := by
  obtain ⟨v, s₁, -, h⟩ := Prog.bind_ok.mp h
  split at h
  next =>
    obtain ⟨b, s₂, -, h⟩ := Prog.bind_ok.mp h
    split at h
    next =>
      obtain ⟨x, s₃, -, h⟩ := Prog.bind_ok.mp h
      split at h
      next => cases h
      next => cases h; decide
    next => cases h; decide
  next => cases h; decide
  next => cases h; decide
  next => cases h; decide
  next => cases h; decide
  next => cases h; decide

/-- A request reaches the store in one way alone. -/
theorem evaluar_cases (srv : Server L) (req : Request) :
    (∃ resp : Resp, resp.status ≠ 200 ∧ evaluar sha256 srv req = pure (.error resp)) ∨
      ∃ bearer blinded, evaluar sha256 srv req = evaluarClave sha256 srv bearer blinded := by
  unfold evaluar
  split
  next => exact .inl ⟨_, by decide, rfl⟩
  next bearer _ =>
    split
    next => exact .inl ⟨_, by decide, rfl⟩
    next =>
      split
      next => exact .inl ⟨_, by decide, rfl⟩
      next blinded _ => exact .inr ⟨bearer, blinded, rfl⟩

theorem evaluar_ok {srv : Server L} {req : Request} {s s' : Sesion L} {keyId : String}
    {r : Arr 32 × Arr proofLen} (h : evaluar sha256 srv req s = .ok (.ok (keyId, r)) s') :
    ∃ k ∈ s.store.tablas.apiKey.filas, k.id = keyId ∧
      ∃ used : UInt64, used < k.quotaMonthly.toUInt64 ∧
        ∃ n, 0 ≤ s.store.reloj n ∧ (∀ i, s'.store.reloj i = s.store.reloj (i + (n + 1))) ∧
          s'.store.tablas = s.store.tablas ∧ used.toNat < 2 ^ 63 ∧
          (s.store.tablas.usage.lookup (keyId, periodOf (s.store.reloj n))).getD 0 =
            used.toNat := by
  rcases evaluar_cases sha256 srv req with ⟨resp, -, hp⟩ | ⟨bearer, blinded, hp⟩
  · rw [hp] at h
    cases h
  · rw [hp] at h
    obtain ⟨customerId, quota, used, plan, e, hv, htablas, hreloj⟩ := evaluarClave_ok sha256 h
    obtain ⟨k, hash, -, hk, hid, -, hlt, n, hn, he, ht, hu, hcount⟩ := verify_valid hv
    refine ⟨k, hk, hid, used, hlt, n, hn, ?_, htablas.trans ht, hu, hcount⟩
    intro i
    rw [hreloj, he]

theorem evaluar_error {srv : Server L} {req : Request} {s s' : Sesion L} {resp : Resp}
    (h : evaluar sha256 srv req s = .ok (.error resp) s') : resp.status ≠ 200 := by
  rcases evaluar_cases sha256 srv req with ⟨resp', hne, hp⟩ | ⟨bearer, blinded, hp⟩
  · rw [hp] at h
    cases h
    exact hne
  · rw [hp] at h
    exact evaluarClave_error sha256 h

end Quipu.Servidor
