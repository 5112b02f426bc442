import Quipu.ServidorCuota

namespace Quipu.Servidor

open Almacen Calendario Prog Tabla

inductive Method where
  | get
  | head
  | post
  | otro (nombre : String)
  deriving DecidableEq, Repr

/-- A request as it arrives, before it is routed. -/
structure Peticion where
  method : Method
  url : String
  request : Request

/-- What does not change while the server runs. -/
structure Config (L : Type) where
  server : Server L
  publicKeyHex : String
  adminToken : Option String

variable {L : Type}

def plansJson : String :=
  let items := plans.map fun p =>
    "\x7b\"name\":\"" ++ p.name ++ "\",\"quota_monthly\":" ++ toString p.quotaMonthly ++
      ",\"rate_capacity\":" ++ toString p.rateCapacity ++ ",\"rate_refill_per_sec\":" ++
      toString p.rateRefillPerSec ++ "\x7d"
  "\x7b\"plans\":[" ++ String.intercalate "," items ++ "]\x7d"

/-- The part of the URL before its query. -/
def pathDe (url : String) : String := String.ofList (url.toList.takeWhile (· ≠ '?'))

section Rutas

variable (sha256 : List UInt8 → Arr 32)

def route (cfg : Config L) (pet : Peticion) : Prog (Sesion L) Empty Resp :=
  let path := pathDe pet.url
  let ruta := if pet.method = .head then .get else pet.method
  if ruta = .get ∧ path = "/healthz" then pure (text 200 "ok")
  else if ruta = .get ∧ path = "/v1/public-key" then
    pure (json 200 ("\x7b\"public_key\":\"" ++ cfg.publicKeyHex ++ "\"\x7d"))
  else if ruta = .get ∧ path = "/v1/plans" then pure (json 200 plansJson)
  else if ruta = .post ∧ path = "/v1/oprf/evaluate" then evaluate sha256 cfg.server pet.request
  else if ruta = .post ∧ path = "/admin/keys" then adminIssue sha256 cfg.adminToken pet.request
  else if ruta = .post ∧ "/admin/keys/".toList.isPrefixOf path.toList then
    adminAction cfg.adminToken pet.request path
  else pure (text 404 "not found")

/-- The loop of `serve`: each request meets what the one before it left. -/
def serve (cfg : Config L) (peticiones : List Peticion) (s : Sesion L) : Sesion L :=
  peticiones.foldl (fun s pet => final (route sha256 cfg pet s)) s

end Rutas

/-- The request presents the token of the administrator. -/
def Peticion.Autorizada (cfg : Config L) (pet : Peticion) : Prop :=
  adminOk cfg.adminToken (headerValue pet.request "X-Admin-Token") = true

/-- A row without the trace of its last use. -/
def sinUltimoUso (k : ApiKey) : ApiKey := { k with lastUsedAt := none }

/-- Customers and keys are the same but for the last use of a key, and no count goes down. -/
structure SoloUso (t t' : Tablas) : Prop where
  customer : t'.customer = t.customer
  foreignKeys : t'.foreignKeys = t.foreignKeys
  filas : t'.apiKey.filas.map sinUltimoUso = t.apiKey.filas.map sinUltimoUso
  usage : ∀ keyId period, uso t keyId period ≤ uso t' keyId period

instance : IsPreorder Tablas SoloUso where
  refl := fun _ => ⟨rfl, rfl, rfl, fun _ _ => le_rfl⟩
  trans := fun _ _ _ h h' => ⟨h'.customer.trans h.customer, h'.foreignKeys.trans h.foreignKeys,
    h'.filas.trans h.filas, fun c p => (h.usage c p).trans (h'.usage c p)⟩

theorem le_contarUna (o : Option Nat) : o.getD 0 ≤ contarUna o := by
  unfold contarUna
  split
  next => exact Nat.zero_le 1
  next n =>
    split
    next => exact Nat.le_succ n
    next => exact le_rfl

theorem soloUso_insertUsage {keyId period : String} {t t' : Tablas} {a : Unit}
    (h : insertUsage keyId period t = .ok (a, t')) : SoloUso t t' := by
  unfold insertUsage at h
  split at h
  next => cases h
  next =>
    cases h
    refine ⟨rfl, rfl, rfl, fun c p => ?_⟩
    rw [uso, uso, uso_insert]
    split
    next he =>
      obtain ⟨rfl, rfl⟩ := Prod.mk.inj he
      exact le_contarUna _
    next => exact le_rfl

theorem soloUso_ponerLastUsed {ahora : Int} {donde : ApiKey → Bool} {t t' : Tablas} {n : Nat}
    (h : updateKeys (ponerLastUsed ahora) donde t = .ok (n, t')) : SoloUso t t' := by
  cases h
  refine ⟨rfl, rfl, ?_, fun _ _ => le_rfl⟩
  simp only [ApiKeys.update, List.map_map]
  apply List.map_congr_left
  intro k _
  rw [Function.comp_apply, Asignacion.enFila]
  split
  next => rfl
  next => rfl

theorem soloUso_recordUsage (keyId : String) :
    Conserva (Avanza SoloUso) (recordUsage keyId) := by
  unfold recordUsage
  apply conserva_currentPeriod.bind
  intro period
  refine Conserva.bind (conserva_sentencia fun _ _ _ => soloUso_insertUsage) fun _ => ?_
  apply conserva_now.bind
  intro t
  refine Conserva.bind (conserva_sentencia fun _ _ _ => soloUso_ponerLastUsed) fun _ => ?_
  exact conserva_pure ()

section Aislamiento

variable (sha256 : List UInt8 → Arr 32)

theorem soloUso_evaluate (srv : Server L) (req : Request) :
    Conserva (Avance SoloUso) (evaluate sha256 srv req) := by
  have hevaluar : Conserva (Avance SoloUso) (evaluar sha256 srv req) := by
    refine (conserva_evaluar sha256 srv req).mono fun s s' h => h.mono fun t t' ht => ?_
    rw [ht]
    exact refl_of SoloUso t'
  unfold evaluate
  apply hevaluar.bind
  intro r
  split
  next => exact conserva_pure _
  next =>
    refine Conserva.bind (conserva_enStore (soloUso_recordUsage _)) fun _ => ?_
    exact conserva_pure _

/-- A request without the token reaches no administrative operation. -/
theorem soloUso_route (cfg : Config L) (pet : Peticion) (h : ¬pet.Autorizada cfg) :
    Conserva (Avance SoloUso) (route sha256 cfg pet) := by
  have hissue : adminIssue sha256 cfg.adminToken pet.request =
      (pure (text 401 "no autorizado") : Prog (Sesion L) Empty Resp) := if_neg h
  have haction : ∀ path, adminAction cfg.adminToken pet.request path =
      (pure (text 401 "no autorizado") : Prog (Sesion L) Empty Resp) := fun _ => if_neg h
  unfold route
  dsimp only
  rw [hissue, haction]
  repeat' split
  all_goals first | exact conserva_pure _ | exact soloUso_evaluate sha256 cfg.server _

theorem soloUso_serve (cfg : Config L) (peticiones : List Peticion)
    (h : ∀ pet ∈ peticiones, ¬pet.Autorizada cfg) (s : Sesion L) :
    Avance SoloUso s (serve sha256 cfg peticiones s) := by
  induction peticiones generalizing s with
  | nil => exact refl_of (Avance SoloUso) s
  | cons pet peticiones ih =>
    have hpet := soloUso_route sha256 cfg pet (h pet List.mem_cons_self) s
    exact trans_of (Avance SoloUso) hpet (ih (fun p hp => h p (List.mem_cons_of_mem pet hp)) _)

/-- Over every run of requests without the token, whatever they ask, the customers and the keys
stay as they were but for the last use of a key, and no count goes down; without a token in the
configuration no request has it; and `HEAD` is answered, and acts, as `GET`. -/
theorem rutas_aisladas (cfg : Config L) :
    (∀ peticiones (s : Sesion L), (∀ pet ∈ peticiones, ¬pet.Autorizada cfg) →
        SoloUso s.store.tablas (serve sha256 cfg peticiones s).store.tablas) ∧
      (cfg.adminToken = none → ∀ pet : Peticion, ¬pet.Autorizada cfg) ∧
      ∀ url req, route sha256 cfg ⟨.head, url, req⟩ = route sha256 cfg ⟨.get, url, req⟩ := by
  refine ⟨fun peticiones s h => (soloUso_serve sha256 cfg peticiones h s).tablas, ?_, ?_⟩
  · intro h pet hpet
    rw [Peticion.Autorizada, h] at hpet
    cases hpet
  · intro url req
    rfl

end Aislamiento

theorem rutas_aisladas_fija :
    SoloUso (sesionFija fun _ => false).store.tablas (serve hashFijo ⟨servidorFijo, "", some "t"⟩
      [⟨.post, "/admin/keys", ⟨[], some "email=a&plan=pro"⟩⟩,
        ⟨.post, "/v1/oprf/evaluate", peticionFija⟩] (sesionFija fun _ => false)).store.tablas := by
  refine (rutas_aisladas hashFijo ⟨servidorFijo, "", some "t"⟩).1 _ _ fun pet hpet h => ?_
  rcases List.mem_pair.mp hpet with rfl | rfl
  · exact Bool.false_ne_true h
  · exact Bool.false_ne_true h

end Quipu.Servidor
