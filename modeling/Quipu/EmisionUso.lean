import Quipu.Rafaga

namespace Quipu.Almacen

open Aleatorio Calendario Prog Tabla

variable {sha256 : List UInt8 → Arr 32}

theorem createCustomer_ok {email plan id : String} {s s' : Estado}
    (h : createCustomer email plan s = .ok id s') :
    (∃ c, c.plan = plan ∧ s'.tablas.customer.lookup id = some c) ∧
      s'.tablas.apiKey = s.tablas.apiKey ∧ s'.tablas.usage = s.tablas.usage := by
  obtain ⟨id', s₁, hid, h⟩ := Prog.bind_ok.mp h
  obtain ⟨t, s₂, ht, h⟩ := Prog.bind_ok.mp h
  obtain ⟨u, s₃, hu, h⟩ := Prog.bind_ok.mp h
  cases h
  have htablas : s₂.tablas = s.tablas := by
    have h₁ := (conserva_randomId.of_ok hid : Avanza Eq s s₁).tablas
    have h₂ := (conserva_now.of_ok ht : Avanza Eq s₁ s₂).tablas
    rw [h₁, h₂]
  obtain ⟨-, t', hins, rfl⟩ := sentencia_eq_ok.mp hu
  rw [htablas] at hins
  unfold insertCustomer at hins
  split at hins
  next => cases hins
  next =>
    cases hins
    exact ⟨⟨_, rfl, AList.lookup_insert _⟩, rfl, rfl⟩

theorem issueKey_ok {customerId : String} {quota : UInt64} {expiresAt : Option Int}
    {key : GeneratedKey} {s s' : Estado}
    (h : issueKey sha256 customerId quota expiresAt s = .ok key s') :
    ∃ raw id t, key = claveDe sha256 raw ∧
      s'.tablas.apiKey.filas = ⟨id, customerId, key.prefijo, key.hash.toList, 1, quota.toInt64,
        expiresAt, t, none, none⟩ :: s.tablas.apiKey.filas ∧
      s'.tablas.customer = s.tablas.customer ∧ s'.tablas.usage = s.tablas.usage ∧
      ∀ k ∈ s.tablas.apiKey.filas, k.id ≠ id := by
  rw [issueKey_eq] at h
  obtain ⟨raw, s₁, hraw, h⟩ := Prog.bind_ok.mp h
  obtain ⟨id, s₂, hid, h⟩ := Prog.bind_ok.mp h
  obtain ⟨t, s₃, ht, h⟩ := Prog.bind_ok.mp h
  obtain ⟨u, s₄, hu, h⟩ := Prog.bind_ok.mp h
  cases h
  have htablas : s₃.tablas = s.tablas := by
    have h₁ := ((conserva_rellenar (T := Eq) 32).of_ok hraw).tablas
    have h₂ := (conserva_randomId.of_ok hid : Avanza Eq s₁ s₂).tablas
    have h₃ := (conserva_now.of_ok ht : Avanza Eq s₂ s₃).tablas
    rw [h₁, h₂, h₃]
  obtain ⟨-, t', hins, rfl⟩ := sentencia_eq_ok.mp hu
  rw [htablas] at hins
  obtain ⟨hfilas, hcustomer, husage, hfresca⟩ := insertApiKey_ok hins
  exact ⟨raw, id, t, rfl, hfilas, hcustomer, husage, hfresca⟩

/-- No statement fails and the clock shows no time before the epoch. -/
structure Estado.Firme (s : Estado) : Prop where
  fallos : ∀ n, s.fallos n = false
  reloj : ∀ n, 0 ≤ s.reloj n

/-- A row that has just been inserted authorises its key. -/
theorem verify_recien {raw : Arr 32} {k : ApiKey} {filas : List ApiKey} {c : Customer} {s : Estado}
    (hs : s.Firme) (hfilas : s.tablas.apiKey.filas = k :: filas)
    (hprefijo : k.prefijo = (claveDe sha256 raw).prefijo)
    (hhash : k.keyHash = (claveDe sha256 raw).hash.toList)
    (hcustomer : s.tablas.customer.lookup k.customerId = some c) (hactive : k.active = 1)
    (hrevoked : k.revokedAt = none) (hexpires : k.expiresAt = none)
    (husage : ∀ p, (k.id, p) ∉ s.tablas.usage) (hquota : 0 < k.quotaMonthly.toUInt64) :
    ∃ s', verify sha256 (claveDe sha256 raw).secret s =
        .ok (.valid k.id k.customerId k.quotaMonthly.toUInt64 0 c.plan) s' ∧
      s'.Firme ∧ s'.cinta = s.cinta := by
  have hjoin : joinCustomer (claveDe sha256 raw).prefijo s.tablas = some (k, c.plan) := by
    rw [joinCustomer, hfilas, List.find?_cons_of_pos (by rw [hprefijo]; exact decide_eq_true rfl)]
    simp only [Option.bind_eq_bind, Option.bind_some, hcustomer]
  have hselect : sentencia (selectKey (claveDe sha256 raw).prefijo) s =
      .ok (some (k, c.plan)) { s with fallos := fun n => s.fallos (n + 1) } :=
    sentencia_of_ok (hs.fallos 0) (by rw [selectKey, hjoin])
  have hperiodo := currentPeriod_of_nonneg
    (s := { s with fallos := fun n => s.fallos (n + 1) }) (hs.reloj 0)
  have hlookup : s.tablas.usage.lookup (k.id, periodOf (s.reloj 0)) = none :=
    AList.lookup_eq_none.mpr (husage _)
  have hcuenta : sentencia (selectUsage k.id (periodOf (s.reloj 0)))
      { s with fallos := fun n => s.fallos (n + 1), reloj := fun n => s.reloj (n + 1) } =
      .ok none { s with fallos := fun n => s.fallos (n + 2), reloj := fun n => s.reloj (n + 1) } :=
    sentencia_of_ok (hs.fallos 1) (by rw [selectUsage, hlookup])
  have hviva : ¬(k.revokedAt.isSome = true ∨ k.active = 0) := by
    rw [hrevoked, hactive]
    decide
  refine ⟨{ s with fallos := fun n => s.fallos (n + 2), reloj := fun n => s.reloj (n + 1) }, ?_,
    ⟨fun n => hs.fallos (n + 2), fun n => hs.reloj (n + 1)⟩, rfl⟩
  unfold verify
  rw [parse_claveDe]
  simp only
  rw [Prog.bind_of_ok hselect]
  simp only
  rw [verifyFila, if_neg (not_not.mpr hhash), if_neg hviva, hexpires]
  rw [Prog.bind_of_ok (show expirada none _ = .ok false _ from rfl), if_neg Bool.false_ne_true,
    Prog.bind_of_ok hperiodo, usageCount, bind_assoc, Prog.bind_of_ok hcuenta]
  exact congrFun (if_neg (UInt64.not_le.mpr hquota)) _

end Quipu.Almacen

namespace Quipu.Servidor

open Aleatorio Almacen Calendario Prog Voprf

variable {L : Type} {sha256 : List UInt8 → Arr 32}

theorem quotaFor_pos {plan : String} {quota : UInt64} (h : quotaFor plan = some quota) :
    0 < quota := by
  obtain ⟨p, hp, rfl⟩ := Option.map_eq_some_iff.mp h
  have hmem : p ∈ plans := List.mem_of_find?_eq_some hp
  rcases List.mem_pair.mp hmem with rfl | rfl
  · decide
  · decide

theorem stripPrefix_append (p s : String) : stripPrefix p (p ++ s) = some s := by
  rw [stripPrefix, String.toList_append, isPrefixOf?_eq_some.mpr rfl, Option.map_some,
    String.ofList_toList]

/-- The answer that hands a key out. -/
def emision (customer : String) (key : GeneratedKey) : Resp :=
  json 200 ("\x7b\"customer\":\"" ++ customer ++ "\",\"prefix\":\"" ++ key.prefijo ++
    "\",\"api_key\":\"" ++ key.secret ++ "\"\x7d")

theorem emitir_ok {email plan : String} {quota : UInt64} {s s' : Sesion L} {resp : Resp}
    (h : emitir sha256 email plan quota s = .ok resp s') (h200 : resp.status = 200) :
    ∃ customer key e₁ e₂, createCustomer email plan s.store = .ok customer e₁ ∧
      issueKey sha256 customer quota none e₁ = .ok key e₂ ∧ s' = { s with store := e₂ } ∧
      resp = emision customer key := by
  obtain ⟨r, s₁, hr, h⟩ := Prog.bind_ok.mp h
  cases r with
  | error e =>
    cases h
    cases h200
  | ok customer =>
    obtain ⟨e₁, he₁, rfl⟩ := enStore_eq_ok.mp hr
    obtain ⟨r, s₂, hr, h⟩ := Prog.bind_ok.mp h
    cases r with
    | error e =>
      cases h
      cases h200
    | ok key =>
      obtain ⟨e₂, he₂, rfl⟩ := enStore_eq_ok.mp hr
      cases h
      exact ⟨customer, key, e₁, e₂, he₁, he₂, rfl, rfl⟩

theorem adminIssue_ok {adminToken : Option String} {req : Request} {s s' : Sesion L} {resp : Resp}
    (h : adminIssue sha256 adminToken req s = .ok resp s') (h200 : resp.status = 200) :
    ∃ email plan quota, quotaFor plan = some quota ∧
      emitir sha256 email plan quota s = .ok resp s' := by
  rcases adminIssue_cases (L := L) sha256 adminToken req with
    ⟨resp', hne, hp⟩ | ⟨email, plan, quota, hquota, hp⟩
  · rw [hp] at h
    cases h
    exact absurd h200 hne
  · rw [hp] at h
    exact ⟨email, plan, quota, hquota, h⟩

/-- The request carries the key and a point that the holder of the key answers. -/
structure Peticionable (srv : Server L) (req : Request) (secret : String) (s : Sesion L)
    (r : Arr 32 × Arr proofLen) : Prop where
  autoriza : headerValue req "Authorization" = some ("Bearer " ++ secret)
  cuerpo : ∃ body blinded cinta, req.body = some body ∧ fromHex32 (trim body) = some blinded ∧
    srv.blindEvaluate blinded s.store.cinta = .ok (some r) cinta

theorem evaluate_de_valid {srv : Server L} {req : Request} {secret : String} {s : Sesion L}
    {r : Arr 32 × Arr proofLen} (hreq : Peticionable srv req secret s r)
    {keyId customerId plan : String} {quota used : UInt64} {e : Estado}
    (hv : verify sha256 secret s.store = .ok (.valid keyId customerId quota used plan) e)
    (he : e.Firme) (hcinta : e.cinta = s.store.cinta) {l : L}
    (hallow : srv.allow keyId (limitsFor plan).rateCapacity (limitsFor plan).rateRefillPerSec
      s.limiter = .ok true l) :
    ∃ s', evaluate sha256 srv req s = .ok (evaluacion r.1 r.2) s' := by
  obtain ⟨body, blinded, cinta, hbody, hhex, hblind⟩ := hreq.cuerpo
  have hstore : enStore (verify sha256 secret) s =
      .ok (.ok (.valid keyId customerId quota used plan)) { s with store := e } :=
    enStore_eq_ok.mpr ⟨e, hv, rfl⟩
  have hlimiter : enLimiter (srv.allow keyId (limitsFor plan).rateCapacity
      (limitsFor plan).rateRefillPerSec) { s with store := e } = .ok true ⟨e, l⟩ :=
    enfocar_eq_ok.mpr ⟨l, hallow, rfl⟩
  have hcin : enCinta (srv.blindEvaluate blinded) ⟨e, l⟩ =
      .ok (some r) ⟨{ e with cinta := cinta }, l⟩ :=
    enfocar_eq_ok.mpr ⟨cinta, by rw [← hblind, hcinta], rfl⟩
  have hevaluar : evaluar sha256 srv req s =
      .ok (.ok (keyId, r)) ⟨{ e with cinta := cinta }, l⟩ := by
    rw [evaluar, hreq.autoriza, Option.bind_some, stripPrefix_append]
    simp only [hbody, hhex]
    rw [evaluarClave, Prog.bind_of_ok hstore]
    simp only
    rw [Prog.bind_of_ok hlimiter, if_pos rfl, Prog.bind_of_ok hcin]
    rfl
  obtain ⟨a, hrec⟩ := enStore_responde (s := (⟨{ e with cinta := cinta }, l⟩ : Sesion L))
    (responde_recordUsage keyId (he.reloj 0) (he.reloj 1))
  rw [evaluate, Prog.bind_of_ok hevaluar]
  exact ⟨_, Prog.bind_of_ok hrec⟩

/-- A key that the administrator is given works: in every run from a new database and a new burst
limiter, the secret in an answer 200 of `admin_issue` gets the evaluation of any point that the key
holder answers. -/
theorem clave_emitida_sirve (sha256 : List UInt8 → Arr 32)
    (blindEvaluate : Arr 32 → Prog Cinta Empty (Option (Arr 32 × Arr proofLen)))
    (adminToken : Option String) (pasos : List Paso) (s : Sesion Rafaga) (hs : Nueva s)
    (hl : s.limiter.limitador = .new) (req : Request) (resp : Resp) (s₁ : Sesion Rafaga)
    (h : adminIssue sha256 adminToken req
      (correr sha256 (conRafaga blindEvaluate) adminToken pasos s) = .ok resp s₁)
    (h200 : resp.status = 200) (hfirme : s₁.store.Firme) :
    ∃ customer raw, resp = emision customer (claveDe sha256 raw) ∧
      ∀ req' r, Peticionable (conRafaga blindEvaluate) req' (claveDe sha256 raw).secret s₁ r →
        ∃ s₂, evaluate sha256 (conRafaga blindEvaluate) req' s₁ =
          .ok (evaluacion r.1 r.2) s₂ := by
  have hsano : Sano (correr sha256 (conRafaga blindEvaluate) adminToken pasos s).store :=
    correr_sano sha256 adminToken pasos hs.sano
  have hconoce : Conocidas (correr sha256 (conRafaga blindEvaluate) adminToken pasos s) := by
    refine correr_conoce sha256 adminToken pasos s fun id hid => ?_
    rw [hl] at hid
    exact absurd hid (AList.notMem_empty id)
  obtain ⟨email, plan, quota, hquota, h⟩ := adminIssue_ok h h200
  obtain ⟨customer, key, e₁, e₂, he₁, he₂, rfl, rfl⟩ := emitir_ok h h200
  obtain ⟨⟨c, rfl, hcustomer⟩, hfilas₁, husage₁⟩ := createCustomer_ok he₁
  obtain ⟨raw, id, t, rfl, hfilas, hcustomer₂, husage, hfresca⟩ := issueKey_ok he₂
  refine ⟨customer, raw, rfl, fun req' r hreq => ?_⟩
  have hsinUso : ∀ p, (id, p) ∉ e₂.tablas.usage := by
    intro p hp
    rw [husage, husage₁] at hp
    obtain ⟨k, hk, hid⟩ := hsano.claves id p hp
    rw [← hfilas₁] at hk
    exact hfresca k hk hid
  have hsinCubo : id ∉ (correr sha256 (conRafaga blindEvaluate) adminToken pasos
      s).limiter.limitador.buckets := by
    intro hm
    obtain ⟨k, hk, hid⟩ := hconoce id hm
    rw [← hfilas₁] at hk
    exact hfresca k hk hid
  have hpos : 0 < quota.toInt64.toUInt64 := quotaFor_pos hquota
  obtain ⟨e, hv, he, hcinta⟩ := verify_recien hfirme hfilas
    (show _ = (claveDe sha256 raw).prefijo from rfl) rfl (hcustomer₂ ▸ hcustomer) rfl rfl rfl
    hsinUso hpos
  obtain ⟨l, hallow⟩ := Rafaga.allow_nueva (limitsFor c.plan).rateRefillPerSec hsinCubo
    (one_le_rateCapacity c.plan)
  exact evaluate_de_valid hreq hv he hcinta hallow

def altaFija : Request := ⟨[("X-Admin-Token", "t")], some "email=dev@example.com&plan=pro"⟩

def sesionRafaga : Sesion Rafaga :=
  ⟨(sesionFija fun _ => false).store, ⟨.new, fun _ => 0⟩⟩

theorem clave_emitida_sirve_fija :
    ∃ resp s₁, adminIssue hashFijo (some "t") altaFija sesionRafaga = .ok resp s₁ ∧
      ∃ customer raw, resp = emision customer (claveDe hashFijo raw) ∧
        ∃ resp₂ s₂, evaluate hashFijo (conRafaga servidorFijo.blindEvaluate)
          ⟨[("Authorization", "Bearer " ++ (claveDe hashFijo raw).secret)],
            some "0000000000000000000000000000000000000000000000000000000000000000"⟩ s₁ =
              .ok resp₂ s₂ ∧ resp₂.status = 200 := by
  have h : ∃ resp s₁, adminIssue hashFijo (some "t") altaFija sesionRafaga =
      .ok resp s₁ ∧ resp.status = 200 ∧ s₁.store.Firme :=
    ⟨_, _, rfl, rfl, fun _ => rfl, fun _ => le_rfl⟩
  obtain ⟨resp, s₁, h, h200, hfirme⟩ := h
  obtain ⟨customer, raw, hresp, huso⟩ := clave_emitida_sirve hashFijo servidorFijo.blindEvaluate
    (some "t") [] sesionRafaga ⟨rfl, rfl, rfl, fun _ _ _ => le_rfl⟩ rfl altaFija resp s₁ h h200
    hfirme
  obtain ⟨s₂, hev⟩ := huso ⟨[("Authorization", "Bearer " ++ (claveDe hashFijo raw).secret)],
      some "0000000000000000000000000000000000000000000000000000000000000000"⟩
    (List.Vector.replicate 32 0, List.Vector.replicate _ 0)
    ⟨by simp [headerValue, equiv], _, List.Vector.replicate 32 0, _, rfl, by decide, rfl⟩
  exact ⟨resp, s₁, h, customer, raw, hresp, _, s₂, hev, rfl⟩

end Quipu.Servidor
