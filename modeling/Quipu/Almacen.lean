import Quipu.Aleatorio
import Quipu.Calendario
import Quipu.Kdf
import Quipu.Marco
import Quipu.Tabla

namespace Quipu.Almacen

open Aleatorio Calendario Tabla

def toHex (bytes : List UInt8) : String := String.ofList (bytes.flatMap hexDigits)

def keyTag : String := "quipu_live_"

def hexLen : Nat := 64

def prefixHexLen : Nat := 12

structure GeneratedKey where
  secret : String
  prefijo : String
  hash : Arr 32

def isAsciiHexdigit (c : Char) : Bool :=
  ('0' ≤ c ∧ c ≤ '9') ∨ ('a' ≤ c ∧ c ≤ 'f') ∨ ('A' ≤ c ∧ c ≤ 'F')

structure Customer where
  email : String
  plan : String
  createdAt : Int

structure ApiKey where
  id : String
  customerId : String
  prefijo : String
  keyHash : List UInt8
  active : Int
  quotaMonthly : Int64
  expiresAt : Option Int
  createdAt : Int
  lastUsedAt : Option Int
  revokedAt : Option Int

/-- The rows of `api_key` under its primary key and its unique column. -/
structure ApiKeys where
  filas : List ApiKey
  ids : (filas.map ApiKey.id).Nodup
  prefijos : (filas.map ApiKey.prefijo).Nodup

/-- The assignments of an `UPDATE` that leaves the constrained columns alone. -/
structure Asignacion where
  poner : ApiKey → ApiKey
  id_poner : ∀ k, (poner k).id = k.id
  prefijo_poner : ∀ k, (poner k).prefijo = k.prefijo

def Asignacion.enFila (a : Asignacion) (donde : ApiKey → Bool) (k : ApiKey) : ApiKey :=
  if donde k then a.poner k else k

theorem Asignacion.id_enFila (a : Asignacion) (donde : ApiKey → Bool) (k : ApiKey) :
    (a.enFila donde k).id = k.id := by
  unfold enFila
  split
  next => exact a.id_poner k
  next => rfl

theorem Asignacion.prefijo_enFila (a : Asignacion) (donde : ApiKey → Bool) (k : ApiKey) :
    (a.enFila donde k).prefijo = k.prefijo := by
  unfold enFila
  split
  next => exact a.prefijo_poner k
  next => rfl

namespace ApiKeys

theorem ids_update (t : ApiKeys) (a : Asignacion) (donde : ApiKey → Bool) :
    ((t.filas.map (a.enFila donde)).map ApiKey.id).Nodup := by
  rw [List.map_map, show ApiKey.id ∘ a.enFila donde = ApiKey.id from funext (a.id_enFila donde)]
  exact t.ids

theorem prefijos_update (t : ApiKeys) (a : Asignacion) (donde : ApiKey → Bool) :
    ((t.filas.map (a.enFila donde)).map ApiKey.prefijo).Nodup := by
  rw [List.map_map,
    show ApiKey.prefijo ∘ a.enFila donde = ApiKey.prefijo from funext (a.prefijo_enFila donde)]
  exact t.prefijos

theorem ids_insert {t : ApiKeys} {k : ApiKey} (h : k.id ∉ t.filas.map ApiKey.id) :
    ((k :: t.filas).map ApiKey.id).Nodup := t.ids.cons h

theorem prefijos_insert {t : ApiKeys} {k : ApiKey} (h : k.prefijo ∉ t.filas.map ApiKey.prefijo) :
    ((k :: t.filas).map ApiKey.prefijo).Nodup := t.prefijos.cons h

def vacia : ApiKeys := ⟨[], List.nodup_nil, List.nodup_nil⟩

def insert (t : ApiKeys) (k : ApiKey) : Option ApiKeys :=
  if h : k.id ∉ t.filas.map ApiKey.id ∧ k.prefijo ∉ t.filas.map ApiKey.prefijo then
    some ⟨k :: t.filas, ids_insert h.1, prefijos_insert h.2⟩
  else none

/-- The rows that an `UPDATE` matches, and the table after it. -/
def update (t : ApiKeys) (a : Asignacion) (donde : ApiKey → Bool) : Nat × ApiKeys :=
  (t.filas.countP donde,
    ⟨t.filas.map (a.enFila donde), t.ids_update a donde, t.prefijos_update a donde⟩)

end ApiKeys

/-- `foreignKeys` is whether the build of SQLite enforces them. -/
structure Tablas where
  customer : AList fun _ : String => Customer
  apiKey : ApiKeys
  usage : AList fun _ : String × String => Nat
  foreignKeys : Bool

/-- The database and what its calls draw on: the readings of the clock and the failures of the
statements still to come, and the random source. -/
structure Estado where
  tablas : Tablas
  reloj : Nat → Int
  fallos : Nat → Bool
  cinta : Cinta

inductive RusqliteError where
  | sqliteFailure
  | invalidColumnType
  deriving DecidableEq, Repr

abbrev Sql (α : Type) := Prog Estado RusqliteError α

/-- A statement takes effect as a whole or fails leaving the tables as they were. -/
def sentencia {α : Type} (f : Tablas → Except RusqliteError (α × Tablas)) : Sql α := fun s =>
  let s' := { s with fallos := fun n => s.fallos (n + 1) }
  if s.fallos 0 then .error (.error .sqliteFailure) s' else
    match f s.tablas with
    | .ok r => .ok r.1 { s' with tablas := r.2 }
    | .error e => .error (.error e) s'

def now : Sql Int := fun s =>
  let s' := { s with reloj := fun n => s.reloj (n + 1) }
  if s.reloj 0 < 0 then .error (.panico "reloj") s' else .ok (s.reloj 0) s'

def currentPeriod : Sql String := do pure (periodOf (← now))

def rellenar (k : Nat) : Sql (Arr k) := fun s =>
  match fill (List.Vector.replicate k 0) s.cinta with
  | (.ok _, raw, cinta) => .ok raw { s with cinta := cinta }
  | (.error _, _, cinta) => .error (.panico "RNG del sistema") { s with cinta := cinta }

def randomId : Sql String := do pure (toHex (← rellenar 16).toList)

def insertCustomer (id : String) (c : Customer) (t : Tablas) :
    Except RusqliteError (Unit × Tablas) :=
  if id ∈ t.customer then .error .sqliteFailure
  else .ok ((), { t with customer := t.customer.insert id c })

def insertApiKey (k : ApiKey) (t : Tablas) : Except RusqliteError (Unit × Tablas) :=
  if t.foreignKeys ∧ k.customerId ∉ t.customer then .error .sqliteFailure else
    match t.apiKey.insert k with
    | some apiKey => .ok ((), { t with apiKey := apiKey })
    | none => .error .sqliteFailure

/-- The row of a prefix joined with the plan of its customer. -/
def joinCustomer (prefijo : String) (t : Tablas) : Option (ApiKey × String) := do
  let k ← t.apiKey.filas.find? (fun k => k.prefijo = prefijo)
  let c ← t.customer.lookup k.customerId
  some (k, c.plan)

def selectKey (prefijo : String) (t : Tablas) :
    Except RusqliteError (Option (ApiKey × String) × Tablas) := .ok (joinCustomer prefijo t, t)

/-- A count past `i64` is held as a float, which the code cannot read back. -/
def selectUsage (keyId period : String) (t : Tablas) :
    Except RusqliteError (Option Nat × Tablas) :=
  match t.usage.lookup (keyId, period) with
  | none => .ok (none, t)
  | some n => if n < 2 ^ 63 then .ok (some n, t) else .error .invalidColumnType

/-- `count + 1`, which leaves the float past `i64` as it is. -/
def contarUna : Option Nat → Nat
  | none => 1
  | some n => if n < 2 ^ 63 then n + 1 else n

def insertUsage (keyId period : String) (t : Tablas) : Except RusqliteError (Unit × Tablas) :=
  if t.foreignKeys ∧ keyId ∉ t.apiKey.filas.map ApiKey.id then .error .sqliteFailure
  else .ok ((), { t with
    usage := t.usage.insert (keyId, period) (contarUna (t.usage.lookup (keyId, period))) })

def updateKeys (a : Asignacion) (donde : ApiKey → Bool) (t : Tablas) :
    Except RusqliteError (Nat × Tablas) :=
  let r := t.apiKey.update a donde
  .ok (r.1, { t with apiKey := r.2 })

def ponerActive (active : Int) : Asignacion :=
  ⟨fun k => { k with active := active }, fun _ => rfl, fun _ => rfl⟩

def ponerLastUsed (t : Int) : Asignacion :=
  ⟨fun k => { k with lastUsedAt := some t }, fun _ => rfl, fun _ => rfl⟩

def ponerRevoked (t : Int) : Asignacion :=
  ⟨fun k => { k with active := 0, revokedAt := some t }, fun _ => rfl, fun _ => rfl⟩

def createCustomer (email plan : String) : Sql String := do
  let id ← randomId
  let t ← now
  sentencia (insertCustomer id ⟨email, plan, t⟩)
  pure id

/-- What `verify` answers; only `valid` authorises the evaluation. -/
inductive AuthResult where
  | valid (keyId customerId : String) (quotaMonthly used : UInt64) (plan : String)
  | unknown
  | inactive
  | expired
  | quotaExceeded
  deriving DecidableEq, Repr

def expirada : Option Int → Sql Bool
  | none => pure false
  | some exp => do pure (decide (exp ≤ (← now)))

def usageCount (keyId period : String) : Sql UInt64 := do
  let count ← sentencia (selectUsage keyId period)
  pure (UInt64.ofNat (count.getD 0))

/-- One more in the current period, and `last_used_at`. -/
def recordUsage (keyId : String) : Sql Unit := do
  let period ← currentPeriod
  sentencia (insertUsage keyId period)
  let t ← now
  let _ ← sentencia (updateKeys (ponerLastUsed t) fun k => k.id = keyId)

def setActive (prefijo : String) (active : Bool) : Sql Nat :=
  if active then
    sentencia (updateKeys (ponerActive 1) fun k => k.prefijo = prefijo ∧ k.revokedAt = none)
  else sentencia (updateKeys (ponerActive 0) fun k => k.prefijo = prefijo)

def revoke (prefijo : String) : Sql Nat := do
  let t ← now
  sentencia (updateKeys (ponerRevoked t) fun k => k.prefijo = prefijo)

section Claves

variable (sha256 : List UInt8 → Arr 32)

def generate : Sql GeneratedKey := do
  let raw ← rellenar 32
  let hex := raw.toList.flatMap hexDigits
  let secret := keyTag ++ String.ofList hex
  pure ⟨secret, keyTag ++ String.ofList (hex.take prefixHexLen), sha256 (utf8 secret)⟩

/-- The prefix and the hash of a presented key of the right form. -/
def parse (presented : String) : Option (String × Arr 32) := do
  let rest ← keyTag.toList.isPrefixOf? presented.toList
  if rest.length ≠ hexLen ∨ rest.all isAsciiHexdigit = false then none
  else some (keyTag ++ String.ofList (rest.take prefixHexLen), sha256 (utf8 presented))

def issueKey (customerId : String) (quotaMonthly : UInt64) (expiresAt : Option Int) :
    Sql GeneratedKey := do
  let key ← generate sha256
  let id ← randomId
  let t ← now
  sentencia (insertApiKey
    ⟨id, customerId, key.prefijo, key.hash.toList, 1, quotaMonthly.toInt64, expiresAt, t, none,
      none⟩)
  pure key

/-- The checks of `verify` on the row of the presented key. -/
def verifyFila (hash : Arr 32) (k : ApiKey) (plan : String) : Sql AuthResult := do
  if k.keyHash ≠ hash.toList then pure .unknown
  else if k.revokedAt.isSome ∨ k.active = 0 then pure .inactive
  else if ← expirada k.expiresAt then pure .expired
  else
    let used ← usageCount k.id (← currentPeriod)
    let quota := k.quotaMonthly.toUInt64
    if used ≥ quota then pure .quotaExceeded
    else pure (.valid k.id k.customerId quota used plan)

def verify (presented : String) : Sql AuthResult :=
  match parse sha256 presented with
  | none => pure .unknown
  | some (prefijo, hash) => do
    match ← sentencia (selectKey prefijo) with
    | none => pure .unknown
    | some (k, plan) => verifyFila hash k plan

end Claves

end Quipu.Almacen
