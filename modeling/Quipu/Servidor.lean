import Quipu.Almacen
import Quipu.Voprf
import Mathlib.Data.Rat.Defs

namespace Quipu.Servidor

open Aleatorio Almacen Prog Voprf

/-- What a plan grants; the rates are the exact values of the source's floats. -/
structure Plan where
  name : String
  quotaMonthly : UInt64
  rateCapacity : ℚ
  rateRefillPerSec : ℚ

def plans : List Plan := [⟨"starter", 250000, 60, 30⟩, ⟨"pro", 1500000, 200, 100⟩]

def fallback : Plan := ⟨"desconocido", 10000, 20, 10⟩

def planFor (name : String) : Option Plan := plans.find? fun p => p.name = name

def limitsFor (name : String) : Plan := (planFor name).getD fallback

def quotaFor (plan : String) : Option UInt64 := (planFor plan).map Plan.quotaMonthly

def hexval (c : UInt8) : Option UInt8 :=
  if 48 ≤ c ∧ c ≤ 57 then some (c - 48)
  else if 97 ≤ c ∧ c ≤ 102 then some (c - 97 + 10)
  else if 65 ≤ c ∧ c ≤ 70 then some (c - 65 + 10)
  else none

def fromHex32 (s : String) : Option (Arr 32) :=
  let b := utf8 s
  if b.length ≠ 64 then none
  else (List.Vector.ofFn fun i : Fin 32 => i.val).mmap fun i => do
    let hi ← hexval (b.getD (2 * i) 0)
    let lo ← hexval (b.getD (2 * i + 1) 0)
    pure (hi <<< 4 ||| lo)

/-- The `White_Space` characters of Unicode. -/
def isWhitespace (c : Char) : Bool :=
  (9 ≤ c.toNat ∧ c.toNat ≤ 13) ∨ (0x2000 ≤ c.toNat ∧ c.toNat ≤ 0x200A) ∨
    c.toNat ∈ [0x20, 0x85, 0xA0, 0x1680, 0x2028, 0x2029, 0x202F, 0x205F, 0x3000]

def trim (s : String) : String :=
  String.ofList (((s.toList.dropWhile isWhitespace).reverse.dropWhile isWhitespace).reverse)

def stripPrefix (p s : String) : Option String :=
  (p.toList.isPrefixOf? s.toList).map String.ofList

/-- A request; `body` is `none` where reading it fails. -/
structure Request where
  headers : List (String × String)
  body : Option String

structure Resp where
  status : Nat
  contentType : String
  body : String

def text (status : Nat) (msg : String) : Resp := ⟨status, "text/plain; charset=UTF-8", msg⟩

def json (status : Nat) (body : String) : Resp := ⟨status, "application/json", body⟩

/-- The name of a header is compared without case. -/
def equiv (field name : String) : Bool :=
  field.toList.map Char.toLower = name.toList.map Char.toLower

def headerValue (req : Request) (name : String) : Option String :=
  (req.headers.find? fun h => equiv h.1 name).map Prod.snd

def formGet (body key : String) : Option String :=
  ((body.toList.splitOn '&').find? fun pair => pair.takeWhile (· ≠ '=') = key.toList).map
    fun pair => String.ofList (pair.dropWhile (· ≠ '=')).tail

/-- The server between two requests: the store and what the burst limiter keeps. -/
structure Sesion (L : Type) where
  store : Estado
  limiter : L

/-- The key holder and the burst limiter, whatever they answer. -/
structure Server (L : Type) where
  blindEvaluate : Arr 32 → Prog Cinta Empty (Option (Arr 32 × Arr proofLen))
  allow : String → ℚ → ℚ → Prog L Empty Bool

variable {L α : Type}

def enStore (p : Sql α) : Prog (Sesion L) Empty (Except RusqliteError α) :=
  intentar Sesion.store (fun s store => { s with store := store }) p

def enLimiter (p : Prog L Empty α) : Prog (Sesion L) Empty α :=
  enfocar Sesion.limiter (fun s limiter => { s with limiter := limiter }) p

def enCinta (p : Prog Cinta Empty α) : Prog (Sesion L) Empty α :=
  enfocar (fun s => s.store.cinta) (fun s cinta => { s with store.cinta := cinta }) p

variable (sha256 : List UInt8 → Arr 32)

/-- The part of `evaluate` on the checked request: the answer that ends it, or the key to charge
with the evaluation and its proof. -/
def evaluarClave (srv : Server L) (bearer : String) (blinded : Arr 32) :
    Prog (Sesion L) Empty (Except Resp (String × Arr 32 × Arr proofLen)) := do
  match ← enStore (verify sha256 bearer) with
  | .ok (.valid keyId _ _ _ plan) =>
    let limits := limitsFor plan
    if ← enLimiter (srv.allow keyId limits.rateCapacity limits.rateRefillPerSec) then
      match ← enCinta (srv.blindEvaluate blinded) with
      | some r => pure (.ok (keyId, r))
      | none => pure (.error (text 400 "punto cegado inválido"))
    else pure (.error (text 429 "rate limit de ráfaga"))
  | .ok .unknown => pure (.error (text 401 "api key inválida"))
  | .ok .inactive => pure (.error (text 403 "api key inactiva"))
  | .ok .expired => pure (.error (text 403 "api key expirada"))
  | .ok .quotaExceeded => pure (.error (text 429 "cuota mensual agotada"))
  | .error _ => pure (.error (text 500 "error de almacén"))

/-- The part of `evaluate` before the use is recorded. -/
def evaluar (srv : Server L) (req : Request) :
    Prog (Sesion L) Empty (Except Resp (String × Arr 32 × Arr proofLen)) :=
  match (headerValue req "Authorization").bind (stripPrefix "Bearer ") with
  | none => pure (.error (text 401 "falta Authorization: Bearer <api_key>"))
  | some bearer =>
    match req.body with
    | none => pure (.error (text 400 "cuerpo ilegible"))
    | some body =>
      match fromHex32 (trim body) with
      | none => pure (.error (text 400 "el cuerpo debe ser el punto cegado en 64 hex"))
      | some blinded => evaluarClave sha256 srv bearer blinded

def evaluacion (eval : Arr 32) (proof : Arr proofLen) : Resp :=
  json 200 ("\x7b\"evaluation\":\"" ++ toHex eval.toList ++ "\",\"proof\":\"" ++
    toHex proof.toList ++ "\"\x7d")

/-- What `record_usage` answers is dropped. -/
def evaluate (srv : Server L) (req : Request) : Prog (Sesion L) Empty Resp := do
  match ← evaluar sha256 srv req with
  | .error resp => pure resp
  | .ok (keyId, eval, proof) =>
    let _ ← enStore (recordUsage keyId)
    pure (evaluacion eval proof)

def adminOk (adminToken presented : Option String) : Bool :=
  match adminToken, presented with
  | some expected, some got => utf8 expected = utf8 got
  | _, _ => false

/-- Two statements, for the customer and for its key. -/
def emitir (email plan : String) (quota : UInt64) : Prog (Sesion L) Empty Resp := do
  match ← enStore (createCustomer email plan) with
  | .error _ => pure (text 500 "error creando cliente")
  | .ok customer =>
    match ← enStore (issueKey sha256 customer quota none) with
    | .error _ => pure (text 500 "error emitiendo key")
    | .ok k =>
      pure (json 200 ("\x7b\"customer\":\"" ++ customer ++ "\",\"prefix\":\"" ++ k.prefijo ++
        "\",\"api_key\":\"" ++ k.secret ++ "\"\x7d"))

def adminIssue (adminToken : Option String) (req : Request) : Prog (Sesion L) Empty Resp :=
  if adminOk adminToken (headerValue req "X-Admin-Token") then
    match req.body with
    | none => pure (text 400 "cuerpo ilegible")
    | some body =>
      match (formGet body "email").filter (· ≠ "") with
      | none => pure (text 400 "falta email")
      | some email =>
        match (formGet body "plan").filter (· ≠ "") with
        | none => pure (text 400 "falta plan")
        | some plan =>
          match quotaFor plan with
          | none => pure (text 400 "plan desconocido")
          | some quota => emitir sha256 email plan quota
  else pure (text 401 "no autorizado")

/-- `trim_start_matches`; the fuel is the length of the text. -/
def trimStartMatches (p : List Char) : Nat → List Char → List Char
  | 0, s => s
  | n + 1, s =>
    match p.isPrefixOf? s with
    | some resto => trimStartMatches p n resto
    | none => s

def accion (action prefijo : String) : Option (Sql Nat) :=
  if action = "activate" then some (setActive prefijo true)
  else if action = "deactivate" then some (setActive prefijo false)
  else if action = "revoke" then some (revoke prefijo)
  else none

def adminAction (adminToken : Option String) (req : Request) (path : String) :
    Prog (Sesion L) Empty Resp :=
  if adminOk adminToken (headerValue req "X-Admin-Token") then
    let rest := trimStartMatches "/admin/keys/".toList path.toList.length path.toList
    let prefijo := String.ofList (rest.takeWhile (· ≠ '/'))
    let action := String.ofList (rest.dropWhile (· ≠ '/')).tail
    match accion action prefijo with
    | none => pure (text 404 "acción desconocida")
    | some result => do
      match ← enStore result with
      | .error _ => pure (text 500 "error de almacén")
      | .ok n =>
        if n = 0 ∧ action = "activate" then
          pure (text 409 "esta key está revocada y no se reactiva: emite una nueva")
        else pure (json 200 ("\x7b\"updated\":" ++ toString n ++ "\x7d"))
  else pure (text 401 "no autorizado")

end Quipu.Servidor
