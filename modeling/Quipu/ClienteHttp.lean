import Quipu.Busqueda
import Quipu.Hexadecimal
import Quipu.Lineas
import Quipu.OprfNet
import Quipu.Rutas

namespace Quipu.ClienteHttp

open Aleatorio Almacen Busqueda Lineas OprfNet Servidor Voprf

/-- The text of a request. -/
def pedido (addr method path : String) (headers : List (String × String)) (body : Option String) :
    String :=
  method ++ " " ++ path ++ " HTTP/1.1\r\nHost: " ++ addr ++ "\r\nConnection: close\r\n" ++
    String.join (headers.map fun h => h.1 ++ ": " ++ h.2 ++ "\r\n") ++
    (match body with
      | some b => "Content-Length: " ++ toString (utf8 b).length ++ "\r\n"
      | none => "") ++
    "\r\n" ++ body.getD ""

/-- `read_to_string`; the call of `read` that meets the end is the last. -/
def readToString (mostrar : Error → String) (l : Lector) : Res String String :=
  match (readChunk l (l.resto.length + 1)).1 with
  | .error e => fallar ("leer: " ++ mostrar (.io e))
  | .ok bs =>
    match String.fromUTF8? ⟨bs.toArray⟩ with
    | some raw => .ok raw
    | none => fallar "leer: stream did not contain valid UTF-8"

/-- The second of the parts of a text between its spaces. -/
def segundaPalabra (raw : List Char) : Option String :=
  (((raw.splitOnP isWhitespace).filter fun p => !p.isEmpty)[1]?).map String.ofList

def leerRespuesta (raw : String) : Res String (Nat × String) :=
  match (segundaPalabra raw.toList).bind (parseUnsigned 65535) with
  | none => fallar "respuesta HTTP ilegible"
  | some status =>
    .ok (status, match partir "\r\n\r\n".toList raw.toList with
      | some p => String.ofList p.2
      | none => "")

/-- How an error of the connection is written is a parameter. -/
def request (mostrar : Error → String) (red : Red) (addr method path : String)
    (headers : List (String × String)) (body : Option String) : Res String (Nat × String) := do
  red.connect.mapErr fun e => "conectar " ++ addr ++ ": " ++ mostrar e
  let enviado ← (red.writeAll (utf8 (pedido addr method path headers body))).mapErr fun e =>
    "enviar: " ++ mostrar e
  let raw ← readToString mostrar (red.par enviado)
  leerRespuesta raw

def field (body key : String) : Res String String :=
  match partir ("\"" ++ key ++ "\":\"").toList body.toList with
  | none => fallar ("falta el campo " ++ key)
  | some p =>
    match partir ['"'] p.2 with
    | none => fallar ("campo " ++ key ++ " sin cerrar")
    | some v => .ok (String.ofList v.1)

def okOr {α : Type} (e : String) : Option α → Res String α
  | some a => .ok a
  | none => fallar e

/-- The conversion of a `Vec` of bytes to the array of a proof. -/
def comoProof (bs : List UInt8) : Option (Arr proofLen) :=
  if h : bs.length = proofLen then some (Arr.of bs h) else none

theorem comoProof_toList (proof : Arr proofLen) : comoProof proof.toList = some proof :=
  dif_pos proof.toList_length

section Cliente

variable {q : ℕ} {G : Type} [AddCommGroup G] [Module (ZMod q) G] [Fact q.Prime] [DecidableEq G]

/-- What `harden` makes of the answer to its request. -/
def abrirRespuesta (S : Suite q G) (password : List UInt8) (state : Suite.BlindState q G)
    (serverPub : Arr 32) (r : Nat × String) : Res String (Arr 64) := do
  rechazarSi (r.1 ≠ 200) ("evaluate HTTP " ++ toString r.1 ++ ": " ++ r.2)
  let evaluated ← okOr "evaluation inválida" (fromHex32 (← field r.2 "evaluation"))
  let proofVec ← okOr "proof inválida" (fromHex (← field r.2 "proof"))
  let proof ← okOr "longitud de proof inesperada" (comoProof proofVec)
  okOr "prueba DLEQ inválida: servidor deshonesto o clave incorrecta"
    (S.finalize password state evaluated proof serverPub)

def cabecerasEvaluate (apiKey : String) : List (String × String) :=
  [("Authorization", "Bearer " ++ apiKey), ("Content-Type", "text/plain")]

def harden (S : Suite q G) (mostrar : Error → String) (red : Red) (addr apiKey : String)
    (password : List UInt8) (serverPub : Arr 32) : Prog Cinta String (Arr 64) := fun c =>
  match S.blind password c with
  | .error (.panico m) c' => .error (.panico m) c'
  | .ok none c' => .error (.error "entrada inválida para VOPRF") c'
  | .ok (some (state, blinded)) c' =>
    Prog.deRes (do
      let r ← request mostrar red addr "POST" "/v1/oprf/evaluate" (cabecerasEvaluate apiKey)
        (some (toHex blinded.toList))
      abrirRespuesta S password state serverPub r) c'

end Cliente

def fetchPublicKey (mostrar : Error → String) (red : Red) (addr : String) :
    Res String (Arr 32) := do
  let r ← request mostrar red addr "GET" "/v1/public-key" [] none
  rechazarSi (r.1 ≠ 200) ("public-key HTTP " ++ toString r.1)
  okOr "clave pública inválida" (fromHex32 (← field r.2 "public_key"))

/-- No occurrence of a pattern starts before it where its second character does not stand. -/
theorem despejado_of_segundo {p d : Char} {ps antes : List Char} (h : d ∉ antes) (hne : d ≠ p) :
    Despejado (p :: d :: ps) antes := by
  intro i hi hp
  obtain ⟨resto, hresto⟩ := hp
  have hget : (antes ++ p :: d :: ps)[i + 1]? = some d := by
    have hd := congrArg (fun l => l[1]?) hresto
    simpa [List.getElem?_drop, Nat.add_comm] using hd.symm
  rcases Nat.lt_or_ge (i + 1) antes.length with hlt | hge
  · rw [List.getElem?_append_left hlt] at hget
    exact h (List.mem_of_getElem? hget)
  · have hi' : i + 1 = antes.length := by omega
    rw [List.getElem?_append_right hge, hi', Nat.sub_self] at hget
    exact hne (Option.some.inj hget).symm

theorem field_eq_ok {body key valor : String} (antes resto : List Char)
    (hbody : body.toList =
      antes ++ (("\"" ++ key ++ "\":\"").toList ++ (valor.toList ++ '"' :: resto)))
    (hantes : Despejado ("\"" ++ key ++ "\":\"").toList antes) (hvalor : '"' ∉ valor.toList) :
    field body key = .ok valor := by
  have hcierre : partir ['"'] (valor.toList ++ '"' :: resto) = some (valor.toList, resto) :=
    partir_append (despejado_of_not_mem hvalor) resto
  rw [field, hbody, partir_append hantes]
  simp only [hcierre, String.ofList_toList]

theorem toHex_mem {bs : List UInt8} {c : Char} (h : c ∈ (toHex bs).toList) :
    c ≠ '"' ∧ c ≠ 'p' := toHex_forall (P := fun c => c ≠ '"' ∧ c ≠ 'p') (by decide) h

/-- The fields of the JSON of an evaluation. -/
theorem field_evaluacion (eval : Arr 32) (proof : Arr proofLen) :
    field (evaluacion eval proof).body "evaluation" = .ok (toHex eval.toList) ∧
      field (evaluacion eval proof).body "proof" = .ok (toHex proof.toList) := by
  have heval : '"' ∉ (toHex eval.toList).toList := fun h => (toHex_mem h).1 rfl
  have hproof : '"' ∉ (toHex proof.toList).toList := fun h => (toHex_mem h).1 rfl
  constructor
  · refine field_eq_ok ['\x7b']
      (",\"proof\":\"".toList ++ ((toHex proof.toList).toList ++ "\"\x7d".toList)) ?_ ?_ heval
    · simp only [evaluacion, json, String.toList_append, List.append_assoc]
      rfl
    · exact despejado_of_not_mem (by decide)
  · refine field_eq_ok
      ("\x7b\"evaluation\":\"".toList ++ ((toHex eval.toList).toList ++ "\",".toList)) ['\x7d']
      ?_ ?_ hproof
    · simp only [evaluacion, json, String.toList_append, List.append_assoc]
      rfl
    · refine despejado_of_segundo (d := 'p') ?_ (by decide)
      intro h
      simp only [List.mem_append] at h
      rcases h with h | h | h
      · exact absurd h (by decide +kernel)
      · exact (toHex_mem h).2 rfl
      · exact absurd h (by decide +kernel)

/-- The text of an HTTP response: a status line and headers, a blank line, and the body. -/
def EsRespuesta (raw : String) (status : Nat) (body : String) : Prop :=
  ∃ cabeza resto, raw.toList = cabeza ++ ("\r\n\r\n".toList ++ body.toList) ∧
    cabeza = "HTTP/1.1".toList ++ ' ' :: ((toString status).toList ++ ' ' :: resto) ∧
    Despejado "\r\n\r\n".toList cabeza

theorem segundaPalabra_respuesta {status : Nat} {resto : List Char} :
    segundaPalabra ("HTTP/1.1".toList ++ ' ' :: ((toString status).toList ++ ' ' :: resto)) =
      some (toString status) := by
  have hdigito : ∀ c ∈ (toString status).toList, isWhitespace c = false := by
    intro c hc
    have hmem : c ∈ Nat.toDigits 10 status := Nat.toList_repr .. ▸ hc
    have hd : c.isDigit = true := Nat.isDigit_of_mem_toDigits (by decide) (by decide) hmem
    simp only [Char.isDigit, Bool.and_eq_true, decide_eq_true_eq, ge_iff_le,
      UInt32.le_iff_toNat_le] at hd
    have h48 : 48 ≤ c.toNat := hd.1
    have h57 : c.toNat ≤ 57 := hd.2
    rw [isWhitespace, decide_eq_false_iff_not]
    simp only [List.mem_cons, List.not_mem_nil, or_false]
    omega
  have hvacia : (toString status).toList ≠ [] := by
    have hcs : (toString status).toList = Nat.toDigits 10 status := Nat.toList_repr
    rw [hcs]
    exact Nat.toDigits_ne_nil
  have hfalso : (toString status).toList.isEmpty = false := List.isEmpty_eq_false_iff.mpr hvacia
  have hversion : ∀ c ∈ "HTTP/1.1".toList, isWhitespace c = false := by
    have hall : "HTTP/1.1".toList.all (fun c => !isWhitespace c) = true := by decide +kernel
    exact fun c hc => by simpa using List.all_eq_true.mp hall c hc
  rw [segundaPalabra, List.splitOnP_append_cons_of_forall_mem hversion ' ' (by decide),
    List.splitOnP_append_cons_of_forall_mem hdigito ' ' (by decide),
    List.filter_cons_of_pos (by decide), List.filter_cons_of_pos (by rw [hfalso]; rfl)]
  exact congrArg some String.ofList_toList

theorem leerRespuesta_eq {raw body : String} {status : Nat} (h : EsRespuesta raw status body)
    (hstatus : status ≤ 65535) : leerRespuesta raw = .ok (status, body) := by
  obtain ⟨cabeza, resto, hraw, hcabeza, hdespejado⟩ := h
  have hpalabra : segundaPalabra raw.toList = some (toString status) := by
    rw [hraw, hcabeza]
    simp only [List.append_assoc, List.cons_append]
    exact segundaPalabra_respuesta
  rw [leerRespuesta, hpalabra, Option.bind_some, parseUnsigned_toString hstatus]
  simp only [hraw, partir_append hdespejado, String.ofList_toList]

theorem readToString_utf8 {mostrar : Error → String} {l : Lector} {raw : String}
    (hl : l.SinFallas) (h : l.resto = utf8 raw) : readToString mostrar l = .ok raw := by
  obtain ⟨bs, l', hr, -⟩ := readChunk_sinFallas hl (l.resto.length + 1)
  obtain ⟨hx, hle, hshort⟩ := readChunk_ok hr
  have hlen := congrArg List.length hx
  rw [List.length_append] at hlen
  have hbs : bs = utf8 raw := by
    rw [hshort (by omega), List.append_nil] at hx
    rw [← hx, h]
  have hraw : String.fromUTF8? ⟨(utf8 raw).toArray⟩ = some raw := by
    have hb : (⟨(utf8 raw).toArray⟩ : ByteArray) = raw.toByteArray := rfl
    rw [hb, String.fromUTF8?, dif_pos raw.isValidUTF8]
    rfl
  rw [readToString, hr]
  simp only [hbs, hraw]

def Method.texto : Method → String
  | .get => "GET"
  | .head => "HEAD"
  | .post => "POST"
  | .otro nombre => nombre

/-- A request as the server receives it. -/
def peticion (addr : String) (method : Method) (path : String) (headers : List (String × String))
    (body : Option String) : Peticion :=
  ⟨method, path, ⟨[("Host", addr), ("Connection", "close")] ++ headers ++
    (match body with
      | some b => [("Content-Length", toString (utf8 b).length)]
      | none => []), some (body.getD "")⟩⟩

/-- The way works, and behind it the server routes the request and its answer comes back. -/
structure Atiende {L : Type} (sha256 : List UInt8 → Arr 32) (cfg : Config L) (red : Red)
    (addr : String) (method : Method) (path : String) (headers : List (String × String))
    (body : Option String) (s : Sesion L) (resp : Resp) (s' : Sesion L) : Prop where
  connect : red.connect = .ok ()
  writeAll : ∀ bs, red.writeAll bs = .ok bs
  sinFallas : ∀ bs, (red.par bs).SinFallas
  ruta : route sha256 cfg (peticion addr method path headers body) s = .ok resp s'
  respuesta : ∃ raw, EsRespuesta raw resp.status resp.body ∧
    (red.par (utf8 (pedido addr (Method.texto method) path headers body))).resto = utf8 raw

theorem request_atiende {L : Type} {sha256 : List UInt8 → Arr 32} {cfg : Config L} {red : Red}
    {addr path : String} {method : Method} {headers : List (String × String)}
    {body : Option String} {s s' : Sesion L} {resp : Resp}
    (h : Atiende sha256 cfg red addr method path headers body s resp s')
    (hstatus : resp.status ≤ 65535) (mostrar : Error → String) :
    request mostrar red addr (Method.texto method) path headers body =
      .ok (resp.status, resp.body) := by
  obtain ⟨raw, hraw, hresto⟩ := h.respuesta
  rw [request, h.connect, Res.mapErr_ok, Res.ok_bind, h.writeAll, Res.mapErr_ok, Res.ok_bind,
    readToString_utf8 (h.sinFallas _) hresto, Res.ok_bind, leerRespuesta_eq hraw hstatus]

end Quipu.ClienteHttp
