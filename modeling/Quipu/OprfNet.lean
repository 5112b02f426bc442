import Quipu.Io
import Quipu.Marco
import Quipu.VoprfCliente

namespace Quipu.OprfNet

open Aleatorio Voprf

/-- How a call of `std::io` on a connection fails. -/
inductive Error where
  | io (e : ErrorIo)
  | unexpectedEof
  deriving DecidableEq, Repr

/-- The end of a connection that the server holds, with the random source of its process. -/
structure Conexion where
  lector : Lector
  escritor : Escritor
  alVaciar : Option ErrorIo
  cinta : Cinta

/-- The way to a server: how each call of the client on the socket goes, and what the peer sends
back to the bytes that reach it. -/
structure Red where
  alConectar : Option ErrorIo
  fallas : List (Option (Nat × ErrorIo))
  alVaciar : Option ErrorIo
  par : List UInt8 → Lector

def verifiedRespLen : Nat := 1 + 32 + proofLen

def readExact (l : Lector) (k : Nat) : Except Error (Arr k) × Lector :=
  match readChunk l k with
  | (.ok bs, l') =>
    (if h : bs.length = k then .ok (Arr.of bs h) else .error .unexpectedEof, l')
  | (.error e, l') => (.error (.io e), l')

namespace Conexion

def readExact (k : Nat) : Prog Conexion Error (Arr k) := fun c =>
  match OprfNet.readExact c.lector k with
  | (.ok b, l) => .ok b { c with lector := l }
  | (.error e, l) => .error (.error e) { c with lector := l }

def writeAll (bs : List UInt8) : Prog Conexion Error Unit := fun c =>
  match c.escritor.writeAll bs with
  | (.ok _, w) => .ok () { c with escritor := w }
  | (.error e, w) => .error (.error (.io e)) { c with escritor := w }

def flush : Prog Conexion Error Unit := fun c =>
  match c.alVaciar with
  | none => .ok () c
  | some e => .error (.error (.io e)) c

def conCinta {α : Type} (p : Prog Cinta Empty α) : Prog Conexion Error α :=
  Prog.enfocar cinta (fun c cinta => { c with cinta := cinta }) p

end Conexion

namespace Red

def connect (red : Red) : Res Error Unit :=
  match red.alConectar with
  | none => .ok ()
  | some e => fallar (.io e)

/-- What has reached the peer once the client wrote `bs`. -/
def writeAll (red : Red) (bs : List UInt8) : Res Error (List UInt8) :=
  match Escritor.writeAll ⟨[], red.fallas⟩ bs with
  | (.ok _, w) => .ok w.salida
  | (.error e, _) => fallar (.io e)

def flush (red : Red) : Res Error Unit :=
  match red.alVaciar with
  | none => .ok ()
  | some e => fallar (.io e)

def readExact (red : Red) (enviado : List UInt8) (k : Nat) : Res Error (Arr k) :=
  match (OprfNet.readExact (red.par enviado) k).1 with
  | .ok b => .ok b
  | .error e => fallar e

end Red

section Protocolo

variable {q : ℕ} {G : Type} [AddCommGroup G] [Module (ZMod q) G] [Fact q.Prime] [DecidableEq G]

def evaluateRemoteVerified (red : Red) (blinded : Arr 32) :
    Res Error (Option (Arr 32 × Arr proofLen)) := do
  red.connect
  let enviado ← red.writeAll blinded.toList
  red.flush
  let resp ← red.readExact enviado verifiedRespLen
  let estado ← octeto resp.toList 0
  if estado ≠ 1 then pure none else do
    let z ← campo resp.toList 1 32
    let proof ← campo resp.toList 33 proofLen
    pure (some (z, proof))

/-- The three `write_all` of a reply. -/
def responder : Option (Arr 32 × Arr proofLen) → Prog Conexion Error Unit
  | some (z, proof) => do
    Conexion.writeAll [1]
    Conexion.writeAll z.toList
    Conexion.writeAll proof.toList
  | none => do
    Conexion.writeAll [0]
    Conexion.writeAll (List.replicate 32 0)
    Conexion.writeAll (List.replicate proofLen 0)

def evaluar (S : Suite q G) (key : ZMod q) (allowed : Bool) (blinded : Arr 32) :
    Prog Conexion Error (Option (Arr 32 × Arr proofLen)) :=
  if allowed then Conexion.conCinta (S.blindEvaluate key blinded) else pure none

def handleConnectionVerified (S : Suite q G) (key : ZMod q) (allowed : Bool) :
    Prog Conexion Error Unit := do
  let blinded ← Conexion.readExact 32
  let result ← evaluar S key allowed blinded
  responder result
  Conexion.flush

end Protocolo

/-- The bytes of a reply. -/
def trama : Option (Arr 32 × Arr proofLen) → List UInt8
  | some (z, proof) => [1] ++ (z.toList ++ proof.toList)
  | none => [0] ++ (List.replicate 32 0 ++ List.replicate proofLen 0)

@[simp] theorem length_trama (result : Option (Arr 32 × Arr proofLen)) :
    (trama result).length = verifiedRespLen := by
  cases result with
  | none => rfl
  | some zp =>
    simp only [trama, List.length_append, List.Vector.toList_length, List.length_singleton]
    rfl

theorem readExact_of_resto {l : Lector} {n : Nat} {b : Arr n} {resto : List UInt8}
    (hl : l.SinFallas) (h : l.resto = b.toList ++ resto) :
    ∃ l', readExact l n = (.ok b, l') ∧ l'.resto = resto ∧ l'.SinFallas := by
  obtain ⟨l', hr, hresto, hl'⟩ := readChunk_exacto hl h
  rw [b.toList_length] at hr
  refine ⟨l', ?_, hresto, hl'⟩
  rw [readExact, hr]
  simp only [dif_pos b.toList_length]
  rfl

theorem readExact_ok {l l' : Lector} {n : Nat} {b : Arr n} (h : readExact l n = (.ok b, l')) :
    l.resto = b.toList ++ l'.resto := by
  unfold readExact at h
  split at h
  next bs l₁ hr =>
    obtain ⟨hb, rfl⟩ := Prod.mk.inj h
    split at hb
    next hlen =>
      cases hb
      exact (readChunk_ok hr).1
    next => cases hb
  next => cases (Prod.mk.inj h).1

namespace Conexion

theorem readExact_eq_ok {c c' : Conexion} {k : Nat} {b : Arr k} :
    readExact k c = .ok b c' ↔
      OprfNet.readExact c.lector k = (.ok b, c'.lector) ∧ c' = { c with lector := c'.lector } := by
  unfold readExact
  split
  next b' l h =>
    rw [h, EStateM.Result.ok.injEq, Prod.mk.injEq, Except.ok.injEq]
    constructor
    · rintro ⟨rfl, rfl⟩
      exact ⟨⟨rfl, rfl⟩, rfl⟩
    · rintro ⟨⟨rfl, rfl⟩, hc⟩
      exact ⟨rfl, hc.symm⟩
  next e l h => simp [h]

/-- The call adds `bs` to what was written, or fails and adds a prefix of it. -/
def Escribe (p : Prog Conexion Error Unit) (bs : List UInt8) : Prop := ∀ c,
  (∃ c', p c = .ok () c' ∧ c'.escritor.salida = c.escritor.salida ++ bs) ∨
    ∃ e c' pre, p c = .error (.error e) c' ∧ pre <+: bs ∧
      c'.escritor.salida = c.escritor.salida ++ pre

theorem escribe_writeAll (bs : List UInt8) : Escribe (writeAll bs) bs := by
  intro c
  unfold writeAll Escritor.writeAll
  split
  next w h =>
    left
    split at h
    next => cases h; exact ⟨_, rfl, rfl⟩
    next => cases h; exact ⟨_, rfl, rfl⟩
    next => cases h
  next e w h =>
    right
    split at h
    next => cases h
    next => cases h
    next n e' fs _ => cases h; exact ⟨_, _, bs.take n, rfl, List.take_prefix n bs, rfl⟩

theorem escribe_flush : Escribe flush [] := by
  intro c
  unfold flush
  split
  next => exact .inl ⟨c, rfl, (List.append_nil _).symm⟩
  next e _ => exact .inr ⟨.io e, c, [], rfl, List.prefix_rfl, (List.append_nil _).symm⟩

theorem Escribe.seq {p p' : Prog Conexion Error Unit} {bs bs' : List UInt8} (hp : Escribe p bs)
    (hp' : Escribe p' bs') : Escribe (p >>= fun _ => p') (bs ++ bs') := by
  intro c
  rcases hp c with ⟨c₁, h₁, hs₁⟩ | ⟨e, c₁, pre, h₁, hpre, hs₁⟩
  · rw [Prog.bind_of_ok h₁]
    rcases hp' c₁ with ⟨c', h, hs⟩ | ⟨e, c', pre, h, hpre, hs⟩
    · exact .inl ⟨c', h, by rw [hs, hs₁, List.append_assoc]⟩
    · refine .inr ⟨e, c', bs ++ pre, h, (List.prefix_append_right_inj bs).mpr hpre, ?_⟩
      rw [hs, hs₁, List.append_assoc]
  · rw [Prog.bind_of_error h₁]
    exact .inr ⟨e, c₁, pre, rfl, hpre.trans (List.prefix_append _ _), hs₁⟩

end Conexion

theorem escribe_responder (result : Option (Arr 32 × Arr proofLen)) :
    Conexion.Escribe (responder result) (trama result) := by
  cases result with
  | none =>
    exact (Conexion.escribe_writeAll _).seq
      ((Conexion.escribe_writeAll _).seq (Conexion.escribe_writeAll _))
  | some zp =>
    exact (Conexion.escribe_writeAll _).seq
      ((Conexion.escribe_writeAll _).seq (Conexion.escribe_writeAll _))

section Protocolo

variable {q : ℕ} {G : Type} [AddCommGroup G] [Module (ZMod q) G] [Fact q.Prime] [DecidableEq G]
  {S : Suite q G} {key : ZMod q} {allowed : Bool}

/-- What the server makes of a request: nothing when its caller denies it. -/
def Evaluacion (S : Suite q G) (key : ZMod q) (allowed : Bool) (blinded : Arr 32)
    (result : Option (Arr 32 × Arr proofLen)) : Prop :=
  if allowed then ∃ r, result = S.blindEvaluateWithRandomness key blinded r else result = none

theorem evaluar_true (blinded : Arr 32) :
    evaluar S key true blinded = Conexion.conCinta (S.blindEvaluate key blinded) := rfl

theorem evaluacion_of_evaluar {blinded : Arr 32} {result : Option (Arr 32 × Arr proofLen)}
    {c c' : Conexion} (h : evaluar S key allowed blinded c = .ok result c') :
    Evaluacion S key allowed blinded result := by
  cases allowed with
  | false =>
    cases h
    exact rfl
  | true =>
    rw [evaluar_true] at h
    obtain ⟨t, ht, -⟩ := Prog.enfocar_eq_ok.mp h
    exact S.blindEvaluate_ok ht

theorem final_evaluar (S : Suite q G) (key : ZMod q) (allowed : Bool) (blinded : Arr 32)
    (c : Conexion) :
    (Prog.final (evaluar S key allowed blinded c)).escritor = c.escritor := by
  cases allowed with
  | false => rfl
  | true =>
    have h : Prog.final (Conexion.conCinta (S.blindEvaluate key blinded) c) = _ :=
      Prog.final_enfocar _ _ _ c
    rw [evaluar_true, h]

theorem final_readExact (k : Nat) (c : Conexion) :
    (Prog.final (Conexion.readExact k c)).escritor = c.escritor := by
  unfold Conexion.readExact
  split <;> rfl

/-- From `c` a call ended as `fin` wrote a prefix of one reply, all of it if it succeeded, and
wrote nothing before the 32 bytes were in. -/
def Contesta (S : Suite q G) (key : ZMod q) (allowed : Bool) (c : Conexion)
    (fin : EStateM.Result (Fallo Error) Conexion Unit) : Prop :=
  ∃ result p, (Prog.final fin).escritor.salida = c.escritor.salida ++ p ∧ p <+: trama result ∧
    (∀ c', fin = .ok () c' → p = trama result) ∧
    (p ≠ [] → ∃ blinded resto, c.lector.resto = blinded.toList ++ resto ∧
      Evaluacion S key allowed blinded result)

theorem contesta_error {c c' : Conexion} (h : c'.escritor = c.escritor) (e : Fallo Error) :
    Contesta S key allowed c (.error e c') := by
  refine ⟨none, [], ?_, List.nil_prefix, fun c' h => (by cases h), fun h => absurd rfl h⟩
  rw [Prog.final, h, List.append_nil]

/-- However a connection ends, what went out is a prefix of one reply. -/
theorem handleConnectionVerified_contesta (S : Suite q G) (key : ZMod q) (allowed : Bool)
    (c : Conexion) : Contesta S key allowed c (handleConnectionVerified S key allowed c) := by
  unfold handleConnectionVerified
  have hlee := final_readExact 32 c
  cases h₁ : Conexion.readExact 32 c with
  | error e c₁ =>
    rw [h₁] at hlee
    rw [Prog.bind_of_error h₁]
    exact contesta_error hlee e
  | ok blinded c₁ =>
    rw [h₁] at hlee
    rw [Prog.bind_of_ok h₁]
    have heval := final_evaluar S key allowed blinded c₁
    cases h₂ : evaluar S key allowed blinded c₁ with
    | error e c₂ =>
      rw [h₂] at heval
      rw [Prog.bind_of_error h₂]
      exact contesta_error (heval.trans hlee) e
    | ok result c₂ =>
      rw [h₂] at heval
      rw [Prog.bind_of_ok h₂]
      have hresto := readExact_ok (Conexion.readExact_eq_ok.mp h₁).1
      have hev := evaluacion_of_evaluar h₂
      have hsalida : c₂.escritor.salida = c.escritor.salida :=
        congrArg Escritor.salida (heval.trans hlee)
      have hcierre := (escribe_responder result).seq Conexion.escribe_flush c₂
      rw [List.append_nil] at hcierre
      rcases hcierre with ⟨c', h, hs⟩ | ⟨e, c', p, h, hp, hs⟩
      · rw [h]
        exact ⟨result, trama result, by rw [Prog.final, hs, hsalida], List.prefix_rfl,
          fun _ _ => rfl, fun _ => ⟨blinded, _, hresto, hev⟩⟩
      · rw [h]
        exact ⟨result, p, by rw [Prog.final, hs, hsalida], hp, fun _ h => (by cases h),
          fun _ => ⟨blinded, _, hresto, hev⟩⟩

/-- The way works, and behind it a server answers each connection with `key`. -/
structure Red.Sirve (S : Suite q G) (key : ZMod q) (allowed : Bool) (red : Red) : Prop where
  connect : red.connect = .ok ()
  writeAll : ∀ bs, red.writeAll bs = .ok bs
  flush : red.flush = .ok ()
  sinFallas : ∀ bs, (red.par bs).SinFallas
  atiende : ∀ blinded : Arr 32, ∃ c c', c.lector.resto = blinded.toList ∧
    c.escritor.salida = [] ∧ handleConnectionVerified S key allowed c = .ok () c' ∧
    (red.par blinded.toList).resto = c'.escritor.salida

theorem Red.readExact_of_resto {red : Red} {bs resto : List UInt8} {n : Nat} {b : Arr n}
    (hl : (red.par bs).SinFallas) (h : (red.par bs).resto = b.toList ++ resto) :
    red.readExact bs n = .ok b := by
  obtain ⟨l', hr, -⟩ := OprfNet.readExact_of_resto hl h
  rw [Red.readExact, hr]

/-- The client reads back what `trama` wrote. -/
theorem leer_trama {result : Option (Arr 32 × Arr proofLen)} {resp : Arr verifiedRespLen}
    (h : resp.toList = trama result) :
    (do let estado ← octeto resp.toList 0
        if estado ≠ 1 then pure none else do
          let z ← campo resp.toList 1 32
          let proof ← campo resp.toList 33 proofLen
          pure (some (z, proof)) : Res Error (Option (Arr 32 × Arr proofLen))) = .ok result := by
  rw [h]
  cases result with
  | none => rfl
  | some zp =>
    obtain ⟨z, proof⟩ := zp
    have h₀ : Sigue (trama (some (z, proof))) 0 (1 :: (z.toList ++ proof.toList)) :=
      ⟨[], rfl, rfl⟩
    obtain ⟨hestado, h₁⟩ := h₀.octeto
    obtain ⟨hz, h₂⟩ := h₁.campo
    rw [← List.append_nil proof.toList] at h₂
    obtain ⟨hproof, -⟩ := h₂.campo
    rw [hestado, Res.ok_bind, if_neg (not_not.mpr rfl), hz, Res.ok_bind, hproof]
    rfl

/-- Client and server agree over any schedule of the reads of both. -/
theorem evaluateRemoteVerified_sirve {red : Red} (h : red.Sirve S key allowed)
    (blinded : Arr 32) :
    ∃ result, evaluateRemoteVerified red blinded = .ok result ∧
      Evaluacion S key allowed blinded result := by
  obtain ⟨c, c', hlector, hescritor, hok, hresto⟩ := h.atiende blinded
  obtain ⟨result, p, hs, -, hp, hev⟩ := handleConnectionVerified_contesta S key allowed c
  obtain rfl := hp c' hok
  rw [hok, Prog.final, hescritor, List.nil_append] at hs
  have hne : trama result ≠ [] := fun hnil => by
    have hlen := length_trama result
    rw [hnil] at hlen
    cases hlen
  obtain ⟨b, resto, hb, heval⟩ := hev hne
  have hbb : b.toList ++ resto = blinded.toList ++ [] := by rw [← hb, hlector, List.append_nil]
  have hlen : b.toList.length = blinded.toList.length := by
    rw [b.toList_length, blinded.toList_length]
  rw [Arr.ext (List.append_inj_left hbb hlen)] at heval
  have hr : red.readExact blinded.toList verifiedRespLen =
      .ok (Arr.of (trama result) (length_trama result)) :=
    Red.readExact_of_resto (h.sinFallas _) (by rw [hresto, hs, Arr.toList_of, List.append_nil])
  refine ⟨result, ?_, heval⟩
  rw [evaluateRemoteVerified, h.connect, Res.ok_bind, h.writeAll, Res.ok_bind, h.flush,
    Res.ok_bind, hr, Res.ok_bind]
  exact leer_trama rfl

/-- The network on which the server answers at once, from its tape. -/
def Red.directa (S : Suite q G) (key : ZMod q) (allowed : Bool) (cinta : Cinta) : Red where
  alConectar := none
  fallas := []
  alVaciar := none
  par bs := ⟨(Prog.final (handleConnectionVerified S key allowed
    ⟨⟨bs, []⟩, .vec [], none, cinta⟩)).escritor.salida, []⟩

theorem exists_evaluar {cinta cinta' : Cinta} {r : ZMod q} (key : ZMod q) (allowed : Bool)
    (h : S.randomScalar cinta = .ok r cinta') (blinded : Arr 32) (l : Lector) :
    ∃ result cinta₁, evaluar S key allowed blinded ⟨l, .vec [], none, cinta⟩ =
      .ok result ⟨l, .vec [], none, cinta₁⟩ := by
  cases allowed with
  | false => exact ⟨none, cinta, rfl⟩
  | true =>
    obtain ⟨result, cinta₁, he⟩ := S.exists_blindEvaluate h key blinded
    rw [evaluar_true]
    exact ⟨result, cinta₁, Prog.enfocar_eq_ok.mpr ⟨cinta₁, he, rfl⟩⟩

theorem Red.sirve_directa {cinta cinta' : Cinta} {r : ZMod q}
    (h : S.randomScalar cinta = .ok r cinta') (key : ZMod q) (allowed : Bool) :
    (Red.directa S key allowed cinta).Sirve S key allowed where
  connect := rfl
  writeAll _ := rfl
  flush := rfl
  sinFallas _ _ := List.not_mem_nil
  atiende blinded := by
    obtain ⟨l, hl, -⟩ := OprfNet.readExact_of_resto (l := ⟨blinded.toList, []⟩) (b := blinded)
      (fun _ => List.not_mem_nil) (List.append_nil _).symm
    have hlee : Conexion.readExact 32 ⟨⟨blinded.toList, []⟩, .vec [], none, cinta⟩ =
        .ok blinded ⟨l, .vec [], none, cinta⟩ := Conexion.readExact_eq_ok.mpr ⟨hl, rfl⟩
    obtain ⟨result, cinta₁, hev⟩ :=
      exists_evaluar key allowed h blinded l
    have hok : ∃ c', handleConnectionVerified S key allowed
        ⟨⟨blinded.toList, []⟩, .vec [], none, cinta⟩ = .ok () c' := by
      rw [handleConnectionVerified, Prog.bind_of_ok hlee, Prog.bind_of_ok hev]
      cases result with
      | none => exact ⟨_, rfl⟩
      | some zp => exact ⟨_, rfl⟩
    obtain ⟨c', hc⟩ := hok
    refine ⟨_, c', rfl, rfl, hc, ?_⟩
    show (Prog.final (handleConnectionVerified S key allowed _)).escritor.salida = _
    rw [hc]
    rfl

/-- Whatever fails, the bytes that leave a connection are a prefix of one reply of fixed length,
the same one for every refusal; and where nothing fails the client reads, over any schedule of
short and interrupted reads, exactly what the server evaluated or that it refused. -/
theorem oprfNet_acuerdo (S : Suite q G) (key : ZMod q) (allowed : Bool) :
    (∀ c, Contesta S key allowed c (handleConnectionVerified S key allowed c)) ∧
      ∀ red : Red, red.Sirve S key allowed → ∀ blinded, ∃ result,
        evaluateRemoteVerified red blinded = .ok result ∧
          Evaluacion S key allowed blinded result :=
  ⟨handleConnectionVerified_contesta S key allowed, fun _ h => evaluateRemoteVerified_sirve h⟩

end Protocolo

theorem oprfNet_acuerdo_tres :
    ∃ red result, evaluateRemoteVerified red (Suite.deTres.compress 1) = .ok result ∧
      Evaluacion Suite.deTres 2 true (Suite.deTres.compress 1) result :=
  have hr : Suite.deTres.randomScalar (Stream'.const (.entrega fun _ => 1)) = .ok 1 _ := rfl
  ⟨Red.directa Suite.deTres 2 true _,
    (oprfNet_acuerdo Suite.deTres 2 true).2 _ (Red.sirve_directa hr 2 true) _⟩

end Quipu.OprfNet
