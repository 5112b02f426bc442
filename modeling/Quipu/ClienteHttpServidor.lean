import Quipu.ClienteHttp
import Quipu.ServidorCuota
import Quipu.Online

namespace Quipu.ClienteHttp

open Aleatorio Almacen Busqueda OprfNet Prog Servidor Voprf

variable {L : Type} {sha256 : List UInt8 → Arr 32}

theorem evaluarClave_error_le {srv : Server L} {bearer : String} {blinded : Arr 32}
    {s s' : Sesion L} {resp : Resp}
    (h : evaluarClave sha256 srv bearer blinded s = .ok (.error resp) s') :
    resp.status ≤ 65535 := by
  obtain ⟨v, s₁, -, h⟩ := Prog.bind_ok.mp h
  split at h
  next =>
    obtain ⟨b, s₂, -, h⟩ := Prog.bind_ok.mp h
    split at h
    next =>
      obtain ⟨x, s₃, -, h⟩ := Prog.bind_ok.mp h
      split at h
      next => cases h
      next => cases h; decide
    next => cases h; decide
  next => cases h; decide
  next => cases h; decide
  next => cases h; decide
  next => cases h; decide
  next => cases h; decide

theorem evaluar_error_le {srv : Server L} {req : Request} {s s' : Sesion L} {resp : Resp}
    (h : evaluar sha256 srv req s = .ok (.error resp) s') : resp.status ≤ 65535 := by
  unfold Servidor.evaluar at h
  cases hbearer : (headerValue req "Authorization").bind (stripPrefix "Bearer ") with
  | none =>
    rw [hbearer] at h
    cases h
    decide
  | some bearer =>
    rw [hbearer] at h
    cases hbody : req.body with
    | none =>
      rw [hbody] at h
      cases h
      decide
    | some body =>
      rw [hbody] at h
      cases hhex : fromHex32 (trim body) with
      | none =>
        simp only [hhex] at h
        cases h
        decide
      | some blinded =>
        simp only [hhex] at h
        exact evaluarClave_error_le h

/-- The key holder gave the evaluation that a request is granted. -/
theorem evaluarClave_evalua {srv : Server L} {bearer : String} {blinded : Arr 32}
    {s s' : Sesion L} {keyId : String} {r : Arr 32 × Arr proofLen}
    (h : evaluarClave sha256 srv bearer blinded s = .ok (.ok (keyId, r)) s') :
    ∃ d d', srv.blindEvaluate blinded d = .ok (some r) d' := by
  obtain ⟨v, s₁, -, h⟩ := Prog.bind_ok.mp h
  split at h
  next =>
    obtain ⟨b, s₂, -, h⟩ := Prog.bind_ok.mp h
    split at h
    next =>
      obtain ⟨x, s₃, hx, h⟩ := Prog.bind_ok.mp h
      split at h
      next =>
        cases h
        obtain ⟨d, hd, -⟩ := enfocar_eq_ok.mp hx
        exact ⟨_, d, hd⟩
      next => cases h
    next => cases h
  next => cases h
  next => cases h
  next => cases h
  next => cases h
  next => cases h

/-- The answer to an evaluation is what the key holder made of the point in the body, or an error
with a status of its own. -/
theorem evaluate_cases {srv : Server L} {req : Request} {body : String} {blinded : Arr 32}
    {s s' : Sesion L} {resp : Resp} (hbody : req.body = some body)
    (hhex : fromHex32 (trim body) = some blinded) (h : evaluate sha256 srv req s = .ok resp s') :
    (resp.status ≠ 200 ∧ resp.status ≤ 65535) ∨
      ∃ z proof d d', srv.blindEvaluate blinded d = .ok (some (z, proof)) d' ∧
        resp = evaluacion z proof := by
  obtain ⟨x, s₁, hx, h⟩ := Prog.bind_ok.mp h
  split at h
  next e =>
    cases h
    exact .inl ⟨evaluar_error sha256 hx, evaluar_error_le hx⟩
  next keyId z proof =>
    obtain ⟨_, s₂, -, h⟩ := Prog.bind_ok.mp h
    cases h
    refine .inr ⟨z, proof, ?_⟩
    unfold Servidor.evaluar at hx
    cases hbearer : (headerValue req "Authorization").bind (stripPrefix "Bearer ") with
    | none =>
      rw [hbearer] at hx
      cases hx
    | some bearer =>
      rw [hbearer, hbody] at hx
      simp only [hhex] at hx
      obtain ⟨d, d', hd⟩ := evaluarClave_evalua hx
      exact ⟨d, d', hd, rfl⟩

theorem route_evaluate (cfg : Config L) (addr : String) (headers : List (String × String))
    (body : Option String) (s : Sesion L) :
    route sha256 cfg (peticion addr .post "/v1/oprf/evaluate" headers body) s =
      evaluate sha256 cfg.server
        (peticion addr .post "/v1/oprf/evaluate" headers body).request s := by
  have hpath : pathDe "/v1/oprf/evaluate" = "/v1/oprf/evaluate" := by decide +kernel
  simp only [route, peticion, hpath]
  rfl

theorem route_publicKey (cfg : Config L) (addr : String) (headers : List (String × String))
    (body : Option String) (s : Sesion L) :
    route sha256 cfg (peticion addr .get "/v1/public-key" headers body) s =
      .ok (json 200 ("\x7b\"public_key\":\"" ++ cfg.publicKeyHex ++ "\"\x7d")) s := by
  have hpath : pathDe "/v1/public-key" = "/v1/public-key" := by decide +kernel
  simp only [route, peticion, hpath]
  rfl

theorem fetchPublicKey_atiende {cfg : Config L} {red : Red} {addr : String} {s s' : Sesion L}
    {resp : Resp} {publica : Arr 32} (hcfg : cfg.publicKeyHex = toHex publica.toList)
    (h : Atiende sha256 cfg red addr .get "/v1/public-key" [] none s resp s')
    (mostrar : Error → String) : fetchPublicKey mostrar red addr = .ok publica := by
  have hruta := h.ruta
  rw [route_publicKey, hcfg] at hruta
  cases hruta
  have hpublica : '"' ∉ (toHex publica.toList).toList := fun h => (toHex_mem h).1 rfl
  have hcampo : field ("\x7b\"public_key\":\"" ++ toHex publica.toList ++ "\"\x7d")
      "public_key" = .ok (toHex publica.toList) := by
    refine field_eq_ok ['\x7b'] ['\x7d'] ?_ (despejado_of_not_mem (by decide)) hpublica
    simp only [String.toList_append, List.append_assoc]
    rfl
  have hpide := request_atiende h (Nat.le_of_ble_eq_true rfl) mostrar
  rw [fetchPublicKey]
  simp only [Method.texto] at hpide
  simp only [hpide, Res.ok_bind, json, rechazarSi_of_not _ (not_not.mpr rfl), hcampo,
    fromHex32_toHex]
  rfl

variable {q : ℕ} {G : Type} [AddCommGroup G] [Module (ZMod q) G] [Fact q.Prime] [DecidableEq G]

/-- What the client makes of an evaluation of its point by the server with the announced key. -/
theorem abrirRespuesta_evaluacion {S : Suite q G} {password : List UInt8} {key r t : ZMod q}
    {z : Arr 32} {proof : Arr proofLen} (hP : S.hashToGroup password ≠ 0) (hkey : key ≠ 0)
    (h : S.blindEvaluateWithRandomness key (S.compress (r • S.hashToGroup password)) t =
      some (z, proof)) :
    abrirRespuesta S password ⟨r, r • S.hashToGroup password⟩ (S.publicKey key)
        (200, (evaluacion z proof).body) =
      .ok (S.salida password (key • S.hashToGroup password)) := by
  have hev : Evaluacion S key true (S.compress (r • S.hashToGroup password)) (some (z, proof)) :=
    ⟨t, h.symm⟩
  rcases Api.evaluacion_compress hev with ⟨-, hb, t', heq⟩ | ⟨-, hnone⟩
  · cases heq
    have hr : r ≠ 0 := fun hr => hb (by rw [hr, zero_smul])
    obtain ⟨heval, hproof⟩ := field_evaluacion (S.compress (key • r • S.hashToGroup password))
      (S.generateProof key (r • S.hashToGroup password) (key • r • S.hashToGroup password) t')
    simp only [abrirRespuesta, rechazarSi_of_not _ (not_not.mpr rfl), Res.ok_bind, heval, hproof,
      fromHex32_toHex, fromHex_toHex, okOr, comoProof_toList,
      Suite.finalize_cegado hr rfl hP hkey t']
  · cases hnone

/-- Against a server that answers with the announced key, over HTTP, the client of reference pins
that key and ends with the hardened secret that the key gives its password when the server
answers 200, and with the status and the body of the answer as its error when it does not. -/
theorem harden_por_http (S : Suite q G) (sha256 : List UInt8 → Arr 32) (cfg : Config L)
    (key : ZMod q) (hkey : key ≠ 0) (hpub : cfg.publicKeyHex = toHex (S.publicKey key).toList)
    (hsrv : cfg.server.blindEvaluate = S.blindEvaluate key) (mostrar : Error → String)
    (addr apiKey : String) (red red' : Red) (s₀ s₀' s s' : Sesion L) (resp₀ resp : Resp)
    (h₀ : Atiende sha256 cfg red addr .get "/v1/public-key" [] none s₀ resp₀ s₀')
    (password : List UInt8) (c c' : Cinta) (state : Suite.BlindState q G) (blinded : Arr 32)
    (hblind : S.blind password c = .ok (some (state, blinded)) c')
    (h : Atiende sha256 cfg red' addr .post "/v1/oprf/evaluate" (cabecerasEvaluate apiKey)
      (some (toHex blinded.toList)) s resp s') :
    ∃ publica, fetchPublicKey mostrar red addr = .ok publica ∧
      harden S mostrar red' addr apiKey password publica c =
        if resp.status = 200 then .ok (S.salida password (key • S.hashToGroup password)) c'
        else
          .error (.error ("evaluate HTTP " ++ toString resp.status ++ ": " ++ resp.body)) c' := by
  refine ⟨S.publicKey key, fetchPublicKey_atiende hpub h₀ mostrar, ?_⟩
  obtain ⟨hP, r, hr, hwith⟩ := S.blind_eq_ok.mp hblind
  rw [Suite.blindWith_eq_some hP] at hwith
  cases hwith
  have hruta := h.ruta
  rw [route_evaluate] at hruta
  have hcases := evaluate_cases rfl (fromHex32_trim_toHex _) hruta
  have hle : resp.status ≤ 65535 := by
    rcases hcases with ⟨-, hle⟩ | ⟨z, proof, _, _, -, rfl⟩
    · exact hle
    · exact Nat.le_of_ble_eq_true rfl
  have hpide := request_atiende h hle mostrar
  simp only [Method.texto] at hpide
  simp only [harden, hblind, hpide, Res.ok_bind]
  rcases hcases with ⟨hno, -⟩ | ⟨z, proof, d, d', hd, rfl⟩
  · rw [if_neg hno]
    simp only [abrirRespuesta, rechazarSi_of _ hno]
    rfl
  · rw [hsrv] at hd
    obtain ⟨t, ht⟩ := S.blindEvaluate_ok hd
    have h200 : (evaluacion z proof).status = 200 := rfl
    rw [if_pos h200, h200, abrirRespuesta_evaluacion hP hkey ht.symm]
    rfl

/-- The way to a peer that answers everything with one text. -/
def redFija (raw : String) : Red := ⟨none, [], none, fun _ => ⟨utf8 raw, []⟩⟩

theorem atiende_redFija {cfg : Config L} {addr path : String} {method : Method}
    {headers : List (String × String)} {body : Option String} {s s' : Sesion L} {resp : Resp}
    (h : route sha256 cfg (peticion addr method path headers body) s = .ok resp s')
    (h200 : resp.status = 200) :
    Atiende sha256 cfg (redFija ("HTTP/1.1 200 OK\r\n\r\n" ++ resp.body)) addr method path headers
      body s resp s' where
  connect := rfl
  writeAll _ := rfl
  sinFallas _ _ := List.not_mem_nil
  ruta := h
  respuesta := by
    refine ⟨"HTTP/1.1 200 OK\r\n\r\n" ++ resp.body, ⟨"HTTP/1.1 200 OK".toList, "OK".toList, ?_, ?_,
      by decide +kernel⟩, rfl⟩
    · rw [String.toList_append]
      rfl
    · rw [h200]
      rfl

def configFija : Config Unit :=
  ⟨⟨Suite.deTres.blindEvaluate 2, servidorFijo.allow⟩, toHex (Suite.deTres.publicKey 2).toList,
    none⟩

theorem harden_por_http_tres :
    ∃ red red' publica, fetchPublicKey (fun _ => "") red "a" = .ok publica ∧
      harden Suite.deTres (fun _ => "") red' "a"
        "quipu_live_0000000000000000000000000000000000000000000000000000000000000000" [1] publica
        Api.cintaDeUno =
          .ok (Suite.deTres.salida [1] (2 • Suite.deTres.hashToGroup [1]))
            (Stream'.const (.entrega UInt8.ofNat)) := by
  have hblind : Suite.deTres.blind [1] Api.cintaDeUno =
      .ok (some (⟨1, 1⟩, Suite.deTres.compress 1)) (Stream'.const (.entrega UInt8.ofNat)) := rfl
  have hevalua : ∃ resp s', route hashFijo configFija (peticion "a" .post "/v1/oprf/evaluate"
      (cabecerasEvaluate
        "quipu_live_0000000000000000000000000000000000000000000000000000000000000000")
      (some (toHex (Suite.deTres.compress 1).toList)))
      (correr hashFijo servidorFijo none (pasosFijos.take 2) (sesionFija fun _ => false)) =
        .ok resp s' ∧ resp.status = 200 := ⟨_, _, rfl, rfl⟩
  obtain ⟨resp, s', hruta, h200⟩ := hevalua
  obtain ⟨publica, hfetch, hharden⟩ := harden_por_http Suite.deTres hashFijo configFija 2
    (by decide) rfl rfl (fun _ => "") "a"
    "quipu_live_0000000000000000000000000000000000000000000000000000000000000000" _ _ _ _ _ _ _ _
    (atiende_redFija (route_publicKey configFija "a" [] none (sesionFija fun _ => false)) rfl)
    [1] _ _ _ _ hblind (atiende_redFija hruta h200)
  rw [if_pos h200] at hharden
  exact ⟨_, _, publica, hfetch, hharden⟩

end Quipu.ClienteHttp
