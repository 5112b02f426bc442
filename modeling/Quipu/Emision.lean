import Quipu.ServidorCuota

namespace Quipu.Almacen

open Aleatorio Calendario Prog Tabla

theorem isPrefixOf?_eq_some {α : Type} [DecidableEq α] {p l r : List α} :
    p.isPrefixOf? l = some r ↔ l = p ++ r := by
  induction p generalizing l with
  | nil => exact ⟨Option.some.inj, congrArg some⟩
  | cons a p ih =>
    cases l with
    | nil => exact iff_of_false (fun h => nomatch h) (fun h => nomatch h)
    | cons b l =>
      rw [List.isPrefixOf?, List.cons_append, List.cons.injEq]
      split
      next h => rw [ih, eq_comm (a := b), eq_of_beq h, eq_self, true_and]
      next h => exact iff_of_false (fun h => nomatch h) fun hb => h (beq_iff_eq.mpr hb.1.symm)

def hexDe (raw : Arr 32) : List Char := raw.toList.flatMap hexDigits

/-- The key that `generate` makes of 32 bytes. -/
def claveDe (sha256 : List UInt8 → Arr 32) (raw : Arr 32) : GeneratedKey :=
  let secret := keyTag ++ String.ofList (hexDe raw)
  ⟨secret, keyTag ++ String.ofList ((hexDe raw).take prefixHexLen), sha256 (utf8 secret)⟩

theorem length_hexDe (raw : Arr 32) : (hexDe raw).length = hexLen := by
  have hdos : raw.toList.map (fun b => (hexDigits b).length) =
      List.replicate raw.toList.length 2 := List.map_eq_replicate_iff.mpr fun b _ => rfl
  rw [hexDe, List.length_flatMap, hdos, List.sum_replicate, raw.toList_length]
  rfl

theorem digitChar_hexdigit : ∀ d < 16, isAsciiHexdigit (Nat.digitChar d) = true := by decide

theorem hexDe_hexdigit (raw : Arr 32) : (hexDe raw).all isAsciiHexdigit = true := by
  rw [List.all_eq_true]
  intro c hc
  obtain ⟨b, -, hb⟩ := List.mem_flatMap.mp hc
  have hlt := b.toNat_lt
  rcases List.mem_pair.mp hb with rfl | rfl
  · exact digitChar_hexdigit _ (by omega)
  · exact digitChar_hexdigit _ (by omega)

section Claves

variable (sha256 : List UInt8 → Arr 32)

/-- A key that was generated has the form that `verify` asks of one. -/
theorem parse_claveDe (raw : Arr 32) :
    parse sha256 (claveDe sha256 raw).secret =
      some ((claveDe sha256 raw).prefijo, (claveDe sha256 raw).hash) := by
  have hpre : keyTag.toList.isPrefixOf? (claveDe sha256 raw).secret.toList = some (hexDe raw) := by
    rw [claveDe, String.toList_append, String.toList_ofList]
    exact isPrefixOf?_eq_some.mpr rfl
  rw [parse, hpre]
  simp only [Option.bind_eq_bind, Option.bind_some, length_hexDe, hexDe_hexdigit]
  rfl

theorem generate_eq : generate sha256 = rellenar 32 >>= fun raw => pure (claveDe sha256 raw) := rfl

/-- The row holds the prefix and the hash of the key made of one of these draws. -/
def Emitida (sorteos : Set (Arr 32)) (k : ApiKey) : Prop :=
  ∃ raw ∈ sorteos, k.prefijo = (claveDe sha256 raw).prefijo ∧
    k.keyHash = (claveDe sha256 raw).hash.toList

/-- The later table holds rows of these draws alone, if the earlier one does. -/
def Guarda (sorteos : Set (Arr 32)) (t t' : Tablas) : Prop :=
  (∀ k ∈ t.apiKey.filas, Emitida sha256 sorteos k) →
    ∀ k ∈ t'.apiKey.filas, Emitida sha256 sorteos k

variable (sorteos : Set (Arr 32))

instance : IsPreorder Tablas (Guarda sha256 sorteos) where
  refl := fun _ h => h
  trans := fun _ _ _ h h' ht => h' (h ht)

theorem guarda_of_eq {t t' : Tablas} (h : t'.apiKey = t.apiKey) : Guarda sha256 sorteos t t' := by
  intro ht
  rwa [h]

theorem guarda_insertCustomer {id : String} {c : Customer} {t t' : Tablas} {a : Unit}
    (h : insertCustomer id c t = .ok (a, t')) : Guarda sha256 sorteos t t' := by
  unfold insertCustomer at h
  split at h
  next => cases h
  next =>
    cases h
    exact guarda_of_eq sha256 sorteos rfl

theorem insertApiKey_ok {k : ApiKey} {t t' : Tablas} {a : Unit}
    (h : insertApiKey k t = .ok (a, t')) :
    t'.apiKey.filas = k :: t.apiKey.filas ∧ t'.customer = t.customer ∧ t'.usage = t.usage ∧
      (∀ k' ∈ t.apiKey.filas, k'.id ≠ k.id) := by
  unfold insertApiKey at h
  split at h
  next => cases h
  next =>
    split at h
    next apiKey hins =>
      cases h
      unfold ApiKeys.insert at hins
      split at hins
      next hno =>
        cases hins
        refine ⟨rfl, rfl, rfl, fun k' hk' hid => hno.1 (List.mem_map.mpr ⟨k', hk', hid⟩)⟩
      next => cases hins
    next => cases h

theorem guarda_insertApiKey {k : ApiKey} (hk : Emitida sha256 sorteos k) {t t' : Tablas} {a : Unit}
    (h : insertApiKey k t = .ok (a, t')) : Guarda sha256 sorteos t t' := by
  intro ht k' hk'
  rw [(insertApiKey_ok h).1] at hk'
  rcases List.mem_cons.mp hk' with rfl | hk'
  · exact hk
  · exact ht k' hk'

theorem guarda_updateKeys {a : Asignacion} (ha : ∀ k, (a.poner k).keyHash = k.keyHash)
    {donde : ApiKey → Bool} {t t' : Tablas} {n : Nat} (h : updateKeys a donde t = .ok (n, t')) :
    Guarda sha256 sorteos t t' := by
  cases h
  intro ht k' hk'
  obtain ⟨k, hk, rfl⟩ := List.mem_map.mp hk'
  obtain ⟨raw, hraw, hp, hh⟩ := ht k hk
  refine ⟨raw, hraw, (a.prefijo_enFila donde k).trans hp, ?_⟩
  unfold Asignacion.enFila
  split
  next => exact (ha k).trans hh
  next => exact hh

theorem guarda_insertUsage {keyId period : String} {t t' : Tablas} {a : Unit}
    (h : insertUsage keyId period t = .ok (a, t')) : Guarda sha256 sorteos t t' := by
  unfold insertUsage at h
  split at h
  next => cases h
  next =>
    cases h
    exact guarda_of_eq sha256 sorteos rfl

theorem guarda_createCustomer (email plan : String) :
    Conserva (Avanza (Guarda sha256 sorteos)) (createCustomer email plan) := by
  unfold createCustomer
  apply conserva_randomId.bind
  intro id
  apply conserva_now.bind
  intro t
  refine Conserva.bind (conserva_sentencia fun _ _ _ =>
    guarda_insertCustomer sha256 sorteos) fun _ => ?_
  exact conserva_pure id

theorem issueKey_eq (customerId : String) (quota : UInt64) (expiresAt : Option Int) :
    issueKey sha256 customerId quota expiresAt = rellenar 32 >>= fun raw =>
      randomId >>= fun id => now >>= fun t =>
        sentencia (insertApiKey ⟨id, customerId, (claveDe sha256 raw).prefijo,
            (claveDe sha256 raw).hash.toList, 1, quota.toInt64, expiresAt, t, none, none⟩) >>=
          fun _ => pure (claveDe sha256 raw) := by
  rw [issueKey, generate_eq, bind_assoc]
  simp only [pure_bind]

/-- An issue whose draw is among `sorteos` leaves rows of these draws. -/
theorem guarda_issueKey (customerId : String) (quota : UInt64) (expiresAt : Option Int)
    {s : Estado} (hs : ∀ raw s', rellenar 32 s = .ok raw s' → raw ∈ sorteos) :
    Avanza (Guarda sha256 sorteos) s (final (issueKey sha256 customerId quota expiresAt s)) := by
  rw [issueKey_eq]
  refine final_bind (R := Avanza (Guarda sha256 sorteos)) (conserva_rellenar 32 s) ?_
  intro raw s₁ hraw
  have hresto : Conserva (Avanza (Guarda sha256 sorteos)) (randomId >>= fun id => now >>= fun t =>
      sentencia (insertApiKey ⟨id, customerId, (claveDe sha256 raw).prefijo,
          (claveDe sha256 raw).hash.toList, 1, quota.toInt64, expiresAt, t, none, none⟩) >>=
        fun _ => pure (claveDe sha256 raw)) := by
    apply conserva_randomId.bind
    intro id
    apply conserva_now.bind
    intro t
    refine Conserva.bind (conserva_sentencia fun _ _ _ =>
      guarda_insertApiKey sha256 sorteos ⟨raw, hs raw s₁ hraw, rfl, rfl⟩) fun _ => ?_
    exact conserva_pure _
  exact hresto s₁

theorem guarda_setActive (prefijo : String) (active : Bool) :
    Conserva (Avanza (Guarda sha256 sorteos)) (setActive prefijo active) := by
  unfold setActive
  split
  next => exact conserva_sentencia fun _ _ _ => guarda_updateKeys sha256 sorteos fun _ => rfl
  next => exact conserva_sentencia fun _ _ _ => guarda_updateKeys sha256 sorteos fun _ => rfl

theorem guarda_revoke (prefijo : String) :
    Conserva (Avanza (Guarda sha256 sorteos)) (revoke prefijo) := by
  unfold revoke
  apply conserva_now.bind
  intro t
  exact conserva_sentencia fun _ _ _ => guarda_updateKeys sha256 sorteos fun _ => rfl

theorem guarda_recordUsage (keyId : String) :
    Conserva (Avanza (Guarda sha256 sorteos)) (recordUsage keyId) := by
  unfold recordUsage
  apply conserva_currentPeriod.bind
  intro period
  refine Conserva.bind (conserva_sentencia fun _ _ _ =>
    guarda_insertUsage sha256 sorteos) fun _ => ?_
  apply conserva_now.bind
  intro t
  refine Conserva.bind (conserva_sentencia fun _ _ _ =>
    guarda_updateKeys sha256 sorteos fun _ => rfl) fun _ => ?_
  exact conserva_pure ()

end Claves

end Quipu.Almacen

namespace Quipu.Almacen

open Prog

theorem expirada_false {expiresAt : Option Int} {s s' : Estado}
    (h : expirada expiresAt s = .ok false s') : ∀ e, expiresAt = some e → s.reloj 0 < e := by
  intro e he
  subst he
  obtain ⟨t, s₁, ht, h⟩ := Prog.bind_ok.mp h
  obtain ⟨-, rfl, rfl⟩ := now_eq_ok.mp ht
  by_contra hle
  have hd : decide (e ≤ s.reloj 0) = true := decide_eq_true (Int.not_lt.mp hle)
  rw [hd] at h
  cases h

theorem verifyFila_fila {hash : Arr 32} {k : ApiKey} {plan keyId customerId plan' : String}
    {quota used : UInt64} {s s' : Estado}
    (h : verifyFila hash k plan s = .ok (.valid keyId customerId quota used plan') s') :
    k.keyHash = hash.toList ∧ k.active ≠ 0 ∧ ∀ e, k.expiresAt = some e → s.reloj 0 < e := by
  unfold verifyFila at h
  split at h
  next => cases h
  next hhash =>
    split at h
    next => cases h
    next hviva =>
      obtain ⟨e, s₂, he, h⟩ := Prog.bind_ok.mp h
      cases e with
      | true => cases h
      | false => exact ⟨not_not.mp hhash, (not_or.mp hviva).2, expirada_false he⟩

/-- What the row of an authorised key shows. -/
theorem verify_fila {sha256 : List UInt8 → Arr 32} {presented keyId customerId plan : String}
    {quota used : UInt64} {s s' : Estado}
    (h : verify sha256 presented s = .ok (.valid keyId customerId quota used plan) s') :
    ∃ k ∈ s.tablas.apiKey.filas, k.id = keyId ∧
      (∃ hash : Arr 32, parse sha256 presented = some (k.prefijo, hash) ∧
        k.keyHash = hash.toList) ∧
      k.revokedAt = none ∧ k.active ≠ 0 ∧ ∀ e, k.expiresAt = some e → s.reloj 0 < e := by
  unfold verify at h
  cases hparse : parse sha256 presented with
  | none =>
    rw [hparse] at h
    cases h
  | some r =>
    obtain ⟨prefijo, hash⟩ := r
    rw [hparse] at h
    obtain ⟨fila, s₁, hfila, hresto⟩ := Prog.bind_ok.mp h
    obtain ⟨-, t, ht, rfl⟩ := sentencia_eq_ok.mp hfila
    cases ht
    cases hjoin : joinCustomer prefijo s.tablas with
    | none =>
      rw [hjoin] at hresto
      cases hresto
    | some r =>
      obtain ⟨k, plan'⟩ := r
      rw [hjoin] at hresto
      obtain ⟨hk, rfl⟩ := joinCustomer_some hjoin
      obtain ⟨hhash, hact, hexp⟩ := verifyFila_fila hresto
      obtain ⟨hid, hrev, -⟩ := verifyFila_valid hresto
      exact ⟨k, hk, hid, ⟨hash, rfl, hhash⟩, hrev, hact, hexp⟩

end Quipu.Almacen

namespace Quipu.Servidor

open Aleatorio Almacen Prog Voprf

variable {L : Type} (sha256 : List UInt8 → Arr 32)

theorem guarda_evaluate (sorteos : Set (Arr 32)) (srv : Server L) (req : Request) :
    Conserva (Avance (Guarda sha256 sorteos)) (evaluate sha256 srv req) := by
  have hevaluar : Conserva (Avance (Guarda sha256 sorteos)) (evaluar sha256 srv req) := by
    refine (conserva_evaluar sha256 srv req).mono fun s s' h => h.mono fun t t' ht => ?_
    rw [ht]
    exact refl_of (Guarda sha256 sorteos) t'
  unfold evaluate
  apply hevaluar.bind
  intro r
  split
  next => exact conserva_pure _
  next =>
    refine Conserva.bind (conserva_enStore (guarda_recordUsage sha256 sorteos _)) fun _ => ?_
    exact conserva_pure _

/-- The step, from this state, draws these 32 bytes for a key that it issues. -/
def Paso.Sortea (adminToken : Option String) (s : Sesion L) (raw : Arr 32) : Paso → Prop
  | .adminIssue req => ∃ email plan quota customer e e',
      Servidor.adminIssue (L := L) sha256 adminToken req = emitir sha256 email plan quota ∧
        Almacen.createCustomer email plan s.store = .ok customer e ∧ rellenar 32 e = .ok raw e'
  | .issueKey _ _ _ => ∃ e, rellenar 32 s.store = .ok raw e
  | _ => False

theorem guarda_emitir {sorteos : Set (Arr 32)} {email plan : String} (quota : UInt64)
    {s : Sesion L} (hs : ∀ customer e raw e', createCustomer email plan s.store = .ok customer e →
      rellenar 32 e = .ok raw e' → raw ∈ sorteos) :
    Avance (Guarda sha256 sorteos) s (final (emitir sha256 email plan quota s)) := by
  unfold emitir
  refine final_bind (R := Avance (Guarda sha256 sorteos))
    (conserva_enStore (guarda_createCustomer sha256 sorteos email plan) s) ?_
  intro r s₁ hr
  cases r with
  | error e => exact conserva_pure _ s₁
  | ok customer =>
    obtain ⟨e, he, rfl⟩ := enStore_eq_ok.mp hr
    refine final_bind (R := Avance (Guarda sha256 sorteos)) ?_ ?_
    · rw [enStore, final_intentar]
      exact guarda_issueKey sha256 sorteos customer quota none fun raw e' h =>
        hs customer e raw e' he h
    · intro r s₂ _
      cases r with
      | error e => exact conserva_pure _ s₂
      | ok key => exact conserva_pure _ s₂

/-- What one step leaves: rows of the earlier table, or of the draw of the step. -/
theorem Paso.guarda (srv : Server L) (adminToken : Option String) {sorteos : Set (Arr 32)}
    {s : Sesion L} {paso : Paso}
    (hs : ∀ raw, paso.Sortea sha256 adminToken s raw → raw ∈ sorteos) :
    Avance (Guarda sha256 sorteos) s (paso.dejar sha256 srv adminToken s) := by
  cases paso with
  | evaluate req => exact guarda_evaluate sha256 sorteos srv req s
  | adminIssue req =>
    change Avance _ s (final (Servidor.adminIssue sha256 adminToken req s))
    rcases adminIssue_cases (L := L) sha256 adminToken req with
      ⟨resp, -, h⟩ | ⟨email, plan, quota, -, h⟩
    · rw [h]
      exact conserva_pure resp s
    · rw [h]
      exact guarda_emitir sha256 quota fun customer e raw e' hcliente hraw =>
        hs raw ⟨email, plan, quota, customer, e, e', h, hcliente, hraw⟩
  | adminAction req path =>
    exact conserva_adminAction
      (fun prefijo active => conserva_enStore (guarda_setActive sha256 sorteos prefijo active))
      (fun prefijo => conserva_enStore (guarda_revoke sha256 sorteos prefijo)) adminToken req path s
  | createCustomer email plan =>
    exact conserva_enStore (guarda_createCustomer sha256 sorteos email plan) s
  | issueKey customerId quota expiresAt =>
    change Avance _ s (final (enStore _ s))
    rw [enStore, final_intentar]
    exact guarda_issueKey sha256 sorteos customerId quota expiresAt fun raw e h => hs raw ⟨e, h⟩
  | setActive prefijo active =>
    exact conserva_enStore (guarda_setActive sha256 sorteos prefijo active) s
  | revoke prefijo => exact conserva_enStore (guarda_revoke sha256 sorteos prefijo) s

/-- The draws of a run: what each of its steps draws from the state that the steps before it
leave. -/
def Sorteados (srv : Server L) (adminToken : Option String) (pasos : List Paso) (s : Sesion L) :
    Set (Arr 32) :=
  {raw | ∃ antes paso despues, pasos = antes ++ paso :: despues ∧
    paso.Sortea sha256 adminToken (correr sha256 srv adminToken antes s) raw}

theorem correr_guarda (srv : Server L) (adminToken : Option String) {sorteos : Set (Arr 32)}
    (pasos : List Paso) (s : Sesion L)
    (hs : Sorteados sha256 srv adminToken pasos s ⊆ sorteos) :
    Avance (Guarda sha256 sorteos) s (correr sha256 srv adminToken pasos s) := by
  induction pasos generalizing s with
  | nil => exact refl_of (Avance (Guarda sha256 sorteos)) s
  | cons paso pasos ih =>
    have hpaso := paso.guarda sha256 srv adminToken (s := s) fun raw h =>
      hs ⟨[], paso, pasos, rfl, h⟩
    refine trans_of (Avance (Guarda sha256 sorteos)) hpaso (ih _ ?_)
    rintro raw ⟨antes, p, despues, rfl, h⟩
    exact hs ⟨paso :: antes, p, despues, rfl, h⟩

/-- A granted request carries a key that `verify` authorised. -/
theorem evaluar_verify {srv : Server L} {req : Request} {s s' : Sesion L} {keyId : String}
    {r : Arr 32 × Arr proofLen} (h : evaluar sha256 srv req s = .ok (.ok (keyId, r)) s') :
    ∃ bearer, (headerValue req "Authorization").bind (stripPrefix "Bearer ") = some bearer ∧
      ∃ customerId quota used plan e,
        verify sha256 bearer s.store = .ok (.valid keyId customerId quota used plan) e := by
  unfold evaluar at h
  cases hbearer : (headerValue req "Authorization").bind (stripPrefix "Bearer ") with
  | none =>
    rw [hbearer] at h
    cases h
  | some bearer =>
    rw [hbearer] at h
    cases hbody : req.body with
    | none =>
      rw [hbody] at h
      cases h
    | some body =>
      rw [hbody] at h
      cases hhex : fromHex32 (trim body) with
      | none =>
        simp only [hhex] at h
        cases h
      | some blinded =>
        simp only [hhex] at h
        obtain ⟨customerId, quota, used, plan, e, hv, -⟩ := evaluarClave_ok sha256 h
        exact ⟨bearer, rfl, customerId, quota, used, plan, e, hv⟩

/-- In every run from a new database, a request that is granted an evaluation carries a key whose
prefix and hash are those of its row and of a key made of 32 bytes that a step of the run drew from
the random source as it issued it; and that row is active, neither revoked nor expired. -/
theorem concedida_emitida (srv : Server L) (adminToken : Option String) (pasos : List Paso)
    (s : Sesion L) (hs : Nueva s) (req : Request) (keyId : String) (r : Arr 32 × Arr proofLen)
    (s' : Sesion L)
    (h : evaluar sha256 srv req (correr sha256 srv adminToken pasos s) = .ok (.ok (keyId, r)) s') :
    ∃ bearer, (headerValue req "Authorization").bind (stripPrefix "Bearer ") = some bearer ∧
      ∃ k ∈ (correr sha256 srv adminToken pasos s).store.tablas.apiKey.filas, k.id = keyId ∧
        (∃ raw ∈ Sorteados sha256 srv adminToken pasos s,
          k.prefijo = (claveDe sha256 raw).prefijo ∧
          k.keyHash = (claveDe sha256 raw).hash.toList ∧
          parse sha256 bearer = some ((claveDe sha256 raw).prefijo, (claveDe sha256 raw).hash)) ∧
        k.revokedAt = none ∧ k.active ≠ 0 ∧ ∀ e, k.expiresAt = some e →
          (correr sha256 srv adminToken pasos s).store.reloj 0 < e := by
  have hguarda := (correr_guarda sha256 srv adminToken pasos s subset_rfl).tablas fun k hk => by
    rw [hs.apiKey] at hk
    cases hk
  obtain ⟨bearer, hbearer, customerId, quota, used, plan, e, hv⟩ := evaluar_verify sha256 h
  obtain ⟨k, hk, hid, ⟨hash, hparse, hhash⟩, hrev, hact, hexp⟩ := verify_fila hv
  obtain ⟨raw, hraw, hpre, hkey⟩ := hguarda k hk
  refine ⟨bearer, hbearer, k, hk, hid, ⟨raw, hraw, hpre, hkey, ?_⟩, hrev, hact, hexp⟩
  rw [hparse, hpre, Arr.ext (hhash.symm.trans hkey)]

theorem concedida_emitida_fija :
    ∃ keyId r s', evaluar hashFijo servidorFijo peticionFija (correr hashFijo servidorFijo none
        (pasosFijos.take 2) (sesionFija fun _ => false)) = .ok (.ok (keyId, r)) s' ∧
      ∃ k ∈ (correr hashFijo servidorFijo none (pasosFijos.take 2)
          (sesionFija fun _ => false)).store.tablas.apiKey.filas, k.id = keyId ∧
        (∃ raw ∈ Sorteados hashFijo servidorFijo none (pasosFijos.take 2)
          (sesionFija fun _ => false), k.prefijo = (claveDe hashFijo raw).prefijo) ∧
        k.revokedAt = none := by
  have h : ∃ r s', evaluar hashFijo servidorFijo peticionFija (correr hashFijo servidorFijo none
      (pasosFijos.take 2) (sesionFija fun _ => false)) = .ok (.ok r) s' := ⟨_, _, rfl⟩
  obtain ⟨⟨keyId, r⟩, s', h⟩ := h
  obtain ⟨-, -, k, hk, hid, ⟨raw, hraw, hpre, -, -⟩, hrev, -⟩ := concedida_emitida hashFijo
    servidorFijo none (pasosFijos.take 2) _ (nueva_sesionFija fun _ => false) peticionFija keyId
    r s' h
  exact ⟨keyId, r, s', h, k, hk, hid, ⟨raw, hraw, hpre⟩, hrev⟩

end Quipu.Servidor
