import Quipu.ServidorPasos
import Mathlib.Data.Nat.Init

namespace Quipu.Servidor

open Almacen Calendario Prog Tabla

variable {L : Type} (sha256 : List UInt8 → Arr 32)

/-- One thing done to the store: a request, or a command of the operator. -/
inductive Paso where
  | evaluate (req : Request)
  | adminIssue (req : Request)
  | adminAction (req : Request) (path : String)
  | createCustomer (email plan : String)
  | issueKey (customerId : String) (quotaMonthly : UInt64) (expiresAt : Option Int)
  | setActive (prefijo : String) (active : Bool)
  | revoke (prefijo : String)

/-- The state that a step leaves, whatever it answers. -/
def Paso.dejar (srv : Server L) (adminToken : Option String) (s : Sesion L) : Paso → Sesion L
  | .evaluate req => final (Servidor.evaluate sha256 srv req s)
  | .adminIssue req => final (Servidor.adminIssue sha256 adminToken req s)
  | .adminAction req path => final (Servidor.adminAction adminToken req path s)
  | .createCustomer email plan => final (enStore (Almacen.createCustomer email plan) s)
  | .issueKey customerId quota expiresAt =>
    final (enStore (Almacen.issueKey sha256 customerId quota expiresAt) s)
  | .setActive prefijo active => final (enStore (Almacen.setActive prefijo active) s)
  | .revoke prefijo => final (enStore (Almacen.revoke prefijo) s)

def correr (srv : Server L) (adminToken : Option String) (pasos : List Paso) (s : Sesion L) :
    Sesion L := pasos.foldl (Paso.dejar sha256 srv adminToken) s

def uso (t : Tablas) (keyId period : String) : Nat := (t.usage.lookup (keyId, period)).getD 0

def cuota (k : ApiKey) : Nat := k.quotaMonthly.toUInt64.toNat

/-- The key behind an answer 200 and the period that the clock shows as its use is recorded. -/
def concedida (srv : Server L) (req : Request) (s : Sesion L) : Option (String × String) :=
  match evaluar sha256 srv req s, evaluate sha256 srv req s with
  | .ok (.ok r) s', .ok resp _ =>
    if resp.status = 200 then some (r.1, periodOf (s'.store.reloj 0)) else none
  | _, _ => none

def Paso.concedida (srv : Server L) (s : Sesion L) : Paso → Option (String × String)
  | .evaluate req => Servidor.concedida sha256 srv req s
  | _ => none

/-- The answers 200 of a run. -/
def concedidas (srv : Server L) (adminToken : Option String) :
    List Paso → Sesion L → List (String × String)
  | [], _ => []
  | p :: ps, s => (p.concedida sha256 srv s).toList ++
      concedidas srv adminToken ps (p.dejar sha256 srv adminToken s)

/-- Where the request reaches `record_usage`, its `INSERT` is not the statement that fails. -/
def Graba (srv : Server L) (req : Request) (s : Sesion L) : Prop :=
  ∀ r s', evaluar sha256 srv req s = .ok (.ok r) s' → s'.store.fallos 0 = false

def Paso.Graba (srv : Server L) (s : Sesion L) : Paso → Prop
  | .evaluate req => Servidor.Graba sha256 srv req s
  | _ => True

def Graban (srv : Server L) (adminToken : Option String) : List Paso → Sesion L → Prop
  | [], _ => True
  | p :: ps, s => p.Graba sha256 srv s ∧ Graban srv adminToken ps (p.dejar sha256 srv adminToken s)

/-- An answer 200 adds one to the use of its key in the period, and any other outcome leaves every
use as it was. -/
structure Exacto (srv : Server L) (req : Request) (s : Sesion L) : Prop where
  concede : ∀ resp s', evaluate sha256 srv req s = .ok resp s' → resp.status = 200 →
    ∃ keyId period, concedida sha256 srv req s = some (keyId, period) ∧
      ∀ c p, uso s'.store.tablas c p =
        uso s.store.tablas c p + if (c, p) = (keyId, period) then 1 else 0
  niega : (∀ resp s', evaluate sha256 srv req s = .ok resp s' → resp.status ≠ 200) →
    (final (evaluate sha256 srv req s)).store.tablas.usage = s.store.tablas.usage

/-- A new database under a clock that never goes back. -/
structure Nueva (s : Sesion L) : Prop where
  customer : s.store.tablas.customer = ∅
  apiKey : s.store.tablas.apiKey.filas = []
  usage : s.store.tablas.usage = ∅
  reloj : NoRetrocede s.store.reloj

/-- What every reachable store keeps: each count is of an existing key, in a period that has begun
and within the quota of the key. -/
structure Sano (s : Estado) : Prop where
  claves : ∀ c p, (c, p) ∈ s.tablas.usage → ∃ k ∈ s.tablas.apiKey.filas, k.id = c
  pasados : ∀ c p, (c, p) ∈ s.tablas.usage → ∃ t, 0 ≤ t ∧ t ≤ s.reloj 0 ∧ periodOf t = p
  cuotas : ∀ k ∈ s.tablas.apiKey.filas, ∀ p, uso s.tablas k.id p ≤ cuota k
  reloj : NoRetrocede s.reloj

theorem uso_of_notMem {t : Tablas} {c p : String} (h : (c, p) ∉ t.usage) : uso t c p = 0 := by
  rw [uso, AList.lookup_eq_none.mpr h]
  rfl

theorem Nueva.sano {s : Sesion L} (h : Nueva s) : Sano s.store where
  claves := by
    intro c p hm
    rw [h.usage] at hm
    cases hm
  pasados := by
    intro c p hm
    rw [h.usage] at hm
    cases hm
  cuotas := by
    intro k hk
    rw [h.apiKey] at hk
    cases hk
  reloj := h.reloj

/-- A row of the later table was there before or belongs to a key without uses. -/
theorem Sano.cuota_de {s s' : Estado} (hs : Sano s) (ha : Avanza Tablas.Sigue s s') {k' : ApiKey}
    (hk' : k' ∈ s'.tablas.apiKey.filas) :
    (∃ k ∈ s.tablas.apiKey.filas, k.id = k'.id ∧ cuota k = cuota k') ∨
      (∀ k ∈ s.tablas.apiKey.filas, k.id ≠ k'.id) ∧ ∀ p, (k'.id, p) ∉ s.tablas.usage := by
  by_cases h : ∃ k ∈ s.tablas.apiKey.filas, k.id = k'.id
  · obtain ⟨k, hk, hid⟩ := h
    obtain ⟨k'', hk'', hsigue⟩ := ha.tablas k hk
    obtain rfl := ApiKey.eq_of_id hk'' hk' (hsigue.id.trans hid)
    refine .inl ⟨k, hk, hid, ?_⟩
    rw [cuota, cuota, hsigue.quota]
  · exact .inr ⟨fun k hk hid => h ⟨k, hk, hid⟩, fun p hm => h (hs.claves _ p hm)⟩

theorem Sano.clave_sigue {s s' : Estado} (hs : Sano s) (ha : Avanza Tablas.Sigue s s')
    {c p : String} (hm : (c, p) ∈ s.tablas.usage) : ∃ k ∈ s'.tablas.apiKey.filas, k.id = c := by
  obtain ⟨k, hk, hid⟩ := hs.claves c p hm
  obtain ⟨k', hk', hsigue⟩ := ha.tablas k hk
  exact ⟨k', hk', hsigue.id.trans hid⟩

theorem Sano.pasado_sigue {s s' : Estado} (hs : Sano s) (ha : Avanza Tablas.Sigue s s')
    {c p : String} (hm : (c, p) ∈ s.tablas.usage) :
    ∃ t, 0 ≤ t ∧ t ≤ s'.reloj 0 ∧ periodOf t = p := by
  obtain ⟨t, ht, hle, hp⟩ := hs.pasados c p hm
  exact ⟨t, ht, hle.trans (ha.reloj_le hs.reloj), hp⟩

/-- A step that counts nothing. -/
theorem Sano.de_sinUso {s s' : Estado} (hs : Sano s) (ha : Avanza Tablas.SinUso s s') :
    Sano s' := by
  have ha' : Avanza Tablas.Sigue s s' := ha.mono fun _ _ h => h.1
  have husage := ha.tablas.2
  refine ⟨?_, ?_, ?_, ha.noRetrocede hs.reloj⟩
  · intro c p hm
    rw [husage] at hm
    exact hs.clave_sigue ha' hm
  · intro c p hm
    rw [husage] at hm
    exact hs.pasado_sigue ha' hm
  · intro k' hk' p
    have huso : uso s'.tablas k'.id p = uso s.tablas k'.id p := by rw [uso, husage, uso]
    rw [huso]
    rcases hs.cuota_de ha' hk' with ⟨k, hk, hid, hc⟩ | ⟨-, hlibre⟩
    · rw [← hid, ← hc]
      exact hs.cuotas k hk p
    · rw [uso_of_notMem (hlibre p)]
      exact Nat.zero_le _

theorem uso_insert (t : Tablas) (keyId period c p : String) (n : Nat) :
    ((t.usage.insert (keyId, period) n).lookup (c, p)).getD 0 =
      if (c, p) = (keyId, period) then n else uso t c p := by
  split
  next h => rw [h, AList.lookup_insert]; rfl
  next h => rw [AList.lookup_insert_ne h]; rfl

/-- A step that counts one use of a key below its quota, in a period that has begun. -/
theorem Sano.de_uso {s s' : Estado} (hs : Sano s) (ha : Avanza Tablas.Sigue s s') {k : ApiKey}
    {keyId : String} {t : Int} (hk : k ∈ s.tablas.apiKey.filas) (hid : k.id = keyId)
    (ht : 0 ≤ t) (hle : t ≤ s'.reloj 0) (hquota : uso s.tablas keyId (periodOf t) < cuota k)
    (husage : s'.tablas.usage = s.tablas.usage.insert (keyId, periodOf t)
      (uso s.tablas keyId (periodOf t) + 1)) : Sano s' := by
  have hde : ∀ c p, (c, p) ∈ s'.tablas.usage →
      (c, p) = (keyId, periodOf t) ∨ (c, p) ∈ s.tablas.usage := by
    intro c p hm
    rw [husage, AList.mem_insert] at hm
    exact hm
  refine ⟨?_, ?_, ?_, ha.noRetrocede hs.reloj⟩
  · intro c p hm
    rcases hde c p hm with he | hm
    · obtain ⟨k', hk', hsigue⟩ := ha.tablas k hk
      exact ⟨k', hk', hsigue.id.trans (hid.trans (Prod.mk.inj he).1.symm)⟩
    · exact hs.clave_sigue ha hm
  · intro c p hm
    rcases hde c p hm with he | hm
    · exact ⟨t, ht, hle, (Prod.mk.inj he).2.symm⟩
    · exact hs.pasado_sigue ha hm
  · intro k' hk' p
    rw [uso, husage, uso_insert]
    rcases hs.cuota_de ha hk' with ⟨k₁, hk₁, hid₁, hc⟩ | ⟨hnueva, hlibre⟩
    · rw [← hid₁, ← hc]
      split
      next he =>
        obtain ⟨he, -⟩ := Prod.mk.inj he
        obtain rfl := ApiKey.eq_of_id hk hk₁ (hid.trans he.symm)
        omega
      next => exact hs.cuotas k₁ hk₁ p
    · rw [if_neg fun he => hnueva k hk (hid.trans (Prod.mk.inj he).1.symm),
        uso_of_notMem (hlibre p)]
      exact Nat.zero_le _

theorem contarUna_eq {o : Option Nat} (h : o.getD 0 < 2 ^ 63) : contarUna o = o.getD 0 + 1 := by
  cases o with
  | none => rfl
  | some n => exact if_pos h

/-- As a use is recorded, the count of the period that the clock shows by then is below the quota:
either it is the count that was read, or the period has just begun. -/
theorem Sano.al_grabar {srv : Server L} {req : Request} {s s' : Sesion L} {keyId : String}
    {r : Arr 32 × Arr Voprf.proofLen} (hs : Sano s.store)
    (h : evaluar sha256 srv req s = .ok (.ok (keyId, r)) s') :
    ∃ k ∈ s.store.tablas.apiKey.filas, k.id = keyId ∧ s'.store.tablas = s.store.tablas ∧
      0 ≤ s'.store.reloj 0 ∧ s.store.reloj 0 ≤ s'.store.reloj 0 ∧
      uso s.store.tablas keyId (periodOf (s'.store.reloj 0)) < cuota k ∧
      uso s.store.tablas keyId (periodOf (s'.store.reloj 0)) < 2 ^ 63 := by
  obtain ⟨k, hk, hid, used, hlt, n, hn, hreloj, htablas, hu, hcount⟩ := evaluar_ok sha256 h
  have hleido : s.store.reloj n ≤ s'.store.reloj 0 := by
    rw [hreloj]
    exact hs.reloj (by omega)
  have hinicio : s.store.reloj 0 ≤ s.store.reloj n := hs.reloj (Nat.zero_le n)
  have hlt : used.toNat < cuota k := UInt64.lt_iff_toNat_lt.mp hlt
  refine ⟨k, hk, hid, htablas, hn.trans hleido, hinicio.trans hleido, ?_⟩
  by_cases hp : periodOf (s'.store.reloj 0) = periodOf (s.store.reloj n)
  · rw [hp]
    have huso : uso s.store.tablas keyId (periodOf (s.store.reloj n)) = used.toNat := hcount
    rw [huso]
    exact ⟨hlt, hu⟩
  · have hlibre : (keyId, periodOf (s'.store.reloj 0)) ∉ s.store.tablas.usage := by
      intro hm
      obtain ⟨t, ht, hle, htp⟩ := hs.pasados _ _ hm
      have hentre := periodOf_entre (hle.trans hinicio) hleido htp
      exact hp (htp.symm.trans hentre)
    rw [uso_of_notMem hlibre]
    omega

/-- A granted evaluation is answered with a 200, and its use is counted unless the `INSERT`
fails. -/
theorem evaluate_concedida {srv : Server L} {req : Request} {s s' : Sesion L} {keyId : String}
    {eval : Arr 32} {proof : Arr Voprf.proofLen} (hs : Sano s.store)
    (h : evaluar sha256 srv req s = .ok (.ok (keyId, eval, proof)) s') :
    (∃ s'', evaluate sha256 srv req s = .ok (evaluacion eval proof) s'') ∧
      s'.store.reloj 0 ≤ (final (evaluate sha256 srv req s)).store.reloj 0 ∧
      (final (evaluate sha256 srv req s)).store.tablas.usage =
        if s'.store.fallos 0 then s.store.tablas.usage else
          s.store.tablas.usage.insert (keyId, periodOf (s'.store.reloj 0))
            (uso s.store.tablas keyId (periodOf (s'.store.reloj 0)) + 1) := by
  obtain ⟨k, hk, hid, htablas, hpos, hle, hquota, hlt⟩ := hs.al_grabar sha256 h
  have hav := (conserva_evaluar sha256 srv req).of_ok h
  have hpos₁ : 0 ≤ s'.store.reloj 1 := hpos.trans (hav.noRetrocede hs.reloj (Nat.zero_le 1))
  rw [← htablas] at hk
  have husage := recordUsage_usage hpos hk hid
  rw [htablas] at husage
  rw [contarUna_eq hlt] at husage
  obtain ⟨r, hr⟩ := enStore_responde (responde_recordUsage keyId hpos hpos₁)
  have hev : evaluate sha256 srv req s = .ok (evaluacion eval proof)
      { s' with store := final (recordUsage keyId s'.store) } := by
    rw [evaluate, Prog.bind_of_ok h]
    exact Prog.bind_of_ok hr
  refine ⟨⟨_, hev⟩, ?_⟩
  rw [hev]
  exact ⟨(conserva_recordUsage keyId s'.store).reloj_le (hav.noRetrocede hs.reloj), husage⟩

theorem evaluate_negada {srv : Server L} {req : Request} {s : Sesion L}
    (h : ∀ r s', evaluar sha256 srv req s ≠ .ok (.ok r) s') :
    (∀ resp s', evaluate sha256 srv req s = .ok resp s' → resp.status ≠ 200) ∧
      (final (evaluate sha256 srv req s)).store.tablas.usage = s.store.tablas.usage := by
  cases he : evaluar sha256 srv req s with
  | error e s₁ =>
    have hav := (conserva_evaluar sha256 srv req).of_error he
    have hev : evaluate sha256 srv req s = .error e s₁ := Prog.bind_of_error he
    rw [hev]
    refine ⟨?_, congrArg Tablas.usage hav.tablas.symm⟩
    intro resp s' hr
    cases hr
  | ok v s₁ =>
    have hav := (conserva_evaluar sha256 srv req).of_ok he
    cases v with
    | ok r => exact absurd he (h r s₁)
    | error resp =>
      have hev : evaluate sha256 srv req s = .ok resp s₁ := Prog.bind_of_ok he
      rw [hev]
      refine ⟨?_, congrArg Tablas.usage hav.tablas.symm⟩
      intro resp' s' hr
      cases hr
      exact evaluar_error sha256 he

theorem concedida_of_ok {srv : Server L} {req : Request} {s s' : Sesion L} {keyId : String}
    {eval : Arr 32} {proof : Arr Voprf.proofLen} (hs : Sano s.store)
    (h : evaluar sha256 srv req s = .ok (.ok (keyId, eval, proof)) s') :
    concedida sha256 srv req s = some (keyId, periodOf (s'.store.reloj 0)) := by
  obtain ⟨⟨s'', hev⟩, -⟩ := evaluate_concedida sha256 hs h
  rw [concedida, h, hev]
  rfl

theorem concedida_of_negada {srv : Server L} {req : Request} {s : Sesion L}
    (h : ∀ r s', evaluar sha256 srv req s ≠ .ok (.ok r) s') :
    concedida sha256 srv req s = none := by
  unfold concedida
  split
  next he _ => exact absurd he (h _ _)
  next => rfl

theorem count_unica (x y : String × String) : [x].count y = if y = x then 1 else 0 := by
  rw [List.count_singleton]
  by_cases h : y = x
  · rw [if_pos h, if_pos (beq_iff_eq.mpr h.symm)]
  · rw [if_neg h, if_neg fun hb => h (eq_of_beq hb).symm]

/-- A request whose use is not lost at its `INSERT` is counted as it is answered. -/
theorem uso_evaluate {srv : Server L} {req : Request} {s : Sesion L} (hs : Sano s.store)
    (hg : Graba sha256 srv req s) (c p : String) :
    uso (final (evaluate sha256 srv req s)).store.tablas c p =
      uso s.store.tablas c p + (concedida sha256 srv req s).toList.count (c, p) := by
  by_cases h : ∃ r s', evaluar sha256 srv req s = .ok (.ok r) s'
  · obtain ⟨⟨keyId, eval, proof⟩, s', h⟩ := h
    obtain ⟨-, -, husage⟩ := evaluate_concedida sha256 hs h
    rw [hg _ _ h, if_neg Bool.false_ne_true] at husage
    rw [concedida_of_ok sha256 hs h, uso, husage, uso_insert, Option.toList_some, count_unica]
    split
    next he => rw [(Prod.mk.inj he).1, (Prod.mk.inj he).2]
    next => rw [Nat.add_zero]
  · have h : ∀ r s', evaluar sha256 srv req s ≠ .ok (.ok r) s' := fun r s' he => h ⟨r, s', he⟩
    rw [concedida_of_negada sha256 h, uso, (evaluate_negada sha256 h).2]
    rfl

theorem Paso.conserva (srv : Server L) (adminToken : Option String) (s : Sesion L) (paso : Paso) :
    (∃ req, paso = .evaluate req) ∨
      Avance Tablas.SinUso s (paso.dejar sha256 srv adminToken s) ∧
        paso.concedida sha256 srv s = none := by
  cases paso with
  | evaluate req => exact .inl ⟨req, rfl⟩
  | adminIssue req => exact .inr ⟨conserva_adminIssue sha256 adminToken req s, rfl⟩
  | adminAction req path =>
    exact .inr ⟨conserva_adminAction (fun prefijo active => conserva_enStore
      (conserva_setActive prefijo active)) (fun prefijo => conserva_enStore
      (conserva_revoke prefijo)) adminToken req path s, rfl⟩
  | createCustomer email plan =>
    exact .inr ⟨conserva_enStore (conserva_createCustomer email plan) s, rfl⟩
  | issueKey customerId quota expiresAt =>
    exact .inr ⟨conserva_enStore (conserva_issueKey sha256 customerId quota expiresAt) s, rfl⟩
  | setActive prefijo active =>
    exact .inr ⟨conserva_enStore (conserva_setActive prefijo active) s, rfl⟩
  | revoke prefijo => exact .inr ⟨conserva_enStore (conserva_revoke prefijo) s, rfl⟩

/-- A request leaves the uses as they were, or adds one to a key below its quota. -/
theorem sano_evaluate {srv : Server L} {req : Request} {s : Sesion L} (hs : Sano s.store) :
    Sano (final (evaluate sha256 srv req s)).store := by
  have hav : Avanza Tablas.Sigue s.store (final (evaluate sha256 srv req s)).store :=
    conserva_evaluate sha256 srv req s
  have hsin (husage : (final (evaluate sha256 srv req s)).store.tablas.usage =
      s.store.tablas.usage) : Sano (final (evaluate sha256 srv req s)).store :=
    hs.de_sinUso ⟨⟨hav.tablas, husage⟩, hav.reloj⟩
  by_cases h : ∃ r s', evaluar sha256 srv req s = .ok (.ok r) s'
  · obtain ⟨⟨keyId, eval, proof⟩, s', h⟩ := h
    obtain ⟨-, hfin, husage⟩ := evaluate_concedida sha256 hs h
    cases hf : s'.store.fallos 0 with
    | true =>
      rw [hf, if_pos rfl] at husage
      exact hsin husage
    | false =>
      rw [hf, if_neg Bool.false_ne_true] at husage
      obtain ⟨k, hk, hid, -, hpos, -, hquota, -⟩ := hs.al_grabar sha256 h
      exact hs.de_uso hav hk hid hpos hfin hquota husage
  · exact hsin (evaluate_negada sha256 fun r s' he => h ⟨r, s', he⟩).2

theorem Paso.sano {srv : Server L} (adminToken : Option String) {s : Sesion L}
    (hs : Sano s.store) (paso : Paso) : Sano (paso.dejar sha256 srv adminToken s).store := by
  rcases paso.conserva sha256 srv adminToken s with ⟨req, rfl⟩ | ⟨hav, -⟩
  · exact sano_evaluate sha256 hs
  · exact hs.de_sinUso hav

theorem Paso.uso {srv : Server L} (adminToken : Option String) {s : Sesion L} (hs : Sano s.store)
    {paso : Paso} (hg : paso.Graba sha256 srv s) (c p : String) :
    Servidor.uso (paso.dejar sha256 srv adminToken s).store.tablas c p =
      Servidor.uso s.store.tablas c p + (paso.concedida sha256 srv s).toList.count (c, p) := by
  rcases paso.conserva sha256 srv adminToken s with ⟨req, rfl⟩ | ⟨hav, hno⟩
  · exact uso_evaluate sha256 hs hg c p
  · rw [hno, Servidor.uso, hav.tablas.2]
    rfl

theorem correr_sano {srv : Server L} (adminToken : Option String) (pasos : List Paso)
    {s : Sesion L} (hs : Sano s.store) : Sano (correr sha256 srv adminToken pasos s).store := by
  induction pasos generalizing s with
  | nil => exact hs
  | cons paso pasos ih => exact ih (paso.sano sha256 adminToken hs)

/-- In a run that loses no use, the counts are the answers 200. -/
theorem uso_correr {srv : Server L} (adminToken : Option String) (pasos : List Paso)
    {s : Sesion L} (hs : Sano s.store) (hg : Graban sha256 srv adminToken pasos s)
    (c p : String) :
    uso (correr sha256 srv adminToken pasos s).store.tablas c p =
      uso s.store.tablas c p + (concedidas sha256 srv adminToken pasos s).count (c, p) := by
  induction pasos generalizing s with
  | nil => rfl
  | cons paso pasos ih =>
    have hpaso := paso.uso sha256 adminToken hs hg.1 c p
    have hresto := ih (paso.sano sha256 adminToken hs) hg.2
    rw [concedidas, List.count_append, ← Nat.add_assoc, ← hpaso]
    exact hresto

theorem exacto_iff {srv : Server L} {req : Request} {s : Sesion L} (hs : Sano s.store) :
    Exacto sha256 srv req s ↔ Graba sha256 srv req s := by
  constructor
  · rintro hex ⟨keyId, eval, proof⟩ s' h
    obtain ⟨⟨s'', hev⟩, -, husage⟩ := evaluate_concedida sha256 hs h
    cases hf : s'.store.fallos 0 with
    | false => rfl
    | true =>
      obtain ⟨c, p, -, huso⟩ := hex.concede _ _ hev rfl
      have huso := huso c p
      rw [hf, if_pos rfl, hev] at husage
      have hmismo : uso s''.store.tablas c p = uso s.store.tablas c p := by
        rw [uso, show s''.store.tablas.usage = s.store.tablas.usage from husage, uso]
      rw [if_pos rfl] at huso
      omega
  · intro hg
    by_cases h : ∃ r s', evaluar sha256 srv req s = .ok (.ok r) s'
    · obtain ⟨⟨keyId, eval, proof⟩, s', h⟩ := h
      obtain ⟨⟨s'', hev⟩, -⟩ := evaluate_concedida sha256 hs h
      have hcon := concedida_of_ok sha256 hs h
      refine ⟨?_, fun hno => absurd rfl (hno _ _ hev)⟩
      intro resp s₁ hev₁ _
      refine ⟨_, _, hcon, fun c p => ?_⟩
      have huso := uso_evaluate sha256 hs hg c p
      rw [hev₁, hcon, Option.toList_some, count_unica] at huso
      exact huso
    · have hno := evaluate_negada sha256 fun r s' he => h ⟨r, s', he⟩
      exact ⟨fun resp s' hev h200 => absurd h200 (hno.1 resp s' hev), fun _ => hno.2⟩

/-- In every run from a new database in which no use is lost at its `INSERT`, the answers 200 of a
key in a period stay within its quota; and after any run a request is counted exactly as it is
answered if and only if its use is not lost so. -/
theorem cuota_exacta_iff (srv : Server L) (adminToken : Option String) :
    (∀ pasos (s : Sesion L), Nueva s → Graban sha256 srv adminToken pasos s →
      ∀ k ∈ (correr sha256 srv adminToken pasos s).store.tablas.apiKey.filas, ∀ p,
        (concedidas sha256 srv adminToken pasos s).count (k.id, p) ≤ cuota k) ∧
      ∀ pasos (s : Sesion L) req, Nueva s →
        (Exacto sha256 srv req (correr sha256 srv adminToken pasos s) ↔
          Graba sha256 srv req (correr sha256 srv adminToken pasos s)) := by
  constructor
  · intro pasos s hs hg k hk p
    have huso := uso_correr sha256 adminToken pasos hs.sano hg k.id p
    have hquota := (correr_sano sha256 adminToken pasos hs.sano).cuotas k hk p
    omega
  · intro pasos s req hs
    exact exacto_iff sha256 (correr_sano sha256 adminToken pasos hs.sano)

def grabaB (srv : Server L) (req : Request) (s : Sesion L) : Bool :=
  match evaluar sha256 srv req s with
  | .ok (.ok _) s' => !s'.store.fallos 0
  | _ => true

theorem grabaB_iff (srv : Server L) (req : Request) (s : Sesion L) :
    grabaB sha256 srv req s = true ↔ Graba sha256 srv req s := by
  unfold grabaB Graba
  split
  next r s' h => simp [h]
  next h =>
    refine ⟨fun _ r s' hr => absurd hr (h r s'), fun _ => rfl⟩

instance (srv : Server L) (req : Request) (s : Sesion L) : Decidable (Graba sha256 srv req s) :=
  decidable_of_iff _ (grabaB_iff sha256 srv req s)

instance (srv : Server L) (s : Sesion L) (paso : Paso) : Decidable (paso.Graba sha256 srv s) :=
  match paso with
  | .evaluate req => inferInstanceAs (Decidable (Graba sha256 srv req s))
  | .adminIssue _ | .adminAction _ _ | .createCustomer _ _ | .issueKey _ _ _ | .setActive _ _
  | .revoke _ => .isTrue trivial

instance decidableGraban (srv : Server L) (adminToken : Option String) :
    ∀ (pasos : List Paso) (s : Sesion L), Decidable (Graban sha256 srv adminToken pasos s)
  | [], _ => .isTrue trivial
  | p :: ps, s =>
    have := decidableGraban srv adminToken ps (p.dejar sha256 srv adminToken s)
    inferInstanceAs (Decidable (_ ∧ _))

def hashFijo : List UInt8 → Arr 32 := fun _ => List.Vector.replicate 32 0

def servidorFijo : Server Unit :=
  ⟨fun _ => pure (some (List.Vector.replicate 32 0, List.Vector.replicate _ 0)),
    fun _ _ _ => pure true⟩

def sesionFija (fallos : Nat → Bool) : Sesion Unit :=
  ⟨⟨⟨∅, .vacia, ∅, true⟩, fun _ => 0, fallos, Stream'.const (.entrega fun _ => 0)⟩, ()⟩

def peticionFija : Request :=
  ⟨[("Authorization", "Bearer quipu_live_" ++
      "0000000000000000000000000000000000000000000000000000000000000000")],
    some "0000000000000000000000000000000000000000000000000000000000000000"⟩

/-- A customer, a key with a quota of one, and two requests of that key. -/
def pasosFijos : List Paso :=
  [.createCustomer "dev@example.com" "starter",
    .issueKey "00000000000000000000000000000000" 1 none,
    .evaluate peticionFija, .evaluate peticionFija]

theorem nueva_sesionFija (fallos : Nat → Bool) : Nueva (sesionFija fallos) :=
  ⟨rfl, rfl, rfl, fun _ _ _ => le_rfl⟩

theorem cuota_exacta_iff_fija :
    (∀ k ∈ (correr hashFijo servidorFijo none pasosFijos
        (sesionFija fun _ => false)).store.tablas.apiKey.filas, ∀ p,
      (concedidas hashFijo servidorFijo none pasosFijos
        (sesionFija fun _ => false)).count (k.id, p) ≤ cuota k) ∧
      concedidas hashFijo servidorFijo none pasosFijos (sesionFija fun _ => false) =
        [("00000000000000000000000000000000", "1970-01")] :=
  ⟨(cuota_exacta_iff hashFijo servidorFijo none).1 pasosFijos _ (nueva_sesionFija _) (by decide),
    by decide⟩

/-- Where the fifth and the eighth statements fail, the key of one use gets two answers 200 and
no use is counted. -/
theorem cuota_rebasada :
    Nueva (sesionFija fun n => n = 4 ∨ n = 7) ∧
      (∃ k ∈ (correr hashFijo servidorFijo none pasosFijos
          (sesionFija fun n => n = 4 ∨ n = 7)).store.tablas.apiKey.filas,
        cuota k < (concedidas hashFijo servidorFijo none pasosFijos
          (sesionFija fun n => n = 4 ∨ n = 7)).count (k.id, "1970-01")) ∧
      (correr hashFijo servidorFijo none pasosFijos
        (sesionFija fun n => n = 4 ∨ n = 7)).store.tablas.usage = ∅ :=
  ⟨nueva_sesionFija _, by decide, rfl⟩

end Quipu.Servidor
