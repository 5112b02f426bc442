import Quipu.Almacen
import Mathlib.Data.Nat.Init

namespace Quipu.Almacen

open Aleatorio Calendario Prog Tabla

variable {α : Type}

/-- What every operation leaves of a row. -/
structure ApiKey.Sigue (k k' : ApiKey) : Prop where
  id : k'.id = k.id
  prefijo : k'.prefijo = k.prefijo
  quota : k'.quotaMonthly = k.quotaMonthly
  revoked : k.revokedAt.isSome → k'.revokedAt.isSome

/-- No row goes away. -/
def Tablas.Sigue (t t' : Tablas) : Prop :=
  ∀ k ∈ t.apiKey.filas, ∃ k' ∈ t'.apiKey.filas, k.Sigue k'

def Tablas.SinUso (t t' : Tablas) : Prop := t.Sigue t' ∧ t'.usage = t.usage

/-- The tables are related by `T` and the clock has gone on. -/
structure Avanza (T : Tablas → Tablas → Prop) (s s' : Estado) : Prop where
  tablas : T s.tablas s'.tablas
  reloj : ∃ n, ∀ i, s'.reloj i = s.reloj (i + n)

theorem ApiKey.Sigue.refl (k : ApiKey) : k.Sigue k := ⟨rfl, rfl, rfl, fun h => h⟩

theorem ApiKey.Sigue.trans {k₁ k₂ k₃ : ApiKey} (h : k₁.Sigue k₂) (h' : k₂.Sigue k₃) :
    k₁.Sigue k₃ :=
  ⟨h'.id.trans h.id, h'.prefijo.trans h.prefijo, h'.quota.trans h.quota,
    fun hr => h'.revoked (h.revoked hr)⟩

instance : IsPreorder Tablas Tablas.Sigue where
  refl := fun _ k hk => ⟨k, hk, .refl k⟩
  trans := by
    intro t₁ t₂ t₃ h h' k hk
    obtain ⟨k', hk', hs⟩ := h k hk
    obtain ⟨k'', hk'', hs'⟩ := h' k' hk'
    exact ⟨k'', hk'', hs.trans hs'⟩

instance : IsPreorder Tablas Tablas.SinUso where
  refl := fun t => ⟨refl_of Tablas.Sigue t, rfl⟩
  trans := fun _ _ _ h h' => ⟨trans_of Tablas.Sigue h.1 h'.1, h'.2.trans h.2⟩

theorem ApiKey.eq_of_id {t : ApiKeys} {k k' : ApiKey} (hk : k ∈ t.filas) (hk' : k' ∈ t.filas)
    (h : k.id = k'.id) : k = k' := List.inj_on_of_nodup_map t.ids hk hk' h

theorem ApiKey.eq_of_prefijo {t : ApiKeys} {k k' : ApiKey} (hk : k ∈ t.filas)
    (hk' : k' ∈ t.filas) (h : k.prefijo = k'.prefijo) : k = k' :=
  List.inj_on_of_nodup_map t.prefijos hk hk' h

section Reglas

variable {T : Tablas → Tablas → Prop}

instance [IsPreorder Tablas T] : IsPreorder Estado (Avanza T) where
  refl := fun _ => ⟨refl_of T _, 0, fun _ => rfl⟩
  trans := by
    intro s₁ s₂ s₃ h h'
    obtain ⟨n, hn⟩ := h.reloj
    obtain ⟨m, hm⟩ := h'.reloj
    refine ⟨trans_of T h.tablas h'.tablas, m + n, ?_⟩
    intro i
    rw [hm, hn, Nat.add_assoc]

theorem Avanza.mono {T' : Tablas → Tablas → Prop} (h : ∀ t t', T t t' → T' t t') (s s' : Estado)
    (hs : Avanza T s s') : Avanza T' s s' := ⟨h _ _ hs.tablas, hs.reloj⟩

/-- A clock whose readings never go back. -/
def NoRetrocede (reloj : Nat → Int) : Prop := ∀ ⦃i j⦄, i ≤ j → reloj i ≤ reloj j

theorem Avanza.reloj_le {s s' : Estado} (h : Avanza T s s')
    (hm : NoRetrocede s.reloj) : s.reloj 0 ≤ s'.reloj 0 := by
  obtain ⟨n, hn⟩ := h.reloj
  rw [hn]
  exact hm (Nat.zero_le (0 + n))

theorem Avanza.noRetrocede {s s' : Estado} (h : Avanza T s s')
    (hm : NoRetrocede s.reloj) : NoRetrocede s'.reloj := by
  obtain ⟨n, hn⟩ := h.reloj
  intro i j hij
  rw [hn, hn]
  exact hm (Nat.add_le_add_right hij n)

theorem sentencia_eq_ok {f : Tablas → Except RusqliteError (α × Tablas)} {a : α} {s s' : Estado} :
    sentencia f s = .ok a s' ↔ s.fallos 0 = false ∧ ∃ t, f s.tablas = .ok (a, t) ∧
      s' = { s with fallos := fun n => s.fallos (n + 1), tablas := t } := by
  unfold sentencia
  cases hf : s.fallos 0 with
  | true => simp
  | false =>
    cases h : f s.tablas with
    | error e => simp
    | ok r =>
      obtain ⟨b, t⟩ := r
      simp only [Bool.false_eq_true, ↓reduceIte, EStateM.Result.ok.injEq, Except.ok.injEq,
        Prod.mk.injEq, true_and]
      constructor
      · rintro ⟨rfl, rfl⟩
        exact ⟨t, ⟨rfl, rfl⟩, rfl⟩
      · rintro ⟨u, ⟨rfl, rfl⟩, rfl⟩
        exact ⟨rfl, rfl⟩

theorem sentencia_of_fallo (f : Tablas → Except RusqliteError (α × Tablas)) {s : Estado}
    (h : s.fallos 0 = true) :
    sentencia f s = .error (.error .sqliteFailure) { s with fallos := fun n => s.fallos (n + 1) } :=
  if_pos h

theorem sentencia_of_ok {f : Tablas → Except RusqliteError (α × Tablas)} {s : Estado} {a : α}
    {t : Tablas} (h : s.fallos 0 = false) (hf : f s.tablas = .ok (a, t)) :
    sentencia f s = .ok a { s with fallos := fun n => s.fallos (n + 1), tablas := t } :=
  sentencia_eq_ok.mpr ⟨h, t, hf, rfl⟩

theorem now_eq_ok {t : Int} {s s' : Estado} :
    now s = .ok t s' ↔
      0 ≤ s.reloj 0 ∧ t = s.reloj 0 ∧ s' = { s with reloj := fun n => s.reloj (n + 1) } := by
  unfold now
  split
  next h => simp [h]
  next h => simp [not_lt.mp h, eq_comm]

theorem conserva_now [IsPreorder Tablas T] : Conserva (Avanza T) now := by
  intro s
  unfold now
  split
  next => exact ⟨refl_of T _, 1, fun _ => rfl⟩
  next => exact ⟨refl_of T _, 1, fun _ => rfl⟩

theorem conserva_rellenar [IsPreorder Tablas T] (k : Nat) : Conserva (Avanza T) (rellenar k) := by
  intro s
  unfold rellenar
  split
  next => exact ⟨refl_of T _, 0, fun _ => rfl⟩
  next => exact ⟨refl_of T _, 0, fun _ => rfl⟩

/-- A statement that fails leaves the tables as they were. -/
theorem final_sentencia (f : Tablas → Except RusqliteError (α × Tablas)) (s : Estado) :
    (final (sentencia f s)).reloj = s.reloj ∧
      ((final (sentencia f s)).tablas = s.tablas ∨
        ∃ a, f s.tablas = .ok (a, (final (sentencia f s)).tablas)) := by
  unfold sentencia
  split
  next => exact ⟨rfl, .inl rfl⟩
  next =>
    split
    next r h => exact ⟨rfl, .inr ⟨r.1, h⟩⟩
    next => exact ⟨rfl, .inl rfl⟩

theorem conserva_sentencia [IsPreorder Tablas T]
    {f : Tablas → Except RusqliteError (α × Tablas)}
    (hf : ∀ t a t', f t = .ok (a, t') → T t t') : Conserva (Avanza T) (sentencia f) := by
  intro s
  obtain ⟨hreloj, htablas⟩ := final_sentencia f s
  refine ⟨?_, 0, fun i => congrFun hreloj i⟩
  rcases htablas with h | ⟨a, h⟩
  · rw [h]
    exact refl_of T s.tablas
  · exact hf _ _ _ h

end Reglas

theorem sinUso_insertCustomer {id : String} {c : Customer} {t t' : Tablas} {a : Unit}
    (h : insertCustomer id c t = .ok (a, t')) : t.SinUso t' := by
  unfold insertCustomer at h
  split at h
  next => cases h
  next =>
    cases h
    exact refl_of Tablas.SinUso t

theorem sinUso_insertApiKey {k : ApiKey} {t t' : Tablas} {a : Unit}
    (h : insertApiKey k t = .ok (a, t')) : t.SinUso t' := by
  unfold insertApiKey at h
  split at h
  next => cases h
  next =>
    split at h
    next apiKey hins =>
      cases h
      unfold ApiKeys.insert at hins
      split at hins
      next =>
        cases hins
        exact ⟨fun k' hk' => ⟨k', List.mem_cons_of_mem _ hk', .refl k'⟩, rfl⟩
      next => cases hins
    next => cases h

theorem selectKey_ok {prefijo : String} {t t' : Tablas} {r : Option (ApiKey × String)}
    (h : selectKey prefijo t = .ok (r, t')) : t = t' := by
  cases h
  rfl

theorem selectUsage_eq_ok {keyId period : String} {t t' : Tablas} {r : Option Nat} :
    selectUsage keyId period t = .ok (r, t') ↔
      t' = t ∧ r = t.usage.lookup (keyId, period) ∧ r.getD 0 < 2 ^ 63 := by
  unfold selectUsage
  cases t.usage.lookup (keyId, period) with
  | none => simp only [Except.ok.injEq, Prod.mk.injEq]; grind
  | some n => grind

theorem updateKeys_eq_ok {a : Asignacion} {donde : ApiKey → Bool} {t t' : Tablas} {n : Nat} :
    updateKeys a donde t = .ok (n, t') ↔
      n = t.apiKey.filas.countP donde ∧ t' = { t with apiKey := (t.apiKey.update a donde).2 } := by
  simp only [updateKeys, ApiKeys.update, Except.ok.injEq, Prod.mk.injEq, eq_comm]

theorem sinUso_updateKeys {a : Asignacion} (ha : ∀ k : ApiKey, k.Sigue (a.poner k))
    {donde : ApiKey → Bool} {t t' : Tablas} {n : Nat} (h : updateKeys a donde t = .ok (n, t')) :
    t.SinUso t' := by
  cases h
  refine ⟨fun k hk => ⟨a.enFila donde k, List.mem_map_of_mem hk, ?_⟩, rfl⟩
  unfold Asignacion.enFila
  split
  next => exact ha k
  next => exact .refl k

theorem sigue_insertUsage {keyId period : String} {t t' : Tablas} {a : Unit}
    (h : insertUsage keyId period t = .ok (a, t')) : t.Sigue t' := by
  unfold insertUsage at h
  split at h
  next => cases h
  next =>
    cases h
    exact refl_of Tablas.Sigue t

theorem sigue_ponerActive (active : Int) (k : ApiKey) : k.Sigue ((ponerActive active).poner k) :=
  ⟨rfl, rfl, rfl, fun h => h⟩

theorem sigue_ponerLastUsed (t : Int) (k : ApiKey) : k.Sigue ((ponerLastUsed t).poner k) :=
  ⟨rfl, rfl, rfl, fun h => h⟩

theorem sigue_ponerRevoked (t : Int) (k : ApiKey) : k.Sigue ((ponerRevoked t).poner k) :=
  ⟨rfl, rfl, rfl, fun _ => rfl⟩

section Operaciones

variable {T : Tablas → Tablas → Prop} [IsPreorder Tablas T]

theorem conserva_currentPeriod : Conserva (Avanza T) currentPeriod :=
  conserva_now.bind fun _ => conserva_pure _

theorem conserva_randomId : Conserva (Avanza T) randomId :=
  (conserva_rellenar 16).bind fun _ => conserva_pure _

theorem conserva_generate (sha256 : List UInt8 → Arr 32) :
    Conserva (Avanza T) (generate sha256) :=
  (conserva_rellenar 32).bind fun _ => conserva_pure _

end Operaciones

theorem conserva_createCustomer (email plan : String) :
    Conserva (Avanza Tablas.SinUso) (createCustomer email plan) := by
  unfold createCustomer
  apply conserva_randomId.bind
  intro id
  apply conserva_now.bind
  intro t
  refine Conserva.bind (conserva_sentencia fun _ _ _ => sinUso_insertCustomer) fun _ => ?_
  exact conserva_pure id

theorem conserva_issueKey (sha256 : List UInt8 → Arr 32) (customerId : String) (quota : UInt64)
    (expiresAt : Option Int) :
    Conserva (Avanza Tablas.SinUso) (issueKey sha256 customerId quota expiresAt) := by
  unfold issueKey
  apply (conserva_generate sha256).bind
  intro key
  apply conserva_randomId.bind
  intro id
  apply conserva_now.bind
  intro t
  refine Conserva.bind (conserva_sentencia fun _ _ _ => sinUso_insertApiKey) fun _ => ?_
  exact conserva_pure key

theorem conserva_setActive (prefijo : String) (active : Bool) :
    Conserva (Avanza Tablas.SinUso) (setActive prefijo active) := by
  unfold setActive
  split
  next => exact conserva_sentencia fun _ _ _ => sinUso_updateKeys (sigue_ponerActive 1)
  next => exact conserva_sentencia fun _ _ _ => sinUso_updateKeys (sigue_ponerActive 0)

theorem conserva_revoke (prefijo : String) :
    Conserva (Avanza Tablas.SinUso) (revoke prefijo) := by
  unfold revoke
  apply conserva_now.bind
  intro t
  exact conserva_sentencia fun _ _ _ => sinUso_updateKeys (sigue_ponerRevoked t)

theorem conserva_recordUsage (keyId : String) :
    Conserva (Avanza Tablas.Sigue) (recordUsage keyId) := by
  unfold recordUsage
  apply conserva_currentPeriod.bind
  intro period
  refine Conserva.bind (conserva_sentencia fun _ _ _ => sigue_insertUsage) fun _ => ?_
  apply conserva_now.bind
  intro t
  refine Conserva.bind (conserva_sentencia fun _ _ _ h =>
    (sinUso_updateKeys (sigue_ponerLastUsed t) h).1) fun _ => ?_
  exact conserva_pure ()

theorem conserva_expirada (expiresAt : Option Int) : Conserva (Avanza Eq) (expirada expiresAt) := by
  unfold expirada
  split
  next => exact conserva_pure false
  next => exact conserva_now.bind fun _ => conserva_pure _

theorem conserva_usageCount (keyId period : String) :
    Conserva (Avanza Eq) (usageCount keyId period) := by
  unfold usageCount
  refine Conserva.bind (conserva_sentencia fun _ _ _ h => (selectUsage_eq_ok.mp h).1.symm)
    fun count => ?_
  exact conserva_pure _

theorem conserva_verifyFila (hash : Arr 32) (k : ApiKey) (plan : String) :
    Conserva (Avanza Eq) (verifyFila hash k plan) := by
  unfold verifyFila
  split
  next => exact conserva_pure _
  next =>
    split
    next => exact conserva_pure _
    next =>
      apply (conserva_expirada _).bind
      intro e
      split
      next => exact conserva_pure _
      next =>
        apply conserva_currentPeriod.bind
        intro period
        apply (conserva_usageCount _ _).bind
        intro used
        dsimp only
        split
        next => exact conserva_pure _
        next => exact conserva_pure _

/-- Checking a key writes nothing. -/
theorem conserva_verify (sha256 : List UInt8 → Arr 32) (presented : String) :
    Conserva (Avanza Eq) (verify sha256 presented) := by
  unfold verify
  split
  next => exact conserva_pure _
  next =>
    refine Conserva.bind (conserva_sentencia fun _ _ _ => selectKey_ok) fun fila => ?_
    split
    next => exact conserva_pure _
    next => exact conserva_verifyFila _ _ _

theorem currentPeriod_of_nonneg {s : Estado} (h : 0 ≤ s.reloj 0) :
    currentPeriod s = .ok (periodOf (s.reloj 0)) { s with reloj := fun n => s.reloj (n + 1) } :=
  Prog.bind_of_ok (now_eq_ok.mpr ⟨h, rfl, rfl⟩)

theorem insertUsage_of_mem {keyId : String} (period : String) {t : Tablas} {k : ApiKey}
    (hk : k ∈ t.apiKey.filas) (hid : k.id = keyId) :
    insertUsage keyId period t = .ok ((), { t with
      usage := t.usage.insert (keyId, period) (contarUna (t.usage.lookup (keyId, period))) }) := by
  have hm : keyId ∈ t.apiKey.filas.map ApiKey.id := List.mem_map.mpr ⟨k, hk, hid⟩
  exact if_neg fun h => h.2 hm

theorem responde_sentencia (f : Tablas → Except RusqliteError (α × Tablas)) (s : Estado) :
    (sentencia f).Responde s := by
  intro m s' h
  unfold sentencia at h
  split at h
  next => cases h
  next =>
    split at h
    next => cases h
    next => cases h

theorem responde_recordUsage (keyId : String) {s : Estado} (h₀ : 0 ≤ s.reloj 0)
    (h₁ : 0 ≤ s.reloj 1) : (recordUsage keyId).Responde s := by
  apply (responde_of_ok (currentPeriod_of_nonneg h₀)).bind
  intro period s₁ hp
  rw [currentPeriod_of_nonneg h₀] at hp
  cases hp
  apply (responde_sentencia _ _).bind
  intro u s₂ hu
  obtain ⟨-, t, -, rfl⟩ := sentencia_eq_ok.mp hu
  apply (responde_of_ok (now_eq_ok.mpr ⟨h₁, rfl, rfl⟩)).bind
  intro t s₃ _
  apply (responde_sentencia _ _).bind
  intro n s₄ _
  exact responde_of_ok rfl

/-- The `UPDATE` of `last_used_at` counts nothing. -/
theorem conserva_lastUsed (keyId : String) :
    Conserva (Avanza Tablas.SinUso) (do
      let t ← now
      let _ ← sentencia (updateKeys (ponerLastUsed t) fun k => k.id = keyId)) := by
  apply conserva_now.bind
  intro t
  refine Conserva.bind (conserva_sentencia fun _ _ _ =>
    sinUso_updateKeys (sigue_ponerLastUsed t)) fun _ => ?_
  exact conserva_pure ()

/-- A use is counted exactly where the `INSERT` does not fail. -/
theorem recordUsage_usage {keyId : String} {s : Estado} {k : ApiKey} (h₀ : 0 ≤ s.reloj 0)
    (hk : k ∈ s.tablas.apiKey.filas) (hid : k.id = keyId) :
    (final (recordUsage keyId s)).tablas.usage = if s.fallos 0 then s.tablas.usage else
      s.tablas.usage.insert (keyId, periodOf (s.reloj 0))
        (contarUna (s.tablas.usage.lookup (keyId, periodOf (s.reloj 0)))) := by
  let s₁ : Estado := { s with reloj := fun n => s.reloj (n + 1) }
  unfold recordUsage
  rw [Prog.bind_of_ok (currentPeriod_of_nonneg h₀)]
  split
  next hf =>
    have hins := sentencia_of_fallo (insertUsage keyId (periodOf (s.reloj 0))) (s := s₁) hf
    rw [Prog.bind_of_error hins]
    rfl
  next hf =>
    have hins := sentencia_of_ok (s := s₁) (Bool.eq_false_of_not_eq_true hf)
      (insertUsage_of_mem (periodOf (s.reloj 0)) hk hid)
    rw [Prog.bind_of_ok hins]
    exact (conserva_lastUsed keyId _).tablas.2

theorem expirada_ok {expiresAt : Option Int} {b : Bool} {s s' : Estado}
    (h : expirada expiresAt s = .ok b s') :
    s'.tablas = s.tablas ∧ ∃ n, ∀ i, s'.reloj i = s.reloj (i + n) := by
  have hs := (conserva_expirada expiresAt).of_ok h
  exact ⟨hs.tablas.symm, hs.reloj⟩

theorem usageCount_ok {keyId period : String} {used : UInt64} {s s' : Estado}
    (h : usageCount keyId period s = .ok used s') :
    (s.tablas.usage.lookup (keyId, period)).getD 0 = used.toNat ∧ used.toNat < 2 ^ 63 ∧
      s'.reloj = s.reloj ∧ s'.tablas = s.tablas := by
  obtain ⟨count, s₁, hc, h⟩ := Prog.bind_ok.mp h
  obtain ⟨-, t, ht, rfl⟩ := sentencia_eq_ok.mp hc
  obtain ⟨rfl, rfl, hlt⟩ := selectUsage_eq_ok.mp ht
  cases h
  rw [UInt64.toNat_ofNat_of_lt' (Nat.lt_trans hlt (by decide))]
  exact ⟨rfl, hlt, rfl, rfl⟩

theorem verifyFila_valid {hash : Arr 32} {k : ApiKey} {plan keyId customerId plan' : String}
    {quota used : UInt64} {s s' : Estado}
    (h : verifyFila hash k plan s = .ok (.valid keyId customerId quota used plan') s') :
    k.id = keyId ∧ k.revokedAt = none ∧ used < k.quotaMonthly.toUInt64 ∧
      ∃ n, 0 ≤ s.reloj n ∧ (∀ i, s'.reloj i = s.reloj (i + (n + 1))) ∧
        s'.tablas = s.tablas ∧ used.toNat < 2 ^ 63 ∧
        (s.tablas.usage.lookup (keyId, periodOf (s.reloj n))).getD 0 = used.toNat := by
  unfold verifyFila at h
  split at h
  next => cases h
  next =>
    split at h
    next => cases h
    next hviva =>
      obtain ⟨e, s₁, he, h⟩ := Prog.bind_ok.mp h
      split at h
      next => cases h
      next =>
        obtain ⟨htablas₁, n, hn⟩ := expirada_ok he
        obtain ⟨period, s₂, hp, h⟩ := Prog.bind_ok.mp h
        obtain ⟨t, s₃, ht, hp⟩ := Prog.bind_ok.mp hp
        obtain ⟨hpos, rfl, rfl⟩ := now_eq_ok.mp ht
        cases hp
        obtain ⟨u, s₄, hu, h⟩ := Prog.bind_ok.mp h
        obtain ⟨hcount, hlt, hreloj, htablas⟩ := usageCount_ok hu
        split at h
        next => cases h
        next hquota =>
          cases h
          have hnone : k.revokedAt = none := by simpa using (not_or.mp hviva).1
          have hlectura : s₁.reloj 0 = s.reloj n := by rw [hn, Nat.zero_add]
          have hreloj' : ∀ i, s'.reloj i = s.reloj (i + (n + 1)) := by
            intro i
            rw [hreloj, hn]
            exact congrArg s.reloj (by omega)
          rw [hlectura] at hpos hcount
          rw [htablas₁] at hcount htablas
          exact ⟨rfl, hnone, UInt64.not_le.mp hquota, n, hpos, hreloj', htablas, hlt, hcount⟩

theorem joinCustomer_some {prefijo plan : String} {k : ApiKey} {t : Tablas}
    (h : joinCustomer prefijo t = some (k, plan)) :
    k ∈ t.apiKey.filas ∧ k.prefijo = prefijo := by
  obtain ⟨k', hk, h⟩ := Option.bind_eq_some_iff.mp h
  obtain ⟨c, hc, h⟩ := Option.bind_eq_some_iff.mp h
  cases h
  exact ⟨List.mem_of_find?_eq_some hk, by simpa using List.find?_some hk⟩

/-- An authorised key has the row of its prefix behind it, not revoked and below its quota in
the period of a reading of the clock, the last one taken. -/
theorem verify_valid {sha256 : List UInt8 → Arr 32} {presented keyId customerId plan : String}
    {quota used : UInt64} {s s' : Estado}
    (h : verify sha256 presented s = .ok (.valid keyId customerId quota used plan) s') :
    ∃ k hash, parse sha256 presented = some (k.prefijo, hash) ∧ k ∈ s.tablas.apiKey.filas ∧
      k.id = keyId ∧ k.revokedAt = none ∧ used < k.quotaMonthly.toUInt64 ∧
        ∃ n, 0 ≤ s.reloj n ∧ (∀ i, s'.reloj i = s.reloj (i + (n + 1))) ∧
          s'.tablas = s.tablas ∧ used.toNat < 2 ^ 63 ∧
          (s.tablas.usage.lookup (keyId, periodOf (s.reloj n))).getD 0 = used.toNat := by
  unfold verify at h
  cases hparse : parse sha256 presented with
  | none =>
    rw [hparse] at h
    cases h
  | some r =>
    obtain ⟨prefijo, hash⟩ := r
    rw [hparse] at h
    obtain ⟨fila, s₁, hfila, hresto⟩ := Prog.bind_ok.mp h
    obtain ⟨-, t, ht, rfl⟩ := sentencia_eq_ok.mp hfila
    cases ht
    cases hjoin : joinCustomer prefijo s.tablas with
    | none =>
      rw [hjoin] at hresto
      cases hresto
    | some r =>
      obtain ⟨k, plan'⟩ := r
      rw [hjoin] at hresto
      obtain ⟨hk, rfl⟩ := joinCustomer_some hjoin
      obtain ⟨hid, hrevoked, hquota, hcount⟩ := verifyFila_valid hresto
      exact ⟨k, hash, rfl, hk, hid, hrevoked, hquota, hcount⟩

end Quipu.Almacen
