import Quipu.AlmacenPasos

namespace Quipu.Almacen

open Prog

inductive Op where
  | createCustomer (email plan : String)
  | issueKey (customerId : String) (quotaMonthly : UInt64) (expiresAt : Option Int)
  | setActive (prefijo : String) (active : Bool)
  | revoke (prefijo : String)
  | recordUsage (keyId : String)
  | verify (presented : String)

variable (sha256 : List UInt8 → Arr 32)

/-- The state that an operation leaves, whatever it answers. -/
def Op.dejar : Op → Estado → Estado
  | .createCustomer email plan, s => final (Almacen.createCustomer email plan s)
  | .issueKey customerId quota expiresAt, s =>
    final (Almacen.issueKey sha256 customerId quota expiresAt s)
  | .setActive prefijo active, s => final (Almacen.setActive prefijo active s)
  | .revoke prefijo, s => final (Almacen.revoke prefijo s)
  | .recordUsage keyId, s => final (Almacen.recordUsage keyId s)
  | .verify presented, s => final (Almacen.verify sha256 presented s)

def correr (ops : List Op) (s : Estado) : Estado := ops.foldl (fun s op => op.dejar sha256 s) s

theorem SinUso.sigue {s s' : Estado} (h : Avanza Tablas.SinUso s s') :
    Avanza Tablas.Sigue s s' := h.mono fun _ _ ht => ht.1

/-- No operation loses a row or clears a revocation. -/
theorem dejar_avanza (op : Op) (s : Estado) : Avanza Tablas.Sigue s (op.dejar sha256 s) := by
  cases op with
  | createCustomer email plan => exact SinUso.sigue (conserva_createCustomer email plan s)
  | issueKey customerId quota expiresAt =>
    exact SinUso.sigue (conserva_issueKey sha256 customerId quota expiresAt s)
  | setActive prefijo active => exact SinUso.sigue (conserva_setActive prefijo active s)
  | revoke prefijo => exact SinUso.sigue (conserva_revoke prefijo s)
  | recordUsage keyId => exact conserva_recordUsage keyId s
  | verify presented =>
    refine (conserva_verify sha256 presented s).mono fun t t' ht => ?_
    rw [ht]
    exact refl_of Tablas.Sigue t'

theorem correr_avanza (ops : List Op) (s : Estado) :
    Avanza Tablas.Sigue s (correr sha256 ops s) := by
  induction ops generalizing s with
  | nil => exact refl_of (Avanza Tablas.Sigue) s
  | cons op ops ih =>
    exact trans_of (Avanza Tablas.Sigue) (dejar_avanza sha256 op s) (ih (op.dejar sha256 s))

theorem revoke_ok {prefijo : String} {n : Nat} {s s' : Estado}
    (h : revoke prefijo s = .ok n s') :
    n = s.tablas.apiKey.filas.countP (fun k => k.prefijo = prefijo) ∧
      ∀ k ∈ s.tablas.apiKey.filas, k.prefijo = prefijo →
        ∃ k' ∈ s'.tablas.apiKey.filas, k.Sigue k' ∧ k'.revokedAt.isSome := by
  obtain ⟨t, s₁, hnow, h⟩ := Prog.bind_ok.mp h
  obtain ⟨-, rfl, rfl⟩ := now_eq_ok.mp hnow
  obtain ⟨-, u, hu, rfl⟩ := sentencia_eq_ok.mp h
  cases hu
  refine ⟨rfl, fun k hk hp => ⟨_, List.mem_map_of_mem hk, ?_⟩⟩
  rw [Asignacion.enFila, if_pos (decide_eq_true hp)]
  exact ⟨sigue_ponerRevoked _ k, rfl⟩

theorem setActive_true (prefijo : String) :
    setActive prefijo true = sentencia (updateKeys (ponerActive 1)
      fun k => k.prefijo = prefijo ∧ k.revokedAt = none) := rfl

theorem setActive_true_ok {prefijo : String} {n : Nat} {s s' : Estado}
    (h : setActive prefijo true s = .ok n s') :
    n = s.tablas.apiKey.filas.countP (fun k => k.prefijo = prefijo ∧ k.revokedAt = none) := by
  rw [setActive_true] at h
  obtain ⟨-, t, ht, -⟩ := sentencia_eq_ok.mp h
  exact (updateKeys_eq_ok.mp ht).1

/-- Activating leaves a revoked row as it is. -/
theorem setActive_revocada {prefijo : String} {s : Estado} {k : ApiKey}
    (hk : k ∈ s.tablas.apiKey.filas) (hr : k.revokedAt.isSome) :
    k ∈ (final (setActive prefijo true s)).tablas.apiKey.filas := by
  rw [setActive_true]
  obtain ⟨-, h | ⟨n, h⟩⟩ := final_sentencia (updateKeys (ponerActive 1)
    fun k => k.prefijo = prefijo ∧ k.revokedAt = none) s
  · rw [h]
    exact hk
  · rw [(updateKeys_eq_ok.mp h).2]
    have hne : k.revokedAt ≠ none := Option.isSome_iff_ne_none.mp hr
    refine List.mem_map.mpr ⟨k, hk, ?_⟩
    rw [Asignacion.enFila, if_neg]
    simp [hne]

theorem setActive_revocada_cero {prefijo : String} {n : Nat} {s s' : Estado} {k : ApiKey}
    (hk : k ∈ s.tablas.apiKey.filas) (hr : k.revokedAt.isSome) (hp : k.prefijo = prefijo)
    (h : setActive prefijo true s = .ok n s') : n = 0 := by
  rw [setActive_true_ok h, List.countP_eq_zero]
  intro k' hk' hpre
  obtain ⟨hp', hnone⟩ := of_decide_eq_true hpre
  obtain rfl := ApiKey.eq_of_prefijo hk hk' (hp.trans hp'.symm)
  rw [hnone] at hr
  cases hr

/-- A revoked row stays one through any run, and keeps its key out of what is authorised. -/
theorem verify_revocada {ops : List Op} {s s' : Estado} {k : ApiKey}
    (hk : k ∈ s.tablas.apiKey.filas) (hr : k.revokedAt.isSome)
    {presented keyId customerId plan : String} {quota used : UInt64}
    (h : verify sha256 presented (correr sha256 ops s) =
      .ok (.valid keyId customerId quota used plan) s') :
    keyId ≠ k.id ∧ ∀ hash, parse sha256 presented ≠ some (k.prefijo, hash) := by
  obtain ⟨k', hk', hsigue⟩ := (correr_avanza sha256 ops s).tablas k hk
  obtain ⟨v, hash, hparse, hv, hid, hnone, -⟩ := verify_valid h
  have hne : v ≠ k' := by
    intro he
    have hr' := hsigue.revoked hr
    rw [← he, hnone] at hr'
    cases hr'
  constructor
  · intro he
    exact hne (ApiKey.eq_of_id hv hk' (by rw [hid, he, hsigue.id]))
  · intro hash' hp
    rw [hparse, Option.some.injEq, Prod.mk.injEq] at hp
    exact hne (ApiKey.eq_of_prefijo hv hk' (by rw [hp.1, hsigue.prefijo]))

/-- A key that `revoke` has touched is never authorised again, whatever is done afterwards, and
no activation changes a revoked row. -/
theorem revocacion_definitiva (s : Estado) :
    (∀ prefijo n s', revoke prefijo s = .ok n s' → 0 < n →
      ∃ k ∈ s.tablas.apiKey.filas, k.prefijo = prefijo ∧
        ∀ ops presented keyId customerId quota used plan s'',
          verify sha256 presented (correr sha256 ops s') =
              .ok (.valid keyId customerId quota used plan) s'' →
            keyId ≠ k.id ∧ ∀ hash, parse sha256 presented ≠ some (prefijo, hash)) ∧
      ∀ prefijo, ∀ k ∈ s.tablas.apiKey.filas, k.revokedAt.isSome →
        k ∈ (final (setActive prefijo true s)).tablas.apiKey.filas ∧
          (k.prefijo = prefijo → ∀ n s', setActive prefijo true s = .ok n s' → n = 0) := by
  constructor
  · intro prefijo n s' h hn
    obtain ⟨hcount, hrows⟩ := revoke_ok h
    rw [hcount, List.countP_pos_iff] at hn
    obtain ⟨k, hk, hp⟩ := hn
    have hp := of_decide_eq_true hp
    obtain ⟨k', hk', hsigue, hr⟩ := hrows k hk hp
    refine ⟨k, hk, hp, ?_⟩
    intro ops presented keyId customerId quota used plan s'' hv
    have hfin := verify_revocada sha256 hk' hr hv
    rw [hsigue.id, hsigue.prefijo, hp] at hfin
    exact hfin
  · intro prefijo k hk hr
    exact ⟨setActive_revocada hk hr, fun hp n s' h => setActive_revocada_cero hk hr hp h⟩

def filaUna : ApiKey :=
  ⟨"id", "cliente", "quipu_live_000000000000", [], 1, 5, none, 0, none, none⟩

def tablasUna : Tablas :=
  ⟨∅, ⟨[filaUna], List.nodup_singleton _, List.nodup_singleton _⟩, ∅, true⟩

def estadoUna : Estado :=
  ⟨tablasUna, fun n => n, fun _ => false, Stream'.const (.falla none fun _ => 0)⟩

def hashNulo : List UInt8 → Arr 32 := fun _ => List.Vector.replicate 32 0

theorem revoke_una : ∃ s', revoke filaUna.prefijo estadoUna = .ok 1 s' := ⟨_, rfl⟩

theorem revocacion_definitiva_una : ∃ s', revoke filaUna.prefijo estadoUna = .ok 1 s' ∧
    ∃ k ∈ [filaUna], k.prefijo = filaUna.prefijo ∧
      ∀ ops presented keyId customerId quota used plan s'',
        verify hashNulo presented (correr hashNulo ops s') =
            .ok (.valid keyId customerId quota used plan) s'' →
          keyId ≠ k.id ∧ ∀ hash, parse hashNulo presented ≠ some (filaUna.prefijo, hash) := by
  obtain ⟨s', h⟩ := revoke_una
  exact ⟨s', h, (revocacion_definitiva hashNulo estadoUna).1 _ 1 s' h (by decide)⟩

end Quipu.Almacen
