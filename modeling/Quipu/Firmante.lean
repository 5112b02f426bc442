import Quipu.FirmaPreimagen
import Quipu.ShamirCombine

namespace Quipu

def Shamir.ShamirError.toTexto : ShamirError → String
  | .badParameters => "parámetros de reparto inválidos"
  | .emptySecret => "el secreto está vacío"
  | .notEnoughShares needed got =>
    "hacen falta " ++ toString needed ++ " comparticiones, se aportaron " ++ toString got
  | .inconsistent => "las comparticiones no son del mismo reparto"
  | .verificationFailed => "la reconstrucción no supera el verificador"
  | .malformed => "compartición mal formada"
  | .sinEntropia e => "no se pudo repartir: " ++ e.toTexto

namespace Firmante

open Pqsign Shamir

variable {σ : Type}

inductive ErrorDeFirma where
  | custodioNoDisponible (detalle : String)
  | operacionRechazada (detalle : String)
  | longitudInesperada (esperaba recibio : Nat)
  deriving DecidableEq, Repr

/-- Whoever keeps a signing key, over a state of its own. -/
structure Custodio (σ : Type) where
  claveDeVerificacion : Prog σ ErrorDeFirma VerifyingKey
  firmarEd25519 : List UInt8 → Prog σ ErrorDeFirma (List UInt8)
  firmarMldsa : List UInt8 → Prog σ ErrorDeFirma (List UInt8)

def comprobarLongitud (recibio esperaba : Nat) : Res ErrorDeFirma Unit :=
  if recibio = esperaba then .ok () else fallar (.longitudInesperada esperaba recibio)

def firmar (custodio : Custodio σ) (mensaje : List UInt8) :
    Prog σ ErrorDeFirma (List UInt8) := do
  let vk ← custodio.claveDeVerificacion
  let preimagen := buildPreimage vk.toBytes mensaje
  let ed ← custodio.firmarEd25519 preimagen
  Prog.deRes (comprobarLongitud ed.length ed25519SigLen)
  let ml ← custodio.firmarMldsa preimagen
  Prog.deRes (comprobarLongitud ml.length mldsaSigLen)
  pure (ed ++ ml)

/-- The custodian that holds the key in memory. -/
def enMemoria (es : Esquemas) (clave : SigningKey) : Custodio Firmas where
  claveDeVerificacion := pure (clave.verifyingKey es)
  firmarEd25519 := fun preimagen => do
    let sig ← firmarEd es clave.edSeed preimagen
    pure sig.toList
  firmarMldsa := fun preimagen => do
    let sig ← firmarMl es clave.mlSeed preimagen
    pure sig.toList

def claveDe (bytes : List UInt8) : Res ErrorDeFirma SigningKey :=
  match SigningKey.fromBytes bytes with
  | some clave => .ok clave
  | none => fallar
    (.operacionRechazada "las comparticiones reconstruyen algo que no es una clave de firma")

def firmarConComparticiones (es : Esquemas) (etiqueta : List UInt8 → Arr Shamir.tagLen)
    (comparticiones : List Share) (mensaje : List UInt8) :
    Prog Firmas ErrorDeFirma (List UInt8) := do
  let bytes ← Prog.deRes (Res.mapErr
    (fun e => .operacionRechazada ("reparto inválido: " ++ e.toTexto))
    (combine etiqueta comparticiones))
  let clave ← Prog.deRes (claveDe bytes)
  firmar (enMemoria es clave) mensaje

theorem comprobarLongitud_eq_ok {recibio esperaba : Nat} {u : Unit} :
    comprobarLongitud recibio esperaba = .ok u ↔ recibio = esperaba := by
  unfold comprobarLongitud
  split
  next h => simp [h]
  next h => simp [h, fallar]

theorem fromBytes_toBytes (sk : SigningKey) : SigningKey.fromBytes sk.toBytes = some sk := by
  have hed := sk.edSeed.toList_length
  have hlen : ¬sk.toBytes.length ≠ signingKeyLen := by
    rw [SigningKey.toBytes, List.length_append, hed, sk.mlSeed.toList_length]
    exact not_not.mpr rfl
  rw [SigningKey.fromBytes, if_neg hlen, SigningKey.toBytes, List.take_left' hed,
    List.drop_left' hed, tryInto_eq_some.mpr rfl, tryInto_eq_some.mpr rfl]
  rfl

/-- The custodian in memory signs as the key itself. -/
theorem firmar_enMemoria (es : Esquemas) (sk : SigningKey) (mensaje : List UInt8) :
    firmar (enMemoria es sk) mensaje = sk.sign es mensaje := by
  have hed : ∀ p, comprobarLongitud (es.ed.firma sk.edSeed p).toList.length ed25519SigLen =
      .ok () := fun p => comprobarLongitud_eq_ok.mpr (es.ed.firma sk.edSeed p).toList_length
  have hml : ∀ p, comprobarLongitud (es.ml.firma sk.mlSeed p).toList.length mldsaSigLen =
      .ok () := fun p => comprobarLongitud_eq_ok.mpr (es.ml.firma sk.mlSeed p).toList_length
  funext r
  simp only [firmar, enMemoria, SigningKey.sign, bind, EStateM.bind, pure, EStateM.pure, firmarEd,
    firmarMl, hed, hml, Prog.deRes_ok]

theorem toBytes_ne_nil (sk : SigningKey) : sk.toBytes ≠ [] := by
  have hlen : sk.toBytes.length = 32 + 32 := by
    rw [SigningKey.toBytes, List.length_append, sk.edSeed.toList_length, sk.mlSeed.toList_length]
  exact List.ne_nil_of_length_pos (by omega)

theorem firmar_eq_ok {custodio : Custodio σ} {m firma : List UInt8} {s s' : σ} :
    firmar custodio m s = .ok firma s' ↔
      ∃ vk ed ml s₁ s₂, custodio.claveDeVerificacion s = .ok vk s₁ ∧
        custodio.firmarEd25519 (buildPreimage vk.toBytes m) s₁ = .ok ed s₂ ∧
        ed.length = ed25519SigLen ∧
        custodio.firmarMldsa (buildPreimage vk.toBytes m) s₂ = .ok ml s' ∧
        ml.length = mldsaSigLen ∧ ed ++ ml = firma := by
  simp only [firmar, Prog.bind_ok, Prog.deRes_eq_ok, comprobarLongitud_eq_ok]
  constructor
  · rintro ⟨vk, s₁, hvk, ed, s₂, hed, _, _, ⟨hled, rfl⟩, ml, s₃, hml, _, _, ⟨hlml, rfl⟩, h⟩
    cases h
    exact ⟨vk, ed, ml, s₁, _, hvk, hed, hled, hml, hlml, rfl⟩
  · rintro ⟨vk, ed, ml, s₁, s₂, hvk, hed, hled, hml, hlml, rfl⟩
    exact ⟨vk, s₁, hvk, ed, s₂, hed, (), s₂, ⟨hled, rfl⟩, ml, s', hml, (), s', ⟨hlml, rfl⟩, rfl⟩

/-- Enough shares of a key sign as the key does, and what any custodian gives for a signature
is two halves of their lengths that verify exactly when each is valid on its own. -/
theorem firmar_custodiado (es : Esquemas) (etiqueta : List UInt8 → Arr Shamir.tagLen) :
    (∀ (sk : SigningKey) {threshold : UInt8} (shares : UInt8) (ht : minThreshold ≤ threshold)
        (css : List.Vector (Arr (threshold.toNat - 1)) (sk.toBytes.length + Shamir.tagLen))
        (aportadas : List Share) (mensaje : List UInt8),
        aportadas.Subperm (repartir ht (tagLen_lt_payload (toBytes_ne_nil sk))
          (payloadDe etiqueta sk.toBytes) css shares) →
        threshold.toNat ≤ aportadas.length →
        firmarConComparticiones es etiqueta aportadas mensaje = sk.sign es mensaje) ∧
      ∀ (σ : Type) (custodio : Custodio σ) (mensaje firma : List UInt8) (s s' : σ),
        firmar custodio mensaje s = .ok firma s' →
        ∃ (vk : VerifyingKey) (ed : Arr 64) (ml : Arr 4627) (s₁ s₂ : σ),
          custodio.claveDeVerificacion s = .ok vk s₁ ∧
          custodio.firmarEd25519 (buildPreimage vk.toBytes mensaje) s₁ = .ok ed.toList s₂ ∧
          custodio.firmarMldsa (buildPreimage vk.toBytes mensaje) s₂ = .ok ml.toList s' ∧
          firma = ed.toList ++ ml.toList ∧
          (vk.verify es mensaje firma = true ↔
            es.ed.acepta vk.ed (buildPreimage vk.toBytes mensaje) ed = true ∧
              es.ml.acepta vk.ml (buildPreimage vk.toBytes mensaje) ml = true) := by
  refine ⟨fun sk threshold shares ht css aportadas mensaje hsub hbastan => ?_,
    fun σ custodio mensaje firma s s' h => ?_⟩
  · have hcombina := combine_repartir ht (toBytes_ne_nil sk) css hsub hbastan
    have hclave : claveDe sk.toBytes = .ok sk := by rw [claveDe, fromBytes_toBytes]
    funext r
    rw [firmarConComparticiones, hcombina, Res.mapErr_ok, Prog.bind_of_ok (Prog.deRes_ok _ r),
      hclave, Prog.bind_of_ok (Prog.deRes_ok sk r), firmar_enMemoria]
  · obtain ⟨vk, ed, ml, s₁, s₂, hvk, hed, hled, hml, hlml, rfl⟩ := firmar_eq_ok.mp h
    refine ⟨vk, Arr.of ed hled, Arr.of ml hlml, s₁, s₂, hvk, hed, hml, rfl, ?_⟩
    rw [← Bool.and_eq_true_iff, ← verify_append]
    rfl

theorem firmar_custodiado_tres :
    ∃ comparticiones : List Share, comparticiones.length = 3 ∧
      firmarConComparticiones (.deRegistro ⟨[], [], []⟩) etiquetaNula comparticiones [1] =
        SigningKey.sign (.deRegistro ⟨[], [], []⟩) ⟨ajustar 32 [7], ajustar 32 [8]⟩ [1] ∧
      ∃ (vk : VerifyingKey) (ed : Arr 64) (ml : Arr 4627) (firma : List UInt8),
        firma = ed.toList ++ ml.toList ∧
          (vk.verify (.deRegistro ⟨[], [], []⟩) [1] firma = true ↔
            (Esquemas.deRegistro ⟨[], [], []⟩).ed.acepta vk.ed (buildPreimage vk.toBytes [1]) ed =
                true ∧
              (Esquemas.deRegistro ⟨[], [], []⟩).ml.acepta vk.ml (buildPreimage vk.toBytes [1])
                ml = true) := by
  generalize (⟨ajustar 32 [7], ajustar 32 [8]⟩ : SigningKey) = sk
  generalize Esquemas.deRegistro ⟨[], [], []⟩ = es
  have ht : minThreshold ≤ 2 := by decide
  obtain ⟨hcomparte, hcustodia⟩ := firmar_custodiado es etiquetaNula
  let css : List.Vector (Arr ((2 : UInt8).toNat - 1)) (sk.toBytes.length + Shamir.tagLen) :=
    List.Vector.replicate _ (List.Vector.replicate _ 1)
  let fuera := repartir ht (tagLen_lt_payload (toBytes_ne_nil sk))
    (payloadDe etiquetaNula sk.toBytes) css 3
  have hlen : fuera.reverse.length = 3 :=
    List.length_reverse.trans (List.length_pmap.trans (by decide))
  have hfirma : firmar (enMemoria es sk) [1] ⟨[], [], []⟩ = sk.sign es [1] ⟨[], [], []⟩ := by
    rw [firmar_enMemoria]
  obtain ⟨vk, ed, ml, _, _, _, _, _, hpartes, hiff⟩ :=
    hcustodia Firmas (enMemoria es sk) [1] _ ⟨[], [], []⟩ _ hfirma
  exact ⟨fuera.reverse, hlen, hcomparte sk 3 ht css _ [1] (List.reverse_perm fuera).subperm
    (hlen.ge.trans' (by decide)), vk, ed, ml, _, hpartes, hiff⟩

end Firmante

end Quipu
