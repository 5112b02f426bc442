import Quipu.VoprfProof
import Quipu.Aleatorio

namespace Quipu.Oprf

open Voprf Aleatorio

variable {q : ℕ} {G : Type} [AddCommGroup G] [Module (ZMod q) G] (S : Suite q G)

def oprfDomain : List UInt8 := utf8 "quipu/v2/oprf"

def randomScalar : Prog Cinta Empty (ZMod q) := fun cinta =>
  match llenar (List.Vector.replicate 64 0) cinta with
  | (.ok _, b, cinta') => .ok (S.fromBytesModOrderWide b) cinta'
  | (.error _, _, cinta') => .error (.panico "RNG del sistema") cinta'

/-- The key of the server and the evaluations that are left. -/
structure Server (q : ℕ) where
  key : ZMod q
  remaining : UInt32

structure BlindState (q : ℕ) where
  rInv : ZMod q

namespace Server

def new (maxRequests : UInt32) : Prog Cinta Empty (Server q) := do
  let key ← randomScalar S
  pure ⟨key, maxRequests⟩

def fromSeed (seed : Arr 32) (maxRequests : UInt32) : Server q :=
  ⟨S.fromBytesModOrderWide (S.sha512 (utf8 "quipu/v2/oprf-server-key" ++ seed.toList)),
    maxRequests⟩

def evaluateRaw (server : Server q) (blinded : Arr 32) : Option (Arr 32) :=
  (S.decompress blinded).map fun point => S.compress (server.key • point)

/-- A call of `evaluate`, with the server that it leaves. -/
def evaluate (server : Server q) (blinded : Arr 32) : Option (Arr 32) × Server q :=
  if server.remaining = 0 then (none, server)
  else match evaluateRaw S server blinded with
    | none => (none, server)
    | some out => (some out, { server with remaining := server.remaining - 1 })

/-- The answers to a list of requests, in their order. -/
def correr (server : Server q) : List (Arr 32) → List (Option (Arr 32)) × Server q
  | [] => ([], server)
  | blinded :: resto =>
    let r := evaluate S server blinded
    let rs := correr r.2 resto
    (r.1 :: rs.1, rs.2)

end Server

/-- `RistrettoPoint::hash_from_bytes::<Sha512>`. -/
def hashFromBytes (password : List UInt8) : G := S.fromUniformBytes (S.sha512 password)

/-- The inverse of a zero scalar is zero. -/
def blind (password : List UInt8) : Prog Cinta Empty (BlindState q × Arr 32) := do
  let h := hashFromBytes S password
  let r ← randomScalar S
  let blinded := r • h
  pure (⟨r⁻¹⟩, S.compress blinded)

def resumen (sha256 : List UInt8 → Arr 32) (password : List UInt8) (unblinded : G) : Arr 32 :=
  sha256 (oprfDomain ++ be 8 password.length ++ password ++ (S.compress unblinded).toList)

def finalize (sha256 : List UInt8 → Arr 32) (password : List UInt8) (state : BlindState q)
    (evaluated : Arr 32) : Option (Arr 32) :=
  (S.decompress evaluated).map fun ev => resumen S sha256 password (state.rInv • ev)

/-- The secret that a key hardens a password to. -/
def prf (sha256 : List UInt8 → Arr 32) (key : ZMod q) (password : List UInt8) : Arr 32 :=
  resumen S sha256 password (key • hashFromBytes S password)

/-- Whether the bytes of a request are a point. -/
def esPunto (blinded : Arr 32) : Bool := (S.decompress blinded).isSome

namespace Server

variable {S}

theorem isSome_evaluateRaw (server : Server q) (blinded : Arr 32) :
    (evaluateRaw S server blinded).isSome = esPunto S blinded := by
  rw [evaluateRaw, Option.isSome_map, esPunto]

theorem evaluate_agotado {server : Server q} (h : server.remaining.toNat = 0) (blinded : Arr 32) :
    evaluate S server blinded = (none, server) :=
  if_pos (UInt32.toNat_inj.mp h)

theorem evaluate_invalido (server : Server q) {blinded : Arr 32} (hb : ¬esPunto S blinded = true) :
    evaluate S server blinded = (none, server) := by
  have hnone : evaluateRaw S server blinded = none := by
    rw [← isSome_evaluateRaw server] at hb
    exact Option.not_isSome_iff_eq_none.mp hb
  unfold evaluate
  split
  next => rfl
  next => rw [hnone]

/-- A point within the budget is evaluated, and takes one of it. -/
theorem evaluate_punto {server : Server q} {blinded : Arr 32} (h : 0 < server.remaining.toNat)
    (hb : esPunto S blinded = true) : ∃ s' : Server q,
      evaluate S server blinded = (evaluateRaw S server blinded, s') ∧ s'.key = server.key ∧
        s'.remaining.toNat + 1 = server.remaining.toNat := by
  rw [← isSome_evaluateRaw server] at hb
  obtain ⟨out, hout⟩ := Option.isSome_iff_exists.mp hb
  have hne : server.remaining ≠ 0 := by
    intro h0
    rw [h0] at h
    exact absurd h (by decide)
  refine ⟨{ server with remaining := server.remaining - 1 }, ?_, rfl, ?_⟩
  · rw [evaluate, if_neg hne, hout]
  · have huno : (1 : UInt32).toNat = 1 := rfl
    rw [UInt32.toNat_sub_of_le _ _ (UInt32.le_iff_toNat_le.mpr (by rw [huno]; omega)), huno]
    omega

theorem evaluateRaw_key {s s' : Server q} (h : s.key = s'.key) (blinded : Arr 32) :
    evaluateRaw S s blinded = evaluateRaw S s' blinded := by
  rw [evaluateRaw, evaluateRaw, h]

/-- A request is refused and nothing changes, or it is a point within the budget. -/
theorem evaluate_cases (S : Suite q G) (server : Server q) (blinded : Arr 32) :
    (evaluate S server blinded = (none, server) ∧
        (esPunto S blinded = false ∨ server.remaining.toNat = 0)) ∨
      ∃ s' : Server q, evaluate S server blinded = (evaluateRaw S server blinded, s') ∧
        esPunto S blinded = true ∧ s'.key = server.key ∧
        s'.remaining.toNat + 1 = server.remaining.toNat := by
  by_cases hp : esPunto S blinded = true
  · rcases Nat.eq_zero_or_pos server.remaining.toNat with h0 | hpos
    · exact .inl ⟨evaluate_agotado h0 blinded, .inr h0⟩
    · obtain ⟨s', he, hk, hr⟩ := evaluate_punto hpos hp
      exact .inr ⟨s', he, hp, hk, hr⟩
  · exact .inl ⟨evaluate_invalido server hp, .inl (Bool.eq_false_iff.mpr hp)⟩

theorem correr_key (server : Server q) (requests : List (Arr 32)) :
    (correr S server requests).2.key = server.key := by
  induction requests generalizing server with
  | nil => rfl
  | cons b bs ih =>
    refine (ih (evaluate S server b).2).trans ?_
    rcases evaluate_cases S server b with ⟨he, _⟩ | ⟨s', he, _, hk, _⟩
    · rw [he]
    · rw [he]
      exact hk

/-- What was granted and what is left is the budget. -/
theorem correr_presupuesto (server : Server q) (requests : List (Arr 32)) :
    (correr S server requests).1.countP Option.isSome +
      (correr S server requests).2.remaining.toNat = server.remaining.toNat := by
  induction requests generalizing server with
  | nil => exact Nat.zero_add _
  | cons b bs ih =>
    rw [correr]
    simp only [List.countP_cons]
    rcases evaluate_cases S server b with ⟨he, _⟩ | ⟨s', he, hp, _, hr⟩
    · rw [he]
      exact ih server
    · have hi := ih s'
      rw [← isSome_evaluateRaw server] at hp
      rw [he]
      simp only [hp, if_true]
      omega

theorem correr_concedidas (server : Server q) (requests : List (Arr 32)) :
    (correr S server requests).1.countP Option.isSome =
      min server.remaining.toNat (requests.countP (esPunto S)) := by
  induction requests generalizing server with
  | nil => exact (Nat.min_zero _).symm
  | cons b bs ih =>
    rw [correr]
    simp only [List.countP_cons]
    rcases evaluate_cases S server b with ⟨he, hp | h0⟩ | ⟨s', he, hp, _, hr⟩
    · have hi := ih server
      rw [he]
      simpa [hp] using hi
    · have hi := ih server
      rw [he]
      rw [h0, Nat.zero_min] at hi ⊢
      simpa using hi
    · have hi := ih s'
      have hsome := (isSome_evaluateRaw (S := S) server b).trans hp
      rw [he]
      simp only [hp, hsome, if_true]
      omega

/-- The answer to a request hangs on the points before it alone. -/
theorem correr_respuesta (server : Server q) {requests : List (Arr 32)} {i : Nat} {blinded : Arr 32}
    (h : requests[i]? = some blinded) : (correr S server requests).1[i]? =
      some (if (requests.take i).countP (esPunto S) < server.remaining.toNat then
        evaluateRaw S server blinded else none) := by
  induction requests generalizing server i with
  | nil => simp at h
  | cons b bs ih =>
    rw [correr]
    cases i with
    | zero =>
      obtain rfl : b = blinded := Option.some.inj h
      rw [List.getElem?_cons_zero, List.take_zero, List.countP_nil]
      rcases evaluate_cases S server b with ⟨he, hp | h0⟩ | ⟨s', he, _, _, hr⟩
      · have hnone : evaluateRaw S server b = none := by
          rw [← isSome_evaluateRaw server] at hp
          exact Option.not_isSome_iff_eq_none.mp (Bool.eq_false_iff.mp hp)
        rw [he, hnone, ite_self]
      · rw [he, if_neg (by omega)]
      · rw [he, if_pos (by omega)]
    | succ i =>
      rw [List.getElem?_cons_succ, List.take_succ_cons, List.countP_cons]
      rw [List.getElem?_cons_succ] at h
      rcases evaluate_cases S server b with ⟨he, hp | h0⟩ | ⟨s', he, hp, hk, hr⟩
      · rw [he, hp]
        exact ih server h
      · have hi := ih server h
        rw [he]
        refine hi.trans ?_
        rw [if_neg (by omega), if_neg (by omega)]
      · have hi := ih s' h
        rw [he]
        refine hi.trans ?_
        rw [evaluateRaw_key hk, if_pos hp]
        refine congrArg some (if_congr ?_ rfl rfl)
        omega

end Server

section Cliente

variable [Fact q.Prime] {S} {password : List UInt8}
  {cinta cinta' : Cinta} {state : BlindState q} {blinded : Arr 32}

theorem blind_ok (h : blind S password cinta = .ok (state, blinded) cinta') :
    blinded = S.compress (state.rInv⁻¹ • hashFromBytes S password) := by
  obtain ⟨r, _, _, h⟩ := Prog.bind_ok.mp h
  cases h
  rw [inv_inv]

/-- A zero blind hides the key from its own client: the secret is that of the key zero. -/
theorem finalize_evaluateRaw (sha256 : List UInt8 → Arr 32)
    (h : blind S password cinta = .ok (state, blinded) cinta')
    (server : Server q) : ∃ ev, server.evaluateRaw S blinded = some ev ∧
      finalize S sha256 password state ev =
        some (prf S sha256 (if state.rInv = 0 then 0 else server.key) password) := by
  rw [blind_ok h, Server.evaluateRaw, S.decompress_compress]
  refine ⟨_, rfl, ?_⟩
  rw [finalize, S.decompress_compress, Option.map_some, prf]
  split
  next h0 => rw [h0, zero_smul, zero_smul]
  next hne =>
    rw [smul_comm server.key, smul_smul, mul_inv_cancel₀ hne, one_smul]

end Cliente

/-- A budget of `n` answers the first `n` points, whoever sends them, and hardens the password of
each client among them to the secret of the key; bytes that are no point take nothing of it. -/
theorem oprf_exacto [Fact q.Prime] (sha256 : List UInt8 → Arr 32) (server : Server q)
    (requests : List (Arr 32)) :
    (server.correr S requests).2.key = server.key ∧
      (server.correr S requests).1.countP Option.isSome +
        (server.correr S requests).2.remaining.toNat = server.remaining.toNat ∧
      (server.correr S requests).1.countP Option.isSome =
        min server.remaining.toNat (requests.countP (esPunto S)) ∧
      ∀ i password cinta cinta' state blinded, requests[i]? = some blinded ∧
          blind S password cinta = .ok (state, blinded) cinta' →
        (server.correr S requests).1[i]? = some none ∧
            server.remaining.toNat ≤ (requests.take i).countP (esPunto S) ∨
          ∃ ev, (server.correr S requests).1[i]? = some (some ev) ∧
            (requests.take i).countP (esPunto S) < server.remaining.toNat ∧
            finalize S sha256 password state ev =
              some (prf S sha256 (if state.rInv = 0 then 0 else server.key) password) := by
  refine ⟨Server.correr_key server requests, Server.correr_presupuesto server requests,
    Server.correr_concedidas server requests, ?_⟩
  rintro i password cinta cinta' state blinded ⟨hi, hb⟩
  have hr := Server.correr_respuesta (S := S) server hi
  split at hr
  next hlt =>
    obtain ⟨ev, hev, hfin⟩ := finalize_evaluateRaw sha256 hb server
    exact .inr ⟨ev, hr.trans (congrArg some hev), hlt, hfin⟩
  next hge => exact .inl ⟨hr, Nat.le_of_not_lt hge⟩

/-- A tape that gives the blind 1. -/
def cintaDesdeUno : Cinta := Stream'.const (.entrega fun i => UInt8.ofNat (i + 1))

theorem randomScalar_desdeUno :
    randomScalar Suite.deTres cintaDesdeUno = .ok 1 cintaDesdeUno := rfl

theorem blind_tres : blind Suite.deTres [7] cintaDesdeUno =
    .ok (⟨1⟩, Suite.deTres.compress 1) cintaDesdeUno := by
  rw [blind, Prog.bind_of_ok randomScalar_desdeUno, inv_one, one_smul]
  rfl

theorem oprf_exacto_tres : ∃ ev,
    (Server.correr Suite.deTres ⟨2, 1⟩ [Suite.deTres.compress 1, Suite.deTres.compress 1]).1[0]? =
        some (some ev) ∧
      finalize Suite.deTres (ajustar 32) [7] ⟨1⟩ ev =
        some (prf Suite.deTres (ajustar 32) 2 [7]) := by
  obtain ⟨_, _, _, hsirve⟩ := oprf_exacto Suite.deTres (ajustar 32) ⟨2, 1⟩
    [Suite.deTres.compress 1, Suite.deTres.compress 1]
  rcases hsirve 0 [7] _ _ _ _ ⟨rfl, blind_tres⟩ with ⟨_, hno⟩ | ⟨ev, hev, _, hfin⟩
  · exact absurd hno (by decide)
  · exact ⟨ev, hev, hfin⟩

end Quipu.Oprf
