import Quipu.Aleatorio
import Quipu.Cegado
import Quipu.VoprfProof
import Mathlib.Data.ZMod.Basic

namespace Quipu.Voprf.Suite

open Aleatorio Cegado

variable {q : ℕ} {G : Type} [AddCommGroup G] [Module (ZMod q) G] [Fact q.Prime]
  (S : Suite q G)

def hashToScalarDst (msg dst : List UInt8) : ZMod q :=
  S.fromBytesModOrderWide (S.expandMessageXmd64 msg dst)

/-- The attempt `counter` of `derive_key_pair`. -/
def intentoDeClave (seed info : List UInt8) (counter : Nat) : ZMod q :=
  S.hashToScalarDst (seed ++ i2osp2 info.length ++ info ++ [UInt8.ofNat counter])
    (dstWith "DeriveKeyPair")

def deriveKeyPair (seed info : List UInt8) : Option (ZMod q) :=
  (List.range 256).findSome? fun counter =>
    let sk := S.intentoDeClave seed info counter
    if sk ≠ 0 then some sk else none

def randomScalar : Prog Cinta Empty (ZMod q) := fun cinta =>
  match fill (List.Vector.replicate 64 0) cinta with
  | (.ok _, b, cinta') => .ok (S.fromBytesModOrderWide b) cinta'
  | (.error _, _, cinta') => .error (.panico "RNG del sistema") cinta'

def BlindState.toBytes (state : BlindState q G) : Arr 64 :=
  unir (S.asBytes state.blind) (S.compress state.blinded)

def BlindState.fromBytes (b : Arr 64) : Option (BlindState q G) := do
  let blind ← S.fromCanonicalBytes (primera b)
  let blinded ← S.decompress (segunda b)
  pure ⟨blind, blinded⟩

section Red

variable [DecidableEq G]

def blind (input : List UInt8) : Prog Cinta Empty (Option (BlindState q G × Arr 32)) :=
  let p := S.hashToGroup input
  if p = 0 then pure none else do
    let r ← S.randomScalar
    let blinded := r • p
    pure (some (⟨r, blinded⟩, S.compress blinded))

def blindEvaluate (key : ZMod q) (blinded : Arr 32) :
    Prog Cinta Empty (Option (Arr 32 × Arr proofLen)) :=
  match S.decompress blinded with
  | none => pure none
  | some b =>
    if b = 0 then pure none else do
      let z := key • b
      let r ← S.randomScalar
      pure (some (S.compress z, S.generateProof key b z r))

end Red

/-- A search over `0..n` finds what the first index with an answer gives. -/
theorem findSome?_range {α : Type*} {f : ℕ → Option α} {a : α} {n : ℕ} :
    (List.range n).findSome? f = some a ↔ ∃ i < n, f i = some a ∧ ∀ j < i, f j = none := by
  induction n with
  | zero => simp
  | succ n ih =>
    rw [List.range_succ, List.findSome?_append, Option.or_eq_some_iff, ih,
      List.findSome?_eq_none_iff, List.findSome?_singleton]
    refine ⟨?_, ?_⟩
    · rintro (⟨i, hi, h⟩ | ⟨hprevios, h⟩)
      · exact ⟨i, Nat.lt_succ_of_lt hi, h⟩
      · exact ⟨n, n.lt_succ_self, h, fun j hj => hprevios j (List.mem_range.mpr hj)⟩
    · rintro ⟨i, hi, h, hprevios⟩
      rcases Nat.lt_succ_iff_lt_or_eq.mp hi with hi | rfl
      · exact Or.inl ⟨i, hi, h, hprevios⟩
      · exact Or.inr ⟨fun j hj => hprevios j (List.mem_range.mp hj), h⟩

/-- The key is the first attempt that is not zero. -/
theorem deriveKeyPair_eq_some {seed info : List UInt8} {k : ZMod q} :
    S.deriveKeyPair seed info = some k ↔ k ≠ 0 ∧ ∃ counter < 256,
      S.intentoDeClave seed info counter = k ∧
        ∀ j < counter, S.intentoDeClave seed info j = 0 := by
  unfold deriveKeyPair
  rw [findSome?_range]
  refine ⟨?_, ?_⟩
  · rintro ⟨counter, hc, h, hprevios⟩
    obtain ⟨h₀, h⟩ := Option.ite_none_right_eq_some.mp h
    refine ⟨?_, counter, hc, Option.some.inj h, fun j hj => ?_⟩
    · exact Option.some.inj h ▸ h₀
    · have := hprevios j hj
      simpa using this
  · rintro ⟨h₀, counter, hc, rfl, hprevios⟩
    exact ⟨counter, hc, if_pos h₀, fun j hj => if_neg (not_not.mpr (hprevios j hj))⟩

omit [Fact q.Prime] in
theorem BlindState.fromBytes_toBytes (state : BlindState q G) :
    BlindState.fromBytes S (BlindState.toBytes S state) = some state := by
  unfold fromBytes toBytes
  rw [primera_unir, segunda_unir, S.fromCanonicalBytes_asBytes, S.decompress_compress]
  rfl

omit [Fact q.Prime] in
theorem compress_inj {a b : G} (h : S.compress a = S.compress b) : a = b := by
  have hd := congrArg S.decompress h
  rw [S.decompress_compress, S.decompress_compress] at hd
  exact Option.some.inj hd

section Evaluar

variable [DecidableEq G] {key : ZMod q} {blinded : Arr 32}

/-- The server draws the randomness of the proof once it has accepted the element. -/
theorem blindEvaluate_cases (key : ZMod q) (blinded : Arr 32) :
    S.blindEvaluate key blinded = pure none ∧
        (∀ r, S.blindEvaluateWithRandomness key blinded r = none) ∨
      S.blindEvaluate key blinded =
        S.randomScalar >>= fun r => pure (S.blindEvaluateWithRandomness key blinded r) := by
  unfold blindEvaluate blindEvaluateWithRandomness
  cases S.decompress blinded with
  | none => exact .inl ⟨rfl, fun _ => rfl⟩
  | some b =>
    by_cases hb : b = 0
    · exact .inl ⟨if_pos hb, fun _ => if_pos hb⟩
    · simp only [Option.bind_eq_bind, Option.bind_some, if_neg hb]
      exact .inr trivial

theorem blindEvaluate_ok {c c' : Cinta} {result : Option (Arr 32 × Arr proofLen)}
    (h : S.blindEvaluate key blinded c = .ok result c') :
    ∃ r, result = S.blindEvaluateWithRandomness key blinded r := by
  rcases S.blindEvaluate_cases key blinded with ⟨he, hnone⟩ | he
  · rw [he] at h
    cases h
    exact ⟨0, (hnone 0).symm⟩
  · rw [he] at h
    obtain ⟨r, c₁, _, h⟩ := Prog.bind_ok.mp h
    cases h
    exact ⟨r, rfl⟩

theorem exists_blindEvaluate {c c' : Cinta} {r : ZMod q} (h : S.randomScalar c = .ok r c')
    (key : ZMod q) (blinded : Arr 32) :
    ∃ result c₁, S.blindEvaluate key blinded c = .ok result c₁ := by
  rcases S.blindEvaluate_cases key blinded with ⟨he, _⟩ | he
  · exact ⟨_, _, by rw [he]; rfl⟩
  · exact ⟨_, _, by rw [he, Prog.bind_of_ok h]; rfl⟩

/-- The client draws its blind once it has an element to blind. -/
theorem blind_eq_ok {input : List UInt8} {c c' : Cinta} {state : BlindState q G}
    {blinded : Arr 32} :
    S.blind input c = .ok (some (state, blinded)) c' ↔ S.hashToGroup input ≠ 0 ∧
      ∃ r, S.randomScalar c = .ok r c' ∧ S.blindWith input r = some (state, blinded) := by
  unfold blind blindWith
  by_cases hp : S.hashToGroup input = 0
  · simp only [if_pos hp]
    refine iff_of_false ?_ fun h => h.1 hp
    intro h
    cases h
  · simp only [if_neg hp, Prog.bind_ok]
    refine ⟨?_, ?_⟩
    · rintro ⟨r, c₁, h, hs⟩
      cases hs
      exact ⟨hp, r, h, rfl⟩
    · rintro ⟨-, r, h, hs⟩
      cases hs
      exact ⟨r, c', h, rfl⟩

end Evaluar

section Oculta

variable {S} [DecidableEq G] {x y : List UInt8}

/-- The message that the client sends. -/
def mensaje (S : Suite q G) (input : List UInt8) (r : ZMod q) : Option (Arr 32) :=
  (S.blindWith input r).map Prod.snd

theorem mensaje_eq (hx : S.hashToGroup x ≠ 0) (r : ZMod q) :
    S.mensaje x r = some (S.compress (r • S.hashToGroup x)) := by
  rw [mensaje, blindWith_eq_some hx, Option.map_some]

theorem mensaje_eq_mensaje (hx : S.hashToGroup x ≠ 0) (hy : S.hashToGroup y ≠ 0) {r r' : ZMod q} :
    S.mensaje y r' = S.mensaje x r ↔ r' • S.hashToGroup y = r • S.hashToGroup x := by
  rw [mensaje_eq hx, mensaje_eq hy, Option.some.injEq]
  exact ⟨S.compress_inj, congrArg S.compress⟩

/-- The law of the message that a uniform blind gives is one for all inputs. -/
theorem map_mensaje (hB : Genera (ZMod q) S.basepoint) (hx : S.hashToGroup x ≠ 0)
    (hy : S.hashToGroup y ≠ 0) :
    (PMF.uniformOfFintype (ZMod q)).map (S.mensaje x) =
      (PMF.uniformOfFintype (ZMod q)).map (S.mensaje y) := by
  have hmap : ∀ {z}, S.hashToGroup z ≠ 0 → (PMF.uniformOfFintype (ZMod q)).map (S.mensaje z) =
      ((PMF.uniformOfFintype (ZMod q)).map fun r => r • S.hashToGroup z).map
        fun p => some (S.compress p) := by
    intro z hz
    rw [PMF.map_comp, funext (mensaje_eq hz)]
    rfl
  rw [hmap hx, hmap hy, hB.map_cegado hx hy]

/-- What the client makes of the reply to its message, whatever nonzero blind it sent. -/
theorem finalize_cegado {r : ZMod q} {b : G} (hr : r ≠ 0) (hb : b = r • S.hashToGroup x)
    (hx : S.hashToGroup x ≠ 0) {key : ZMod q} (hkey : key ≠ 0) (t : ZMod q) :
    S.finalize x ⟨r, b⟩ (S.compress (key • b)) (S.generateProof key b (key • b) t)
      (S.publicKey key) = some (S.salida x (key • S.hashToGroup x)) := by
  have hb₀ : b ≠ 0 := hb ▸ smul_ne_zero hr hx
  refine finalize_eq_some.mpr ⟨key • S.basepoint, key • b, S.decompress_compress _,
    S.decompress_compress _, smul_ne_zero hkey hb₀, smul_ne_zero hkey S.basepoint_ne_zero,
    S.verifyProof_generateProof key b t, ?_⟩
  rw [hb, smul_comm key r, inv_smul_smul₀ hr]

end Oculta

/-- The exchange tells the server nothing of the input: a uniform blind gives every input the
same message, and what the server saw with one input it could have seen with any other, under
one blind, with the reply good for both. -/
theorem blind_oculta [DecidableEq G] (S : Suite q G) (hB : Genera (ZMod q) S.basepoint)
    (x y : List UInt8) (hx : S.hashToGroup x ≠ 0) (hy : S.hashToGroup y ≠ 0) :
    (PMF.uniformOfFintype (ZMod q)).map (S.mensaje x) =
        (PMF.uniformOfFintype (ZMod q)).map (S.mensaje y) ∧
      ∀ r ≠ 0, ∃ r' ≠ 0, (∀ r'', S.mensaje y r'' = S.mensaje x r ↔ r'' = r') ∧
        ∀ key ≠ 0, ∀ t, ∃ state state' blinded evaluated proof,
          S.blindWith x r = some (state, blinded) ∧ S.blindWith y r' = some (state', blinded) ∧
          S.blindEvaluateWithRandomness key blinded t = some (evaluated, proof) ∧
          S.finalize x state evaluated proof (S.publicKey key) =
            some (S.salida x (key • S.hashToGroup x)) ∧
          S.finalize y state' evaluated proof (S.publicKey key) =
            some (S.salida y (key • S.hashToGroup y)) := by
  refine ⟨map_mensaje hB hx hy, fun r hr => ?_⟩
  have hb : r • S.hashToGroup x ≠ 0 := smul_ne_zero hr hx
  obtain ⟨r', ⟨hr', heq⟩, hunico⟩ := hB.existsUnique hy hb
  refine ⟨r', hr', fun r'' => ?_, fun key hkey t => ?_⟩
  · rw [mensaje_eq_mensaje hx hy]
    refine ⟨fun h => hunico r'' ⟨?_, h⟩, fun h => h ▸ heq⟩
    rintro rfl
    exact hb (by rw [← h, zero_smul])
  · refine ⟨_, _, _, _, _, blindWith_eq_some hx r, ?_, blindEvaluate_compress hb key t,
      finalize_cegado hr rfl hx hkey t, finalize_cegado hr' heq.symm hy hkey t⟩
    rw [blindWith_eq_some hy, heq]

/-- The same group and encodings with another hash to it. -/
def conHash (S : Suite q G) (sha512 : List UInt8 → Arr 64) (fromUniformBytes : Arr 64 → G) :
    Suite q G :=
  { S with
    sha512 := sha512
    fromUniformBytes := fromUniformBytes }

/-- Over three points, with a hash that adds up bytes, so that inputs have different points. -/
def deTresSuma : Suite 3 (ZMod 3) :=
  deTres.conHash (fun b => ajustar 64 [b.sum]) fun a => (a.head.toNat : ZMod 3)

theorem blind_oculta_tres :
    (deTresSuma.hashToGroup [6] = 1 ∧ deTresSuma.hashToGroup [7] = 2) ∧
      (∀ X : ZMod 3, ∃ k : ZMod 3, k • deTresSuma.basepoint = X) ∧
      (PMF.uniformOfFintype (ZMod 3)).map (deTresSuma.mensaje [6]) =
        (PMF.uniformOfFintype (ZMod 3)).map (deTresSuma.mensaje [7]) ∧
      ∃ r' ≠ 0, ∀ r'', deTresSuma.mensaje [7] r'' = deTresSuma.mensaje [6] 1 ↔ r'' = r' := by
  have h₆ : deTresSuma.hashToGroup [6] = 1 := by decide +kernel
  have h₇ : deTresSuma.hashToGroup [7] = 2 := by decide +kernel
  have hB : Genera (ZMod 3) deTresSuma.basepoint := by
    unfold Genera
    decide
  obtain ⟨hmap, hmensaje⟩ := blind_oculta deTresSuma hB [6] [7] (by rw [h₆]; decide)
    (by rw [h₇]; decide)
  obtain ⟨r', hr', hunico, _⟩ := hmensaje 1 one_ne_zero
  exact ⟨⟨h₆, h₇⟩, hB, hmap, r', hr', hunico⟩

end Quipu.Voprf.Suite
