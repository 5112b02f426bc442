import Quipu.BigEndian
import Quipu.Dleq
import Quipu.Kdf
import Mathlib.Algebra.Field.ZMod

namespace Quipu.Voprf

/-- The group of the suite with its encodings, SHA-512 and the maps from uniform bytes. -/
structure Suite (q : ℕ) (G : Type) [AddCommGroup G] [Module (ZMod q) G] where
  basepoint : G
  compress : G → Arr 32
  decompress : Arr 32 → Option G
  asBytes : ZMod q → Arr 32
  fromCanonicalBytes : Arr 32 → Option (ZMod q)
  sha512 : List UInt8 → Arr 64
  fromUniformBytes : Arr 64 → G
  fromBytesModOrderWide : Arr 64 → ZMod q
  basepoint_ne_zero : basepoint ≠ 0
  decompress_compress : ∀ x, decompress (compress x) = some x
  fromCanonicalBytes_asBytes : ∀ c, fromCanonicalBytes (asBytes c) = some c

def proofLen : Nat := 64

def contextString : List UInt8 := utf8 "OPRFV1-\x01-ristretto255-SHA512"

/-- Two bytes: the code truncates to `u16`. -/
def i2osp2 (n : Nat) : List UInt8 := be 2 n

def dstWith (label : String) : List UInt8 := utf8 label ++ contextString

theorem length_unir (a b : Arr 32) : (a.toList ++ b.toList).length = proofLen := by
  rw [List.length_append, a.toList_length, b.toList_length]
  rfl

theorem length_primera (p : Arr proofLen) : (p.toList.take 32).length = 32 := by
  rw [List.length_take, p.toList_length]
  rfl

theorem length_segunda (p : Arr proofLen) : (p.toList.drop 32).length = 32 := by
  rw [List.length_drop, p.toList_length]
  rfl

/-- A proof from its two halves, and its halves. -/
def unir (a b : Arr 32) : Arr proofLen := Arr.of (a.toList ++ b.toList) (length_unir a b)

def primera (p : Arr proofLen) : Arr 32 := Arr.of (p.toList.take 32) (length_primera p)

def segunda (p : Arr proofLen) : Arr 32 := Arr.of (p.toList.drop 32) (length_segunda p)

theorem primera_unir (a b : Arr 32) : primera (unir a b) = a :=
  Arr.ext (List.take_left' a.toList_length)

theorem segunda_unir (a b : Arr 32) : segunda (unir a b) = b :=
  Arr.ext (List.drop_left' a.toList_length)

variable {q : ℕ} {G : Type} [AddCommGroup G] [Module (ZMod q) G]

namespace Suite

variable (S : Suite q G) [Fact q.Prime]

/-- `expand_message_xmd` for 64 bytes; the labels of this crate are far below 255 bytes. -/
def expandMessageXmd64 (msg dst : List UInt8) : Arr 64 :=
  let dstPrime := dst ++ [UInt8.ofNat dst.length]
  let b₀ := S.sha512 (List.replicate 128 0 ++ msg ++ i2osp2 64 ++ [0] ++ dstPrime)
  S.sha512 (b₀.toList ++ [1] ++ dstPrime)

def hashToGroup (msg : List UInt8) : G :=
  S.fromUniformBytes (S.expandMessageXmd64 msg (dstWith "HashToGroup-"))

def hashToScalar (msg : List UInt8) : ZMod q :=
  S.fromBytesModOrderWide (S.expandMessageXmd64 msg (dstWith "HashToScalar-"))

def compositesSeed (pk : G) : Arr 64 :=
  let seedDst := dstWith "Seed-"
  S.sha512 (i2osp2 32 ++ (S.compress pk).toList ++ i2osp2 seedDst.length ++ seedDst)

def compositeScalar (seed : Arr 64) (i : Nat) (ci di : G) : ZMod q :=
  S.hashToScalar (i2osp2 64 ++ seed.toList ++ i2osp2 i ++ i2osp2 32 ++ (S.compress ci).toList ++
    i2osp2 32 ++ (S.compress di).toList ++ utf8 "Composite")

def computeCompositesM (pk : G) (c d : List G) : G :=
  let seed := S.compositesSeed pk
  (c.zip d).zipIdx.foldl (fun m p => m + S.compositeScalar seed p.2 p.1.1 p.1.2 • p.1.1) 0

def computeComposites (pk : G) (c d : List G) : G × G :=
  let seed := S.compositesSeed pk
  (c.zip d).zipIdx.foldl (fun mz p =>
    let diScalar := S.compositeScalar seed p.2 p.1.1 p.1.2
    (mz.1 + diScalar • p.1.1, mz.2 + diScalar • p.1.2)) (0, 0)

def challenge (pk m z t₂ t₃ : G) : ZMod q :=
  S.hashToScalar ([pk, m, z, t₂, t₃].flatMap (fun p => i2osp2 32 ++ (S.compress p).toList) ++
    utf8 "Challenge")

def publicKey (key : ZMod q) : Arr 32 := S.compress (key • S.basepoint)

def generateProof (key : ZMod q) (cElem dElem : G) (r : ZMod q) : Arr proofLen :=
  let pk := key • S.basepoint
  let m := S.computeCompositesM pk [cElem] [dElem]
  let z := key • m
  let t₂ := r • S.basepoint
  let t₃ := r • m
  let c := S.challenge pk m z t₂ t₃
  let s := r - c * key
  unir (S.asBytes c) (S.asBytes s)

/-- The client between `blind` and `finalize`. -/
structure BlindState (q : ℕ) (G : Type) where
  blind : ZMod q
  blinded : G

variable [DecidableEq G]

def blindEvaluateWithRandomness (key : ZMod q) (blinded : Arr 32) (r : ZMod q) :
    Option (Arr 32 × Arr proofLen) := do
  let b ← S.decompress blinded
  if b = 0 then none else
    let z := key • b
    some (S.compress z, S.generateProof key b z r)

def blindWith (input : List UInt8) (r : ZMod q) : Option (BlindState q G × Arr 32) :=
  let p := S.hashToGroup input
  if p = 0 then none else
    let blinded := r • p
    some (⟨r, blinded⟩, S.compress blinded)

/-- The commitments `t2` and `t3` are recomputed from the proof and compared by their challenge. -/
def verifyProof (pk cElem dElem : G) (proof : Arr proofLen) : Bool :=
  match S.fromCanonicalBytes (primera proof), S.fromCanonicalBytes (segunda proof) with
  | some c, some s =>
    let mz := S.computeComposites pk [cElem] [dElem]
    let t := Dleq.compromisos S.basepoint mz.1 pk mz.2 c s
    let expected := S.challenge pk mz.1 mz.2 t.1 t.2
    expected = c
  | _, _ => false

/-- `Hash` over the input and the unblinded element. -/
def salida (input : List UInt8) (unblinded : G) : Arr 64 :=
  S.sha512 (i2osp2 input.length ++ input ++ i2osp2 32 ++ (S.compress unblinded).toList ++
    utf8 "Finalize")

def finalize (input : List UInt8) (state : BlindState q G) (evaluated : Arr 32)
    (proof : Arr proofLen) (serverPub : Arr 32) : Option (Arr 64) := do
  let pk ← S.decompress serverPub
  let z ← S.decompress evaluated
  if z = 0 ∨ pk = 0 then none
  else if S.verifyProof pk state.blinded z proof = false then none
  else
    let n := state.blind⁻¹ • z
    some (S.salida input n)

end Suite

end Quipu.Voprf
