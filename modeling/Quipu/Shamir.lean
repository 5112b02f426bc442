import Quipu.Aleatorio
import Quipu.Gf256

namespace Quipu

namespace Shamir

open Aleatorio

inductive ShamirError where
  | badParameters
  | emptySecret
  | notEnoughShares (needed got : Nat)
  | inconsistent
  | verificationFailed
  | malformed
  | sinEntropia (e : SinEntropia)
  deriving DecidableEq, Repr

def tagLen : Nat := 8

def minThreshold : UInt8 := 2

/-- A share as it leaves `split` or `from_bytes`; index 0 is where the secret lives. -/
structure Share where
  threshold : UInt8
  index : UInt8
  y : List UInt8
  umbral : minThreshold ≤ threshold
  indice : index ≠ 0
  largo : tagLen < y.length
  deriving DecidableEq

/-- Horner from the highest degree down, the byte of the payload last. -/
def evaluar (coeficientes : List UInt8) (byte x : UInt8) : UInt8 :=
  gfMul (coeficientes.reverse.foldl (fun acc c => gfMul acc x ^^^ c) 0) x ^^^ byte

def pedirCoeficientes (k : Nat) : Prog Cinta ShamirError (Arr k) := fun cinta =>
  match llenar (List.Vector.replicate k 0) cinta with
  | (.ok _, buf, cinta') => .ok buf cinta'
  | (.error e, _, cinta') => .error (.error (.sinEntropia e)) cinta'

/-- The draws of `split`, one vector of coefficients for each byte of the payload in turn. -/
def sortear (k : Nat) : (n : Nat) → Prog Cinta ShamirError (List.Vector (Arr k) n)
  | 0 => pure List.Vector.nil
  | n + 1 => do
    let c ← pedirCoeficientes k
    let cs ← sortear k n
    pure (c ::ᵥ cs)

theorem length_payload (secret : List UInt8) (tag : Arr tagLen) :
    (secret ++ tag.toList).length = secret.length + tagLen := by
  rw [List.length_append, tag.toList_length]

/-- The secret with its tag behind; the tag, 8 bytes of a SHA-256, is a parameter. -/
def payloadDe (etiqueta : List UInt8 → Arr tagLen) (secret : List UInt8) :
    Arr (secret.length + tagLen) :=
  Arr.of (secret ++ (etiqueta secret).toList) (length_payload secret _)

variable {k n : Nat}

/-- The bytes of the share with index `x`. -/
def valores (css : List.Vector (Arr k) n) (payload : Arr n) (x : UInt8) : List UInt8 :=
  List.zipWith (fun c byte => evaluar c.toList byte x) css.toList payload.toList

@[simp] theorem length_valores (css : List.Vector (Arr k) n) (payload : Arr n) (x : UInt8) :
    (valores css payload x).length = n := by
  rw [valores, List.length_zipWith, css.toList_length, payload.toList_length, Nat.min_self]

/-- The indices `1..=shares`. -/
def indices (shares : UInt8) : List UInt8 :=
  (List.range shares.toNat).map fun i => UInt8.ofNat (i + 1)

theorem ne_zero_of_mem_indices {shares x : UInt8} (h : x ∈ indices shares) : x ≠ 0 := by
  obtain ⟨i, hi, rfl⟩ := List.mem_map.mp h
  have hlt := shares.toNat_lt
  rw [List.mem_range] at hi
  intro h0
  have hn := congrArg UInt8.toNat h0
  rw [UInt8.toNat_ofNat', UInt8.toNat_zero, Nat.mod_eq_of_lt (by omega)] at hn
  omega

theorem tagLen_lt_valores (css : List.Vector (Arr k) n) (payload : Arr n) (hn : tagLen < n)
    (x : UInt8) : tagLen < (valores css payload x).length :=
  (length_valores css payload x).symm ▸ hn

/-- The share with index `x` of a payload, for given coefficients. -/
def comparticion {threshold : UInt8} (ht : minThreshold ≤ threshold) (hn : tagLen < n)
    (payload : Arr n) (css : List.Vector (Arr (threshold.toNat - 1)) n) (x : UInt8)
    (hx : x ≠ 0) : Share where
  threshold := threshold
  index := x
  y := valores css payload x
  umbral := ht
  indice := hx
  largo := tagLen_lt_valores css payload hn x

def repartir {threshold : UInt8} (ht : minThreshold ≤ threshold) (hn : tagLen < n)
    (payload : Arr n) (css : List.Vector (Arr (threshold.toNat - 1)) n) (shares : UInt8) :
    List Share :=
  (indices shares).pmap (comparticion ht hn payload css) (fun _ => ne_zero_of_mem_indices)

theorem umbral_of_parametros {threshold shares : UInt8}
    (h : ¬(threshold < minThreshold ∨ shares < threshold)) : minThreshold ≤ threshold :=
  UInt8.not_lt.mp fun hlt => h (Or.inl hlt)

theorem tagLen_lt_payload {secret : List UInt8} (h : secret ≠ []) :
    tagLen < secret.length + tagLen :=
  Nat.lt_add_of_pos_left (List.length_pos_iff.mpr h)

def split (etiqueta : List UInt8 → Arr tagLen) (secret : List UInt8) (threshold shares : UInt8) :
    Prog Cinta ShamirError (List Share) :=
  if hs : secret = [] then Prog.deRes (fallar .emptySecret)
  else if hp : threshold < minThreshold ∨ shares < threshold then
    Prog.deRes (fallar .badParameters)
  else do
    let css ← sortear (threshold.toNat - 1) (secret.length + tagLen)
    pure (repartir (umbral_of_parametros hp) (tagLen_lt_payload hs) (payloadDe etiqueta secret)
      css shares)

/-- The weight of share `i` at zero, `si` its index: the product of the other indices over the
product of the differences with them. -/
def lambdaDe (usadas : List Share) (i : Nat) (si : UInt8) : UInt8 :=
  let nd := usadas.zipIdx.foldl (fun nd p =>
    if i = p.2 then nd else (gfMul nd.1 p.1.index, gfMul nd.2 (si ^^^ p.1.index))) (1, 1)
  gfMul nd.1 (gfInv nd.2)

def lambdasDe (usadas : List Share) : List UInt8 :=
  usadas.zipIdx.map fun p => lambdaDe usadas p.2 p.1.index

def recuperar (usadas : List Share) (largo : Nat) : List UInt8 :=
  (List.range largo).map fun pos =>
    usadas.zipIdx.foldl (fun acc p => acc ^^^ gfMul (p.1.y.getD pos 0)
      ((lambdasDe usadas).getD p.2 0)) 0

/-- The search for a later share with the index of an earlier one. -/
def hayRepetidos : List Share → Bool
  | [] => false
  | a :: resto => resto.any (fun b => b.index == a.index) || hayRepetidos resto

/-- The part of `combine` that checks its shares against the first of them. -/
def comprobar : List Share → Res ShamirError Share
  | [] => fallar (.notEnoughShares minThreshold.toNat 0)
  | primera :: resto => do
    let shares := primera :: resto
    let needed := primera.threshold.toNat
    rechazarSi (shares.length < needed) (.notEnoughShares needed shares.length)
    rechazarSi (shares.any fun s => s.threshold != primera.threshold ||
      s.y.length != primera.y.length || s.index == 0) .inconsistent
    rechazarSi (hayRepetidos shares) .inconsistent
    pure primera

def combine (etiqueta : List UInt8 → Arr tagLen) (shares : List Share) :
    Res ShamirError (List UInt8) := do
  let primera ← comprobar shares
  let recuperado := recuperar (shares.take primera.threshold.toNat) primera.y.length
  let corte := recuperado.length - tagLen
  let secreto := recuperado.take corte
  rechazarSi ((etiqueta secreto).toList ≠ recuperado.drop corte) .verificationFailed
  pure secreto

end Shamir

end Quipu
