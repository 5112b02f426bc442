import Quipu.Fallo

namespace Quipu

/-- An AEAD with keys `K` and nonces of `n` bytes: XChaCha20-Poly1305 or AES-256-GCM. -/
structure Aead (n : Nat) (K : Type) where
  sella : K → Arr n → List UInt8 → List UInt8 → List UInt8
  abre : K → Arr n → List UInt8 → List UInt8 → Option (List UInt8)

inductive CipherError where
  | decryptFailed
  deriving DecidableEq, Repr

variable {n : Nat} {K : Type}

def tagLen : Nat := 16

namespace Cipher

def encrypt (aead : Aead n K) (key : K) (nonce : Arr n) (plaintext aad : List UInt8) :
    List UInt8 :=
  aead.sella key nonce plaintext aad

def decrypt (aead : Aead n K) (key : K) (nonce : Arr n) (ciphertext aad : List UInt8) :
    Except CipherError (List UInt8) :=
  match aead.abre key nonce ciphertext aad with
  | some p => .ok p
  | none => .error .decryptFailed

end Cipher

structure Sello (n : Nat) (K : Type) where
  key : K
  nonce : Arr n
  aad : List UInt8
  plaintext : List UInt8
  ciphertext : List UInt8
  deriving DecidableEq

/-- Opening undoes sealing under the same key, nonce and associated data. -/
def Aead.Undoes (aead : Aead n K) : Prop :=
  ∀ k nonce p a, aead.abre k nonce (aead.sella k nonce p a) a = some p

def Aead.AddsTag (aead : Aead n K) : Prop :=
  ∀ k nonce p a, (aead.sella k nonce p a).length = p.length + tagLen

/-- Opening succeeds only on calls of `sella` that happened. -/
def Aead.OpensOnly (aead : Aead n K) (sellos : List (Sello n K)) : Prop :=
  ∀ k nonce c a p, aead.abre k nonce c a = some p → ⟨k, nonce, a, p, c⟩ ∈ sellos

/-- An ideal AEAD opens exactly the calls of `sella` that happened. -/
def Aead.Ideal (aead : Aead n K) (sellos : List (Sello n K)) : Prop :=
  ∀ k nonce c a p, aead.abre k nonce c a = some p ↔ ⟨k, nonce, a, p, c⟩ ∈ sellos

/-- What an ideal AEAD opens when one plaintext at most was sealed so. -/
theorem Aead.Ideal.abre_eq_ite {aead : Aead n K} {sellos : List (Sello n K)} (h : aead.Ideal sellos)
    {k : K} {nonce : Arr n} {c a claro : List UInt8} {P : Prop} [Decidable P]
    (hP : ∀ p, ⟨k, nonce, a, p, c⟩ ∈ sellos ↔ P ∧ p = claro) :
    aead.abre k nonce c a = if P then some claro else none := by
  refine Option.ext fun p => ?_
  rw [h, hP]
  split
  next hp => simp [hp, eq_comm]
  next hp => simp [hp]

theorem Cipher.decrypt_eq_ok {aead : Aead n K} {k : K} {nonce : Arr n} {c a p : List UInt8} :
    Cipher.decrypt aead k nonce c a = .ok p ↔ aead.abre k nonce c a = some p := by
  unfold Cipher.decrypt
  split
  next h => simp [h]
  next h => simp [h]

end Quipu
