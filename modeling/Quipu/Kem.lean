import Quipu.Mundo

namespace Quipu

open Aleatorio

/-- X25519: the public value of a secret, and the secret that it shares with a public value. -/
structure Dh where
  publica : Arr 32 → Arr 32
  diffieHellman : Arr 32 → Arr 32 → Arr 32

/-- Whoever holds an ephemeral secret agrees with the holder of `sk`. -/
def Dh.Correcto (dh : Dh) (sk : Arr 32) : Prop :=
  ∀ eph, dh.diffieHellman eph (dh.publica sk) = dh.diffieHellman sk (dh.publica eph)

/-- ML-KEM-1024 with secret keys `D`: encapsulating takes 32 random bytes and gives a ciphertext
and a secret, and decapsulating never fails. -/
structure MlKem (D : Type) where
  encapsulationKey : D → Arr 1568
  encapsulate : Arr 1568 → Arr 32 → Arr 1568 × Arr 32
  decapsulate : D → Arr 1568 → Arr 32

def MlKem.Correcto {D : Type} (kem : MlKem D) (dk : D) : Prop :=
  ∀ azar, kem.decapsulate dk (kem.encapsulate (kem.encapsulationKey dk) azar).1 =
    (kem.encapsulate (kem.encapsulationKey dk) azar).2

/-- HKDF to a content key, from a salt, the key material and the context. -/
structure Hkdf (K : Type) where
  derivar : Option (List UInt8) → List UInt8 → List UInt8 → K

/-- Derivations with the salts that a channel uses do not collide. -/
structure Hkdf.Inyectiva {K : Type} (hkdf : Hkdf K) (Sal : Option (List UInt8) → Prop) :
    Prop where
  derivar : ∀ {s s' i i' c c'}, Sal s → Sal s' →
    hkdf.derivar s i c = hkdf.derivar s' i' c' → s = s' ∧ i = i' ∧ c = c'

/-- What the channels to a recipient call: ML-KEM, HKDF and the stream of ChaCha20 from a seed. -/
structure Canal (D K : Type) where
  kem : MlKem D
  hkdf : Hkdf K
  chacha : Arr 32 → Nat → UInt8

namespace Pqhybrid

variable {n : Nat} {D K : Type}

structure PublicKey where
  x : Arr 32
  ml : Arr 1568

structure SecretKey (D : Type) where
  x : Arr 32
  ml : D

def hkdfInfo : List UInt8 := utf8 "quipu/v2/hybrid-kem"

def x25519PubLen : Nat := 32

def mlkemCtLen : Nat := 1568

def encapsulationLen : Nat := x25519PubLen + mlkemCtLen

def buildTranscript (recipientXPub recipientEk encapsulation : List UInt8) : List UInt8 :=
  recipientXPub ++ recipientEk ++ encapsulation

variable (dh : Dh) (canal : Canal D K)

/-- The public key of the pair of a secret key. -/
def SecretKey.publica (sk : SecretKey D) : PublicKey :=
  ⟨dh.publica sk.x, canal.kem.encapsulationKey sk.ml⟩

def combine (xSs mlSs transcript : List UInt8) : K :=
  canal.hkdf.derivar none (xSs ++ mlSs) (hkdfInfo ++ transcript)

/-- The content key and the encapsulation that a seed of the generator gives. -/
def encapsulateDe (pk : PublicKey) (semilla : Arr 32) : K × List UInt8 :=
  let eph := tomar (canal.chacha semilla) 32
  let ephPub := dh.publica eph
  let xSs := dh.diffieHellman eph pk.x
  let ml := canal.kem.encapsulate pk.ml (tomar (fun i => canal.chacha semilla (32 + i)) 32)
  let encapsulation := ephPub.toList ++ ml.1.toList
  let transcript := buildTranscript pk.x.toList pk.ml.toList encapsulation
  (combine canal xSs.toList ml.2.toList transcript, encapsulation)

def encapsulate (pk : PublicKey) : Prog (Mundo n K) SinEntropia (K × List UInt8) := do
  let semilla ← pedir .error 32
  pure (encapsulateDe dh canal pk semilla)

def decapsulate (sk : SecretKey D) (encapsulation : List UInt8) : Option K :=
  if encapsulation.length ≠ encapsulationLen then none
  else
    let ephPub := ajustar 32 encapsulation
    let xSs := dh.diffieHellman sk.x ephPub
    let mlSs := canal.kem.decapsulate sk.ml (ajustar 1568 (encapsulation.drop 32))
    let recipientXPub := dh.publica sk.x
    let recipientEk := canal.kem.encapsulationKey sk.ml
    let transcript := buildTranscript recipientXPub.toList recipientEk.toList encapsulation
    some (combine canal xSs.toList mlSs.toList transcript)

variable {dh : Dh} {canal : Canal D K}

theorem encapsulate_of_ok {pk : PublicKey} {semilla : Arr 32} {m m' : Mundo n K}
    (h : (pedir .error 32 : Prog (Mundo n K) SinEntropia (Arr 32)) m = .ok semilla m') :
    encapsulate dh canal pk m = .ok (encapsulateDe dh canal pk semilla) m' := Prog.bind_of_ok h

theorem encapsulate_of_error {pk : PublicKey} {e : Fallo SinEntropia} {m m' : Mundo n K}
    (h : (pedir .error 32 : Prog (Mundo n K) SinEntropia (Arr 32)) m = .error e m') :
    encapsulate dh canal pk m = .error e m' := Prog.bind_of_error h

theorem length_encapsulateDe (dh : Dh) (canal : Canal D K) (pk : PublicKey)
    (semilla : Arr 32) :
    (encapsulateDe dh canal pk semilla).2.length = encapsulationLen := by
  simp only [encapsulateDe, List.length_append, List.Vector.toList_length]
  rfl

theorem ajustar_append {n : Nat} (a : Arr n) (b : List UInt8) : ajustar n (a.toList ++ b) = a := by
  apply Arr.ext
  have hl : n ≤ (a.toList ++ b).length := by simp
  rw [ajustar, Arr.toList_of, List.takeD_eq_take _ hl, List.take_left' a.toList_length]

theorem ajustar_toList {n : Nat} (a : Arr n) : ajustar n a.toList = a := by
  have h := ajustar_append a []
  rwa [List.append_nil] at h

/-- The holder of the secret key finds the content key that was made for its public key. -/
theorem decapsulate_encapsulateDe {sk : SecretKey D} (hdh : dh.Correcto sk.x)
    (hkem : canal.kem.Correcto sk.ml) (semilla : Arr 32) :
    decapsulate dh canal sk (encapsulateDe dh canal (sk.publica dh canal) semilla).2 =
      some (encapsulateDe dh canal (sk.publica dh canal) semilla).1 := by
  have hlen := length_encapsulateDe dh canal (sk.publica dh canal) semilla
  rw [decapsulate, if_neg (not_not.mpr hlen)]
  simp only [encapsulateDe, SecretKey.publica, ajustar_append]
  rw [List.drop_left' (List.Vector.toList_length _), ajustar_toList, hkem, hdh]

/-- A content key is bound to the full public key that it was made for. -/
theorem publica_of_decapsulate (hkdf : canal.hkdf.Inyectiva (· = none)) {sk : SecretKey D}
    {pk : PublicKey} {semilla : Arr 32}
    (h : decapsulate dh canal sk (encapsulateDe dh canal pk semilla).2 =
      some (encapsulateDe dh canal pk semilla).1) : pk = sk.publica dh canal := by
  have hlen := length_encapsulateDe dh canal pk semilla
  rw [decapsulate, if_neg (not_not.mpr hlen), Option.some.injEq] at h
  obtain ⟨-, -, hinfo⟩ := hkdf.derivar rfl rfl h
  have htranscript := List.append_cancel_left hinfo
  obtain ⟨hkeys, -⟩ := List.append_inj' htranscript rfl
  obtain ⟨hx, hml⟩ := List.append_inj hkeys (by simp)
  obtain ⟨x, ml⟩ := pk
  rw [SecretKey.publica, Arr.ext hx, Arr.ext hml]

end Pqhybrid

end Quipu
