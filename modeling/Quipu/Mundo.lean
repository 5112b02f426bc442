import Quipu.Kdf
import Quipu.Cipher
import Quipu.Aleatorio

namespace Quipu

open Aleatorio

/-- What the writers draw from and leave behind: the tape of the random source and, as ghost
records, the calls of Argon2id and of the AEAD. -/
structure Mundo (n : Nat) (K : Type) where
  cinta : Cinta
  derivaciones : List (Arr 16 × KdfParams)
  sellos : List (Sello n K)

variable {n : Nat} {M K ε : Type}

def pedir (alFallar : SinEntropia → Fallo ε) (k : Nat) : Prog (Mundo n K) ε (Arr k) := fun m =>
  match llenar (List.Vector.replicate k 0) m.cinta with
  | (.ok _, buf, cinta) => .ok buf { m with cinta := cinta }
  | (.error e, _, cinta) => .error (alFallar e) { m with cinta := cinta }

/-- The calls of `llenar` followed by `expect`. -/
def pedirRng (k : Nat) : Prog (Mundo n K) ε (Arr k) := pedir (fun _ => .panico "RNG del sistema") k

/-- Asks the source for `k` bytes through `getrandom::fill` itself. -/
def pedirFill (alFallar : ε) (k : Nat) : Prog (Mundo n K) ε (Arr k) := fun m =>
  match fill (List.Vector.replicate k 0) m.cinta with
  | (.ok _, buf, cinta) => .ok buf { m with cinta := cinta }
  | (.error _, _, cinta) => .error (.error alFallar) { m with cinta := cinta }

def registrar (salt : Arr 16) (params : KdfParams) : Prog (Mundo n K) ε Unit := fun m =>
  .ok () { m with derivaciones := m.derivaciones ++ [(salt, params)] }

def derivar (kdf : Kdf M K) (passphrase : String) (salt : Arr 16) (pepper : List UInt8)
    (params : KdfParams) : Prog (Mundo n K) ε M := fun m =>
  Prog.deRes (deriveMasterKey kdf passphrase salt pepper params)
    { m with derivaciones := m.derivaciones ++ [(salt, params)] }

def sellar (aead : Aead n K) (key : K) (nonce : Arr n) (plaintext aad : List UInt8) :
    Prog (Mundo n K) ε (List UInt8) := fun m =>
  let c := Cipher.encrypt aead key nonce plaintext aad
  .ok c { m with sellos := m.sellos ++ [⟨key, nonce, aad, plaintext, c⟩] }

theorem pedir_eq_ok {alFallar : SinEntropia → Fallo ε} {k : Nat} {m m' : Mundo n K} {b : Arr k} :
    pedir alFallar k m = .ok b m' ↔
      llenar (List.Vector.replicate k 0) m.cinta = (.ok (), b, m'.cinta) ∧
        m' = { m with cinta := m'.cinta } := by
  unfold pedir
  split
  next buf cinta h =>
    simp only [h, EStateM.Result.ok.injEq, Prod.mk.injEq, true_and]
    constructor
    · rintro ⟨rfl, rfl⟩
      exact ⟨⟨rfl, rfl⟩, rfl⟩
    · rintro ⟨⟨rfl, rfl⟩, hm⟩
      exact ⟨rfl, hm.symm⟩
  next e buf cinta h => simp [h]

theorem pedir_cases (k : Nat) (m : Mundo n K) :
    (∃ b m', (pedir .error k : Prog (Mundo n K) SinEntropia (Arr k)) m = .ok b m' ∧
        m'.sellos = m.sellos) ∨
      ∃ e m', (pedir .error k : Prog (Mundo n K) SinEntropia (Arr k)) m = .error (.error e) m' := by
  unfold pedir
  split
  next buf cinta h => exact .inl ⟨buf, _, rfl, rfl⟩
  next e buf cinta h => exact .inr ⟨e, _, rfl⟩

theorem pedirFill_cases (alFallar : ε) (k : Nat) (m : Mundo n K) :
    (∃ b m', (pedirFill alFallar k : Prog (Mundo n K) ε (Arr k)) m = .ok b m' ∧
        m'.sellos = m.sellos) ∨
      ∃ m', (pedirFill alFallar k : Prog (Mundo n K) ε (Arr k)) m =
        .error (.error alFallar) m' := by
  unfold pedirFill
  split
  next buf cinta h => exact .inl ⟨buf, _, rfl, rfl⟩
  next e buf cinta h => exact .inr ⟨_, rfl⟩

theorem pedirFill_sellos {alFallar : ε} {k : Nat} {m m' : Mundo n K} {b : Arr k}
    (h : pedirFill alFallar k m = .ok b m') : m'.sellos = m.sellos := by
  unfold pedirFill at h
  split at h
  next => cases h; rfl
  next => cases h

theorem registrar_apply {salt : Arr 16} {params : KdfParams} {m : Mundo n K} :
    (registrar salt params : Prog (Mundo n K) ε Unit) m =
      .ok () { m with derivaciones := m.derivaciones ++ [(salt, params)] } := rfl

theorem derivar_eq_ok {kdf : Kdf M K} {passphrase : String} {salt : Arr 16} {pepper : List UInt8}
    {params : KdfParams} {m m' : Mundo n K} {k : M} :
    (derivar kdf passphrase salt pepper params : Prog (Mundo n K) ε M) m = .ok k m' ↔
      kdf.acepta params = true ∧
        kdf.argon2id (utf8 (normalizar kdf passphrase) ++ pepper) salt.toList params = k ∧
        m' = { m with derivaciones := m.derivaciones ++ [(salt, params)] } := by
  rw [derivar, Prog.deRes_eq_ok, deriveMasterKey_eq_ok, and_assoc]

theorem sellar_apply {aead : Aead n K} {key : K} {nonce : Arr n} {p a : List UInt8}
    {m : Mundo n K} :
    (sellar aead key nonce p a : Prog (Mundo n K) ε (List UInt8)) m =
      .ok (aead.sella key nonce p a)
        { m with sellos := m.sellos ++ [⟨key, nonce, a, p, aead.sella key nonce p a⟩] } := rfl

end Quipu
