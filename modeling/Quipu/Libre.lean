import Quipu.Mundo

namespace Quipu

/-- The keys of the free derivation are the terms that derive them. -/
abbrev MasterLibre := List UInt8 × List UInt8 × KdfParams

abbrev ClaveLibre := MasterLibre × List UInt8

/-- The free derivation, injective in all it is given, with the parameter check of Argon2. -/
def Kdf.libre (nfkc : String → String) : Kdf MasterLibre ClaveLibre where
  nfkc := nfkc
  acepta p := 1 ≤ p.parallelism && 1 ≤ p.iterations && 8 * p.parallelism.toNat ≤ p.memKib.toNat
  argon2id secreto salt params := (secreto, salt, params)
  expandKey master info := (master, info)
  expand _ _ n := List.Vector.replicate n 0

theorem Kdf.libre_inyectiva (nfkc : String → String) : (Kdf.libre nfkc).Inyectiva where
  argon2id h := by
    simp only [Kdf.libre, Prod.mk.injEq] at h
    exact h
  expandKey h := by
    simp only [Kdf.libre, Prod.mk.injEq] at h
    exact h

theorem Kdf.libre_aceptaSanos (nfkc : String → String) : (Kdf.libre nfkc).AceptaSanos := by
  rintro ⟨mem, iter, par⟩ hp
  simp only [KdfParams.isSane, KdfParams.isSaneUpTo, maxParallelism, maxMemKib, Bool.and_eq_true,
    decide_eq_true_eq, UInt32.le_iff_toNat_le, UInt32.toNat_mul] at hp
  obtain ⟨⟨⟨⟨⟨h₁, h₂⟩, h₃⟩, _⟩, h₅⟩, _⟩ := hp
  have h₂ : par.toNat ≤ 16 := h₂
  rw [show (8 : UInt32).toNat = 8 from rfl, Nat.mod_eq_of_lt (by omega)] at h₅
  simp only [Kdf.libre, Bool.and_eq_true, decide_eq_true_eq, UInt32.le_iff_toNat_le]
  exact ⟨⟨h₁, h₃⟩, h₅⟩

variable {n : Nat} {K : Type}

/-- A source that always hands over the bytes 0, 1, 2 and so on. -/
def Mundo.sereno : Mundo n K := ⟨Stream'.const (.entrega UInt8.ofNat), [], []⟩

def marcar (_key : K) (_nonce : Arr n) (p _aad : List UInt8) : List UInt8 :=
  p ++ List.replicate tagLen 0

/-- The AEAD that marks, and opens all that carries the mark. -/
def Aead.deMarca : Aead n K where
  sella := marcar
  abre _ _ c _ :=
    if tagLen ≤ c.length ∧ c.drop (c.length - tagLen) = List.replicate tagLen 0 then
      some (c.take (c.length - tagLen))
    else none

/-- The AEAD that seals with `sella` and opens what a log of seals says. -/
def Aead.deRegistro [DecidableEq K] (sella : K → Arr n → List UInt8 → List UInt8 → List UInt8)
    (sellos : List (Sello n K)) : Aead n K where
  sella := sella
  abre k nonce c a :=
    (sellos.find? fun s => s.key = k ∧ s.nonce = nonce ∧ s.aad = a ∧ s.ciphertext = c).map
      Sello.plaintext

theorem Aead.deMarca_undoes : (Aead.deMarca : Aead n K).Undoes := by
  intro k nonce p a
  simp [Aead.deMarca, marcar]

theorem Aead.deMarca_addsTag : (Aead.deMarca : Aead n K).AddsTag := by
  intro k nonce p a
  simp [Aead.deMarca, marcar]

theorem Aead.deRegistro_opensOnly [DecidableEq K]
    (sella : K → Arr n → List UInt8 → List UInt8 → List UInt8) (sellos : List (Sello n K)) :
    (Aead.deRegistro sella sellos).OpensOnly sellos := by
  intro k nonce c a p h
  obtain ⟨s, hs, rfl⟩ := Option.map_eq_some_iff.mp h
  have hm := List.mem_of_find?_eq_some hs
  have hp := List.find?_some hs
  simp only [decide_eq_true_eq] at hp
  obtain ⟨rfl, rfl, rfl, rfl⟩ := hp
  exact hm

/-- A log with one plaintext for each key, nonce, associated data and ciphertext makes an ideal
AEAD. -/
theorem Aead.deRegistro_ideal [DecidableEq K]
    (sella : K → Arr n → List UInt8 → List UInt8 → List UInt8) {sellos : List (Sello n K)}
    (h : ∀ s ∈ sellos, ∀ t ∈ sellos, s.key = t.key → s.nonce = t.nonce → s.aad = t.aad →
      s.ciphertext = t.ciphertext → s.plaintext = t.plaintext) :
    (Aead.deRegistro sella sellos).Ideal sellos := by
  intro k nonce c a p
  refine ⟨Aead.deRegistro_opensOnly sella sellos k nonce c a p, fun hm => ?_⟩
  simp only [Aead.deRegistro]
  cases hf : sellos.find? (fun s => s.key = k ∧ s.nonce = nonce ∧ s.aad = a ∧
      s.ciphertext = c) with
  | none =>
    have hn := List.find?_eq_none.mp hf _ hm
    simp at hn
  | some s =>
    have hs := List.mem_of_find?_eq_some hf
    have hp := List.find?_some hf
    simp only [decide_eq_true_eq] at hp
    obtain ⟨rfl, rfl, rfl, rfl⟩ := hp
    exact congrArg some (h s hs _ hm rfl rfl rfl rfl)

end Quipu
