import Mathlib.Algebra.Field.Basic
import Mathlib.Algebra.Ring.MinimalAxioms
import Mathlib.Tactic.Ring

namespace Quipu

/-- The rounds left of the multiplication of the field of AES. -/
def gfMulDesde : Nat → UInt8 → UInt8 → UInt8 → UInt8
  | 0, _, _, out => out
  | k + 1, a, b, out =>
    let alto := (a >>> 7) &&& 1
    gfMulDesde k ((a <<< 1) ^^^ ((0x1b : UInt8) &&& -alto)) (b >>> 1) (out ^^^ (a &&& -(b &&& 1)))

def gfMul (a b : UInt8) : UInt8 := gfMulDesde 8 a b 0

/-- The rounds left of the exponentiation; it stops when the exponent is spent. -/
def gfInvDesde : Nat → UInt8 → UInt8 → UInt32 → UInt8
  | 0, resultado, _, _ => resultado
  | k + 1, resultado, base, exp =>
    if exp = 0 then resultado else
    let bit := (exp &&& 1).toUInt8
    let candidato := gfMul resultado base
    let mascara := -bit
    gfInvDesde k ((candidato &&& mascara) ||| (resultado &&& ~~~mascara)) (gfMul base base)
      (exp >>> 1)

/-- The inverse as the power 254, an exponent of eight bits. -/
def gfInv (a : UInt8) : UInt8 := gfInvDesde 8 1 a 254

theorem xor_and_distrib (a b c : UInt8) : (a ^^^ b) &&& c = (a &&& c) ^^^ (b &&& c) := by
  apply UInt8.toNat_inj.mp
  simp only [UInt8.toNat_and, UInt8.toNat_xor, Nat.and_xor_distrib_right]

theorem and_one_cases (x : UInt8) : x &&& 1 = 0 ∨ x &&& 1 = 1 := by
  have h : (x &&& 1).toNat = x.toNat % 2 := by
    rw [UInt8.toNat_and]
    exact Nat.and_one_is_mod _
  rcases Nat.mod_two_eq_zero_or_one x.toNat with h₀ | h₁
  · exact Or.inl (UInt8.toNat_inj.mp (h.trans h₀))
  · exact Or.inr (UInt8.toNat_inj.mp (h.trans h₁))

/-- Masking with a bit that is a sum of two is the sum of both maskings. -/
theorem and_neg_xor (x a b : UInt8) :
    x &&& -((a ^^^ b) &&& 1) = (x &&& -(a &&& 1)) ^^^ (x &&& -(b &&& 1)) := by
  rw [xor_and_distrib]
  rcases and_one_cases a with ha | ha
  · rw [ha]
    simp
  · rcases and_one_cases b with hb | hb
    · rw [ha, hb]
      simp
    · rw [ha, hb]
      simp

theorem xor_xor_xor_comm (a b c d : UInt8) : (a ^^^ b) ^^^ (c ^^^ d) = (a ^^^ c) ^^^ (b ^^^ d) := by
  rw [UInt8.xor_assoc, UInt8.xor_assoc, ← UInt8.xor_assoc b, ← UInt8.xor_assoc c,
    UInt8.xor_comm b c]

theorem gfMulDesde_xor_left (k : Nat) (a a' b out out' : UInt8) :
    gfMulDesde k (a ^^^ a') b (out ^^^ out') = gfMulDesde k a b out ^^^ gfMulDesde k a' b out' := by
  induction k generalizing a a' b out out' with
  | zero => rfl
  | succ k ih =>
    simp only [gfMulDesde]
    rw [← ih]
    congr 1
    · rw [UInt8.shiftLeft_xor, UInt8.shiftRight_xor, and_neg_xor, xor_xor_xor_comm]
    · rw [xor_and_distrib, xor_xor_xor_comm]

theorem gfMulDesde_xor_right (k : Nat) (a b b' out out' : UInt8) :
    gfMulDesde k a (b ^^^ b') (out ^^^ out') = gfMulDesde k a b out ^^^ gfMulDesde k a b' out' := by
  induction k generalizing a b b' out out' with
  | zero => rfl
  | succ k ih =>
    simp only [gfMulDesde]
    rw [← ih, UInt8.shiftRight_xor, and_neg_xor, xor_xor_xor_comm]

theorem gfMul_xor_left (a a' b : UInt8) : gfMul (a ^^^ a') b = gfMul a b ^^^ gfMul a' b := by
  have h := gfMulDesde_xor_left 8 a a' b 0 0
  rwa [UInt8.xor_self] at h

theorem gfMul_xor_right (a b b' : UInt8) : gfMul a (b ^^^ b') = gfMul a b ^^^ gfMul a b' := by
  have h := gfMulDesde_xor_right 8 a b b' 0 0
  rwa [UInt8.xor_self] at h

/-- What holds of zero, of the eight bits and of sums holds of every byte. -/
theorem induccion_xor {P : UInt8 → Prop} (h₀ : P 0) (hb : ∀ i < 8, P (UInt8.ofNat (2 ^ i)))
    (hx : ∀ a b, P a → P b → P (a ^^^ b)) (a : UInt8) : P a := by
  have hbaja : ∀ n < 256, n ≠ 0 → ∃ i < 8, n ^^^ 2 ^ i < n := by decide +kernel
  have hn : ∀ n < 256, P (UInt8.ofNat n) := by
    intro n
    induction n using Nat.strongRecOn with
    | ind n ih =>
      intro hlt
      by_cases hz : n = 0
      · rw [hz]
        exact h₀
      · obtain ⟨i, hi, hmenor⟩ := hbaja n hlt hz
        have hsum : UInt8.ofNat n = UInt8.ofNat (n ^^^ 2 ^ i) ^^^ UInt8.ofNat (2 ^ i) := by
          rw [← UInt8.ofNat_xor, Nat.xor_assoc, Nat.xor_self, Nat.xor_zero]
        rw [hsum]
        exact hx _ _ (ih _ hmenor (by omega)) (hb i hi)
  have ha := hn a.toNat a.toNat_lt
  rwa [UInt8.ofNat_toNat] at ha

theorem gfMul_zero (a : UInt8) : gfMul a 0 = 0 := by
  have h := gfMul_xor_right a 0 0
  rwa [UInt8.xor_self, UInt8.xor_self] at h

theorem zero_gfMul (a : UInt8) : gfMul 0 a = 0 := by
  have h := gfMul_xor_left 0 0 a
  rwa [UInt8.xor_self, UInt8.xor_self] at h

theorem one_gfMul (a : UInt8) : gfMul 1 a = a := by
  induction a using induccion_xor with
  | h₀ => exact gfMul_zero 1
  | hb i hi =>
    have h : ∀ i < 8, gfMul 1 (UInt8.ofNat (2 ^ i)) = UInt8.ofNat (2 ^ i) := by decide +kernel
    exact h i hi
  | hx a b ha hb => rw [gfMul_xor_right, ha, hb]

theorem gfMul_comm (a b : UInt8) : gfMul a b = gfMul b a := by
  induction a using induccion_xor with
  | h₀ => rw [zero_gfMul, gfMul_zero]
  | hx a a' ha ha' => rw [gfMul_xor_left, gfMul_xor_right, ha, ha']
  | hb i hi =>
    induction b using induccion_xor with
    | h₀ => rw [zero_gfMul, gfMul_zero]
    | hx b b' hb hb' => rw [gfMul_xor_left, gfMul_xor_right, hb, hb']
    | hb j hj =>
      have h : ∀ i < 8, ∀ j < 8, gfMul (UInt8.ofNat (2 ^ i)) (UInt8.ofNat (2 ^ j)) =
          gfMul (UInt8.ofNat (2 ^ j)) (UInt8.ofNat (2 ^ i)) := by decide +kernel
      exact h i hi j hj

theorem gfMul_assoc (a b c : UInt8) : gfMul (gfMul a b) c = gfMul a (gfMul b c) := by
  induction a using induccion_xor with
  | h₀ => rw [zero_gfMul, zero_gfMul, zero_gfMul]
  | hx a a' ha ha' => rw [gfMul_xor_left, gfMul_xor_left, gfMul_xor_left, ha, ha']
  | hb i hi =>
    induction b using induccion_xor with
    | h₀ => rw [gfMul_zero, zero_gfMul, gfMul_zero]
    | hx b b' hb hb' =>
      rw [gfMul_xor_left, gfMul_xor_right, gfMul_xor_left, gfMul_xor_right, hb, hb']
    | hb j hj =>
      induction c using induccion_xor with
      | h₀ => rw [gfMul_zero, gfMul_zero, gfMul_zero]
      | hx c c' hc hc' => rw [gfMul_xor_right, gfMul_xor_right, gfMul_xor_right, hc, hc']
      | hb k hk =>
        have h : ∀ i < 8, ∀ j < 8, ∀ k < 8,
            gfMul (gfMul (UInt8.ofNat (2 ^ i)) (UInt8.ofNat (2 ^ j))) (UInt8.ofNat (2 ^ k)) =
              gfMul (UInt8.ofNat (2 ^ i)) (gfMul (UInt8.ofNat (2 ^ j)) (UInt8.ofNat (2 ^ k))) := by
          decide +kernel
        exact h i hi j hj k hk

/-- A byte as an element of the field of AES. -/
structure Gf256 where
  byte : UInt8
  deriving DecidableEq

namespace Gf256

instance : Zero Gf256 := ⟨⟨0⟩⟩

instance : One Gf256 := ⟨⟨1⟩⟩

instance : Add Gf256 := ⟨fun a b => ⟨a.byte ^^^ b.byte⟩⟩

instance : Neg Gf256 := ⟨id⟩

instance : Mul Gf256 := ⟨fun a b => ⟨gfMul a.byte b.byte⟩⟩

instance : Inv Gf256 := ⟨fun a => ⟨gfInv a.byte⟩⟩

theorem ext {a b : Gf256} (h : a.byte = b.byte) : a = b := by
  cases a
  cases b
  exact congrArg mk h

@[simp] theorem byte_zero : (0 : Gf256).byte = 0 := rfl

@[simp] theorem byte_one : (1 : Gf256).byte = 1 := rfl

@[simp] theorem byte_add (a b : Gf256) : (a + b).byte = a.byte ^^^ b.byte := rfl

@[simp] theorem byte_mul (a b : Gf256) : (a * b).byte = gfMul a.byte b.byte := rfl

@[simp] theorem byte_inv (a : Gf256) : a⁻¹.byte = gfInv a.byte := rfl

instance : CommRing Gf256 := CommRing.ofMinimalAxioms
  (fun _ _ _ => ext (UInt8.xor_assoc _ _ _))
  (fun _ => ext UInt8.zero_xor)
  (fun _ => ext UInt8.xor_self)
  (fun _ _ _ => ext (gfMul_assoc _ _ _))
  (fun _ _ => ext (gfMul_comm _ _))
  (fun _ => ext (one_gfMul _))
  (fun _ _ _ => ext (gfMul_xor_right _ _ _))

theorem neg_eq (a : Gf256) : -a = a := rfl

theorem add_self (a : Gf256) : a + a = 0 := ext UInt8.xor_self

theorem sub_eq (a b : Gf256) : a - b = a + b := by
  rw [sub_eq_add_neg, neg_eq]

theorem add_pow_two (a b : Gf256) : (a + b) ^ 2 = a ^ 2 + b ^ 2 := by
  have h : a * b + a * b = 0 := add_self _
  calc (a + b) ^ 2 = a ^ 2 + (a * b + a * b) + b ^ 2 := by ring
    _ = a ^ 2 + b ^ 2 := by rw [h, add_zero]

theorem add_pow_two_pow (k : Nat) (a b : Gf256) :
    (a + b) ^ 2 ^ k = a ^ 2 ^ k + b ^ 2 ^ k := by
  induction k with
  | zero => simp
  | succ k ih => rw [Nat.pow_succ, pow_mul, pow_mul, pow_mul, ih, add_pow_two]

theorem byte_pow_two_pow (k : Nat) (a : Gf256) :
    (a ^ 2 ^ k).byte = (fun x => gfMul x x)^[k] a.byte := by
  induction k with
  | zero => simp
  | succ k ih =>
    rw [Nat.pow_succ, pow_mul, pow_two, byte_mul, ih, Function.iterate_succ_apply']

/-- Squaring eight times is additive and fixes the eight bits, so it fixes every byte. -/
theorem pow_256 (a : Gf256) : a ^ 2 ^ 8 = a := by
  obtain ⟨x⟩ := a
  induction x using induccion_xor with
  | h₀ => exact zero_pow (by decide)
  | hx x y hx hy => exact (add_pow_two_pow 8 ⟨x⟩ ⟨y⟩).trans (congrArg₂ (· + ·) hx hy)
  | hb i hi =>
    have h : ∀ i < 8, (fun x => gfMul x x)^[8] (UInt8.ofNat (2 ^ i)) = UInt8.ofNat (2 ^ i) := by
      decide +kernel
    exact ext ((byte_pow_two_pow 8 _).trans (h i hi))

theorem eq_zero_or_one_of_idempotente {e : Gf256} (h : e * e = e) : e = 0 ∨ e = 1 := by
  have htodos : ∀ n < 256, gfMul (UInt8.ofNat n) (UInt8.ofNat n) = UInt8.ofNat n →
      UInt8.ofNat n = 0 ∨ UInt8.ofNat n = 1 := by decide +kernel
  have he := htodos e.byte.toNat e.byte.toNat_lt
  rw [UInt8.ofNat_toNat] at he
  rcases he (congrArg byte h) with h₀ | h₁
  · exact Or.inl (ext h₀)
  · exact Or.inr (ext h₁)

/-- The power 255 is idempotent, and of the two idempotents it is not zero. -/
theorem pow_255 {a : Gf256} (ha : a ≠ 0) : a ^ 255 = 1 := by
  have h256 := pow_256 a
  have hidem : a ^ 255 * a ^ 255 = a ^ 255 := by
    calc a ^ 255 * a ^ 255 = a ^ 2 ^ 8 * a ^ 254 := by ring
      _ = a ^ 255 := by rw [h256]; ring
  refine (eq_zero_or_one_of_idempotente hidem).resolve_left fun h₀ => ha ?_
  rw [← h256, show (2 : Nat) ^ 8 = 255 + 1 from rfl, pow_succ, h₀, zero_mul]

theorem elegir_byte (c r : UInt8) (exp : UInt32) :
    (c &&& -(exp &&& 1).toUInt8) ||| (r &&& ~~~(-(exp &&& 1).toUInt8)) =
      if exp.toNat % 2 = 1 then c else r := by
  have h : (exp &&& 1).toNat = exp.toNat % 2 := by
    rw [UInt32.toNat_and]
    exact Nat.and_one_is_mod _
  rcases Nat.mod_two_eq_zero_or_one exp.toNat with h₀ | h₁
  · have he : exp &&& 1 = 0 := UInt32.toNat_inj.mp (h.trans h₀)
    rw [he, h₀]
    simp
  · have he : exp &&& 1 = 1 := UInt32.toNat_inj.mp (h.trans h₁)
    rw [he, h₁]
    simp

/-- The loop of squares and products computes a power. -/
theorem gfInvDesde_eq {k : Nat} {exp : UInt32} (hexp : exp.toNat < 2 ^ k) (r base : Gf256) :
    gfInvDesde k r.byte base.byte exp = (r * base ^ exp.toNat).byte := by
  induction k generalizing r base exp with
  | zero =>
    have h : exp.toNat = 0 := by simpa using hexp
    rw [gfInvDesde, h, pow_zero, mul_one]
  | succ k ih =>
    rw [gfInvDesde]
    by_cases hz : exp = 0
    · rw [if_pos hz, hz, UInt32.toNat_zero, pow_zero, mul_one]
    · have hmitad : (exp >>> 1).toNat = exp.toNat / 2 := by
        rw [UInt32.toNat_shiftRight]
        exact Nat.shiftRight_one _
      have hlt : (exp >>> 1).toNat < 2 ^ k := by
        rw [hmitad]
        rw [Nat.pow_succ] at hexp
        omega
      rw [if_neg hz]
      simp only [elegir_byte]
      have hdiv := Nat.div_add_mod exp.toNat 2
      by_cases hodd : exp.toNat % 2 = 1
      · rw [if_pos hodd]
        refine (ih hlt (r * base) (base * base)).trans (congrArg byte ?_)
        rw [hmitad, mul_assoc, ← pow_two, ← pow_mul, ← pow_succ', ← hodd, hdiv]
      · rw [if_neg hodd]
        refine (ih hlt r (base * base)).trans (congrArg byte ?_)
        have heven : 2 * (exp.toNat / 2) = exp.toNat := by omega
        rw [hmitad, ← pow_two, ← pow_mul, heven]

theorem inv_eq_pow (a : Gf256) : a⁻¹ = a ^ 254 := by
  refine ext ((@gfInvDesde_eq 8 254 (by decide) 1 a).trans ?_)
  rw [one_mul]
  rfl

instance : Field Gf256 where
  exists_pair_ne := ⟨0, 1, fun h => absurd (congrArg byte h) (by decide)⟩
  mul_inv_cancel a ha := by
    rw [inv_eq_pow, ← pow_succ']
    exact pow_255 ha
  inv_zero := by
    rw [inv_eq_pow]
    exact zero_pow (by decide)
  nnqsmul := _
  nnqsmul_def := fun _ _ => rfl
  qsmul := _
  qsmul_def := fun _ _ => rfl

end Gf256

end Quipu
