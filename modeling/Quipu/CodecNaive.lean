import Quipu.CodecRoundTrip

namespace Quipu.Codec

variable {ε : Type}

def u32Max : Nat := 2 ^ 32 - 1

/-- `BigUint::to_u32` followed by `expect`. -/
def toU32 (mensaje : String) (v : Nat) : Res ε Nat :=
  if v ≤ u32Max then .ok v else panico mensaje

/-- The loop of the reference writer, one digit a division; it is run from base two on. -/
def digitosIngenuos (base value : Nat) : Res ε (List Nat) :=
  if 2 ≤ base ∧ 0 < value then do
    let rem ← toU32 "rem < n cabe en u32" (value % base)
    let altos ← digitosIngenuos base (value / base)
    pure (rem :: altos)
  else pure []
termination_by value
decreasing_by exact Nat.div_lt_self (by omega) (by omega)

def encodeBaseNIngenuo (data : List UInt8) (n : Nat) : Res ε (List Nat) := do
  let digits ← digitosIngenuos n (ofBe (1 :: data))
  pure digits.reverse

theorem digitosIngenuos_eq {base : Nat} (hb : 2 ≤ base) (hle : base ≤ u32Max) (value : Nat) :
    (digitosIngenuos base value : Res ε (List Nat)) = .ok (Nat.digits base value) := by
  induction value using Nat.strongRecOn with
  | ind value ih =>
    rw [digitosIngenuos]
    split
    next h =>
      have hmod := Nat.mod_lt value (by omega : 0 < base)
      rw [toU32, if_pos (by omega), Res.ok_bind, ih _ (Nat.div_lt_self h.2 h.1), Res.ok_bind,
        Nat.digits_of_two_le_of_pos hb h.2]
      rfl
    next h =>
      have hcero : value = 0 := by omega
      rw [hcero, Nat.digits_zero]
      rfl

/-- The loop of `paso_maximo` ends where the next product does not fit. -/
theorem pasoDesde_maximo {n paso : Nat} (hn : 2 ≤ n) (hp : 0 < paso) (k : Nat) :
    u64Max < (pasoDesde n paso k).1 * n := by
  fun_induction pasoDesde n paso k with
  | case1 paso k h ih => exact ih (Nat.mul_pos hp (by omega))
  | case2 paso k h =>
    rw [← Nat.not_le]
    exact fun hle => h ⟨hn, hp, hle⟩

/-- `paso_maximo` gives the largest power that fits, and its exponent is below 64. -/
theorem pasoMaximo_maximo {n : Nat} (hn : 2 ≤ n) (hle : n ≤ u64Max) :
    ∃ k, 0 < k ∧ k < 64 ∧ pasoMaximo n = (n ^ k, k) ∧ n ^ k ≤ u64Max ∧ u64Max < n ^ (k + 1) := by
  obtain ⟨k, hk, hpaso, hfit⟩ := pasoMaximo_eq hle
  have hmax : u64Max < (pasoMaximo n).1 * n := pasoDesde_maximo hn (by omega) 1
  rw [hpaso] at hmax
  have hpow : 2 ^ k ≤ n ^ k := Nat.pow_le_pow_left hn k
  have h64 : 2 ^ k < 2 ^ 64 := by
    have : u64Max < 2 ^ 64 := by decide
    omega
  exact ⟨k, hk, (Nat.pow_lt_pow_iff_right (by decide)).mp h64, hpaso, hfit, hmax⟩

/-- Repeated division of a number that is not zero does not start with a zero. -/
theorem reverse_digits_ne_zero {n v : Nat} (hv : v ≠ 0) :
    ∃ d resto, (Nat.digits n v).reverse = d :: resto ∧ d ≠ 0 := by
  have hne : Nat.digits n v ≠ [] := Nat.digits_ne_nil_iff_ne_zero.mpr hv
  have hlast := Nat.getLast_digit_ne_zero n hv
  refine ⟨(Nat.digits n v).getLast hne, (Nat.digits n v).dropLast.reverse, ?_, hlast⟩
  conv_lhs => rw [← List.dropLast_append_getLast hne]
  rw [List.reverse_append, List.reverse_singleton, List.singleton_append]

theorem ofBe_marca_ne_zero (data : List UInt8) : ofBe (1 :: data) ≠ 0 := by
  have hpos : 0 < 256 ^ data.length := Nat.pow_pos (by decide)
  have hcons := ofBe_cons 1 data
  have huno : (1 : UInt8).toNat = 1 := rfl
  rw [huno, Nat.one_mul] at hcons
  omega

/-- The writer in blocks gives the digits of the writer by single divisions, and neither of
them loses a digit, writes a leading zero or fails a conversion. -/
theorem encodeBaseN_ingenuo {n : Nat} (hn : 2 ≤ n) (hle : n ≤ u32Max) (data : List UInt8) :
    (∃ k, 0 < k ∧ k < 64 ∧ pasoMaximo n = (n ^ k, k) ∧ n ^ k ≤ u64Max ∧ u64Max < n ^ (k + 1)) ∧
      ∃ d resto, (encodeBaseN data n : Res ε (List Nat)) = .ok (d :: resto) ∧
        (encodeBaseNIngenuo data n : Res ε (List Nat)) = .ok (d :: resto) ∧
        (Nat.digits n (ofBe (1 :: data))).reverse = d :: resto ∧ d ≠ 0 := by
  have hle64 : n ≤ u64Max := hle.trans (by decide)
  obtain ⟨d, resto, hd, hne⟩ := reverse_digits_ne_zero (n := n) (ofBe_marca_ne_zero data)
  refine ⟨pasoMaximo_maximo hn hle64, d, resto, ?_, ?_, hd, hne⟩
  · rw [encodeBaseN_eq hn hle64, hd]
  · rw [encodeBaseNIngenuo, digitosIngenuos_eq hn hle, Res.ok_bind, hd]
    rfl

theorem encodeBaseN_ingenuo_diez :
    (∃ k, 0 < k ∧ k < 64 ∧ pasoMaximo 10 = (10 ^ k, k) ∧ 10 ^ k ≤ u64Max ∧
        u64Max < 10 ^ (k + 1)) ∧
      ∃ d resto, (encodeBaseN [0, 0, 7] 10 : Res Empty (List Nat)) = .ok (d :: resto) ∧
        (encodeBaseNIngenuo [0, 0, 7] 10 : Res Empty (List Nat)) = .ok (d :: resto) ∧
        (Nat.digits 10 (ofBe [1, 0, 0, 7])).reverse = d :: resto ∧ d ≠ 0 :=
  encodeBaseN_ingenuo (by decide) (by decide) [0, 0, 7]

/-- What is written is read back, in digits of the base that do not start with a zero. -/
theorem ida_y_vuelta_base_n {n : Nat} (hn : 2 ≤ n) (hle : n ≤ u32Max) (data : List UInt8) :
    ∃ d resto, (encodeBaseN data n : Res ε (List Nat)) = .ok (d :: resto) ∧ d ≠ 0 ∧
      (∀ x ∈ d :: resto, x < n) ∧ decodeBaseN (d :: resto) n = data := by
  have hle64 : n ≤ u64Max := hle.trans (by decide)
  obtain ⟨ds, hds, hlt, hback⟩ := decodeBaseN_encodeBaseN (ε := ε) hn hle64 data
  obtain ⟨d, resto, hd, hne⟩ := reverse_digits_ne_zero (n := n) (ofBe_marca_ne_zero data)
  obtain rfl : ds = d :: resto := by
    rw [encodeBaseN_eq hn hle64, hd, Except.ok.injEq] at hds
    exact hds.symm
  exact ⟨d, resto, hds, hne, hlt, hback⟩

theorem ida_y_vuelta_base_n_diez :
    ∃ d resto, (encodeBaseN [0, 0, 7] 10 : Res Empty (List Nat)) = .ok (d :: resto) ∧ d ≠ 0 ∧
      (∀ x ∈ d :: resto, x < 10) ∧ decodeBaseN (d :: resto) 10 = [0, 0, 7] :=
  ida_y_vuelta_base_n (by decide) (by decide) [0, 0, 7]

end Quipu.Codec
