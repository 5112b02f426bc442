import Quipu.BigEndian
import Quipu.Fallo

namespace Quipu

namespace Padme

def lenPrefix : Nat := 8

inductive UnpadError where
  | tooShort (got need : Nat)
  | invalidLength (declared available : Nat)
  deriving DecidableEq, Repr

/-- `leading_zeros` of a 64-bit `usize`. -/
def leadingZeros (n : Nat) : Nat := if n = 0 then 64 else 63 - n.log2

/-- The quantised length for `l`; the mask is complemented in 64 bits. -/
def paddedLen (l : Nat) : Nat :=
  if l < 2 then l else
  let e := 64 - 1 - leadingZeros l
  let s := 64 - leadingZeros e
  let lastBits := e - s
  let mask := 2 ^ lastBits - 1
  (l + mask) &&& ((2 ^ 64 - 1) ^^^ mask)

def resize (xs : List UInt8) (n : Nat) : List UInt8 :=
  xs.take n ++ List.replicate (n - xs.length) 0

def pad (data : List UInt8) : List UInt8 :=
  resize (be 8 data.length ++ data) (paddedLen (lenPrefix + data.length))

def unpad (padded : List UInt8) : Except UnpadError (List UInt8) :=
  if padded.length < lenPrefix then .error (.tooShort padded.length lenPrefix) else
  let declared := ofBe (padded.take lenPrefix)
  let cuerpo := padded.drop lenPrefix
  if declared ≤ cuerpo.length then .ok (cuerpo.take declared)
  else .error (.invalidLength declared cuerpo.length)

theorem and_xor_mask {w x k : Nat} (hx : x < 2 ^ w) :
    x &&& ((2 ^ w - 1) ^^^ (2 ^ k - 1)) = x / 2 ^ k * 2 ^ k := by
  refine Nat.eq_of_testBit_eq fun i => ?_
  rw [Nat.testBit_and, Nat.testBit_xor, Nat.testBit_two_pow_sub_one, Nat.testBit_two_pow_sub_one,
    Nat.testBit_mul_two_pow, Nat.testBit_div_two_pow]
  by_cases hw : i < w
  · by_cases hk : i < k
    · simp [hw, hk]
    · simp [hw, hk, Nat.not_lt.mp hk, Nat.sub_add_cancel (Nat.not_lt.mp hk)]
  · have hz : x.testBit i = false :=
      Nat.testBit_lt_two_pow (hx.trans_le (Nat.pow_le_pow_right (by decide) (by omega)))
    by_cases hk : i < k
    · simp [hz, hk]
    · simp [hz, Nat.sub_add_cancel (Nat.not_lt.mp hk)]

theorem lastBits_le (e : Nat) (he : e ≤ 63) : e - (64 - leadingZeros e) ≤ 62 := by
  unfold leadingZeros
  split <;> omega

/-- Padmé never shrinks. -/
theorem le_paddedLen {l : Nat} (hl : l < 2 ^ 63 + 8) : l ≤ paddedLen l := by
  unfold paddedLen
  split
  next => exact Nat.le_refl l
  next =>
    have hk := lastBits_le (64 - 1 - leadingZeros l) (by omega)
    simp only
    generalize 64 - 1 - leadingZeros l - (64 - leadingZeros (64 - 1 - leadingZeros l)) = k at hk ⊢
    have hpow : 2 ^ k ≤ 2 ^ 62 := Nat.pow_le_pow_right (by decide) hk
    have hpos : 0 < 2 ^ k := Nat.two_pow_pos k
    rw [and_xor_mask (by omega)]
    have hdm := Nat.div_add_mod (l + (2 ^ k - 1)) (2 ^ k)
    have hmod := Nat.mod_lt (l + (2 ^ k - 1)) hpos
    rw [Nat.mul_comm] at hdm
    omega

theorem length_largo (n : Nat) : (be 8 n).length = lenPrefix := length_be 8 n

theorem resize_marco {data : List UInt8} {n : Nat} (h : lenPrefix + data.length ≤ n) :
    resize (be 8 data.length ++ data) n =
      be 8 data.length ++ data ++ List.replicate (n - (lenPrefix + data.length)) 0 := by
  have hl : (be 8 data.length ++ data).length = lenPrefix + data.length := by
    rw [List.length_append, length_largo]
  rw [resize, hl, List.take_of_length_le (hl ▸ h)]

theorem pad_eq {data : List UInt8} (h : data.length < 2 ^ 63) :
    pad data = be 8 data.length ++ data ++
      List.replicate (paddedLen (8 + data.length) - (8 + data.length)) 0 :=
  resize_marco (le_paddedLen (by rw [lenPrefix]; omega))

/-- What `pad` framed comes back, whatever follows it. -/
theorem unpad_pad_append {data : List UInt8} (h : data.length < 2 ^ 63) (ys : List UInt8) :
    unpad (pad data ++ ys) = .ok data := by
  rw [pad_eq h, List.append_assoc, List.append_assoc]
  unfold unpad lenPrefix
  rw [if_neg (by simp), List.take_left' (length_be 8 _), List.drop_left' (length_be 8 _),
    ofBe_be (by omega)]
  simp only [List.take_left]
  rw [if_pos (by simp)]

end Padme

inductive PrelayerError where
  | tooShort
  | invalidLength
  deriving DecidableEq, Repr

namespace Prelayers

def deUnpad : Padme.UnpadError → PrelayerError
  | .tooShort _ _ => .tooShort
  | .invalidLength _ _ => .invalidLength

def pad (data : List UInt8) : List UInt8 := Padme.pad data

def unpad (padded : List UInt8) : Except PrelayerError (List UInt8) :=
  (Padme.unpad padded).mapError deUnpad

theorem unpad_pad_append {data : List UInt8} (h : data.length < 2 ^ 63) (ys : List UInt8) :
    unpad (pad data ++ ys) = .ok data := by
  rw [unpad, pad, Padme.unpad_pad_append h ys]
  rfl

end Prelayers

end Quipu
