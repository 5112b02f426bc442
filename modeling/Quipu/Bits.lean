import Quipu.BigEndian
import Quipu.Digitos

namespace Quipu

/-- Bit `i` of a byte string, the high bit of the first byte being bit zero. -/
def bit (bs : List UInt8) (i : Nat) : Nat := (bs.getD (i / 8) 0).toNat / 2 ^ (7 - i % 8) % 2

/-- The number written by the `k` bits of `bs` from bit `s` on. -/
def bits (bs : List UInt8) (s : Nat) : Nat → Nat
  | 0 => 0
  | k + 1 => bits bs s k * 2 + bit bs (s + k)

theorem bit_lt (bs : List UInt8) (i : Nat) : bit bs i < 2 := by
  apply Nat.mod_lt
  decide

theorem bits_lt (bs : List UInt8) (s k : Nat) : bits bs s k < 2 ^ k := by
  induction k with
  | zero => exact Nat.one_pos
  | succ k ih =>
    have hb := bit_lt bs (s + k)
    rw [bits, Nat.pow_succ]
    omega

theorem bits_add (bs : List UInt8) (s k m : Nat) :
    bits bs s (k + m) = bits bs s k * 2 ^ m + bits bs (s + k) m := by
  induction m with
  | zero => simp [bits]
  | succ m ih =>
    have hp : bits bs s k * 2 ^ (m + 1) = bits bs s k * 2 ^ m * 2 := by
      rw [Nat.pow_succ, Nat.mul_assoc]
    rw [← Nat.add_assoc, bits, ih, hp, bits, Nat.add_assoc s k m]
    omega

theorem bits_div (bs : List UInt8) (s : Nat) {i k : Nat} (h : i < k) :
    bits bs s k / 2 ^ (k - 1 - i) % 2 = bit bs (s + i) := by
  have hk : k = i + 1 + (k - 1 - i) := by omega
  have hb := bit_lt bs (s + i)
  have hl := bits_lt bs (s + (i + 1)) (k - 1 - i)
  have ha := bits_add bs s (i + 1) (k - 1 - i)
  rw [← hk] at ha
  rw [ha, Nat.mul_comm, Nat.mul_add_div (Nat.two_pow_pos _), Nat.div_eq_of_lt hl, bits]
  omega

theorem bit_append {as : List UInt8} {i : Nat} (bs : List UInt8) (h : i < 8 * as.length) :
    bit (as ++ bs) i = bit as i := by
  have hi : i / 8 < as.length := by omega
  rw [bit, bit, List.getD_eq_getElem?_getD, List.getElem?_append_left hi,
    ← List.getD_eq_getElem?_getD]

theorem bit_append_right {as : List UInt8} {i : Nat} (bs : List UInt8) (h : 8 * as.length ≤ i) :
    bit (as ++ bs) i = bit bs (i - 8 * as.length) := by
  have hi : as.length ≤ i / 8 := by omega
  have hq : i / 8 - as.length = (i - 8 * as.length) / 8 := by omega
  have hr : i % 8 = (i - 8 * as.length) % 8 := by omega
  rw [bit, bit, List.getD_eq_getElem?_getD, List.getElem?_append_right hi, hq, hr,
    ← List.getD_eq_getElem?_getD]

theorem bits_append {as : List UInt8} {s k : Nat} (bs : List UInt8) (h : s + k ≤ 8 * as.length) :
    bits (as ++ bs) s k = bits as s k := by
  induction k with
  | zero => rfl
  | succ k ih =>
    have hk : s + k < 8 * as.length := by omega
    rw [bits, bits, ih (by omega), bit_append bs hk]

theorem bits_append_right (as bs : List UInt8) (k : Nat) :
    bits (as ++ bs) (8 * as.length) k = bits bs 0 k := by
  induction k with
  | zero => rfl
  | succ k ih =>
    have hk : 8 * as.length + k - 8 * as.length = 0 + k := by omega
    rw [bits, bits, ih, bit_append_right bs (by omega), hk]

/-- The first bits of a byte are its quotient by the power that the others count. -/
theorem bits_altos {k : Nat} (b : UInt8) (bs : List UInt8) (h : k ≤ 8) :
    bits (b :: bs) 0 k = b.toNat / 2 ^ (8 - k) := by
  induction k with
  | zero => exact (Nat.div_eq_of_lt b.toNat_lt).symm
  | succ k ih =>
    have hq : (0 + k) / 8 = 0 := by omega
    have hr : 7 - (0 + k) % 8 = 8 - (k + 1) := by omega
    have hp : 8 - k = 8 - (k + 1) + 1 := by omega
    have hd := Nat.div_add_mod (b.toNat / 2 ^ (8 - (k + 1))) 2
    rw [bits, ih (by omega), bit, hq, hr, List.getD_cons_zero, hp, Nat.pow_succ,
      ← Nat.div_div_eq_div_mul, Nat.mul_comm, hd]

theorem bits_octeto (b : UInt8) (bs : List UInt8) : bits (b :: bs) 0 8 = b.toNat := by
  rw [bits_altos b bs (Nat.le_refl 8), Nat.sub_self, Nat.pow_zero, Nat.div_one]

theorem bits_ofBe (bs : List UInt8) : bits bs 0 (8 * bs.length) = ofBe bs := by
  induction bs using List.reverseRecOn with
  | nil => rfl
  | append_singleton bs b ih =>
    have hl : 8 * (bs ++ [b]).length = 8 * bs.length + 8 := by simp [Nat.mul_add]
    have hp : bits (bs ++ [b]) 0 (8 * bs.length) = ofBe bs := by
      rw [bits_append [b] (by omega), ih]
    have hu : bits (bs ++ [b]) (0 + 8 * bs.length) 8 = b.toNat := by
      rw [Nat.zero_add, bits_append_right, bits_octeto]
    rw [hl, bits_add, hp, hu, ofBe_concat]
    rfl

theorem ofBe_eq_numero (bs : List UInt8) :
    ofBe bs = Digitos.numero 8 (bs.map UInt8.toNat) := by
  induction bs using List.reverseRecOn with
  | nil => rfl
  | append_singleton bs b ih =>
    rw [ofBe_concat, ih, List.map_append, List.map_singleton, Digitos.numero_concat]
    rfl

theorem bit_eq_bitEn (bs : List UInt8) (i : Nat) :
    bit bs i = Digitos.bitEn 8 (bs.map UInt8.toNat) i := by
  have hz : (bs.map UInt8.toNat).getD (i / 8) (UInt8.toNat 0) = (bs.getD (i / 8) 0).toNat :=
    List.getD_map ..
  rw [bit, Digitos.bitEn, ← hz]
  rfl

/-- Bytes at one position are equal when their bits are. -/
theorem getD_eq_of_bits {as bs : List UInt8} {j : Nat}
    (h : ∀ r < 8, bit as (8 * j + r) = bit bs (8 * j + r)) : as.getD j 0 = bs.getD j 0 := by
  apply UInt8.toNat_inj.mp
  refine Digitos.eq_of_bits (k := 8) (UInt8.toNat_lt _) (UInt8.toNat_lt _) ?_
  intro r hr
  have hb := h r hr
  have hq : (8 * j + r) / 8 = j := by omega
  have hm : (8 * j + r) % 8 = r := by omega
  rw [bit, bit, hq, hm] at hb
  exact hb

theorem toNat_ofNat_mod_32 {m : Nat} (hm : m < 32) : (UInt32.ofNat m).toNat % 32 = m := by
  rw [UInt32.toNat_ofNat']
  omega

theorem toNat_ofNat_mod_8 {m : Nat} (hm : m < 8) : (UInt8.ofNat m).toNat % 8 = m := by
  rw [UInt8.toNat_ofNat']
  omega

theorem toNat_low_byte (x : UInt32) : (x &&& 0xff).toUInt8.toNat = x.toNat % 256 := by
  have hm := Nat.and_two_pow_sub_one_eq_mod x.toNat 8
  rw [UInt32.toNat_toUInt8, UInt32.toNat_and]
  change (x.toNat &&& 2 ^ 8 - 1) % 2 ^ 8 = _
  rw [hm]
  exact Nat.mod_mod _ _

theorem toNat_ofNat_mod_16 {m : Nat} (hm : m < 16) : (UInt16.ofNat m).toNat % 16 = m := by
  rw [UInt16.toNat_ofNat']
  omega

/-- A mask of `w` ones keeps the low bits, and they fit in a byte. -/
theorem toNat_low_bits {w : Nat} (x : UInt16) {m : UInt16} (hw : w ≤ 8)
    (hm : m.toNat = 2 ^ w - 1) : (x &&& m).toUInt8.toNat = x.toNat % 2 ^ w := by
  have hp : 2 ^ w ≤ 2 ^ 8 := Nat.pow_le_pow_right Nat.two_pos hw
  have hl := Nat.mod_lt x.toNat (Nat.two_pow_pos w)
  rw [UInt16.toNat_toUInt8, UInt16.toNat_and, hm, Nat.and_two_pow_sub_one_eq_mod]
  exact Nat.mod_eq_of_lt (Nat.lt_of_lt_of_le hl hp)

theorem toNat_shiftLeft_or_16 {a b : UInt16} {m : Nat} (hm : m < 16) (hb : b.toNat < 2 ^ m) :
    (a <<< UInt16.ofNat m ||| b).toNat = a.toNat % 2 ^ (16 - m) * 2 ^ m + b.toNat := by
  have hp : 2 ^ 16 = 2 ^ (16 - m) * 2 ^ m := by
    rw [← Nat.pow_add]
    congr 1
    omega
  rw [UInt16.toNat_or, UInt16.toNat_shiftLeft, toNat_ofNat_mod_16 hm, Nat.shiftLeft_eq, hp,
    Nat.mul_mod_mul_right, ← Nat.shiftLeft_eq, ← Nat.shiftLeft_add_eq_or_of_lt hb]

/-- Shifting left and joining a number that fits in the freed bits is appending it. -/
theorem toNat_shiftLeft_or {a b : UInt32} {m : Nat} (hm : m < 32) (hb : b.toNat < 2 ^ m) :
    (a <<< UInt32.ofNat m ||| b).toNat = a.toNat % 2 ^ (32 - m) * 2 ^ m + b.toNat := by
  have hp : 2 ^ 32 = 2 ^ (32 - m) * 2 ^ m := by
    rw [← Nat.pow_add]
    congr 1
    omega
  rw [UInt32.toNat_or, UInt32.toNat_shiftLeft, toNat_ofNat_mod_32 hm, Nat.shiftLeft_eq, hp,
    Nat.mul_mod_mul_right, ← Nat.shiftLeft_eq, ← Nat.shiftLeft_add_eq_or_of_lt hb]

theorem toNat_bit (b : UInt8) {j : Nat} (h : j < 8) :
    (b >>> UInt8.ofNat j &&& 1).toNat = b.toNat / 2 ^ j % 2 := by
  rw [UInt8.toNat_and, UInt8.toNat_shiftRight, toNat_ofNat_mod_8 h, Nat.shiftRight_eq_div_pow]
  exact Nat.and_one_is_mod _

end Quipu
