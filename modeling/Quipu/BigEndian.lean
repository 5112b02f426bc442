import Quipu.Fallo
import Mathlib.Data.List.Induction
import Mathlib.Data.Nat.Basic

namespace Quipu

/-- The `k` big-endian bytes of `n`, as `to_be_bytes` of a `k`-byte integer gives them. -/
def be : Nat → Nat → List UInt8
  | 0, _ => []
  | k + 1, n => be k (n / 256) ++ [UInt8.ofNat n]

/-- The number written by a big-endian byte string. -/
def ofBe (bs : List UInt8) : Nat := bs.foldl (fun acc b => acc * 256 + b.toNat) 0

def le (k n : Nat) : List UInt8 := (be k n).reverse

def ofLe (bs : List UInt8) : Nat := ofBe bs.reverse

@[simp] theorem length_be (k n : Nat) : (be k n).length = k := by
  induction k generalizing n with
  | zero => rfl
  | succ k ih => simp [be, ih]

@[simp] theorem length_le (k n : Nat) : (le k n).length = k := by
  simp [le]

@[simp] theorem ofBe_nil : ofBe [] = 0 := rfl

@[simp] theorem ofBe_concat (bs : List UInt8) (b : UInt8) :
    ofBe (bs ++ [b]) = ofBe bs * 256 + b.toNat := by
  simp [ofBe]

theorem ofBe_cons (b : UInt8) (bs : List UInt8) :
    ofBe (b :: bs) = b.toNat * 256 ^ bs.length + ofBe bs := by
  induction bs using List.reverseRecOn with
  | nil => simp [ofBe]
  | append_singleton bs c ih =>
    rw [← List.cons_append, ofBe_concat, ih, ofBe_concat, List.length_append,
      List.length_singleton, Nat.pow_succ, Nat.add_mul, Nat.mul_assoc, Nat.add_assoc]

theorem ofBe_be {k n : Nat} (h : n < 256 ^ k) : ofBe (be k n) = n := by
  induction k generalizing n with
  | zero => simp at h; simp [be, h]
  | succ k ih =>
    have hd : n / 256 < 256 ^ k := by
      apply (Nat.div_lt_iff_lt_mul (by decide : 0 < 256)).mpr
      simpa [Nat.pow_succ] using h
    simp only [be, ofBe_concat, ih hd, UInt8.toNat_ofNat']
    omega

theorem ofBe_lt (bs : List UInt8) : ofBe bs < 256 ^ bs.length := by
  induction bs using List.reverseRecOn with
  | nil => simp
  | append_singleton bs b ih =>
    have hb := b.toNat_lt
    simp only [ofBe_concat, List.length_append, List.length_singleton, Nat.pow_succ]
    omega

theorem be_ofBe (bs : List UInt8) : be bs.length (ofBe bs) = bs := by
  induction bs using List.reverseRecOn with
  | nil => rfl
  | append_singleton bs b ih =>
    have hb := b.toNat_lt
    have hd : (ofBe bs * 256 + b.toNat) / 256 = ofBe bs := by omega
    have hm : UInt8.ofNat (ofBe bs * 256 + b.toNat) = b := by
      apply UInt8.toNat_inj.mp
      simp only [UInt8.toNat_ofNat']
      omega
    simp only [ofBe_concat, List.length_append, List.length_singleton, be, hd, hm, ih]

theorem ofBe_inj {as bs : List UInt8} (hl : as.length = bs.length) (h : ofBe as = ofBe bs) :
    as = bs := by
  rw [← be_ofBe as, ← be_ofBe bs, hl, h]

theorem be_inj {k m n : Nat} (hm : m < 256 ^ k) (hn : n < 256 ^ k) (h : be k m = be k n) :
    m = n := by
  rw [← ofBe_be hm, ← ofBe_be hn, h]

/-- A field of `k` bytes is the number it writes. -/
theorem be_ofBe_arr {k : Nat} (a : Arr k) : be k (ofBe a.toList) = a.toList := by
  have h := be_ofBe a.toList
  rwa [a.toList_length] at h

theorem ofBe_arr_lt {k : Nat} (a : Arr k) : ofBe a.toList < 256 ^ k := by
  have h := ofBe_lt a.toList
  rwa [a.toList_length] at h

theorem ofLe_le {k n : Nat} (h : n < 256 ^ k) : ofLe (le k n) = n := by
  simp [ofLe, le, ofBe_be h]

def u16Be (x : UInt16) : List UInt8 := be 2 x.toNat

def u32Be (x : UInt32) : List UInt8 := be 4 x.toNat

def u16OfBe (bs : List UInt8) : UInt16 := UInt16.ofNat (ofBe bs)

def u32OfBe (bs : List UInt8) : UInt32 := UInt32.ofNat (ofBe bs)

theorem u32Be_ofNat {n : Nat} (h : n < 2 ^ 32) : u32Be (UInt32.ofNat n) = be 4 n := by
  rw [u32Be, UInt32.toNat_ofNat', Nat.mod_eq_of_lt h]

@[simp] theorem length_u16Be (x : UInt16) : (u16Be x).length = 2 := by simp [u16Be]

@[simp] theorem length_u32Be (x : UInt32) : (u32Be x).length = 4 := by simp [u32Be]

@[simp] theorem u16OfBe_u16Be (x : UInt16) : u16OfBe (u16Be x) = x := by
  have hx := x.toNat_lt
  rw [u16OfBe, u16Be, ofBe_be (by omega)]
  simp

@[simp] theorem u32OfBe_u32Be (x : UInt32) : u32OfBe (u32Be x) = x := by
  have hx := x.toNat_lt
  rw [u32OfBe, u32Be, ofBe_be (by omega)]
  simp

theorem u16Be_u16OfBe {bs : List UInt8} (h : bs.length = 2) : u16Be (u16OfBe bs) = bs := by
  have hb := ofBe_lt bs
  rw [h] at hb
  have hn : (UInt16.ofNat (ofBe bs)).toNat = ofBe bs := by
    simp only [UInt16.toNat_ofNat']
    omega
  rw [u16Be, u16OfBe, hn, ← h, be_ofBe]

theorem u32Be_u32OfBe {bs : List UInt8} (h : bs.length = 4) : u32Be (u32OfBe bs) = bs := by
  have hb := ofBe_lt bs
  rw [h] at hb
  have hn : (UInt32.ofNat (ofBe bs)).toNat = ofBe bs := by
    simp only [UInt32.toNat_ofNat']
    omega
  rw [u32Be, u32OfBe, hn, ← h, be_ofBe]

def leerU32 {ε : Type} (b : List UInt8) (i : Nat) : Res ε UInt32 := do
  let a ← campo b i 4
  pure (u32OfBe a.toList)

theorem Sigue.campoU16 {ε : Type} {b resto : List UInt8} {i : Nat} {x : UInt16}
    (h : Sigue b i (u16Be x ++ resto)) :
    ∃ a, (Quipu.campo b i 2 : Res ε (Arr 2)) = .ok a ∧ u16OfBe a.toList = x ∧
      Sigue b (i + 2) resto := by
  have ha : Sigue b i ((Arr.of (u16Be x) (length_u16Be x)).toList ++ resto) := h
  obtain ⟨hc, hr⟩ := ha.campo (ε := ε)
  exact ⟨_, hc, u16OfBe_u16Be x, hr⟩

theorem Sigue.leerU32 {ε : Type} {b resto : List UInt8} {i : Nat} {x : UInt32}
    (h : Sigue b i (u32Be x ++ resto)) :
    (Quipu.leerU32 b i : Res ε UInt32) = .ok x ∧ Sigue b (i + 4) resto := by
  have ha : Sigue b i ((Arr.of (u32Be x) (length_u32Be x)).toList ++ resto) := h
  obtain ⟨hc, hr⟩ := ha.campo (ε := ε)
  refine ⟨?_, hr⟩
  rw [Quipu.leerU32, hc, Res.ok_bind, Arr.toList_of, u32OfBe_u32Be]
  rfl

end Quipu
