import Quipu.Padme

namespace Quipu

/-- The first multiple of `m` from `l` on. -/
def alzar (m l : Nat) : Nat := (l + (m - 1)) / m * m

theorem dvd_alzar (m l : Nat) : m ∣ alzar m l := Nat.dvd_mul_left m _

theorem alzar_mono {l n : Nat} (m : Nat) (h : l ≤ n) : alzar m l ≤ alzar m n :=
  Nat.mul_le_mul_right m (Nat.div_le_div_right (Nat.add_le_add_right h _))

section Alzar

variable {m l n : Nat} (hm : 0 < m)

include hm

theorem le_alzar (l : Nat) : l ≤ alzar m l := by
  have hd := Nat.div_add_mod' (l + (m - 1)) m
  have hr := Nat.mod_lt (l + (m - 1)) hm
  rw [alzar]
  omega

theorem alzar_lt (l : Nat) : alzar m l < l + m := by
  have hd := Nat.div_mul_le_self (l + (m - 1)) m
  rw [alzar]
  omega

theorem alzar_of_dvd (h : m ∣ l) : alzar m l = l := by
  obtain ⟨k, rfl⟩ := h
  rw [alzar, Nat.mul_add_div hm, Nat.div_eq_of_lt (by omega), Nat.add_zero, Nat.mul_comm]

theorem alzar_le_of_dvd (hd : m ∣ n) (h : l ≤ n) : alzar m l ≤ n := by
  rw [← alzar_of_dvd hm hd]
  exact alzar_mono m h

end Alzar

namespace Padme

variable {ε : Type}

/-- `leading_zeros` of a `usize` of `w` bits. -/
def leadingZerosEn (w n : Nat) : Nat := if n = 0 then w else w - 1 - n.log2

def sumarEn (w a b : Nat) : Res ε Nat :=
  if a + b < 2 ^ w then .ok (a + b) else panico "attempt to add with overflow"

def restar (a b : Nat) : Res ε Nat :=
  if b ≤ a then .ok (a - b) else panico "attempt to subtract with overflow"

def desplazarEn (w a k : Nat) : Res ε Nat :=
  if k < w then .ok (a <<< k % 2 ^ w) else panico "attempt to shift left with overflow"

/-- `padded_len` with a `usize` of `w` bits and every operation checked. -/
def paddedLenEn (w l : Nat) : Res ε Nat :=
  if l < 2 then .ok l else do
    let alto ← restar (w - 1) (leadingZerosEn w l)
    let e := alto
    let s ← restar w (leadingZerosEn w e)
    let lastBits := e - s
    let uno ← desplazarEn w 1 lastBits
    let mask ← restar uno 1
    let suma ← sumarEn w l mask
    pure (suma &&& ((2 ^ w - 1) ^^^ mask))

/-- How many low bits of a length of exponent `e` are rounded away. -/
def bitsBajos (e : Nat) : Nat := e - (e.log2 + 1)

/-- The quantised length, in numbers without a largest one. -/
def cuantizada (l : Nat) : Nat := alzar (2 ^ bitsBajos l.log2) l

theorem le_cuantizada (l : Nat) : l ≤ cuantizada l := le_alzar (Nat.two_pow_pos _) l

theorem bitsBajos_le (e : Nat) : bitsBajos e ≤ e := Nat.sub_le _ _

/-- Rounding never goes over the next power of two. -/
theorem cuantizada_le {l : Nat} : cuantizada l ≤ 2 ^ (l.log2 + 1) := by
  apply alzar_le_of_dvd (Nat.two_pow_pos _)
  · apply Nat.pow_dvd_pow
    have := bitsBajos_le l.log2
    omega
  · exact Nat.le_of_lt Nat.lt_log2_self

theorem cuantizada_mono {l n : Nat} (h : l ≤ n) : cuantizada l ≤ cuantizada n := by
  by_cases h0 : l = 0
  · have hz : cuantizada 0 = 0 := by decide
    rw [h0, hz]
    exact Nat.zero_le _
  have hn : n ≠ 0 := by omega
  have hlog : l.log2 ≤ n.log2 := (Nat.le_log2 hn).mpr ((Nat.log2_self_le h0).trans h)
  by_cases he : l.log2 = n.log2
  · rw [cuantizada, cuantizada, he]
    exact alzar_mono _ h
  · calc cuantizada l ≤ 2 ^ (l.log2 + 1) := cuantizada_le
      _ ≤ 2 ^ n.log2 := Nat.pow_le_pow_right Nat.two_pos (by omega)
      _ ≤ n := Nat.log2_self_le hn
      _ ≤ cuantizada n := le_cuantizada n

theorem cuantizada_idem (l : Nat) : cuantizada (cuantizada l) = cuantizada l := by
  apply alzar_of_dvd (Nat.two_pow_pos _)
  by_cases h0 : l = 0
  · have hz : cuantizada 0 = 0 := by decide
    rw [h0, hz]
    exact Nat.dvd_zero _
  have hle := le_cuantizada l
  have hc : cuantizada l ≠ 0 := by omega
  have hlo : 2 ^ l.log2 ≤ cuantizada l := (Nat.log2_self_le h0).trans hle
  have hhi := cuantizada_le (l := l)
  by_cases hp : cuantizada l = 2 ^ (l.log2 + 1)
  · have hlog : (cuantizada l).log2 = l.log2 + 1 := by rw [hp, Nat.log2_two_pow]
    rw [hlog, hp]
    exact Nat.pow_dvd_pow 2 (bitsBajos_le _)
  · have hlog : (cuantizada l).log2 = l.log2 :=
      (Nat.log2_eq_iff hc).mpr ⟨hlo, Nat.lt_of_le_of_ne hhi hp⟩
    rw [hlog]
    exact dvd_alzar _ _

/-- From sixteen on an eighth of the power of two below is rounded away, or less. -/
theorem bitsBajos_tres {e : Nat} (h : 4 ≤ e) : bitsBajos e + 3 ≤ e := by
  have hlog : 2 ≤ e.log2 := (Nat.le_log2 (by omega)).mpr h
  rw [bitsBajos]
  omega

theorem cuantizada_octavo {l : Nat} (h : 1 ≤ l) : 8 * (cuantizada l - l) < l := by
  by_cases h16 : l < 16
  · have hall : ∀ l < 16, 1 ≤ l → 8 * (cuantizada l - l) < l := by decide
    exact hall l h16 h
  · have h4 : 4 ≤ l.log2 := (Nat.le_log2 (by omega)).mpr (by omega)
    have hlt := alzar_lt (Nat.two_pow_pos (bitsBajos l.log2)) l
    have hp : 2 ^ (bitsBajos l.log2 + 3) ≤ 2 ^ l.log2 :=
      Nat.pow_le_pow_right Nat.two_pos (bitsBajos_tres h4)
    have hl := Nat.log2_self_le (n := l) (by omega)
    rw [Nat.pow_add] at hp
    rw [cuantizada]
    omega

theorem leadingZerosEn_le {w n : Nat} (h0 : n ≠ 0) (h : n < 2 ^ w) :
    leadingZerosEn w n + n.log2 + 1 = w := by
  have hl := (Nat.log2_lt h0).mpr h
  rw [leadingZerosEn, if_neg h0]
  omega

theorem log2_lt_two_pow {w e : Nat} (h : e < w) : e < 2 ^ w := h.trans Nat.lt_two_pow_self

/-- Only the sum can fail. -/
theorem paddedLenEn_sumar {w l : Nat} (h2 : ¬l < 2) (h : l < 2 ^ w) :
    (paddedLenEn w l : Res ε Nat) = sumarEn w l (2 ^ bitsBajos l.log2 - 1) >>= fun suma =>
      pure (suma &&& ((2 ^ w - 1) ^^^ (2 ^ bitsBajos l.log2 - 1))) := by
  have h0 : l ≠ 0 := by omega
  have hz := leadingZerosEn_le h0 h
  have he : 1 ≤ l.log2 := (Nat.le_log2 h0).mpr (by omega)
  have hw : l.log2 < w := (Nat.log2_lt h0).mpr h
  have hze := leadingZerosEn_le (w := w) (n := l.log2) (by omega) (log2_lt_two_pow hw)
  have hb := bitsBajos_le l.log2
  have hr : (restar (w - 1) (leadingZerosEn w l) : Res ε Nat) = .ok l.log2 := by
    rw [restar, if_pos (by omega)]
    congr 1
    omega
  have hr' : (restar w (leadingZerosEn w l.log2) : Res ε Nat) = .ok (l.log2.log2 + 1) := by
    rw [restar, if_pos (by omega)]
    congr 1
    omega
  have hp : 2 ^ bitsBajos l.log2 < 2 ^ w := Nat.pow_lt_pow_right Nat.one_lt_two (by omega)
  have hpos := Nat.two_pow_pos (bitsBajos l.log2)
  have hd : (desplazarEn w 1 (bitsBajos l.log2) : Res ε Nat) = .ok (2 ^ bitsBajos l.log2) := by
    rw [desplazarEn, if_pos (by omega), Nat.one_shiftLeft, Nat.mod_eq_of_lt hp]
  have hm : (restar (2 ^ bitsBajos l.log2) 1 : Res ε Nat) = .ok (2 ^ bitsBajos l.log2 - 1) := by
    rw [restar, if_pos (by omega)]
  rw [paddedLenEn, if_neg h2, hr, Res.ok_bind]
  simp only
  rw [hr', Res.ok_bind, ← bitsBajos, hd, Res.ok_bind, hm, Res.ok_bind]

theorem cuantizada_of_lt_two : ∀ l < 2, cuantizada l = l := by decide

/-- As long as the sum fits, no operation fails. -/
theorem paddedLenEn_eq {w l : Nat} (h : l < 2 ^ w) (hs : l + 2 ^ bitsBajos l.log2 ≤ 2 ^ w) :
    (paddedLenEn w l : Res ε Nat) = .ok (cuantizada l) := by
  by_cases h2 : l < 2
  · rw [paddedLenEn, if_pos h2, cuantizada_of_lt_two l h2]
  · have hpos := Nat.two_pow_pos (bitsBajos l.log2)
    have hsum : (sumarEn w l (2 ^ bitsBajos l.log2 - 1) : Res ε Nat) =
        .ok (l + (2 ^ bitsBajos l.log2 - 1)) := by
      rw [sumarEn, if_pos (by omega)]
    rw [paddedLenEn_sumar h2 h, hsum, Res.ok_bind, and_xor_mask (by omega)]
    rfl

/-- Where it gives a length, that is the quantised one. -/
theorem eq_of_paddedLenEn {w l p : Nat} (h : l < 2 ^ w)
    (hp : (paddedLenEn w l : Res ε Nat) = .ok p) : p = cuantizada l := by
  by_cases hs : l + 2 ^ bitsBajos l.log2 ≤ 2 ^ w
  · rw [paddedLenEn_eq h hs] at hp
    exact (Except.ok.inj hp).symm
  · by_cases h2 : l < 2
    · rw [paddedLenEn, if_pos h2] at hp
      rw [cuantizada_of_lt_two l h2]
      exact (Except.ok.inj hp).symm
    · have hsum : (sumarEn w l (2 ^ bitsBajos l.log2 - 1) : Res ε Nat) =
          panico "attempt to add with overflow" := if_neg (by omega)
      rw [paddedLenEn_sumar h2 h, hsum] at hp
      cases hp

/-- The largest lengths that a frame can ask for, and what rounding gives for them. -/
def tope (w : Nat) : Nat := 2 ^ (w - 1) + 2 ^ (w - 3)

theorem tope_lt {w : Nat} (hw : 8 ≤ w) : tope w + 2 ^ (w - 3) < 2 ^ w := by
  have h1 : 2 ^ w = 2 ^ (w - 3) * 8 := by
    rw [show 8 = 2 ^ 3 from rfl, ← Nat.pow_add, Nat.sub_add_cancel (by omega)]
  have h3 : 2 ^ (w - 1) = 2 ^ (w - 3) * 4 := by
    rw [show 4 = 2 ^ 2 from rfl, ← Nat.pow_add]
    congr 1
    omega
  have hpos := Nat.two_pow_pos (w - 3)
  rw [tope]
  omega

theorem bitsBajos_tope {w l : Nat} (hw : 8 ≤ w) (h : l ≤ tope w) :
    bitsBajos l.log2 ≤ w - 3 := by
  have ht := tope_lt hw
  have hpos := Nat.two_pow_pos (w - 3)
  by_cases h4 : 4 ≤ l.log2
  · have hlt : l.log2 < w := (Nat.log2_lt (by rintro rfl; simp at h4)).mpr (by omega)
    have h3 := bitsBajos_tres h4
    omega
  · have hb := bitsBajos_le l.log2
    omega

theorem paddedLenEn_tope {w l : Nat} (hw : 8 ≤ w) (h : l ≤ tope w) :
    (paddedLenEn w l : Res ε Nat) = .ok (cuantizada l) := by
  have ht := tope_lt hw
  have hpos := Nat.two_pow_pos (w - 3)
  have hp : 2 ^ bitsBajos l.log2 ≤ 2 ^ (w - 3) :=
    Nat.pow_le_pow_right Nat.two_pos (bitsBajos_tope hw h)
  exact paddedLenEn_eq (by omega) (by omega)

theorem cuantizada_tope {w l : Nat} (hw : 8 ≤ w) (h : l ≤ tope w) : cuantizada l ≤ tope w := by
  have hb := bitsBajos_tope hw h
  apply alzar_le_of_dvd (Nat.two_pow_pos _)
  · exact Nat.dvd_add (Nat.pow_dvd_pow 2 (by omega)) (Nat.pow_dvd_pow 2 hb)
  · exact h

theorem le_tope {w l : Nat} (hw : w = 32 ∨ w = 64) (h : l ≤ 2 ^ (w - 1) - 1 + 8) :
    8 ≤ w ∧ l ≤ tope w := by
  rcases hw with rfl | rfl
  · exact ⟨by decide, h.trans (by decide)⟩
  · exact ⟨by decide, h.trans (by decide)⟩

/-- The law of the lengths: no overflow, no shrinking, order kept, and an eighth at most. -/
theorem padme_ley (w : Nat) (hw : w = 32 ∨ w = 64) :
    (∀ l ≤ 2 ^ (w - 1) - 1 + 8, ∃ p, (paddedLenEn w l : Res Empty Nat) = .ok p ∧ l ≤ p ∧
      (paddedLenEn w p : Res Empty Nat) = .ok p ∧ (1 ≤ l → 8 * (p - l) < l)) ∧
    ∀ l n p q, l ≤ n → n ≤ 2 ^ (w - 1) - 1 + 8 → (paddedLenEn w l : Res Empty Nat) = .ok p →
      (paddedLenEn w n : Res Empty Nat) = .ok q → p ≤ q := by
  constructor
  · intro l hl
    obtain ⟨h8, ht⟩ := le_tope hw hl
    have hp := paddedLenEn_tope (ε := Empty) h8 (cuantizada_tope h8 ht)
    rw [cuantizada_idem] at hp
    exact ⟨_, paddedLenEn_tope h8 ht, le_cuantizada l, hp, cuantizada_octavo⟩
  · intro l n p q hle hn hp hq
    obtain ⟨h8, ht⟩ := le_tope hw hn
    obtain rfl := Except.ok.inj ((paddedLenEn_tope h8 (hle.trans ht)).symm.trans hp)
    obtain rfl := Except.ok.inj ((paddedLenEn_tope h8 ht).symm.trans hq)
    exact cuantizada_mono hle

theorem padme_ley_32 :
    (∃ p, (paddedLenEn 32 2147483655 : Res Empty Nat) = .ok p ∧ 2147483655 ≤ p ∧
      (paddedLenEn 32 p : Res Empty Nat) = .ok p ∧
        (1 ≤ 2147483655 → 8 * (p - 2147483655) < 2147483655)) ∧ 1024 ≤ 1088 :=
  ⟨(padme_ley 32 (.inl rfl)).1 2147483655 (by decide),
    (padme_ley 32 (.inl rfl)).2 1000 1025 1024 1088 (by decide) (by decide) (by decide) (by decide)⟩

end Padme

end Quipu
