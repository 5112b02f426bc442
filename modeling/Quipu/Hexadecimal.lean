import Quipu.Servidor
import Mathlib.Data.Vector.Basic
import Mathlib.Data.Vector.Mem

namespace Quipu.Servidor

open Aleatorio Almacen

/-- The bytes that the digits of `from_hex` stand for, two by two. -/
def paresHex : List UInt8 → Option (List UInt8)
  | a :: b :: resto => do
    let hi ← hexval a
    let lo ← hexval b
    let bs ← paresHex resto
    pure ((hi <<< 4 ||| lo) :: bs)
  | _ => some []

def fromHex (s : String) : Option (List UInt8) :=
  let b := utf8 s
  if b.length % 2 ≠ 0 then none else paresHex b

/-- `to_ascii_lowercase` of a byte. -/
def aMinuscula (b : UInt8) : UInt8 := if 65 ≤ b ∧ b ≤ 90 then b + 32 else b

/-- The bytes of the two digits of `b`. -/
def digitos (b : UInt8) : List UInt8 := (hexDigits b).map fun c => UInt8.ofNat c.toNat

theorem utf8_ascii {cs : List Char} (h : ∀ c ∈ cs, c.toNat < 128) :
    utf8 (String.ofList cs) = cs.map fun c => UInt8.ofNat c.toNat := by
  rw [utf8, String.toUTF8_eq_toByteArray, String.toByteArray_ofList, List.utf8Encode,
    List.data_toByteArray, List.toList_toArray, List.map_eq_flatMap]
  apply List.flatMap_congr
  intro c hc
  have hv : c.val.toNat = c.toNat := rfl
  have hlt := h c hc
  unfold String.utf8EncodeChar
  simp only [hv]
  rw [if_pos (by omega)]

theorem digitChar_ascii : ∀ d < 16, (Nat.digitChar d).toNat < 128 := by decide

theorem hexDigits_ascii {b : UInt8} {c : Char} (hc : c ∈ hexDigits b) : c.toNat < 128 := by
  have hb := b.toNat_lt
  rcases List.mem_pair.mp hc with rfl | rfl
  · exact digitChar_ascii _ (by omega)
  · exact digitChar_ascii _ (by omega)

theorem utf8_toHex (bs : List UInt8) : utf8 (toHex bs) = bs.flatMap digitos := by
  have hc : ∀ c ∈ bs.flatMap hexDigits, c.toNat < 128 := by
    intro c hc
    obtain ⟨b, -, hb⟩ := List.mem_flatMap.mp hc
    exact hexDigits_ascii hb
  rw [toHex, utf8_ascii hc, List.map_flatMap]
  rfl

/-- A byte is read as a digit exactly when in lower case it is the byte of that digit. -/
theorem hexval_eq_some (a : UInt8) {d : Nat} (hd : d < 16) :
    hexval a = some (UInt8.ofNat d) ↔ aMinuscula a = UInt8.ofNat (Nat.digitChar d).toNat := by
  have h : ∀ n < 256, ∀ d < 16, hexval (UInt8.ofNat n) = some (UInt8.ofNat d) ↔
      aMinuscula (UInt8.ofNat n) = UInt8.ofNat (Nat.digitChar d).toNat := by decide +kernel
  have ha := h a.toNat a.toNat_lt d hd
  rwa [UInt8.ofNat_toNat] at ha

theorem hexval_lt {a h : UInt8} (ha : hexval a = some h) : h.toNat < 16 := by
  have hall : ∀ n < 256, (hexval (UInt8.ofNat n)).all fun h => h.toNat < 16 := by decide +kernel
  have hn := hall a.toNat a.toNat_lt
  rw [UInt8.ofNat_toNat, ha] at hn
  simpa using hn

theorem nibbles {hi lo : Nat} (hhi : hi < 16) (hlo : lo < 16) :
    (UInt8.ofNat hi <<< 4 ||| UInt8.ofNat lo).toNat = 16 * hi + lo := by
  have h : ∀ hi < 16, ∀ lo < 16,
      (UInt8.ofNat hi <<< 4 ||| UInt8.ofNat lo).toNat = 16 * hi + lo := by decide +kernel
  exact h hi hhi lo hlo

theorem digitos_eq (b : UInt8) :
    digitos b = [UInt8.ofNat (Nat.digitChar (b.toNat / 16)).toNat,
      UInt8.ofNat (Nat.digitChar (b.toNat % 16)).toNat] := rfl

/-- Two digits are read as `b` exactly when in lower case they are the digits of `b`. -/
theorem par_eq_some (x y b : UInt8) :
    (do let hi ← hexval x; let lo ← hexval y; pure (hi <<< 4 ||| lo)) = some b ↔
      [aMinuscula x, aMinuscula y] = digitos b := by
  have hb := b.toNat_lt
  rw [digitos_eq, List.cons_eq_cons, List.cons_eq_cons]
  rw [← hexval_eq_some x (by omega), ← hexval_eq_some y (by omega)]
  constructor
  · intro h
    obtain ⟨hi, hx, h⟩ := Option.bind_eq_some_iff.mp h
    obtain ⟨lo, hy, h⟩ := Option.bind_eq_some_iff.mp h
    have hhi := hexval_lt hx
    have hlo := hexval_lt hy
    have hn := nibbles hhi hlo
    rw [UInt8.ofNat_toNat, UInt8.ofNat_toNat, Option.some.inj h] at hn
    have h₁ : b.toNat / 16 = hi.toNat := by omega
    have h₂ : b.toNat % 16 = lo.toNat := by omega
    rw [h₁, h₂, UInt8.ofNat_toNat, UInt8.ofNat_toNat]
    exact ⟨hx, hy, rfl⟩
  · rintro ⟨hx, hy, -⟩
    have hn := nibbles (show b.toNat / 16 < 16 by omega) (show b.toNat % 16 < 16 by omega)
    rw [hx, hy]
    refine congrArg some (UInt8.toNat_inj.mp ?_)
    rw [hn]
    omega

theorem paresHex_cons (x y : UInt8) (resto : List UInt8) :
    paresHex (x :: y :: resto) =
      (do let hi ← hexval x; let lo ← hexval y; pure (hi <<< 4 ||| lo)).bind fun b =>
        (paresHex resto).map (b :: ·) := by
  rw [paresHex]
  cases hexval x with
  | none => rfl
  | some hi =>
    cases hexval y with
    | none => rfl
    | some lo =>
      cases paresHex resto with
      | none => rfl
      | some bs => rfl

theorem paresHex_eq_some {l bs : List UInt8} (hl : l.length % 2 = 0) :
    paresHex l = some bs ↔ l.map aMinuscula = bs.flatMap digitos := by
  induction l using paresHex.induct generalizing bs with
  | case1 x y resto ih =>
    have hresto : resto.length % 2 = 0 := by
      simp only [List.length_cons] at hl
      omega
    simp only [paresHex_cons, Option.bind_eq_some_iff, Option.map_eq_some_iff, par_eq_some,
      ih hresto]
    constructor
    · rintro ⟨b, hb, bs, hbs, rfl⟩
      rw [List.flatMap_cons, ← hb, ← hbs]
      rfl
    · intro h
      cases bs with
      | nil => cases h
      | cons b bs =>
        rw [List.flatMap_cons, List.map_cons, List.map_cons] at h
        have hdos : [aMinuscula x, aMinuscula y] ++ resto.map aMinuscula =
            digitos b ++ bs.flatMap digitos := h
        obtain ⟨hb, hbs⟩ := List.append_inj hdos rfl
        exact ⟨b, hb, bs, hbs, rfl⟩
  | case2 l h =>
    have hnil : l = [] := by
      match l, h, hl with
      | [], _, _ => rfl
      | [_], _, hl => cases hl
      | x :: y :: resto, h, _ => exact absurd rfl (h x y resto)
    subst hnil
    cases bs with
    | nil => exact iff_of_true rfl rfl
    | cons b bs => exact iff_of_false (fun h => nomatch h) (fun h => nomatch h)

/-- `from_hex` reads the bytes whose digits the text is, in either case, and nothing else. -/
theorem fromHex_eq_some {s : String} {bs : List UInt8} :
    fromHex s = some bs ↔ (utf8 s).map aMinuscula = utf8 (toHex bs) := by
  rw [fromHex, utf8_toHex]
  by_cases hl : (utf8 s).length % 2 = 0
  · rw [if_neg (not_not.mpr hl), paresHex_eq_some hl]
  · rw [if_pos hl]
    refine iff_of_false (fun h => nomatch h) fun h => hl ?_
    have hlen := congrArg List.length h
    rw [List.length_map, List.length_flatMap] at hlen
    have hdos : bs.map (fun b => (digitos b).length) = List.replicate bs.length 2 :=
      List.map_eq_replicate_iff.mpr fun b _ => rfl
    rw [hdos, List.sum_replicate] at hlen
    rw [hlen, smul_eq_mul, Nat.mul_mod_left]

theorem map_aMinuscula_digitos (b : UInt8) : (digitos b).map aMinuscula = digitos b := by
  have h : ∀ n < 256, (digitos (UInt8.ofNat n)).map aMinuscula = digitos (UInt8.ofNat n) := by
    decide +kernel
  have hb := h b.toNat b.toNat_lt
  rwa [UInt8.ofNat_toNat] at hb

theorem fromHex_toHex (bs : List UInt8) : fromHex (toHex bs) = some bs := by
  rw [fromHex_eq_some, utf8_toHex, List.map_flatMap]
  exact List.flatMap_congr fun b _ => map_aMinuscula_digitos b

theorem length_utf8_toHex (bs : List UInt8) : (utf8 (toHex bs)).length = 2 * bs.length := by
  rw [utf8_toHex, List.length_flatMap]
  have hdos : bs.map (fun b => (digitos b).length) = List.replicate bs.length 2 :=
    List.map_eq_replicate_iff.mpr fun b _ => rfl
  rw [hdos, List.sum_replicate, smul_eq_mul, Nat.mul_comm]

/-- A vector of optional values is full exactly when each of its values is there. -/
theorem mmap_eq_some {α β : Type} {f : α → Option β} {n : Nat} {v : List.Vector α n}
    {w : List.Vector β n} : v.mmap f = some w ↔ ∀ i, f (v.get i) = some (w.get i) := by
  induction n with
  | zero =>
    rw [v.eq_nil, w.eq_nil]
    exact iff_of_true rfl fun i => i.elim0
  | succ n ih =>
    obtain ⟨a, v, rfl⟩ := v.exists_eq_cons
    obtain ⟨b, w, rfl⟩ := w.exists_eq_cons
    rw [List.Vector.mmap_cons, Fin.forall_fin_succ]
    simp only [Option.bind_eq_bind, Option.bind_eq_some_iff, ih, List.Vector.get_zero,
      List.Vector.head_cons, List.Vector.get_cons_succ]
    constructor
    · rintro ⟨b', hb, w', hw, h⟩
      obtain ⟨rfl, rfl⟩ := List.Vector.eq_cons_iff _ _ _ |>.mp (Option.some.inj h)
      exact ⟨hb, hw⟩
    · rintro ⟨hb, hw⟩
      exact ⟨b, hb, w, hw, rfl⟩

/-- The digits of a list of bytes, pair by pair. -/
theorem map_aMinuscula_eq {l bs : List UInt8} (h : l.length = 2 * bs.length) :
    l.map aMinuscula = bs.flatMap digitos ↔ ∀ i < bs.length,
      [aMinuscula (l.getD (2 * i) 0), aMinuscula (l.getD (2 * i + 1) 0)] =
        digitos (bs.getD i 0) := by
  induction bs generalizing l with
  | nil =>
    rw [List.length_eq_zero_iff.mp h]
    exact iff_of_true rfl fun i hi => absurd hi i.not_lt_zero
  | cons b bs ih =>
    match l, h with
    | x :: y :: l, h =>
      have hl : l.length = 2 * bs.length := by
        simp only [List.length_cons] at h
        omega
      rw [List.flatMap_cons, List.map_cons, List.map_cons]
      constructor
      · intro heq i hi
        have hdos : [aMinuscula x, aMinuscula y] ++ l.map aMinuscula =
            digitos b ++ bs.flatMap digitos := heq
        obtain ⟨hb, hbs⟩ := List.append_inj hdos rfl
        cases i with
        | zero => exact hb
        | succ i => exact (ih hl).mp hbs i (Nat.lt_of_succ_lt_succ hi)
      · intro hall
        have hb : [aMinuscula x, aMinuscula y] = digitos b := hall 0 (Nat.succ_pos _)
        rw [← hb, (ih hl).mpr fun i hi => hall (i + 1) (Nat.succ_lt_succ hi)]
        rfl

/-- The reader of 32 bytes is the reader of any number of them, at that length. -/
theorem fromHex32_eq_some {s : String} {a : Arr 32} :
    fromHex32 s = some a ↔ fromHex s = some a.toList := by
  rw [fromHex_eq_some, utf8_toHex, fromHex32]
  by_cases hl : (utf8 s).length = 64
  · rw [map_aMinuscula_eq (by rw [hl, a.toList_length])]
    simp only [hl, ne_eq, not_true_eq_false, if_false, mmap_eq_some, par_eq_some,
      List.Vector.get_ofFn, a.toList_length]
    have hget : ∀ i : Fin 32, a.toList.getD i.val 0 = a.get i := by
      intro i
      have hi : i.val < a.toList.length := by
        rw [a.toList_length]
        exact i.isLt
      rw [List.getD_eq_getElem?_getD, List.getElem?_eq_getElem hi, Option.getD_some,
        List.Vector.get_eq_get_toList]
      rfl
    constructor
    · intro h i hi
      rw [h ⟨i, hi⟩, hget ⟨i, hi⟩]
    · intro h i
      rw [h i.val i.isLt, hget i]
  · rw [if_pos hl]
    refine iff_of_false (fun h => nomatch h) fun h => hl ?_
    have hlen := congrArg List.length h
    rwa [List.length_map, ← utf8_toHex, length_utf8_toHex, a.toList_length] at hlen

/-- What holds of the sixteen digits holds of the characters of a text in hexadecimal. -/
theorem toHex_forall {P : Char → Prop} (h : ∀ d < 16, P (Nat.digitChar d)) {bs : List UInt8}
    {c : Char} (hc : c ∈ (toHex bs).toList) : P c := by
  rw [toHex, String.toList_ofList] at hc
  obtain ⟨b, -, hb⟩ := List.mem_flatMap.mp hc
  have hlt := b.toNat_lt
  rcases List.mem_pair.mp hb with rfl | rfl
  · exact h _ (by omega)
  · exact h _ (by omega)

theorem trim_eq_self {s : String} (h : ∀ c ∈ s.toList, isWhitespace c = false) : trim s = s := by
  have hd : ∀ l : List Char, (∀ c ∈ l, isWhitespace c = false) → l.dropWhile isWhitespace = l := by
    intro l hl
    cases l with
    | nil => rfl
    | cons c l => rw [List.dropWhile_cons_of_neg (by simp [hl c List.mem_cons_self])]
  have hr : ∀ c ∈ s.toList.reverse, isWhitespace c = false := fun c hc =>
    h c (List.mem_reverse.mp hc)
  rw [trim, hd _ h, hd _ hr, List.reverse_reverse, String.ofList_toList]

theorem trim_toHex (bs : List UInt8) : trim (toHex bs) = toHex bs :=
  trim_eq_self fun _ hc => toHex_forall (P := fun c => isWhitespace c = false) (by decide) hc

theorem fromHex32_toHex (a : Arr 32) : fromHex32 (toHex a.toList) = some a := by
  rw [fromHex32_eq_some, fromHex_toHex]

theorem fromHex32_trim_toHex (a : Arr 32) : fromHex32 (trim (toHex a.toList)) = some a := by
  rw [trim_toHex, fromHex32_toHex]

end Quipu.Servidor
