import Quipu.Bits
import Quipu.Dictionary
import Mathlib.Data.Nat.Digits.Lemmas

namespace Quipu

variable {ε : Type}

namespace Codec

def u64Max : Nat := 2 ^ 64 - 1

/-- `BigUint::to_u64` followed by `expect`. -/
def toU64 (mensaje : String) (v : Nat) : Res ε Nat :=
  if v ≤ u64Max then .ok v else panico mensaje

/-- The loop of `paso_maximo`; the first two conditions hold wherever it is called. -/
def pasoDesde (n paso k : Nat) : Nat × Nat :=
  if h : 2 ≤ n ∧ 0 < paso ∧ paso * n ≤ u64Max then pasoDesde n (paso * n) (k + 1) else (paso, k)
termination_by u64Max - paso
decreasing_by
  have := Nat.mul_le_mul_left paso h.1
  omega

/-- The largest power of `n` that fits in 64 bits, and its exponent. -/
def pasoMaximo (n : Nat) : Nat × Nat := pasoDesde n n 1

/-- The `k` digits of a block, zeros included, from the least significant on. -/
def digitosDe (n : Nat) : Nat → Nat → List Nat
  | 0, _ => []
  | k + 1, resto => resto % n :: digitosDe n k (resto / n)

/-- The division of `value` into blocks of `k` digits, the last without leading zeros. -/
def bloques (n paso k value : Nat) : Res ε (List Nat) :=
  if 2 ≤ paso ∧ paso ≤ value then do
    let resto ← toU64 "el resto es menor que n^k, que cabe en u64" (value % paso)
    let altos ← bloques n paso k (value / paso)
    pure (digitosDe n k resto ++ altos)
  else do
    let resto ← toU64 "value < n^k, que cabe en u64" value
    pure (Nat.digits n resto)
termination_by value
decreasing_by exact Nat.div_lt_self (by omega) (by omega)

def encodeBaseN (data : List UInt8) (n : Nat) : Res ε (List Nat) :=
  if n < 2 then panico "una base de n no codifica nada: se exige n >= 2"
  else do
    let value := ofBe (1 :: data)
    let digits ← bloques n (pasoMaximo n).1 (pasoMaximo n).2 value
    pure digits.reverse

theorem pasoDesde_eq {n paso k : Nat} (hp : paso = n ^ k) (hk : 0 < k) (hle : paso ≤ u64Max) :
    ∃ j, 0 < j ∧ pasoDesde n paso k = (n ^ j, j) ∧ n ^ j ≤ u64Max := by
  fun_induction pasoDesde n paso k with
  | case1 paso k h ih => exact ih (by rw [hp, Nat.pow_succ]) (by omega) h.2.2
  | case2 paso k h => exact ⟨k, hk, by rw [hp], hp ▸ hle⟩

theorem pasoMaximo_eq {n : Nat} (hle : n ≤ u64Max) :
    ∃ j, 0 < j ∧ pasoMaximo n = (n ^ j, j) ∧ n ^ j ≤ u64Max :=
  pasoDesde_eq (Nat.pow_one n).symm Nat.one_pos hle

/-- A full block and the digits above it are the digits of the number. -/
theorem digitosDe_append_digits {n k v : Nat} (hn : 2 ≤ n) (hv : n ^ k ≤ v) :
    digitosDe n k (v % n ^ k) ++ Nat.digits n (v / n ^ k) = Nat.digits n v := by
  induction k generalizing v with
  | zero => simp [digitosDe]
  | succ k ih =>
    have hn' : 0 < n := by omega
    have hpos : 0 < n ^ (k + 1) := Nat.pow_pos hn'
    have hdiv : n ^ k ≤ v / n := by
      rw [Nat.le_div_iff_mul_le hn', ← Nat.pow_succ]
      exact hv
    have hmod : v % n ^ (k + 1) % n = v % n := by
      rw [Nat.pow_succ, Nat.mod_mul_left_mod]
    have hquot : v % n ^ (k + 1) / n = v / n % n ^ k := by
      rw [Nat.pow_succ, Nat.mod_mul_left_div_self]
    have htop : v / n ^ (k + 1) = v / n / n ^ k := by
      rw [Nat.pow_succ, Nat.mul_comm, Nat.div_div_eq_div_mul]
    have hv' : 0 < v := hpos.trans_le hv
    rw [digitosDe, hmod, hquot, htop, List.cons_append, ih hdiv,
      ← Nat.digits_of_two_le_of_pos hn hv']

theorem bloques_eq {n k value : Nat} (hn : 2 ≤ n) (hk : 0 < k) (hle : n ^ k ≤ u64Max) :
    (bloques n (n ^ k) k value : Res ε (List Nat)) = .ok (Nat.digits n value) := by
  have hp : 2 ≤ n ^ k := hn.trans (Nat.le_self_pow hk.ne' n)
  induction value using Nat.strongRecOn with
  | ind value ih =>
    rw [bloques]
    split
    next h =>
      have hmod := Nat.mod_lt value (by omega : 0 < n ^ k)
      rw [toU64, if_pos (by omega), Res.ok_bind, ih _ (Nat.div_lt_self (by omega) h.1),
        Res.ok_bind, digitosDe_append_digits hn h.2]
      rfl
    next h =>
      rw [toU64, if_pos (by omega), Res.ok_bind]
      rfl

/-- The writer in blocks gives the digits of the marked bytes, the highest first. -/
theorem encodeBaseN_eq {n : Nat} (hn : 2 ≤ n) (hle : n ≤ u64Max) (data : List UInt8) :
    (encodeBaseN data n : Res ε (List Nat)) =
      .ok (Nat.digits n (ofBe (1 :: data))).reverse := by
  obtain ⟨j, hj, hpaso, hfit⟩ := pasoMaximo_eq hle
  have hb : (bloques n (n ^ j) j (ofBe (1 :: data)) : Res ε (List Nat)) = _ :=
    bloques_eq hn hj hfit
  simp only [encodeBaseN, if_neg (Nat.not_lt.mpr hn), hpaso, hb, Res.ok_bind]
  rfl

theorem ofBe_eq_ofDigits (bs : List UInt8) :
    ofBe bs = Nat.ofDigits 256 (bs.map UInt8.toNat).reverse := ofBe_eq_numero bs

/-- Bytes that do not start with a zero are the bytes of their number. -/
theorem toBytesBe_ofBe {b : UInt8} (hb : b ≠ 0) (bs : List UInt8) :
    toBytesBe (ofBe (b :: bs)) = b :: bs := by
  have hlast : (((b :: bs).map UInt8.toNat).reverse).getLast (by simp) ≠ 0 := by
    rw [List.getLast_reverse]
    exact fun h => hb (UInt8.toNat_inj.mp h)
  have hdig : Nat.digits 256 (ofBe (b :: bs)) = ((b :: bs).map UInt8.toNat).reverse := by
    rw [ofBe_eq_ofDigits]
    refine Nat.digits_ofDigits 256 (by decide) _ (fun d hd => ?_) fun _ => hlast
    obtain ⟨x, _, rfl⟩ := List.mem_map.mp (List.mem_reverse.mp hd)
    exact x.toNat_lt
  have hne : ofBe (b :: bs) ≠ 0 := by
    intro h
    rw [h, Nat.digits_zero] at hdig
    simp at hdig
  rw [toBytesBe, if_neg hne, hdig, List.map_reverse, List.reverse_reverse, List.map_map]
  refine List.map_id'' (fun x => ?_) _
  exact UInt8.ofNat_toNat

theorem foldl_eq_ofDigits (n : Nat) (ds : List Nat) :
    ds.foldl (fun v d => v * n + d) 0 = Nat.ofDigits n ds.reverse := by
  induction ds using List.reverseRecOn with
  | nil => rfl
  | append_singleton ds d ih =>
    rw [List.foldl_append, ih, List.reverse_append, List.reverse_singleton,
      List.singleton_append, Nat.ofDigits_cons, Nat.mul_comm, Nat.add_comm]
    rfl

/-- Digits and back: leading zeros, no bytes at all and every length survive. -/
theorem decodeBaseN_encodeBaseN {n : Nat} (hn : 2 ≤ n) (hle : n ≤ u64Max) (data : List UInt8) :
    ∃ ds, (encodeBaseN data n : Res ε (List Nat)) = .ok ds ∧ (∀ d ∈ ds, d < n) ∧
      decodeBaseN ds n = data := by
  refine ⟨_, encodeBaseN_eq hn hle data, fun d hd => ?_, ?_⟩
  · exact Nat.digits_lt_base hn (List.mem_reverse.mp hd)
  · rw [decodeBaseN, foldl_eq_ofDigits, List.reverse_reverse, Nat.ofDigits_digits,
      toBytesBe_ofBe (by decide), List.drop_succ_cons, List.drop_zero]

end Codec

namespace Dictionary

def indexToSymbol (d : Dictionary) (index : Nat) : Option Char := d.symbols[index]?

def encodeChars (d : Dictionary) : List Nat → Except DictionaryError (List Char)
  | [] => .ok []
  | i :: is => do
    let c ← (d.indexToSymbol i).elim (.error (.indexOutOfRange i)) .ok
    let cs ← d.encodeChars is
    pure (c :: cs)

def encode (d : Dictionary) (indices : List Nat) : Except DictionaryError String := do
  let cs ← d.encodeChars indices
  pure (String.ofList cs)

/-- The alphabet never overflows the 32 bits that the code counts it with. -/
theorem base_le (d : Dictionary) : d.base ≤ 0x110000 := by
  have hn : (d.symbols.map Char.toNat).Nodup :=
    d.nodup.map fun a b h => Char.toNat_inj.mp h
  have hs : d.symbols.map Char.toNat ⊆ List.range 0x110000 := by
    intro k hk
    obtain ⟨c, _, rfl⟩ := List.mem_map.mp hk
    apply List.mem_range.mpr
    rcases c.valid with h | h
    · exact Nat.lt_trans h (by decide)
    · exact h.2
  have hl := (List.subperm_of_subset hn hs).length_le
  rw [List.length_map, List.length_range] at hl
  exact hl

theorem decodeChars_encodeChars (d : Dictionary) {is : List Nat} (h : ∀ i ∈ is, i < d.base) :
    ∃ cs, d.encodeChars is = .ok cs ∧ d.decodeChars cs = .ok is := by
  induction is with
  | nil => exact ⟨[], rfl, rfl⟩
  | cons i is ih =>
    obtain ⟨cs, he, hd⟩ := ih fun j hj => h j (List.mem_cons_of_mem _ hj)
    have hi : i < d.symbols.length := h i List.mem_cons_self
    have hsym : d.indexToSymbol i = some d.symbols[i] := List.getElem?_eq_getElem hi
    have hidx : d.symbolToIndex d.symbols[i] = some i := by
      refine List.idxOf?_eq_some_iff.mpr ⟨hi, rfl, fun j hj he => ?_⟩
      exact hj.ne (d.nodup.getElem_inj_iff.mp he)
    refine ⟨d.symbols[i] :: cs, ?_, ?_⟩
    · rw [encodeChars, hsym, he]
      rfl
    · rw [decodeChars, hidx, hd]
      rfl

theorem decode_indices (d : Dictionary) {is : List Nat} (h : ∀ i ∈ is, i < d.base) :
    ∃ text, d.encode is = .ok text ∧ d.decode text = .ok is := by
  obtain ⟨cs, he, hd⟩ := d.decodeChars_encodeChars h
  refine ⟨String.ofList cs, by rw [encode, he]; rfl, ?_⟩
  rw [decode, String.toList_ofList, hd]

end Dictionary

end Quipu
