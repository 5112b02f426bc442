import Quipu.PasswordMalleability
import Quipu.Sustitucion
import Mathlib.Data.List.DropRight
import Mathlib.Data.Nat.Prime.Basic

namespace Quipu

namespace Hackerbot

/-- The findings of an attack; a breach is an altered text that was accepted. -/
structure AttackReport where
  name : String
  attempts : Nat
  breaches : Nat
  deriving DecidableEq, Repr

def AttackReport.isClean (r : AttackReport) : Bool := r.breaches == 0

variable {ε α M K : Type}

/-- `is_ok` of a call; its panic goes through. -/
def isOk : Res ε α → Res Empty Bool
  | .ok _ => .ok true
  | .error (.error _) => .ok false
  | .error (.panico m) => panico m

/-- `Option::expect`. -/
def expect (mensaje : String) (o : Option α) : Res Empty α := o.elim (panico mensaje) .ok

/-- The loop of both attacks that put the next symbol of the alphabet in each place. -/
def sustituir (dict : Dictionary) (decodifica : String → Res Empty Bool) (chars : List Char) :
    List Nat → Nat → Nat → Res Empty (Nat × Nat)
  | [], attempts, breaches => .ok (attempts, breaches)
  | i :: is, attempts, breaches => do
    let c ← expect "index out of bounds" chars[i]?
    let idx ← expect "símbolo del propio diccionario" (dict.symbolToIndex c)
    let newSym ← expect "índice válido" (dict.indexToSymbol ((idx + 1) % dict.base))
    if newSym = c then sustituir dict decodifica chars is attempts breaches
    else do
      let ok ← decodifica (String.ofList (chars.set i newSym))
      sustituir dict decodifica chars is (attempts + 1) (if ok then breaches + 1 else breaches)

/-- The loop that cuts a text at each place. -/
def truncar (decodifica : String → Res Empty Bool) (chars : List Char) :
    List Nat → Nat → Nat → Res Empty (Nat × Nat)
  | [], attempts, breaches => .ok (attempts, breaches)
  | cut :: is, attempts, breaches => do
    let ok ← decodifica (String.ofList (chars.take cut))
    truncar decodifica chars is (attempts + 1) (if ok then breaches + 1 else breaches)

def tamperAttack (kdf : Kdf M K) (aead : Aead 24 K) (sha256 : List UInt8 → Arr 32)
    (data : List UInt8) (passphrase : String) (dict : Dictionary) (pepper : List UInt8)
    (opts : Api.Options) : Prog (Mundo 24 K) Empty AttackReport := do
  let symbols ← Api.encode kdf aead sha256 data passphrase dict opts
  let chars := symbols.toList
  let (attempts, breaches) ← Prog.deRes (sustituir dict
    (fun s => isOk (Api.decode kdf aead sha256 s passphrase dict pepper)) chars
    (List.range chars.length) 0 0)
  pure ⟨"tamper", attempts, breaches⟩

def truncationAttack (kdf : Kdf M K) (aead : Aead 24 K) (sha256 : List UInt8 → Arr 32)
    (data : List UInt8) (passphrase : String) (dict : Dictionary) (pepper : List UInt8)
    (opts : Api.Options) : Prog (Mundo 24 K) Empty AttackReport := do
  let symbols ← Api.encode kdf aead sha256 data passphrase dict opts
  let chars := symbols.toList
  let (attempts, breaches) ← Prog.deRes (truncar
    (fun s => isOk (Api.decode kdf aead sha256 s passphrase dict pepper)) chars
    (List.range chars.length) 0 0)
  pure ⟨"truncation", attempts, breaches⟩

section Recorrido

variable {dict : Dictionary} {decodifica : String → Res Empty Bool} {p : List Nat → Bool}

/-- Whether a text is accepted hangs on its digits alone. -/
def PorDigitos (dict : Dictionary) (decodifica : String → Res Empty Bool) (p : List Nat → Bool) :
    Prop := ∀ cs ds, dict.decodeChars cs = .ok ds → decodifica (String.ofList cs) = .ok (p ds)

/-- One turn of the loop: there is always another symbol to put in the place. -/
theorem sustituir_cons (hp : PorDigitos dict decodifica p) {cs : List Char} {ds : List Nat}
    (h : dict.decodeChars cs = .ok ds) {i : Nat} (hi : i < ds.length) (is : List Nat)
    (attempts breaches : Nat) :
    sustituir dict decodifica cs (i :: is) attempts breaches =
      sustituir dict decodifica cs is (attempts + 1)
        (if p (ds.modify i (Codec.siguiente dict.base)) then breaches + 1 else breaches) := by
  have hspec := congrArg (·[i]?) (Dictionary.decodeChars_spec h)
  have hi' : i < cs.length := Dictionary.length_decodeChars h ▸ hi
  simp only [List.getElem?_map, List.getElem?_eq_getElem hi, List.getElem?_eq_getElem hi',
    Option.map_some, Option.some.injEq] at hspec
  have hlt : ds[i] < dict.base := (List.getElem?_eq_some_iff.mp hspec).1
  have hsig : Codec.siguiente dict.base ds[i] < dict.base :=
    Nat.mod_lt _ (Nat.lt_of_lt_of_le (by decide) dict.dos)
  have hidx : dict.symbolToIndex cs[i] = some ds[i] := Dictionary.symbolToIndex_eq_some.mpr hspec
  obtain ⟨c, hc⟩ : ∃ c, dict.symbols[Codec.siguiente dict.base ds[i]]? = some c :=
    ⟨_, List.getElem?_eq_getElem hsig⟩
  have hnew : dict.indexToSymbol ((ds[i] + 1) % dict.base) = some c := hc
  have hne : c ≠ cs[i] := by
    rintro rfl
    refine Codec.siguiente_ne dict.dos hlt ?_
    exact (List.getElem?_inj hsig dict.nodup).mp (hc.trans hspec.symm)
  rw [sustituir, List.getElem?_eq_getElem hi']
  simp only [expect, Option.elim_some, Res.ok_bind, hidx, hnew]
  rw [if_neg hne, hp _ _ (Dictionary.decodeChars_set h hc), Res.ok_bind,
    List.set_eq_take_append_cons_drop, if_pos hi, ← List.modify_eq_take_cons_drop hi]

/-- The loop tries every place that it is given, and counts those whose digits are accepted. -/
theorem sustituir_eq (hp : PorDigitos dict decodifica p) {cs : List Char} {ds : List Nat}
    (h : dict.decodeChars cs = .ok ds) {is : List Nat} (his : ∀ i ∈ is, i < ds.length)
    (attempts breaches : Nat) :
    sustituir dict decodifica cs is attempts breaches = .ok (attempts + is.length,
      breaches + is.countP fun i => p (ds.modify i (Codec.siguiente dict.base))) := by
  induction is generalizing attempts breaches with
  | nil => rfl
  | cons i is ih =>
    rw [sustituir_cons hp h (his i List.mem_cons_self),
      ih fun j hj => his j (List.mem_cons_of_mem i hj), List.length_cons, List.countP_cons]
    split <;> simp only [Except.ok.injEq, Prod.mk.injEq] <;> omega

theorem truncar_eq (hp : PorDigitos dict decodifica p) {cs : List Char} {ds : List Nat}
    (h : dict.decodeChars cs = .ok ds) (is : List Nat) (attempts breaches : Nat) :
    truncar decodifica cs is attempts breaches = .ok (attempts + is.length,
      breaches + is.countP fun i => p (ds.take i)) := by
  induction is generalizing attempts breaches with
  | nil => rfl
  | cons i is ih =>
    rw [truncar, hp _ _ (Dictionary.decodeChars_take h i), Res.ok_bind, ih, List.length_cons,
      List.countP_cons]
    split <;> simp only [Except.ok.injEq, Prod.mk.injEq] <;> omega

end Recorrido

/-- The attack finds a breach exactly where one symbol holds the marker alone. -/
theorem marca_sola_iff {n L : Nat} (hL : 0 < L) :
    (3 ≤ n ∧ ∃ j, n ^ j = 256 ^ L) ↔ ∃ a, 2 ≤ a ∧ n = 2 ^ a ∧ a ∣ 8 * L := by
  have h256 := Codec.Escrito.pow_bytes L
  constructor
  · rintro ⟨hn, j, hj⟩
    have hj0 : j ≠ 0 := by
      rintro rfl
      have := Nat.one_lt_pow hL.ne' (by decide : 1 < 256)
      rw [Nat.pow_zero] at hj
      omega
    obtain ⟨a, _, rfl⟩ := (Nat.dvd_prime_pow Nat.prime_two).mp (h256 ▸ hj ▸ dvd_pow_self n hj0)
    rw [h256, ← Nat.pow_mul] at hj
    refine ⟨a, ?_, rfl, j, ((Nat.pow_right_injective (Nat.le_refl 2)) hj).symm⟩
    by_contra ha
    have : 2 ^ a ≤ 2 ^ 1 := Nat.pow_le_pow_right (by decide) (by omega)
    omega
  · rintro ⟨a, ha, rfl, j, hj⟩
    refine ⟨?_, j, by rw [h256, hj, Nat.pow_mul]⟩
    have : 2 ^ 2 ≤ 2 ^ a := Nat.pow_le_pow_right (by decide) ha
    omega

section Cuenta

variable {n : Nat} {data : List UInt8} {ds : List Nat}

/-- The weight of the first digit is the only power of the base that can be the marker. -/
theorem primera_potencia (hn : 3 ≤ n) (h : Codec.Escrito n data ds) :
    n ^ (ds.length - 1) = 256 ^ data.length ↔ ∃ j, n ^ j = 256 ^ data.length := by
  refine ⟨fun hj => ⟨_, hj⟩, ?_⟩
  rintro ⟨j, hj⟩
  have hlt := h.valor_lt
  have hlargo := h.lt_length (by omega) hj.le
  cases ds with
  | nil => cases hlargo
  | cons d r =>
    have hle := h.pow_le_valor (by omega) (l := []) (r := r) (d := d) rfl
    have hsig : n ^ r.length < n ^ (j + 1) := by
      have := Nat.mul_le_mul_left (n ^ j) hn
      rw [Nat.pow_succ]
      omega
    have hr := (Nat.pow_lt_pow_iff_right (by omega)).mp hsig
    rw [List.length_cons] at hlargo
    rw [List.length_cons, Nat.add_sub_cancel, ← hj]
    congr 1
    omega

/-- Of all the texts with one symbol passed to the next, one at most reads as the same bytes. -/
theorem countP_siguiente (hn : 2 ≤ n) (h : Codec.Escrito n data ds) (hdata : data ≠ []) :
    ((List.range ds.length).countP fun i =>
        decide (Codec.decodeBaseN (ds.modify i (Codec.siguiente n)) n = data)) =
      if 3 ≤ n ∧ n ^ (ds.length - 1) = 256 ^ data.length then 1 else 0 := by
  have hlt := h.valor_eq
  have hP : 0 < 256 ^ data.length := Nat.pow_pos (by decide)
  obtain ⟨k, hk⟩ : ∃ k, ds.length = k + 1 := by
    cases ds with
    | nil =>
      rw [List.reverse_nil, Nat.ofDigits_nil] at hlt
      omega
    | cons d r => exact ⟨r.length, rfl⟩
  have hcada : ∀ i < k + 1,
      (Codec.decodeBaseN (ds.modify i (Codec.siguiente n)) n = data ↔
        i = 0 ∧ 3 ≤ n ∧ n ^ (k - i) = 256 ^ data.length) := by
    intro i hi
    rw [← hk] at hi
    have hds : ds = ds.take i ++ ds[i] :: ds.drop (i + 1) := by
      rw [← List.drop_eq_getElem_cons hi, List.take_append_drop]
    rw [List.modify_eq_take_cons_drop hi, h.decode_siguiente hn hdata hds, List.length_drop, hk,
      Nat.add_sub_add_right, List.take_eq_nil_iff]
    refine and_congr_left fun _ => or_iff_left ?_
    rintro rfl
    exact Nat.not_lt_zero i hi
  have hresto : (List.map (· + 1) (List.range k)).countP (fun i =>
      decide (Codec.decodeBaseN (ds.modify i (Codec.siguiente n)) n = data)) = 0 := by
    rw [List.countP_eq_zero]
    intro i hi
    obtain ⟨j, hj, rfl⟩ := List.mem_map.mp hi
    have := List.mem_range.mp hj
    rw [decide_eq_true_eq, hcada _ (by omega)]
    omega
  have hcero := hcada 0 (Nat.succ_pos k)
  rw [Nat.sub_zero] at hcero
  rw [hk, List.range_succ_eq_map, List.countP_cons, Nat.add_sub_cancel]
  simp only [hcero, true_and, decide_eq_true_eq]
  rw [show List.map Nat.succ (List.range k) = List.map (· + 1) (List.range k) from rfl, hresto,
    Nat.zero_add]

theorem countP_take (hn : 2 ≤ n) (h : Codec.Escrito n data ds) (hdata : data ≠ []) :
    ((List.range ds.length).countP fun i =>
      decide (Codec.decodeBaseN (ds.take i) n = data)) = 0 := by
  rw [List.countP_eq_zero]
  intro i hi
  rw [decide_eq_true_eq]
  exact h.decode_take hn hdata (List.mem_range.mp hi)

end Cuenta

end Hackerbot

end Quipu
