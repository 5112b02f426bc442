import Quipu.Bits
import Quipu.Palabras

namespace Quipu.Palabras

open Digitos

variable {datos : List UInt8} {suma : Arr 32}

theorem bitDe_eq {i : Nat} (h : i < datos.length * 8 + 256) :
    bitDe datos suma i = .ok (UInt32.ofNat (bit (datos ++ suma.toList) i)) := by
  have hl : suma.toList.length = 32 := suma.toList_length
  have hb (x : UInt8) (j : Nat) : (x >>> UInt8.ofNat (7 - j % 8) &&& 1).toUInt32 =
      UInt32.ofNat (x.toNat / 2 ^ (7 - j % 8) % 2) := by
    apply UInt32.toNat_inj.mp
    rw [UInt8.toNat_toUInt32, toNat_bit x (by omega), UInt32.toNat_ofNat']
    have := Nat.mod_lt (x.toNat / 2 ^ (7 - j % 8)) Nat.two_pos
    omega
  unfold bitDe
  split
  next hi =>
    have hi' : i / 8 < datos.length := by omega
    rw [octeto_ok hi', Res.ok_bind, bit_append suma.toList (by omega)]
    show Except.ok _ = Except.ok _
    rw [hb, bit, List.getD_eq_getElem?_getD, List.getElem?_eq_getElem hi']
    rfl
  next hi =>
    have hj : (i - datos.length * 8) / 8 < suma.toList.length := by omega
    have he : i - 8 * datos.length = i - datos.length * 8 := by omega
    simp only
    rw [octeto_ok hj, Res.ok_bind, bit_append_right suma.toList (by omega), he]
    show Except.ok _ = Except.ok _
    rw [hb, bit, List.getD_eq_getElem?_getD, List.getElem?_eq_getElem hj]
    rfl

def juntarBit (bs : List UInt8) (s : Nat) (idx : UInt32) (k : Nat) : UInt32 :=
  idx <<< 1 ||| UInt32.ofNat (bit bs (s + k))

theorem toNat_juntarBits (bs : List UInt8) (s : Nat) {k : Nat} (hk : k ≤ 31) :
    ((List.range k).foldl (juntarBit bs s) 0).toNat = bits bs s k := by
  induction k with
  | zero => rfl
  | succ k ih =>
    have hu := bit_lt bs (s + k)
    have ho : (UInt32.ofNat (bit bs (s + k))).toNat = bit bs (s + k) := by
      rw [UInt32.toNat_ofNat']
      omega
    have hl := bits_lt bs s k
    have hp : 2 ^ k ≤ 2 ^ 30 := Nat.pow_le_pow_right Nat.two_pos (by omega)
    rw [List.range_succ, List.foldl_append, bits]
    refine (toNat_shiftLeft_or (m := 1) (by omega) (by omega)).trans ?_
    rw [ih (by omega), ho, Nat.mod_eq_of_lt (by omega), Nat.pow_one]

theorem indiceEn_eq {p : Nat} (h : (p + 1) * 11 ≤ datos.length * 8 + 256) :
    indiceEn datos suma p = .ok (UInt32.ofNat (bits (datos ++ suma.toList) (p * 11) 11)) := by
  have hf : indiceEn datos suma p =
      .ok ((List.range 11).foldl (juntarBit (datos ++ suma.toList) (p * 11)) 0) := by
    apply Res.foldlM_of_ok
    intro idx k hk
    have hk' := List.mem_range.mp hk
    rw [bitDe_eq (by omega), Res.ok_bind]
    rfl
  have hl := bits_lt (datos ++ suma.toList) (p * 11) 11
  rw [hf]
  apply congrArg
  apply UInt32.toNat_inj.mp
  rw [toNat_juntarBits _ _ (by omega), UInt32.toNat_ofNat']
  omega

/-- Whole bytes leave the accumulator until less than one is left. -/
theorem vaciar_lleva {acc : UInt32} {N total n : Nat} {plano : List UInt8} (hn : n < 32)
    (h : Digitos.Lleva 8 N total acc.toNat n (plano.map UInt8.toNat)) :
    (vaciar acc n plano).1 < 8 ∧
      Digitos.Lleva 8 N total acc.toNat (vaciar acc n plano).1
        ((vaciar acc n plano).2.map UInt8.toNat) := by
  induction n using Nat.strongRecOn generalizing plano with
  | ind n ih =>
    unfold vaciar
    split
    next h8 =>
      have hb : (acc >>> UInt32.ofNat (n - 8) &&& 0xff).toUInt8.toNat =
          acc.toNat / 2 ^ (n - 8) % 2 ^ 8 := by
        rw [toNat_low_byte, UInt32.toNat_shiftRight, toNat_ofNat_mod_32 (by omega),
          Nat.shiftRight_eq_div_pow]
        rfl
      refine ih (n - 8) (by omega) (by omega) ?_
      rw [List.map_append]
      exact h.sale h8 hb
    next h8 => exact ⟨by omega, h⟩

/-- The number that the indices of a phrase write, eleven bits each. -/
def numeroDe (indices : List UInt32) : Nat := numero 11 (indices.map UInt32.toNat)

/-- The loop of `leer` after the indices that write `N` in `total` bits. -/
structure Deshecho.Lleva (N total : Nat) (d : Deshecho) : Prop where
  resto : d.n < 8
  bits : Digitos.Lleva 8 N total d.acc.toNat d.n (d.plano.map UInt8.toNat)

theorem Deshecho.Lleva.meter {N total : Nat} {d : Deshecho} {idx : UInt32} (h : d.Lleva N total)
    (hi : idx.toNat < 2 ^ 11) : (d.meter idx).Lleva (N * 2 ^ 11 + idx.toNat) (total + 11) := by
  have hr := h.resto
  have ha : (d.acc <<< 11 ||| idx).toNat = d.acc.toNat % 2 ^ 21 * 2 ^ 11 + idx.toNat :=
    toNat_shiftLeft_or (m := 11) (by omega) hi
  have hm := h.bits.mete hi (by omega) ha
  obtain ⟨hn, hv⟩ := vaciar_lleva (by omega) hm
  exact ⟨hn, hv⟩

theorem Deshecho.Lleva.meterTodos {indices : List UInt32}
    (h : ∀ idx ∈ indices, idx.toNat < 2 ^ 11) :
    (indices.foldl Deshecho.meter ⟨0, 0, []⟩).Lleva (numeroDe indices) (11 * indices.length) := by
  induction indices using List.reverseRecOn with
  | nil => exact ⟨by decide, .inicio 8⟩
  | append_singleton indices idx ih =>
    have hm := (ih fun x hx => h x (List.mem_append_left _ hx)).meter (h idx (by simp))
    rw [List.foldl_append, List.length_append, List.length_singleton, Nat.mul_succ, numeroDe,
      List.map_append, List.map_singleton, numero_concat]
    exact hm

theorem Deshecho.Lleva.cerrar {N total : Nat} {d : Deshecho} (h : d.Lleva N total) :
    total ≤ 8 * d.cerrar.length ∧ 8 * d.cerrar.length < total + 8 ∧
      ofBe d.cerrar = N * 2 ^ (8 * d.cerrar.length - total) := by
  have hr := h.resto
  have hc := h.bits.cuenta
  rw [List.length_map] at hc
  unfold Deshecho.cerrar
  split
  next hn =>
    have hp : 256 = 2 ^ d.n * 2 ^ (8 - d.n) := by
      rw [← Nat.pow_add, Nat.add_sub_cancel' (by omega)]
    have hb : (d.acc <<< UInt32.ofNat (8 - d.n) &&& 0xff).toUInt8.toNat =
        d.acc.toNat % 2 ^ d.n * 2 ^ (8 - d.n) := by
      rw [toNat_low_byte, UInt32.toNat_shiftLeft, toNat_ofNat_mod_32 (by omega), Nat.shiftLeft_eq,
        Nat.mod_mod_of_dvd _ (by decide), hp, Nat.mul_mod_mul_right]
    have hv := h.bits.cierra (by omega) hb
    have hl : (d.plano ++ [(d.acc <<< UInt32.ofNat (8 - d.n) &&& 0xff).toUInt8]).length =
        d.plano.length + 1 := by simp
    have he : 8 * (d.plano.length + 1) - total = 8 - d.n := by omega
    rw [hl, he]
    refine ⟨by omega, by omega, ?_⟩
    rw [ofBe_eq_numero, List.map_append, List.map_singleton, hv]
  next hn =>
    have h0 : d.n = 0 := by omega
    have hv := h.bits.pierde
    rw [h0, Nat.pow_zero, Nat.div_one] at hv
    have he : 8 * d.plano.length - total = 0 := by omega
    refine ⟨by omega, by omega, ?_⟩
    rw [he, Nat.pow_zero, Nat.mul_one, ofBe_eq_numero, hv]

theorem toList_head_tail {n : Nat} (a : Arr (n + 1)) : a.toList = a.head :: a.tail.toList := by
  rw [← List.Vector.toList_cons, List.Vector.cons_head_tail]

theorem numeroDe_lt {indices : List UInt32} (h : ∀ idx ∈ indices, idx.toNat < 2 ^ 11) :
    numeroDe indices < 2 ^ (11 * indices.length) := by
  have hd : ∀ d ∈ indices.map UInt32.toNat, d < 2 ^ 11 := List.forall_mem_map.mpr h
  have hn := numero_lt hd
  rwa [List.length_map] at hn

/-- The bytes that `leer` takes from `L` bytes and `b` bits more. -/
theorem Deshecho.cerrar_de {indices : List UInt32} {L b : Nat}
    (h : ∀ idx ∈ indices, idx.toNat < 2 ^ 11) (hb : 0 < b) (hb8 : b ≤ 8)
    (hj : indices.length * 11 = 8 * L + b) :
    (indices.foldl Deshecho.meter ⟨0, 0, []⟩).cerrar =
      be L (numeroDe indices / 2 ^ b) ++
        [UInt8.ofNat (numeroDe indices % 2 ^ b * 2 ^ (8 - b))] := by
  have hp : 256 = 2 ^ b * 2 ^ (8 - b) := by
    rw [← Nat.pow_add, Nat.add_sub_cancel' hb8]
  have hlt := numeroDe_lt h
  obtain ⟨hle, hl8, hv⟩ := (Deshecho.Lleva.meterTodos h).cerrar
  generalize (indices.foldl Deshecho.meter ⟨0, 0, []⟩).cerrar = plano at hle hl8 hv ⊢
  have hl : plano.length = L + 1 := by omega
  have he : 8 * (L + 1) - 11 * indices.length = 8 - b := by omega
  have hq : numeroDe indices / 2 ^ b < 256 ^ L := by
    apply Nat.div_lt_of_lt_mul
    rw [show 256 = 2 ^ 8 from rfl, ← Nat.pow_mul, ← Nat.pow_add]
    rwa [show b + 8 * L = 11 * indices.length by omega]
  have hr : numeroDe indices % 2 ^ b * 2 ^ (8 - b) < 256 := by
    rw [hp]
    exact Nat.mul_lt_mul_of_pos_right (Nat.mod_lt _ (Nat.two_pow_pos b)) (Nat.two_pow_pos _)
  apply ofBe_inj
  · rw [hl, List.length_append, length_be, List.length_singleton]
  · have hd := Nat.div_add_mod (numeroDe indices) (2 ^ b)
    rw [hv, hl, he, ofBe_concat, ofBe_be hq, UInt8.toNat_ofNat', Nat.mod_eq_of_lt hr]
    conv_lhs => rw [← hd]
    rw [Nat.add_mul, Nat.mul_comm (2 ^ b), Nat.mul_assoc, ← hp]

/-- The indices that `escribir` puts in words. -/
def indicesEscritos (bs : List UInt8) (m : Nat) : List UInt32 :=
  (List.range m).map fun p => UInt32.ofNat (bits bs (p * 11) 11)

theorem indicesEscritos_lt {bs : List UInt8} {m : Nat} :
    ∀ idx ∈ indicesEscritos bs m, idx.toNat < 2 ^ 11 := by
  intro idx h
  obtain ⟨p, -, rfl⟩ := List.mem_map.mp h
  have hb := bits_lt bs (p * 11) 11
  rw [UInt32.toNat_ofNat']
  omega

theorem numeroDe_escritos (bs : List UInt8) (m : Nat) :
    numeroDe (indicesEscritos bs m) = bits bs 0 (m * 11) := by
  induction m with
  | zero => simp [indicesEscritos, numeroDe, bits]
  | succ m ih =>
    have hb := bits_lt bs (m * 11) 11
    have hi : (UInt32.ofNat (bits bs (m * 11) 11)).toNat = bits bs (m * 11) 11 := by
      rw [UInt32.toNat_ofNat']
      omega
    rw [numeroDe, indicesEscritos] at ih ⊢
    rw [List.range_succ, List.map_append, List.map_append, List.map_singleton, List.map_singleton,
      numero_concat, ih, hi, Nat.succ_mul, bits_add, Nat.zero_add]

/-- The number of the entropy and of the bits of the digest that fit. -/
theorem bits_suma {b : Nat} (hb8 : b ≤ 8) :
    bits (datos ++ suma.toList) 0 (8 * datos.length + b) =
      ofBe datos * 2 ^ b + suma.head.toNat / 2 ^ (8 - b) := by
  rw [bits_add, Nat.zero_add, bits_append _ (by omega), bits_ofBe, bits_append_right,
    toList_head_tail, bits_altos _ _ hb8]

/-- The mask of `leer` keeps the high bits of a byte. -/
theorem toNat_mascara (s : UInt8) {k : Nat} (hk : k < 8) :
    (s &&& (0xff <<< UInt8.ofNat k)).toNat = s.toNat / 2 ^ k * 2 ^ k := by
  have hs := s.toNat_lt
  rw [UInt8.toNat_and, UInt8.toNat_shiftLeft, toNat_ofNat_mod_8 hk, ← Nat.shiftRight_eq_div_pow,
    ← Nat.shiftLeft_eq]
  apply Nat.eq_of_testBit_eq
  intro i
  have hi : 8 ≤ i → s.toNat.testBit i = false := fun h =>
    Nat.testBit_lt_two_pow (Nat.lt_of_lt_of_le hs (Nat.pow_le_pow_right Nat.two_pos h))
  show (s.toNat &&& (2 ^ 8 - 1) <<< k % 2 ^ 8).testBit i = _
  simp only [Nat.testBit_and, Nat.testBit_shiftLeft, Nat.testBit_shiftRight,
    Nat.testBit_mod_two_pow, Nat.testBit_two_pow_sub_one]
  by_cases hk' : k ≤ i
  · by_cases h8 : i < 8
    · have hik : i - k < 8 := by omega
      simp [hk', h8, hik, Nat.add_sub_cancel' hk']
    · simp [hi (by omega), Nat.add_sub_cancel' hk']
  · simp [hk']

end Quipu.Palabras
