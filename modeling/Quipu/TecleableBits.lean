import Quipu.Bits
import Quipu.Tecleable

namespace Quipu.Tecleable

open Digitos

/-- A loop that gives digits of `v` bits, after the bits that write `N`. -/
structure Acumulador.Lleva (v N total : Nat) (a : Acumulador) : Prop where
  resto : a.bits < v
  lleva : Digitos.Lleva v N total a.acc.toNat a.bits (a.out.map UInt8.toNat)

theorem sacarCinco_lleva {acc : UInt16} {N total n : Nat} {out : List UInt8} (hn : n < 16)
    (h : Digitos.Lleva 5 N total acc.toNat n (out.map UInt8.toNat)) :
    (sacarCinco acc n out).1 < 5 ∧
      Digitos.Lleva 5 N total acc.toNat (sacarCinco acc n out).1
        ((sacarCinco acc n out).2.map UInt8.toNat) := by
  induction n using Nat.strongRecOn generalizing out with
  | ind n ih =>
    unfold sacarCinco
    split
    next h5 =>
      have hb : (acc >>> UInt16.ofNat (n - 5) &&& 0x1f).toUInt8.toNat =
          acc.toNat / 2 ^ (n - 5) % 2 ^ 5 := by
        rw [toNat_low_bits (w := 5) _ (by decide) (by decide), UInt16.toNat_shiftRight,
          toNat_ofNat_mod_16 (by omega), Nat.shiftRight_eq_div_pow]
      refine ih (n - 5) (by omega) (by omega) ?_
      rw [List.map_append]
      exact h.sale h5 hb
    next h5 => exact ⟨by omega, h⟩

theorem Acumulador.Lleva.meterOcho {N total : Nat} {a : Acumulador} (h : a.Lleva 5 N total)
    (b : UInt8) : (a.meterOcho b).Lleva 5 (N * 2 ^ 8 + b.toNat) (total + 8) := by
  have hr := h.resto
  have hb : b.toUInt16.toNat < 2 ^ 8 := b.toNat_lt
  have ha : (a.acc <<< 8 ||| b.toUInt16).toNat = a.acc.toNat % 2 ^ 8 * 2 ^ 8 + b.toNat :=
    toNat_shiftLeft_or_16 (m := 8) (by omega) hb
  obtain ⟨hn, hv⟩ := sacarCinco_lleva (by omega) (h.lleva.mete b.toNat_lt (by omega) ha)
  exact ⟨hn, hv⟩

theorem Acumulador.Lleva.meterOchos (datos : List UInt8) :
    (datos.foldl Acumulador.meterOcho ⟨0, 0, []⟩).Lleva 5 (ofBe datos) (8 * datos.length) := by
  induction datos using List.reverseRecOn with
  | nil => exact ⟨by decide, .inicio 5⟩
  | append_singleton datos b ih =>
    rw [List.foldl_append, List.length_append, List.length_singleton, Nat.mul_succ, ofBe_concat]
    exact ih.meterOcho b

theorem mem_toNat {w : Nat} {xs : List UInt8} (h : ∀ d ∈ xs.map UInt8.toNat, d < 2 ^ w) :
    ∀ x ∈ xs, x.toNat < 2 ^ w := fun _ hx => h _ (List.mem_map_of_mem hx)

/-- The symbols of some bytes: as many as they need, the last one filled with zeros. -/
theorem aCincoBits_spec (datos : List UInt8) :
    8 * datos.length ≤ 5 * (aCincoBits datos).length ∧
      5 * (aCincoBits datos).length < 8 * datos.length + 5 ∧
      (∀ s ∈ aCincoBits datos, s.toNat < 2 ^ 5) ∧
      numero 5 ((aCincoBits datos).map UInt8.toNat) =
        ofBe datos * 2 ^ (5 * (aCincoBits datos).length - 8 * datos.length) := by
  have h := Acumulador.Lleva.meterOchos datos
  unfold aCincoBits
  simp only
  generalize datos.foldl Acumulador.meterOcho ⟨0, 0, []⟩ = a at h
  have hr := h.resto
  have hc := h.lleva.cuenta
  rw [List.length_map] at hc
  split
  next hn =>
    have hp : 2 ^ 5 = 2 ^ a.bits * 2 ^ (5 - a.bits) := by
      rw [← Nat.pow_add, Nat.add_sub_cancel' (by omega)]
    have hb : (a.acc <<< UInt16.ofNat (5 - a.bits) &&& 0x1f).toUInt8.toNat =
        a.acc.toNat % 2 ^ a.bits * 2 ^ (5 - a.bits) := by
      have hd : 2 ^ 5 ∣ 2 ^ 16 := Nat.pow_dvd_pow 2 (by omega)
      rw [toNat_low_bits (w := 5) _ (by decide) (by decide), UInt16.toNat_shiftLeft,
        toNat_ofNat_mod_16 (by omega), Nat.shiftLeft_eq, Nat.mod_mod_of_dvd _ hd, hp,
        Nat.mul_mod_mul_right]
    have hv := h.lleva.cierra (by omega) hb
    have hlt := h.lleva.cierra_lt (by omega) hb
    have he : 5 * (a.out.length + 1) - 8 * datos.length = 5 - a.bits := by omega
    rw [List.length_append, List.length_singleton, he]
    refine ⟨by omega, by omega, ?_, ?_⟩
    · apply mem_toNat
      rw [List.map_append]
      exact hlt
    · rw [List.map_append]
      exact hv
  next hn =>
    have h0 : a.bits = 0 := by omega
    have hv := h.lleva.pierde
    rw [h0, Nat.pow_zero, Nat.div_one] at hv
    have he : 5 * a.out.length - 8 * datos.length = 0 := by omega
    rw [he, Nat.pow_zero, Nat.mul_one]
    exact ⟨by omega, by omega, mem_toNat h.lleva.cifras, hv⟩

theorem length_aCincoBits (datos : List UInt8) :
    (aCincoBits datos).length = (8 * datos.length + 4) / 5 := by
  obtain ⟨hle, hlt, -, -⟩ := aCincoBits_spec datos
  omega

theorem aCincoBits_lt (datos : List UInt8) : ∀ s ∈ aCincoBits datos, s.toNat < 2 ^ 5 :=
  (aCincoBits_spec datos).2.2.1

theorem Acumulador.Lleva.meterCinco {N total : Nat} {a : Acumulador} (h : a.Lleva 8 N total)
    {s : UInt8} (hs : s.toNat < 2 ^ 5) :
    (a.meterCinco s).Lleva 8 (N * 2 ^ 5 + s.toNat) (total + 5) := by
  have hr := h.resto
  have hm : (s &&& 0x1f).toUInt16.toNat = s.toNat := by
    rw [UInt8.toNat_toUInt16, UInt8.toNat_and]
    exact (Nat.and_two_pow_sub_one_eq_mod s.toNat 5).trans (Nat.mod_eq_of_lt hs)
  have ha : (a.acc <<< 5 ||| (s &&& 0x1f).toUInt16).toNat =
      a.acc.toNat % 2 ^ 11 * 2 ^ 5 + s.toNat := by
    rw [← hm]
    exact toNat_shiftLeft_or_16 (m := 5) (by omega) (by omega)
  have hl := h.lleva.mete hs (by omega) ha
  unfold Acumulador.meterCinco
  simp only
  split
  next h8 =>
    have hb : ((a.acc <<< 5 ||| (s &&& 0x1f).toUInt16) >>> UInt16.ofNat (a.bits + 5 - 8) &&&
        0xff).toUInt8.toNat =
          (a.acc <<< 5 ||| (s &&& 0x1f).toUInt16).toNat / 2 ^ (a.bits + 5 - 8) % 2 ^ 8 := by
      rw [toNat_low_bits (w := 8) _ (by decide) (by decide), UInt16.toNat_shiftRight,
        toNat_ofNat_mod_16 (by omega), Nat.shiftRight_eq_div_pow]
    have hs := hl.sale h8 hb
    refine ⟨by simp only; omega, ?_⟩
    rw [List.map_append]
    exact hs
  next h8 => exact ⟨by simp only; omega, hl⟩

theorem Acumulador.Lleva.meterCincos {simbolos : List UInt8}
    (h : ∀ s ∈ simbolos, s.toNat < 2 ^ 5) :
    (simbolos.foldl Acumulador.meterCinco ⟨0, 0, []⟩).Lleva 8
      (numero 5 (simbolos.map UInt8.toNat)) (5 * simbolos.length) := by
  induction simbolos using List.reverseRecOn with
  | nil => exact ⟨by decide, .inicio 8⟩
  | append_singleton simbolos s ih =>
    have hm := (ih fun x hx => h x (List.mem_append_left _ hx)).meterCinco (h s (by simp))
    rw [List.foldl_append, List.length_append, List.length_singleton, Nat.mul_succ,
      List.map_append, List.map_singleton, numero_concat]
    exact hm

/-- The whole bytes that some symbols write; less than a byte is dropped. -/
theorem deCincoBits_spec {simbolos : List UInt8} (h : ∀ s ∈ simbolos, s.toNat < 2 ^ 5) :
    (deCincoBits simbolos).length = 5 * simbolos.length / 8 ∧
      ofBe (deCincoBits simbolos) =
        numero 5 (simbolos.map UInt8.toNat) / 2 ^ (5 * simbolos.length % 8) := by
  have hl := Acumulador.Lleva.meterCincos h
  unfold deCincoBits
  generalize simbolos.foldl Acumulador.meterCinco ⟨0, 0, []⟩ = a at hl
  have hr := hl.resto
  have hc := hl.lleva.cuenta
  have hv := hl.lleva.pierde
  rw [List.length_map] at hc
  have hm : a.bits = 5 * simbolos.length % 8 := by omega
  refine ⟨by omega, ?_⟩
  rw [ofBe_eq_numero, hv, hm]

theorem deCincoBits_aCincoBits (datos : List UInt8) : deCincoBits (aCincoBits datos) = datos := by
  obtain ⟨hle, hlt, h5, hv⟩ := aCincoBits_spec datos
  obtain ⟨hl, hn⟩ := deCincoBits_spec h5
  have hm : 5 * (aCincoBits datos).length % 8 =
      5 * (aCincoBits datos).length - 8 * datos.length := by omega
  apply ofBe_inj
  · omega
  · rw [hn, hv, hm, Nat.mul_div_cancel _ (Nat.two_pow_pos _)]

end Quipu.Tecleable
