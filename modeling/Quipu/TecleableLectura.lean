import Quipu.TecleableIda

namespace Quipu.Tecleable

open Digitos

/-- A text whose characters some writer can have written: no character more than the bytes need,
and zeros in the bits that they leave over. -/
def Canonico (cs : List Char) : Prop :=
  (utiles cs).length % 8 ∉ [1, 3, 6] ∧
    ∀ c, (utiles cs).getLast? = some c → (valor c).toNat % 2 ^ (5 * (utiles cs).length % 8) = 0

/-- The last symbol holds the bits that are left over, when they are fewer than its own. -/
theorem numero_mod {ds : List Nat} {d r : Nat} (hr : r ≤ 5) :
    numero 5 (ds ++ [d]) % 2 ^ r = d % 2 ^ r := by
  obtain ⟨k, hk⟩ := Nat.pow_dvd_pow 2 hr
  rw [numero_concat, hk, Nat.mul_left_comm, Nat.mul_add_mod]

/-- Symbols are those of their bytes exactly when nothing that they carry is dropped. -/
theorem aCincoBits_deCincoBits_iff {simbolos : List UInt8}
    (h : ∀ s ∈ simbolos, s.toNat < 2 ^ 5) :
    aCincoBits (deCincoBits simbolos) = simbolos ↔
      5 * simbolos.length % 8 < 5 ∧
        numero 5 (simbolos.map UInt8.toNat) % 2 ^ (5 * simbolos.length % 8) = 0 := by
  obtain ⟨hl, hv⟩ := deCincoBits_spec h
  obtain ⟨hle, hlt, h5, hn⟩ := aCincoBits_spec (deCincoBits simbolos)
  have hlen := length_aCincoBits (deCincoBits simbolos)
  have hpad (he : (aCincoBits (deCincoBits simbolos)).length = simbolos.length) :
      5 * (aCincoBits (deCincoBits simbolos)).length - 8 * (deCincoBits simbolos).length =
        5 * simbolos.length % 8 := by omega
  constructor
  · intro he
    have hlen' := congrArg List.length he
    refine ⟨by omega, ?_⟩
    rw [hpad hlen', he] at hn
    rw [hn]
    exact Nat.mul_mod_left _ _
  · rintro ⟨hr, h0⟩
    have hlen' : (aCincoBits (deCincoBits simbolos)).length = simbolos.length := by omega
    apply List.map_injective_iff.mpr (fun _ _ he => UInt8.toNat_inj.mp he)
    refine numero_inj (w := 5) (by decide) (by simp [hlen']) (List.forall_mem_map.mpr h5)
      (List.forall_mem_map.mpr h) ?_
    rw [hn, hpad hlen', hv]
    exact Nat.div_mul_cancel (Nat.dvd_of_mod_eq_zero h0)

theorem canonico_iff {cs : List Char} (h : ∀ c ∈ utiles cs, subir c ∈ alfabeto) :
    Canonico cs ↔ aCincoBits (deCincoBits ((utiles cs).map valor)) = (utiles cs).map valor := by
  have h5 : ∀ s ∈ (utiles cs).map valor, s.toNat < 2 ^ 5 :=
    List.forall_mem_map.mpr fun c hc => (toNat_valor (h c hc)).2
  rw [aCincoBits_deCincoBits_iff h5, Canonico, List.length_map]
  have hcuenta : (utiles cs).length % 8 ∉ [1, 3, 6] ↔ 5 * (utiles cs).length % 8 < 5 := by
    have hall : ∀ r < 8, r ∉ [1, 3, 6] ↔ 5 * r % 8 < 5 := by decide
    have hr := hall ((utiles cs).length % 8) (Nat.mod_lt _ (by decide))
    rwa [Nat.mul_mod_mod] at hr
  rw [hcuenta]
  apply and_congr_right
  intro hr
  cases hu : utiles cs using List.reverseRecOn with
  | nil => simp
  | append_singleton us c =>
    rw [hu] at hr
    rw [List.map_append, List.map_append, List.map_singleton, List.map_singleton,
      numero_mod (by omega), List.getLast?_concat]
    constructor
    · exact fun hc => hc c rfl
    · rintro hc d hd
      rw [← Option.some.inj hd]
      exact hc

/-- What is read is written again in the same characters exactly when the text is canonical. -/
theorem leer_canonico_iff (rs : ReedSolomon) (texto : String) :
    (∀ datos, leer rs texto .desnudo = .ok datos →
      ∃ s, escribir rs datos .desnudo = .ok s ∧
        utiles s.toList = (utiles texto.toList).map subir) ↔
      ((∀ c ∈ utiles texto.toList, subir c ∈ alfabeto) → Canonico texto.toList) := by
  have hletra (h : ∀ c ∈ utiles texto.toList, subir c ∈ alfabeto) :
      ((utiles texto.toList).map valor).map letra = (utiles texto.toList).map subir := by
    rw [List.map_map]
    exact List.map_congr_left fun c hc => letra_valor (h c hc)
  constructor
  · intro hw h
    by_cases hn : utiles texto.toList = []
    · rw [Canonico, hn]
      exact ⟨by decide, fun c hc => absurd hc (by simp)⟩
    · obtain ⟨s, hs, hu⟩ := hw _ (leer_desnudo_eq_ok.mpr ⟨h, hn, rfl⟩)
      have hss := Except.ok.inj ((escribir_desnudo rs _).symm.trans hs)
      have hv := (utiles_escrito (deCincoBits ((utiles texto.toList).map valor))).2
      rw [← hss, String.toList_ofList] at hu
      rw [hu, ← hletra h, List.map_map] at hv
      rw [canonico_iff h, ← hv]
      refine (List.map_congr_left fun x hx => ?_).trans (List.map_id _)
      obtain ⟨c, hc, rfl⟩ := List.mem_map.mp hx
      exact valor_letra (toNat_valor (h c hc)).2
  · intro hc datos hl
    obtain ⟨h, -, rfl⟩ := leer_desnudo_eq_ok.mp hl
    refine ⟨_, escribir_desnudo rs _, ?_⟩
    rw [String.toList_ofList, utiles_textoDe (aCincoBits_lt _), (canonico_iff h).mp (hc h),
      hletra h]

/-- A last character that carries a bit too many, and one character too many. -/
theorem leer_no_canonico :
    ∃ rs : ReedSolomon, leer rs "MZ" .desnudo = .ok [0x66] ∧ leer rs "MYA" .desnudo = .ok [0x66] ∧
      ∃ s, escribir rs [0x66] .desnudo = .ok s ∧
        utiles s.toList ≠ (utiles "MZ".toList).map subir ∧
          utiles s.toList ≠ (utiles "MYA".toList).map subir := by
  obtain ⟨rs, -⟩ := ReedSolomon.exists_corrige
  refine ⟨rs, rfl, rfl, _, escribir_f rs, ?_, ?_⟩
  · rw [String.toList_ofList]
    decide
  · rw [String.toList_ofList]
    decide

end Quipu.Tecleable
