import Quipu.CodecGroups
import Mathlib.Tactic.Ring

namespace Quipu.Codec

variable {n : UInt32}

/-- The number that the digits of a group write in base `n`. -/
def valorEnBase (n : UInt32) (grupo : List (Option UInt32)) : Nat :=
  grupo.reduceOption.foldl (fun v d => v * n.toNat + d.toNat) 0

/-- A group that no writer gives. -/
def Imposible (n : UInt32) (grupo : List (Option UInt32)) : Prop :=
  grupo.length < 4 ∨ none ∈ grupo ∨ (∃ d, some d ∈ grupo ∧ n ≤ d) ∨
    0x00FFFFFF < valorEnBase n grupo

/-- Some complete group, without erasures, has an index outside the alphabet, and with such
indices read as `n - 1` it still writes a number of 24 bits. -/
def Colado (n : UInt32) (ds : List (Option UInt32)) : Prop :=
  ∃ g a b c d, grupoDe ds g = [some a, some b, some c, some d] ∧
    (n ≤ a ∨ n ≤ b ∨ n ≤ c ∨ n ≤ d) ∧
      min a.toNat (n.toNat - 1) * n.toNat ^ 3 + min b.toNat (n.toNat - 1) * n.toNat ^ 2 +
        min c.toNat (n.toNat - 1) * n.toNat + min d.toNat (n.toNat - 1) ≤ 0x00FFFFFF

theorem horner_cuatro (b w x y z : Nat) : (((0 * b + w) * b + x) * b + y) * b + z =
    w * b ^ 3 + x * b ^ 2 + y * b + z := by ring

theorem corrupto_cuatro (hn : 1 ≤ n.toNat) (a b c d : UInt32) :
    corrupto n [some a, some b, some c, some d] = true ↔
      0x00FFFFFF < min a.toNat (n.toNat - 1) * n.toNat ^ 3 +
        min b.toNat (n.toNat - 1) * n.toNat ^ 2 + min c.toNat (n.toNat - 1) * n.toNat +
          min d.toNat (n.toNat - 1) := by
  have hv := valorDeGrupo_eq hn [some a, some b, some c, some d]
  have hr : [some a, some b, some c, some d].reduceOption = [a, b, c, d] := rfl
  simp only [hr, List.foldl_cons, List.foldl_nil, toNat_recortar hn] at hv
  rw [horner_cuatro] at hv
  have hc : corrupto n [some a, some b, some c, some d] =
      Nat.blt 0x00FFFFFF (valorDeGrupo n [some a, some b, some c, some d]) := rfl
  rw [hc, Nat.blt_eq, hv, saturar]
  omega

theorem corrupto_of_none {grupo : List (Option UInt32)} (h : none ∈ grupo) :
    corrupto n grupo = true := by
  have ha : grupo.any Option.isNone = true := List.any_eq_true.mpr ⟨none, h, rfl⟩
  rw [corrupto, ha]
  rfl

/-- A complete group without erasures is four digits. -/
theorem grupo_cuatro {grupo : List (Option UInt32)} (hl : grupo.length = 4) (h : none ∉ grupo) :
    ∃ a b c d, grupo = [some a, some b, some c, some d] := by
  match grupo, hl with
  | [some a, some b, some c, some d], _ => exact ⟨a, b, c, d, rfl⟩
  | [none, _, _, _], _ => exact absurd (by simp) h
  | [some _, none, _, _], _ => exact absurd (by simp) h
  | [some _, some _, none, _], _ => exact absurd (by simp) h
  | [some _, some _, some _, none], _ => exact absurd (by simp) h

theorem imposible_cuatro (a b c d : UInt32) :
    Imposible n [some a, some b, some c, some d] ↔ (n ≤ a ∨ n ≤ b ∨ n ≤ c ∨ n ≤ d) ∨
      0x00FFFFFF < a.toNat * n.toNat ^ 3 + b.toNat * n.toNat ^ 2 + c.toNat * n.toNat +
        d.toNat := by
  have hv : valorEnBase n [some a, some b, some c, some d] =
      a.toNat * n.toNat ^ 3 + b.toNat * n.toNat ^ 2 + c.toNat * n.toNat + d.toNat := by
    have hr : [some a, some b, some c, some d].reduceOption = [a, b, c, d] := rfl
    rw [valorEnBase, hr]
    simp only [List.foldl_cons, List.foldl_nil]
    exact horner_cuatro ..
  rw [Imposible, hv]
  simp

/-- A complete group is reported when it is impossible, unless it slips through. -/
theorem corrupto_iff (hn : 1 ≤ n.toNat) {grupo : List (Option UInt32)} (hl : grupo.length = 4)
    (h : ∀ a b c d, grupo = [some a, some b, some c, some d] →
      (n ≤ a ∨ n ≤ b ∨ n ≤ c ∨ n ≤ d) → corrupto n grupo = true) :
    corrupto n grupo = true ↔ Imposible n grupo := by
  by_cases hz : none ∈ grupo
  · exact ⟨fun _ => .inr (.inl hz), fun _ => corrupto_of_none hz⟩
  · obtain ⟨a, b, c, d, rfl⟩ := grupo_cuatro hl hz
    rw [imposible_cuatro]
    by_cases hf : n ≤ a ∨ n ≤ b ∨ n ≤ c ∨ n ≤ d
    · exact ⟨fun _ => .inl hf, fun _ => h a b c d rfl hf⟩
    · have hd : a < n ∧ b < n ∧ c < n ∧ d < n := by
        simpa only [not_or, UInt32.not_le] using hf
      obtain ⟨ha, hb, hc, hd⟩ := hd
      rw [UInt32.lt_iff_toNat_lt] at ha hb hc hd
      rw [corrupto_cuatro hn, Nat.min_eq_left (by omega), Nat.min_eq_left (by omega),
        Nat.min_eq_left (by omega), Nat.min_eq_left (by omega)]
      exact ⟨.inr, fun h => h.resolve_left hf⟩

/-- The groups reported are the impossible ones exactly when no group slips through. -/
theorem reportados_iff (n : UInt32) (hn : 64 ≤ n) (ds : List (Option UInt32)) :
    (∀ g, g ∈ (decodeGrupos ds n).2 ↔ 4 * g < ds.length ∧ Imposible n (grupoDe ds g)) ↔
      ¬Colado n ds := by
  have h1 : 1 ≤ n.toNat := Nat.le_trans (by decide) (UInt32.le_iff_toNat_le.mp hn)
  have hm (g : Nat) : g ∈ (decodeGrupos ds n).2 ↔ 4 * g < ds.length ∧
      (ds.length < 4 * g + 4 ∨ corrupto n (grupoDe ds g) = true) := by
    refine (mem_desde 0 ds).trans ⟨?_, fun h => ⟨g, by omega, h⟩⟩
    rintro ⟨i, rfl, h⟩
    rwa [Nat.zero_add]
  have hl (g : Nat) : (grupoDe ds g).length = min 4 (ds.length - 4 * g) := by
    rw [grupoDe, List.length_take, List.length_drop]
  constructor
  · rintro hr ⟨g, a, b, c, d, hg, hf, hv⟩
    have hlg := hl g
    rw [hg] at hlg
    have h4 : 4 * g + 4 ≤ ds.length := by
      simp only [List.length_cons, List.length_nil] at hlg
      omega
    have hi := (hr g).mpr ⟨by omega, by rw [hg, imposible_cuatro]; exact .inl hf⟩
    have hc := ((hm g).mp hi).2.resolve_left (by omega)
    rw [hg, corrupto_cuatro h1] at hc
    omega
  · intro hn g
    rw [hm]
    apply and_congr_right
    intro hlt
    by_cases h4 : ds.length < 4 * g + 4
    · exact ⟨fun _ => .inl (by rw [hl]; omega), fun _ => .inl h4⟩
    · rw [← corrupto_iff h1 (by rw [hl]; omega) ?_]
      · exact ⟨fun h => h.resolve_left h4, .inr⟩
      · intro a b c d hg hf
        by_contra hc
        rw [hg, corrupto_cuatro h1] at hc
        exact hn ⟨g, a, b, c, d, hg, hf, Nat.not_lt.mp hc⟩

/-- An index that does not exist, in the first place of a group, is too much for 24 bits. -/
theorem reportados_iff_94 :
    (∃ d, some d ∈ grupoDe [some 94, some 0, some 0, some 0] 0 ∧ 94 ≤ d) ∧
      ∀ g, g ∈ (decodeGrupos [some 94, some 0, some 0, some 0] 94).2 ↔
        4 * g < 4 ∧ Imposible 94 (grupoDe [some 94, some 0, some 0, some 0] g) := by
  refine ⟨⟨94, by decide, by decide⟩, ?_⟩
  refine (reportados_iff 94 (by decide) [some 94, some 0, some 0, some 0]).mpr ?_
  rintro ⟨g, a, b, c, d, hg, _, hv⟩
  have hl := congrArg List.length hg
  have h0 : g = 0 := by
    simp only [grupoDe, List.length_take, List.length_drop, List.length_cons,
      List.length_nil] at hl
    omega
  subst h0
  cases hg
  exact absurd hv (by decide)

/-- An index that does not exist, in the last place of a group, is read as the last one. -/
theorem reportados_colado :
    (∃ d, some d ∈ grupoDe [some 0, some 0, some 0, some 94] 0 ∧ 94 ≤ d) ∧
      decodeGrupos [some 0, some 0, some 0, some 94] 94 = ([0, 0, 93], []) ∧
      ¬∀ g, g ∈ (decodeGrupos [some 0, some 0, some 0, some 94] 94).2 ↔
        4 * g < 4 ∧ Imposible 94 (grupoDe [some 0, some 0, some 0, some 94] g) := by
  have hd : decodeGrupos [some 0, some 0, some 0, some 94] 94 = ([0, 0, 93], []) := by
    show desde 94 0 [some 0, some 0, some 0, some 94] = _
    rw [desde_grupo (by decide), List.drop_of_length_le (by decide), desde_nil]
    decide
  have hm : some 94 ∈ grupoDe [some 0, some 0, some 0, some (94 : UInt32)] 0 := by decide
  refine ⟨⟨94, hm, by decide⟩, hd, ?_⟩
  intro h
  have h0 := (h 0).mpr ⟨by decide, .inr (.inr (.inl ⟨94, hm, by decide⟩))⟩
  rw [hd] at h0
  exact List.not_mem_nil h0

end Quipu.Codec
