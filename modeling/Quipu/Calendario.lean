import Mathlib.Data.List.Basic
import Mathlib.Tactic.Common

namespace Quipu.Calendario

/-- The cast `as u32`. -/
def comoU32 (x : Int) : Nat := (x % 4294967296).toNat

/-- From days since 1970-01-01 to year, month and day; every `/` of the source truncates. -/
def civilFromDays (z : Int) : Int × Nat × Nat :=
  let z := z + 719468
  let era := (if z ≥ 0 then z else z - 146096).tdiv 146097
  let doe := z - era * 146097
  let yoe := (doe - doe.tdiv 1460 + doe.tdiv 36524 - doe.tdiv 146096).tdiv 365
  let y := yoe + era * 400
  let doy := doe - (365 * yoe + yoe.tdiv 4 - yoe.tdiv 100)
  let mp := (5 * doy + 2).tdiv 153
  let d := comoU32 (doy - (153 * mp + 2).tdiv 5 + 1)
  let m := comoU32 (if mp < 10 then mp + 3 else mp - 9)
  (y + (if m ≤ 2 then 1 else 0), m, d)

def ceros (ancho n : Nat) : List Char := (Nat.toDigits 10 n).leftpad ancho '0'

/-- The format `{x:0ancho}`, whose width counts the sign. -/
def rellenado (ancho : Nat) (x : Int) : List Char :=
  if x < 0 then '-' :: ceros (ancho - 1) x.natAbs else ceros ancho x.natAbs

def periodOf (unixSecs : Int) : String :=
  let ymd := civilFromDays (unixSecs / 86400)
  String.ofList (rellenado 4 ymd.1 ++ '-' :: rellenado 2 ymd.2.1)

/-- The year of the era that a day of the era falls in. -/
def anoDeEra (doe : Int) : Int := (doe - doe / 1460 + doe / 36524 - doe / 146096) / 365

def diaDeAno (doe : Int) : Int :=
  doe - (365 * anoDeEra doe + anoDeEra doe / 4 - anoDeEra doe / 100)

/-- The months from March of the year 0 on, for a day counted from its first. -/
def mesDesdeMarzo (z : Int) : Int :=
  12 * (400 * (z / 146097) + anoDeEra (z % 146097)) + (5 * diaDeAno (z % 146097) + 2) / 153

theorem anoDeEra_bounds {doe : Int} (h : 0 ≤ doe) (h' : doe < 146097) :
    0 ≤ anoDeEra doe ∧ anoDeEra doe ≤ 399 := by
  unfold anoDeEra
  omega

theorem anoDeEra_mono {doe doe' : Int} (hle : doe ≤ doe') : anoDeEra doe ≤ anoDeEra doe' := by
  have hcuarto : doe - doe / 1460 ≤ doe' - doe' / 1460 := by omega
  have hsiglo : doe / 36524 - doe / 146096 ≤ doe' / 36524 - doe' / 146096 := by omega
  unfold anoDeEra
  exact Int.ediv_le_ediv (by omega) (by omega)

/-- A day of the era as a century, a cycle of four years in it and a day of the cycle. -/
theorem anoDeEra_partes {c k s : Int} (hc : 0 ≤ c) (hc' : c ≤ 3) (hk : 0 ≤ k) (hk' : k ≤ 24)
    (hs : 0 ≤ s) (hs' : s < 1461) (hfin : k = 24 → s < 1460 ∨ c = 3) :
    ∃ t, 0 ≤ t ∧ t ≤ 3 ∧ anoDeEra (36524 * c + 1461 * k + s) = 100 * c + 4 * k + t ∧
      365 * t ≤ s ∧ s ≤ 365 * t + 365 ∧ (s = 365 * t + 365 → t = 3) := by
  unfold anoDeEra
  have hcuarto : (36524 * c + 1461 * k + s) / 1460 = 25 * c + k + (24 * c + k + s) / 1460 := by
    omega
  have hacarreo : 0 ≤ (24 * c + k + s) / 1460 ∧ (24 * c + k + s) / 1460 ≤ 1 := by omega
  by_cases hultimo : k = 24 ∧ s = 1460
  · exact ⟨3, by omega, by omega, by omega, by omega, by omega, by omega⟩
  · have hsiglo : (36524 * c + 1461 * k + s) / 36524 = c := by omega
    have hera : (36524 * c + 1461 * k + s) / 146096 = 0 := by omega
    exact ⟨(s - (24 * c + k + s) / 1460) / 365, by omega, by omega, by omega, by omega, by omega,
      by omega⟩

theorem exists_partes {doe : Int} (h : 0 ≤ doe) (h' : doe < 146097) :
    ∃ c k s, 0 ≤ c ∧ c ≤ 3 ∧ 0 ≤ k ∧ k ≤ 24 ∧ 0 ≤ s ∧ s < 1461 ∧
      (k = 24 → s < 1460 ∨ c = 3) ∧ doe = 36524 * c + 1461 * k + s := by
  by_cases hultimo : doe = 146096
  · exact ⟨3, 24, 1460, by omega, by omega, by omega, by omega, by omega, by omega, by omega,
      by omega⟩
  · exact ⟨doe / 36524, doe % 36524 / 1461, doe % 36524 % 1461, by omega, by omega, by omega,
      by omega, by omega, by omega, by omega, by omega⟩

/-- Only the last year of a cycle has a 366th day, and in the last cycle of a century only when
the century is the last one of its era. -/
theorem diaDeAno_partes {doe : Int} (h : 0 ≤ doe) (h' : doe < 146097) :
    ∃ c k t, 0 ≤ c ∧ c ≤ 3 ∧ 0 ≤ k ∧ k ≤ 24 ∧ 0 ≤ t ∧ t ≤ 3 ∧
      anoDeEra doe = 100 * c + 4 * k + t ∧ 0 ≤ diaDeAno doe ∧ diaDeAno doe ≤ 365 ∧
        (diaDeAno doe = 365 → t = 3 ∧ (k = 24 → c = 3)) := by
  obtain ⟨c, k, s, hc, hc', hk, hk', hs, hs', hfin, rfl⟩ := exists_partes h h'
  obtain ⟨t, ht, ht', hano, hlo, hhi, htop⟩ := anoDeEra_partes hc hc' hk hk' hs hs' hfin
  have hcuarto : (100 * c + 4 * k + t) / 4 = 25 * c + k := by omega
  have hsiglo : (100 * c + 4 * k + t) / 100 = c := by omega
  have hdia : diaDeAno (36524 * c + 1461 * k + s) = s - 365 * t := by
    unfold diaDeAno
    rw [hano, hcuarto, hsiglo]
    omega
  rw [hdia]
  exact ⟨c, k, t, hc, hc', hk, hk', ht, ht', hano, by omega, by omega, by omega⟩

theorem diaDeAno_bounds {doe : Int} (h : 0 ≤ doe) (h' : doe < 146097) :
    0 ≤ diaDeAno doe ∧ diaDeAno doe ≤ 365 := by
  obtain ⟨-, -, -, -, -, -, -, -, -, -, hlo, hhi, -⟩ := diaDeAno_partes h h'
  exact ⟨hlo, hhi⟩

theorem mesDesdeMarzo_mono {z z' : Int} (hle : z ≤ z') : mesDesdeMarzo z ≤ mesDesdeMarzo z' := by
  have hd : 0 ≤ z % 146097 ∧ z % 146097 < 146097 := by omega
  have hd' : 0 ≤ z' % 146097 ∧ z' % 146097 < 146097 := by omega
  have hy := anoDeEra_bounds hd.1 hd.2
  have hy' := anoDeEra_bounds hd'.1 hd'.2
  have ho := diaDeAno_bounds hd.1 hd.2
  have ho' := diaDeAno_bounds hd'.1 hd'.2
  unfold mesDesdeMarzo
  by_cases hera : z / 146097 < z' / 146097
  · omega
  · have hera : z / 146097 = z' / 146097 := by omega
    have hdoe : z % 146097 ≤ z' % 146097 := by omega
    have hano := anoDeEra_mono hdoe
    by_cases he : anoDeEra (z % 146097) = anoDeEra (z' % 146097)
    · have hdia : diaDeAno (z % 146097) ≤ diaDeAno (z' % 146097) := by
        unfold diaDeAno
        omega
      omega
    · omega

theorem era_eq (z : Int) :
    (if z ≥ 0 then z else z - 146096).tdiv 146097 = z / 146097 := by
  split
  next h => exact Int.tdiv_eq_ediv_of_nonneg h
  next h =>
    have hn : z - 146096 = -(146096 - z) := by omega
    rw [hn, Int.neg_tdiv, Int.tdiv_eq_ediv_of_nonneg (by omega)]
    omega

theorem comoU32_of_bounds {x : Int} (h : 0 ≤ x) (h' : x < 4294967296) : (comoU32 x : Int) = x := by
  unfold comoU32
  omega

/-- From the month counted from March to the month of the year. -/
theorem comoU32_mes {mp : Int} (h : 0 ≤ mp) (h' : mp ≤ 11) :
    ∃ m, comoU32 (if mp < 10 then mp + 3 else mp - 9) = m ∧
      (mp < 10 ∧ (m : Int) = mp + 3 ∨ 10 ≤ mp ∧ (m : Int) = mp - 9) := by
  refine ⟨_, rfl, ?_⟩
  by_cases hmp : mp < 10
  · rw [if_pos hmp]
    exact .inl ⟨hmp, comoU32_of_bounds (by omega) (by omega)⟩
  · rw [if_neg hmp]
    exact .inr ⟨by omega, comoU32_of_bounds (by omega) (by omega)⟩

/-- Past the era every division is of a number that is not negative. -/
theorem civilFromDays_eq (z : Int) : civilFromDays z =
    let doe := (z + 719468) % 146097
    let mp := (5 * diaDeAno doe + 2) / 153
    let m := comoU32 (if mp < 10 then mp + 3 else mp - 9)
    (anoDeEra doe + (z + 719468) / 146097 * 400 + (if m ≤ 2 then 1 else 0), m,
      comoU32 (diaDeAno doe - (153 * mp + 2) / 5 + 1)) := by
  have hd : 0 ≤ (z + 719468) % 146097 ∧ (z + 719468) % 146097 < 146097 := by omega
  have hdoe : z + 719468 - (z + 719468) / 146097 * 146097 = (z + 719468) % 146097 := by omega
  have hy := anoDeEra_bounds hd.1 hd.2
  have ho := diaDeAno_bounds hd.1 hd.2
  unfold civilFromDays
  simp only [era_eq, hdoe]
  generalize (z + 719468) % 146097 = doe at hd hy ho ⊢
  have hano : (doe - doe.tdiv 1460 + doe.tdiv 36524 - doe.tdiv 146096).tdiv 365 = anoDeEra doe := by
    rw [Int.tdiv_eq_ediv_of_nonneg hd.1, Int.tdiv_eq_ediv_of_nonneg hd.1,
      Int.tdiv_eq_ediv_of_nonneg hd.1, Int.tdiv_eq_ediv_of_nonneg (by omega)]
    rfl
  have hdia : doe - (365 * anoDeEra doe + (anoDeEra doe).tdiv 4 - (anoDeEra doe).tdiv 100) =
      diaDeAno doe := by
    rw [Int.tdiv_eq_ediv_of_nonneg hy.1, Int.tdiv_eq_ediv_of_nonneg hy.1]
    rfl
  have hmp : (5 * diaDeAno doe + 2).tdiv 153 = (5 * diaDeAno doe + 2) / 153 :=
    Int.tdiv_eq_ediv_of_nonneg (by omega)
  have hmes : (153 * ((5 * diaDeAno doe + 2) / 153) + 2).tdiv 5 =
      (153 * ((5 * diaDeAno doe + 2) / 153) + 2) / 5 := Int.tdiv_eq_ediv_of_nonneg (by omega)
  simp only [hano, hdia, hmp, hmes]

/-- The date of a day, from the year and the month that start in March. -/
theorem civilFromDays_partes (z : Int) :
    ∃ y r mp : Int, ∃ m d : Nat, civilFromDays z = (y + (if m ≤ 2 then 1 else 0), m, d) ∧
      y = anoDeEra ((z + 719468) % 146097) + (z + 719468) / 146097 * 400 ∧
      r = diaDeAno ((z + 719468) % 146097) ∧ 0 ≤ r ∧ r ≤ 365 ∧ mp = (5 * r + 2) / 153 ∧
      (mp < 10 ∧ (m : Int) = mp + 3 ∨ 10 ≤ mp ∧ (m : Int) = mp - 9) ∧
      (d : Int) = r - (153 * mp + 2) / 5 + 1 := by
  have hd : 0 ≤ (z + 719468) % 146097 ∧ (z + 719468) % 146097 < 146097 := by omega
  have ho := diaDeAno_bounds hd.1 hd.2
  have hlo : 0 ≤ (5 * diaDeAno ((z + 719468) % 146097) + 2) / 153 := by omega
  have hhi : (5 * diaDeAno ((z + 719468) % 146097) + 2) / 153 ≤ 11 := by omega
  obtain ⟨m, rfl, hm⟩ := comoU32_mes hlo hhi
  exact ⟨_, _, _, _, _, civilFromDays_eq z, rfl, rfl, ho.1, ho.2, rfl, hm,
    comoU32_of_bounds (by omega) (by omega)⟩

/-- The months of `civilFromDays` follow one another without a gap. -/
theorem civilFromDays_mes (z : Int) :
    1 ≤ (civilFromDays z).2.1 ∧ (civilFromDays z).2.1 ≤ 12 ∧
      12 * (civilFromDays z).1 + (civilFromDays z).2.1 = mesDesdeMarzo (z + 719468) + 3 := by
  obtain ⟨y, r, mp, m, d, hf, hy, hr, hr0, hr1, hmp, hm, -⟩ := civilFromDays_partes z
  have hdesde : mesDesdeMarzo (z + 719468) = 12 * y + mp := by
    rw [mesDesdeMarzo, ← hr, ← hmp]
    omega
  rw [hf, hdesde]
  simp only
  split
  next => omega
  next => omega

theorem ofDigitChars_ceros (ancho n : Nat) : Nat.ofDigitChars 10 (ceros ancho n) 0 = n := by
  rw [ceros, List.leftpad, Nat.ofDigitChars_append, Nat.ofDigitChars_replicate_zero, Nat.mul_zero,
    Nat.ofDigitChars_ten_toDigits]

theorem guion_notMem_ceros (ancho n : Nat) : '-' ∉ ceros ancho n := by
  intro h
  rw [ceros, List.leftpad, List.mem_append, List.mem_replicate] at h
  rcases h with ⟨-, h⟩ | h
  · exact absurd h (by decide)
  · exact absurd (Nat.isDigit_of_mem_toDigits (by decide) (by decide) h) (by decide)

theorem ceros_inj {ancho n k : Nat} (h : ceros ancho n = ceros ancho k) : n = k := by
  rw [← ofDigitChars_ceros ancho n, h, ofDigitChars_ceros]

theorem ceros_append_inj {ancho n k : Nat} {xs ys : List Char} (hx : '-' ∉ xs)
    (h : ceros ancho n ++ '-' :: xs = ceros ancho k ++ '-' :: ys) : n = k ∧ xs = ys := by
  obtain ⟨hc, -, hxs⟩ :=
    (List.append_cons_inj_of_notMem (guion_notMem_ceros _ _) hx).mp h
  exact ⟨ceros_inj hc, hxs⟩

/-- The digits of a number are never read as the sign of another. -/
theorem guion_ne_ceros_append {ancho n : Nat} {xs ys : List Char} :
    '-' :: xs ≠ ceros (ancho + 1) n ++ ys := by
  intro h
  have hn : '-' ∉ ceros (ancho + 1) n := guion_notMem_ceros _ _
  have hl : ancho + 1 ≤ (ceros (ancho + 1) n).length := by
    rw [ceros, List.length_leftpad]
    exact Nat.le_max_left _ _
  cases hc : ceros (ancho + 1) n with
  | nil =>
    rw [hc] at hl
    exact absurd hl (Nat.not_succ_le_zero _)
  | cons c cs =>
    rw [hc] at h hn
    obtain rfl := (List.cons.inj h).1
    exact hn List.mem_cons_self

theorem rellenado_append_inj {ancho : Nat} {x y : Int} {xs ys : List Char} (hg : '-' ∉ xs)
    (h : rellenado (ancho + 1) x ++ '-' :: xs = rellenado (ancho + 1) y ++ '-' :: ys) :
    x = y ∧ xs = ys := by
  unfold rellenado at h
  split at h
  next hx =>
    split at h
    next hy =>
      obtain ⟨hn, hxs⟩ := ceros_append_inj hg (List.cons.inj h).2
      exact ⟨by omega, hxs⟩
    next => exact absurd h guion_ne_ceros_append
  next hx =>
    split at h
    next => exact absurd h.symm guion_ne_ceros_append
    next hy =>
      obtain ⟨hn, hxs⟩ := ceros_append_inj hg h
      exact ⟨by omega, hxs⟩

theorem rellenado_inj {ancho : Nat} {x y : Int}
    (h : rellenado (ancho + 1) x = rellenado (ancho + 1) y) : x = y :=
  (rellenado_append_inj List.not_mem_nil (congrArg (· ++ ['-']) h)).1

theorem guion_notMem_rellenado (ancho n : Nat) : '-' ∉ rellenado ancho n := by
  rw [rellenado, if_neg (Int.not_lt.mpr (Int.natCast_nonneg n))]
  exact guion_notMem_ceros _ _

/-- The text of a period says its year and its month, also before the year 0. -/
theorem periodOf_inj {t t' : Int} (h : periodOf t = periodOf t') :
    (civilFromDays (t / 86400)).1 = (civilFromDays (t' / 86400)).1 ∧
      (civilFromDays (t / 86400)).2.1 = (civilFromDays (t' / 86400)).2.1 := by
  obtain ⟨hy, hm⟩ := rellenado_append_inj (guion_notMem_rellenado _ _) (String.ofList_injective h)
  exact ⟨hy, Int.ofNat_inj.mp (rellenado_inj hm)⟩

/-- Two instants share their period exactly when they share their month. -/
theorem periodOf_eq_iff {t t' : Int} : periodOf t = periodOf t' ↔
    mesDesdeMarzo (t / 86400 + 719468) = mesDesdeMarzo (t' / 86400 + 719468) := by
  obtain ⟨hm, hm', he⟩ := civilFromDays_mes (t / 86400)
  obtain ⟨hk, hk', he'⟩ := civilFromDays_mes (t' / 86400)
  constructor
  · intro hp
    obtain ⟨hy, hmes⟩ := periodOf_inj hp
    omega
  · intro hs
    have ha : (civilFromDays (t / 86400)).1 = (civilFromDays (t' / 86400)).1 := by omega
    have hmes : (civilFromDays (t / 86400)).2.1 = (civilFromDays (t' / 86400)).2.1 := by omega
    rw [periodOf, periodOf, ha, hmes]

/-- The instants of a period have no gap. -/
theorem periodOf_entre {t₁ t₂ t₃ : Int} (h₁₂ : t₁ ≤ t₂) (h₂₃ : t₂ ≤ t₃)
    (hp : periodOf t₁ = periodOf t₃) : periodOf t₁ = periodOf t₂ := by
  have hm := periodOf_eq_iff.mp hp
  have h₁ := mesDesdeMarzo_mono (show t₁ / 86400 + 719468 ≤ t₂ / 86400 + 719468 by omega)
  have h₂ := mesDesdeMarzo_mono (show t₂ / 86400 + 719468 ≤ t₃ / 86400 + 719468 by omega)
  exact periodOf_eq_iff.mpr (by omega)

example : periodOf 0 = "1970-01" := by decide

end Quipu.Calendario
