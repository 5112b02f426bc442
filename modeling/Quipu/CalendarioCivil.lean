import Quipu.Calendario
import Quipu.Fallo
import Mathlib.Algebra.BigOperators.Intervals
import Mathlib.Order.Monotone.Basic
import Mathlib.Tactic.IntervalCases

open Finset

namespace Quipu.Calendario

/-- The leap years of the Gregorian calendar, extended to every year. -/
def bisiesto (y : Int) : Bool := y % 4 = 0 ∧ (y % 100 ≠ 0 ∨ y % 400 = 0)

def diasDelMes (bis : Bool) (m : Nat) : Nat :=
  if m = 2 then if bis then 29 else 28 else if m = 4 ∨ m = 6 ∨ m = 9 ∨ m = 11 then 30 else 31

/-- The days of the years before `y`, up to a constant. -/
def diasHastaAno (y : Int) : Int := 365 * y + (y - 1) / 4 - (y - 1) / 100 + (y - 1) / 400

/-- The days from 1970-01-01 to a date, by its whole years, its whole months and its day. -/
def diasDesdeCivil (y : Int) (m d : Nat) : Int :=
  diasHastaAno y - diasHastaAno 1970 + ((∑ k ∈ Ico 1 m, diasDelMes (bisiesto y) k : Nat) : Int) +
    d - 1

/-- A date of the calendar. -/
def EsFecha (y : Int) (m d : Nat) : Prop :=
  1 ≤ m ∧ m ≤ 12 ∧ 1 ≤ d ∧ d ≤ diasDelMes (bisiesto y) m

theorem diasHastaAno_succ (y : Int) :
    diasHastaAno (y + 1) = diasHastaAno y + if bisiesto y then 366 else 365 := by
  unfold diasHastaAno bisiesto
  simp only [decide_eq_true_eq]
  split
  next h => omega
  next h => omega

/-- The days from the first of March to the first of the month `mp` after it. -/
def inicioDeMes (mp : Nat) : Nat := (153 * mp + 2) / 5

theorem sum_diasDelMes (bis : Bool) {m : Nat} (h : 1 ≤ m) (h' : m ≤ 12) :
    ((∑ k ∈ Ico 1 m, diasDelMes bis k : Nat) : Int) =
      inicioDeMes ((m + 9) % 12) + if m ≤ 2 then -306 else if bis then 60 else 59 := by
  have hall : ∀ bis : Bool, ∀ m ≤ 12, 1 ≤ m →
      ((∑ k ∈ Ico 1 m, diasDelMes bis k : Nat) : Int) =
        inicioDeMes ((m + 9) % 12) + if m ≤ 2 then -306 else if bis then 60 else 59 := by decide
  exact hall bis m h' h

theorem diasDelMes_eq (bis : Bool) {m : Nat} (h : 1 ≤ m) (h' : m ≤ 12) (h2 : m ≠ 2) :
    inicioDeMes ((m + 9) % 12) + diasDelMes bis m = inicioDeMes ((m + 9) % 12 + 1) := by
  have hall : ∀ bis : Bool, ∀ m ≤ 12, 1 ≤ m → m ≠ 2 →
      inicioDeMes ((m + 9) % 12) + diasDelMes bis m = inicioDeMes ((m + 9) % 12 + 1) := by decide
  exact hall bis m h' h h2

/-- The 366th day of a year that starts in March is the leap day of the next one. -/
theorem bisiesto_of_diaDeAno {doe : Int} (h : 0 ≤ doe) (h' : doe < 146097)
    (hr : diaDeAno doe = 365) (era : Int) :
    bisiesto (anoDeEra doe + era * 400 + 1) = true := by
  obtain ⟨c, k, t, hc, hc', hk, hk', ht, ht', hano, -, -, hfin⟩ := diaDeAno_partes h h'
  obtain ⟨rfl, hsiglo⟩ := hfin hr
  rw [hano, bisiesto, decide_eq_true_iff]
  by_cases h24 : k = 24
  · have := hsiglo h24
    omega
  · omega

example : diasDesdeCivil 1970 1 1 = 0 ∧ diasDesdeCivil 2000 2 29 = 11016 := by decide

theorem fecha_valida {y r mp : Int} {m d : Nat} (hr : 0 ≤ r) (hr' : r ≤ 365)
    (hmp : mp = (5 * r + 2) / 153)
    (hm : mp < 10 ∧ (m : Int) = mp + 3 ∨ 10 ≤ mp ∧ (m : Int) = mp - 9)
    (hd : (d : Int) = r - (153 * mp + 2) / 5 + 1) (hbis : r = 365 → bisiesto (y + 1) = true) :
    EsFecha (y + if m ≤ 2 then 1 else 0) m d := by
  have h1 : 1 ≤ m := by omega
  have h12 : m ≤ 12 := by omega
  refine ⟨h1, h12, by omega, ?_⟩
  by_cases h2 : m = 2
  · subst h2
    by_cases h365 : r = 365
    · rw [if_pos (le_refl 2), hbis h365]
      have h29 : diasDelMes true 2 = 29 := rfl
      omega
    · have h28 : 28 ≤ diasDelMes (bisiesto (y + if 2 ≤ 2 then 1 else 0)) 2 := by
        cases bisiesto (y + if 2 ≤ 2 then 1 else 0) <;> decide
      omega
  · have he := diasDelMes_eq (bisiesto (y + if m ≤ 2 then 1 else 0)) h1 h12 h2
    have hq : (((m + 9) % 12 : Nat) : Int) = mp := by omega
    generalize (m + 9) % 12 = q at he hq
    have hfin : r + 1 ≤ inicioDeMes (q + 1) := by
      unfold inicioDeMes
      omega
    have hini : (inicioDeMes q : Int) = (153 * mp + 2) / 5 := by
      unfold inicioDeMes
      omega
    omega

/-- The days from 1970 to a date, by its year and its month from March on. -/
theorem diasDesdeCivil_eq {y mp : Int} {m d : Nat} (hmp : 0 ≤ mp) (hmp' : mp ≤ 11)
    (hm : mp < 10 ∧ (m : Int) = mp + 3 ∨ 10 ≤ mp ∧ (m : Int) = mp - 9) :
    diasDesdeCivil (y + if m ≤ 2 then 1 else 0) m d =
      365 * y + y / 4 - y / 100 + y / 400 + (153 * mp + 2) / 5 + d - 719469 := by
  have h1970 : diasHastaAno 1970 = 719527 := by decide
  have hsucc : diasHastaAno (y + 1) = 365 * (y + 1) + y / 4 - y / 100 + y / 400 := by
    rw [diasHastaAno, Int.add_sub_cancel]
  rw [diasDesdeCivil, sum_diasDelMes _ (by omega) (by omega), h1970, inicioDeMes]
  by_cases h2 : m ≤ 2
  · rw [if_pos h2, if_pos h2, hsucc]
    omega
  · have hano := diasHastaAno_succ y
    rw [if_neg h2, if_neg h2, Int.add_zero]
    split at hano
    next hb =>
      rw [if_pos hb]
      omega
    next hb =>
      rw [if_neg hb]
      omega

/-- Every day has a date of the calendar, and the date counts the days back. -/
theorem civilFromDays_fecha (z : Int) :
    EsFecha (civilFromDays z).1 (civilFromDays z).2.1 (civilFromDays z).2.2 ∧
      diasDesdeCivil (civilFromDays z).1 (civilFromDays z).2.1 (civilFromDays z).2.2 = z := by
  obtain ⟨y, r, mp, m, d, hf, hy, hr, hr0, hr1, hmp, hm, hd⟩ := civilFromDays_partes z
  have hz : 0 ≤ (z + 719468) % 146097 ∧ (z + 719468) % 146097 < 146097 := by omega
  have hyoe := anoDeEra_bounds hz.1 hz.2
  have hdoe : r = (z + 719468) % 146097 - (365 * anoDeEra ((z + 719468) % 146097) +
      anoDeEra ((z + 719468) % 146097) / 4 - anoDeEra ((z + 719468) % 146097) / 100) := hr
  rw [hf]
  simp only
  constructor
  · refine fecha_valida hr0 hr1 hmp hm hd fun h365 => ?_
    rw [hy]
    exact bisiesto_of_diaDeAno hz.1 hz.2 (hr.symm.trans h365) _
  · have hcuarto : y / 4 = 100 * ((z + 719468) / 146097) +
        anoDeEra ((z + 719468) % 146097) / 4 := by omega
    have hsiglo : y / 100 = 4 * ((z + 719468) / 146097) +
        anoDeEra ((z + 719468) % 146097) / 100 := by omega
    have hera : y / 400 = (z + 719468) / 146097 := by omega
    rw [diasDesdeCivil_eq (by omega) (by omega) hm, hcuarto, hsiglo, hera]
    omega

variable {ε : Type}

/-- The result of an operation on `i64`, which has to be one too. -/
def chequear (mensaje : String) (x : Int) : Res ε Int :=
  if -2 ^ 63 ≤ x ∧ x < 2 ^ 63 then .ok x else panico mensaje

def suma (a b : Int) : Res ε Int := chequear "attempt to add with overflow" (a + b)

def resta (a b : Int) : Res ε Int := chequear "attempt to subtract with overflow" (a - b)

def producto (a b : Int) : Res ε Int := chequear "attempt to multiply with overflow" (a * b)

def cociente (a b : Int) : Res ε Int :=
  if b = 0 then panico "attempt to divide by zero"
  else chequear "attempt to divide with overflow" (a.tdiv b)

/-- The cast `as u32`, of a number that does not lose anything by it. -/
def comoU32En (x : Int) : Res ε Nat :=
  if 0 ≤ x ∧ x < 2 ^ 32 then .ok (comoU32 x)
  else panico "out of range integral type conversion attempted"

def eraEn (z : Int) : Res ε Int := do
  let n ← (if z ≥ 0 then .ok z else resta z 146096)
  cociente n 146097

def anoDeEraEn (doe : Int) : Res ε Int := do
  cociente (← resta (← suma (← resta doe (← cociente doe 1460)) (← cociente doe 36524))
    (← cociente doe 146096)) 365

def diaDeAnoEn (doe yoe : Int) : Res ε Int := do
  resta doe (← resta (← suma (← producto 365 yoe) (← cociente yoe 4)) (← cociente yoe 100))

def mesEn (mp : Int) : Res ε Nat := do
  let n ← (if mp < 10 then suma mp 3 else resta mp 9)
  comoU32En n

/-- `civil_from_days` with every operation and every cast checked. -/
def civilFromDaysEn (z : Int) : Res ε (Int × Nat × Nat) := do
  let z ← suma z 719468
  let era ← eraEn z
  let doe ← resta z (← producto era 146097)
  let yoe ← anoDeEraEn doe
  let y ← suma yoe (← producto era 400)
  let doy ← diaDeAnoEn doe yoe
  let mp ← cociente (← suma (← producto 5 doy) 2) 153
  let d ← comoU32En (← suma (← resta doy (← cociente (← suma (← producto 153 mp) 2) 5)) 1)
  let m ← mesEn mp
  let y ← suma y (if m ≤ 2 then 1 else 0)
  pure (y, m, d)

/-- `period_of` on the checked date. -/
def periodOfEn (unixSecs : Int) : Res ε String := do
  let dias ← chequear "attempt to divide with overflow" (unixSecs / 86400)
  let (y, m, _) ← civilFromDaysEn dias
  pure (String.ofList (rellenado 4 y ++ '-' :: rellenado 2 m))

section Chequeo

variable {a b x : Int}

theorem chequear_ok (mensaje : String) (h : -2 ^ 63 ≤ x) (h' : x < 2 ^ 63) :
    (chequear mensaje x : Res ε Int) = .ok x := if_pos ⟨h, h'⟩

theorem suma_ok (h : -2 ^ 63 ≤ a + b) (h' : a + b < 2 ^ 63) :
    (suma a b : Res ε Int) = .ok (a + b) := chequear_ok _ h h'

theorem resta_ok (h : -2 ^ 63 ≤ a - b) (h' : a - b < 2 ^ 63) :
    (resta a b : Res ε Int) = .ok (a - b) := chequear_ok _ h h'

theorem producto_ok (h : -2 ^ 63 ≤ a * b) (h' : a * b < 2 ^ 63) :
    (producto a b : Res ε Int) = .ok (a * b) := chequear_ok _ h h'

theorem cociente_ok (h : 0 ≤ a) (h' : a < 2 ^ 63) (hb : 0 < b) :
    (cociente a b : Res ε Int) = .ok (a / b) := by
  have hle : a / b ≤ a := Int.ediv_le_self b h
  have h0 : 0 ≤ a / b := Int.ediv_nonneg h (Int.le_of_lt hb)
  rw [cociente, if_neg (Int.ne_of_gt hb), Int.tdiv_eq_ediv_of_nonneg h]
  exact chequear_ok _ (by omega) (by omega)

theorem comoU32En_ok (h : 0 ≤ x) (h' : x < 2 ^ 32) :
    (comoU32En x : Res ε Nat) = .ok (comoU32 x) := if_pos ⟨h, h'⟩

end Chequeo

theorem anoDeEraEn_ok {doe : Int} (h : 0 ≤ doe) (h' : doe < 146097) :
    (anoDeEraEn doe : Res ε Int) = .ok (anoDeEra doe) := by
  unfold anoDeEraEn anoDeEra
  simp (disch := omega) only [cociente_ok, resta_ok, suma_ok, Res.ok_bind]

theorem diaDeAnoEn_ok {doe : Int} (h : 0 ≤ doe) (h' : doe < 146097) :
    (diaDeAnoEn doe (anoDeEra doe) : Res ε Int) = .ok (diaDeAno doe) := by
  have hy := anoDeEra_bounds h h'
  unfold diaDeAnoEn diaDeAno
  simp (disch := omega) only [cociente_ok, resta_ok, suma_ok, producto_ok, Res.ok_bind]

theorem eraEn_ok {z : Int} (h : -2 ^ 62 ≤ z) (h' : z < 2 ^ 62) :
    (eraEn z : Res ε Int) = .ok (z / 146097) := by
  have hr : (if z ≥ 0 then .ok z else resta z 146096 : Res ε Int) =
      .ok (if z ≥ 0 then z else z - 146096) := by
    split
    next => rfl
    next => exact resta_ok (by omega) (by omega)
  rw [eraEn, hr, Res.ok_bind, cociente, if_neg (by decide), era_eq]
  exact chequear_ok _ (by omega) (by omega)

theorem mesEn_ok {mp : Int} (h : 0 ≤ mp) (h' : mp ≤ 11) :
    (mesEn mp : Res ε Nat) = .ok (comoU32 (if mp < 10 then mp + 3 else mp - 9)) := by
  unfold mesEn
  split
  next => rw [suma_ok (by omega) (by omega), Res.ok_bind, comoU32En_ok (by omega) (by omega)]
  next => rw [resta_ok (by omega) (by omega), Res.ok_bind, comoU32En_ok (by omega) (by omega)]

/-- Neither an operation nor a cast loses anything for the days that an `i64` of seconds has. -/
theorem civilFromDaysEn_ok {z : Int} (h : -2 ^ 61 ≤ z) (h' : z < 2 ^ 61) :
    (civilFromDaysEn z : Res ε (Int × Nat × Nat)) = .ok (civilFromDays z) := by
  have hd : 0 ≤ (z + 719468) % 146097 ∧ (z + 719468) % 146097 < 146097 := by omega
  have hdoe : z + 719468 - (z + 719468) / 146097 * 146097 = (z + 719468) % 146097 := by omega
  have hy := anoDeEra_bounds hd.1 hd.2
  have ho := diaDeAno_bounds hd.1 hd.2
  rw [civilFromDays_eq]
  simp only
  unfold civilFromDaysEn
  rw [suma_ok (by omega) (by omega), Res.ok_bind, eraEn_ok (by omega) (by omega), Res.ok_bind,
    producto_ok (by omega) (by omega), Res.ok_bind, resta_ok (by omega) (by omega), Res.ok_bind,
    hdoe, anoDeEraEn_ok hd.1 hd.2, Res.ok_bind, producto_ok (by omega) (by omega), Res.ok_bind,
    suma_ok (by omega) (by omega), Res.ok_bind, diaDeAnoEn_ok hd.1 hd.2, Res.ok_bind]
  generalize anoDeEra ((z + 719468) % 146097) = yoe at hy ⊢
  generalize diaDeAno ((z + 719468) % 146097) = r at ho ⊢
  simp (disch := omega) only [producto_ok, suma_ok, cociente_ok, resta_ok, comoU32En_ok, mesEn_ok,
    Res.ok_bind]
  rfl

theorem periodOfEn_ok {t : Int} (h : -2 ^ 63 ≤ t) (h' : t < 2 ^ 63) :
    (periodOfEn t : Res ε String) = .ok (periodOf t) := by
  rw [periodOfEn, chequear_ok _ (by omega) (by omega), Res.ok_bind,
    civilFromDaysEn_ok (by omega) (by omega)]
  rfl

/-- The instant is of the month `m` of the year `y`, in UTC. -/
def EsDelMes (y : Int) (m : Nat) (t : Int) : Prop :=
  86400 * diasDesdeCivil y m 1 ≤ t ∧
    t < 86400 * (diasDesdeCivil y m 1 + diasDelMes (bisiesto y) m)

/-- The first day of a month, with the months of all the years in one count. -/
def primerDia (n : Int) : Int := diasDesdeCivil (n / 12) (n % 12 + 1).toNat 1

theorem primerDia_mes (y : Int) {m : Nat} (h : 1 ≤ m) (h' : m ≤ 12) :
    primerDia (12 * y + (m - 1)) = diasDesdeCivil y m 1 := by
  have hy : (12 * y + ((m : Int) - 1)) / 12 = y := by omega
  have hm : ((12 * y + ((m : Int) - 1)) % 12 + 1).toNat = m := by omega
  rw [primerDia, hy, hm]

/-- Each month starts where the one before it ends. -/
theorem primerDia_succ (y : Int) {m : Nat} (h : 1 ≤ m) (h' : m ≤ 12) :
    primerDia (12 * y + (m - 1) + 1) = diasDesdeCivil y m 1 + diasDelMes (bisiesto y) m := by
  by_cases h12 : m = 12
  · subst h12
    have hn : 12 * y + (((12 : Nat) : Int) - 1) + 1 = 12 * (y + 1) + (((1 : Nat) : Int) - 1) := by
      omega
    have hsum : ∀ bis : Bool, (∑ k ∈ Ico 1 12, diasDelMes bis k) + diasDelMes bis 12 =
        if bis then 366 else 365 := by decide
    have hano := diasHastaAno_succ y
    have hs := hsum (bisiesto y)
    rw [hn, primerDia_mes _ (by decide) (by decide), diasDesdeCivil, diasDesdeCivil, Ico_self,
      sum_empty]
    split at hano
    next hb =>
      rw [if_pos hb] at hs
      omega
    next hb =>
      rw [if_neg hb] at hs
      omega
  · have hn : 12 * y + ((m : Int) - 1) + 1 = 12 * y + (((m + 1 : Nat) : Int) - 1) := by omega
    rw [hn, primerDia_mes _ (by omega) (by omega), diasDesdeCivil, diasDesdeCivil,
      sum_Ico_succ_top h]
    omega

theorem primerDia_mono {n k : Int} (h : n ≤ k) : primerDia n ≤ primerDia k := by
  refine (strictMono_int_of_lt_succ fun n => ?_).monotone h
  have hn : n = 12 * (n / 12) + (((n % 12 + 1).toNat : Int) - 1) := by omega
  have hpos : ∀ bis : Bool, ∀ m ≤ 12, 0 < diasDelMes bis m := by decide
  have hd := hpos (bisiesto (n / 12)) (n % 12 + 1).toNat (by omega)
  have hs := primerDia_succ (n / 12) (m := (n % 12 + 1).toNat) (by omega) (by omega)
  rw [← hn] at hs
  rw [hs, primerDia]
  omega

theorem EsDelMes.unico {y y' : Int} {m m' : Nat} {t : Int} (h : 1 ≤ m) (h' : m ≤ 12)
    (hk : 1 ≤ m') (hk' : m' ≤ 12) (hm : EsDelMes y m t) (hm' : EsDelMes y' m' t) :
    y = y' ∧ m = m' := by
  obtain ⟨hlo, hhi⟩ := hm
  obtain ⟨hlo', hhi'⟩ := hm'
  rw [← primerDia_succ y h h'] at hhi
  rw [← primerDia_succ y' hk hk'] at hhi'
  rw [← primerDia_mes y h h'] at hlo
  rw [← primerDia_mes y' hk hk'] at hlo'
  rcases Int.lt_trichotomy (12 * y + ((m : Int) - 1)) (12 * y' + (m' - 1)) with hlt | heq | hlt
  · have hle := primerDia_mono (Int.add_one_le_of_lt hlt)
    omega
  · omega
  · have hle := primerDia_mono (Int.add_one_le_of_lt hlt)
    omega

/-- The date of an instant gives its month. -/
theorem esDelMes_civilFromDays (t : Int) :
    EsDelMes (civilFromDays (t / 86400)).1 (civilFromDays (t / 86400)).2.1 t := by
  obtain ⟨⟨-, -, hd, hd'⟩, hz⟩ := civilFromDays_fecha (t / 86400)
  have huno : diasDesdeCivil (civilFromDays (t / 86400)).1 (civilFromDays (t / 86400)).2.1
      (civilFromDays (t / 86400)).2.2 = diasDesdeCivil (civilFromDays (t / 86400)).1
        (civilFromDays (t / 86400)).2.1 1 + (civilFromDays (t / 86400)).2.2 - 1 := by
    unfold diasDesdeCivil
    omega
  constructor
  · omega
  · omega

/-- The months of later instants are not earlier. -/
theorem civilFromDays_mono {z z' : Int} (h : z ≤ z') :
    (civilFromDays z).1 < (civilFromDays z').1 ∨
      (civilFromDays z).1 = (civilFromDays z').1 ∧
        (civilFromDays z).2.1 ≤ (civilFromDays z').2.1 := by
  obtain ⟨hm, hm', he⟩ := civilFromDays_mes z
  obtain ⟨hk, hk', he'⟩ := civilFromDays_mes z'
  have hmono := mesDesdeMarzo_mono (Int.add_le_add_right h 719468)
  omega

theorem periodOf_eq_iff_mes (t t' : Int) : periodOf t = periodOf t' ↔
    ∃ y m, 1 ≤ m ∧ m ≤ 12 ∧ EsDelMes y m t ∧ EsDelMes y m t' := by
  obtain ⟨hm, hm', -⟩ := civilFromDays_mes (t / 86400)
  obtain ⟨hk, hk', -⟩ := civilFromDays_mes (t' / 86400)
  have ht := esDelMes_civilFromDays t
  have ht' := esDelMes_civilFromDays t'
  constructor
  · intro hp
    obtain ⟨hy, hmes⟩ := periodOf_inj hp
    rw [← hy, ← hmes] at ht'
    exact ⟨_, _, hm, hm', ht, ht'⟩
  · rintro ⟨y, m, h, h', hy, hy'⟩
    obtain ⟨ha, hb⟩ := ht.unico hm hm' h h' hy
    obtain ⟨hc, hd⟩ := ht'.unico hk hk' h h' hy'
    rw [periodOf, periodOf, ha, hb, hc, hd]

/-- The calendar of the periods is the Gregorian one for every `i64` of seconds. -/
theorem calendario_ley :
    (∀ t : Int, -2 ^ 63 ≤ t → t < 2 ^ 63 →
      (civilFromDaysEn (t / 86400) : Res Empty (Int × Nat × Nat)) =
          .ok (civilFromDays (t / 86400)) ∧
        (periodOfEn t : Res Empty String) = .ok (periodOf t) ∧
        ∀ y m d, civilFromDays (t / 86400) = (y, m, d) →
          EsFecha y m d ∧ diasDesdeCivil y m d = t / 86400) ∧
    (∀ t t' : Int, -2 ^ 63 ≤ t → t ≤ t' → t' < 2 ^ 63 →
      ∀ y m d y' m' d', civilFromDays (t / 86400) = (y, m, d) →
        civilFromDays (t' / 86400) = (y', m', d') → y < y' ∨ y = y' ∧ m ≤ m') ∧
    ∀ t t' : Int, -2 ^ 63 ≤ t → t < 2 ^ 63 → -2 ^ 63 ≤ t' → t' < 2 ^ 63 →
      (periodOf t = periodOf t' ↔
        ∃ y m, 1 ≤ m ∧ m ≤ 12 ∧ EsDelMes y m t ∧ EsDelMes y m t') := by
  refine ⟨fun t h h' => ⟨?_, periodOfEn_ok h h', ?_⟩, ?_, fun t t' _ _ _ _ => ?_⟩
  · exact civilFromDaysEn_ok (by omega) (by omega)
  · intro y m d hf
    have hc := civilFromDays_fecha (t / 86400)
    rwa [hf] at hc
  · intro t t' _ hle _ y m d y' m' d' hf hf'
    have hm := civilFromDays_mono (Int.ediv_le_ediv (by decide : (0 : Int) < 86400) hle)
    rwa [hf, hf'] at hm
  · exact periodOf_eq_iff_mes t t'

theorem calendario_ley_negativo : periodOf (-99999999999) = "-1199-02" ∧
    EsFecha (-1199) 2 15 ∧ diasDesdeCivil (-1199) 2 15 = -1157408 :=
  ⟨by decide, (calendario_ley.1 (-99999999999) (by decide) (by decide)).2.2 _ _ _ (by decide)⟩

end Quipu.Calendario
