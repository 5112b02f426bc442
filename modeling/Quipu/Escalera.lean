import Quipu.NegacionSereno
import Mathlib.Data.Nat.Log

namespace Quipu

namespace Negacion

def esPotencia (n : Nat) : Bool := 2 ^ Nat.log 2 n == n

/-- `usize::next_power_of_two`, with the overflow check that the release profile keeps. -/
def siguientePotencia (n : Nat) : Res NegacionError Nat :=
  if 2 ^ Nat.clog 2 n < 2 ^ 64 then .ok (2 ^ Nat.clog 2 n)
  else panico "attempt to add with overflow"

def tamanoCanonico (minimo : Nat) : Res NegacionError Nat :=
  let m := if minimo < tamanoMinimo then tamanoMinimo else minimo
  if esPotencia m then .ok m else siguientePotencia m

def esCanonico (tamano : Nat) : Bool := decide (tamanoMinimo ≤ tamano) && esPotencia tamano

theorem esPotencia_iff {n : Nat} : esPotencia n = true ↔ ∃ k, n = 2 ^ k := by
  rw [esPotencia, beq_iff_eq]
  constructor
  · intro h
    exact ⟨_, h.symm⟩
  · rintro ⟨k, rfl⟩
    rw [Nat.log_pow (by decide)]

/-- The sizes on the ladder are the powers of two from the tenth on. -/
theorem esCanonico_iff {t : Nat} : esCanonico t = true ↔ ∃ k, t = 2 ^ (10 + k) := by
  rw [esCanonico, Bool.and_eq_true, decide_eq_true_iff, esPotencia_iff]
  constructor
  · rintro ⟨hmin, k, rfl⟩
    have hk : 10 ≤ k := (Nat.pow_le_pow_iff_right (a := 2) (by decide)).mp hmin
    exact ⟨k - 10, by rw [Nat.add_sub_cancel' hk]⟩
  · rintro ⟨k, rfl⟩
    exact ⟨Nat.pow_le_pow_right (n := 2) (by decide) (Nat.le_add_right 10 k), _, rfl⟩

theorem siguientePotencia_of_potencia {m : Nat} (h : esPotencia m = true) (hm : m < 2 ^ 64) :
    siguientePotencia m = .ok m := by
  obtain ⟨k, rfl⟩ := esPotencia_iff.mp h
  rw [siguientePotencia, Nat.clog_pow 2 k (by decide), if_pos hm]

/-- On a machine word the branch of the powers of two agrees with the other one. -/
theorem tamanoCanonico_eq {minimo : Nat} (h : minimo < 2 ^ 64) :
    tamanoCanonico minimo = siguientePotencia (max minimo tamanoMinimo) := by
  have hm : (if minimo < tamanoMinimo then tamanoMinimo else minimo) =
      max minimo tamanoMinimo := by
    rw [max_def]
    split <;> split <;> omega
  have hmax : max minimo tamanoMinimo < 2 ^ 64 := max_lt h (by decide)
  rw [tamanoCanonico]
  simp only [hm]
  split
  next hp => exact (siguientePotencia_of_potencia hp hmax).symm
  next => rfl

theorem siguientePotencia_iff {m k : Nat} (hk : k < 64) :
    siguientePotencia m = .ok (2 ^ k) ↔ Nat.clog 2 m = k := by
  have hinj : 2 ^ Nat.clog 2 m = 2 ^ k ↔ Nat.clog 2 m = k :=
    (Nat.pow_right_injective (le_refl 2)).eq_iff
  rw [siguientePotencia]
  split
  next => rw [Except.ok.injEq, hinj]
  next h =>
    constructor
    · intro he
      cases he
    · rintro rfl
      exact absurd (Nat.pow_lt_pow_right (a := 2) (by decide) hk) h

theorem diez_le_clog (minimo : Nat) : 10 ≤ Nat.clog 2 (max minimo tamanoMinimo) := by
  calc 10 = Nat.clog 2 tamanoMinimo := (Nat.clog_pow 2 10 (by decide)).symm
    _ ≤ _ := Nat.clog_mono_right 2 (le_max_right _ _)

/-- A rung of the ladder answers the requests above the rung below it; the first one answers
every smaller request too. -/
theorem clog_eq_iff {minimo k : Nat} :
    Nat.clog 2 (max minimo tamanoMinimo) = 10 + k ↔
      minimo ≤ 2 ^ (10 + k) ∧ (k = 0 ∨ 2 ^ (10 + k) < 2 * minimo) := by
  have hbase : tamanoMinimo = 2 ^ 10 := rfl
  have hle : Nat.clog 2 (max minimo tamanoMinimo) ≤ 10 + k ↔ minimo ≤ 2 ^ (10 + k) := by
    rw [Nat.clog_le_iff_le_pow (by decide), Nat.max_le, hbase]
    exact and_iff_left (Nat.pow_le_pow_right (by decide) (Nat.le_add_right 10 k))
  cases k with
  | zero =>
    have := diez_le_clog minimo
    rw [← hle]
    omega
  | succ k =>
    have hlt : 10 + k < Nat.clog 2 (max minimo tamanoMinimo) ↔ 2 ^ (10 + k) < minimo := by
      have := Nat.pow_le_pow_right (n := 2) (by decide) (Nat.le_add_right 10 k)
      rw [Nat.lt_clog_iff_pow_lt (by decide)]
      omega
    have hdoble : 2 ^ (10 + (k + 1)) = 2 * 2 ^ (10 + k) := by
      rw [← Nat.add_assoc, Nat.pow_succ, Nat.mul_comm]
    rw [hdoble] at hle ⊢
    omega

theorem tamanoCanonico_iff {minimo k : Nat} (h : minimo < 2 ^ 64) (hk : 10 + k < 64) :
    tamanoCanonico minimo = .ok (2 ^ (10 + k)) ↔
      minimo ≤ 2 ^ (10 + k) ∧ (k = 0 ∨ 2 ^ (10 + k) < 2 * minimo) := by
  rw [tamanoCanonico_eq h, siguientePotencia_iff hk, clog_eq_iff]

theorem exists_of_tamanoCanonico {minimo t : Nat} (h : minimo < 2 ^ 64)
    (ht : tamanoCanonico minimo = .ok t) : ∃ k, 10 + k < 64 ∧ t = 2 ^ (10 + k) := by
  rw [tamanoCanonico_eq h, siguientePotencia] at ht
  split at ht
  next hlt =>
    have hge := diez_le_clog minimo
    have hk := (Nat.pow_lt_pow_iff_right (a := 2) (by decide)).mp hlt
    cases ht
    exact ⟨_ - 10, by rw [Nat.add_sub_cancel' hge]; exact hk, by rw [Nat.add_sub_cancel' hge]⟩
  next => cases ht

/-- The length of a container made at a size of the ladder tells of the request that chose it
the interval between two rungs and nothing else. -/
theorem crear_canonico {M K : Type} (kdf : Kdf M K) (aead : Aead 24 K) (minimo total : Nat)
    (senuelo : List UInt8) (claveSenuelo : String) (oculto : Option (List UInt8 × String))
    (perfil : Perfil) (m m' : Mundo 24 K) (c : List UInt8) (hmin : minimo < 2 ^ 64)
    (ht : tamanoCanonico minimo = .ok total)
    (hc : crear kdf aead total senuelo claveSenuelo oculto perfil m = .ok c m') :
    esCanonico c.length = true ∧ minimo ≤ c.length ∧ c.length < 2 ^ 64 ∧
      (∀ t, esCanonico t = true → minimo ≤ t → c.length ≤ t) ∧
      ∀ otro < 2 ^ 64, tamanoCanonico otro = .ok c.length ↔
        otro ≤ c.length ∧ (c.length = tamanoMinimo ∨ c.length < 2 * otro) := by
  obtain ⟨_, _, _, _, _, h⟩ := crear_ok hc
  obtain ⟨k, hk, rfl⟩ := exists_of_tamanoCanonico hmin ht
  obtain ⟨hle, habajo⟩ := (tamanoCanonico_iff hmin hk).mp ht
  have hcero : 2 ^ (10 + k) = tamanoMinimo ↔ k = 0 := by
    rw [show tamanoMinimo = 2 ^ 10 from rfl, (Nat.pow_right_injective (le_refl 2)).eq_iff]
    omega
  rw [h.length_contenedor]
  refine ⟨esCanonico_iff.mpr ⟨k, rfl⟩, hle, Nat.pow_lt_pow_right (by decide) hk, ?_, ?_⟩
  · intro t hcan hpide
    obtain ⟨j, rfl⟩ := esCanonico_iff.mp hcan
    apply Nat.pow_le_pow_right (by decide)
    rcases habajo with rfl | habajo
    · omega
    · by_contra hj
      have hdoble : 2 * 2 ^ (10 + j) ≤ 2 ^ (10 + k) := by
        rw [← Nat.pow_succ']
        exact Nat.pow_le_pow_right (by decide) (by omega)
      omega
  · intro otro hotro
    rw [tamanoCanonico_iff hotro hk, hcero]

theorem crear_canonico_sereno :
    ∃ (c : List UInt8) (m' : Mundo 24 ClaveLibre),
      crear (Kdf.libre id) Aead.deMarca 2048 [1] "a" (some ([2, 3], "b")) Perfil.v1 .sereno =
        .ok c m' ∧
      tamanoCanonico 1025 = .ok c.length ∧
      ∀ otro < 2 ^ 64, tamanoCanonico otro = .ok c.length ↔
        otro ≤ c.length ∧ (c.length = tamanoMinimo ∨ c.length < 2 * otro) := by
  have ht : tamanoCanonico 1025 = .ok 2048 := by decide
  obtain ⟨c, m', _, h⟩ := exists_creacion_serena (Kdf.libre id) Aead.deMarca_addsTag 2048 [1]
    "a" (some ([2, 3], "b")) Perfil.v1
    (by decide) (by decide) (by decide) (by decide) rfl (by decide) (by decide) (by decide)
    (by decide)
  obtain ⟨_, _, _, _, hotro⟩ := crear_canonico (Kdf.libre id) Aead.deMarca 1025 2048 [1] "a"
    (some ([2, 3], "b")) Perfil.v1 .sereno m' c (by decide) ht h.crear
  exact ⟨c, m', h.crear, by rw [h.length_contenedor]; exact ht, hotro⟩

end Negacion

end Quipu
