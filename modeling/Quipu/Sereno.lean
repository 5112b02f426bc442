import Quipu.Libre
import Quipu.Rachas

namespace Quipu

open Aleatorio

variable {n : Nat} {K ε : Type}

/-- The serene source answers every request with the bytes 0, 1, 2 and so on. -/
theorem consultar_sereno (k : Nat) :
    ∃ bytes, consultar k (Mundo.sereno : Mundo n K).cinta =
      (.entrega bytes, (Mundo.sereno : Mundo n K).cinta) ∧ tomar bytes k = tomar UInt8.ofNat k := by
  unfold consultar
  split
  next h =>
    subst k
    exact ⟨_, rfl, Arr.ext (by simp [tomar])⟩
  next => exact ⟨_, rfl, rfl⟩

theorem llenar_sereno (k : Nat) (destino : Arr k) :
    llenar destino (Mundo.sereno : Mundo n K).cinta =
      (.ok (), tomar UInt8.ofNat k, (Mundo.sereno : Mundo n K).cinta) := by
  obtain ⟨bytes, hc, hb⟩ := consultar_sereno (n := n) (K := K) k
  simp only [llenar, intentos, llenarDesde, hc, hb, saludDe_ascendente]

theorem pedirRng_sereno (k : Nat) :
    (pedirRng k : Prog (Mundo n K) ε (Arr k)) .sereno = .ok (tomar UInt8.ofNat k) .sereno :=
  pedir_eq_ok.mpr ⟨llenar_sereno k _, rfl⟩

/-- The source answers alike whatever is recorded beside it. -/
theorem pedirRng_de_sereno {m : Mundo n K} (hm : m.cinta = (Mundo.sereno : Mundo n K).cinta)
    (k : Nat) : (pedirRng k : Prog (Mundo n K) ε (Arr k)) m = .ok (tomar UInt8.ofNat k) m := by
  refine pedir_eq_ok.mpr ⟨?_, rfl⟩
  rw [hm]
  exact llenar_sereno k _

theorem pedirFill_sereno {alFallar : ε} (k : Nat) :
    (pedirFill alFallar k : Prog (Mundo n K) ε (Arr k)) .sereno =
      .ok (tomar UInt8.ofNat k) .sereno := by
  obtain ⟨bytes, hc, hb⟩ := consultar_sereno (n := n) (K := K) k
  simp only [pedirFill, fill, hc, hb]

end Quipu
