import Quipu.NegacionCrear
import Quipu.Sereno

namespace Quipu

open Aleatorio

def ascendente (n : Nat) : List UInt8 := (tomar UInt8.ofNat n).toList

@[simp] theorem length_ascendente (n : Nat) : (ascendente n).length = n := by
  simp [ascendente]

theorem getElem_ascendente {n i : Nat} (h : i < (ascendente n).length) :
    (ascendente n)[i] = UInt8.ofNat i := by
  simp [ascendente, tomar]

theorem entrega_sereno {K : Type} (n : Nat) :
    Entrega (Mundo.sereno : Mundo 24 K).cinta (ascendente n)
      (Mundo.sereno : Mundo 24 K).cinta := by
  rw [ascendente, entrega_iff]
  exact llenar_sereno n _

namespace Negacion

variable {M K : Type}

/-- On a serene source `crear` ends well whenever both contents fit. -/
theorem exists_creacion_serena (kdf : Kdf M K) {aead : Aead 24 K} (hT : aead.AddsTag)
    (total : Nat) (senuelo : List UInt8) (claveSenuelo : String)
    (oculto : Option (List UInt8 × String)) (perfil : Perfil)
    (hs : senuelo ≠ []) (hmin : tamanoMinimo ≤ total) (hres : total < 2 ^ 63)
    (hd : oculto.any (fun o => iguales kdf claveSenuelo o.2) = false)
    (ha : kdf.acepta perfil.params = true) (hlS : senuelo.length < 2 ^ 63)
    (hlO : (ocultoReal oculto (ascendente 32)).1.length < 2 ^ 63)
    (hS : (Prelayers.pad senuelo).length ≤ (tramos total).1.len - tag)
    (hO : (Prelayers.pad (ocultoReal oculto (ascendente 32)).1).length ≤
      (tramos total).2.len - tag) :
    ∃ c m' salt, Creacion kdf aead total senuelo claveSenuelo oculto perfil .sereno c m'
      (ascendente total)
      (ascendente ((tramos total).1.len - tag - (Prelayers.pad senuelo).length))
      (ascendente 32)
      (ascendente ((tramos total).2.len - tag -
        (Prelayers.pad (ocultoReal oculto (ascendente 32)).1).length)) salt := by
  obtain ⟨c, m', salt, h, _⟩ := exists_creacion hT hs hmin hres hd ha hlS hlO
    (length_ascendente total)
    (length_ascendente 32)
    ((congrArg _ (length_ascendente _)).trans (Nat.add_sub_cancel' hS))
    ((congrArg _ (length_ascendente _)).trans (Nat.add_sub_cancel' hO))
    (entrega_sereno total) (entrega_sereno _) (entrega_sereno 32) (entrega_sereno _)
  exact ⟨c, m', salt, h⟩

end Negacion

end Quipu
