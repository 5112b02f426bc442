import Quipu.NegacionSereno

namespace Quipu

namespace Negacion

/-- Two runs on one tape that differ only in the hidden volume agree on the salt, the decoy's
region, the length and the derivations; without a hidden volume its region is the first fill. -/
theorem crear_dos_corridas {M K : Type} (kdf : Kdf M K) (aead : Aead 24 K) (total : Nat)
    (senuelo : List UInt8) (claveSenuelo : String) (perfil : Perfil)
    (oculto₁ oculto₂ : Option (List UInt8 × String)) (m m₁ m₂ : Mundo 24 K) (c₁ c₂ : List UInt8)
    (h₁ : crear kdf aead total senuelo claveSenuelo oculto₁ perfil m = .ok c₁ m₁)
    (h₂ : crear kdf aead total senuelo claveSenuelo oculto₂ perfil m = .ok c₂ m₂) :
    c₁.take 16 = c₂.take 16 ∧ (tramos total).1.de c₁ = (tramos total).1.de c₂ ∧
      c₁.length = total ∧ c₂.length = total ∧
      (∃ salt : Arr 16, salt.toList = c₁.take 16 ∧
        m₁.derivaciones = m.derivaciones ++ [(salt, perfil.params), (salt, perfil.params)] ∧
        m₂.derivaciones = m.derivaciones ++ [(salt, perfil.params), (salt, perfil.params)]) ∧
      ∃ fuera cinta, fuera.length = total ∧ Entrega m.cinta fuera cinta ∧
        (oculto₁ = none → regionOculta total c₁ = regionOculta total fuera) ∧
        (oculto₂ = none → regionOculta total c₂ = regionOculta total fuera) := by
  obtain ⟨fuera, padS, desc, padO, salt, h₁⟩ := crear_ok h₁
  obtain ⟨fuera', padS', desc', padO', salt', h₂⟩ := crear_ok h₂
  obtain ⟨_, _, _, hf, hb, _⟩ := h₁.entregas
  obtain ⟨_, _, _, hf', hb', _⟩ := h₂.entregas
  obtain ⟨rfl, rfl⟩ := hf.unica hf' (h₁.lengthFuera.trans h₂.lengthFuera.symm)
  obtain ⟨rfl, rfl⟩ := hb.unica hb' (by have := h₁.cabeSenuelo; have := h₂.cabeSenuelo; omega)
  obtain rfl : salt = salt' := Arr.ext (h₁.salt_eq.trans h₂.salt_eq.symm)
  have hfill : regionOculta total fuera = fuera.drop (tramos total).2.ini := by
    obtain ⟨_, _, _, _, hlen, _⟩ := tramos_len h₁.minimo
    have hlf := h₁.lengthFuera
    rw [regionOculta, Tramo.de, List.take_of_length_le (by rw [List.length_drop]; omega)]
  refine ⟨?_, ?_, h₁.length_contenedor, h₂.length_contenedor,
    ⟨salt, h₁.take_salt.symm, h₁.derivaciones, h₂.derivaciones⟩, fuera, _, h₁.lengthFuera, hf,
    fun ho => ?_, fun ho => ?_⟩
  · rw [h₁.take_salt, h₂.take_salt]
  · rw [h₁.de_senuelo, h₂.de_senuelo]
  · rw [hfill, h₁.regionOculta_eq, ho]
    rfl
  · rw [hfill, h₂.regionOculta_eq, ho]
    rfl

theorem crear_dos_corridas_sereno :
    ∃ (c₁ c₂ : List UInt8) (m₁ m₂ : Mundo 24 ClaveLibre),
      crear (Kdf.libre id) Aead.deMarca 1024 [1] "a" none Perfil.v1 .sereno = .ok c₁ m₁ ∧
      crear (Kdf.libre id) Aead.deMarca 1024 [1] "a" (some ([2, 3], "b")) Perfil.v1 .sereno =
        .ok c₂ m₂ ∧
      (tramos 1024).1.de c₁ = (tramos 1024).1.de c₂ ∧
      m₁.derivaciones = m₂.derivaciones := by
  obtain ⟨c₁, m₁, _, h₁⟩ := exists_creacion_serena (Kdf.libre id) Aead.deMarca_addsTag 1024 [1]
    "a" none Perfil.v1 (by decide) (by decide) (by decide) rfl rfl (by decide)
    (by decide) (by decide) (by decide)
  obtain ⟨c₂, m₂, _, h₂⟩ := exists_creacion_serena (Kdf.libre id) Aead.deMarca_addsTag 1024 [1]
    "a" (some ([2, 3], "b")) Perfil.v1
    (by decide) (by decide) (by decide) (by decide) rfl (by decide) (by decide) (by decide)
    (by decide)
  obtain ⟨_, hreg, _, _, ⟨_, _, hd₁, hd₂⟩, _⟩ := crear_dos_corridas (Kdf.libre id) Aead.deMarca
    1024 [1] "a" Perfil.v1 none (some ([2, 3], "b")) .sereno m₁ m₂ c₁ c₂ h₁.crear h₂.crear
  exact ⟨c₁, c₂, m₁, m₂, h₁.crear, h₂.crear, hreg, hd₁.trans hd₂.symm⟩

end Negacion

end Quipu
