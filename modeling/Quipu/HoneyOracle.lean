import Quipu.HoneyWriter
import Quipu.Libre

namespace Quipu

namespace Honey

/-- No key tells: a blob is refused with one structural error under every key, or opens under
every key to as many tokens, all in the declared alphabet; and what a header asks for stays
within the limits of HKDF and of the subtraction. -/
theorem decrypt_dos_claves {M K : Type} (kdf : Kdf M K) (hA : kdf.AceptaSanos)
    (blob : List UInt8) (passphrase₁ passphrase₂ : String) (pepper₁ pepper₂ : List UInt8) :
    ((∃ e, leerCabecera blob = .error (.error e) ∧
        decrypt kdf blob passphrase₁ pepper₁ = .error (.error e) ∧
        decrypt kdf blob passphrase₂ pepper₂ = .error (.error e)) ∨
      ∃ t₁ t₂, decrypt kdf blob passphrase₁ pepper₁ = .ok t₁ ∧
        decrypt kdf blob passphrase₂ pepper₂ = .ok t₂ ∧ t₁.length = t₂.length ∧
        ∀ t ∈ t₁ ++ t₂, t < u16OfBe ((blob.drop 33).take 2)) ∧
    ∀ h, leerCabecera blob = .ok h → h.len.toNat * streamBytesPerToken ≤ 255 * 32 ∧
      ∀ ks, keystreamDigits kdf passphrase₁ h.salt pepper₁ h.params h.size h.len.toNat = .ok ks →
        ∀ (i : Nat) (c : Arr 2) (k : UInt16),
          (campo blob (headerLen + i * 2) 2 : Res HoneyError (Arr 2)) = .ok c →
          ks[i]? = some k → k.toNat ≤ ofBe c.toList + h.size.toNat := by
  refine ⟨?_, fun h hb => ?_⟩
  · obtain ⟨h, hb⟩ | ⟨e, hb⟩ := leerCabecera_sinPanico blob
    · obtain ⟨hadm, _, hsize⟩ := leerCabecera_ok hb
      have ha := hA _ hadm.sano
      refine .inr ⟨_, _, decrypt_eq hb ha passphrase₁ pepper₁, decrypt_eq hb ha passphrase₂ pepper₂,
        ?_, ?_⟩
      · rw [length_tokensDe, length_tokensDe, length_flujoDe, length_flujoDe]
      · intro t ht
        rw [hsize]
        have hpos := Nat.zero_lt_of_lt hadm.alfabeto
        obtain ht | ht := List.mem_append.mp ht
        · exact tokensDe_lt hpos ht
        · exact tokensDe_lt hpos ht
    · refine .inl ⟨e, hb, ?_, ?_⟩
      · rw [decrypt, hb, Res.error_bind]
      · rw [decrypt, hb, Res.error_bind]
  · obtain ⟨hadm, _, _⟩ := leerCabecera_ok hb
    have hmax := hadm.largo.2
    unfold maxTokens at hmax
    refine ⟨by unfold streamBytesPerToken; omega, fun ks hks i c k _ hk => ?_⟩
    rw [keystreamDigits_ok (hA _ hadm.sano) hadm.largo.2] at hks
    cases hks
    have hlt := digitos_lt (Nat.zero_lt_of_lt hadm.alfabeto) (List.mem_of_getElem? hk)
    omega

/-- A PIN of two digits. -/
def pinCerrado : List UInt8 :=
  Cabecera.toBytes ⟨List.Vector.replicate 16 0, ⟨64, 1, 1⟩, 10, 2⟩ ++ [0, 3, 0, 7]

theorem decrypt_dos_claves_pin :
    ∃ t₁ t₂, decrypt (Kdf.libre id) pinCerrado "a" [] = .ok t₁ ∧
      decrypt (Kdf.libre id) pinCerrado "b" [1] = .ok t₂ ∧ t₁.length = t₂.length := by
  have hleida : leerCabecera pinCerrado = .ok _ :=
    leerCabecera_toBytes (by decide) (by decide) rfl
  obtain ⟨⟨e, he, _⟩ | ⟨t₁, t₂, h₁, h₂, hl, _⟩, _⟩ := decrypt_dos_claves (Kdf.libre id)
    (Kdf.libre_aceptaSanos id) pinCerrado "a" "b" [] [1]
  · rw [hleida] at he
    cases he
  · exact ⟨t₁, t₂, h₁, h₂, hl⟩

end Honey

end Quipu
