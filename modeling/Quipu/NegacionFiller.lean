import Quipu.NegacionSereno

namespace Quipu

open Aleatorio

namespace Negacion

variable {M K : Type} {kdf : Kdf M K} {aead : Aead 24 K} {total : Nat} {senuelo : List UInt8}
  {claveSenuelo : String} {perfil : Perfil} {m m' : Mundo 24 K} {c : List UInt8}

/-- Without a hidden volume its region is filler that passed the health check. -/
theorem not_racha_regionOculta
    (h : crear kdf aead total senuelo claveSenuelo none perfil m = .ok c m') :
    ¬Racha (regionOculta total c) := by
  obtain ⟨fuera, _, _, _, _, h⟩ := crear_ok h
  obtain ⟨_, _, _, hf, _⟩ := h.entregas
  rw [h.regionOculta_eq]
  exact fun hr => (saludDe_eq_none_iff fuera).mp hf.sano (racha_drop hr)

theorem length_pad_nil : (Prelayers.pad []).length = 8 := by decide

/-- Between a salt and a hidden region without rachas some filler passes the health check. -/
theorem exists_relleno {salt : Arr 16} {region : List UInt8} (hmin : tamanoMinimo ≤ total)
    (hs : ¬Racha salt.toList) (hr : ¬Racha region)
    (hl : region.length = (tramos total).2.len) :
    ∃ fuera, saludDe fuera = none ∧ fuera.length = total ∧ fuera.take 16 = salt.toList ∧
      fuera.drop (tramos total).2.ini = region := by
  obtain ⟨hini, hmid, hfin, htot, hlen, h504, h504'⟩ := tramos_len hmin
  obtain ⟨p, q, hpq, hp, hq⟩ := exists_distintos salt.toList[salt.toList.length - 1]? region[0]?
  have hpre : (salt.toList ++ alternado p q (tramos total).1.len).length =
      (tramos total).2.ini := by
    rw [List.length_append, salt.toList_length, length_alternado]
    omega
  refine ⟨salt.toList ++ alternado p q (tramos total).1.len ++ region, ?_, ?_, ?_, ?_⟩
  · rw [saludDe_eq_none_iff]
    exact not_racha_alternado hs hr (by omega) hpq hp hq
  · rw [List.length_append, hpre, hl]
    exact hlen
  · rw [List.append_assoc, List.take_left' salt.toList_length]
  · exact List.drop_left' hpre

/-- A container written with a hidden volume comes out of some tape without one, as long as
its hidden region has no eight equal bytes in a row. -/
theorem exists_crear_sin_oculto {o : List UInt8 × String}
    (h : crear kdf aead total senuelo claveSenuelo (some o) perfil m = .ok c m')
    (hr : ¬Racha (regionOculta total c)) :
    ∃ m₀ m₁, crear kdf aead total senuelo claveSenuelo none perfil m₀ = .ok c m₁ := by
  obtain ⟨fuera, padS, desc, padO, salt, h⟩ := crear_ok h
  obtain ⟨_, _, _, hf, hpS, hdesc, _⟩ := h.entregas
  have hsalt : ¬Racha salt.toList := by
    rw [h.salt_eq]
    exact fun hr => (saludDe_eq_none_iff fuera).mp hf.sano (racha_take hr)
  have hreg : (regionOculta total c).length = (tramos total).2.len := by
    rw [h.regionOculta_eq]
    exact h.length_resto
  obtain ⟨fuera', hf', hlf, htake, hdrop⟩ := exists_relleno h.minimo hsalt hr hreg
  let padO' := alternado 0 1 ((tramos total).2.len - tag - 8)
  have hpO' : saludDe padO' = none :=
    (saludDe_eq_none_iff _).mpr (not_racha_alternado_nil (by decide) _)
  have hcabe : (Prelayers.pad []).length + padO'.length = (tramos total).2.len - tag := by
    obtain ⟨_, _, _, _, _, _, h504⟩ := tramos_len h.minimo
    rw [length_alternado, length_pad_nil]
    unfold tag
    omega
  let sS := selloDe kdf aead perfil.params salt total claveSenuelo infoSenuelo
    (Prelayers.pad senuelo ++ padS)
  let sO := selloDe kdf aead perfil.params salt total (descarteDe desc) infoOculto
    (Prelayers.pad [] ++ padO')
  refine ⟨⟨reponer (Arr.of fuera' rfl) (reponer (Arr.of padS rfl) (reponer (Arr.of desc rfl)
    (reponer (Arr.of padO' rfl) m.cinta))), [], []⟩,
    ⟨m.cinta, [(salt, perfil.params), (salt, perfil.params)], [sS, sO]⟩,
    @Creacion.crear _ _ _ _ _ _ _ _ _ _ _ _ fuera' padS desc padO' salt ?_⟩
  exact {
    lleno := h.lleno
    minimo := h.minimo
    distintas := rfl
    reserva := h.reserva
    acepta := h.acepta
    marcoSenuelo := h.marcoSenuelo
    marcoOculto := ⟨Nat.two_pow_pos 63, length_pad_nil.trans_lt (by decide)⟩
    lengthFuera := hlf
    lengthDesc := h.lengthDesc
    cabeSenuelo := h.cabeSenuelo
    cabeOculto := hcabe
    entregas := ⟨_, _, _, entrega_reponer hf' _, entrega_reponer hpS.sano _,
      entrega_reponer hdesc.sano _, entrega_reponer hpO' _⟩
    salt_eq := htake.symm
    derivaciones := rfl
    sellos := rfl
    lengthSenuelo := h.lengthSenuelo
    lengthOculto := fun ho => by cases ho
    contenedor := by
      rw [hdrop, h.regionOculta_eq]
      exact h.contenedor }

/-- What `crear` writes with a hidden volume it can also write without one exactly when the
ciphertext that the AEAD gives for that volume has no eight equal bytes in a row. -/
theorem crear_sin_oculto_iff (kdf : Kdf M K) (aead : Aead 24 K) (total : Nat)
    (senuelo : List UInt8) (claveSenuelo : String) (perfil : Perfil) (o : List UInt8 × String)
    (m m' : Mundo 24 K) (c : List UInt8)
    (h : crear kdf aead total senuelo claveSenuelo (some o) perfil m = .ok c m') :
    ∃ (fuera padS desc padO : List UInt8) (salt : Arr 16) (cifrado : List UInt8),
      Creacion kdf aead total senuelo claveSenuelo (some o) perfil m c m' fuera padS desc padO
        salt ∧
      cifrado = aead.sella (claveDe kdf o.2 salt perfil.params infoOculto)
        (nonceDe kdf o.2 salt perfil.params infoOculto) (Prelayers.pad o.1 ++ padO)
        (datoAutenticado salt total) ∧
      regionOculta total c = cifrado ∧
      ((∃ m₀ m₁, crear kdf aead total senuelo claveSenuelo none perfil m₀ = .ok c m₁) ↔
        ¬Racha cifrado) := by
  obtain ⟨fuera, padS, desc, padO, salt, hc⟩ := crear_ok h
  have hreg : regionOculta total c = aead.sella (claveDe kdf o.2 salt perfil.params infoOculto)
      (nonceDe kdf o.2 salt perfil.params infoOculto) (Prelayers.pad o.1 ++ padO)
      (datoAutenticado salt total) := hc.regionOculta_eq
  refine ⟨fuera, padS, desc, padO, salt, regionOculta total c, hc, hreg, rfl, ?_,
    exists_crear_sin_oculto h⟩
  rintro ⟨m₀, m₁, h₀⟩
  exact not_racha_regionOculta h₀

theorem crear_sin_oculto_iff_sereno :
    ∃ (c : List UInt8) (m' : Mundo 24 ClaveLibre) (cifrado : List UInt8),
      crear (Kdf.libre id) Aead.deMarca 1024 [1] "a" (some ([2, 3], "b")) Perfil.v1 .sereno =
        .ok c m' ∧
      regionOculta 1024 c = cifrado ∧
      ((∃ m₀ m₁, crear (Kdf.libre id) Aead.deMarca 1024 [1] "a" none Perfil.v1 m₀ = .ok c m₁) ↔
        ¬Racha cifrado) := by
  obtain ⟨c, m', _, h⟩ := exists_creacion_serena (Kdf.libre id) Aead.deMarca_addsTag 1024 [1]
    "a" (some ([2, 3], "b")) Perfil.v1
    (by decide) (by decide) (by decide) (by decide) rfl (by decide) (by decide) (by decide)
    (by decide)
  obtain ⟨_, _, _, _, _, cifrado, _, _, hreg, hiff⟩ := crear_sin_oculto_iff (Kdf.libre id)
    Aead.deMarca 1024 [1] "a" Perfil.v1 ([2, 3], "b") .sereno m' c h.crear
  exact ⟨c, m', cifrado, h.crear, hreg, hiff⟩

/-- A container with an empty hidden volume whose ciphertext starts with eight zeros comes out
of no tape without one. -/
theorem not_crear_sin_oculto :
    ∃ (c : List UInt8) (m' : Mundo 24 ClaveLibre),
      crear (Kdf.libre id) Aead.deMarca 1024 [1] "a" (some ([], "b")) Perfil.v1 .sereno =
        .ok c m' ∧
      ∀ m₀ m₁, crear (Kdf.libre id) Aead.deMarca 1024 [1] "a" none Perfil.v1 m₀ ≠ .ok c m₁ := by
  obtain ⟨c, m', salt, h⟩ := exists_creacion_serena (Kdf.libre id) Aead.deMarca_addsTag 1024 [1]
    "a" (some ([], "b")) Perfil.v1 (by decide) (by decide) (by decide) (by decide) rfl (by decide)
    (by decide) (by decide) (by decide)
  refine ⟨c, m', h.crear, fun m₀ m₁ h₀ => not_racha_regionOculta h₀ ?_⟩
  rw [h.regionOculta_eq]
  have hceros : Racha (Prelayers.pad []) := ⟨0, 0, by decide⟩
  exact racha_append_left (racha_append_left hceros _) _

end Negacion

end Quipu
