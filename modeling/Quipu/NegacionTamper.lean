import Quipu.NegacionVolumes

namespace Quipu

namespace Negacion

/-- The length, the salt and the decoy's region of a container, unchanged. -/
def MismoSenuelo (c c' : List UInt8) : Prop :=
  c'.length = c.length ∧ c'.take 16 = c.take 16 ∧
    (tramos c.length).1.de c' = (tramos c.length).1.de c

/-- The passphrase that was thrown away is the decoy's own, and the hidden region holds what was
sealed under it. -/
def DescarteAbre {M K : Type} (kdf : Kdf M K) (total : Nat) (claveSenuelo : String)
    (oculto : Option (List UInt8 × String)) (desc : List UInt8) (m' : Mundo 24 K)
    (c' : List UInt8) : Prop :=
  oculto = none ∧ normalizar kdf (descarteDe desc) = normalizar kdf claveSenuelo ∧
    Coincide total c' m'

variable {M K : Type} {kdf : Kdf M K} {aead : Aead 24 K} {total : Nat} {senuelo : List UInt8}
  {claveSenuelo : String} {oculto : Option (List UInt8 × String)} {perfil : Perfil}
  {m m' : Mundo 24 K} {c fuera padS desc padO : List UInt8} {salt : Arr 16}

theorem responder_eq_ok {r : Option Apertura} {a : Apertura} :
    responder r = .ok a ↔ r = some a := by
  cases r with
  | none => simp [responder, fallar]
  | some b => simp [responder]

theorem abrir_corto {c : List UInt8} (h : c.length < tamanoMinimo) (clave : String)
    (pista : Option Perfil) : abrir kdf aead c clave pista = fallar .contenedorCorto := by
  rw [abrir, rechazarSi, if_pos h]
  rfl

theorem Creacion.mismoSenuelo_iff
    (h : Creacion kdf aead total senuelo claveSenuelo oculto perfil m c m' fuera padS desc padO
      salt) {c' : List UInt8} :
    MismoSenuelo c c' ↔ c'.take 16 = salt.toList ∧ c'.length = total ∧
      (tramos total).1.de c' = (tramos total).1.de c := by
  rw [MismoSenuelo, h.length_contenedor, h.take_salt]
  exact and_left_comm

/-- The decoy's passphrase finds the decoy in the bytes that keep its part of the container,
except in those where it opens what was thrown away. -/
theorem Creacion.aperturaDe_senuelo
    (h : Creacion kdf aead total senuelo claveSenuelo oculto perfil m c m' fuera padS desc padO
      salt) {clave : String} (hn : normalizar kdf clave = normalizar kdf claveSenuelo)
    {c' : List UInt8} :
    aperturaDe kdf senuelo claveSenuelo (ocultoReal oculto desc) salt ((tramos total).1.de c)
        (selloDe kdf aead perfil.params salt total (ocultoReal oculto desc).2 infoOculto
          (Prelayers.pad (ocultoReal oculto desc).1 ++ padO)).ciphertext total c' clave =
        some ⟨.senuelo, senuelo⟩ ↔
      MismoSenuelo c c' ∧ ¬DescarteAbre kdf total claveSenuelo oculto desc m' c' := by
  have hdesc : DescarteAbre kdf total claveSenuelo oculto desc m' c' ↔
      normalizar kdf clave = normalizar kdf (ocultoReal oculto desc).2 ∧
        regionOculta total c' =
          (selloDe kdf aead perfil.params salt total (ocultoReal oculto desc).2 infoOculto
            (Prelayers.pad (ocultoReal oculto desc).1 ++ padO)).ciphertext := by
    rw [DescarteAbre, h.coincide_iff, hn]
    cases oculto with
    | none => simp [ocultoReal, eq_comm]
    | some o => simp [ocultoReal, distintas_iff.mp h.distintas o rfl]
  rw [aperturaDe, h.mismoSenuelo_iff]
  by_cases hd : DescarteAbre kdf total claveSenuelo oculto desc m' c'
  · obtain ⟨hno, hreg⟩ := hdesc.mp hd
    refine ⟨fun he => ?_, fun hs => absurd hd hs.2⟩
    split at he
    next => cases he
    next hc =>
      split at he
      next hs => exact absurd ⟨hs.1, hs.2.1, hno, hreg⟩ hc
      next => cases he
  · rw [if_neg fun hc => hd (hdesc.mpr hc.2.2)]
    refine ⟨fun he => ?_, fun hs => if_pos ⟨hs.1.1, hs.1.2.1, hn, hs.1.2.2⟩⟩
    split at he
    next hs => exact ⟨⟨hs.1, hs.2.1, hs.2.2.2⟩, hd⟩
    next => cases he

/-- The decoy opens in the bytes that keep the length, the salt and its region, and in no others;
with another length no passphrase opens anything. -/
theorem abrir_alterado {M K : Type} (kdf : Kdf M K) (aead : Aead 24 K) (total : Nat)
    (senuelo : List UInt8) (claveSenuelo : String) (oculto : Option (List UInt8 × String))
    (perfil : Perfil) (m m' : Mundo 24 K) (c : List UInt8) (hI : kdf.Inyectiva)
    (hS : kdf.AceptaSanos) (hA : aead.Ideal m'.sellos) (hm : m.sellos = [])
    (htot : total < 2 ^ 64) (hlS : senuelo.length < 2 ^ 63)
    (hlO : ∀ o, oculto = some o → o.1.length < 2 ^ 63)
    (h : crear kdf aead total senuelo claveSenuelo oculto perfil m = .ok c m') :
    ∃ fuera padS desc padO salt,
      Creacion kdf aead total senuelo claveSenuelo oculto perfil m c m' fuera padS desc padO
        salt ∧
      ∀ (c' : Slice) pista, pista = some perfil ∨ pista = none ∧ perfil ∈ Perfil.conocidos →
        (∀ clave, normalizar kdf clave = normalizar kdf claveSenuelo →
          (abrir kdf aead c'.1 clave pista = .ok ⟨.senuelo, senuelo⟩ ↔
            MismoSenuelo c c'.1 ∧
              ¬DescarteAbre kdf total claveSenuelo oculto desc m' c'.1)) ∧
        (c'.1.length ≠ c.length → ∀ clave, abrir kdf aead c'.1 clave pista =
          fallar (if c'.1.length < tamanoMinimo then .contenedorCorto else .noAbre)) := by
  obtain ⟨fuera, padS, desc, padO, salt, hc⟩ := crear_ok h
  refine ⟨fuera, padS, desc, padO, salt, hc, fun c' pista hp => ?_⟩
  have hlen := hc.length_contenedor
  have hmin := hc.minimo
  have ht : be 8 c'.1.length = be 8 total → c'.1.length = total :=
    be_inj (c'.2.trans (by decide)) htot
  by_cases hcorto : c'.1.length < tamanoMinimo
  · refine ⟨fun clave _ => ?_, fun _ clave => ?_⟩
    · rw [abrir_corto hcorto]
      refine ⟨fun he => ?_, fun hs => ?_⟩
      · cases he
      · have hl := hs.1.1
        omega
    · rw [abrir_corto hcorto, if_pos hcorto]
  · have habrir := hc.abrir_eq hI hA hm hlS hlO hS hp (Nat.not_lt.mp hcorto) ht
    refine ⟨fun clave hn => ?_, fun hl clave => ?_⟩
    · rw [habrir, responder_eq_ok, hc.aperturaDe_senuelo hn]
    · have hl' : c'.1.length ≠ total := hlen ▸ hl
      rw [habrir, aperturaDe, if_neg fun hn => hl' hn.2.1, if_neg fun hn => hl' hn.2.1,
        if_neg hcorto]
      rfl

/-- A container with another hidden region. -/
def empalmar (c r : List UInt8) : List UInt8 := c.take (tramos c.length).2.ini ++ r

section Empalme

variable {r : List UInt8} (hmin : tamanoMinimo ≤ c.length)
  (hr : r.length = (tramos c.length).2.len)

include hmin hr

theorem length_empalmar : (empalmar c r).length = c.length := by
  obtain ⟨_, _, _, _, hlen, _⟩ := tramos_len hmin
  rw [empalmar, List.length_append, List.length_take_of_le (by omega), hr, hlen]

theorem mismoSenuelo_empalmar : MismoSenuelo c (empalmar c r) := by
  obtain ⟨hini, hmid, hfin, _, hlen, _⟩ := tramos_len hmin
  have htake : (c.take (tramos c.length).2.ini).length = (tramos c.length).2.ini :=
    List.length_take_of_le (by omega)
  refine ⟨length_empalmar hmin hr, ?_, ?_⟩
  · rw [empalmar, List.take_append_of_le_length (by omega), List.take_take,
      Nat.min_eq_left (by omega)]
  · rw [empalmar, Tramo.de, Tramo.de, hini, List.drop_append_of_le_length (by omega),
      List.take_append_of_le_length (by rw [List.length_drop]; omega), List.drop_take,
      List.take_take, Nat.min_eq_left (by omega)]

theorem regionOculta_empalmar : regionOculta c.length (empalmar c r) = r := by
  obtain ⟨_, _, _, _, hlen, _⟩ := tramos_len hmin
  rw [regionOculta, Tramo.de, empalmar,
    List.drop_left' (List.length_take_of_le (by omega)), ← hr, List.take_length]

end Empalme

/-- A hidden region of zeros leaves the decoy readable; one byte more leaves nothing. -/
theorem abrir_alterado_sereno :
    ∃ (aead : Aead 24 ClaveLibre) (c : List UInt8) (m' : Mundo 24 ClaveLibre),
      crear (Kdf.libre id) aead 1024 [1] "a" (some ([2, 3], "b")) Perfil.v1 .sereno = .ok c m' ∧
      abrir (Kdf.libre id) aead (empalmar c (List.replicate 504 0)) "a" (some Perfil.v1) =
        .ok ⟨.senuelo, [1]⟩ ∧
      abrir (Kdf.libre id) aead (c ++ [0]) "a" (some Perfil.v1) = .error (.error .noAbre) ∧
      abrir (Kdf.libre id) aead (c ++ [0]) "b" (some Perfil.v1) = .error (.error .noAbre) := by
  obtain ⟨c, m', salt, h⟩ := exists_creacion_serena (Kdf.libre id) Aead.deMarca_addsTag 1024
    [1] "a" (some ([2, 3], "b")) Perfil.v1
    (by decide) (by decide) (by decide) (by decide) rfl (by decide) (by decide) (by decide)
    (by decide)
  have hI := Kdf.libre_inyectiva id
  have hcr : crear (Kdf.libre id) (Aead.deRegistro marcar m'.sellos) 1024 [1] "a"
      (some ([2, 3], "b")) Perfil.v1 .sereno = .ok c m' := h.crear
  have hlen := h.length_contenedor
  obtain ⟨fuera, padS, desc, padO, salt, _, hab⟩ := abrir_alterado (Kdf.libre id)
    (Aead.deRegistro marcar m'.sellos) 1024 [1] "a" (some ([2, 3], "b")) Perfil.v1 .sereno m' c hI
    (Kdf.libre_aceptaSanos id) (h.ideal_deRegistro hI rfl marcar) rfl (by decide) (by decide)
    (by rintro o ho; cases ho; decide) hcr
  have hmin : tamanoMinimo ≤ c.length := by rw [hlen]; decide
  have hr : (List.replicate 504 (0 : UInt8)).length = (tramos c.length).2.len := by
    rw [hlen, List.length_replicate]
    rfl
  have hcero := length_empalmar hmin hr
  have hmas : ∀ clave, abrir (Kdf.libre id) (Aead.deRegistro marcar m'.sellos) (c ++ [0]) clave
      (some Perfil.v1) = .error (.error .noAbre) := by
    intro clave
    have hno := (hab ⟨c ++ [0], by rw [List.length_append, hlen]; decide⟩ _ (Or.inl rfl)).2
      (by simp) clave
    rw [hno, if_neg (by rw [List.length_append]; omega)]
    rfl
  refine ⟨_, c, m', hcr, ?_, ?_, ?_⟩
  · refine ((hab ⟨empalmar c (List.replicate 504 0), by rw [hcero, hlen]; decide⟩ _
      (Or.inl rfl)).1 "a" rfl).mpr ⟨mismoSenuelo_empalmar hmin hr, fun hd => ?_⟩
    cases hd.1
  · rw [hmas "a"]
  · rw [hmas "b"]

/-- When the decoy's passphrase is the one that was thrown away, the discarded ciphertext in the
hidden region takes the decoy's place. -/
theorem not_abrir_alterado :
    ∃ (aead : Aead 24 ClaveLibre) (m m' : Mundo 24 ClaveLibre) (c c' : List UInt8),
      m.sellos = [] ∧ aead.AddsTag ∧ aead.Ideal m'.sellos ∧
      crear (Kdf.libre id) aead 1024 [1] (descarteDe (ascendente 32)) none Perfil.v1 m = .ok c m' ∧
      MismoSenuelo c c' ∧
      abrir (Kdf.libre id) aead c' (descarteDe (ascendente 32)) (some Perfil.v1) =
        .ok ⟨.oculto, []⟩ := by
  have hI := Kdf.libre_inyectiva id
  obtain ⟨c, m', salt, h₀⟩ := exists_creacion_serena (Kdf.libre id) Aead.deMarca_addsTag 1024 [1]
    (descarteDe (ascendente 32)) none Perfil.v1
    (by decide) (by decide) (by decide) rfl rfl (by decide) (by decide) (by decide) (by decide)
  have hA : (Aead.deRegistro marcar m'.sellos).Ideal m'.sellos := h₀.ideal_deRegistro hI rfl marcar
  have h : Creacion (Kdf.libre id) (Aead.deRegistro marcar m'.sellos) 1024 [1]
      (descarteDe (ascendente 32)) none Perfil.v1 .sereno c m' _ _ _ _ salt := h₀.congr_sella
  have hT : (Aead.deRegistro marcar m'.sellos : Aead 24 ClaveLibre).AddsTag := Aead.deMarca_addsTag
  obtain ⟨aead, hae⟩ : ∃ aead, aead = Aead.deRegistro marcar m'.sellos := ⟨_, rfl⟩
  rw [← hae] at h hA hT
  have hlen := h.length_contenedor
  have hmin : tamanoMinimo ≤ c.length := by rw [hlen]; decide
  obtain ⟨r, hr⟩ : ∃ r, r = (selloDe (Kdf.libre id) aead Perfil.v1.params salt 1024
    (descarteDe (ascendente 32)) infoOculto (Prelayers.pad [] ++ ascendente 480)).ciphertext :=
    ⟨_, rfl⟩
  have hrl : r.length = (tramos c.length).2.len := by
    rw [hr, hlen]
    refine length_ciphertext_selloDe hT ?_ (by decide)
    rw [List.length_append, length_ascendente]
    rfl
  have hl := length_empalmar hmin hrl
  refine ⟨aead, .sereno, m', c, empalmar c r, rfl, hT, hA, h.crear, mismoSenuelo_empalmar hmin hrl,
    ?_⟩
  have hreg := regionOculta_empalmar hmin hrl
  rw [hlen] at hreg hl
  rw [h.abrir_eq hI hA rfl (by decide) (by rintro o ho; cases ho) (Kdf.libre_aceptaSanos id)
    (Or.inl rfl) (by rw [hl]; decide) (fun _ => hl), aperturaDe, if_pos]
  · rfl
  · refine ⟨?_, hl, rfl, hreg.trans hr⟩
    exact (mismoSenuelo_empalmar hmin hrl).2.1.trans h.take_salt

end Negacion

end Quipu
