import Quipu.NegacionAbrir
import Quipu.NegacionSereno

namespace Quipu

namespace Negacion

/-- Both contents fit, framed, in their regions. -/
def Caben (total : Nat) (senuelo : List UInt8) (oculto : Option (List UInt8 × String)) : Prop :=
  (Prelayers.pad senuelo).length ≤ (tramos total).1.len - tag ∧
    ∀ o, oculto = some o → (Prelayers.pad o.1).length ≤ (tramos total).2.len - tag

/-- The source answers the four requests of `crear` with bytes that pass for healthy; the third
ones are those of the passphrase that may be thrown away. -/
def Atendida (total : Nat) (senuelo : List UInt8) (oculto : Option (List UInt8 × String))
    (cinta : Aleatorio.Cinta) (desc : List UInt8) : Prop :=
  ∃ fuera padS padO c₁ c₂ c₃ c₄, fuera.length = total ∧
    padS.length = (tramos total).1.len - tag - (Prelayers.pad senuelo).length ∧
    desc.length = 32 ∧
    padO.length = (tramos total).2.len - tag -
      (Prelayers.pad (ocultoReal oculto desc).1).length ∧
    Entrega cinta fuera c₁ ∧ Entrega c₁ padS c₂ ∧ Entrega c₂ desc c₃ ∧ Entrega c₃ padO c₄

/-- The passphrases of both volumes are one to the KDF. -/
def Comparten (kdf : Kdf M K) (claveSenuelo : String) (oculto : Option (List UInt8 × String)) :
    Prop :=
  ∃ o, oculto = some o ∧ normalizar kdf claveSenuelo = normalizar kdf o.2

variable {M K : Type} {kdf : Kdf M K} {aead : Aead 24 K} {total : Nat} {senuelo : List UInt8}
  {claveSenuelo : String} {oculto : Option (List UInt8 × String)} {perfil : Perfil}

theorem crear_mismaContrasena {m : Mundo 24 K} (hs : senuelo ≠ []) (hmin : tamanoMinimo ≤ total)
    (h : Comparten kdf claveSenuelo oculto) :
    crear kdf aead total senuelo claveSenuelo oculto perfil m =
      .error (.error .mismaContrasena) m := by
  obtain ⟨o, rfl, hn⟩ := h
  have hig : (some o).any (fun o => iguales kdf claveSenuelo o.2) = true := iguales_iff.mpr hn
  rw [crear, Prog.rechazarSi_bind_of_not _ hs, Prog.rechazarSi_bind_of_not _ (by omega),
    Prog.rechazarSi_bind_of _ hig]

/-- No allocation holds 2^63 bytes. -/
theorem crear_sinSitio {m : Mundo 24 K} (hs : senuelo ≠ []) (hmin : tamanoMinimo ≤ total)
    (hd : ¬Comparten kdf claveSenuelo oculto) (hres : 2 ^ 63 ≤ total) :
    crear kdf aead total senuelo claveSenuelo oculto perfil m =
      .error (.panico "capacity overflow") m := by
  have hig : ¬oculto.any (fun o => iguales kdf claveSenuelo o.2) = true := by
    rw [Bool.not_eq_true, distintas_iff]
    exact fun o ho hn => hd ⟨o, ho, hn⟩
  have hno : (Padme.reservarEn 64 total : Res NegacionError Unit) = panico "capacity overflow" :=
    if_neg (Nat.not_lt.mpr hres)
  rw [crear, Prog.rechazarSi_bind_of_not _ hs, Prog.rechazarSi_bind_of_not _ (by omega),
    Prog.rechazarSi_bind_of_not _ hig]
  simp only [hno]
  rfl

theorem exists_creacion_atendida (perfil : Perfil) (hS : kdf.AceptaSanos) (hT : aead.AddsTag)
    {m : Mundo 24 K} {desc : List UInt8} (hs : senuelo ≠ []) (hmin : tamanoMinimo ≤ total)
    (hres : total < 2 ^ 63) (hlS : senuelo.length < 2 ^ 63)
    (hlO : ∀ o, oculto = some o → o.1.length < 2 ^ 63) (hc : Caben total senuelo oculto)
    (hr : Atendida total senuelo oculto m.cinta desc) (hd : ¬Comparten kdf claveSenuelo oculto) :
    ∃ c m' fuera padS padO salt, Creacion kdf aead total senuelo claveSenuelo oculto perfil
      m c m' fuera padS desc padO salt := by
  obtain ⟨fuera, padS, padO, c₁, c₂, c₃, c₄, hlf, hlpS, hld, hlpO, h₁, h₂, h₃, h₄⟩ := hr
  obtain ⟨hcS, hcO⟩ := hc
  obtain ⟨_, _, _, _, _, _, h504⟩ := tramos_len hmin
  have hreal : (ocultoReal oculto desc).1.length < 2 ^ 63 ∧
      (Prelayers.pad (ocultoReal oculto desc).1).length ≤ (tramos total).2.len - tag := by
    cases oculto with
    | none =>
      refine ⟨Nat.two_pow_pos 63, ?_⟩
      change (Prelayers.pad []).length ≤ _
      rw [show (Prelayers.pad []).length = 8 by decide]
      unfold tag
      omega
    | some o => exact ⟨hlO o rfl, hcO o rfl⟩
  have hdist := distintas_iff.mpr fun o ho hn => hd ⟨o, ho, hn⟩
  obtain ⟨c, m', salt, h, _⟩ := exists_creacion hT hs hmin hres hdist (hS _ perfil.sano) hlS
    hreal.1 hlf hld (by omega) (by omega) h₁ h₂ h₃ h₄
  exact ⟨c, m', fuera, padS, padO, salt, h⟩

/-- Creating and opening agree: each passphrase opens its own volume, in full, and every other
passphrase opens nothing, but for the one that was thrown away where the filler is its ciphertext.
Volumes that share a passphrase are refused on every run, and 2^63 bytes are too many. -/
theorem crear_abrir {M K : Type} (kdf : Kdf M K) (aead : Aead 24 K) (total : Nat)
    (senuelo : List UInt8) (claveSenuelo : String) (oculto : Option (List UInt8 × String))
    (perfil : Perfil) (m : Mundo 24 K) (hs : senuelo ≠ []) (hmin : tamanoMinimo ≤ total) :
    (Comparten kdf claveSenuelo oculto →
      crear kdf aead total senuelo claveSenuelo oculto perfil m =
        .error (.error .mismaContrasena) m) ∧
    (¬Comparten kdf claveSenuelo oculto → 2 ^ 63 ≤ total →
      crear kdf aead total senuelo claveSenuelo oculto perfil m =
        .error (.panico "capacity overflow") m) ∧
    (¬Comparten kdf claveSenuelo oculto → total < 2 ^ 63 → kdf.Inyectiva → kdf.AceptaSanos →
      aead.AddsTag → senuelo.length < 2 ^ 63 → (∀ o, oculto = some o → o.1.length < 2 ^ 63) →
      Caben total senuelo oculto → m.sellos = [] →
      ∀ desc, Atendida total senuelo oculto m.cinta desc →
      ∃ c m', crear kdf aead total senuelo claveSenuelo oculto perfil m = .ok c m' ∧
        c.length = total ∧
        (aead.Ideal m'.sellos →
          ∀ pista, pista = some perfil ∨ pista = none ∧ perfil ∈ Perfil.conocidos →
          ∀ clave,
            (Descartada kdf total oculto desc m' c clave →
              abrir kdf aead c clave pista = .ok ⟨.oculto, []⟩) ∧
            (¬Descartada kdf total oculto desc m' c clave →
              (normalizar kdf clave = normalizar kdf claveSenuelo →
                abrir kdf aead c clave pista = .ok ⟨.senuelo, senuelo⟩) ∧
              (∀ o, oculto = some o → normalizar kdf clave = normalizar kdf o.2 →
                abrir kdf aead c clave pista = .ok ⟨.oculto, o.1⟩) ∧
              (normalizar kdf clave ≠ normalizar kdf claveSenuelo →
                (∀ o, oculto = some o → normalizar kdf clave ≠ normalizar kdf o.2) →
                abrir kdf aead c clave pista = .error (.error .noAbre))))) := by
  refine ⟨crear_mismaContrasena hs hmin, crear_sinSitio hs hmin,
    fun hd hres hI hS hT hlS hlO hc hm desc hr => ?_⟩
  obtain ⟨c, m', fuera, padS, padO, salt, h⟩ :=
    exists_creacion_atendida perfil hS hT hs hmin hres hlS hlO hc hr hd
  refine ⟨c, m', h.crear, h.length_contenedor, fun hA pista hp clave =>
    ⟨h.abrir_descartada hI hA hm hlS hlO hS hp, fun hf => ?_⟩⟩
  rw [h.abrir hI hA hm hlS hlO hS hp hf]
  refine ⟨fun hn => ?_, fun o ho hn => ?_, fun hn ho => ?_⟩
  · rw [volumenDe_of_ne fun o ho he => hd ⟨o, ho, hn.symm.trans he⟩, if_pos hn]
    rfl
  · subst ho
    rw [volumenDe_oculto hn]
    rfl
  · rw [volumenDe_of_ne ho, if_neg hn]
    rfl

theorem Creacion.sello_unico (hI : kdf.Inyectiva) {m m' : Mundo 24 K}
    {c fuera padS desc padO : List UInt8} {salt : Arr 16}
    (h : Creacion kdf aead total senuelo claveSenuelo oculto perfil m c m' fuera padS desc padO
      salt) (hm : m.sellos = []) :
    ∀ s ∈ m'.sellos, ∀ t ∈ m'.sellos, s.key = t.key → s = t := by
  rw [h.sellos, hm]
  intro s hs t ht hk
  simp only [List.nil_append, List.mem_cons, List.not_mem_nil, or_false] at hs ht
  obtain rfl | rfl := hs <;> obtain rfl | rfl := ht
  · rfl
  · exact absurd ((claveDe_eq_iff hI).mp hk).2.2.2 infoSenuelo_ne_infoOculto
  · exact absurd ((claveDe_eq_iff hI).mp hk).2.2.2 infoSenuelo_ne_infoOculto.symm
  · rfl

theorem Creacion.ideal_deRegistro [DecidableEq K] (hI : kdf.Inyectiva) {m m' : Mundo 24 K}
    {c fuera padS desc padO : List UInt8} {salt : Arr 16}
    (h : Creacion kdf aead total senuelo claveSenuelo oculto perfil m c m' fuera padS desc padO
      salt) (hm : m.sellos = [])
    (sella : K → Arr 24 → List UInt8 → List UInt8 → List UInt8) :
    (Aead.deRegistro sella m'.sellos).Ideal m'.sellos :=
  Aead.deRegistro_ideal sella fun s hs t ht hk _ _ _ =>
    congrArg Sello.plaintext (h.sello_unico hI hm s hs t ht hk)

theorem atendida_serena :
    Atendida total senuelo oculto (Mundo.sereno : Mundo 24 K).cinta (ascendente 32) :=
  ⟨_, _, _, _, _, _, _, length_ascendente total, length_ascendente _, length_ascendente 32,
    length_ascendente _, entrega_sereno total, entrega_sereno _, entrega_sereno 32,
    entrega_sereno _⟩

theorem crear_abrir_sereno :
    ∃ (aead : Aead 24 ClaveLibre) (c : List UInt8) (m' : Mundo 24 ClaveLibre),
      crear (Kdf.libre id) aead 1024 [1] "a" (some ([2, 3], "b")) Perfil.v1 .sereno = .ok c m' ∧
      abrir (Kdf.libre id) aead c "a" (some Perfil.v1) = .ok ⟨.senuelo, [1]⟩ ∧
      abrir (Kdf.libre id) aead c "b" none = .ok ⟨.oculto, [2, 3]⟩ ∧
      abrir (Kdf.libre id) aead c "c" none = .error (.error .noAbre) := by
  have hd : ¬Comparten (Kdf.libre id) "a" (some (([2, 3] : List UInt8), "b")) := by
    rintro ⟨o, ho, hn⟩
    cases ho
    exact absurd hn (by decide)
  obtain ⟨c₀, m₀, salt, h₀⟩ := exists_creacion_serena (Kdf.libre id) Aead.deMarca_addsTag 1024
    [1] "a" (some ([2, 3], "b")) Perfil.v1
    (by decide) (by decide) (by decide) (by decide) rfl (by decide) (by decide) (by decide)
    (by decide)
  have hI := Kdf.libre_inyectiva id
  obtain ⟨aead, hae⟩ : ∃ aead, aead = Aead.deRegistro marcar m₀.sellos := ⟨_, rfl⟩
  have hT : aead.AddsTag := by
    subst hae
    exact Aead.deMarca_addsTag
  obtain ⟨_, _, hcr⟩ := crear_abrir (Kdf.libre id) aead 1024 [1] "a" (some ([2, 3], "b")) Perfil.v1
    .sereno (by decide) (by decide)
  obtain ⟨c, m', hcr, _, hab⟩ := hcr hd (by decide) hI (Kdf.libre_aceptaSanos id) hT (by decide)
    (by rintro o ho; cases ho; decide) ⟨by decide, by rintro o ho; cases ho; decide⟩ rfl _
    atendida_serena
  have hcr₀ : crear (Kdf.libre id) aead 1024 [1] "a" (some ([2, 3], "b")) Perfil.v1 .sereno =
      .ok c₀ m₀ := by
    subst hae
    exact h₀.crear
  obtain ⟨rfl, rfl⟩ := EStateM.Result.ok.inj (hcr.symm.trans hcr₀)
  have hA : aead.Ideal m'.sellos := by
    rw [hae]
    exact h₀.ideal_deRegistro hI rfl marcar
  have hab : ∀ pista, pista = some Perfil.v1 ∨ pista = none ∧ Perfil.v1 ∈ Perfil.conocidos →
      ∀ clave, _ := fun pista hp clave => (hab hA pista hp clave).2 fun hf => by cases hf.1
  have hv1 : Perfil.v1 ∈ Perfil.conocidos := List.mem_singleton_self _
  refine ⟨aead, c, m', hcr, (hab (some Perfil.v1) (.inl rfl) "a").1 rfl,
    (hab none (.inr ⟨rfl, hv1⟩) "b").2.1 _ rfl rfl,
    (hab none (.inr ⟨rfl, hv1⟩) "c").2.2 (by decide) ?_⟩
  intro o ho
  cases ho
  decide

def correr (_key : K) (_nonce : Arr 24) (p _aad : List UInt8) : List UInt8 :=
  p.mapIdx (fun i b => b + UInt8.ofNat (min (i + 8) 16)) ++ (ascendente 256).drop 240

theorem length_correr (k : K) (nonce : Arr 24) (p aad : List UInt8) :
    (correr k nonce p aad).length = p.length + tagLen := by
  rw [correr, List.length_append, List.length_mapIdx, List.length_drop, length_ascendente, tagLen]

/-- On the serene source the filler of the hidden region is the ciphertext of an empty volume. -/
theorem correr_relleno (k : K) (nonce : Arr 24) (aad : List UInt8) :
    correr k nonce (Prelayers.pad [] ++ ascendente 480) aad = (ascendente 1024).drop 520 := by
  have hpad : Prelayers.pad [] = List.replicate 8 0 := by decide
  have hclaro : (List.replicate 8 0 ++ ascendente 480).length = 488 := by
    rw [List.length_append, List.length_replicate, length_ascendente]
  have hlen : (correr k nonce (List.replicate 8 0 ++ ascendente 480) aad).length = 504 := by
    rw [length_correr, hclaro, tagLen]
  rw [hpad]
  refine List.ext_getElem (by rw [hlen, List.length_drop, length_ascendente]) fun i h₁ h₂ => ?_
  rw [hlen] at h₁
  rw [List.getElem_drop, getElem_ascendente]
  simp only [correr]
  rw [List.getElem_append]
  apply UInt8.toNat_inj.mp
  split
  next h =>
    rw [List.getElem_mapIdx, List.getElem_append]
    split
    next h8 =>
      rw [List.length_replicate] at h8
      rw [List.getElem_replicate]
      simp only [UInt8.toNat_add, UInt8.toNat_ofNat', UInt8.toNat_zero]
      omega
    next h8 =>
      rw [List.length_replicate] at h8
      simp only [getElem_ascendente, UInt8.toNat_add, UInt8.toNat_ofNat', List.length_replicate]
      omega
  next h =>
    rw [List.length_mapIdx, hclaro] at h
    simp only [List.getElem_drop, getElem_ascendente, UInt8.toNat_ofNat', List.length_mapIdx,
      hclaro]
    omega

theorem not_entrega_falla {b : List UInt8} (hb : b ≠ []) (bytes : Nat → UInt8)
    (cinta : Aleatorio.Cinta) :
    ¬Entrega (Stream'.const (.falla none bytes)) b cinta := by
  have hl : b.length ≠ 0 := fun h => hb (List.length_eq_zero_iff.mp h)
  have hc : Aleatorio.consultar b.length (Stream'.const (.falla none bytes)) =
      (.falla none bytes, Stream'.const (.falla none bytes)) := by
    rw [Aleatorio.consultar, if_neg hl]
    rfl
  simp [Entrega, Aleatorio.llenar, Aleatorio.intentos, Aleatorio.llenarDesde, hc,
    Aleatorio.transitorio]

/-- A source that never answers stops `crear`, and so does a size that no allocation holds; and
without a hidden volume a filler that is the discarded ciphertext opens, as a hidden volume, under
the discarded passphrase. -/
theorem not_crear_abrir :
    crear (Kdf.libre id) Aead.deMarca (2 ^ 63) [1] "a" none Perfil.v1
      (.sereno : Mundo 24 ClaveLibre) = .error (.panico "capacity overflow") .sereno ∧
    (∀ (c : List UInt8) (m' : Mundo 24 ClaveLibre),
      crear (Kdf.libre id) Aead.deMarca 1024 [1] "a" none Perfil.v1
        ⟨Stream'.const (.falla none fun _ => 0), [], []⟩ ≠ .ok c m') ∧
    ∃ (aead : Aead 24 ClaveLibre) (m m' : Mundo 24 ClaveLibre) (c : List UInt8),
      aead.AddsTag ∧ m.sellos = [] ∧ aead.Ideal m'.sellos ∧
      crear (Kdf.libre id) aead 1024 [1] "a" none Perfil.v1 m = .ok c m' ∧
      normalizar (Kdf.libre id) (descarteDe (ascendente 32)) ≠ normalizar (Kdf.libre id) "a" ∧
      abrir (Kdf.libre id) aead c (descarteDe (ascendente 32)) (some Perfil.v1) =
        .ok ⟨.oculto, []⟩ := by
  have hsolo : ¬Comparten (Kdf.libre id) "a" none := by
    rintro ⟨o, ho, _⟩
    cases ho
  refine ⟨crear_sinSitio (by decide) (by decide) hsolo le_rfl, fun c m' h => ?_, ?_⟩
  · obtain ⟨fuera, _, _, _, _, h⟩ := crear_ok h
    obtain ⟨_, _, _, hf, _⟩ := h.entregas
    have hl := h.lengthFuera
    refine not_entrega_falla (fun hn => ?_) _ _ hf
    rw [hn] at hl
    cases hl
  · have hI := Kdf.libre_inyectiva id
    have hT : ∀ L, (Aead.deRegistro correr L : Aead 24 ClaveLibre).AddsTag :=
      fun L k nonce p a => length_correr k nonce p a
    obtain ⟨c, m', salt, h₀⟩ := exists_creacion_serena (Kdf.libre id) (hT []) 1024 [1] "a" none
      Perfil.v1 (by decide) (by decide) (by decide) rfl rfl (by decide)
      (by decide) (by decide) (by decide)
    have hA : (Aead.deRegistro correr m'.sellos).Ideal m'.sellos :=
      h₀.ideal_deRegistro hI rfl correr
    have h : Creacion (Kdf.libre id) (Aead.deRegistro correr m'.sellos) 1024 [1] "a" none Perfil.v1
        .sereno c m' _ _ _ _ salt := h₀.congr_sella
    refine ⟨Aead.deRegistro correr m'.sellos, .sereno, m', c, hT _, rfl, hA, h.crear, by decide, ?_⟩
    have hlen := h.length_contenedor
    have hini : (tramos 1024).2.ini = 520 := rfl
    have hrelleno : ∀ salt clave, (selloDe (Kdf.libre id) (Aead.deRegistro correr m'.sellos)
        Perfil.v1.params salt 1024 clave infoOculto
        (Prelayers.pad [] ++ ascendente 480)).ciphertext = (ascendente 1024).drop 520 := by
      intro salt clave
      simp only [selloDe, Aead.deRegistro]
      rw [correr_relleno]
    rw [h.abrir_eq hI hA rfl (by decide) (by rintro o ho; cases ho) (Kdf.libre_aceptaSanos id)
      (Or.inl rfl) (by rw [hlen]; decide) (fun _ => hlen), aperturaDe, if_pos]
    · rfl
    · refine ⟨h.take_salt, hlen, rfl, ?_⟩
      rw [h.regionOculta_eq, if_neg (by decide), hini]
      exact (hrelleno salt _).symm

end Negacion

end Quipu
