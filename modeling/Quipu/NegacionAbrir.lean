import Quipu.NegacionCrear

namespace Quipu

namespace Negacion

variable {M K : Type} {kdf : Kdf M K} {aead : Aead 24 K} {total : Nat} {senuelo : List UInt8}
  {claveSenuelo : String} {oculto : Option (List UInt8 × String)} {perfil : Perfil}
  {m m' : Mundo 24 K} {c fuera padS desc padO : List UInt8} {salt : Arr 16}

/-- What a passphrase should open: the volume that was stored under it. -/
def volumenDe (kdf : Kdf M K) (senuelo : List UInt8) (claveSenuelo : String)
    (oculto : Option (List UInt8 × String)) (clave : String) : Option Apertura :=
  match oculto.filter fun o => normalizar kdf clave = normalizar kdf o.2 with
  | some o => some ⟨.oculto, o.1⟩
  | none =>
    if normalizar kdf clave = normalizar kdf claveSenuelo then some ⟨.senuelo, senuelo⟩ else none

theorem volumenDe_oculto {o : List UInt8 × String} {clave : String}
    (h : normalizar kdf clave = normalizar kdf o.2) :
    volumenDe kdf senuelo claveSenuelo (some o) clave = some ⟨.oculto, o.1⟩ := by
  simp only [volumenDe, Option.filter_some, decide_eq_true_eq, h, if_true]

theorem volumenDe_of_ne {clave : String}
    (h : ∀ o, oculto = some o → normalizar kdf clave ≠ normalizar kdf o.2) :
    volumenDe kdf senuelo claveSenuelo oculto clave =
      if normalizar kdf clave = normalizar kdf claveSenuelo then some ⟨.senuelo, senuelo⟩
      else none := by
  have hf : oculto.filter (fun o => normalizar kdf clave = normalizar kdf o.2) = none := by
    cases oculto with
    | none => rfl
    | some o => simpa using h o rfl
  rw [volumenDe, hf]

theorem iguales_iff {a b : String} :
    iguales kdf a b = true ↔ normalizar kdf a = normalizar kdf b := by
  unfold iguales ctEq
  constructor
  · intro h
    split at h
    next => cases h
    next => exact utf8_inj (by simpa using h)
  · intro h
    simp [h]

theorem distintas_iff :
    oculto.any (fun o => iguales kdf claveSenuelo o.2) = false ↔
      ∀ o, oculto = some o → normalizar kdf claveSenuelo ≠ normalizar kdf o.2 := by
  cases oculto with
  | none => simp
  | some o => simp [← iguales_iff]

theorem claveDe_eq_iff (hI : kdf.Inyectiva) {clave clave' : String} {salt salt' : Arr 16}
    {params params' : KdfParams} {info info' : List UInt8} :
    claveDe kdf clave salt params info = claveDe kdf clave' salt' params' info' ↔
      normalizar kdf clave = normalizar kdf clave' ∧ salt = salt' ∧ params = params' ∧
        info = info' := by
  constructor
  · intro h
    obtain ⟨hm, hi⟩ := hI.expandKey h
    obtain ⟨hs, hsal, hp⟩ := hI.argon2id hm
    rw [List.append_nil, List.append_nil] at hs
    exact ⟨utf8_inj hs, Arr.ext hsal, hp, hi⟩
  · rintro ⟨hn, rfl, rfl, rfl⟩
    simp only [claveDe, hn]

theorem nonceDe_congr {clave clave' : String} {params : KdfParams} {info : List UInt8}
    (h : normalizar kdf clave = normalizar kdf clave') :
    nonceDe kdf clave salt params info = nonceDe kdf clave' salt params info := by
  simp only [nonceDe, h]

theorem datoAutenticado_inj {salt salt' : Arr 16} {n n' : Nat}
    (h : datoAutenticado salt n = datoAutenticado salt' n') : salt = salt' ∧ be 8 n = be 8 n' := by
  obtain ⟨hs, hn⟩ := List.append_inj h (by rw [salt.toList_length, salt'.toList_length])
  exact ⟨Arr.ext hs, hn⟩

/-- What opens as a given seal of `crear`. -/
theorem eq_selloDe_iff (hI : kdf.Inyectiva) {clave clave' : String} {salt salt' : Arr 16}
    {params params' : KdfParams} {info info' x claro region : List UInt8} {total total' : Nat}
    (ht : be 8 total' = be 8 total → total' = total) :
    (⟨claveDe kdf clave' salt' params' info', nonceDe kdf clave' salt' params' info',
        datoAutenticado salt' total', x, region⟩ : Sello 24 K) =
      selloDe kdf aead params salt total clave info claro ↔
      normalizar kdf clave' = normalizar kdf clave ∧ salt' = salt ∧ params' = params ∧
        info' = info ∧ total' = total ∧ x = claro ∧
        region = (selloDe kdf aead params salt total clave info claro).ciphertext := by
  rw [selloDe, Sello.mk.injEq, claveDe_eq_iff hI]
  constructor
  · rintro ⟨⟨hn, rfl, rfl, rfl⟩, _, ha, hx, hr⟩
    exact ⟨hn, rfl, rfl, rfl, ht (datoAutenticado_inj ha).2, hx, hr⟩
  · rintro ⟨hn, rfl, rfl, rfl, rfl, hx, hr⟩
    exact ⟨⟨hn, rfl, rfl, rfl⟩, nonceDe_congr hn, rfl, hx, hr⟩

theorem infoSenuelo_ne_infoOculto : infoSenuelo ≠ infoOculto := by
  intro h
  have h := utf8_inj h
  simp at h

/-- The hidden region is, byte for byte, the last ciphertext that `crear` computed. -/
def Coincide (total : Nat) (c : List UInt8) (m' : Mundo 24 K) : Prop :=
  ∃ s, m'.sellos.getLast? = some s ∧ s.ciphertext = regionOculta total c

/-- Without a hidden volume the filler is the ciphertext that was thrown away, and the passphrase
is the one that was thrown away with it. -/
def Descartada (kdf : Kdf M K) (total : Nat) (oculto : Option (List UInt8 × String))
    (desc : List UInt8) (m' : Mundo 24 K) (c : List UInt8) (clave : String) : Prop :=
  oculto = none ∧ Coincide total c m' ∧ normalizar kdf clave = normalizar kdf (descarteDe desc)

theorem Creacion.coincide_iff
    (h : Creacion kdf aead total senuelo claveSenuelo oculto perfil m c m' fuera padS desc padO
      salt) {c' : List UInt8} :
    Coincide total c' m' ↔ regionOculta total c' =
      (selloDe kdf aead perfil.params salt total (ocultoReal oculto desc).2 infoOculto
        (Prelayers.pad (ocultoReal oculto desc).1 ++ padO)).ciphertext := by
  rw [Coincide, h.sellos]
  simp [eq_comm]

theorem intentar_eq {c : List UInt8} {clave : String} {p : Perfil} (hc : tamanoMinimo ≤ c.length)
    (ha : kdf.acepta p.params = true) (hs : c.take 16 = salt.toList) :
    intentar kdf aead c clave p = .ok (
      match (aead.abre (claveDe kdf clave salt p.params infoOculto)
          (nonceDe kdf clave salt p.params infoOculto) (regionOculta c.length c)
          (datoAutenticado salt c.length)).bind fun x => (Prelayers.unpad x).toOption with
      | some datos => some ⟨.oculto, datos⟩
      | none =>
        match (aead.abre (claveDe kdf clave salt p.params infoSenuelo)
            (nonceDe kdf clave salt p.params infoSenuelo) ((tramos c.length).1.de c)
            (datoAutenticado salt c.length)).bind fun x => (Prelayers.unpad x).toOption with
        | some datos => some ⟨.senuelo, datos⟩
        | none => none) := by
  have hcampo : (campo c 0 16 : Res NegacionError (Arr 16)) = .ok salt := by
    unfold tamanoMinimo at hc
    rw [campo_ok (by omega)]
    exact congrArg Except.ok (Arr.ext hs)
  have hprobar : ∀ k nonce region aad, probar aead k nonce region aad =
      aead.abre k nonce region aad := by
    intro k nonce region aad
    unfold probar Cipher.decrypt
    cases aead.abre k nonce region aad <;> rfl
  simp only [intentar, hcampo, deriveMasterKey_ok ha, clavesDeRegion_eq, hprobar, Res.ok_bind]
  rfl

/-- The choice of `intentar` between two framed contents. -/
theorem elegir_eq {A B : Prop} [Decidable A] [Decidable B] {datosO datosS padO padS : List UInt8}
    (hO : datosO.length < 2 ^ 63) (hS : datosS.length < 2 ^ 63) :
    (match (if A then some (Prelayers.pad datosO ++ padO) else none).bind
        fun x => (Prelayers.unpad x).toOption with
      | some datos => some (⟨.oculto, datos⟩ : Apertura)
      | none =>
        match (if B then some (Prelayers.pad datosS ++ padS) else none).bind
            fun x => (Prelayers.unpad x).toOption with
        | some datos => some ⟨.senuelo, datos⟩
        | none => none) =
      if A then some ⟨.oculto, datosO⟩ else if B then some ⟨.senuelo, datosS⟩ else none := by
  by_cases hA : A
  · rw [if_pos hA, if_pos hA, Option.bind_some, Prelayers.unpad_pad_append hO]
    rfl
  · rw [if_neg hA, if_neg hA]
    by_cases hB : B
    · rw [if_pos hB, if_pos hB, Option.bind_some, Option.bind_none,
        Prelayers.unpad_pad_append hS]
      rfl
    · rw [if_neg hB, if_neg hB]
      rfl

/-- What some bytes open to under a passphrase and the profile of the run: the last seal, of the
hidden volume or of the discarded one, comes first. -/
def aperturaDe (kdf : Kdf M K) (senuelo : List UInt8) (claveSenuelo : String)
    (real : List UInt8 × String) (salt : Arr 16) (cifradoSenuelo cifradoOculto : List UInt8)
    (total : Nat) (c : List UInt8) (clave : String) : Option Apertura :=
  if c.take 16 = salt.toList ∧ c.length = total ∧
      normalizar kdf clave = normalizar kdf real.2 ∧ regionOculta total c = cifradoOculto then
    some ⟨.oculto, real.1⟩
  else if c.take 16 = salt.toList ∧ c.length = total ∧
      normalizar kdf clave = normalizar kdf claveSenuelo ∧
      (tramos total).1.de c = cifradoSenuelo then
    some ⟨.senuelo, senuelo⟩
  else none

section Ideal

variable (h : Creacion kdf aead total senuelo claveSenuelo oculto perfil m c m' fuera padS desc
    padO salt)
  (hI : kdf.Inyectiva) (hA : aead.Ideal m'.sellos) (hm : m.sellos = [])

include h hI hA hm

section Trial

variable {salt' : Arr 16} {total' : Nat} (ht : be 8 total' = be 8 total → total' = total)
  (clave : String) (params : KdfParams) (region : List UInt8)

include ht

/-- Under a key of the decoy's region opens what `crear` sealed there, and nothing else. -/
theorem Creacion.abre_senuelo :
    aead.abre (claveDe kdf clave salt' params infoSenuelo)
        (nonceDe kdf clave salt' params infoSenuelo) region (datoAutenticado salt' total') =
      if params = perfil.params ∧ salt' = salt ∧ total' = total ∧
          normalizar kdf clave = normalizar kdf claveSenuelo ∧
          region = (selloDe kdf aead perfil.params salt total claveSenuelo infoSenuelo
            (Prelayers.pad senuelo ++ padS)).ciphertext then
        some (Prelayers.pad senuelo ++ padS)
      else none := by
  refine hA.abre_eq_ite fun x => ?_
  rw [h.sellos, hm, List.nil_append, List.mem_cons, List.mem_singleton, eq_selloDe_iff hI ht,
    eq_selloDe_iff hI ht]
  constructor
  · rintro (⟨hn, hs, hp, _, hl, hx, hr⟩ | ⟨_, _, _, hi, _⟩)
    · exact ⟨⟨hp, hs, hl, hn, hr⟩, hx⟩
    · exact absurd hi infoSenuelo_ne_infoOculto
  · rintro ⟨⟨hp, hs, hl, hn, hr⟩, hx⟩
    exact Or.inl ⟨hn, hs, hp, rfl, hl, hx, hr⟩

/-- The same for the hidden region, whose seal `crear` keeps or throws away. -/
theorem Creacion.abre_oculto :
    aead.abre (claveDe kdf clave salt' params infoOculto)
        (nonceDe kdf clave salt' params infoOculto) region (datoAutenticado salt' total') =
      if params = perfil.params ∧ salt' = salt ∧ total' = total ∧
          normalizar kdf clave = normalizar kdf (ocultoReal oculto desc).2 ∧
          region = (selloDe kdf aead perfil.params salt total (ocultoReal oculto desc).2
            infoOculto (Prelayers.pad (ocultoReal oculto desc).1 ++ padO)).ciphertext then
        some (Prelayers.pad (ocultoReal oculto desc).1 ++ padO)
      else none := by
  refine hA.abre_eq_ite fun x => ?_
  rw [h.sellos, hm, List.nil_append, List.mem_cons, List.mem_singleton, eq_selloDe_iff hI ht,
    eq_selloDe_iff hI ht]
  constructor
  · rintro (⟨_, _, _, hi, _⟩ | ⟨hn, hs, hp, _, hl, hx, hr⟩)
    · exact absurd hi.symm infoSenuelo_ne_infoOculto
    · exact ⟨⟨hp, hs, hl, hn, hr⟩, hx⟩
  · rintro ⟨⟨hp, hs, hl, hn, hr⟩, hx⟩
    exact Or.inr ⟨hn, hs, hp, rfl, hl, hx, hr⟩

end Trial

/-- One trial on any bytes, with any passphrase and profile. -/
theorem Creacion.intentar (hlS : senuelo.length < 2 ^ 63)
    (hlO : (ocultoReal oculto desc).1.length < 2 ^ 63) {c' : List UInt8}
    (hmin : tamanoMinimo ≤ c'.length) (ht : be 8 c'.length = be 8 total → c'.length = total)
    (clave : String) (p : Perfil) (ha : kdf.acepta p.params = true) :
    intentar kdf aead c' clave p = .ok (if p.params = perfil.params then
        aperturaDe kdf senuelo claveSenuelo (ocultoReal oculto desc) salt
          (selloDe kdf aead perfil.params salt total claveSenuelo infoSenuelo
            (Prelayers.pad senuelo ++ padS)).ciphertext
          (selloDe kdf aead perfil.params salt total (ocultoReal oculto desc).2 infoOculto
            (Prelayers.pad (ocultoReal oculto desc).1 ++ padO)).ciphertext total c' clave
      else none) := by
  obtain ⟨salt', hs'⟩ : ∃ salt' : Arr 16, c'.take 16 = salt'.toList := by
    unfold tamanoMinimo at hmin
    exact ⟨Arr.of (c'.take 16) (List.length_take_of_le (by omega)), rfl⟩
  have hs : salt' = salt ↔ c'.take 16 = salt.toList :=
    ⟨fun he => he ▸ hs', fun he => Arr.ext (hs'.symm.trans he)⟩
  rw [intentar_eq hmin ha hs', h.abre_oculto hI hA hm ht, h.abre_senuelo hI hA hm ht,
    elegir_eq hlO hlS]
  apply congrArg Except.ok
  by_cases hp : p.params = perfil.params
  · rw [if_pos hp, aperturaDe]
    refine if_congr ?_ rfl (if_congr ?_ rfl rfl)
    · rw [and_iff_right hp, hs]
      exact and_congr_right fun _ => and_congr_right fun hl => by rw [hl]
    · rw [and_iff_right hp, hs]
      exact and_congr_right fun _ => and_congr_right fun hl => by rw [hl]
  · rw [if_neg hp, if_neg fun hn => hp hn.1, if_neg fun hn => hp hn.1]

end Ideal

section Perfiles

variable {c : List UInt8} {clave : String} {params : KdfParams} {r : Option Apertura}

theorem abrirConPerfiles_of_intentar {ps : List Perfil}
    (h : ∀ p ∈ ps, intentar kdf aead c clave p =
      .ok (if p.params = params then r else none)) (abierto : Option Apertura) :
    abrirConPerfiles kdf aead c clave ps abierto = .ok (abierto.or
      (if ∃ p ∈ ps, p.params = params then r else none)) := by
  induction ps generalizing abierto with
  | nil => cases abierto <;> simp [abrirConPerfiles, pure, Except.pure]
  | cons p ps ih =>
    rw [abrirConPerfiles, h p List.mem_cons_self, Res.ok_bind,
      ih fun q hq => h q (List.mem_cons_of_mem p hq)]
    apply congrArg Except.ok
    cases abierto with
    | some a => simp
    | none =>
      by_cases hp : p.params = params
      · have hex : ∃ q ∈ p :: ps, q.params = params := ⟨p, List.mem_cons_self, hp⟩
        rw [if_pos hp, if_pos hex, Option.isNone_none, if_pos rfl, Option.none_or]
        split
        next => exact Option.or_self
        next => exact Option.or_none
      · simp [hp]

/-- The last step of `abrir`. -/
def responder (r : Option Apertura) : Res NegacionError Apertura :=
  match r with
  | some a => .ok a
  | none => fallar .noAbre

/-- With the profile of the run, given or among the known ones, `abrir` answers as its trial. -/
theorem abrir_of_intentar (hmin : tamanoMinimo ≤ c.length)
    (h : ∀ p : Perfil, intentar kdf aead c clave p =
      .ok (if p.params = perfil.params then r else none)) {pista : Option Perfil}
    (hp : pista = some perfil ∨ pista = none ∧ perfil ∈ Perfil.conocidos) :
    abrir kdf aead c clave pista = responder r := by
  rw [abrir, rechazarSi_of_not _ (by omega), Res.ok_bind]
  obtain rfl | ⟨rfl, hmem⟩ := hp
  · simp only
    rw [h perfil, if_pos rfl, Res.ok_bind]
    rfl
  · simp only
    rw [abrirConPerfiles_of_intentar fun p _ => h p, if_pos ⟨perfil, hmem, rfl⟩, Option.none_or,
      Res.ok_bind]
    rfl

end Perfiles

section Ideal

variable (h : Creacion kdf aead total senuelo claveSenuelo oculto perfil m c m' fuera padS desc
    padO salt)
  (hI : kdf.Inyectiva) (hA : aead.Ideal m'.sellos) (hm : m.sellos = [])
  (hlS : senuelo.length < 2 ^ 63) (hlO : ∀ o, oculto = some o → o.1.length < 2 ^ 63)
  (hS : kdf.AceptaSanos) {pista : Option Perfil}
  (hp : pista = some perfil ∨ pista = none ∧ perfil ∈ Perfil.conocidos)

include h hI hA hm hlS hlO hS hp

/-- What any bytes open to. -/
theorem Creacion.abrir_eq {c' : List UInt8} (hmin : tamanoMinimo ≤ c'.length)
    (ht : be 8 c'.length = be 8 total → c'.length = total) (clave : String) :
    abrir kdf aead c' clave pista =
      responder (aperturaDe kdf senuelo claveSenuelo (ocultoReal oculto desc) salt
        ((tramos total).1.de c)
        (selloDe kdf aead perfil.params salt total (ocultoReal oculto desc).2 infoOculto
          (Prelayers.pad (ocultoReal oculto desc).1 ++ padO)).ciphertext total c' clave) := by
  have hlO' : (ocultoReal oculto desc).1.length < 2 ^ 63 := by
    cases oculto with
    | none => exact Nat.two_pow_pos 63
    | some o => exact hlO o rfl
  rw [h.de_senuelo]
  exact abrir_of_intentar hmin
    (fun p => h.intentar hI hA hm hlS hlO' hmin ht clave p (hS _ p.sano)) hp

/-- What was thrown away opens where the filler is its ciphertext. -/
theorem Creacion.abrir_descartada {clave : String}
    (hd : Descartada kdf total oculto desc m' c clave) :
    abrir kdf aead c clave pista = .ok ⟨.oculto, []⟩ := by
  obtain ⟨rfl, hco, hn⟩ := hd
  have hlen := h.length_contenedor
  rw [h.abrir_eq hI hA hm hlS hlO hS hp (hlen.symm ▸ h.minimo) (fun _ => hlen) clave, aperturaDe,
    if_pos ⟨h.take_salt, hlen, hn, h.coincide_iff.mp hco⟩]
  rfl

/-- Any other passphrase opens what was stored under it, and nothing if nothing was. -/
theorem Creacion.abrir {clave : String} (hf : ¬Descartada kdf total oculto desc m' c clave) :
    abrir kdf aead c clave pista =
      responder (volumenDe kdf senuelo claveSenuelo oculto clave) := by
  have hlen := h.length_contenedor
  rw [h.abrir_eq hI hA hm hlS hlO hS hp (hlen.symm ▸ h.minimo) (fun _ => hlen) clave, aperturaDe]
  simp only [h.take_salt, hlen, true_and, and_true]
  cases oculto with
  | none =>
    rw [if_neg fun hn => hf ⟨rfl, h.coincide_iff.mpr hn.2, hn.1⟩]
    rfl
  | some o =>
    have hreg : regionOculta total c = _ := h.regionOculta_eq
    rw [hreg]
    simp only [Option.isSome_some, if_true, and_true, ocultoReal, Option.getD_some]
    by_cases hn : normalizar kdf clave = normalizar kdf o.2
    · rw [if_pos hn, volumenDe_oculto hn]
    · rw [if_neg hn, volumenDe_of_ne fun o' ho => by cases ho; exact hn]

end Ideal

end Negacion

end Quipu
