import Quipu.Negacion

namespace Quipu

open Aleatorio

/-- The source answers the next request on the tape with `b`. -/
def Entrega (cinta : Cinta) (b : List UInt8) (cinta' : Cinta) : Prop :=
  llenar (List.Vector.replicate b.length 0) cinta = (.ok (), Arr.of b rfl, cinta')

theorem entrega_iff {k : Nat} {b : Arr k} {cinta cinta' : Cinta} :
    Entrega cinta b.toList cinta' ↔
      llenar (List.Vector.replicate k 0) cinta = (.ok (), b, cinta') := by
  obtain ⟨l, rfl⟩ := b
  rfl

theorem Entrega.sano {cinta cinta' : Cinta} {b : List UInt8} (h : Entrega cinta b cinta') :
    saludDe b = none := llenar_ok h

theorem Entrega.unica {cinta c₁ c₂ : Cinta} {b₁ b₂ : List UInt8} (h₁ : Entrega cinta b₁ c₁)
    (h₂ : Entrega cinta b₂ c₂) (hl : b₁.length = b₂.length) : b₁ = b₂ ∧ c₁ = c₂ := by
  have h₃ : llenar (List.Vector.replicate b₂.length 0) cinta = (.ok (), Arr.of b₁ hl, c₁) := by
    rw [← entrega_iff]
    exact h₁
  have he := h₃.symm.trans h₂
  simp only [Prod.mk.injEq, true_and] at he
  exact ⟨congrArg List.Vector.toList he.1, he.2⟩

theorem entrega_reponer {b : List UInt8} (h : saludDe b = none) (cinta : Cinta) :
    Entrega (reponer (Arr.of b rfl) cinta) b cinta :=
  llenar_reponer (b := Arr.of b rfl) h cinta

namespace Negacion

variable {M K : Type} {kdf : Kdf M K} {aead : Aead 24 K}

def claveDe (kdf : Kdf M K) (clave : String) (salt : Arr 16) (params : KdfParams)
    (info : List UInt8) : K :=
  kdf.expandKey (kdf.argon2id (utf8 (normalizar kdf clave) ++ []) salt.toList params) info

def nonceDe (kdf : Kdf M K) (clave : String) (salt : Arr 16) (params : KdfParams)
    (info : List UInt8) : Arr 24 :=
  kdf.expand (kdf.argon2id (utf8 (normalizar kdf clave) ++ []) salt.toList params)
    (info ++ infoNonce) 24

def selloDe (kdf : Kdf M K) (aead : Aead 24 K) (params : KdfParams) (salt : Arr 16)
    (total : Nat) (clave : String) (info claro : List UInt8) : Sello 24 K where
  key := claveDe kdf clave salt params info
  nonce := nonceDe kdf clave salt params info
  aad := datoAutenticado salt total
  plaintext := claro
  ciphertext := aead.sella (claveDe kdf clave salt params info)
    (nonceDe kdf clave salt params info) claro (datoAutenticado salt total)

theorem clavesDeRegion_eq (maestra : M) (info : List UInt8) :
    clavesDeRegion kdf maestra info =
      .ok (kdf.expandKey maestra info, kdf.expand maestra (info ++ infoNonce) 24) := by
  simp [clavesDeRegion, deriveStream_ok, deriveSubkey, pure, Except.pure]

theorem llenarDe_eq_ok {n : Nat} {m m' : Mundo 24 K} {b : Arr n} :
    llenarDe n m = .ok b m' ↔ Entrega m.cinta b.toList m'.cinta ∧
      m' = { m with cinta := m'.cinta } := by
  rw [llenarDe, pedir_eq_ok, entrega_iff]

theorem claroDeRegion_eq_ok {datos claro : List UInt8} {largo : Nat} {v : Volumen}
    {m m' : Mundo 24 K} :
    claroDeRegion datos largo v m = .ok claro m' ↔
      Padme.Enmarcable datos ∧
        ∃ relleno, (Prelayers.pad datos).length + relleno.length = largo ∧
          claro = Prelayers.pad datos ++ relleno ∧ Entrega m.cinta relleno m'.cinta ∧
          m' = { m with cinta := m'.cinta } := by
  simp only [claroDeRegion, Prog.bind_ok, Prog.rechazarSi, Prog.deRes_eq_ok, rechazarSi_eq_ok,
    llenarDe_eq_ok, Nat.not_lt, Prelayers.padEn_64_eq_ok]
  constructor
  · rintro ⟨_, _, ⟨⟨rfl, hmarco⟩, rfl⟩, _, _, ⟨hle, rfl⟩, b, m₁, ⟨hb, hm⟩, hp⟩
    cases hp
    exact ⟨hmarco, b.toList, by simp; omega, rfl, hb, hm⟩
  · rintro ⟨hmarco, relleno, hl, rfl, hb, hm⟩
    refine ⟨_, m, ⟨⟨rfl, hmarco⟩, rfl⟩, (), m, ⟨by omega, rfl⟩, Arr.of relleno (by omega), m',
      ⟨hb, hm⟩, rfl⟩

theorem sellarRegion_eq_ok {perfil : Perfil} {salt : Arr 16} {total : Nat} {clave : String}
    {info datos cifrado : List UInt8} {tramo : Tramo} {v : Volumen} {m m' : Mundo 24 K} :
    sellarRegion kdf aead perfil salt total clave info datos tramo v m = .ok cifrado m' ↔
      kdf.acepta perfil.params = true ∧ Padme.Enmarcable datos ∧
        ∃ relleno, (Prelayers.pad datos).length + relleno.length = tramo.len - tag ∧
          Entrega m.cinta relleno m'.cinta ∧
          cifrado = (selloDe kdf aead perfil.params salt total clave info
            (Prelayers.pad datos ++ relleno)).ciphertext ∧
          m' = ⟨m'.cinta, m.derivaciones ++ [(salt, perfil.params)],
            m.sellos ++ [selloDe kdf aead perfil.params salt total clave info
              (Prelayers.pad datos ++ relleno)]⟩ := by
  simp only [sellarRegion, Prog.bind_ok, Prog.deRes_eq_ok, derivar_eq_ok, clavesDeRegion_eq,
    claroDeRegion_eq_ok, sellar_apply]
  constructor
  · rintro ⟨_, _, ⟨ha, rfl, rfl⟩, ⟨k, nonce⟩, _, ⟨hk, rfl⟩, _, m₂,
      ⟨hmarco, relleno, hl, rfl, hb, hm⟩, hs⟩
    cases hk
    simp only [EStateM.Result.ok.injEq] at hs
    obtain ⟨hc, hm'⟩ := hs
    rw [hm] at hm'
    refine ⟨ha, hmarco, relleno, hl, ?_, hc.symm, ?_⟩
    · rw [← hm']
      exact hb
    · rw [← hm']
      rfl
  · rintro ⟨ha, hmarco, relleno, hl, hb, hc, hm⟩
    refine ⟨_, _, ⟨ha, rfl, rfl⟩, _, _, ⟨rfl, rfl⟩, _,
      ⟨m'.cinta, m.derivaciones ++ [(salt, perfil.params)], m.sellos⟩,
      ⟨hmarco, relleno, hl, rfl, hb, rfl⟩, ?_⟩
    rw [hm, hc]
    rfl

/-- The content and the passphrase that the hidden region is sealed with. -/
def ocultoReal (oculto : Option (List UInt8 × String)) (descarte : List UInt8) :
    List UInt8 × String :=
  oculto.getD ([], descarteDe descarte)

/-- A run of `crear` that ends well: what the source gave it, in order, and what it left. -/
structure Creacion (kdf : Kdf M K) (aead : Aead 24 K) (total : Nat) (senuelo : List UInt8)
    (claveSenuelo : String) (oculto : Option (List UInt8 × String)) (perfil : Perfil)
    (m : Mundo 24 K) (c : List UInt8) (m' : Mundo 24 K)
    (fuera padS desc padO : List UInt8) (salt : Arr 16) : Prop where
  lleno : senuelo ≠ []
  minimo : tamanoMinimo ≤ total
  distintas : oculto.any (fun o => iguales kdf claveSenuelo o.2) = false
  reserva : total < 2 ^ 63
  acepta : kdf.acepta perfil.params = true
  marcoSenuelo : Padme.Enmarcable senuelo
  marcoOculto : Padme.Enmarcable (ocultoReal oculto desc).1
  lengthFuera : fuera.length = total
  lengthDesc : desc.length = 32
  cabeSenuelo : (Prelayers.pad senuelo).length + padS.length = (tramos total).1.len - tag
  cabeOculto : (Prelayers.pad (ocultoReal oculto desc).1).length + padO.length =
    (tramos total).2.len - tag
  entregas : ∃ c₁ c₂ c₃, Entrega m.cinta fuera c₁ ∧ Entrega c₁ padS c₂ ∧ Entrega c₂ desc c₃ ∧
    Entrega c₃ padO m'.cinta
  salt_eq : salt.toList = fuera.take 16
  derivaciones : m'.derivaciones = m.derivaciones ++ [(salt, perfil.params), (salt, perfil.params)]
  sellos : m'.sellos = m.sellos ++
    [selloDe kdf aead perfil.params salt total claveSenuelo infoSenuelo
      (Prelayers.pad senuelo ++ padS),
     selloDe kdf aead perfil.params salt total (ocultoReal oculto desc).2 infoOculto
      (Prelayers.pad (ocultoReal oculto desc).1 ++ padO)]
  lengthSenuelo : (selloDe kdf aead perfil.params salt total claveSenuelo infoSenuelo
    (Prelayers.pad senuelo ++ padS)).ciphertext.length = (tramos total).1.len
  lengthOculto : oculto.isSome → (selloDe kdf aead perfil.params salt total
    (ocultoReal oculto desc).2 infoOculto
    (Prelayers.pad (ocultoReal oculto desc).1 ++ padO)).ciphertext.length = (tramos total).2.len
  contenedor : c = salt.toList ++
    (selloDe kdf aead perfil.params salt total claveSenuelo infoSenuelo
      (Prelayers.pad senuelo ++ padS)).ciphertext ++
    if oculto.isSome then
      (selloDe kdf aead perfil.params salt total (ocultoReal oculto desc).2 infoOculto
        (Prelayers.pad (ocultoReal oculto desc).1 ++ padO)).ciphertext
    else fuera.drop (tramos total).2.ini

theorem reservarEn_eq_ok {ε : Type} {w n : Nat} {u : Unit} :
    (Padme.reservarEn w n : Res ε Unit) = .ok u ↔ n < 2 ^ (w - 1) := by
  unfold Padme.reservarEn
  split
  next h => exact iff_of_true rfl h
  next h => exact iff_of_false (fun he => by cases he) h

theorem tramos_len {total : Nat} (h : tamanoMinimo ≤ total) :
    (tramos total).1.ini = 16 ∧ 16 + (tramos total).1.len = (tramos total).1.fin ∧
      (tramos total).1.fin = (tramos total).2.ini ∧ (tramos total).2.fin = total ∧
      (tramos total).2.ini + (tramos total).2.len = total ∧
      504 ≤ (tramos total).1.len ∧ 504 ≤ (tramos total).2.len := by
  simp only [tramos, Tramo.len, saltLen, tamanoMinimo, true_and] at h ⊢
  omega

theorem copiar_senuelo {total : Nat} (h : tamanoMinimo ≤ total) {fuera cs : List UInt8}
    (hc : cs.length = (tramos total).1.len) :
    (tramos total).1.copiar fuera cs =
      .ok (fuera.take 16 ++ cs ++ fuera.drop (tramos total).2.ini) := by
  obtain ⟨hini, _, hfin, _⟩ := tramos_len h
  rw [Tramo.copiar, if_pos hc, hini, hfin]

theorem copiar_oculto {total : Nat} (h : tamanoMinimo ≤ total) {salt cs rs co : List UInt8}
    (hs : salt.length = 16) (hc : cs.length = (tramos total).1.len)
    (hr : rs.length = (tramos total).2.len) (hco : co.length = (tramos total).2.len) :
    (tramos total).2.copiar (salt ++ cs ++ rs) co = .ok (salt ++ cs ++ co) := by
  obtain ⟨_, hmid, hfin, htot, hlen, _⟩ := tramos_len h
  have hpre : (salt ++ cs).length = (tramos total).2.ini := by
    rw [List.length_append]
    omega
  rw [Tramo.copiar, if_pos hco, List.take_left' hpre, htot, List.drop_of_length_le (by
    rw [List.length_append]
    omega), List.append_nil]

theorem length_of_copiar {t : Tramo} {xs ys zs : List UInt8} (h : t.copiar xs ys = .ok zs) :
    ys.length = t.len := by
  unfold Tramo.copiar at h
  split at h
  next hl => exact hl
  next => cases h

/-- A run of `crear` that ends well is as `Creacion` describes. -/
theorem crear_ok {total : Nat} {senuelo : List UInt8} {claveSenuelo : String}
    {oculto : Option (List UInt8 × String)} {perfil : Perfil} {m m' : Mundo 24 K}
    {c : List UInt8} (h : crear kdf aead total senuelo claveSenuelo oculto perfil m = .ok c m') :
    ∃ fuera padS desc padO salt,
      Creacion kdf aead total senuelo claveSenuelo oculto perfil m c m' fuera padS desc padO
        salt := by
  simp only [crear, Prog.bind_ok, Prog.rechazarSi, Prog.deRes_eq_ok, rechazarSi_eq_ok,
    llenarDe_eq_ok, sellarRegion_eq_ok, reservarEn_eq_ok] at h
  obtain ⟨_, a₁, ⟨hs, h₁⟩, _, a₂, ⟨hmin, h₂⟩, _, a₃, ⟨hd, h₃⟩, _, a₆, ⟨hres, h₆⟩, fuera, m₁,
    ⟨hf, hm₁⟩, salt, a₄, ⟨hsalt, h₄⟩, cs, m₂, ⟨ha, hmS, padS, hpS, hbS, hcs, hm₂⟩, f₂, a₅,
    ⟨hcop, h₅⟩, desc, m₃, ⟨hdesc, hm₃⟩, co, m₄, ⟨_, hmO, padO, hpO, hbO, hco, hm₄⟩, hfin⟩ := h
  subst a₁ a₂ a₃ a₄ a₅ a₆
  have hmin := Nat.not_lt.mp hmin
  obtain ⟨hini, hmid, hfin₁, htot, hlen, h504, h504'⟩ := tramos_len hmin
  have hlf : fuera.toList.length = total := fuera.toList_length
  have hcsl := length_of_copiar hcop
  have hst : salt.toList = fuera.toList.take 16 := by
    rw [campo_ok (by unfold tamanoMinimo at hmin; omega)] at hsalt
    cases hsalt
    rfl
  rw [copiar_senuelo hmin hcsl, ← hst] at hcop
  cases hcop
  have hcopia : m' = m₄ ∧ (oculto.isSome → co.length = (tramos total).2.len) ∧
      c = salt.toList ++ cs ++ if oculto.isSome then co
        else fuera.toList.drop (tramos total).2.ini := by
    split at hfin
    next ho =>
      obtain ⟨hcop, rfl⟩ := Prog.deRes_eq_ok.mp hfin
      have hcol := length_of_copiar hcop
      rw [copiar_oculto hmin salt.toList_length hcsl (by rw [List.length_drop]; omega) hcol]
        at hcop
      cases hcop
      exact ⟨rfl, fun _ => hcol, by rw [if_pos ho]⟩
    next ho =>
      cases hfin
      exact ⟨rfl, fun h => absurd h ho, by rw [if_neg ho]⟩
  obtain ⟨rfl, hcol, hc⟩ := hcopia
  refine ⟨fuera.toList, padS, desc.toList, padO, salt, hs, hmin, by simpa using hd, hres, ha, hmS,
    hmO, hlf, desc.toList_length, hpS, hpO, ⟨_, _, _, hf, hbS, hdesc, hbO⟩, hst, ?_, ?_, hcs ▸ hcsl,
    fun ho => ?_, ?_⟩
  · rw [hm₄, hm₃, hm₂, hm₁]
    simp
  · rw [hm₄, hm₃, hm₂, hm₁]
    simp [ocultoReal]
  · have hl := hcol ho
    rwa [hco] at hl
  · rw [hc, hcs, hco]
    rfl

/-- What `Creacion` describes, `crear` does. -/
theorem Creacion.crear {total : Nat} {senuelo : List UInt8}
    {claveSenuelo : String} {oculto : Option (List UInt8 × String)} {perfil : Perfil}
    {m m' : Mundo 24 K} {c fuera padS desc padO : List UInt8} {salt : Arr 16}
    (h : Creacion kdf aead total senuelo claveSenuelo oculto perfil m c m' fuera padS desc padO
      salt) :
    crear kdf aead total senuelo claveSenuelo oculto perfil m = .ok c m' := by
  simp only [Negacion.crear, Prog.bind_ok, Prog.rechazarSi, Prog.deRes_eq_ok, rechazarSi_eq_ok,
    llenarDe_eq_ok, sellarRegion_eq_ok, reservarEn_eq_ok]
  obtain ⟨c₁, c₂, c₃, hf, hbS, hdesc, hbO⟩ := h.entregas
  obtain ⟨hini, hmid, hfin₁, htot, hlen, h504, h504'⟩ := tramos_len h.minimo
  have hlf := h.lengthFuera
  have hcampo : (campo fuera 0 16 : Res NegacionError (Arr 16)) = .ok salt := by
    have hmin := h.minimo
    unfold tamanoMinimo at hmin
    rw [campo_ok (by omega)]
    exact congrArg Except.ok (Arr.ext h.salt_eq.symm)
  let sS := selloDe kdf aead perfil.params salt total claveSenuelo infoSenuelo
    (Prelayers.pad senuelo ++ padS)
  let sO := selloDe kdf aead perfil.params salt total (ocultoReal oculto desc).2 infoOculto
    (Prelayers.pad (ocultoReal oculto desc).1 ++ padO)
  have hm' : m' = ⟨m'.cinta, (m.derivaciones ++ [(salt, perfil.params)]) ++
      [(salt, perfil.params)], (m.sellos ++ [sS]) ++ [sO]⟩ := by
    rw [List.append_assoc, List.append_assoc]
    exact congrArg₂ (Mundo.mk m'.cinta) h.derivaciones h.sellos
  refine ⟨(), m, ⟨h.lleno, rfl⟩, (), m, ⟨Nat.not_lt.mpr h.minimo, rfl⟩, (), m,
    ⟨by simp [h.distintas], rfl⟩, (), m, ⟨h.reserva, rfl⟩, Arr.of fuera hlf,
    { m with cinta := c₁ }, ⟨hf, rfl⟩, salt, _, ⟨hcampo, rfl⟩, sS.ciphertext,
    ⟨c₂, m.derivaciones ++ [(salt, perfil.params)], m.sellos ++ [sS]⟩,
    ⟨h.acepta, h.marcoSenuelo, padS, h.cabeSenuelo, hbS, rfl, rfl⟩, _, _,
    ⟨copiar_senuelo h.minimo h.lengthSenuelo, rfl⟩, Arr.of desc h.lengthDesc,
    ⟨c₃, m.derivaciones ++ [(salt, perfil.params)], m.sellos ++ [sS]⟩, ⟨hdesc, rfl⟩,
    sO.ciphertext, m', ⟨h.acepta, h.marcoOculto, padO, h.cabeOculto, hbO, rfl, hm'⟩, ?_⟩
  rw [Arr.toList_of, ← h.salt_eq, h.contenedor]
  cases oculto with
  | none => rfl
  | some o =>
    rw [copiar_oculto h.minimo salt.toList_length h.lengthSenuelo
      (by rw [List.length_drop]; omega) (h.lengthOculto rfl)]
    rfl

section Regiones

variable {total : Nat} {senuelo : List UInt8} {claveSenuelo : String}
  {oculto : Option (List UInt8 × String)} {perfil : Perfil} {m m' : Mundo 24 K}
  {c fuera padS desc padO : List UInt8} {salt : Arr 16}

def regionOculta (total : Nat) (c : List UInt8) : List UInt8 := (tramos total).2.de c

theorem Creacion.take_salt (h : Creacion kdf aead total senuelo claveSenuelo oculto perfil m c m'
    fuera padS desc padO salt) : c.take 16 = salt.toList := by
  rw [h.contenedor, List.append_assoc, List.take_left' salt.toList_length]

theorem Creacion.de_senuelo (h : Creacion kdf aead total senuelo claveSenuelo oculto perfil m c
    m' fuera padS desc padO salt) :
    (tramos total).1.de c = (selloDe kdf aead perfil.params salt total claveSenuelo infoSenuelo
      (Prelayers.pad senuelo ++ padS)).ciphertext := by
  rw [Tramo.de, (tramos_len h.minimo).1, h.contenedor, List.append_assoc,
    List.drop_left' salt.toList_length, List.take_left' h.lengthSenuelo]

theorem Creacion.length_resto (h : Creacion kdf aead total senuelo claveSenuelo oculto perfil m
    c m' fuera padS desc padO salt) :
    (if oculto.isSome then
      (selloDe kdf aead perfil.params salt total (ocultoReal oculto desc).2 infoOculto
        (Prelayers.pad (ocultoReal oculto desc).1 ++ padO)).ciphertext
    else fuera.drop (tramos total).2.ini).length = (tramos total).2.len := by
  obtain ⟨_, _, _, _, hlen, _⟩ := tramos_len h.minimo
  have hlf := h.lengthFuera
  split
  next ho => exact h.lengthOculto ho
  next =>
    rw [List.length_drop]
    omega

theorem Creacion.length_contenedor (h : Creacion kdf aead total senuelo claveSenuelo oculto
    perfil m c m' fuera padS desc padO salt) : c.length = total := by
  obtain ⟨_, hmid, hfin, _, hlen, _⟩ := tramos_len h.minimo
  rw [h.contenedor, List.length_append, h.length_resto, List.length_append, h.lengthSenuelo,
    salt.toList_length]
  omega

theorem Creacion.regionOculta_eq (h : Creacion kdf aead total senuelo claveSenuelo oculto perfil
    m c m' fuera padS desc padO salt) :
    regionOculta total c = if oculto.isSome then
      (selloDe kdf aead perfil.params salt total (ocultoReal oculto desc).2 infoOculto
        (Prelayers.pad (ocultoReal oculto desc).1 ++ padO)).ciphertext
    else fuera.drop (tramos total).2.ini := by
  obtain ⟨_, hmid, hfin, _⟩ := tramos_len h.minimo
  have hpre : (salt.toList ++ (selloDe kdf aead perfil.params salt total claveSenuelo infoSenuelo
      (Prelayers.pad senuelo ++ padS)).ciphertext).length = (tramos total).2.ini := by
    rw [List.length_append, h.lengthSenuelo, salt.toList_length]
    omega
  rw [regionOculta, Tramo.de, h.contenedor, List.drop_left' hpre,
    List.take_of_length_le h.length_resto.le]

/-- A run depends on the AEAD through its sealing alone. -/
theorem Creacion.congr_sella {sella : K → Arr 24 → List UInt8 → List UInt8 → List UInt8}
    {abre abre' : K → Arr 24 → List UInt8 → List UInt8 → Option (List UInt8)}
    (h : Creacion kdf ⟨sella, abre⟩ total senuelo claveSenuelo oculto perfil m c m' fuera padS desc
      padO salt) :
    Creacion kdf ⟨sella, abre'⟩ total senuelo claveSenuelo oculto perfil m c m' fuera padS desc
      padO salt :=
  ⟨h.lleno, h.minimo, h.distintas, h.reserva, h.acepta, h.marcoSenuelo, h.marcoOculto,
    h.lengthFuera, h.lengthDesc, h.cabeSenuelo, h.cabeOculto, h.entregas, h.salt_eq,
    h.derivaciones, h.sellos, h.lengthSenuelo, h.lengthOculto, h.contenedor⟩

end Regiones

theorem length_ciphertext_selloDe (hT : aead.AddsTag) {params : KdfParams} {salt : Arr 16}
    {total : Nat} {clave : String} {info claro : List UInt8} {t : Tramo}
    (hc : claro.length = t.len - tag) (ht : 504 ≤ t.len) :
    (selloDe kdf aead params salt total clave info claro).ciphertext.length = t.len := by
  simp only [selloDe, hT _ _ _ _, hc, tag, tagLen]
  omega

/-- With an AEAD that adds its tag and a source that answers, `crear` ends well. -/
theorem exists_creacion (hT : aead.AddsTag) {total : Nat} {senuelo : List UInt8}
    {claveSenuelo : String} {oculto : Option (List UInt8 × String)} {perfil : Perfil}
    {m : Mundo 24 K} {fuera padS desc padO : List UInt8} {c₁ c₂ c₃ c₄ : Cinta}
    (hs : senuelo ≠ []) (hmin : tamanoMinimo ≤ total) (hres : total < 2 ^ 63)
    (hd : oculto.any (fun o => iguales kdf claveSenuelo o.2) = false)
    (ha : kdf.acepta perfil.params = true) (hlS : senuelo.length < 2 ^ 63)
    (hlO : (ocultoReal oculto desc).1.length < 2 ^ 63) (hlf : fuera.length = total)
    (hld : desc.length = 32)
    (hS : (Prelayers.pad senuelo).length + padS.length = (tramos total).1.len - tag)
    (hO : (Prelayers.pad (ocultoReal oculto desc).1).length + padO.length =
      (tramos total).2.len - tag)
    (h₁ : Entrega m.cinta fuera c₁) (h₂ : Entrega c₁ padS c₂) (h₃ : Entrega c₂ desc c₃)
    (h₄ : Entrega c₃ padO c₄) :
    ∃ c m' salt, Creacion kdf aead total senuelo claveSenuelo oculto perfil m c m' fuera padS
      desc padO salt ∧ m'.cinta = c₄ := by
  obtain ⟨_, hmid, hfin, _, hlen, h504, h504'⟩ := tramos_len hmin
  have hmS : Padme.Enmarcable senuelo := by
    refine ⟨hlS, ?_⟩
    change (Prelayers.pad senuelo).length < 2 ^ 63
    omega
  have hmO : Padme.Enmarcable (ocultoReal oculto desc).1 := by
    refine ⟨hlO, ?_⟩
    change (Prelayers.pad _).length < 2 ^ 63
    omega
  let salt : Arr 16 := Arr.of (fuera.take 16) (by
    unfold tamanoMinimo at hmin
    rw [List.length_take]
    omega)
  let sS := selloDe kdf aead perfil.params salt total claveSenuelo infoSenuelo
    (Prelayers.pad senuelo ++ padS)
  let sO := selloDe kdf aead perfil.params salt total (ocultoReal oculto desc).2 infoOculto
    (Prelayers.pad (ocultoReal oculto desc).1 ++ padO)
  refine ⟨salt.toList ++ sS.ciphertext ++
    (if oculto.isSome then sO.ciphertext else fuera.drop (tramos total).2.ini),
    ⟨c₄, m.derivaciones ++ [(salt, perfil.params), (salt, perfil.params)], m.sellos ++ [sS, sO]⟩,
    salt, ?_, rfl⟩
  exact ⟨hs, hmin, hd, hres, ha, hmS, hmO, hlf, hld, hS, hO, ⟨c₁, c₂, c₃, h₁, h₂, h₃, h₄⟩, rfl, rfl,
    rfl, length_ciphertext_selloDe hT (by rw [List.length_append, hS]) h504,
    fun _ => length_ciphertext_selloDe hT (by rw [List.length_append, hO]) h504', rfl⟩

end Negacion

end Quipu
