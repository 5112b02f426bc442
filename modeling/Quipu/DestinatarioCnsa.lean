import Quipu.Destinatario
import Mathlib.Data.Vector.MapLemmas

namespace Quipu

namespace Cnsa.Destinatario

open Aleatorio

variable {D K : Type}

structure PublicKey where
  ml : Arr 1568

structure SecretKey (D : Type) where
  ml : D

/-- Every refusal looks the same. -/
inductive DestinatarioError where
  | noAbre
  deriving DecidableEq, Repr

def etiqueta : List UInt8 := utf8 "quipu-cnsa/destinatario/ml-kem-1024/v1"

def encapsulationLen : Nat := 1568

def nonceLen : Nat := 12

def transcript (ek ct : List UInt8) : List UInt8 := etiqueta ++ be 8 ek.length ++ ek ++ ct

/-- The salts of this channel. -/
def SalDeTranscript (s : Option (List UInt8)) : Prop :=
  ∃ ek ct : Arr 1568, s = some (transcript ek.toList ct.toList)

variable (canal : Canal D K) (aead : Aead 12 K)

def claveDeContenido (ss t : List UInt8) : K := canal.hkdf.derivar (some t) ss etiqueta

def SecretKey.clavePublica (sk : SecretKey D) : PublicKey := ⟨canal.kem.encapsulationKey sk.ml⟩

/-- The content key and the ciphertext of the KEM that a seed of the generator gives. -/
def encapsularDe (pk : PublicKey) (semilla : Arr 32) : K × Arr 1568 :=
  let ml := canal.kem.encapsulate pk.ml (tomar (canal.chacha semilla) 32)
  (claveDeContenido canal ml.2.toList (transcript pk.ml.toList ml.1.toList), ml.1)

def cifrarPara (pk : PublicKey) (mensaje : List UInt8) :
    Prog (Mundo 12 K) SinEntropia (List UInt8) := do
  let semilla ← pedirFill .sinEntropia 32
  let e := encapsularDe canal pk semilla
  let nonce ← pedirFill .sinEntropia 12
  let sellado ← sellar aead e.1 nonce mensaje e.2.toList
  pure (e.2.toList ++ nonce.toList ++ sellado)

def descifrar (sk : SecretKey D) (blob : List UInt8) : Res DestinatarioError (List UInt8) := do
  rechazarSi (blob.length < encapsulationLen + nonceLen) .noAbre
  let ct := ajustar 1568 blob
  let nonce := ajustar 12 (blob.drop encapsulationLen)
  let sellado := blob.drop (encapsulationLen + nonceLen)
  let ss := canal.kem.decapsulate sk.ml ct
  let ek := canal.kem.encapsulationKey sk.ml
  let clave := claveDeContenido canal ss.toList (transcript ek.toList ct.toList)
  match Cipher.decrypt aead clave nonce sellado ct.toList with
  | .ok mensaje => pure mensaje
  | .error _ => fallar .noAbre

/-- The draws of the writer: the seed of its generator and the nonce. -/
def sortearPara : Prog (Mundo 12 K) SinEntropia (Arr 32 × Arr 12) := do
  let semilla ← pedirFill .sinEntropia 32
  let nonce ← pedirFill .sinEntropia 12
  pure (semilla, nonce)

def selloPara (mensaje : List UInt8) (pk : PublicKey) (semilla : Arr 32) (nonce : Arr 12) :
    Sello 12 K :=
  let e := encapsularDe canal pk semilla
  ⟨e.1, nonce, e.2.toList, mensaje, aead.sella e.1 nonce mensaje e.2.toList⟩

/-- The blob of a seal: what was associated with it, its nonce and what was sealed. -/
def blobDeSello (s : Sello 12 K) : List UInt8 := s.aad ++ s.nonce.toList ++ s.ciphertext

variable {canal : Canal D K} {aead : Aead 12 K} {pk : PublicKey} {mensaje : List UInt8}

theorem cifrarPara_cases (canal : Canal D K) (aead : Aead 12 K) (pk : PublicKey)
    (mensaje : List UInt8) (m : Mundo 12 K) :
    (∃ semilla nonce m₁ m', sortearPara m = .ok (semilla, nonce) m₁ ∧
        cifrarPara canal aead pk mensaje m =
          .ok (blobDeSello (selloPara canal aead mensaje pk semilla nonce)) m' ∧
        m'.sellos = m.sellos ++ [selloPara canal aead mensaje pk semilla nonce]) ∨
      ∃ m', sortearPara m = .error (.error .sinEntropia) m' ∧
        cifrarPara canal aead pk mensaje m = .error (.error .sinEntropia) m' := by
  unfold cifrarPara sortearPara
  rcases pedirFill_cases SinEntropia.sinEntropia 32 m with ⟨semilla, m₁, h₁, hs₁⟩ | ⟨m₁, h₁⟩
  · rw [Prog.bind_of_ok h₁, Prog.bind_of_ok h₁]
    rcases pedirFill_cases SinEntropia.sinEntropia 12 m₁ with ⟨nonce, m₂, h₂, hs₂⟩ | ⟨m₂, h₂⟩
    · rw [Prog.bind_of_ok h₂, Prog.bind_of_ok h₂]
      exact .inl ⟨semilla, nonce, m₂, _, rfl, rfl, congrArg (· ++ _) (hs₂.trans hs₁)⟩
    · rw [Prog.bind_of_error h₂, Prog.bind_of_error h₂]
      exact .inr ⟨m₂, rfl, rfl⟩
  · rw [Prog.bind_of_error h₁, Prog.bind_of_error h₁]
    exact .inr ⟨m₁, rfl, rfl⟩

/-- What the reader found in a blob that it opened. -/
theorem descifrar_eq_ok {sk : SecretKey D} {blob d : List UInt8} :
    descifrar canal aead sk blob = .ok d ↔
      encapsulationLen + nonceLen ≤ blob.length ∧
        aead.abre (claveDeContenido canal
            (canal.kem.decapsulate sk.ml (ajustar 1568 blob)).toList
            (transcript (canal.kem.encapsulationKey sk.ml).toList (ajustar 1568 blob).toList))
          (ajustar 12 (blob.drop encapsulationLen)) (blob.drop (encapsulationLen + nonceLen))
          (ajustar 1568 blob).toList = some d := by
  rw [← Cipher.decrypt_eq_ok, descifrar, rechazarSi_bind]
  split
  next h => simp [fallar, h]
  next h =>
    simp only [not_lt.mp h, true_and]
    split
    next m hm => simp [hm]
    next e he => simp [he, fallar]

theorem ajustar_take {n : Nat} {b : List UInt8} (h : n ≤ b.length) :
    (ajustar n b).toList = b.take n := List.takeD_eq_take _ h

/-- What `cifrarPara` writes for the pair of a secret key, its holder reads back; the writer returns
whenever the source hands over its draws, and else returns the error of the draw. -/
theorem descifrar_cifrarPara (hU : aead.Undoes) {sk : SecretKey D} (hkem : canal.kem.Correcto sk.ml)
    (mensaje : List UInt8) (m : Mundo 12 K) :
    (∃ r m₁, sortearPara m = .ok r m₁ ∧
        ∃ blob m', cifrarPara canal aead (sk.clavePublica canal) mensaje m = .ok blob m' ∧
          descifrar canal aead sk blob = .ok mensaje) ∨
      ∃ m', sortearPara m = .error (.error .sinEntropia) m' ∧
        cifrarPara canal aead (sk.clavePublica canal) mensaje m =
          .error (.error .sinEntropia) m' := by
  rcases cifrarPara_cases canal aead (sk.clavePublica canal) mensaje m with
    ⟨semilla, nonce, m₁, m', hsorteo, h, -⟩ | herror
  · refine .inl ⟨_, m₁, hsorteo, _, m', h, descifrar_eq_ok.mpr ?_⟩
    generalize he : encapsularDe canal (sk.clavePublica canal) semilla = e
    have hsello : selloPara canal aead mensaje (sk.clavePublica canal) semilla nonce =
        ⟨e.1, nonce, e.2.toList, mensaje, aead.sella e.1 nonce mensaje e.2.toList⟩ := by
      rw [selloPara, he]
    have hclave : claveDeContenido canal (canal.kem.decapsulate sk.ml e.2).toList
        (transcript (canal.kem.encapsulationKey sk.ml).toList e.2.toList) = e.1 := by
      rw [← he]
      simp only [encapsularDe, SecretKey.clavePublica]
      rw [hkem]
    have hprefijo : (e.2.toList ++ nonce.toList).length = encapsulationLen + nonceLen := by
      simp [encapsulationLen, nonceLen]
    rw [hsello]
    simp only [blobDeSello, List.append_assoc, Pqhybrid.ajustar_append]
    rw [List.drop_left' (show e.2.toList.length = encapsulationLen from e.2.toList_length),
      Pqhybrid.ajustar_append, ← List.append_assoc, List.drop_left' hprefijo, hclave]
    refine ⟨?_, hU _ _ _ _⟩
    rw [List.length_append, hprefijo]
    exact Nat.le_add_right _ _
  · exact .inr herror

/-- An honest call of the writer that returned, from a world where nothing was sealed. -/
structure Envio (canal : Canal D K) (aead : Aead 12 K) where
  mensaje : List UInt8
  pk : PublicKey
  antes : Mundo 12 K
  despues : Mundo 12 K
  blob : List UInt8
  sinSellos : antes.sellos = []
  bien : cifrarPara canal aead pk mensaje antes = .ok blob despues

theorem Envio.hechos (r : Envio canal aead) :
    ∃ semilla nonce, r.despues.sellos = [selloPara canal aead r.mensaje r.pk semilla nonce] ∧
      r.blob = blobDeSello (selloPara canal aead r.mensaje r.pk semilla nonce) := by
  have hbien := r.bien
  rcases cifrarPara_cases canal aead r.pk r.mensaje r.antes with
    ⟨semilla, nonce, m₁, m', -, h, hs⟩ | ⟨m', -, h⟩
  · rw [h, EStateM.Result.ok.injEq] at hbien
    rw [r.sinSellos, hbien.2] at hs
    exact ⟨semilla, nonce, hs, hbien.1.symm⟩
  · rw [h] at hbien
    cases hbien

/-- A content key is bound to the public key that it was made for. -/
theorem publica_of_clave (hkdf : canal.hkdf.Inyectiva SalDeTranscript) {sk : SecretKey D}
    {semilla : Arr 32} {ss : List UInt8} {ct : Arr 1568}
    (h : claveDeContenido canal ss
        (transcript (canal.kem.encapsulationKey sk.ml).toList ct.toList) =
      (encapsularDe canal pk semilla).1) (hct : ct = (encapsularDe canal pk semilla).2) :
    pk = sk.clavePublica canal := by
  obtain ⟨hsalt, -, -⟩ := hkdf.derivar ⟨_, _, rfl⟩ ⟨_, _, rfl⟩ h
  subst hct
  have htranscript := (List.append_inj' (Option.some.inj hsalt) rfl).1
  have hek := (List.append_inj' htranscript (by simp)).2
  obtain ⟨ml⟩ := pk
  exact congrArg PublicKey.mk (Arr.ext hek.symm)

/-- With an AEAD that opens only what was sealed, a blob that a recipient opens was written to its
public key. -/
theorem descifrar_integro (hkdf : canal.hkdf.Inyectiva SalDeTranscript) {sk : SecretKey D}
    (runs : List (Envio canal aead))
    (ho : aead.OpensOnly (runs.flatMap fun r => r.despues.sellos)) {blob d : List UInt8}
    (h : descifrar canal aead sk blob = .ok d) :
    ∃ r ∈ runs, r.pk = sk.clavePublica canal ∧ d = r.mensaje ∧ blob = r.blob := by
  obtain ⟨hl, habre⟩ := descifrar_eq_ok.mp h
  obtain ⟨r, hr, hmem⟩ := List.mem_flatMap.mp (ho _ _ _ _ _ habre)
  obtain ⟨semilla, nonce, hsellos, hblob⟩ := r.hechos
  rw [hsellos, List.mem_singleton] at hmem
  have hkey := congrArg Sello.key hmem
  have haad := congrArg Sello.aad hmem
  have hpartes := congrArg blobDeSello hmem
  have hct : (ajustar 1568 blob).toList = blob.take encapsulationLen :=
    ajustar_take (Nat.le_trans (Nat.le_add_right _ _) hl)
  have hnonce : (ajustar 12 (blob.drop encapsulationLen)).toList =
      (blob.drop encapsulationLen).take nonceLen := by
    apply ajustar_take
    rw [List.length_drop]
    exact Nat.le_sub_of_add_le' hl
  refine ⟨r, hr, publica_of_clave hkdf hkey (Arr.ext haad), congrArg Sello.plaintext hmem, ?_⟩
  rw [hblob, ← hpartes, blobDeSello]
  dsimp only
  rw [hct, hnonce, ← List.drop_drop, List.append_assoc, List.take_append_drop,
    List.take_append_drop]

end Cnsa.Destinatario

open Cnsa.Destinatario in
/-- Both channels to a recipient, hybrid and CNSA: the holder of the secret key reads back what was
written to its public key, and opens nothing but that. The writers return whenever the source hands
over their draws, and else return its error. -/
theorem canal_destinatario {D K D' K' : Type} (dh : Dh) (canal : Canal D K)
    (canal' : Canal D' K') (hkdf : canal.hkdf.Inyectiva (· = none))
    (hkdf' : canal'.hkdf.Inyectiva SalDeTranscript) :
    (∀ (aead : Aead 24 K) (sk : Pqhybrid.SecretKey D), aead.Undoes → dh.Correcto sk.x →
        canal.kem.Correcto sk.ml → ∀ (data : Slice) dict m,
        (∃ r m₁, Api.sortearPara m = .ok r m₁ ∧
          ∃ text m', Api.encodeToRecipient dh canal aead data (sk.publica dh canal) dict m =
              .ok text m' ∧
            Api.decodeAsRecipient aead text (Pqhybrid.decapsulate dh canal sk) dict = .ok data) ∨
        ∃ e m', Api.sortearPara m = .error (.error e) m' ∧
          Api.encodeToRecipient dh canal aead data (sk.publica dh canal) dict m =
            .error (.error e) m') ∧
      (∀ (aead : Aead 24 K) (sk : Pqhybrid.SecretKey D) (runs : List (Api.Envio dh canal aead)),
        aead.OpensOnly (runs.flatMap fun r => r.despues.sellos) → ∀ dict symbols d,
        Api.decodeAsRecipient aead symbols (Pqhybrid.decapsulate dh canal sk) dict = .ok d →
        ∃ r ∈ runs, r.recipient = sk.publica dh canal ∧ d = r.data ∧
          ∃ blob, Api.blobDe dict symbols = .ok blob ∧ Api.blobDe r.dict r.text = .ok blob) ∧
      (∀ (aead : Aead 12 K') (sk : SecretKey D'), aead.Undoes → canal'.kem.Correcto sk.ml →
        ∀ mensaje m,
        (∃ r m₁, sortearPara m = .ok r m₁ ∧
          ∃ blob m', cifrarPara canal' aead (sk.clavePublica canal') mensaje m = .ok blob m' ∧
            descifrar canal' aead sk blob = .ok mensaje) ∨
        ∃ m', sortearPara m = .error (.error .sinEntropia) m' ∧
          cifrarPara canal' aead (sk.clavePublica canal') mensaje m =
            .error (.error .sinEntropia) m') ∧
      ∀ (aead : Aead 12 K') (sk : SecretKey D') (runs : List (Envio canal' aead)),
        aead.OpensOnly (runs.flatMap fun r => r.despues.sellos) → ∀ blob d,
        descifrar canal' aead sk blob = .ok d →
        ∃ r ∈ runs, r.pk = sk.clavePublica canal' ∧ d = r.mensaje ∧ blob = r.blob := by
  refine ⟨?_, ?_, ?_, ?_⟩
  · intro aead sk hU hdh hkem data dict m
    exact Api.decodeAsRecipient_encodeToRecipient hU hdh hkem data dict m
  · intro aead sk runs ho dict symbols d h
    exact Api.decodeAsRecipient_integro hkdf runs ho h
  · intro aead sk hU hkem mensaje m
    exact descifrar_cifrarPara hU hkem mensaje m
  · intro aead sk runs ho blob d h
    exact descifrar_integro hkdf' runs ho h

/-- The keys of the free derivation are the terms that derive them. -/
abbrev ClaveHkdf := Option (List UInt8) × List UInt8 × List UInt8

def Hkdf.libre : Hkdf ClaveHkdf := ⟨fun s i c => (s, i, c)⟩

theorem Hkdf.libre_inyectiva (Sal : Option (List UInt8) → Prop) : Hkdf.libre.Inyectiva Sal where
  derivar _ _ h := by
    simp only [Hkdf.libre, Prod.mk.injEq] at h
    exact h

/-- An exchange of values in the clear, whose secret is their sum byte by byte. -/
def Dh.suma : Dh := ⟨id, List.Vector.map₂ (· + ·)⟩

theorem Dh.suma_correcto (sk : Arr 32) : Dh.suma.Correcto sk := fun eph =>
  List.Vector.map₂_comm eph sk (· + ·) UInt8.add_comm

theorem length_claro (azar : Arr 32) : (azar.toList ++ List.replicate 1536 0).length = 1568 := by
  rw [List.length_append, azar.toList_length, List.length_replicate]

/-- A KEM whose ciphertext shows the secret. -/
def MlKem.claro : MlKem (Arr 1568) where
  encapsulationKey := id
  encapsulate _ azar := (Arr.of (azar.toList ++ List.replicate 1536 0) (length_claro azar), azar)
  decapsulate _ ct := ajustar 32 ct.toList

theorem MlKem.claro_correcto (dk : Arr 1568) : MlKem.claro.Correcto dk := fun azar =>
  Pqhybrid.ajustar_append azar (List.replicate 1536 0)

def Canal.libre : Canal (Arr 1568) ClaveHkdf := ⟨MlKem.claro, Hkdf.libre, fun _ => UInt8.ofNat⟩

theorem exists_encodeToRecipient (aead : Aead 24 ClaveHkdf) (data : List UInt8)
    (recipient : Pqhybrid.PublicKey) (dict : Dictionary) :
    ∃ text m', Api.encodeToRecipient Dh.suma Canal.libre aead data recipient dict .sereno =
      .ok text m' := by
  have hpedir : ∀ k, (pedir .error k : Prog (Mundo 24 ClaveHkdf) Aleatorio.SinEntropia (Arr k))
      .sereno = .ok (Aleatorio.tomar UInt8.ofNat k) .sereno :=
    fun k => pedir_eq_ok.mpr ⟨llenar_sereno k _, rfl⟩
  have hblob : ∃ blob m', Api.encodeToRecipientBlob Dh.suma Canal.libre aead data recipient
      .sereno = .ok blob m' := by
    unfold Api.encodeToRecipientBlob
    rw [Prog.bind_of_ok (Pqhybrid.encapsulate_of_ok (hpedir 32)), Prog.bind_of_ok (hpedir 24)]
    exact ⟨_, _, rfl⟩
  obtain ⟨blob, m', hb⟩ := hblob
  obtain ⟨text, ht, -⟩ := Api.textoDe_ok (ε := Aleatorio.SinEntropia) dict blob
  refine ⟨text, m', ?_⟩
  rw [Api.encodeToRecipient, Prog.bind_of_ok hb, ht]
  rfl

theorem exists_cifrarPara (aead : Aead 12 ClaveHkdf) (mensaje : List UInt8)
    (pk : Cnsa.Destinatario.PublicKey) :
    ∃ blob m', Cnsa.Destinatario.cifrarPara Canal.libre aead pk mensaje .sereno = .ok blob m' := by
  unfold Cnsa.Destinatario.cifrarPara
  rw [Prog.bind_of_ok (pedirFill_sereno 32), Prog.bind_of_ok (pedirFill_sereno 12)]
  exact ⟨_, _, rfl⟩

def secretaHibrida : Pqhybrid.SecretKey (Arr 1568) :=
  ⟨List.Vector.replicate 32 0, List.Vector.replicate 1568 0⟩

def secretaCnsa : Cnsa.Destinatario.SecretKey (Arr 1568) := ⟨List.Vector.replicate 1568 0⟩

open Cnsa.Destinatario in
theorem canal_destinatario_uno :
    (∃ text m', Api.encodeToRecipient Dh.suma Canal.libre Aead.deMarca [1, 2]
        (secretaHibrida.publica Dh.suma Canal.libre) Api.alfabetoAB .sereno = .ok text m' ∧
      Api.decodeAsRecipient Aead.deMarca text
        (Pqhybrid.decapsulate Dh.suma Canal.libre secretaHibrida) Api.alfabetoAB = .ok [1, 2]) ∧
    (∃ sellos, ∃ r : Api.Envio Dh.suma Canal.libre (Aead.deRegistro marcar sellos),
      ∀ dict symbols d, Api.decodeAsRecipient (Aead.deRegistro marcar sellos) symbols
          (Pqhybrid.decapsulate Dh.suma Canal.libre secretaHibrida) dict = .ok d →
        ∃ q ∈ [r], q.recipient = secretaHibrida.publica Dh.suma Canal.libre ∧ d = q.data ∧
          ∃ blob, Api.blobDe dict symbols = .ok blob ∧ Api.blobDe q.dict q.text = .ok blob) ∧
    (∃ blob m', cifrarPara Canal.libre Aead.deMarca (secretaCnsa.clavePublica Canal.libre) [3]
        .sereno = .ok blob m' ∧
      descifrar Canal.libre Aead.deMarca secretaCnsa blob = .ok [3]) ∧
    ∃ sellos, ∃ r : Envio Canal.libre (Aead.deRegistro marcar sellos),
      ∀ blob d, descifrar Canal.libre (Aead.deRegistro marcar sellos) secretaCnsa blob = .ok d →
        ∃ q ∈ [r], q.pk = secretaCnsa.clavePublica Canal.libre ∧ d = q.mensaje ∧
          blob = q.blob := by
  obtain ⟨hida, hintegro, hida', hintegro'⟩ := canal_destinatario Dh.suma Canal.libre Canal.libre
    (Hkdf.libre_inyectiva _) (Hkdf.libre_inyectiva _)
  refine ⟨?_, ?_, ?_, ?_⟩
  · obtain ⟨text, m', h⟩ := exists_encodeToRecipient Aead.deMarca [1, 2]
      (secretaHibrida.publica Dh.suma Canal.libre) Api.alfabetoAB
    rcases hida Aead.deMarca secretaHibrida Aead.deMarca_undoes (Dh.suma_correcto _)
      (MlKem.claro_correcto _) ⟨[1, 2], by decide⟩ Api.alfabetoAB .sereno with
      ⟨_, _, _, hbien⟩ | ⟨e, m₁, _, he⟩
    · exact hbien
    · cases h.symm.trans he
  · obtain ⟨text, m', h⟩ := exists_encodeToRecipient (Aead.deRegistro marcar []) [1, 2]
      (secretaHibrida.publica Dh.suma Canal.libre) Api.alfabetoAB
    refine ⟨m'.sellos, ⟨⟨[1, 2], by decide⟩, _, Api.alfabetoAB, .sereno, m', text, rfl, h⟩, ?_⟩
    apply hintegro
    rw [List.flatMap_singleton]
    exact Aead.deRegistro_opensOnly marcar m'.sellos
  · obtain ⟨blob, m', h⟩ := exists_cifrarPara Aead.deMarca [3]
      (secretaCnsa.clavePublica Canal.libre)
    rcases hida' Aead.deMarca secretaCnsa Aead.deMarca_undoes (MlKem.claro_correcto _) [3] .sereno
      with ⟨_, _, _, hbien⟩ | ⟨m₁, _, he⟩
    · exact hbien
    · cases h.symm.trans he
  · obtain ⟨blob, m', h⟩ := exists_cifrarPara (Aead.deRegistro marcar []) [3]
      (secretaCnsa.clavePublica Canal.libre)
    refine ⟨m'.sellos, ⟨[3], _, .sereno, m', blob, rfl, h⟩, ?_⟩
    apply hintegro'
    rw [List.flatMap_singleton]
    exact Aead.deRegistro_opensOnly marcar m'.sellos

end Quipu
