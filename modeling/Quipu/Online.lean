import Quipu.OprfNet
import Quipu.PasswordMalleability
import Quipu.PasswordSereno
import Quipu.TextRoundTrip

namespace Quipu.Modo

open Container

variable {n : Nat} {M K ε : Type} {modo : Modo ε} {kdf : Kdf M K} {aead : Aead n K}
  {data : List UInt8} {passphrase passphrase' : String} {huella : Arr 8} {params : KdfParams}
  {pepper pepper' : List UInt8} {salt : Arr 16} {nonce : Arr n}

/-- Where one container was sealed, the reader opens it, if its cost is in the reader's range,
with the secrets that give the same bytes to Argon2id, and with no others. -/
theorem descifrar_unico (hI : kdf.Inyectiva) (hd : data.length < 2 ^ 63)
    (ha : kdf.acepta params = true)
    (hideal : aead.Ideal [modo.selloDe kdf aead data passphrase huella params pepper salt nonce]) :
    modo.descifrar kdf aead (serialize (cabeceraDe huella params salt nonce) (modo.selloDe kdf
        aead data passphrase huella params pepper salt nonce).ciphertext) passphrase' huella
        pepper' =
      if params.isSaneUpTo modo.maxIterations = true ∧
          utf8 (normalizar kdf passphrase') ++ pepper' = utf8 (normalizar kdf passphrase) ++ pepper
      then .ok data else fallar modo.decrypt := by
  have hparams : (cabeceraDe huella params salt nonce).params = params := rfl
  have hhuella : ¬(cabeceraDe huella params salt nonce).codebookHashPrefix ≠ huella :=
    not_not.mpr rfl
  have hmem : ∀ p, ⟨kdf.expandKey (kdf.argon2id (utf8 (normalizar kdf passphrase') ++ pepper')
      salt.toList params) modo.info, nonce, (cabeceraDe huella params salt nonce).toBytes, p,
      (modo.selloDe kdf aead data passphrase huella params pepper salt nonce).ciphertext⟩ ∈
        [modo.selloDe kdf aead data passphrase huella params pepper salt nonce] ↔
      utf8 (normalizar kdf passphrase') ++ pepper' = utf8 (normalizar kdf passphrase) ++ pepper ∧
        p = Prelayers.pad data := by
    intro p
    rw [List.mem_singleton, selloDe, Sello.mk.injEq]
    constructor
    · rintro ⟨hk, -, -, hp, -⟩
      exact ⟨(hI.argon2id (hI.expandKey hk).1).1, hp⟩
    · rintro ⟨hk, rfl⟩
      rw [hk]
      exact ⟨rfl, rfl, rfl, rfl, rfl⟩
  have habre := hideal.abre_eq_ite hmem
  have hunpad := Prelayers.unpad_pad_append hd []
  rw [List.append_nil] at hunpad
  rw [descifrar, parse_serialize rfl rfl, Res.mapErr_ok, Res.ok_bind]
  simp only [hparams]
  rw [rechazarSi_of_not _ hhuella, Res.ok_bind]
  by_cases hs : params.isSaneUpTo modo.maxIterations = true
  · rw [rechazarSi_of_not _ (by simp [hs]), Res.ok_bind, deriveMasterKey_ok ha, Res.ok_bind]
    simp only [Cipher.decrypt, deriveSubkey, hs, true_and]
    have hnonce : (cabeceraDe huella params salt nonce).nonce = nonce := rfl
    have hsalt : (cabeceraDe huella params salt nonce).salt = salt := rfl
    rw [hnonce, hsalt, habre]
    by_cases hk : utf8 (normalizar kdf passphrase') ++ pepper' =
        utf8 (normalizar kdf passphrase) ++ pepper
    · simp only [if_pos hk, hunpad]
      rfl
    · simp only [if_neg hk]
  · rw [rechazarSi_of _ (by simpa using hs), Res.error_bind, if_neg fun h => hs h.1]
    rfl

end Quipu.Modo

namespace Quipu.Voprf.Suite

variable {q : ℕ} {G : Type} [AddCommGroup G] [Module (ZMod q) G] [Fact q.Prime] {S : Suite q G}

/-- What `Finalize` hashes. -/
def entradaFinal (S : Suite q G) (input : List UInt8) (unblinded : G) : List UInt8 :=
  i2osp2 input.length ++ input ++ i2osp2 32 ++ (S.compress unblinded).toList ++ utf8 "Finalize"

omit [Fact q.Prime] in
theorem salida_eq (input : List UInt8) (u : G) :
    S.salida input u = S.sha512 (S.entradaFinal input u) := rfl

omit [Fact q.Prime] in
/-- The length field holds 16 bits, but the length of the whole tells the input apart. -/
theorem entradaFinal_inj {input input' : List UInt8} {u u' : G}
    (h : S.entradaFinal input u = S.entradaFinal input' u') : input = input' ∧ u = u' := by
  unfold entradaFinal at h
  obtain ⟨h, -⟩ := List.append_inj' h rfl
  obtain ⟨h, hu⟩ := List.append_inj' h (by simp)
  obtain ⟨h, -⟩ := List.append_inj' h rfl
  exact ⟨(List.append_inj h (by simp [i2osp2])).2, S.compress_inj (Arr.ext hu)⟩

end Quipu.Voprf.Suite

namespace Quipu.Api

open Aleatorio Voprf OprfNet

inductive OnlineError where
  | network
  | denied
  | verification
  | decode (e : DecodeError)
  deriving DecidableEq, Repr

variable {M K : Type} {q : ℕ} {G : Type} [AddCommGroup G] [Module (ZMod q) G] [Fact q.Prime]
  [DecidableEq G]

/-- The draws of the protocol, which asks `getrandom` itself. -/
def deCinta {ε α : Type} (p : Prog Cinta Empty α) : Prog (Mundo 24 K) ε α :=
  Prog.enfocar Mundo.cinta (fun m cinta => { m with cinta := cinta }) p

def harden (S : Suite q G) (passphrase : String) (server : Red) (serverPub : Arr 32) :
    Prog (Mundo 24 K) OnlineError (Arr 64) := do
  match ← deCinta (S.blind (utf8 passphrase)) with
  | none => Prog.deRes (fallar .verification)
  | some (state, blinded) =>
    match ← Prog.deRes (Res.mapErr (fun _ => .network) (evaluateRemoteVerified server blinded)) with
    | none => Prog.deRes (fallar .denied)
    | some (z, proof) =>
      match S.finalize (utf8 passphrase) state z proof serverPub with
      | none => Prog.deRes (fallar .verification)
      | some hardened => pure hardened

def encodeOnline (kdf : Kdf M K) (aead : Aead 24 K) (sha256 : List UInt8 → Arr 32) (S : Suite q G)
    (data : List UInt8) (passphrase : String) (server : Red) (serverPub : Arr 32)
    (dict : Dictionary) (opts : Options) : Prog (Mundo 24 K) OnlineError String := do
  let hardened ← harden S passphrase server serverPub
  let pepper := opts.pepper ++ hardened.toList
  Prog.enfocar id (fun _ m => m)
    (encode kdf aead sha256 data passphrase dict ⟨pepper, opts.kdfParams⟩)

def decodeOnline (kdf : Kdf M K) (aead : Aead 24 K) (sha256 : List UInt8 → Arr 32) (S : Suite q G)
    (symbols : String) (passphrase : String) (server : Red) (serverPub : Arr 32)
    (dict : Dictionary) (basePepper : List UInt8) :
    Prog (Mundo 24 K) OnlineError (List UInt8) := do
  let hardened ← harden S passphrase server serverPub
  let pepper := basePepper ++ hardened.toList
  Prog.deRes (Res.mapErr .decode (decode kdf aead sha256 symbols passphrase dict pepper))

section Harden

variable {S : Suite q G} {passphrase : String} {red : Red} {key : ZMod q} {allowed : Bool}

theorem blind_of_ne_zero (hP : S.hashToGroup (utf8 passphrase) ≠ 0) {cinta cinta' : Cinta}
    {r : ZMod q} (hr : S.randomScalar cinta = .ok r cinta') :
    S.blind (utf8 passphrase) cinta = .ok (some (⟨r, r • S.hashToGroup (utf8 passphrase)⟩,
      S.compress (r • S.hashToGroup (utf8 passphrase)))) cinta' :=
  S.blind_eq_ok.mpr ⟨hP, r, hr, Suite.blindWith_eq_some hP r⟩

theorem blindEvaluate_zero (key t : ZMod q) :
    S.blindEvaluateWithRandomness key (S.compress 0) t = none := by
  rw [Suite.blindEvaluateWithRandomness, S.decompress_compress]
  exact if_pos rfl

/-- What a server that answers with `key` makes of the message for a blind. -/
theorem evaluacion_compress {b : G} {result : Option (Arr 32 × Arr proofLen)}
    (h : Evaluacion S key allowed (S.compress b) result) :
    (allowed = true ∧ b ≠ 0 ∧
        ∃ t, result = some (S.compress (key • b), S.generateProof key b (key • b) t)) ∨
      ¬(allowed = true ∧ b ≠ 0) ∧ result = none := by
  unfold Evaluacion at h
  cases allowed with
  | false => exact .inr ⟨fun h => Bool.false_ne_true h.1, h⟩
  | true =>
    obtain ⟨t, rfl⟩ := h
    by_cases hb : b = 0
    · subst b
      exact .inr ⟨fun h => h.2 rfl, blindEvaluate_zero key t⟩
    · exact .inl ⟨rfl, hb, t, Suite.blindEvaluate_compress hb key t⟩

/-- Against a server that answers with the announced key: its own output for every blind but
zero, and `Denied` when the server denies or the blind is zero. -/
theorem harden_sirve (hP : S.hashToGroup (utf8 passphrase) ≠ 0) (hkey : key ≠ 0)
    (h : red.Sirve S key allowed) {m : Mundo 24 K} {cinta : Cinta} {r : ZMod q}
    (hr : S.randomScalar m.cinta = .ok r cinta) :
    harden S passphrase red (S.publicKey key) m =
      if allowed = true ∧ r ≠ 0 then
        .ok (S.salida (utf8 passphrase) (key • S.hashToGroup (utf8 passphrase)))
          { m with cinta := cinta }
      else .error (.error .denied) { m with cinta := cinta } := by
  have hblind : (deCinta (S.blind (utf8 passphrase)) : Prog (Mundo 24 K) OnlineError _) m = _ :=
    Prog.enfocar_eq_ok.mpr ⟨cinta, blind_of_ne_zero hP hr, rfl⟩
  obtain ⟨result, hred, hev⟩ :=
    evaluateRemoteVerified_sirve h (S.compress (r • S.hashToGroup (utf8 passphrase)))
  rw [harden, Prog.bind_of_ok hblind]
  simp only [hred, Res.mapErr_ok]
  rw [Prog.deRes_bind_of_ok rfl]
  rcases evaluacion_compress hev with ⟨hallowed, hb, t, rfl⟩ | ⟨hno, rfl⟩
  · have hr₀ : r ≠ 0 := fun hr₀ => hb (by rw [hr₀, zero_smul])
    rw [if_pos ⟨hallowed, hr₀⟩]
    simp only [Suite.finalize_cegado hr₀ rfl hP hkey t]
    rfl
  · rw [if_neg fun h => hno ⟨h.1, smul_ne_zero h.2 hP⟩]
    rfl

/-- What a client that finished against that server knows. -/
theorem harden_ok (h : red.Sirve S key allowed) {m m' : Mundo 24 K} {hardened : Arr 64}
    (hok : harden S passphrase red (S.publicKey key) m = .ok hardened m') :
    S.hashToGroup (utf8 passphrase) ≠ 0 ∧ key ≠ 0 ∧
      hardened = S.salida (utf8 passphrase) (key • S.hashToGroup (utf8 passphrase)) ∧
      ∃ cinta, m' = { m with cinta := cinta } := by
  have hdone := hok
  unfold harden at hok
  obtain ⟨par, m₁, hblind, hok⟩ := Prog.bind_ok.mp hok
  obtain ⟨cinta, hcinta, rfl⟩ := Prog.enfocar_eq_ok.mp hblind
  cases par with
  | none => cases hok
  | some par =>
    obtain ⟨state, blinded⟩ := par
    obtain ⟨hP, r, hr, -⟩ := S.blind_eq_ok.mp hcinta
    obtain ⟨resp, m₂, hresp, hok⟩ := Prog.bind_ok.mp hok
    obtain ⟨-, rfl⟩ := Prog.deRes_eq_ok.mp hresp
    have hkey : key ≠ 0 := by
      rintro rfl
      cases resp with
      | none => cases hok
      | some zp =>
        have hfin : S.finalize (utf8 passphrase) state zp.1 zp.2 (S.publicKey 0) = none := by
          refine Option.eq_none_iff_forall_ne_some.mpr fun out hout => ?_
          obtain ⟨pk, -, hpk, -, -, hpk₀, -⟩ := Suite.finalize_eq_some.mp hout
          rw [Suite.publicKey, zero_smul, S.decompress_compress] at hpk
          exact hpk₀ (Option.some.inj hpk).symm
        simp only [hfin] at hok
        cases hok
    rw [harden_sirve hP hkey h hr] at hdone
    split at hdone
    next =>
      cases hdone
      exact ⟨hP, hkey, rfl, cinta, rfl⟩
    next => cases hdone

end Harden

variable {kdf : Kdf M K} {aead : Aead 24 K} {sha256 : List UInt8 → Arr 32}
  {data : List UInt8} {passphrase passphrase' : String} {dict : Dictionary} {opts : Options}
  {params : KdfParams} {pepper pepper' : List UInt8} {m m' : Mundo 24 K} {text : String}

/-- The blob behind a text that was written. -/
theorem encode_blob (h : encode kdf aead sha256 data passphrase dict opts m = .ok text m') :
    ∃ blob salt nonce m₁, blobDe dict text = .ok blob ∧ m₁.sellos = m.sellos ∧
      (modo.cifrar kdf aead data passphrase (dict.fingerprint sha256) opts.kdfParams opts.pepper
        salt nonce : Prog (Mundo 24 K) Empty (List UInt8)) m₁ = .ok blob m' := by
  obtain ⟨blob, hb, indices, hi, ht⟩ := encode_eq_ok.mp h
  obtain ⟨indices', text', hi', ht', hback⟩ := exists_text dict blob
  obtain rfl : indices = indices' := Except.ok.inj (hi.symm.trans hi')
  obtain rfl : text = text' := Except.ok.inj (ht.symm.trans ht')
  obtain ⟨salt, nonce, m₁, hs, hc⟩ := encodeToBlob_escribe kdf aead passphrase
    (dict.fingerprint sha256) opts.pepper data opts.kdfParams m blob m' hb
  exact ⟨blob, salt, nonce, m₁, hback, hs, hc⟩

/-- What `encode` wrote opens unless its cost is out of the range of the reader. -/
theorem decode_of_encode (hU : aead.Undoes) (hd : data.length < 2 ^ 63)
    (h : encode kdf aead sha256 data passphrase dict ⟨pepper, params⟩ m = .ok text m') :
    decode kdf aead sha256 text passphrase dict pepper =
      if params.isSane = true then .ok data else fallar .decrypt := by
  obtain ⟨blob, salt, nonce, m₁, hback, -, hc⟩ := encode_blob h
  obtain ⟨ha, rfl, -⟩ := Modo.cifrar_eq_ok.mp hc
  rw [decode, hback, Res.ok_bind, decodeFromBlob]
  exact Modo.descifrar_serialize hU hd ha

/-- Where one text was sealed, the reader opens it with the secrets that give the same bytes. -/
theorem decode_unico (hI : kdf.Inyectiva) (hd : data.length < 2 ^ 63) (hm : m.sellos = [])
    (h : encode kdf aead sha256 data passphrase dict ⟨pepper, params⟩ m = .ok text m')
    (hideal : aead.Ideal m'.sellos) :
    decode kdf aead sha256 text passphrase' dict pepper' =
      if params.isSane = true ∧ utf8 (normalizar kdf passphrase') ++ pepper' =
          utf8 (normalizar kdf passphrase) ++ pepper then .ok data
      else fallar .decrypt := by
  obtain ⟨blob, salt, nonce, m₁, hback, hs₁, hc⟩ := encode_blob h
  obtain ⟨ha, rfl, rfl⟩ := Modo.cifrar_eq_ok.mp hc
  rw [hs₁, hm, List.nil_append] at hideal
  rw [decode, hback, Res.ok_bind, decodeFromBlob]
  exact Modo.descifrar_unico hI hd ha hideal

section Online

variable {q : ℕ} {G : Type} [AddCommGroup G] [Module (ZMod q) G] [Fact q.Prime] [DecidableEq G]
  {S : Suite q G} {key key' : ZMod q} {red red' : Red}

/-- The pepper of a text written online. -/
def pepperOnline (S : Suite q G) (key : ZMod q) (passphrase : String) (base : List UInt8) :
    List UInt8 :=
  base ++ (S.salida (utf8 passphrase) (key • S.hashToGroup (utf8 passphrase))).toList

theorem encodeOnline_ok {allowed : Bool} (h : red.Sirve S key allowed)
    (hok : encodeOnline kdf aead sha256 S data passphrase red (S.publicKey key) dict opts m =
      .ok text m') :
    S.hashToGroup (utf8 passphrase) ≠ 0 ∧ key ≠ 0 ∧ ∃ m₁, m₁.sellos = m.sellos ∧
      encode kdf aead sha256 data passphrase dict
        ⟨pepperOnline S key passphrase opts.pepper, opts.kdfParams⟩ m₁ = .ok text m' := by
  obtain ⟨hardened, m₁, hh, he⟩ := Prog.bind_ok.mp hok
  obtain ⟨hP, hkey, rfl, cinta, rfl⟩ := harden_ok h hh
  obtain ⟨t, he, rfl⟩ := Prog.enfocar_eq_ok.mp he
  exact ⟨hP, hkey, { m with cinta := cinta }, rfl, he⟩

theorem decodeOnline_sirve {symbols : String} {base : List UInt8}
    (hP : S.hashToGroup (utf8 passphrase) ≠ 0) (hkey : key ≠ 0) (h : red.Sirve S key true)
    {cinta : Cinta} {r : ZMod q} (hr : S.randomScalar m.cinta = .ok r cinta) (hr₀ : r ≠ 0) :
    decodeOnline kdf aead sha256 S symbols passphrase red (S.publicKey key) dict base m =
      Prog.deRes (Res.mapErr .decode (decode kdf aead sha256 symbols passphrase dict
        (pepperOnline S key passphrase base))) { m with cinta := cinta } := by
  have hh := harden_sirve hP hkey h hr
  rw [if_pos ⟨rfl, hr₀⟩] at hh
  rw [decodeOnline, Prog.bind_of_ok hh]
  rfl

/-- The 64 bytes of the server end the secret, so that nothing can slide into them. -/
theorem secreto_online {p p' base base' : List UInt8} {h h' : Arr 64} :
    p' ++ (base' ++ h'.toList) = p ++ (base ++ h.toList) ↔ h' = h ∧ p' ++ base' = p ++ base := by
  rw [← List.append_assoc, ← List.append_assoc]
  constructor
  · intro heq
    obtain ⟨hp, hh⟩ := List.append_inj' heq (by rw [h'.toList_length, h.toList_length])
    exact ⟨Arr.ext hh, hp⟩
  · rintro ⟨rfl, hp⟩
    rw [hp]

/-- The tape that gives the blind 1 and is serene after it. -/
def cintaDeUno : Cinta :=
  Stream'.cons (.entrega fun i => UInt8.ofNat (i + 1)) (Stream'.const (.entrega UInt8.ofNat))

theorem randomScalar_deUno :
    Suite.deTres.randomScalar cintaDeUno = .ok 1 (Stream'.const (.entrega UInt8.ofNat)) := rfl

/-- A writer whose random source is serene writes, and leaves the source so. -/
theorem exists_encode_de (ha : kdf.acepta params = true) (aead : Aead 24 K)
    (sha256 : List UInt8 → Arr 32) (data : List UInt8) (passphrase : String) (dict : Dictionary)
    (pepper : List UInt8) {m : Mundo 24 K} (hm : m.cinta = (Mundo.sereno : Mundo 24 K).cinta) :
    ∃ text m', encode kdf aead sha256 data passphrase dict ⟨pepper, params⟩ m = .ok text m' ∧
      m'.cinta = (Mundo.sereno : Mundo 24 K).cinta := by
  obtain ⟨blob, m', hb, hm'⟩ : ∃ blob m', Api.encodeToBlob kdf aead data passphrase
      (dict.fingerprint sha256) ⟨pepper, params⟩ m = .ok blob m' ∧ m'.cinta = m.cinta :=
    ⟨_, _, Prog.bind_ok.mpr ⟨_, _, pedirRng_de_sereno hm 16, Prog.bind_ok.mpr ⟨_, _,
      pedirRng_de_sereno hm 24, Modo.cifrar_eq_ok.mpr ⟨ha, rfl, rfl⟩⟩⟩, rfl⟩
  obtain ⟨indices, text, hi, ht, _⟩ := exists_text dict blob
  exact ⟨text, m', encode_eq_ok.mpr ⟨blob, hb, indices, hi, ht⟩, hm'.trans hm⟩

theorem exists_encode (ha : kdf.acepta params = true) (aead : Aead 24 K)
    (sha256 : List UInt8 → Arr 32) (data : List UInt8) (passphrase : String) (dict : Dictionary)
    (pepper : List UInt8) :
    ∃ text m', encode kdf aead sha256 data passphrase dict ⟨pepper, params⟩ .sereno =
      .ok text m' := by
  obtain ⟨text, m', h, _⟩ := exists_encode_de ha aead sha256 data passphrase dict pepper rfl
  exact ⟨text, m', h⟩

theorem exists_encodeOnline (aead : Aead 24 ClaveLibre) (data : List UInt8) :
    ∃ text m', encodeOnline (Kdf.libre id) aead (fun _ => List.Vector.replicate 32 0) Suite.deTres
      data "a" (.directa Suite.deTres 2 true cintaDeUno) (Suite.deTres.publicKey 2)
      alfabetoAB ⟨[], ⟨64, 1, 1⟩⟩ ⟨cintaDeUno, [], []⟩ = .ok text m' := by
  have hkey : (2 : ZMod 3) ≠ 0 := by decide
  have hP : Suite.deTres.hashToGroup (utf8 "a") ≠ 0 := one_ne_zero
  have hh := harden_sirve (m := ⟨cintaDeUno, [], []⟩) (K := ClaveLibre) hP hkey
    (Red.sirve_directa randomScalar_deUno 2 true) randomScalar_deUno
  rw [if_pos ⟨rfl, one_ne_zero⟩] at hh
  obtain ⟨text, m', he⟩ := exists_encode
    (show (Kdf.libre id).acepta ⟨64, 1, 1⟩ = true by decide) aead
    (fun _ => List.Vector.replicate 32 0) data "a" alfabetoAB (pepperOnline Suite.deTres 2 "a" [])
  refine ⟨text, m', ?_⟩
  rw [encodeOnline, Prog.bind_of_ok hh]
  exact Prog.enfocar_eq_ok.mpr ⟨m', he, rfl⟩

/-- A text written online opens online, whatever the blinds, the proofs and the schedules of the
two exchanges were, if its cost is in the range of the reader; for the writer and for the reader a
server that denies, or a blind that is zero, gives `Denied` and no text. -/
theorem decodeOnline_encodeOnline (kdf : Kdf M K) (aead : Aead 24 K)
    (sha256 : List UInt8 → Arr 32) (hU : aead.Undoes) (S : Suite q G) (data : Slice)
    (passphrase : String) (dict : Dictionary) (opts : Options) (key : ZMod q) (red red' : Red)
    (allowed allowed' : Bool) (h : red.Sirve S key allowed) (h' : red'.Sirve S key allowed')
    (m : Mundo 24 K) :
    (S.hashToGroup (utf8 passphrase) ≠ 0 → key ≠ 0 → ∀ (cinta : Cinta) (r : ZMod q),
      S.randomScalar m.cinta = .ok r cinta → ¬(allowed = true ∧ r ≠ 0) →
      encodeOnline kdf aead sha256 S data passphrase red (S.publicKey key) dict opts m =
        .error (.error .denied) { m with cinta := cinta }) ∧
    ∀ (text : String) (m' : Mundo 24 K),
      encodeOnline kdf aead sha256 S data passphrase red (S.publicKey key) dict opts m =
        .ok text m' →
      ∀ (m₂ : Mundo 24 K) (cinta : Cinta) (r : ZMod q), S.randomScalar m₂.cinta = .ok r cinta →
        decodeOnline kdf aead sha256 S text passphrase red' (S.publicKey key) dict opts.pepper m₂ =
          if allowed' = true ∧ r ≠ 0 then
            if opts.kdfParams.isSane = true then .ok data { m₂ with cinta := cinta }
            else .error (.error (.decode .decrypt)) { m₂ with cinta := cinta }
          else .error (.error .denied) { m₂ with cinta := cinta } := by
  refine ⟨fun hP hkey cinta r hr hno => ?_, fun text m' hok m₂ cinta r hr => ?_⟩
  · have hh := harden_sirve hP hkey h hr
    rw [if_neg hno] at hh
    rw [encodeOnline, Prog.bind_of_error hh]
  · obtain ⟨hP, hkey, m₁, -, he⟩ := encodeOnline_ok h hok
    by_cases hsi : allowed' = true ∧ r ≠ 0
    · obtain ⟨rfl, hr₀⟩ := hsi
      rw [if_pos ⟨rfl, hr₀⟩, decodeOnline_sirve hP hkey h' hr hr₀, decode_of_encode hU data.2 he]
      split
      next => rfl
      next => rfl
    · have hh := harden_sirve hP hkey h' hr
      rw [if_neg hsi] at hh
      rw [if_neg hsi, decodeOnline, Prog.bind_of_error hh]

/-- A server that denies stops the writer; one that answers both times gives the data back. -/
theorem decodeOnline_encodeOnline_tres :
    (∃ m', encodeOnline (Kdf.libre id) Aead.deMarca (fun _ => List.Vector.replicate 32 0)
        Suite.deTres [0, 7] "a" (.directa Suite.deTres 2 false cintaDeUno)
        (Suite.deTres.publicKey 2) alfabetoAB ⟨[], ⟨64, 1, 1⟩⟩
        (⟨cintaDeUno, [], []⟩ : Mundo 24 ClaveLibre) = .error (.error .denied) m') ∧
    ∃ text m' m₂, encodeOnline (Kdf.libre id) Aead.deMarca (fun _ => List.Vector.replicate 32 0)
        Suite.deTres [0, 7] "a" (.directa Suite.deTres 2 true cintaDeUno)
        (Suite.deTres.publicKey 2) alfabetoAB ⟨[], ⟨64, 1, 1⟩⟩
        (⟨cintaDeUno, [], []⟩ : Mundo 24 ClaveLibre) = .ok text m' ∧
      decodeOnline (Kdf.libre id) (Aead.deMarca : Aead 24 ClaveLibre)
        (fun _ => List.Vector.replicate 32 0) Suite.deTres text "a"
        (.directa Suite.deTres 2 true cintaDeUno) (Suite.deTres.publicKey 2) alfabetoAB []
        ⟨cintaDeUno, [], []⟩ = .ok [0, 7] m₂ := by
  obtain ⟨text, m', hok⟩ := exists_encodeOnline (Aead.deMarca : Aead 24 ClaveLibre) [0, 7]
  have hsirve := fun allowed => Red.sirve_directa randomScalar_deUno 2 allowed
  have hley := fun allowed => decodeOnline_encodeOnline (Kdf.libre id)
    (Aead.deMarca : Aead 24 ClaveLibre) (fun _ => List.Vector.replicate 32 0) Aead.deMarca_undoes
    Suite.deTres ⟨[0, 7], by decide⟩ "a" alfabetoAB ⟨[], ⟨64, 1, 1⟩⟩ 2 _ _ allowed allowed
    (hsirve allowed) (hsirve allowed) ⟨cintaDeUno, [], []⟩
  refine ⟨⟨_, (hley false).1 one_ne_zero (by decide) _ 1 randomScalar_deUno fun h => ?_⟩, ?_⟩
  · cases h.1
  · have h := (hley true).2 text m' hok ⟨cintaDeUno, [], []⟩ _ 1 randomScalar_deUno
    rw [if_pos ⟨rfl, one_ne_zero⟩, if_pos (by decide)] at h
    exact ⟨text, m', _, hok, h⟩

/-- Where its cost is in the range of the reader, a text opens offline for every passphrase and
pepper that give the same bytes one after the other, and online for the passphrase that wrote it
and no other spelling of it, with the same pepper and the same key of the server, unless the two
hashes collide; elsewhere nothing opens it. -/
theorem decodeOnline_exacto (kdf : Kdf M K) (hI : kdf.Inyectiva) (aead : Aead 24 K)
    (sha256 : List UInt8 → Arr 32) (data : Slice) (passphrase passphrase' : String)
    (dict : Dictionary) (opts : Options) (pepper' : List UInt8) (m m' : Mundo 24 K)
    (hm : m.sellos = []) (text : String) (hideal : aead.Ideal m'.sellos) :
    (encode kdf aead sha256 data passphrase dict opts m = .ok text m' →
      (decode kdf aead sha256 text passphrase' dict pepper' = .ok data ↔
        opts.kdfParams.isSane = true ∧ utf8 (normalizar kdf passphrase') ++ pepper' =
          utf8 (normalizar kdf passphrase) ++ opts.pepper)) ∧
      ∀ (S : Suite q G) (key key' : ZMod q) (red red' : Red), red.Sirve S key true →
        red'.Sirve S key' true → key' ≠ 0 → S.hashToGroup (utf8 passphrase') ≠ 0 →
        (S.sha512 (S.entradaFinal (utf8 passphrase') (key' • S.hashToGroup (utf8 passphrase'))) =
            S.sha512 (S.entradaFinal (utf8 passphrase) (key • S.hashToGroup (utf8 passphrase))) →
          S.entradaFinal (utf8 passphrase') (key' • S.hashToGroup (utf8 passphrase')) =
            S.entradaFinal (utf8 passphrase) (key • S.hashToGroup (utf8 passphrase))) →
        encodeOnline kdf aead sha256 S data passphrase red (S.publicKey key) dict opts m =
          .ok text m' →
        ∀ (m₂ : Mundo 24 K) (cinta : Cinta) (r : ZMod q),
          S.randomScalar m₂.cinta = .ok r cinta → r ≠ 0 →
          decodeOnline kdf aead sha256 S text passphrase' red' (S.publicKey key') dict pepper' m₂ =
            if opts.kdfParams.isSane = true ∧ passphrase' = passphrase ∧ key' = key ∧
                pepper' = opts.pepper then
              .ok data { m₂ with cinta := cinta }
            else .error (.error (.decode .decrypt)) { m₂ with cinta := cinta } := by
  refine ⟨fun hok => ?_, ?_⟩
  · rw [decode_unico hI data.2 hm hok hideal]
    split
    next h => exact iff_of_true rfl h
    next h => exact iff_of_false (fun h => nomatch h) h
  · intro S key key' red red' h h' hkey' hP' hcol hok m₂ cinta r hr hr₀
    obtain ⟨hP, hkey, m₁, hm₁, he⟩ := encodeOnline_ok h hok
    rw [decodeOnline_sirve hP' hkey' h' hr hr₀,
      decode_unico hI data.2 (hm₁.trans hm) he hideal]
    have hiff : utf8 (normalizar kdf passphrase') ++ pepperOnline S key' passphrase' pepper' =
        utf8 (normalizar kdf passphrase) ++ pepperOnline S key passphrase opts.pepper ↔
        passphrase' = passphrase ∧ key' = key ∧ pepper' = opts.pepper := by
      unfold pepperOnline
      rw [secreto_online, Suite.salida_eq, Suite.salida_eq]
      constructor
      · rintro ⟨hsal, hp⟩
        obtain ⟨hpass, hX⟩ := Suite.entradaFinal_inj (hcol hsal)
        obtain rfl := utf8_inj hpass
        exact ⟨rfl, smul_left_injective _ hP hX, List.append_cancel_left hp⟩
      · rintro ⟨rfl, rfl, rfl⟩
        exact ⟨rfl, rfl⟩
    simp only [hiff]
    split
    next => rfl
    next => rfl

theorem decodeOnline_exacto_tres :
    ∃ (aead : Aead 24 ClaveLibre) (text : String) (m' m₂ : Mundo 24 ClaveLibre),
      encodeOnline (Kdf.libre id) aead (fun _ => List.Vector.replicate 32 0) Suite.deTres [0, 7] "a"
          (.directa Suite.deTres 2 true cintaDeUno) (Suite.deTres.publicKey 2) alfabetoAB
          ⟨[], ⟨64, 1, 1⟩⟩ ⟨cintaDeUno, [], []⟩ = .ok text m' ∧
        decodeOnline (Kdf.libre id) aead (fun _ => List.Vector.replicate 32 0) Suite.deTres text "b"
          (.directa Suite.deTres 2 true cintaDeUno) (Suite.deTres.publicKey 2) alfabetoAB []
          ⟨cintaDeUno, [], []⟩ = .error (.error (.decode .decrypt)) m₂ := by
  obtain ⟨text, m', hok⟩ := exists_encodeOnline (Aead.deRegistro marcar []) [0, 7]
  have hred := Red.sirve_directa randomScalar_deUno 2 true
  have hsello : ∃ s, m'.sellos = [s] := by
    obtain ⟨-, -, m₁, hm₁, he⟩ := encodeOnline_ok hred hok
    obtain ⟨blob, salt, nonce, m₀, -, hs₀, hc⟩ := encode_blob he
    exact ⟨_, by rw [(Modo.cifrar_eq_ok.mp hc).2.2, hs₀, hm₁]; rfl⟩
  obtain ⟨s, hs⟩ := hsello
  have h := decodeOnline_exacto (q := 3) (G := ZMod 3) (Kdf.libre id) (Kdf.libre_inyectiva id)
    (Aead.deRegistro marcar m'.sellos) (fun _ => List.Vector.replicate 32 0) ⟨[0, 7], by decide⟩
    "a" "b" alfabetoAB ⟨[], ⟨64, 1, 1⟩⟩ [] ⟨cintaDeUno, [], []⟩ m' rfl text
    (Aead.deRegistro_ideal marcar (by rw [hs]; simp))
  have hno := h.2 Suite.deTres 2 2 _ _ hred hred (by decide) one_ne_zero (by decide +kernel) hok
    ⟨cintaDeUno, [], []⟩ _ 1 randomScalar_deUno one_ne_zero
  rw [if_neg (fun h => absurd h.2.1 (by decide))] at hno
  exact ⟨.deRegistro marcar m'.sellos, text, m', _, hok, hno⟩

end Online

end Quipu.Api
