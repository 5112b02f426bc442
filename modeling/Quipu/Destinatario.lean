import Quipu.Kem
import Quipu.TextRoundTrip

namespace Quipu.Api

open Aleatorio

variable {D K : Type} (dh : Dh) (canal : Canal D K) (aead : Aead 24 K)

def cabeceraHibrida (nonce : Arr 24) (encapsulation : List UInt8) : List UInt8 :=
  hybridMagic ++ [hybridVersion, 0] ++ nonce.toList ++ encapsulation

def encodeToRecipientBlob (data : List UInt8) (recipient : Pqhybrid.PublicKey) :
    Prog (Mundo 24 K) SinEntropia (List UInt8) := do
  let e ← Pqhybrid.encapsulate dh canal recipient
  let nonce ← pedir .error 24
  let header := cabeceraHibrida nonce e.2
  let padded := Prelayers.pad data
  let ciphertext ← sellar aead e.1 nonce padded header
  pure (header ++ ciphertext)

/-- The text of a blob in the alphabet. -/
def textoDe {ε : Type} (dict : Dictionary) (blob : List UInt8) : Res ε String := do
  let indices ← Codec.encodeBaseN blob dict.base
  match dict.encode indices with
  | .ok text => .ok text
  | .error _ => panico "los índices del codec están en [0, base)"

def encodeToRecipient (data : List UInt8) (recipient : Pqhybrid.PublicKey) (dict : Dictionary) :
    Prog (Mundo 24 K) SinEntropia String := do
  let blob ← encodeToRecipientBlob dh canal aead data recipient
  Prog.deRes (textoDe dict blob)

/-- The draws of the writer: the seed of its generator and the nonce. -/
def sortearPara : Prog (Mundo 24 K) SinEntropia (Arr 32 × Arr 24) := do
  let semilla ← pedir .error 32
  let nonce ← pedir .error 24
  pure (semilla, nonce)

def selloPara (data : List UInt8) (recipient : Pqhybrid.PublicKey) (semilla : Arr 32)
    (nonce : Arr 24) : Sello 24 K :=
  let e := Pqhybrid.encapsulateDe dh canal recipient semilla
  let header := cabeceraHibrida nonce e.2
  ⟨e.1, nonce, header, Prelayers.pad data, aead.sella e.1 nonce (Prelayers.pad data) header⟩

variable {dh : Dh} {canal : Canal D K} {aead : Aead 24 K} {data : List UInt8}
  {recipient : Pqhybrid.PublicKey} {dict : Dictionary}

theorem textoDe_ok {ε : Type} (dict : Dictionary) (blob : List UInt8) :
    ∃ text, (textoDe dict blob : Res ε String) = .ok text ∧ blobDe dict text = .ok blob := by
  obtain ⟨indices, text, hi, ht, hback⟩ := exists_text (ε := ε) dict blob
  refine ⟨text, ?_, hback⟩
  rw [textoDe, hi, Res.ok_bind, ht]

theorem blobDe_of_textoDe {ε : Type} {blob : List UInt8} {text : String}
    (h : (textoDe dict blob : Res ε String) = .ok text) : blobDe dict text = .ok blob := by
  obtain ⟨text', ht, hback⟩ := textoDe_ok (ε := ε) dict blob
  obtain rfl : text = text' := Except.ok.inj (h.symm.trans ht)
  exact hback

/-- The writer draws a seed and a nonce and seals once, or returns the error of a draw. -/
theorem encodeToRecipientBlob_cases (dh : Dh) (canal : Canal D K) (aead : Aead 24 K)
    (data : List UInt8) (recipient : Pqhybrid.PublicKey) (m : Mundo 24 K) :
    (∃ semilla nonce m₁ m', sortearPara m = .ok (semilla, nonce) m₁ ∧
        encodeToRecipientBlob dh canal aead data recipient m =
          .ok ((selloPara dh canal aead data recipient semilla nonce).aad ++
            (selloPara dh canal aead data recipient semilla nonce).ciphertext) m' ∧
        m'.sellos = m.sellos ++ [selloPara dh canal aead data recipient semilla nonce]) ∨
      ∃ e m', sortearPara m = .error (.error e) m' ∧
        encodeToRecipientBlob dh canal aead data recipient m = .error (.error e) m' := by
  unfold encodeToRecipientBlob sortearPara
  rcases pedir_cases 32 m with ⟨semilla, m₁, h₁, hs₁⟩ | ⟨e, m₁, h₁⟩
  · rw [Prog.bind_of_ok h₁, Prog.bind_of_ok (Pqhybrid.encapsulate_of_ok h₁)]
    rcases pedir_cases 24 m₁ with ⟨nonce, m₂, h₂, hs₂⟩ | ⟨e, m₂, h₂⟩
    · rw [Prog.bind_of_ok h₂, Prog.bind_of_ok h₂]
      exact .inl ⟨semilla, nonce, m₂, _, rfl, rfl, congrArg (· ++ _) (hs₂.trans hs₁)⟩
    · rw [Prog.bind_of_error h₂, Prog.bind_of_error h₂]
      exact .inr ⟨e, m₂, rfl, rfl⟩
  · rw [Prog.bind_of_error h₁, Prog.bind_of_error (Pqhybrid.encapsulate_of_error h₁)]
    exact .inr ⟨e, m₁, rfl, rfl⟩

theorem length_prefijo (nonce : Arr 24) :
    (hybridMagic ++ [hybridVersion, 0] ++ nonce.toList).length = hybridPrefix := by
  simp [hybridMagic, hybridPrefix]

theorem drop_cabecera (nonce : Arr 24) (encapsulation : List UInt8) :
    (cabeceraHibrida nonce encapsulation).drop hybridPrefix = encapsulation :=
  List.drop_left' (length_prefijo nonce)

/-- The encapsulation and the nonce lie in the header where the reader looks for them. -/
theorem abrirHibrido_cabecera {decapsulate : List UInt8 → Option K} {nonce : Arr 24}
    {encapsulation ciphertext padded d : List UInt8} {k : K}
    (he : encapsulation.length = encapsulationLen) (hk : decapsulate encapsulation = some k)
    (ha : aead.abre k nonce ciphertext (cabeceraHibrida nonce encapsulation) = some padded)
    (hu : Prelayers.unpad padded = .ok d) :
    abrirHibrido aead decapsulate (cabeceraHibrida nonce encapsulation ++ ciphertext) = .ok d := by
  have hheader : (cabeceraHibrida nonce encapsulation).length =
      hybridPrefix + encapsulationLen := by
    rw [cabeceraHibrida, List.length_append, length_prefijo, he]
  refine abrirHibrido_eq_ok.mpr ⟨?_, rfl, rfl, nonce, k, padded, ?_, ?_, ?_, hu⟩
  · rw [List.length_append, hheader]
    exact Nat.le_add_right _ _
  · show nonce.toList = (nonce.toList ++ encapsulation ++ ciphertext).take 24
    rw [List.append_assoc, List.take_left' nonce.toList_length]
  · rw [List.take_left' hheader, drop_cabecera]
    exact hk
  · rw [List.take_left' hheader, List.drop_left' hheader]
    exact ha

/-- What `encodeToRecipient` writes for the pair of a secret key, its holder reads back; the
writer returns whenever the source hands over its draws, and else returns the error of the draw. -/
theorem decodeAsRecipient_encodeToRecipient (hU : aead.Undoes) {sk : Pqhybrid.SecretKey D}
    (hdh : dh.Correcto sk.x) (hkem : canal.kem.Correcto sk.ml) (data : Slice) (dict : Dictionary)
    (m : Mundo 24 K) :
    (∃ r m₁, sortearPara m = .ok r m₁ ∧
        ∃ text m', encodeToRecipient dh canal aead data (sk.publica dh canal) dict m = .ok text m' ∧
          decodeAsRecipient aead text (Pqhybrid.decapsulate dh canal sk) dict = .ok data) ∨
      ∃ e m', sortearPara m = .error (.error e) m' ∧
        encodeToRecipient dh canal aead data (sk.publica dh canal) dict m =
          .error (.error e) m' := by
  unfold encodeToRecipient
  rcases encodeToRecipientBlob_cases dh canal aead data (sk.publica dh canal) m with
    ⟨semilla, nonce, m₁, m', hsorteo, h, -⟩ | ⟨e, m', hsorteo, h⟩
  · refine .inl ⟨_, m₁, hsorteo, ?_⟩
    rw [Prog.bind_of_ok h]
    obtain ⟨text, ht, hback⟩ := textoDe_ok (ε := SinEntropia) dict
      ((selloPara dh canal aead data (sk.publica dh canal) semilla nonce).aad ++
        (selloPara dh canal aead data (sk.publica dh canal) semilla nonce).ciphertext)
    refine ⟨text, m', by rw [ht]; rfl, ?_⟩
    have hunpad := Prelayers.unpad_pad_append data.2 []
    rw [List.append_nil] at hunpad
    rw [decodeAsRecipient, hback, Res.ok_bind]
    exact abrirHibrido_cabecera (Pqhybrid.length_encapsulateDe _ _ _ semilla)
      (Pqhybrid.decapsulate_encapsulateDe hdh hkem semilla) (hU _ _ _ _) hunpad
  · rw [Prog.bind_of_error h]
    exact .inr ⟨e, m', hsorteo, rfl⟩

/-- An honest call of the writer that returned, to any recipient and in any alphabet, from a world
where nothing was sealed. -/
structure Envio (dh : Dh) (canal : Canal D K) (aead : Aead 24 K) where
  data : Slice
  recipient : Pqhybrid.PublicKey
  dict : Dictionary
  antes : Mundo 24 K
  despues : Mundo 24 K
  text : String
  sinSellos : antes.sellos = []
  bien : encodeToRecipient dh canal aead data recipient dict antes = .ok text despues

theorem Envio.hechos (r : Envio dh canal aead) :
    ∃ semilla nonce, r.despues.sellos = [selloPara dh canal aead r.data r.recipient semilla nonce] ∧
      blobDe r.dict r.text = .ok ((selloPara dh canal aead r.data r.recipient semilla nonce).aad ++
        (selloPara dh canal aead r.data r.recipient semilla nonce).ciphertext) := by
  have hbien := r.bien
  unfold encodeToRecipient at hbien
  rcases encodeToRecipientBlob_cases dh canal aead r.data r.recipient r.antes with
    ⟨semilla, nonce, m₁, m', -, h, hs⟩ | ⟨e, m', -, h⟩
  · rw [Prog.bind_of_ok h] at hbien
    obtain ⟨htext, rfl⟩ := Prog.deRes_eq_ok.mp hbien
    rw [r.sinSellos] at hs
    exact ⟨semilla, nonce, hs, blobDe_of_textoDe htext⟩
  · rw [Prog.bind_of_error h] at hbien
    cases hbien

/-- With an AEAD that opens only what was sealed, a text that a recipient opens decodes to a blob
that was written to its full public key. -/
theorem decodeAsRecipient_integro (hkdf : canal.hkdf.Inyectiva (· = none))
    {sk : Pqhybrid.SecretKey D} (runs : List (Envio dh canal aead))
    (ho : aead.OpensOnly (runs.flatMap fun r => r.despues.sellos)) {symbols : String}
    {d : List UInt8}
    (h : decodeAsRecipient aead symbols (Pqhybrid.decapsulate dh canal sk) dict = .ok d) :
    ∃ r ∈ runs, r.recipient = sk.publica dh canal ∧ d = r.data ∧
      ∃ blob, blobDe dict symbols = .ok blob ∧ blobDe r.dict r.text = .ok blob := by
  obtain ⟨blob, hblob, h⟩ := Res.bind_ok.mp h
  obtain ⟨-, -, -, nonce, k, padded, -, hk, habre, hun⟩ := abrirHibrido_eq_ok.mp h
  obtain ⟨r, hr, hmem⟩ := List.mem_flatMap.mp (ho _ _ _ _ _ habre)
  obtain ⟨semilla, nonce', hsellos, htext⟩ := r.hechos
  rw [hsellos, List.mem_singleton] at hmem
  have hkey := congrArg Sello.key hmem
  have haad := congrArg Sello.aad hmem
  have hpad : padded = Prelayers.pad r.data := congrArg Sello.plaintext hmem
  have hcipher := congrArg Sello.ciphertext hmem
  dsimp only at hkey haad hcipher
  refine ⟨r, hr, ?_, ?_, blob, hblob, ?_⟩
  · rw [haad, hkey] at hk
    exact Pqhybrid.publica_of_decapsulate hkdf (drop_cabecera nonce' _ ▸ hk)
  · have hback := Prelayers.unpad_pad_append r.data.2 []
    rw [List.append_nil, ← hpad, hun] at hback
    exact Except.ok.inj hback
  · rw [htext, ← haad, ← hcipher, List.take_append_drop]

end Quipu.Api
