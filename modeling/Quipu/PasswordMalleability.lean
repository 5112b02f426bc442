import Quipu.PasswordSereno

namespace Quipu

open Container

variable {n : Nat} {M K ε ε' : Type}

namespace Modo

variable {modo : Modo ε} {kdf : Kdf M K} {aead : Aead n K} {passphrase : String} {huella : Arr 8}
  {pepper : List UInt8}

/-- What the reader found in a blob that it opened, under the key of the secrets it was given. -/
theorem descifrar_eq_ok {b d : List UInt8}
    (h : modo.descifrar kdf aead b passphrase huella pepper = .ok d) :
    ∃ (header : Header 16 n) (ciphertext padded : List UInt8),
      parse 16 n b = .ok (header, ciphertext) ∧
        aead.abre (kdf.expandKey (kdf.argon2id (utf8 (normalizar kdf passphrase) ++ pepper)
          header.salt.toList header.params) modo.info) header.nonce ciphertext header.toBytes =
            some padded ∧
        Prelayers.unpad padded = .ok d := by
  rw [descifrar] at h
  obtain ⟨⟨header, ciphertext⟩, hp, h⟩ := Res.bind_ok.mp h
  simp only [Res.bind_ok] at h
  obtain ⟨_, _, _, _, master, hm, h⟩ := h
  obtain ⟨_, rfl⟩ := deriveMasterKey_eq_ok.mp hm
  refine ⟨header, ciphertext, ?_⟩
  split at h
  next => cases h
  next padded hdec =>
    split at h
    next => cases h
    next datos hun =>
      cases h
      exact ⟨padded, Res.mapErr_eq_ok.mp hp, Cipher.decrypt_eq_ok.mp hdec, hun⟩

/-- An honest call of a writer that returned, from a world where nothing was sealed. -/
structure Corrida (escribir : List UInt8 → KdfParams → Prog (Mundo n K) ε' (List UInt8)) where
  data : Slice
  params : KdfParams
  antes : Mundo n K
  despues : Mundo n K
  blob : List UInt8
  sinSellos : antes.sellos = []
  bien : escribir data params antes = .ok blob despues

/-- The writer draws a salt and a nonce, seals nothing on the way, and does as `cifrar`. -/
def Escribe (modo : Modo ε) (kdf : Kdf M K) (aead : Aead n K) (passphrase : String)
    (huella : Arr 8) (pepper : List UInt8)
    (escribir : List UInt8 → KdfParams → Prog (Mundo n K) ε' (List UInt8)) : Prop :=
  ∀ data params m blob m', escribir data params m = .ok blob m' →
    ∃ salt nonce m₁, m₁.sellos = m.sellos ∧
      (modo.cifrar kdf aead data passphrase huella params pepper salt nonce :
        Prog (Mundo n K) ε' (List UInt8)) m₁ = .ok blob m'

theorem Corrida.hechos {escribir : List UInt8 → KdfParams → Prog (Mundo n K) ε' (List UInt8)}
    (he : modo.Escribe kdf aead passphrase huella pepper escribir) (r : Corrida escribir) :
    ∃ salt nonce,
      r.blob = serialize (cabeceraDe huella r.params salt nonce) (modo.selloDe kdf aead r.data
        passphrase huella r.params pepper salt nonce).ciphertext ∧
      r.despues.sellos = [modo.selloDe kdf aead r.data passphrase huella r.params pepper salt
        nonce] := by
  obtain ⟨salt, nonce, m₁, hs, hc⟩ := he _ _ _ _ _ r.bien
  obtain ⟨_, hblob, hm⟩ := cifrar_eq_ok.mp hc
  refine ⟨salt, nonce, hblob, ?_⟩
  rw [hm, hs, r.sinSellos]
  rfl

/-- With an AEAD that opens only what was sealed, the reader opens only what was written. -/
theorem descifrar_integro
    {escribir : List UInt8 → KdfParams → Prog (Mundo n K) ε' (List UInt8)}
    (he : modo.Escribe kdf aead passphrase huella pepper escribir)
    (runs : List (Corrida escribir))
    (ho : aead.OpensOnly (runs.flatMap fun r => r.despues.sellos)) {b d : List UInt8}
    (h : modo.descifrar kdf aead b passphrase huella pepper = .ok d) :
    ∃ r ∈ runs, b = r.blob ∧ d = r.data := by
  obtain ⟨header, ciphertext, padded, hp, habre, hun⟩ := descifrar_eq_ok h
  obtain ⟨r, hr, hmem⟩ := List.mem_flatMap.mp (ho _ _ _ _ _ habre)
  obtain ⟨salt, nonce, hblob, hsellos⟩ := r.hechos he
  rw [hsellos, List.mem_singleton, selloDe, Sello.mk.injEq] at hmem
  obtain ⟨_, _, haad, rfl, rfl⟩ := hmem
  refine ⟨r, hr, ?_, ?_⟩
  · rw [(parse_eq_ok.mp hp).1, hblob, serialize, serialize, haad]
    rfl
  · have hback := Prelayers.unpad_pad_append r.data.2 []
    rw [List.append_nil, hun] at hback
    exact Except.ok.inj hback

end Modo

theorem Api.encodeToBlob_escribe (kdf : Kdf M K) (aead : Aead 24 K) (passphrase : String)
    (huella : Arr 8) (pepper : List UInt8) :
    Api.modo.Escribe kdf aead passphrase huella pepper fun data params =>
      Api.encodeToBlob kdf aead data passphrase huella ⟨pepper, params⟩ := by
  intro data params m blob m' h
  obtain ⟨salt, m₁, h₁, h⟩ := Prog.bind_ok.mp h
  obtain ⟨nonce, m₂, h₂, h⟩ := Prog.bind_ok.mp h
  refine ⟨salt, nonce, m₂, ?_, h⟩
  rw [(pedir_eq_ok.mp h₂).2, (pedir_eq_ok.mp h₁).2]

theorem Cnsa.encodeToBlob_escribe (kdf : Kdf M K) (aead : Aead 12 K) (passphrase : String)
    (huella : Arr 8) (pepper : List UInt8) :
    Cnsa.modo.Escribe kdf aead passphrase huella pepper fun data params =>
      Cnsa.encodeToBlob kdf aead data passphrase huella ⟨params, pepper⟩ := by
  intro data params m blob m' h
  obtain ⟨salt, m₁, h₁, h⟩ := Prog.bind_ok.mp h
  obtain ⟨nonce, m₂, h₂, h⟩ := Prog.bind_ok.mp h
  exact ⟨salt, nonce, m₂, (pedirFill_sellos h₂).trans (pedirFill_sellos h₁), h⟩

/-- A container that a reader opens is byte for byte one that was written, in both profiles. -/
theorem decodeFromBlob_integro (kdf : Kdf M K) (passphrase : String) (huella : Arr 8)
    (pepper : List UInt8) :
    (∀ (aead : Aead 24 K) (runs : List (Modo.Corrida fun data params =>
          Api.encodeToBlob kdf aead data passphrase huella ⟨pepper, params⟩)),
        aead.OpensOnly (runs.flatMap fun r => r.despues.sellos) → ∀ b d,
        Api.decodeFromBlob kdf aead b passphrase huella pepper = .ok d →
        ∃ r ∈ runs, b = r.blob ∧ d = r.data) ∧
      ∀ (aead : Aead 12 K) (runs : List (Modo.Corrida fun data params =>
          Cnsa.encodeToBlob kdf aead data passphrase huella ⟨params, pepper⟩)),
        aead.OpensOnly (runs.flatMap fun r => r.despues.sellos) → ∀ b d,
        Cnsa.decodeFromBlob kdf aead b passphrase huella pepper = .ok d →
        ∃ r ∈ runs, b = r.blob ∧ d = r.data := by
  constructor
  · intro aead runs ho b d h
    exact Modo.descifrar_integro (Api.encodeToBlob_escribe kdf aead passphrase huella pepper)
      runs ho h
  · intro aead runs ho b d h
    exact Modo.descifrar_integro (Cnsa.encodeToBlob_escribe kdf aead passphrase huella pepper)
      runs ho h

theorem decodeFromBlob_integro_uno :
    ∃ (sellos : List (Sello 24 ClaveLibre)) (sellos' : List (Sello 12 ClaveLibre))
      (r : Modo.Corrida fun data params => Api.encodeToBlob (Kdf.libre id)
        (Aead.deRegistro marcar sellos) data "a" (List.Vector.replicate 8 0) ⟨[], params⟩)
      (r' : Modo.Corrida fun data params => Cnsa.encodeToBlob (Kdf.libre id)
        (Aead.deRegistro marcar sellos') data "a" (List.Vector.replicate 8 0) ⟨params, []⟩),
      (∀ b d, Api.decodeFromBlob (Kdf.libre id) (Aead.deRegistro marcar sellos) b "a"
          (List.Vector.replicate 8 0) [] = .ok d → ∃ q ∈ [r], b = q.blob ∧ d = q.data) ∧
        ∀ b d, Cnsa.decodeFromBlob (Kdf.libre id) (Aead.deRegistro marcar sellos') b "a"
          (List.Vector.replicate 8 0) [] = .ok d → ∃ q ∈ [r'], b = q.blob ∧ d = q.data := by
  have ha : (Kdf.libre id).acepta ⟨64, 1, 1⟩ = true := by decide
  obtain ⟨salt, nonce, m, h⟩ := exists_encodeToBlob ha (Aead.deRegistro marcar []) [1, 2] "a" []
    (List.Vector.replicate 8 0)
  obtain ⟨salt', nonce', m', h'⟩ := exists_encodeToBlob_cnsa ha (Aead.deRegistro marcar []) [3] "a"
    [] (List.Vector.replicate 8 0)
  have hreg := Aead.deRegistro_opensOnly marcar m.sellos
  have hreg' := Aead.deRegistro_opensOnly marcar m'.sellos
  have hint := decodeFromBlob_integro (Kdf.libre id) "a" (List.Vector.replicate 8 0) []
  refine ⟨m.sellos, m'.sellos, ⟨⟨[1, 2], by decide⟩, ⟨64, 1, 1⟩, .sereno, m, _, rfl, h⟩,
    ⟨⟨[3], by decide⟩, ⟨64, 1, 1⟩, .sereno, m', _, rfl, h'⟩, hint.1 _ _ ?_, hint.2 _ _ ?_⟩
  · rwa [List.flatMap_singleton]
  · rwa [List.flatMap_singleton]

end Quipu
