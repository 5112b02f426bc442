import Quipu.CodecRoundTrip
import Quipu.Decoders
import Quipu.Sereno

namespace Quipu

/-- The code points of the alphabet, the entry of its fingerprint. -/
def Dictionary.bytesCanonicos (d : Dictionary) : List UInt8 :=
  d.symbols.flatMap fun c => u32Be c.val

theorem length_take_huella (h : Arr 32) : (h.toList.take 8).length = 8 := by
  rw [List.length_take, h.toList_length]
  rfl

/-- The first 8 bytes of the SHA-256 of the alphabet. -/
def Dictionary.fingerprint (sha256 : List UInt8 → Arr 32) (d : Dictionary) : Arr 8 :=
  Arr.of ((sha256 d.bytesCanonicos).toList.take 8) (length_take_huella _)

namespace Api

variable {M K : Type}

def encode (kdf : Kdf M K) (aead : Aead 24 K) (sha256 : List UInt8 → Arr 32) (data : List UInt8)
    (passphrase : String) (dict : Dictionary) (opts : Options) :
    Prog (Mundo 24 K) Empty String := do
  let blob ← encodeToBlob kdf aead data passphrase (dict.fingerprint sha256) opts
  let indices ← Prog.deRes (Codec.encodeBaseN blob dict.base)
  Prog.deRes <|
    match dict.encode indices with
    | .ok text => .ok text
    | .error _ => panico "los índices del codec están en [0, base)"

def decode (kdf : Kdf M K) (aead : Aead 24 K) (sha256 : List UInt8 → Arr 32) (symbols : String)
    (passphrase : String) (dict : Dictionary) (pepper : List UInt8) :
    Res DecodeError (List UInt8) := do
  let blob ← blobDe dict symbols
  decodeFromBlob kdf aead blob passphrase (dict.fingerprint sha256) pepper

/-- Any blob becomes a text of the alphabet, and the text that blob. -/
theorem exists_text {ε : Type} (dict : Dictionary) (blob : List UInt8) :
    ∃ indices text, (Codec.encodeBaseN blob dict.base : Res ε (List Nat)) = .ok indices ∧
      dict.encode indices = .ok text ∧ blobDe dict text = .ok blob := by
  have hle : dict.base ≤ Codec.u64Max := dict.base_le.trans (by decide)
  obtain ⟨indices, hi, hlt, hd⟩ :=
    Codec.decodeBaseN_encodeBaseN (ε := ε) dict.dos hle blob
  obtain ⟨text, ht, hback⟩ := dict.decode_indices hlt
  refine ⟨indices, text, hi, ht, ?_⟩
  rw [blobDe, hback]
  exact congrArg Except.ok hd

theorem encode_eq_ok {kdf : Kdf M K} {aead : Aead 24 K} {sha256 : List UInt8 → Arr 32}
    {data : List UInt8} {passphrase : String} {dict : Dictionary} {opts : Options}
    {m m' : Mundo 24 K} {text : String} :
    encode kdf aead sha256 data passphrase dict opts m = .ok text m' ↔
      ∃ blob, encodeToBlob kdf aead data passphrase (dict.fingerprint sha256) opts m =
        .ok blob m' ∧ ∃ indices, Codec.encodeBaseN blob dict.base = (.ok indices : Res Empty _) ∧
          dict.encode indices = .ok text := by
  simp only [encode, Prog.bind_ok, Prog.deRes_eq_ok]
  constructor
  · rintro ⟨blob, _, hb, indices, _, ⟨hi, rfl⟩, ht, rfl⟩
    refine ⟨blob, hb, indices, hi, ?_⟩
    split at ht
    next h =>
      cases ht
      exact h
    next => cases ht
  · rintro ⟨blob, hb, indices, hi, ht⟩
    exact ⟨blob, m', hb, indices, m', ⟨hi, rfl⟩, by rw [ht], rfl⟩

/-- A text decodes to the data that it was written for, and it is written whenever the random
source answers. -/
theorem decode_encode (kdf : Kdf M K) (aead : Aead 24 K) (sha256 : List UInt8 → Arr 32)
    (ha : kdf.AceptaSanos) (hU : aead.Undoes) (data : Slice) (passphrase : String)
    (dict : Dictionary) (opts : Options) (hs : opts.kdfParams.isSane = true) (m : Mundo 24 K) :
    (∀ salt m₁ nonce m₂, (pedirRng 16 : Prog (Mundo 24 K) Empty (Arr 16)) m = .ok salt m₁ →
        (pedirRng 24 : Prog (Mundo 24 K) Empty (Arr 24)) m₁ = .ok nonce m₂ →
        ∃ text m', encode kdf aead sha256 data passphrase dict opts m = .ok text m') ∧
      ∀ text m', encode kdf aead sha256 data passphrase dict opts m = .ok text m' →
        decode kdf aead sha256 text passphrase dict opts.pepper = .ok data := by
  constructor
  · intro salt m₁ nonce m₂ h₁ h₂
    have hblob : ∃ blob m', encodeToBlob kdf aead data passphrase (dict.fingerprint sha256) opts m =
        .ok blob m' :=
      ⟨_, _, Prog.bind_ok.mpr ⟨salt, m₁, h₁, Prog.bind_ok.mpr ⟨nonce, m₂, h₂,
        Modo.cifrar_eq_ok.mpr ⟨ha _ hs, rfl, rfl⟩⟩⟩⟩
    obtain ⟨blob, m', hb⟩ := hblob
    obtain ⟨indices, text, hi, ht, _⟩ := exists_text dict blob
    exact ⟨text, m', encode_eq_ok.mpr ⟨blob, hb, indices, hi, ht⟩⟩
  · intro text m' h
    obtain ⟨blob, hb, indices, hi, ht⟩ := encode_eq_ok.mp h
    obtain ⟨indices', text', hi', ht', hback⟩ := exists_text dict blob
    obtain rfl : indices = indices' := Except.ok.inj (hi.symm.trans hi')
    obtain rfl : text = text' := Except.ok.inj (ht.symm.trans ht')
    obtain ⟨salt, m₁, _, hb⟩ := Prog.bind_ok.mp hb
    obtain ⟨nonce, m₂, _, hb⟩ := Prog.bind_ok.mp hb
    rw [decode, hback, Res.ok_bind, decodeFromBlob]
    exact (Modo.descifrar_cifrar_iff hU data.2 hb).mpr hs

def alfabetoAB : Dictionary := ⟨['A', 'B'], by decide, by decide⟩

theorem decode_encode_ab :
    ∃ text m', encode (Kdf.libre id) Aead.deMarca (fun _ => List.Vector.replicate 32 0) [0, 0, 7]
        "clave" alfabetoAB ⟨[], ⟨64, 1, 1⟩⟩ (Mundo.sereno : Mundo 24 ClaveLibre) = .ok text m' ∧
      decode (Kdf.libre id) (Aead.deMarca : Aead 24 ClaveLibre)
        (fun _ => List.Vector.replicate 32 0) text "clave" alfabetoAB [] = .ok [0, 0, 7] := by
  have h := decode_encode (Kdf.libre id) (Aead.deMarca : Aead 24 ClaveLibre)
    (fun _ => List.Vector.replicate 32 0) (Kdf.libre_aceptaSanos id) Aead.deMarca_undoes
    ⟨[0, 0, 7], by decide⟩ "clave" alfabetoAB ⟨[], ⟨64, 1, 1⟩⟩ (by decide) .sereno
  obtain ⟨text, m', ht⟩ := h.1 _ _ _ _ (pedirRng_sereno 16) (pedirRng_sereno 24)
  exact ⟨text, m', ht, h.2 text m' ht⟩

end Api

end Quipu
