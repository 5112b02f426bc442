import Quipu.Online
import Quipu.SustitucionBits

namespace Quipu

open Container

namespace Codec

/-- A power of `n` is over `h` and under `h + 1`, in units of `k` bytes. -/
def Salta (n h k : Nat) : Prop := ∃ j, h * 256 ^ k < n ^ j ∧ n ^ j < (h + 1) * 256 ^ k

/-- Between a number and the next one there is no power of two. -/
theorem not_salta_two_pow {a h k : Nat} (hh : 0 < h) : ¬Salta (2 ^ a) h k := by
  rintro ⟨j, hlo, hhi⟩
  rw [← Nat.pow_mul, Escrito.pow_bytes] at hlo hhi
  rcases Nat.le_total (a * j) (8 * k) with hle | hle
  · have hpow : 2 ^ (a * j) ≤ 2 ^ (8 * k) := Nat.pow_le_pow_right (by decide) hle
    have := Nat.le_mul_of_pos_left (2 ^ (8 * k)) hh
    omega
  · obtain ⟨e, he⟩ := Nat.exists_eq_add_of_le hle
    rw [he, Nat.pow_add, Nat.mul_comm (2 ^ (8 * k)) (2 ^ e)] at hlo hhi
    have h₁ := Nat.lt_of_mul_lt_mul_right hlo
    have h₂ := Nat.lt_of_mul_lt_mul_right hhi
    omega

namespace Escrito

variable {n : Nat} {b b' : List UInt8} {ds ds' : List Nat}

theorem valor_lt_pow (hn : 2 ≤ n) (h : Escrito n b ds) :
    Nat.ofDigits n ds.reverse < n ^ ds.length := by
  have := Nat.ofDigits_lt_base_pow_length (b := n) (l := ds.reverse) (by omega) fun x hx =>
    h.lt x (List.mem_reverse.mp hx)
  rwa [List.length_reverse] at this

theorem pow_le (hn : 2 ≤ n) (h : Escrito n b ds) {j : Nat} (hj : j < ds.length) :
    n ^ j ≤ Nat.ofDigits n ds.reverse := by
  obtain ⟨d, r, hds⟩ : ∃ d r, ds = d :: r := by
    cases ds with
    | nil => cases hj
    | cons d r => exact ⟨d, r, rfl⟩
  have hle := h.pow_le_valor hn (l := []) hds
  refine le_trans (Nat.pow_le_pow_right (by omega) ?_) hle
  rw [hds, List.length_cons] at hj
  omega

/-- Two texts of one length in bytes are of one length in symbols, or of two that are next. -/
theorem length_le_succ (hn : 2 ≤ n) (h : Escrito n b ds) (h' : Escrito n b' ds')
    (hl : b.length = b'.length) : ds'.length ≤ ds.length + 1 := by
  by_contra hno
  have hle := h'.pow_le hn (j := ds.length + 1) (by omega)
  have hlt := h'.valor_lt
  have hval := h.valor_eq
  have hsup := h.valor_lt_pow hn
  rw [Nat.pow_succ] at hle
  rw [hl] at hval
  have := Nat.mul_le_mul_left (n ^ ds.length) hn
  omega

/-- What a text starts with holds its number between two that are next, in units of the rest. -/
theorem valor_prefijo {pre rest : List UInt8} (h : Escrito n (pre ++ rest) ds) :
    ofBe (1 :: pre) * 256 ^ rest.length ≤ Nat.ofDigits n ds.reverse ∧
      Nat.ofDigits n ds.reverse < (ofBe (1 :: pre) + 1) * 256 ^ rest.length := by
  have hresto := ofBe_lt rest
  rw [h.valor, ← List.cons_append, ofBe_append, Nat.succ_mul]
  omega

/-- Texts that start alike, of one length in bytes, are of one length in symbols unless a power of
the base falls where the rest decides. -/
theorem length_le_of_prefijo (hn : 2 ≤ n) {pre rest rest' : List UInt8}
    (h : Escrito n (pre ++ rest) ds) (h' : Escrito n (pre ++ rest') ds')
    (hl : rest.length = rest'.length) (hs : ¬Salta n (ofBe (1 :: pre)) rest.length) :
    ds'.length ≤ ds.length := by
  by_contra hno
  have hlo := h.valor_prefijo.1
  have hhi := h'.valor_prefijo.2
  have hsup := h.valor_lt_pow hn
  have hle := h'.pow_le hn (j := ds.length) (by omega)
  rw [← hl] at hhi
  exact hs ⟨ds.length, by omega, by omega⟩

theorem length_eq_of_prefijo (hn : 2 ≤ n) {pre rest rest' : List UInt8}
    (h : Escrito n (pre ++ rest) ds) (h' : Escrito n (pre ++ rest') ds')
    (hl : rest.length = rest'.length) (hs : ¬Salta n (ofBe (1 :: pre)) rest.length) :
    ds.length = ds'.length :=
  Nat.le_antisymm (h'.length_le_of_prefijo hn h hl.symm (hl ▸ hs))
    (h.length_le_of_prefijo hn h' hl hs)

end Escrito

end Codec

theorem Prelayers.length_pad {data : List UInt8} (h : data.length < 2 ^ 63) :
    (pad data).length = Padme.paddedLen (8 + data.length) := by
  have hle := Padme.le_paddedLen (l := 8 + data.length) (by omega)
  rw [pad, Padme.pad_eq h, List.length_append, List.length_append, length_be,
    List.length_replicate]
  omega

namespace Api

variable {M K : Type} {kdf : Kdf M K} {aead : Aead 24 K} {sha256 : List UInt8 → Arr 32}
  {dict : Dictionary}

/-- What every container over an alphabet starts with. -/
def prefijo (huella : Arr 8) : List UInt8 := magic ++ [version] ++ [0] ++ u16Be 0 ++ huella.toList

/-- The bytes of a container: its header, the padded data and the tag. -/
def bytesDe (largo : Nat) : Nat := Header.size 16 24 + (Padme.paddedLen (8 + largo) + tagLen)

theorem prefijo_length (huella : Arr 8) : (prefijo huella).length = 16 := by
  simp [prefijo, magic]

/-- A text is the writing of its container, which starts as all of its alphabet do. -/
theorem escrito_of_encode (hT : aead.AddsTag) (data : Slice) {passphrase : String} {opts : Options}
    {m m' : Mundo 24 K} {text : String}
    (h : encode kdf aead sha256 data passphrase dict opts m = .ok text m') :
    ∃ rest ds, Codec.Escrito dict.base (prefijo (dict.fingerprint sha256) ++ rest) ds ∧
      text.toList.length = ds.length ∧ 16 + rest.length = bytesDe data.1.length := by
  obtain ⟨blob, hb, indices, hi, ht⟩ := encode_eq_ok.mp h
  obtain ⟨salt, m₁, _, hb⟩ := Prog.bind_ok.mp hb
  obtain ⟨nonce, m₂, _, hb⟩ := Prog.bind_ok.mp hb
  obtain ⟨_, hblob, _⟩ := Modo.cifrar_eq_ok.mp hb
  have hdos : 2 ≤ dict.base := dict.dos
  have hle : dict.base ≤ Codec.u64Max := dict.base_le.trans (by decide)
  have hesc := Codec.escrito_of_encodeBaseN hdos hle hi
  obtain ⟨text', ht', hdec⟩ := dict.decode_indices hesc.lt
  obtain rfl : text = text' := Except.ok.inj (ht.symm.trans ht')
  have hlargo : blob.length = bytesDe data.1.length := by
    rw [hblob, serialize, List.length_append, Header.length_toBytes, Modo.selloDe]
    simp only [hT _ _ _ _]
    rw [Prelayers.length_pad data.2, bytesDe]
  obtain ⟨rest, hrest⟩ : ∃ rest, blob = prefijo (dict.fingerprint sha256) ++ rest := by
    rw [hblob, serialize, Header.toBytes, cabeceraDe]
    simp only [List.append_assoc]
    exact ⟨_, by simp only [prefijo, List.append_assoc]; rfl⟩
  refine ⟨rest, indices, hrest ▸ hesc, ?_, ?_⟩
  · rw [← Dictionary.length_decodeChars hdec]
  · rw [← hlargo, hrest, List.length_append, prefijo_length]

/-- The length of a text tells the padded length of its data and no more: it never moves by more
than one symbol, and not at all unless a power of the base falls within what the first bytes of
the container leave open. -/
theorem textos_largo (data data' : Slice) (hT : aead.AddsTag) {passphrase passphrase' : String}
    {opts opts' : Options} {m₁ m₁' m₂ m₂' : Mundo 24 K} {text text' : String}
    (h : encode kdf aead sha256 data passphrase dict opts m₁ = .ok text m₁')
    (h' : encode kdf aead sha256 data' passphrase' dict opts' m₂ = .ok text' m₂')
    (hpad : Padme.paddedLen (8 + data.1.length) = Padme.paddedLen (8 + data'.1.length)) :
    text'.toList.length ≤ text.toList.length + 1 ∧
      (∀ a, dict.base = 2 ^ a → text.toList.length = text'.toList.length) ∧
      (¬Codec.Salta dict.base (ofBe (1 :: prefijo (dict.fingerprint sha256)))
        (bytesDe data.1.length - 16) → text.toList.length = text'.toList.length) := by
  obtain ⟨rest, ds, hesc, hlen, hrest⟩ := escrito_of_encode hT data h
  obtain ⟨rest', ds', hesc', hlen', hrest'⟩ := escrito_of_encode hT data' h'
  have hdos : 2 ≤ dict.base := dict.dos
  have hl : rest.length = rest'.length := by
    unfold bytesDe at hrest hrest'
    omega
  have hbytes : bytesDe data.1.length - 16 = rest.length := by omega
  have hpos : 0 < ofBe (1 :: prefijo (dict.fingerprint sha256)) :=
    Nat.pos_of_ne_zero (Codec.ofBe_marca_ne_zero _)
  rw [hlen, hlen', hbytes]
  refine ⟨?_, fun a ha => ?_, fun hs => hesc.length_eq_of_prefijo hdos hesc' hl hs⟩
  · refine hesc.length_le_succ hdos hesc' ?_
    rw [List.length_append, List.length_append, hl]
  · refine hesc.length_eq_of_prefijo hdos hesc' hl ?_
    rw [ha]
    exact Codec.not_salta_two_pow hpos

/-- Over two symbols one byte takes as many of them as another. -/
theorem textos_largo_ab :
    ∃ (text text' : String) (m m' : Mundo 24 ClaveLibre),
      encode (Kdf.libre id) Aead.deMarca (fun _ => List.Vector.replicate 32 0) [1] "clave"
        alfabetoAB ⟨[], ⟨64, 1, 1⟩⟩ .sereno = .ok text m ∧
      encode (Kdf.libre id) Aead.deMarca (fun _ => List.Vector.replicate 32 0) [2] "otra"
        alfabetoAB ⟨[], ⟨64, 1, 1⟩⟩ .sereno = .ok text' m' ∧
      text.toList.length = text'.toList.length := by
  have ha : (Kdf.libre id).acepta ⟨64, 1, 1⟩ = true := by decide
  obtain ⟨text, m, h⟩ := exists_encode ha (Aead.deMarca : Aead 24 ClaveLibre)
    (fun _ => List.Vector.replicate 32 0) [1] "clave" alfabetoAB []
  obtain ⟨text', m', h'⟩ := exists_encode ha (Aead.deMarca : Aead 24 ClaveLibre)
    (fun _ => List.Vector.replicate 32 0) [2] "otra" alfabetoAB []
  have hlargo := textos_largo ⟨[1], by decide⟩ ⟨[2], by decide⟩ Aead.deMarca_addsTag h h' rfl
  exact ⟨text, text', m, m', h, h', hlargo.2.1 1 rfl⟩

end Api

end Quipu
