import Quipu.PadmeLaw

namespace Quipu

variable {ε ε' α : Type}

theorem Res.mapErr_sinPanico (f : ε → ε') {r : Res ε α} (h : r.SinPanico) :
    (r.mapErr f).SinPanico := by
  rcases h with ⟨a, rfl⟩ | ⟨e, rfl⟩
  · exact .inl ⟨a, rfl⟩
  · exact .inr ⟨f e, rfl⟩

namespace Padme

/-- `Vec::with_capacity`, which gives `isize::MAX` bytes at most. -/
def reservarEn (w n : Nat) : Res ε Unit :=
  if n < 2 ^ (w - 1) then .ok () else panico "capacity overflow"

def partir (b : List UInt8) (i : Nat) : Res ε (List UInt8 × List UInt8) :=
  if i ≤ b.length then .ok (b.take i, b.drop i) else panico "mid > len"

/-- `try_into` of a slice into an array, with the text of its `expect`. -/
def arreglo (n : Nat) (b : List UInt8) (mensaje : String) : Res ε (Arr n) :=
  if h : b.length = n then .ok (Arr.of b h) else panico mensaje

/-- `pad` with a `usize` of `w` bits. -/
def padEn (w : Nat) (data : List UInt8) : Res ε (List UInt8) := do
  let content ← sumarEn w lenPrefix data.length
  let target ← paddedLenEn w content
  reservarEn w target
  pure (resize (be 8 data.length ++ data) target)

/-- `unpad` with a `usize` of `w` bits. -/
def unpadEn (w : Nat) (padded : List UInt8) : Res UnpadError (List UInt8) := do
  rechazarSi (padded.length < lenPrefix) (.tooShort padded.length lenPrefix)
  let (cabecera, cuerpo) ← partir padded lenPrefix
  let octetos ← arreglo 8 cabecera "LEN_PREFIX bytes"
  let declared := ofBe octetos.toList
  rechazarSi (2 ^ w ≤ declared) (.invalidLength declared cuerpo.length)
  if declared ≤ cuerpo.length then .ok (cuerpo.take declared)
  else fallar (.invalidLength declared cuerpo.length)

end Padme

namespace Prelayers

def padEn (w : Nat) (data : List UInt8) : Res ε (List UInt8) := Padme.padEn w data

def unpadEn (w : Nat) (padded : List UInt8) : Res PrelayerError (List UInt8) :=
  (Padme.unpadEn w padded).mapErr deUnpad

end Prelayers

namespace Padme

def declarado (padded : List UInt8) : Nat := ofBe (padded.take lenPrefix)

/-- The block has its prefix, and after it the bytes `d` that the prefix declares. -/
def Declara (padded d : List UInt8) : Prop :=
  lenPrefix ≤ padded.length ∧ declarado padded ≤ padded.length - lenPrefix ∧
    d = (padded.drop lenPrefix).take (declarado padded)

theorem unpadEn_eq (w : Nat) (padded : List UInt8) : unpadEn w padded =
    if padded.length < lenPrefix then fallar (.tooShort padded.length lenPrefix)
    else if 2 ^ w ≤ declarado padded ∨ padded.length - lenPrefix < declarado padded then
      fallar (.invalidLength (declarado padded) (padded.length - lenPrefix))
    else .ok ((padded.drop lenPrefix).take (declarado padded)) := by
  unfold unpadEn
  rw [rechazarSi_bind]
  split
  next => rfl
  next h =>
    have hp : (partir padded lenPrefix : Res UnpadError _) =
        .ok (padded.take lenPrefix, padded.drop lenPrefix) := if_pos (by omega)
    have hl : (padded.take lenPrefix).length = 8 := List.length_take_of_le (Nat.not_lt.mp h)
    have ha : (arreglo 8 (padded.take lenPrefix) "LEN_PREFIX bytes" : Res UnpadError _) =
        .ok (Arr.of _ hl) := dif_pos hl
    rw [hp, Res.ok_bind]
    simp only
    rw [ha, Res.ok_bind, Arr.toList_of, rechazarSi_bind, List.length_drop, ← declarado]
    by_cases hw : 2 ^ w ≤ declarado padded
    · rw [if_pos hw, if_pos (.inl hw)]
    · by_cases hd : declarado padded ≤ padded.length - lenPrefix
      · rw [if_neg hw, if_pos hd, if_neg (by omega)]
      · rw [if_neg hw, if_neg hd, if_pos (by omega)]

theorem unpadEn_sinPanico (w : Nat) (padded : List UInt8) : (unpadEn w padded).SinPanico := by
  rw [unpadEn_eq]
  refine Res.sinPanico_ite fun _ => Res.sinPanico_ite fun _ => Res.sinPanico_ok _

/-- The bytes of a block are fewer than a `usize` counts, so no declared length is lost. -/
theorem unpadEn_eq_ok {w : Nat} {padded d : List UInt8} (h : padded.length < 2 ^ w) :
    unpadEn w padded = .ok d ↔ Declara padded d := by
  rw [unpadEn_eq, Declara]
  split
  next hs =>
    refine ⟨fun he => ?_, fun hd => absurd hd.1 (by omega)⟩
    cases he
  next hs =>
    split
    next hd =>
      refine ⟨fun he => ?_, fun hd' => ?_⟩
      · cases he
      · have := hd'.2.1
        omega
    next hd =>
      constructor
      · intro he
        exact ⟨by omega, by omega, (Except.ok.inj he).symm⟩
      · rintro ⟨-, -, rfl⟩
        rfl

theorem padEn_eq {w : Nat} (hw : w = 32 ∨ w = 64) {data : List UInt8}
    (h : data.length < 2 ^ (w - 1)) : (padEn w data : Res ε (List UInt8)) =
      if cuantizada (lenPrefix + data.length) < 2 ^ (w - 1) then
        .ok (resize (be 8 data.length ++ data) (cuantizada (lenPrefix + data.length)))
      else panico "capacity overflow" := by
  obtain ⟨h8, ht⟩ := le_tope (l := lenPrefix + data.length) hw (by rw [lenPrefix]; omega)
  have hlt := tope_lt h8
  have hpos := Nat.two_pow_pos (w - 3)
  have hs : (sumarEn w lenPrefix data.length : Res ε Nat) = .ok (lenPrefix + data.length) :=
    if_pos (by omega)
  rw [padEn, hs, Res.ok_bind, paddedLenEn_tope h8 ht, Res.ok_bind, reservarEn]
  split
  next => rfl
  next => rfl

theorem length_resize_marco {data : List UInt8} {n : Nat} (h : lenPrefix + data.length ≤ n) :
    (resize (be 8 data.length ++ data) n).length = n := by
  rw [resize_marco h, List.length_append, List.length_append, length_largo, List.length_replicate]
  omega

/-- What the frame declares is its data. -/
theorem declara_marco {data : List UInt8} {n : Nat} (h : lenPrefix + data.length ≤ n)
    (hd : data.length < 2 ^ 64) : Declara (resize (be 8 data.length ++ data) n) data := by
  have hl := length_resize_marco h
  have hdec : declarado (resize (be 8 data.length ++ data) n) = data.length := by
    rw [declarado, resize_marco h, List.append_assoc, List.take_left' (length_largo _)]
    exact ofBe_be hd
  refine ⟨by omega, by omega, ?_⟩
  rw [hdec, resize_marco h, List.append_assoc, List.drop_left' (length_largo _), List.take_left]

/-- On a 64-bit target the length is the one of `paddedLen`. -/
theorem paddedLen_eq {l : Nat} (h : l < 2 ^ 63 + 8) : paddedLen l = cuantizada l := by
  unfold paddedLen
  split
  next h2 =>
    have hall : ∀ l < 2, l = cuantizada l := by decide
    exact hall l h2
  next h2 =>
    have h0 : l ≠ 0 := by omega
    have h64 : l < 2 ^ 64 := by omega
    have he : 1 ≤ l.log2 := (Nat.le_log2 h0).mpr (by omega)
    have hlog : l.log2 < 64 := (Nat.log2_lt h0).mpr h64
    have hz : leadingZeros l + l.log2 + 1 = 64 := leadingZerosEn_le h0 h64
    have hze : leadingZeros l.log2 + l.log2.log2 + 1 = 64 :=
      leadingZerosEn_le (w := 64) (by omega) (log2_lt_two_pow hlog)
    have hee : 64 - 1 - leadingZeros l = l.log2 := by omega
    have hs : 64 - leadingZeros l.log2 = l.log2.log2 + 1 := by omega
    have hp : 2 ^ bitsBajos l.log2 ≤ 2 ^ 61 :=
      Nat.pow_le_pow_right Nat.two_pos (bitsBajos_tope (w := 64) (by decide) (by rw [tope]; omega))
    simp only [hee, hs]
    rw [← bitsBajos, and_xor_mask (by omega)]
    rfl

theorem padEn_64 {data : List UInt8} (h : data.length < 2 ^ 63)
    (hs : paddedLen (lenPrefix + data.length) < 2 ^ 63) :
    (padEn 64 data : Res ε (List UInt8)) = .ok (pad data) := by
  have hl := paddedLen_eq (l := lenPrefix + data.length) (by rw [lenPrefix]; omega)
  rw [padEn_eq (.inr rfl) h, ← hl, if_pos hs, pad]

/-- On a 64-bit target both the data and their frame fit in a slice. -/
def Enmarcable (data : List UInt8) : Prop :=
  data.length < 2 ^ 63 ∧ (pad data).length < 2 ^ 63

theorem length_pad (data : List UInt8) :
    (pad data).length = paddedLen (lenPrefix + data.length) := by
  rw [pad, resize, List.length_append, List.length_take, List.length_replicate,
    List.length_append, length_largo]
  omega

theorem padEn_64_eq_ok {data b : List UInt8} : (padEn 64 data : Res ε (List UInt8)) = .ok b ↔
    b = pad data ∧ Enmarcable data := by
  rw [Enmarcable, length_pad]
  constructor
  · intro h
    obtain ⟨content, hc, htarget⟩ := Res.bind_ok.mp h
    obtain ⟨target, ht, hreserva⟩ := Res.bind_ok.mp htarget
    obtain ⟨_, hr, hb⟩ := Res.bind_ok.mp hreserva
    have hsum : lenPrefix + data.length < 2 ^ 64 ∧ content = lenPrefix + data.length := by
      unfold sumarEn at hc
      split at hc
      next hlt => exact ⟨hlt, (Except.ok.inj hc).symm⟩
      next => cases hc
    obtain ⟨hlt, rfl⟩ := hsum
    have htop : target < 2 ^ 63 := by
      by_contra hno
      rw [reservarEn, if_neg hno] at hr
      cases hr
    have heq := eq_of_paddedLenEn hlt ht
    have hle := le_cuantizada (lenPrefix + data.length)
    have hcorto : data.length < 2 ^ 63 := by omega
    have hmarco : paddedLen (lenPrefix + data.length) < 2 ^ 63 := by
      rw [paddedLen_eq (by rw [lenPrefix]; omega), ← heq]
      exact htop
    refine ⟨?_, hcorto, hmarco⟩
    rw [← Except.ok.inj hb, heq, pad, paddedLen_eq (by rw [lenPrefix]; omega)]
  · rintro ⟨rfl, hcorto, hmarco⟩
    exact padEn_64 hcorto hmarco

theorem declarado_lt (padded : List UInt8) : declarado padded < 2 ^ 64 := by
  have hd := ofBe_lt (padded.take lenPrefix)
  have hp : 256 ^ (padded.take lenPrefix).length ≤ 256 ^ lenPrefix :=
    Nat.pow_le_pow_right (by decide) (List.length_take_le _ _)
  exact hd.trans_le hp

theorem unpadEn_64 (padded : List UInt8) :
    unpadEn 64 padded = (unpad padded).mapError Fallo.error := by
  have hd := declarado_lt padded
  rw [unpadEn_eq, unpad]
  split
  next => rfl
  next =>
    rw [← declarado, ← List.length_drop]
    simp only
    by_cases hc : declarado padded ≤ (padded.drop lenPrefix).length
    · rw [if_neg (by omega), if_pos hc]
      rfl
    · rw [if_pos (by omega), if_neg hc]
      rfl

/-- A frame that fits in memory goes out and comes back, with a length that only depends on the
length of the data; a larger one panics. Every block gives what it declares or an error. -/
theorem marco_ley (w : Nat) (hw : w = 32 ∨ w = 64) :
    (∀ data : List UInt8, data.length < 2 ^ (w - 1) →
      ∃ n, (paddedLenEn w (lenPrefix + data.length) : Res Empty Nat) = .ok n ∧
        (n < 2 ^ (w - 1) → ∃ b, (padEn w data : Res Empty (List UInt8)) = .ok b ∧
          (Prelayers.padEn w data : Res Empty (List UInt8)) = .ok b ∧ b.length = n ∧
            unpadEn w b = .ok data ∧ Prelayers.unpadEn w b = .ok data) ∧
        (2 ^ (w - 1) ≤ n → (padEn w data : Res Empty (List UInt8)) = panico "capacity overflow" ∧
          (Prelayers.padEn w data : Res Empty (List UInt8)) = panico "capacity overflow")) ∧
    ∀ padded : List UInt8, padded.length < 2 ^ (w - 1) →
      (unpadEn w padded).SinPanico ∧ (Prelayers.unpadEn w padded).SinPanico ∧
        ∀ d, (unpadEn w padded = .ok d ↔ Declara padded d) ∧
          (Prelayers.unpadEn w padded = .ok d ↔ Declara padded d) := by
  have hpow : 2 ^ (w - 1) < 2 ^ w := by
    rcases hw with rfl | rfl
    · decide
    · decide
  have h64 : 2 ^ w ≤ 2 ^ 64 := by
    rcases hw with rfl | rfl
    · decide
    · decide
  have hpre (padded d : List UInt8) (h : padded.length < 2 ^ w) :
      Prelayers.unpadEn w padded = .ok d ↔ Declara padded d :=
    Res.mapErr_eq_ok.trans (unpadEn_eq_ok h)
  constructor
  · intro data hdata
    obtain ⟨h8, ht⟩ := le_tope (l := lenPrefix + data.length) hw (by rw [lenPrefix]; omega)
    refine ⟨_, paddedLenEn_tope h8 ht, fun hn => ?_, fun hn => ?_⟩
    · have hp := padEn_eq (ε := Empty) hw hdata
      rw [if_pos hn] at hp
      have hle := le_cuantizada (lenPrefix + data.length)
      have hl := length_resize_marco hle
      have hd := declara_marco hle (by omega)
      exact ⟨_, hp, hp, hl, (unpadEn_eq_ok (by omega)).mpr hd, (hpre _ _ (by omega)).mpr hd⟩
    · have hp := padEn_eq (ε := Empty) hw hdata
      rw [if_neg (Nat.not_lt.mpr hn)] at hp
      exact ⟨hp, hp⟩
  · intro padded h
    have hs := unpadEn_sinPanico w padded
    exact ⟨hs, Res.mapErr_sinPanico _ hs, fun d => ⟨unpadEn_eq_ok (by omega), hpre _ d (by omega)⟩⟩

theorem marco_ley_tres : ∃ b, (padEn 32 [1, 2, 3] : Res Empty (List UInt8)) = .ok b ∧
    b.length = 12 ∧ unpadEn 32 b = .ok [1, 2, 3] := by
  obtain ⟨n, hn, h, -⟩ := (marco_ley 32 (.inl rfl)).1 [1, 2, 3] (by decide)
  have h12 : (paddedLenEn 32 (lenPrefix + [1, 2, 3].length) : Res Empty Nat) = .ok 12 := by decide
  obtain rfl := Except.ok.inj (hn.symm.trans h12)
  obtain ⟨b, hb, -, hl, hu, -⟩ := h (by decide)
  exact ⟨b, hb, hl, hu⟩

/-- The longest slice of a 32-bit target has no frame. -/
theorem pad_sin_sitio :
    (padEn 32 (List.replicate 2147483647 0) : Res Empty (List UInt8)) =
      panico "capacity overflow" ∧
    ¬∀ data : List UInt8, data.length < 2 ^ 31 →
      ∃ b, (padEn 32 data : Res Empty (List UInt8)) = .ok b ∧ unpadEn 32 b = .ok data := by
  have hl : (List.replicate 2147483647 (0 : UInt8)).length = 2147483647 := List.length_replicate
  have hc : ¬cuantizada (lenPrefix + 2147483647) < 2 ^ 31 := by decide
  have hcorto : (List.replicate 2147483647 (0 : UInt8)).length < 2 ^ 31 := by
    rw [hl]
    decide
  have hp := padEn_eq (ε := Empty) (.inl rfl) hcorto
  rw [hl, if_neg hc] at hp
  refine ⟨hp, fun h => ?_⟩
  obtain ⟨b, hb, -⟩ := h _ hcorto
  rw [hp] at hb
  cases hb

end Padme

theorem Prelayers.padEn_64_eq_ok {data b : List UInt8} :
    (Prelayers.padEn 64 data : Res ε (List UInt8)) = .ok b ↔
      b = Prelayers.pad data ∧ Padme.Enmarcable data := Padme.padEn_64_eq_ok

end Quipu
