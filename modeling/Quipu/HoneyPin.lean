import Quipu.HoneyReach

namespace Quipu

namespace Honey

variable {n : Nat} {M K ε : Type} {kdf : Kdf M K}

/-- The sum of two `u8`, checked in every profile of the build. -/
def sumarU8 (a b : UInt8) : Res ε UInt8 :=
  if a.toNat + b.toNat < 256 then .ok (a + b) else panico "attempt to add with overflow"

/-- `(b'0' + t as u8) as char`. -/
def digitoDe (t : UInt16) : Res ε Char := do
  let b ← sumarU8 48 t.toUInt8
  pure (Char.ofNat b.toNat)

def decryptPin (kdf : Kdf M K) (blob : List UInt8) (passphrase : String) (pepper : List UInt8) :
    Res HoneyError String := do
  let tokens ← decrypt kdf blob passphrase pepper
  let cs ← tokens.mapM digitoDe
  pure (String.ofList cs)

/-- A structural error of the blob, or as many decimal digits as it declares, from tokens that
`as u8` does not truncate. -/
def PinBien (kdf : Kdf M K) (blob : List UInt8) (passphrase : String) (pepper : List UInt8) :
    Prop :=
  (∃ e, leerCabecera blob = .error (.error e) ∧
      decryptPin kdf blob passphrase pepper = .error (.error e)) ∨
    ∃ h pin, leerCabecera blob = .ok h ∧ decryptPin kdf blob passphrase pepper = .ok pin ∧
      pin.toList.length = h.len.toNat ∧ (∀ c ∈ pin.toList, '0' ≤ c ∧ c ≤ '9') ∧
      ∀ tokens, decrypt kdf blob passphrase pepper = .ok tokens → ∀ t ∈ tokens, t.toNat < 256

theorem digitoDe_ok {t : UInt16} (ht : t.toNat < 208) :
    (digitoDe t : Res ε Char) = .ok (Char.ofNat (48 + t.toNat)) := by
  have h8 : t.toUInt8.toNat = t.toNat := by
    rw [UInt16.toNat_toUInt8]
    omega
  have h48 : (48 : UInt8).toNat = 48 := rfl
  rw [digitoDe, sumarU8, if_pos (by omega), Res.ok_bind, UInt8.toNat_add, h48, h8,
    Nat.mod_eq_of_lt (by omega)]
  rfl

theorem digito_ascii {k : Nat} (hk : k < 10) :
    '0' ≤ Char.ofNat (48 + k) ∧ Char.ofNat (48 + k) ≤ '9' := by
  revert k
  decide

theorem decryptPin_ok {blob : List UInt8} {passphrase : String} {pepper : List UInt8}
    {tokens : List UInt16} (h : decrypt kdf blob passphrase pepper = .ok tokens)
    (ht : ∀ t ∈ tokens, t.toNat < 208) :
    decryptPin kdf blob passphrase pepper =
      .ok (String.ofList (tokens.map fun t => Char.ofNat (48 + t.toNat))) := by
  rw [decryptPin, h, Res.ok_bind, Res.mapM_of_ok fun t hm => digitoDe_ok (ht t hm)]
  rfl

/-- With an alphabet of at most ten symbols every key opens the blob to a PIN. -/
theorem pinBien_of_size {blob : List UInt8} (hA : kdf.AceptaSanos)
    (hsize : ∀ h, leerCabecera blob = .ok h → h.size ≤ 10) (passphrase : String)
    (pepper : List UInt8) : PinBien kdf blob passphrase pepper := by
  obtain ⟨h, hb⟩ | ⟨e, hb⟩ := leerCabecera_sinPanico blob
  · obtain ⟨hadm, _, _⟩ := leerCabecera_ok hb
    have hdiez : h.size.toNat ≤ 10 := hsize h hb
    have hdec := decrypt_eq hb (hA _ hadm.sano) passphrase pepper
    have hlt : ∀ t ∈ tokensDe blob h.size (flujoDe kdf h passphrase pepper), t.toNat < 10 :=
      fun t ht => Nat.lt_of_lt_of_le (tokensDe_lt (Nat.zero_lt_of_lt hadm.alfabeto) ht) hdiez
    refine .inr ⟨h, _, hb, decryptPin_ok hdec fun t ht => (hlt t ht).trans (by decide), ?_, ?_, ?_⟩
    · rw [String.toList_ofList, List.length_map, length_tokensDe, length_flujoDe]
    · intro c hc
      rw [String.toList_ofList] at hc
      obtain ⟨t, ht, rfl⟩ := List.mem_map.mp hc
      exact digito_ascii (hlt t ht)
    · intro tokens htokens t ht
      rw [hdec] at htokens
      cases htokens
      exact (hlt t ht).trans (by decide)
  · refine .inl ⟨e, hb, ?_⟩
    rw [decryptPin, decrypt, hb]
    rfl

/-- A derivation that expands every key to the same bytes. -/
def kdfDeFlujo (flujo : List UInt8) : Kdf Unit Unit where
  nfkc := id
  acepta := fun _ => true
  argon2id := fun _ _ _ => ()
  expandKey := fun _ _ => ()
  expand := fun _ _ n => ajustar n flujo

/-- The bytes whose reduction gives the keystream. -/
def flujoPara (ks : List UInt16) : List UInt8 := (ks.map fun k => be 8 k.toNat).flatten

theorem length_flujoPara (ks : List UInt16) :
    (flujoPara ks).length = ks.length * streamBytesPerToken := by
  rw [flujoPara, length_flatten_of_length (k := 8), List.length_map, streamBytesPerToken]
  intro w hw
  obtain ⟨k, _, rfl⟩ := List.mem_map.mp hw
  exact length_be 8 _

theorem digitos_flujoPara {a : UInt16} {len : Nat} {ks : List UInt16}
    (hks : ks ∈ Secuencias a len) : digitos a (flujoPara ks) = ks := by
  obtain ⟨_, hlt⟩ := hks
  have hocho : ∀ w ∈ ks.map (fun k => be 8 k.toNat), w.length = streamBytesPerToken := by
    intro w hw
    obtain ⟨k, _, rfl⟩ := List.mem_map.mp hw
    exact length_be 8 _
  refine List.ext_getElem (length_digitos (length_flujoPara ks)) fun i h₁ h₂ => ?_
  have hi : i < (ks.map fun k => be 8 k.toNat).length := by simpa using h₂
  have hk := hlt ks[i] (List.getElem_mem h₂)
  have hmax := (ks[i]).toNat_lt
  have htrozo : ((flujoPara ks).drop (i * streamBytesPerToken)).take streamBytesPerToken =
      be 8 (ks[i]).toNat := by
    rw [flujoPara, take_drop_flatten hocho hi, List.getElem_map]
  simp only [digitos, chunksExact, List.getElem_map, List.getElem_range, htrozo]
  rw [ofBe_be (by omega), Nat.mod_eq_of_lt hk, UInt16.ofNat_toNat]

/-- Every secret of the declared alphabet is what some derivation opens the blob to. -/
theorem exists_kdf {blob : List UInt8} {h : Cabecera} (hb : leerCabecera blob = .ok h)
    {ts : List UInt16} (hts : ts ∈ Secuencias h.size h.len.toNat) :
    ∃ kdf : Kdf Unit Unit, kdf.AceptaSanos ∧
      ∀ passphrase pepper, decrypt kdf blob passphrase pepper = .ok ts := by
  have hws : ((List.range h.len.toNat).map (palabra blob)).length = h.len.toNat := by simp
  obtain ⟨ks, hks, habre⟩ := exists_abiertas hws hts
  refine ⟨kdfDeFlujo (flujoPara ks), fun _ _ => rfl, fun passphrase pepper => ?_⟩
  have hlen : h.len.toNat * streamBytesPerToken = (flujoPara ks).length := by
    rw [length_flujoPara, hks.1]
  have hflujo : flujoDe (kdfDeFlujo (flujoPara ks)) h passphrase pepper = ks := by
    have hajuste : (ajustar (h.len.toNat * streamBytesPerToken) (flujoPara ks)).toList =
        flujoPara ks := by
      rw [ajustar, Arr.toList_of, hlen, List.takeD_eq_take 0 (Nat.le_refl _), List.take_length]
    show digitos h.size (ajustar _ (flujoPara ks)).toList = ks
    rw [hajuste, digitos_flujoPara hks]
  rw [decrypt_eq hb rfl, hflujo, ← habre]
  refine congrArg Except.ok (List.ext_getElem ?_ fun i h₁ h₂ => ?_)
  · rw [length_tokensDe, abiertas, List.length_zipWith, hws, hks.1, Nat.min_self]
  · simp [tokensDe, abiertas]

/-- A PIN comes out well formed under every key exactly for the blobs without a readable header
and those whose alphabet has at most ten symbols. -/
theorem decryptPin_iff (blob : List UInt8) :
    (∀ (M K : Type) (kdf : Kdf M K), kdf.AceptaSanos →
        ∀ passphrase pepper, PinBien kdf blob passphrase pepper) ↔
      ∀ h, leerCabecera blob = .ok h → h.size ≤ 10 := by
  refine ⟨fun hbien h hb => ?_, fun hsize M K kdf hA => pinBien_of_size hA hsize⟩
  obtain ⟨hadm, _, _⟩ := leerCabecera_ok hb
  by_contra hgrande
  have hgrande : 10 < h.size.toNat := Nat.not_le.mp hgrande
  have hts : List.replicate h.len.toNat 10 ∈ Secuencias h.size h.len.toNat := by
    refine ⟨List.length_replicate, fun t ht => ?_⟩
    rw [List.eq_of_mem_replicate ht]
    exact hgrande
  obtain ⟨kdf, hA, hdec⟩ := exists_kdf hb hts
  have hpin := decryptPin_ok (hdec "" []) fun t ht => by
    rw [List.eq_of_mem_replicate ht]
    decide
  rcases hbien Unit Unit kdf hA "" [] with ⟨e, he, _⟩ | ⟨h', pin, _, hpin', _, hascii, _⟩
  · rw [hb] at he
    cases he
  · rw [hpin] at hpin'
    cases hpin'
    have hmem : ':' ∈ (List.replicate h.len.toNat (10 : UInt16)).map
        fun t => Char.ofNat (48 + t.toNat) := by
      refine List.mem_map.mpr ⟨10, ?_, rfl⟩
      exact List.mem_replicate.mpr ⟨Nat.ne_of_gt hadm.largo.1, rfl⟩
    rw [String.toList_ofList] at hascii
    exact absurd (hascii ':' hmem).2 (by decide)

theorem decryptPin_iff_pin : PinBien (Kdf.libre id) pinCerrado "otra" [1] := by
  have hleida : leerCabecera pinCerrado = .ok _ :=
    leerCabecera_toBytes (by decide) (by decide) rfl
  refine (decryptPin_iff pinCerrado).mpr (fun h hb => ?_) _ _ (Kdf.libre id)
    (Kdf.libre_aceptaSanos id) "otra" [1]
  rw [hleida] at hb
  cases hb
  decide

def cabeceraHostil : Cabecera := ⟨List.Vector.replicate 16 0, ⟨64, 1, 1⟩, 65535, 1⟩

/-- One word under the largest alphabet. -/
def pinHostil (c : UInt16) : List UInt8 := cabeceraHostil.toBytes ++ ([c].map u16Be).flatten

theorem decrypt_pinHostil (c : UInt16) :
    decrypt (Kdf.libre id) (pinHostil c) "clave" [] = .ok (abiertas 65535 [0] [c]) := by
  have hadm : cabeceraHostil.Admisible := ⟨by decide, by decide, by decide⟩
  have hflujo : flujoDe (Kdf.libre id) cabeceraHostil "clave" [] = [0] := rfl
  rw [pinHostil, decrypt_palabras hadm (Kdf.libre_aceptaSanos id _ hadm.sano) rfl, hflujo]
  rfl

/-- A character that is no digit, a sum past 255, and a token cut to its low byte. -/
theorem decryptPin_hostil :
    (decryptPin (Kdf.libre id) (pinHostil 10) "clave" [] = .ok ":" ∧
      ¬PinBien (Kdf.libre id) (pinHostil 10) "clave" []) ∧
    (decryptPin (Kdf.libre id) (pinHostil 255) "clave" [] =
        panico "attempt to add with overflow" ∧
      ¬PinBien (Kdf.libre id) (pinHostil 255) "clave" []) ∧
    (decryptPin (Kdf.libre id) (pinHostil 261) "clave" [] = .ok "5" ∧
      ¬PinBien (Kdf.libre id) (pinHostil 261) "clave" []) := by
  have h₁ : decryptPin (Kdf.libre id) (pinHostil 10) "clave" [] = .ok ":" := by
    rw [decryptPin, decrypt_pinHostil]
    decide
  have h₂ : decryptPin (Kdf.libre id) (pinHostil 255) "clave" [] =
      panico "attempt to add with overflow" := by
    rw [decryptPin, decrypt_pinHostil]
    decide
  have h₃ : decryptPin (Kdf.libre id) (pinHostil 261) "clave" [] = .ok "5" := by
    rw [decryptPin, decrypt_pinHostil]
    decide
  refine ⟨⟨h₁, ?_⟩, ⟨h₂, ?_⟩, h₃, ?_⟩
  · rintro (⟨e, _, he⟩ | ⟨h, pin, _, hpin, _, hascii, _⟩)
    · rw [h₁] at he
      cases he
    · rw [h₁] at hpin
      cases hpin
      exact absurd (hascii ':' (by decide)).2 (by decide)
  · rintro (⟨e, _, he⟩ | ⟨h, pin, _, hpin, _⟩)
    · rw [h₂] at he
      cases he
    · rw [h₂] at hpin
      cases hpin
  · rintro (⟨e, _, he⟩ | ⟨h, pin, _, _, _, _, hbyte⟩)
    · rw [h₃] at he
      cases he
    · have hmal := hbyte _ (decrypt_pinHostil 261) 261 (by decide)
      exact absurd hmal (by decide)

end Honey

end Quipu
