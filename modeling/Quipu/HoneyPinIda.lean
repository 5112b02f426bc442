import Quipu.Hexadecimal
import Quipu.HoneyPin

namespace Quipu

/-- A list some of whose entries fail, all with one error, fails with it. -/
theorem Res.mapM_of_fallar {ε α β : Type} {f : α → Res ε β} {e : ε} {xs : List α}
    (hf : ∀ x ∈ xs, (∃ y, f x = .ok y) ∨ f x = fallar e) (h : ∃ x ∈ xs, f x = fallar e) :
    xs.mapM f = fallar e := by
  induction xs with
  | nil =>
    obtain ⟨x, hx, _⟩ := h
    cases hx
  | cons x xs ih =>
    rw [List.mapM_cons]
    rcases hf x List.mem_cons_self with ⟨y, hy⟩ | hx
    · have hresto : ∃ x ∈ xs, f x = fallar e := by
        obtain ⟨z, hz, hfz⟩ := h
        rcases List.mem_cons.mp hz with rfl | hz
        · rw [hy] at hfz
          cases hfz
        · exact ⟨z, hz, hfz⟩
      rw [hy, Res.ok_bind, ih (fun z hz => hf z (List.mem_cons_of_mem x hz)) hresto]
      rfl
    · rw [hx]
      rfl

namespace Honey

variable {n : Nat} {M K : Type} {kdf : Kdf M K}

def EsDigito (c : Char) : Prop := '0' ≤ c ∧ c ≤ '9'

instance (c : Char) : Decidable (EsDigito c) := inferInstanceAs (Decidable (_ ∧ _))

/-- The value of a digit, as a token. -/
def cifra (c : Char) : UInt16 := UInt16.ofNat (c.toNat - 48)

/-- `c.to_digit(10)` or `TokenOutOfRange`. -/
def tokenDe (c : Char) : Res HoneyError UInt16 :=
  if EsDigito c then .ok (cifra c) else fallar .tokenOutOfRange

def pinToTokens (pin : String) : Res HoneyError (List UInt16) := do
  rechazarSi (pin = "" ∨ maxTokens < (utf8 pin).length) .badLength
  pin.toList.mapM tokenDe

def encryptPin (kdf : Kdf M K) (pin passphrase : String) (opts : HoneyOptions) :
    Prog (Mundo n K) HoneyError (List UInt8) := do
  let tokens ← Prog.deRes (pinToTokens pin)
  encrypt kdf tokens Alphabet.digits passphrase opts

/-- One to a thousand decimal digits. -/
structure EsPin (pin : String) : Prop where
  largo : 0 < pin.toList.length ∧ pin.toList.length ≤ maxTokens
  digitos : ∀ c ∈ pin.toList, EsDigito c

theorem toNat_cifra {c : Char} (h : EsDigito c) :
    48 ≤ c.toNat ∧ c.toNat ≤ 57 ∧ (cifra c).toNat = c.toNat - 48 := by
  have hlo : 48 ≤ c.toNat := h.1
  have hhi : c.toNat ≤ 57 := h.2
  refine ⟨hlo, hhi, ?_⟩
  rw [cifra, UInt16.toNat_ofNat']
  omega

theorem ofNat_cifra {c : Char} (h : EsDigito c) : Char.ofNat (48 + (cifra c).toNat) = c := by
  obtain ⟨hlo, _, hv⟩ := toNat_cifra h
  have hsuma : 48 + (cifra c).toNat = c.toNat := by omega
  rw [hsuma, Char.ofNat_toNat]

theorem length_utf8_pin {pin : String} (h : ∀ c ∈ pin.toList, EsDigito c) :
    (utf8 pin).length = pin.toList.length := by
  have hascii : ∀ c ∈ pin.toList, c.toNat < 128 := by
    intro c hc
    have := (toNat_cifra (h c hc)).2.1
    omega
  have hutf := Servidor.utf8_ascii hascii
  rw [String.ofList_toList] at hutf
  rw [hutf, List.length_map]

theorem toList_eq_nil {pin : String} : pin.toList.length = 0 ↔ pin = "" := by
  rw [List.length_eq_zero_iff, String.toList_eq_nil_iff]

theorem pinToTokens_ok {pin : String} (h : EsPin pin) :
    pinToTokens pin = .ok (pin.toList.map cifra) := by
  have hno : ¬(pin = "" ∨ maxTokens < (utf8 pin).length) := by
    rw [length_utf8_pin h.digitos, ← toList_eq_nil]
    have := h.largo
    omega
  rw [pinToTokens, rechazarSi_of_not _ hno, Res.ok_bind]
  exact Res.mapM_of_ok fun c hc => if_pos (h.digitos c hc)

/-- What is no PIN is refused by its length or by the first character that is no digit. -/
theorem pinToTokens_of_not {pin : String} (h : ¬EsPin pin) :
    pinToTokens pin = fallar (if pin = "" ∨ maxTokens < (utf8 pin).length then .badLength
      else .tokenOutOfRange) := by
  rw [pinToTokens, rechazarSi_bind]
  split
  next => rfl
  next hno =>
    refine Res.mapM_of_fallar (fun c _ => ?_) ?_
    · by_cases hc : EsDigito c
      · exact .inl ⟨cifra c, if_pos hc⟩
      · exact .inr (if_neg hc)
    · by_contra hbien
      have hdig : ∀ c ∈ pin.toList, EsDigito c := by
        intro c hc
        by_contra hmal
        exact hbien ⟨c, hc, if_neg hmal⟩
      rw [length_utf8_pin hdig, ← toList_eq_nil] at hno
      exact h ⟨by omega, hdig⟩

theorem cifra_lt {pin : String} (h : EsPin pin) :
    ∀ t ∈ pin.toList.map cifra, t.toNat < Alphabet.digits.size.toNat := by
  intro t ht
  obtain ⟨c, hc, rfl⟩ := List.mem_map.mp ht
  obtain ⟨hlo, hhi, hv⟩ := toNat_cifra (h.digitos c hc)
  have hdiez : Alphabet.digits.size.toNat = 10 := rfl
  omega

theorem encryptPin_eq {pin : String} (h : EsPin pin) (passphrase : String) (opts : HoneyOptions)
    (m : Mundo n K) : encryptPin kdf pin passphrase opts m =
      encrypt kdf (pin.toList.map cifra) Alphabet.digits passphrase opts m :=
  Prog.deRes_bind_of_ok (pinToTokens_ok h) _ m

theorem esPin_of_encryptPin {pin passphrase : String} {opts : HoneyOptions} {m m' : Mundo n K}
    {blob : List UInt8} (h : encryptPin kdf pin passphrase opts m = .ok blob m') : EsPin pin := by
  by_contra hno
  obtain ⟨tokens, m₁, ht, _⟩ := Prog.bind_ok.mp h
  rw [Prog.deRes_eq_ok, pinToTokens_of_not hno] at ht
  cases ht.1

/-- What a blob of `encryptPin` opens to, under any key. -/
theorem decryptPin_encryptPin (hA : kdf.AceptaSanos) {pin passphrase : String}
    {opts : HoneyOptions} {m m' : Mundo n K} {blob : List UInt8}
    (h : encryptPin kdf pin passphrase opts m = .ok blob m') (hs : opts.kdfParams.isSane = true)
    (otra : String) (pepper : List UInt8) : ∃ otroPin, decryptPin kdf blob otra pepper =
      .ok otroPin ∧ EsPin otroPin ∧ otroPin.toList.length = pin.toList.length := by
  have hpin := esPin_of_encryptPin h
  rw [encryptPin_eq hpin] at h
  obtain ⟨c, hsize, hlen, _, _, _, _, hleida⟩ := leerCabecera_encrypt h
  rw [if_pos hs] at hleida
  have hdiez : ∀ c', leerCabecera blob = .ok c' → c'.size ≤ 10 := by
    intro c' hc'
    obtain rfl : c = c' := Except.ok.inj (hleida.symm.trans hc')
    rw [hsize]
    decide
  rcases pinBien_of_size hA hdiez otra pepper with ⟨e, he, _⟩ | ⟨c', otroPin, hc', ho, hl, hd, _⟩
  · rw [hleida] at he
    cases he
  · obtain rfl : c = c' := Except.ok.inj (hleida.symm.trans hc')
    rw [List.length_map] at hlen
    exact ⟨otroPin, ho, ⟨by rw [hl, hlen]; exact hpin.largo, hd⟩, hl.trans hlen⟩

theorem decryptPin_propia {pin passphrase : String} {opts : HoneyOptions} {m m' : Mundo n K}
    {blob : List UInt8} (h : encryptPin kdf pin passphrase opts m = .ok blob m')
    (hs : opts.kdfParams.isSane = true) : decryptPin kdf blob passphrase opts.pepper = .ok pin := by
  have hpin := esPin_of_encryptPin h
  rw [encryptPin_eq hpin] at h
  have hdec := (decrypt_encrypt_iff h).mpr hs
  rw [decryptPin_ok hdec fun t ht => (cifra_lt hpin t ht).trans (by decide), List.map_map]
  have hvuelta : pin.toList.map ((fun t => Char.ofNat (48 + t.toNat)) ∘ cifra) = pin.toList :=
    (List.map_congr_left fun c hc => ofNat_cifra (hpin.digitos c hc)).trans (List.map_id _)
  rw [hvuelta, String.ofList_toList]

/-- A PIN is accepted exactly if it is one to a thousand decimal digits; its own key gives it back,
every other key a PIN as long, and a cost out of range keeps every key out. -/
theorem pin_ida (hA : kdf.AceptaSanos) (pin passphrase : String) (opts : HoneyOptions)
    (m : Mundo n K) :
    (¬EsPin pin → encryptPin kdf pin passphrase opts m =
      .error (.error (if pin = "" ∨ maxTokens < (utf8 pin).length then .badLength
        else .tokenOutOfRange)) m) ∧
    (∀ salt m₁, EsPin pin ∧ kdf.acepta opts.kdfParams = true ∧
        (pedirRng 16 : Prog (Mundo n K) HoneyError (Arr 16)) m = .ok salt m₁ →
      ∃ blob m', encryptPin kdf pin passphrase opts m = .ok blob m') ∧
    ∀ blob m', encryptPin kdf pin passphrase opts m = .ok blob m' →
      EsPin pin ∧
      (opts.kdfParams.isSane = true → decryptPin kdf blob passphrase opts.pepper = .ok pin ∧
        ∀ otra pepper, ∃ otroPin, decryptPin kdf blob otra pepper = .ok otroPin ∧
          EsPin otroPin ∧ otroPin.toList.length = pin.toList.length) ∧
      (opts.kdfParams.isSane = false →
        ∀ otra pepper, decryptPin kdf blob otra pepper = fallar .insaneKdf) := by
  refine ⟨fun hno => ?_, ?_, fun blob m' h => ?_⟩
  · rw [encryptPin, pinToTokens_of_not hno]
    rfl
  · rintro salt m₁ ⟨hpin, ha, hsalt⟩
    rw [encryptPin_eq hpin]
    refine encrypt_acepta ?_ ?_ (cifra_lt hpin) ha hsalt
    · intro hnil
      rw [List.map_eq_nil_iff] at hnil
      exact Nat.ne_of_gt hpin.largo.1 (hnil ▸ rfl)
    · rw [List.length_map]
      exact hpin.largo.2
  · refine ⟨esPin_of_encryptPin h, fun hs => ⟨decryptPin_propia h hs,
      decryptPin_encryptPin hA h hs⟩, fun hs otra pepper => ?_⟩
    rw [encryptPin_eq (esPin_of_encryptPin h)] at h
    obtain ⟨_, _, _, _, _, _, _, hleida⟩ := leerCabecera_encrypt h
    rw [if_neg (Bool.eq_false_iff.mp hs)] at hleida
    rw [decryptPin, decrypt, hleida]
    rfl

theorem esPin_4913 : EsPin "4913" := by
  have hdig : ("4913".toList.all fun c => EsDigito c) = true := rfl
  exact ⟨by decide, fun c hc => of_decide_eq_true (List.all_eq_true.mp hdig c hc)⟩

theorem pin_ida_libre :
    ∃ blob m', encryptPin (Kdf.libre id) "4913" "correcta" ⟨[], ⟨64, 1, 1⟩⟩
        (.sereno : Mundo 24 ClaveLibre) = .ok blob m' ∧
      decryptPin (Kdf.libre id) blob "correcta" [] = .ok "4913" ∧
      ∃ otroPin, decryptPin (Kdf.libre id) blob "otra" [] = .ok otroPin ∧
        otroPin.toList.length = 4 := by
  obtain ⟨_, hida, hvuelta⟩ := pin_ida (Kdf.libre_aceptaSanos id) "4913" "correcta"
    ⟨[], ⟨64, 1, 1⟩⟩ (.sereno : Mundo 24 ClaveLibre)
  obtain ⟨blob, m', h⟩ := hida _ _ ⟨esPin_4913, by decide, pedirRng_sereno 16⟩
  obtain ⟨_, hsano, _⟩ := hvuelta blob m' h
  obtain ⟨hpropia, hajena⟩ := hsano (by decide)
  obtain ⟨otroPin, ho, _, hl⟩ := hajena "otra" []
  exact ⟨blob, m', h, hpropia, otroPin, ho, hl⟩

end Honey

end Quipu
