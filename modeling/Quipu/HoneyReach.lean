import Quipu.HoneyOracle
import Quipu.Sereno
import Mathlib.Data.Set.Function

namespace Quipu

namespace Honey

variable {n : Nat} {M K : Type} {kdf : Kdf M K}

/-- The sequences of `len` tokens of an alphabet. -/
def Secuencias (a : UInt16) (len : Nat) : Set (List UInt16) :=
  {ts | ts.length = len ∧ ∀ t ∈ ts, t.toNat < a.toNat}

/-- What a keystream opens the words of a ciphertext to. -/
def abiertas (a : UInt16) (ks ws : List UInt16) : List UInt16 := List.zipWith (abierta a) ks ws

def cerradas (a : UInt16) (ks ts : List UInt16) : List UInt16 := List.zipWith (cerrada a) ks ts

theorem toNat_abierta {a : UInt16} (ha : 0 < a.toNat) (k c : UInt16) :
    (abierta a k c).toNat = (c.toNat + a.toNat - k.toNat) % a.toNat := by
  have hm := Nat.mod_lt (c.toNat + a.toNat - k.toNat) ha
  have hlt := a.toNat_lt
  rw [abierta, UInt16.toNat_ofNat']
  omega

theorem toNat_cerrada {a : UInt16} (ha : 0 < a.toNat) (k t : UInt16) :
    (cerrada a k t).toNat = (t.toNat + k.toNat) % a.toNat := by
  have hm := Nat.mod_lt (t.toNat + k.toNat) ha
  have hlt := a.toNat_lt
  rw [cerrada, UInt16.toNat_ofNat']
  omega

theorem cerrada_lt {a : UInt16} (ha : 0 < a.toNat) (k t : UInt16) :
    (cerrada a k t).toNat < a.toNat := by
  rw [toNat_cerrada ha]
  exact Nat.mod_lt _ ha

/-- Closing what was opened gives the word back, also where the sum passes the alphabet. -/
theorem cerrada_abierta {a k c : UInt16} (hc : c.toNat < a.toNat) (hk : k.toNat < a.toNat) :
    cerrada a k (abierta a k c) = c := by
  have ha : 0 < a.toNat := Nat.zero_lt_of_lt hc
  apply UInt16.toNat_inj.mp
  rw [toNat_cerrada ha, toNat_abierta ha, Nat.mod_add_mod,
    show c.toNat + a.toNat - k.toNat + k.toNat = c.toNat + a.toNat by omega, Nat.add_mod_right,
    Nat.mod_eq_of_lt hc]

/-- The key that opens a word to a given token, whatever the word. -/
theorem abierta_abierta {a t : UInt16} (ht : t.toNat < a.toNat) (c : UInt16) :
    abierta a (abierta a t c) c = t := by
  have ha : 0 < a.toNat := Nat.zero_lt_of_lt ht
  apply UInt16.toNat_inj.mp
  have hdiv := Nat.div_add_mod (c.toNat + a.toNat - t.toNat) a.toNat
  have hsuma : c.toNat + a.toNat - (c.toNat + a.toNat - t.toNat) % a.toNat =
      t.toNat + a.toNat * ((c.toNat + a.toNat - t.toNat) / a.toNat) := by omega
  rw [toNat_abierta ha, toNat_abierta ha, hsuma, Nat.add_mul_mod_self_left, Nat.mod_eq_of_lt ht]

theorem zipWith_zipWith {f g : UInt16 → UInt16 → UInt16} {ks ws : List UInt16}
    (hlen : ks.length = ws.length) (h : ∀ k ∈ ks, ∀ w ∈ ws, f k (g k w) = w) :
    List.zipWith f ks (List.zipWith g ks ws) = ws := by
  induction ks generalizing ws with
  | nil =>
    rw [List.length_nil] at hlen
    rw [List.length_eq_zero_iff.mp hlen.symm]
    rfl
  | cons k ks ih =>
    cases ws with
    | nil => simp at hlen
    | cons w ws =>
      rw [List.zipWith_cons_cons, List.zipWith_cons_cons, h k (by simp) w (by simp),
        ih (by simpa using hlen)]
      intro k' hk' w' hw'
      exact h k' (List.mem_cons_of_mem k hk') w' (List.mem_cons_of_mem w hw')

theorem mapsTo_zipWith {f : UInt16 → UInt16 → UInt16} {a : UInt16} {len : Nat} {ks : List UInt16}
    (hks : ks.length = len) (hf : 0 < a.toNat → ∀ k w, (f k w).toNat < a.toNat) :
    Set.MapsTo (List.zipWith f ks) (Secuencias a len) (Secuencias a len) := by
  rintro ws ⟨hlen, hws⟩
  refine ⟨by rw [List.length_zipWith, hks, hlen, Nat.min_self], fun t ht => ?_⟩
  obtain ⟨i, hi, rfl⟩ := List.getElem_of_mem ht
  have hi' : i < ws.length := by
    rw [List.length_zipWith] at hi
    omega
  rw [List.getElem_zipWith]
  exact hf (Nat.zero_lt_of_lt (hws _ (List.getElem_mem hi'))) _ _

/-- Under a fixed keystream, opening is a bijection of the sequences of the alphabet. -/
theorem bijOn_abiertas {a : UInt16} {len : Nat} {ks : List UInt16} (hks : ks ∈ Secuencias a len) :
    Set.BijOn (abiertas a ks) (Secuencias a len) (Secuencias a len) := by
  obtain ⟨hlen, hlt⟩ := hks
  have habre : Set.MapsTo (abiertas a ks) (Secuencias a len) (Secuencias a len) :=
    mapsTo_zipWith hlen fun ha k w => abierta_lt ha k w
  have hcierra : Set.MapsTo (cerradas a ks) (Secuencias a len) (Secuencias a len) :=
    mapsTo_zipWith hlen fun ha k w => cerrada_lt ha k w
  have hinv : Set.InvOn (cerradas a ks) (abiertas a ks) (Secuencias a len) (Secuencias a len) := by
    refine ⟨?_, ?_⟩
    · intro ws hws
      exact zipWith_zipWith (hlen.trans hws.1.symm) fun k hk w hw =>
        cerrada_abierta (hws.2 w hw) (hlt k hk)
    · intro ts hts
      exact zipWith_zipWith (hlen.trans hts.1.symm) fun k hk t ht =>
        abierta_cerrada (hts.2 t ht) (hlt k hk)
  exact hinv.bijOn habre hcierra

/-- Every sequence of the alphabet is what some keystream opens a ciphertext to. -/
theorem exists_abiertas {a : UInt16} {len : Nat} {ws ts : List UInt16} (hws : ws.length = len)
    (hts : ts ∈ Secuencias a len) : ∃ ks ∈ Secuencias a len, abiertas a ks ws = ts := by
  obtain ⟨hlen, hlt⟩ := hts
  have hl : (abiertas a ts ws).length = len := by
    rw [abiertas, List.length_zipWith, hlen, hws, Nat.min_self]
  refine ⟨abiertas a ts ws, ⟨hl, fun k hk => ?_⟩, ?_⟩
  · obtain ⟨i, hi, rfl⟩ := List.getElem_of_mem hk
    have hi' : i < ts.length := by omega
    simp only [abiertas, List.getElem_zipWith]
    exact abierta_lt (Nat.zero_lt_of_lt (hlt _ (List.getElem_mem hi'))) _ _
  · refine List.ext_getElem ?_ fun i h₁ h₂ => ?_
    · rw [abiertas, List.length_zipWith, hl, hws, hlen, Nat.min_self]
    · simp only [abiertas, List.getElem_zipWith]
      exact abierta_abierta (hlt _ (List.getElem_mem h₂)) _

/-- The words of a ciphertext, opened one by one. -/
theorem tokensDe_append {a : UInt16} {ks ws : List UInt16} {head : List UInt8}
    (hh : head.length = headerLen) (hl : ks.length = ws.length) :
    tokensDe (head ++ (ws.map u16Be).flatten) a ks = abiertas a ks ws := by
  refine List.ext_getElem (by simp [tokensDe, abiertas, hl]) fun i h₁ h₂ => ?_
  have hi : i < ks.length := by simpa [tokensDe] using h₁
  have hi' : i < ws.length := by omega
  have hdos : ∀ w ∈ ws.map u16Be, w.length = 2 := by
    intro w hw
    obtain ⟨x, _, rfl⟩ := List.mem_map.mp hw
    exact length_u16Be x
  have hw : i < (ws.map u16Be).length := by simpa using hi'
  have hp : palabra (head ++ (ws.map u16Be).flatten) i = ws[i] := by
    rw [palabra, ← hh, ← List.drop_drop, List.drop_left, take_drop_flatten hdos hw,
      List.getElem_map, u16OfBe_u16Be]
  simp only [tokensDe, List.getElem_mapIdx, hp, abiertas, List.getElem_zipWith]

/-- Under any key, a ciphertext opens to its words opened with the keystream of its header. -/
theorem decrypt_palabras {h : Cabecera} (hadm : h.Admisible) (ha : kdf.acepta h.params = true)
    {ws : List UInt16} (hws : ws.length = h.len.toNat) (passphrase : String)
    (pepper : List UInt8) :
    decrypt kdf (h.toBytes ++ (ws.map u16Be).flatten) passphrase pepper =
      .ok (abiertas h.size (flujoDe kdf h passphrase pepper) ws) := by
  have hcuerpo : (ws.map u16Be).flatten.length = h.len.toNat * 2 := by
    rw [length_flatten_of_length (k := 2), List.length_map, hws]
    intro w hw
    obtain ⟨x, _, rfl⟩ := List.mem_map.mp hw
    exact length_u16Be x
  have hleida := leerCabecera_toBytes hadm.alfabeto hadm.largo hcuerpo
  rw [if_pos hadm.sano] at hleida
  rw [decrypt_eq hleida ha,
    tokensDe_append h.length_toBytes ((length_flujoDe kdf h passphrase pepper).trans hws.symm)]

theorem flujoDe_mem {h : Cabecera} (hadm : h.Admisible) (passphrase : String)
    (pepper : List UInt8) :
    flujoDe kdf h passphrase pepper ∈ Secuencias h.size h.len.toNat :=
  ⟨length_flujoDe kdf h passphrase pepper,
    fun _ hk => digitos_lt (Nat.zero_lt_of_lt hadm.alfabeto) hk⟩

/-- Admissible tokens are always encrypted, unless the random source fails. -/
theorem encrypt_acepta_de {tokens : List UInt16} {alphabet : Alphabet} {passphrase : String}
    {opts : HoneyOptions} {m m₁ : Mundo n K} {salt : Arr 16} (hpos : tokens ≠ [])
    (hmax : tokens.length ≤ maxTokens) (ht : ∀ t ∈ tokens, t.toNat < alphabet.size.toNat)
    (ha : kdf.acepta opts.kdfParams = true)
    (hsalt : (pedirRng 16 : Prog (Mundo n K) HoneyError (Arr 16)) m = .ok salt m₁) :
    ∃ blob m', encrypt kdf tokens alphabet passphrase opts m = .ok blob m' ∧
      m'.cinta = m₁.cinta := by
  let c : Cabecera := ⟨salt, opts.kdfParams, alphabet.size, UInt32.ofNat tokens.length⟩
  have hlen : c.len.toNat = tokens.length := by
    unfold maxTokens at hmax
    show (UInt32.ofNat tokens.length).toNat = tokens.length
    rw [UInt32.toNat_ofNat']
    omega
  have hflujo : keystreamDigits kdf passphrase salt opts.pepper opts.kdfParams alphabet.size
      tokens.length = .ok (flujoDe kdf c passphrase opts.pepper) := by
    have h := keystreamDigits_ok (h := c) ha (hlen.symm ▸ hmax) passphrase opts.pepper
    rw [hlen] at h
    exact h
  have hfuera : ¬(tokens.any fun t => alphabet.size ≤ t) = true := by
    simp only [List.any_eq_true, decide_eq_true_eq, not_exists, not_and]
    exact fun t htm => Nat.not_le.mpr (ht t htm)
  have hlargo : ¬(tokens = [] ∨ maxTokens < tokens.length) := by
    rw [not_or]
    exact ⟨hpos, Nat.not_lt.mpr hmax⟩
  have hws := mapM_cerrarToken (a := alphabet.size)
    ((length_flujoDe kdf c passphrase opts.pepper).trans hlen)
  rw [encrypt, Prog.rechazarSi_bind_of_not _ hlargo, Prog.rechazarSi_bind_of_not _ hfuera,
    Prog.bind_of_ok hsalt, Prog.bind_of_ok registrar_apply, Prog.deRes_bind_of_ok hflujo, hws]
  exact ⟨_, _, rfl, rfl⟩

theorem encrypt_acepta {tokens : List UInt16} {alphabet : Alphabet} {passphrase : String}
    {opts : HoneyOptions} {m m₁ : Mundo n K} {salt : Arr 16} (hpos : tokens ≠ [])
    (hmax : tokens.length ≤ maxTokens) (ht : ∀ t ∈ tokens, t.toNat < alphabet.size.toNat)
    (ha : kdf.acepta opts.kdfParams = true)
    (hsalt : (pedirRng 16 : Prog (Mundo n K) HoneyError (Arr 16)) m = .ok salt m₁) :
    ∃ blob m', encrypt kdf tokens alphabet passphrase opts m = .ok blob m' := by
  obtain ⟨blob, m', h, _⟩ := encrypt_acepta_de hpos hmax ht ha hsalt
  exact ⟨blob, m', h⟩

/-- What is encrypted is decrypted under the same key; and whatever the keystream, opening is a
bijection, so no ciphertext rules out a secret. -/
theorem honey_alcance {M K : Type} (kdf : Kdf M K) (hA : kdf.AceptaSanos) :
    (∀ (n : Nat) tokens (alphabet : Alphabet) passphrase (opts : HoneyOptions) (m : Mundo n K),
      tokens ≠ [] → tokens.length ≤ maxTokens → (∀ t ∈ tokens, t.toNat < alphabet.size.toNat) →
      opts.kdfParams.isSane = true →
        (∀ salt m₁, (pedirRng 16 : Prog (Mundo n K) HoneyError (Arr 16)) m = .ok salt m₁ →
          ∃ blob m', encrypt kdf tokens alphabet passphrase opts m = .ok blob m') ∧
        ∀ blob m', encrypt kdf tokens alphabet passphrase opts m = .ok blob m' →
          decrypt kdf blob passphrase opts.pepper = .ok tokens) ∧
    (∀ a len ks, ks ∈ Secuencias a len →
      Set.BijOn (abiertas a ks) (Secuencias a len) (Secuencias a len)) ∧
    (∀ h : Cabecera, h.Admisible → ∀ passphrase pepper,
      flujoDe kdf h passphrase pepper ∈ Secuencias h.size h.len.toNat ∧
        ∀ ws, ws.length = h.len.toNat →
          decrypt kdf (h.toBytes ++ (ws.map u16Be).flatten) passphrase pepper =
            .ok (abiertas h.size (flujoDe kdf h passphrase pepper) ws)) ∧
    ∀ a len ws ts, ws.length = len → ts ∈ Secuencias a len →
      ∃ ks ∈ Secuencias a len, abiertas a ks ws = ts := by
  refine ⟨?_, fun a len ks hks => bijOn_abiertas hks, ?_,
    fun a len ws ts hws hts => exists_abiertas hws hts⟩
  · intro n tokens alphabet passphrase opts m hpos hmax ht hs
    refine ⟨fun salt m₁ hsalt => encrypt_acepta hpos hmax ht (hA _ hs) hsalt,
      fun blob m' h => ?_⟩
    exact (decrypt_encrypt_iff h).mpr hs
  · intro h hadm passphrase pepper
    refine ⟨flujoDe_mem hadm passphrase pepper, fun ws hws => ?_⟩
    exact decrypt_palabras hadm (hA _ hadm.sano) hws passphrase pepper

theorem honey_alcance_pin :
    (∃ blob m', encrypt (Kdf.libre id) [4, 9, 1, 3] Alphabet.digits "correcta" ⟨[], ⟨64, 1, 1⟩⟩
        (Mundo.sereno : Mundo 24 ClaveLibre) = .ok blob m' ∧
      decrypt (Kdf.libre id) blob "correcta" [] = .ok [4, 9, 1, 3]) ∧
    Set.BijOn (abiertas 65535 [65534, 0]) (Secuencias 65535 2) (Secuencias 65535 2) ∧
    (∀ ws, ws.length = 2 → decrypt (Kdf.libre id) (Cabecera.toBytes ⟨ajustar 16 [], ⟨64, 1, 1⟩,
        65535, 2⟩ ++ (ws.map u16Be).flatten) "a" [] = .ok (abiertas 65535
          (flujoDe (Kdf.libre id) ⟨ajustar 16 [], ⟨64, 1, 1⟩, 65535, 2⟩ "a" []) ws)) ∧
    ∃ ks ∈ Secuencias 65535 2, abiertas 65535 ks [65535, 3] = [65534, 0] := by
  obtain ⟨hvuelta, hbij, hdec, halcanza⟩ :=
    honey_alcance (Kdf.libre id) (Kdf.libre_aceptaSanos id)
  have hts : [65534, 0] ∈ Secuencias 65535 2 := by
    refine ⟨rfl, ?_⟩
    intro t ht
    rcases List.mem_cons.mp ht with rfl | ht
    · exact Nat.lt_succ_self 65534
    · rw [List.mem_singleton.mp ht]
      exact Nat.succ_pos 65534
  refine ⟨?_, hbij 65535 2 _ hts, ?_, halcanza 65535 2 [65535, 3] [65534, 0] rfl hts⟩
  · obtain ⟨hcifra, habre⟩ := hvuelta 24 [4, 9, 1, 3] Alphabet.digits "correcta"
      ⟨[], ⟨64, 1, 1⟩⟩ .sereno (by decide) (by decide) (by simp [Alphabet.digits]) (by decide)
    obtain ⟨blob, m', h⟩ := hcifra _ _ (pedirRng_sereno 16)
    exact ⟨blob, m', h, habre blob m' h⟩
  · have hadm : Cabecera.Admisible ⟨ajustar 16 [], ⟨64, 1, 1⟩, 65535, 2⟩ :=
      ⟨by decide, by decide, by decide⟩
    exact (hdec _ hadm "a" []).2

end Honey

end Quipu
