import Quipu.HoneyWriter
import Quipu.PasswordSereno

namespace Quipu

/-- What each writer of the family returned, its reader opens exactly if the cost is within that
reader's own bounds. -/
theorem lector_abre_iff {M K : Type} (kdf : Kdf M K) (aead : Aead 24 K) (aeadCnsa : Aead 12 K)
    (hU : aead.Undoes) (hU' : aeadCnsa.Undoes) (passphrase : String) (pepper : List UInt8)
    (params : KdfParams) (huella : Arr 8) (data : Slice) (tokens : List UInt16)
    (alphabet : Honey.Alphabet) (blob : List UInt8) :
    (∀ m m', Api.encodeToBlob kdf aead data.1 passphrase huella ⟨pepper, params⟩ m = .ok blob m' →
      (Api.decodeFromBlob kdf aead blob passphrase huella pepper = .ok data.1 ↔
        params.isSane = true)) ∧
    (∀ m m' : Mundo 24 K,
      Honey.encrypt kdf tokens alphabet passphrase ⟨pepper, params⟩ m = .ok blob m' →
      (Honey.decrypt kdf blob passphrase pepper = .ok tokens ↔ params.isSane = true)) ∧
    ∀ m m', Cnsa.encodeToBlob kdf aeadCnsa data.1 passphrase huella ⟨params, pepper⟩ m =
        .ok blob m' →
      (Cnsa.decodeFromBlob kdf aeadCnsa blob passphrase huella pepper = .ok data.1 ↔
        params.isSaneUpTo 32 = true) := by
  refine ⟨fun m m' h => ?_, fun m m' h => Honey.decrypt_encrypt_iff h, fun m m' h => ?_⟩
  · rw [Api.encodeToBlob] at h
    obtain ⟨_, _, _, h⟩ := Prog.bind_ok.mp h
    obtain ⟨_, _, _, h⟩ := Prog.bind_ok.mp h
    exact Modo.descifrar_cifrar_iff hU data.2 h
  · rw [Cnsa.encodeToBlob] at h
    obtain ⟨_, _, _, h⟩ := Prog.bind_ok.mp h
    obtain ⟨_, _, _, h⟩ := Prog.bind_ok.mp h
    exact Modo.descifrar_cifrar_iff hU' data.2 h

section Sereno

variable {M K : Type} {kdf : Kdf M K} {params : KdfParams}

theorem exists_honey_encrypt (ha : kdf.acepta params = true) {tokens : List UInt16}
    {alphabet : Honey.Alphabet} (hpos : tokens ≠ []) (hmax : tokens.length ≤ Honey.maxTokens)
    (ht : tokens.any (fun t => alphabet.size ≤ t) = false) (passphrase : String)
    (pepper : List UInt8) :
    ∃ blob m', Honey.encrypt kdf tokens alphabet passphrase ⟨pepper, params⟩
      (.sereno : Mundo 24 K) = .ok blob m' := by
  obtain ⟨c, hc⟩ : ∃ c : Honey.Cabecera, c = ⟨Aleatorio.tomar UInt8.ofNat 16, params,
    alphabet.size, UInt32.ofNat tokens.length⟩ := ⟨_, rfl⟩
  have hlen : c.len.toNat = tokens.length := by
    unfold Honey.maxTokens at hmax
    rw [hc]
    simp only [UInt32.toNat_ofNat']
    omega
  have hac : kdf.acepta c.params = true := hc ▸ ha
  have hks := Honey.keystreamDigits_ok hac (hlen.symm ▸ hmax) passphrase pepper
  rw [hlen] at hks
  subst hc
  have hw := Honey.mapM_cerrarToken (a := alphabet.size)
    ((Honey.length_flujoDe kdf _ passphrase pepper).trans hlen)
  rw [Honey.encrypt, Prog.rechazarSi_bind_of_not _ (by simp [hpos, hmax]),
    Prog.rechazarSi_bind_of_not _ (by simp [ht]), Prog.bind_of_ok (pedirRng_sereno 16),
    Prog.bind_of_ok registrar_apply, Prog.deRes_bind_of_ok hks, Prog.deRes_bind_of_ok hw]
  exact ⟨_, _, rfl⟩

end Sereno

theorem lector_abre_iff_tres :
    ∃ blob m', Api.encodeToBlob (Kdf.libre id) Aead.deMarca [1] "a" (List.Vector.replicate 8 0)
        ⟨[], ⟨64, 3, 1⟩⟩ .sereno = .ok blob m' ∧
      Api.decodeFromBlob (Kdf.libre id) Aead.deMarca blob "a" (List.Vector.replicate 8 0) [] =
        .ok [1] := by
  have ha : (Kdf.libre id).acepta ⟨64, 3, 1⟩ = true := rfl
  obtain ⟨salt, nonce, m', h⟩ :=
    exists_encodeToBlob ha Aead.deMarca [1] "a" [] (List.Vector.replicate 8 0)
  exact ⟨_, m', h, ((lector_abre_iff (Kdf.libre id) Aead.deMarca Aead.deMarca
    Aead.deMarca_undoes Aead.deMarca_undoes "a" [] ⟨64, 3, 1⟩ (List.Vector.replicate 8 0)
    ⟨[1], by decide⟩ [1] Honey.Alphabet.digits _).1 .sereno m' h).mpr (by decide)⟩

/-- Each writer accepts a cost that Argon2 takes and its own reader then refuses. -/
theorem not_lector_abre :
    (Kdf.libre id).acepta ⟨64, 17, 1⟩ = true ∧ (Kdf.libre id).acepta ⟨64, 33, 1⟩ = true ∧
    (∃ blob m', Api.encodeToBlob (Kdf.libre id) Aead.deMarca [1] "a" (List.Vector.replicate 8 0)
        ⟨[], ⟨64, 17, 1⟩⟩ .sereno = .ok blob m' ∧
      Api.decodeFromBlob (Kdf.libre id) Aead.deMarca blob "a" (List.Vector.replicate 8 0) [] =
        .error (.error .decrypt)) ∧
    (∃ blob m', Honey.encrypt (Kdf.libre id) [1] Honey.Alphabet.digits "a" ⟨[], ⟨64, 17, 1⟩⟩
        (.sereno : Mundo 24 ClaveLibre) = .ok blob m' ∧
      Honey.decrypt (Kdf.libre id) blob "a" [] ≠ .ok [1]) ∧
    ∃ blob m', Cnsa.encodeToBlob (Kdf.libre id) Aead.deMarca [1] "a" (List.Vector.replicate 8 0)
        ⟨⟨64, 33, 1⟩, []⟩ .sereno = .ok blob m' ∧
      Cnsa.decodeFromBlob (Kdf.libre id) Aead.deMarca blob "a" (List.Vector.replicate 8 0) [] =
        .error (.error .decrypt) := by
  have h17 : (Kdf.libre id).acepta ⟨64, 17, 1⟩ = true := rfl
  have h33 : (Kdf.libre id).acepta ⟨64, 33, 1⟩ = true := rfl
  refine ⟨h17, h33, ?_, ?_, ?_⟩
  · obtain ⟨salt, nonce, m', h⟩ :=
      exists_encodeToBlob h17 Aead.deMarca [1] "a" [] (List.Vector.replicate 8 0)
    exact ⟨_, m', h, Modo.descifrar_serialize Aead.deMarca_undoes (by decide) (by decide)⟩
  · have ht : [1].any (fun t => Honey.Alphabet.digits.size ≤ t) = false := by decide
    obtain ⟨blob, m', h⟩ := exists_honey_encrypt h17 (by decide) (by decide) ht "a" []
    exact ⟨blob, m', h, fun hd => absurd ((Honey.decrypt_encrypt_iff h).mp hd) (by decide)⟩
  · obtain ⟨salt, nonce, m', h⟩ :=
      exists_encodeToBlob_cnsa h33 Aead.deMarca [1] "a" [] (List.Vector.replicate 8 0)
    exact ⟨_, m', h, Modo.descifrar_serialize Aead.deMarca_undoes (by decide) (by decide)⟩

end Quipu
