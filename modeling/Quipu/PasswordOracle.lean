import Quipu.PasswordMalleability

namespace Quipu

open Container

variable {n : Nat} {M K ε : Type}

/-- Blobs with the same first bytes have the same header, or the same error. -/
theorem Container.parse_fst_congr {s n : Nat} {b b' : List UInt8}
    (h : b.take (Header.size s n) = b'.take (Header.size s n)) :
    Prod.fst <$> parse s n b = Prod.fst <$> parse s n b' := by
  have hlen : b.length < Header.size s n ↔ b'.length < Header.size s n := by
    have := congrArg List.length h
    rw [List.length_take, List.length_take] at this
    omega
  by_cases hl : b.length < Header.size s n
  · rw [parse, parse, rechazarSi_of _ hl, rechazarSi_of _ (hlen.mp hl), Res.error_bind,
      Res.error_bind]
  · have ht : (b.take (Header.size s n)).length = Header.size s n :=
      List.length_take_of_le (Nat.not_lt.mp hl)
    have ht' : (b'.take (Header.size s n)).length = Header.size s n :=
      List.length_take_of_le (Nat.not_lt.mp (mt hlen.mpr hl))
    rw [parse_of_head (List.take_append_drop (Header.size s n) b).symm ht,
      parse_of_head (List.take_append_drop (Header.size s n) b').symm ht', h]
    simp only [map_bind, map_pure]

namespace Modo

/-- What the reader looks at before any secret: the header, the fingerprint and the cost. -/
def examinar (modo : Modo ε) (blob : List UInt8) (huella : Arr 8) : Res ε (Header 16 n) := do
  let header ← Res.mapErr modo.container (Prod.fst <$> parse 16 n blob)
  rechazarSi (header.codebookHashPrefix ≠ huella) modo.codebookMismatch
  rechazarSi (header.params.isSaneUpTo modo.maxIterations = false) modo.decrypt
  pure header

variable {modo : Modo ε} {huella : Arr 8} {b b' : List UInt8}

theorem examinar_congr (h : b.take (Header.size 16 n) = b'.take (Header.size 16 n)) :
    (modo.examinar b huella : Res ε (Header 16 n)) = modo.examinar b' huella := by
  rw [examinar, examinar, parse_fst_congr h]

theorem examinar_eq (b : List UInt8) (huella : Arr 8) :
    (modo.examinar b huella : Res ε (Header 16 n)) =
      match parse 16 n b with
      | .error e => .error (e.map modo.container)
      | .ok (header, _) =>
        if header.codebookHashPrefix ≠ huella then fallar modo.codebookMismatch
        else if header.params.isSaneUpTo modo.maxIterations = false then fallar modo.decrypt
        else .ok header := by
  rw [examinar]
  cases parse 16 n b with
  | error e => rfl
  | ok a =>
    have ha : Res.mapErr modo.container (Prod.fst <$> (.ok a : Res ContainerError _)) =
        .ok a.1 := rfl
    rw [ha, Res.ok_bind, rechazarSi_bind, rechazarSi_bind]
    rfl

/-- A blob refused for what it shows is refused with that error under every secret. -/
theorem descifrar_of_examinar_error {e : Fallo ε}
    (h : (modo.examinar b huella : Res ε (Header 16 n)) = .error e) (kdf : Kdf M K)
    (aead : Aead n K) (passphrase : String) (pepper : List UInt8) :
    modo.descifrar kdf aead b passphrase huella pepper = .error e := by
  rw [examinar_eq] at h
  rw [descifrar]
  cases hp : parse 16 n b with
  | error e' =>
    rw [hp] at h
    cases h
    rfl
  | ok a =>
    obtain ⟨header, ciphertext⟩ := a
    rw [hp] at h
    rw [Res.mapErr_ok, Res.ok_bind]
    simp only [rechazarSi_bind] at h ⊢
    split at h
    next hh =>
      rw [if_pos hh]
      cases h
      rfl
    next hh =>
      rw [if_neg hh]
      split at h
      next hs =>
        rw [if_pos hs]
        cases h
        rfl
      next => cases h

/-- Past that point the reader opens the blob or says `Decrypt`, whatever went wrong. -/
theorem descifrar_of_examinar_ok {header : Header 16 n}
    (h : (modo.examinar b huella : Res ε (Header 16 n)) = .ok header) {kdf : Kdf M K}
    (ha : ∀ p : KdfParams, p.isSaneUpTo modo.maxIterations = true → kdf.acepta p = true)
    (aead : Aead n K) (passphrase : String) (pepper : List UInt8) :
    (∃ d, modo.descifrar kdf aead b passphrase huella pepper = .ok d) ∨
      modo.descifrar kdf aead b passphrase huella pepper = fallar modo.decrypt := by
  rw [examinar_eq] at h
  rw [descifrar]
  cases hp : parse 16 n b with
  | error e' =>
    rw [hp] at h
    cases h
  | ok a =>
    obtain ⟨header', ciphertext⟩ := a
    rw [hp] at h
    rw [Res.mapErr_ok, Res.ok_bind]
    simp only [rechazarSi_bind] at h ⊢
    split at h
    next => cases h
    next hh =>
      rw [if_neg hh]
      split at h
      next => cases h
      next hs =>
        rw [if_neg hs, deriveMasterKey_ok (ha _ (by simpa using hs)), Res.ok_bind]
        split
        next => exact Or.inr rfl
        next =>
          split
          next => exact Or.inr rfl
          next d _ => exact Or.inl ⟨d, rfl⟩

theorem examinar_sinPanico (b : List UInt8) (huella : Arr 8) :
    (modo.examinar b huella : Res ε (Header 16 n)).SinPanico := by
  rw [examinar_eq]
  rcases parse_sinPanico (s := 16) (n := n) b with ⟨a, ha⟩ | ⟨e, he⟩
  · rw [ha]
    exact Res.sinPanico_ite fun _ => Res.sinPanico_ite fun _ => Res.sinPanico_ok _
  · rw [he]
    exact Or.inr ⟨modo.container e, rfl⟩

end Modo

/-- The reader is no oracle: an error tells nothing of the secrets, all that is not `Decrypt` is
told by the header and the fingerprint, and past the header there is no other error. -/
theorem Api.decodeFromBlob_sinOraculo (kdf : Kdf M K) (ha : kdf.AceptaSanos) (aead : Aead 24 K)
    (b : List UInt8) (huella : Arr 8) :
    (∀ passphrase pepper, (decodeFromBlob kdf aead b passphrase huella pepper).SinPanico) ∧
      (∀ passphrase pepper passphrase' pepper' e e',
        decodeFromBlob kdf aead b passphrase huella pepper = .error e →
        decodeFromBlob kdf aead b passphrase' huella pepper' = .error e' → e = e') ∧
      (∀ passphrase pepper e, decodeFromBlob kdf aead b passphrase huella pepper = fallar e →
        e ≠ .decrypt → ∀ (M' K' : Type) (kdf' : Kdf M' K') (aead' : Aead 24 K') b' passphrase'
          pepper', b'.take (Header.size 16 24) = b.take (Header.size 16 24) →
          decodeFromBlob kdf' aead' b' passphrase' huella pepper' = fallar e) ∧
      ∀ header c, parse 16 24 b = .ok (header, c) → header.codebookHashPrefix = huella →
        header.params.isSane = true → ∀ passphrase pepper,
          (∃ d, decodeFromBlob kdf aead b passphrase huella pepper = .ok d) ∨
            decodeFromBlob kdf aead b passphrase huella pepper = fallar .decrypt := by
  have hex : (modo.examinar b huella : Res DecodeError (Header 16 24)).SinPanico :=
    Modo.examinar_sinPanico b huella
  rcases hex with ⟨header, hok⟩ | ⟨e₀, he₀⟩
  · have hcases := Modo.descifrar_of_examinar_ok hok ha aead
    have herr : ∀ passphrase pepper e,
        decodeFromBlob kdf aead b passphrase huella pepper = .error e → e = .error .decrypt := by
      intro passphrase pepper e h
      rcases hcases passphrase pepper with ⟨d, hd⟩ | hd
      · cases hd.symm.trans h
      · exact (Except.error.inj (hd.symm.trans h)).symm
    refine ⟨fun passphrase pepper => ?_, ?_, ?_, fun _ _ _ _ _ => hcases⟩
    · rcases hcases passphrase pepper with hd | hd
      · exact Or.inl hd
      · exact Or.inr ⟨.decrypt, hd⟩
    · intro passphrase pepper passphrase' pepper' e e' h h'
      rw [herr _ _ _ h, herr _ _ _ h']
    · intro passphrase pepper e h hne
      exact absurd (Fallo.error.inj (herr _ _ _ h)) hne
  · have hfail := fun passphrase pepper =>
      Modo.descifrar_of_examinar_error he₀ kdf aead passphrase pepper
    refine ⟨fun passphrase pepper => Or.inr ⟨e₀, hfail passphrase pepper⟩, ?_, ?_, ?_⟩
    · intro passphrase pepper passphrase' pepper' e e' h h'
      exact Except.error.inj (h.symm.trans ((hfail _ _).trans ((hfail _ _).symm.trans h')))
    · intro passphrase pepper e h _ M' K' kdf' aead' b' passphrase' pepper' hb
      rw [← Modo.examinar_congr hb] at he₀
      rw [← h, decodeFromBlob, decodeFromBlob, Modo.descifrar_of_examinar_error he₀]
      exact (hfail passphrase pepper).symm
    · intro header c hp hh hs
      have hs' : ¬header.params.isSaneUpTo modo.maxIterations = false := by
        rw [Bool.not_eq_false]
        exact hs
      rw [Modo.examinar_eq, hp] at he₀
      simp only [if_neg (not_not.mpr hh), if_neg hs'] at he₀
      cases he₀

/-- A whole container, read with another passphrase and with another pepper. -/
theorem Api.decodeFromBlob_sinOraculo_ajenas :
    ∃ sellos blob m', encodeToBlob (Kdf.libre id) (Aead.deRegistro marcar sellos) [1, 2] "a"
        (List.Vector.replicate 8 0) ⟨[], ⟨64, 1, 1⟩⟩ .sereno = .ok blob m' ∧
      decodeFromBlob (Kdf.libre id) (Aead.deRegistro marcar sellos) blob "a"
        (List.Vector.replicate 8 0) [] = .ok [1, 2] ∧
      decodeFromBlob (Kdf.libre id) (Aead.deRegistro marcar sellos) blob "b"
        (List.Vector.replicate 8 0) [] = fallar .decrypt ∧
      decodeFromBlob (Kdf.libre id) (Aead.deRegistro marcar sellos) blob "a"
        (List.Vector.replicate 8 0) [7] = fallar .decrypt := by
  have ha : (Kdf.libre id).acepta ⟨64, 1, 1⟩ = true := by decide
  have hsano : KdfParams.isSane ⟨64, 1, 1⟩ = true := by decide
  obtain ⟨blob, m', h⟩ : ∃ blob m', encodeToBlob (Kdf.libre id) (Aead.deRegistro marcar []) [1, 2]
      "a" (List.Vector.replicate 8 0) ⟨[], ⟨64, 1, 1⟩⟩ .sereno = .ok blob m' := by
    obtain ⟨_, _, m', h⟩ := exists_encodeToBlob ha (Aead.deRegistro marcar []) [1, 2] "a" []
      (List.Vector.replicate 8 0)
    exact ⟨_, m', h⟩
  obtain ⟨salt, nonce, m₁, hm₁, hc⟩ := encodeToBlob_escribe _ _ _ _ _ _ _ _ _ _ h
  obtain ⟨_, hblob, hm'⟩ := Modo.cifrar_eq_ok.mp hc
  have hsellos : m'.sellos = [modo.selloDe (Kdf.libre id) (Aead.deRegistro marcar []) [1, 2] "a"
      (List.Vector.replicate 8 0) ⟨64, 1, 1⟩ [] salt nonce] := by
    rw [hm', hm₁]
    rfl
  have hideal : (Aead.deRegistro marcar m'.sellos).Ideal m'.sellos :=
    Aead.deRegistro_ideal marcar fun t ht u hu _ _ _ _ => by
      rw [hsellos] at ht hu
      rw [List.mem_singleton.mp ht, List.mem_singleton.mp hu]
  have hajena : ∀ passphrase pepper, utf8 passphrase ++ pepper ≠ utf8 "a" →
      decodeFromBlob (Kdf.libre id) (Aead.deRegistro marcar m'.sellos) blob passphrase
        (List.Vector.replicate 8 0) pepper = fallar .decrypt := by
    intro passphrase pepper hne
    have hley := decodeFromBlob_sinOraculo (Kdf.libre id) (Kdf.libre_aceptaSanos id)
      (Aead.deRegistro marcar m'.sellos) blob (List.Vector.replicate 8 0)
    have hparse := parse_serialize (h := cabeceraDe (List.Vector.replicate 8 0) ⟨64, 1, 1⟩ salt
      nonce) rfl rfl (modo.selloDe (Kdf.libre id) (Aead.deRegistro marcar []) [1, 2] "a"
      (List.Vector.replicate 8 0) ⟨64, 1, 1⟩ [] salt nonce).ciphertext
    rw [← hblob] at hparse
    refine (hley.2.2.2 _ _ hparse rfl hsano passphrase pepper).resolve_left ?_
    rintro ⟨d, hd⟩
    obtain ⟨header, c, padded, hp, habre, _⟩ := Modo.descifrar_eq_ok hd
    cases hparse.symm.trans hp
    have hmem := (hideal _ _ _ _ _).mp habre
    rw [hsellos] at hmem
    have hkey := congrArg Sello.key (List.mem_singleton.mp hmem)
    have hsecreto := congrArg (fun k : ClaveLibre => k.1.1) hkey
    exact hne (hsecreto.trans (List.append_nil _))
  refine ⟨m'.sellos, blob, m', h, ?_, hajena "b" [] ?_, hajena "a" [7] ?_⟩
  · have habre := (hideal _ _ _ _ _).mpr (hsellos ▸ List.mem_singleton_self _)
    rw [hblob]
    exact Modo.descifrar_serialize_of_abre (by decide) ha habre
  · rw [List.append_nil]
    exact fun he => absurd (utf8_inj he) (by decide)
  · exact fun he => absurd (congrArg List.length he) (by decide)

end Quipu
