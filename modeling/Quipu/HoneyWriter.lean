import Quipu.Chunks
import Quipu.HoneyTokens

namespace Quipu

namespace Honey

variable {n : Nat} {M K ε : Type} {kdf : Kdf M K}

@[simp] theorem Cabecera.length_toBytes (h : Cabecera) : h.toBytes.length = headerLen := by
  simp [Cabecera.toBytes, magic, headerLen]

/-- A header that was written is read back, unless its cost is out of range. -/
theorem leerCabecera_toBytes {h : Cabecera} {cuerpo : List UInt8} (ha : 2 ≤ h.size.toNat)
    (hl : 0 < h.len.toNat ∧ h.len.toNat ≤ maxTokens) (hc : cuerpo.length = h.len.toNat * 2) :
    leerCabecera (h.toBytes ++ cuerpo) =
      if h.params.isSane then .ok h else fallar .insaneKdf := by
  obtain ⟨salt, ⟨mem, iter, par⟩, size, len⟩ := h
  simp only at ha hl hc
  generalize hb : Cabecera.toBytes ⟨salt, ⟨mem, iter, par⟩, size, len⟩ ++ cuerpo = b
  have hlen : b.length = headerLen + cuerpo.length := by
    rw [← hb, List.length_append, Cabecera.length_toBytes]
  simp only [Cabecera.toBytes, List.append_assoc] at hb
  have hmagic : b.take 4 = magic := by
    rw [← hb]
    rfl
  have r : Sigue b 4 (version :: (salt.toList ++ (u32Be mem ++ (u32Be iter ++ (u32Be par ++
      (u16Be size ++ (u32Be len ++ cuerpo))))))) := ⟨magic, hb.symm, rfl⟩
  obtain ⟨h₀, r⟩ := r.octeto (ε := HoneyError)
  obtain ⟨h₁, r⟩ := r.campo (ε := HoneyError)
  obtain ⟨h₂, r⟩ := r.leerU32 (ε := HoneyError)
  obtain ⟨h₃, r⟩ := r.leerU32 (ε := HoneyError)
  obtain ⟨h₄, r⟩ := r.leerU32 (ε := HoneyError)
  obtain ⟨a, h₅, hsize, r⟩ := r.campoU16 (ε := HoneyError)
  obtain ⟨h₆, -⟩ := r.leerU32 (ε := HoneyError)
  simp only [Nat.reduceAdd] at h₁ h₂ h₃ h₄ h₅ h₆
  rw [leerCabecera, hlen, rechazarSi_of_not _ (by omega)]
  simp only [hmagic, h₀, h₁, h₂, h₃, h₄, h₅, h₆, hsize, Res.ok_bind, rechazarSi_bind]
  rw [if_neg (not_not.mpr rfl), if_neg (not_not.mpr rfl),
    if_neg (show ¬size < 2 from Nat.not_lt.mpr ha), if_neg (by omega)]
  by_cases hsano : KdfParams.isSane ⟨mem, iter, par⟩ = true
  · rw [if_neg (by simp [hsano]), if_pos hsano, if_neg (by omega)]
    rfl
  · rw [if_pos (by simpa using hsano), if_neg hsano]

def palabras (a : UInt16) (ks tokens : List UInt16) : List (List UInt8) :=
  tokens.mapIdx fun i t => u16Be (cerrada a (ks.getD i 0) t)

theorem length_palabra {a : UInt16} {ks tokens : List UInt16} :
    ∀ w ∈ palabras a ks tokens, w.length = 2 := by
  intro w hw
  obtain ⟨i, _, rfl⟩ := List.mem_mapIdx.mp hw
  exact length_u16Be _

theorem mapM_cerrarToken {a : UInt16} {ks tokens : List UInt16} (h : ks.length = tokens.length) :
    (tokens.zipIdx.mapM fun ti => cerrarToken a ks ti.1 ti.2) = .ok (palabras a ks tokens) := by
  rw [palabras, List.mapIdx_eq_zipIdx_map]
  apply Res.mapM_of_ok
  rintro ⟨t, i⟩ hti
  have hi : i < ks.length := by
    obtain ⟨_, hi, _⟩ := List.mem_zipIdx hti
    omega
  have hd : ks.getD i 0 = ks[i] := by
    rw [List.getD_eq_getElem?_getD, List.getElem?_eq_getElem hi, Option.getD_some]
  simp only [cerrarToken, indice_ok hi, Res.ok_bind, hd]
  rfl

/-- What `encrypt` returns: its header and the words of the tokens. -/
theorem encrypt_ok {tokens : List UInt16} {alphabet : Alphabet} {passphrase : String}
    {opts : HoneyOptions} {m m' : Mundo n K} {blob : List UInt8}
    (h : encrypt kdf tokens alphabet passphrase opts m = .ok blob m') :
    ∃ salt : Arr 16, ∃ c : Cabecera,
      c = ⟨salt, opts.kdfParams, alphabet.size, UInt32.ofNat tokens.length⟩ ∧
      kdf.acepta opts.kdfParams = true ∧ 0 < tokens.length ∧ tokens.length ≤ maxTokens ∧
      (∀ t ∈ tokens, t.toNat < alphabet.size.toNat) ∧
      blob = c.toBytes ++
        (palabras alphabet.size (flujoDe kdf c passphrase opts.pepper) tokens).flatten := by
  simp only [encrypt, Prog.bind_ok, Prog.rechazarSi, Prog.deRes_eq_ok, rechazarSi_eq_ok] at h
  obtain ⟨_, _, ⟨hl, _⟩, _, _, ⟨ht, _⟩, salt, _, _, _, _, _, ks, _, ⟨hks, _⟩, ws, _, ⟨hws, _⟩,
    hb⟩ := h
  rw [not_or, Nat.not_lt] at hl
  obtain ⟨c, hc⟩ : ∃ c : Cabecera,
    c = ⟨salt, opts.kdfParams, alphabet.size, UInt32.ofNat tokens.length⟩ := ⟨_, rfl⟩
  have hlen : c.len.toNat = tokens.length := by
    have hmax := hl.2
    unfold maxTokens at hmax
    rw [hc]
    simp only [UInt32.toNat_ofNat']
    omega
  have ha : kdf.acepta opts.kdfParams = true := by
    rw [keystreamDigits] at hks
    obtain ⟨_, hm, _⟩ := Res.bind_ok.mp hks
    exact (deriveMasterKey_eq_ok.mp hm).1
  have hac : kdf.acepta c.params = true := hc ▸ ha
  have hflujo := keystreamDigits_ok hac (hlen.symm ▸ hl.2) passphrase opts.pepper
  rw [hlen] at hflujo
  have hks' : ks = flujoDe kdf c passphrase opts.pepper := by
    subst hc
    exact Except.ok.inj (hks.symm.trans hflujo)
  have hksl : ks.length = tokens.length := by rw [hks', length_flujoDe, hlen]
  rw [mapM_cerrarToken hksl] at hws
  cases hws
  cases hb
  refine ⟨salt, c, hc, ha, List.length_pos_iff.mpr hl.1, hl.2, fun t htm => ?_,
    by rw [← hks', hc]⟩
  simp only [List.any_eq_true, decide_eq_true_eq, not_exists, not_and] at ht
  exact Nat.not_le.mp (ht t htm)

theorem tokensDe_palabras {a : UInt16} {ks tokens : List UInt16} {head : List UInt8}
    (hh : head.length = headerLen) (hl : ks.length = tokens.length)
    (hk : ∀ k ∈ ks, k.toNat < a.toNat) (ht : ∀ t ∈ tokens, t.toNat < a.toNat) :
    tokensDe (head ++ (palabras a ks tokens).flatten) a ks = tokens := by
  refine List.ext_getElem (by simp [tokensDe, hl]) fun i h₁ h₂ => ?_
  have hi : i < ks.length := by simpa [tokensDe] using h₁
  have hw : i < (palabras a ks tokens).length := by simpa [palabras] using h₂
  have hp : palabra (head ++ (palabras a ks tokens).flatten) i = cerrada a ks[i] tokens[i] := by
    rw [palabra, ← hh, ← List.drop_drop, List.drop_left, take_drop_flatten length_palabra hw]
    simp [palabras, hi]
  simp only [tokensDe, List.getElem_mapIdx, hp]
  exact abierta_cerrada (ht _ (List.getElem_mem h₂)) (hk _ (List.getElem_mem hi))

/-- A blob that `encrypt` returned reads back as the header it was written with. -/
theorem leerCabecera_encrypt {tokens : List UInt16} {alphabet : Alphabet} {passphrase : String}
    {opts : HoneyOptions} {m m' : Mundo n K} {blob : List UInt8}
    (h : encrypt kdf tokens alphabet passphrase opts m = .ok blob m') :
    ∃ c : Cabecera, c.size = alphabet.size ∧ c.len.toNat = tokens.length ∧
      c.params = opts.kdfParams ∧ kdf.acepta opts.kdfParams = true ∧
      (∀ t ∈ tokens, t.toNat < alphabet.size.toNat) ∧
      blob = c.toBytes ++
        (palabras alphabet.size (flujoDe kdf c passphrase opts.pepper) tokens).flatten ∧
      leerCabecera blob = if opts.kdfParams.isSane then .ok c else fallar .insaneKdf := by
  obtain ⟨salt, c, hc, ha, hpos, hmax, ht, rfl⟩ := encrypt_ok h
  have hlen : c.len.toNat = tokens.length := by
    unfold maxTokens at hmax
    rw [hc]
    simp only [UInt32.toNat_ofNat']
    omega
  have hsize : c.size = alphabet.size := by rw [hc]
  have hparams : c.params = opts.kdfParams := by rw [hc]
  have hcuerpo : (palabras alphabet.size (flujoDe kdf c passphrase opts.pepper)
      tokens).flatten.length = c.len.toNat * 2 := by
    rw [length_flatten_of_length length_palabra, palabras, List.length_mapIdx, hlen]
  have hleida := leerCabecera_toBytes (h := c) (hsize.symm ▸ alphabet.dos)
    (by rw [hlen]; exact ⟨hpos, hmax⟩) hcuerpo
  rw [hparams] at hleida
  exact ⟨c, hsize, hlen, hparams, ha, ht, rfl, hleida⟩

/-- What `encrypt` returned, `decrypt` opens exactly if the cost is in range. -/
theorem decrypt_encrypt_iff {tokens : List UInt16} {alphabet : Alphabet} {passphrase : String}
    {opts : HoneyOptions} {m m' : Mundo n K} {blob : List UInt8}
    (h : encrypt kdf tokens alphabet passphrase opts m = .ok blob m') :
    decrypt kdf blob passphrase opts.pepper = .ok tokens ↔ opts.kdfParams.isSane = true := by
  obtain ⟨c, hsize, hlen, hparams, ha, ht, rfl, hleida⟩ := leerCabecera_encrypt h
  by_cases hs : opts.kdfParams.isSane = true
  · rw [if_pos hs] at hleida
    have hk : ∀ k ∈ flujoDe kdf c passphrase opts.pepper, k.toNat < alphabet.size.toNat := by
      rw [← hsize]
      exact fun k hk => digitos_lt (hsize.symm ▸ Nat.zero_lt_of_lt alphabet.dos) hk
    rw [decrypt_eq hleida (hparams.symm ▸ ha), hsize,
      tokensDe_palabras c.length_toBytes (by rw [length_flujoDe, hlen]) hk ht]
    simp [hs]
  · rw [if_neg hs] at hleida
    simp [decrypt, hleida, hs, fallar]

end Honey

end Quipu
