import Quipu.Libre
import Quipu.StreamSeals

namespace Quipu

namespace Stream

variable {M K : Type}

theorem readExactOrHeaderErr_exacto {σ : Type} {f : Flujo σ} {bs rs : List UInt8}
    (hl : f.lector.SinFallas) (h : f.lector.resto = bs ++ rs) :
    ∃ l, readExactOrHeaderErr bs.length f = .ok bs { f with lector := l } ∧ l.resto = rs ∧
      l.SinFallas := by
  obtain ⟨l, hr, hrs, hl'⟩ := readChunk_exacto hl h
  exact ⟨l, readExactOrHeaderErr_eq_ok.mpr ⟨leer_eq_ok.mpr ⟨hr, rfl⟩, rfl⟩, hrs, hl'⟩

/-- Over a reader that does not fail, the blocks of a framed list come out one by one. -/
theorem decryptLoop_bloques {aead : Aead 24 K} (hU : aead.Undoes) (hT : aead.AddsTag) {key : K}
    {pre : Arr 19} {aad : List UInt8} {c : Nat} {bs : List (List UInt8)}
    (hbs : Framed c bs) (hlen : bs.length ≤ 2 ^ 32) {f : Flujo Escritor} {salida : List UInt8}
    (hl : f.lector.SinFallas) (hw : f.estado = .vec salida)
    (hr : f.lector.resto = (bloques (sellados aead key pre aad 0 bs)).flatten) :
    ∃ cur f₁ f', leer (c + tagLen) f = .ok cur f₁ ∧ tagLen ≤ cur.length ∧
      decryptLoop aead key pre aad (c + tagLen) cur f₁ = .ok () f' ∧
      f'.estado = .vec (salida ++ bs.flatten) := by
  have hc : 0 < c + tagLen := by simp [tagLen]
  have hfr : Framed (c + tagLen) (bloques (sellados aead key pre aad 0 bs)) :=
    framed_bloques_sellados hT 0 hbs
  obtain ⟨cur, l, hread, hl'⟩ := readChunk_sinFallas hl (c + tagLen)
  obtain ⟨hcur, hle, hshort⟩ := readChunk_ok hread
  have hcut : lookaheadChunks (c + tagLen) (cur ++ l.resto) =
      bloques (sellados aead key pre aad 0 bs) := by
    rw [← hcur, hr]
    exact hfr.lookaheadChunks_flatten hc
  have hmin : tagLen ≤ cur.length := by
    obtain ⟨cs, hcs⟩ := lookaheadChunks_head hc hle hshort
    have hmem : cur ∈ bloques (sellados aead key pre aad 0 bs) := by
      rw [← hcut, hcs]
      exact List.mem_cons_self
    obtain ⟨s, hs, rfl⟩ := List.mem_map.mp hmem
    have := length_ciphertext_sellados hT hs
    omega
  have hem : emitir tagLen (abrirTrozo aead key pre aad) 0
      (bloques (sellados aead key pre aad 0 bs)) (.vec salida) =
        .ok () (.vec (salida ++ bs.flatten)) :=
    emitir_abrirTrozo_bloques hU hT (by omega)
  rw [← hcut] at hem
  obtain ⟨f', hf', hest⟩ := bucle_of_emitir (f := ⟨l, f.estado⟩) hc hle hshort hl' (hw ▸ hem)
  exact ⟨cur, ⟨l, f.estado⟩, f', leer_eq_ok.mpr ⟨hread, rfl⟩, hmin, hf', hest⟩

/-- What `encrypt_stream` wrote, `decrypt_stream` turns back into what it read, however the
reads of both are cut or interrupted. -/
theorem decryptStream_encryptStream (kdf : Kdf M K) (aead : Aead 24 K) (hU : aead.Undoes)
    (hT : aead.AddsTag) (passphrase : String) (opts : StreamOptions)
    (s s' : Flujo (Salida K)) (hs : s.estado.escritor.salida = [])
    (h : encryptStream kdf aead passphrase opts s = .ok () s') (cortes : List Corte) :
    ∃ f', decryptStream kdf aead passphrase opts.pepper
        ⟨⟨s'.estado.escritor.salida, cortes.map .corte⟩, .vec []⟩ = .ok () f' ∧
      f'.estado = .vec s.lector.resto := by
  obtain ⟨hsane, hlo, hhi, salt, pre, key, hkey, s₁, hw₁, hm₁, hem⟩ := encryptStream_ok h
  have hc : 0 < opts.chunkSize := by
    unfold minChunkSize at hlo
    omega
  have hchunk : (UInt32.ofNat opts.chunkSize).toNat = opts.chunkSize := by
    unfold maxChunkSize at hhi
    simp only [UInt32.toNat_ofNat']
    omega
  obtain ⟨hw, -, hcount⟩ := emitir_sellarTrozo_ok hem
  have hin : s'.estado.escritor.salida = (opts.header salt pre).toBytes ++
      (bloques (sellados aead key pre (opts.header salt pre).toBytes 0
        (lookaheadChunks opts.chunkSize s.lector.resto))).flatten := by
    rw [hw, hw₁, hs, List.nil_append]
  have hsf : Lector.SinFallas ⟨s'.estado.escritor.salida, cortes.map .corte⟩ := by
    intro e he
    simp at he
  have hhead : StreamHeader.fromBytes (opts.header salt pre).toBytes =
      .ok (opts.header salt pre) :=
    StreamHeader.fromBytes_toBytes hsane (hchunk.symm ▸ hlo) (hchunk.symm ▸ hhi)
  obtain ⟨l, hread, hrest, hl⟩ := readExactOrHeaderErr_exacto
    (f := (⟨⟨s'.estado.escritor.salida, cortes.map .corte⟩, .vec []⟩ : Flujo Escritor)) hsf hin
  obtain ⟨cur, f₁, f', hleer, hmin, hloop, hest⟩ :=
    decryptLoop_bloques (f := ⟨l, .vec []⟩) hU hT (framed_lookaheadChunks hc s.lector.resto)
      (by simpa using hcount (by decide)) hl rfl hrest
  refine ⟨f', ?_, ?_⟩
  · rw [StreamHeader.length_toBytes] at hread
    have hllega : Llega kdf passphrase opts.pepper
        ⟨⟨s'.estado.escritor.salida, cortes.map .corte⟩, .vec []⟩ (opts.header salt pre).toBytes
        (opts.header salt pre) key cur f₁ :=
      ⟨⟨⟨l, .vec []⟩, hread, hchunk.symm ▸ hleer⟩, hhead, hkey, hmin⟩
    rw [decryptStream_of_llega hllega]
    exact hchunk.symm ▸ hloop
  · rw [hest, lookaheadChunks_flatten hc, List.nil_append]

theorem decryptStream_encryptStream_tres :
    ∃ s' f', encryptStream (Kdf.libre id) Aead.deMarca "a" ⟨⟨8, 1, 1⟩, 4096, []⟩
        ⟨⟨[1, 2, 3], []⟩, .sereno, .vec []⟩ = .ok () s' ∧
      decryptStream (Kdf.libre id) Aead.deMarca "a" []
        ⟨⟨s'.estado.escritor.salida, [Corte.interrumpido, .corto 0].map .corte⟩, .vec []⟩ =
          .ok () f' ∧
      f'.estado = .vec [1, 2, 3] := by
  obtain ⟨s', h⟩ := encryptStream_vec (Kdf.libre id) Aead.deMarca "a" ⟨⟨8, 1, 1⟩, 4096, []⟩
    ⟨[1, 2, 3], []⟩ .sereno [] (by decide) (by decide) (by decide) (by decide) rfl rfl
    (fun e he => by simp at he) (by rw [lookaheadChunks_of_le (by decide)]; decide)
  obtain ⟨f', hd, hf⟩ := decryptStream_encryptStream (Kdf.libre id) Aead.deMarca
    Aead.deMarca_undoes Aead.deMarca_addsTag "a" ⟨⟨8, 1, 1⟩, 4096, []⟩ _ s' rfl h
    [.interrumpido, .corto 0]
  exact ⟨s', f', h, hd, hf⟩

end Stream

end Quipu
