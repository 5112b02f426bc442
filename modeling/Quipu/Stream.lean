import Quipu.StreamHeader

namespace Quipu

namespace Stream

variable {M K ε α : Type}

structure StreamOptions where
  kdfParams : KdfParams
  chunkSize : Nat
  pepper : List UInt8

/-- What the writer acts on besides its reader. -/
structure Salida (K : Type) where
  mundo : Mundo 24 K
  escritor : Escritor

def enMundo (p : Prog (Mundo 24 K) ε α) : Prog (Salida K) ε α := fun s =>
  match p s.mundo with
  | .ok a m => .ok a { s with mundo := m }
  | .error e m => .error e { s with mundo := m }

def enEscritor (p : Prog Escritor ε α) : Prog (Salida K) ε α := fun s =>
  match p s.escritor with
  | .ok a w => .ok a { s with escritor := w }
  | .error e w => .error e { s with escritor := w }

def escribir (bs : List UInt8) : Prog Escritor StreamError Unit := fun w =>
  match w.writeAll bs with
  | (.ok _, w') => .ok () w'
  | (.error e, w') => .error (.error (.io e)) w'

/-- The nonce of the chunk `counter`; the flag marks the last one. -/
def chunkNonce (pre : Arr 19) (counter : Nat) (finalFlag : Bool) : Arr 24 :=
  Arr.of (pre.toList ++ be 4 counter ++ [finalFlag.toUInt8]) (by simp)

/-- The key of one stream: Argon2id, then HKDF over the label and the nonce prefix. -/
def deriveStreamKey (kdf : Kdf M K) (passphrase : String) (pepper : List UInt8)
    (params : KdfParams) (salt : Arr 16) (pre : Arr 19) : Res StreamError K := do
  let master ← deriveMasterKey kdf passphrase salt pepper params
  pure (deriveSubkey kdf master (streamInfoPrefix ++ pre.toList))

def sellarTrozo (aead : Aead 24 K) (key : K) (pre : Arr 19) (headerBytes : List UInt8) :
    Paso (Salida K) := fun counter final trozo => do
  let ct ← enMundo (sellar aead key (chunkNonce pre counter final) trozo headerBytes)
  enEscritor (escribir ct)

def abrirTrozo (aead : Aead 24 K) (key : K) (pre : Arr 19) (headerBytes : List UInt8) :
    Paso Escritor := fun counter final trozo =>
  match Cipher.decrypt aead key (chunkNonce pre counter final) trozo headerBytes with
  | .ok pt => escribir pt
  | .error _ => Prog.deRes (fallar .decrypt)

/-- The loop of `encrypt_stream`, from its first chunk on. -/
def encryptLoop (aead : Aead 24 K) (key : K) (header : StreamHeader) (chunk : Nat)
    (cur : List UInt8) : Prog (Flujo (Salida K)) StreamError Unit := fun f =>
  bucle chunk 0 (sellarTrozo aead key header.noncePrefix header.toBytes) cur 0 f

/-- The loop of `decrypt_stream`, from its first block on. -/
def decryptLoop (aead : Aead 24 K) (key : K) (pre : Arr 19) (headerBytes : List UInt8)
    (block : Nat) (cur : List UInt8) : Prog (Flujo Escritor) StreamError Unit := fun f =>
  bucle block tagLen (abrirTrozo aead key pre headerBytes) cur 0 f

def encryptStream (kdf : Kdf M K) (aead : Aead 24 K) (passphrase : String)
    (opts : StreamOptions) : Prog (Flujo (Salida K)) StreamError Unit := do
  Prog.rechazarSi (opts.kdfParams.isSane = false) .insaneKdf
  Prog.rechazarSi (opts.chunkSize < minChunkSize ∨ maxChunkSize < opts.chunkSize) .badChunkSize
  let salt ← enEstado (enMundo (pedirRng 16))
  let pre ← enEstado (enMundo (pedirRng 19))
  let header : StreamHeader := ⟨opts.kdfParams, salt, pre, UInt32.ofNat opts.chunkSize⟩
  enEstado (enEscritor (escribir header.toBytes))
  let key ← Prog.deRes (deriveStreamKey kdf passphrase opts.pepper opts.kdfParams salt pre)
  let cur ← leer opts.chunkSize
  encryptLoop aead key header opts.chunkSize cur

/-- Reads exactly `n` bytes; a stream that ends before gives `Header`. -/
def readExactOrHeaderErr {σ : Type} (n : Nat) : Prog (Flujo σ) StreamError (List UInt8) := do
  let bs ← leer n
  Prog.rechazarSi (bs.length ≠ n) .header
  pure bs

def decryptStream (kdf : Kdf M K) (aead : Aead 24 K) (passphrase : String)
    (pepper : List UInt8) : Prog (Flujo Escritor) StreamError Unit := do
  let headerBytes ← readExactOrHeaderErr headerLen
  let header ← Prog.deRes (StreamHeader.fromBytes headerBytes)
  let key ← Prog.deRes
    (deriveStreamKey kdf passphrase pepper header.kdfParams header.salt header.noncePrefix)
  let block := header.chunkSize.toNat + tagLen
  let cur ← leer block
  Prog.rechazarSi (cur.length < tagLen) .truncated
  decryptLoop aead key header.noncePrefix headerBytes block cur

theorem escribir_vec (bs salida : List UInt8) :
    escribir bs (.vec salida) = .ok () (.vec (salida ++ bs)) := rfl

theorem escribir_ok {bs : List UInt8} {w w' : Escritor} (h : escribir bs w = .ok () w') :
    w'.salida = w.salida ++ bs := by
  unfold escribir Escritor.writeAll at h
  split at h
  next hw =>
    cases h
    split at hw
    next => cases hw; rfl
    next => cases hw; rfl
    next => cases hw
  next => cases h

theorem enMundo_eq_ok {p : Prog (Mundo 24 K) ε α} {s s' : Salida K} {a : α} :
    enMundo p s = .ok a s' ↔ p s.mundo = .ok a s'.mundo ∧ s'.escritor = s.escritor := by
  unfold enMundo
  cases s'
  cases h : p s.mundo with
  | ok b m => simp only [EStateM.Result.ok.injEq, Salida.mk.injEq]; tauto
  | error e m => simp

theorem enEscritor_eq_ok {p : Prog Escritor ε α} {s s' : Salida K} {a : α} :
    enEscritor p s = .ok a s' ↔ p s.escritor = .ok a s'.escritor ∧ s'.mundo = s.mundo := by
  unfold enEscritor
  cases s'
  cases h : p s.escritor with
  | ok b m => simp only [EStateM.Result.ok.injEq, Salida.mk.injEq]; tauto
  | error e m => simp

theorem deriveStreamKey_eq_ok {kdf : Kdf M K} {passphrase : String} {pepper : List UInt8}
    {params : KdfParams} {salt : Arr 16} {pre : Arr 19} {key : K} :
    deriveStreamKey kdf passphrase pepper params salt pre = .ok key ↔
      kdf.acepta params = true ∧
        kdf.expandKey (kdf.argon2id (utf8 (normalizar kdf passphrase) ++ pepper) salt.toList params)
          (streamInfoPrefix ++ pre.toList) = key := by
  simp only [deriveStreamKey, Res.bind_ok, deriveMasterKey_eq_ok, Res.pure_eq_ok, deriveSubkey]
  constructor
  · rintro ⟨m, ⟨ha, rfl⟩, hk⟩
    exact ⟨ha, hk⟩
  · rintro ⟨ha, hk⟩
    exact ⟨_, ⟨ha, rfl⟩, hk⟩

theorem abrirTrozo_vec {aead : Aead 24 K} {key : K} {pre : Arr 19} {a b p salida : List UInt8}
    {i : Nat} {fin : Bool} (h : aead.abre key (chunkNonce pre i fin) b a = some p) :
    abrirTrozo aead key pre a i fin b (.vec salida) = .ok () (.vec (salida ++ p)) := by
  simp only [abrirTrozo, Cipher.decrypt_eq_ok.mpr h, escribir_vec]

theorem readExactOrHeaderErr_eq_ok {σ : Type} {n : Nat} {f f' : Flujo σ} {bs : List UInt8} :
    readExactOrHeaderErr n f = .ok bs f' ↔ leer n f = .ok bs f' ∧ bs.length = n := by
  simp only [readExactOrHeaderErr, Prog.bind_ok, Prog.rechazarSi, Prog.deRes_eq_ok,
    rechazarSi_eq_ok, ne_eq, not_not]
  constructor
  · rintro ⟨xs, f₁, hl, _, _, ⟨hn, rfl⟩, hp⟩
    cases hp
    exact ⟨hl, hn⟩
  · rintro ⟨hl, hn⟩
    exact ⟨bs, f', hl, (), f', ⟨hn, rfl⟩, rfl⟩

def StreamOptions.header (opts : StreamOptions) (salt : Arr 16) (pre : Arr 19) : StreamHeader :=
  ⟨opts.kdfParams, salt, pre, UInt32.ofNat opts.chunkSize⟩

theorem readExactOrHeaderErr_quedado {σ : Type} (n : Nat) (f : Flujo σ) :
    (quedado (readExactOrHeaderErr n f)).estado = f.estado := by
  rw [readExactOrHeaderErr]
  cases h : leer n f with
  | error e f₁ => rw [Prog.bind_of_error h, quedado_error rfl, ← quedado_error h, leer_quedado]
  | ok bs f₁ =>
    rw [Prog.bind_of_ok h]
    by_cases hn : bs.length ≠ n
    · rw [Prog.rechazarSi, rechazarSi_of _ hn, Prog.bind_of_error (Prog.deRes_error _ f₁)]
      exact (leer_eq_ok.mp h).2
    · rw [Prog.rechazarSi, rechazarSi_of_not _ hn, Prog.bind_of_ok (Prog.deRes_ok () f₁)]
      exact (leer_eq_ok.mp h).2

/-- The part of `encrypt_stream` that draws: its checks, the salt and the nonce prefix. -/
def sortear (opts : StreamOptions) : Prog (Flujo (Salida K)) StreamError (Arr 16 × Arr 19) := do
  Prog.rechazarSi (opts.kdfParams.isSane = false) .insaneKdf
  Prog.rechazarSi (opts.chunkSize < minChunkSize ∨ maxChunkSize < opts.chunkSize) .badChunkSize
  let salt ← enEstado (enMundo (pedirRng 16))
  let pre ← enEstado (enMundo (pedirRng 19))
  pure (salt, pre)

/-- From the draw to the loop: the header, the key and the first chunk. -/
def preludio (kdf : Kdf M K) (passphrase : String) (opts : StreamOptions) (salt : Arr 16)
    (pre : Arr 19) : Prog (Flujo (Salida K)) StreamError (K × List UInt8) := do
  enEstado (enEscritor (escribir (opts.header salt pre).toBytes))
  let key ← Prog.deRes (deriveStreamKey kdf passphrase opts.pepper opts.kdfParams salt pre)
  let cur ← leer opts.chunkSize
  pure (key, cur)

/-- The rest of `encrypt_stream`, under a salt and a prefix. -/
def trasSorteo (kdf : Kdf M K) (aead : Aead 24 K) (passphrase : String) (opts : StreamOptions)
    (salt : Arr 16) (pre : Arr 19) : Prog (Flujo (Salida K)) StreamError Unit := do
  let r ← preludio kdf passphrase opts salt pre
  encryptLoop aead r.1 (opts.header salt pre) opts.chunkSize r.2

theorem encryptStream_eq (kdf : Kdf M K) (aead : Aead 24 K) (passphrase : String)
    (opts : StreamOptions) :
    encryptStream kdf aead passphrase opts =
      sortear opts >>= fun x => trasSorteo kdf aead passphrase opts x.1 x.2 := by
  simp only [encryptStream, sortear, trasSorteo, preludio, bind_assoc, pure_bind]
  rfl

/-- A draw that ends well passed every check and has neither read, written nor sealed. -/
theorem sortear_ok {opts : StreamOptions} {x : Arr 16 × Arr 19} {s s' : Flujo (Salida K)}
    (h : sortear opts s = .ok x s') :
    opts.kdfParams.isSane = true ∧ minChunkSize ≤ opts.chunkSize ∧
      opts.chunkSize ≤ maxChunkSize ∧ s'.lector = s.lector ∧
      s'.estado.escritor = s.estado.escritor ∧ s'.estado.mundo.sellos = s.estado.mundo.sellos := by
  simp only [sortear, Prog.bind_ok, Prog.rechazarSi, Prog.deRes_eq_ok, rechazarSi_eq_ok,
    enEstado_eq_ok, enMundo_eq_ok, not_or, not_lt, Bool.not_eq_false] at h
  obtain ⟨_, _, ⟨hsane, rfl⟩, _, _, ⟨⟨hlo, hhi⟩, rfl⟩, salt, f₁, ⟨⟨hsalt, hw₁⟩, hl₁⟩, pre, f₂,
    ⟨⟨hpre, hw₂⟩, hl₂⟩, hfin⟩ := h
  cases hfin
  refine ⟨hsane, hlo, hhi, hl₂.trans hl₁, hw₂.trans hw₁, ?_⟩
  rw [(pedir_eq_ok.mp hpre).2, (pedir_eq_ok.mp hsalt).2]

theorem preludio_ok {kdf : Kdf M K} {passphrase : String} {opts : StreamOptions}
    {salt : Arr 16} {pre : Arr 19} {r : K × List UInt8} {s s' : Flujo (Salida K)}
    (h : preludio kdf passphrase opts salt pre s = .ok r s') :
    deriveStreamKey kdf passphrase opts.pepper opts.kdfParams salt pre = .ok r.1 ∧
      s'.estado.escritor.salida =
        s.estado.escritor.salida ++ (opts.header salt pre).toBytes ∧
      s'.estado.mundo.sellos = s.estado.mundo.sellos ∧
      readChunk s.lector opts.chunkSize = (.ok r.2, s'.lector) := by
  simp only [preludio, Prog.bind_ok, Prog.deRes_eq_ok, enEstado_eq_ok, enEscritor_eq_ok,
    leer_eq_ok] at h
  obtain ⟨_, _, ⟨⟨hw, hm⟩, hl⟩, key, f₁, ⟨hkey, rfl⟩, cur, f₂, ⟨hcur, he⟩, hfin⟩ := h
  cases hfin
  rw [he, ← hl]
  exact ⟨hkey, escribir_ok hw, congrArg Mundo.sellos hm, hcur⟩

theorem trasSorteo_ok {kdf : Kdf M K} {aead : Aead 24 K} {passphrase : String}
    {opts : StreamOptions} {salt : Arr 16} {pre : Arr 19} {s s' : Flujo (Salida K)}
    (hc : 0 < opts.chunkSize) (h : trasSorteo kdf aead passphrase opts salt pre s = .ok () s') :
    ∃ key, deriveStreamKey kdf passphrase opts.pepper opts.kdfParams salt pre = .ok key ∧
      ∃ s₁ : Salida K,
        s₁.escritor.salida = s.estado.escritor.salida ++ (opts.header salt pre).toBytes ∧
        s₁.mundo.sellos = s.estado.mundo.sellos ∧
        emitir 0 (sellarTrozo aead key pre (opts.header salt pre).toBytes) 0
          (lookaheadChunks opts.chunkSize s.lector.resto) s₁ = .ok () s'.estado := by
  obtain ⟨r, f₁, hr, hb⟩ := Prog.bind_ok.mp h
  obtain ⟨hkey, hw, hm, hcur⟩ := preludio_ok hr
  obtain ⟨hresto, hle, hshort⟩ := readChunk_ok hcur
  have hem := bucle_ok hc hle hshort hb
  rw [← hresto] at hem
  exact ⟨r.1, hkey, f₁.estado, hw, hm, hem⟩

theorem chunkSize_pos {opts : StreamOptions} (h : minChunkSize ≤ opts.chunkSize) :
    0 < opts.chunkSize := Nat.lt_of_lt_of_le (by decide) h

/-- A run that ends well passed every check, wrote its header and sealed the chunks of its
input in order. -/
theorem encryptStream_ok {kdf : Kdf M K} {aead : Aead 24 K} {passphrase : String}
    {opts : StreamOptions} {s s' : Flujo (Salida K)}
    (h : encryptStream kdf aead passphrase opts s = .ok () s') :
    opts.kdfParams.isSane = true ∧ minChunkSize ≤ opts.chunkSize ∧
      opts.chunkSize ≤ maxChunkSize ∧
      ∃ salt pre key,
        deriveStreamKey kdf passphrase opts.pepper opts.kdfParams salt pre = .ok key ∧
        ∃ s₁ : Salida K,
          s₁.escritor.salida = s.estado.escritor.salida ++ (opts.header salt pre).toBytes ∧
          s₁.mundo.sellos = s.estado.mundo.sellos ∧
          emitir 0 (sellarTrozo aead key pre (opts.header salt pre).toBytes) 0
            (lookaheadChunks opts.chunkSize s.lector.resto) s₁ = .ok () s'.estado := by
  rw [encryptStream_eq] at h
  obtain ⟨x, f₁, hx, hresto⟩ := Prog.bind_ok.mp h
  obtain ⟨hsane, hlo, hhi, hl, hw, hm⟩ := sortear_ok hx
  obtain ⟨key, hkey, s₁, hw₁, hm₁, hem⟩ := trasSorteo_ok (chunkSize_pos hlo) hresto
  rw [hl] at hem
  exact ⟨hsane, hlo, hhi, x.1, x.2, key, hkey, s₁, hw ▸ hw₁, hm₁.trans hm, hem⟩

theorem encryptStream_of_emitir {kdf : Kdf M K} {aead : Aead 24 K} {passphrase : String}
    {opts : StreamOptions} {l : Lector} {m m₁ m₂ : Mundo 24 K} {salida : List UInt8}
    {salt : Arr 16} {pre : Arr 19} {key : K} {s' : Salida K}
    (hsane : opts.kdfParams.isSane = true) (hlo : minChunkSize ≤ opts.chunkSize)
    (hhi : opts.chunkSize ≤ maxChunkSize)
    (hsalt : (pedirRng 16 : Prog (Mundo 24 K) StreamError (Arr 16)) m = .ok salt m₁)
    (hpre : (pedirRng 19 : Prog (Mundo 24 K) StreamError (Arr 19)) m₁ = .ok pre m₂)
    (hkey : deriveStreamKey kdf passphrase opts.pepper opts.kdfParams salt pre = .ok key)
    (hl : l.SinFallas)
    (hem : emitir 0 (sellarTrozo aead key pre (opts.header salt pre).toBytes) 0
      (lookaheadChunks opts.chunkSize l.resto)
      ⟨m₂, .vec (salida ++ (opts.header salt pre).toBytes)⟩ = .ok () s') :
    ∃ f', encryptStream kdf aead passphrase opts ⟨l, m, .vec salida⟩ = .ok () f' ∧
      f'.estado = s' := by
  have hc : 0 < opts.chunkSize := by
    unfold minChunkSize at hlo
    omega
  obtain ⟨cur, l', hread, hl'⟩ := readChunk_sinFallas hl opts.chunkSize
  obtain ⟨hr, hle, hshort⟩ := readChunk_ok hread
  rw [hr] at hem
  let f₂ : Flujo (Salida K) := ⟨l, m₂, .vec (salida ++ (opts.header salt pre).toBytes)⟩
  obtain ⟨f', hf', hest⟩ := bucle_of_emitir (f := ⟨l', f₂.estado⟩) hc hle hshort hl' hem
  refine ⟨f', ?_, hest⟩
  simp only [encryptStream, Prog.bind_ok, Prog.rechazarSi, Prog.deRes_eq_ok, rechazarSi_eq_ok,
    enEstado_eq_ok, enMundo_eq_ok, enEscritor_eq_ok, leer_eq_ok, not_or, not_lt,
    Bool.not_eq_false]
  exact ⟨(), _, ⟨hsane, rfl⟩, (), _, ⟨⟨hlo, hhi⟩, rfl⟩, salt, ⟨l, m₁, .vec salida⟩,
    ⟨⟨hsalt, rfl⟩, rfl⟩, pre, ⟨l, m₂, .vec salida⟩, ⟨⟨hpre, rfl⟩, rfl⟩, (), f₂,
    ⟨⟨rfl, rfl⟩, rfl⟩, key, f₂, ⟨hkey, rfl⟩, cur, ⟨l', f₂.estado⟩, ⟨hread, rfl⟩, hf'⟩

/-- A call of `decrypt_stream` that reaches its loop, with what it has read by then. -/
structure Llega (kdf : Kdf M K) (passphrase : String) (pepper : List UInt8)
    (f : Flujo Escritor) (headerBytes : List UInt8) (header : StreamHeader) (key : K)
    (cur : List UInt8) (f₂ : Flujo Escritor) : Prop where
  cabecera : ∃ f₁, readExactOrHeaderErr headerLen f = .ok headerBytes f₁ ∧
    leer (header.chunkSize.toNat + tagLen) f₁ = .ok cur f₂
  leida : StreamHeader.fromBytes headerBytes = .ok header
  clave : deriveStreamKey kdf passphrase pepper header.kdfParams header.salt header.noncePrefix =
    .ok key
  minimo : tagLen ≤ cur.length

theorem decryptStream_of_llega {kdf : Kdf M K} {aead : Aead 24 K} {passphrase : String}
    {pepper headerBytes cur : List UInt8} {header : StreamHeader} {key : K}
    {f f₂ : Flujo Escritor} (h : Llega kdf passphrase pepper f headerBytes header key cur f₂) :
    decryptStream kdf aead passphrase pepper f =
      decryptLoop aead key header.noncePrefix headerBytes (header.chunkSize.toNat + tagLen)
        cur f₂ := by
  obtain ⟨⟨f₁, hb, hcur⟩, hh, hk, hmin⟩ := h
  rw [decryptStream, Prog.bind_of_ok hb, hh, Prog.bind_of_ok (Prog.deRes_ok header f₁), hk,
    Prog.bind_of_ok (Prog.deRes_ok key f₁), Prog.bind_of_ok hcur, Prog.rechazarSi,
    rechazarSi_of_not _ (by omega), Prog.bind_of_ok (Prog.deRes_ok () f₂)]

/-- Either `decrypt_stream` fails before its loop, having written nothing, or it reaches it. -/
theorem decryptStream_cases (kdf : Kdf M K) (aead : Aead 24 K) (passphrase : String)
    (pepper : List UInt8) (f : Flujo Escritor) :
    (∃ e f', decryptStream kdf aead passphrase pepper f = .error e f' ∧ f'.estado = f.estado) ∨
      ∃ headerBytes header key cur f₂,
        Llega kdf passphrase pepper f headerBytes header key cur f₂ := by
  unfold decryptStream
  cases hb : readExactOrHeaderErr headerLen f with
  | error e f₁ =>
    refine Or.inl ⟨e, f₁, Prog.bind_of_error hb, ?_⟩
    rw [← quedado_error hb, readExactOrHeaderErr_quedado]
  | ok headerBytes f₁ =>
    have h₁ : f₁.estado = f.estado :=
      (leer_eq_ok.mp (readExactOrHeaderErr_eq_ok.mp hb).1).2
    rw [Prog.bind_of_ok hb]
    cases hh : StreamHeader.fromBytes headerBytes with
    | error e => exact Or.inl ⟨e, f₁, Prog.bind_of_error (Prog.deRes_error e f₁), h₁⟩
    | ok header =>
      rw [Prog.bind_of_ok (Prog.deRes_ok header f₁)]
      cases hk : (deriveStreamKey kdf passphrase pepper header.kdfParams header.salt
          header.noncePrefix) with
      | error e => exact Or.inl ⟨e, f₁, Prog.bind_of_error (Prog.deRes_error e f₁), h₁⟩
      | ok key =>
        rw [Prog.bind_of_ok (Prog.deRes_ok key f₁)]
        cases hc : leer (header.chunkSize.toNat + tagLen) f₁ with
        | error e f₂ =>
          refine Or.inl ⟨e, f₂, Prog.bind_of_error hc, ?_⟩
          rw [← quedado_error hc, leer_quedado, h₁]
        | ok cur f₂ =>
          rw [Prog.bind_of_ok hc]
          by_cases hm : cur.length < tagLen
          · refine Or.inl ⟨.error .truncated, f₂, ?_, (leer_eq_ok.mp hc).2.trans h₁⟩
            rw [Prog.rechazarSi, rechazarSi_of _ hm, Prog.bind_of_error (Prog.deRes_error _ f₂)]
          · exact Or.inr ⟨headerBytes, header, key, cur, f₂, ⟨f₁, hb, hc⟩, hh, hk, by omega⟩

end Stream

end Quipu
