import Quipu.Libre
import Quipu.StreamOpen
import Mathlib.Data.List.Pairwise

namespace Quipu

namespace Stream

variable {M K : Type} {aead : Aead 24 K}

/-- An honest run of the writer under one passphrase and pepper, from a clean start; it may end in
`Ok`, in an error or in a panic. -/
structure Corrida (kdf : Kdf M K) (aead : Aead 24 K) (passphrase : String)
    (pepper : List UInt8) where
  opts : StreamOptions
  antes : Flujo (Salida K)
  mismoPepper : opts.pepper = pepper
  salidaVacia : antes.estado.escritor.salida = []
  sinSellos : antes.estado.mundo.sellos = []

namespace Corrida

variable {kdf : Kdf M K} {passphrase : String} {pepper : List UInt8}

def resultado (r : Corrida kdf aead passphrase pepper) :
    EStateM.Result (Fallo StreamError) (Flujo (Salida K)) Unit :=
  encryptStream kdf aead passphrase r.opts r.antes

def claro (r : Corrida kdf aead passphrase pepper) : List UInt8 := r.antes.lector.resto

def sellos (r : Corrida kdf aead passphrase pepper) : List (Sello 24 K) :=
  (quedado r.resultado).estado.mundo.sellos

def trozos (r : Corrida kdf aead passphrase pepper) : List (List UInt8) :=
  lookaheadChunks r.opts.chunkSize r.claro

/-- The salt and the nonce prefix of the run, if it came to draw them. -/
def sorteo (r : Corrida kdf aead passphrase pepper) : Option (Arr 16 × Arr 19) :=
  match sortear r.opts r.antes with
  | .ok x _ => some x
  | .error _ _ => none

/-- The container of the run: its header and what it sealed. -/
def contenedor (r : Corrida kdf aead passphrase pepper) : List UInt8 :=
  match r.sorteo with
  | some x => (r.opts.header x.1 x.2).toBytes ++ (bloques r.sellos).flatten
  | none => []

theorem sorteo_of_ok {r : Corrida kdf aead passphrase pepper} {x : Arr 16 × Arr 19}
    {f : Flujo (Salida K)} (h : sortear r.opts r.antes = .ok x f) : r.sorteo = some x := by
  rw [sorteo, h]

/-- A run that ends well has written its container. -/
theorem contenedor_of_ok {r : Corrida kdf aead passphrase pepper} {f : Flujo (Salida K)}
    (h : r.resultado = .ok () f) : r.contenedor = f.estado.escritor.salida := by
  have hs : r.sellos = f.estado.mundo.sellos := by rw [sellos, h, quedado]
  rw [resultado, encryptStream_eq] at h
  obtain ⟨x, f₁, hx, hresto⟩ := Prog.bind_ok.mp h
  obtain ⟨-, hlo, -, -, hw, hm⟩ := sortear_ok hx
  obtain ⟨key, -, s₁, hw₁, hm₁, hem⟩ := trasSorteo_ok (chunkSize_pos hlo) hresto
  obtain ⟨hsalida, hsellos, -⟩ := emitir_sellarTrozo_ok hem
  rw [hm₁, hm, r.sinSellos, List.nil_append] at hsellos
  rw [hw₁, hw, r.salidaVacia, List.nil_append] at hsalida
  rw [contenedor, sorteo_of_ok hx, hs, hsellos, hsalida]

/-- What a run has sealed by its end: a beginning of the seals of its chunks. -/
theorem hechos {r : Corrida kdf aead passphrase pepper} (h : r.sellos ≠ []) :
    ∃ (x : Arr 16 × Arr 19) (key : K), r.sorteo = some x ∧ 0 < r.opts.chunkSize ∧
      r.sellos <+: sellados aead key x.2 (r.opts.header x.1 x.2).toBytes 0 r.trozos ∧
      r.sellos.length ≤ 2 ^ 32 := by
  obtain ⟨nuevos, hs, hlen, hcomienzan⟩ :=
    encryptStream_sellos kdf aead passphrase r.opts r.antes
  rw [r.sinSellos, List.nil_append] at hs
  have hnuevos : r.sellos = nuevos := hs
  rcases hcomienzan with hnil | ⟨salt, pre, f₁, key, hx, hpre⟩
  · exact absurd (hnuevos.trans hnil) h
  · rw [← hnuevos] at hpre hlen
    exact ⟨(salt, pre), key, sorteo_of_ok hx, chunkSize_pos (sortear_ok hx).2.1, hpre, hlen⟩

end Corrida

theorem header_inj {opts opts' : StreamOptions} {x x' : Arr 16 × Arr 19}
    (h : (opts.header x.1 x.2).toBytes = (opts'.header x'.1 x'.2).toBytes) : x = x' := by
  have hl := (opts.header x.1 x.2).leido_toBytes
  simp only [h, StreamHeader.leido_toBytes] at hl
  exact Prod.ext (congrArg StreamHeader.salt hl).symm (congrArg StreamHeader.noncePrefix hl).symm

/-- No two runs drew the same salt and prefix. -/
def Corrida.Distintas {kdf : Kdf M K} {passphrase : String} {pepper : List UInt8}
    (q r : Corrida kdf aead passphrase pepper) : Prop :=
  ∀ x, q.sorteo = some x → r.sorteo ≠ some x

instance {kdf : Kdf M K} {passphrase : String} {pepper : List UInt8} :
    Std.Symm (fun q r : Corrida kdf aead passphrase pepper => q.Distintas r) :=
  ⟨fun _ _ h x hx hx' => h x hx' hx⟩

theorem Corrida.eq_of_sorteo {kdf : Kdf M K} {passphrase : String} {pepper : List UInt8}
    {corridas : List (Corrida kdf aead passphrase pepper)} (hd : corridas.Pairwise Distintas)
    {q r : Corrida kdf aead passphrase pepper} (hq : q ∈ corridas) (hr : r ∈ corridas)
    {x : Arr 16 × Arr 19} (hqx : q.sorteo = some x) (hrx : r.sorteo = some x) : q = r := by
  by_contra hne
  exact hd.forall hq hr hne x hqx hrx

/-- Under an accepted header the only blocks that open are those of one honest run, the one
whose container starts with that header; if no run does, nothing opens. -/
theorem abreSolo_of_opensOnly {kdf : Kdf M K} {passphrase : String} {pepper : List UInt8}
    {corridas : List (Corrida kdf aead passphrase pepper)}
    (hd : corridas.Pairwise Corrida.Distintas)
    (hi : aead.OpensOnly (corridas.flatMap Corrida.sellos)) {headerBytes : List UInt8}
    {header : StreamHeader} (hh : StreamHeader.fromBytes headerBytes = .ok header)
    (hlen : headerBytes.length = headerLen) (key : K) :
    AbreSolo aead key header.noncePrefix headerBytes [] [] ∨
      ∃ r ∈ corridas, 0 < r.opts.chunkSize ∧
        AbreSolo aead key header.noncePrefix headerBytes r.trozos r.sellos ∧
        r.contenedor = headerBytes ++ (bloques r.sellos).flatten := by
  by_cases hm : ∃ r ∈ corridas, ∃ s ∈ r.sellos, s.key = key ∧ s.aad = headerBytes
  · obtain ⟨r, hr, s, hs, hkey, haad⟩ := hm
    obtain ⟨x, k, hx, hc, hsub, hle⟩ := Corrida.hechos (List.ne_nil_of_mem hs)
    obtain ⟨hk, ha⟩ := sello_of_mem_sellados (hsub.subset hs)
    obtain rfl : k = key := hk.symm.trans hkey
    obtain rfl : (r.opts.header x.1 x.2).toBytes = headerBytes := ha.symm.trans haad
    obtain rfl : r.opts.header x.1 x.2 = header := by
      have hl := ((StreamHeader.fromBytes_eq_ok (StreamHeader.length_toBytes _)).mp hh).2
      rwa [StreamHeader.leido_toBytes] at hl
    refine Or.inr ⟨r, hr, hc, ⟨fun i fin b p hb => ?_, hsub, hle⟩, ?_⟩
    · obtain ⟨q, hq, hmem⟩ := List.mem_flatMap.mp (hi _ _ _ _ _ hb)
      obtain ⟨x', k', hx', -, hsub', -⟩ := Corrida.hechos (List.ne_nil_of_mem hmem)
      have haad' : (r.opts.header x.1 x.2).toBytes = (q.opts.header x'.1 x'.2).toBytes :=
        (sello_of_mem_sellados (hsub'.subset hmem)).2
      obtain rfl := header_inj haad'
      obtain rfl := Corrida.eq_of_sorteo hd hq hr hx' hx
      exact hmem
    · rw [Corrida.contenedor, hx]
  · refine Or.inl ⟨fun i fin b p hb => ?_, List.nil_prefix, Nat.zero_le _⟩
    obtain ⟨r, hr, hmem⟩ := List.mem_flatMap.mp (hi _ _ _ _ _ hb)
    exact absurd ⟨r, hr, _, hmem, rfl, rfl⟩ hm

/-- Whatever bytes `decrypt_stream` is given, it writes only a beginning, in whole chunks, of
what one honest run sealed, and accepts only the container of a run that sealed all of its chunks,
which is what that run wrote if it ended well. -/
theorem decryptStream_integridad (kdf : Kdf M K) (aead : Aead 24 K) (passphrase : String)
    (pepper : List UInt8) (corridas : List (Corrida kdf aead passphrase pepper))
    (hd : corridas.Pairwise Corrida.Distintas)
    (hi : aead.OpensOnly (corridas.flatMap Corrida.sellos)) (l : Lector) (w : Escritor)
    (hw : w.salida = []) :
    ((quedado (decryptStream kdf aead passphrase pepper ⟨l, w⟩)).estado.salida = [] ∨
      ∃ r ∈ corridas,
        Escrito r.trozos w (quedado (decryptStream kdf aead passphrase pepper ⟨l, w⟩)).estado) ∧
    ∀ f', decryptStream kdf aead passphrase pepper ⟨l, w⟩ = .ok () f' →
      ∃ r ∈ corridas, l.resto = r.contenedor ∧ f'.estado.salida = r.claro ∧
        r.sellos.length = r.trozos.length ∧
        ∀ g, r.resultado = .ok () g → l.resto = g.estado.escritor.salida := by
  rcases decryptStream_cases kdf aead passphrase pepper ⟨l, w⟩ with
    ⟨e, f', he, hest⟩ | ⟨headerBytes, header, key, cur, f₂, hll⟩
  · rw [he]
    refine ⟨Or.inl ?_, fun f' h => by cases h⟩
    rw [quedado, hest, hw]
  · rw [decryptStream_of_llega hll]
    obtain ⟨⟨f₁, hb, hcur⟩, hh, _, hmin⟩ := hll
    obtain ⟨hb, hlen⟩ := readExactOrHeaderErr_eq_ok.mp hb
    obtain ⟨hread₁, he₁⟩ := leer_eq_ok.mp hb
    obtain ⟨hread₂, he₂⟩ := leer_eq_ok.mp hcur
    obtain ⟨hr₁, _, _⟩ := readChunk_ok hread₁
    obtain ⟨hr₂, hle, hshort⟩ := readChunk_ok hread₂
    have hest : f₂.estado = w := he₂.trans he₁
    have hblock : 0 < header.chunkSize.toNat + tagLen := by simp [tagLen]
    rcases abreSolo_of_opensOnly hd hi hh hlen key with ha | ⟨r, hr, hc, ha, hcont⟩
    · have hesc := decryptLoop_escrito ha (header.chunkSize.toNat + tagLen) cur f₂
      refine ⟨Or.inl ?_, fun f' h => ?_⟩
      · obtain ⟨m, hm | ⟨d, n, e, hd, _⟩⟩ := hesc
        · rw [hm, hest, hw]
          simp
        · simp at hd
      · exact absurd rfl (decryptLoop_ok ha hblock hle hshort h).2.2.1
    · refine ⟨Or.inr ⟨r, hr, ?_⟩, fun f' h => ?_⟩
      · have hesc := decryptLoop_escrito ha (header.chunkSize.toNat + tagLen) cur f₂
        rwa [hest] at hesc
      · obtain ⟨hentrada, hsalida, -, hsellos⟩ := decryptLoop_ok ha hblock hle hshort h
        have hresto : l.resto = r.contenedor := by
          rw [hcont, hsellos, ← hentrada, ← hr₂]
          exact hr₁
        refine ⟨r, hr, hresto, ?_, ?_, fun g hg => hresto.trans (Corrida.contenedor_of_ok hg)⟩
        · rw [hsalida, hest, hw, List.nil_append, Corrida.trozos, lookaheadChunks_flatten hc]
        · rw [hsellos, length_sellados]

theorem decryptStream_integridad_una :
    ∃ (sellos : List (Sello 24 ClaveLibre))
      (r : Corrida (Kdf.libre id) (Aead.deRegistro marcar sellos) "a" []),
      sellos = r.sellos ∧ r.claro = [1, 2, 3] ∧ (∃ g, r.resultado = .ok () g) ∧
        ((quedado (decryptStream (Kdf.libre id) (Aead.deRegistro marcar sellos) "a" []
            ⟨⟨r.contenedor ++ [0], []⟩, .vec []⟩)).estado.salida = [] ∨
          ∃ q ∈ [r], Escrito q.trozos (.vec []) (quedado (decryptStream (Kdf.libre id)
            (Aead.deRegistro marcar sellos) "a" []
            ⟨⟨r.contenedor ++ [0], []⟩, .vec []⟩)).estado) ∧
        ∀ f', decryptStream (Kdf.libre id) (Aead.deRegistro marcar sellos) "a" []
            ⟨⟨r.contenedor ++ [0], []⟩, .vec []⟩ = .ok () f' →
          ∃ q ∈ [r], r.contenedor ++ [0] = q.contenedor ∧ f'.estado.salida = q.claro := by
  obtain ⟨s', h⟩ := encryptStream_vec (Kdf.libre id) (Aead.deRegistro marcar []) "a"
    ⟨⟨8, 1, 1⟩, 4096, []⟩ ⟨[1, 2, 3], []⟩ .sereno [] (by decide) (by decide) (by decide)
    (by decide) rfl rfl (fun e he => by simp at he)
    (by rw [lookaheadChunks_of_le (by decide)]; decide)
  let r : Corrida (Kdf.libre id) (Aead.deRegistro marcar s'.estado.mundo.sellos) "a" [] :=
    ⟨⟨⟨8, 1, 1⟩, 4096, []⟩, ⟨⟨[1, 2, 3], []⟩, .sereno, .vec []⟩, rfl, rfl, rfl⟩
  have hr : r.resultado = .ok () s' := h
  have hsellos : r.sellos = s'.estado.mundo.sellos := by rw [Corrida.sellos, hr, quedado]
  have hi : (Aead.deRegistro marcar s'.estado.mundo.sellos).OpensOnly
      ([r].flatMap Corrida.sellos) := by
    rw [List.flatMap_singleton, hsellos]
    exact Aead.deRegistro_opensOnly marcar _
  obtain ⟨hescrito, hok⟩ := decryptStream_integridad _ _ "a" [] [r] (List.pairwise_singleton _ r)
    hi ⟨r.contenedor ++ [0], []⟩ (.vec []) rfl
  refine ⟨s'.estado.mundo.sellos, r, hsellos.symm, rfl, ⟨s', hr⟩, hescrito, fun f' hf => ?_⟩
  obtain ⟨q, hq, hresto, hclaro, -, -⟩ := hok f' hf
  exact ⟨q, hq, hresto, hclaro⟩

end Stream

end Quipu
