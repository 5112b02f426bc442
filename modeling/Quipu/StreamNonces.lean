import Quipu.Libre
import Quipu.StreamOpen

namespace Quipu

namespace Stream

variable {M K σ : Type} {pre : Arr 19}

/-- Seals whose nonces count from zero under one prefix, the flag on the last one at most. -/
def Numerados (pre : Arr 19) (sellos : List (Sello 24 K)) : Prop :=
  sellos.length ≤ 2 ^ 32 ∧ ∀ j s, sellos[j]? = some s →
    ∃ fin, s.nonce = chunkNonce pre j fin ∧ (fin = true → j + 1 = sellos.length)

theorem numerados_nil : Numerados pre ([] : List (Sello 24 K)) :=
  ⟨Nat.zero_le _, fun j s h => by cases h⟩

theorem numerados_of_prefix {aead : Aead 24 K} {key : K} {aad : List UInt8}
    {bs : List (List UInt8)} {sellos : List (Sello 24 K)} (hlen : sellos.length ≤ 2 ^ 32)
    (h : sellos <+: sellados aead key pre aad 0 bs) : Numerados pre sellos := by
  refine ⟨hlen, fun j s hj => ?_⟩
  obtain ⟨hjl, -⟩ := List.getElem?_eq_some_iff.mp hj
  have hs : (sellados aead key pre aad 0 bs)[j]? = some s := by
    obtain ⟨hjl, rfl⟩ := List.getElem?_eq_some_iff.mp hj
    exact List.prefix_iff_getElem?.mp h j hjl
  rw [getElem?_sellados] at hs
  obtain ⟨b, -, rfl⟩ := Option.map_eq_some_iff.mp hs
  refine ⟨decide (j + 1 = bs.length), by rw [selloDe, Nat.zero_add], fun hf => ?_⟩
  have hle := h.length_le
  rw [length_sellados] at hle
  have hfin := of_decide_eq_true hf
  omega

theorem Numerados.nodup {sellos : List (Sello 24 K)} (h : Numerados pre sellos) :
    (sellos.map Sello.nonce).Nodup := by
  obtain ⟨hlen, h⟩ := h
  refine List.nodup_iff_getElem?_ne_getElem?.mpr fun i j hij hj => ?_
  rw [List.length_map] at hj
  rw [List.getElem?_map, List.getElem?_map, List.getElem?_eq_getElem (hij.trans hj),
    List.getElem?_eq_getElem hj, Option.map_some, Option.map_some]
  intro he
  obtain ⟨fin, hi, _⟩ := h i _ (List.getElem?_eq_getElem (hij.trans hj))
  obtain ⟨fin', hj', _⟩ := h j _ (List.getElem?_eq_getElem hj)
  rw [hi, hj', Option.some.injEq] at he
  have hk := chunkNonce_inj (by omega) (by omega) he
  omega

/-- The flag of a nonce, its last byte. -/
def finalFlag (nonce : Arr 24) : Bool := nonce.toList.getLast? = some 1

theorem finalFlag_chunkNonce (pre : Arr 19) (i : Nat) (fin : Bool) :
    finalFlag (chunkNonce pre i fin) = fin := by
  cases fin
  · simp [finalFlag, chunkNonce, Bool.toUInt8]
  · simp [finalFlag, chunkNonce, Bool.toUInt8]

theorem Numerados.finalFlag {sellos : List (Sello 24 K)} (h : Numerados pre sellos) {j : Nat}
    {s : Sello 24 K} (hj : sellos[j]? = some s) (hf : finalFlag s.nonce = true) :
    j + 1 = sellos.length := by
  obtain ⟨fin, hs, hfin⟩ := h.2 j s hj
  rw [hs, finalFlag_chunkNonce] at hf
  exact hfin hf

theorem finalFlag_sellados {aead : Aead 24 K} {key : K} {aad : List UInt8}
    {bs : List (List UInt8)} (hbs : bs ≠ []) :
    ∃ s, (sellados aead key pre aad 0 bs).getLast? = some s ∧ finalFlag s.nonce = true := by
  have hpos := List.length_pos_of_ne_nil hbs
  obtain ⟨b, hb⟩ : ∃ b, bs[bs.length - 1]? = some b :=
    ⟨_, List.getElem?_eq_getElem (by omega)⟩
  refine ⟨selloDe aead key pre aad (bs.length - 1) true b, ?_, finalFlag_chunkNonce pre _ true⟩
  rw [List.getLast?_eq_getElem?, length_sellados, getElem?_sellados, hb, Option.map_some,
    Nat.zero_add, Nat.sub_add_cancel hpos, decide_eq_true rfl]

theorem responde_enEstado {α : Type} {p : Prog σ StreamError α} {f : Flujo σ}
    (hp : p.Responde f.estado) : (enEstado p).Responde f := by
  intro m f' h
  unfold enEstado at h
  split at h
  next => cases h
  next hp' =>
    cases h
    exact hp m _ hp'

theorem responde_escribir (bs : List UInt8) (s : Salida K) :
    (enEscritor (escribir bs)).Responde s := by
  intro m s' h
  unfold enEscritor escribir at h
  split at h
  next => cases h
  next hw =>
    split at hw
    next => cases hw
    next =>
      cases hw
      cases h

theorem responde_leer (c : Nat) (f : Flujo σ) : (leer c).Responde f := by
  intro m f' h
  unfold leer at h
  split at h
  next => cases h
  next => cases h

theorem responde_avanzar {minimo i : Nat} {paso : Paso σ} {b d : List UInt8} {s : σ}
    (hpaso : (paso i false b).Responde s) : (avanzar minimo paso b d i).Responde s := by
  have hminimo : (Prog.rechazarSi (d.length < minimo) StreamError.truncated :
      Prog σ StreamError Unit).Responde s := by
    intro m s' h
    rw [Prog.rechazarSi] at h
    by_cases hd : d.length < minimo
    · rw [rechazarSi_of _ hd] at h
      cases h
    · rw [rechazarSi_of_not _ hd] at h
      cases h
  refine hminimo.bind fun _ s₁ h₁ => ?_
  obtain ⟨-, rfl⟩ := Prog.deRes_eq_ok.mp h₁
  refine hpaso.bind fun _ s₂ _ => ?_
  intro m s' h
  unfold siguiente at h
  split at h
  next => cases h
  next => cases h

/-- The loop panics in no turn if its action does not. -/
theorem responde_bucle {c minimo : Nat} {paso : Paso σ}
    (hpaso : ∀ i fin b s, (paso i fin b).Responde s) (cur : List UInt8) (i : Nat) (f : Flujo σ) :
    Prog.Responde (bucle c minimo paso cur i) f := by
  intro m f' h
  induction cur, i, f using bucle.induct c minimo paso with
  | case1 cur i f hlt =>
    rw [bucle_ultimo hlt] at h
    exact responde_enEstado (hpaso i true cur f.estado) m f' h
  | case2 cur i f hlt e f₁ hr =>
    rw [bucle_lleno hlt, hr] at h
    cases h
    exact responde_leer c f m f' hr
  | case3 cur i f hlt f₁ hr =>
    rw [bucle_lleno hlt, hr] at h
    exact responde_enEstado (hpaso i true cur f₁.estado) m f' h
  | case4 cur i f hlt b bs f₁ hr e s ha =>
    rw [bucle_lleno hlt, hr] at h
    simp only [ha] at h
    cases h
    exact responde_avanzar (hpaso i false cur f₁.estado) m s ha
  | case5 cur i f hlt b bs f₁ hr j s ha ih =>
    rw [bucle_lleno hlt, hr] at h
    simp only [ha] at h
    exact ih h

theorem responde_sellarTrozo (aead : Aead 24 K) (key : K) (pre : Arr 19) (aad : List UInt8)
    (i : Nat) (fin : Bool) (b : List UInt8) (s : Salida K) :
    (sellarTrozo aead key pre aad i fin b).Responde s := by
  unfold sellarTrozo
  refine Prog.Responde.bind (Prog.responde_of_ok rfl) fun ct s₁ _ => ?_
  exact responde_escribir ct s₁

/-- Past the draw a run that Argon2 takes the costs of ends in `Ok` or in an error it returns. -/
theorem responde_trasSorteo (kdf : Kdf M K) (aead : Aead 24 K) (passphrase : String)
    (opts : StreamOptions) (ha : kdf.acepta opts.kdfParams = true) (salt : Arr 16) (pre : Arr 19)
    (f : Flujo (Salida K)) : (trasSorteo kdf aead passphrase opts salt pre).Responde f := by
  have hkey : deriveStreamKey kdf passphrase opts.pepper opts.kdfParams salt pre = .ok _ :=
    deriveStreamKey_eq_ok.mpr ⟨ha, rfl⟩
  have hpreludio : (preludio kdf passphrase opts salt pre).Responde f := by
    refine (responde_enEstado (responde_escribir _ f.estado)).bind fun _ f₁ _ => ?_
    rw [hkey]
    refine (Prog.responde_of_ok (Prog.deRes_ok _ f₁)).bind fun key f₂ _ => ?_
    refine (responde_leer opts.chunkSize f₂).bind fun cur f₃ _ => ?_
    exact Prog.responde_of_ok rfl
  exact hpreludio.bind fun r f₁ _ =>
    responde_bucle (fun i fin b s => responde_sellarTrozo aead r.1 _ _ i fin b s) r.2 0 f₁

/-- The nonces of any run are distinct and only the last seal may carry the final flag; a run
that ends well gives it to its last seal; and one with more than `2 ^ 32` chunks never ends well:
once it has drawn its salt and prefix, under costs that Argon2 takes, it returns an error. -/
theorem nonces_unicos (kdf : Kdf M K) (aead : Aead 24 K) (passphrase : String)
    (opts : StreamOptions) (f : Flujo (Salida K)) :
    (∃ nuevos, (quedado (encryptStream kdf aead passphrase opts f)).estado.mundo.sellos =
          f.estado.mundo.sellos ++ nuevos ∧
        (nuevos.map Sello.nonce).Nodup ∧
        (∀ j s, nuevos[j]? = some s → finalFlag s.nonce = true → j + 1 = nuevos.length) ∧
        ∀ f', encryptStream kdf aead passphrase opts f = .ok () f' →
          ∃ s, nuevos.getLast? = some s ∧ finalFlag s.nonce = true) ∧
      (2 ^ 32 < (lookaheadChunks opts.chunkSize f.lector.resto).length →
        (∃ e f', encryptStream kdf aead passphrase opts f = .error e f') ∧
        ∀ x f₁, sortear opts f = .ok x f₁ → kdf.acepta opts.kdfParams = true →
          ∃ e f', encryptStream kdf aead passphrase opts f = .error (.error e) f') := by
  obtain ⟨nuevos, hs, hlen, hcomienzan⟩ := encryptStream_sellos kdf aead passphrase opts f
  obtain ⟨pre, hnum⟩ : ∃ pre, Numerados pre nuevos := by
    rcases hcomienzan with rfl | ⟨salt, pre, f₁, key, -, hpre⟩
    · exact ⟨List.Vector.replicate 19 0, numerados_nil⟩
    · exact ⟨pre, numerados_of_prefix hlen hpre⟩
  have hfalla (hlargo : 2 ^ 32 < (lookaheadChunks opts.chunkSize f.lector.resto).length) :
      ∃ e f', encryptStream kdf aead passphrase opts f = .error e f' := by
    cases h : encryptStream kdf aead passphrase opts f with
    | error e f' => exact ⟨e, f', rfl⟩
    | ok u f' =>
      obtain ⟨_, _, _, salt, pre', key, _, s₁, _, _, hem⟩ := encryptStream_ok h
      have hcuenta := (emitir_sellarTrozo_ok hem).2.2 (Nat.two_pow_pos 32)
      omega
  refine ⟨⟨nuevos, hs, hnum.nodup, fun j s hj => hnum.finalFlag hj, fun f' h => ?_⟩,
    fun hlargo => ⟨hfalla hlargo, fun x f₁ hx ha => ?_⟩⟩
  · obtain ⟨_, _, _, salt, pre', key, _, s₁, _, hsellos, hem⟩ := encryptStream_ok h
    obtain ⟨_, hfin, _⟩ := emitir_sellarTrozo_ok hem
    rw [h] at hs
    have hnuevos : nuevos = sellados aead key pre' (opts.header salt pre').toBytes 0
        (lookaheadChunks opts.chunkSize f.lector.resto) := by
      rw [hsellos] at hfin
      exact List.append_cancel_left (hs.symm.trans hfin)
    rw [hnuevos]
    exact finalFlag_sellados (lookaheadChunks_ne_nil _ _)
  · obtain ⟨e, f', h⟩ := hfalla hlargo
    rw [encryptStream_eq, Prog.bind_of_ok hx] at h ⊢
    cases e with
    | error e => exact ⟨e, f', h⟩
    | panico m => exact absurd h (responde_trasSorteo kdf aead passphrase opts ha x.1 x.2 f₁ m f')

/-- A plaintext that does not fit in the counter. -/
theorem nonces_unicos_agotado :
    ∃ data : List UInt8, 2 ^ 32 < (lookaheadChunks 4096 data).length ∧
      ∃ e f', encryptStream (Kdf.libre id) (Aead.deRegistro marcar []) "a"
        ⟨⟨8, 1, 1⟩, 4096, []⟩ ⟨⟨data, []⟩, .sereno, .vec []⟩ = .error (.error e) f' := by
  obtain ⟨data, hdata⟩ : ∃ data : List UInt8, data.length = 2 ^ 44 + 1 :=
    ⟨List.replicate (2 ^ 44 + 1) 0, List.length_replicate⟩
  have hcuenta : 2 ^ 32 < (lookaheadChunks 4096 data).length := by
    have hle := length_le_lookaheadChunks (c := 4096) (by decide) data
    omega
  refine ⟨data, hcuenta, ?_⟩
  exact ((nonces_unicos (Kdf.libre id) (Aead.deRegistro marcar []) "a" ⟨⟨8, 1, 1⟩, 4096, []⟩
    ⟨⟨data, []⟩, .sereno, .vec []⟩).2 hcuenta).2 _ _ rfl (by decide)

end Stream

end Quipu
