import Quipu.Marco
import Quipu.Stream

namespace Quipu

namespace Stream

variable {M K : Type} {aead : Aead 24 K} {key : K} {pre : Arr 19} {aad : List UInt8}

def selloDe (aead : Aead 24 K) (key : K) (pre : Arr 19) (aad : List UInt8) (counter : Nat)
    (final : Bool) (trozo : List UInt8) : Sello 24 K :=
  ⟨key, chunkNonce pre counter final, aad, trozo,
    aead.sella key (chunkNonce pre counter final) trozo aad⟩

/-- The seals of a list of chunks counted from `counter`; the last carries the flag. -/
def sellados (aead : Aead 24 K) (key : K) (pre : Arr 19) (aad : List UInt8) :
    Nat → List (List UInt8) → List (Sello 24 K)
  | _, [] => []
  | counter, [b] => [selloDe aead key pre aad counter true b]
  | counter, b :: d :: bs =>
    selloDe aead key pre aad counter false b :: sellados aead key pre aad (counter + 1) (d :: bs)

def bloques (sellos : List (Sello 24 K)) : List (List UInt8) := sellos.map Sello.ciphertext

@[simp] theorem length_sellados (i : Nat) (bs : List (List UInt8)) :
    (sellados aead key pre aad i bs).length = bs.length := by
  induction i, bs using sellados.induct with
  | case1 i => rfl
  | case2 i b => rfl
  | case3 i b d bs ih => simp [sellados, ih]

theorem getElem?_sellados (i j : Nat) (bs : List (List UInt8)) :
    (sellados aead key pre aad i bs)[j]? =
      bs[j]?.map (selloDe aead key pre aad (i + j) (decide (j + 1 = bs.length))) := by
  induction i, bs using sellados.induct generalizing j with
  | case1 i => simp [sellados]
  | case2 i b =>
    cases j with
    | zero => simp [sellados]
    | succ j => simp [sellados]
  | case3 i b d bs ih =>
    cases j with
    | zero => simp [sellados]
    | succ j =>
      rw [sellados, List.getElem?_cons_succ, ih]
      simp [Nat.add_assoc, Nat.add_comm 1 j]

theorem sello_of_mem_sellados {s : Sello 24 K} {i : Nat} {bs : List (List UInt8)}
    (h : s ∈ sellados aead key pre aad i bs) : s.key = key ∧ s.aad = aad := by
  obtain ⟨j, hj⟩ := List.mem_iff_getElem?.mp h
  rw [getElem?_sellados] at hj
  obtain ⟨b, _, rfl⟩ := Option.map_eq_some_iff.mp hj
  exact ⟨rfl, rfl⟩

theorem length_ciphertext_sellados (hT : aead.AddsTag) {s : Sello 24 K} {i : Nat}
    {bs : List (List UInt8)} (h : s ∈ sellados aead key pre aad i bs) :
    s.ciphertext.length = s.plaintext.length + tagLen := by
  obtain ⟨j, hj⟩ := List.mem_iff_getElem?.mp h
  rw [getElem?_sellados] at hj
  obtain ⟨b, _, rfl⟩ := Option.map_eq_some_iff.mp hj
  exact hT _ _ _ _

theorem framed_bloques_sellados (hT : aead.AddsTag) {c : Nat} (i : Nat) {bs : List (List UInt8)}
    (h : Framed c bs) :
    Framed (c + tagLen) (bloques (sellados aead key pre aad i bs)) := by
  induction h generalizing i with
  | last hb =>
    apply Framed.last
    simp only [selloDe, hT _ _ _ _]
    omega
  | @cons b d bs hb hd hf ih =>
    have hi := ih (i + 1)
    have hlen : (aead.sella key (chunkNonce pre i false) b aad).length = c + tagLen := by
      rw [hT, hb]
    have hne : ∀ n fin, aead.sella key (chunkNonce pre n fin) d aad ≠ [] := by
      intro n fin he
      have := hT key (chunkNonce pre n fin) d aad
      simp [he, tagLen] at this
    cases bs with
    | nil => exact Framed.cons hlen (hne _ _) hi
    | cons e bs => exact Framed.cons hlen (hne _ _) hi

theorem sellarTrozo_ok {i : Nat} {fin : Bool} {b : List UInt8} {s s' : Salida K}
    (h : sellarTrozo aead key pre aad i fin b s = .ok () s') :
    s'.escritor.salida = s.escritor.salida ++ (selloDe aead key pre aad i fin b).ciphertext ∧
      s'.mundo.sellos = s.mundo.sellos ++ [selloDe aead key pre aad i fin b] := by
  obtain ⟨ct, s₁, hs, hw⟩ := Prog.bind_ok.mp h
  obtain ⟨hs, he⟩ := enMundo_eq_ok.mp hs
  obtain ⟨hw, hm⟩ := enEscritor_eq_ok.mp hw
  rw [sellar_apply] at hs
  simp only [EStateM.Result.ok.injEq] at hs
  obtain ⟨rfl, hm₁⟩ := hs
  refine ⟨?_, ?_⟩
  · rw [escribir_ok hw, he]
    rfl
  · rw [hm, ← hm₁]
    rfl

section Marco

variable {ε α σ : Type}

theorem quedado_eq_final (r : EStateM.Result (Fallo ε) σ α) : quedado r = Prog.final r := by
  cases r <;> rfl

theorem enMundo_quedado (p : Prog (Mundo 24 K) ε α) (s : Salida K) :
    (quedado (enMundo p s)).mundo = quedado (p s.mundo) := by
  unfold enMundo
  cases p s.mundo <;> rfl

theorem enEscritor_quedado (p : Prog Escritor ε α) (s : Salida K) :
    (quedado (enEscritor p s)).mundo = s.mundo := by
  unfold enEscritor
  cases p s.escritor <;> rfl

theorem pedirRng_quedado (k : Nat) (m : Mundo 24 K) :
    (quedado ((pedirRng k : Prog (Mundo 24 K) ε (Arr k)) m)).sellos = m.sellos := by
  unfold pedirRng pedir
  split <;> rfl

def MismosSellos (f f' : Flujo (Salida K)) : Prop :=
  f'.estado.mundo.sellos = f.estado.mundo.sellos

instance : IsPreorder (Flujo (Salida K)) MismosSellos where
  refl := fun _ => rfl
  trans := fun _ _ _ h h' => h'.trans h

theorem conserva_deRes (r : Res StreamError α) :
    Prog.Conserva MismosSellos (Prog.deRes r : Prog (Flujo (Salida K)) StreamError α) := by
  intro f
  cases r <;> rfl

theorem conserva_enEstado {p : Prog (Salida K) StreamError α}
    (hp : ∀ s, (quedado (p s)).mundo.sellos = s.mundo.sellos) :
    Prog.Conserva MismosSellos (enEstado p) := by
  intro f
  rw [MismosSellos, ← quedado_eq_final, enEstado_quedado]
  exact hp f.estado

theorem conserva_pedirRng (k : Nat) :
    Prog.Conserva MismosSellos
      (enEstado (enMundo (pedirRng k)) : Prog (Flujo (Salida K)) StreamError (Arr k)) := by
  apply conserva_enEstado
  intro s
  rw [enMundo_quedado, pedirRng_quedado]

theorem conserva_escribir (bs : List UInt8) :
    Prog.Conserva MismosSellos
      (enEstado (enEscritor (escribir bs)) : Prog (Flujo (Salida K)) StreamError Unit) := by
  apply conserva_enEstado
  intro s
  rw [enEscritor_quedado]

theorem conserva_leer (c : Nat) :
    Prog.Conserva MismosSellos (leer c : Prog (Flujo (Salida K)) StreamError (List UInt8)) := by
  intro f
  rw [MismosSellos, ← quedado_eq_final, leer_quedado]

end Marco

theorem sellarTrozo_quedado (aead : Aead 24 K) (key : K) (pre : Arr 19) (aad : List UInt8)
    (i : Nat) (fin : Bool) (b : List UInt8) (s : Salida K) :
    (quedado (sellarTrozo aead key pre aad i fin b s)).mundo.sellos =
      s.mundo.sellos ++ [selloDe aead key pre aad i fin b] := by
  have hsella : enMundo (ε := StreamError) (sellar aead key (chunkNonce pre i fin) b aad) s =
      .ok (selloDe aead key pre aad i fin b).ciphertext { s with mundo := { s.mundo with
        sellos := s.mundo.sellos ++ [selloDe aead key pre aad i fin b] } } := rfl
  rw [sellarTrozo, Prog.bind_of_ok hsella, enEscritor_quedado]

/-- What the loop of the writer seals, however it ends, is a beginning of the seals of its chunks,
with room in the counter. -/
theorem bucle_sellos (aead : Aead 24 K) (key : K) (pre : Arr 19) (aad : List UInt8) {c : Nat}
    (hc : 0 < c) {cur : List UInt8} {i : Nat} {f : Flujo (Salida K)} (hcur : cur.length ≤ c)
    (hend : cur.length < c → f.lector.resto = []) :
    ∃ nuevos, (quedado (bucle c 0 (sellarTrozo aead key pre aad) cur i f)).estado.mundo.sellos =
        f.estado.mundo.sellos ++ nuevos ∧
      nuevos <+: sellados aead key pre aad i (lookaheadChunks c (cur ++ f.lector.resto)) ∧
      (i < 2 ^ 32 → i + nuevos.length ≤ 2 ^ 32) := by
  induction cur, i, f using bucle.induct c 0 (sellarTrozo aead key pre aad) with
  | case1 cur i f hlt =>
    rw [bucle_ultimo hlt, hend hlt, List.append_nil, lookaheadChunks_of_le hcur]
    refine ⟨[selloDe aead key pre aad i true cur], ?_, List.prefix_rfl, fun hi => hi⟩
    rw [enEstado_quedado, sellarTrozo_quedado]
  | case2 cur i f hlt e f₁ hr =>
    have hest : f₁.estado = f.estado := by
      rw [← leer_quedado c f, hr, quedado]
    rw [bucle_lleno hlt, hr, quedado, hest]
    exact ⟨[], (List.append_nil _).symm, List.nil_prefix, fun hi => hi.le⟩
  | case3 cur i f hlt f₁ hr =>
    rw [bucle_lleno hlt, hr, lookaheadChunks_of_leer_nil hc hcur hr]
    refine ⟨[selloDe aead key pre aad i true cur], ?_, List.prefix_rfl, fun hi => hi⟩
    simp only
    rw [enEstado_quedado, sellarTrozo_quedado, (leer_eq_ok.mp hr).2]
  | case4 cur i f hlt b bs f₁ hr e s ha =>
    obtain ⟨-, -, ds, -, hcut⟩ :=
      lookaheadChunks_of_leer_cons hc (hcur.antisymm (Nat.not_lt.mp hlt)) (by simp) hr
    rw [bucle_lleno hlt, hr, hcut, sellados]
    simp only [ha]
    have hs := avanzar_quedado 0 i (sellarTrozo aead key pre aad) cur (b :: bs) f₁.estado
    rw [ha, (leer_eq_ok.mp hr).2] at hs
    rcases hs with rfl | rfl
    · exact ⟨[], (List.append_nil _).symm, List.nil_prefix, fun hi => hi.le⟩
    · exact ⟨_, sellarTrozo_quedado aead key pre aad i false cur f.estado, ⟨_, rfl⟩, fun hi => hi⟩
  | case5 cur i f hlt b bs f₁ hr j s ha ih =>
    obtain ⟨hle, hshort, ds, hd, hcut⟩ :=
      lookaheadChunks_of_leer_cons hc (hcur.antisymm (Nat.not_lt.mp hlt)) (by simp) hr
    obtain ⟨nuevos, hn, hpre, hcuenta⟩ := ih hle hshort
    obtain ⟨-, hp, hi, rfl⟩ := avanzar_eq_ok.mp ha
    rw [bucle_lleno hlt, hr, hcut, sellados]
    rw [hd] at hpre
    simp only [ha]
    refine ⟨selloDe aead key pre aad i false cur :: nuevos, ?_,
      List.cons_prefix_cons.mpr ⟨rfl, hpre⟩, fun _ => ?_⟩
    · rw [hn, (sellarTrozo_ok hp).2, (leer_eq_ok.mp hr).2, List.append_assoc,
        List.singleton_append]
    · have := hcuenta hi
      rw [List.length_cons]
      omega

theorem conserva_sortear (opts : StreamOptions) :
    Prog.Conserva MismosSellos (sortear opts : Prog (Flujo (Salida K)) StreamError _) := by
  unfold sortear
  refine Prog.Conserva.bind (conserva_deRes _) fun _ => ?_
  refine Prog.Conserva.bind (conserva_deRes _) fun _ => ?_
  apply (conserva_pedirRng 16).bind
  intro salt
  apply (conserva_pedirRng 19).bind
  intro pre
  exact Prog.conserva_pure _

theorem conserva_preludio (kdf : Kdf M K) (passphrase : String) (opts : StreamOptions)
    (salt : Arr 16) (pre : Arr 19) :
    Prog.Conserva MismosSellos (preludio kdf passphrase opts salt pre) := by
  unfold preludio
  refine Prog.Conserva.bind (conserva_escribir _) fun _ => ?_
  apply (conserva_deRes _).bind
  intro key
  apply (conserva_leer opts.chunkSize).bind
  intro cur
  exact Prog.conserva_pure _

/-- These seals begin those of the chunks of the run under the salt and the prefix it drew; there
are none if it drew none. -/
def Comienzan (aead : Aead 24 K) (opts : StreamOptions) (f : Flujo (Salida K))
    (sellos : List (Sello 24 K)) : Prop :=
  sellos = [] ∨ ∃ salt pre f₁ key, sortear opts f = .ok (salt, pre) f₁ ∧
    sellos <+: sellados aead key pre (opts.header salt pre).toBytes 0
      (lookaheadChunks opts.chunkSize f.lector.resto)

/-- What a run has sealed when it stops, however it stops. -/
theorem encryptStream_sellos (kdf : Kdf M K) (aead : Aead 24 K) (passphrase : String)
    (opts : StreamOptions) (f : Flujo (Salida K)) :
    ∃ nuevos, (quedado (encryptStream kdf aead passphrase opts f)).estado.mundo.sellos =
        f.estado.mundo.sellos ++ nuevos ∧
      nuevos.length ≤ 2 ^ 32 ∧ Comienzan aead opts f nuevos := by
  rw [encryptStream_eq]
  cases hx : sortear opts f with
  | error e f₁ =>
    refine ⟨[], ?_, Nat.zero_le _, .inl rfl⟩
    rw [Prog.bind_of_error hx, List.append_nil]
    exact (conserva_sortear opts).of_error hx
  | ok x f₁ =>
    obtain ⟨-, hlo, -, hl, -, hm⟩ := sortear_ok hx
    rw [Prog.bind_of_ok hx, trasSorteo]
    cases hr : preludio kdf passphrase opts x.1 x.2 f₁ with
    | error e f₂ =>
      refine ⟨[], ?_, Nat.zero_le _, .inl rfl⟩
      rw [Prog.bind_of_error hr, List.append_nil]
      exact ((conserva_preludio kdf passphrase opts x.1 x.2).of_error hr).trans hm
    | ok r f₂ =>
      obtain ⟨-, -, hm₂, hcur⟩ := preludio_ok hr
      obtain ⟨hresto, hle, hshort⟩ := readChunk_ok hcur
      obtain ⟨nuevos, hn, hpre, hcuenta⟩ := bucle_sellos aead r.1 x.2
        (opts.header x.1 x.2).toBytes (chunkSize_pos hlo) hle hshort
      rw [← hresto, hl] at hpre
      have hlen := hcuenta (Nat.two_pow_pos 32)
      rw [Nat.zero_add] at hlen
      refine ⟨nuevos, ?_, hlen, .inr ⟨x.1, x.2, f₁, r.1, hx, hpre⟩⟩
      rw [Prog.bind_of_ok hr, ← hm, ← hm₂]
      exact hn

/-- What a writer that ends well leaves: its sealed chunks, with room in the counter. -/
theorem emitir_sellarTrozo_ok {i : Nat} {bs : List (List UInt8)} {s s' : Salida K}
    (h : emitir 0 (sellarTrozo aead key pre aad) i bs s = .ok () s') :
    s'.escritor.salida =
        s.escritor.salida ++ (bloques (sellados aead key pre aad i bs)).flatten ∧
      s'.mundo.sellos = s.mundo.sellos ++ sellados aead key pre aad i bs ∧
      (i < 2 ^ 32 → i + bs.length ≤ 2 ^ 32) := by
  induction i, bs using sellados.induct generalizing s with
  | case1 i =>
    cases h
    refine ⟨by simp [sellados, bloques], by simp [sellados], fun hi => ?_⟩
    rw [List.length_nil]
    omega
  | case2 i b =>
    obtain ⟨hw, hm⟩ := sellarTrozo_ok h
    refine ⟨by simp [sellados, bloques, hw], by simp [sellados, hm], fun hi => ?_⟩
    rw [List.length_singleton]
    omega
  | case3 i b d bs ih =>
    obtain ⟨j, s₁, ha, hr⟩ := Prog.bind_ok.mp h
    obtain ⟨_, hp, hi, rfl⟩ := avanzar_eq_ok.mp ha
    obtain ⟨hw, hm⟩ := sellarTrozo_ok hp
    obtain ⟨hw', hm', hb⟩ := ih hr
    refine ⟨?_, ?_, fun _ => ?_⟩
    · rw [hw', hw]
      simp [sellados, bloques]
    · rw [hm', hm]
      simp [sellados]
    · have := hb hi
      simp only [List.length_cons] at this ⊢
      omega

theorem emitir_sellarTrozo_vec {i : Nat} {bs : List (List UInt8)} (hi : i + bs.length ≤ 2 ^ 32)
    (m : Mundo 24 K) (salida : List UInt8) :
    ∃ s', emitir 0 (sellarTrozo aead key pre aad) i bs ⟨m, .vec salida⟩ = .ok () s' := by
  induction i, bs using sellados.induct generalizing m salida with
  | case1 i => exact ⟨_, rfl⟩
  | case2 i b => exact ⟨_, rfl⟩
  | case3 i b d bs ih =>
    simp only [List.length_cons] at hi ih
    obtain ⟨s', hs'⟩ := ih (by omega) { m with
      sellos := m.sellos ++ [selloDe aead key pre aad i false b] }
      (salida ++ (selloDe aead key pre aad i false b).ciphertext)
    exact ⟨s', (Prog.bind_of_ok
      (avanzar_eq_ok.mpr ⟨Nat.zero_le _, rfl, by omega, rfl⟩)).trans hs'⟩

/-- A reader that opens what the writer sealed writes the chunks back. -/
theorem emitir_abrirTrozo_bloques (hU : aead.Undoes) (hT : aead.AddsTag) {i : Nat}
    {bs : List (List UInt8)} {salida : List UInt8} (hi : i + bs.length ≤ 2 ^ 32) :
    emitir tagLen (abrirTrozo aead key pre aad) i
        (bloques (sellados aead key pre aad i bs)) (.vec salida) =
      .ok () (.vec (salida ++ bs.flatten)) := by
  have habre : ∀ i fin b salida,
      abrirTrozo aead key pre aad i fin (selloDe aead key pre aad i fin b).ciphertext
        (.vec salida) = .ok () (.vec (salida ++ b)) := by
    intro i fin b salida
    exact abrirTrozo_vec (hU _ _ _ _)
  induction i, bs using sellados.induct generalizing salida with
  | case1 i => simp [sellados, bloques, emitir, pure, EStateM.pure]
  | case2 i b => simpa [sellados, bloques, emitir] using habre i true b salida
  | case3 i b d bs ih =>
    have hi' : i + 1 + (d :: bs).length ≤ 2 ^ 32 := by
      simp at hi ⊢
      omega
    have hr := @ih (salida ++ b) hi'
    have hd : ∃ c cs, bloques (sellados aead key pre aad (i + 1) (d :: bs)) = c :: cs ∧
        tagLen ≤ c.length := by
      cases bs with
      | nil => exact ⟨_, _, rfl, by simp [selloDe, hT _ _ _ _]⟩
      | cons e bs => exact ⟨_, _, rfl, by simp [selloDe, hT _ _ _ _]⟩
    obtain ⟨c, cs, hcs, hle⟩ := hd
    have hav : avanzar tagLen (abrirTrozo aead key pre aad)
        (selloDe aead key pre aad i false b).ciphertext c i (.vec salida) =
          .ok (i + 1) (.vec (salida ++ b)) :=
      avanzar_eq_ok.mpr ⟨hle, habre i false b salida, by simp at hi; omega, rfl⟩
    have heq : bloques (sellados aead key pre aad i (b :: d :: bs)) =
        (selloDe aead key pre aad i false b).ciphertext ::
          bloques (sellados aead key pre aad (i + 1) (d :: bs)) := rfl
    rw [hcs] at heq hr
    rw [heq, emitir]
    apply (Prog.bind_of_ok hav).trans
    simpa using hr

theorem encryptStream_vec (kdf : Kdf M K) (aead : Aead 24 K) (passphrase : String)
    (opts : StreamOptions) (l : Lector) (m : Mundo 24 K) (salida : List UInt8)
    {m₁ m₂ : Mundo 24 K} {salt : Arr 16} {pre : Arr 19} (hsane : opts.kdfParams.isSane = true)
    (ha : kdf.acepta opts.kdfParams = true) (hlo : minChunkSize ≤ opts.chunkSize)
    (hhi : opts.chunkSize ≤ maxChunkSize)
    (hsalt : (pedirRng 16 : Prog (Mundo 24 K) StreamError (Arr 16)) m = .ok salt m₁)
    (hpre : (pedirRng 19 : Prog (Mundo 24 K) StreamError (Arr 19)) m₁ = .ok pre m₂)
    (hl : l.SinFallas) (hlen : (lookaheadChunks opts.chunkSize l.resto).length ≤ 2 ^ 32) :
    ∃ f', encryptStream kdf aead passphrase opts ⟨l, m, .vec salida⟩ = .ok () f' := by
  have hkey : deriveStreamKey kdf passphrase opts.pepper opts.kdfParams salt pre = .ok _ :=
    deriveStreamKey_eq_ok.mpr ⟨ha, rfl⟩
  have hcount : 0 + (lookaheadChunks opts.chunkSize l.resto).length ≤ 2 ^ 32 := by omega
  obtain ⟨s', hem⟩ := emitir_sellarTrozo_vec hcount m₂ _
  obtain ⟨f', hf', _⟩ := encryptStream_of_emitir hsane hlo hhi hsalt hpre hkey hl hem
  exact ⟨f', hf'⟩

end Stream

end Quipu
