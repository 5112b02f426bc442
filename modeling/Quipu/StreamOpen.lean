import Quipu.StreamSeals

namespace Quipu

namespace Stream

variable {M K : Type} {aead : Aead 24 K} {key : K} {pre : Arr 19} {aad : List UInt8}
  {trozos : List (List UInt8)} {sellos : List (Sello 24 K)}

theorem drop_eq_cons {α : Type} {xs : List α} {i : Nat} {x : α} (h : xs[i]? = some x) :
    xs.drop i = x :: xs.drop (i + 1) := by
  obtain ⟨hi, rfl⟩ := List.getElem?_eq_some_iff.mp h
  exact List.drop_eq_getElem_cons hi

theorem chunkNonce_inj {i j : Nat} {fin fin' : Bool} (hi : i < 2 ^ 32) (hj : j < 2 ^ 32)
    (h : chunkNonce pre i fin = chunkNonce pre j fin') : i = j ∧ fin = fin' := by
  have hl := congrArg List.Vector.toList h
  simp only [chunkNonce, Arr.toList_of] at hl
  obtain ⟨hl, hf⟩ := List.append_inj' hl rfl
  obtain ⟨_, hc⟩ := List.append_inj' hl (by simp)
  refine ⟨be_inj (by omega) (by omega) hc, ?_⟩
  cases fin <;> cases fin' <;> first | rfl | exact absurd hf (by decide)

/-- A seal at the counter among those that begin the seals of `trozos` is that of its chunk. -/
theorem mem_sellados {i : Nat} {fin : Bool} {p b : List UInt8}
    (hi : i < 2 ^ 32) (hsub : sellos <+: sellados aead key pre aad 0 trozos)
    (hlen : sellos.length ≤ 2 ^ 32) (h : ⟨key, chunkNonce pre i fin, aad, p, b⟩ ∈ sellos) :
    i < sellos.length ∧ trozos[i]? = some p ∧ fin = decide (i + 1 = trozos.length) ∧
      (bloques (sellados aead key pre aad 0 trozos))[i]? = some b := by
  obtain ⟨j, hjs⟩ := List.mem_iff_getElem?.mp h
  obtain ⟨hjl, hel⟩ := List.getElem?_eq_some_iff.mp hjs
  have hj : (sellados aead key pre aad 0 trozos)[j]? =
      some ⟨key, chunkNonce pre i fin, aad, p, b⟩ := by
    rw [← hel]
    exact List.prefix_iff_getElem?.mp hsub j hjl
  have hb : (bloques (sellados aead key pre aad 0 trozos))[j]? = some b := by
    rw [bloques, List.getElem?_map, hj]
    rfl
  rw [getElem?_sellados] at hj
  obtain ⟨d, hd, he⟩ := Option.map_eq_some_iff.mp hj
  simp only [selloDe, Sello.mk.injEq, Nat.zero_add] at he
  obtain ⟨_, hn, _, rfl, _⟩ := he
  obtain ⟨rfl, hf⟩ := chunkNonce_inj (by omega) hi hn
  exact ⟨hjl, hd, hf.symm, hb⟩

/-- What opens under this key, prefix and header is one of these seals, which begin those of
`trozos`. -/
structure AbreSolo (aead : Aead 24 K) (key : K) (pre : Arr 19) (aad : List UInt8)
    (trozos : List (List UInt8)) (sellos : List (Sello 24 K)) : Prop where
  abre : ∀ i fin b p, aead.abre key (chunkNonce pre i fin) b aad = some p →
    ⟨key, chunkNonce pre i fin, aad, p, b⟩ ∈ sellos
  comienzan : sellos <+: sellados aead key pre aad 0 trozos
  caben : sellos.length ≤ 2 ^ 32

/-- A block either fails to open, and nothing is written, or is the one at the counter. -/
theorem abrirTrozo_cases (ha : AbreSolo aead key pre aad trozos sellos) {i : Nat}
    (hi : i < 2 ^ 32) (fin : Bool) (b : List UInt8) (w : Escritor) :
    (∃ e, abrirTrozo aead key pre aad i fin b w = .error e w) ∨
      ∃ p, i < sellos.length ∧ trozos[i]? = some p ∧ fin = decide (i + 1 = trozos.length) ∧
        (bloques (sellados aead key pre aad 0 trozos))[i]? = some b ∧
        abrirTrozo aead key pre aad i fin b w = escribir p w := by
  unfold abrirTrozo
  cases h : Cipher.decrypt aead key (chunkNonce pre i fin) b aad with
  | error e => exact Or.inl ⟨_, rfl⟩
  | ok p =>
    obtain ⟨hs, hp, hf, hb⟩ :=
      mem_sellados hi ha.comienzan ha.caben (ha.abre _ _ _ _ (Cipher.decrypt_eq_ok.mp h))
    exact Or.inr ⟨p, hs, hp, hf, hb, rfl⟩

theorem emitir_abrirTrozo_ok (ha : AbreSolo aead key pre aad trozos sellos) {i : Nat}
    {bs : List (List UInt8)} {w w' : Escritor} (hi : i < 2 ^ 32) (hne : bs ≠ [])
    (h : emitir tagLen (abrirTrozo aead key pre aad) i bs w = .ok () w') :
    bs = (bloques (sellados aead key pre aad 0 trozos)).drop i ∧
      w'.salida = w.salida ++ (trozos.drop i).flatten ∧ trozos.length ≤ sellos.length := by
  have hbl : (bloques (sellados aead key pre aad 0 trozos)).length = trozos.length := by
    simp [bloques]
  induction bs generalizing i w with
  | nil => exact absurd rfl hne
  | cons b bs ih =>
    cases bs with
    | nil =>
      rcases abrirTrozo_cases ha hi true b w with ⟨e, he⟩ | ⟨p, hs, hp, hf, hb, hw⟩
      · rw [emitir, he] at h
        cases h
      · rw [emitir, hw] at h
        have hlast : i + 1 = trozos.length := by simpa using hf.symm
        rw [drop_eq_cons hb, drop_eq_cons hp, List.drop_of_length_le (by omega),
          List.drop_of_length_le (by omega), escribir_ok h]
        exact ⟨rfl, by simp, by omega⟩
    | cons d bs =>
      obtain ⟨j, w₁, hav, hr⟩ := Prog.bind_ok.mp h
      obtain ⟨_, hpaso, hi', rfl⟩ := avanzar_eq_ok.mp hav
      rcases abrirTrozo_cases ha hi false b w with ⟨e, he⟩ | ⟨p, -, hp, -, hb, hw⟩
      · rw [he] at hpaso
        cases hpaso
      · rw [hw] at hpaso
        obtain ⟨hds, hw', hle⟩ := ih hi' (by simp) hr
        rw [drop_eq_cons hb, drop_eq_cons hp, ← hds, hw', escribir_ok hpaso]
        exact ⟨rfl, by simp, hle⟩

/-- What the writer of an opened stream can hold: whole chunks from the first on, but for a
write that failed inside the next one. -/
def Escrito (trozos : List (List UInt8)) (w₀ w : Escritor) : Prop :=
  ∃ m, w.salida = w₀.salida ++ (trozos.take m).flatten ∨
    ∃ d n e, trozos[m]? = some d ∧ some (n, e) ∈ w₀.fallas ∧
      w.salida = w₀.salida ++ (trozos.take m).flatten ++ d.take n

theorem escribir_cases (p : List UInt8) (w : Escritor) :
    (∃ w', escribir p w = .ok () w' ∧ w'.salida = w.salida ++ p ∧ w'.fallas <:+ w.fallas) ∨
      ∃ n e w', escribir p w = .error (.error (.io e)) w' ∧ some (n, e) ∈ w.fallas ∧
        w'.salida = w.salida ++ p.take n := by
  unfold escribir Escritor.writeAll
  cases hf : w.fallas with
  | nil => exact Or.inl ⟨_, rfl, rfl, List.suffix_refl _⟩
  | cons f fs =>
    cases f with
    | none => exact Or.inl ⟨_, rfl, rfl, List.suffix_cons _ _⟩
    | some ne =>
      obtain ⟨n, e⟩ := ne
      exact Or.inr ⟨n, e, _, rfl, List.mem_cons_self, rfl⟩

/-- Whatever the blocks are, the loop leaves written a beginning of `trozos`. -/
theorem decryptLoop_escrito (ha : AbreSolo aead key pre aad trozos sellos) (block : Nat)
    (cur : List UInt8) (f : Flujo Escritor) :
    Escrito trozos f.estado (quedado (decryptLoop aead key pre aad block cur f)).estado := by
  refine bucle_inv (I := fun i w => i < 2 ^ 32 ∧
    w.salida = f.estado.salida ++ (trozos.take i).flatten ∧ w.fallas <:+ f.estado.fallas)
    (fun i w h => ⟨i, Or.inl h.2.1⟩) ?_ ?_ ⟨by decide, by simp, List.suffix_refl _⟩
  · rintro i fin b w ⟨hi, hw, hfa⟩
    rcases abrirTrozo_cases ha hi fin b w with ⟨e, he⟩ | ⟨p, -, hp, -, -, hab⟩
    · rw [he]
      exact ⟨i, Or.inl hw⟩
    · rw [hab]
      rcases escribir_cases p w with ⟨w', he, hs, _⟩ | ⟨n, e, w', he, hn, hs⟩
      · rw [he]
        refine ⟨i + 1, Or.inl ?_⟩
        rw [quedado, hs, hw, List.take_add_one, hp]
        simp
      · rw [he]
        exact ⟨i, Or.inr ⟨p, n, e, hp, hfa.subset hn, by rw [quedado, hs, hw]⟩⟩
  · rintro i b w w' ⟨hi, hw, hfa⟩ h hi'
    rcases abrirTrozo_cases ha hi false b w with ⟨e, he⟩ | ⟨p, -, hp, -, -, hab⟩
    · rw [he] at h
      cases h
    · rw [hab] at h
      rcases escribir_cases p w with ⟨w₁, he, hs, hsuf⟩ | ⟨n, e, w₁, he, _⟩
      · rw [he] at h
        cases h
        refine ⟨hi', ?_, hsuf.trans hfa⟩
        rw [hs, hw, List.take_add_one, hp]
        simp
      · rw [he] at h
        cases h

/-- A loop that succeeds read the whole sealed stream and wrote all of `trozos`. -/
theorem decryptLoop_ok (ha : AbreSolo aead key pre aad trozos sellos) {block : Nat}
    {cur : List UInt8} {f f' : Flujo Escritor} (hb : 0 < block)
    (hcur : cur.length ≤ block) (hend : cur.length < block → f.lector.resto = [])
    (h : decryptLoop aead key pre aad block cur f = .ok () f') :
    cur ++ f.lector.resto = (bloques (sellados aead key pre aad 0 trozos)).flatten ∧
      f'.estado.salida = f.estado.salida ++ trozos.flatten ∧ trozos ≠ [] ∧
      sellos = sellados aead key pre aad 0 trozos := by
  have hne := lookaheadChunks_ne_nil block (cur ++ f.lector.resto)
  obtain ⟨hbs, hw, hle⟩ :=
    emitir_abrirTrozo_ok ha (Nat.two_pow_pos 32) hne (bucle_ok hb hcur hend h)
  rw [List.drop_zero] at hbs hw
  refine ⟨?_, hw, ?_, ha.comienzan.eq_of_length_le ?_⟩
  · rw [← hbs, lookaheadChunks_flatten hb]
  · rintro rfl
    exact hne hbs
  · rwa [length_sellados]

end Stream

end Quipu
