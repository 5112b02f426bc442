import Quipu.Voprf

namespace Quipu.Voprf.Suite

variable {q : ℕ} {G : Type} [AddCommGroup G] [Module (ZMod q) G] [Fact q.Prime]

/-- Where each `d` is `k • c` the client accumulates `k` times the `M` of the server. -/
theorem foldl_composites (peso : (G × G) × Nat → ZMod q) (k : ZMod q) {l : List ((G × G) × Nat)}
    (hl : ∀ p ∈ l, p.1.2 = k • p.1.1) (m : G) :
    l.foldl (fun mz p => (mz.1 + peso p • p.1.1, mz.2 + peso p • p.1.2)) (m, k • m) =
      (l.foldl (fun m p => m + peso p • p.1.1) m,
        k • l.foldl (fun m p => m + peso p • p.1.1) m) := by
  induction l generalizing m with
  | nil => rfl
  | cons p l ih =>
    have hz : k • m + peso p • p.1.2 = k • (m + peso p • p.1.1) := by
      rw [hl p List.mem_cons_self]
      module
    rw [List.foldl_cons, List.foldl_cons, hz]
    exact ih (fun p' hp => hl p' (List.mem_cons_of_mem p hp)) _

theorem computeComposites_smul (S : Suite q G) (pk : G) (k : ZMod q) (c : List G) :
    S.computeComposites pk c (c.map (k • ·)) =
      (S.computeCompositesM pk c (c.map (k • ·)),
        k • S.computeCompositesM pk c (c.map (k • ·))) := by
  have hpares : ∀ p ∈ (c.zip (c.map (k • ·))).zipIdx, p.1.2 = k • p.1.1 := by
    intro p hp
    have hmem := List.fst_mem_of_mem_zipIdx hp
    rw [← List.map_prod_left_eq_zip] at hmem
    obtain ⟨x, _, hx⟩ := List.mem_map.mp hmem
    rw [← hx]
  have h := foldl_composites
    (fun p => S.compositeScalar (S.compositesSeed pk) p.2 p.1.1 p.1.2) k hpares 0
  rw [smul_zero] at h
  exact h

theorem computeComposites_uno (S : Suite q G) (pk : G) (k : ZMod q) (b : G) :
    S.computeComposites pk [b] [k • b] =
      (S.computeCompositesM pk [b] [k • b], k • S.computeCompositesM pk [b] [k • b]) :=
  S.computeComposites_smul pk k [b]

/-- The client accepts what the server proves. -/
theorem verifyProof_generateProof [DecidableEq G] (S : Suite q G) (key : ZMod q) (b : G)
    (r : ZMod q) :
    S.verifyProof (key • S.basepoint) b (key • b) (S.generateProof key b (key • b) r) = true := by
  unfold verifyProof generateProof
  simp only [primera_unir, segunda_unir, fromCanonicalBytes_asBytes, computeComposites_uno,
    Dleq.compromisos_honesto, decide_true]

section Finalize

variable [DecidableEq G] {S : Suite q G} {input : List UInt8}

theorem blindWith_eq_some (h : S.hashToGroup input ≠ 0) (r : ZMod q) :
    S.blindWith input r = some (⟨r, r • S.hashToGroup input⟩,
      S.compress (r • S.hashToGroup input)) := if_neg h

theorem blindEvaluate_compress {b : G} (hb : b ≠ 0) (key r : ZMod q) :
    S.blindEvaluateWithRandomness key (S.compress b) r =
      some (S.compress (key • b), S.generateProof key b (key • b) r) := by
  rw [blindEvaluateWithRandomness, S.decompress_compress]
  exact if_neg hb

theorem finalize_eq_some {state : BlindState q G} {evaluated serverPub : Arr 32}
    {proof : Arr proofLen} {out : Arr 64} :
    S.finalize input state evaluated proof serverPub = some out ↔
      ∃ pk z, S.decompress serverPub = some pk ∧ S.decompress evaluated = some z ∧
        z ≠ 0 ∧ pk ≠ 0 ∧ S.verifyProof pk state.blinded z proof = true ∧
        S.salida input (state.blind⁻¹ • z) = out := by
  unfold finalize
  cases hpk : S.decompress serverPub with
  | none => simp
  | some pk =>
    cases hz : S.decompress evaluated with
    | none => simp
    | some z =>
      by_cases hid : z = 0 ∨ pk = 0
      · simp only [Option.bind_eq_bind, Option.bind_some, if_pos hid]
        refine iff_of_false (by simp) ?_
        rintro ⟨pk', z', hpk', hz', hz₀, hpk₀, _⟩
        cases hpk'
        cases hz'
        exact hid.elim hz₀ hpk₀
      · obtain ⟨hz₀, hpk₀⟩ := not_or.mp hid
        simp only [Option.bind_eq_bind, Option.bind_some, if_neg hid]
        cases hv : S.verifyProof pk state.blinded z proof with
        | false => simp [hv]
        | true => simp [hv, hz₀, hpk₀]

end Finalize

/-- The scalars as a group over themselves, encoded in the first byte. -/
def deTres : Suite 3 (ZMod 3) where
  basepoint := 1
  compress := fun x => ajustar 32 [UInt8.ofNat x.val]
  decompress := fun a => some (a.head.toNat : ZMod 3)
  asBytes := fun x => ajustar 32 [UInt8.ofNat x.val]
  fromCanonicalBytes := fun a => some (a.head.toNat : ZMod 3)
  sha512 := ajustar 64
  fromUniformBytes := fun _ => 1
  fromBytesModOrderWide := fun a => (a.head.toNat : ZMod 3)
  basepoint_ne_zero := one_ne_zero
  decompress_compress := by decide
  fromCanonicalBytes_asBytes := by decide

/-- Blinding, evaluating and finalizing give the hash of `k • P`, whatever the blind and the
randomness of the proof. -/
theorem finalize_blind [DecidableEq G] (S : Suite q G) (input : List UInt8) (key r t : ZMod q)
    (hP : S.hashToGroup input ≠ 0) (hkey : key ≠ 0) (hr : r ≠ 0) :
    ∃ state blinded evaluated proof, S.blindWith input r = some (state, blinded) ∧
      S.blindEvaluateWithRandomness key blinded t = some (evaluated, proof) ∧
      S.finalize input state evaluated proof (S.publicKey key) =
        some (S.salida input (key • S.hashToGroup input)) := by
  have hb : r • S.hashToGroup input ≠ 0 := smul_ne_zero hr hP
  refine ⟨_, _, _, _, blindWith_eq_some hP r, blindEvaluate_compress hb key t, ?_⟩
  apply finalize_eq_some.mpr
  refine ⟨key • S.basepoint, key • r • S.hashToGroup input, S.decompress_compress _,
    S.decompress_compress _, smul_ne_zero hkey hb, smul_ne_zero hkey S.basepoint_ne_zero,
    S.verifyProof_generateProof key _ t, ?_⟩
  rw [smul_comm key r, inv_smul_smul₀ hr]

theorem finalize_blind_tres :
    ∃ state blinded evaluated proof, deTres.blindWith [1] 2 = some (state, blinded) ∧
      deTres.blindEvaluateWithRandomness 2 blinded 1 = some (evaluated, proof) ∧
      deTres.finalize [1] state evaluated proof (deTres.publicKey 2) =
        some (deTres.salida [1] (2 • deTres.hashToGroup [1])) :=
  finalize_blind deTres [1] 2 2 1 one_ne_zero (by decide) (by decide)

/-- For a wrong `Z` one challenge at most opens each pair of commitments, and `finalize` gives
an output only after its proof is verified. -/
theorem finalize_verificado [DecidableEq G] (S : Suite q G) :
    (∀ (key : ZMod q) (M Z t₂ t₃ : G), Z ≠ key • M → ∀ c s c' s' : ZMod q,
        Dleq.compromisos S.basepoint M (key • S.basepoint) Z c s = (t₂, t₃) →
        Dleq.compromisos S.basepoint M (key • S.basepoint) Z c' s' = (t₂, t₃) → c = c') ∧
      ∀ (input : List UInt8) (state : BlindState q G) (evaluated serverPub : Arr 32)
        (proof : Arr proofLen) (out : Arr 64),
        S.finalize input state evaluated proof serverPub = some out →
        ∃ pk z, S.decompress serverPub = some pk ∧ S.decompress evaluated = some z ∧
          S.verifyProof pk state.blinded z proof = true := by
  refine ⟨fun key M Z t₂ t₃ hZ c s c' s' h h' => ?_,
    fun input state evaluated serverPub proof out h => ?_⟩
  · exact Dleq.reto_unico S.basepoint_ne_zero hZ (h.trans h'.symm)
  · obtain ⟨pk, z, hpk, hz, _, _, hver, _⟩ := finalize_eq_some.mp h
    exact ⟨pk, z, hpk, hz, hver⟩

theorem finalize_verificado_tres :
    Dleq.compromisos deTres.basepoint 1 ((2 : ZMod 3) • deTres.basepoint) 1 (1 : ZMod 3)
        1 = (0, 2) ∧
      (∀ c s : ZMod 3, Dleq.compromisos deTres.basepoint 1 ((2 : ZMod 3) • deTres.basepoint) 1
        c s = (0, 2) → 1 = c) ∧
      ∃ pk z, deTres.decompress (deTres.publicKey 2) = some pk ∧
        deTres.decompress (deTres.compress 1) = some z ∧
        deTres.verifyProof pk 2 z (deTres.generateProof 2 2 1 1) = true :=
  ⟨by decide, fun c s => (finalize_verificado deTres).1 2 1 1 0 2 (by decide) 1 1 c s (by decide),
    (finalize_verificado deTres).2 [1] ⟨2, 2⟩ (deTres.compress 1) (deTres.publicKey 2)
      (deTres.generateProof 2 2 1 1) _ (finalize_eq_some.mpr ⟨2, 1, by decide, by decide, by decide,
        by decide, by decide, rfl⟩)⟩

end Quipu.Voprf.Suite
