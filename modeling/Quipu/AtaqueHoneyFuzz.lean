import Quipu.AtaqueHoney

namespace Quipu.Lab.Fuzz

open Honey

variable {M K : Type} {n : Nat}

def cheap : HoneyOptions := ⟨[], ⟨64, 1, 1⟩⟩

/-- A header in order that declares `declaredLen` tokens. -/
def validHeader (rng : Rng) (declaredLen : UInt32) : List UInt8 × Rng :=
  let salt := rng.bytes saltLen
  (magic ++ [1] ++ salt.1 ++ u32Be 64 ++ u32Be 1 ++ u32Be 1 ++ u16Be 10 ++ u32Be declaredLen,
    salt.2)

/-- `v[i..i + bs.len()].copy_from_slice(bs)`. -/
def copiar (v : List UInt8) (i : Nat) (bs : List UInt8) : Res Empty (List UInt8) :=
  if i + bs.length ≤ v.length then .ok (v.take i ++ bs ++ v.drop (i + bs.length))
  else panico "range end index out of range"

/-- The blob of each kind: noise, a true magic, a giant length, an absurd cost, a container cut in
half and one with a tail. -/
def adversario (kdf : Kdf M K) (rng : Rng) : Nat → Prog (Mundo n K) Empty (List UInt8 × Rng)
  | 0 =>
    let largo := rng.below 200
    pure (largo.2.bytes largo.1)
  | 1 =>
    let largo := rng.below 80
    let cola := largo.2.bytes largo.1
    pure (magic ++ cola.1, cola.2)
  | 2 => pure (validHeader rng 4294967295)
  | 3 => do
    let v := validHeader rng 4
    let w ← Prog.deRes (copiar v.1 (5 + saltLen) (u32Be 4294967295))
    pure (w, v.2)
  | 4 => do
    let full ← Prog.expect "cifrado" HoneyError.depurar (encryptPin kdf "4913" "otra" cheap)
    let mitad ← Prog.deRes (tramo full 0 (full.length / 2))
    pure (mitad, rng)
  | _ => do
    let full ← Prog.expect "cifrado" HoneyError.depurar (encryptPin kdf "4913" "otra" cheap)
    let largo := rng.below 40
    let cola := largo.2.bytes largo.1
    pure (full ++ cola.1, cola.2)

def buildAdversarial (kdf : Kdf M K) (rng : Rng) : Prog (Mundo n K) Empty (List UInt8 × Rng) :=
  let sorteo := rng.below 6
  adversario kdf sorteo.2 sorteo.1

/-- `catch_unwind`, true of a call that ended in a panic. -/
def atrapar {ε α : Type} : Res ε α → Bool
  | .error (.panico _) => true
  | _ => false

def honeyFuzzStep (kdf : Kdf M K) (rng : Rng) :
    Prog (Mundo n K) Empty (AttackOutcome × Rng) := do
  let blob ← buildAdversarial kdf rng
  if atrapar (decrypt kdf blob.1 "clave-fuzz" []) then
    pure (.breach ("pánico en honey::decrypt con " ++ toString blob.1.length ++ " bytes"), blob.2)
  else pure (.advanced, blob.2)

def honeyFuzz (kdf : Kdf M K) : Attack (Mundo n K) := ⟨"honey/parser-fuzz", honeyFuzzStep kdf⟩

theorem atrapar_of_sinPanico {ε α : Type} {r : Res ε α} (h : r.SinPanico) :
    ¬atrapar r = true := by
  rcases h with ⟨a, rfl⟩ | ⟨e, rfl⟩
  · exact Bool.false_ne_true
  · exact Bool.false_ne_true

variable {kdf : Kdf M K}

theorem honeyFuzz_cumple (hA : kdf.AceptaSanos) :
    (honeyFuzz kdf : Attack (Mundo n K)).Cumple (fun _ => True) (· = .advanced) := by
  intro rng m outcome rng' m' _ h
  refine ⟨trivial, ?_⟩
  obtain ⟨blob, m₁, _, h⟩ := Prog.bind_ok.mp h
  rw [if_neg (atrapar_of_sinPanico (decrypt_sinPanico hA blob.1 "clave-fuzz" []))] at h
  cases h
  rfl

/-- The container that two of the kinds start from is written if the source answers. -/
theorem encryptPin_surte (hA : kdf.AceptaSanos) {veces : Nat} {m : Mundo n K}
    (hm : Aleatorio.Surte 16 (veces + 1) m.cinta) :
    ∃ full m', encryptPin kdf "4913" "otra" cheap m = .ok full m' ∧
      Aleatorio.Surte 16 veces m'.cinta := by
  obtain ⟨salt, m₁, hsalt, hm₁⟩ := pedirRng_de_surte (ε := HoneyError) hm
  have hescribe : ∃ full m', encrypt kdf _ _ "otra" cheap m = .ok full m' ∧
      m'.cinta = m₁.cinta :=
    encrypt_acepta_de (by decide) (by decide) (cifra_lt esPin_4913)
      (hA cheap.kdfParams (by decide)) hsalt
  obtain ⟨full, m', h, hm'⟩ := hescribe
  refine ⟨full, m', ?_, hm' ▸ hm₁⟩
  rw [encryptPin_eq esPin_4913]
  exact h

theorem length_validHeader (rng : Rng) (declaredLen : UInt32) :
    (validHeader rng declaredLen).1.length = headerLen := by
  simp only [validHeader, List.length_append, Rng.length_bytes, length_u32Be, length_u16Be]
  rfl

theorem adversario_surte (hA : kdf.AceptaSanos) (rng : Rng) (kind : Nat) {veces : Nat}
    {m : Mundo n K} (hm : Aleatorio.Surte 16 (veces + 1) m.cinta) :
    ∃ blob m', adversario kdf rng kind m = .ok blob m' ∧
      Aleatorio.Surte 16 veces m'.cinta := by
  obtain ⟨full, m', h, hm'⟩ := encryptPin_surte hA hm
  have hfull : Prog.expect "cifrado" HoneyError.depurar (encryptPin kdf "4913" "otra" cheap) m =
      .ok full m' := Prog.expect_eq_ok.mpr h
  rcases kind with _ | _ | _ | _ | _ | kind
  · exact ⟨_, m, rfl, hm.pred⟩
  · exact ⟨_, m, rfl, hm.pred⟩
  · exact ⟨_, m, rfl, hm.pred⟩
  · have hcabe : 5 + saltLen + (u32Be 4294967295).length ≤ (validHeader rng 4).1.length := by
      rw [length_validHeader]
      decide
    exact ⟨_, m, Prog.bind_ok.mpr ⟨_, m, Prog.deRes_eq_ok.mpr ⟨if_pos hcabe, rfl⟩, rfl⟩, hm.pred⟩
  · have hmitad : (tramo full 0 (full.length / 2) : Res Empty (List UInt8)) = .ok _ :=
      if_pos ⟨Nat.zero_le _, Nat.div_le_self _ _⟩
    exact ⟨_, m', Prog.bind_ok.mpr ⟨full, m', hfull, Prog.bind_ok.mpr
      ⟨_, m', Prog.deRes_eq_ok.mpr ⟨hmitad, rfl⟩, rfl⟩⟩, hm'⟩
  · exact ⟨_, m', Prog.bind_ok.mpr ⟨full, m', hfull, rfl⟩, hm'⟩

theorem honeyFuzz_surte (hA : kdf.AceptaSanos) (veces : Nat) (rng : Rng) (m : Mundo n K)
    (hm : Aleatorio.Surte 16 (veces + 1) m.cinta) :
    ∃ o m', (honeyFuzz kdf : Attack (Mundo n K)).step rng m = .ok o m' ∧
      Aleatorio.Surte 16 veces m'.cinta := by
  obtain ⟨blob, m', h, hm'⟩ := adversario_surte hA (rng.below 6).2 (rng.below 6).1 hm
  refine ⟨(.advanced, blob.2), m', Prog.bind_ok.mpr ⟨blob, m', h, ?_⟩, hm'⟩
  rw [if_neg (atrapar_of_sinPanico (decrypt_sinPanico hA blob.1 "clave-fuzz" []))]
  rfl

/-- No blob of the fuzzer makes the parser panic, and none stops the fuzzer itself where the random
source answers one request for a salt in each step. -/
theorem honeyFuzz_limpia (hA : kdf.AceptaSanos) (seed : UInt64) (budget : Nat) (m : Mundo n K) :
    (∀ report m', run (honeyFuzz kdf) seed budget m = .ok report m' →
      report = ⟨"honey/parser-fuzz", budget, budget, []⟩) ∧
    (Aleatorio.Surte 16 budget m.cinta → ∃ m',
      run (honeyFuzz kdf) seed budget m = .ok ⟨"honey/parser-fuzz", budget, budget, []⟩ m') := by
  refine ⟨fun report m' h => run_limpia (honeyFuzz_cumple hA) trivial h, fun hm => ?_⟩
  obtain ⟨report, m', h, _⟩ := exists_run
    (P := fun veces (m : Mundo n K) => Aleatorio.Surte 16 veces m.cinta)
    (honeyFuzz_surte hA) seed budget hm
  exact ⟨m', run_limpia (honeyFuzz_cumple hA) trivial h ▸ h⟩

/-- The run of the library's own test. -/
theorem honeyFuzz_limpia_mil : ∃ m' : Mundo 24 ClaveLibre,
    run (honeyFuzz (Kdf.libre id)) 0xF0F0 1000 .sereno =
      .ok ⟨"honey/parser-fuzz", 1000, 1000, []⟩ m' :=
  (honeyFuzz_limpia (Kdf.libre_aceptaSanos id) 0xF0F0 1000 .sereno).2 (surte_sereno 16 1000)

end Quipu.Lab.Fuzz
