import Quipu.Diccionarios
import Quipu.Largo
import Quipu.Motor

namespace Quipu.Lab

variable {M K : Type}

/-- The cheap cost of the attacks. -/
def opts : Api.Options := ⟨[], ⟨64, 1, 1⟩⟩

def leakStep (kdf : Kdf M K) (aead : Aead 24 K) (sha256 : List UInt8 → Arr 32) (rng : Rng) :
    Prog (Mundo 24 K) Empty (AttackOutcome × Rng) := do
  let dict := Dictionaries.ascii94
  let sorteo := rng.below 256
  let len := 1 + sorteo.1
  let structured := List.replicate len (0xAB : UInt8)
  let random := sorteo.2.bytes len
  let a ← Api.encode kdf aead sha256 structured "clave-lab" dict opts
  let b ← Api.encode kdf aead sha256 random.1 "clave-lab" dict opts
  if a.toList.length ≠ b.toList.length then
    pure (.breach ("longitud de salida depende del contenido (len=" ++ toString len ++ "): " ++
      toString a.toList.length ++ " vs " ++ toString b.toList.length), random.2)
  else pure (.advanced, random.2)

def leakAttack (kdf : Kdf M K) (aead : Aead 24 K) (sha256 : List UInt8 → Arr 32) :
    Attack (Mundo 24 K) := ⟨"leak/length", leakStep kdf aead sha256⟩

/-- What the containers of every alphabet start with, after the marker. -/
def arranque : Nat := ofBe (1 :: (Container.magic ++ [Container.version] ++ [0] ++ u16Be 0))

/-- The power of 94 under the containers of `l` bytes. -/
def exponente (l : Nat) : Nat := (8000000 * l + 398000) / 6554589

theorem ascii94_sin_salto : ∀ l < 400, 84 ≤ l →
    94 ^ exponente l ≤ arranque * 256 ^ (l - 8) ∧
      (arranque + 1) * 256 ^ (l - 8) ≤ 94 ^ (exponente l + 1) := by
  decide +kernel

theorem paddedLen_le : ∀ l < 257, Padme.paddedLen (8 + l) ≤ 272 := by decide +kernel

theorem not_salta_ascii94 {l : Nat} (hl : l < 400) (hlo : 84 ≤ l) :
    ¬Codec.Salta 94 arranque (l - 8) := by
  rintro ⟨j, hj, hj'⟩
  obtain ⟨he, he'⟩ := ascii94_sin_salto l hl hlo
  have h₁ : exponente l < j :=
    (Nat.pow_lt_pow_iff_right (by decide : 1 < 94)).mp (he.trans_lt hj)
  have h₂ : j < exponente l + 1 :=
    (Nat.pow_lt_pow_iff_right (by decide : 1 < 94)).mp (hj'.trans_le he')
  omega

section Paso

variable {kdf : Kdf M K} {aead : Aead 24 K} {sha256 : List UInt8 → Arr 32}

/-- Over the 94 symbols no content of these lengths moves the length of its text. -/
theorem largo_ascii94 (hT : aead.AddsTag) {data data' : List UInt8} {m₁ m₁' m₂ m₂' : Mundo 24 K}
    {text text' : String} (hlen : data.length < 257) (hlen' : data'.length = data.length)
    (h : Api.encode kdf aead sha256 data "clave-lab" Dictionaries.ascii94 opts m₁ = .ok text m₁')
    (h' : Api.encode kdf aead sha256 data' "clave-lab" Dictionaries.ascii94 opts m₂ =
      .ok text' m₂') : text.toList.length = text'.toList.length := by
  have hmax : data.length < 2 ^ 63 := by omega
  obtain ⟨rest, ds, hesc, hl, hrest⟩ := Api.escrito_of_encode hT ⟨data, hmax⟩ h
  obtain ⟨rest', ds', hesc', hl', hrest'⟩ :=
    Api.escrito_of_encode hT ⟨data', hlen' ▸ hmax⟩ h'
  have hbytes : Api.bytesDe data'.length = Api.bytesDe data.length := by rw [hlen']
  have hpad := paddedLen_le data.length hlen
  have hinf := Padme.le_paddedLen (l := 8 + data.length) (by omega)
  have h84 : Api.bytesDe data.length = 84 + Padme.paddedLen (8 + data.length) := by
    simp only [Api.bytesDe, Container.Header.size, Container.bytesFijos, tagLen]
    omega
  simp only at hrest hrest'
  rw [hl, hl']
  rw [Api.prefijo, List.append_assoc] at hesc hesc'
  refine hesc.length_eq_of_prefijo (by rw [Dictionaries.base_ascii94]; decide) hesc' ?_ ?_
  · rw [List.length_append, List.length_append]
    omega
  · have hk : ((Dictionaries.ascii94.fingerprint sha256).toList ++ rest).length =
        Api.bytesDe data.length - 8 := by
      rw [List.length_append, List.Vector.toList_length]
      omega
    rw [hk, Dictionaries.base_ascii94]
    exact not_salta_ascii94 (by omega) (by omega)

theorem leakAttack_cumple (hT : aead.AddsTag) :
    (leakAttack kdf aead sha256).Cumple (fun _ => True) (· = .advanced) := by
  intro rng m outcome rng' m' _ h
  refine ⟨trivial, ?_⟩
  have hk := rng.below_lt (n := 256) (by decide)
  have hrandom := Rng.length_bytes (rng.below 256).2 (1 + (rng.below 256).1)
  obtain ⟨a, m₁, ha, h⟩ := Prog.bind_ok.mp h
  obtain ⟨b, m₂, hb, h⟩ := Prog.bind_ok.mp h
  have hlargo := largo_ascii94 hT (by rw [List.length_replicate]; omega)
    (by rw [hrandom, List.length_replicate]) ha hb
  rw [if_neg (not_not.mpr hlargo)] at h
  cases h
  rfl

/-- The leak attack has nothing to report, whatever its seed, its budget and the random source. -/
theorem leakAttack_limpia (hT : aead.AddsTag) {seed : UInt64} {budget : Nat} {report : LabReport}
    {m m' : Mundo 24 K}
    (h : run (leakAttack kdf aead sha256) seed budget m = .ok report m') :
    report = ⟨"leak/length", budget, budget, []⟩ :=
  run_limpia (leakAttack_cumple hT) trivial h

theorem leakStep_sereno (ha : kdf.acepta opts.kdfParams = true) (aead : Aead 24 K)
    (sha256 : List UInt8 → Arr 32) (rng : Rng) (m : Mundo 24 K)
    (hm : m.cinta = (Mundo.sereno : Mundo 24 K).cinta) :
    ∃ o m', (leakAttack kdf aead sha256).step rng m = .ok o m' ∧
      m'.cinta = (Mundo.sereno : Mundo 24 K).cinta := by
  obtain ⟨a, m₁, h₁, hm₁⟩ := Api.exists_encode_de ha aead sha256
    (List.replicate (1 + (rng.below 256).1) 0xAB) "clave-lab" Dictionaries.ascii94 [] hm
  obtain ⟨b, m₂, h₂, hm₂⟩ := Api.exists_encode_de ha aead sha256
    ((rng.below 256).2.bytes (1 + (rng.below 256).1)).1 "clave-lab" Dictionaries.ascii94 [] hm₁
  by_cases hlargo : a.toList.length ≠ b.toList.length
  · exact ⟨_, m₂, Prog.bind_ok.mpr ⟨a, m₁, h₁, Prog.bind_ok.mpr ⟨b, m₂, h₂, by
      rw [if_pos hlargo]
      rfl⟩⟩, hm₂⟩
  · exact ⟨_, m₂, Prog.bind_ok.mpr ⟨a, m₁, h₁, Prog.bind_ok.mpr ⟨b, m₂, h₂, by
      rw [if_neg hlargo]
      rfl⟩⟩, hm₂⟩

end Paso

/-- The run of the library's own test. -/
theorem leakAttack_limpia_64 :
    ∃ m' : Mundo 24 ClaveLibre, run (leakAttack (Kdf.libre id) Aead.deMarca
        fun _ => List.Vector.replicate 32 0) 20260701 64 .sereno =
      .ok ⟨"leak/length", 64, 64, []⟩ m' := by
  have ha : (Kdf.libre id).acepta opts.kdfParams = true := by decide
  obtain ⟨report, m', h, _⟩ := exists_run
    (P := fun _ (m : Mundo 24 ClaveLibre) => m.cinta = (Mundo.sereno : Mundo 24 ClaveLibre).cinta)
    (fun _ => leakStep_sereno ha (Aead.deMarca : Aead 24 ClaveLibre)
      fun _ => List.Vector.replicate 32 0) 20260701 64 rfl
  exact ⟨m', leakAttack_limpia Aead.deMarca_addsTag h ▸ h⟩

end Quipu.Lab
