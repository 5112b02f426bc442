import Quipu.HoneyPinIda
import Quipu.Motor

namespace Quipu

variable {σ ε α M K : Type} {n : Nat}

/-- `Result::expect`; the panic of the call itself goes through. -/
def Prog.expect (mensaje : String) (depurar : ε → String) (p : Prog σ ε α) : Prog σ Empty α :=
  fun s =>
    match p s with
    | .ok a s' => .ok a s'
    | .error (.error e) s' => .error (.panico (mensaje ++ ": " ++ depurar e)) s'
    | .error (.panico m) s' => .error (.panico m) s'

theorem Prog.expect_eq_ok {mensaje : String} {depurar : ε → String} {p : Prog σ ε α} {a : α}
    {s s' : σ} : Prog.expect mensaje depurar p s = .ok a s' ↔ p s = .ok a s' := by
  unfold Prog.expect
  rcases p s with ⟨b, s₁⟩ | ⟨e | m, s₁⟩
  · simp
  · simp
  · simp

/-- The source answers that many requests of `k` bytes, one after the other. -/
def Aleatorio.Surte (k : Nat) : Nat → Aleatorio.Cinta → Prop
  | 0, _ => True
  | veces + 1, cinta => ∃ b cinta',
    Aleatorio.llenar (List.Vector.replicate k 0) cinta = (.ok (), b, cinta') ∧
      Aleatorio.Surte k veces cinta'

/-- A source that answers more requests answers fewer. -/
theorem Aleatorio.Surte.pred {k veces : Nat} {cinta : Aleatorio.Cinta}
    (h : Aleatorio.Surte k (veces + 1) cinta) : Aleatorio.Surte k veces cinta := by
  induction veces generalizing cinta with
  | zero => trivial
  | succ veces ih =>
    obtain ⟨b, cinta', hb, h⟩ := h
    exact ⟨b, cinta', hb, ih h⟩

theorem surte_sereno (k veces : Nat) :
    Aleatorio.Surte k veces (Mundo.sereno : Mundo n K).cinta := by
  induction veces with
  | zero => trivial
  | succ veces ih => exact ⟨_, _, llenar_sereno k _, ih⟩

theorem pedirRng_de_surte {k veces : Nat} {m : Mundo n K}
    (h : Aleatorio.Surte k (veces + 1) m.cinta) :
    ∃ b m', (pedirRng k : Prog (Mundo n K) ε (Arr k)) m = .ok b m' ∧
      Aleatorio.Surte k veces m'.cinta := by
  obtain ⟨b, cinta', hb, h⟩ := h
  exact ⟨b, { m with cinta := cinta' }, pedir_eq_ok.mpr ⟨hb, rfl⟩, h⟩

namespace Honey

/-- What the derived `Debug` writes. -/
def HoneyError.depurar : HoneyError → String
  | .tokenOutOfRange => "TokenOutOfRange"
  | .badAlphabet => "BadAlphabet"
  | .badLength => "BadLength"
  | .truncated => "Truncated"
  | .badMagic => "BadMagic"
  | .unsupportedVersion version => "UnsupportedVersion(" ++ toString version ++ ")"
  | .insaneKdf => "InsaneKdf"

variable {kdf : Kdf M K}

/-- Every key opens what `encrypt` wrote to as many tokens of the same alphabet. -/
theorem decrypt_senuelo (hA : kdf.AceptaSanos) {tokens : List UInt16} {alphabet : Alphabet}
    {passphrase : String} {opts : HoneyOptions} {m m' : Mundo n K} {blob : List UInt8}
    (h : encrypt kdf tokens alphabet passphrase opts m = .ok blob m')
    (hs : opts.kdfParams.isSane = true) (otra : String) (pepper : List UInt8) :
    ∃ ts, decrypt kdf blob otra pepper = .ok ts ∧ ts.length = tokens.length ∧
      ∀ t ∈ ts, t < alphabet.size := by
  obtain ⟨c, hsize, hlen, _, _, _, _, hleida⟩ := leerCabecera_encrypt h
  rw [if_pos hs] at hleida
  obtain ⟨hadm, _, _⟩ := leerCabecera_ok hleida
  refine ⟨_, decrypt_eq hleida (hA _ hadm.sano) otra pepper, ?_, fun t ht => ?_⟩
  · rw [length_tokensDe, length_flujoDe, hlen]
  · rw [← hsize]
    exact tokensDe_lt (Nat.zero_lt_of_lt hadm.alfabeto) ht

theorem decrypt_sinPanico (hA : kdf.AceptaSanos) (blob : List UInt8) (passphrase : String)
    (pepper : List UInt8) : Res.SinPanico (decrypt kdf blob passphrase pepper) := by
  rcases leerCabecera_sinPanico blob with ⟨h, hb⟩ | ⟨e, hb⟩
  · obtain ⟨hadm, _, _⟩ := leerCabecera_ok hb
    exact .inl ⟨_, decrypt_eq hb (hA _ hadm.sano) passphrase pepper⟩
  · refine .inr ⟨e, ?_⟩
    rw [decrypt, hb]
    rfl

end Honey

namespace Lab.Oraculo

open Honey

def alphabet : UInt16 := 10

def len : Nat := 6

def opts : HoneyOptions := ⟨[], ⟨64, 1, 1⟩⟩

/-- The tokens of `(0..k).map(|_| rng.below(ALPHABET))`. -/
def secreto (rng : Rng) : Nat → List UInt16 × Rng
  | 0 => ([], rng)
  | k + 1 =>
    let sorteo := rng.below alphabet.toNat
    let resto := secreto sorteo.2 k
    (UInt16.ofNat sorteo.1 :: resto.1, resto.2)

/-- Whether the key of the writer gives its secret back. -/
def recupera (kdf : Kdf M K) (blob : List UInt8) (realPw : String) (secret : List UInt16) :
    Res Empty Bool :=
  match decrypt kdf blob realPw [] with
  | .ok t => .ok (t == secret)
  | .error (.error _) => .ok false
  | .error (.panico m) => panico m

/-- The loop over the wrong keys, which the first breach ends. -/
def adivinar (kdf : Kdf M K) (blob : List UInt8) : Nat → Rng → Res Empty (AttackOutcome × Rng)
  | 0, rng => .ok (.advanced, rng)
  | k + 1, rng =>
    let sorteo := rng.nextU64
    match decrypt kdf blob ("guess-" ++ toString sorteo.1) [] with
    | .ok t =>
      if t.length ≠ len then
        .ok (.breach "señuelo con longitud distinta: oráculo", sorteo.2)
      else if t.any (fun x => alphabet ≤ x) then
        .ok (.breach "señuelo con token inválido: oráculo", sorteo.2)
      else adivinar kdf blob k sorteo.2
    | .error (.error e) =>
      .ok (.breach ("passphrase equivocada devolvió error " ++ e.depurar ++ ": oráculo"), sorteo.2)
    | .error (.panico m) => panico m

def honeyStep (kdf : Kdf M K) (rng : Rng) : Prog (Mundo n K) Empty (AttackOutcome × Rng) := do
  let ab ← Prog.expect "alfabeto válido" HoneyError.depurar
    (Prog.deRes ((Alphabet.new alphabet).mapError .error))
  let secret := secreto rng len
  let sorteo := secret.2.nextU64
  let realPw := "real-" ++ toString sorteo.1
  let blob ← Prog.expect "cifrado honey" HoneyError.depurar
    (encrypt kdf secret.1 ab realPw opts)
  let bien ← Prog.deRes (recupera kdf blob realPw secret.1)
  if bien then Prog.deRes (adivinar kdf blob 8 sorteo.2)
  else pure (.breach "la passphrase correcta no recuperó el secreto", sorteo.2)

def honeyAttack (kdf : Kdf M K) : Attack (Mundo n K) := ⟨"honey/success-oracle", honeyStep kdf⟩

theorem length_secreto (rng : Rng) (k : Nat) : (secreto rng k).1.length = k := by
  induction k generalizing rng with
  | zero => rfl
  | succ k ih => exact congrArg (· + 1) (ih _)

theorem secreto_lt {rng : Rng} {k : Nat} {t : UInt16} (ht : t ∈ (secreto rng k).1) :
    t.toNat < Alphabet.digits.size.toNat := by
  induction k generalizing rng with
  | zero => cases ht
  | succ k ih =>
    rcases List.mem_cons.mp ht with rfl | ht
    · have hlt := rng.below_lt (n := alphabet.toNat) (by decide)
      have hdiez : alphabet.toNat = 10 := rfl
      have hdigits : Alphabet.digits.size.toNat = 10 := rfl
      rw [UInt16.toNat_ofNat']
      omega
    · exact ih ht

theorem new_alphabet : (Alphabet.new alphabet).mapError Fallo.error = .ok Alphabet.digits := rfl

/-- Where every key opens the blob to a secret of its shape, no key is told from another. -/
theorem adivinar_ok {kdf : Kdf M K} {blob : List UInt8}
    (h : ∀ pw, ∃ ts, decrypt kdf blob pw [] = .ok ts ∧ ts.length = len ∧ ∀ t ∈ ts, t < alphabet)
    (k : Nat) (rng : Rng) : ∃ rng', adivinar kdf blob k rng = .ok (.advanced, rng') := by
  induction k generalizing rng with
  | zero => exact ⟨rng, rfl⟩
  | succ k ih =>
    obtain ⟨ts, hdec, hlen, hlt⟩ := h ("guess-" ++ toString rng.nextU64.1)
    have hdentro : ¬(ts.any fun x => alphabet ≤ x) = true := by
      simp only [List.any_eq_true, decide_eq_true_eq, not_exists, not_and]
      exact fun t ht => UInt16.not_le.mpr (hlt t ht)
    obtain ⟨rng', hk⟩ := ih rng.nextU64.2
    refine ⟨rng', ?_⟩
    rw [adivinar]
    simp only [hdec]
    rw [if_neg (not_not.mpr hlen), if_neg hdentro]
    exact hk

section Paso

variable {kdf : Kdf M K}

theorem honeyStep_ok (hA : kdf.AceptaSanos) {rng : Rng} {m m' : Mundo n K} {blob : List UInt8}
    (h : encrypt kdf (secreto rng len).1 Alphabet.digits
      ("real-" ++ toString (secreto rng len).2.nextU64.1) opts m = .ok blob m') :
    ∃ rng', honeyStep kdf rng m = .ok (.advanced, rng') m' := by
  have hs : opts.kdfParams.isSane = true := by decide
  have hpropia := (decrypt_encrypt_iff h).mpr hs
  have hbien : recupera kdf blob ("real-" ++ toString (secreto rng len).2.nextU64.1)
      (secreto rng len).1 = .ok true := by
    have hpepper : opts.pepper = [] := rfl
    rw [hpepper] at hpropia
    rw [recupera, hpropia]
    exact congrArg Except.ok (beq_self_eq_true _)
  have hsenuelo : ∀ pw, ∃ ts, decrypt kdf blob pw [] = .ok ts ∧ ts.length = len ∧
      ∀ t ∈ ts, t < alphabet := by
    intro pw
    obtain ⟨ts, hd, hl, ht⟩ := decrypt_senuelo hA h hs pw []
    exact ⟨ts, hd, hl.trans (length_secreto rng len), ht⟩
  obtain ⟨rng', hk⟩ := adivinar_ok hsenuelo 8 (secreto rng len).2.nextU64.2
  refine ⟨rng', ?_⟩
  refine Prog.bind_ok.mpr ⟨Alphabet.digits, m, Prog.expect_eq_ok.mpr ?_, ?_⟩
  · rw [new_alphabet]
    rfl
  refine Prog.bind_ok.mpr ⟨blob, m', Prog.expect_eq_ok.mpr h, ?_⟩
  refine Prog.bind_ok.mpr ⟨true, m', Prog.deRes_eq_ok.mpr ⟨hbien, rfl⟩, ?_⟩
  rw [if_pos rfl]
  exact Prog.deRes_eq_ok.mpr ⟨hk, rfl⟩

theorem honeyAttack_cumple (hA : kdf.AceptaSanos) :
    (honeyAttack kdf : Attack (Mundo n K)).Cumple (fun _ => True) (· = .advanced) := by
  intro rng m outcome rng' m' _ h
  refine ⟨trivial, ?_⟩
  obtain ⟨ab, m₁, hab, hresto⟩ := Prog.bind_ok.mp h
  rw [Prog.expect_eq_ok, new_alphabet, Prog.deRes_eq_ok] at hab
  obtain ⟨hab, rfl⟩ := hab
  obtain rfl := Except.ok.inj hab
  obtain ⟨blob, m₂, hblob, _⟩ := Prog.bind_ok.mp hresto
  obtain ⟨rng₂, hstep⟩ := honeyStep_ok hA (Prog.expect_eq_ok.mp hblob)
  have hmismo := h.symm.trans hstep
  cases hmismo
  rfl

theorem honeyAttack_surte (hA : kdf.AceptaSanos) (veces : Nat) (rng : Rng) (m : Mundo n K)
    (hm : Aleatorio.Surte 16 (veces + 1) m.cinta) :
    ∃ o m', (honeyAttack kdf : Attack (Mundo n K)).step rng m = .ok o m' ∧
      Aleatorio.Surte 16 veces m'.cinta := by
  have hnil : (secreto rng len).1 ≠ [] := by
    rw [ne_eq, ← List.length_eq_zero_iff, length_secreto]
    decide
  have ha : kdf.acepta opts.kdfParams = true := hA _ (by decide)
  obtain ⟨salt, m₁, hsalt, hm₁⟩ := pedirRng_de_surte (ε := HoneyError) hm
  obtain ⟨blob, m', h, hm'⟩ : ∃ blob m', encrypt kdf (secreto rng len).1 Alphabet.digits
      ("real-" ++ toString (secreto rng len).2.nextU64.1) opts m = .ok blob m' ∧
        m'.cinta = m₁.cinta :=
    encrypt_acepta_de hnil (by rw [length_secreto]; decide) (fun t ht => secreto_lt ht) ha hsalt
  obtain ⟨rng', hstep⟩ := honeyStep_ok hA h
  refine ⟨_, m', hstep, ?_⟩
  rw [hm']
  exact hm₁

end Paso

/-- No run of the attack tells the right key from a wrong one; where the random source answers the
request for the salt of each step, every run reaches its end. -/
theorem honeyAttack_limpia {kdf : Kdf M K} (hA : kdf.AceptaSanos) (seed : UInt64) (budget : Nat)
    (m : Mundo n K) :
    (∀ report m', run (honeyAttack kdf) seed budget m = .ok report m' →
      report = ⟨"honey/success-oracle", budget, budget, []⟩) ∧
    (Aleatorio.Surte 16 budget m.cinta → ∃ m',
      run (honeyAttack kdf) seed budget m =
        .ok ⟨"honey/success-oracle", budget, budget, []⟩ m') := by
  refine ⟨fun report m' h => run_limpia (honeyAttack_cumple hA) trivial h, fun hm => ?_⟩
  obtain ⟨report, m', h, _⟩ := exists_run
    (P := fun veces (m : Mundo n K) => Aleatorio.Surte 16 veces m.cinta)
    (honeyAttack_surte hA) seed budget hm
  exact ⟨m', run_limpia (honeyAttack_cumple hA) trivial h ▸ h⟩

/-- The run of the library's own test. -/
theorem honeyAttack_limpia_60 : ∃ m' : Mundo 24 ClaveLibre,
    run (honeyAttack (Kdf.libre id)) 909090 60 .sereno =
      .ok ⟨"honey/success-oracle", 60, 60, []⟩ m' :=
  (honeyAttack_limpia (Kdf.libre_aceptaSanos id) 909090 60 .sereno).2 (surte_sereno 16 60)

end Lab.Oraculo

end Quipu
