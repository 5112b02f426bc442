import Quipu.FirmaPreimagen

namespace Quipu

/-- A scheme accepts under `pk` only what `pk` has signed. -/
def Esquema.IdealPara {s v f : Nat} (e : Esquema s v f) (pk : Arr v)
    (firmado : List (Arr v × List UInt8)) : Prop :=
  ∀ p sig, e.acepta pk p sig = true → (pk, p) ∈ firmado

namespace Pqsign

variable {es : Esquemas}

/-- A signing call, in one of the three schemes. -/
inductive Llamada where
  | hibrida (sk : SigningKey) (message : List UInt8)
  | triple (sk : TripleSigningKey) (message : List UInt8)
  | cnsa (sk : Cnsa.Firma.SigningKey) (mensaje : List UInt8)

def Llamada.ejecutar (es : Esquemas) : Llamada → Prog Firmas Empty (List UInt8)
  | .hibrida sk message => sk.sign es message
  | .triple sk message => sk.sign es message
  | .cnsa sk mensaje => sk.firmar es mensaje

/-- What a call leaves signed, also when it panics. -/
def Llamada.dejar (es : Esquemas) (r : Firmas) (c : Llamada) : Firmas :=
  match c.ejecutar es r with
  | .ok _ r' => r'
  | .error _ r' => r'

/-- All that the calls of a history have signed. -/
def firmadoEn (es : Esquemas) (historia : List Llamada) : Firmas :=
  historia.foldl (Llamada.dejar es) ⟨[], [], []⟩

/-- The calls of the two-part scheme and of the three-part one, by public key and message. -/
def HibridaDe (es : Esquemas) (vk : VerifyingKey) (m : List UInt8) (c : Llamada) : Prop :=
  ∃ sk, c = .hibrida sk m ∧ sk.verifyingKey es = vk

def TripleDe (es : Esquemas) (vk : TripleVerifyingKey) (m : List UInt8) (c : Llamada) : Prop :=
  ∃ sk, c = .triple sk m ∧ (sk.verifyingKey es : Res Empty TripleVerifyingKey) = .ok vk

def CnsaDe (es : Esquemas) (vk : Cnsa.Firma.VerifyingKey) (m : List UInt8) (c : Llamada) : Prop :=
  ∃ sk, c = .cnsa sk m ∧ sk.claveDeVerificacion es = vk

/-- What the call `c` makes each scheme sign. -/
def EdDe (es : Esquemas) (c : Llamada) (x : Arr 32 × List UInt8) : Prop :=
  (∃ vk m, HibridaDe es vk m c ∧ x = (vk.ed, buildPreimage vk.toBytes m)) ∨
    ∃ vk m, TripleDe es vk m c ∧ x = (vk.ed, buildTriplePreimage vk.toBytes m)

def MlDe (es : Esquemas) (c : Llamada) (x : Arr 2592 × List UInt8) : Prop :=
  (∃ vk m, HibridaDe es vk m c ∧ x = (vk.ml, buildPreimage vk.toBytes m)) ∨
    (∃ vk m, TripleDe es vk m c ∧ x = (vk.ml, buildTriplePreimage vk.toBytes m)) ∨
    ∃ vk m, CnsaDe es vk m c ∧ x = (vk.ml, Cnsa.Firma.preimagen vk.aBytes m)

def SlhDe (es : Esquemas) (c : Llamada) (x : Arr 64 × List UInt8) : Prop :=
  ∃ vk m, TripleDe es vk m c ∧ x = (vk.slh, buildTriplePreimage vk.toBytes m)

theorem verifyingKey_of_lee {sk : TripleSigningKey} (h : es.leeSlh sk.slhSk = true) :
    (sk.verifyingKey es : Res Empty TripleVerifyingKey) =
      .ok ⟨es.ed.publica sk.edSeed, es.ml.publica sk.mlSeed, es.slh.publica sk.slhSk⟩ := by
  have hlee : (slhSigningKey es sk.slhSk : Res Empty (Arr 128)) = .ok sk.slhSk := if_pos h
  rw [TripleSigningKey.verifyingKey, hlee]
  rfl

theorem dejar_triple_of_ok {sk : TripleSigningKey} {vk : TripleVerifyingKey}
    (h : es.leeSlh sk.slhSk = true) (hvk : (sk.verifyingKey es : Res Empty _) = .ok vk)
    (m : List UInt8) (r : Firmas) : Llamada.dejar es r (.triple sk m) =
      ⟨r.ed ++ [(vk.ed, buildTriplePreimage vk.toBytes m)],
        r.ml ++ [(vk.ml, buildTriplePreimage vk.toBytes m)],
        r.slh ++ [(vk.slh, buildTriplePreimage vk.toBytes m)]⟩ := by
  have hlee : (slhSigningKey es sk.slhSk : Res Empty (Arr 128)) = .ok sk.slhSk := if_pos h
  cases (verifyingKey_of_lee h).symm.trans hvk
  rw [Llamada.dejar, Llamada.ejecutar, TripleSigningKey.sign, Prog.deRes_bind_of_ok hvk, hlee]
  rfl

theorem dejar_triple (es : Esquemas) (sk : TripleSigningKey) (m : List UInt8) (r : Firmas) :
    Llamada.dejar es r (.triple sk m) = r ∨
      ∃ vk, TripleDe es vk m (.triple sk m) ∧ Llamada.dejar es r (.triple sk m) =
        ⟨r.ed ++ [(vk.ed, buildTriplePreimage vk.toBytes m)],
          r.ml ++ [(vk.ml, buildTriplePreimage vk.toBytes m)],
          r.slh ++ [(vk.slh, buildTriplePreimage vk.toBytes m)]⟩ := by
  by_cases h : es.leeSlh sk.slhSk = true
  · have hvk := verifyingKey_of_lee h
    exact .inr ⟨_, ⟨sk, rfl, hvk⟩, dejar_triple_of_ok h hvk m r⟩
  · have hlee : (slhSigningKey es sk.slhSk : Res Empty (Arr 128)) =
        panico "clave secreta SLH de 128 bytes" := if_neg h
    have hvk : (sk.verifyingKey es : Res Empty TripleVerifyingKey) =
        panico "clave secreta SLH de 128 bytes" := by
      rw [TripleSigningKey.verifyingKey, hlee]
      rfl
    refine .inl ?_
    rw [Llamada.dejar, Llamada.ejecutar, TripleSigningKey.sign, hvk]
    rfl

/-- What one call adds to the record. -/
theorem dejar_cases (es : Esquemas) (r : Firmas) (c : Llamada) :
    (∀ x ∈ (c.dejar es r).ed, x ∈ r.ed ∨ EdDe es c x) ∧
      (∀ x ∈ (c.dejar es r).ml, x ∈ r.ml ∨ MlDe es c x) ∧
      ∀ x ∈ (c.dejar es r).slh, x ∈ r.slh ∨ SlhDe es c x := by
  have hsuma : ∀ {α : Type} {l : List α} {x y : α} {P : Prop}, (x = y → P) →
      x ∈ l ++ [y] → x ∈ l ∨ P := fun hP hx =>
    (List.mem_append.mp hx).imp_right fun h => hP (List.mem_singleton.mp h)
  cases c with
  | hibrida sk m =>
    have hde : HibridaDe es (sk.verifyingKey es) m (.hibrida sk m) := ⟨sk, rfl, rfl⟩
    exact ⟨fun x => hsuma fun h => .inl ⟨_, m, hde, h⟩,
      fun x => hsuma fun h => .inl ⟨_, m, hde, h⟩, fun x => .inl⟩
  | triple sk m =>
    rcases dejar_triple es sk m r with h | ⟨vk, hde, h⟩
    · rw [h]
      exact ⟨fun x => .inl, fun x => .inl, fun x => .inl⟩
    · rw [h]
      exact ⟨fun x => hsuma fun h => .inr ⟨vk, m, hde, h⟩,
        fun x => hsuma fun h => .inr (.inl ⟨vk, m, hde, h⟩),
        fun x => hsuma fun h => ⟨vk, m, hde, h⟩⟩
  | cnsa sk m =>
    have hde : CnsaDe es (sk.claveDeVerificacion es) m (.cnsa sk m) := ⟨sk, rfl, rfl⟩
    exact ⟨fun x => .inl, fun x => hsuma fun h => .inr (.inr ⟨_, m, hde, h⟩), fun x => .inl⟩

/-- What a fold holds at its end comes from its start or from one of its steps. -/
theorem origen_foldl {σ ι α : Type} {paso : σ → ι → σ} {T : σ → α → Prop}
    {P : ι → α → Prop} (hpaso : ∀ s c x, T (paso s c) x → T s x ∨ P c x)
    {cs : List ι} {s : σ} {x : α} (h : T (cs.foldl paso s) x) :
    T s x ∨ ∃ c ∈ cs, P c x := by
  induction cs generalizing s with
  | nil => exact .inl h
  | cons c cs ih =>
    rcases ih h with hs | ⟨d, hd, hx⟩
    · rcases hpaso s c x hs with hs | hx
      · exact .inl hs
      · exact .inr ⟨c, List.mem_cons_self, hx⟩
    · exact .inr ⟨d, List.mem_cons_of_mem c hd, hx⟩

/-- Each preimage in the record of a history comes from a call of it. -/
theorem firmadoEn_origen (es : Esquemas) (historia : List Llamada) :
    (∀ x ∈ (firmadoEn es historia).ed, ∃ c ∈ historia, EdDe es c x) ∧
      (∀ x ∈ (firmadoEn es historia).ml, ∃ c ∈ historia, MlDe es c x) ∧
      ∀ x ∈ (firmadoEn es historia).slh, ∃ c ∈ historia, SlhDe es c x := by
  refine ⟨fun x hx => ?_, fun x hx => ?_, fun x hx => ?_⟩
  · exact (origen_foldl (T := fun r x => x ∈ r.ed)
      (fun r c => (dejar_cases es r c).1) hx).resolve_left List.not_mem_nil
  · exact (origen_foldl (T := fun r x => x ∈ r.ml)
      (fun r c => (dejar_cases es r c).2.1) hx).resolve_left List.not_mem_nil
  · exact (origen_foldl (T := fun r x => x ∈ r.slh)
      (fun r c => (dejar_cases es r c).2.2) hx).resolve_left List.not_mem_nil

theorem hibridaDe_of_edDe {c : Llamada} {pk : Arr 32} {vk : VerifyingKey} {m : List UInt8}
    (h : EdDe es c (pk, buildPreimage vk.toBytes m)) : HibridaDe es vk m c := by
  rcases h with ⟨vk', m', hde, he⟩ | ⟨vk', m', _, he⟩
  · obtain ⟨rfl, rfl⟩ := buildPreimage_inj (Prod.mk.inj he).2
    exact hde
  · exact absurd (Prod.mk.inj he).2 (hibrida_ne_triple _ _ _ _)

theorem hibridaDe_of_mlDe {c : Llamada} {pk : Arr 2592} {vk : VerifyingKey} {m : List UInt8}
    (h : MlDe es c (pk, buildPreimage vk.toBytes m)) : HibridaDe es vk m c := by
  rcases h with ⟨vk', m', hde, he⟩ | ⟨vk', m', _, he⟩ | ⟨vk', m', _, he⟩
  · obtain ⟨rfl, rfl⟩ := buildPreimage_inj (Prod.mk.inj he).2
    exact hde
  · exact absurd (Prod.mk.inj he).2 (hibrida_ne_triple _ _ _ _)
  · exact absurd (Prod.mk.inj he).2 (hibrida_ne_cnsa _ _ _ _)

theorem tripleDe_of_edDe {c : Llamada} {pk : Arr 32} {vk : TripleVerifyingKey} {m : List UInt8}
    (h : EdDe es c (pk, buildTriplePreimage vk.toBytes m)) : TripleDe es vk m c := by
  rcases h with ⟨vk', m', _, he⟩ | ⟨vk', m', hde, he⟩
  · exact absurd (Prod.mk.inj he).2.symm (hibrida_ne_triple _ _ _ _)
  · obtain ⟨rfl, rfl⟩ := buildTriplePreimage_inj (Prod.mk.inj he).2
    exact hde

theorem tripleDe_of_mlDe {c : Llamada} {pk : Arr 2592} {vk : TripleVerifyingKey}
    {m : List UInt8} (h : MlDe es c (pk, buildTriplePreimage vk.toBytes m)) :
    TripleDe es vk m c := by
  rcases h with ⟨vk', m', _, he⟩ | ⟨vk', m', hde, he⟩ | ⟨vk', m', _, he⟩
  · exact absurd (Prod.mk.inj he).2.symm (hibrida_ne_triple _ _ _ _)
  · obtain ⟨rfl, rfl⟩ := buildTriplePreimage_inj (Prod.mk.inj he).2
    exact hde
  · exact absurd (Prod.mk.inj he).2 (triple_ne_cnsa _ _ _ _)

theorem tripleDe_of_slhDe {c : Llamada} {pk : Arr 64} {vk : TripleVerifyingKey} {m : List UInt8}
    (h : SlhDe es c (pk, buildTriplePreimage vk.toBytes m)) : TripleDe es vk m c := by
  obtain ⟨vk', m', hde, he⟩ := h
  obtain ⟨rfl, rfl⟩ := buildTriplePreimage_inj (Prod.mk.inj he).2
  exact hde

theorem cnsaDe_of_mlDe {c : Llamada} {pk : Arr 2592} {vk : Cnsa.Firma.VerifyingKey}
    {m : List UInt8} (h : MlDe es c (pk, Cnsa.Firma.preimagen vk.aBytes m)) :
    CnsaDe es vk m c := by
  rcases h with ⟨vk', m', _, he⟩ | ⟨vk', m', _, he⟩ | ⟨vk', m', hde, he⟩
  · exact absurd (Prod.mk.inj he).2.symm (hibrida_ne_cnsa _ _ _ _)
  · exact absurd (Prod.mk.inj he).2.symm (triple_ne_cnsa _ _ _ _)
  · obtain ⟨rfl, rfl⟩ := cnsa_preimagen_inj (Prod.mk.inj he).2
    exact hde

theorem mem_of_ideal {s v f : Nat} {e : Esquema s v f} {pk : Arr v}
    {firmado : List (Arr v × List UInt8)} (h : e.IdealPara pk firmado) {p sig : List UInt8}
    (ha : aceptaBytes e pk p sig = true) : (pk, p) ∈ firmado := by
  obtain ⟨a, _, ha⟩ := aceptaBytes_eq_true.mp ha
  exact h p a ha

/-- A verified signature comes from a call of its own scheme for its full public key and its
message, when one of the schemes of the key is ideal. -/
theorem firma_ligada (es : Esquemas) (historia : List Llamada) :
    (∀ (vk : VerifyingKey) m sig,
        es.ed.IdealPara vk.ed (firmadoEn es historia).ed ∨
          es.ml.IdealPara vk.ml (firmadoEn es historia).ml →
        vk.verify es m sig = true →
        ∃ sk, Llamada.hibrida sk m ∈ historia ∧ sk.verifyingKey es = vk) ∧
      (∀ (vk : TripleVerifyingKey) m sig,
        es.ed.IdealPara vk.ed (firmadoEn es historia).ed ∨
          es.ml.IdealPara vk.ml (firmadoEn es historia).ml ∨
          es.slh.IdealPara vk.slh (firmadoEn es historia).slh →
        vk.verify es m sig = true →
        ∃ sk, Llamada.triple sk m ∈ historia ∧
          (sk.verifyingKey es : Res Empty TripleVerifyingKey) = .ok vk) ∧
      ∀ (vk : Cnsa.Firma.VerifyingKey) m sig,
        es.ml.IdealPara vk.ml (firmadoEn es historia).ml →
        vk.verificar es m sig = true →
        ∃ sk, Llamada.cnsa sk m ∈ historia ∧ sk.claveDeVerificacion es = vk := by
  obtain ⟨horigenEd, horigenMl, horigenSlh⟩ := firmadoEn_origen es historia
  refine ⟨fun vk m sig hideal hver => ?_, fun vk m sig hideal hver => ?_,
    fun vk m sig hideal hver => ?_⟩
  · obtain ⟨hed, hml⟩ := verify_partes hver
    have hde : ∃ c ∈ historia, HibridaDe es vk m c := by
      rcases hideal with hideal | hideal
      · obtain ⟨c, hc, hx⟩ := horigenEd _ (mem_of_ideal hideal hed)
        exact ⟨c, hc, hibridaDe_of_edDe hx⟩
      · obtain ⟨c, hc, hx⟩ := horigenMl _ (mem_of_ideal hideal hml)
        exact ⟨c, hc, hibridaDe_of_mlDe hx⟩
    obtain ⟨c, hc, sk, rfl, hvk⟩ := hde
    exact ⟨sk, hc, hvk⟩
  · obtain ⟨_, _, _, hed, hml, hslh⟩ := triple_verify_partes hver
    have hde : ∃ c ∈ historia, TripleDe es vk m c := by
      rcases hideal with hideal | hideal | hideal
      · obtain ⟨c, hc, hx⟩ := horigenEd _ (mem_of_ideal hideal hed)
        exact ⟨c, hc, tripleDe_of_edDe hx⟩
      · obtain ⟨c, hc, hx⟩ := horigenMl _ (mem_of_ideal hideal hml)
        exact ⟨c, hc, tripleDe_of_mlDe hx⟩
      · obtain ⟨c, hc, hx⟩ := horigenSlh _ (mem_of_ideal hideal hslh)
        exact ⟨c, hc, tripleDe_of_slhDe hx⟩
    obtain ⟨c, hc, sk, rfl, hvk⟩ := hde
    exact ⟨sk, hc, hvk⟩
  · have hml := verificar_partes hver
    obtain ⟨c, hc, hx⟩ := horigenMl _ (mem_of_ideal hideal hml)
    obtain ⟨sk, rfl, hvk⟩ := cnsaDe_of_mlDe hx
    exact ⟨sk, hc, hvk⟩

theorem idealPara_deRegistro {s v f : Nat} (firmado : List (Arr v × List UInt8)) (pk : Arr v) :
    (Esquema.deRegistro firmado : Esquema s v f).IdealPara pk firmado := fun _ _ h =>
  of_decide_eq_true (Bool.and_eq_true_iff.mp h).1

/-- The three schemes sign one message with shared component keys. -/
def compartidas (ed ml : Arr 32) (slh : Arr 128) (m : List UInt8) : List Llamada :=
  [.hibrida ⟨ed, ml⟩ m, .triple ⟨ed, ml, slh⟩ m, .cnsa ⟨ml⟩ m]

theorem firmadoEn_compartidas {es : Esquemas} {ed ml : Arr 32} {slh : Arr 128} {m : List UInt8}
    {vk : VerifyingKey} {vk₃ : TripleVerifyingKey} {vk₁ : Cnsa.Firma.VerifyingKey}
    (hlee : es.leeSlh slh = true) (hvk : SigningKey.verifyingKey es ⟨ed, ml⟩ = vk)
    (hvk₃ : (TripleSigningKey.verifyingKey es ⟨ed, ml, slh⟩ : Res Empty _) = .ok vk₃)
    (hvk₁ : Cnsa.Firma.SigningKey.claveDeVerificacion es ⟨ml⟩ = vk₁) :
    firmadoEn es (compartidas ed ml slh m) =
      ⟨[(vk.ed, buildPreimage vk.toBytes m), (vk₃.ed, buildTriplePreimage vk₃.toBytes m)],
        [(vk.ml, buildPreimage vk.toBytes m), (vk₃.ml, buildTriplePreimage vk₃.toBytes m),
          (vk₁.ml, Cnsa.Firma.preimagen vk₁.aBytes m)],
        [(vk₃.slh, buildTriplePreimage vk₃.toBytes m)]⟩ := by
  subst hvk hvk₁
  rw [firmadoEn, compartidas, List.foldl_cons, List.foldl_cons, dejar_triple_of_ok hlee hvk₃]
  rfl

theorem firma_ligada_compartidas :
    let historia := compartidas (ajustar 32 [7]) (ajustar 32 [8]) (ajustar 128 [9]) [1]
    ∃ (es : Esquemas) (vk : VerifyingKey) (vk₃ : TripleVerifyingKey)
        (vk₁ : Cnsa.Firma.VerifyingKey),
      vk.ed = vk₃.ed ∧ vk.ml = vk₃.ml ∧ vk.ml = vk₁.ml ∧
      (∃ sig, vk.verify es [1] sig = true ∧
        ∃ sk, Llamada.hibrida sk [1] ∈ historia ∧ sk.verifyingKey es = vk) ∧
      (∃ sig, vk₃.verify es [1] sig = true ∧
        ∃ sk, Llamada.triple sk [1] ∈ historia ∧
          (sk.verifyingKey es : Res Empty TripleVerifyingKey) = .ok vk₃) ∧
      ∃ sig, vk₁.verificar es [1] sig = true ∧
        ∃ sk, Llamada.cnsa sk [1] ∈ historia ∧ sk.claveDeVerificacion es = vk₁ := by
  generalize ajustar 32 [7] = ed, ajustar 32 [8] = ml, ajustar 128 [9] = slh
  intro historia
  obtain ⟨vk, hvk⟩ : ∃ vk, SigningKey.verifyingKey (.deRegistro ⟨[], [], []⟩) ⟨ed, ml⟩ = vk :=
    ⟨_, rfl⟩
  obtain ⟨vk₃, hvk₃⟩ : ∃ vk₃, (TripleSigningKey.verifyingKey (.deRegistro ⟨[], [], []⟩)
      ⟨ed, ml, slh⟩ : Res Empty _) = .ok vk₃ := ⟨_, rfl⟩
  obtain ⟨vk₁, hvk₁⟩ : ∃ vk₁, Cnsa.Firma.SigningKey.claveDeVerificacion
      (.deRegistro ⟨[], [], []⟩) ⟨ml⟩ = vk₁ := ⟨_, rfl⟩
  -- the keys do not depend on the record, so the record of the history can be the scheme's own
  obtain ⟨r, hr⟩ : ∃ r, firmadoEn (.deRegistro ⟨[], [], []⟩) historia = r := ⟨_, rfl⟩
  rw [firmadoEn_compartidas rfl hvk hvk₃ hvk₁] at hr
  have hfirmado : firmadoEn (.deRegistro r) historia = r :=
    (firmadoEn_compartidas rfl hvk hvk₃ hvk₁).trans hr
  have hed (pk : Arr 32) : (Esquemas.deRegistro r).ed.IdealPara pk
      (firmadoEn (.deRegistro r) historia).ed := by
    rw [hfirmado]
    exact idealPara_deRegistro r.ed pk
  have hml (pk : Arr 2592) : (Esquemas.deRegistro r).ml.IdealPara pk
      (firmadoEn (.deRegistro r) historia).ml := by
    rw [hfirmado]
    exact idealPara_deRegistro r.ml pk
  obtain ⟨hhibrida, htriple, hcnsa⟩ := firma_ligada (.deRegistro r) historia
  have hver : vk.verify (.deRegistro r) [1] ((ajustar 64 vk.ed.toList).toList ++
      (ajustar 4627 vk.ml.toList).toList) = true := by
    rw [verify_append, Bool.and_eq_true_iff, ← hr]
    exact ⟨Esquema.acepta_deRegistro (by simp), Esquema.acepta_deRegistro (by simp)⟩
  have hver₃ : vk₃.verify (.deRegistro r) [1] ((ajustar 64 vk₃.ed.toList).toList ++
      (ajustar 4627 vk₃.ml.toList).toList ++ (ajustar 29792 vk₃.slh.toList).toList) = true := by
    rw [triple_verify_append, Bool.and_eq_true_iff, Bool.and_eq_true_iff, ← hr]
    exact ⟨⟨Esquema.acepta_deRegistro (by simp), Esquema.acepta_deRegistro (by simp)⟩,
      Esquema.acepta_deRegistro (by simp)⟩
  have hver₁ : vk₁.verificar (.deRegistro r) [1] (ajustar 4627 vk₁.ml.toList).toList = true := by
    rw [verificar_toList, ← hr]
    exact Esquema.acepta_deRegistro (by simp)
  refine ⟨.deRegistro r, vk, vk₃, vk₁, ?_, ?_, ?_,
    ⟨_, hver, hhibrida vk [1] _ (.inl (hed vk.ed)) hver⟩,
    ⟨_, hver₃, htriple vk₃ [1] _ (.inr (.inl (hml vk₃.ml))) hver₃⟩,
    ⟨_, hver₁, hcnsa vk₁ [1] _ (hml vk₁.ml) hver₁⟩⟩
  · subst hvk
    cases hvk₃
    rfl
  · subst hvk
    cases hvk₃
    rfl
  · subst hvk hvk₁
    rfl

end Pqsign

end Quipu
