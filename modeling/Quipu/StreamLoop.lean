import Quipu.Chunks
import Quipu.Io

namespace Quipu

/-- The reader of a stream and what the loop over it acts on. -/
structure Flujo (σ : Type) where
  lector : Lector
  estado : σ

inductive StreamError where
  | io (e : ErrorIo)
  | header
  | unsupportedVersion (v : UInt8)
  | badChunkSize
  | insaneKdf
  | decrypt
  | truncated
  deriving DecidableEq, Repr

namespace Stream

variable {σ : Type}

/-- The action on one chunk, given its counter and whether it is the last. -/
abbrev Paso (σ : Type) := Nat → Bool → List UInt8 → Prog σ StreamError Unit

/-- `counter.checked_add(1).ok_or(Truncated)`. -/
def siguiente (counter : Nat) : Res StreamError Nat :=
  if counter + 1 < 2 ^ 32 then .ok (counter + 1) else fallar .truncated

def leer (c : Nat) : Prog (Flujo σ) StreamError (List UInt8) := fun f =>
  match readChunk f.lector c with
  | (.ok bs, l) => .ok bs { f with lector := l }
  | (.error e, l) => .error (.error (.io e)) { f with lector := l }

def enEstado {ε α : Type} (p : Prog σ ε α) : Prog (Flujo σ) ε α := fun f =>
  match p f.estado with
  | .ok a s => .ok a { f with estado := s }
  | .error e s => .error e { f with estado := s }

theorem leer_eq_ok {c : Nat} {f f' : Flujo σ} {bs : List UInt8} :
    leer c f = .ok bs f' ↔
      readChunk f.lector c = (.ok bs, f'.lector) ∧ f'.estado = f.estado := by
  unfold leer
  split
  next xs l h =>
    cases f'
    simp only [h, EStateM.Result.ok.injEq, Prod.mk.injEq, Except.ok.injEq, Flujo.mk.injEq]
    tauto
  next e l h => simp [h]

/-- A turn of the loop that is not the last. A next chunk of fewer than `minimo` bytes is
refused; the writer has no such minimum. -/
def avanzar (minimo : Nat) (paso : Paso σ) (cur nxt : List UInt8) (counter : Nat) :
    Prog σ StreamError Nat := do
  Prog.rechazarSi (nxt.length < minimo) .truncated
  paso counter false cur
  Prog.deRes (siguiente counter)

/-- The loop that both directions run over chunks of `c` bytes, reading one chunk ahead. -/
def bucle (c minimo : Nat) (paso : Paso σ) (cur : List UInt8) (counter : Nat) (f : Flujo σ) :
    EStateM.Result (Fallo StreamError) (Flujo σ) Unit :=
  if cur.length < c then enEstado (paso counter true cur) f else
  match _h : leer c f with
  | .error e f₁ => .error e f₁
  | .ok [] f₁ => enEstado (paso counter true cur) f₁
  | .ok (b :: bs) f₁ =>
    match avanzar minimo paso cur (b :: bs) counter f₁.estado with
    | .error e s => .error e { f₁ with estado := s }
    | .ok counter' s => bucle c minimo paso (b :: bs) counter' { f₁ with estado := s }
termination_by f.lector.resto.length
decreasing_by
  have hr := (readChunk_ok (leer_eq_ok.mp _h).1).1
  simp only [hr, List.length_append, List.length_cons]
  omega

/-- The same actions over chunks that are already in a list. -/
def emitir (minimo : Nat) (paso : Paso σ) : Nat → List (List UInt8) → Prog σ StreamError Unit
  | _, [] => pure ()
  | counter, [b] => paso counter true b
  | counter, b :: d :: bs => do
    let counter' ← avanzar minimo paso b d counter
    emitir minimo paso counter' (d :: bs)

theorem siguiente_eq_ok {i j : Nat} : siguiente i = .ok j ↔ i + 1 < 2 ^ 32 ∧ i + 1 = j := by
  unfold siguiente
  split
  next h => simp only [h, Except.ok.injEq, true_and]
  next h => simp only [h, fallar, reduceCtorEq, false_and]

theorem avanzar_eq_ok {minimo i j : Nat} {paso : Paso σ} {b d : List UInt8} {s s' : σ} :
    avanzar minimo paso b d i s = .ok j s' ↔
      minimo ≤ d.length ∧ paso i false b s = .ok () s' ∧ i + 1 < 2 ^ 32 ∧ i + 1 = j := by
  simp only [avanzar, Prog.bind_ok, Prog.rechazarSi, Prog.deRes_eq_ok, rechazarSi_eq_ok,
    siguiente_eq_ok, not_lt]
  constructor
  · rintro ⟨_, _, ⟨hd, rfl⟩, _, _, hp, hi, rfl⟩
    exact ⟨hd, hp, hi⟩
  · rintro ⟨hd, hp, hi⟩
    exact ⟨(), s, ⟨hd, rfl⟩, (), s', hp, hi, rfl⟩

theorem enEstado_eq_ok {ε α : Type} {p : Prog σ ε α} {f f' : Flujo σ} {a : α} :
    enEstado p f = .ok a f' ↔ p f.estado = .ok a f'.estado ∧ f'.lector = f.lector := by
  unfold enEstado
  cases f'
  cases h : p f.estado with
  | ok b s => simp only [EStateM.Result.ok.injEq, Flujo.mk.injEq]; tauto
  | error e s => simp

def quedado {ε α : Type} : EStateM.Result ε σ α → σ
  | .ok _ s => s
  | .error _ s => s

theorem quedado_error {ε α : Type} {r : EStateM.Result ε σ α} {e : ε} {s : σ}
    (h : r = .error e s) : quedado r = s := by
  rw [h, quedado]

theorem avanzar_quedado (minimo i : Nat) (paso : Paso σ) (b d : List UInt8) (s : σ) :
    quedado (avanzar minimo paso b d i s) = s ∨
      quedado (avanzar minimo paso b d i s) = quedado (paso i false b s) := by
  simp only [avanzar, Prog.rechazarSi, bind, EStateM.bind]
  cases rechazarSi (ε := StreamError) (d.length < minimo) .truncated with
  | error e => exact Or.inl rfl
  | ok u =>
    simp only [Prog.deRes_ok]
    cases paso i false b s with
    | error e s₁ => exact Or.inr rfl
    | ok v s₁ =>
      simp only [quedado, Prog.deRes]
      cases siguiente i <;> exact Or.inr rfl

theorem enEstado_quedado {ε α : Type} (p : Prog σ ε α) (f : Flujo σ) :
    (quedado (enEstado p f)).estado = quedado (p f.estado) := by
  unfold enEstado
  cases p f.estado <;> rfl

theorem leer_quedado (c : Nat) (f : Flujo σ) : (quedado (leer c f)).estado = f.estado := by
  unfold leer
  split <;> rfl

theorem bucle_ultimo {c minimo : Nat} {paso : Paso σ} {cur : List UInt8} {i : Nat}
    {f : Flujo σ} (h : cur.length < c) :
    bucle c minimo paso cur i f = enEstado (paso i true cur) f := by
  rw [bucle, if_pos h]

theorem bucle_lleno {c minimo : Nat} {paso : Paso σ} {cur : List UInt8} {i : Nat}
    {f : Flujo σ} (h : ¬cur.length < c) :
    bucle c minimo paso cur i f =
      match leer c f with
      | .error e f₁ => .error e f₁
      | .ok [] f₁ => enEstado (paso i true cur) f₁
      | .ok (b :: bs) f₁ =>
        match avanzar minimo paso cur (b :: bs) i f₁.estado with
        | .error e s => .error e { f₁ with estado := s }
        | .ok j s => bucle c minimo paso (b :: bs) j { f₁ with estado := s } := by
  rw [bucle, if_neg h]
  split
  next hr => simp only [hr]
  next hr => simp only [hr]
  next b bs f₁ hr => simp only [hr]

/-- A read that gives nothing leaves the current chunk as the last one. -/
theorem lookaheadChunks_of_leer_nil {c : Nat} (hc : 0 < c) {cur : List UInt8}
    (hcur : cur.length ≤ c) {f f₁ : Flujo σ} (hr : leer c f = .ok [] f₁) :
    lookaheadChunks c (cur ++ f.lector.resto) = [cur] := by
  obtain ⟨he, _, hshort⟩ := readChunk_ok (leer_eq_ok.mp hr).1
  rw [he, hshort hc, List.append_nil, List.append_nil, lookaheadChunks_of_le hcur]

/-- What a read gives after a full chunk is the next chunk of the input. -/
theorem lookaheadChunks_of_leer_cons {c : Nat} (hc : 0 < c) {cur b : List UInt8}
    (hcur : cur.length = c) (hb : b ≠ []) {f f₁ : Flujo σ} (hr : leer c f = .ok b f₁) :
    b.length ≤ c ∧ (b.length < c → f₁.lector.resto = []) ∧
      ∃ ds, lookaheadChunks c (b ++ f₁.lector.resto) = b :: ds ∧
        lookaheadChunks c (cur ++ f.lector.resto) = cur :: b :: ds := by
  obtain ⟨he, hle, hshort⟩ := readChunk_ok (leer_eq_ok.mp hr).1
  obtain ⟨ds, hd⟩ := lookaheadChunks_head hc hle hshort
  refine ⟨hle, hshort, ds, hd, ?_⟩
  rw [he, lookaheadChunks_append hc hcur (by simp [hb]), hd]

/-- A loop that succeeds did on the chunks of its input what `emitir` does. -/
theorem bucle_ok {c minimo : Nat} {paso : Paso σ} (hc : 0 < c) {cur : List UInt8} {i : Nat}
    {f f' : Flujo σ} (hcur : cur.length ≤ c) (hend : cur.length < c → f.lector.resto = [])
    (h : bucle c minimo paso cur i f = .ok () f') :
    emitir minimo paso i (lookaheadChunks c (cur ++ f.lector.resto)) f.estado =
      .ok () f'.estado := by
  induction cur, i, f using bucle.induct c minimo paso with
  | case1 cur i f hlt =>
    rw [bucle_ultimo hlt] at h
    rw [hend hlt, List.append_nil, lookaheadChunks_of_le hcur]
    exact (enEstado_eq_ok.mp h).1
  | case2 cur i f hlt e f₁ hr =>
    rw [bucle_lleno hlt, hr] at h
    cases h
  | case3 cur i f hlt f₁ hr =>
    rw [bucle_lleno hlt, hr] at h
    rw [lookaheadChunks_of_leer_nil hc hcur hr, ← (leer_eq_ok.mp hr).2]
    exact (enEstado_eq_ok.mp h).1
  | case4 cur i f hlt b bs f₁ hr e s ha =>
    rw [bucle_lleno hlt, hr] at h
    simp only [ha] at h
    cases h
  | case5 cur i f hlt b bs f₁ hr j s ha ih =>
    rw [bucle_lleno hlt, hr] at h
    simp only [ha] at h
    obtain ⟨hle, hshort, ds, hd, hcut⟩ :=
      lookaheadChunks_of_leer_cons hc (hcur.antisymm (Nat.not_lt.mp hlt)) (by simp) hr
    have hi := ih hle hshort h
    rw [hd] at hi
    rw [(leer_eq_ok.mp hr).2] at ha
    rw [hcut]
    exact (Prog.bind_of_ok ha).trans hi

/-- Over a reader whose reads are only cut or interrupted the loop does all of `emitir`. -/
theorem bucle_of_emitir {c minimo : Nat} {paso : Paso σ} (hc : 0 < c) {cur : List UInt8}
    {i : Nat} {f : Flujo σ} {s' : σ} (hcur : cur.length ≤ c)
    (hend : cur.length < c → f.lector.resto = []) (hl : f.lector.SinFallas)
    (h : emitir minimo paso i (lookaheadChunks c (cur ++ f.lector.resto)) f.estado =
      .ok () s') :
    ∃ f', bucle c minimo paso cur i f = .ok () f' ∧ f'.estado = s' := by
  induction cur, i, f using bucle.induct c minimo paso with
  | case1 cur i f hlt =>
    rw [hend hlt, List.append_nil, lookaheadChunks_of_le hcur] at h
    rw [bucle_ultimo hlt]
    exact ⟨⟨f.lector, s'⟩, enEstado_eq_ok.mpr ⟨h, rfl⟩, rfl⟩
  | case2 cur i f hlt e f₁ hr =>
    obtain ⟨_, _, hread, _⟩ := readChunk_sinFallas hl c
    simp [leer, hread] at hr
  | case3 cur i f hlt f₁ hr =>
    rw [lookaheadChunks_of_leer_nil hc hcur hr, ← (leer_eq_ok.mp hr).2] at h
    rw [bucle_lleno hlt, hr]
    exact ⟨⟨f₁.lector, s'⟩, enEstado_eq_ok.mpr ⟨h, rfl⟩, rfl⟩
  | case4 cur i f hlt b bs f₁ hr e s ha =>
    obtain ⟨_, _, ds, _, hcut⟩ :=
      lookaheadChunks_of_leer_cons hc (hcur.antisymm (Nat.not_lt.mp hlt)) (by simp) hr
    rw [hcut] at h
    obtain ⟨j, s₁, hj, _⟩ := Prog.bind_ok.mp h
    rw [(leer_eq_ok.mp hr).2, hj] at ha
    cases ha
  | case5 cur i f hlt b bs f₁ hr j s ha ih =>
    obtain ⟨hle, hshort, ds, hd, hcut⟩ :=
      lookaheadChunks_of_leer_cons hc (hcur.antisymm (Nat.not_lt.mp hlt)) (by simp) hr
    obtain ⟨hread, hest⟩ := leer_eq_ok.mp hr
    have hl₁ : f₁.lector.SinFallas := by
      obtain ⟨_, _, hread', hl'⟩ := readChunk_sinFallas hl c
      cases hread.symm.trans hread'
      exact hl'
    rw [hest] at ha
    rw [bucle_lleno hlt, hr]
    simp only [hest, ha]
    apply ih hle hshort hl₁
    rw [hd]
    rw [hcut] at h
    exact (Prog.bind_of_ok ha).symm.trans h

/-- The invariant rule of the loop: `I` holds before each turn, `Q` of what it leaves. -/
theorem bucle_inv {c minimo : Nat} {paso : Paso σ} {I : Nat → σ → Prop} {Q : σ → Prop}
    (hQ : ∀ i s, I i s → Q s)
    (hpaso : ∀ i fin b s, I i s → Q (quedado (paso i fin b s)))
    (hsig : ∀ i b s s', I i s → paso i false b s = .ok () s' → i + 1 < 2 ^ 32 → I (i + 1) s')
    {cur : List UInt8} {i : Nat} {f : Flujo σ} (h : I i f.estado) :
    Q (quedado (bucle c minimo paso cur i f)).estado := by
  have hfin : ∀ (b : List UInt8) i (g : Flujo σ), I i g.estado →
      Q (quedado (enEstado (paso i true b) g)).estado := by
    intro b i g hg
    rw [enEstado_quedado]
    exact hpaso i true b g.estado hg
  have hleer : ∀ {g g₁ : Flujo σ}, quedado (leer c g) = g₁ → g₁.estado = g.estado := by
    intro g g₁ hg
    rw [← hg]
    exact leer_quedado c g
  induction cur, i, f using bucle.induct c minimo paso with
  | case1 cur i f hlt =>
    rw [bucle_ultimo hlt]
    exact hfin cur i f h
  | case2 cur i f hlt e f₁ hr =>
    rw [bucle_lleno hlt, hr]
    have hest : f₁.estado = f.estado := hleer (by rw [hr]; rfl)
    exact hQ i _ (hest ▸ h)
  | case3 cur i f hlt f₁ hr =>
    rw [bucle_lleno hlt, hr]
    exact hfin cur i f₁ ((leer_eq_ok.mp hr).2 ▸ h)
  | case4 cur i f hlt b bs f₁ hr e s ha =>
    rw [bucle_lleno hlt, hr]
    simp only [ha]
    have hI : I i f₁.estado := (leer_eq_ok.mp hr).2 ▸ h
    have hs : quedado (avanzar minimo paso cur (b :: bs) i f₁.estado) = s := by rw [ha]; rfl
    change Q s
    rw [← hs]
    rcases avanzar_quedado minimo i paso cur (b :: bs) f₁.estado with he | he
    · rw [he]
      exact hQ i _ hI
    · rw [he]
      exact hpaso i false cur _ hI
  | case5 cur i f hlt b bs f₁ hr j s ha ih =>
    rw [bucle_lleno hlt, hr]
    simp only [ha]
    obtain ⟨_, hp, hi, rfl⟩ := avanzar_eq_ok.mp ha
    exact ih (hsig i cur _ s ((leer_eq_ok.mp hr).2 ▸ h) hp hi)

end Stream

end Quipu
