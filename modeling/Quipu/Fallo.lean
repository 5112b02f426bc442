import Mathlib.Data.Vector.Basic

namespace Quipu

/-- How a call of the Rust code can end without a value. -/
inductive Fallo (ε : Type) where
  | error (e : ε)
  | panico (mensaje : String)
  deriving DecidableEq, Repr

/-- A pure call: a value, a returned error or a panic. -/
abbrev Res (ε α : Type) := Except (Fallo ε) α

/-- A call with effects on `σ`; what it did before failing stays done. -/
abbrev Prog (σ ε α : Type) := EStateM (Fallo ε) σ α

/-- A Rust byte slice never holds more than `isize::MAX` bytes. -/
abbrev Slice := {xs : List UInt8 // xs.length < 2 ^ 63}

/-- The Rust array `[u8; n]`. -/
abbrev Arr (n : Nat) := List.Vector UInt8 n

def Arr.of {n : Nat} (xs : List UInt8) (h : xs.length = n) : Arr n := ⟨xs, h⟩

theorem length_ajustar (n : Nat) (b : List UInt8) : (b.takeD n 0).length = n :=
  List.takeD_length n b 0

/-- The first `n` bytes of `b`, with zeros behind. -/
def ajustar (n : Nat) (b : List UInt8) : Arr n := Arr.of (b.takeD n 0) (length_ajustar n b)

variable {ε ε' σ α β : Type}

def fallar (e : ε) : Res ε α := .error (.error e)

def panico (mensaje : String) : Res ε α := .error (.panico mensaje)

/-- The guard `if c { return Err(e) }`. -/
def rechazarSi (c : Prop) [Decidable c] (e : ε) : Res ε Unit := if c then fallar e else .ok ()

def Fallo.map (f : ε → ε') : Fallo ε → Fallo ε'
  | .error e => .error (f e)
  | .panico m => .panico m

def Res.mapErr (f : ε → ε') (r : Res ε α) : Res ε' α := r.mapError (Fallo.map f)

def Prog.deRes (r : Res ε α) : Prog σ ε α := fun s =>
  match r with
  | .ok a => .ok a s
  | .error e => .error e s

def Prog.rechazarSi (c : Prop) [Decidable c] (e : ε) : Prog σ ε Unit :=
  Prog.deRes (Quipu.rechazarSi c e)

def Res.Acepta (r : Res ε α) : Prop := ∃ a, r = .ok a

/-- The call returns an error, without a panic. -/
def Res.Rechaza (r : Res ε α) : Prop := ∃ e, r = .error (.error e)

def Res.SinPanico (r : Res ε α) : Prop := r.Acepta ∨ r.Rechaza

/-- The indexing `b[i]`. -/
def octeto (b : List UInt8) (i : Nat) : Res ε UInt8 :=
  match b[i]? with
  | some x => .ok x
  | none => panico "index out of bounds"

theorem length_tramo {b : List UInt8} {i n : Nat} (h : i + n ≤ b.length) :
    ((b.drop i).take n).length = n :=
  List.length_take_of_le (List.length_drop ▸ Nat.le_sub_of_add_le' h)

/-- The field `b[i..i + n].try_into()`. -/
def campo (b : List UInt8) (i n : Nat) : Res ε (Arr n) :=
  if h : i + n ≤ b.length then .ok (Arr.of ((b.drop i).take n) (length_tramo h))
  else panico "range end index out of range"

/-- The slice `b[i..j]`. -/
def tramo (b : List UInt8) (i j : Nat) : Res ε (List UInt8) :=
  if i ≤ j ∧ j ≤ b.length then .ok ((b.drop i).take (j - i)) else panico "range out of bounds"

@[simp] theorem Prog.deRes_ok (a : α) (s : σ) :
    (Prog.deRes (.ok a) : Prog σ ε α) s = .ok a s := rfl

@[simp] theorem Prog.deRes_error (e : Fallo ε) (s : σ) :
    (Prog.deRes (.error e) : Prog σ ε α) s = .error e s := rfl

@[simp] theorem Res.mapErr_ok (f : ε → ε') (a : α) :
    Res.mapErr f (.ok a : Res ε α) = .ok a := rfl

theorem Res.mapErr_eq_ok {f : ε → ε'} {r : Res ε α} {a : α} :
    Res.mapErr f r = .ok a ↔ r = .ok a := by
  cases r with
  | ok b => simp
  | error e => simp [Res.mapErr, Except.mapError]

@[simp] theorem rechazarSi_eq_ok {c : Prop} [Decidable c] {e : ε} {u : Unit} :
    rechazarSi c e = .ok u ↔ ¬c := by
  unfold rechazarSi fallar
  split
  next h => simp [h]
  next h => simp [h]

theorem rechazarSi_of_not {c : Prop} [Decidable c] (e : ε) (h : ¬c) :
    rechazarSi c e = .ok () := rechazarSi_eq_ok.mpr h

theorem rechazarSi_of {c : Prop} [Decidable c] (e : ε) (h : c) :
    rechazarSi c e = .error (.error e) := by simp [rechazarSi, fallar, h]

theorem rechazarSi_bind {c : Prop} [Decidable c] (e : ε) (f : Unit → Res ε α) :
    (rechazarSi c e >>= f) = if c then fallar e else f () := by
  unfold rechazarSi
  split <;> rfl

@[simp] theorem Res.pure_eq_ok {a b : α} : (pure a : Res ε α) = .ok b ↔ a = b := by
  simp [pure, Except.pure]

@[simp] theorem Res.ok_bind (a : α) (f : α → Res ε β) : ((Except.ok a : Res ε α) >>= f) = f a := rfl

@[simp] theorem Res.error_bind (e : Fallo ε) (f : α → Res ε β) :
    ((Except.error e : Res ε α) >>= f) = .error e := rfl

theorem Res.Rechaza.not_acepta {r : Res ε α} (h : r.Rechaza) : ¬r.Acepta := by
  rintro ⟨a, rfl⟩
  obtain ⟨e, h⟩ := h
  cases h

theorem Res.SinPanico.rechaza_iff {r : Res ε α} (h : r.SinPanico) : r.Rechaza ↔ ¬r.Acepta :=
  ⟨fun hr => hr.not_acepta, fun hn => h.resolve_left hn⟩

theorem Res.sinPanico_ok (a : α) : Res.SinPanico (.ok a : Res ε α) := .inl ⟨a, rfl⟩

theorem Res.sinPanico_fallar (e : ε) : Res.SinPanico (fallar e : Res ε α) := .inr ⟨e, rfl⟩

theorem Res.sinPanico_ite {c : Prop} [Decidable c] {e : ε} {r : Res ε α} (h : ¬c → r.SinPanico) :
    Res.SinPanico (if c then fallar e else r) := by
  split
  next => exact sinPanico_fallar e
  next hc => exact h hc

theorem Res.bind_ok {r : Res ε α} {f : α → Res ε β} {b : β} :
    (r >>= f) = .ok b ↔ ∃ a, r = .ok a ∧ f a = .ok b := by
  cases r with
  | error e => simp [bind, Except.bind]
  | ok a => simp [bind, Except.bind]

theorem Res.mapM_of_ok {f : α → Res ε β} {g : α → β} {xs : List α}
    (h : ∀ x ∈ xs, f x = .ok (g x)) : xs.mapM f = .ok (xs.map g) := by
  induction xs with
  | nil => rfl
  | cons x xs ih =>
    rw [List.mapM_cons, h x List.mem_cons_self,
      ih fun y hy => h y (List.mem_cons_of_mem x hy)]
    rfl

theorem Res.mapM_congr {f g : α → Res ε β} {xs : List α} (h : ∀ x ∈ xs, f x = g x) :
    xs.mapM f = xs.mapM g := by
  induction xs with
  | nil => rfl
  | cons x xs ih =>
    rw [List.mapM_cons, List.mapM_cons, h x List.mem_cons_self,
      ih fun y hy => h y (List.mem_cons_of_mem x hy)]

theorem Res.forall₂_of_mapM {f : α → Res ε β} {xs : List α} {ys : List β}
    (h : xs.mapM f = .ok ys) : List.Forall₂ (fun x y => f x = .ok y) xs ys := by
  induction xs generalizing ys with
  | nil =>
    cases Except.ok.inj h
    exact .nil
  | cons x xs ih =>
    rw [List.mapM_cons] at h
    obtain ⟨y, hy, h⟩ := Res.bind_ok.mp h
    obtain ⟨zs, hz, h⟩ := Res.bind_ok.mp h
    cases Except.ok.inj h
    exact .cons hy (ih hz)

theorem Res.foldlM_of_ok {f : β → α → Res ε β} {g : β → α → β} {xs : List α}
    (h : ∀ b, ∀ x ∈ xs, f b x = .ok (g b x)) (b : β) : xs.foldlM f b = .ok (xs.foldl g b) := by
  induction xs generalizing b with
  | nil => rfl
  | cons x xs ih =>
    rw [List.foldlM_cons, h b x List.mem_cons_self, Res.ok_bind,
      ih fun b' y hy => h b' y (List.mem_cons_of_mem x hy)]
    rfl

theorem Prog.bind_ok {p : Prog σ ε α} {f : α → Prog σ ε β} {b : β} {s s' : σ} :
    (p >>= f) s = .ok b s' ↔ ∃ a s₁, p s = .ok a s₁ ∧ f a s₁ = .ok b s' := by
  simp only [bind, EStateM.bind]
  cases h : p s with
  | ok a s₁ => simp
  | error e s₁ => simp

theorem Prog.bind_of_ok {p : Prog σ ε α} {f : α → Prog σ ε β} {a : α} {s s₁ : σ}
    (h : p s = .ok a s₁) : (p >>= f) s = f a s₁ := by
  simp only [bind, EStateM.bind, h]

theorem Prog.bind_of_error {p : Prog σ ε α} {f : α → Prog σ ε β} {e : Fallo ε} {s s₁ : σ}
    (h : p s = .error e s₁) : (p >>= f) s = .error e s₁ := by
  simp only [bind, EStateM.bind, h]

theorem Prog.deRes_bind_of_ok {r : Res ε α} {a : α} (h : r = .ok a) (f : α → Prog σ ε β) (s : σ) :
    (Prog.deRes r >>= f) s = f a s := by
  subst h
  rfl

theorem Prog.rechazarSi_bind_of_not {c : Prop} [Decidable c] (e : ε) (h : ¬c)
    (f : Unit → Prog σ ε α) (s : σ) : (Prog.rechazarSi c e >>= f) s = f () s :=
  Prog.deRes_bind_of_ok (rechazarSi_of_not e h) f s

theorem Prog.rechazarSi_bind_of {c : Prop} [Decidable c] (e : ε) (h : c)
    (f : Unit → Prog σ ε α) (s : σ) : (Prog.rechazarSi c e >>= f) s = .error (.error e) s :=
  Prog.bind_of_error (congrArg (Prog.deRes · s) (rechazarSi_of e h))

theorem Prog.deRes_eq_ok {r : Res ε α} {a : α} {s s' : σ} :
    (Prog.deRes r : Prog σ ε α) s = .ok a s' ↔ r = .ok a ∧ s' = s := by
  cases r with
  | ok b => simp [eq_comm]
  | error e => simp

theorem octeto_ok {b : List UInt8} {i : Nat} (h : i < b.length) :
    (octeto b i : Res ε UInt8) = .ok b[i] := by
  simp [octeto, h]

theorem campo_ok {b : List UInt8} {i n : Nat} (h : i + n ≤ b.length) :
    (campo b i n : Res ε (Arr n)) = .ok (Arr.of ((b.drop i).take n) (length_tramo h)) := by
  simp [campo, h]

@[simp] theorem Arr.toList_of {n : Nat} (xs : List UInt8) (h : xs.length = n) :
    (Arr.of xs h).toList = xs := rfl

@[simp] theorem Arr.of_toList {n : Nat} (a : Arr n) (h : a.toList.length = n) :
    Arr.of a.toList h = a := rfl

theorem Arr.ext {n : Nat} {a b : Arr n} (h : a.toList = b.toList) : a = b :=
  Subtype.ext h

theorem tramo_ok {b : List UInt8} {i j : Nat} (h : i ≤ j) (hj : j ≤ b.length) :
    (tramo b i j : Res ε (List UInt8)) = .ok ((b.take j).drop i) := by
  rw [tramo, if_pos ⟨h, hj⟩, List.drop_take]

theorem campo_eq_ok {b : List UInt8} {i n : Nat} {x : Arr n} :
    (campo b i n : Res ε (Arr n)) = .ok x ↔ i + n ≤ b.length ∧ x.toList = (b.drop i).take n := by
  constructor
  · intro h
    unfold campo at h
    split at h
    next hl =>
      cases h
      exact ⟨hl, rfl⟩
    next => cases h
  · rintro ⟨hl, hx⟩
    rw [campo_ok hl]
    exact congrArg Except.ok (Arr.ext hx.symm)

theorem drop_of_campo {b : List UInt8} {i n : Nat} {x : Arr n}
    (h : (campo b i n : Res ε (Arr n)) = .ok x) : b.drop i = x.toList ++ b.drop (i + n) := by
  rw [(campo_eq_ok.mp h).2, ← List.drop_drop, List.take_append_drop]

theorem octeto_eq_ok {b : List UInt8} {i : Nat} {x : UInt8} :
    (octeto b i : Res ε UInt8) = .ok x ↔ b[i]? = some x := by
  unfold octeto
  cases b[i]? with
  | none => simp [panico]
  | some y => simp

theorem drop_of_octeto {b : List UInt8} {i : Nat} {x : UInt8}
    (h : (octeto b i : Res ε UInt8) = .ok x) : b.drop i = x :: b.drop (i + 1) := by
  obtain ⟨hi, rfl⟩ := List.getElem?_eq_some_iff.mp (octeto_eq_ok.mp h)
  exact List.drop_eq_getElem_cons hi

/-- `resto` ends `b` and starts at its byte `i`. -/
def Sigue (b : List UInt8) (i : Nat) (resto : List UInt8) : Prop :=
  ∃ a, b = a ++ resto ∧ a.length = i

theorem Sigue.campo {b resto : List UInt8} {i n : Nat} {x : Arr n}
    (h : Sigue b i (x.toList ++ resto)) :
    (Quipu.campo b i n : Res ε (Arr n)) = .ok x ∧ Sigue b (i + n) resto := by
  obtain ⟨a, rfl, rfl⟩ := h
  have hx := x.toList_length
  refine ⟨campo_eq_ok.mpr ⟨by simp, ?_⟩, a ++ x.toList, by simp, by simp⟩
  rw [List.drop_left, List.take_left' hx]

theorem Sigue.octeto {b resto : List UInt8} {i : Nat} {x : UInt8} (h : Sigue b i (x :: resto)) :
    (Quipu.octeto b i : Res ε UInt8) = .ok x ∧ Sigue b (i + 1) resto := by
  obtain ⟨a, rfl, rfl⟩ := h
  exact ⟨octeto_eq_ok.mpr (by simp), a ++ [x], by simp, by simp⟩

end Quipu
