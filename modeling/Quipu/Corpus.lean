import Quipu.Cadena
import Quipu.Kdf

namespace Quipu.Lab

open Cadena

/-- The head of an empty corpus. -/
def root : Arr 32 := List.Vector.replicate 32 0

structure Entry where
  kind : String
  data : List UInt8
  hash : Arr 32
  deriving DecidableEq

structure Corpus where
  entries : List Entry
  deriving DecidableEq

namespace Corpus

def new : Corpus := ⟨[]⟩

/-- What `link` hashes. -/
def ligadura (prev : Arr 32) (kind : String) (data : List UInt8) : List UInt8 :=
  prev.toList ++ utf8 kind ++ [0] ++ data

def link (sha256 : List UInt8 → Arr 32) (prev : Arr 32) (kind : String) (data : List UInt8) :
    Arr 32 := sha256 (ligadura prev kind data)

def head (c : Corpus) : Arr 32 := (c.entries.getLast?.map Entry.hash).getD root

def len (c : Corpus) : Nat := c.entries.length

def append (sha256 : List UInt8 → Arr 32) (c : Corpus) (kind : String) (data : List UInt8) :
    Corpus := ⟨c.entries ++ [⟨kind, data, link sha256 c.head kind data⟩]⟩

/-- The loop of `verify`. -/
def verifyDesde (sha256 : List UInt8 → Arr 32) : Arr 32 → List Entry → Bool
  | _, [] => true
  | prev, e :: es =>
    if link sha256 prev e.kind e.data ≠ e.hash then false else verifyDesde sha256 e.hash es

def verify (sha256 : List UInt8 → Arr 32) (c : Corpus) : Bool := verifyDesde sha256 root c.entries

/-- What is hashed for an entry after the hash `prev`. -/
def preimagen (prev : Arr 32) (e : Entry) : List UInt8 := ligadura prev e.kind e.data

/-- The corpus after a run of appends. -/
def anotar (sha256 : List UInt8 → Arr 32) (c : Corpus) (hallazgos : List (String × List UInt8)) :
    Corpus := hallazgos.foldl (fun c p => c.append sha256 p.1 p.2) c

/-- No kind of the corpus holds the byte that ends it. -/
def SinCeros (c : Corpus) : Prop := ∀ e ∈ c.entries, (0 : UInt8) ∉ utf8 e.kind

variable {sha256 : List UInt8 → Arr 32}

theorem verifyDesde_iff (prev : Arr 32) (es : List Entry) :
    verifyDesde sha256 prev es = true ↔ Enlazada sha256 preimagen Entry.hash prev es := by
  induction es generalizing prev with
  | nil => exact iff_of_true rfl trivial
  | cons e es ih =>
    rw [verifyDesde, Enlazada, ← ih]
    split
    next hne =>
      exact iff_of_false Bool.false_ne_true fun h => hne h.1.symm
    next heq =>
      exact (and_iff_right (not_not.mp heq).symm).symm

theorem verify_iff (c : Corpus) :
    c.verify sha256 = true ↔ Enlazada sha256 preimagen Entry.hash root c.entries :=
  verifyDesde_iff root c.entries

/-- A corpus is as sound after an entry as before it. -/
theorem verify_append (c : Corpus) (kind : String) (data : List UInt8) :
    (c.append sha256 kind data).verify sha256 = c.verify sha256 := by
  rw [Bool.eq_iff_iff, verify_iff, verify_iff, append, enlazada_concat]
  exact and_iff_left rfl

theorem verify_anotar (c : Corpus) (hallazgos : List (String × List UInt8)) :
    (c.anotar sha256 hallazgos).verify sha256 = c.verify sha256 := by
  induction hallazgos generalizing c with
  | nil => rfl
  | cons p hallazgos ih =>
    rw [anotar, List.foldl_cons]
    exact (ih (c.append sha256 p.1 p.2)).trans (verify_append c p.1 p.2)

theorem entries_anotar (c : Corpus) (hallazgos : List (String × List UInt8)) :
    (c.anotar sha256 hallazgos).entries.map (fun e => (e.kind, e.data)) =
      c.entries.map (fun e => (e.kind, e.data)) ++ hallazgos := by
  induction hallazgos generalizing c with
  | nil => rw [List.append_nil]; rfl
  | cons p hallazgos ih =>
    rw [anotar, List.foldl_cons]
    refine (ih (c.append sha256 p.1 p.2)).trans ?_
    rw [append, List.map_append, List.append_assoc]
    rfl

/-- What is hashed names the hash before it. -/
theorem prev_of_preimagen {p p' : Arr 32} {e e' : Entry}
    (h : preimagen p e = preimagen p' e') : p = p' := by
  unfold preimagen ligadura at h
  simp only [List.append_assoc] at h
  exact Arr.ext (List.append_inj h (by rw [p.toList_length, p'.toList_length])).1

/-- A list ends where its separator first stands. -/
theorem separado_inj {α : Type} {a : α} {x y z w : List α} (hx : a ∉ x) (hy : a ∉ y)
    (h : x ++ a :: z = y ++ a :: w) : x = y ∧ z = w := by
  induction x generalizing y with
  | nil =>
    cases y with
    | nil => exact ⟨rfl, (List.cons.inj h).2⟩
    | cons c y => exact absurd (List.cons.inj h).1 fun he => hy (he ▸ List.mem_cons_self)
  | cons b x ih =>
    cases y with
    | nil => exact absurd (List.cons.inj h).1 fun he => hx (he ▸ List.mem_cons_self)
    | cons c y =>
      obtain ⟨rfl, h'⟩ := List.cons.inj h
      obtain ⟨rfl, rfl⟩ := ih (fun hm => hx (List.mem_cons_of_mem b hm))
        (fun hm => hy (List.mem_cons_of_mem b hm)) h'
      exact ⟨rfl, rfl⟩

/-- Without its separator in them, a kind and its data are read off what is hashed. -/
theorem entry_of_preimagen {p p' : Arr 32} {e e' : Entry} (hk : (0 : UInt8) ∉ utf8 e.kind)
    (hk' : (0 : UInt8) ∉ utf8 e'.kind) (h : preimagen p e = preimagen p' e') :
    e.kind = e'.kind ∧ e.data = e'.data := by
  have hp := prev_of_preimagen h
  unfold preimagen ligadura at h
  simp only [List.append_assoc, hp, List.append_cancel_left_eq, List.singleton_append] at h
  obtain ⟨hkind, hdata⟩ := separado_inj hk hk' h
  exact ⟨utf8_inj hkind, hdata⟩

/-- Entries with the same hashed values and hashes, in order, are the same. -/
theorem entries_eq {es es' : List Entry} {prev : Arr 32}
    (hes : Enlazada sha256 preimagen Entry.hash prev es)
    (hes' : Enlazada sha256 preimagen Entry.hash prev es')
    (hk : ∀ e ∈ es, (0 : UInt8) ∉ utf8 e.kind) (hk' : ∀ e ∈ es', (0 : UInt8) ∉ utf8 e.kind)
    (h : preimagenes preimagen Entry.hash prev es = preimagenes preimagen Entry.hash prev es') :
    es = es' := by
  induction es generalizing es' prev with
  | nil =>
    cases es' with
    | nil => rfl
    | cons e' es' => cases h
  | cons e es ih =>
    cases es' with
    | nil => cases h
    | cons e' es' =>
      obtain ⟨he, hes⟩ := hes
      obtain ⟨he', hes'⟩ := hes'
      obtain ⟨hpre, hresto⟩ := List.cons.inj h
      obtain ⟨hkind, hdata⟩ := entry_of_preimagen (hk e List.mem_cons_self)
        (hk' e' List.mem_cons_self) hpre
      have hhash : e.hash = e'.hash := by rw [he, he', hpre]
      have hentry : e = e' := by
        cases e
        cases e'
        cases hkind
        cases hdata
        cases hhash
        rfl
      subst hentry
      rw [ih hes hes' (fun x hx => hk x (List.mem_cons_of_mem e hx))
        (fun x hx => hk' x (List.mem_cons_of_mem e hx)) hresto]

/-- A kind that holds its separator can be read in two ways, with no collision. -/
theorem ligadura_ambigua (prev : Arr 32) (kind : String) (data : List UInt8) :
    ligadura prev (kind ++ "\x00") data = ligadura prev kind (0 :: data) := by
  have hkind : utf8 (kind ++ "\x00") = utf8 kind ++ [0] := by
    rw [utf8, utf8, String.toUTF8_eq_toByteArray, String.toByteArray_append, ByteArray.data_append,
      Array.toList_append]
    rfl
  rw [ligadura, ligadura, hkind]
  simp only [List.append_assoc, List.cons_append, List.nil_append]

/-- A corpus verifies after any run of appends exactly when it did before it, and holds what was
appended; and two corpora that verify and have the same head hold the same entries, or show two
values with one hash or a value with the hash of the root. -/
theorem corpus_integro (sha256 : List UInt8 → Arr 32) :
    (∀ (c : Corpus) (hallazgos : List (String × List UInt8)),
      (c.anotar sha256 hallazgos).verify sha256 = c.verify sha256 ∧
        (c.anotar sha256 hallazgos).entries.map (fun e => (e.kind, e.data)) =
          c.entries.map (fun e => (e.kind, e.data)) ++ hallazgos) ∧
      ∀ c c' : Corpus, c.verify sha256 = true → c'.verify sha256 = true → c.head = c'.head →
        c.SinCeros → c'.SinCeros →
          c = c' ∨ Colision sha256 preimagen Entry.hash root c.entries c'.entries := by
  refine ⟨fun c hallazgos => ⟨verify_anotar c hallazgos, entries_anotar c hallazgos⟩, ?_⟩
  intro c c' hc hc' hhead hk hk'
  have hes := (verify_iff c).mp hc
  have hes' := (verify_iff c').mp hc'
  rcases compromiso sha256 preimagen Entry.hash (fun _ _ _ _ h => prev_of_preimagen h) hes hes'
    hhead with hpre | hcol
  · exact .inl (congrArg Corpus.mk (entries_eq hes hes' hk hk' hpre))
  · exact .inr hcol

/-- A hash that tells values apart by their last byte. -/
def hashUltimo (b : List UInt8) : Arr 32 := List.Vector.replicate 32 (b.getLastD 0)

/-- Of two findings only one is under the head of the corpus that holds it. -/
theorem corpus_integro_ultimo :
    (new.anotar hashUltimo [("run", [1])]).head ≠ (new.anotar hashUltimo [("run", [2])]).head ∧
      new.anotar hashUltimo [("run", [1])] = ⟨[⟨"run", [1], List.Vector.replicate 32 1⟩]⟩ := by
  refine ⟨by decide, ?_⟩
  refine ((corpus_integro hashUltimo).2 _ _ rfl rfl rfl
    (fun e he => List.mem_singleton.mp he ▸ by decide)
    (fun e he => List.mem_singleton.mp he ▸ by decide)).resolve_right ?_
  rintro (⟨x, hx, y, hy, hne, _⟩ | ⟨x, hx, hraiz⟩ | ⟨y, hy, hraiz⟩)
  · exact hne ((List.mem_singleton.mp hx).trans (List.mem_singleton.mp hy).symm)
  · exact absurd (List.mem_singleton.mp hx ▸ hraiz) (by decide)
  · exact absurd (List.mem_singleton.mp hy ▸ hraiz) (by decide)

end Corpus

end Quipu.Lab
