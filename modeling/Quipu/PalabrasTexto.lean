import Quipu.Palabras
import Mathlib.Data.List.Forall2

namespace Quipu.Palabras

open Servidor

/-- `m` is `p` with its letters in either case and characters added that are neither letters nor
whitespace. -/
inductive Maltrata : List Char → List Char → Prop where
  | nada : Maltrata [] []
  | letra {c d : Char} {p m : List Char} (hd : d = c ∨ d = c.toUpper) (h : Maltrata p m) :
    Maltrata (c :: p) (d :: m)
  | intruso {d : Char} {p m : List Char} (hd : isWhitespace d = false ∧ d.isAlpha = false)
    (h : Maltrata p m) : Maltrata p (d :: m)

/-- `m` is a way of writing `w` by hand, whole or cut after its fourth letter or later. -/
def Manuscrita (w : String) (m : List Char) : Prop :=
  ∃ p, p <+: w.toList ∧ (p = w.toList ∨ prefijoSuficiente ≤ p.length) ∧ Maltrata p m

def Blancos (e : List Char) : Prop := ∀ c ∈ e, isWhitespace c = true

instance (e : List Char) : Decidable (Blancos e) :=
  decidable_of_iff (e.all isWhitespace = true) List.all_eq_true

/-- The words of a list written by hand, in order and apart. -/
inductive Copia : List String → List Char → Prop where
  | ultima {w : String} {e m e' : List Char} (he : Blancos e) (hm : Manuscrita w m)
    (he' : Blancos e') : Copia [w] (e ++ m ++ e')
  | otra {w : String} {ws : List String} {e m t : List Char} {c : Char} (he : Blancos e)
    (hm : Manuscrita w m) (hc : isWhitespace c = true) (ht : Copia ws t) :
    Copia (w :: ws) (e ++ m ++ c :: t)

theorem Maltrata.igual (p : List Char) : Maltrata p p := by
  induction p with
  | nil => exact Maltrata.nada
  | cons c p ih => exact Maltrata.letra (.inl rfl) ih

theorem Copia.igual {ws : List String} {t : List Char} {c : Char} (w : String)
    (hc : isWhitespace c = true) (ht : Copia ws t) : Copia (w :: ws) (w.toList ++ c :: t) := by
  have hm : Manuscrita w w.toList :=
    ⟨w.toList, List.prefix_rfl, .inl rfl, Maltrata.igual w.toList⟩
  exact Copia.otra (e := []) (fun c hc => absurd hc List.not_mem_nil) hm hc ht

def trozos (t : List Char) : List (List Char) :=
  (t.splitOnP isWhitespace).filter fun cruda => !cruda.isEmpty

theorem trozos_append_cons (s t : List Char) {c : Char} (hc : isWhitespace c = true) :
    trozos (s ++ c :: t) = trozos s ++ trozos t := by
  rw [trozos, List.splitOnP_append_cons s t hc, List.filter_append]
  rfl

theorem trozos_blancos {e : List Char} (h : Blancos e) (t : List Char) :
    trozos (e ++ t) = trozos t := by
  induction e with
  | nil => rfl
  | cons c e ih =>
    have hc := h c List.mem_cons_self
    have he : Blancos e := fun d hd => h d (List.mem_cons_of_mem c hd)
    rw [List.cons_append, ← ih he]
    exact trozos_append_cons [] (e ++ t) hc

theorem trozos_palabra {m : List Char} (hm : m ≠ []) (h : ∀ c ∈ m, isWhitespace c = false) :
    trozos m = [m] := by
  rw [trozos, List.splitOnP_eq_singleton h]
  simp [hm]

theorem trozos_palabra_blancos {m e : List Char} (hm : m ≠ [])
    (h : ∀ c ∈ m, isWhitespace c = false) (he : Blancos e) : trozos (m ++ e) = [m] := by
  cases e with
  | nil => rw [List.append_nil, trozos_palabra hm h]
  | cons c e =>
    have hc := he c List.mem_cons_self
    have ht := trozos_blancos (fun d hd => he d (List.mem_cons_of_mem c hd)) []
    rw [List.append_nil] at ht
    rw [trozos_append_cons m e hc, trozos_palabra hm h, ht]
    rfl

theorem minuscula_spec {c d : Char} (hc : 'a' ≤ c ∧ c ≤ 'z') (hd : d = c ∨ d = c.toUpper) :
    d.isAlpha = true ∧ d.toLower = c ∧ isWhitespace d = false := by
  have hl : 97 ≤ c.toNat := hc.1
  have hu : c.toNat ≤ 122 := hc.2
  have hn : Char.ofNat c.toNat = c := Char.ofNat_toNat c
  have hall : ∀ i : Fin 26, ∀ d : Char,
      (d = Char.ofNat (97 + i) ∨ d = (Char.ofNat (97 + i)).toUpper) →
        d.isAlpha = true ∧ d.toLower = Char.ofNat (97 + i) ∧ isWhitespace d = false := by
    intro i d hd
    rcases hd with rfl | rfl
    · revert i
      decide
    · revert i
      decide
  have hi := hall ⟨c.toNat - 97, by omega⟩ d
  rw [show 97 + (c.toNat - 97) = c.toNat by omega, hn] at hi
  exact hi hd

theorem Maltrata.limpiar {p m : List Char} (h : Maltrata p m)
    (hp : ∀ c ∈ p, 'a' ≤ c ∧ c ≤ 'z') : Palabras.limpiar m = String.ofList p := by
  suffices hs : (m.filter Char.isAlpha).map Char.toLower = p by rw [Palabras.limpiar, hs]
  induction h with
  | nada => rfl
  | @letra c d p m hd h ih =>
    obtain ⟨ha, hl, -⟩ := minuscula_spec (hp c List.mem_cons_self) hd
    rw [List.filter_cons_of_pos ha, List.map_cons, hl,
      ih fun c' hc' => hp c' (List.mem_cons_of_mem c hc')]
  | intruso hd h ih =>
    have hf : ¬_ = true := Bool.eq_false_iff.mp hd.2
    rw [List.filter_cons_of_neg hf, ih hp]

theorem Maltrata.sinBlancos {p m : List Char} (h : Maltrata p m)
    (hp : ∀ c ∈ p, 'a' ≤ c ∧ c ≤ 'z') : ∀ c ∈ m, isWhitespace c = false := by
  induction h with
  | nada => exact fun c hc => absurd hc List.not_mem_nil
  | @letra c d p m hd h ih =>
    obtain ⟨-, -, hw⟩ := minuscula_spec (hp c List.mem_cons_self) hd
    intro c' hc'
    rcases List.mem_cons.mp hc' with rfl | hc'
    · exact hw
    · exact ih (fun c' hc' => hp c' (List.mem_cons_of_mem c hc')) c' hc'
  | intruso hd h ih =>
    intro c' hc'
    rcases List.mem_cons.mp hc' with rfl | hc'
    · exact hd.1
    · exact ih hp c' hc'

theorem Maltrata.ne_nil {p m : List Char} (h : Maltrata p m) (hp : p ≠ []) : m ≠ [] := by
  cases h with
  | nada => exact absurd rfl hp
  | letra hd h => exact List.cons_ne_nil _ _
  | intruso hd h => exact List.cons_ne_nil _ _

variable {lista : Lista}

theorem Lista.toList_ne_nil {w : String} (hw : w ∈ lista.palabras) : w.toList ≠ [] := by
  intro h
  have he : w = "" := String.toList_inj.mp h
  exact lista.noVacias (he ▸ hw)

/-- What a word written by hand keeps of it. -/
theorem Manuscrita.prefijo {w : String} {m : List Char} (hw : w ∈ lista.palabras)
    (h : Manuscrita w m) :
    ∃ p, p ≠ [] ∧ p <+: w.toList ∧ (p = w.toList ∨ prefijoSuficiente ≤ p.length) ∧
      limpiar m = String.ofList p ∧ m ≠ [] ∧ ∀ c ∈ m, isWhitespace c = false := by
  obtain ⟨p, hp, ho, hm⟩ := h
  have hn : p ≠ [] := by
    rcases ho with rfl | ho
    · exact Lista.toList_ne_nil hw
    · intro h0
      rw [h0] at ho
      exact absurd ho (by decide)
  have hc : ∀ c ∈ p, 'a' ≤ c ∧ c ≤ 'z' :=
    fun c hc => lista.minusculas w hw c (hp.subset hc)
  exact ⟨p, hn, hp, ho, hm.limpiar hc, hm.ne_nil hn, hm.sinBlancos hc⟩

/-- A hand copy splits into the words, one by one. -/
theorem Copia.trozos {ws : List String} {t : List Char} (h : Copia ws t)
    (hw : ∀ w ∈ ws, w ∈ lista.palabras) :
    List.Forall₂ Manuscrita ws (Palabras.trozos t) := by
  induction h with
  | ultima he hm he' =>
    obtain ⟨p, -, -, -, -, hn, hs⟩ := hm.prefijo (hw _ List.mem_cons_self)
    rw [List.append_assoc, trozos_blancos he, trozos_palabra_blancos hn hs he']
    exact List.Forall₂.cons hm List.Forall₂.nil
  | otra he hm hc ht ih =>
    obtain ⟨p, -, -, -, -, hn, hs⟩ := hm.prefijo (hw _ List.mem_cons_self)
    rw [List.append_assoc, trozos_blancos he, trozos_append_cons _ _ hc, trozos_palabra hn hs]
    exact List.Forall₂.cons hm (ih fun w hw' => hw w (List.mem_cons_of_mem _ hw'))

end Quipu.Palabras
