import Quipu.Custodia
import Mathlib.Data.List.Forall2

namespace Quipu.Custodia

open Almacen Lineas Servidor Shamir

/-- A text that starts with a character of its own starts with it when it is trimmed. -/
theorem head?_trim {s : String} {c : Char} {cs : List Char} (hs : s.toList = c :: cs)
    (hc : isWhitespace c = false) : (trim s).toList.head? = some c := by
  have hneg : ¬(isWhitespace c = true) := by simp [hc]
  rw [trim, String.toList_ofList, hs, List.dropWhile_cons_of_neg hneg, List.reverse_cons,
    List.dropWhile_append]
  split
  next => rw [List.dropWhile_cons_of_neg hneg]; rfl
  next => rw [List.reverse_append]; rfl

/-- No character of the text ends a line. -/
def Limpia (s : String) : Prop := ∀ c ∈ s.toList, c ≠ '\n' ∧ c ≠ '\r'

instance (s : String) : Decidable (Limpia s) :=
  List.decidableBAll (fun c => c ≠ '\n' ∧ c ≠ '\r') s.toList

theorem Limpia.append {a b : String} (ha : Limpia a) (hb : Limpia b) : Limpia (a ++ b) := by
  unfold Limpia
  rw [String.toList_append, List.forall_mem_append]
  exact ⟨ha, hb⟩

theorem limpia_toString (n : ℕ) : Limpia (toString n) := by
  intro c hc
  have hmem : c ∈ Nat.toDigits 10 n := Nat.toList_repr .. ▸ hc
  have hd : c.isDigit = true := Nat.isDigit_of_mem_toDigits (by decide) (by decide) hmem
  constructor
  · rintro rfl
    exact absurd hd (by decide)
  · rintro rfl
    exact absurd hd (by decide)

theorem limpia_toHex (bs : List UInt8) : Limpia (toHex bs) := fun _ hc =>
  toHex_forall (P := fun c => c ≠ '\n' ∧ c ≠ '\r') (by decide) hc

/-- What is not skipped: a trimmed line that is neither empty nor a comment. -/
def util (l : String) : Bool := !(l.isEmpty || l.toList.head? = some '#')

/-- The lines of a text that carry a share, trimmed. -/
def utiles (texto : String) : List String := ((textoLineas texto).map trim).filter util

/-- The text that writing these lines leaves. -/
def escrito (ls : List String) : String := String.ofList (deLineas (ls.map String.toList))

theorem textoLineas_escrito {ls : List String} (h : ∀ l ∈ ls, Limpia l) :
    textoLineas (escrito ls) = ls := by
  have hsalto : ∀ l ∈ ls.map String.toList, '\n' ∉ l := by
    intro l hl hm
    obtain ⟨s, hs, rfl⟩ := List.mem_map.mp hl
    exact (h s hs '\n' hm).1 rfl
  have hretorno : ∀ s ∈ ls, String.ofList (sinRetorno s.toList) = s := by
    intro s hs
    rw [sinRetorno, if_neg fun hlast => (h s hs '\r' (List.mem_of_getLast? hlast)).2 rfl,
      String.ofList_toList]
  rw [textoLineas, escrito, String.toList_ofList, lines_deLineas hsalto, List.map_map,
    List.map_map]
  exact (List.map_congr_left hretorno).trans (List.map_id ls)

theorem util_toHex {bs : List UInt8} (h : bs ≠ []) : util (toHex bs) = true := by
  obtain ⟨b, bs, rfl⟩ := List.exists_cons_of_ne_nil h
  have hlista : (toHex (b :: bs)).toList =
      Nat.digitChar (b.toNat / 16) :: Nat.digitChar (b.toNat % 16) :: (toHex bs).toList := by
    simp only [toHex, String.toList_ofList]
    rfl
  have hmem : Nat.digitChar (b.toNat / 16) ∈ (toHex (b :: bs)).toList :=
    hlista ▸ List.mem_cons_self
  have hc : Nat.digitChar (b.toNat / 16) ≠ '#' :=
    toHex_forall (P := (· ≠ '#')) (by decide) hmem
  have hne : toHex (b :: bs) ≠ "" := by
    intro hvacia
    rw [hvacia] at hlista
    cases hlista
  have hisEmpty : (toHex (b :: bs)).isEmpty = false := by
    rw [Bool.eq_false_iff]
    exact fun he => hne (String.isEmpty_iff.mp he)
  rw [util, hisEmpty, hlista, List.head?_cons]
  simp [hc]

theorem not_util_comentario {s : String} (hs : s.toList.head? = some '#') :
    ¬(util (trim s) = true) := by
  obtain ⟨cs, hcs⟩ := List.head?_eq_some_iff.mp hs
  rw [util, head?_trim hcs (by decide)]
  simp

/-- A line says what `c` says, its digits in either case. -/
def Copiada (l c : String) : Prop := (utf8 l).map aMinuscula = utf8 c

/-- The loop accepts the lines that are copies of shares, in their order. -/
theorem leerPartes_eq_ok {ls : List String} {partes : List Share} (n : ℕ) :
    leerPartes n ls = .ok partes ↔
      List.Forall₂ (fun l s => Copiada l (toHex s.toBytes) ∧ s.y.length < 2 ^ 32)
        ((ls.map trim).filter util) partes := by
  induction ls generalizing n partes with
  | nil =>
    rw [List.map_nil, List.filter_nil, List.forall₂_nil_left_iff, leerPartes, Except.ok.injEq,
      eq_comm]
  | cons linea ls ih =>
    rw [leerPartes, List.map_cons]
    by_cases hu : util (trim linea) = true
    · have hsalta : ¬((trim linea).isEmpty || (trim linea).toList.head? = some '#') = true := by
        simpa [util] using hu
      rw [if_neg hsalta, List.filter_cons_of_pos hu, List.forall₂_cons_left_iff]
      simp only [Res.bind_ok, Res.mapErr_eq_ok, Share.fromBytes_eq_ok, ih, Res.pure_eq_ok]
      constructor
      · rintro ⟨bytes, hbytes, s, ⟨rfl, hlen⟩, resto, hresto, rfl⟩
        refine ⟨s, resto, ⟨?_, hlen⟩, hresto, rfl⟩
        cases hhex : fromHex (trim linea) with
        | none => rw [hhex] at hbytes; cases hbytes
        | some b =>
          rw [hhex] at hbytes
          cases hbytes
          exact fromHex_eq_some.mp hhex
      · rintro ⟨s, resto, ⟨hcopia, hlen⟩, hresto, rfl⟩
        refine ⟨s.toBytes, ?_, s, ⟨rfl, hlen⟩, resto, hresto, rfl⟩
        rw [fromHex_eq_some.mpr hcopia]
        rfl
    · have hsalta : ((trim linea).isEmpty || (trim linea).toList.head? = some '#') = true := by
        rwa [util, Bool.not_eq_true', Bool.not_eq_false] at hu
      rw [if_pos hsalta, List.filter_cons_of_neg hu, ih]

end Quipu.Custodia
