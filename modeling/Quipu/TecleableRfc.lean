import Quipu.TecleableTexto

namespace Quipu.Tecleable

open Digitos Servidor

/-- The character of a value of five bits: `A` to `Z`, then `2` to `7`. -/
def rfcLetra (v : Nat) : Char := Char.ofNat (if v < 26 then 65 + v else 24 + v)

/-- How many characters a group of up to five bytes takes. -/
def rfcLetras : Nat → Nat
  | 0 => 0
  | 1 => 2
  | 2 => 4
  | 3 => 5
  | 4 => 7
  | _ => 8

/-- A group of forty bits in eight characters, with equals signs behind the last group. -/
def rfcGrupo (g : List UInt8) : List Char :=
  let v := ofBe (g ++ List.replicate (5 - g.length) 0)
  (List.range 8).map fun k =>
    if k < rfcLetras g.length then rfcLetra (v / 2 ^ (35 - 5 * k) % 32) else '='

/-- Base 32 as the norm defines it. -/
def rfc4648 (datos : List UInt8) : List Char := ((chunks 5 datos).map rfcGrupo).flatten

theorem letra_eq {s : UInt8} (h : s.toNat < 2 ^ 5) : letra s = rfcLetra s.toNat := by
  have hall : ∀ n < 32, alfabeto.getD n relleno = rfcLetra n := by decide
  exact hall s.toNat h

theorem rfcLetras_eq {n : Nat} (h : n ≤ 5) : rfcLetras n = (8 * n + 4) / 5 := by
  have hall : ∀ n < 6, rfcLetras n = (8 * n + 4) / 5 := by decide
  exact hall n (by omega)

theorem ofBe_replicate (bs : List UInt8) (k : Nat) :
    ofBe (bs ++ List.replicate k 0) = ofBe bs * 256 ^ k := by
  induction k with
  | zero => simp
  | succ k ih =>
    rw [List.replicate_succ', ← List.append_assoc, ofBe_concat, ih, Nat.pow_succ, Nat.mul_assoc]
    rfl

/-- The symbols of five bytes come before those of what follows. -/
theorem aCincoBits_append {g : List UInt8} (hg : g.length = 5) (datos : List UInt8) :
    aCincoBits (g ++ datos) = aCincoBits g ++ aCincoBits datos := by
  have hl := length_aCincoBits (g ++ datos)
  have hlg := length_aCincoBits g
  have hld := length_aCincoBits datos
  obtain ⟨-, -, h5, hv⟩ := aCincoBits_spec (g ++ datos)
  obtain ⟨-, -, h5g, hvg⟩ := aCincoBits_spec g
  obtain ⟨hled, hltd, h5d, hvd⟩ := aCincoBits_spec datos
  have hlen : (aCincoBits (g ++ datos)).length = (aCincoBits g ++ aCincoBits datos).length := by
    rw [List.length_append] at hl ⊢
    omega
  have hz : 5 * (aCincoBits g).length - 8 * g.length = 0 := by omega
  have hp : 5 * (aCincoBits (g ++ datos)).length - 8 * (g ++ datos).length =
      5 * (aCincoBits datos).length - 8 * datos.length := by
    rw [List.length_append] at hl ⊢
    omega
  have ho : ofBe (g ++ datos) = ofBe g * 2 ^ (8 * datos.length) + ofBe datos := by
    rw [ofBe_eq_numero, List.map_append, numero_append, List.length_map, ← ofBe_eq_numero,
      ← ofBe_eq_numero]
  have he : 8 * datos.length + (5 * (aCincoBits datos).length - 8 * datos.length) =
      5 * (aCincoBits datos).length := by omega
  apply List.map_injective_iff.mpr (fun _ _ he => UInt8.toNat_inj.mp he)
  refine numero_inj (w := 5) (by decide) (by rw [List.length_map, List.length_map, hlen])
    (List.forall_mem_map.mpr h5) ?_ ?_
  · rw [List.map_append]
    intro d hd
    rcases List.mem_append.mp hd with hd | hd
    · obtain ⟨s, hs, rfl⟩ := List.mem_map.mp hd
      exact h5g s hs
    · obtain ⟨s, hs, rfl⟩ := List.mem_map.mp hd
      exact h5d s hs
  · rw [hv, hp, ho, List.map_append, numero_append, hvg, hz, Nat.pow_zero, Nat.mul_one, hvd,
      List.length_map, Nat.add_mul, Nat.mul_assoc, ← Nat.pow_add, he]

/-- One group: its symbols in letters and its padding are the characters of the norm. -/
theorem rfcGrupo_eq {g : List UInt8} (hg : g.length ≤ 5) (h0 : g ≠ []) :
    (aCincoBits g).map letra ++ List.replicate (8 - (aCincoBits g).length) relleno =
      rfcGrupo g := by
  have hlen := length_aCincoBits g
  have hpos := List.length_pos_iff.mpr h0
  obtain ⟨hle, hlt, h5, hv⟩ := aCincoBits_spec g
  apply List.ext_getElem
  · rw [rfcGrupo, List.length_append, List.length_map, List.length_replicate, List.length_map,
      List.length_range]
    omega
  · intro k hk hk'
    rw [rfcGrupo, List.length_map, List.length_range] at hk'
    simp only [rfcGrupo]
    rw [List.getElem_map, List.getElem_range, rfcLetras_eq hg, ← hlen]
    by_cases h : k < (aCincoBits g).length
    · have hm : ∀ d ∈ (aCincoBits g).map UInt8.toNat, d < 2 ^ 5 := List.forall_mem_map.mpr h5
      have hc := cifra_eq hm (i := k) (by rwa [List.length_map])
      have hd : ((aCincoBits g).map UInt8.toNat).getD k 0 = ((aCincoBits g)[k]).toNat := by
        rw [List.getD_eq_getElem?_getD, List.getElem?_map, List.getElem?_eq_getElem h]
        rfl
      have hexp : 35 - 5 * k = 5 * ((aCincoBits g).length - 1 - k) +
          (40 - 5 * (aCincoBits g).length) := by omega
      have hexp' : 8 * (5 - g.length) = 5 * (aCincoBits g).length - 8 * g.length +
          (40 - 5 * (aCincoBits g).length) := by omega
      have ho : ofBe (g ++ List.replicate (5 - g.length) 0) =
          ofBe g * 2 ^ (5 * (aCincoBits g).length - 8 * g.length) *
            2 ^ (40 - 5 * (aCincoBits g).length) := by
        rw [ofBe_replicate, show 256 = 2 ^ 8 from rfl, ← Nat.pow_mul, hexp', Nat.pow_add,
          Nat.mul_assoc]
      rw [hd, List.length_map, hv] at hc
      rw [List.getElem_append_left (by rwa [List.length_map]), List.getElem_map, if_pos h,
        letra_eq (h5 _ (List.getElem_mem h)), hc, ho, hexp, Nat.pow_add,
        Nat.mul_div_mul_right _ _ (Nat.two_pow_pos _)]
      rfl
    · rw [List.getElem_append_right (by rw [List.length_map]; omega), List.getElem_replicate,
        if_neg h]
      rfl

theorem rfc4648_eq (datos : List UInt8) :
    (aCincoBits datos).map letra ++
      List.replicate (((aCincoBits datos).length + 7) / 8 * 8 - (aCincoBits datos).length)
        relleno = rfc4648 datos := by
  induction datos using chunks.induct 5 with
  | case1 xs h ih =>
    have hlt := length_aCincoBits (xs.take 5)
    have hld := length_aCincoBits (xs.drop 5)
    have hpos := List.length_pos_iff.mpr h.2
    have hne : xs.take 5 ≠ [] := by
      apply List.ne_nil_of_length_pos
      rw [List.length_take]
      omega
    have hg := rfcGrupo_eq (g := xs.take 5) (by rw [List.length_take]; omega) hne
    have hr : rfc4648 xs = rfcGrupo (xs.take 5) ++ rfc4648 (xs.drop 5) := by
      rw [rfc4648, chunks_of_ne_nil h.1 h.2]
      rfl
    rw [hr, ← hg, ← ih]
    by_cases hfull : xs.length ≤ 5
    · have hd : xs.drop 5 = [] := List.drop_eq_nil_of_le hfull
      have hl := length_aCincoBits xs
      have hc : ((aCincoBits xs).length + 7) / 8 * 8 = 8 := by omega
      rw [hd, List.take_of_length_le hfull, hc]
      exact (List.append_nil _).symm
    · have h5 : (xs.take 5).length = 5 := by
        rw [List.length_take]
        omega
      have ha := aCincoBits_append h5 (xs.drop 5)
      rw [List.take_append_drop] at ha
      have h8 : (aCincoBits (xs.take 5)).length = 8 := by omega
      have hk : ((aCincoBits (xs.take 5) ++ aCincoBits (xs.drop 5)).length + 7) / 8 * 8 -
          (aCincoBits (xs.take 5) ++ aCincoBits (xs.drop 5)).length =
            ((aCincoBits (xs.drop 5)).length + 7) / 8 * 8 - (aCincoBits (xs.drop 5)).length := by
        rw [List.length_append]
        omega
      rw [ha, hk, List.map_append, h8, Nat.sub_self, List.replicate_zero, List.append_nil,
        List.append_assoc]
  | case2 xs h =>
    have hnil : xs = [] := by
      by_contra hne
      exact h ⟨by decide, hne⟩
    rw [hnil, rfc4648, chunks_nil]
    rfl

/-- The bare form, without its spaces and line feeds, is base 32 as the norm defines it. -/
theorem escribir_rfc4648 (rs : ReedSolomon) (datos : List UInt8) :
    ∃ s, escribir rs datos .desnudo = .ok s ∧
      s.toList.filter (fun c => !isWhitespace c) = rfc4648 datos := by
  refine ⟨_, escribir_desnudo rs datos, ?_⟩
  have hb : ∀ c ∈ rfc4648 datos, isWhitespace c = false := by
    rw [← rfc4648_eq]
    intro c hc
    rcases List.mem_append.mp hc with hc | hc
    · obtain ⟨s, hs, rfl⟩ := List.mem_map.mp hc
      have hm := (alfabeto_fijo (letra_mem (aCincoBits_lt datos s hs)).2).1
      unfold saltado at hm
      simp only [Bool.or_eq_false_iff] at hm
      exact hm.1.1.1
    · rw [List.eq_of_mem_replicate hc]
      decide
  rw [String.toList_ofList, filter_textoDe (fun c hc => by rw [hc]; rfl), rfc4648_eq]
  apply List.filter_eq_self.mpr
  intro c hc
  rw [hb c hc]
  rfl

end Quipu.Tecleable
