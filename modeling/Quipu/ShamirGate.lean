import Mathlib.Data.Fintype.Card
import Quipu.Anulador
import Quipu.Rachas
import Quipu.ShamirSecrecy

namespace Quipu

namespace Gf256

def equivFin : Gf256 ≃ Fin 256 where
  toFun a := a.byte.toFin
  invFun i := ⟨UInt8.ofFin i⟩
  left_inv _ := rfl
  right_inv _ := rfl

instance : Fintype Gf256 := Fintype.ofEquiv (Fin 256) equivFin.symm

theorem card : Fintype.card Gf256 = 256 :=
  (Fintype.card_congr equivFin).trans (Fintype.card_fin 256)

end Gf256

namespace Shamir

open Aleatorio

/-- A vector that `llenar` can hand over. -/
def Entregable {k : Nat} (c : Arr k) : Prop :=
  ∃ cinta cinta', llenar (List.Vector.replicate k 0) cinta = (.ok (), c, cinta')

theorem entregable_iff {k : Nat} (c : Arr k) : Entregable c ↔ ¬Racha c.toList := by
  rw [← saludDe_eq_none_iff]
  exact ⟨fun ⟨_, _, h⟩ => llenar_ok h, fun h => ⟨_, _, llenar_reponer h (Stream'.const
    (.entrega fun _ => 0))⟩⟩

def Share.vista (s : Share) : UInt8 × List UInt8 := (s.index, s.y)

/-- With one share less than the threshold every secret of that length stays possible: the
coefficients that explain the shares for it are ones that could have been drawn. -/
def TodoSecretoPosible (etiqueta : List UInt8 → Arr tagLen) (threshold : UInt8) : Prop :=
  ∀ secret shares cinta cinta' fuera,
    split etiqueta secret threshold shares cinta = .ok fuera cinta' →
    ∀ vistas : List Share, vistas.Subperm fuera → vistas.length = threshold.toNat - 1 →
    ∀ otro : List UInt8, otro.length = secret.length →
    ∀ css : List.Vector (Arr (threshold.toNat - 1)) (otro.length + tagLen),
      Explica css (payloadDe etiqueta otro) (vistas.map Share.vista) →
      ∀ c ∈ css.toList, Entregable c

theorem todoSecretoPosible_of_le {etiqueta : List UInt8 → Arr tagLen} {threshold : UInt8}
    (h : threshold ≤ 8) : TodoSecretoPosible etiqueta threshold := by
  intro secret shares cinta cinta' fuera _ vistas _ _ otro _ css _ c _
  rw [entregable_iff]
  intro hr
  have hl := racha_length hr
  have h8 : threshold.toNat ≤ 8 := UInt8.le_iff_toNat_le.mp h
  rw [c.toList_length] at hl
  omega

/-- Coefficients of a polynomial that vanishes at `k` indices, is one at zero, and does not start
with two equal bytes. -/
theorem exists_mascara {k : Nat} (h2 : 2 ≤ k) (hk : k ≤ 254) :
    ∃ (xs mascara : List UInt8), xs.length = k ∧ xs.Nodup ∧ (0 : UInt8) ∉ xs ∧
      mascara.length = k ∧ mascara[0]? ≠ mascara[1]? ∧
      ∀ x ∈ xs, (polinomioDe mascara 1).eval ⟨x⟩ = 0 := by
  have hcard : k + 2 ≤ Fintype.card Gf256 := by
    rw [Gf256.card]
    omega
  obtain ⟨ys, hl, hn, h₀, hc⟩ := exists_anulador_distinto h2 hcard
  obtain ⟨ls, hls, hpol⟩ := exists_polDe_anulador ys
  have hlen : ls.length = k := hls.trans hl
  have hmap : polinomioDe (ls.map Gf256.byte) 1 = anulador ys := by
    rw [polinomioDe, List.map_cons, map_mk_map_byte]
    exact hpol
  have hcoef : ∀ i (hi : i < ls.length), (anulador ys).coeff (i + 1) = ls[i] := by
    intro i hi
    rw [← hpol, coeff_polDe, List.getD_cons_succ, List.getD_eq_getElem _ _ hi]
  refine ⟨ys.map fun y => y⁻¹.byte, ls.map Gf256.byte, by rw [List.length_map, hl], ?_, ?_,
    by rw [List.length_map, hlen], ?_, ?_⟩
  · exact hn.map fun a b h => inv_injective (Gf256.ext h)
  · intro h
    obtain ⟨y, hy, he⟩ := List.mem_map.mp h
    have hy₀ : y = 0 := inv_eq_zero.mp (Gf256.ext he)
    exact h₀ (hy₀ ▸ hy)
  · rw [List.getElem?_eq_getElem (by simp; omega), List.getElem?_eq_getElem (by simp; omega)]
    intro he
    apply hc
    rw [hcoef 0 (by omega), hcoef 1 (by omega)]
    exact Gf256.ext (by simpa using he)
  · intro x hx
    obtain ⟨y, hy, rfl⟩ := List.mem_map.mp hx
    have hy₀ : y ≠ 0 := fun h => h₀ (h ▸ hy)
    rw [hmap]
    apply eval_anulador (inv_ne_zero hy₀)
    rwa [inv_inv]

theorem polinomioDe_xor {cs ds : List UInt8} (hl : cs.length = ds.length) (a b : UInt8) :
    polinomioDe (List.zipWith (· ^^^ ·) cs ds) (a ^^^ b) =
      polinomioDe cs a + polinomioDe ds b := by
  have hmap : (List.zipWith (· ^^^ ·) (a :: cs) (b :: ds)).map Gf256.mk =
      List.zipWith (· + ·) ((a :: cs).map Gf256.mk) ((b :: ds).map Gf256.mk) := by
    rw [List.map_zipWith, List.zipWith_map]
    rfl
  have hlen : ((a :: cs).map Gf256.mk).length = ((b :: ds).map Gf256.mk).length := by
    simp [hl]
  rw [polinomioDe, polinomioDe, polinomioDe, ← polDe_zipWith_add hlen, ← hmap]
  rfl

/-- Two choices of coefficients apart by a mask: one passes the health check, the other does
not. -/
theorem exists_pareja {mascara : List UInt8} (h8 : 8 ≤ mascara.length)
    (hne : mascara[0]? ≠ mascara[1]?) :
    ∃ bueno : List UInt8, bueno.length = mascara.length ∧ ¬Racha bueno ∧
      Racha (List.zipWith (· ^^^ ·) bueno mascara) := by
  obtain ⟨p, q, hpq, hu, _⟩ := exists_distintos (mascara.take 8)[7]? none
  have hlen : (mascara.take 8).length = 8 := List.length_take_of_le h8
  have htake : ¬Racha (mascara.take 8) := by
    rintro ⟨i, b, hb⟩
    have hi := (List.getElem?_eq_some_iff.mp (hb 7 (by omega))).1
    obtain rfl : i = 0 := by omega
    apply hne
    have h₀ := hb 0 (by omega)
    have h₁ := hb 1 (by omega)
    rw [List.getElem?_take, if_pos (by omega)] at h₀ h₁
    exact h₀.trans h₁.symm
  refine ⟨mascara.take 8 ++ alternado p q (mascara.length - 8), ?_, ?_, 0, 0, fun j hj => ?_⟩
  · rw [List.length_append, hlen, length_alternado]
    omega
  · by_cases hcero : mascara.length - 8 = 0
    · rw [hcero]
      simpa [alternado] using htake
    · have hnil : ¬Racha ([] : List UInt8) := fun h => absurd (racha_length h) (by decide)
      have h := not_racha_alternado htake hnil (Nat.pos_of_ne_zero hcero) hpq
        (fun b hb => hu b (by rwa [hlen] at hb)) (fun b hb => by cases hb)
      rwa [List.append_nil] at h
  · have hj' : j < mascara.length := by omega
    rw [Nat.zero_add, List.getElem?_zipWith, List.getElem?_append_left (by omega),
      List.getElem?_take, if_pos hj, List.getElem?_eq_getElem hj']
    exact congrArg some UInt8.xor_self

/-- The first vector of coefficients put before those of the tag, for a secret of one byte. -/
def anteponer {k : Nat} (byte : UInt8) (c : Arr k) (cs : List.Vector (Arr k) tagLen) :
    List.Vector (Arr k) ([byte].length + tagLen) :=
  c ::ᵥ cs

theorem valores_anteponer {k : Nat} (etiqueta : List UInt8 → Arr tagLen) (byte : UInt8)
    (c : Arr k) (cs : List.Vector (Arr k) tagLen) (x : UInt8) :
    valores (anteponer byte c cs) (payloadDe etiqueta [byte]) x =
      evaluar c.toList byte x :: valores cs (etiqueta [byte]) x := rfl

theorem toList_anteponer {k : Nat} (byte : UInt8) (c : Arr k) (cs : List.Vector (Arr k) tagLen) :
    (anteponer byte c cs).toList = c :: cs.toList := rfl

/-- The shares with given indices are among those of the split. -/
theorem exists_vistas {threshold shares : UInt8} {n : Nat} (ht : minThreshold ≤ threshold)
    (hn : tagLen < n) (payload : Arr n) (css : List.Vector (Arr (threshold.toNat - 1)) n)
    {xs : List UInt8} (hx : xs.Nodup) (h₀ : (0 : UInt8) ∉ xs) (hle : ∀ x ∈ xs, x ≤ shares) :
    ∃ vistas : List Share, vistas.Subperm (repartir ht hn payload css shares) ∧
      vistas.length = xs.length ∧
      vistas.map Share.vista = xs.map fun x => (x, valores css payload x) := by
  have hne : ∀ x ∈ xs, x ≠ 0 := fun x hm he => h₀ (he ▸ hm)
  have hvista : (xs.pmap (comparticion ht hn payload css) hne).map Share.vista =
      xs.map fun x => (x, valores css payload x) := by
    rw [List.map_pmap]
    exact List.pmap_eq_map (f := fun x => (x, valores css payload x)) hne
  refine ⟨xs.pmap (comparticion ht hn payload css) hne, ?_, List.length_pmap, hvista⟩
  refine List.subperm_of_subset (List.Nodup.of_map Share.vista ?_) fun s hs => ?_
  · rw [hvista]
    exact hx.map fun a b h => congrArg Prod.fst h
  · obtain ⟨x, hm, rfl⟩ := List.mem_pmap.mp hs
    exact (mem_repartir ht hn payload css).mpr ⟨x, mem_indices (hne x hm) (hle x hm), rfl⟩

/-- A mask that vanishes at an index carries the byte 0 to the byte 1 there. -/
theorem evaluar_mascara {bueno mascara : List UInt8} (hl : bueno.length = mascara.length)
    {x : UInt8} (h : (polinomioDe mascara 1).eval ⟨x⟩ = 0) :
    evaluar bueno 0 x = evaluar (List.zipWith (· ^^^ ·) bueno mascara) 1 x := by
  have hev := congrArg (Polynomial.eval (⟨x⟩ : Gf256)) (polinomioDe_xor hl 0 1)
  rw [Polynomial.eval_add, h, add_zero] at hev
  rw [evaluar_eq, evaluar_eq]
  exact congrArg Gf256.byte hev.symm

/-- With eight coefficients or more there are as many indices where a vector that can be drawn, with
the byte 0, gives what one that cannot gives with the byte 1. -/
theorem exists_vectores {k : Nat} (h8 : 8 ≤ k) (hk : k ≤ 254) :
    ∃ (xs : List UInt8) (bueno malo : Arr k), xs.length = k ∧ xs.Nodup ∧ (0 : UInt8) ∉ xs ∧
      ¬Racha bueno.toList ∧ Racha malo.toList ∧
      ∀ x ∈ xs, evaluar bueno.toList 0 x = evaluar malo.toList 1 x := by
  obtain ⟨xs, mascara, hxl, hxn, hx₀, rfl, hne, hanula⟩ := exists_mascara (by omega) hk
  obtain ⟨bueno, hbl, hsano, hracha⟩ := exists_pareja h8 hne
  have hml : (List.zipWith (· ^^^ ·) bueno mascara).length = mascara.length := by
    rw [List.length_zipWith, hbl, Nat.min_self]
  exact ⟨xs, Arr.of bueno hbl, Arr.of _ hml, hxl, hxn, hx₀, hsano, hracha,
    fun x hx => evaluar_mascara hbl (hanula x hx)⟩

/-- What some indices show of one payload, another explains with as many coefficients. -/
theorem exists_explica_valores {k n : Nat} {xs : List UInt8} (hl : xs.length = k) (hn : xs.Nodup)
    (h₀ : (0 : UInt8) ∉ xs) (css : List.Vector (Arr k) n) (payload otro : Arr n) :
    ∃ css' : List.Vector (Arr k) n,
      Explica css' otro (xs.map fun x => (x, valores css payload x)) := by
  have hfst : (xs.map fun x => (x, valores css payload x)).map Prod.fst = xs := by
    rw [List.map_map]
    exact List.map_id xs
  obtain ⟨css', h, _⟩ := existsUnique_explica (by rw [List.length_map, hl])
    (hfst.symm ▸ hn) (hfst.symm ▸ h₀) (fun s hs => by
      obtain ⟨x, _, rfl⟩ := List.mem_map.mp hs
      exact length_valores _ _ x) otro
  exact ⟨css', h⟩

/-- From threshold 9 on there are shares of one byte that rule another byte out. -/
theorem not_todoSecretoPosible {etiqueta : List UInt8 → Arr tagLen} {threshold : UInt8}
    (h : 8 < threshold) : ¬TodoSecretoPosible etiqueta threshold := by
  have h8 : 8 < threshold.toNat := UInt8.lt_iff_toNat_lt.mp h
  have h256 := threshold.toNat_lt
  have ht : minThreshold ≤ threshold := UInt8.le_iff_toNat_le.mpr (by
    have hdos : minThreshold.toNat = 2 := rfl
    omega)
  obtain ⟨xs, bueno, malo, hxl, hxn, hx₀, hsano, hracha, hpar⟩ :=
    exists_vectores (k := threshold.toNat - 1) (by omega) (by omega)
  let resto : List.Vector (Arr (threshold.toNat - 1)) tagLen :=
    List.Vector.replicate tagLen (tomar UInt8.ofNat (threshold.toNat - 1))
  obtain ⟨resto', hresto'⟩ := exists_explica_valores hxl hxn hx₀ resto (etiqueta [0]) (etiqueta [1])
  have hsanos : ∀ d ∈ (anteponer 0 bueno resto).toList, saludDe d.toList = none := by
    intro d hd
    rw [toList_anteponer] at hd
    rcases List.mem_cons.mp hd with rfl | hd
    · exact (saludDe_eq_none_iff _).mpr hsano
    · rw [List.eq_of_mem_replicate hd]
      exact saludDe_ascendente _
  have hcons : [(0 : UInt8)] ≠ [] := List.cons_ne_nil 0 []
  have hsplit : split etiqueta [0] threshold 255
      (reponerTodos (anteponer 0 bueno resto) (Stream'.const (.entrega fun _ => 0))) = .ok _ _ :=
    split_reponerTodos ht hcons (le_255 threshold) hsanos _
  obtain ⟨vistas, hsub, hvl, hvista⟩ := exists_vistas ht (tagLen_lt_payload hcons)
    (payloadDe etiqueta [0]) (anteponer 0 bueno resto) hxn hx₀ (fun x _ => le_255 x)
  have hexplica : Explica (anteponer 1 malo resto') (payloadDe etiqueta [1])
      (vistas.map Share.vista) := by
    rw [hvista]
    intro s hs
    obtain ⟨x, hx, rfl⟩ := List.mem_map.mp hs
    have hcola := hresto' _ (List.mem_map_of_mem hx)
    simp only [valores_anteponer]
    rw [hpar x hx]
    exact congrArg _ hcola
  intro hposible
  have hmalo := hposible [0] 255 _ _ _ hsplit vistas hsub (hvl.trans hxl) [1] rfl
    (anteponer 1 malo resto') hexplica malo List.mem_cons_self
  exact (entregable_iff malo).mp hmalo hracha

/-- Secrecy survives the health check exactly up to threshold 8. -/
theorem todoSecretoPosible_iff (etiqueta : List UInt8 → Arr tagLen) (threshold : UInt8) :
    TodoSecretoPosible etiqueta threshold ↔ threshold ≤ 8 := by
  refine ⟨fun h => ?_, todoSecretoPosible_of_le⟩
  by_contra hle
  exact not_todoSecretoPosible (UInt8.not_le.mp hle) h

def restoNueve : List.Vector (Arr ((9 : UInt8).toNat - 1)) tagLen :=
  List.Vector.replicate tagLen (tomar UInt8.ofNat 8)

def coeficientesNueve : List.Vector (Arr ((9 : UInt8).toNat - 1)) ([(1 : UInt8)].length + tagLen) :=
  anteponer 1 (tomar ([161, 225, 13, 100, 0, 0, 69, 109].getD · 0) 8) restoNueve

/-- The first eight of nine shares of the byte 1; only eight zero coefficients would explain them
for the byte 0. -/
theorem todoSecretoPosible_nueve_falla :
    ∃ fuera cinta,
      split etiquetaNula [1] 9 9 (reponerTodos coeficientesNueve cinta) = .ok fuera cinta ∧
      (fuera.take 8).length = 8 ∧
      Explica (anteponer 0 (List.Vector.replicate 8 0) restoNueve) (payloadDe etiquetaNula [0])
        ((fuera.take 8).map Share.vista) ∧
      ¬Entregable (List.Vector.replicate 8 0) ∧ ¬TodoSecretoPosible etiquetaNula 9 := by
  have hsanos : ∀ c ∈ coeficientesNueve.toList, saludDe c.toList = none := by
    intro c hc
    rw [coeficientesNueve, toList_anteponer] at hc
    rcases List.mem_cons.mp hc with rfl | hc
    · rfl
    · rw [List.eq_of_mem_replicate hc]
      exact saludDe_ascendente 8
  have hsplit : split etiquetaNula [1] 9 9 (reponerTodos coeficientesNueve
      (Stream'.const (.entrega fun _ => 0))) = .ok _ _ :=
    split_reponerTodos (by decide) (by decide) (by decide) hsanos _
  refine ⟨_, _, hsplit, by decide +kernel, by decide +kernel, ?_,
    not_todoSecretoPosible (by decide)⟩
  rw [entregable_iff]
  exact fun h => h ⟨0, 0, by decide⟩

end Shamir

end Quipu
