import Quipu.EccMds

namespace Quipu

namespace Ecc

variable {rs : ReedSolomon}

/-- The `j`-th stretch of 255 bytes of a stream of blocks. -/
def tramo (j : Nat) (xs : List UInt8) : List UInt8 := (xs.drop (255 * j)).take 255

def cuerpo (rs : ReedSolomon) (parity : Nat) (data : List UInt8) : List UInt8 :=
  ((chunks (255 - parity) data).map (rs.encode parity)).flatten

theorem cuerpo_of_ne_nil {parity : Nat} (hp : parity ≤ 128) {data : List UInt8} (h : data ≠ []) :
    cuerpo rs parity data =
      rs.encode parity (data.take (255 - parity)) ++
        cuerpo rs parity (data.drop (255 - parity)) := by
  rw [cuerpo, chunks_of_ne_nil (by omega) h]
  rfl

theorem le_length_cuerpo (rs : ReedSolomon) {parity : Nat} (hp : parity ≤ 128)
    (data : List UInt8) :
    data.length ≤ (cuerpo rs parity data).length := by
  induction data using chunks.induct (255 - parity) with
  | case1 xs h ih =>
    rw [cuerpo_of_ne_nil hp h.2, List.length_append, ReedSolomon.length_encode, List.length_take]
    rw [List.length_drop] at ih
    omega
  | case2 xs h =>
    have hnil : xs = [] := by
      by_contra hne
      exact h ⟨by omega, hne⟩
    simp [hnil]

theorem length_protect (rs : ReedSolomon) (data : List UInt8) (parity : UInt8) :
    (protect rs data parity).length = 15 + (cuerpo rs (ajustar parity).toNat data).length := by
  simp [protect, cuerpo, headerParity]

theorem half_le_ajustar {parity : UInt8} (h : parity ≤ paridadMaxima) :
    parity.toNat / 2 ≤ (ajustar parity).toNat / 2 := by
  unfold ajustar
  split
  next h2 =>
    have := UInt8.lt_iff_toNat_lt.mp h2
    simp at this ⊢
    omega
  next =>
    rw [if_neg (UInt8.not_lt.mpr h)]

theorem tramo_drop (j : Nat) (xs : List UInt8) : tramo j (xs.drop 255) = tramo (j + 1) xs := by
  rw [tramo, tramo, List.drop_drop, Nat.mul_succ, Nat.add_comm]

theorem recoverLoop_zero {parity : Nat} (hp : parity ≤ 128) (body : List UInt8) :
    recoverLoop rs parity hp 0 body = some [] := by
  rw [recoverLoop, if_pos rfl]

theorem recoverLoop_bloque {parity remaining : Nat} (hp : parity ≤ 128)
    {body b out : List UInt8} (hr : remaining ≠ 0)
    (hl : min remaining (255 - parity) + parity ≤ body.length)
    (hlb : b.length = min remaining (255 - parity))
    (hb : rs.data parity (body.take (min remaining (255 - parity) + parity)) = some b)
    (ho : recoverLoop rs parity hp (remaining - min remaining (255 - parity))
      (body.drop (min remaining (255 - parity) + parity)) = some out) :
    recoverLoop rs parity hp remaining body = some (b ++ out) := by
  rw [recoverLoop, if_neg hr, if_neg (by omega)]
  simp only [hb, ho, Option.bind_eq_bind, Option.bind_some]
  rw [← hlb, List.take_length]

theorem length_bloque {parity : Nat} (data : List UInt8) :
    (rs.encode parity (data.take (255 - parity))).length =
      min data.length (255 - parity) + parity := by
  rw [ReedSolomon.length_encode, List.length_take, Nat.min_comm]

section Bloque

variable {parity : Nat} {data body : List UInt8} (hp : parity ≤ 128) (hd : data ≠ [])
  (he : ∀ j, errores (tramo j body) (tramo j (cuerpo rs parity data)) ≤ parity / 2)

include hp hd he

theorem errores_bloque :
    errores (body.take (min data.length (255 - parity) + parity))
      (rs.encode parity (data.take (255 - parity))) ≤ parity / 2 := by
  have h₀ := (errores_take_le (min data.length (255 - parity) + parity) _ _).trans (he 0)
  rw [cuerpo_of_ne_nil hp hd] at h₀
  simp only [tramo, Nat.mul_zero, List.drop_zero, List.take_take] at h₀
  rwa [Nat.min_eq_left (by omega), List.take_left' (length_bloque data)] at h₀

theorem errores_resto (hlen : body.length = (cuerpo rs parity data).length) (j : Nat) :
    errores (tramo j (body.drop (min data.length (255 - parity) + parity)))
      (tramo j (cuerpo rs parity (data.drop (255 - parity)))) ≤ parity / 2 := by
  have henc : (rs.encode parity (data.take (255 - parity))).length =
      min data.length (255 - parity) + parity := length_bloque data
  rw [cuerpo_of_ne_nil hp hd] at hlen he
  by_cases hfull : data.length ≤ 255 - parity
  · rw [List.length_append, henc] at hlen
    have hnil : data.drop (255 - parity) = [] := List.drop_eq_nil_of_le hfull
    rw [hnil, cuerpo, chunks_nil, List.map_nil, List.flatten_nil] at hlen ⊢
    rw [List.drop_of_length_le (by rw [hlen]; simp)]
    simp
  · have hj := he (j + 1)
    have h255 : min data.length (255 - parity) + parity = 255 := by omega
    rw [h255] at henc ⊢
    rwa [← tramo_drop, ← tramo_drop, List.drop_left' henc] at hj

end Bloque

/-- The loop finds every block again, as long as each is within what its parity corrects. -/
theorem recoverLoop_cuerpo (hrs : rs.Corrige) {parity : Nat} (hp : parity ≤ 128)
    {data body : List UInt8} (hlen : body.length = (cuerpo rs parity data).length)
    (he : ∀ j, errores (tramo j body) (tramo j (cuerpo rs parity data)) ≤ parity / 2) :
    recoverLoop rs parity hp data.length body = some data := by
  induction hn : data.length using Nat.strongRecOn generalizing data body with
  | _ n ih =>
    subst n
    by_cases hd : data = []
    · subst data
      exact recoverLoop_zero hp body
    have hpos := List.length_pos_iff.mpr hd
    have hk : (data.take (255 - parity)).length = min data.length (255 - parity) := by
      rw [List.length_take, Nat.min_comm]
    have hrest : (data.drop (255 - parity)).length =
        data.length - min data.length (255 - parity) := by
      rw [List.length_drop]
      omega
    have hlen' : body.length = min data.length (255 - parity) + parity +
        (cuerpo rs parity (data.drop (255 - parity))).length := by
      rw [hlen, cuerpo_of_ne_nil hp hd, List.length_append, length_bloque]
    have hblock : rs.data parity (body.take (min data.length (255 - parity) + parity)) =
        some (data.take (255 - parity)) :=
      ReedSolomon.data_of_errores hrs hp (by omega) (by rw [List.length_take]; omega)
        (errores_bloque hp hd he)
    have htail : recoverLoop rs parity hp (data.length - min data.length (255 - parity))
        (body.drop (min data.length (255 - parity) + parity)) =
          some (data.drop (255 - parity)) := by
      rw [← hrest]
      exact ih _ (by omega) (by rw [List.length_drop]; omega) (errores_resto hp hd he hlen) rfl
    have hfin := recoverLoop_bloque hp (by omega) (by omega) hk hblock htail
    rwa [List.take_append_drop] at hfin

theorem recover_of_errores (hrs : rs.Corrige) {data : List UInt8} (hd : data.length < 2 ^ 32)
    {parity : UInt8} {r : List UInt8} (hlen : r.length = (protect rs data parity).length)
    (hh : errores (r.take 15) ((protect rs data parity).take 15) ≤ 5)
    (hb : ∀ j, errores (tramo j (r.drop 15)) (tramo j ((protect rs data parity).drop 15)) ≤
      (ajustar parity).toNat / 2) :
    recover rs r = some data := by
  have hcab : (rs.encode headerParity (ajustar parity :: le 4 data.length)).length = 15 := by
    simp [headerParity]
  have hprot : protect rs data parity =
      rs.encode headerParity (ajustar parity :: le 4 data.length) ++
        cuerpo rs (ajustar parity).toNat data := rfl
  obtain ⟨h2, h128⟩ := ajustar_mem parity
  rw [length_protect] at hlen
  rw [hprot, List.take_left' hcab] at hh
  simp only [hprot, List.drop_left' hcab] at hb
  have hdata : rs.data headerParity (r.take 15) = some (ajustar parity :: le 4 data.length) := by
    refine ReedSolomon.data_of_errores hrs (by decide) (by simp [headerParity]) ?_ hh
    simp only [List.length_take, List.length_cons, length_le, headerParity]
    omega
  have hle : ofLe (((ajustar parity :: le 4 data.length).drop 1).take 4) = data.length := by
    rw [List.drop_succ_cons, List.drop_zero, List.take_of_length_le (by simp)]
    exact ofLe_le (by omega)
  have hbodylen : (r.drop 15).length = (cuerpo rs (ajustar parity).toNat data).length := by
    rw [List.length_drop]
    omega
  have hbody := recoverLoop_cuerpo hrs h128 hbodylen hb
  have hlong := le_length_cuerpo rs h128 data
  have hrange : 2 ≤ ajustar parity ∧ ajustar parity ≤ paridadMaxima :=
    ⟨UInt8.le_iff_toNat_le.mpr h2, UInt8.le_iff_toNat_le.mpr h128⟩
  unfold recover
  rw [if_neg (by rw [headerBlock_eq]; omega), headerBlock_eq, hdata]
  simp only [Option.bind_eq_bind, Option.bind_some, List.getElem?_cons_zero, dif_pos hrange, hle]
  rw [if_neg (by omega)]
  exact hbody

/-- Every corruption of what `protect` gives is undone if it keeps the length and leaves at
most five errors in the header and at most half the parity in each block. -/
theorem recover_protect (rs : ReedSolomon) (hrs : rs.Corrige) (data : List UInt8)
    (hd : data.length < 2 ^ 32) (parity : UInt8) (r : List UInt8)
    (hlen : r.length = (protect rs data parity).length)
    (hh : erroresEn 0 15 r (protect rs data parity) ≤ 5)
    (hb : ∀ j, erroresEn (15 + 255 * j) 255 r (protect rs data parity) ≤
      (ajustar parity).toNat / 2) :
    recover rs r = some data := by
  refine recover_of_errores hrs hd hlen ?_ fun j => ?_
  · rw [← errores_window] at hh
    exact hh
  · rw [tramo, tramo, List.drop_drop, List.drop_drop, errores_window]
    exact hb j

theorem recover_protect_tres :
    ∃ rs : ReedSolomon, rs.Corrige ∧
      recover rs ((protect rs [1, 2, 3] 4).set 16 0) = some [1, 2, 3] := by
  obtain ⟨rs, hrs⟩ := ReedSolomon.exists_corrige
  refine ⟨rs, hrs, recover_protect rs hrs [1, 2, 3] (by decide) 4 _ List.length_set ?_ fun j => ?_⟩
  · exact (erroresEn_set_le _ _ _ _ _).trans (by decide)
  · exact (erroresEn_set_le _ _ _ _ _).trans (by decide)

end Ecc

end Quipu
