import Quipu.BigEndian
import Quipu.ShamirCombine

namespace Quipu

variable {α ε : Type}

/-- The slice `xs[..n]`. -/
def prefijo (xs : List α) (n : Nat) : Res ε (List α) :=
  if n ≤ xs.length then .ok (xs.take n) else panico "range end index out of range"

/-- The difference of two `usize`. -/
def restarLargo (a b : Nat) : Res ε Nat :=
  if b ≤ a then .ok (a - b) else panico "attempt to subtract with overflow"

namespace Shamir

open Aleatorio

/-- The bytes of `QSS2`. -/
def magic : List UInt8 := [0x51, 0x53, 0x53, 0x32]

def headerLen : Nat := 10

def Share.toBytes (s : Share) : List UInt8 :=
  magic ++ [s.threshold] ++ [s.index] ++ u32Be (UInt32.ofNat s.y.length) ++ s.y

theorem umbral_of_from {threshold index : UInt8} (h : ¬(threshold < minThreshold ∨ index = 0)) :
    minThreshold ≤ threshold := UInt8.not_lt.mp fun hlt => h (.inl hlt)

theorem indice_of_from {threshold index : UInt8} (h : ¬(threshold < minThreshold ∨ index = 0)) :
    index ≠ 0 := fun h0 => h (.inr h0)

theorem largo_of_from {b : List UInt8} {len : Nat}
    (h : ¬(len ≤ tagLen ∨ b.length ≠ headerLen + len)) : tagLen < (b.drop headerLen).length := by
  rw [List.length_drop]
  omega

def Share.fromBytes (b : List UInt8) : Res ShamirError Share :=
  if b.length < headerLen then fallar .malformed
  else do
    let marca ← tramo b 0 4
    rechazarSi (marca ≠ magic) .malformed
    let threshold ← octeto b 4
    let index ← octeto b 5
    if hcabecera : threshold < minThreshold ∨ index = 0 then fallar .malformed
    else do
      let largo ← campo b 6 4
      let len := ofBe largo.toList
      if hlargo : len ≤ tagLen ∨ b.length ≠ headerLen + len then fallar .malformed
      else pure ⟨threshold, index, b.drop headerLen, umbral_of_from hcabecera,
        indice_of_from hcabecera, largo_of_from hlargo⟩

theorem Share.toBytes_of_fromBytes {b : List UInt8} {s : Share} (h : Share.fromBytes b = .ok s) :
    b = s.toBytes ∧ s.y.length < 2 ^ 32 := by
  have h10 : headerLen = 10 := rfl
  unfold Share.fromBytes at h
  split at h
  next => cases h
  next hl =>
    simp only [Res.bind_ok, rechazarSi_eq_ok] at h
    obtain ⟨marca, hmarca, _, hmagic, threshold, ht, index, hi, h⟩ := h
    split at h
    next => cases h
    next hcabecera =>
      obtain ⟨largo, hlargo, h⟩ := Res.bind_ok.mp h
      split at h
      next => cases h
      next hlen =>
        cases h
        rw [not_or, not_not] at hlen
        rw [tramo_ok (Nat.zero_le 4) (by omega), List.drop_zero, Except.ok.injEq] at hmarca
        have hmax := ofBe_arr_lt largo
        have hy : (b.drop headerLen).length = ofBe largo.toList := by
          rw [List.length_drop]
          omega
        have hbytes : u32Be (UInt32.ofNat (b.drop headerLen).length) = largo.toList := by
          rw [hy, u32Be_ofNat hmax, be_ofBe_arr]
        refine ⟨?_, hy.trans_lt hmax⟩
        show b = magic ++ [threshold] ++ [index] ++
          u32Be (UInt32.ofNat (b.drop headerLen).length) ++ b.drop headerLen
        rw [hbytes, ← not_not.mp hmagic, ← hmarca]
        simp only [List.append_assoc, List.cons_append, List.nil_append, h10]
        rw [← drop_of_campo hlargo, ← drop_of_octeto hi, ← drop_of_octeto ht,
          List.take_append_drop]

theorem Share.fromBytes_toBytes {s : Share} (hlen : s.y.length < 2 ^ 32) :
    Share.fromBytes s.toBytes = .ok s := by
  have h10 : headerLen = 10 := rfl
  have hb : s.toBytes = magic ++ (s.threshold :: s.index ::
      ((Arr.of (be 4 s.y.length) (length_be 4 _)).toList ++ s.y)) := by
    rw [Share.toBytes, u32Be_ofNat hlen, Arr.toList_of]
    simp only [List.append_assoc, List.cons_append, List.nil_append]
  have hnum : ofBe (be 4 s.y.length) = s.y.length := ofBe_be hlen
  have r : Sigue s.toBytes 4 (s.threshold :: s.index ::
      ((Arr.of (be 4 s.y.length) (length_be 4 _)).toList ++ s.y)) := ⟨magic, hb, rfl⟩
  obtain ⟨ht, r⟩ := r.octeto (ε := ShamirError)
  obtain ⟨hi, r⟩ := r.octeto (ε := ShamirError)
  obtain ⟨hcampo, a, hcuerpo, halen⟩ := r.campo (ε := ShamirError)
  have hblen : s.toBytes.length = 10 + s.y.length := by
    rw [hcuerpo, List.length_append, halen]
  have hdrop : s.toBytes.drop headerLen = s.y := by
    rw [hcuerpo]
    exact List.drop_left' halen
  have hmagic : s.toBytes.take 4 = magic := by
    rw [hb]
    rfl
  have hcabecera : ¬(s.threshold < minThreshold ∨ s.index = 0) := by
    rw [not_or]
    exact ⟨UInt8.not_lt.mpr s.umbral, s.indice⟩
  have hcabe : ¬(ofBe (Arr.of (be 4 s.y.length) (length_be 4 _)).toList ≤ tagLen ∨
      s.toBytes.length ≠
        headerLen + ofBe (Arr.of (be 4 s.y.length) (length_be 4 _)).toList) := by
    rw [Arr.toList_of, hnum, not_or, not_not]
    exact ⟨Nat.not_le.mpr s.largo, hblen⟩
  simp only [Nat.reduceAdd] at hi hcampo
  rw [Share.fromBytes, if_neg (by omega), tramo_ok (Nat.zero_le 4) (by omega), Res.ok_bind,
    List.drop_zero, rechazarSi_of_not _ (not_not.mpr hmagic), Res.ok_bind, ht, Res.ok_bind, hi,
    Res.ok_bind, dif_neg hcabecera, hcampo, Res.ok_bind, dif_neg hcabe]
  simp only [hdrop]
  rfl

/-- What `from_bytes` accepts is what `to_bytes` writes, below 2^32 bytes. -/
theorem Share.fromBytes_eq_ok {b : List UInt8} {s : Share} :
    Share.fromBytes b = .ok s ↔ b = s.toBytes ∧ s.y.length < 2 ^ 32 := by
  constructor
  · exact Share.toBytes_of_fromBytes
  · rintro ⟨rfl, hlen⟩
    exact Share.fromBytes_toBytes hlen

/-- Both products of the weight of share `i`. -/
def numDen (usadas : List Share) (i : Nat) (si : UInt8) : UInt8 × UInt8 :=
  usadas.zipIdx.foldl (fun nd p =>
    if i = p.2 then nd else (gfMul nd.1 p.1.index, gfMul nd.2 (si ^^^ p.1.index))) (1, 1)

/-- `lambdaDe`, where a zero denominator fails instead of passing for its own inverse. -/
def lambdaCortando (usadas : List Share) (i : Nat) (si : UInt8) : Res ShamirError UInt8 :=
  let nd := numDen usadas i si
  if nd.2 = 0 then panico "`den` nunca es 0: los índices son distintos y no nulos"
  else .ok (gfMul nd.1 (gfInv nd.2))

def recuperarCortando (usadas : List Share) (lambdas : List UInt8) (largo : Nat) :
    Res ShamirError (List UInt8) :=
  (List.range largo).mapM fun pos => usadas.zipIdx.foldlM (fun acc p => do
    let y ← octeto p.1.y pos
    let l ← octeto lambdas p.2
    pure (acc ^^^ gfMul y l)) 0

/-- `combine` with each index, slice, subtraction and denominator of the source checked. -/
def combineCortando (etiqueta : List UInt8 → Arr tagLen) (shares : List Share) :
    Res ShamirError (List UInt8) := do
  let primera ← comprobar shares
  let usadas ← prefijo shares primera.threshold.toNat
  let lambdas ← usadas.zipIdx.mapM fun p => lambdaCortando usadas p.2 p.1.index
  let recuperado ← recuperarCortando usadas lambdas primera.y.length
  let corte ← restarLargo recuperado.length tagLen
  let secreto ← tramo recuperado 0 corte
  let cola ← tramo recuperado corte recuperado.length
  rechazarSi ((etiqueta secreto).toList ≠ cola) .verificationFailed
  pure secreto

theorem gfMul_ne_zero {a b : UInt8} (ha : a ≠ 0) (hb : b ≠ 0) : gfMul a b ≠ 0 := by
  intro h
  have hprod : (⟨a⟩ : Gf256) * ⟨b⟩ = 0 := Gf256.ext h
  rcases mul_eq_zero.mp hprod with h | h
  · exact ha (congrArg Gf256.byte h)
  · exact hb (congrArg Gf256.byte h)

theorem foldl_den_ne_zero {i : Nat} {si : UInt8} {l : List (Share × Nat)} {nd : UInt8 × UInt8}
    (hnd : nd.2 ≠ 0) (h : ∀ p ∈ l, i ≠ p.2 → si ≠ p.1.index) :
    (l.foldl (fun nd p => if i = p.2 then nd
      else (gfMul nd.1 p.1.index, gfMul nd.2 (si ^^^ p.1.index))) nd).2 ≠ 0 := by
  induction l generalizing nd with
  | nil => exact hnd
  | cons p l ih =>
    rw [List.foldl_cons]
    refine ih ?_ fun q hq => h q (List.mem_cons_of_mem p hq)
    by_cases hi : i = p.2
    · rw [if_pos hi]
      exact hnd
    · rw [if_neg hi]
      refine gfMul_ne_zero hnd fun hx => h p List.mem_cons_self hi ?_
      exact UInt8.xor_eq_zero_iff.mp hx

/-- Distinct indices leave no denominator at zero. -/
theorem numDen_ne_zero {usadas : List Share} (hn : (usadas.map Share.index).Nodup) {i : Nat}
    (hi : i < usadas.length) : (numDen usadas i usadas[i].index).2 ≠ 0 := by
  refine foldl_den_ne_zero (by decide) ?_
  rintro ⟨s, j⟩ hp hij
  obtain ⟨hj, hs⟩ := List.mem_zipIdx' hp
  simp only at hij hs
  intro he
  refine hij ?_
  have hi' : i < (usadas.map Share.index).length := by simpa using hi
  have hj' : j < (usadas.map Share.index).length := by simpa using hj
  have hindices : (usadas.map Share.index)[i] = (usadas.map Share.index)[j] := by
    rw [List.getElem_map, List.getElem_map, he, hs]
  exact hn.getElem_inj_iff.mp hindices

theorem mapM_lambdaCortando {usadas : List Share} (hn : (usadas.map Share.index).Nodup) :
    (usadas.zipIdx.mapM fun p => lambdaCortando usadas p.2 p.1.index) =
      .ok (lambdasDe usadas) := by
  unfold lambdasDe
  refine Res.mapM_of_ok fun p hp => ?_
  obtain ⟨s, i⟩ := p
  obtain ⟨hi, hs⟩ := List.mem_zipIdx' hp
  have hden := numDen_ne_zero hn hi
  rw [← hs] at hden
  have hlam : lambdaDe usadas i s.index =
      gfMul (numDen usadas i s.index).1 (gfInv (numDen usadas i s.index).2) := rfl
  simp only [lambdaCortando, if_neg hden, hlam]

theorem recuperarCortando_eq {usadas : List Share} {largo : Nat}
    (hl : ∀ s ∈ usadas, s.y.length = largo) :
    recuperarCortando usadas (lambdasDe usadas) largo = .ok (recuperar usadas largo) := by
  refine Res.mapM_of_ok fun pos hpos => Res.foldlM_of_ok (fun acc p hp => ?_) 0
  obtain ⟨s, i⟩ := p
  obtain ⟨hi, hs⟩ := List.mem_zipIdx' hp
  have hpos' : pos < s.y.length := by
    rw [hs, hl _ (List.getElem_mem hi)]
    exact List.mem_range.mp hpos
  have hlam : i < (lambdasDe usadas).length := by
    rw [lambdasDe, List.length_map, List.length_zipIdx]
    exact hi
  simp only [octeto_ok hpos', octeto_ok hlam, Res.ok_bind, List.getD_eq_getElem?_getD,
    List.getElem?_eq_getElem hpos', List.getElem?_eq_getElem hlam, Option.getD_some]
  rfl

/-- Nothing that `combine` checks or takes for granted fails. -/
theorem combineCortando_eq (etiqueta : List UInt8 → Arr tagLen) (shares : List Share) :
    combineCortando etiqueta shares = combine etiqueta shares := by
  rw [combineCortando, combine]
  cases h : comprobar shares with
  | error e => rfl
  | ok primera =>
    obtain ⟨-, hc⟩ := comprobar_eq_ok.mp h
    have hl : ∀ s ∈ shares.take primera.threshold.toNat, s.y.length = primera.y.length :=
      fun s hs => hc.largo s (List.mem_of_mem_take hs)
    have hlargo := primera.largo
    rw [Res.ok_bind, Res.ok_bind, prefijo, if_pos hc.bastan, Res.ok_bind,
      mapM_lambdaCortando hc.nodup_take, Res.ok_bind, recuperarCortando_eq hl, Res.ok_bind]
    have hlen := length_recuperar (shares.take primera.threshold.toNat) primera.y.length
    generalize recuperar _ _ = recuperado at hlen ⊢
    rw [restarLargo, if_pos (by omega), Res.ok_bind, tramo_ok (Nat.zero_le _) (by omega),
      Res.ok_bind, tramo_ok (by omega) (Nat.le_refl _), Res.ok_bind, List.drop_zero,
      List.take_length]

theorem comprobar_sinPanico (shares : List Share) : Res.SinPanico (comprobar shares) := by
  cases shares with
  | nil => exact Res.sinPanico_fallar _
  | cons primera resto =>
    simp only [comprobar, rechazarSi_bind]
    exact Res.sinPanico_ite fun _ => Res.sinPanico_ite fun _ => Res.sinPanico_ite fun _ =>
      Res.sinPanico_ok _

theorem combine_sinPanico (etiqueta : List UInt8 → Arr tagLen) (shares : List Share) :
    Res.SinPanico (combine etiqueta shares) := by
  rcases comprobar_sinPanico shares with ⟨primera, h⟩ | ⟨e, h⟩
  · rw [combine, h, Res.ok_bind, rechazarSi_bind]
    exact Res.sinPanico_ite fun _ => Res.sinPanico_ok _
  · exact .inr ⟨e, by rw [combine, h, Res.error_bind]⟩

theorem Share.fromBytes_sinPanico (b : List UInt8) : Res.SinPanico (Share.fromBytes b) := by
  have h10 : headerLen = 10 := rfl
  unfold Share.fromBytes
  refine Res.sinPanico_ite fun hl => ?_
  rw [tramo_ok (Nat.zero_le 4) (by omega), octeto_ok (by omega), octeto_ok (by omega),
    campo_ok (by omega), Res.ok_bind, rechazarSi_bind]
  refine Res.sinPanico_ite fun _ => ?_
  simp only [Res.ok_bind]
  split
  next => exact Res.sinPanico_fallar _
  next =>
    split
    next => exact Res.sinPanico_fallar _
    next => exact Res.sinPanico_ok _

/-- Shares are read as they were written, and whatever shares were read, combining them does not
fail by a subtraction, a denominator or an index. -/
theorem comparticiones_exactas (etiqueta : List UInt8 → Arr tagLen) :
    (∀ secret threshold shares cinta fuera cinta',
      split etiqueta secret threshold shares cinta = .ok fuera cinta' →
      secret.length + tagLen < 2 ^ 32 → ∀ s ∈ fuera, Share.fromBytes s.toBytes = .ok s) ∧
    (∀ b, Res.SinPanico (Share.fromBytes b) ∧
      ∀ s, Share.fromBytes b = .ok s → s.toBytes = b) ∧
    ∀ shares : List Share, Res.SinPanico (combineCortando etiqueta shares) ∧
      combineCortando etiqueta shares = combine etiqueta shares := by
  refine ⟨?_, fun b => ⟨Share.fromBytes_sinPanico b, fun s hs => ?_⟩, fun shares => ?_⟩
  · intro secret threshold shares cinta fuera cinta' h hlen s hs
    obtain ⟨ht, hne, _, css, _, rfl⟩ := split_eq_ok.mp h
    obtain ⟨x, hx, rfl⟩ := (mem_repartir ht _ _ css).mp hs
    refine Share.fromBytes_eq_ok.mpr ⟨rfl, ?_⟩
    rw [comparticion, length_valores]
    exact hlen
  · exact (Share.fromBytes_eq_ok.mp hs).1.symm
  · rw [combineCortando_eq]
    exact ⟨combine_sinPanico etiqueta shares, rfl⟩

theorem comparticiones_exactas_tres :
    (∃ fuera cinta cinta', split etiquetaNula [7] 2 3 cinta = .ok fuera cinta' ∧
      fuera.length = 3 ∧ ∀ s ∈ fuera, Share.fromBytes s.toBytes = .ok s) ∧
    ∀ s, Share.fromBytes (magic ++ [2, 1, 0, 0, 0, 9] ++ List.replicate 9 5) = .ok s →
      s.toBytes = magic ++ [2, 1, 0, 0, 0, 9] ++ List.replicate 9 5 ∧
        Res.SinPanico (combineCortando etiquetaNula [s, s]) := by
  obtain ⟨hescribe, hlee, hcombina⟩ := comparticiones_exactas etiquetaNula
  let css : List.Vector (Arr ((2 : UInt8).toNat - 1)) ([(7 : UInt8)].length + tagLen) :=
    List.Vector.replicate _ (List.Vector.replicate _ 5)
  have hsanos : ∀ c ∈ css.toList, saludDe c.toList = none := by
    intro c hc
    rw [List.eq_of_mem_replicate hc]
    rfl
  have hsplit : split etiquetaNula [7] 2 3
      (reponerTodos css (Stream'.const (.entrega fun _ => 0))) = .ok _ _ :=
    split_reponerTodos (by decide) (by decide) (by decide) hsanos _
  refine ⟨⟨_, _, _, hsplit, rfl, ?_⟩, fun s hs => ⟨(hlee _).2 s hs, (hcombina [s, s]).1⟩⟩
  exact hescribe _ _ _ _ _ _ hsplit (by decide)

end Shamir

end Quipu
