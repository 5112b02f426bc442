import Quipu.PalabrasBits
import Quipu.PalabrasLista
import Mathlib.Data.List.Forall2

namespace Quipu.Palabras

open Digitos Servidor

/-- The words of a list that the tokens of a text resolve to. -/
def resolver (palabras : List String) (texto : String) : Res PalabrasError (List String) := do
  let indices ← indicesDe palabras (splitWhitespace texto)
  indices.mapM (palabraDe palabras)

variable {palabras : List String} {sha256 : List UInt8 → Arr 32} {texto : String}
  {indices : List UInt32} {datos : List UInt8}

/-- A size that fits, the words it takes and the bits of the digest that they carry. -/
theorem tamanos_spec {n : Nat} (h : n ∈ tamanos) :
    ∃ m, m * 11 = 8 * n + n * 8 / 32 ∧ bytesDe m = .ok n ∧ 16 ≤ n ∧ n ≤ 32 := by
  have hc : n = 16 ∨ n = 20 ∨ n = 24 ∨ n = 28 ∨ n = 32 := by simpa [tamanos] using h
  rcases hc with rfl | rfl | rfl | rfl | rfl
  · exact ⟨12, rfl, rfl, by omega, by omega⟩
  · exact ⟨15, rfl, rfl, by omega, by omega⟩
  · exact ⟨18, rfl, rfl, by omega, by omega⟩
  · exact ⟨21, rfl, rfl, by omega, by omega⟩
  · exact ⟨24, rfl, rfl, by omega, by omega⟩

theorem bytesDe_spec {m L : Nat} (h : bytesDe m = .ok L) :
    L ∈ tamanos ∧ m * 11 = 8 * L + L * 8 / 32 := by
  unfold bytesDe at h
  split at h
  case h_6 => cases h
  all_goals
    cases Except.ok.inj h
    exact ⟨by decide, rfl⟩

theorem palabraDe_eq_ok {idx : UInt32} {palabra : String} :
    palabraDe palabras idx = .ok palabra ↔ palabras[idx.toNat]? = some palabra := by
  unfold palabraDe
  cases palabras[idx.toNat]? with
  | none => simp [fallar]
  | some w => simp

/-- What `escribir` writes, by the indices of the words. -/
theorem palabrasDe_eq {m : Nat} (h : datos.length ∈ tamanos)
    (hm : m * 11 = 8 * datos.length + datos.length * 8 / 32) :
    palabrasDe palabras sha256 datos =
      (indicesEscritos (datos ++ (sha256 datos).toList) m).mapM (palabraDe palabras) := by
  obtain ⟨-, -, -, -, hl⟩ := tamanos_spec h
  have ht : (datos.length * 8 + datos.length * 8 / 32) / 11 = m := by omega
  have hf : ∀ p ∈ List.range m, palabraEn palabras datos (sha256 datos) p =
      palabraDe palabras
        (UInt32.ofNat (bits (datos ++ (sha256 datos).toList) (p * 11) 11)) := by
    intro p hp
    have hp' := List.mem_range.mp hp
    rw [palabraEn, indiceEn_eq (by omega), Res.ok_bind]
  rw [palabrasDe, rechazarSi_of_not _ (not_not.mpr h), Res.ok_bind]
  simp only [ht]
  rw [indicesEscritos, List.mapM_map]
  exact Res.mapM_congr hf

theorem length_indicesDe {crudas : List (List Char)} (h : indicesDe palabras crudas = .ok indices) :
    indices.length = crudas.length := by
  have hl := (Res.forall₂_of_mapM h).length_eq
  rw [List.length_zipIdx] at hl
  exact hl.symm

theorem indiceDe_lt {limpia : String} {posicion : Nat} {idx : UInt32}
    (hl : palabras.length = palabrasEnLaLista) (h : indiceDe palabras limpia posicion = .ok idx) :
    idx.toNat < 2 ^ 11 := by
  have hn {i : Nat} (hi : i < palabras.length) : (UInt32.ofNat i).toNat < 2 ^ 11 := by
    rw [hl, palabrasEnLaLista] at hi
    rw [UInt32.toNat_ofNat']
    omega
  unfold indiceDe at h
  split at h
  next => cases h
  next =>
    split at h
    next i hi =>
      cases Except.ok.inj h
      exact hn (List.findIdx?_eq_some_iff_getElem.mp hi).1
    next =>
      simp only at h
      split at h
      next => cases h
      next i hc =>
        split at h
        next =>
          cases Except.ok.inj h
          have hm : i ∈ (palabras.zipIdx.filter fun w =>
              limpia.toList.isPrefixOf w.1.toList).map Prod.snd := by simp [hc]
          obtain ⟨⟨w, j⟩, hw, rfl⟩ := List.mem_map.mp hm
          have hj := List.mk_mem_zipIdx_iff_getElem?.mp (List.mem_filter.mp hw).1
          exact hn (List.getElem?_eq_some_iff.mp hj).1
        next => cases h
      next => cases h

theorem indicesDe_lt {crudas : List (List Char)} (hl : palabras.length = palabrasEnLaLista)
    (h : indicesDe palabras crudas = .ok indices) : ∀ idx ∈ indices, idx.toNat < 2 ^ 11 := by
  intro idx hi
  obtain ⟨j, hj⟩ := List.mem_iff_getElem?.mp hi
  obtain ⟨hlt, he⟩ := List.getElem?_eq_some_iff.mp hj
  have hf := Res.forall₂_of_mapM h
  have hg := hf.get (hf.length_eq ▸ hlt) hlt
  rw [List.get_eq_getElem, List.get_eq_getElem, he] at hg
  exact indiceDe_lt hl hg

/-- The bits of the last byte that `leer` compares, below the mask of its checksum. -/
theorem suma_iff {b r : Nat} (hb0 : 0 < b) (hb8 : b ≤ 8) (hr : r < 2 ^ b) (x : UInt8) :
    UInt8.ofNat (r * 2 ^ (8 - b)) &&& (0xff <<< UInt8.ofNat (8 - b)) =
      x &&& (0xff <<< UInt8.ofNat (8 - b)) ↔ r = x.toNat / 2 ^ (8 - b) := by
  have hp8 : 256 = 2 ^ b * 2 ^ (8 - b) := by
    rw [← Nat.pow_add, Nat.add_sub_cancel' hb8]
  have hx : (UInt8.ofNat (r * 2 ^ (8 - b))).toNat = r * 2 ^ (8 - b) := by
    rw [UInt8.toNat_ofNat']
    apply Nat.mod_eq_of_lt
    rw [show 2 ^ 8 = 256 from rfl, hp8]
    exact Nat.mul_lt_mul_of_pos_right hr (Nat.two_pow_pos _)
  rw [← UInt8.toNat_inj, toNat_mascara _ (by omega), toNat_mascara _ (by omega), hx,
    Nat.mul_div_cancel _ (Nat.two_pow_pos _)]
  exact Nat.mul_left_inj (Nat.two_pow_pos _).ne'

/-- What `leer` does with the indices of a text, by the number that they write. -/
theorem leerDe_de {L b : Nat} (hi : indicesDe palabras (splitWhitespace texto) = .ok indices)
    (h : ∀ idx ∈ indices, idx.toNat < 2 ^ 11) (hL : bytesDe indices.length = .ok L)
    (hb : L * 8 / 32 = b) :
    leerDe palabras sha256 texto =
      if numeroDe indices % 2 ^ b =
          (sha256 (be L (numeroDe indices / 2 ^ b))).head.toNat / 2 ^ (8 - b) then
        .ok (be L (numeroDe indices / 2 ^ b))
      else fallar .sumaDeVerificacion := by
  obtain ⟨ht, hm⟩ := bytesDe_spec hL
  obtain ⟨-, -, -, h0, h32⟩ := tamanos_spec ht
  have hb0 : 0 < b := by omega
  have hb8 : b ≤ 8 := by omega
  have hlen := length_indicesDe hi
  have hne : splitWhitespace texto ≠ [] := by
    intro he
    rw [he, List.length_nil] at hlen
    omega
  have hp := Deshecho.cerrar_de h hb0 hb8 (hb ▸ hm)
  rw [leerDe]
  simp only
  rw [rechazarSi_of_not _ hne, Res.ok_bind, ← hlen, hL, Res.ok_bind, hi, Res.ok_bind, hp, hb]
  generalize he : be L (numeroDe indices / 2 ^ b) = e
  have hle : e.length = L := by rw [← he, length_be]
  generalize hr : numeroDe indices % 2 ^ b = r
  have hrb : r < 2 ^ b := by
    rw [← hr]
    exact Nat.mod_lt _ (Nat.two_pow_pos b)
  have htr : (tramo (e ++ [UInt8.ofNat (r * 2 ^ (8 - b))]) 0 L : Res PalabrasError (List UInt8)) =
      .ok e := by
    rw [tramo_ok (Nat.zero_le _) (by simp [hle]), ← hle, List.take_left, List.drop_zero]
  have hd : (octeto (sha256 e).toList 0 : Res PalabrasError UInt8) = .ok (sha256 e).head := by
    rw [octeto_eq_ok, toList_head_tail, List.getElem?_cons_zero]
  have hu : (octeto (e ++ [UInt8.ofNat (r * 2 ^ (8 - b))]) L : Res PalabrasError UInt8) =
      .ok (UInt8.ofNat (r * 2 ^ (8 - b))) := by
    rw [octeto_eq_ok, ← hle, List.getElem?_concat_length]
  have hc := suma_iff hb0 hb8 hrb (sha256 e).head
  rw [htr, Res.ok_bind, hd, Res.ok_bind, hu, Res.ok_bind, rechazarSi_bind]
  by_cases hs : r = (sha256 e).head.toNat / 2 ^ (8 - b)
  · rw [if_pos hs, if_neg (not_not.mpr (hc.mpr hs))]
    rfl
  · rw [if_neg hs, if_pos (fun he => hs (hc.mp he))]

/-- A text is read as the bytes whose bits, with those of their digest, its indices write. -/
theorem leerDe_iff {L : Nat} (hi : indicesDe palabras (splitWhitespace texto) = .ok indices)
    (h : ∀ idx ∈ indices, idx.toNat < 2 ^ 11) (hL : bytesDe indices.length = .ok L) :
    leerDe palabras sha256 texto = .ok datos ↔ datos.length = L ∧
      numeroDe indices = bits (datos ++ (sha256 datos).toList) 0 (8 * L + L * 8 / 32) := by
  obtain ⟨ht, hm⟩ := bytesDe_spec hL
  obtain ⟨-, -, -, -, h32⟩ := tamanos_spec ht
  rw [leerDe_de hi h hL rfl]
  have hb8 : L * 8 / 32 ≤ 8 := by omega
  have hlt := numeroDe_lt h
  generalize L * 8 / 32 = b at hm hb8 ⊢
  have hs {d : List UInt8} : (sha256 d).head.toNat / 2 ^ (8 - b) < 2 ^ b := by
    apply Nat.div_lt_of_lt_mul
    rw [← Nat.pow_add, Nat.sub_add_cancel hb8]
    exact UInt8.toNat_lt _
  have hq : numeroDe indices / 2 ^ b < 256 ^ L := by
    apply Nat.div_lt_of_lt_mul
    rw [show 256 = 2 ^ 8 from rfl, ← Nat.pow_mul, ← Nat.pow_add]
    rwa [show b + 8 * L = 11 * indices.length by omega]
  have hd := Nat.div_add_mod' (numeroDe indices) (2 ^ b)
  constructor
  · intro he
    split at he
    next hc =>
      have hl : datos.length = L := by rw [← Except.ok.inj he, length_be]
      refine ⟨hl, ?_⟩
      rw [Except.ok.inj he] at hc
      rw [← hl, bits_suma hb8, ← hc, ← Except.ok.inj he, ofBe_be hq, hd]
    next => cases he
  · rintro ⟨rfl, hn⟩
    rw [bits_suma hb8] at hn
    have hdiv : numeroDe indices / 2 ^ b = ofBe datos := by
      rw [hn, Nat.mul_comm, Nat.mul_add_div (Nat.two_pow_pos b), Nat.div_eq_of_lt hs, Nat.add_zero]
    have hmod : numeroDe indices % 2 ^ b = (sha256 datos).head.toNat / 2 ^ (8 - b) := by
      rw [hn, Nat.mul_comm, Nat.mul_add_mod, Nat.mod_eq_of_lt hs]
    rw [hdiv, be_ofBe, if_pos hmod]

/-- Indices write the first bits of a string exactly when each of those bits agrees. -/
theorem numeroDe_eq_iff {bs : List UInt8} {k : Nat} (h : ∀ idx ∈ indices, idx.toNat < 2 ^ 11)
    (hk : indices.length * 11 = k) :
    numeroDe indices = bits bs 0 k ↔
      ∀ i < k, bitEn 11 (indices.map UInt32.toNat) i = bit bs i := by
  have hlt := numeroDe_lt h
  rw [Nat.mul_comm, hk] at hlt
  have hi {i : Nat} (hik : i < k) : bitEn 11 (indices.map UInt32.toNat) i =
      numeroDe indices / 2 ^ (k - 1 - i) % 2 := by
    have hl : 11 * (indices.map UInt32.toNat).length = k := by
      rw [List.length_map, Nat.mul_comm, hk]
    have hb := bitEn_eq (List.forall_mem_map.mpr h) (hl ▸ hik)
    rwa [hl] at hb
  have hb {i : Nat} (hik : i < k) : bits bs 0 k / 2 ^ (k - 1 - i) % 2 = bit bs i := by
    rw [bits_div bs 0 hik, Nat.zero_add]
  constructor
  · intro hn i hik
    rw [hi hik, hn, hb hik]
  · intro hn
    apply eq_of_bits hlt (bits_lt bs 0 k)
    intro i hik
    rw [← hi hik, hn i hik, hb hik]

/-- A text that is read resolves to the words that write what was read. -/
theorem resolver_of_leerDe (hl : palabras.length = palabrasEnLaLista)
    (h : leerDe palabras sha256 texto = .ok datos) :
    ∃ ws, resolver palabras texto = .ok ws ∧ palabrasDe palabras sha256 datos = .ok ws := by
  have hr := h
  rw [leerDe] at hr
  simp only at hr
  obtain ⟨-, -, hr⟩ := Res.bind_ok.mp hr
  obtain ⟨L, hL, hr⟩ := Res.bind_ok.mp hr
  obtain ⟨indices, hi, -⟩ := Res.bind_ok.mp hr
  have h11 := indicesDe_lt hl hi
  rw [← length_indicesDe hi] at hL
  obtain ⟨rfl, hn⟩ := (leerDe_iff hi h11 hL).mp h
  obtain ⟨ht, hm⟩ := bytesDe_spec hL
  have he : indices = indicesEscritos (datos ++ (sha256 datos).toList) indices.length := by
    apply List.map_injective_iff.mpr (fun _ _ he => UInt32.toNat_inj.mp he)
    refine numero_inj (w := 11) (by decide) (by simp [indicesEscritos])
      (List.forall_mem_map.mpr h11) (List.forall_mem_map.mpr indicesEscritos_lt) ?_
    show numeroDe indices = numeroDe _
    rw [numeroDe_escritos, hn, hm]
  have hw : indices.mapM (palabraDe palabras) =
      .ok (indices.map fun idx => palabras.getD idx.toNat "") := by
    apply Res.mapM_of_ok
    intro idx hidx
    have hlt : idx.toNat < palabras.length := by
      rw [hl]
      exact h11 idx hidx
    rw [palabraDe_eq_ok, List.getD_eq_getElem?_getD, List.getElem?_eq_getElem hlt]
    rfl
  refine ⟨indices.map fun idx => palabras.getD idx.toNat "", ?_, ?_⟩
  · rw [resolver, hi, Res.ok_bind, hw]
  · rw [palabrasDe_eq ht hm, ← he, hw]

/-- A text is read as what writes its words, and every bit of its words is compared. -/
theorem leer_exacto (palabras : List String) (sha256 : List UInt8 → Arr 32)
    (hl : palabras.length = palabrasEnLaLista) :
    (∀ texto datos, leerDe palabras sha256 texto = .ok datos →
      ∃ ws, resolver palabras texto = .ok ws ∧ palabrasDe palabras sha256 datos = .ok ws ∧
        escribirDe palabras sha256 datos = .ok (" ".intercalate ws)) ∧
    (∀ texto texto' datos datos' ws ws', resolver palabras texto = .ok ws →
      resolver palabras texto' = .ok ws' → ws ≠ ws' →
        leerDe palabras sha256 texto = .ok datos → leerDe palabras sha256 texto' = .ok datos' →
          datos ≠ datos') ∧
    ∀ texto indices L, indicesDe palabras (splitWhitespace texto) = .ok indices →
      bytesDe indices.length = .ok L → ∀ datos,
        (leerDe palabras sha256 texto = .ok datos ↔ datos.length = L ∧
          ∀ i < 8 * L + L * 8 / 32, bitEn 11 (indices.map UInt32.toNat) i =
            bit (datos ++ (sha256 datos).toList) i) := by
  refine ⟨?_, ?_, ?_⟩
  · intro texto datos h
    obtain ⟨ws, hr, hw⟩ := resolver_of_leerDe hl h
    refine ⟨ws, hr, hw, ?_⟩
    rw [escribirDe, hw]
    rfl
  · rintro texto texto' datos _ ws ws' hr hr' hne h h' rfl
    obtain ⟨vs, hv, hw⟩ := resolver_of_leerDe hl h
    obtain ⟨vs', hv', hw'⟩ := resolver_of_leerDe hl h'
    have he : ws = vs := Except.ok.inj (hr.symm.trans hv)
    have he' : ws' = vs' := Except.ok.inj (hr'.symm.trans hv')
    have hvs : vs = vs' := Except.ok.inj (hw.symm.trans hw')
    exact hne (he.trans (hvs.trans he'.symm))
  · intro texto indices L hi hL datos
    have h11 := indicesDe_lt hl hi
    rw [leerDe_iff hi h11 hL, numeroDe_eq_iff h11 (bytesDe_spec hL).2]

/-- The digest of sixteen zero bytes. -/
def sumaCeros : Arr 32 := ajustar 32
  [0x37, 0x47, 0x08, 0xff, 0xf7, 0x71, 0x9d, 0xd5, 0x97, 0x9e, 0xc8, 0x75, 0xd5, 0x6c, 0xd2, 0x28,
   0x6f, 0x6d, 0x3c, 0xf7, 0xec, 0x31, 0x7a, 0x3b, 0x25, 0x63, 0x2a, 0xab, 0x28, 0xec, 0x37, 0xbb]

theorem leer_exacto_ceros :
    leerDe Lista.canonica.palabras (fun _ => sumaCeros)
      ("abandon abandon abandon abandon abandon abandon abandon " ++
        "abandon abandon abandon abandon about") =
        .ok (List.replicate 16 0) := by
  have hi : indicesDe Lista.canonica.palabras
      (splitWhitespace ("abandon abandon abandon abandon abandon abandon abandon " ++
        "abandon abandon abandon abandon about")) =
        .ok (List.replicate 11 0 ++ [3]) := by decide +kernel
  have hz := leer_exacto Lista.canonica.palabras (fun _ => sumaCeros) Lista.canonica.cuenta
  exact (hz.2.2 _ _ 16 hi rfl _).mpr ⟨rfl, by decide⟩

end Quipu.Palabras
