import Quipu.BigEndian
import Quipu.Chunks
import Mathlib.Data.List.ReduceOption

namespace Quipu.Codec

def grupoBytes : Nat := 3

def grupoDigitos : Nat := 4

/-- The loop of `encode_grupos` over the bytes of a piece, with zeros behind. -/
def valorDeTrozo (trozo : List UInt8) : Nat :=
  (List.range grupoBytes).foldl (fun v i => v <<< 8 ||| (trozo.getD i 0).toNat) 0

/-- The loop over the digits, from the last one to the first. -/
def digitosDeGrupo (base : Nat) : Nat → Nat → List UInt32
  | 0, _ => []
  | k + 1, v => digitosDeGrupo base k (v / base) ++ [UInt32.ofNat (v % base)]

def encodeGrupos (data : List UInt8) (n : UInt32) : List UInt32 :=
  (chunks grupoBytes data).flatMap fun trozo =>
    digitosDeGrupo n.toNat grupoDigitos (valorDeTrozo trozo)

/-- A sum or a product of `u64` that stops at the largest one. -/
def saturar (v : Nat) : Nat := min v (2 ^ 64 - 1)

/-- `(*d).min(n - 1)`. -/
def recortar (n d : UInt32) : UInt32 := if d ≤ n - 1 then d else n - 1

/-- The value of a group, with every index cut to `n - 1`. -/
def valorDeGrupo (n : UInt32) (grupo : List (Option UInt32)) : Nat :=
  grupo.reduceOption.foldl (fun v d =>
    saturar (saturar (v * n.toNat) + (recortar n d).toNat)) 0

/-- The loop of `decode_grupos` over the groups, the first of them group `g`. -/
def decodeGruposDesde (n : UInt32) :
    List (List (Option UInt32)) → Nat → List UInt8 → List Nat → List UInt8 × List Nat
  | [], _, out, corruptos => (out, corruptos)
  | grupo :: grupos, g, out, corruptos =>
    if grupo.length < grupoDigitos then (out, corruptos ++ [g])
    else if grupo.any Option.isNone then
      decodeGruposDesde n grupos (g + 1) (out ++ List.replicate grupoBytes 0) (corruptos ++ [g])
    else
      let v := valorDeGrupo n grupo
      if 0x00FFFFFF < v then
        decodeGruposDesde n grupos (g + 1) (out ++ List.replicate grupoBytes 0) (corruptos ++ [g])
      else
        decodeGruposDesde n grupos (g + 1)
          (out ++ [UInt8.ofNat (v >>> 16), UInt8.ofNat (v >>> 8), UInt8.ofNat v]) corruptos

def decodeGrupos (indices : List (Option UInt32)) (n : UInt32) : List UInt8 × List Nat :=
  decodeGruposDesde n (chunks grupoDigitos indices) 0 [] []

/-- A complete group that is reported. -/
def corrupto (n : UInt32) (grupo : List (Option UInt32)) : Bool :=
  grupo.any Option.isNone || Nat.blt 0x00FFFFFF (valorDeGrupo n grupo)

/-- The three bytes of a complete group. -/
def bytesDeGrupo (n : UInt32) (grupo : List (Option UInt32)) : List UInt8 :=
  if corrupto n grupo then List.replicate grupoBytes 0 else be grupoBytes (valorDeGrupo n grupo)

variable {n : UInt32}

theorem length_bytesDeGrupo (grupo : List (Option UInt32)) :
    (bytesDeGrupo n grupo).length = 3 := by
  unfold bytesDeGrupo
  split
  next => rfl
  next => exact length_be 3 _

theorem be_tres (v : Nat) :
    be grupoBytes v = [UInt8.ofNat (v >>> 16), UInt8.ofNat (v >>> 8), UInt8.ofNat v] := by
  rw [Nat.shiftRight_eq_div_pow, Nat.shiftRight_eq_div_pow]
  show [UInt8.ofNat (v / 256 / 256), UInt8.ofNat (v / 256), UInt8.ofNat v] = _
  rw [Nat.div_div_eq_div_mul]

/-- One group, incomplete or not. -/
theorem decodeGruposDesde_cons (grupo : List (Option UInt32))
    (grupos : List (List (Option UInt32))) (g : Nat) (out : List UInt8) (corruptos : List Nat) :
    decodeGruposDesde n (grupo :: grupos) g out corruptos =
      if grupo.length < grupoDigitos then (out, corruptos ++ [g])
      else decodeGruposDesde n grupos (g + 1) (out ++ bytesDeGrupo n grupo)
        (if corrupto n grupo then corruptos ++ [g] else corruptos) := by
  rw [decodeGruposDesde, bytesDeGrupo, corrupto]
  by_cases hl : grupo.length < grupoDigitos
  · rw [if_pos hl, if_pos hl]
  · rw [if_neg hl, if_neg hl]
    by_cases hn : grupo.any Option.isNone = true
    · rw [if_pos hn, hn]
      rfl
    · have hb := Bool.eq_false_iff.mpr hn
      rw [if_neg hn, hb]
      simp only [Bool.false_or]
      by_cases hv : 0x00FFFFFF < valorDeGrupo n grupo
      · have hv' : Nat.blt 0x00FFFFFF (valorDeGrupo n grupo) = true := Nat.blt_eq.mpr hv
        rw [if_pos hv, hv']
        rfl
      · have hv' : Nat.blt 0x00FFFFFF (valorDeGrupo n grupo) = false :=
          Bool.eq_false_iff.mpr fun h => hv (Nat.blt_eq.mp h)
        rw [if_neg hv, hv', be_tres]
        rfl

theorem decodeGruposDesde_append (grupos : List (List (Option UInt32))) (g : Nat)
    (out : List UInt8) (corruptos : List Nat) :
    decodeGruposDesde n grupos g out corruptos =
      (out ++ (decodeGruposDesde n grupos g [] []).1,
        corruptos ++ (decodeGruposDesde n grupos g [] []).2) := by
  induction grupos generalizing g out corruptos with
  | nil => simp [decodeGruposDesde]
  | cons grupo grupos ih =>
    rw [decodeGruposDesde_cons, decodeGruposDesde_cons]
    split
    next => simp
    next =>
      rw [ih, ih (g + 1) ([] ++ _)]
      split
      next => simp
      next => simp

section Desde

variable {g : Nat} {ds : List (Option UInt32)}

/-- What the loop gives for a list of digits, group by group. -/
def desde (n : UInt32) (g : Nat) (ds : List (Option UInt32)) : List UInt8 × List Nat :=
  decodeGruposDesde n (chunks grupoDigitos ds) g [] []

theorem desde_nil : desde n g [] = ([], []) := by
  rw [desde, chunks_nil, decodeGruposDesde]

theorem desde_corta (h0 : ds ≠ []) (h : ds.length < 4) : desde n g ds = ([], [g]) := by
  have ht : (ds.take grupoDigitos).length < grupoDigitos := by
    rw [List.length_take, grupoDigitos]
    omega
  rw [desde, chunks_of_ne_nil (by decide) h0, decodeGruposDesde_cons, if_pos ht]
  rfl

theorem desde_grupo (h : 4 ≤ ds.length) :
    desde n g ds = (bytesDeGrupo n (ds.take 4) ++ (desde n (g + 1) (ds.drop 4)).1,
      (if corrupto n (ds.take 4) then [g] else []) ++ (desde n (g + 1) (ds.drop 4)).2) := by
  have h0 : ds ≠ [] := List.ne_nil_of_length_pos (by omega)
  have ht : ¬(ds.take grupoDigitos).length < grupoDigitos := by
    rw [List.length_take, grupoDigitos]
    omega
  rw [desde, chunks_of_ne_nil (by decide) h0, decodeGruposDesde_cons, if_neg ht,
    decodeGruposDesde_append]
  rfl

/-- Byte `j` comes from group `j / 3` alone. -/
theorem desde_byte (g j : Nat) (ds : List (Option UInt32)) :
    (desde n g ds).1[j]? = if 4 * (j / 3) + 4 ≤ ds.length then
      (bytesDeGrupo n ((ds.drop (4 * (j / 3))).take 4))[j % 3]? else none := by
  induction hl : ds.length using Nat.strongRecOn generalizing ds g j with
  | ind m ih =>
    subst hl
    by_cases h4 : 4 ≤ ds.length
    · rw [desde_grupo h4]
      by_cases hj : j < 3
      · have hq : j / 3 = 0 := by omega
        have hr : j % 3 = j := by omega
        rw [List.getElem?_append_left (by rwa [length_bytesDeGrupo]), hq, hr, if_pos h4]
        rfl
      · have hq : 4 * (j / 3) = 4 + 4 * ((j - 3) / 3) := by omega
        have hr : j % 3 = (j - 3) % 3 := by omega
        rw [List.getElem?_append_right (by rw [length_bytesDeGrupo]; omega), length_bytesDeGrupo,
          ih (ds.drop 4).length (by rw [List.length_drop]; omega) (g + 1) (j - 3) (ds.drop 4) rfl,
          hr, hq, List.drop_drop, List.length_drop]
        congr 1
        apply propext
        omega
    · rw [if_neg (by omega)]
      by_cases h0 : ds = []
      · rw [h0, desde_nil]
        rfl
      · rw [desde_corta h0 (by omega)]
        rfl

/-- The groups reported are the complete ones that are corrupt and one that is not complete. -/
theorem mem_desde {k : Nat} (g : Nat) (ds : List (Option UInt32)) :
    k ∈ (desde n g ds).2 ↔ ∃ i, k = g + i ∧ 4 * i < ds.length ∧
      (ds.length < 4 * i + 4 ∨ corrupto n ((ds.drop (4 * i)).take 4) = true) := by
  induction hl : ds.length using Nat.strongRecOn generalizing ds g with
  | ind m ih =>
    subst hl
    have hm : ∀ i, 4 * (i + 1) = 4 + 4 * i := fun i => by omega
    by_cases h4 : 4 ≤ ds.length
    · have hd : (ds.drop 4).length = ds.length - 4 := List.length_drop
      rw [desde_grupo h4, List.mem_append,
        ih (ds.drop 4).length (by rw [hd]; omega) (g + 1) (ds.drop 4) rfl, hd]
      constructor
      · rintro (hk | ⟨i, rfl, hi, hc⟩)
        · split at hk
          next hc =>
            refine ⟨0, List.mem_singleton.mp hk, by omega, .inr ?_⟩
            exact hc
          next => exact absurd hk List.not_mem_nil
        · rw [List.drop_drop, ← hm] at hc
          exact ⟨i + 1, by omega, by omega, hc.imp_left fun hc => by omega⟩
      · rintro ⟨i, rfl, hi, hc⟩
        cases i with
        | zero =>
          have hc' : corrupto n (ds.take 4) = true := hc.resolve_left (by omega)
          rw [hc']
          exact .inl (List.mem_singleton.mpr rfl)
        | succ i =>
          refine .inr ⟨i, by omega, by omega, ?_⟩
          rw [List.drop_drop, ← hm]
          exact hc.imp_left fun hc => by omega
    · by_cases h0 : ds = []
      · subst h0
        rw [desde_nil]
        simp
      · have hpos := List.length_pos_iff.mpr h0
        rw [desde_corta h0 (by omega), List.mem_singleton]
        constructor
        · rintro rfl
          exact ⟨0, rfl, by omega, .inl (by omega)⟩
        · rintro ⟨i, rfl, hi, -⟩
          omega

end Desde

theorem saturar_paso {V b x : Nat} (hb : 1 ≤ b) :
    saturar (saturar (saturar V * b) + x) = saturar (V * b + x) := by
  have hV : V ≤ V * b := Nat.le_mul_of_pos_right V hb
  have hM : 2 ^ 64 - 1 ≤ (2 ^ 64 - 1) * b := Nat.le_mul_of_pos_right _ hb
  by_cases h : V ≤ 2 ^ 64 - 1
  · have hs : saturar V = V := Nat.min_eq_left h
    rw [hs, saturar, saturar, saturar]
    omega
  · have hs : saturar V = 2 ^ 64 - 1 := Nat.min_eq_right (by omega)
    rw [hs, saturar, saturar, saturar]
    omega

theorem saturar_foldl {α : Type} {b : Nat} (hb : 1 ≤ b) (f : α → Nat) (ds : List α) (V : Nat) :
    ds.foldl (fun v d => saturar (saturar (v * b) + f d)) (saturar V) =
      saturar (ds.foldl (fun v d => v * b + f d) V) := by
  induction ds generalizing V with
  | nil => rfl
  | cons d ds ih => rw [List.foldl_cons, List.foldl_cons, saturar_paso hb, ih]

/-- The saturated value is too large exactly when the value is. -/
theorem valorDeGrupo_eq (hn : 1 ≤ n.toNat) (grupo : List (Option UInt32)) :
    valorDeGrupo n grupo = saturar (grupo.reduceOption.foldl
      (fun v d => v * n.toNat + (recortar n d).toNat) 0) :=
  saturar_foldl hn (fun d => (recortar n d).toNat) grupo.reduceOption 0

theorem toNat_recortar (hn : 1 ≤ n.toNat) (d : UInt32) :
    (recortar n d).toNat = min d.toNat (n.toNat - 1) := by
  have h1 : (n - 1).toNat = n.toNat - 1 :=
    UInt32.toNat_sub_of_le n 1 (UInt32.le_iff_toNat_le.mpr hn)
  by_cases h : d ≤ n - 1
  · have hle := UInt32.le_iff_toNat_le.mp h
    rw [recortar, if_pos h]
    omega
  · have hlt := UInt32.lt_iff_toNat_lt.mp (UInt32.not_le.mp h)
    rw [recortar, if_neg h]
    omega

section Ida

theorem valorDeTrozo_eq {trozo : List UInt8} (h0 : trozo ≠ []) (h : trozo.length ≤ 3) :
    valorDeTrozo trozo = ofBe (trozo ++ List.replicate (3 - trozo.length) 0) := by
  have hp (v : Nat) (b : UInt8) : v <<< 8 ||| b.toNat = v * 256 + b.toNat := by
    rw [← Nat.shiftLeft_add_eq_or_of_lt (i := 8) b.toNat_lt, Nat.shiftLeft_eq]
  have hv : valorDeTrozo trozo = ((0 * 256 + (trozo.getD 0 0).toNat) * 256 +
      (trozo.getD 1 0).toNat) * 256 + (trozo.getD 2 0).toNat := by
    have hr : List.range grupoBytes = [0, 1, 2] := rfl
    rw [valorDeTrozo, hr]
    simp only [List.foldl_cons, List.foldl_nil, hp]
  rw [hv]
  rcases trozo with _ | ⟨a, _ | ⟨b, _ | ⟨c, _ | ⟨d, resto⟩⟩⟩⟩
  · exact absurd rfl h0
  · rfl
  · rfl
  · rfl
  · simp only [List.length_cons] at h
    omega

/-- The digits of a value write it, as long as they are enough. -/
theorem foldl_digitosDeGrupo {b : Nat} (hb : 1 ≤ b) (hle : b ≤ 2 ^ 32) (k v : Nat) :
    (digitosDeGrupo b k v).foldl (fun w d => w * b + min d.toNat (b - 1)) 0 = v % b ^ k := by
  induction k generalizing v with
  | zero => rw [digitosDeGrupo, List.foldl_nil, Nat.pow_zero, Nat.mod_one]
  | succ k ih =>
    have hd := Nat.mod_lt v hb
    have hm : (UInt32.ofNat (v % b)).toNat = v % b := by
      rw [UInt32.toNat_ofNat']
      omega
    have hp : v % b ^ (k + 1) = v % b + b * (v / b % b ^ k) := by
      rw [Nat.pow_succ', Nat.mod_mul]
    rw [digitosDeGrupo, List.foldl_append, ih, List.foldl_cons, List.foldl_nil, hm, hp,
      Nat.min_eq_left (by omega), Nat.mul_comm b, Nat.add_comm]

theorem length_digitosDeGrupo (b k v : Nat) : (digitosDeGrupo b k v).length = k := by
  induction k generalizing v with
  | zero => rfl
  | succ k ih => rw [digitosDeGrupo, List.length_append, ih, List.length_singleton]

theorem reduceOption_map_some {α : Type} (xs : List α) : (xs.map some).reduceOption = xs := by
  induction xs with
  | nil => rfl
  | cons x xs ih => rw [List.map_cons, List.reduceOption_cons_of_some, ih]

/-- A group that the encoder wrote is read as its bytes. -/
theorem grupo_escrito {trozo : List UInt8} (hn : 64 ≤ n.toNat) (h0 : trozo ≠ [])
    (h : trozo.length ≤ 3) :
    corrupto n ((digitosDeGrupo n.toNat grupoDigitos (valorDeTrozo trozo)).map some) = false ∧
      bytesDeGrupo n ((digitosDeGrupo n.toNat grupoDigitos (valorDeTrozo trozo)).map some) =
        trozo ++ List.replicate (3 - trozo.length) 0 := by
  have hl : (trozo ++ List.replicate (3 - trozo.length) 0).length = 3 := by
    rw [List.length_append, List.length_replicate]
    omega
  have hlt := ofBe_lt (trozo ++ List.replicate (3 - trozo.length) 0)
  rw [hl] at hlt
  have hpow : 64 ^ 4 ≤ n.toNat ^ 4 := Nat.pow_le_pow_left hn 4
  have hb := n.toNat_lt
  have hv : valorDeGrupo n ((digitosDeGrupo n.toNat grupoDigitos (valorDeTrozo trozo)).map some) =
      ofBe (trozo ++ List.replicate (3 - trozo.length) 0) := by
    have hf := foldl_digitosDeGrupo (b := n.toNat) (by omega) (by omega) 4 (valorDeTrozo trozo)
    rw [valorDeGrupo_eq (by omega), reduceOption_map_some]
    simp only [toNat_recortar (n := n) (by omega)]
    rw [grupoDigitos, hf, valorDeTrozo_eq h0 h, Nat.mod_eq_of_lt (by omega), saturar]
    omega
  have hc : corrupto n ((digitosDeGrupo n.toNat grupoDigitos (valorDeTrozo trozo)).map some) =
      false := by
    have ha : (((digitosDeGrupo n.toNat grupoDigitos (valorDeTrozo trozo)).map some).any
        Option.isNone) = false := by
      rw [List.any_map]
      exact List.any_eq_false.mpr fun d _ => Bool.false_ne_true
    have hbl : Nat.blt 0x00FFFFFF (ofBe (trozo ++ List.replicate (3 - trozo.length) 0)) = false :=
      Bool.eq_false_iff.mpr fun hx => by
        have := Nat.blt_eq.mp hx
        omega
    rw [corrupto, ha, hv, hbl]
    rfl
  refine ⟨hc, ?_⟩
  have hbe := be_ofBe (trozo ++ List.replicate (3 - trozo.length) 0)
  rw [hl] at hbe
  rw [bytesDeGrupo, hc, if_neg Bool.false_ne_true, hv]
  exact hbe

theorem desde_escrito (hn : 64 ≤ n.toNat) (g : Nat) (data : List UInt8) :
    desde n g ((encodeGrupos data n).map some) =
      (data ++ List.replicate ((3 - data.length % 3) % 3) 0, []) := by
  induction data using chunks.induct 3 generalizing g with
  | case1 xs h ih =>
    have hpos := List.length_pos_iff.mpr h.2
    have ht : (xs.take 3).length = min 3 xs.length := List.length_take
    have ht0 : xs.take 3 ≠ [] := List.ne_nil_of_length_pos (by omega)
    obtain ⟨hc, hb⟩ := grupo_escrito hn ht0 (by omega)
    have hx : encodeGrupos xs n = digitosDeGrupo n.toNat grupoDigitos (valorDeTrozo (xs.take 3)) ++
        encodeGrupos (xs.drop 3) n := by
      rw [encodeGrupos, grupoBytes, chunks_of_ne_nil h.1 h.2, List.flatMap_cons]
      rfl
    have hl4 : ((digitosDeGrupo n.toNat grupoDigitos (valorDeTrozo (xs.take 3))).map some).length =
        4 := by
      rw [List.length_map, length_digitosDeGrupo, grupoDigitos]
    rw [hx, List.map_append, desde_grupo (by rw [List.length_append]; omega),
      List.take_left' hl4, List.drop_left' hl4, ih, hc, hb]
    by_cases hf : xs.length ≤ 3
    · have hk : 3 - xs.length = (3 - xs.length % 3) % 3 := by omega
      rw [List.take_of_length_le hf, List.drop_of_length_le hf, hk]
      simp
    · have hk : (3 - (xs.drop 3).length % 3) % 3 = (3 - xs.length % 3) % 3 := by
        rw [List.length_drop]
        omega
      have ht3 : (xs.take 3).length = 3 := by omega
      rw [hk, ht3, Nat.sub_self, List.replicate_zero, List.append_nil, ← List.append_assoc,
        List.take_append_drop]
      rfl
  | case2 xs h =>
    have hnil : xs = [] := by
      by_contra hne
      exact h ⟨by decide, hne⟩
    rw [hnil, encodeGrupos, chunks_nil]
    exact desde_nil

end Ida

/-- The four digits of group `g`, or fewer at the end. -/
def grupoDe (ds : List (Option UInt32)) (g : Nat) : List (Option UInt32) := (ds.drop (4 * g)).take 4

theorem grupoDe_eq {ds ds' : List (Option UInt32)} {g : Nat}
    (h : ∀ i, i / 4 = g → ds'[i]? = ds[i]?) : grupoDe ds' g = grupoDe ds g := by
  apply List.ext_getElem?
  intro r
  rw [grupoDe, grupoDe, List.getElem?_take, List.getElem?_take]
  split
  next hr =>
    rw [List.getElem?_drop, List.getElem?_drop]
    apply h
    omega
  next => rfl

/-- The grouped code gives the data back, and a damaged group damages its three bytes only. -/
theorem grupos_exactos (n : UInt32) (hn : 64 ≤ n) :
    (∀ data : List UInt8, decodeGrupos ((encodeGrupos data n).map some) n =
      (data ++ List.replicate ((3 - data.length % 3) % 3) 0, [])) ∧
    ∀ (ds ds' : List (Option UInt32)) (g : Nat), ds'.length = ds.length →
      (∀ i, i / 4 ≠ g → ds'[i]? = ds[i]?) →
        ∀ j, j / 3 ≠ g → (decodeGrupos ds' n).1[j]? = (decodeGrupos ds n).1[j]? := by
  have h64 : 64 ≤ n.toNat := UInt32.le_iff_toNat_le.mp hn
  refine ⟨desde_escrito h64 0, ?_⟩
  intro ds ds' g hl hd j hj
  have hg : grupoDe ds' (j / 3) = grupoDe ds (j / 3) := by
    apply grupoDe_eq
    intro i hi
    exact hd i (by omega)
  rw [grupoDe, grupoDe] at hg
  have hb := desde_byte (n := n) 0 j ds
  have hb' := desde_byte (n := n) 0 j ds'
  rw [hl, hg] at hb'
  exact hb'.trans hb.symm

theorem grupos_exactos_94 :
    decodeGrupos ((encodeGrupos [1, 2, 3, 4] 94).map some) 94 = ([1, 2, 3, 4, 0, 0], []) ∧
      (decodeGrupos [some 0, some 0, some 0, none, some 0, some 0, some 1, some 2] 94).1[5]? =
        (decodeGrupos [some 0, some 0, some 0, some 5, some 0, some 0, some 1, some 2]
          94).1[5]? := by
  have hz := grupos_exactos 94 (by decide)
  refine ⟨hz.1 [1, 2, 3, 4], ?_⟩
  apply hz.2 [some 0, some 0, some 0, some 5, some 0, some 0, some 1, some 2]
    [some 0, some 0, some 0, none, some 0, some 0, some 1, some 2] 0 rfl ?_ 5 (by decide)
  intro i hi
  obtain ⟨k, rfl⟩ : ∃ k, i = k + 4 := ⟨i - 4, by omega⟩
  rfl

end Quipu.Codec
