import Quipu.Honey

namespace Quipu

namespace Honey

variable {n : Nat} {M K ε α : Type} {kdf : Kdf M K}

theorem indice_ok {xs : List α} {i : Nat} (h : i < xs.length) :
    (indice xs i : Res ε α) = .ok xs[i] := by
  simp [indice, h]

theorem length_chunksExact (k : Nat) (xs : List α) :
    (chunksExact k xs).length = xs.length / k := by
  simp [chunksExact]

theorem length_digitos {size : UInt16} {len : Nat} {buf : List UInt8}
    (h : buf.length = len * streamBytesPerToken) : (digitos size buf).length = len := by
  rw [digitos, List.length_map, length_chunksExact, h]
  exact Nat.mul_div_cancel len (by decide)

theorem digitos_lt {size : UInt16} (hs : 0 < size.toNat) {buf : List UInt8} {k : UInt16}
    (hk : k ∈ digitos size buf) : k.toNat < size.toNat := by
  obtain ⟨chunk, _, rfl⟩ := List.mem_map.mp hk
  have hm := Nat.mod_lt (ofBe chunk) hs
  have hlt := size.toNat_lt
  rw [UInt16.toNat_ofNat']
  omega

def flujoDe (kdf : Kdf M K) (h : Cabecera) (passphrase : String) (pepper : List UInt8) :
    List UInt16 :=
  digitos h.size (kdf.expand (kdf.argon2id (utf8 (normalizar kdf passphrase) ++ pepper)
    h.salt.toList h.params) honeyInfo (h.len.toNat * streamBytesPerToken)).toList

theorem length_flujoDe (kdf : Kdf M K) (h : Cabecera) (passphrase : String) (pepper : List UInt8) :
    (flujoDe kdf h passphrase pepper).length = h.len.toNat :=
  length_digitos (List.Vector.toList_length _)

theorem keystreamDigits_ok {h : Cabecera} (ha : kdf.acepta h.params = true)
    (hl : h.len.toNat ≤ maxTokens) (passphrase : String) (pepper : List UInt8) :
    keystreamDigits kdf passphrase h.salt pepper h.params h.size h.len.toNat =
      .ok (flujoDe kdf h passphrase pepper) := by
  unfold maxTokens at hl
  have hn : h.len.toNat * streamBytesPerToken ≤ 8160 := by
    unfold streamBytesPerToken
    omega
  rw [keystreamDigits, deriveMasterKey_ok ha, Res.ok_bind, deriveStream_ok hn]
  rfl

/-- What `decrypt` asks of a header. -/
structure Cabecera.Admisible (h : Cabecera) : Prop where
  alfabeto : 2 ≤ h.size.toNat
  largo : 0 < h.len.toNat ∧ h.len.toNat ≤ maxTokens
  sano : h.params.isSane = true

theorem leerCabecera_ok {blob : List UInt8} {h : Cabecera} (hb : leerCabecera blob = .ok h) :
    h.Admisible ∧ headerLen + h.len.toNat * 2 ≤ blob.length ∧
      u16OfBe ((blob.drop 33).take 2) = h.size := by
  simp only [leerCabecera, Res.bind_ok, rechazarSi_eq_ok, Res.pure_eq_ok] at hb
  obtain ⟨_, _, _, _, _, _, _, _, _, _, _, _, _, _, _, _, size, hs, len, _, _, h₁, _, h₂, _, h₃,
    _, h₄, rfl⟩ := hb
  rw [not_or, Nat.not_lt] at h₂
  refine ⟨⟨?_, ⟨Nat.pos_of_ne_zero h₂.1, h₂.2⟩, by simpa using h₃⟩, Nat.not_lt.mp h₄, ?_⟩
  · exact Nat.not_lt.mp h₁
  · rw [← (campo_eq_ok.mp hs).2]

/-- A header is read, or refused with an error that the blob alone decides. -/
theorem leerCabecera_sinPanico (blob : List UInt8) : Res.SinPanico (leerCabecera blob) := by
  have h39 : headerLen = 39 := rfl
  unfold leerCabecera leerU32
  rw [rechazarSi_bind]
  refine Res.sinPanico_ite fun hl => ?_
  rw [octeto_ok (by omega), campo_ok (by omega), campo_ok (by omega), campo_ok (by omega),
    campo_ok (by omega), campo_ok (by omega), campo_ok (by omega)]
  simp only [rechazarSi_bind, Res.ok_bind]
  exact Res.sinPanico_ite fun _ => Res.sinPanico_ite fun _ => Res.sinPanico_ite fun _ =>
    Res.sinPanico_ite fun _ => Res.sinPanico_ite fun _ => Res.sinPanico_ite fun _ =>
    Res.sinPanico_ok _

/-- The word of a token and the token of a word. -/
def cerrada (a k t : UInt16) : UInt16 := UInt16.ofNat ((t.toNat + k.toNat) % a.toNat)

def abierta (a k c : UInt16) : UInt16 := UInt16.ofNat ((c.toNat + a.toNat - k.toNat) % a.toNat)

theorem abierta_lt {a : UInt16} (ha : 0 < a.toNat) (k c : UInt16) :
    (abierta a k c).toNat < a.toNat := by
  have hm := Nat.mod_lt (c.toNat + a.toNat - k.toNat) ha
  have hlt := a.toNat_lt
  rw [abierta, UInt16.toNat_ofNat']
  omega

theorem abierta_cerrada {a k t : UInt16} (ht : t.toNat < a.toNat) (hk : k.toNat < a.toNat) :
    abierta a k (cerrada a k t) = t := by
  have hlt := a.toNat_lt
  have hc : (cerrada a k t).toNat = (t.toNat + k.toNat) % a.toNat := by
    have hm := Nat.mod_lt (t.toNat + k.toNat) (Nat.zero_lt_of_lt ht)
    rw [cerrada, UInt16.toNat_ofNat']
    omega
  apply UInt16.toNat_inj.mp
  rw [abierta, hc, UInt16.toNat_ofNat', Nat.mod_eq_of_lt (a := _ % _)
    ((Nat.mod_lt _ (Nat.zero_lt_of_lt ht)).trans hlt)]
  by_cases hs : t.toNat + k.toNat < a.toNat
  · rw [Nat.mod_eq_of_lt hs, show t.toNat + k.toNat + a.toNat - k.toNat = t.toNat + a.toNat by
      omega, Nat.add_mod_right, Nat.mod_eq_of_lt ht]
  · have hmod : (t.toNat + k.toNat) % a.toNat = t.toNat + k.toNat - a.toNat := by
      rw [Nat.mod_eq_sub_mod (Nat.not_lt.mp hs), Nat.mod_eq_of_lt (by omega)]
    rw [hmod, show t.toNat + k.toNat - a.toNat + a.toNat - k.toNat = t.toNat by omega,
      Nat.mod_eq_of_lt ht]

def palabra (blob : List UInt8) (i : Nat) : UInt16 :=
  u16OfBe ((blob.drop (headerLen + i * 2)).take 2)

def tokensDe (blob : List UInt8) (a : UInt16) (ks : List UInt16) : List UInt16 :=
  ks.mapIdx fun i k => abierta a k (palabra blob i)

theorem length_tokensDe {blob : List UInt8} {a : UInt16} {ks : List UInt16} :
    (tokensDe blob a ks).length = ks.length := List.length_mapIdx

theorem tokensDe_lt {blob : List UInt8} {a t : UInt16} {ks : List UInt16} (ha : 0 < a.toNat)
    (ht : t ∈ tokensDe blob a ks) : t < a := by
  obtain ⟨i, _, rfl⟩ := List.mem_mapIdx.mp ht
  exact abierta_lt ha _ _

theorem abrirToken_ok {blob : List UInt8} {a : UInt16} {ks : List UInt16} {i : Nat}
    (hi : i < ks.length) (hb : headerLen + ks.length * 2 ≤ blob.length)
    (hk : ∀ k ∈ ks, k.toNat < a.toNat) :
    abrirToken blob a ks i = .ok (abierta a ks[i] (palabra blob i)) := by
  have hki := hk _ (List.getElem_mem hi)
  have hlen : ((blob.drop (headerLen + i * 2)).take 2).length = 2 := by
    rw [List.length_take, List.length_drop]
    omega
  have hc : (palabra blob i).toNat = ofBe ((blob.drop (headerLen + i * 2)).take 2) := by
    have hlt := ofBe_lt ((blob.drop (headerLen + i * 2)).take 2)
    rw [hlen] at hlt
    rw [palabra, u16OfBe, UInt16.toNat_ofNat']
    omega
  rw [abrirToken, campo_ok (by omega), Res.ok_bind, indice_ok hi, Res.ok_bind, restar,
    if_pos (by omega), Res.ok_bind, Arr.toList_of, ← hc]
  rfl

theorem mapM_abrirToken {blob : List UInt8} {a : UInt16} {ks : List UInt16}
    (hb : headerLen + ks.length * 2 ≤ blob.length) (hk : ∀ k ∈ ks, k.toNat < a.toNat) :
    (List.range ks.length).mapM (abrirToken blob a ks) = .ok (tokensDe blob a ks) := by
  rw [Res.mapM_of_ok (g := fun i => abierta a (ks.getD i 0) (palabra blob i))]
  · refine congrArg Except.ok (List.ext_getElem (by simp [tokensDe]) fun i h₁ h₂ => ?_)
    have hi : i < ks.length := by simpa using h₁
    simp [tokensDe, hi]
  · intro i hi
    have hi := List.mem_range.mp hi
    rw [abrirToken_ok hi hb hk, List.getD_eq_getElem?_getD, List.getElem?_eq_getElem hi]
    rfl

/-- Once its header is read, a container opens to its tokens under every key. -/
theorem decrypt_eq {blob : List UInt8} {h : Cabecera} (hb : leerCabecera blob = .ok h)
    (ha : kdf.acepta h.params = true) (passphrase : String) (pepper : List UInt8) :
    decrypt kdf blob passphrase pepper =
      .ok (tokensDe blob h.size (flujoDe kdf h passphrase pepper)) := by
  obtain ⟨hadm, hlen, _⟩ := leerCabecera_ok hb
  have hl := length_flujoDe kdf h passphrase pepper
  rw [decrypt, hb, Res.ok_bind, keystreamDigits_ok ha hadm.largo.2, Res.ok_bind, ← hl]
  exact mapM_abrirToken (hl.symm ▸ hlen)
    fun k hk => digitos_lt (Nat.zero_lt_of_lt hadm.alfabeto) hk

end Honey

end Quipu
