import Quipu.BigEndian
import Quipu.Fallo

namespace Quipu

namespace Container

/-- The bytes of `QUIP`. -/
def magic : List UInt8 := [0x51, 0x55, 0x49, 0x50]

def version : UInt8 := 1

def bytesFijos : Nat := 28

def inicioSalt : Nat := 16

inductive ContainerError where
  | tooShort
  | badMagic
  | unsupportedVersion (version : UInt8)
  | flagsDesconocidos (flags : UInt8)
  deriving DecidableEq, Repr

/-- The header of a profile with a salt of `s` bytes and a nonce of `n`. -/
structure Header (s n : Nat) where
  version : UInt8
  flags : UInt8
  codebookId : UInt16
  codebookHashPrefix : Arr 8
  salt : Arr s
  nonce : Arr n
  kdfMemKib : UInt32
  kdfIterations : UInt32
  kdfParallelism : UInt32
  deriving DecidableEq

variable {s n : Nat}

def Header.size (s n : Nat) : Nat := bytesFijos + s + n

def Header.toBytes (h : Header s n) : List UInt8 :=
  magic ++ [h.version] ++ [h.flags] ++ u16Be h.codebookId ++ h.codebookHashPrefix.toList ++
    h.salt.toList ++ h.nonce.toList ++ u32Be h.kdfMemKib ++ u32Be h.kdfIterations ++
    u32Be h.kdfParallelism

def serialize (h : Header s n) (ciphertext : List UInt8) : List UInt8 := h.toBytes ++ ciphertext

/-- The part of `parse` after its `split_at`, on a head of the size of a header. -/
def leerCabecera (s n : Nat) (head rest : List UInt8) :
    Res ContainerError (Header s n × List UInt8) := do
  let magia ← tramo head 0 4
  rechazarSi (magia ≠ magic) .badMagic
  let v ← octeto head 4
  rechazarSi (v ≠ version) (.unsupportedVersion v)
  let flags ← octeto head 5
  rechazarSi (flags ≠ 0) (.flagsDesconocidos flags)
  let finSalt := inicioSalt + s
  let finNonce := finSalt + n
  let codebookId ← campo head 6 2
  let codebookHashPrefix ← campo head 8 8
  let salt ← campo head inicioSalt s
  let nonce ← campo head finSalt n
  let kdfMemKib ← leerU32 head finNonce
  let kdfIterations ← leerU32 head (finNonce + 4)
  let kdfParallelism ← leerU32 head (finNonce + 8)
  pure (⟨v, flags, u16OfBe codebookId.toList, codebookHashPrefix, salt, nonce, kdfMemKib,
    kdfIterations, kdfParallelism⟩, rest)

def parse (s n : Nat) (blob : List UInt8) : Res ContainerError (Header s n × List UInt8) := do
  rechazarSi (blob.length < Header.size s n) .tooShort
  let head ← tramo blob 0 (Header.size s n)
  let rest ← tramo blob (Header.size s n) blob.length
  leerCabecera s n head rest

@[simp] theorem Header.length_toBytes (h : Header s n) : h.toBytes.length = Header.size s n := by
  simp [Header.toBytes, Header.size, magic, bytesFijos]
  omega

theorem parse_of_head {b head rest : List UInt8} (hb : b = head ++ rest)
    (hl : head.length = Header.size s n) :
    parse s n b = (do
      rechazarSi (head.take 4 ≠ magic) .badMagic
      let v ← octeto head 4
      rechazarSi (v ≠ version) (.unsupportedVersion v)
      let flags ← octeto head 5
      rechazarSi (flags ≠ 0) (.flagsDesconocidos flags)
      let codebookId ← campo head 6 2
      let codebookHashPrefix ← campo head 8 8
      let salt ← campo head inicioSalt s
      let nonce ← campo head (inicioSalt + s) n
      let kdfMemKib ← leerU32 head (inicioSalt + s + n)
      let kdfIterations ← leerU32 head (inicioSalt + s + n + 4)
      let kdfParallelism ← leerU32 head (inicioSalt + s + n + 8)
      pure (⟨v, flags, u16OfBe codebookId.toList, codebookHashPrefix, salt, nonce, kdfMemKib,
        kdfIterations, kdfParallelism⟩, rest)) := by
  subst hb
  have hle : Header.size s n ≤ (head ++ rest).length := by
    rw [List.length_append]
    omega
  have h4 : 4 ≤ head.length := by
    rw [hl, Header.size, bytesFijos]
    omega
  rw [parse, rechazarSi_of_not _ (Nat.not_lt.mpr hle), Res.ok_bind, tramo_ok (Nat.zero_le _) hle,
    Res.ok_bind, tramo_ok hle (Nat.le_refl _), Res.ok_bind, List.take_length, List.drop_zero,
    List.take_left' hl, List.drop_left' hl, leerCabecera, tramo_ok (Nat.zero_le 4) h4, Res.ok_bind,
    List.drop_zero]

/-- A header of this version and without flags is read back from the blob that carries it. -/
theorem parse_serialize {h : Header s n} (hv : h.version = version) (hf : h.flags = 0)
    (c : List UInt8) : parse s n (serialize h c) = .ok (h, c) := by
  obtain ⟨v, f, id, huella, salt, nonce, mem, iter, par⟩ := h
  subst hv hf
  rw [serialize, parse_of_head rfl (Header.length_toBytes _)]
  generalize hb : Header.toBytes ⟨version, 0, id, huella, salt, nonce, mem, iter, par⟩ = b
  simp only [Header.toBytes, List.append_assoc] at hb
  rw [← List.append_nil (u32Be par)] at hb
  have hmagic : b.take 4 = magic := by
    rw [← hb]
    rfl
  have r : Sigue b 4 (version :: 0 :: (u16Be id ++ (huella.toList ++ (salt.toList ++
      (nonce.toList ++ (u32Be mem ++ (u32Be iter ++ (u32Be par ++ [])))))))) :=
    ⟨magic, hb.symm, rfl⟩
  obtain ⟨h₀, r⟩ := r.octeto (ε := ContainerError)
  obtain ⟨h₁, r⟩ := r.octeto (ε := ContainerError)
  obtain ⟨a, h₂, ha, r⟩ := r.campoU16 (ε := ContainerError)
  obtain ⟨h₃, r⟩ := r.campo (ε := ContainerError)
  obtain ⟨h₄, r⟩ := r.campo (ε := ContainerError)
  obtain ⟨h₅, r⟩ := r.campo (ε := ContainerError)
  obtain ⟨h₆, r⟩ := r.leerU32 (ε := ContainerError)
  obtain ⟨h₇, r⟩ := r.leerU32 (ε := ContainerError)
  obtain ⟨h₈, -⟩ := r.leerU32 (ε := ContainerError)
  simp only [Nat.reduceAdd] at h₁ h₂ h₃ h₄ h₅ h₆ h₇ h₈
  simp only [hmagic, h₀, h₁, h₂, h₃, inicioSalt, h₄, h₅, h₆, h₇, h₈, ha, Res.ok_bind]
  rfl

/-- What `parse` accepts is what `serialize` writes. -/
theorem parse_eq_ok {b : List UInt8} {h : Header s n} {c : List UInt8} :
    parse s n b = .ok (h, c) ↔ b = serialize h c ∧ h.version = version ∧ h.flags = 0 := by
  refine ⟨fun hp => ?_, fun ⟨hb, hv, hf⟩ => hb ▸ parse_serialize hv hf c⟩
  have hl : Header.size s n ≤ b.length := by
    unfold parse at hp
    obtain ⟨_, hl, _⟩ := Res.bind_ok.mp hp
    exact Nat.not_lt.mp (rechazarSi_eq_ok.mp hl)
  have hlt : (b.take (Header.size s n)).length = Header.size s n := List.length_take_of_le hl
  rw [parse_of_head (List.take_append_drop (Header.size s n) b).symm hlt] at hp
  obtain ⟨head, hh⟩ : ∃ head, b.take (Header.size s n) = head := ⟨_, rfl⟩
  rw [hh] at hp hlt
  simp only [Res.bind_ok, rechazarSi_eq_ok, leerU32, Res.pure_eq_ok, Prod.mk.injEq] at hp
  obtain ⟨_, hmagic, v, h₀, _, hv, f, h₁, _, hf, id, h₂, huella, h₃, salt, h₄, nonce, h₅,
    _, ⟨mem, h₆, rfl⟩, _, ⟨iter, h₇, rfl⟩, _, ⟨par, h₈, rfl⟩, rfl, rfl⟩ := hp
  refine ⟨?_, not_not.mp hv, not_not.mp hf⟩
  have hend : head.drop (inicioSalt + s + n + 8 + 4) = [] :=
    List.drop_of_length_le (by rw [hlt, Header.size, bytesFijos, inicioSalt]; omega)
  have hhead : head = magic ++ v :: f :: (id.toList ++ (huella.toList ++ (salt.toList ++
      (nonce.toList ++ (mem.toList ++ (iter.toList ++ par.toList)))))) := by
    rw [← not_not.mp hmagic, ← List.append_nil par.toList, ← hend, ← drop_of_campo h₈,
      ← drop_of_campo h₇, ← drop_of_campo h₆, ← drop_of_campo h₅, ← drop_of_campo h₄,
      show inicioSalt = 8 + 8 from rfl, ← drop_of_campo h₃, ← drop_of_campo h₂,
      ← drop_of_octeto h₁, ← drop_of_octeto h₀, List.take_append_drop]
  have hbytes : Header.toBytes ⟨v, f, u16OfBe id.toList, huella, salt, nonce, u32OfBe mem.toList,
      u32OfBe iter.toList, u32OfBe par.toList⟩ = head := by
    rw [hhead, Header.toBytes, u16Be_u16OfBe id.toList_length, u32Be_u32OfBe mem.toList_length,
      u32Be_u32OfBe iter.toList_length, u32Be_u32OfBe par.toList_length]
    simp only [List.append_assoc, List.cons_append, List.nil_append]
  rw [serialize, hbytes, ← hh, List.take_append_drop]

theorem parse_sinPanico (b : List UInt8) : Res.SinPanico (parse s n b) := by
  have h28 : bytesFijos = 28 := rfl
  have h16 : inicioSalt = 16 := rfl
  by_cases hl : b.length < Header.size s n
  · exact .inr ⟨.tooShort, by rw [parse, rechazarSi_of _ hl, Res.error_bind]⟩
  have hlt : (b.take (Header.size s n)).length = Header.size s n :=
    List.length_take_of_le (Nat.not_lt.mp hl)
  rw [parse_of_head (List.take_append_drop (Header.size s n) b).symm hlt]
  unfold Header.size at hlt ⊢
  unfold leerU32
  rw [octeto_ok (by omega), octeto_ok (by omega), campo_ok (by omega), campo_ok (by omega),
    campo_ok (by omega), campo_ok (by omega), campo_ok (by omega), campo_ok (by omega),
    campo_ok (by omega)]
  simp only [rechazarSi_bind, Res.ok_bind]
  exact Res.sinPanico_ite fun _ => Res.sinPanico_ite fun _ => Res.sinPanico_ite fun _ =>
    Res.sinPanico_ok _

theorem parse_of_flags {b : List UInt8} {f : UInt8} (h : b[5]? = some f) (hf : f ≠ 0) :
    Res.Rechaza (parse s n b) := by
  apply (parse_sinPanico b).rechaza_iff.mpr
  rintro ⟨⟨c, rest⟩, hok⟩
  obtain ⟨rfl, _, hflags⟩ := parse_eq_ok.mp hok
  have h5 : (serialize c rest)[5]? = some c.flags := rfl
  rw [h5, hflags] at h
  exact hf (Option.some.inj h).symm

/-- Reading and writing are mutually inverse, for every salt and nonce size. -/
theorem inversas (s n : Nat) :
    (∀ (h : Header s n) c, h.version = 1 → h.flags = 0 →
      parse s n (serialize h c) = .ok (h, c)) ∧
    ∀ b, (∀ (h : Header s n) c, parse s n b = .ok (h, c) →
        serialize h c = b ∧ h.version = 1 ∧ h.flags = 0) ∧
      Res.SinPanico (parse s n b) := by
  refine ⟨fun h c hv hf => parse_serialize hv hf c, fun b => ⟨fun h c hp => ?_,
    parse_sinPanico b⟩⟩
  obtain ⟨hb, hv, hf⟩ := parse_eq_ok.mp hp
  exact ⟨hb.symm, hv, hf⟩

theorem inversas_vacia :
    parse 0 0 (serialize (⟨1, 0, 258, ajustar 8 [7], ajustar 0 [], ajustar 0 [], 64, 3, 1⟩ :
        Header 0 0) [9, 9]) =
      .ok (⟨1, 0, 258, ajustar 8 [7], ajustar 0 [], ajustar 0 [], 64, 3, 1⟩, [9, 9]) ∧
    ∀ b (h : Header 0 0) c, parse 0 0 b = .ok (h, c) → serialize h c = b := by
  obtain ⟨hleer, hescribir⟩ := inversas 0 0
  exact ⟨hleer _ _ rfl rfl, fun b h c hp => ((hescribir b).1 h c hp).1⟩

end Container

end Quipu
