import Quipu.TextRoundTrip

namespace Quipu

namespace Dictionary

/-- The loop of `new`, that stops at a symbol which the map already had. -/
def repetidoDesde (vistos : List Char) : List Char → Option Char
  | [] => none
  | c :: cs => if c ∈ vistos then some c else repetidoDesde (c :: vistos) cs

theorem repetidoDesde_eq_none {vistos cs : List Char} :
    repetidoDesde vistos cs = none ↔ cs.Nodup ∧ ∀ c ∈ cs, c ∉ vistos := by
  induction cs generalizing vistos with
  | nil => simp [repetidoDesde]
  | cons c cs ih =>
    rw [repetidoDesde]
    split
    next h => simp [h]
    next h =>
      rw [ih, List.nodup_cons]
      simp only [List.mem_cons, forall_eq_or_imp, not_or]
      constructor
      · rintro ⟨hn, hd⟩
        exact ⟨⟨fun hc => (hd c hc).1 rfl, hn⟩, h, fun d hc => (hd d hc).2⟩
      · rintro ⟨⟨hc, hn⟩, _, hd⟩
        exact ⟨hn, fun d hm => ⟨fun he => hc (he ▸ hm), hd d hm⟩⟩

def new (symbols : List Char) : Except DictionaryError Dictionary :=
  if hl : symbols.length < 2 then .error .tooSmall
  else
    match hr : repetidoDesde [] symbols with
    | some c => .error (.duplicateSymbol c)
    | none => .ok ⟨symbols, Nat.not_lt.mp hl, (repetidoDesde_eq_none.mp hr).1⟩

theorem toNat_ofNat {v : Nat} (h : v.isValidChar) : (Char.ofNat v).toNat = v := by
  rw [Char.ofNat, dif_pos h]
  rfl

end Dictionary

namespace Dictionaries

theorem nodup_ascii : ((List.range' 0x21 94).map Char.ofNat).Nodup := by
  have hlt : ∀ v ∈ List.range' 0x21 94, v.isValidChar := fun v hv =>
    .inl (by have := (List.mem_range'_1.mp hv).2; omega)
  refine List.Nodup.map_on (fun v hv w hw he => ?_) List.nodup_range'
  rw [← Dictionary.toNat_ofNat (hlt v hv), he, Dictionary.toNat_ofNat (hlt w hw)]

/-- The printable characters of ASCII, from `!` to `~`. -/
def ascii94 : Dictionary := ⟨(List.range' 0x21 94).map Char.ofNat, by simp, nodup_ascii⟩

theorem base_ascii94 : ascii94.base = 94 := by simp [Dictionary.base, ascii94]

/-- `expect` of a dictionary. -/
def esperado (mensaje : String) : Except DictionaryError Dictionary → Res Empty Dictionary
  | .ok d => .ok d
  | .error _ => panico mensaje

end Dictionaries

namespace Dictionary

end Dictionary

end Quipu
