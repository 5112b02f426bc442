import Mathlib.Data.List.AList

namespace Quipu.Tabla

variable {α : Type*} {β : α → Type*}

theorem nodupKeys_filter (p : Sigma β → Bool) (t : AList β) :
    (t.entries.filter p).NodupKeys := List.NodupKeys.sublist List.filter_sublist t.nodupKeys

/-- `HashMap::retain`. -/
def retener (p : Sigma β → Bool) (t : AList β) : AList β :=
  ⟨t.entries.filter p, nodupKeys_filter p t⟩

def tamano (t : AList β) : Nat := t.entries.length

theorem tamano_eq_length_keys (t : AList β) : tamano t = t.keys.length := by
  simp [tamano, AList.keys, List.keys]

theorem tamano_retener_le (p : Sigma β → Bool) (t : AList β) :
    tamano (retener p t) ≤ tamano t := List.length_filter_le p t.entries

theorem retener_eq_self {p : Sigma β → Bool} {t : AList β} (h : ∀ e ∈ t.entries, p e) :
    retener p t = t := AList.ext (List.filter_eq_self.mpr h)

variable [DecidableEq α]

theorem lookup_retener {p : Sigma β → Bool} {t : AList β} {a : α} {b : β a} :
    (retener p t).lookup a = some b ↔ t.lookup a = some b ∧ p ⟨a, b⟩ := by
  have h := AList.mem_lookup_iff (a := a) (b := b) (s := retener p t)
  have h' := AList.mem_lookup_iff (a := a) (b := b) (s := t)
  rw [Option.mem_def] at h h'
  rw [h, h']
  exact List.mem_filter

theorem mem_of_lookup {t : AList β} {a : α} {b : β a} (h : t.lookup a = some b) : a ∈ t :=
  AList.lookup_isSome.mp (Option.isSome_of_eq_some h)

theorem lookup_of_mem {t : AList β} {a : α} (h : a ∈ t) : ∃ b, t.lookup a = some b :=
  Option.isSome_iff_exists.mp (AList.lookup_isSome.mpr h)

theorem forall_entries {t : AList β} {P : Sigma β → Prop} :
    (∀ e ∈ t.entries, P e) ↔ ∀ a b, t.lookup a = some b → P ⟨a, b⟩ := by
  constructor
  · intro h a b hb
    exact h _ (AList.mem_lookup_iff.mp hb)
  · rintro h ⟨a, b⟩ he
    exact h a b (AList.mem_lookup_iff.mpr he)

theorem tamano_insert_of_mem {t : AList β} {a : α} {b : β a} (h : a ∈ t) :
    tamano (t.insert a b) = tamano t := by
  have hm : a ∈ t.keys := AList.mem_keys.mp h
  have hp := List.length_pos_of_mem hm
  rw [tamano_eq_length_keys, tamano_eq_length_keys, AList.keys_insert, List.length_cons,
    List.length_erase_of_mem hm]
  omega

theorem tamano_insert_of_notMem {t : AList β} {a : α} {b : β a} (h : a ∉ t) :
    tamano (t.insert a b) = tamano t + 1 := by
  rw [tamano, tamano, AList.entries_insert_of_notMem h, List.length_cons]

theorem lookup_insert_eq {t : AList β} {a c : α} {b : β a} {d : β c}
    (h : (t.insert a b).lookup c = some d) :
    (∃ hc : c = a, d = hc ▸ b) ∨ c ≠ a ∧ t.lookup c = some d := by
  rcases eq_or_ne c a with rfl | hc
  · rw [AList.lookup_insert, Option.some.injEq] at h
    exact .inl ⟨rfl, h.symm⟩
  · rw [AList.lookup_insert_ne hc] at h
    exact .inr ⟨hc, h⟩

end Quipu.Tabla
