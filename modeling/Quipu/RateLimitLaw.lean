import Quipu.RateLimit

namespace Quipu.RateLimit

/-- The limits of every call are not negative. -/
def NoNegativos (llamadas : List Llamada) : Prop :=
  ∀ c ∈ llamadas, 0 ≤ c.capacity ∧ 0 ≤ c.refillPerSec

def Creciente (llamadas : List Llamada) : Prop := llamadas.Pairwise fun c d => c.now ≤ d.now

/-- The calls of `key` from `a` to `b` carry these limits. -/
def Fijos (llamadas : List Llamada) (key : String) (capacity refillPerSec : ℚ) (a b : Nat) :
    Prop :=
  ∀ c ∈ llamadas, c.key = key → a ≤ c.now → c.now ≤ b →
    c.capacity = capacity ∧ c.refillPerSec = refillPerSec

theorem concedidas_cons (c : Llamada) (g : Bool) (rs : List (Llamada × Bool)) (key : String)
    (a b : Nat) :
    concedidas ((c, g) :: rs) key a b = concedidas rs key a b +
      if g ∧ c.key = key ∧ a ≤ c.now ∧ c.now ≤ b then 1 else 0 := by
  simp only [concedidas, List.countP_cons, decide_eq_true_eq]

theorem concedidas_cons_fuera {c : Llamada} {g : Bool} {rs : List (Llamada × Bool)}
    {key : String} {a b : Nat} (h : ¬(c.key = key ∧ a ≤ c.now ∧ c.now ≤ b)) :
    concedidas ((c, g) :: rs) key a b = concedidas rs key a b := by
  rw [concedidas_cons, if_neg fun h' => h h'.2, Nat.add_zero]

theorem concedidas_cons_dentro {c : Llamada} {g : Bool} {rs : List (Llamada × Bool)} {a b : Nat}
    (ha : a ≤ c.now) (hb : c.now ≤ b) :
    (concedidas ((c, g) :: rs) c.key a b : ℚ) =
      RateLimiter.gasto g + concedidas rs c.key a b := by
  rw [concedidas_cons, add_comm, Nat.cast_add]
  cases g with
  | false => simp [RateLimiter.gasto]
  | true => simp [RateLimiter.gasto, ha, hb]

namespace RateLimiter

theorem map_fst_correr (rl : RateLimiter) (llamadas : List Llamada) :
    (rl.correr llamadas).1.map Prod.fst = llamadas := by
  induction llamadas generalizing rl with
  | nil => rfl
  | cons c cs ih =>
    rw [correr, List.map_cons, ih]

theorem correr_append (rl : RateLimiter) (xs ys : List Llamada) :
    (rl.correr (xs ++ ys)).2 = ((rl.correr xs).2.correr ys).2 := by
  induction xs generalizing rl with
  | nil => rfl
  | cons c cs ih => exact ih _

theorem concedidas_despues {rl : RateLimiter} {cs : List Llamada} {key : String} {a b : Nat}
    (h : ∀ c ∈ cs, b < c.now) : concedidas (rl.correr cs).1 key a b = 0 := by
  unfold concedidas
  rw [List.countP_eq_zero]
  intro r hr hpasa
  have hmem : r.1 ∈ cs := by
    rw [← map_fst_correr rl cs]
    exact List.mem_map_of_mem hr
  have hahora := h r.1 hmem
  have hb := (of_decide_eq_true hpasa).2.2.2
  omega

theorem lookup_correr_ne {rl : RateLimiter} {cs : List Llamada} {key : String}
    (h : ∀ c ∈ cs, c.key ≠ key) : (rl.correr cs).2.buckets.lookup key = rl.buckets.lookup key := by
  induction cs generalizing rl with
  | nil => rfl
  | cons c cs ih =>
    show ((rl.allow c.key c.capacity c.refillPerSec c.now).2.correr cs).2.buckets.lookup key = _
    rw [ih fun d hd => h d (List.mem_cons_of_mem c hd)]
    exact lookup_allow_ne (h c List.mem_cons_self).symm

/-- What a key is granted depends on its own calls alone. -/
theorem filter_correr {rl rl' : RateLimiter} {key : String}
    (h : rl.buckets.lookup key = rl'.buckets.lookup key) (cs : List Llamada) :
    (rl.correr cs).1.filter (fun r => r.1.key = key) =
      (rl'.correr (cs.filter fun c => c.key = key)).1 := by
  induction cs generalizing rl rl' with
  | nil => rfl
  | cons c cs ih =>
    by_cases hk : c.key = key
    · subst hk
      obtain ⟨hresp, hlookup⟩ := allow_congr h c.capacity c.refillPerSec c.now
      rw [List.filter_cons_of_pos (by simp), correr, correr, List.filter_cons_of_pos (by simp),
        hresp, ih hlookup]
    · have hlookup : (rl.allow c.key c.capacity c.refillPerSec c.now).2.buckets.lookup key =
          rl'.buckets.lookup key := (lookup_allow_ne (Ne.symm hk)).trans h
      rw [List.filter_cons_of_neg (by simpa using hk), correr,
        List.filter_cons_of_neg (by simpa using hk), ih hlookup]

/-- The stored tokens are not negative after any run of calls. -/
theorem tokens_nonneg {rl : RateLimiter} {cs : List Llamada} (hlim : NoNegativos cs) {key : String}
    (h : ∀ cubo, rl.buckets.lookup key = some cubo → 0 ≤ cubo.1) :
    ∀ cubo, (rl.correr cs).2.buckets.lookup key = some cubo → 0 ≤ cubo.1 := by
  induction cs generalizing rl with
  | nil => exact h
  | cons c cs ih =>
    obtain ⟨hcapacity, hrefill⟩ := hlim c List.mem_cons_self
    refine ih (fun d hd => hlim d (List.mem_cons_of_mem c hd)) ?_
    intro cubo hcubo
    by_cases hk : key = c.key
    · subst hk
      obtain ⟨tokens, hlookup, _, hpos, _⟩ := lookup_allow_self c.now h hcapacity hrefill
      rw [hlookup, Option.some.injEq] at hcubo
      rw [← hcubo]
      exact hpos
    · rw [lookup_allow_ne hk] at hcubo
      exact h cubo hcubo

theorem cuota_nonneg {tokens refillPerSec : ℚ} (htokens : 0 ≤ tokens) (hrefill : 0 ≤ refillPerSec)
    (t : Nat) : 0 ≤ tokens + refillPerSec * asSecs t :=
  add_nonneg htokens (mul_nonneg hrefill (asSecs_nonneg t))

/-- From a bucket used inside the interval, the grants up to `b` come out of its tokens and of
what it can still gain. -/
theorem concedidas_le_tokens {rl : RateLimiter} {cs : List Llamada} {key : String}
    {capacity refillPerSec tokens : ℚ} {a b last : Nat}
    (hcubo : rl.buckets.lookup key = some (tokens, last)) (htokens : 0 ≤ tokens)
    (hcapacity : 0 ≤ capacity) (hrefill : 0 ≤ refillPerSec) (ha : a ≤ last) (hb : last ≤ b)
    (hcreciente : Creciente cs) (hlast : ∀ c ∈ cs, last ≤ c.now)
    (hfijos : Fijos cs key capacity refillPerSec a b) :
    (concedidas (rl.correr cs).1 key a b : ℚ) ≤ tokens + refillPerSec * asSecs (b - last) := by
  induction cs generalizing rl tokens last with
  | nil =>
    show ((0 : Nat) : ℚ) ≤ _
    rw [Nat.cast_zero]
    exact cuota_nonneg htokens hrefill (b - last)
  | cons c cs ih =>
    obtain ⟨hc, hcs⟩ := List.pairwise_cons.mp hcreciente
    have hfijos' : Fijos cs key capacity refillPerSec a b :=
      fun d hd => hfijos d (List.mem_cons_of_mem c hd)
    have hlast_c := hlast c List.mem_cons_self
    rcases Nat.lt_or_ge b c.now with htarde | hdentro
    · have hcero : concedidas (rl.correr (c :: cs)).1 key a b = 0 := by
        refine concedidas_despues fun d hd => ?_
        rcases List.mem_cons.mp hd with rfl | hd
        · exact htarde
        · exact htarde.trans_le (hc d hd)
      rw [hcero, Nat.cast_zero]
      exact cuota_nonneg htokens hrefill (b - last)
    by_cases hk : c.key = key
    · subst hk
      obtain ⟨rfl, rfl⟩ := hfijos c List.mem_cons_self rfl (ha.trans hlast_c) hdentro
      obtain ⟨resto, hlookup, hgasto, hresto, _⟩ := lookup_allow_self c.now
        (fun cubo h => by rw [hcubo, Option.some.injEq] at h; rw [← h]; exact htokens)
        hcapacity hrefill
      have hsigue := ih hlookup hresto (ha.trans hlast_c) hdentro hcs hc hfijos'
      have hrecarga := recargar_le_add (tokens, last) c.capacity c.refillPerSec c.now
      have htiempo : asSecs (b - last) = asSecs (c.now - last) + asSecs (b - c.now) := by
        rw [← asSecs_add]
        congr 1
        omega
      rw [entrada, hcubo, Option.getD_some] at hgasto
      rw [correr, concedidas_cons_dentro (ha.trans hlast_c) hdentro, htiempo, mul_add]
      linarith
    · rw [correr, concedidas_cons_fuera fun h => hk h.1]
      refine ih ?_ htokens ha hb hcs (fun d hd => hlast d (List.mem_cons_of_mem c hd)) hfijos'
      rw [lookup_allow_ne (Ne.symm hk)]
      exact hcubo

/-- The rate law, from any limiter whose bucket of `key` is not in debt. -/
theorem concedidas_le_capacity {rl : RateLimiter} {cs : List Llamada} {key : String}
    {capacity refillPerSec : ℚ} {a b : Nat} (hlim : NoNegativos cs)
    (hcubo : ∀ cubo, rl.buckets.lookup key = some cubo → 0 ≤ cubo.1)
    (hcapacity : 0 ≤ capacity) (hrefill : 0 ≤ refillPerSec)
    (hcreciente : Creciente cs) (hfijos : Fijos cs key capacity refillPerSec a b) :
    (concedidas (rl.correr cs).1 key a b : ℚ) ≤ capacity + refillPerSec * asSecs (b - a) := by
  induction cs generalizing rl with
  | nil =>
    show ((0 : Nat) : ℚ) ≤ _
    rw [Nat.cast_zero]
    exact cuota_nonneg hcapacity hrefill (b - a)
  | cons c cs ih =>
    obtain ⟨hc, hcs⟩ := List.pairwise_cons.mp hcreciente
    obtain ⟨hcap, href⟩ := hlim c List.mem_cons_self
    have hlim' : NoNegativos cs := fun d hd => hlim d (List.mem_cons_of_mem c hd)
    have hfijos' : Fijos cs key capacity refillPerSec a b :=
      fun d hd => hfijos d (List.mem_cons_of_mem c hd)
    by_cases hdentro : c.key = key ∧ a ≤ c.now ∧ c.now ≤ b
    · obtain ⟨rfl, ha, hb⟩ := hdentro
      obtain ⟨rfl, rfl⟩ := hfijos c List.mem_cons_self rfl ha hb
      obtain ⟨resto, hlookup, hgasto, hresto, _⟩ := lookup_allow_self c.now hcubo hcap href
      have hsigue := concedidas_le_tokens hlookup hresto hcap href ha hb hcs hc hfijos'
      have htope := recargar_le_capacity (rl.entrada c.key c.capacity c.now) c.capacity
        c.refillPerSec c.now
      have htiempo : asSecs (b - a) = asSecs (c.now - a) + asSecs (b - c.now) := by
        rw [← asSecs_add]
        congr 1
        omega
      have hantes := mul_nonneg href (asSecs_nonneg (c.now - a))
      rw [correr, concedidas_cons_dentro ha hb, htiempo, mul_add]
      linarith
    · rw [correr, concedidas_cons_fuera hdentro]
      refine ih hlim' ?_ hcs hfijos'
      have huna : NoNegativos [c] := fun d hd => by
        rw [List.mem_singleton.mp hd]
        exact ⟨hcap, href⟩
      exact tokens_nonneg huna hcubo

theorem lookup_new (key : String) : new.buckets.lookup key = none := AList.lookup_empty key

/-- After a call, and until the next one of its key, its bucket is within its capacity. -/
theorem lookup_tras_llamada {previas otras : List Llamada} {c : Llamada}
    (hlim : NoNegativos (previas ++ c :: otras)) (hotras : ∀ d ∈ otras, d.key ≠ c.key) :
    ∃ tokens, (new.correr (previas ++ c :: otras)).2.buckets.lookup c.key =
      some (tokens, c.now) ∧ 0 ≤ tokens ∧ tokens ≤ c.capacity := by
  obtain ⟨hcapacity, hrefill⟩ := hlim c (by simp)
  have hcubo : ∀ cubo, (new.correr previas).2.buckets.lookup c.key = some cubo → 0 ≤ cubo.1 := by
    refine tokens_nonneg (fun d hd => hlim d (List.mem_append_left _ hd)) fun cubo h => ?_
    rw [lookup_new] at h
    cases h
  obtain ⟨tokens, hlookup, _, hpos, hle⟩ := lookup_allow_self c.now hcubo hcapacity hrefill
  refine ⟨tokens, ?_, hpos, hle⟩
  rw [correr_append, correr, lookup_correr_ne hotras]
  exact hlookup

/-- The rate law of the token bucket, its bounds, and the independence of its keys. -/
theorem ley_del_cubo (llamadas : List Llamada) :
    (NoNegativos llamadas → Creciente llamadas → ∀ key capacity refillPerSec a b,
      0 ≤ capacity → 0 ≤ refillPerSec → a ≤ b → Fijos llamadas key capacity refillPerSec a b →
        (concedidas (new.correr llamadas).1 key a b : ℚ) ≤
          capacity + refillPerSec * asSecs (b - a)) ∧
    (NoNegativos llamadas → ∀ previas c otras, llamadas = previas ++ c :: otras →
      (∀ d ∈ otras, d.key ≠ c.key) →
        ∃ tokens, (new.correr llamadas).2.buckets.lookup c.key = some (tokens, c.now) ∧
          0 ≤ tokens ∧ tokens ≤ c.capacity) ∧
    ∀ key, (new.correr llamadas).1.filter (fun r => r.1.key = key) =
      (new.correr (llamadas.filter fun c => c.key = key)).1 := by
  refine ⟨?_, ?_, fun key => filter_correr rfl llamadas⟩
  · intro hlim hcreciente key capacity refillPerSec a b hcapacity hrefill _ hfijos
    refine concedidas_le_capacity hlim (fun cubo h => ?_) hcapacity hrefill hcreciente hfijos
    rw [lookup_new] at h
    cases h
  · intro hlim previas c otras heq hotras
    subst heq
    exact lookup_tras_llamada hlim hotras

/-- Two calls of one key, one of another, and two more of the first half a second apart. -/
def rafaga : List Llamada :=
  [⟨"k", 2, 1, 0⟩, ⟨"k", 2, 1, 0⟩, ⟨"otra", 1, 0, 0⟩, ⟨"k", 2, 1, 500000000⟩,
    ⟨"k", 2, 1, 1000000000⟩]

theorem noNegativos_rafaga : NoNegativos rafaga := by
  unfold NoNegativos rafaga
  decide

theorem ley_del_cubo_rafaga :
    (concedidas (new.correr rafaga).1 "k" 0 1000000000 : ℚ) ≤
        2 + 1 * asSecs (1000000000 - 0) ∧
      (∃ tokens, (new.correr rafaga).2.buckets.lookup "otra" = some (tokens, 0) ∧
        0 ≤ tokens ∧ tokens ≤ 1) ∧
      (new.correr rafaga).1.filter (fun r => r.1.key = "k") =
        (new.correr (rafaga.filter fun c => c.key = "k")).1 := by
  obtain ⟨hley, hcubo, hclaves⟩ := ley_del_cubo rafaga
  have hcreciente : Creciente rafaga := by
    unfold Creciente rafaga
    decide
  have hfijos : Fijos rafaga "k" 2 1 0 1000000000 := by
    unfold Fijos rafaga
    decide
  refine ⟨?_, ?_, hclaves "k"⟩
  · exact hley noNegativos_rafaga hcreciente "k" 2 1 0 1000000000 (by decide) (by decide)
      (by decide) hfijos
  · exact hcubo noNegativos_rafaga [⟨"k", 2, 1, 0⟩, ⟨"k", 2, 1, 0⟩] ⟨"otra", 1, 0, 0⟩
      [⟨"k", 2, 1, 500000000⟩, ⟨"k", 2, 1, 1000000000⟩] rfl (by decide)

example : concedidas (new.correr rafaga).1 "k" 0 1000000000 = 3 := by decide +kernel

end RateLimiter

end Quipu.RateLimit
