import Quipu.Rachas
import Mathlib.Data.Stream.Init

namespace Quipu

namespace Aleatorio

/-- The answers after which the loop of `llenar` calls again. -/
def Respuesta.Transitoria : Respuesta → Prop
  | .entrega _ => False
  | .falla codigoOs _ => transitorio codigoOs = true

/-- `llenarDesde` with the answers to its calls of `getrandom::fill`, in order. -/
def llenarAnotadoDesde {n : Nat} : Nat → Nat → Option Int → Arr n → Cinta →
    List Respuesta × Except SinEntropia Unit × Arr n × Cinta
  | 0, _, ultimo, destino, cinta => ([], .error ⟨n, intentos, ultimo, none⟩, destino, cinta)
  | restantes + 1, intento, _, _, cinta =>
    match consultar n cinta with
    | (.entrega bytes, cinta') =>
      match saludDe (tomar bytes n).toList with
      | none => ([.entrega bytes], .ok (), tomar bytes n, cinta')
      | some fallo =>
        ([.entrega bytes], .error ⟨n, intento, none, some fallo⟩, List.Vector.replicate n 0, cinta')
    | (.falla codigo bytes, cinta') =>
      if transitorio codigo then
        let (llamadas, fin) :=
          llenarAnotadoDesde restantes (intento + 1) codigo (tomar bytes n) cinta'
        (.falla codigo bytes :: llamadas, fin)
      else ([.falla codigo bytes], .error ⟨n, intento, codigo, none⟩, tomar bytes n, cinta')

def llenarAnotado {n : Nat} (destino : Arr n) (cinta : Cinta) :
    List Respuesta × Except SinEntropia Unit × Arr n × Cinta :=
  llenarAnotadoDesde intentos 1 none destino cinta

theorem llenarAnotadoDesde_snd {n : Nat} (restantes intento : Nat) (ultimo : Option Int)
    (destino : Arr n) (cinta : Cinta) :
    (llenarAnotadoDesde restantes intento ultimo destino cinta).2 =
      llenarDesde restantes intento ultimo destino cinta := by
  induction restantes generalizing intento ultimo destino cinta with
  | zero => rfl
  | succ restantes ih =>
    rw [llenarAnotadoDesde, llenarDesde]
    rcases consultar n cinta with ⟨bytes | ⟨codigo, bytes⟩, cinta'⟩
    · cases hs : saludDe (tomar bytes n).toList with
      | none => simp only [hs]
      | some fallo => simp only [hs]
    · by_cases ht : transitorio codigo = true
      · simp only [if_pos ht]
        exact ih (intento + 1) codigo (tomar bytes n) cinta'
      · simp only [if_neg ht]

/-- The notes change nothing of `llenar`. -/
theorem llenarAnotado_snd {n : Nat} (destino : Arr n) (cinta : Cinta) :
    (llenarAnotado destino cinta).2 = llenar destino cinta :=
  llenarAnotadoDesde_snd intentos 1 none destino cinta

/-- What `llenar` returns and leaves in the buffer when the call `k` is its last one. -/
def desenlace (n k : Nat) : Respuesta → Except SinEntropia Unit × Arr n
  | .entrega bytes =>
    match saludDe (tomar bytes n).toList with
    | none => (.ok (), tomar bytes n)
    | some fallo => (.error ⟨n, k, none, some fallo⟩, List.Vector.replicate n 0)
  | .falla codigoOs bytes => (.error ⟨n, k, codigoOs, none⟩, tomar bytes n)

theorem desenlace_ok {n k : Nat} {resp : Respuesta} (h : (desenlace n k resp).1 = .ok ()) :
    ∃ bytes, resp = .entrega bytes ∧ (desenlace n k resp).2 = tomar bytes n ∧
      saludDe (tomar bytes n).toList = none := by
  cases resp with
  | entrega bytes =>
    cases hs : saludDe (tomar bytes n).toList with
    | none => exact ⟨bytes, rfl, by rw [desenlace, hs], hs⟩
    | some fallo => simp [desenlace, hs] at h
  | falla codigo bytes => simp [desenlace] at h

theorem desenlace_enferma {n k : Nat} {bytes : Nat → UInt8} {fallo : FalloDeSalud}
    (h : saludDe (tomar bytes n).toList = some fallo) :
    desenlace n k (.entrega bytes) =
      (.error ⟨n, k, none, some fallo⟩, List.Vector.replicate n 0) := by
  rw [desenlace, h]

theorem desenlace_salud {n k : Nat} {resp : Respuesta} {e : SinEntropia} {fallo : FalloDeSalud}
    (h : (desenlace n k resp).1 = .error e) (he : e.salud = some fallo) :
    ∃ bytes, resp = .entrega bytes ∧ saludDe (tomar bytes n).toList = some fallo := by
  cases resp with
  | entrega bytes =>
    refine ⟨bytes, rfl, ?_⟩
    cases hs : saludDe (tomar bytes n).toList with
    | none => simp [desenlace, hs] at h
    | some fallo' =>
      rw [desenlace_enferma hs] at h
      cases h
      exact he
  | falla codigo bytes =>
    cases h
    cases he

/-- What the calls of a run are, and what the run makes of the last one. -/
structure Corrida (n restantes intento : Nat) (cinta : Cinta)
    (fin : List Respuesta × Except SinEntropia Unit × Arr n × Cinta)
    (previas : List Respuesta) (ultima : Respuesta) : Prop where
  llamadas : fin.1 = previas ++ [ultima]
  resultado : fin.2.1 = (desenlace n (intento + previas.length) ultima).1
  destino : fin.2.2.1 = (desenlace n (intento + previas.length) ultima).2
  cuantas : previas.length ≤ restantes
  transitorias : ∀ resp ∈ previas, resp.Transitoria
  consumida : n ≠ 0 → cinta = fin.1 ++ₛ fin.2.2.2

theorem consultar_cinta {n : Nat} {cinta cinta' : Cinta} {resp : Respuesta} (hn : n ≠ 0)
    (h : consultar n cinta = (resp, cinta')) : cinta = [resp] ++ₛ cinta' := by
  rw [consultar, if_neg hn] at h
  obtain ⟨rfl, rfl⟩ := Prod.mk.inj h
  exact (Stream'.append_stream_head_tail cinta).symm

/-- One call ends the loop, or its failure is transient and the loop goes on. -/
theorem llenarAnotadoDesde_succ {n : Nat} {cinta cinta' : Cinta} {resp : Respuesta}
    (h : consultar n cinta = (resp, cinta')) (restantes intento : Nat) (ultimo : Option Int)
    (destino : Arr n) :
    llenarAnotadoDesde (restantes + 1) intento ultimo destino cinta =
        ([resp], (desenlace n intento resp).1, (desenlace n intento resp).2, cinta') ∨
      ∃ codigo bytes, resp = .falla codigo bytes ∧ transitorio codigo = true ∧
        llenarAnotadoDesde (restantes + 1) intento ultimo destino cinta =
          (resp :: (llenarAnotadoDesde restantes (intento + 1) codigo (tomar bytes n) cinta').1,
            (llenarAnotadoDesde restantes (intento + 1) codigo (tomar bytes n) cinta').2) := by
  rw [llenarAnotadoDesde, h]
  cases resp with
  | entrega bytes =>
    left
    cases hs : saludDe (tomar bytes n).toList with
    | none => simp only [desenlace, hs]
    | some fallo => simp only [desenlace, hs]
  | falla codigo bytes =>
    by_cases ht : transitorio codigo = true
    · refine Or.inr ⟨codigo, bytes, rfl, ht, ?_⟩
      simp only [if_pos ht]
    · left
      simp only [if_neg ht, desenlace]

namespace Corrida

variable {n restantes intento : Nat} {cinta cinta' : Cinta}
  {fin : List Respuesta × Except SinEntropia Unit × Arr n × Cinta} {previas : List Respuesta}
  {ultima resp : Respuesta}

theorem unica (hc : consultar n cinta = (resp, cinta')) :
    Corrida n restantes intento cinta
      ([resp], (desenlace n intento resp).1, (desenlace n intento resp).2, cinta') [] resp :=
  ⟨rfl, rfl, rfl, Nat.zero_le _, by simp, fun hn => consultar_cinta hn hc⟩

theorem otra (h : Corrida n restantes (intento + 1) cinta' fin previas ultima)
    (hc : consultar n cinta = (resp, cinta')) (hresp : resp.Transitoria) :
    Corrida n (restantes + 1) intento cinta (resp :: fin.1, fin.2) (resp :: previas) ultima := by
  have hk : intento + (previas.length + 1) = intento + 1 + previas.length := by omega
  refine ⟨?_, ?_, ?_, Nat.succ_le_succ h.cuantas, ?_, ?_⟩
  · rw [h.llamadas, List.cons_append]
  · rw [List.length_cons, hk]
    exact h.resultado
  · rw [List.length_cons, hk]
    exact h.destino
  · intro r hr
    rcases List.mem_cons.mp hr with rfl | hr
    · exact hresp
    · exact h.transitorias r hr
  · intro hn
    rw [consultar_cinta hn hc]
    exact congrArg (Stream'.cons resp) (h.consumida hn)

/-- The loop makes no call behind one that is not transient. -/
theorem ultima_of (h : Corrida n restantes intento cinta fin previas ultima)
    {antes resto : List Respuesta} (hl : fin.1 = antes ++ resp :: resto)
    (hresp : ¬resp.Transitoria) : antes = previas ∧ resp = ultima ∧ resto = [] := by
  rw [h.llamadas] at hl
  rcases List.eq_nil_or_concat resto with rfl | ⟨resto, x, rfl⟩
  · obtain ⟨rfl, hu⟩ := List.append_inj' hl rfl
    exact ⟨rfl, (List.cons.inj hu).1.symm, rfl⟩
  · rw [List.concat_eq_append, ← List.cons_append, ← List.append_assoc] at hl
    obtain ⟨rfl, -⟩ := List.append_inj' hl rfl
    exact absurd (h.transitorias resp (by simp)) hresp

end Corrida

theorem llenarAnotadoDesde_corrida {n : Nat} (restantes intento : Nat)
    (h : intento + restantes = intentos) (ultimo : Option Int) (destino : Arr n) (cinta : Cinta) :
    ∃ previas ultima, Corrida n restantes intento cinta
      (llenarAnotadoDesde (restantes + 1) intento ultimo destino cinta) previas ultima := by
  induction restantes generalizing intento ultimo destino cinta with
  | zero =>
    obtain ⟨resp, cinta', hc⟩ : ∃ resp cinta', consultar n cinta = (resp, cinta') := ⟨_, _, rfl⟩
    refine ⟨[], resp, ?_⟩
    rcases llenarAnotadoDesde_succ hc 0 intento ultimo destino with
      he | ⟨codigo, bytes, rfl, -, he⟩
    · rw [he]
      exact Corrida.unica hc
    · obtain rfl : intento = intentos := h
      rw [he]
      exact Corrida.unica hc
  | succ restantes ih =>
    obtain ⟨resp, cinta', hc⟩ : ∃ resp cinta', consultar n cinta = (resp, cinta') := ⟨_, _, rfl⟩
    rcases llenarAnotadoDesde_succ hc (restantes + 1) intento ultimo destino with
      he | ⟨codigo, bytes, rfl, ht, he⟩
    · rw [he]
      exact ⟨[], resp, Corrida.unica hc⟩
    · obtain ⟨previas, ultima, hr⟩ := ih (intento + 1) (by omega) codigo (tomar bytes n) cinta'
      rw [he]
      exact ⟨_, ultima, hr.otra hc ht⟩

/-- What `llenar` promises of the calls it makes, its result and its buffer. -/
structure Compuerta {n : Nat} (llamadas : List Respuesta) (r : Except SinEntropia Unit)
    (b : Arr n) : Prop where
  tres : llamadas.length ≤ 3
  aprobada : r = .ok () → ∃ antes bytes, llamadas = antes ++ [.entrega bytes] ∧
    b = tomar bytes n ∧ saludDe b.toList = none
  borrada : ∀ e, r = .error e → e.salud ≠ none → b = List.Vector.replicate n 0
  enferma : ∀ antes bytes resto fallo, llamadas = antes ++ .entrega bytes :: resto →
    saludDe (tomar bytes n).toList = some fallo →
      resto = [] ∧ r = .error ⟨n, antes.length + 1, none, some fallo⟩
  definitiva : ∀ antes codigo bytes resto, llamadas = antes ++ .falla codigo bytes :: resto →
    transitorio codigo = false → resto = [] ∧ r = .error ⟨n, antes.length + 1, codigo, none⟩

theorem Corrida.compuerta {n : Nat} {cinta : Cinta}
    {fin : List Respuesta × Except SinEntropia Unit × Arr n × Cinta} {previas : List Respuesta}
    {ultima : Respuesta} (h : Corrida n 2 1 cinta fin previas ultima) :
    Compuerta fin.1 fin.2.1 fin.2.2.1 := by
  have hr := h.resultado
  have hb := h.destino
  refine ⟨?_, ?_, ?_, ?_, ?_⟩
  · rw [h.llamadas, List.length_append, List.length_singleton]
    exact Nat.succ_le_succ h.cuantas
  · intro hok
    obtain ⟨bytes, rfl, htomar, hs⟩ := desenlace_ok (hr.symm.trans hok)
    have hbuf := hb.trans htomar
    exact ⟨previas, bytes, h.llamadas, hbuf, hbuf ▸ hs⟩
  · intro e he hsalud
    obtain ⟨fallo, hfallo⟩ := Option.ne_none_iff_exists'.mp hsalud
    obtain ⟨bytes, rfl, hs⟩ := desenlace_salud (hr.symm.trans he) hfallo
    rw [hb, desenlace_enferma hs]
  · intro antes bytes resto fallo hl hs
    obtain ⟨rfl, rfl, rfl⟩ := h.ultima_of hl (by simp [Respuesta.Transitoria])
    refine ⟨rfl, ?_⟩
    rw [hr, desenlace_enferma hs, Nat.add_comm]
  · intro antes codigo bytes resto hl ht
    obtain ⟨rfl, rfl, rfl⟩ := h.ultima_of hl (by simp [Respuesta.Transitoria, ht])
    refine ⟨rfl, ?_⟩
    rw [hr, desenlace, Nat.add_comm]

theorem llenar_compuerta :
    (∀ muestra, saludDe muestra = none ↔ ¬Racha muestra) ∧
      ∀ (n : Nat) (destino : Arr n) (cinta : Cinta), ∃ llamadas r b cinta',
        llenarAnotado destino cinta = (llamadas, r, b, cinta') ∧
        llenar destino cinta = (r, b, cinta') ∧
        (n ≠ 0 → cinta = llamadas ++ₛ cinta') ∧ Compuerta llamadas r b := by
  refine ⟨saludDe_eq_none_iff, fun n destino cinta => ?_⟩
  obtain ⟨previas, ultima, h⟩ := llenarAnotadoDesde_corrida 2 1 rfl none destino cinta
  exact ⟨_, _, _, _, rfl, (llenarAnotado_snd destino cinta).symm, h.consumida, h.compuerta⟩

end Aleatorio

end Quipu
