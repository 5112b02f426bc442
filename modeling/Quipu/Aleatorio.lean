import Quipu.Fallo
import Mathlib.Data.Stream.Defs

namespace Quipu

namespace Aleatorio

def intentos : Nat := 3

def repeticionQueDelata : Nat := 8

inductive FalloDeSalud where
  | todoCeros
  | atascada (byte : UInt8) (veces : Nat)
  deriving DecidableEq, Repr

structure SinEntropia where
  bytes : Nat
  intentos : Nat
  codigoOs : Option Int
  salud : Option FalloDeSalud
  deriving DecidableEq, Repr

/-- What one call of `getrandom::fill` does: byte `i` of the buffer becomes `bytes i`, and a
failed call leaves the buffer with whatever it had written. -/
inductive Respuesta where
  | entrega (bytes : Nat → UInt8)
  | falla (codigoOs : Option Int) (bytes : Nat → UInt8)

/-- The answers of the system source to the calls of a run, in order. -/
abbrev Cinta := Stream' Respuesta

def tomar (bytes : Nat → UInt8) (n : Nat) : Arr n :=
  Arr.of ((List.range n).map bytes) (by simp)

/-- What a call of `getrandom::fill` for `n` bytes meets; an empty buffer asks for nothing. -/
def consultar (n : Nat) (cinta : Cinta) : Respuesta × Cinta :=
  if n = 0 then (.entrega fun _ => 0, cinta) else (cinta.head, cinta.tail)

/-- The loop over `windows(2)`, with the current run of equal bytes in `seguidos`. -/
def rachas : Nat → List UInt8 → Option FalloDeSalud
  | seguidos, a :: b :: resto =>
    if a = b then
      if repeticionQueDelata ≤ seguidos + 1 then some (.atascada a (seguidos + 1))
      else rachas (seguidos + 1) (b :: resto)
    else rachas 1 (b :: resto)
  | _, _ => none

def saludDe (muestra : List UInt8) : Option FalloDeSalud :=
  if repeticionQueDelata ≤ muestra.length && muestra.all (· == 0) then some .todoCeros
  else rachas 1 muestra

/-- `EMFILE` and `ENFILE`, the causes that resolve themselves. -/
def transitorio (codigoOs : Option Int) : Bool := codigoOs == some 23 || codigoOs == some 24

/-- The attempts left of the loop of `llenar`; the current one is `intento`. -/
def llenarDesde {n : Nat} : Nat → Nat → Option Int → Arr n → Cinta →
    Except SinEntropia Unit × Arr n × Cinta
  | 0, _, ultimo, destino, cinta => (.error ⟨n, intentos, ultimo, none⟩, destino, cinta)
  | restantes + 1, intento, _, _, cinta =>
    match consultar n cinta with
    | (.entrega bytes, cinta') =>
      match saludDe (tomar bytes n).toList with
      | none => (.ok (), tomar bytes n, cinta')
      | some fallo => (.error ⟨n, intento, none, some fallo⟩, List.Vector.replicate n 0, cinta')
    | (.falla codigo bytes, cinta') =>
      if transitorio codigo then
        llenarDesde restantes (intento + 1) codigo (tomar bytes n) cinta'
      else (.error ⟨n, intento, codigo, none⟩, tomar bytes n, cinta')

def llenar {n : Nat} (destino : Arr n) (cinta : Cinta) :
    Except SinEntropia Unit × Arr n × Cinta :=
  llenarDesde intentos 1 none destino cinta

/-- One call of `getrandom::fill`, with no health check and no retry. -/
def fill {n : Nat} (_destino : Arr n) (cinta : Cinta) : Except (Option Int) Unit × Arr n × Cinta :=
  match consultar n cinta with
  | (.entrega bytes, cinta') => (.ok (), tomar bytes n, cinta')
  | (.falla codigo bytes, cinta') => (.error codigo, tomar bytes n, cinta')

def hexDigits (b : UInt8) : List Char :=
  [Nat.digitChar (b.toNat / 16), Nat.digitChar (b.toNat % 16)]

def FalloDeSalud.toTexto : FalloDeSalud → String
  | .todoCeros => "la fuente devolvió TODO CEROS"
  | .atascada byte veces =>
    "la fuente devolvió el byte 0x" ++ String.ofList (hexDigits byte) ++ " " ++ toString veces ++
      " veces seguidas"

def SinEntropia.probablementeTransitorio (e : SinEntropia) : Bool :=
  if e.salud.isSome then false else transitorio e.codigoOs

def SinEntropia.toTexto (e : SinEntropia) : String :=
  match e.salud with
  | some s =>
    "la fuente de aleatoriedad ENTREGÓ " ++ toString e.bytes ++ " bytes pero no son de fiar: " ++
      s.toTexto ++ ". NO se generó ninguna clave. Esto no se reintenta: la misma fuente rota " ++
      "puede devolver a la siguiente algo que PAREZCA bien"
  | none =>
    "el sistema no entregó " ++ toString e.bytes ++ " bytes de aleatoriedad tras " ++
      toString e.intentos ++ " intento(s)" ++
      (match e.codigoOs with
        | some c => " (código del sistema: " ++ toString c ++ ")"
        | none => "") ++
      (if e.probablementeTransitorio then
        ". Parece transitorio —descriptores agotados—: reintentar puede servir"
      else
        ". No parece transitorio: revise el despliegue (¿seccomp bloquea getrandom?, ¿falta " ++
          "/dev/urandom en el chroot?). NO se generó ninguna clave: Quipu no sustituye la " ++
          "entropía por nada")

theorem llenarDesde_ok {n : Nat} {r intento : Nat} {ultimo : Option Int} {destino b : Arr n}
    {c c' : Cinta} (h : llenarDesde r intento ultimo destino c = (.ok (), b, c')) :
    saludDe b.toList = none := by
  induction r generalizing intento ultimo destino c with
  | zero => simp [llenarDesde] at h
  | succ r ih =>
    simp only [llenarDesde] at h
    split at h
    next bytes _ _ =>
      split at h
      next hs =>
        obtain ⟨_, hb, _⟩ := by simpa using h
        subst b
        exact hs
      next => simp at h
    next codigo bytes _ _ =>
      split at h
      next => exact ih h
      next => simp at h

theorem llenar_ok {n : Nat} {destino b : Arr n} {c c' : Cinta}
    (h : llenar destino c = (.ok (), b, c')) : saludDe b.toList = none :=
  llenarDesde_ok h

/-- The tape on which the next request for `b` is answered with it. -/
def reponer {n : Nat} (b : Arr n) (cinta : Cinta) : Cinta :=
  if n = 0 then cinta else Stream'.cons (.entrega fun i => b.toList.getD i 0) cinta

theorem tomar_getD {n : Nat} (b : Arr n) : tomar (fun i => b.toList.getD i 0) n = b := by
  refine Arr.ext (List.ext_getElem (by simp [tomar]) fun i h₁ h₂ => ?_)
  simp only [tomar, Arr.toList_of, List.getElem_map, List.getElem_range,
    List.getD_eq_getElem?_getD, List.getElem?_eq_getElem h₂, Option.getD_some]

theorem consultar_reponer {n : Nat} (b : Arr n) (cinta : Cinta) :
    ∃ bytes, consultar n (reponer b cinta) = (.entrega bytes, cinta) ∧ tomar bytes n = b := by
  unfold consultar reponer
  by_cases hn : n = 0
  · subst n
    exact ⟨fun _ => 0, rfl, Arr.ext (by simp [tomar])⟩
  · rw [if_neg hn, if_neg hn]
    exact ⟨_, rfl, tomar_getD b⟩

theorem llenar_reponer {n : Nat} {destino b : Arr n} (h : saludDe b.toList = none)
    (cinta : Cinta) : llenar destino (reponer b cinta) = (.ok (), b, cinta) := by
  obtain ⟨bytes, hc, rfl⟩ := consultar_reponer b cinta
  simp only [llenar, intentos, llenarDesde, hc, h]

end Aleatorio

end Quipu
