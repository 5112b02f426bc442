import Quipu.BigEndian
import Quipu.Servidor

namespace Quipu.Palabras

open Servidor

inductive PalabrasError where
  | tamanoNoAdmitido (bytes : Nat) (admitidos : List Nat)
  | cuentaNoAdmitida (palabras : Nat)
  | palabraDesconocida (palabra : String) (posicion : Nat)
  | palabraDemasiadoCorta (palabra : String) (posicion : Nat)
  | palabraAmbigua (palabra : String) (posicion candidatas : Nat)
  | sumaDeVerificacion
  | vacio
  | listaCorrupta (indice : Nat)
  deriving DecidableEq

def palabrasEnLaLista : Nat := 2048

def tamanos : List Nat := [16, 20, 24, 28, 32]

def prefijoSuficiente : Nat := 4

/-- A word list: four letters tell its words apart. -/
structure Lista where
  palabras : List String
  cuenta : palabras.length = palabrasEnLaLista
  noVacias : "" ∉ palabras
  minusculas : ∀ w ∈ palabras, ∀ c ∈ w.toList, 'a' ≤ c ∧ c ≤ 'z'
  prefijos : (palabras.map fun w => w.toList.take prefijoSuficiente).Nodup

/-- Bit `i` of the entropy and, behind it, of its digest. -/
def bitDe (datos : List UInt8) (suma : Arr 32) (i : Nat) : Res PalabrasError UInt32 := do
  let (fuente, i) ← if i < datos.length * 8 then do
      let b ← octeto datos (i / 8)
      pure (b, i)
    else do
      let j := i - datos.length * 8
      let b ← octeto suma.toList (j / 8)
      pure (b, j)
  pure (fuente >>> UInt8.ofNat (7 - i % 8) &&& 1).toUInt32

def indiceEn (datos : List UInt8) (suma : Arr 32) (p : Nat) : Res PalabrasError UInt32 :=
  (List.range 11).foldlM (fun idx k => do
    let b ← bitDe datos suma (p * 11 + k)
    pure (idx <<< 1 ||| b)) 0

def palabraDe (palabras : List String) (idx : UInt32) : Res PalabrasError String :=
  match palabras[idx.toNat]? with
  | some palabra => pure palabra
  | none => fallar (.listaCorrupta idx.toNat)

def palabraEn (palabras : List String) (datos : List UInt8) (suma : Arr 32) (p : Nat) :
    Res PalabrasError String := do
  let idx ← indiceEn datos suma p
  palabraDe palabras idx

/-- The words that `escribir` puts one after another. -/
def palabrasDe (palabras : List String) (sha256 : List UInt8 → Arr 32) (datos : List UInt8) :
    Res PalabrasError (List String) := do
  rechazarSi (datos.length ∉ tamanos) (.tamanoNoAdmitido datos.length tamanos)
  let bitsSuma := datos.length * 8 / 32
  let suma := sha256 datos
  let total := datos.length * 8 + bitsSuma
  (List.range (total / 11)).mapM (palabraEn palabras datos suma)

/-- `escribir` with any list of words. -/
def escribirDe (palabras : List String) (sha256 : List UInt8 → Arr 32) (datos : List UInt8) :
    Res PalabrasError String := do
  let frase ← palabrasDe palabras sha256 datos
  pure (" ".intercalate frase)

def escribir (lista : Lista) (sha256 : List UInt8 → Arr 32) (datos : List UInt8) :
    Res PalabrasError String := escribirDe lista.palabras sha256 datos

def splitWhitespace (texto : String) : List (List Char) :=
  (texto.toList.splitOnP isWhitespace).filter fun cruda => !cruda.isEmpty

/-- The ASCII letters of a word as written, in lower case. -/
def limpiar (cruda : List Char) : String :=
  String.ofList ((cruda.filter Char.isAlpha).map Char.toLower)

/-- An exact word first; if none, the only one that starts so. A cleaned word is ASCII, so its
bytes are its letters. -/
def indiceDe (palabras : List String) (limpia : String) (posicion : Nat) :
    Res PalabrasError UInt32 :=
  if limpia = "" then fallar (.palabraDesconocida "" posicion)
  else
    match palabras.idxOf? limpia with
    | some i => .ok (UInt32.ofNat i)
    | none =>
      let candidatas := (palabras.zipIdx.filter fun w =>
        limpia.toList.isPrefixOf w.1.toList).map Prod.snd
      match candidatas with
      | [] => fallar (.palabraDesconocida limpia posicion)
      | [i] =>
        if limpia.toList.length ≥ prefijoSuficiente then .ok (UInt32.ofNat i)
        else fallar (.palabraDemasiadoCorta limpia posicion)
      | _ => fallar (.palabraAmbigua limpia posicion candidatas.length)

/-- The inner loop of `leer`: whole bytes leave the accumulator. -/
def vaciar (acc : UInt32) (n : Nat) (plano : List UInt8) : Nat × List UInt8 :=
  if 8 ≤ n then
    vaciar acc (n - 8) (plano ++ [(acc >>> UInt32.ofNat (n - 8) &&& 0xff).toUInt8])
  else (n, plano)

/-- The accumulator of `leer`, the bits of it still to leave, and the bytes that left. -/
structure Deshecho where
  acc : UInt32
  n : Nat
  plano : List UInt8

def Deshecho.meter (d : Deshecho) (idx : UInt32) : Deshecho :=
  let acc := d.acc <<< 11 ||| idx
  let r := vaciar acc (d.n + 11) d.plano
  ⟨acc, r.1, r.2⟩

def Deshecho.cerrar (d : Deshecho) : List UInt8 :=
  if 0 < d.n then d.plano ++ [(d.acc <<< UInt32.ofNat (8 - d.n) &&& 0xff).toUInt8] else d.plano

def bytesDe (palabras : Nat) : Res PalabrasError Nat :=
  match palabras with
  | 12 => .ok 16
  | 15 => .ok 20
  | 18 => .ok 24
  | 21 => .ok 28
  | 24 => .ok 32
  | n => fallar (.cuentaNoAdmitida n)

/-- The indices of the tokens of a text. -/
def indicesDe (palabras : List String) (crudas : List (List Char)) :
    Res PalabrasError (List UInt32) :=
  crudas.zipIdx.mapM fun cruda => indiceDe palabras (limpiar cruda.1) (cruda.2 + 1)

/-- `leer` with any list of words. -/
def leerDe (palabras : List String) (sha256 : List UInt8 → Arr 32) (texto : String) :
    Res PalabrasError (List UInt8) := do
  let crudas := splitWhitespace texto
  rechazarSi (crudas = []) .vacio
  let bytes ← bytesDe crudas.length
  let indices ← indicesDe palabras crudas
  let bitsSuma := bytes * 8 / 32
  let plano := (indices.foldl Deshecho.meter ⟨0, 0, []⟩).cerrar
  let entropia ← tramo plano 0 bytes
  let esperada ← octeto (sha256 entropia).toList 0
  let mascara : UInt8 := 0xff <<< UInt8.ofNat (8 - bitsSuma)
  let ultimo ← octeto plano bytes
  rechazarSi (ultimo &&& mascara ≠ esperada &&& mascara) .sumaDeVerificacion
  pure entropia

def leer (lista : Lista) (sha256 : List UInt8 → Arr 32) (texto : String) :
    Res PalabrasError (List UInt8) := leerDe lista.palabras sha256 texto

end Quipu.Palabras
