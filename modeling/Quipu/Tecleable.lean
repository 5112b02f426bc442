import Quipu.Ecc
import Quipu.Servidor

namespace Quipu.Tecleable

open Servidor

inductive Marco where
  | desnudo
  | protegido (paridad : UInt8)
  deriving DecidableEq

inductive TecleableError where
  | caracterImposible (caracter : Char) (posicion : Nat)
  | caracterAmbiguo (caracter : Char) (posicion : Nat) (lecturas : String)
  | vacio
  | noSeRecupera
  | paridadExcesiva (dada maxima : UInt8)
  deriving DecidableEq

def alfabeto : List Char := "ABCDEFGHIJKLMNOPQRSTUVWXYZ234567".toList

def relleno : Char := '='

def grupo : Nat := 5

def gruposPorLinea : Nat := 6

/-- A `u16` of bits, how many of them are still to leave, and what left. -/
structure Acumulador where
  acc : UInt16
  bits : Nat
  out : List UInt8

/-- The inner loop of `a_cinco_bits`. -/
def sacarCinco (acc : UInt16) (bits : Nat) (out : List UInt8) : Nat × List UInt8 :=
  if 5 ≤ bits then
    sacarCinco acc (bits - 5) (out ++ [(acc >>> UInt16.ofNat (bits - 5) &&& 0x1f).toUInt8])
  else (bits, out)

def Acumulador.meterOcho (a : Acumulador) (b : UInt8) : Acumulador :=
  let acc := a.acc <<< 8 ||| b.toUInt16
  let r := sacarCinco acc (a.bits + 8) a.out
  ⟨acc, r.1, r.2⟩

/-- Bytes to symbols of five bits. -/
def aCincoBits (datos : List UInt8) : List UInt8 :=
  let a := datos.foldl Acumulador.meterOcho ⟨0, 0, []⟩
  if 0 < a.bits then a.out ++ [(a.acc <<< UInt16.ofNat (5 - a.bits) &&& 0x1f).toUInt8] else a.out

def Acumulador.meterCinco (a : Acumulador) (s : UInt8) : Acumulador :=
  let acc := a.acc <<< 5 ||| (s &&& 0x1f).toUInt16
  let bits := a.bits + 5
  if 8 ≤ bits then
    ⟨acc, bits - 8, a.out ++ [(acc >>> UInt16.ofNat (bits - 8) &&& 0xff).toUInt8]⟩
  else ⟨acc, bits, a.out⟩

/-- Symbols of five bits to bytes; the bits left over are dropped. -/
def deCincoBits (simbolos : List UInt8) : List UInt8 :=
  (simbolos.foldl Acumulador.meterCinco ⟨0, 0, []⟩).out

/-- What goes in front of position `i`: a line feed or a space between groups. -/
def separador (i : Nat) : List Char :=
  if 0 < i then
    if i % (grupo * gruposPorLinea) = 0 then ['\n'] else if i % grupo = 0 then [' '] else []
  else []

/-- `ALFABETO[*c as usize] as char`, or the padding behind the last symbol. -/
def caracterEn (simbolos : List UInt8) (i : Nat) : Res TecleableError Char :=
  match simbolos[i]? with
  | some c =>
    match alfabeto[c.toNat]? with
    | some a => pure a
    | none => panico "index out of bounds"
  | none => pure relleno

def escribir (rs : ReedSolomon) (datos : List UInt8) (marco : Marco) :
    Res TecleableError String := do
  let flujo ← match marco with
    | .desnudo => pure datos
    | .protegido paridad => do
      rechazarSi (Ecc.paridadMaxima < paridad) (.paridadExcesiva paridad Ecc.paridadMaxima)
      pure (Ecc.protect rs datos paridad)
  let simbolos := aCincoBits flujo
  let conRelleno := (simbolos.length + 7) / 8 * 8
  let s ← (List.range conRelleno).foldlM (fun s i => do
    let c ← caracterEn simbolos i
    pure (s ++ separador i ++ [c])) []
  pure (String.ofList s)

/-- The characters that `leer` passes over. -/
def saltado (c : Char) : Bool := isWhitespace c || c == '-' || c == '_' || c == relleno

/-- A letter in upper case, and a zero as the letter O. -/
def subir (c : Char) : Char :=
  let arriba := c.toUpper
  if arriba = '0' then 'O' else arriba

def simboloDe (c : Char) (posicion : Nat) : Res TecleableError UInt8 := do
  let arriba := subir c
  rechazarSi (arriba = '1') (.caracterAmbiguo c posicion "«I» o «L»")
  rechazarSi (arriba = '8') (.caracterAmbiguo c posicion "«B» o «S»")
  match alfabeto.idxOf? arriba with
  | some i => pure (UInt8.ofNat i)
  | none => fallar (.caracterImposible c posicion)

/-- The loop of `leer` over the characters. -/
def simbolosDe : List Char → Nat → List UInt8 → Res TecleableError (List UInt8)
  | [], _, simbolos => pure simbolos
  | c :: cs, posicion, simbolos =>
    if saltado c then simbolosDe cs posicion simbolos
    else do
      let s ← simboloDe c posicion
      simbolosDe cs (posicion + 1) (simbolos ++ [s])

def leer (rs : ReedSolomon) (texto : String) (marco : Marco) :
    Res TecleableError (List UInt8) := do
  let simbolos ← simbolosDe texto.toList 0 []
  rechazarSi (simbolos = []) .vacio
  let flujo := deCincoBits simbolos
  match marco with
  | .desnudo => pure flujo
  | .protegido _ =>
    match Ecc.recover rs flujo with
    | some datos => pure datos
    | none => fallar .noSeRecupera

end Quipu.Tecleable
