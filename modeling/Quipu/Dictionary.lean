import Quipu.BigEndian
import Quipu.Fallo
import Mathlib.Data.Nat.Digits.Defs

namespace Quipu

inductive DictionaryError where
  | tooSmall
  | duplicateSymbol (c : Char)
  | unknownSymbol (c : Char)
  | indexOutOfRange (i : Nat)
  deriving DecidableEq, Repr

/-- A codebook: the symbol of an index is the one at its place. -/
structure Dictionary where
  symbols : List Char
  dos : 2 ≤ symbols.length
  nodup : symbols.Nodup

namespace Dictionary

def base (d : Dictionary) : Nat := d.symbols.length

def symbolToIndex (d : Dictionary) (c : Char) : Option Nat := d.symbols.idxOf? c

def decodeChars (d : Dictionary) : List Char → Except DictionaryError (List Nat)
  | [] => .ok []
  | c :: cs => do
    let i ← (d.symbolToIndex c).elim (.error (.unknownSymbol c)) .ok
    let is ← d.decodeChars cs
    pure (i :: is)

def decode (d : Dictionary) (text : String) : Except DictionaryError (List Nat) :=
  d.decodeChars text.toList

end Dictionary

namespace Codec

/-- `BigUint::to_bytes_be`: no leading zeros, and a single zero for zero. -/
def toBytesBe (v : Nat) : List UInt8 :=
  if v = 0 then [0] else ((Nat.digits 256 v).map UInt8.ofNat).reverse

def decodeBaseN (indices : List Nat) (n : Nat) : List UInt8 :=
  let value := indices.foldl (fun v d => v * n + d) 0
  (toBytesBe value).drop 1

end Codec

end Quipu
