import Quipu.BigEndian
import Quipu.Chunks
import Quipu.Fallo
import Quipu.Hamming

namespace Quipu

/-- The Reed-Solomon crate: the `p` bytes that `Encoder::new(p).encode` puts after a block, and
the buffer that `Decoder::new(p).correct` gives, as long as its argument. -/
structure ReedSolomon where
  ecc : (p : Nat) → List UInt8 → Arr p
  correct : Nat → (msg : List UInt8) → Option (Arr msg.length)

namespace ReedSolomon

def encode (rs : ReedSolomon) (p : Nat) (block : List UInt8) : List UInt8 :=
  block ++ (rs.ecc p block).toList

/-- `correct(..).ok()?.data()`: the corrected buffer without its parity. -/
def data (rs : ReedSolomon) (p : Nat) (msg : List UInt8) : Option (List UInt8) :=
  (rs.correct p msg).map fun c => c.toList.take (msg.length - p)

/-- Up to half the parity in errors, at unknown positions of a block of the code, is corrected, for
the parities that `PARIDAD_MAXIMA` lets through. -/
def Corrige (rs : ReedSolomon) : Prop :=
  ∀ (p : Nat) (block r : List UInt8), p ≤ 128 → block.length + p ≤ 255 →
    r.length = block.length + p → errores r (rs.encode p block) ≤ p / 2 →
    (rs.correct p r).map List.Vector.toList = some (rs.encode p block)

@[simp] theorem length_encode (rs : ReedSolomon) (p : Nat) (block : List UInt8) :
    (rs.encode p block).length = block.length + p := by
  simp [encode]

theorem data_of_errores {rs : ReedSolomon} (hrs : rs.Corrige) {p : Nat} {block r : List UInt8}
    (hp : p ≤ 128) (hb : block.length + p ≤ 255) (hr : r.length = block.length + p)
    (he : errores r (rs.encode p block) ≤ p / 2) : rs.data p r = some block := by
  obtain ⟨c, hc, hv⟩ := Option.map_eq_some_iff.mp (hrs p block r hp hb hr he)
  rw [data, hc, Option.map_some, hv, hr, Nat.add_sub_cancel, encode, List.take_left]

end ReedSolomon

namespace Ecc

def header : Nat := 5

def headerParity : Nat := 10

def headerBlock : Nat := header + headerParity

def paridadMaxima : UInt8 := 128

/-- `parity.clamp(2, PARIDAD_MAXIMA)`. -/
def ajustar (parity : UInt8) : UInt8 :=
  if parity < 2 then 2 else if paridadMaxima < parity then paridadMaxima else parity

def protect (rs : ReedSolomon) (data : List UInt8) (parity : UInt8) : List UInt8 :=
  rs.encode headerParity (ajustar parity :: le 4 data.length) ++
    ((chunks (255 - (ajustar parity).toNat) data).map (rs.encode (ajustar parity).toNat)).flatten

/-- The loop of `recover` over the blocks, with `remaining` bytes of data to come. -/
def recoverLoop (rs : ReedSolomon) (parity : Nat) (h : parity ≤ 128) (remaining : Nat)
    (body : List UInt8) : Option (List UInt8) :=
  if remaining = 0 then some [] else
  let dataInBlock := min remaining (255 - parity)
  let blockLen := dataInBlock + parity
  if body.length < blockLen then none else do
    let corrected ← rs.data parity (body.take blockLen)
    let out ← recoverLoop rs parity h (remaining - dataInBlock) (body.drop blockLen)
    some (corrected.take dataInBlock ++ out)
termination_by remaining

def recover (rs : ReedSolomon) (protegido : List UInt8) : Option (List UInt8) :=
  if protegido.length < headerBlock then none else do
    let cabecera ← rs.data headerParity (protegido.take headerBlock)
    let parity ← cabecera[0]?
    if h : 2 ≤ parity ∧ parity ≤ paridadMaxima then
      let dataLen := ofLe ((cabecera.drop 1).take 4)
      if protegido.length < dataLen then none
      else
        recoverLoop rs parity.toNat (UInt8.le_iff_toNat_le.mp h.2) dataLen
          (protegido.drop headerBlock)
    else none

theorem headerBlock_eq : headerBlock = 15 := rfl

theorem ajustar_mem (parity : UInt8) :
    2 ≤ (ajustar parity).toNat ∧ (ajustar parity).toNat ≤ 128 := by
  unfold ajustar paridadMaxima
  split
  next h => decide
  next h =>
    split
    next => decide
    next h' =>
      rw [UInt8.lt_iff_toNat_lt] at h h'
      exact ⟨Nat.not_lt.mp h, Nat.not_lt.mp h'⟩

end Ecc

end Quipu
