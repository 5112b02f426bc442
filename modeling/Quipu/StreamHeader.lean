import Quipu.BigEndian
import Quipu.Mundo
import Quipu.StreamLoop

namespace Quipu

namespace Stream

/-- The bytes of `QST1`. -/
def magic : List UInt8 := [0x51, 0x53, 0x54, 0x31]

def version : UInt8 := 1

def headerLen : Nat := 57

def streamInfoPrefix : List UInt8 := utf8 "quipu/stream/v1"

def minChunkSize : Nat := 4096

def maxChunkSize : Nat := 16 * 1024 * 1024

structure StreamHeader where
  kdfParams : KdfParams
  salt : Arr 16
  noncePrefix : Arr 19
  chunkSize : UInt32
  deriving DecidableEq

def StreamHeader.toBytes (h : StreamHeader) : List UInt8 :=
  magic ++ [version] ++ [0] ++ u32Be h.kdfParams.memKib ++ u32Be h.kdfParams.iterations ++
    u32Be h.kdfParams.parallelism ++ h.salt.toList ++ h.noncePrefix.toList ++ u32Be h.chunkSize

/-- The closure `rd` of `from_bytes`. -/
def rd (b : List UInt8) (o : Nat) : Res StreamError UInt32 := do
  let a ← campo b o 4
  pure (u32OfBe a.toList)

def StreamHeader.fromBytes (b : List UInt8) : Res StreamError StreamHeader := do
  rechazarSi (b.length < headerLen) .header
  rechazarSi (b.take 4 ≠ magic) .header
  let v ← octeto b 4
  rechazarSi (v ≠ version) (.unsupportedVersion v)
  let memKib ← rd b 6
  let iterations ← rd b 10
  let parallelism ← rd b 14
  let kdfParams : KdfParams := ⟨memKib, iterations, parallelism⟩
  rechazarSi (kdfParams.isSane = false) .insaneKdf
  let salt ← campo b 18 16
  let noncePrefix ← campo b 34 19
  let chunkSize ← rd b 53
  rechazarSi (chunkSize.toNat < minChunkSize ∨ maxChunkSize < chunkSize.toNat) .badChunkSize
  pure ⟨kdfParams, salt, noncePrefix, chunkSize⟩

/-- The header whose fields stand at the offsets that `from_bytes` reads. -/
def StreamHeader.leido (b : List UInt8) (h : b.length = 57) : StreamHeader where
  kdfParams := ⟨u32OfBe ((b.drop 6).take 4), u32OfBe ((b.drop 10).take 4),
    u32OfBe ((b.drop 14).take 4)⟩
  salt := Arr.of ((b.drop 18).take 16) (by simp [h])
  noncePrefix := Arr.of ((b.drop 34).take 19) (by simp [h])
  chunkSize := u32OfBe ((b.drop 53).take 4)

/-- What `from_bytes` asks of a header besides its length; the flags byte has no part in it. -/
def StreamHeader.Admisible (b : List UInt8) (h : b.length = 57) : Prop :=
  b.take 4 = magic ∧ b[4] = version ∧ (StreamHeader.leido b h).kdfParams.isSane = true ∧
    minChunkSize ≤ (StreamHeader.leido b h).chunkSize.toNat ∧
    (StreamHeader.leido b h).chunkSize.toNat ≤ maxChunkSize

@[simp] theorem StreamHeader.length_toBytes (h : StreamHeader) : h.toBytes.length = 57 := by
  simp [StreamHeader.toBytes, magic]

theorem rd_ok {b : List UInt8} {o : Nat} (h : o + 4 ≤ b.length) :
    rd b o = .ok (u32OfBe ((b.drop o).take 4)) := by
  simp only [rd, campo_ok h, bind, Except.bind, pure, Except.pure]
  rfl

/-- On the 57 bytes that `decrypt_stream` reads, `from_bytes` succeeds exactly on the
admissible ones. -/
theorem StreamHeader.fromBytes_eq_ok {b : List UInt8} (h : b.length = 57) {c : StreamHeader} :
    StreamHeader.fromBytes b = .ok c ↔
      StreamHeader.Admisible b h ∧ StreamHeader.leido b h = c := by
  unfold StreamHeader.fromBytes
  rw [rd_ok (by omega), rd_ok (by omega), rd_ok (by omega), rd_ok (by omega),
    octeto_ok (by omega), campo_ok (by omega), campo_ok (by omega),
    rechazarSi_of_not _ (by simp [h, headerLen])]
  simp only [Res.ok_bind, Res.bind_ok, rechazarSi_eq_ok, Res.pure_eq_ok, exists_const,
    StreamHeader.Admisible, StreamHeader.leido, not_or, not_lt, ne_eq, not_not,
    Bool.not_eq_false]
  tauto

theorem StreamHeader.leido_toBytes (h : StreamHeader) :
    StreamHeader.leido h.toBytes h.length_toBytes = h := by
  cases h
  simp [StreamHeader.leido, StreamHeader.toBytes, magic, List.drop_append,
    List.drop_of_length_le, List.take_of_length_le]

/-- A header in range survives its own encoding. -/
theorem StreamHeader.fromBytes_toBytes {h : StreamHeader} (hs : h.kdfParams.isSane = true)
    (hlo : minChunkSize ≤ h.chunkSize.toNat) (hhi : h.chunkSize.toNat ≤ maxChunkSize) :
    StreamHeader.fromBytes h.toBytes = .ok h := by
  rw [StreamHeader.fromBytes_eq_ok h.length_toBytes]
  refine ⟨⟨rfl, rfl, ?_, ?_, ?_⟩, h.leido_toBytes⟩
  · rwa [h.leido_toBytes]
  · rwa [h.leido_toBytes]
  · rwa [h.leido_toBytes]

end Stream

end Quipu
