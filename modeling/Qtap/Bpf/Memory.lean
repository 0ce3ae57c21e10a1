import Qtap.Core.LittleEndian

/-!
# User memory and buffers

What a BPF program sees of the memory of the traced process: bytes that it may or may not
be able to read.  A buffer is a range of bytes or, with a positive count, an array of
`struct iovec`.
-/

namespace Qtap.Bpf

open Qtap.Core

abbrev Memory := ℕ → Option Byte

/-- `bpf_probe_read_user`: all the bytes or none. -/
def probeReadUser (memory : Memory) (size address : ℕ) : Option (List Byte) :=
  (List.range size).mapM fun i => memory (address + i)

/-- A `struct iovec`: base and length. -/
def readIovec (memory : Memory) (address : ℕ) : Option (ℕ × ℕ) :=
  (probeReadUser memory 16 address).map fun bytes =>
    (leValue (bytes.take 8), leValue (bytes.drop 8))

/-- An `int` from a wider number. -/
def asInt (value : ℤ) : ℤ := value.bmod (2 ^ 32)

/-- A `size_t` from a signed number. -/
def asSize (value : ℤ) : ℕ := (value % 2 ^ 64).toNat

structure BufInfo where
  buf : ℕ
  iovcnt : ℕ

def bufChunkLimit : ℕ := 4

/-- The loop of `buf_read_iovec`, from entry `i` on; nothing when no byte was read. -/
def bufReadIovec (memory : Memory) (info : BufInfo) (size offset : ℕ) :
    ℕ → ℕ → ℕ → Option (List Byte)
  | 0, _, _ => none
  | rounds + 1, i, skipped =>
    match readIovec memory (info.buf + 16 * i) with
    | none => none
    | some (base, length) =>
      if skipped < offset ∧ length ≤ offset - skipped then
        bufReadIovec memory info size offset rounds (i + 1) (skipped + length)
      else probeReadUser memory size (base + if skipped < offset then offset - skipped else 0)

/-- `buf_read` into a buffer of `size` bytes; nothing when it returns 0. -/
def bufRead (memory : Memory) (size : ℕ) (info : BufInfo) (offset : ℕ) : Option (List Byte) :=
  if size = 0 then none
  else if info.iovcnt = 0 then probeReadUser memory size (info.buf + offset)
  else bufReadIovec memory info size offset (min bufChunkLimit info.iovcnt) 0 0

end Qtap.Bpf
