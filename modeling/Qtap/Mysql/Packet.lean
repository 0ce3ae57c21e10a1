import Qtap.Core.Framing
import Qtap.Core.LittleEndian

/-!
# MySQL packets

A packet is three length bytes, a sequence number and the payload.  The parser keeps
a buffer, refuses input that would exceed `maxBufferSize` and hands out complete
packets.
-/

namespace Qtap.Mysql

open List Qtap.Core

/-- The fields of a column definition that `parseColumnDefinition` names in errors. -/
inductive ColumnField where
  | catalog
  | schema
  | table
  | orgTable
  | name
  | orgName
  deriving DecidableEq, Repr

inductive ParserError where
  | incomplete
  | invalidPacket
  | bufferFull
  | reading (field : ColumnField) (cause : ParserError)
  | unexpectedEndOfRow (column : ℕ)
  | readingRowValueLength (column : ℕ) (cause : ParserError)
  | incompleteRowValue (column : ℕ)
  deriving DecidableEq, Repr

structure Packet where
  sequenceID : Byte
  payload : List Byte
  deriving DecidableEq, Repr

/-- `Length` of the source: `ParsePacket` reads a payload of exactly that length. -/
def Packet.length (packet : Packet) : ℕ := packet.payload.length

def maxBufferSize : ℕ := 16 * 1024 * 1024 + 4

structure Parser where
  buffer : List Byte := []
  deriving DecidableEq, Repr

def Parser.append (parser : Parser) (data : List Byte) : Parser × Option ParserError :=
  if parser.buffer.length + data.length > maxBufferSize then
    ({ buffer := [] }, some .bufferFull)
  else
    ({ buffer := parser.buffer ++ data }, none)

/-- `ParsePacket`, on the buffer: `none` is `ErrIncomplete`, its only error. -/
def parsePacket : List Byte → Option (Packet × List Byte)
  | low :: middle :: high :: sequenceID :: rest =>
    let length := leValue [low, middle, high]
    if rest.length < length then none
    else some ({ sequenceID := sequenceID, payload := rest.take length }, rest.drop length)
  | _ => none

def buildPacket (packet : Packet) : List Byte :=
  leBytes 3 packet.payload.length ++ packet.sequenceID :: packet.payload

@[simp]
theorem length_buildPacket (packet : Packet) :
    (buildPacket packet).length = packet.payload.length + 4 := by
  simp only [buildPacket, length_append, length_leBytes, length_cons]
  omega

theorem length_of_parsePacket {buffer rest : List Byte} {packet : Packet}
    (hparse : parsePacket buffer = some (packet, rest)) :
    buffer.length = (buildPacket packet).length + rest.length := by
  match buffer, hparse with
  | low :: middle :: high :: sequenceID :: tail, hparse =>
    simp only [parsePacket] at hparse
    split_ifs at hparse with hshort
    simp only [Option.some.injEq, Prod.mk.injEq] at hparse
    rw [length_buildPacket, ← hparse.1, ← hparse.2, length_take, length_drop]
    simp only [length_cons]
    omega

theorem parsePacket_shrinks {buffer rest : List Byte} {packet : Packet}
    (hparse : parsePacket buffer = some (packet, rest)) : rest.length < buffer.length := by
  rw [length_of_parsePacket hparse, length_buildPacket]
  omega

theorem parsePacket_stable {buffer rest : List Byte} {packet : Packet}
    (hparse : parsePacket buffer = some (packet, rest)) (more : List Byte) :
    parsePacket (buffer ++ more) = some (packet, rest ++ more) := by
  match buffer, hparse with
  | low :: middle :: high :: sequenceID :: tail, hparse =>
    simp only [parsePacket] at hparse
    split_ifs at hparse with hshort
    rw [Nat.not_lt] at hshort
    have hlong : ¬ (tail ++ more).length < leValue [low, middle, high] := by
      rw [length_append]
      omega
    simp only [Option.some.injEq, Prod.mk.injEq] at hparse
    simp only [cons_append, parsePacket, if_neg hlong]
    rw [take_append_of_le_length hshort, drop_append_of_le_length hshort, hparse.1, hparse.2]

def packetFramer : Framer Byte Packet where
  next := parsePacket
  shrinks := parsePacket_shrinks
  stable := parsePacket_stable

/-- Payloads that fit the three length bytes are read back. -/
theorem packetFramer_encodes :
    packetFramer.Encodes buildPacket fun packet => packet.payload.length < 2 ^ 24 := by
  intro packet hlength more
  have hvalue := leValue_leBytes 3 packet.payload.length (by simpa using hlength)
  simp only [leBytes] at hvalue
  simp [packetFramer, buildPacket, leBytes, parsePacket, hvalue]

end Qtap.Mysql
