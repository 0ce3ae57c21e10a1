import Qtap.Core.BigEndian
import Qtap.Core.Header

/-!
# Protocol detection of the forwarder

The detection functions look at the first bytes of a connection through `Peek`, which
returns `n` bytes, or the end of the stream when it comes before, and blocks otherwise.
The functions here return `none` where the call blocks.
-/

namespace Qtap.L7Detect

open Qtap.Core

/-- What has arrived and was not read, and whether the end of the stream has. -/
structure Peeker where
  buffered : List Byte
  ended : Bool

inductive Peek where
  | ready (bytes : List Byte)
  | eof
  | blocks

def Peeker.peek (conn : Peeker) (count : ℕ) : Peek :=
  if count ≤ conn.buffered.length then .ready (conn.buffered.take count)
  else if conn.ended then .eof
  else .blocks

inductive Protocol where
  | unknown
  | http1
  | http2
  | redis
  deriving DecidableEq, Repr

inductive DetectError where
  | eof
  | notTLSHandshake
  | badClientHello
  deriving DecidableEq, Repr

def detectTLS (conn : Peeker) : Option (Except DetectError Bool) :=
  match conn.peek 3 with
  | .blocks => none
  | .eof => some (.error .eof)
  | .ready first =>
    some (.ok (decide (3 ≤ first.length ∧ first[0]? = some 0x16 ∧ first[1]? = some 0x03)))

/-- A check of the first `count` bytes; the end of the stream before them is no error. -/
def checkFirst (count : ℕ) (accepts : List Byte → Bool) (conn : Peeker) : Option Bool :=
  match conn.peek count with
  | .blocks => none
  | .eof => some false
  | .ready bytes => some (accepts bytes)

/-- `http2.ClientPreface`. -/
def http2ClientPreface : List Byte := ascii "PRI * HTTP/2.0\r\n\r\nSM\r\n\r\n"

def http1MethodPrefixes : List (List Byte) :=
  [ascii "GET", ascii "HTTP", ascii "POST", ascii "PUT", ascii "DELETE", ascii "PATCH",
    ascii "CONNECT", ascii "HEAD", ascii "OPTIONS"]

def isHTTP2 : Peeker → Option Bool := checkFirst 24 fun bytes => http2ClientPreface.isPrefixOf bytes

def isHTTP1 : Peeker → Option Bool :=
  checkFirst 8 fun bytes => http1MethodPrefixes.any fun method => method.isPrefixOf bytes

/-- The start of a RESP array: `*` and a digit other than zero. -/
def isRedis : Peeker → Option Bool :=
  checkFirst 4 fun bytes =>
    match bytes with
    | star :: digit :: _ => star = 0x2a ∧ 0x31 ≤ digit ∧ digit ≤ 0x39
    | _ => false

def detectProtocol (conn : Peeker) : Option Protocol := do
  if ← isHTTP2 conn then return .http2
  if ← isHTTP1 conn then return .http1
  if ← isRedis conn then return .redis
  return .unknown

/-- `ParseClientHello`, which relies on a packet library, is a parameter. -/
def detectClientHello {H : Type*} (parseClientHello : List Byte → Option H) (conn : Peeker) :
    Option (Except DetectError H) :=
  match conn.peek 5 with
  | .blocks => none
  | .eof => some (.error .eof)
  | .ready header =>
    if header[0]? ≠ some 0x16 then some (.error .notTLSHandshake)
    else
      match conn.peek (5 + beValue ((header.drop 3).take 2)) with
      | .blocks => none
      | .eof => some (.error .eof)
      | .ready data =>
        match parseClientHello data with
        | none => some (.error .badClientHello)
        | some hello => some (.ok hello)

/-! ## When detection returns -/

variable {conn : Peeker}

theorem peek_of_le {count : ℕ} (hcount : count ≤ conn.buffered.length) :
    conn.peek count = .ready (conn.buffered.take count) := if_pos hcount

theorem peek_ne_blocks {count : ℕ} (hended : conn.ended = true) : conn.peek count ≠ .blocks := by
  rw [Peeker.peek]
  split <;> nofun

theorem checkFirst_ne_none {count : ℕ} {accepts : List Byte → Bool}
    (hpeek : conn.peek count ≠ .blocks) : checkFirst count accepts conn ≠ none := by
  rw [checkFirst]
  cases hresult : conn.peek count with
  | blocks => exact absurd hresult hpeek
  | _ => nofun

theorem detectTLS_ne_none (hended : conn.ended = true) : detectTLS conn ≠ none := by
  rw [detectTLS]
  cases hresult : conn.peek 3 with
  | blocks => exact absurd hresult (peek_ne_blocks hended)
  | _ => nofun

theorem detectClientHello_ne_none {H : Type*} (parseClientHello : List Byte → Option H)
    (hended : conn.ended = true) : detectClientHello parseClientHello conn ≠ none := by
  rw [detectClientHello]
  cases hheader : conn.peek 5 with
  | blocks => exact absurd hheader (peek_ne_blocks hended)
  | eof => nofun
  | ready header =>
    simp only
    split
    · nofun
    · cases hdata : conn.peek (5 + beValue ((header.drop 3).take 2)) with
      | blocks => exact absurd hdata (peek_ne_blocks hended)
      | eof => nofun
      | ready data => cases hparsed : parseClientHello data <;> simp [hparsed]

/-- Detection returns as soon as the longest of its checks does. -/
theorem detectProtocol_ne_none (hpeek : ∀ count ≤ 24, conn.peek count ≠ .blocks) :
    detectProtocol conn ≠ none := by
  obtain ⟨http2, hhttp2⟩ := Option.ne_none_iff_exists'.1 (checkFirst_ne_none (hpeek 24 le_rfl))
  obtain ⟨http1, hhttp1⟩ := Option.ne_none_iff_exists'.1 (checkFirst_ne_none (hpeek 8 (by decide)))
  obtain ⟨redis, hredis⟩ := Option.ne_none_iff_exists'.1 (checkFirst_ne_none (hpeek 4 (by decide)))
  rw [detectProtocol, isHTTP2, hhttp2, isHTTP1, hhttp1, isRedis, hredis]
  cases http2 <;> cases http1 <;> cases redis <;> nofun

theorem detectProtocol_ne_none_of_length (hlength : 24 ≤ conn.buffered.length) :
    detectProtocol conn ≠ none := by
  apply detectProtocol_ne_none
  intro count hcount
  rw [peek_of_le (hcount.trans hlength)]
  nofun

/-- What was recognised stays recognised when more arrives. -/
theorem detectTLS_append {bytes : List Byte} {ended : Bool} {isTLS : Bool} (more : List Byte)
    (later : Bool) (hdetect : detectTLS ⟨bytes, ended⟩ = some (.ok isTLS)) :
    detectTLS ⟨bytes ++ more, later⟩ = some (.ok isTLS) := by
  have hlength : 3 ≤ bytes.length := by
    by_contra hshort
    rw [detectTLS, Peeker.peek, if_neg hshort] at hdetect
    cases ended <;> simp at hdetect
  have hmore : 3 ≤ (bytes ++ more).length := by
    rw [List.length_append]
    exact hlength.trans (Nat.le_add_right _ _)
  rw [detectTLS, peek_of_le hlength] at hdetect
  rw [detectTLS, peek_of_le hmore, List.take_append_of_le_length hlength]
  exact hdetect

end Qtap.L7Detect
