import Qtap.Core.Outcome

/-!
# Header fields

The parts of `strings`, `net/textproto` and `net/http.Header` that the HTTP stream
processors rely on.  A header is the list of its fields in the order they were added,
under their canonical keys.
-/

namespace Qtap.Core

def ascii (text : String) : List Byte :=
  text.toList.map fun character => UInt8.ofNat character.toNat

def lowerByte (byte : Byte) : Byte :=
  if 65 ≤ byte ∧ byte ≤ 90 then byte + 32 else byte

def upperByte (byte : Byte) : Byte :=
  if 97 ≤ byte ∧ byte ≤ 122 then byte - 32 else byte

/-- Letters in lower case, with the two letters outside ASCII that fold to ASCII ones: the
long s and the Kelvin sign. -/
def foldText : List Byte → List Byte
  | 197 :: 191 :: rest => 115 :: foldText rest
  | 226 :: 132 :: 170 :: rest => 107 :: foldText rest
  | byte :: rest => lowerByte byte :: foldText rest
  | [] => []

/-- `strings.EqualFold` against an ASCII text. -/
def equalFold (left right : List Byte) : Bool := foldText left == foldText right

/-- The bytes of a header field name: letters, digits and the punctuation of a token. -/
def isTokenByte (byte : Byte) : Bool :=
  (48 ≤ byte && byte ≤ 57) || (65 ≤ byte && byte ≤ 90) || (97 ≤ byte && byte ≤ 122) ||
    [33, 35, 36, 37, 38, 39, 42, 43, 45, 46, 94, 95, 96, 124, 126].contains byte

/-- Capitals at the start of the name and after each hyphen, small letters elsewhere. -/
def capitalise (upper : Bool) : List Byte → List Byte
  | [] => []
  | byte :: rest =>
    (if upper then upperByte byte else lowerByte byte) :: capitalise (byte == 45) rest

def canonicalHeaderKey (name : List Byte) : List Byte :=
  if name.all isTokenByte then capitalise true name else name

abbrev Header := List (List Byte × List Byte)

namespace Header

def add (header : Header) (name value : List Byte) : Header :=
  header ++ [(canonicalHeaderKey name, value)]

def values (header : Header) (name : List Byte) : List (List Byte) :=
  (header.filter fun field => field.1 == canonicalHeaderKey name).map Prod.snd

/-- The first value of the field, the empty text when there is none. -/
def get (header : Header) (name : List Byte) : List Byte :=
  (header.values name).headD []

def set (header : Header) (name value : List Byte) : Header :=
  Header.add (header.filter fun field => field.1 != canonicalHeaderKey name) name value

end Header

end Qtap.Core
