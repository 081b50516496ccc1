import Notary.Lib.Json
import Notary.Lib.Search

/-! Classes of bytes, and texts as lists of characters. -/

namespace Ascii
open Utf8

def isWhitespace (b : UInt8) : Bool := b = 0x20 || b = 0x09 || b = 0x0A || b = 0x0C || b = 0x0D

def isLowercase (b : UInt8) : Bool := 0x61 ≤ b && b ≤ 0x7A

def isUppercase (b : UInt8) : Bool := 0x41 ≤ b && b ≤ 0x5A

def isDigit (b : UInt8) : Bool := 0x30 ≤ b && b ≤ 0x39

def isAlphanumeric (b : UInt8) : Bool := isLowercase b || isUppercase b || isDigit b

def isHexDigit (b : UInt8) : Bool :=
  isDigit b || (0x61 ≤ b && b ≤ 0x66) || (0x41 ≤ b && b ≤ 0x46)

def toLowercase (b : UInt8) : UInt8 := if isUppercase b then b + 0x20 else b

def eqIgnoreCase (a b : Bytes) : Bool := a.map toLowercase = b.map toLowercase

def trim (b : Bytes) : Bytes := Search.trim isWhitespace b

end Ascii

namespace Text

/-- The characters that Unicode counts as white space. -/
def isWhitespace (c : Char) : Bool :=
  let n := c.toNat
  (0x09 ≤ n && n ≤ 0x0D) || n = 0x20 || n = 0x85 || n = 0xA0 || n = 0x1680 ||
    (0x2000 ≤ n && n ≤ 0x200A) || n = 0x2028 || n = 0x2029 || n = 0x202F || n = 0x205F || n = 0x3000

def isAsciiWhitespace (c : Char) : Bool :=
  c = ' ' || c = '\t' || c = '\n' || c = '\x0c' || c = '\r'

def trim (t : List Char) : List Char := Search.trim isWhitespace t

def trimStart (t : List Char) : List Char := t.dropWhile isWhitespace

/-- The lines of a text. A line ends with a line feed and may have a carriage return before it;
the last one need not end. -/
def lines (t : List Char) : List (List Char) :=
  let pieces := t.splitOnP (· = '\n')
  pieces.dropLast.map (fun line => (Search.stripEnd ['\r'] line).getD line) ++
    (pieces.getLast?.toList.filter (· ≠ []))

def toAsciiLowercase (c : Char) : Char :=
  if 'A' ≤ c ∧ c ≤ 'Z' then Char.ofNat (c.toNat + 32) else c

def eqIgnoreAsciiCase (s t : List Char) : Bool := s.map toAsciiLowercase = t.map toAsciiLowercase

/-- The text with its line ends as single line feeds. -/
def unifyLineEnds : List Char → List Char
  | '\r' :: '\n' :: t => '\n' :: unifyLineEnds t
  | c :: t => c :: unifyLineEnds t
  | [] => []

/-- The value of a hexadecimal number in 64 bits, which may have a plus sign. -/
def parseHex (t : List Char) : Option ℕ :=
  let digits := (Search.stripStart ['+'] t).getD t
  if digits = [] then none
  else do
    let values ← digits.mapM Json.hexValue
    let n := values.foldl (fun n d => 16 * n + d) 0
    if n < 2 ^ 64 then some n else none

/-- The value of a decimal number in 64 bits, which may have a plus sign. -/
def parseU64 (t : List Char) : Option ℕ :=
  let digits := (Search.stripStart ['+'] t).getD t
  if digits ≠ [] ∧ digits.all Char.isDigit ∧ Nat.ofDigitChars 10 digits 0 < 2 ^ 64 then
    some (Nat.ofDigitChars 10 digits 0)
  else none

def splitAsciiWhitespace (t : List Char) : List (List Char) :=
  (t.splitOnP isAsciiWhitespace).filter (· ≠ [])

end Text
