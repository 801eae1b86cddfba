import TradeServers.StatementText
import TradeServers.Library.DecimalText

/-!
# Reading text with the C and C++ libraries

What the programs call to read text: `sscanf` with `%d`, `atoi`, `strtok`, and the stream operator
that reads a word. The conversions of numbers that are not integers depend on the platform and are
parameters where they are used.
-/

set_option autoImplicit false
set_option relaxedAutoImplicit false

namespace TradeServers

/-- `isspace` in the C locale. -/
def isSpace (byte : UInt8) : Bool := byte = 32 || (9 ≤ byte && byte ≤ 13)

/-- `isdigit`. -/
def isDigit (byte : UInt8) : Bool := 48 ≤ byte && byte ≤ 57

/-- The conversion `%d` of `sscanf`: white space, a sign and digits, of which there must be one. The
number is converted as by `strtol` and then cut to an `int`. -/
def scanInt (text : Bytes) : Option (ℤ × Bytes) :=
  let text := text.dropWhile isSpace
  let negative := text.head? = some 45
  let text := if text.head? = some 45 ∨ text.head? = some 43 then text.tail else text
  let digits := text.takeWhile isDigit
  if digits = [] then none
  else
    let number : ℤ := DecimalText.readNat digits
    let long := max (-2 ^ 63) (min (if negative then -number else number) (2 ^ 63 - 1))
    some (long.bmod (2 ^ 32), text.dropWhile isDigit)

/-- `sscanf` with `%d` conversions between separators: the numbers up to the first mismatch. A blank
in the format stands for any white space. -/
def scanInts : List UInt8 → Bytes → List ℤ
  | [], text => (scanInt text).toList.map Prod.fst
  | separator :: separators, text =>
    match scanInt text with
    | none => []
    | some (number, rest) =>
      if separator = space then number :: scanInts separators (rest.dropWhile isSpace)
      else if rest.head? = some separator then number :: scanInts separators rest.tail
      else [number]

/-- `strtok` until it returns `NULL`: the nonempty pieces between the delimiters. -/
def strtok (delimiter : UInt8) (text : Bytes) : List Bytes :=
  ((cString text).splitOn delimiter).filter (· ≠ [])

/-- The stream operator that reads a word: the new value of the string, which stays when there is
none, and the rest of the stream. -/
def readWord (stream previous : Bytes) : Bytes × Bytes :=
  let stream := stream.dropWhile isSpace
  if stream = [] then (previous, [])
  else (stream.takeWhile fun byte ↦ !isSpace byte, stream.dropWhile fun byte ↦ !isSpace byte)

/-- `atoi` of `text.c_str()`. -/
def atoi (text : Bytes) : ℤ := ((scanInt (cString text)).map Prod.fst).getD 0

end TradeServers
