import SchemaGate.Json.Token

/-!
# Documents a tree can hold

A decoder that first reads its whole text into a tree refuses some documents that the grammar
allows: strings that are no text, arrays and objects nested too deep, and numbers too large for
double precision. `fits` is that judgement, on every value of the document.
-/

namespace SchemaGate.Json

/-! ## Numbers -/

/-- A natural number rounded to the nearest with 53 significant bits, a tie to the even one. -/
def roundBits (n : Nat) : Nat :=
  let drop := n.log2 + 1 - 53
  let unit := Nat.pow 2 drop
  let low := n / unit
  let rest := n % unit
  if 2 * rest > unit || (2 * rest == unit && low % 2 == 1) then (low + 1) * unit else low * unit

/-- The least natural number that rounds to infinity in double precision. -/
def overflowBound : Nat := Nat.pow 2 1024 - Nat.pow 2 970

/-- The parts of a number's spelling without its sign: whole digits, fraction digits, and the
exponent with whether it is negative. -/
def numberParts (spelling : String) : List Char × List Char × Bool × Nat :=
  let (whole, rest) := digits (spelling.toList.dropWhile (· == '-'))
  let (fraction, rest) := match rest with
    | '.' :: rest => digits rest
    | rest => ([], rest)
  match rest.drop 1 with
  | '-' :: ds => (whole, fraction, true, Nat.ofDigitChars 10 ds 0)
  | '+' :: ds => (whole, fraction, false, Nat.ofDigitChars 10 ds 0)
  | ds => (whole, fraction, false, Nat.ofDigitChars 10 ds 0)

/-- Reads digits into a significand below `2^64`. Once a digit does not fit, it and all behind it
are left. -/
def significand (n : Nat) : List Char → Nat × List Char
  | [] => (n, [])
  | c :: cs =>
    let next := n * 10 + (c.toNat - '0'.toNat)
    if next < Nat.pow 2 64 then significand next cs else (n, c :: cs)

/-- Whether a number is finite in double precision. The significand keeps the digits that fit 64
bits; whole digits beyond those count into the exponent, and fraction digits beyond are dropped. The
value is the rounded significand times the rounded power of ten, rounded once more. -/
def isFinite (spelling : String) : Bool :=
  let (whole, fraction, negative, exponent) := numberParts spelling
  let (n, excess) := significand 0 whole
  let (n, unread) := significand n fraction
  let shift : Int := excess.length - (fraction.length - unread.length)
  let power : Int := if negative then shift - exponent else shift + exponent
  n == 0 || power < 0 ||
    (power ≤ 308 && roundBits n * roundBits (Nat.pow 10 power.toNat) < overflowBound)

/-! ## The whole document -/

/-- How many arrays and objects may be nested. -/
def maxDepth : Nat := 127

mutual

/-- Whether a tree can hold a document, with this many levels of nesting left. -/
def fitsWithin (levels : Nat) : Json → Bool
  | .arr items => match levels with
    | 0 => false
    | levels + 1 => itemsFitWithin levels items
  | .obj members => match levels with
    | 0 => false
    | levels + 1 => membersFitWithin levels members
  | .num spelling => isFinite spelling
  | .str text => text.isSome
  | .null => true
  | .bool _ => true

def itemsFitWithin (levels : Nat) : List Json → Bool
  | [] => true
  | item :: items => fitsWithin levels item && itemsFitWithin levels items

def membersFitWithin (levels : Nat) : List (Option String × Json) → Bool
  | [] => true
  | (name, value) :: members =>
    name.isSome && fitsWithin levels value && membersFitWithin levels members

end

/-- Whether a tree can hold a document. -/
def fits (j : Json) : Bool := fitsWithin maxDepth j

end SchemaGate.Json
