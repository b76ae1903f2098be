import SchemaGate.Json.Basic

/-!
# JSON tokens

A JSON text is first cut into tokens: marks of punctuation, the three words, numbers as they are
spelled, and strings with their escapes resolved. Blanks between tokens are dropped.

* `scanString`, from behind the opening quote, by way of `scanPieces` and `spell`
* `scanNumber`, the longest number at the front
* `scan`, the tokens of a text, or nothing where it is no sequence of tokens
-/

namespace SchemaGate.Json

inductive Token where
  | openArray
  | closeArray
  | openObject
  | closeObject
  | comma
  | colon
  /-- One of the three words, or a number. -/
  | scalar (value : Json)
  | str (text : Option String)
  deriving Inhabited

def isSpace (c : Char) : Bool :=
  c == ' ' || c == '\t' || c == '\n' || c == '\r'

/-! ## Strings -/

/-- The value of a hexadecimal digit in either case. -/
def hexDigit? (c : Char) : Option Nat :=
  if c.isDigit then some (c.toNat - '0'.toNat)
  else if 'a' ≤ c && c ≤ 'f' then some (c.toNat - 'a'.toNat + 10)
  else if 'A' ≤ c && c ≤ 'F' then some (c.toNat - 'A'.toNat + 10)
  else none

def hexUnit? (a b c d : Char) : Option Nat := do
  return (((← hexDigit? a) * 16 + (← hexDigit? b)) * 16 + (← hexDigit? c)) * 16 + (← hexDigit? d)

/-- The character that a one-letter escape stands for. -/
def shortEscape? : Char → Option Char
  | '"' => some '"'
  | '\\' => some '\\'
  | '/' => some '/'
  | 'b' => some '\x08'
  | 'f' => some '\x0c'
  | 'n' => some '\n'
  | 'r' => some '\r'
  | 't' => some '\t'
  | _ => none

def isHighSurrogate (unit : Nat) : Bool := 0xD800 ≤ unit && unit < 0xDC00

def isLowSurrogate (unit : Nat) : Bool := 0xDC00 ≤ unit && unit < 0xE000

def pairedChar (high low : Nat) : Char :=
  Char.ofNat (0x10000 + (high - 0xD800) * 0x400 + (low - 0xDC00))

/-- What a string is written with: characters, and code units given by their number. -/
inductive Piece where
  | char (c : Char)
  | unit (n : Nat)
  deriving DecidableEq, Repr

/-- The text that pieces spell, where every surrogate has its other half beside it. -/
def spell : List Piece → Option (List Char)
  | [] => some []
  | .char c :: ps => (spell ps).map (c :: ·)
  | .unit high :: .unit low :: ps =>
    if isHighSurrogate high && isLowSurrogate low then (spell ps).map (pairedChar high low :: ·)
    else if isHighSurrogate high || isLowSurrogate high then none
    else (spell (.unit low :: ps)).map (Char.ofNat high :: ·)
  | .unit n :: ps =>
    if isHighSurrogate n || isLowSurrogate n then none
    else (spell ps).map (Char.ofNat n :: ·)

/-- The pieces of a string up to its closing quote, behind those found so far, last first, and what
follows the quote. -/
def scanPieces (done : List Piece) : List Char → Option (List Piece × List Char)
  | [] => none
  | '"' :: rest => some (done.reverse, rest)
  | '\\' :: 'u' :: a :: b :: c :: d :: rest => do
    let unit ← hexUnit? a b c d
    scanPieces (.unit unit :: done) rest
  | '\\' :: e :: rest => do
    let c ← shortEscape? e
    scanPieces (.char c :: done) rest
  | c :: rest => if c.toNat < 0x20 then none else scanPieces (.char c :: done) rest

/-- The string behind an opening quote, and what follows it. -/
def scanString (cs : List Char) : Option (Option String × List Char) := do
  let (pieces, rest) ← scanPieces [] cs
  return ((spell pieces).map .ofList, rest)

/-! ## Numbers -/

/-- The longest run of digits at the front, and what follows. -/
def digits (cs : List Char) : List Char × List Char :=
  (cs.takeWhile Char.isDigit, cs.dropWhile Char.isDigit)

/-- The whole part: a zero alone, or digits that do not start with one. -/
def scanWhole : List Char → Option (List Char × List Char)
  | '0' :: rest => some (['0'], rest)
  | cs => match digits cs with
    | ([], _) => none
    | split => some split

/-- A point and at least one digit, where a point comes next. -/
def scanFraction : List Char → Option (List Char × List Char)
  | '.' :: rest => match digits rest with
    | ([], _) => none
    | (ds, rest) => some ('.' :: ds, rest)
  | cs => some ([], cs)

/-- An exponent mark, an optional sign and at least one digit, where a mark comes next. -/
def scanExponent : List Char → Option (List Char × List Char)
  | c :: rest =>
    if c = 'e' || c = 'E' then
      let (sign, rest) := match rest with
        | '+' :: rest => (['+'], rest)
        | '-' :: rest => (['-'], rest)
        | rest => ([], rest)
      match digits rest with
      | ([], _) => none
      | (ds, rest) => some (c :: sign ++ ds, rest)
    else some ([], c :: rest)
  | [] => some ([], [])

/-- The number at the front, as it is spelled, and what follows. -/
def scanNumber (cs : List Char) : Option (String × List Char) := do
  let (sign, rest) := match cs with
    | '-' :: rest => (['-'], rest)
    | rest => ([], rest)
  let (whole, rest) ← scanWhole rest
  let (fraction, rest) ← scanFraction rest
  let (exponent, rest) ← scanExponent rest
  return (.ofList (sign ++ whole ++ fraction ++ exponent), rest)

/-! ## The text -/

/-- The token at the front of a text that starts with no blank, and what follows it. -/
def scanToken? : List Char → Option (Token × List Char)
  | '[' :: rest => some (.openArray, rest)
  | ']' :: rest => some (.closeArray, rest)
  | '\x7b' :: rest => some (.openObject, rest)
  | '\x7d' :: rest => some (.closeObject, rest)
  | ',' :: rest => some (.comma, rest)
  | ':' :: rest => some (.colon, rest)
  | '"' :: rest => do
    let (text, rest) ← scanString rest
    return (.str text, rest)
  | 't' :: 'r' :: 'u' :: 'e' :: rest => some (.scalar (.bool true), rest)
  | 'f' :: 'a' :: 'l' :: 's' :: 'e' :: rest => some (.scalar (.bool false), rest)
  | 'n' :: 'u' :: 'l' :: 'l' :: rest => some (.scalar .null, rest)
  | cs => do
    let (spelling, rest) ← scanNumber cs
    return (.scalar (.num spelling), rest)

/-- The tokens of a text, behind those found so far, last first. The fuel bounds their number. -/
def scanFrom : Nat → List Token → List Char → Option (List Token)
  | 0, _, _ => none
  | fuel + 1, done, cs => match cs.dropWhile isSpace with
    | [] => some done.reverse
    | c :: rest => do
      let (token, rest) ← scanToken? (c :: rest)
      scanFrom fuel (token :: done) rest

def scan (s : String) : Option (List Token) :=
  let cs := s.toList
  scanFrom (cs.length + 1) [] cs

end SchemaGate.Json
