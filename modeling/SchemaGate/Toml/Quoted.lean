import SchemaGate.Toml.Scalar

/-!
# Quoted TOML text

A text stands between quotes or apostrophes, one of them on each side for a single line and three
for several lines. Between quotes a backslash starts an escape; between apostrophes every character
stands for itself.

* `body` and `linesBody`, what stands up to the closing mark
* `unescape`, the characters that a body between quotes stands for
* `quoted?`, a text at the front; `key?`, one part of a key
-/

namespace SchemaGate.Toml

/-- Whether a character may stand in a line: no control character but the tab. -/
def isPlain (c : Char) : Bool := c == '\t' || (' ' ≤ c && c != '\x7f')

def isSpace (c : Char) : Bool := c == ' ' || c == '\t'

def skipSpace (cs : List Char) : List Char := cs.dropWhile isSpace

/-- What follows an end of line at the front. -/
def newline? : List Char → Option (List Char)
  | '\n' :: cs => some cs
  | '\r' :: '\n' :: cs => some cs
  | _ => none

/-! ## Bodies -/

/-- What stands up to the closing mark of a text on one line, and what follows. Behind a quote, a
backslash keeps the next character from closing. -/
def body (mark : Char) : List Char → Option (List Char × List Char)
  | [] => none
  | [c] => if c = mark then some ([], []) else none
  | c :: d :: cs =>
    if c = mark then some ([], d :: cs)
    else if c = '\\' ∧ mark = '"' then (body mark cs).map fun (b, rest) => (c :: d :: b, rest)
    else (body mark (d :: cs)).map fun (b, rest) => (c :: b, rest)

/-- What stands up to the closing marks of a text over several lines, and what follows. Up to two
marks in front of the closing ones belong to the text. -/
def linesBody (mark : Char) : List Char → Option (List Char × List Char)
  | [] => none
  | c :: cs =>
    if (c :: cs).take 3 = [mark, mark, mark] then
      let more := ((cs.drop 2).take 2).takeWhile (· == mark)
      some (more, (cs.drop 2).drop more.length)
    else if c = '\\' ∧ mark = '"' then
      match cs with
      | [] => none
      | d :: cs => (linesBody mark cs).map fun (b, rest) => (c :: d :: b, rest)
    else (linesBody mark cs).map fun (b, rest) => (c :: b, rest)

/-! ## Characters -/

/-- The character with a number in hexadecimal digits, where there is one. -/
def hexChar? (digits : List Char) : Option Char :=
  let n := ofDigits 16 digits
  if digits.all isHexDigit && (n < 0xD800 || (0xE000 ≤ n && n < 0x110000)) then some (Char.ofNat n)
  else none

/-- The character that a one-letter escape stands for. -/
def shortEscape? : Char → Option Char
  | '"' => some '"'
  | '\\' => some '\\'
  | 'b' => some '\x08'
  | 'e' => some '\x1b'
  | 'f' => some '\x0c'
  | 'n' => some '\n'
  | 'r' => some '\r'
  | 't' => some '\t'
  | _ => none

/-- The characters that a body between quotes stands for. In a text over several lines an end of
line stands for itself, and behind a backslash at the end of a line all blanks are skipped:
`skipping` says that they are. -/
def unescape (overLines skipping : Bool) : List Char → Option (List Char)
  | [] => some []
  | '\\' :: 'x' :: a :: b :: cs => do
    return (← hexChar? [a, b]) :: (← unescape overLines false cs)
  | '\\' :: 'u' :: a :: b :: c :: d :: cs => do
    return (← hexChar? [a, b, c, d]) :: (← unescape overLines false cs)
  | '\\' :: 'U' :: a :: b :: c :: d :: e :: f :: g :: h :: cs => do
    return (← hexChar? [a, b, c, d, e, f, g, h]) :: (← unescape overLines false cs)
  | '\\' :: c :: cs =>
    if overLines && (newline? (skipSpace (c :: cs))).isSome then unescape true true cs
    else do return (← shortEscape? c) :: (← unescape overLines false cs)
  | '\r' :: '\n' :: cs =>
    if !overLines then none
    else if skipping then unescape true true cs
    else (unescape true false cs).map ('\r' :: '\n' :: ·)
  | c :: cs =>
    if skipping && (isSpace c || c == '\n') then unescape overLines true cs
    else if isPlain c || (overLines && c == '\n') then (unescape overLines false cs).map (c :: ·)
    else none

/-- Whether a body between apostrophes has lines of plain characters only. -/
def isLiteral (overLines : Bool) : List Char → Bool
  | [] => true
  | '\r' :: '\n' :: cs => overLines && isLiteral overLines cs
  | c :: cs => (isPlain c || (overLines && c == '\n')) && isLiteral overLines cs

/-- The text of a body, as its mark has it read. -/
def ofBody? (mark : Char) (overLines : Bool) (cs : List Char) : Option String :=
  if mark = '"' then (unescape overLines false cs).map String.ofList
  else if isLiteral overLines cs then some (String.ofList cs) else none

/-! ## Texts and keys -/

/-- A text on one line at the front, and what follows. -/
def lineText? : List Char → Option (String × List Char)
  | c :: cs =>
    if c = '"' ∨ c = '\'' then do
      let (b, rest) ← body c cs
      return (← ofBody? c false b, rest)
    else none
  | [] => none

/-- A text at the front, and what follows. An end of line right behind the opening marks of a text
over several lines is not part of it. -/
def quoted? : List Char → Option (String × List Char)
  | a :: b :: c :: cs =>
    if (a = '"' ∨ a = '\'') ∧ b = a ∧ c = a then do
      let (inside, rest) ← linesBody a ((newline? cs).getD cs)
      return (← ofBody? a true inside, rest)
    else lineText? (a :: b :: c :: cs)
  | cs => lineText? cs

/-- Whether a character may stand in a key without marks. -/
def isKeyChar (c : Char) : Bool := c.isAlphanum || c == '_' || c == '-'

/-- One part of a key at the front, and what follows. -/
def keyPart? (cs : List Char) : Option (String × List Char) :=
  match cs.takeWhile isKeyChar with
  | [] => lineText? cs
  | name => some (String.ofList name, cs.dropWhile isKeyChar)

/-- A key at the front as its path and last part, and what follows it and its spaces. The fuel
bounds the number of parts. -/
def key? : Nat → List Char → Option (List String × String × List Char)
  | 0, _ => none
  | fuel + 1, cs => do
    let (part, rest) ← keyPart? (skipSpace cs)
    match skipSpace rest with
    | '.' :: more =>
      let (path, last, rest) ← key? fuel more
      return (part :: path, last, rest)
    | rest => return ([], part, rest)

end SchemaGate.Toml
