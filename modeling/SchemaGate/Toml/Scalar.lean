import SchemaGate.Toml.Basic

/-!
# TOML scalars

The values that are written without quotes: Booleans, integers, floats and points in time. Each is
told by the run of characters it is written with.
-/

namespace SchemaGate.Toml

/-! ## Integers -/

/-- The digits of a run in which single underscores may stand between two digits. -/
def plainDigits? (isDigit : Char → Bool) : List Char → Option (List Char)
  | [] => none
  | [c] => if isDigit c then some [c] else none
  | c :: '_' :: cs => if isDigit c then (plainDigits? isDigit cs).map (c :: ·) else none
  | c :: cs => if isDigit c then (plainDigits? isDigit cs).map (c :: ·) else none

/-- The value of a digit in any of the bases. -/
def digitValue (c : Char) : Nat :=
  if c.isDigit then c.toNat - '0'.toNat else c.toLower.toNat - 'a'.toNat + 10

/-- The number that digits write in a base. -/
def ofDigits (base : Nat) (digits : List Char) : Nat :=
  digits.foldl (fun n c => n * base + digitValue c) 0

/-- The sign in front, and what follows it. -/
def sign : List Char → Bool × List Char
  | '+' :: cs => (false, cs)
  | '-' :: cs => (true, cs)
  | cs => (false, cs)

/-- The digits of a decimal number, which starts with no zero unless it is one. -/
def decimal? (cs : List Char) : Option (List Char) :=
  match plainDigits? Char.isDigit cs with
  | some ('0' :: _ :: _) => none
  | digits => digits

def isHexDigit (c : Char) : Bool :=
  c.isDigit || ('a' ≤ c && c ≤ 'f') || ('A' ≤ c && c ≤ 'F')

/-- The integer that a run writes: decimal with an optional sign, or in another base without. -/
def integer? : List Char → Option Int
  | '0' :: 'x' :: cs => (plainDigits? isHexDigit cs).map (ofDigits 16 ·)
  | '0' :: 'o' :: cs => (plainDigits? (fun c => '0' ≤ c && c ≤ '7') cs).map (ofDigits 8 ·)
  | '0' :: 'b' :: cs => (plainDigits? (fun c => c == '0' || c == '1') cs).map (ofDigits 2 ·)
  | cs =>
    let (negative, cs) := sign cs
    (decimal? cs).map fun digits =>
      let n : Int := ofDigits 10 digits
      if negative then -n else n

/-- Integers of more than 128 bits are refused. -/
def inRange (n : Int) : Bool :=
  if n < 0 then n.natAbs ≤ Nat.pow 2 127 else n.natAbs < Nat.pow 2 128

/-! ## Floats -/

/-- Whether a run is an exponent mark with digits behind it. -/
def isExponent : List Char → Bool
  | c :: cs => (c == 'e' || c == 'E') && (plainDigits? Char.isDigit (sign cs).2).isSome
  | [] => false

/-- Whether a run is a point with digits behind it, and perhaps an exponent. -/
def isFraction : List Char → Bool
  | '.' :: cs =>
    let isMark := fun c => c != 'e' && c != 'E'
    let rest := cs.dropWhile isMark
    (plainDigits? Char.isDigit (cs.takeWhile isMark)).isSome && (rest.isEmpty || isExponent rest)
  | _ => false

def isFloat (cs : List Char) : Bool :=
  let cs := (sign cs).2
  let isWhole := fun c => c.isDigit || c == '_'
  let rest := cs.dropWhile isWhole
  cs == "inf".toList || cs == "nan".toList ||
    ((decimal? (cs.takeWhile isWhole)).isSome && (isFraction rest || isExponent rest))

/-! ## Points in time -/

/-- The number that exactly so many digits at the front write, and what follows. -/
def fixed? (width : Nat) (cs : List Char) : Option (Nat × List Char) :=
  let digits := cs.take width
  if digits.length == width && digits.all Char.isDigit then some (ofDigits 10 digits, cs.drop width)
  else none

def daysIn (year month : Nat) : Nat :=
  if month == 2 then
    if year % 4 == 0 && (year % 100 != 0 || year % 400 == 0) then 29 else 28
  else if month == 4 || month == 6 || month == 9 || month == 11 then 30 else 31

/-- A date at the front, and what follows. -/
def date? (cs : List Char) : Option (List Char) := do
  let (year, cs) ← fixed? 4 cs
  let '-' :: cs := cs | none
  let (month, cs) ← fixed? 2 cs
  let '-' :: cs := cs | none
  let (day, cs) ← fixed? 2 cs
  if 1 ≤ month && month ≤ 12 && 1 ≤ day && day ≤ daysIn year month then some cs else none

/-- The seconds behind the minutes of a time, which may be left out, and what follows. -/
def seconds? : List Char → Option (List Char)
  | ':' :: cs => do
    let (second, cs) ← fixed? 2 cs
    if second > 60 then none
    match cs with
    | '.' :: cs =>
      let rest := cs.dropWhile Char.isDigit
      if rest.length < cs.length then some rest else none
    | cs => some cs
  | cs => some cs

/-- A time at the front, and what follows. -/
def time? (cs : List Char) : Option (List Char) := do
  let (hour, cs) ← fixed? 2 cs
  let ':' :: cs := cs | none
  let (minute, cs) ← fixed? 2 cs
  if hour ≤ 23 && minute ≤ 59 then seconds? cs else none

/-- Whether a run is the distance from universal time. -/
def isOffset : List Char → Bool
  | ['Z'] => true
  | ['z'] => true
  | c :: cs => (c == '+' || c == '-') && match fixed? 2 cs with
    | some (hour, ':' :: cs) => hour ≤ 23 && match fixed? 2 cs with
      | some (minute, []) => minute ≤ 59
      | _ => false
    | _ => false
  | [] => false

/-- Whether a run is a point in time: a date, a time, or both with an optional offset. -/
def isMoment (cs : List Char) : Bool :=
  match date? cs with
  | some [] => true
  | some (c :: rest) => (c == 'T' || c == 't' || c == ' ') && match time? rest with
    | some offset => offset.isEmpty || isOffset offset
    | none => false
  | none => time? cs == some []

/-! ## Any of them -/

/-- The value that a run writes. -/
def scalar? (cs : List Char) : Option Toml :=
  if cs == "true".toList then some (.bool true)
  else if cs == "false".toList then some (.bool false)
  else match integer? cs with
    | some n => if inRange n then some (.integer n) else none
    | none => if isFloat cs || isMoment cs then some .other else none

/-- Whether a character may stand in a scalar. -/
def isScalarChar (c : Char) : Bool :=
  c.isAlphanum || c == '+' || c == '-' || c == '_' || c == '.' || c == ':'

/-- The run of a scalar at the front, and what follows. A space belongs to it between a date and a
time. -/
def scalarRun (cs : List Char) : List Char × List Char :=
  let run := cs.takeWhile isScalarChar
  let rest := cs.dropWhile isScalarChar
  match date? run, rest with
  | some [], ' ' :: c :: more =>
    if c.isDigit then
      (run ++ ' ' :: (c :: more).takeWhile isScalarChar, (c :: more).dropWhile isScalarChar)
    else (run, rest)
  | _, _ => (run, rest)

end SchemaGate.Toml
