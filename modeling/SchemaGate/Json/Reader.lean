import SchemaGate.Json.Token

/-!
# Reading JSON

`parse?` reads a whole text as one document. It refuses what the grammar refuses and nothing more:
depth, repeated members and lone surrogates are for decoders to judge.
-/

namespace SchemaGate.Json

mutual

/-- One value at the front of a token list, and the tokens behind it. -/
def readValue : Nat → List Token → Option (Json × List Token)
  | _ + 1, .scalar value :: rest => some (value, rest)
  | _ + 1, .str text :: rest => some (.str text, rest)
  | _ + 1, .openArray :: .closeArray :: rest => some (.arr [], rest)
  | fuel + 1, .openArray :: rest => readItems fuel [] rest
  | _ + 1, .openObject :: .closeObject :: rest => some (.obj [], rest)
  | fuel + 1, .openObject :: rest => readMembers fuel [] rest
  | _, _ => none

/-- The items of an array from its next one on, behind those read so far, last first. -/
def readItems : Nat → List Json → List Token → Option (Json × List Token)
  | fuel + 1, done, tokens => do
    match ← readValue fuel tokens with
    | (item, .comma :: rest) => readItems fuel (item :: done) rest
    | (item, .closeArray :: rest) => some (.arr (item :: done).reverse, rest)
    | _ => none
  | 0, _, _ => none

/-- The members of an object from its next one on, behind those read so far, last first. -/
def readMembers : Nat → List (Option String × Json) → List Token → Option (Json × List Token)
  | fuel + 1, done, .str name :: .colon :: tokens => do
    match ← readValue fuel tokens with
    | (value, .comma :: rest) => readMembers fuel ((name, value) :: done) rest
    | (value, .closeObject :: rest) => some (.obj ((name, value) :: done).reverse, rest)
    | _ => none
  | _, _, _ => none

end

/-- The document that a text spells. Each step of the reader that takes no token is followed by one
that does, so twice their number bounds the steps. -/
def parse? (s : String) : Option Json := do
  let tokens ← scan s
  match ← readValue (2 * tokens.length) tokens with
  | (value, []) => some value
  | _ => none

end SchemaGate.Json
