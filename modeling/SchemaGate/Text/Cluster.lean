import SchemaGate.Text.ClusterTable

/-!
# User-perceived characters

A text is cut into clusters: a character with the marks that attach to it. These are the extended
grapheme clusters as far as cased letters, digits and delimiters can tell. Characters without case
may be grouped less than there (jamo, flags, conjuncts), which no word boundary looks at.
-/

namespace SchemaGate.Text

/-- The character that chains two pictographs into one. -/
def zeroWidthJoiner : Char := '\u200d'

/-- Whether a cluster, given from its last character back, ends in a pictograph and a joiner. -/
def awaitsPictograph : List Char → Bool
  | c :: cs =>
    c == zeroWidthJoiner && match cs.dropWhile attaching.has with
      | base :: _ => pictographic.has base
      | [] => false
  | [] => false

/-- Whether a character belongs to the cluster before it, given from its last character back. -/
def joins (cluster : List Char) (c : Char) : Bool :=
  attaching.has c || cluster.head?.any leading.has || (awaitsPictograph cluster && pictographic.has c)

/-- Cuts the rest of a text, where `cluster` is the open cluster from its last character back. -/
def clustersFrom (cluster : List Char) : List Char → List (List Char)
  | [] => [cluster.reverse]
  | c :: cs => if joins cluster c then clustersFrom (c :: cluster) cs
    else cluster.reverse :: clustersFrom [c] cs

/-- The clusters of a text, each a non-empty piece of it. -/
def clusters : List Char → List (List Char)
  | [] => []
  | c :: cs => clustersFrom [c] cs

end SchemaGate.Text
