import SchemaGate.Text.Cluster
import SchemaGate.Text.CaseTable
import SchemaGate.Text.Blank

/-!
# Domain slugs

A namespace label becomes the domain part of a filename: it is split into words at delimiters and at
changes between lower case, upper case and digits, the words are lowercased and joined by hyphens,
and all but ASCII lower case letters, digits and hyphens is dropped.

* `words`, the splitting, on clusters
* `kebab`, the words in lower case, joined by hyphens
* `slug`, what a filename keeps of that, with `domain` where nothing is left
-/

namespace SchemaGate.Text

/-! ## The kind of a cluster -/

/-- What a word boundary sees of a cluster. -/
inductive ClusterKind where
  | delimiter
  | upper
  | lower
  | digit
  | other
  deriving DecidableEq, Repr

/-- A cluster is upper case when uppercasing keeps all of it and lowercasing changes some of it,
lower case when it is the other way round, a digit when all its characters are ASCII digits, and a
delimiter when it is a single underscore, hyphen or space. -/
def ClusterKind.of (cluster : List Char) : ClusterKind :=
  if cluster = ['_'] || cluster = ['-'] || cluster = [' '] then .delimiter
  else if cluster.all Char.isDigit then .digit
  else match cluster.any changedByUpper.has, cluster.any changedByLower.has with
    | false, true => .upper
    | true, false => .lower
    | _, _ => .other

/-- Whether a word ends between two clusters, given what follows the second. -/
def endsWord : ClusterKind → ClusterKind → Option ClusterKind → Bool
  | .lower, .upper, _ => true
  | .lower, .digit, _ => true
  | .upper, .digit, _ => true
  | .digit, .lower, _ => true
  | .digit, .upper, _ => true
  | .upper, .upper, some .lower => true
  | _, _, _ => false

/-- The words of a sequence of clusters; empty ones stand where delimiters meet. -/
def words : List (List Char) → List (List Char)
  | [] => [[]]
  | cluster :: rest =>
    match ClusterKind.of cluster, words rest with
    | .delimiter, ws => [] :: ws
    | _, [] => [cluster]
    | kind, word :: more =>
      let second := (rest.drop 1).head?.map .of
      if (rest.head?.map .of).any (endsWord kind · second) then cluster :: word :: more
      else (cluster ++ word) :: more

/-! ## Kebab case -/

/-- Lowercasing, as far as the ASCII letters of its result show: besides the capital letters only
the Kelvin sign and the dotted capital I have one. Other characters are dropped by `slug` whatever
their case. -/
def lowerAscii (c : Char) : Char :=
  if c = '\u212a' then 'k' else if c = '\u0130' then 'i' else c.toLower

/-- The words of a label in lower case, joined by hyphens. -/
def kebab (label : String) : String :=
  .ofList ((['-'].intercalate (words (clusters label.toList))).map lowerAscii)

/-! ## Slugs -/

/-- The characters a slug is made of. -/
def isSlugChar (c : Char) : Bool :=
  c.isLower || c.isDigit || c == '-'

/-- The domain part used when a label leaves nothing. -/
def defaultSlug : List Char := "domain".toList

/-- The slug parts of a text: the non-empty runs of letters and digits between hyphens. -/
def slugParts (cs : List Char) : List (List Char) :=
  (split '-' (cs.filter isSlugChar)).filter (· ≠ [])

/-- The domain part of a filename for a label that is in kebab case already. -/
def slug (label : String) : String :=
  match slugParts label.toList with
  | [] => .ofList defaultSlug
  | parts => .ofList (['-'].intercalate parts)

end SchemaGate.Text
