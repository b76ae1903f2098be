import SchemaGate.Schema.Codec

/-!
# Dependency order

Domains are ordered so that each comes after those it depends on, as far as cycles allow, and in
declaration order otherwise. `dependencyOrder` walks the dependencies depth first; a domain that is
still being walked is not entered again, so a cycle only ends the descent.
-/

namespace SchemaGate

/-- A business domain: its label, its tables, and the labels of the domains they refer to. -/
structure DomainHint where
  domain : String
  tables : List String
  dependsOn : List String := []
  deriving DecidableEq, Repr, Inhabited

namespace DomainHint

def toJson (h : DomainHint) : Json :=
  .object ([("namespace", .text h.domain), ("tables", .texts h.tables)] ++
    if h.dependsOn.isEmpty then [] else [("dependsOn", .texts h.dependsOn)])

def ofJson? (j : Json) : Option DomainHint := do
  let field ← j.fields? ["namespace", "tables", "dependsOn"]
  return { domain := ← (field "namespace").required Json.text?
           tables := ← (field "tables").required (Json.list? Json.text?)
           dependsOn := ← (field "dependsOn").withDefault [] (Json.list? Json.text?) }

def listToJson (hints : List DomainHint) : Json := .arr (hints.map (·.toJson))

def listOfJson? (j : Json) : Option (List DomainHint) := j.list? ofJson?

end DomainHint

namespace Plan

/-- The hints that are not being walked. -/
def unopened (hints : List DomainHint) (opened : List String) : List DomainHint :=
  hints.filter (·.domain ∉ opened)

theorem length_unopened_lt {hints : List DomainHint} {opened : List String} {hint : DomainHint}
    (hm : hint ∈ hints) (hn : hint.domain ∉ opened) :
    (unopened hints (hint.domain :: opened)).length < (unopened hints opened).length := by
  have hsub : unopened hints (hint.domain :: opened) =
      (unopened hints opened).filter (·.domain ≠ hint.domain) := by
    simp only [unopened, List.filter_filter]
    congr 1
    funext x
    simp [Bool.decide_and, not_or]
  rw [hsub]
  refine List.length_filter_lt_length_iff_exists.2 ⟨hint, ?_, by simp⟩
  simp [unopened, hm, hn]

/-- Walks to a domain: behind those `done` already come the domains it depends on and then itself.
`opened` are the domains whose walk has begun and not ended. -/
def visit (hints : List DomainHint) (opened : List String) (done : List DomainHint)
    (domain : String) : List DomainHint :=
  if _hseen : domain ∈ opened ∨ domain ∈ done.map (·.domain) then done
  else match _hfound : hints.find? (·.domain == domain) with
    | none => done
    | some hint =>
      hint.dependsOn.foldl (fun done d => visit hints (domain :: opened) done d) done ++ [hint]
termination_by (unopened hints opened).length
decreasing_by
  have hd : hint.domain = domain := by simpa using List.find?_some _hfound
  have hn : hint.domain ∉ opened := fun h => _hseen (.inl (hd ▸ h))
  exact hd ▸ length_unopened_lt (List.mem_of_find?_eq_some _hfound) hn

/-- The hints with dependencies first. -/
def dependencyOrder (hints : List DomainHint) : List DomainHint :=
  hints.foldl (fun done h => visit hints [] done h.domain) []

end Plan

end SchemaGate
