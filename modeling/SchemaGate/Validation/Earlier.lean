/-!
# Repeats

Many rules forbid to use a name a second time. `withEarlier` pairs each element of a list with those
before it, so that such a rule is a test on one element at a time.
-/

namespace SchemaGate

/-- Each element with the ones before it, in order. -/
def withEarlier {α : Type} : List α → List (List α × α)
  | [] => []
  | a :: l => ([], a) :: (withEarlier l).map fun (earlier, b) => (a :: earlier, b)

theorem withEarlier_append {α : Type} (l k : List α) :
    withEarlier (l ++ k) = withEarlier l ++ (withEarlier k).map fun (e, b) => (l ++ e, b) := by
  induction l with
  | nil => simp [withEarlier]
  | cons a l ih => simp [withEarlier, ih, Function.comp_def]

theorem map_snd_withEarlier {α : Type} (l : List α) : (withEarlier l).map (·.2) = l := by
  induction l with
  | nil => rfl
  | cons a l ih => simpa [withEarlier, Function.comp_def] using ih

end SchemaGate
