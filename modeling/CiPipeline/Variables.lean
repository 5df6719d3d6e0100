/-!
# Variables

Variables are pairs of name and value in the order in which the names were first
set.  Setting a name again changes its value and keeps its place.
-/

namespace CiPipeline

/-- Named texts in the order of their first setting. -/
abbrev Variables := List (String × String)

namespace Variables

def put (bindings : Variables) (name value : String) : Variables :=
  match bindings with
  | [] => [(name, value)]
  | (known, old) :: rest =>
      if known == name then (known, value) :: rest
      else (known, old) :: put rest name value

/-- Sets the variables of a later layer over those of an earlier one. -/
def layer (earlier later : Variables) : Variables :=
  later.foldl (fun bindings (name, value) => put bindings name value) earlier

/-- The variables of a list of pairs; of equal names the last value counts. -/
def ofPairs (pairs : List (String × String)) : Variables :=
  layer [] pairs

/-- The names in order. -/
def names (bindings : Variables) : List String :=
  bindings.map Prod.fst

theorem lookup_put_self (bindings : Variables) (name value : String) :
    (put bindings name value).lookup name = some value := by
  induction bindings with
  | nil => simp [put]
  | cons entry rest step =>
      obtain ⟨known, old⟩ := entry
      by_cases same : known = name
      · simp [put, same]
      · have other : (name == known) = false := by
          simpa using fun equal => same equal.symm
        simp [put, same, List.lookup_cons, other, step]

theorem lookup_put_of_ne (bindings : Variables) {name other : String}
    (value : String) (different : other ≠ name) :
    (put bindings name value).lookup other = bindings.lookup other := by
  have absent : (other == name) = false := by simpa using different
  induction bindings with
  | nil => simp [put, List.lookup_cons, absent]
  | cons entry rest step =>
      obtain ⟨known, old⟩ := entry
      by_cases same : known = name
      · subst same
        simp [put, List.lookup_cons, absent]
      · simp [put, same, List.lookup_cons, step]

end Variables

end CiPipeline
