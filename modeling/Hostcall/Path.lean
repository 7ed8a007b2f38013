/-!
# Paths

A path is a text; `/` separates names. `Path.resolve` folds `.`, `..` and empty names away and
yields the one absolute form by which a tree knows a place; the empty path names nothing.
`Path.parent?` works on any text, normal or not, and is shorter than it (`length_lt_of_parent?`),
which bounds every walk towards the root.
-/

namespace Hostcall.Path

/-- The characters between slashes; one more name than there are slashes. -/
def split : List Char → List (List Char)
  | [] => [[]]
  | c :: rest =>
    if c = '/' then [] :: split rest
    else
      match split rest with
      | [] => [[c]]
      | name :: names => (c :: name) :: names

/-- One step of a walk: from `place` (its innermost name first) along `name`. The root is its
own parent. -/
def walk (place : List (List Char)) (name : List Char) : List (List Char) :=
  if name = [] ∨ name = ['.'] then place
  else if name = ['.', '.'] then place.tail
  else name :: place

/-- The names that lead from the root to the place that a text names. -/
def names (path : List Char) : List (List Char) := ((split path).foldl walk []).reverse

/-- The absolute path along given names. -/
def ofNames (names : List (List Char)) : String :=
  if names = [] then "/" else String.ofList (names.flatMap ('/' :: ·))

/-- The normal form of `path` as seen from the directory `cwd`. -/
def resolve (cwd path : String) : Option String :=
  match path.toList with
  | [] => none
  | c :: rest =>
    if c = '/' then some (ofNames (names (c :: rest)))
    else some (ofNames (names (cwd.toList ++ '/' :: c :: rest)))

/-- What stands before the last slash, the root for a name right below it. The root has no
parent, and neither has a text without slash. -/
def parent? (path : String) : Option String :=
  if path = "/" then none
  else
    match path.toList.reverse.dropWhile (· != '/') with
    | [] => none
    | _ :: above => some (if above = [] then "/" else String.ofList above.reverse)

theorem eq_root_of_toList {path : String} (h : path.toList = ['/']) : path = "/" := by
  rw [← String.ofList_toList (s := path), h]

/-- Going up shortens a path, so it ends at the root. -/
theorem length_lt_of_parent? {path q : String} (h : parent? path = some q) :
    q.length < path.length := by
  unfold parent? at h
  split at h
  · contradiction
  rename_i hroot
  split at h
  · contradiction
  rename_i c above hdrop
  have hle := (List.dropWhile_suffix (l := path.toList.reverse) (· != '/')).length_le
  rw [hdrop, List.length_reverse, String.length_toList, List.length_cons] at hle
  obtain rfl := Option.some.inj h
  split
  · rename_i habove
    subst habove
    have hlen : path.length ≠ 1 := by
      intro hlen
      have hrev : path.toList.reverse.length = 1 := by
        rw [List.length_reverse, String.length_toList, hlen]
      obtain ⟨x, hx⟩ := List.length_eq_one_iff.1 hrev
      rw [hx] at hdrop
      have hslash : x = '/' := by
        by_cases hslash : x = '/'
        · exact hslash
        · simp [hslash] at hdrop
      apply hroot
      apply eq_root_of_toList
      rw [← List.reverse_reverse path.toList, hx, hslash]
      rfl
    show 1 < path.length
    simp only [List.length_nil] at hle
    omega
  · simpa using Nat.lt_of_succ_le hle

end Hostcall.Path
