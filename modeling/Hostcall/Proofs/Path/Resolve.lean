import Hostcall.Proofs.Path.Normal

/-!
# Resolving a path from a directory

A path that begins with a slash is resolved from the root, any other one by a walk that goes on
where the current directory is. So all that a path takes from the current directory are the names
that lead there (`resolve_congr`), and a directory by its normal form is as good as by any other
text. A relative path seen from where a path leads is the path below that path (`resolve_below`).
Together with the normal forms this says all about the places that paths name
(`resolve_yields_normal_form`).
-/

namespace Hostcall.Path

variable {cwd other path : String}

/-- Whether a path begins at the root. -/
def IsAbsolute (path : String) : Prop := ∃ rest, path.toList = '/' :: rest

/-- A path is split at a separator into what comes before and after. -/
theorem split_append_slash (above below : List Char) :
    split (above ++ '/' :: below) = split above ++ split below := by
  induction above with
  | nil => rw [List.nil_append, split_slash, split]; rfl
  | cons c above ih =>
    rw [List.cons_append, split, split, ih]
    split
    · rfl
    · -- A name that is not ended yet takes the character, on both sides the same one.
      cases names : split above with
      | nil => exact absurd names (split_ne_nil above)
      | cons name names => rfl

/-- What follows a slash is walked from where the first part led. -/
theorem names_append_slash (above below : List Char) :
    names (above ++ '/' :: below) =
      ((split below).foldl walk (names above).reverse).reverse := by
  simp only [names, split_append_slash, List.foldl_append, List.reverse_reverse]

/-- An absolute path resolves without the current directory. -/
theorem resolve_of_isAbsolute (absolute : IsAbsolute path) (cwd : String) :
    resolve cwd path = some (ofNames (names path.toList)) := by
  obtain ⟨rest, slash⟩ := absolute
  rw [resolve, slash]
  exact if_pos rfl

/-- A relative path resolves below the current directory. -/
theorem resolve_of_relative (relative : ¬ IsAbsolute path) (nonempty : path ≠ "") (cwd : String) :
    resolve cwd path = some (ofNames (names (cwd.toList ++ '/' :: path.toList))) := by
  unfold resolve
  split
  · rename_i empty
    exact absurd (String.toList_eq_nil_iff.1 empty) nonempty
  · rename_i c rest first
    rw [first]
    refine if_neg ?_
    rintro rfl
    exact relative ⟨rest, first⟩

/-- A path takes nothing from the current directory but the names that lead there. -/
theorem resolve_congr (same : names cwd.toList = names other.toList) (path : String) :
    resolve cwd path = resolve other path := by
  by_cases empty : path = ""
  · rw [resolve_eq_none_iff.2 empty, resolve_eq_none_iff.2 empty]
  by_cases absolute : IsAbsolute path
  · rw [resolve_of_isAbsolute absolute, resolve_of_isAbsolute absolute]
  · rw [resolve_of_relative absolute empty, resolve_of_relative absolute empty,
      names_append_slash, names_append_slash, same]

/-- A directory that is named from the root is as good by its normal form. -/
theorem exists_normal_cwd (absolute : IsAbsolute cwd) :
    ∃ place, Normal place ∧ (∀ other, resolve other cwd = some place) ∧
      ∀ path, resolve place path = resolve cwd path := by
  refine ⟨ofNames (names cwd.toList), normal_ofNames_names _, resolve_of_isAbsolute absolute, ?_⟩
  exact resolve_congr (names_ofNames fun _ => isName_of_mem_names)

/-- **Every path but the empty one has one normal form.** Resolving leaves it alone, from every
directory, and yields nothing else, so the places are the normal forms. A path that begins at the
root names the same place from everywhere; any other one names the same place from a directory and
from the normal form of that directory. -/
theorem resolve_yields_normal_form (cwd path : String) :
    (resolve cwd path = none ↔ path = "") ∧
    (∀ place, resolve cwd path = some place →
      Normal place ∧ ∀ other, resolve other place = some place) ∧
    (Normal path → resolve cwd path = some path) ∧
    (Normal path ↔ ∃ dir name, resolve dir name = some path) ∧
    (IsAbsolute path → ∀ other, resolve other path = resolve cwd path) ∧
    (IsAbsolute cwd → ∃ place, Normal place ∧ (∀ other, resolve other cwd = some place) ∧
      resolve place path = resolve cwd path) := by
  refine ⟨resolve_eq_none_iff, ?_, fun normal => resolve_of_normal normal cwd, ?_, ?_, ?_⟩
  · intro place resolved
    have normal := normal_of_resolve resolved
    exact ⟨normal, resolve_of_normal normal⟩
  · constructor
    · intro normal
      exact ⟨cwd, path, resolve_of_normal normal cwd⟩
    · rintro ⟨dir, name, resolved⟩
      exact normal_of_resolve resolved
  · intro absolute other
    rw [resolve_of_isAbsolute absolute, resolve_of_isAbsolute absolute]
  · intro absolute
    obtain ⟨place, normal, resolved, same⟩ := exists_normal_cwd absolute
    exact ⟨place, normal, resolved, same path⟩

/-- The directory is spelt with empty names and dots, and the path goes up past the root and then
down along names that have dots in them. -/
theorem resolve_yields_normal_form_above_root :
    IsAbsolute "/a/..//b/." ∧
      ∃ place, Normal place ∧ (∀ other, resolve other "/a/..//b/." = some place) ∧
        resolve place "../.././...//.x/y..//" = resolve "/a/..//b/." "../.././...//.x/y..//" ∧
        resolve "/a/..//b/." "../.././...//.x/y..//" = some "/.../.x/y.." := by
  have absolute : IsAbsolute "/a/..//b/." := ⟨_, rfl⟩
  obtain ⟨-, -, -, -, -, fromNormal⟩ :=
    resolve_yields_normal_form "/a/..//b/." "../.././...//.x/y..//"
  obtain ⟨place, normal, resolved, same⟩ := fromNormal absolute
  exact ⟨absolute, place, normal, resolved, same, by decide⟩

theorem toList_below (path below : String) :
    (path ++ "/" ++ below).toList = path.toList ++ '/' :: below.toList := by
  simp

theorem below_ne_empty (path below : String) : path ++ "/" ++ below ≠ "" := by
  intro empty
  have := congrArg String.toList empty
  simp at this

/-- A path that is not empty begins as before when something is appended to it. -/
theorem isAbsolute_below_iff (nonempty : path ≠ "") (below : String) :
    IsAbsolute (path ++ "/" ++ below) ↔ IsAbsolute path := by
  unfold IsAbsolute
  rw [toList_below]
  cases first : path.toList with
  | nil => exact absurd (String.toList_eq_nil_iff.1 first) nonempty
  | cons c rest =>
    constructor
    · rintro ⟨more, slash⟩
      exact ⟨rest, by rw [(List.cons.inj slash).1]⟩
    · rintro ⟨more, slash⟩
      exact ⟨rest ++ '/' :: below.toList, by rw [(List.cons.inj slash).1, List.cons_append]⟩

/-- A path and what is appended to it are walked along from one beginning. -/
theorem exists_resolve_below (cwd : String) (nonempty : path ≠ "") :
    ∃ full : List Char, resolve cwd path = some (ofNames (names full)) ∧
      ∀ below, resolve cwd (path ++ "/" ++ below) =
        some (ofNames (names (full ++ '/' :: below.toList))) := by
  by_cases absolute : IsAbsolute path
  · refine ⟨path.toList, resolve_of_isAbsolute absolute cwd, fun below => ?_⟩
    rw [resolve_of_isAbsolute ((isAbsolute_below_iff nonempty below).2 absolute), toList_below]
  · refine ⟨cwd.toList ++ '/' :: path.toList, resolve_of_relative absolute nonempty cwd,
      fun below => ?_⟩
    have relative := mt (isAbsolute_below_iff nonempty below).1 absolute
    rw [resolve_of_relative relative (below_ne_empty path below), toList_below, List.append_assoc,
      List.cons_append]

/-- A relative path seen from a directory is the path below the directory. -/
theorem resolve_below (cwd : String) (nonempty : path ≠ "") {below : String}
    (relative : ¬ IsAbsolute below) (named : below ≠ "") :
    (resolve cwd path).bind (resolve · below) = resolve cwd (path ++ "/" ++ below) := by
  obtain ⟨full, resolved, joined⟩ := exists_resolve_below cwd nonempty
  have names_place : names (ofNames (names full)).toList = names full :=
    names_ofNames fun _ => isName_of_mem_names
  rw [resolved, joined, Option.bind_some, resolve_of_relative relative named, names_append_slash,
    names_append_slash, names_place]

/-- Paths that are joined begin as the first of them does. -/
theorem relative_intercalate (nonempty : path ≠ "") (relative : ¬ IsAbsolute path)
    (rest : List String) :
    "/".intercalate (path :: rest) ≠ "" ∧ ¬ IsAbsolute ("/".intercalate (path :: rest)) := by
  cases rest with
  | nil =>
    rw [String.intercalate_singleton]
    exact ⟨nonempty, relative⟩
  | cons next rest =>
    rw [String.intercalate_cons_cons]
    exact ⟨below_ne_empty _ _, mt (isAbsolute_below_iff nonempty _).1 relative⟩

/-- Joining paths brings in no character but the separator. -/
theorem notMem_intercalate {c : Char} (other : c ≠ '/') {paths : List String}
    (absent : ∀ path ∈ paths, c ∉ path.toList) : c ∉ ("/".intercalate paths).toList := by
  induction paths with
  | nil => exact List.not_mem_nil
  | cons first rest ih =>
    have rest_absent := ih fun path later => absent path (List.mem_cons_of_mem _ later)
    cases rest with
    | nil =>
      rw [String.intercalate_singleton]
      exact absent first List.mem_cons_self
    | cons next rest =>
      rw [String.intercalate_cons_cons, toList_below, List.mem_append, List.mem_cons]
      rintro (within | slash | later)
      · exact absent first List.mem_cons_self within
      · exact other slash
      · exact rest_absent later

end Hostcall.Path
