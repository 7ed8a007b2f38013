import Hostcall.Proofs.Path.Ancestors
import Hostcall.Proofs.Tree.WriteAt

/-!
# Seeding a tree

`createDirs` adds ancestors from the root down and keeps them when it fails further down. In a
proper tree that leaves nothing behind: a file in the way has all its ancestors above it already, so
nothing was added before it is met (`createDirs_cases`), and a directory in the way of `putFile`
likewise (`putFile_cases`). Either all is done or nothing is (`seeding_is_all_or_nothing`).
-/

namespace Hostcall.Tree

open Hostcall.Path (Normal AtOrAbove Above)

variable {t u : Tree} {path parent q : String} {data : Bytes}

/-- Where there was nothing at some paths, there are directories. -/
structure Filled (t : Tree) (missing : String → Prop) (u : Tree) : Prop where
  added : ∀ q, missing q → t.get? q = none → u.get? q = some (.directory Mode.defaultDirectory)
  kept : ∀ q, t.get? q ≠ none ∨ ¬ missing q → u.get? q = t.get? q

/-- A path holds some data, under the mode that its file had, and its ancestors are filled up. -/
structure FilePut (t : Tree) (path : String) (data : Bytes) (u : Tree) : Prop where
  file : u.get? path =
    some (.file (.ofBytes data) (((t.get? path).map Node.mode).getD Mode.defaultFile))
  added : ∀ q, Above q path → t.get? q = none →
    u.get? q = some (.directory Mode.defaultDirectory)
  kept : ∀ q, q ≠ path → t.get? q ≠ none ∨ ¬ Above q path → u.get? q = t.get? q

/-- What comes of a step is what it is to do if that is possible, and else the tree is the same. -/
structure AllOrNothing (t : Tree) (outcome : Except SysError Unit × Tree) (possible : Prop)
    (done : Tree → Prop) : Prop where
  ok_iff : outcome.1 = .ok () ↔ possible
  done : outcome.1 = .ok () → done outcome.2
  undone : outcome.1 ≠ .ok () → outcome.2 = t

/-- Where nothing is missing, filling up changes nothing. -/
theorem Filled.eq_of_present {missing : String → Prop} (h : t.Filled missing u)
    (present : ∀ q, missing q → t.get? q ≠ none) : u = t := by
  apply ext_get?
  intro q
  apply h.kept
  by_cases hq : missing q
  · exact .inl (present q hq)
  · exact .inr hq

/-- Where nothing is missing, nothing needs to be filled. -/
theorem filled_self {missing : String → Prop} (present : ∀ q, missing q → t.get? q ≠ none) :
    t.Filled missing t where
  added q hq absent := absurd absent (present q hq)
  kept _ _ := rfl

/-- In a proper tree there are directories above every node. -/
theorem Proper.isDirectory_of_above (proper : t.Proper) (above : Above q path)
    (present : t.contains path = true) : t.isDirectory q = true := by
  have step {upper lower : String} (parents : Path.IsParent upper lower)
      (present : t.contains lower = true) : t.isDirectory upper = true := by
    have below : lower ≠ "/" := by
      rintro rfl
      simp [Path.IsParent] at parents
    obtain ⟨other, parents', directory⟩ := proper.parent lower present below
    exact Option.some.inj (parents'.symm.trans parents) ▸ directory
  induction above with
  | single parents => exact step parents present
  | tail _ parents ih =>
    obtain ⟨mode, directory⟩ := isDirectory_iff.1 (step parents present)
    exact ih (contains_iff.2 ⟨_, directory⟩)

/-- In a proper tree all that is above a directory is one. -/
theorem Proper.isDirectory_of_atOrAbove (proper : t.Proper) (above : AtOrAbove q path)
    (directory : t.isDirectory path = true) : t.isDirectory q = true := by
  rcases Path.atOrAbove_iff.1 above with rfl | above
  · exact directory
  · obtain ⟨mode, hmode⟩ := isDirectory_iff.1 directory
    exact proper.isDirectory_of_above above (contains_iff.2 ⟨_, hmode⟩)

theorem present_of_isDirectory (directory : t.isDirectory path = true) : t.get? path ≠ none := by
  obtain ⟨mode, hmode⟩ := isDirectory_iff.1 directory
  simp [hmode]

theorem contents?_of_isDirectory (directory : t.isDirectory path = true) :
    t.contents? path = none := by
  obtain ⟨mode, hmode⟩ := isDirectory_iff.1 directory
  rw [contents?, hmode]

/-- What is filled up above a path leaves the path alone. -/
theorem Filled.get?_below (parents : Path.parent? path = some parent)
    (filled : t.Filled (AtOrAbove · parent) u) : u.get? path = t.get? path :=
  filled.kept path (.inr fun above => Path.ne_of_above ((Path.above_iff parents).2 above) rfl)

/-- Once the parent is filled, one directory more fills the path. -/
theorem Filled.below (parents : Path.parent? path = some parent)
    (filled : t.Filled (AtOrAbove · parent) u) (absent : t.get? path = none) :
    t.Filled (AtOrAbove · path) (u.put path (.directory Mode.defaultDirectory)) where
  added q above missing := by
    rw [get?_put]
    split
    · rfl
    · rename_i other
      rcases Path.atOrAbove_iff.1 above with rfl | above
      · contradiction
      · exact filled.added q ((Path.above_iff parents).1 above) missing
  kept q outside := by
    have other : path ≠ q := by
      rintro rfl
      rcases outside with present | beside
      · exact present absent
      · exact beside .refl
    rw [get?_put, if_neg other]
    apply filled.kept
    apply outside.imp id
    intro beside above
    exact beside (Path.atOrAbove_of_parent parents above)

/-- In a proper tree, missing directories are added down to a path, or a file is in the way and
nothing is. -/
theorem createDirs_cases (proper : t.Proper) (normal : Normal path) :
    (∃ u, t.createDirs path = (.ok (), u) ∧ t.Filled (AtOrAbove · path) u ∧
      ∀ q, AtOrAbove q path → t.contents? q = none) ∨
    ∃ e, t.createDirs path = (.error e, t) ∧ ∃ q, AtOrAbove q path ∧ t.contents? q ≠ none := by
  fun_induction createDirs t path with
  | case1 path directory =>
    have directories {q : String} (above : AtOrAbove q path) : t.isDirectory q = true :=
      proper.isDirectory_of_atOrAbove above directory
    exact .inl ⟨t, rfl, filled_self fun q above => present_of_isDirectory (directories above),
      fun q above => contents?_of_isDirectory (directories above)⟩
  | case2 path node blocked top =>
    obtain rfl := normal.eq_root_of_parent? top
    exact absurd proper.root blocked
  | case3 path blocked parent parents e u failed ih =>
    rcases ih (normal.of_parent? parents) with ⟨v, made, -⟩ | ⟨e', same, q, above, file⟩
    · rw [failed] at made
      cases made
    · rw [failed] at same
      obtain ⟨-, rfl⟩ := Prod.mk.inj same
      exact .inr ⟨e, rfl, q, Path.atOrAbove_of_parent parents above, file⟩
  | case4 path node blocked parent parents u made ih =>
    rcases ih (normal.of_parent? parents) with ⟨v, same, filled, fine⟩ | ⟨e', failed, -⟩
    · rw [made] at same
      obtain ⟨-, rfl⟩ := Prod.mk.inj same
      cases found : t.get? path with
      | none =>
        have absent : u.contains path = false :=
          contains_eq_false_iff.2 ((filled.get?_below parents).trans found)
        obtain ⟨mode, directory⟩ := isDirectory_iff.1 (isDirectory_of_createDirs made)
        have added : u.createUnder (some parent) path node = .ok (u.put path node) := by
          simp [createUnder, absent, directory]
        refine .inl ⟨u.put path node, by rw [added]; rfl, filled.below parents found, ?_⟩
        intro q above
        rcases Path.atOrAbove_iff.1 above with rfl | above
        · rw [contents?, found]
        · exact fine q ((Path.above_iff parents).1 above)
      | some other =>
        -- What blocks the path has all its ancestors, so nothing was added above it.
        have present : t.contains path = true := contains_iff.2 ⟨other, found⟩
        obtain rfl := filled.eq_of_present fun q above => present_of_isDirectory
          (proper.isDirectory_of_above ((Path.above_iff parents).2 above) present)
        have refused : u.createUnder (some parent) path node = .error .alreadyExists := by
          simp [createUnder, present]
        refine .inr ⟨_, by rw [refused]; rfl, path, .refl, ?_⟩
        cases other with
        | directory mode => exact absurd (isDirectory_iff.2 ⟨mode, found⟩) blocked
        | file data mode => simp [contents?, found]
    · rw [made] at failed
      cases failed

/-- `createDirs` with no more than `depth` calls inside each other. -/
def createDirsWithin : (depth : Nat) → Tree → String → Option (Except SysError Unit × Tree)
  | 0, _, _ => none
  | depth + 1, t, path =>
    let node := Node.directory Mode.defaultDirectory
    if t.isDirectory path then some (.ok (), t)
    else
      match Path.parent? path with
      | none => some (t.orSame (t.createUnder none path node))
      | some parent =>
        match createDirsWithin depth t parent with
        | none => none
        | some (.error e, t) => some (.error e, t)
        | some (.ok (), t) => some (t.orSame (t.createUnder (some parent) path node))

/-- A text of any kind is longer than the calls are deep. -/
theorem createDirsWithin_eq (t : Tree) (path : String) {depth : Nat}
    (enough : path.length < depth) :
    createDirsWithin depth t path = some (t.createDirs path) := by
  induction depth generalizing path with
  | zero => contradiction
  | succ depth ih =>
    unfold createDirsWithin
    fun_cases createDirs t path with
    | case1 directory => exact if_pos directory
    | case2 node blocked top =>
      rw [if_neg blocked, top]
    | case3 blocked parent parents e u failed =>
      have shorter := Path.length_lt_of_parent? parents
      have made := ih parent (by omega)
      rw [failed] at made
      simp only [if_neg blocked, parents, made]
    | case4 node blocked parent parents u made =>
      have shorter := Path.length_lt_of_parent? parents
      have same := ih parent (by omega)
      rw [made] at same
      simp only [if_neg blocked, parents, same, node]

/-- Over a tree that is filled up, the file is put. -/
theorem Filled.put (filled : t.Filled (Above · path) u) :
    t.FilePut path data (u.put path
      (.file (.ofBytes data) (((t.get? path).map Node.mode).getD Mode.defaultFile))) where
  file := by rw [get?_put, if_pos rfl]
  added q above missing := by
    rw [get?_put, if_neg (Path.ne_of_above above).symm]
    exact filled.added q above missing
  kept q other outside := by
    rw [get?_put, if_neg other.symm]
    exact filled.kept q outside

/-- In a proper tree, a file is put and missing directories are added above it, or something is in
the way and nothing is done. -/
theorem putFile_cases (proper : t.Proper) (normal : Normal path) (data : Bytes) :
    (∃ u, t.putFile path data = (.ok (), u) ∧ t.FilePut path data u ∧
      (∀ q, Above q path → t.contents? q = none) ∧ t.isDirectory path = false) ∨
    ∃ e, t.putFile path data = (.error e, t) ∧
      ((∃ q, Above q path ∧ t.contents? q ≠ none) ∨ t.isDirectory path = true) := by
  cases parents : Path.parent? path with
  | none =>
    obtain rfl := normal.eq_root_of_parent? parents
    obtain ⟨mode, root⟩ := isDirectory_iff.1 proper.root
    exact .inr ⟨.isDirectory, by simp only [putFile, parents, root], .inr proper.root⟩
  | some parent =>
    have higher {q : String} : Above q path ↔ AtOrAbove q parent := Path.above_iff parents
    rcases createDirs_cases proper (normal.of_parent? parents) with
      ⟨u, made, filled, fine⟩ | ⟨e, failed, q, above, file⟩
    · have beneath : t.Filled (Above · path) u := by simpa only [higher] using filled
      have clear : ∀ q, Above q path → t.contents? q = none :=
        fun q above => fine q (higher.1 above)
      cases found : t.get? path with
      | none =>
        refine .inl ⟨_, ?_, beneath.put, clear, by simp [isDirectory, found]⟩
        simp only [putFile, parents, made, filled.get?_below parents, found]
        rfl
      | some node =>
        cases node with
        | file old mode =>
          refine .inl ⟨_, ?_, beneath.put, clear, by simp [isDirectory, found, Node.isDirectory]⟩
          simp only [putFile, parents, made, filled.get?_below parents, found]
          rfl
        | directory mode =>
          have there : t.isDirectory path = true := isDirectory_iff.2 ⟨mode, found⟩
          obtain rfl := filled.eq_of_present fun q above => present_of_isDirectory
            (proper.isDirectory_of_above (higher.2 above) (contains_iff.2 ⟨_, found⟩))
          exact .inr ⟨.isDirectory, by simp only [putFile, parents, made, found], .inr there⟩
    · exact .inr ⟨e, by simp only [putFile, parents, failed], .inl ⟨q, higher.2 above, file⟩⟩

/-- An outcome that is done or is refused with the tree as it was is all or nothing. -/
theorem AllOrNothing.of_cases {outcome : Except SysError Unit × Tree} {possible : Prop}
    {done : Tree → Prop}
    (h : (∃ u, outcome = (.ok (), u) ∧ done u ∧ possible) ∨
      ∃ e, outcome = (.error e, t) ∧ ¬ possible) : t.AllOrNothing outcome possible done := by
  rcases h with ⟨u, rfl, holds, able⟩ | ⟨e, rfl, unable⟩
  · exact ⟨by simpa using able, fun _ => holds, fun failed => absurd rfl failed⟩
  · exact ⟨by simpa using unable, nofun, fun _ => rfl⟩

/-- **Seeding is all or nothing.** In a proper tree, making sure of a directory fails only for a
file in the way, and putting a file for a file above or a directory at the path; then the tree is as
it was. Otherwise missing directories are added and nothing else, so that doing it again does
nothing, and the file holds the data, under the mode that it had. Whatever the text and the tree,
the calls for the ancestors come to an end. -/
theorem seeding_is_all_or_nothing (t : Tree) (path : String) :
    (t.Proper → Normal path →
      (t.AllOrNothing (t.createDirs path) (∀ q, AtOrAbove q path → t.contents? q = none) fun u =>
        t.Filled (AtOrAbove · path) u ∧ u.createDirs path = (.ok (), u)) ∧
      ∀ data, t.AllOrNothing (t.putFile path data)
        ((∀ q, Above q path → t.contents? q = none) ∧ t.isDirectory path = false)
        (t.FilePut path data)) ∧
    ∀ depth, path.length < depth → createDirsWithin depth t path = some (t.createDirs path) := by
  refine ⟨fun proper normal => ⟨.of_cases ?_, fun data => .of_cases ?_⟩,
    fun depth enough => createDirsWithin_eq t path enough⟩
  · rcases createDirs_cases proper normal with ⟨u, made, filled, fine⟩ | ⟨e, failed, q, above, file⟩
    · have again := createDirs_of_isDirectory (isDirectory_of_createDirs made)
      exact .inl ⟨u, made, ⟨filled, again⟩, fine⟩
    · exact .inr ⟨e, failed, fun fine => file (fine q above)⟩
  · rcases putFile_cases proper normal data with
      ⟨u, made, put, able⟩ | ⟨e, failed, ⟨q, above, file⟩ | directory⟩
    · exact .inl ⟨u, made, put, able⟩
    · exact .inr ⟨e, failed, fun able => file (able.1 q above)⟩
    · exact .inr ⟨e, failed, fun able => Bool.false_ne_true (able.2.symm.trans directory)⟩

/-- Beside a file, directories are added; below it, nothing is. -/
theorem seeding_around_file :
    let t := rootOnly.put "/f" (.file .empty Mode.defaultFile)
    t.Proper ∧ Normal "/a/b" ∧ Normal "/f/a/b" ∧
      (t.createDirs "/a/b").1 = .ok () ∧
      (t.createDirs "/a/b").2.get? "/a" = some (.directory Mode.defaultDirectory) ∧
      (t.putFile "/f/a/b" [1]).1 ≠ .ok () ∧ (t.putFile "/f/a/b" [1]).2 = t := by
  intro t
  have proper : t.Proper :=
    (Edit.add (t := rootOnly) (.file .empty Mode.defaultFile) (by decide) (by decide)
      (by decide : Path.parent? "/f" = some "/") (by decide)).proper proper_rootOnly
  have beside : Normal "/a/b" := by decide
  have below : Normal "/f/a/b" := by decide
  have directories := ((seeding_is_all_or_nothing t "/a/b").1 proper beside).1
  have file := ((seeding_is_all_or_nothing t "/f/a/b").1 proper below).2 [1]
  have clear : ∀ q, AtOrAbove q "/a/b" → t.contents? q = none := by
    intro q above
    have nearest := Path.above_iff (q := q) (by decide : Path.parent? "/a/b" = some "/a")
    have next := Path.above_iff (q := q) (by decide : Path.parent? "/a" = some "/")
    have last := Path.not_above_of_parent?_eq_none (q := q) Path.parent?_root
    rw [Path.atOrAbove_iff, nearest, Path.atOrAbove_iff, next, Path.atOrAbove_iff] at above
    rcases above with rfl | rfl | rfl | above
    · decide
    · decide
    · decide
    · exact absurd above last
  have made := directories.ok_iff.2 clear
  have inside : Above "/a" "/a/b" := .single (show Path.parent? "/a/b" = some "/a" by decide)
  have covered : Above "/f" "/f/a/b" :=
    .tail (.single (show Path.parent? "/f/a" = some "/f" by decide))
      (show Path.parent? "/f/a/b" = some "/f/a" by decide)
  have refused : (t.putFile "/f/a/b" [1]).1 ≠ .ok () := by
    intro put
    exact absurd ((file.ok_iff.1 put).1 "/f" covered) (by decide)
  exact ⟨proper, beside, below, made,
    (directories.done made).1.added "/a" inside.to_reflTransGen (by decide), refused,
    file.undone refused⟩

end Hostcall.Tree
