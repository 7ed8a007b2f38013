import Hostcall.Path

/-!
# Paths in normal form

A path is in normal form when it is the root, or names each after a slash that a walk neither drops
nor follows upwards. `Path.resolve` yields nothing else (`normal_of_resolve`) and leaves such a path
alone (`resolve_of_normal`), so a place has one key in a tree; it brings in no characters but
slashes (`mem_of_mem_resolve`). On a normal path `Path.parent?` drops the last name
(`parent?_ofNames`), and every path but the root has one (`Normal.eq_root_or_below`).
-/

namespace Hostcall.Path

/-- A name of a normal path: no slash divides it and a walk goes down along it. -/
structure IsName (name : List Char) : Prop where
  nonempty : name ≠ []
  noSlash : '/' ∉ name
  notDot : name ≠ ['.']
  notDotDot : name ≠ ['.', '.']

/-- A path that is the root, or a sequence of names with a slash before each. -/
def Normal (path : String) : Prop := ∃ names, (∀ name ∈ names, IsName name) ∧ path = ofNames names

@[simp] theorem toList_ofNames (names : List (List Char)) :
    (ofNames names).toList = if names = [] then ['/'] else names.flatMap ('/' :: ·) := by
  unfold ofNames
  split
  · rfl
  · rw [String.toList_ofList]

theorem normal_root : Normal "/" := ⟨[], by simp, rfl⟩

@[simp] theorem split_slash (rest : List Char) : split ('/' :: rest) = [] :: split rest := by
  simp [split]

theorem split_ne_nil (path : List Char) : split path ≠ [] := by
  induction path with
  | nil => simp [split]
  | cons c rest ih =>
    unfold split
    split
    · simp
    · split <;> simp

/-- No part of a split path holds the separator. -/
theorem noSlash_of_mem_split {path name : List Char} (h : name ∈ split path) : '/' ∉ name := by
  induction path generalizing name with
  | nil => simp_all [split]
  | cons c rest ih =>
    unfold split at h
    split at h
    · rcases List.mem_cons.1 h with rfl | h
      · simp
      · exact ih h
    · rename_i hc
      split at h
      · rename_i hsplit
        exact absurd hsplit (split_ne_nil rest)
      · rename_i first more hsplit
        rcases List.mem_cons.1 h with rfl | h
        · have hfirst : '/' ∉ first := ih (hsplit ▸ List.mem_cons_self)
          simp [hfirst, Ne.symm hc]
        · exact ih (hsplit ▸ List.mem_cons_of_mem _ h)

/-- Characters before the first slash belong to the first name. -/
theorem split_append {name rest first : List Char} {more : List (List Char)} (h : '/' ∉ name)
    (hrest : split rest = first :: more) : split (name ++ rest) = (name ++ first) :: more := by
  induction name with
  | nil => exact hrest
  | cons c name ih =>
    have hc : c ≠ '/' := fun e => h (by simp [e])
    have := ih fun e => h (by simp [e])
    rw [List.cons_append, split, if_neg hc, this]
    rfl

/-- Splitting undoes the writing of names after separators. -/
theorem split_flatMap {names : List (List Char)} (h : ∀ name ∈ names, '/' ∉ name) :
    split (names.flatMap ('/' :: ·)) = [] :: names := by
  induction names with
  | nil => rfl
  | cons name names ih =>
    have hrest := ih fun other ho => h other (List.mem_cons_of_mem _ ho)
    rw [List.flatMap_cons, List.cons_append, split_slash,
      split_append (h name List.mem_cons_self) hrest, List.append_nil]

@[simp] theorem walk_nil (place : List (List Char)) : walk place [] = place := by
  simp [walk]

/-- A step that is a name goes down. -/
theorem walk_of_isName {name : List Char} (h : IsName name) (place : List (List Char)) :
    walk place name = name :: place := by
  rw [walk, if_neg (not_or.2 ⟨h.nonempty, h.notDot⟩), if_neg h.notDotDot]

/-- A step goes down by a name or nowhere new. -/
theorem isName_of_mem_walk {place : List (List Char)} {name other : List Char}
    (hplace : ∀ name ∈ place, IsName name) (hname : '/' ∉ name) (h : other ∈ walk place name) :
    IsName other := by
  unfold walk at h
  split at h
  · exact hplace other h
  rename_i hkept
  split at h
  · exact hplace other (List.mem_of_mem_tail h)
  · rename_i hup
    rcases List.mem_cons.1 h with rfl | h
    · exact ⟨fun e => hkept (.inl e), hname, fun e => hkept (.inr e), hup⟩
    · exact hplace other h

/-- So the place that steps lead to is made of names. -/
theorem isName_of_mem_foldl {place steps : List (List Char)} {name : List Char}
    (hplace : ∀ name ∈ place, IsName name) (hsteps : ∀ name ∈ steps, '/' ∉ name)
    (h : name ∈ steps.foldl walk place) : IsName name := by
  induction steps generalizing place with
  | nil => exact hplace name h
  | cons step steps ih =>
    refine ih ?_ (fun other ho => hsteps other (List.mem_cons_of_mem _ ho)) h
    exact fun other => isName_of_mem_walk hplace (hsteps step List.mem_cons_self)

/-- Steps that are all names are all taken. -/
theorem foldl_walk_of_isName {steps : List (List Char)} (h : ∀ name ∈ steps, IsName name)
    (place : List (List Char)) : steps.foldl walk place = steps.reverse ++ place := by
  induction steps generalizing place with
  | nil => rfl
  | cons step steps ih =>
    rw [List.foldl_cons, walk_of_isName (h step List.mem_cons_self),
      ih fun name hn => h name (List.mem_cons_of_mem _ hn)]
    simp

theorem isName_of_mem_names {path name : List Char} (h : name ∈ names path) : IsName name :=
  isName_of_mem_foldl (by simp) (fun _ => noSlash_of_mem_split) (List.mem_reverse.1 h)

/-- The names of a normal path are read back from it. -/
theorem names_ofNames {ns : List (List Char)} (h : ∀ name ∈ ns, IsName name) :
    names (ofNames ns).toList = ns := by
  rw [toList_ofNames]
  split
  · simp_all [names, split]
  · rw [names, split_flatMap fun name hn => (h name hn).noSlash, List.foldl_cons, walk_nil,
      foldl_walk_of_isName h]
    simp

/-- The names of a path, written out, are a normal path. -/
theorem normal_ofNames_names (path : List Char) : Normal (ofNames (names path)) :=
  ⟨names path, fun _ => isName_of_mem_names, rfl⟩

/-- What resolves does so to a normal path. -/
theorem normal_of_resolve {cwd path p : String} (h : resolve cwd path = some p) : Normal p := by
  unfold resolve at h
  split at h
  · contradiction
  split at h
  · exact Option.some.inj h ▸ normal_ofNames_names _
  · exact Option.some.inj h ▸ normal_ofNames_names _

theorem Normal.toList_eq_cons {path : String} (h : Normal path) :
    ∃ rest, path.toList = '/' :: rest := by
  obtain ⟨ns, -, rfl⟩ := h
  cases ns with
  | nil => exact ⟨[], rfl⟩
  | cons name ns => exact ⟨name ++ ns.flatMap ('/' :: ·), by simp⟩

/-- A normal path resolves to itself, from anywhere. -/
theorem resolve_of_normal {path : String} (h : Normal path) (cwd : String) :
    resolve cwd path = some path := by
  obtain ⟨rest, hrest⟩ := h.toList_eq_cons
  obtain ⟨ns, hns, rfl⟩ := h
  have hnames := names_ofNames hns
  rw [hrest] at hnames
  rw [resolve, hrest]
  simp only [if_true, hnames]

/-- The empty path alone names no place. -/
theorem resolve_eq_none_iff {cwd path : String} : resolve cwd path = none ↔ path = "" := by
  rw [← String.toList_eq_nil_iff, resolve]
  split
  · simp [*]
  · split <;> simp [*]

/-- Only the root and sequences of names resolve to themselves. -/
theorem normal_iff_resolve {path : String} : Normal path ↔ resolve "/" path = some path :=
  ⟨fun h => resolve_of_normal h "/", normal_of_resolve⟩

instance (path : String) : Decidable (Normal path) := decidable_of_iff _ normal_iff_resolve.symm

theorem mem_of_mem_split {path name : List Char} {c : Char} (h : name ∈ split path)
    (hc : c ∈ name) : c ∈ path := by
  induction path generalizing name with
  | nil => simp_all [split]
  | cons x rest ih =>
    unfold split at h
    split at h
    · rcases List.mem_cons.1 h with rfl | h
      · contradiction
      · exact List.mem_cons_of_mem _ (ih h hc)
    · split at h
      · rename_i hsplit
        exact absurd hsplit (split_ne_nil rest)
      · rename_i first more hsplit
        rcases List.mem_cons.1 h with rfl | h
        · exact List.mem_cons.2 ((List.mem_cons.1 hc).imp id (ih (hsplit ▸ List.mem_cons_self)))
        · exact List.mem_cons_of_mem _ (ih (hsplit ▸ List.mem_cons_of_mem _ h) hc)

theorem mem_foldl_walk {place steps : List (List Char)} {name : List Char}
    (h : name ∈ steps.foldl walk place) : name ∈ place ∨ name ∈ steps := by
  induction steps generalizing place with
  | nil => exact .inl h
  | cons step steps ih =>
    rcases ih h with walked | later
    · unfold walk at walked
      split at walked
      · exact .inl walked
      split at walked
      · exact .inl (List.mem_of_mem_tail walked)
      · exact (List.mem_cons.1 walked).elim (fun e => .inr (List.mem_cons.2 (.inl e))) .inl
    · exact .inr (List.mem_cons_of_mem _ later)

/-- Normalising a path brings in no character but the separator. -/
theorem mem_of_mem_ofNames_names {path : List Char} {c : Char}
    (h : c ∈ (ofNames (names path)).toList) : c = '/' ∨ c ∈ path := by
  rw [toList_ofNames] at h
  split at h
  · exact .inl (List.mem_singleton.1 h)
  · obtain ⟨name, hname, hc⟩ := List.mem_flatMap.1 h
    rcases mem_foldl_walk (List.mem_reverse.1 hname) with impossible | split
    · contradiction
    · exact (List.mem_cons.1 hc).imp id (mem_of_mem_split split)

/-- Resolving brings in no characters but slashes. -/
theorem mem_of_mem_resolve {cwd path p : String} (h : resolve cwd path = some p) {c : Char}
    (hc : c ∈ p.toList) : c = '/' ∨ c ∈ cwd.toList ∨ c ∈ path.toList := by
  unfold resolve at h
  split at h
  · contradiction
  rename_i first rest hpath
  rw [hpath]
  split at h <;>
    obtain rfl := Option.some.inj h
  · exact (mem_of_mem_ofNames_names hc).imp id .inr
  · rcases mem_of_mem_ofNames_names hc with slash | joined
    · exact .inl slash
    · rcases List.mem_append.1 joined with seen | named
      · exact .inr (.inl seen)
      · exact (List.mem_cons.1 named).imp id .inr

@[simp] theorem parent?_root : parent? "/" = none := by simp [parent?]

/-- The parent of a normal path has all its names but the last. -/
theorem parent?_ofNames {ns : List (List Char)} {name : List Char} (h : IsName name) :
    parent? (ofNames (ns ++ [name])) = some (ofNames ns) := by
  have hlist : (ofNames (ns ++ [name])).toList = ns.flatMap ('/' :: ·) ++ '/' :: name := by
    simp
  have hroot : ofNames (ns ++ [name]) ≠ "/" := by
    intro e
    have := congrArg (fun s => s.toList.length) e
    have hlen := List.length_pos_iff.2 h.nonempty
    simp only [hlist, List.length_append, List.length_cons] at this
    change _ = 1 at this
    omega
  have hdrop : (ofNames (ns ++ [name])).toList.reverse.dropWhile (· != '/') =
      '/' :: (ns.flatMap ('/' :: ·)).reverse := by
    rw [hlist, List.reverse_append, List.reverse_cons, List.append_assoc,
      List.dropWhile_append_of_pos]
    · simp
    · intro c hc
      have : c ≠ '/' := fun e => h.noSlash (e ▸ List.mem_reverse.1 hc)
      simpa using this
  have habove : (ns.flatMap ('/' :: ·)).reverse = [] ↔ ns = [] := by
    cases ns <;> simp
  rw [parent?, if_neg hroot, hdrop]
  simp only [habove, List.reverse_reverse, ofNames]

/-- A normal path is the root or lies right below another normal path. -/
theorem Normal.eq_root_or_below {path : String} (h : Normal path) :
    path = "/" ∨ ∃ ns name, (∀ other ∈ ns, IsName other) ∧ IsName name ∧
      path = ofNames (ns ++ [name]) := by
  obtain ⟨ns, hns, rfl⟩ := h
  rcases List.eq_nil_or_concat ns with rfl | ⟨above, name, rfl⟩
  · exact .inl rfl
  · rw [List.concat_eq_append] at hns ⊢
    exact .inr ⟨above, name, fun other ho => hns other (by simp [ho]), hns name (by simp), rfl⟩

/-- All normal paths but the root have a parent, which is normal. -/
theorem Normal.parent? {path : String} (h : Normal path) (hroot : path ≠ "/") :
    ∃ parent, Path.parent? path = some parent ∧ Normal parent := by
  rcases h.eq_root_or_below with e | ⟨ns, name, hns, hname, rfl⟩
  · exact absurd e hroot
  · exact ⟨ofNames ns, parent?_ofNames hname, ns, hns, rfl⟩

/-- The parent of a normal path is normal. -/
theorem Normal.of_parent? {path parent : String} (h : Normal path)
    (hparent : Path.parent? path = some parent) : Normal parent := by
  have hroot : path ≠ "/" := by
    rintro rfl
    simp at hparent
  obtain ⟨q, hq, hnormal⟩ := h.parent? hroot
  exact Option.some.inj (hparent.symm.trans hq) ▸ hnormal

end Hostcall.Path
