import Hostcall.Proofs.Machine.Access
import Hostcall.Proofs.Snapshot.Ancestors
import Hostcall.Text.Utf8.Lemmas

/-!
# What an open comes to

The bits of the flag word, what stands at the place that a name resolves to and what stands above it
decide whether an open takes effect (`Openable`) and, if it does not, for which reason
(`OpenRefused`). The reasons are listed in the order in which they are looked for, each with what
rules out those before it, so that there is always one of them or the open takes effect, and never
two. A file that is opened is emptied only if it can be written through the descriptor (`OpenedAt`).
The answer is the number of the new descriptor as far as it fits into the answer.
-/

namespace Hostcall

namespace OpenFlags

variable {f : OpenFlags}

/-- What the bits of a flag word say: the two low ones are a number, the others count on their
own. -/
structure Bits (f : OpenFlags) : Prop where
  access : f.access = ⟨accessMask⟩ ↔ f.word.toNat % 4 = 3
  writes : f.writes = true ↔ f.word.toNat % 4 = 1 ∨ f.word.toNat % 4 = 2
  creates : f.creates = f.word.getLsbD 9
  truncates : f.truncates = f.word.getLsbD 10
  excludes : f.excludes = f.word.getLsbD 11

/-- The access mode is the two lowest bits of the word. -/
theorem access_eq_iff (f : OpenFlags) {n : Nat} (small : n < 4) :
    f.access = ⟨BitVec.ofNat 32 n⟩ ↔ f.word.toNat % 4 = n := by
  have low : (f.word &&& accessMask).toNat = f.word.toNat % 4 := by
    rw [BitVec.toNat_and]
    exact Nat.and_two_pow_sub_one_eq_mod f.word.toNat 2
  rw [access, OpenFlags.mk.injEq, ← BitVec.toNat_inj, low, BitVec.toNat_ofNat,
    Nat.mod_eq_of_lt (by omega : n < 2 ^ 32)]

/-- A flag of one bit is set if the bit is. -/
theorem contains_twoPow (f : OpenFlags) {i : Nat} (inside : i < 32) :
    f.contains ⟨BitVec.twoPow 32 i⟩ = f.word.getLsbD i := by
  rw [contains, BitVec.and_twoPow]
  have some : (0 : BitVec 32) ≠ BitVec.twoPow 32 i := by
    intro zero
    have bit := congrArg (BitVec.getLsbD · i) zero
    simp [inside] at bit
  cases f.word.getLsbD i with
  | false => simpa using some
  | true => simp

/-- What the masks test are the bits of the word. -/
theorem bits (f : OpenFlags) : f.Bits where
  access := access_eq_iff f (by decide : 3 < 4)
  writes := by
    simp only [writes, Bool.or_eq_true, beq_iff_eq]
    exact or_congr (access_eq_iff f (by decide : 1 < 4)) (access_eq_iff f (by decide : 2 < 4))
  creates := contains_twoPow f (by decide : 9 < 32)
  truncates := contains_twoPow f (by decide : 10 < 32)
  excludes := contains_twoPow f (by decide : 11 < 32)

end OpenFlags

namespace Tree

variable {t : Tree} {flags : OpenFlags} {path : String} {e : SysError}

/-- The node right above a path. -/
def above? (t : Tree) (path : String) : Option Node := (Path.parent? path).bind t.get?

/-- Where there is nothing, what stands right above decides whether a node can be added. -/
theorem create_of_absent (absent : t.get? path = none) (node : Node) :
    t.create path node =
      match t.above? path with
      | some (.directory _) => .ok (t.put path node)
      | some (.file ..) => .error .notDirectory
      | none => .error .notFound := by
  rw [create, createUnder, contains_eq_false_iff.2 absent]
  rfl

/-- At a path there is a file that is not in the way, or a file can be created there. -/
inductive Opens (t : Tree) (flags : OpenFlags) (path : String) : Prop where
  | found {data : Contents} {bits : Mode} (file : t.get? path = some (.file data bits))
      (shared : (flags.creates && flags.excludes) = false) : Opens t flags path
  | created {bits : Mode} (absent : t.get? path = none) (creates : flags.creates = true)
      (above : t.above? path = some (.directory bits)) : Opens t flags path

/-- Why a path cannot be opened. -/
inductive RefusesOpen (t : Tree) (flags : OpenFlags) (path : String) : SysError → Prop where
  | directory {bits : Mode} (directory : t.get? path = some (.directory bits)) :
      RefusesOpen t flags path .isDirectory
  | present {data : Contents} {bits : Mode} (file : t.get? path = some (.file data bits))
      (exclusive : (flags.creates && flags.excludes) = true) :
      RefusesOpen t flags path .alreadyExists
  | absent (absent : t.get? path = none) (creates : flags.creates = false) :
      RefusesOpen t flags path .notFound
  | underFile {data : Contents} {bits : Mode} (absent : t.get? path = none)
      (creates : flags.creates = true) (above : t.above? path = some (.file data bits)) :
      RefusesOpen t flags path .notDirectory
  | underNothing (absent : t.get? path = none) (creates : flags.creates = true)
      (above : t.above? path = none) : RefusesOpen t flags path .notFound

/-- At each path a tree opens or refuses. -/
theorem opens_or_refuses (t : Tree) (flags : OpenFlags) (path : String) :
    t.Opens flags path ∨ ∃ e, t.RefusesOpen flags path e := by
  cases node : t.get? path with
  | some found =>
    cases found with
    | directory bits => exact .inr ⟨_, .directory node⟩
    | file data bits =>
      cases shared : flags.creates && flags.excludes with
      | false => exact .inl (.found node shared)
      | true => exact .inr ⟨_, .present node shared⟩
  | none =>
    cases creates : flags.creates with
    | false => exact .inr ⟨_, .absent node creates⟩
    | true =>
      cases above : t.above? path with
      | none => exact .inr ⟨_, .underNothing node creates above⟩
      | some upper =>
        cases upper with
        | directory bits => exact .inl (.created node creates above)
        | file data bits => exact .inr ⟨_, .underFile node creates above⟩

/-- What an open leaves at a path and around it. -/
structure OpenedAt (t : Tree) (flags : OpenFlags) (mode : Mode) (path : String) (after : Tree) :
    Prop where
  contents : after.contents? path =
    if t.get? path = none ∨ (flags.truncates = true ∧ flags.writes = true) then some .empty
    else t.contents? path
  bits : ∀ data bits, t.get? path = some (.file data bits) →
    ∃ data, after.get? path = some (.file data bits)
  created : t.get? path = none → after.get? path = some (.file .empty mode)
  others : ∀ other, other ≠ path → after.get? other = t.get? other

namespace OpenedAt

variable {mode : Mode} {data : Contents} {bits : Mode}

theorem emptied (file : t.get? path = some (.file data bits))
    (empties : flags.truncates = true ∧ flags.writes = true) :
    t.OpenedAt flags mode path (t.put path (.file .empty bits)) where
  contents := by rw [contents?_put_file, if_pos rfl, if_pos (.inr empties)]
  bits data' bits' file' := by
    obtain ⟨-, rfl⟩ := Node.file.inj (Option.some.inj (file.symm.trans file'))
    exact ⟨.empty, by rw [get?_put, if_pos rfl]⟩
  created absent := by
    rw [file] at absent
    contradiction
  others other different := by rw [get?_put, if_neg different.symm]

theorem kept (file : t.get? path = some (.file data bits))
    (keeps : ¬ (flags.truncates = true ∧ flags.writes = true)) : t.OpenedAt flags mode path t where
  contents := by
    rw [if_neg]
    rintro (absent | empties)
    · rw [file] at absent
      contradiction
    · exact keeps empties
  bits data' bits' file' := ⟨data', file'⟩
  created absent := by
    rw [file] at absent
    contradiction
  others _ _ := rfl

theorem of_absent (absent : t.get? path = none) :
    t.OpenedAt flags mode path (t.put path (.file .empty mode)) where
  contents := by rw [contents?_put_file, if_pos rfl, if_pos (.inl absent)]
  bits data bits file := by
    rw [absent] at file
    contradiction
  created _ := by rw [get?_put, if_pos rfl]
  others other different := by rw [get?_put, if_neg different.symm]

end OpenedAt

end Tree

namespace Machine

variable {m : Machine} {name : CString} {flags : OpenFlags} {mode : Mode} {path : String}
  {e : SysError}

/-- The access mode is valid, and the name resolves to a place that can be opened. -/
structure Openable (m : Machine) (name : CString) (flags : OpenFlags) : Prop where
  access : flags.access ≠ ⟨OpenFlags.accessMask⟩
  place : ∃ path, m.resolve (Utf8.decode name.hostView) = some path ∧ m.tree.Opens flags path

/-- Why an open fails. -/
inductive OpenRefused (m : Machine) (name : CString) (flags : OpenFlags) : SysError → Prop where
  | noAccess (access : flags.access = ⟨OpenFlags.accessMask⟩) :
      OpenRefused m name flags .invalidArgument
  | noName (access : flags.access ≠ ⟨OpenFlags.accessMask⟩) (empty : name.hostView = []) :
      OpenRefused m name flags .notFound
  | place {path : String} {e : SysError} (access : flags.access ≠ ⟨OpenFlags.accessMask⟩)
      (resolves : m.resolve (Utf8.decode name.hostView) = some path)
      (refuses : m.tree.RefusesOpen flags path e) : OpenRefused m name flags e

/-- Only the empty name resolves to nothing. -/
theorem resolve_eq_none_iff :
    m.resolve (Utf8.decode name.hostView) = none ↔ name.hostView = [] :=
  Path.resolve_eq_none_iff.trans (Utf8.decode_eq_empty_iff _)

/-- There is nothing against an open, or a reason. -/
theorem openable_or_refused (m : Machine) (name : CString) (flags : OpenFlags) :
    m.Openable name flags ∨ ∃ e, m.OpenRefused name flags e := by
  by_cases access : flags.access = ⟨OpenFlags.accessMask⟩
  · exact .inr ⟨_, .noAccess access⟩
  cases resolves : m.resolve (Utf8.decode name.hostView) with
  | none => exact .inr ⟨_, .noName access (resolve_eq_none_iff.1 resolves)⟩
  | some path =>
    rcases m.tree.opens_or_refuses flags path with opens | ⟨e, refuses⟩
    · exact .inl ⟨access, path, resolves, opens⟩
    · exact .inr ⟨e, .place access resolves refuses⟩

/-- Counting a call makes no difference to whether an open has something against it. -/
theorem openable_counted (m : Machine) (name : CString) (flags : OpenFlags) (request : Request) :
    (m.counted request).Openable name flags ↔ m.Openable name flags :=
  ⟨fun ⟨access, place⟩ => ⟨access, place⟩, fun ⟨access, place⟩ => ⟨access, place⟩⟩

theorem openRefused_counted (m : Machine) (name : CString) (flags : OpenFlags) (request : Request)
    (e : SysError) : (m.counted request).OpenRefused name flags e ↔ m.OpenRefused name flags e := by
  constructor <;>
  · intro refused
    cases refused with
    | noAccess access => exact .noAccess access
    | noName access empty => exact .noName access empty
    | place access resolves refuses => exact .place access resolves refuses

/-- What can be opened is opened. -/
theorem exists_openTree_of_opens (opens : m.tree.Opens flags path) (mode : Mode) :
    ∃ tree, m.openTree path flags mode = .ok tree := by
  cases opens with
  | found file shared =>
    simp only [openTree, file, shared, Bool.false_eq_true, if_false]
    split
    · exact ⟨_, by rw [Tree.truncate, Tree.file_eq_ok_iff.2 file]; rfl⟩
    · exact ⟨_, rfl⟩
  | created absent creates above =>
    rw [openTree_of_absent absent creates, Tree.createFile, Tree.create_of_absent absent, above]
    exact ⟨_, rfl⟩

/-- What is refused is refused for the reason given. -/
theorem openTree_of_refuses (refuses : m.tree.RefusesOpen flags path e) (mode : Mode) :
    m.openTree path flags mode = .error e := by
  cases refuses with
  | directory directory => simp only [openTree, directory]
  | present file exclusive => simp only [openTree, file, exclusive, if_true]
  | absent absent creates => simp only [openTree, absent, creates, Bool.false_eq_true, if_false]
  | underFile absent creates above =>
    rw [openTree_of_absent absent creates, Tree.createFile, Tree.create_of_absent absent, above]
  | underNothing absent creates above =>
    rw [openTree_of_absent absent creates, Tree.createFile, Tree.create_of_absent absent, above]

theorem exists_openFile_of_openable (openable : m.Openable name flags) (mode : Mode) :
    ∃ answer, m.openFile name flags mode = .ok answer := by
  obtain ⟨access, path, resolves, opens⟩ := openable
  exact (exists_openFile_iff (place_eq_ok_iff.2 resolves) access).2
    (exists_openTree_of_opens opens mode)

theorem openFile_of_refused (refused : m.OpenRefused name flags e) (mode : Mode) :
    m.openFile name flags mode = .error e := by
  cases refused with
  | noAccess access => exact if_pos access
  | noName access empty =>
    have lost : m.place name = .error .notFound := by
      rw [place, resolve_eq_none_iff.2 empty]
    rw [openFile, if_neg access, lost]
    rfl
  | place access resolves refuses =>
    rw [openFile, if_neg access, place_eq_ok_iff.2 resolves]
    show (m.openTree _ flags mode >>= _) = _
    rw [openTree_of_refuses refuses]
    rfl

/-- An open succeeds exactly for a name that can be opened. -/
theorem exists_openFile_eq_ok_iff :
    (∃ answer, m.openFile name flags mode = .ok answer) ↔ m.Openable name flags := by
  constructor
  · rintro ⟨answer, opened⟩
    rcases m.openable_or_refused name flags with openable | ⟨e, refused⟩
    · exact openable
    · rw [openFile_of_refused refused] at opened
      contradiction
  · intro openable
    exact exists_openFile_of_openable openable mode

/-- A tree that was opened in has changed at that path only, as its flags say. -/
theorem openedAt_of_openTree {tree : Tree} (opened : m.openTree path flags mode = .ok tree) :
    m.tree.OpenedAt flags mode path tree := by
  rcases openTree_cases opened with ⟨data, bits, file, -, rfl⟩ | ⟨absent, -, created⟩
  · split
    · rename_i empties
      exact .emptied file (Bool.and_eq_true_iff.1 empties)
    · rename_i keeps
      exact .kept file fun empties => keeps (Bool.and_eq_true_iff.2 empties)
  · obtain ⟨-, -, rfl⟩ := Tree.createUnder_eq_ok created
    exact .of_absent absent

/-- A refused open is answered with `-1`, its reason in the register, and changes nothing else. -/
theorem perform_openFile_of_refused (refused : m.OpenRefused name flags e) (mode : Mode) :
    m.perform (.openFile name flags mode) =
      ((-1 : Int), (m.counted (.openFile name flags mode)).failed e) := by
  let counted := m.counted (.openFile name flags mode)
  have failed : counted.openFile name flags mode = .error e :=
    openFile_of_refused ((openRefused_counted m name flags _ e).2 refused) mode
  show counted.respond (.openFile name flags mode) = _
  rw [respond, failed]

/-- Without a new descriptor, the answer of a failure is one. -/
theorem not_takesEffect_of_failed
    (failed : m.perform (.openFile name flags mode) =
      ((-1 : Int), (m.counted (.openFile name flags mode)).failed e)) :
    ¬ m.TakesEffect (.openFile name flags mode) := by
  rw [TakesEffect, failed]
  rintro (passes | changed)
  · exact passes (show (-1 : Int) < 0 by decide)
  · exact changed rfl

/-- What can be opened gets the next number, cast to the type of the answer. -/
theorem perform_openFile_of_openable (openable : m.Openable name flags) (mode : Mode) :
    m.TakesEffect (.openFile name flags mode) ∧
      (m.perform (.openFile name flags mode)).1 = CInt.ofNat m.files.next ∧
      ∀ path, m.resolve (Utf8.decode name.hostView) = some path →
        m.tree.OpenedAt flags mode path (m.perform (.openFile name flags mode)).2.tree := by
  have effect : m.TakesEffect (.openFile name flags mode) :=
    (takesEffect_openFile_iff m name flags mode).2
      (exists_openFile_of_openable ((openable_counted m name flags _).2 openable) mode)
  refine ⟨effect, ?_⟩
  rcases m.perform_openFile_cases name flags mode with
    ⟨e, failed⟩ | ⟨place, tree, named, opened, answer⟩
  · exact absurd effect (not_takesEffect_of_failed failed)
  · rw [answer]
    refine ⟨congrArg CInt.ofNat (SlotTable.insert_fst _ _), fun path resolves => ?_⟩
    obtain rfl : path = place :=
      Option.some.inj (resolves.symm.trans (place_eq_ok_iff.1 named))
    exact openedAt_of_openTree opened

/-- **What an open comes to** is decided by the flag word, what stands at the place that the name
resolves to and what stands above it. An open without effect changes the register and nothing else;
any other leaves a file at the place that is empty if it was created, or emptied through a
descriptor that writes, and else holds what it held, under the mode that it had. The answer to it is
the number of the descriptor, cast; where the number fits, the opens that take effect are those that
succeed, and the others fail for the reason that there is. -/
theorem open_decides (m : Machine) (name : CString) (flags : OpenFlags) (mode : Mode) :
    let request := Request.openFile name flags mode
    let answer := m.perform request
    flags.Bits ∧
    (m.TakesEffect request ↔ m.Openable name flags) ∧
    (m.Openable name flags → answer.1 = CInt.ofNat m.files.next) ∧
    (∀ e, m.OpenRefused name flags e ↔ answer = ((-1 : Int), (m.counted request).failed e)) ∧
    (∀ path, m.resolve (Utf8.decode name.hostView) = some path → m.TakesEffect request →
      m.tree.OpenedAt flags mode path answer.2.tree) ∧
    (m.files.next < CInt.bound →
      (0 ≤ answer.1 ↔ m.Openable name flags) ∧
      ∀ e, m.FailsFor request e ↔ m.OpenRefused name flags e) := by
  intro request answer
  have effect_iff : m.TakesEffect request ↔ m.Openable name flags :=
    (takesEffect_openFile_iff m name flags mode).trans
      ((exists_openFile_eq_ok_iff (m := m.counted request)).trans
        (openable_counted m name flags request))
  have reason (none : ¬ m.TakesEffect request) : ∃ e, m.OpenRefused name flags e :=
    (m.openable_or_refused name flags).resolve_left fun openable => none (effect_iff.2 openable)
  have refused_iff (e : SysError) :
      m.OpenRefused name flags e ↔ answer = ((-1 : Int), (m.counted request).failed e) := by
    refine ⟨fun refused => perform_openFile_of_refused refused mode, fun failed => ?_⟩
    obtain ⟨f, refused⟩ := reason (not_takesEffect_of_failed failed)
    have code := congrArg (fun answer => Machine.errno answer.2)
      (failed.symm.trans (perform_openFile_of_refused refused mode))
    exact SysError.code_injective code ▸ refused
  refine ⟨flags.bits, effect_iff, ?_, refused_iff, ?_, fun fits => ⟨?_, fun e => ?_⟩⟩
  · exact fun openable => (perform_openFile_of_openable openable mode).2.1
  · exact fun path resolves effect =>
      (perform_openFile_of_openable (effect_iff.1 effect) mode).2.2 path resolves
  · exact (opens_iff fits name flags mode).symm.trans effect_iff
  · constructor
    · rintro ⟨fails, code⟩
      obtain ⟨f, refused⟩ := reason fun effect => effect.not_fails fits fails
      rw [show m.perform request = _ from (refused_iff f).1 refused] at code
      exact SysError.code_injective code ▸ refused
    · intro refused
      rw [FailsFor, show m.perform request = _ from (refused_iff e).1 refused]
      exact ⟨show (-1 : Int) < 0 by decide, rfl⟩

/-- A descriptor that only reads empties no file, whatever flags come with it. -/
theorem open_decides_for_reader :
    let m := { initial with tree := Tree.rootOnly.put "/f" (.file (.ofBytes [97]) 0o600) }
    let flags := OpenFlags.readOnly ||| OpenFlags.truncate
    let answer := m.perform (.openFile ⟨Utf8.encode "/f"⟩ flags 0o644)
    m.files.next < CInt.bound ∧ 0 ≤ answer.1 ∧
      answer.2.tree.contents? "/f" = some (.ofBytes [97]) := by
  intro m flags answer
  obtain ⟨-, effect_iff, -, -, leaves, fitting⟩ :=
    m.open_decides ⟨Utf8.encode "/f"⟩ flags 0o644
  have resolves : m.resolve (Utf8.decode (CString.hostView ⟨Utf8.encode "/f"⟩)) = some "/f" := by
    decide
  have openable : m.Openable ⟨Utf8.encode "/f"⟩ flags :=
    ⟨by decide, "/f", resolves, .found rfl (by decide)⟩
  have fits : m.files.next < CInt.bound := by decide
  refine ⟨fits, (fitting fits).1.2 openable, ?_⟩
  rw [(leaves "/f" resolves (effect_iff.2 openable)).contents, if_neg (by decide)]
  decide

/-- With as many descriptors open as can be numbered, a file that can be created is created, and the
answer is that of a failure. -/
theorem Crowd.openable (crowd : m.Crowd CInt.bound) :
    m.Openable ⟨Utf8.encode "/g"⟩ (OpenFlags.readWrite ||| OpenFlags.create) ∧
      (openAt "/g").Fails (m.perform (openAt "/g")).1 := by
  have resolves : m.resolve (Utf8.decode (CString.hostView ⟨Utf8.encode "/g"⟩)) = some "/g" := by
    rw [resolve, crowd.cwd]
    decide
  have absent : m.tree.get? "/g" = none := by
    rw [crowd.tree]
    decide
  have above : m.tree.above? "/g" = some (.directory 0o755) := by
    rw [crowd.tree]
    decide
  refine ⟨⟨by decide, "/g", resolves, .created absent (by decide) above⟩, ?_⟩
  rw [crowd.perform_openAt]
  exact (by decide : (-2147483648 : Int) < 0)

/-- In the crowd a name that can be opened is answered with a failure. -/
theorem openable_after_crowding :
    (initial.after crowding).Openable ⟨Utf8.encode "/g"⟩
        (OpenFlags.readWrite ||| OpenFlags.create) ∧
      (openAt "/g").Fails ((initial.after crowding).perform (openAt "/g")).1 :=
  crowd_crowding.openable

end Machine

end Hostcall
