import Hostcall.Proofs.Machine.Entries
import Hostcall.Proofs.Machine.Reach

/-!
# Accesses that have nothing to do with each other

Two descriptors are apart if they are different and lead to different places (`Apart`). An access
through one of them leaves what the other leads to as it was (`reach_accessed`), so the two accesses
come to the same in either order (`accessed_comm`). Two sequences of accesses through descriptors
that are apart can therefore be woven into each other in any way: each access is answered as if the
other sequence were not there, and the machine is the same in the end, but for the error register
(`interleavings_agree`).
-/

namespace Hostcall

namespace SlotTable

variable {α : Type} {t : SlotTable α} {key other : Nat}

theorem update_of_none (h : t.get? key = none) (a : α) : t.update key a = t := by
  simp [update, h]

theorem update_comm (t : SlotTable α) (a b : α) (different : key ≠ other) :
    (t.update key a).update other b = (t.update other b).update key a := by
  cases hkey : t.get? key with
  | none =>
    have free : (t.update other b).get? key = none := by
      rw [get?_update, if_neg different.symm, hkey]
    rw [update_of_none hkey, update_of_none free]
  | some old =>
    have taken : (t.update other b).get? key = some old := by
      rw [get?_update, if_neg different.symm, hkey]
    cases hother : t.get? other with
    | none =>
      have free : (t.update key a).get? other = none := by
        rw [get?_update, if_neg different, hother]
      rw [update_of_none hother, update_of_none free]
    | some found =>
      have kept : (t.update key a).get? other = some found := by
        rw [get?_update, if_neg different, hother]
      rw [update, kept, update, hkey, update, taken, update, hother]
      simp [List.set_comm _ _ different]

end SlotTable

namespace Tree

theorem put_comm (t : Tree) {path other : String} (first second : Node)
    (different : path ≠ other) :
    (t.put path first).put other second = (t.put other second).put path first := by
  apply ext_get?
  intro q
  simp only [get?_put]
  split
  · rename_i here
    subst here
    rw [if_neg different]
  · rfl

/-- What is put back at two paths can be put back in either order. -/
theorem restore_comm (t : Tree) {path other : String} (first second : Option Node)
    (different : path ≠ other) :
    (t.restore path first).restore other second =
      (t.restore other second).restore path first := by
  cases first with
  | none => rfl
  | some node =>
    cases second with
    | none => rfl
    | some later => exact t.put_comm node later different

theorem get?_restore (t : Tree) {path other : String} (node : Option Node)
    (different : path ≠ other) : (t.restore path node).get? other = t.get? other := by
  cases node with
  | none => rfl
  | some node => rw [restore, get?_put, if_neg different]

end Tree

/-- What belongs to the first of two sequences that are woven into each other. -/
def lefts {α β : Type} (woven : List (α ⊕ β)) : List α := woven.filterMap Sum.getLeft?

/-- What belongs to the second of two sequences that are woven into each other. -/
def rights {α β : Type} (woven : List (α ⊕ β)) : List β := woven.filterMap Sum.getRight?

theorem lefts_swap {α β : Type} (woven : List (α ⊕ β)) :
    lefts (woven.map Sum.swap) = rights woven := by
  rw [lefts, rights, List.filterMap_map]
  congr 1
  funext x
  cases x <;> rfl

theorem rights_swap {α β : Type} (woven : List (α ⊕ β)) :
    rights (woven.map Sum.swap) = lefts woven := by
  rw [lefts, rights, List.filterMap_map]
  congr 1
  funext x
  cases x <;> rfl

/-- The path of an entry that stands for a file. -/
def OpenFile.path? : OpenFile → Option String
  | .file path _ _ => some path
  | _ => none

/-- An access as something that is done with a machine. -/
def Access.turn (a : Access) : Turn := .call a.request

instance : (a : Access) → DecidableEq a.request.Reply
  | .write .. => inferInstanceAs (DecidableEq Int)
  | .read .. => inferInstanceAs (DecidableEq (Int × Bytes))
  | .lseek .. => inferInstanceAs (DecidableEq Int)

/-- An access with its answer. -/
abbrev Answered := (a : Access) × a.request.Reply

namespace Machine

/-- The machine after some accesses. -/
def along (m : Machine) (accesses : List Access) : Machine := m.after (accesses.map Access.turn)

/-- The machine after two sequences of accesses that are woven into each other. -/
def alongWoven (m : Machine) (woven : List (Access ⊕ Access)) : Machine :=
  m.along (woven.map (Sum.elim id id))

/-- An access with the answer that the machine gives. -/
def answered (m : Machine) (a : Access) : Answered := ⟨a, (m.perform a.request).1⟩

/-- Accesses with their answers, one after the other. -/
def answers (m : Machine) : List Access → List Answered
  | [] => []
  | a :: accesses => m.answered a :: (m.turn a.turn).answers accesses

/-- Two sequences of accesses that are woven into each other, with their answers. -/
def wovenAnswers (m : Machine) : List (Access ⊕ Access) → List (Answered ⊕ Answered)
  | [] => []
  | .inl a :: woven => .inl (m.answered a) :: (m.turn a.turn).wovenAnswers woven
  | .inr b :: woven => .inr (m.answered b) :: (m.turn b.turn).wovenAnswers woven

variable {m n : Machine} {fd other : Fd} {a b : Access} {reach : Reach}

/-- Two descriptors that lead to different places, where they lead anywhere. -/
structure Apart (m : Machine) (fd other : Fd) : Prop where
  different : fd ≠ other
  site : ∀ site, (m.reach fd).site? = some site → (m.reach other).site? ≠ some site

/-- To be apart goes both ways. -/
theorem Apart.symm (apart : m.Apart fd other) : m.Apart other fd where
  different := apart.different.symm
  site := fun site h h' => apart.site site h' h

/-! ## One access -/

/-- A reach over a site belongs to an open descriptor. -/
theorem exists_entry?_of_site? (same : reach.site? = (m.reach fd).site?) {site : Site}
    (h : reach.site? = some site) : ∃ file, m.entry? fd = some file ∧ file.site = site := by
  rw [same, site?_reach] at h
  exact Option.map_eq_some_iff.1 h

/-- Leaving one descriptor as it is leaves the others. -/
theorem entry?_leave_of_ne (same : reach.site? = (m.reach fd).site?) (different : other ≠ fd) :
    entry? (m.leave fd reach) other = m.entry? other := by
  cases reach with
  | nowhere => rfl
  | stdin position => rfl
  | stdout written => rfl
  | stderr written => rfl
  | file path position flags node =>
    obtain ⟨file, entry, -⟩ := exists_entry?_of_site? same rfl
    exact entry?_movedTo_of_ne (m := { m with tree := m.tree.restore path node }) entry different

/-- What is put back where it was found leads to the same place. -/
theorem site?_reach_leave (same : reach.site? = (m.reach fd).site?) (other : Fd) :
    ((m.leave fd reach).reach other).site? = (m.reach other).site? := by
  by_cases here : other = fd
  · subst here
    rw [site?_reach, ← same]
    cases reach with
    | nowhere => exact (site?_reach m other).symm.trans same.symm
    | stdin position => exact (site?_reach m other).symm.trans same.symm
    | stdout written => exact (site?_reach m other).symm.trans same.symm
    | stderr written => exact (site?_reach m other).symm.trans same.symm
    | file path position flags node =>
      obtain ⟨file, entry, -⟩ := exists_entry?_of_site? same rfl
      rw [leave, entry?_movedTo (m := { m with tree := m.tree.restore path node }) entry]
      rfl
  · rw [site?_reach, site?_reach, entry?_leave_of_ne same here]

/-- What one descriptor leads to is not seen from a descriptor apart from it. -/
theorem reach_leave (apart : m.Apart fd other) (same : reach.site? = (m.reach fd).site?) :
    (m.leave fd reach).reach other = m.reach other := by
  have unmoved := entry?_leave_of_ne same apart.different.symm
  cases entry : m.entry? other with
  | none => rw [Machine.reach, unmoved, Machine.reach, entry]
  | some file =>
    have elsewhere : reach.site? ≠ some file.site := by
      intro h
      apply apart.site file.site (same ▸ h)
      rw [site?_reach, entry]
      rfl
    rw [Machine.reach, unmoved, Machine.reach, entry]
    cases reach with
    | nowhere => rfl
    | stdin position =>
      cases file with
      | stdin => exact absurd rfl elsewhere
      | _ => rfl
    | stdout written =>
      cases file with
      | stdout => exact absurd rfl elsewhere
      | _ => rfl
    | stderr written =>
      cases file with
      | stderr => exact absurd rfl elsewhere
      | _ => rfl
    | file path position flags node =>
      cases file with
      | file place reached opened =>
        have different : path ≠ place := by
          rintro rfl
          exact elsewhere rfl
        rw [leave, movedTo_tree]
        simp only [Tree.get?_restore m.tree node different]
      | _ => rfl

/-- Two descriptors apart can be left in either order. -/
theorem leave_comm (apart : m.Apart fd other) {after : Reach}
    (same : reach.site? = (m.reach fd).site?) (same' : after.site? = (m.reach other).site?) :
    (m.leave fd reach).leave other after = (m.leave other after).leave fd reach := by
  have elsewhere : ∀ site, reach.site? = some site → after.site? ≠ some site := by
    rw [same, same']
    exact apart.site
  cases reach with
  | nowhere => rfl
  | stdin position =>
    cases after with
    | stdin => exact absurd rfl (elsewhere _ rfl)
    | _ => rfl
  | stdout written =>
    cases after with
    | stdout => exact absurd rfl (elsewhere _ rfl)
    | _ => rfl
  | stderr written =>
    cases after with
    | stderr => exact absurd rfl (elsewhere _ rfl)
    | _ => rfl
  | file path position flags node =>
    cases after with
    | file place reached opened found =>
      obtain ⟨_, entry, -⟩ := exists_entry?_of_site? same rfl
      obtain ⟨_, entry', -⟩ := exists_entry?_of_site? same' rfl
      have keys := toNat_ne (entry?_eq_some.1 entry).1 apart.different.symm
        (entry?_eq_some.1 entry').1
      have different : path ≠ place := by
        rintro rfl
        exact elsewhere _ rfl rfl
      simp only [leave, movedTo, SlotTable.update_comm _ _ _ keys,
        Tree.restore_comm m.tree node found different]
    | _ => rfl

/-! ## Two accesses -/

theorem counted_leave (m : Machine) (fd : Fd) (reach : Reach) (request : Request) :
    (m.leave fd reach).counted request = (m.counted request).leave fd reach := by
  cases reach <;> rfl

theorem counted_comm (m : Machine) (a b : Access) :
    (m.counted a.request).counted b.request = (m.counted b.request).counted a.request := by
  cases a <;> cases b <;> rfl

theorem settings_leave (m : Machine) (fd : Fd) (reach : Reach) :
    (m.leave fd reach).settings = m.settings := by
  cases reach <;> rfl

theorem Apart.counted (apart : m.Apart fd other) (request : Request) :
    (m.counted request).Apart fd other :=
  ⟨apart.different, apart.site⟩

/-- An access leaves what a descriptor apart from its own leads to. -/
theorem reach_accessed (apart : m.Apart a.fd fd) : (m.accessed a).reach fd = m.reach fd :=
  reach_leave (apart.counted a.request) (Reach.site?_answer _ _ _)

/-- An access leaves apart what is apart. -/
theorem Apart.accessed (apart : m.Apart fd other) (a : Access) :
    (m.accessed a).Apart fd other := by
  have kept (fd : Fd) : ((m.accessed a).reach fd).site? = (m.reach fd).site? :=
    site?_reach_leave (m := m.counted a.request) (Reach.site?_answer _ _ _) fd
  refine ⟨apart.different, ?_⟩
  rw [kept, kept]
  exact apart.site

/-- Accesses through descriptors that are apart come to the same in either order. -/
theorem accessed_comm (apart : m.Apart a.fd b.fd) :
    (m.accessed a).accessed b = (m.accessed b).accessed a := by
  have first : (m.accessed a).accessed b =
      (((m.counted a.request).counted b.request).leave a.fd
        ((m.reach a.fd).answer m.settings a).2).leave b.fd
        ((m.reach b.fd).answer m.settings b).2 := by
    rw [accessed, reach_accessed apart, accessed, settings_leave, counted_leave]
    rfl
  have second : (m.accessed b).accessed a =
      (((m.counted b.request).counted a.request).leave b.fd
        ((m.reach b.fd).answer m.settings b).2).leave a.fd
        ((m.reach a.fd).answer m.settings a).2 := by
    rw [accessed, reach_accessed apart.symm, accessed, settings_leave, counted_leave]
    rfl
  rw [first, second, counted_comm m b a]
  exact leave_comm ((apart.counted a.request).counted b.request) (Reach.site?_answer _ _ _)
    (Reach.site?_answer _ _ _)

/-! ## Sequences of accesses -/

/-- But for the register, a turn does what its access does. -/
theorem quiet_turn (m : Machine) (a : Access) : (m.turn a.turn).quiet = m.quiet.accessed a :=
  (m.perform_access a).2

/-- So the register decides nothing of what comes next. -/
theorem quiet_turn_congr (same : m.quiet = n.quiet) (a : Access) :
    (m.turn a.turn).quiet = (n.turn a.turn).quiet := by
  rw [quiet_turn, quiet_turn, same]

/-- What an access is answered does not depend on the error register. -/
theorem answered_congr (same : m.quiet = n.quiet) (a : Access) : m.answered a = n.answered a := by
  have reached : m.reach a.fd = n.reach a.fd :=
    show m.quiet.reach a.fd = n.quiet.reach a.fd by rw [same]
  have settings : m.settings = n.settings :=
    show m.quiet.settings = n.quiet.settings by rw [same]
  rw [answered, answered, (m.perform_access a).1, (n.perform_access a).1, reached, settings]

/-- Nor does it decide an answer. -/
theorem answers_congr (same : m.quiet = n.quiet) (accesses : List Access) :
    m.answers accesses = n.answers accesses := by
  induction accesses generalizing m n with
  | nil => rfl
  | cons a accesses ih =>
    rw [answers, answers, answered_congr same, ih (quiet_turn_congr same a)]

theorem quiet_along_congr (same : m.quiet = n.quiet) (accesses : List Access) :
    (m.along accesses).quiet = (n.along accesses).quiet := by
  induction accesses generalizing m n with
  | nil => exact same
  | cons a accesses ih => exact ih (quiet_turn_congr same a)

theorem along_append (m : Machine) (before later : List Access) :
    m.along (before ++ later) = (m.along before).along later := by
  simp [along, after]

theorem Apart.quiet (apart : m.Apart fd other) : m.quiet.Apart fd other :=
  ⟨apart.different, apart.site⟩

theorem Apart.turn (apart : m.Apart fd other) (a : Access) : (m.turn a.turn).Apart fd other := by
  have moved := apart.quiet.accessed a
  rw [← quiet_turn] at moved
  exact ⟨moved.different, moved.site⟩

/-- Two accesses apart commute, but for the register. -/
theorem turn_comm (apart : m.Apart b.fd a.fd) :
    ((m.turn b.turn).turn a.turn).quiet = ((m.turn a.turn).turn b.turn).quiet := by
  simp only [quiet_turn]
  exact accessed_comm apart.quiet

/-- An access is answered alike before and after one through a descriptor apart from its own. -/
theorem answered_turn (apart : m.Apart b.fd a.fd) :
    (m.turn b.turn).answered a = m.answered a := by
  have reached : (m.turn b.turn).reach a.fd = m.reach a.fd :=
    calc (m.turn b.turn).reach a.fd
        = (m.turn b.turn).quiet.reach a.fd := rfl
      _ = (m.quiet.accessed b).reach a.fd := by rw [quiet_turn]
      _ = m.quiet.reach a.fd := reach_accessed apart.quiet
  have settings : (m.turn b.turn).settings = m.settings :=
    calc (m.turn b.turn).settings
        = (m.turn b.turn).quiet.settings := rfl
      _ = (m.quiet.accessed b).settings := by rw [quiet_turn]
      _ = m.settings := settings_leave _ _ _
  rw [answered, answered, ((m.turn b.turn).perform_access a).1, (m.perform_access a).1, reached,
    settings]

/-- An access apart from others does not change what they are answered. -/
theorem answers_turn {accesses : List Access} (apart : ∀ a ∈ accesses, m.Apart b.fd a.fd) :
    (m.turn b.turn).answers accesses = m.answers accesses := by
  -- By induction on the accesses: the turn is moved past one after the other, and it leaves nothing
  -- behind but the register.
  induction accesses generalizing m with
  | nil => rfl
  | cons a accesses ih =>
    obtain ⟨here, rest⟩ := List.forall_mem_cons.1 apart
    rw [answers, answers, answered_turn here, answers_congr (turn_comm here),
      ih fun c hc => (rest c hc).turn a]

/-- It can be put off until they are done. -/
theorem along_turn {accesses : List Access} (apart : ∀ a ∈ accesses, m.Apart b.fd a.fd) :
    ((m.turn b.turn).along accesses).quiet = ((m.along accesses).turn b.turn).quiet := by
  induction accesses generalizing m with
  | nil => rfl
  | cons a accesses ih =>
    obtain ⟨here, rest⟩ := List.forall_mem_cons.1 apart
    calc ((m.turn b.turn).along (a :: accesses)).quiet
        = (((m.turn a.turn).turn b.turn).along accesses).quiet :=
          quiet_along_congr (turn_comm here) accesses
      _ = ((m.along (a :: accesses)).turn b.turn).quiet := ih fun c hc => (rest c hc).turn a

/-! ## Woven sequences -/

/-- All descriptors of the second sequence are apart from all of the first. -/
def AllApart (m : Machine) (woven : List (Access ⊕ Access)) : Prop :=
  ∀ a ∈ lefts woven, ∀ b ∈ rights woven, m.Apart b.fd a.fd

/-- Each side of a weaving is answered as it would be alone. -/
theorem lefts_wovenAnswers {woven : List (Access ⊕ Access)} (apart : m.AllApart woven) :
    lefts (m.wovenAnswers woven) = m.answers (lefts woven) := by
  induction woven generalizing m with
  | nil => rfl
  | cons x woven ih =>
    cases x with
    | inl a =>
      have rest : (m.turn a.turn).AllApart woven :=
        fun c hc d hd => (apart c (List.mem_cons_of_mem _ hc) d hd).turn a
      exact congrArg (m.answered a :: ·) (ih rest)
    | inr b =>
      -- An access of the other side changes none of the answers that follow.
      have rest : (m.turn b.turn).AllApart woven :=
        fun c hc d hd => (apart c hc d (List.mem_cons_of_mem _ hd)).turn b
      exact (ih rest).trans (answers_turn fun a ha => apart a ha b List.mem_cons_self)

/-- The machine ends as if one side had come after the other. -/
theorem quiet_alongWoven {woven : List (Access ⊕ Access)} (apart : m.AllApart woven) :
    (m.alongWoven woven).quiet = (m.along (lefts woven ++ rights woven)).quiet := by
  induction woven generalizing m with
  | nil => rfl
  | cons x woven ih =>
    cases x with
    | inl a =>
      have rest : (m.turn a.turn).AllApart woven :=
        fun c hc d hd => (apart c (List.mem_cons_of_mem _ hc) d hd).turn a
      exact ih rest
    | inr b =>
      -- An access of the other side is put off until this side is through.
      have rest : (m.turn b.turn).AllApart woven :=
        fun c hc d hd => (apart c hc d (List.mem_cons_of_mem _ hd)).turn b
      have here : ∀ a ∈ lefts woven, m.Apart b.fd a.fd :=
        fun a ha => apart a ha b List.mem_cons_self
      calc (m.alongWoven (.inr b :: woven)).quiet
          = ((m.turn b.turn).along (lefts woven ++ rights woven)).quiet := ih rest
        _ = (((m.turn b.turn).along (lefts woven)).along (rights woven)).quiet := by
            rw [along_append]
        _ = (((m.along (lefts woven)).turn b.turn).along (rights woven)).quiet :=
            quiet_along_congr (along_turn here) _
        _ = (m.along (lefts woven ++ b :: rights woven)).quiet := by
            rw [along_append]
            rfl

/-- The sides of a weaving can change places. -/
theorem wovenAnswers_swap (m : Machine) (woven : List (Access ⊕ Access)) :
    m.wovenAnswers (woven.map Sum.swap) = (m.wovenAnswers woven).map Sum.swap := by
  induction woven generalizing m with
  | nil => rfl
  | cons x woven ih => cases x <;> exact congrArg (_ :: ·) (ih _)

/-- They stay apart when they do. -/
theorem AllApart.swap {woven : List (Access ⊕ Access)} (apart : m.AllApart woven) :
    m.AllApart (woven.map Sum.swap) := by
  unfold AllApart
  rw [lefts_swap, rights_swap]
  exact fun b hb a ha => (apart a ha b hb).symm

/-- So what holds of the left side holds of the right. -/
theorem rights_wovenAnswers {woven : List (Access ⊕ Access)} (apart : m.AllApart woven) :
    rights (m.wovenAnswers woven) = m.answers (rights woven) := by
  have swapped := lefts_wovenAnswers apart.swap
  rwa [wovenAnswers_swap, lefts_swap, lefts_swap] at swapped

/-- The path of the file that a descriptor leads to. -/
def path? (m : Machine) (fd : Fd) : Option String := (m.entry? fd).bind OpenFile.path?

/-- Two descriptors that are different and do not lead to one file. -/
structure Unrelated (m : Machine) (fd other : Fd) : Prop where
  different : fd ≠ other
  paths : ∀ path, m.path? fd = some path → m.path? other ≠ some path

/-- A stream is open under one number only, so different descriptors do not share it. -/
theorem Unrelated.apart (unrelated : m.Unrelated fd other) (inPlace : m.InPlace) :
    m.Apart fd other := by
  refine ⟨unrelated.different, ?_⟩
  intro site hsite hother
  rw [site?_reach] at hsite hother
  obtain ⟨file, entry, rfl⟩ := Option.map_eq_some_iff.1 hsite
  obtain ⟨again, entry', same⟩ := Option.map_eq_some_iff.1 hother
  have place := inPlace fd file entry
  have place' := inPlace other again entry'
  cases file with
  | stdin =>
    cases again with
    | stdin => exact unrelated.different (place.trans place'.symm)
    | _ => contradiction
  | stdout =>
    cases again with
    | stdout => exact unrelated.different (place.trans place'.symm)
    | _ => contradiction
  | stderr =>
    cases again with
    | stderr => exact unrelated.different (place.trans place'.symm)
    | _ => contradiction
  | file path position flags =>
    cases again with
    | file path' position' flags' =>
      obtain rfl := Site.file.inj same
      exact unrelated.paths path' (by rw [path?, entry]; rfl) (by rw [path?, entry']; rfl)
    | _ => contradiction

/-- **Unrelated descriptors are isolated.** Two sequences of accesses through unrelated descriptors
may be woven into each other in any way: each is answered as if it ran alone, and apart from the
error register the machine is in the end as if one had run after the other. -/
theorem interleavings_agree {steps : List SetupStep} {warnings : List LogEntry}
    (built : build steps = .ok (m, warnings)) (turns : List Turn) {first second : List Access}
    (unrelated : ∀ a ∈ first, ∀ b ∈ second, (m.after turns).Unrelated a.fd b.fd)
    {woven : List (Access ⊕ Access)} (firsts : lefts woven = first)
    (seconds : rights woven = second) :
    lefts ((m.after turns).wovenAnswers woven) = (m.after turns).answers first ∧
      rights ((m.after turns).wovenAnswers woven) = (m.after turns).answers second ∧
      ((m.after turns).alongWoven woven).quiet =
        ((m.after turns).along (first ++ second)).quiet := by
  subst firsts seconds
  have inPlace : (m.after turns).InPlace := (inPlace_of_build built).after turns
  have apart : (m.after turns).AllApart woven :=
    fun a ha b hb => ((unrelated a ha b hb).apart inPlace).symm
  exact ⟨lefts_wovenAnswers apart, rights_wovenAnswers apart, quiet_alongWoven apart⟩

/-- One sequence writes to a file and reads it back; the other appends to a second file, writes to
the output and fails on a descriptor that is not open. -/
theorem interleavings_agree_two_files :
    let flags := OpenFlags.readWrite ||| OpenFlags.create
    let m := initial.after [.call (.openFile ⟨Utf8.encode "/a"⟩ flags 0o644),
      .call (.openFile ⟨Utf8.encode "/b"⟩ (flags ||| OpenFlags.append) 0o644)]
    let first : List Access := [.write ⟨3⟩ [1, 2], .lseek ⟨3⟩ 0 0, .read ⟨3⟩ [0, 0, 0]]
    let second : List Access := [.write ⟨4⟩ [7], .write ⟨1⟩ [8], .read ⟨9⟩ [0]]
    let woven : List (Access ⊕ Access) := [.inr (.write ⟨4⟩ [7]), .inl (.write ⟨3⟩ [1, 2]),
      .inl (.lseek ⟨3⟩ 0 0), .inr (.write ⟨1⟩ [8]), .inr (.read ⟨9⟩ [0]),
      .inl (.read ⟨3⟩ [0, 0, 0])]
    (∀ a ∈ first, ∀ b ∈ second, m.Unrelated a.fd b.fd) ∧
      lefts (m.wovenAnswers woven) =
        [⟨.write ⟨3⟩ [1, 2], (2 : Int)⟩, ⟨.lseek ⟨3⟩ 0 0, (0 : Int)⟩,
          ⟨.read ⟨3⟩ [0, 0, 0], ((2 : Int), [1, 2, 0])⟩] ∧
      rights (m.wovenAnswers woven) =
        [⟨.write ⟨4⟩ [7], (1 : Int)⟩, ⟨.write ⟨1⟩ [8], (1 : Int)⟩,
          ⟨.read ⟨9⟩ [0], ((-1 : Int), [0])⟩] ∧
      (m.alongWoven woven).quiet = (m.along (first ++ second)).quiet := by
  intro flags m first second woven
  have third : ∀ a ∈ first, a.fd = ⟨3⟩ := by decide
  have path : m.path? ⟨3⟩ = some "/a" := by decide
  have others : ∀ b ∈ second, b.fd ≠ ⟨3⟩ ∧ m.path? b.fd ≠ some "/a" := by decide
  have unrelated : ∀ a ∈ first, ∀ b ∈ second, m.Unrelated a.fd b.fd := by
    intro a ha b hb
    rw [third a ha]
    refine ⟨(others b hb).1.symm, ?_⟩
    rintro place h
    obtain rfl : "/a" = place := Option.some.inj (path.symm.trans h)
    exact (others b hb).2
  have firsts : lefts woven = first := rfl
  have seconds : rights woven = second := rfl
  obtain ⟨left, right, same⟩ := interleavings_agree build_nil _ unrelated firsts seconds
  exact ⟨unrelated, left.trans (by decide), right.trans (by decide), same⟩

end Machine

end Hostcall
