import Hostcall.Proofs.Machine.KeyReuse
import Hostcall.Proofs.Machine.Turns

/-!
# What answers say about descriptors

An answer hands a number out, closes one, or says nothing about descriptors (`Handover`). A turn
takes the descriptor table through a step (`exists_step_turn`), which its answer decides as long as
the keys of the table fit an `int`, but for the position that a call may move (`step_turn`). What a
table keeps under the four kinds of steps it keeps over all turns, and so it stays sound
(`sound_after`).
-/

namespace Hostcall

/-- What an answer says about descriptors: a number is open from now on, or it is no longer. -/
inductive Handover where
  | opened (number : Int)
  | closed (number : Int)
  | neither
deriving DecidableEq, Repr

namespace Handover

/-- What the answer to a call says. -/
def ofReply : (request : Request) → request.Reply → Handover
  | .openFile .., n => if n < 0 then .neither else .opened n
  | .close fd, n => if n < 0 then .neither else .closed fd.number
  | _, _ => .neither

/-- Whether a number was opened. -/
def isOpening : Handover → Bool
  | .opened _ => true
  | _ => false

/-- Whether a number was closed. -/
def isClosing : Handover → Bool
  | .closed _ => true
  | _ => false

/-- Whether a number that was opened is told as it is. -/
def Fits : Handover → Prop
  | .opened number => number < CInt.bound
  | _ => True

theorem fits_opened {number : Int} : (opened number).Fits ↔ number < CInt.bound := Iff.rfl

/-- An answer that is a failure hands out nothing and takes nothing back. -/
theorem ofReply_of_fails {request : Request} {reply : request.Reply}
    (fails : request.Fails reply) : ofReply request reply = .neither := by
  cases request with
  | openFile => exact if_pos fails
  | close => exact if_pos fails
  | _ => rfl

/-- A number that fits is read back as the key it was cast from. -/
theorem ofReply_openFile {key : Nat} (fits : key < CInt.bound) (path : CString)
    (flags : OpenFlags) (mode : Mode) :
    ofReply (.openFile path flags mode) (CInt.ofNat key) = .opened key := by
  rw [ofReply, CInt.ofNat_eq fits, if_neg (Int.not_lt.2 (Int.natCast_nonneg key))]

end Handover

namespace SlotTable

/-- What a handover does to a table. Where an answer says nothing, an entry may be replaced. -/
inductive Step (t : SlotTable OpenFile) : Handover → SlotTable OpenFile → Prop where
  | opened (file : OpenFile) : Step t (.opened (t.insert file).1) (t.insert file).2
  | closed {number : Int} {file : OpenFile} (valid : 0 ≤ number)
      (entry : t.get? number.toNat = some file) : Step t (.closed number) (t.erase number.toNat)
  | moved (key : Nat) (file : OpenFile) : Step t .neither (t.update key file)
  | still : Step t .neither t

namespace Step

variable {t u : SlotTable OpenFile} {handover : Handover}

/-- What every operation keeps, a step keeps. -/
theorem keeps {P : SlotTable OpenFile → Prop} (step : Step t handover u)
    (inserted : ∀ file, P (t.insert file).2) (erased : ∀ key, P (t.erase key))
    (updated : ∀ key file, P (t.update key file)) (same : P t) : P u := by
  cases step with
  | opened file => exact inserted file
  | closed => exact erased _
  | moved key file => exact updated key file
  | still => exact same

theorem tidy (step : Step t handover u) (tidy : t.Tidy) : u.Tidy :=
  step.keeps tidy.insert tidy.erase tidy.update tidy

/-- A sound table stays sound. -/
theorem sound (step : Step t handover u) (sound : t.Sound) : u.Sound :=
  step.keeps sound.insert sound.erase sound.update sound

/-- What is open is counted up and down. -/
theorem count (step : Step t handover u) (sound : t.Sound) :
    u.count + handover.isClosing.toNat = t.count + handover.isOpening.toNat := by
  cases step with
  | opened file => exact sound.count_insert file
  | closed valid entry => exact count_erase entry
  | moved key file =>
    rw [count_update]
    rfl
  | still => rfl

/-- The slots grow only when more is open than ever before. -/
theorem length (step : Step t handover u) (sound : t.Sound) :
    u.slots.length = max t.slots.length u.count := by
  have filled := t.count_le_length
  cases step with
  | opened file => rw [sound.length_insert, sound.count_insert]
  | closed valid entry =>
    have fewer := count_erase entry
    rw [length_erase]
    omega
  | moved key file =>
    rw [length_update, count_update]
    omega
  | still => omega

/-- A table hands out keys of the slots that it has afterwards. -/
theorem fits (step : Step t handover u) (sound : t.Sound) (room : u.slots.length ≤ CInt.bound) :
    handover.Fits := by
  cases step with
  | opened file =>
    have inside := sound.key_lt_length file
    rw [Handover.fits_opened]
    omega
  | _ => trivial

/-- A number is opened by being handed out. -/
theorem absent (step : Step t handover u) (sound : t.Sound) {key : Nat}
    (empty : t.get? key = none) (other : handover ≠ .opened key) : u.get? key = none := by
  cases step with
  | opened file =>
    rw [sound.get?_insert, if_neg, empty]
    rintro rfl
    exact other rfl
  | closed => rw [get?_erase, empty, ite_self]
  | moved => rw [get?_update, empty, Option.map_none, ite_self]
  | still => exact empty

end Step

end SlotTable

namespace Machine

variable {m n : Machine} {request : Request}

/-- What the answer to a turn says about descriptors. -/
def handover (m : Machine) : Turn → Handover
  | .call request => .ofReply request (m.perform request).1
  | _ => .neither

/-- What a call does to the table is one such step, which the answer tells as long as the number
fits. -/
theorem Succeeded.exists_step {reply : request.Reply} (h : Succeeded m request reply n) :
    ∃ handover, m.files.Step handover n.files ∧
      (handover.Fits → .ofReply request reply = handover) := by
  cases h with
  | write wrote =>
    refine ⟨.neither, ?_, fun _ => rfl⟩
    cases wrote with
    | stalled => exact .still
    | stdout => exact .still
    | stderr => exact .still
    | file => exact .moved _ _
  | read read =>
    refine ⟨.neither, ?_, fun _ => rfl⟩
    cases read with
    | stdin => exact .still
    | file => exact .moved _ _
  | openFile =>
    refine ⟨_, .opened _, ?_⟩
    intro fits
    rw [Handover.fits_opened] at fits
    exact Handover.ofReply_openFile (Int.ofNat_lt.1 fits) _ _ _
  | close entry =>
    obtain ⟨valid, entry⟩ := entry?_eq_some.1 entry
    exact ⟨_, .closed valid entry, fun _ => rfl⟩
  | lseek => exact ⟨.neither, .moved _ _, fun _ => rfl⟩
  | unlink => exact ⟨.neither, .still, fun _ => rfl⟩
  | mkdir => exact ⟨.neither, .still, fun _ => rfl⟩
  | chdir => exact ⟨.neither, .still, fun _ => rfl⟩
  | getcwd => exact ⟨.neither, .still, fun _ => rfl⟩
  | errno => exact ⟨.neither, .still, fun _ => rfl⟩
  | strerror => exact ⟨.neither, .still, fun _ => rfl⟩
  | sleep =>
    rw [later_files]
    exact ⟨.neither, .still, fun _ => rfl⟩
  | usleep =>
    rw [later_files]
    exact ⟨.neither, .still, fun _ => rfl⟩

/-- A turn is a step of the table, and its answer tells which one if the number fits. -/
theorem exists_step_turn (m : Machine) (turn : Turn) :
    ∃ handover, m.files.Step handover (m.turn turn).files ∧
      (handover.Fits → m.handover turn = handover) := by
  cases turn with
  | call request =>
    rcases m.takesEffect_cases request with ⟨-, fails, -, e, failed⟩ | ⟨-, succeeded⟩
    · have same : (m.turn (.call request)).files = ((m.counted request).failed e).files :=
        congrArg Machine.files failed
      refine ⟨.neither, ?_, fun _ => Handover.ofReply_of_fails fails⟩
      rw [same]
      exact .still
    · exact succeeded.exists_step
  | stop => exact ⟨.neither, .still, fun _ => rfl⟩
  | resetCalls => exact ⟨.neither, .still, fun _ => rfl⟩
  | takeStdout => exact ⟨.neither, .still, fun _ => rfl⟩
  | takeStderr => exact ⟨.neither, .still, fun _ => rfl⟩

/-- A turn is the step of the table that its answer tells, where all keys fit. -/
theorem step_turn (sound : m.files.Sound) {turn : Turn}
    (room : (m.turn turn).files.slots.length ≤ CInt.bound) :
    m.files.Step (m.handover turn) (m.turn turn).files := by
  obtain ⟨handover, step, told⟩ := m.exists_step_turn turn
  rw [told (step.fits sound room)]
  exact step

/-- The table stays sound in a turn. -/
theorem sound_turn (sound : m.files.Sound) (turn : Turn) : (m.turn turn).files.Sound := by
  obtain ⟨handover, step, -⟩ := m.exists_step_turn turn
  exact step.sound sound

/-- So they do in a run. -/
theorem sound_after (sound : m.files.Sound) (turns : List Turn) : (m.after turns).files.Sound :=
  after_of_turn (P := fun n => n.files.Sound) (fun _ turn sound => sound_turn sound turn) sound turns

end Machine

end Hostcall
