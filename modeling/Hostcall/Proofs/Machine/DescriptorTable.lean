import Hostcall.Proofs.Machine.Access
import Hostcall.Proofs.Machine.Bounds
import Hostcall.Proofs.Machine.Crowd
import Mathlib.Data.Finset.Card

/-!
# The numbers that are open

Which numbers are open is told by the answers alone: an open that succeeds hands one out, and a
close takes one back. As long as all numbers fit an `int`, the table of a machine that was set up and
used in any way has entries for these numbers and no others (`lists_after`). It has as many slots as
descriptors were open at one time (`length_after`), so the numbers fit where there are no more
descriptors at one time than an `int` can number. From this it follows which numbers an open can
hand out, for which numbers a close succeeds, and that a call through any other number fails for a
bad descriptor (`numbers_follow_answers`).
-/

namespace Hostcall

/-- The open numbers, given those before. -/
def Handover.among (numbers : Finset Int) : Handover → Finset Int
  | .opened n => insert n numbers
  | .closed n => numbers.erase n
  | .neither => numbers

namespace SlotTable

/-- The keys of a table's entries are the given numbers. -/
structure Lists (t : SlotTable OpenFile) (numbers : Finset Int) : Prop where
  mem_iff : ∀ number, number ∈ numbers ↔ 0 ≤ number ∧ (t.get? number.toNat).isSome = true
  card : numbers.card = t.count

variable {t u : SlotTable OpenFile} {handover : Handover} {numbers : Finset Int}

/-- The key of a new entry is not among the numbers in use. -/
theorem Lists.key_notMem (lists : t.Lists numbers) (sound : t.Sound) (file : OpenFile) :
    ((t.insert file).1 : Int) ∉ numbers := by
  intro old
  have taken := ((lists.mem_iff _).1 old).2
  rw [Int.toNat_natCast, sound.get?_key file] at taken
  contradiction

/-- The numbers in use follow what is handed out and taken back. -/
theorem Step.lists (step : Step t handover u) (sound : t.Sound) (lists : Lists t numbers) :
    Lists u (handover.among numbers) := by
  cases step with
  | opened file =>
    have new := lists.key_notMem sound file
    constructor
    · intro number
      rw [Handover.among, Finset.mem_insert, lists.mem_iff, sound.get?_insert]
      split
      · rename_i same
        constructor
        · rintro (rfl | ⟨valid, -⟩)
          · exact ⟨Int.natCast_nonneg _, rfl⟩
          · exact ⟨valid, rfl⟩
        · rintro ⟨valid, -⟩
          exact .inl (by omega)
      · rename_i different
        exact or_iff_right (by omega)
    · rw [Handover.among, Finset.card_insert_of_notMem new, lists.card, sound.count_insert]
  | @closed key file valid entry =>
    have old : key ∈ numbers := (lists.mem_iff key).2 ⟨valid, entry ▸ rfl⟩
    constructor
    · intro number
      rw [Handover.among, Finset.mem_erase, lists.mem_iff, get?_erase]
      split
      · rename_i same
        constructor
        · rintro ⟨different, valid', -⟩
          exact absurd (by omega) different
        · rintro ⟨-, impossible⟩
          contradiction
      · rename_i different
        exact and_iff_right (by rintro rfl; exact different rfl)
    · have fewer := count_erase entry
      rw [Handover.among, Finset.card_erase_of_mem old, lists.card]
      omega
  | moved key file =>
    constructor
    · intro number
      rw [Handover.among, lists.mem_iff, get?_update]
      split
      · rw [Option.isSome_map]
      · rfl
    · rw [Handover.among, lists.card, count_update]
  | still => exact lists

end SlotTable

namespace Machine

variable {m n : Machine} {fd : Fd} {numbers : Finset Int} {request : Request}

/-- Whether a turn opens a number. -/
def opens (m : Machine) (turn : Turn) : Bool := (m.handover turn).isOpening

/-- Whether a turn closes a number. -/
def closes (m : Machine) (turn : Turn) : Bool := (m.handover turn).isClosing

/-- Whether a turn opens a given number. -/
def handsOut (fd : Fd) (m : Machine) (turn : Turn) : Bool :=
  decide (m.handover turn = .opened fd.number)

/-- The numbers that are open after some turns by the answers to them, given those before. -/
def openNumbers (numbers : Finset Int) (m : Machine) : List Turn → Finset Int
  | [] => numbers
  | turn :: turns => openNumbers ((m.handover turn).among numbers) (m.turn turn) turns

/-- The largest number of descriptors that are open at one time. -/
def peak (m : Machine) : List Turn → Nat
  | [] => m.openCount
  | turn :: turns => max m.openCount ((m.turn turn).peak turns)

/-- The most that is open at once is no less than what is open at first. -/
theorem openCount_le_peak (m : Machine) (turns : List Turn) : m.openCount ≤ m.peak turns := by
  cases turns with
  | nil => exact Nat.le_refl _
  | cons turn turns => exact Nat.le_max_left _ _

/-- The table has as many slots as were ever taken at one time, or as it had at first. -/
theorem length_after (sound : m.files.Sound) (turns : List Turn) :
    (m.after turns).files.slots.length = max m.files.slots.length (m.peak turns) := by
  have filled : m.openCount ≤ m.files.slots.length := m.files.count_le_length
  -- By induction on the turns. The table is sound before each, so it grows only past what it held.
  induction turns generalizing m with
  | nil => exact (Nat.max_eq_left filled).symm
  | cons turn turns ih =>
    obtain ⟨handover, step, -⟩ := m.exists_step_turn turn
    have grown : (m.turn turn).files.slots.length =
        max m.files.slots.length (m.turn turn).openCount := step.length sound
    have rest := ih (step.sound sound) (SlotTable.count_le_length _)
    have reached := (m.turn turn).openCount_le_peak turns
    rw [after_cons, peak]
    omega

/-- Where all numbers fit that are handed out in some turns, they do in the first turn and in those
after it. -/
theorem room_cons (sound : m.files.Sound) {turn : Turn} {turns : List Turn}
    (slots : m.files.slots.length ≤ CInt.bound) (room : m.peak (turn :: turns) ≤ CInt.bound) :
    (m.turn turn).files.slots.length ≤ CInt.bound ∧ (m.turn turn).peak turns ≤ CInt.bound := by
  obtain ⟨handover, step, -⟩ := m.exists_step_turn turn
  have grown : (m.turn turn).files.slots.length =
      max m.files.slots.length (m.turn turn).openCount := step.length sound
  have reached := (m.turn turn).openCount_le_peak turns
  rw [peak] at room
  omega

/-- While there is room, the numbers in use are those a run was told of. -/
theorem lists_after (sound : m.files.Sound) (lists : m.files.Lists numbers) {turns : List Turn}
    (slots : m.files.slots.length ≤ CInt.bound) (room : m.peak turns ≤ CInt.bound) :
    (m.after turns).files.Lists (m.openNumbers numbers turns) := by
  induction turns generalizing m numbers with
  | nil => exact lists
  | cons turn turns ih =>
    obtain ⟨slots, room⟩ := room_cons sound slots room
    have step := step_turn sound slots
    exact ih (step.sound sound) (step.lists sound lists) slots room

/-- While there is room, opens and closes balance. -/
theorem openCount_after (sound : m.files.Sound) {turns : List Turn}
    (slots : m.files.slots.length ≤ CInt.bound) (room : m.peak turns ≤ CInt.bound) :
    (m.after turns).openCount + m.tally closes turns = m.openCount + m.tally opens turns := by
  induction turns generalizing m with
  | nil => rfl
  | cons turn turns ih =>
    obtain ⟨slots, room⟩ := room_cons sound slots room
    have step := step_turn sound slots
    have counted : (m.turn turn).openCount + (m.closes turn).toNat =
        m.openCount + (m.opens turn).toNat := step.count sound
    have rest := ih (step.sound sound) slots room
    rw [after_cons, tally, tally]
    omega

/-- A number that an `int` can be is open only after it was handed out. -/
theorem absent_turn (sound : m.files.Sound) (int : fd.number < CInt.bound)
    (absent : m.entry? fd = none) {turn : Turn} (kept : handsOut fd m turn = false) :
    entry? (m.turn turn) fd = none := by
  unfold entry? at absent ⊢
  split
  · rfl
  · rename_i valid
    rw [if_neg valid] at absent
    obtain ⟨handover, step, told⟩ := m.exists_step_turn turn
    refine step.absent sound absent ?_
    rw [Int.toNat_of_nonneg (Int.not_lt.1 valid)]
    rintro rfl
    exact of_decide_eq_false kept (told int)

/-- A number that is not handed out again stays closed. -/
theorem absent_after (sound : m.files.Sound) (int : fd.number < CInt.bound)
    (absent : m.entry? fd = none) {turns : List Turn} (kept : m.tally (handsOut fd) turns = 0) :
    entry? (m.after turns) fd = none := by
  induction turns generalizing m with
  | nil => exact absent
  | cons turn turns ih =>
    obtain ⟨here, later⟩ := tally_cons_eq_zero.1 kept
    exact ih (sound_turn sound turn) (absent_turn sound int absent here) later

/-- A closed number fails every call that goes through it. -/
theorem failsFor_of_absent (absent : m.entry? fd = none) (through : request.fd? = some fd) :
    m.FailsFor request .badDescriptor := by
  cases request with
  | write other data =>
    obtain rfl : other = fd := Option.some.inj through
    rw [failsFor_write_badDescriptor_iff]
    simp [isWritable, stallsReadOnly, absent]
  | read other buffer =>
    obtain rfl : other = fd := Option.some.inj through
    rw [failsFor_read_badDescriptor_iff]
    simp [isReadable, absent]
  | close other =>
    obtain rfl : other = fd := Option.some.inj through
    rw [FailsFor, perform_close, absent]
    exact ⟨show (-1 : Int) < 0 by decide, rfl⟩
  | lseek other offset whence =>
    obtain rfl : other = fd := Option.some.inj through
    have refused : (m.counted (.lseek other offset whence)).lseek other offset whence =
        .error .badDescriptor := by
      rw [lseek, show entry? (m.counted (.lseek other offset whence)) other = none from absent]
    have answer : m.perform (.lseek other offset whence) =
        (m.counted (.lseek other offset whence)).respond (.lseek other offset whence) := rfl
    rw [FailsFor, answer, respond, refused]
    exact ⟨show (-1 : Int) < 0 by decide, rfl⟩
  | _ => contradiction

/-- To be in use is to have an entry. -/
theorem entry?_isSome_iff (lists : m.files.Lists numbers) (fd : Fd) :
    (m.entry? fd).isSome = true ↔ fd.number ∈ numbers := by
  rw [lists.mem_iff, entry?]
  split
  · rename_i negative
    simp [Int.not_le.2 negative]
  · rename_i valid
    exact (and_iff_right (Int.not_lt.1 valid)).symm

theorem entry?_insert (sound : m.files.Sound) (tree : Tree) (file : OpenFile) (fd : Fd) :
    entry? { m with tree, files := (m.files.insert file).2 } fd =
      if fd = ⟨(m.files.insert file).1⟩ then some file else m.entry? fd := by
  obtain ⟨number⟩ := fd
  unfold entry?
  simp only [Fd.mk.injEq]
  split
  · rename_i negative
    rw [if_neg (by omega)]
  · rename_i valid
    rw [sound.get?_insert]
    by_cases same : number = (m.files.insert file).1
    · rw [if_pos same, if_pos (by omega)]
    · rw [if_neg same, if_neg (by omega)]

/-- What a machine does with descriptors where the given numbers are open, and no more than so many
were open at one time. -/
structure Numbers (m : Machine) (numbers : Finset Int) (reached : Nat) : Prop where
  /-- The open numbers are those with an entry. -/
  entry : ∀ fd, (m.entry? fd).isSome = true ↔ fd.number ∈ numbers
  count : m.openCount = numbers.card
  /-- An open after which the numbers fit fails and leaves all entries alone, or it hands out a
  number that was not open, with position 0, and leaves all others alone. The number is smaller than
  the largest number of descriptors that were open at one time, the new one counted. -/
  opening : ∀ name flags mode n u, m.perform (.openFile name flags mode) = (n, u) →
    u.openCount ≤ CInt.bound →
    (n = -1 ∧ ∀ fd, u.entry? fd = m.entry? fd) ∨
    (n ∉ numbers ∧ 0 ≤ n ∧ n < max reached u.openCount ∧
      ∃ place, m.place name = .ok place ∧
        ∀ fd, u.entry? fd = if fd = ⟨n⟩ then some (.file place 0 flags) else m.entry? fd)
  /-- A close succeeds for the open numbers and takes the entry of that number away. -/
  closing : ∀ fd n u, m.perform (.close fd) = (n, u) →
    n = (if fd.number ∈ numbers then 0 else -1) ∧
      ∀ other, u.entry? other = if other = fd then none else m.entry? other
  /-- A number that is not open is a bad descriptor until it is handed out. -/
  closed : ∀ fd : Fd, fd.number < CInt.bound → fd.number ∉ numbers →
    ∀ turns, m.tally (handsOut fd) turns = 0 →
    ∀ request : Request, request.fd? = some fd → (m.after turns).FailsFor request .badDescriptor

/-- An open hands out a number that was not in use, or fails and hands out none. -/
theorem opening_cases (sound : m.files.Sound) (lists : m.files.Lists numbers) {reached : Nat}
    (filled : m.files.slots.length ≤ reached) (fits : reached ≤ CInt.bound) {name : CString}
    {flags : OpenFlags} {mode : Mode} {number : Int}
    (answer : m.perform (.openFile name flags mode) = (number, n))
    (room : n.openCount ≤ CInt.bound) :
    (number = -1 ∧ ∀ fd, n.entry? fd = m.entry? fd) ∨
    (number ∉ numbers ∧ 0 ≤ number ∧ number < max reached n.openCount ∧
      ∃ place, m.place name = .ok place ∧
        ∀ fd, n.entry? fd = if fd = ⟨number⟩ then some (.file place 0 flags) else m.entry? fd) := by
  rcases m.perform_openFile_cases name flags mode with
    ⟨e, failed⟩ | ⟨place, tree, resolved, -, opened⟩
  · obtain ⟨rfl, rfl⟩ := Prod.mk.inj (answer.symm.trans failed)
    exact .inl ⟨rfl, fun _ => rfl⟩
  · obtain ⟨rfl, rfl⟩ := Prod.mk.inj (answer.symm.trans opened)
    right
    let file : OpenFile := .file place 0 flags
    have inside := sound.key_lt_length file
    rw [sound.length_insert, ← sound.count_insert file] at inside
    have room : (m.files.insert file).2.count ≤ CInt.bound := room
    rw [CInt.ofNat_eq (show (m.files.insert file).1 < CInt.bound by omega)]
    refine ⟨lists.key_notMem sound file, Int.natCast_nonneg _, ?_, place, resolved,
      entry?_insert (m := m.counted (.openFile name flags mode)) sound tree file⟩
    show ((m.files.insert file).1 : Int) < max reached (m.files.insert file).2.count
    omega

/-- Closing succeeds exactly for a number in use, and takes no other number out of use. -/
theorem closing_eq (lists : m.files.Lists numbers) {number : Int}
    (answer : m.perform (.close fd) = (number, n)) :
    number = (if fd.number ∈ numbers then 0 else -1) ∧
      ∀ other, n.entry? other = if other = fd then none else m.entry? other := by
  rw [perform_close] at answer
  cases entry : m.entry? fd with
  | none =>
    have closed : fd.number ∉ numbers := by
      rw [← entry?_isSome_iff lists fd, entry]
      simp
    rw [entry] at answer
    obtain ⟨rfl, rfl⟩ := Prod.mk.inj answer
    refine ⟨(if_neg closed).symm, ?_⟩
    intro other
    split
    · rename_i same
      rw [same]
      exact entry
    · rfl
  | some file =>
    have opened : fd.number ∈ numbers := by
      rw [← entry?_isSome_iff lists fd, entry]
      rfl
    rw [entry] at answer
    obtain ⟨rfl, rfl⟩ := Prod.mk.inj answer
    exact ⟨(if_pos opened).symm, entry?_erase (m := m.counted (.close fd)) entry⟩

theorem numbers_of_sound (sound : m.files.Sound) (lists : m.files.Lists numbers) {reached : Nat}
    (filled : m.files.slots.length ≤ reached) (fits : reached ≤ CInt.bound) :
    m.Numbers numbers reached where
  entry := entry?_isSome_iff lists
  count := lists.card.symm
  opening := fun _ _ _ _ _ => opening_cases sound lists filled fits
  closing := fun _ _ _ => closing_eq lists
  closed := by
    intro fd int closed turns kept request through
    have absent : m.entry? fd = none := by
      rw [← Option.not_isSome_iff_eq_none, entry?_isSome_iff lists]
      exact closed
    exact failsFor_of_absent (absent_after sound int absent kept) through

/-- At first the three standard streams are in use. -/
theorem lists_standardFiles : standardFiles.Lists {0, 1, 2} where
  mem_iff := by
    intro number
    simp only [Finset.mem_insert, Finset.mem_singleton]
    constructor
    · rintro (rfl | rfl | rfl) <;> decide
    · rintro ⟨valid, taken⟩
      obtain ⟨file, entry⟩ := Option.isSome_iff_exists.1 taken
      have inside : number.toNat < 3 := SlotTable.lt_length_of_get? entry
      omega
  card := by decide

/-- Where fewer descriptors were open at one time than an `int` can number, the next one can be
numbered too. -/
theorem numbered_of_peak {steps : List SetupStep} {warnings : List LogEntry}
    (built : build steps = .ok (m, warnings)) {turns : List Turn}
    (room : m.peak turns < CInt.bound) (request : Request) :
    (m.after turns).Numbered request := by
  cases request with
  | openFile =>
    have standard : m.files = standardFiles := files_of_build built
    have sound : m.files.Sound := standard ▸ SlotTable.sound_ofList _
    have three : m.files.slots.length = 3 := congrArg (·.slots.length) standard
    have few : (3 : Nat) < CInt.bound := by decide
    have slots := length_after sound turns
    have filled := (m.after turns).files.count_le_length
    have inside := (sound_after sound turns).key_lt_length .stdin
    rw [SlotTable.insert_fst, (sound_after sound turns).length_insert] at inside
    show (m.after turns).files.next < CInt.bound
    omega
  | _ => trivial

/-- **Descriptors are numbered by the answers alone**, as long as an `int` can number those that are
open at one time. Of a machine that was set up and used in any such way, the open numbers are the
standard ones and those that opens handed out, without those that were closed; `Numbers` says what
it does with them, and they are three more than were opened and not closed. -/
theorem numbers_follow_answers {steps : List SetupStep} {warnings : List LogEntry}
    (built : build steps = .ok (m, warnings)) (turns : List Turn)
    (room : m.peak turns ≤ CInt.bound) :
    (m.after turns).Numbers (m.openNumbers {0, 1, 2} turns) (m.peak turns) ∧
      (m.after turns).openCount + m.tally closes turns = 3 + m.tally opens turns := by
  have standard : m.files = standardFiles := files_of_build built
  have sound : m.files.Sound := standard ▸ SlotTable.sound_ofList _
  have lists : m.files.Lists {0, 1, 2} := standard ▸ lists_standardFiles
  have three : m.openCount = 3 := congrArg SlotTable.count standard
  have slots : m.files.slots.length = 3 := congrArg (·.slots.length) standard
  have few : m.files.slots.length ≤ CInt.bound := slots ▸ (by decide)
  constructor
  · apply numbers_of_sound (sound_after sound turns) (lists_after sound lists few room) _ room
    have reached := m.openCount_le_peak turns
    rw [length_after sound]
    omega
  · rw [openCount_after sound few room, three]

/-- A standard number and another one are closed, the latter again in vain. -/
theorem numbers_follow_answers_after_closes :
    let create (name : String) : Request :=
      .openFile ⟨Utf8.encode name⟩ (OpenFlags.writeOnly ||| OpenFlags.create) 0o644
    let turns : List Turn := [.call (create "/a"), .call (create "/b"), .call (.close ⟨1⟩),
      .call (.close ⟨3⟩), .call (.close ⟨3⟩)]
    let s := initial.after turns
    build [] = .ok (initial, []) ∧ initial.peak turns = 5 ∧
      initial.openNumbers {0, 1, 2} turns = {0, 2, 4} ∧
      s.openCount = 3 ∧ (s.perform (create "/c")).1 = (3 : Int) ∧
      ∀ later, s.tally (handsOut ⟨3⟩) later = 0 →
        ∀ data, (s.after later).FailsFor (.write ⟨3⟩ data) .badDescriptor := by
  intro create turns s
  have five : initial.peak turns = 5 := by decide
  have room : initial.peak turns ≤ CInt.bound := five ▸ (by decide)
  obtain ⟨numbers, -⟩ := numbers_follow_answers build_nil turns room
  have opened : initial.openNumbers {0, 1, 2} turns = {0, 2, 4} := by decide
  have count : s.openCount = 3 := by
    rw [numbers.count, opened]
    rfl
  have closed : (3 : Int) ∉ initial.openNumbers {0, 1, 2} turns := by
    rw [opened]
    decide
  exact ⟨build_nil, five, opened, count, by decide, fun later kept data =>
    numbers.closed ⟨3⟩ (by decide) closed later kept (.write ⟨3⟩ data) rfl⟩

/-- With as many descriptors open as can be numbered, the next open adds a descriptor, and its answer
does not tell. -/
theorem openCount_of_crowd (sound : m.files.Sound) (few : m.files.slots.length ≤ CInt.bound)
    {turns later : List Turn} (reached : m.after turns = n) (crowd : n.Crowd CInt.bound)
    (extended : turns ++ [.call (openAt "/g")] = later) :
    (m.after later).openCount + m.tally closes later = m.openCount + m.tally opens later + 1 := by
  have slots := length_after sound turns
  rw [reached, crowd.length] at slots
  have before := openCount_after sound few (show m.peak turns ≤ CInt.bound by omega)
  rw [reached] at before
  have added : (n.turn (.call (openAt "/g"))).openCount = n.openCount + 1 := by
    have sound : n.files.Sound := reached ▸ sound_after sound turns
    show (n.perform (openAt "/g")).2.openCount = _
    rw [crowd.perform_openAt]
    exact sound.count_insert (openedAt "/g")
  -- The answer is negative, so by the answers nothing was opened.
  have untold : n.handover (.call (openAt "/g")) = .neither := by
    rw [handover, crowd.perform_openAt]
    exact Handover.ofReply_of_fails (by decide : (-2147483648 : Int) < 0)
  have opened : n.opens (.call (openAt "/g")) = false := by rw [opens, untold]; rfl
  have closed : n.closes (.call (openAt "/g")) = false := by rw [closes, untold]; rfl
  rw [← extended, after_append, tally_append, tally_append, reached, after_cons, after_nil, added,
    tally, tally, tally, tally, opened, closed]
  simp only [Bool.toNat_false]
  omega

/-- The open that is one too many fails and adds an entry all the same. -/
theorem openCount_after_crowding :
    let turns := crowding ++ [.call (openAt "/g")]
    build [] = .ok (initial, []) ∧
      (initial.after turns).openCount + initial.tally closes turns ≠
        3 + initial.tally opens turns := by
  intro turns
  have law := openCount_of_crowd (m := initial) (SlotTable.sound_ofList _) (by decide) rfl
    crowd_crowding (rfl : _ = turns)
  have three : initial.openCount = 3 := rfl
  rw [three] at law
  refine ⟨build_nil, ?_⟩
  rw [law]
  exact Nat.succ_ne_self _

end Machine

end Hostcall
