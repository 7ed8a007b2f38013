import Hostcall.CommandLine.Options

/-!
# The grammar of the command line

A command line that makes sense is some options, each with its value if it takes one, then the name
of an applet, which is none of the words with a meaning of their own, and then any words. Whatever
the words are, they are options up to a place where no option can follow (`exists_ending`), and
reading takes the options one after the other and then says what it finds there
(`parse_of_ending`). Main statement: reading succeeds exactly on the command lines that make sense
and finds in them what they say, and each of its messages stands for one way in which a command line
makes none (`parse_follows_grammar`).
-/

namespace Hostcall.CommandLine

/-- The word by which an option with a value is given. -/
def ValueOption.word : ValueOption → String
  | snapshot => "--fs"
  | save => "--save"
  | cwd => "--cwd"

/-- What the value of an option names. -/
def ValueOption.noun : ValueOption → String
  | snapshot => "file"
  | save => "file"
  | cwd => "directory"

/-- The words that ask for help. -/
def helpWords : List String := ["-h", "--help"]

/-- The words with a meaning of their own, which name no applet. -/
def reserved : List String := ["-v", "--verbose", "--fs", "--save", "--cwd"] ++ helpWords

/-- An option as it is given, with its value. A value is any word, one that looks like an option as
well. -/
inductive Group where
  | short
  | long
  | value (option : ValueOption) (v : String)
deriving DecidableEq, Repr

namespace Group

/-- The words of an option. -/
def words : Group → List String
  | short => ["-v"]
  | long => ["--verbose"]
  | value option v => [option.word, v]

/-- Whether an option asks for the log. -/
def isVerbose : Group → Bool
  | short => true
  | long => true
  | value .. => false

/-- The value that is given for an option. -/
def value? (option : ValueOption) : Group → Option String
  | value given v => if given = option then some v else none
  | _ => none

end Group

/-- The value of the last of the options that give one. -/
def lastValue? (option : ValueOption) (groups : List Group) : Option String :=
  (groups.filterMap (Group.value? option)).getLast?

/-- What some options say together. -/
def Settings.ofGroups (groups : List Group) : Settings where
  verbose := groups.any Group.isVerbose
  snapshot := lastValue? .snapshot groups
  save := lastValue? .save groups
  cwd := lastValue? .cwd groups

/-- Words that are options and then a command. -/
structure Command.SpelledBy (c : Command) (groups : List Group) (words : List String) : Prop where
  split : words = groups.flatMap Group.words ++ c.argv
  named : c.applet ∉ reserved
  settings : c.settings = Settings.ofGroups groups

/-- The settings after one more option. -/
def Settings.add (s : Settings) : Group → Settings
  | .short => { s with verbose := true }
  | .long => { s with verbose := true }
  | .value option v => s.set option v

variable {s : Settings} {groups : List Group} {words rest : List String} {option : ValueOption}

/-- A later value of an option goes before an earlier one. -/
theorem lastValue?_cons (option : ValueOption) (group : Group) (groups : List Group) :
    lastValue? option (group :: groups) = (lastValue? option groups).or (group.value? option) := by
  unfold lastValue?
  cases given : group.value? option with
  | none => rw [List.filterMap_cons_none given, Option.or_none]
  | some v =>
    rw [List.filterMap_cons_some given, List.getLast?_cons]
    cases (groups.filterMap (Group.value? option)).getLast? <;> rfl

/-- Options are taken one after the other, and a later one counts more than what was set. -/
theorem foldl_add (s : Settings) (groups : List Group) :
    groups.foldl Settings.add s =
      { verbose := s.verbose || groups.any Group.isVerbose
        snapshot := (lastValue? .snapshot groups).or s.snapshot
        save := (lastValue? .save groups).or s.save
        cwd := (lastValue? .cwd groups).or s.cwd } := by
  induction groups generalizing s with
  | nil => simp [lastValue?]
  | cons group groups ih =>
    rw [List.foldl_cons, ih]
    cases group with
    | short => simp [Settings.add, lastValue?_cons, Group.value?, Group.isVerbose]
    | long => simp [Settings.add, lastValue?_cons, Group.value?, Group.isVerbose]
    | value option v =>
      cases option <;>
        simp [Settings.add, Settings.set, lastValue?_cons, Group.value?, Group.isVerbose]

/-- Adding group by group gives the last value of each option. -/
theorem foldl_add_default (groups : List Group) :
    groups.foldl Settings.add {} = Settings.ofGroups groups := by
  rw [foldl_add]
  simp [Settings.ofGroups]

theorem ofWord?_word (option : ValueOption) : Switch.ofWord? option.word = some (.value option) := by
  cases option <;> decide

/-- One group is read off the front and added. -/
theorem parseFrom_group (s : Settings) (group : Group) (rest : List String) :
    parseFrom s (group.words ++ rest) = parseFrom (s.add group) rest := by
  cases group with
  | short => rfl
  | long => rfl
  | value option v =>
    show parseFrom s (option.word :: v :: rest) = _
    rw [parseFrom.eq_def]
    simp only [ofWord?_word]
    rfl

/-- So are any groups, in order. -/
theorem parseFrom_groups (s : Settings) (groups : List Group) (rest : List String) :
    parseFrom s (groups.flatMap Group.words ++ rest) =
      parseFrom (groups.foldl Settings.add s) rest := by
  induction groups generalizing s with
  | nil => rfl
  | cons group groups ih =>
    rw [List.flatMap_cons, List.append_assoc, parseFrom_group, ih]
    rfl

/-- What follows the options: nothing, an option without its value, a word that asks for help, or
the name of an applet. -/
inductive Ending : List String → Except UsageError (String × List String) → Prop where
  | nothing : Ending [] (.error .usage)
  | cutShort (option : ValueOption) : Ending [option.word] (.error (.missingValue option))
  | help {word : String} {rest : List String} (asks : word ∈ helpWords) :
      Ending (word :: rest) (.error .usage)
  | applet {name : String} {rest : List String} (named : name ∉ reserved) :
      Ending (name :: rest) (.ok (name, rest))

/-- The words that are no switch are those that are not reserved. -/
theorem ofWord?_eq_none_iff {word : String} : Switch.ofWord? word = none ↔ word ∉ reserved := by
  simp only [Switch.ofWord?, reserved, helpWords]
  grind

theorem ofWord?_of_help {word : String} (asks : word ∈ helpWords) :
    Switch.ofWord? word = some .help := by
  simp only [helpWords, List.mem_cons, List.not_mem_nil, or_false] at asks
  rcases asks with rfl | rfl <;> decide

/-- What ends the groups decides whether there is a command, and which fault there is. -/
theorem parseFrom_of_ending {found : Except UsageError (String × List String)}
    (ending : Ending rest found) (s : Settings) :
    parseFrom s rest = found.map fun (name, words) => ⟨s, name, words⟩ := by
  cases ending with
  | nothing => rfl
  | cutShort option =>
    rw [parseFrom.eq_def]
    simp only [ofWord?_word]
    rfl
  | help asks =>
    rw [parseFrom.eq_def]
    simp only [ofWord?_of_help asks]
    rfl
  | applet named =>
    rw [parseFrom.eq_def]
    simp only [ofWord?_eq_none_iff.2 named]
    rfl

/-- Words begin with an option, or the options end where they begin. -/
inductive Beginning (words : List String) : Prop where
  | option (group : Group) (more : List String) (split : words = group.words ++ more)
  | ending {found : Except UsageError (String × List String)} (ending : Ending words found)

theorem beginning_value (option : ValueOption) (rest : List String) :
    Beginning (option.word :: rest) := by
  cases rest with
  | nil => exact .ending (.cutShort option)
  | cons v more => exact .option (.value option v) more rfl

/-- Every list of words is some groups and an ending. -/
theorem beginning (words : List String) : Beginning words := by
  cases words with
  | nil => exact .ending .nothing
  | cons word rest =>
    -- What is no reserved word names the applet, and all reserved words but the call for help are
    -- options.
    by_cases own : word ∈ reserved
    case neg => exact .ending (.applet own)
    simp only [reserved, helpWords, List.cons_append, List.nil_append, List.mem_cons,
      List.not_mem_nil, or_false] at own
    rcases own with rfl | rfl | rfl | rfl | rfl | rfl | rfl
    · exact .option .short rest rfl
    · exact .option .long rest rfl
    · exact beginning_value .snapshot rest
    · exact beginning_value .save rest
    · exact beginning_value .cwd rest
    · exact .ending (.help (by decide))
    · exact .ending (.help (by decide))

/-- A group is never empty, so taking one off makes progress. -/
theorem Group.length_words_pos (group : Group) : 0 < group.words.length := by
  cases group <;> exact Nat.succ_pos _

/-- All words are options up to where the options end. -/
theorem exists_ending (words : List String) :
    ∃ (groups : List Group) (rest : List String) (found : Except UsageError (String × List String)),
      words = groups.flatMap Group.words ++ rest ∧ Ending rest found := by
  induction h : words.length using Nat.strongRecOn generalizing words with
  | ind length ih =>
    cases beginning words with
    | ending ending => exact ⟨[], words, _, rfl, ending⟩
    | option group more split =>
      have shorter : more.length < length := by
        have := group.length_words_pos
        rw [← h, split, List.length_append]
        omega
      obtain ⟨groups, rest, found, later, ending⟩ := ih _ shorter more rfl
      refine ⟨group :: groups, rest, found, ?_, ending⟩
      rw [split, later, List.flatMap_cons, List.append_assoc]

/-- Words that are split into groups and an ending are read so. -/
theorem parse_of_ending {found : Except UsageError (String × List String)}
    (split : words = groups.flatMap Group.words ++ rest) (ending : Ending rest found) :
    parse words = found.map fun (name, more) => ⟨Settings.ofGroups groups, name, more⟩ := by
  rw [parse, split, parseFrom_groups, foldl_add_default, parseFrom_of_ending ending]

/-- The commands that are read are those that the words spell. -/
theorem parse_eq_ok_iff {c : Command} :
    parse words = .ok c ↔ ∃ groups, c.SpelledBy groups words := by
  constructor
  · intro parsed
    obtain ⟨groups, rest, found, split, ending⟩ := exists_ending words
    rw [parse_of_ending split ending] at parsed
    cases ending with
    | nothing => contradiction
    | cutShort => contradiction
    | help => contradiction
    | applet named =>
      obtain rfl := Except.ok.inj parsed
      exact ⟨groups, split, named, rfl⟩
  · rintro ⟨groups, split, named, settings⟩
    rw [parse_of_ending split (.applet named), ← settings]
    rfl

/-- The value that is missing is that of the option that stands last. -/
theorem parse_eq_missingValue_iff :
    parse words = .error (.missingValue option) ↔
      ∃ groups : List Group, words = groups.flatMap Group.words ++ [option.word] := by
  constructor
  · intro parsed
    obtain ⟨groups, rest, found, split, ending⟩ := exists_ending words
    rw [parse_of_ending split ending] at parsed
    cases ending with
    | nothing => cases Except.error.inj parsed
    | cutShort given =>
      cases Except.error.inj parsed
      exact ⟨groups, split⟩
    | help => cases Except.error.inj parsed
    | applet => contradiction
  · rintro ⟨groups, split⟩
    exact parse_of_ending split (.cutShort option)

/-- All other words are answered with the usage. -/
theorem parse_eq_usage_iff :
    parse words = .error .usage ↔
      (¬ ∃ c groups, Command.SpelledBy c groups words) ∧
        ¬ ∃ (option : ValueOption) (groups : List Group),
          words = groups.flatMap Group.words ++ [option.word] := by
  simp only [← parse_eq_ok_iff, ← parse_eq_missingValue_iff]
  cases parse words with
  | ok c => simp
  | error e => cases e <;> simp

/-- The message names the option and what it needs. -/
theorem message_missingValue (option : ValueOption) :
    (UsageError.missingValue option).message = option.word ++ " needs a " ++ option.noun := by
  cases option <;> decide

/-- All reasons why a command line makes no sense. -/
def UsageError.all : List UsageError :=
  [missingValue .snapshot, missingValue .save, missingValue .cwd, usage]

theorem UsageError.mem_all (e : UsageError) : e ∈ all := by
  rcases e with ⟨_ | _ | _⟩ | _ <;> decide

/-- Each reason has a message of its own. -/
theorem message_inj {e other : UsageError} : e.message = other.message ↔ e = other := by
  have apart : ∀ e ∈ UsageError.all, ∀ other ∈ UsageError.all,
      e.message = other.message → e = other := by decide
  exact ⟨apart e e.mem_all other other.mem_all, congrArg _⟩

/-- Reading fails with a message. -/
def FailsWith (words : List String) (message : String) : Prop :=
  ∃ e, parse words = .error e ∧ e.message = message

/-- Each fault has a message of its own. -/
theorem failsWith_message_iff {e : UsageError} :
    FailsWith words e.message ↔ parse words = .error e := by
  constructor
  · rintro ⟨other, failed, same⟩
    rw [failed, message_inj.1 same]
  · intro failed
    exact ⟨e, failed, rfl⟩

/-- **A command line is read by its grammar.** Reading yields a command exactly where the words are
options and then that command, with the settings that the options say together. It says that an
option needs a value exactly where the words are options and end in that option's word, and it
explains the usage in all other cases. -/
theorem parse_follows_grammar (words : List String) :
    (∀ c, parse words = .ok c ↔ ∃ groups, c.SpelledBy groups words) ∧
    (∀ option : ValueOption, FailsWith words (option.word ++ " needs a " ++ option.noun) ↔
      ∃ groups : List Group, words = groups.flatMap Group.words ++ [option.word]) ∧
    (FailsWith words UsageError.usage.message ↔
      (¬ ∃ c groups, Command.SpelledBy c groups words) ∧
        ¬ ∃ (option : ValueOption) (groups : List Group),
          words = groups.flatMap Group.words ++ [option.word]) := by
  refine ⟨fun c => parse_eq_ok_iff, fun option => ?_, ?_⟩
  · rw [← message_missingValue, failsWith_message_iff]
    exact parse_eq_missingValue_iff
  · rw [failsWith_message_iff]
    exact parse_eq_usage_iff

example :
    parse ["--fs", "--fs", "-v", "--fs", "b", "argv_dump", "--cwd"] =
      .ok ⟨⟨true, some "b", none, none⟩, "argv_dump", ["--cwd"]⟩ := by
  rfl

end Hostcall.CommandLine
