/-!
# The command line

Options come first, each a word or a word with a value; the first word that is no option names the
applet, and everything after it belongs to the applet. An option that takes a value takes the next
word whatever it looks like, and the last of several values counts.
-/

namespace Hostcall.CommandLine

/-- An option that takes a value. -/
inductive ValueOption where
  | snapshot
  | save
  | cwd
deriving DecidableEq, Repr

/-- What the first word of a command line can be, apart from the name of an applet. -/
inductive Switch where
  | verbose
  | value (option : ValueOption)
  | help
deriving DecidableEq, Repr

/-- The meaning of a word among the options; other words name an applet. -/
def Switch.ofWord? (word : String) : Option Switch :=
  if word = "-v" ∨ word = "--verbose" then some verbose
  else if word = "--fs" then some (value .snapshot)
  else if word = "--save" then some (value .save)
  else if word = "--cwd" then some (value .cwd)
  else if word = "-h" ∨ word = "--help" then some help
  else none

/-- The options of a command line. -/
structure Settings where
  verbose : Bool := false
  snapshot : Option String := none
  save : Option String := none
  cwd : Option String := none
deriving DecidableEq, Repr

/-- The settings with a value for an option. -/
def Settings.set (s : Settings) (option : ValueOption) (v : String) : Settings :=
  match option with
  | .snapshot => { s with snapshot := some v }
  | .save => { s with save := some v }
  | .cwd => { s with cwd := some v }

/-- A command line that makes sense: the options, the applet, and the applet's own words. -/
structure Command where
  settings : Settings
  applet : String
  words : List String
deriving DecidableEq, Repr

/-- The arguments of the applet, its name included. -/
def Command.argv (c : Command) : List String := c.applet :: c.words

/-- Why a command line makes no sense. -/
inductive UsageError where
  /-- The last word is an option that takes a value. -/
  | missingValue (option : ValueOption)
  /-- Help is asked for, or no applet is named. -/
  | usage
deriving DecidableEq, Repr

/-- What is said about a command line that makes no sense. -/
def UsageError.message : UsageError → String
  | missingValue .snapshot => "--fs needs a file"
  | missingValue .save => "--save needs a file"
  | missingValue .cwd => "--cwd needs a directory"
  | usage =>
    "usage: applet-sim [-v] [--fs snapshot.json] [--save out.json] [--cwd dir] <applet> [args...]"

/-- Reads the words that are left, given the settings of those before. -/
def parseFrom (s : Settings) : List String → Except UsageError Command
  | [] => .error .usage
  | word :: rest =>
    match Switch.ofWord? word, rest with
    | some .verbose, rest => parseFrom { s with verbose := true } rest
    | some (.value option), v :: rest => parseFrom (s.set option v) rest
    | some (.value option), [] => .error (.missingValue option)
    | some .help, _ => .error .usage
    | none, rest => .ok ⟨s, word, rest⟩

/-- Reads a command line. -/
def parse (words : List String) : Except UsageError Command := parseFrom {} words

end Hostcall.CommandLine
