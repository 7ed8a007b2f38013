import Hostcall.Facade.Basic

/-!
# Operations built from others

Writing everything although a host takes it in parts, sleeping for a duration, and the current
directory in a buffer of fixed size. They work over any facade.
-/

namespace Hostcall

/-- A span of time; the nanoseconds are below one second. -/
structure Duration where
  seconds : Nat
  nanos : Nat
deriving DecidableEq, Repr

/-- The whole microseconds beside the seconds. -/
def Duration.micros (d : Duration) : Nat := d.nanos / 1000

namespace Facade

/-- Writes all bytes, what is left again as long as the host takes some of it. A count past what was
offered ends the loop like a full one. -/
def writeAll (f : Facade) (fd : Fd) (data : Bytes) : Program (Except Error Unit) :=
  if _h : data = [] then return .ok ()
  else do
    match ← f.write fd data with
    | .error e => return .error e
    | .ok n =>
      if _hn : n = 0 then
        Program.log .trace <|
          "write_all: " ++ fd.text ++ " stalled with " ++ toString data.length ++ " bytes left"
        return .error (.shortWrite data.length)
      else writeAll f fd (data.drop n)
termination_by data.length
decreasing_by
  have := List.length_pos_iff.2 _h
  simp only [List.length_drop]
  omega

/-- Writes some bytes of a text from the front. -/
def writeText (f : Facade) (fd : Fd) (s : String) : Program (Except Error Nat) :=
  f.write fd (Utf8.encode s)

/-- The longest sleep in seconds that a host can be asked for. -/
def maxSleep : Nat := (1 <<< 32) - 1

/-- Sleeps for the whole microseconds of a duration beside its seconds. -/
def sleepMicros (f : Facade) (d : Duration) : Program (Except Error Unit) :=
  if 0 < d.micros then f.usleep d.micros else return .ok ()

/-- Sleeps for a duration, the seconds first. Where the sleep was cut short there is nothing more to
wait for. -/
def sleepFor (f : Facade) (d : Duration) : Program (Except Error Unit) :=
  if 0 < d.seconds then do
    match ← f.sleep (min d.seconds maxSleep) with
    | .error e => return .error e
    | .ok left => if 0 < left then return .ok () else f.sleepMicros d
  else f.sleepMicros d

/-- The size of the buffer for the current directory. -/
def scratchLength : Nat := 256

/-- The current directory; one that does not fit the scratch buffer fails as the host says. -/
def currentDir (f : Facade) : Program (Except Error String) :=
  return (← f.getcwd (List.replicate scratchLength 0)).1

end Facade

end Hostcall
