import Hostcall.Proofs.Facade.Discipline

/-!
# How a duration is slept

A duration is slept in two calls at most: one for its seconds, as many as a host can be asked for,
and then one for the whole microseconds beside them, unless the first was cut short (`Slept`). This
is so on any host (`exists_slept`), and there is one way to fail, which is that the second call does.
-/

namespace Hostcall

/-- The length of a span of time in nanoseconds. -/
def Duration.inNanos (d : Duration) : Nat := d.seconds * 1000000000 + d.nanos

/-- The microseconds beside the seconds are fewer than a host accepts. -/
theorem Duration.micros_lt {d : Duration} (proper : d.nanos < 1000000000) : d.micros < 1000000 :=
  Nat.div_lt_of_lt_mul proper

/-- The microseconds of sleep that are asked for in all, to sleep for a duration. -/
def Duration.due (d : Duration) : Nat := min d.seconds (UInt32.size - 1) * 1000000 + d.micros

/-- No more is asked for than the duration. -/
theorem Duration.due_le (d : Duration) : d.due * 1000 ≤ d.inNanos := by
  unfold due inNanos micros
  omega

/-- Where the seconds can be asked for, only the rest below a microsecond is lost. -/
theorem Duration.lt_due {d : Duration} (askable : d.seconds < UInt32.size) :
    d.inNanos < d.due * 1000 + 1000 := by
  unfold due inNanos micros
  omega

namespace Facade

/-- What happens for the seconds of a duration, and how many of them are left: nothing where there
are none, and otherwise one sleep. -/
inductive SecondsSlept (seconds : Nat) : List Event → Nat → Prop where
  | nothing (brief : seconds = 0) : SecondsSlept seconds [] 0
  | asked {left : Nat} (long : 0 < seconds) :
      SecondsSlept seconds [.asked (.sleep (min seconds (UInt32.size - 1))) left] left

/-- What happens for the microseconds of a duration, and the result: nothing where there are none or
some seconds are left, and otherwise one sleep, which fails if its answer is negative. -/
inductive RestSlept (micros left : Nat) : List Event → Except Error Unit → Prop where
  | nothing (moot : micros = 0 ∨ 0 < left) : RestSlept micros left [] (.ok ())
  | asked {n : Int} (due : 0 < micros) (spent : left = 0) (fine : 0 ≤ n) :
      RestSlept micros left [.asked (.usleep micros) n] (.ok ())
  | failed {n code : Int} (due : 0 < micros) (spent : left = 0) (negative : n < 0) :
      RestSlept micros left
        [.asked (.usleep micros) n, .asked .errno code, .noted (failureEntry "usleep" code)]
        (.error (.host ⟨code⟩))

/-- What happens while a duration is slept, and the result: first the seconds and then the
microseconds. -/
inductive Slept (d : Duration) : List Event → Except Error Unit → Prop where
  | parts {first second : List Event} {left : Nat} {result : Except Error Unit}
      (seconds : SecondsSlept d.seconds first left) (rest : RestSlept d.micros left second result) :
      Slept d (first ++ second) result

variable {d : Duration} {events : List Event} {outcome : Outcome (Except Error Unit)}

/-- Once no seconds are left, the rest is slept by the discipline. -/
theorem restSlept_of_microsSlept (slept : MicrosSlept d events outcome) :
    ∃ result, outcome = .returned result ∧ RestSlept d.micros 0 events result := by
  cases slept with
  | elapsed whole => exact ⟨.ok (), rfl, .nothing (.inl whole)⟩
  | usleep due one =>
    cases one with
    | passed fine => exact ⟨.ok (), rfl, .asked due rfl (Int.not_lt.1 fine)⟩
    | failed fails => exact ⟨_, rfl, .failed due rfl fails⟩

/-- The discipline of sleeping leaves the two calls and no more. -/
theorem slept_of_disciplined (disciplined : Disciplined (.sleepFor d) events outcome) :
    ∃ result, outcome = .returned result ∧ Slept d events result := by
  cases disciplined with
  | idle empty => contradiction
  | call asks => contradiction
  | noSeconds brief rest =>
    obtain ⟨result, returned, rest⟩ := restSlept_of_microsSlept rest
    exact ⟨result, returned, .parts (.nothing brief) rest⟩
  | woken long early => exact ⟨.ok (), rfl, .parts (.asked long) (.nothing (.inr early))⟩
  | slept long rest =>
    obtain ⟨result, returned, rest⟩ := restSlept_of_microsSlept rest
    exact ⟨result, returned, .parts (.asked long) rest⟩

/-- On any host a duration is slept so. -/
theorem exists_slept {σ : Type} (host : Host σ) (d : Duration) (s : σ) :
    ∃ events result after,
      (hosted.sleepFor d).run host s = ⟨events, .returned result, after⟩ ∧ Slept d events result := by
  obtain ⟨result, returned, slept⟩ := slept_of_disciplined (disciplined_sleepFor host s d)
  generalize (hosted.sleepFor d).run host s = r at returned slept
  obtain ⟨events, outcome, after⟩ := r
  obtain rfl : outcome = .returned result := returned
  exact ⟨events, result, after, rfl, slept⟩

end Facade

end Hostcall
