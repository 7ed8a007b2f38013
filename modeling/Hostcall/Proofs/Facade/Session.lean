import Hostcall.Facade.Derived

/-!
# Sessions

A session is what an applet does with a facade: it performs operations one after the other, and
each may depend on the results of those before it. As data, an operation can be told apart from the
host calls that it makes: `Session.performed` lists the operations of a run with what happened in
each and how it came out, and a run is its operations and nothing else (`Session.events_run`).
-/

namespace Hostcall

/-- An operation of a facade with its arguments. -/
inductive Operation where
  | openFile (path : String) (flags : OpenFlags) (mode : Mode)
  | read (fd : Fd) (buffer : Bytes)
  | write (fd : Fd) (data : Bytes)
  | writeText (fd : Fd) (text : String)
  | writeAll (fd : Fd) (data : Bytes)
  | close (fd : Fd)
  | unlink (path : String)
  | mkdir (path : String) (mode : Mode)
  | chdir (path : String)
  | getcwd (buffer : Bytes)
  | currentDir
  | seek (fd : Fd) (offset : Int) (whence : Whence)
  | sleep (seconds : Nat)
  | usleep (micros : Nat)
  | sleepFor (duration : Duration)
  | exit (status : Int)
  | abort
  | describe (e : Error)
deriving DecidableEq, Repr

/-- What an operation results in. -/
@[reducible] def Operation.Result : Operation → Type
  | .openFile .. => Except Error Fd
  | .read .. => Except Error Nat × Bytes
  | .write .. => Except Error Nat
  | .writeText .. => Except Error Nat
  | .writeAll .. => Except Error Unit
  | .close .. => Except Error Unit
  | .unlink .. => Except Error Unit
  | .mkdir .. => Except Error Unit
  | .chdir .. => Except Error Unit
  | .getcwd .. => Except Error String × Bytes
  | .currentDir => Except Error String
  | .seek .. => Except Error Int
  | .sleep .. => Except Error Nat
  | .usleep .. => Except Error Unit
  | .sleepFor .. => Except Error Unit
  | .exit .. => Error
  | .abort => Error
  | .describe .. => String

/-- Performs an operation on a facade. -/
def Facade.perform (f : Facade) : (op : Operation) → Program op.Result
  | .openFile path flags mode => f.openFile path flags mode
  | .read fd buffer => f.read fd buffer
  | .write fd data => f.write fd data
  | .writeText fd text => f.writeText fd text
  | .writeAll fd data => f.writeAll fd data
  | .close fd => f.close fd
  | .unlink path => f.unlink path
  | .mkdir path mode => f.mkdir path mode
  | .chdir path => f.chdir path
  | .getcwd buffer => f.getcwd buffer
  | .currentDir => f.currentDir
  | .seek fd offset whence => f.seek fd offset whence
  | .sleep seconds => f.sleep seconds
  | .usleep micros => f.usleep micros
  | .sleepFor duration => f.sleepFor duration
  | .exit status => f.exit status
  | .abort => f.abort
  | .describe e => f.describe e

/-- Operations one after the other, each chosen by the results of those before it. -/
inductive Session (α : Type) where
  | done (a : α)
  | perform (op : Operation) (next : op.Result → Session α)

/-- An operation in a run, with what happened in it and how it came out. -/
structure Performed where
  operation : Operation
  events : List Event
  outcome : Outcome operation.Result

namespace Session

variable {α σ : Type}

/-- The program of a session on a facade. -/
def program (f : Facade) : Session α → Program α
  | done a => pure a
  | perform op next => f.perform op >>= fun result => (next result).program f

/-- The operations that a run of a session performs; none follows one that does not return. -/
def performed (f : Facade) (host : Host σ) : Session α → σ → List Performed
  | done _, _ => []
  | perform op next, s =>
    let r := (f.perform op).run host s
    ⟨op, r.events, r.outcome⟩ ::
      match r.outcome with
      | .returned result => (next result).performed f host r.state
      | .stopped _ => []
      | .crashed _ => []

/-- A run is its operations one after the other. -/
theorem events_run (f : Facade) (host : Host σ) (session : Session α) (s : σ) :
    ((session.program f).run host s).events =
      (session.performed f host s).flatMap Performed.events := by
  induction session generalizing s with
  | done a => rfl
  | perform op next ih =>
    simp only [program, performed, Program.run_bind, Run.followedBy, List.flatMap_cons]
    cases (f.perform op |>.run host s).outcome with
    | returned result => simp only [Run.after, ih]
    | stopped reason => simp
    | crashed cause => simp

end Session

end Hostcall
