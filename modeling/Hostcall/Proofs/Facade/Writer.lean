import Hostcall.Facade.Writer
import Hostcall.Proofs.Facade.Discipline

/-!
# The failure that a writer keeps

Whoever goes on after a piece that failed can have several failures in one writer, and each takes
the place of the one before it. So a writer keeps the failure of the last piece that failed, on any
facade (`writer_keeps_latest_failure`), and not that of the first one
(`later_failure_hides_first`).
-/

namespace Hostcall

open Operation (errorOf)

/-- The error of the last result that is one. -/
def latestFailure (results : List (Except Error Unit)) : Option Error :=
  (results.filterMap errorOf).getLast?

section

variable {results : List (Except Error Unit)} {e : Error}

@[simp] theorem latestFailure_nil : latestFailure [] = none := rfl

/-- A later failure replaces an earlier one. -/
theorem latestFailure_cons (result : Except Error Unit) (results : List (Except Error Unit)) :
    latestFailure (result :: results) = (latestFailure results).or (errorOf result) := by
  unfold latestFailure
  cases result with
  | ok =>
    rw [List.filterMap_cons_none rfl]
    exact Option.or_none.symm
  | error e =>
    rw [List.filterMap_cons, show errorOf (.error e : Except Error Unit) = some e from rfl,
      List.getLast?_cons]
    cases (results.filterMap errorOf).getLast? <;> rfl

/-- There is no failure to report if and only if every piece was written. -/
theorem latestFailure_eq_none_iff : latestFailure results = none ↔ ∀ r ∈ results, r = .ok () := by
  induction results with
  | nil => simp
  | cons result results ih =>
    rw [latestFailure_cons, Option.or_eq_none_iff, ih, List.forall_mem_cons, and_comm]
    refine and_congr_left fun _ => ?_
    cases result <;> simp [errorOf]

/-- Nothing behind the latest failure is one. -/
theorem latestFailure_eq_some_iff :
    latestFailure results = some e ↔
      ∃ before later, results = before ++ .error e :: later ∧ ∀ r ∈ later, r = .ok () := by
  induction results with
  | nil => simp
  | cons result results ih =>
    rw [latestFailure_cons, Option.or_eq_some_iff, ih, latestFailure_eq_none_iff]
    constructor
    · rintro (⟨before, later, rfl, fine⟩ | ⟨fine, failed⟩)
      · exact ⟨result :: before, later, rfl, fine⟩
      · obtain rfl : result = .error e := by
          cases result with
          | ok => contradiction
          | error e' => exact congrArg _ (Option.some.inj failed)
        exact ⟨[], results, rfl, fine⟩
    · rintro ⟨before, later, split, fine⟩
      cases before with
      | nil =>
        obtain ⟨rfl, rfl⟩ := List.cons.inj split
        exact .inr ⟨fine, rfl⟩
      | cons first before =>
        obtain ⟨rfl, rest⟩ := List.cons.inj split
        exact .inl ⟨before, later, rest, fine⟩

end

namespace Writer

variable {f : Facade} {w : Writer}

/-- Sends pieces one after the other, whatever comes of each, and says of each whether all of it was
written. -/
def writeEach (f : Facade) (w : Writer) : List String → Program (List Bool × Writer)
  | [] => return ([], w)
  | piece :: pieces => do
    let (good, w) ← w.write f piece
    let (goods, w) ← w.writeEach f pieces
    return (good :: goods, w)

/-- The writer after pieces that came out as given. -/
def having (w : Writer) (results : List (Except Error Unit)) : Writer :=
  { w with failure := (latestFailure results).or w.failure }

@[simp] theorem having_fd (w : Writer) (results : List (Except Error Unit)) :
    (w.having results).fd = w.fd := rfl

/-- A writer goes through results one by one. -/
theorem having_cons (w : Writer) (result : Except Error Unit) (results : List (Except Error Unit)) :
    w.having (result :: results) = (w.having [result]).having results := by
  simp only [having, latestFailure_cons, latestFailure_nil, Option.none_or, Option.or_assoc]

/-- A writer tells the formatter only whether the piece was written, and keeps the failure. -/
theorem write_eq (w : Writer) (piece : String) :
    w.write f piece = do
      let result ← f.writeAll w.fd (Utf8.encode piece)
      return (result.isOk, w.having [result]) := by
  unfold write
  congr 1
  funext result
  cases result <;> rfl

/-- Sending pieces is writing all bytes of each, and the latest failure is what the writer has. -/
theorem writeEach_eq (w : Writer) (pieces : List String) :
    w.writeEach f pieces = do
      let results ← pieces.mapM fun piece => f.writeAll w.fd (Utf8.encode piece)
      return (results.map Except.isOk, w.having results) := by
  induction pieces generalizing w with
  | nil => rfl
  | cons piece pieces ih =>
    rw [writeEach, write_eq, List.mapM_cons]
    simp only [bind_assoc, pure_bind]
    congr 1
    funext result
    rw [ih]
    simp only [bind_assoc, pure_bind]
    congr 1
    funext results
    rw [List.map_cons, having_cons w result results]

/-- **A writer keeps the latest failure.** On any facade, sending pieces to one writer makes the
calls that writing all bytes of each piece makes, and the failure found in the writer afterwards is
that of the last piece that failed, if one did. Then it is forgotten. -/
theorem writer_keeps_latest_failure (f : Facade) (fd : Fd) (pieces : List String) :
    (do
      let (goods, w) ← Writer.writeEach f ⟨fd, none⟩ pieces
      return (goods, w.takeError.1, w.takeError.2.takeError.1)) =
    (do
      let results ← pieces.mapM fun piece => f.writeAll fd (Utf8.encode piece)
      return (results.map Except.isOk, latestFailure results, none)) ∧
    ∀ results : List (Except Error Unit),
      (latestFailure results = none ↔ ∀ r ∈ results, r = .ok ()) ∧
      ∀ e, latestFailure results = some e ↔
        ∃ before later, results = before ++ .error e :: later ∧ ∀ r ∈ later, r = .ok () := by
  refine ⟨?_, fun results => ⟨latestFailure_eq_none_iff, fun e => latestFailure_eq_some_iff⟩⟩
  rw [writeEach_eq, bind_assoc]
  congr 1
  funext results
  simp only [pure_bind, takeError, having, Option.or_none]

/-- Where writes stall, what is kept tells of the second piece and not of the first. -/
theorem later_failure_hides_first :
    let s : Machine := { Machine.initial with stalled := true }
    ((writeEach .hosted ⟨.stdout, none⟩ ["a", "bcd"]).run Machine.host s).outcome =
      .returned ([false, false], ⟨.stdout, some (.shortWrite 3)⟩) := by
  intro s
  let next := s.counted (.write .stdout (Utf8.encode "a"))
  have first : (Facade.hosted.writeAll .stdout (Utf8.encode "a")).run Machine.host s =
      ⟨_, .returned (.error (.shortWrite 1)), next⟩ :=
    Facade.run_writeAll_stalled (by decide) rfl
  have second : (Facade.hosted.writeAll .stdout (Utf8.encode "bcd")).run Machine.host next =
      ⟨_, .returned (.error (.shortWrite 3)), next.counted _⟩ :=
    Facade.run_writeAll_stalled (by decide) rfl
  simp only [writeEach, write_eq, having_fd, bind_assoc, pure_bind, Program.run_bind, first,
    Run.followedBy, second]
  rfl

end Writer

end Hostcall
