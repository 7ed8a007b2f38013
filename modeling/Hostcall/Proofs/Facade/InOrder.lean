import Hostcall.Facade.Writer

/-!
# Writes in order

Data is written one after the other, each whole, until one fails (`writeInOrder`). Formatted output
is the pieces of a value written in order: the failure that the writer keeps for it is the one that
stopped it, and a failure of the value itself changes nothing (`writeFormatted_eq`). So what holds
of formatted output is said of writes in order, and no statement about it looks into the writer.
-/

namespace Hostcall

namespace Program

variable {σ ε : Type} {host : Host σ} {s between : σ} {step : Program (Except ε Unit)}
  {steps : List (Program (Except ε Unit))} {before : List Event}

/-- After a step that succeeds the others go on from where it ends. -/
theorem run_inOrder_cons (steps : List (Program (Except ε Unit)))
    (succeeds : (step.run host s).outcome = .returned (.ok ())) :
    (inOrder (step :: steps)).run host s =
      ((inOrder steps).run host (step.run host s).state).after (step.run host s).events := by
  rw [inOrder, run_bind, Run.followedBy, succeeds]

/-- Steps in order succeed only if the first does. -/
theorem succeeds_of_inOrder_cons
    (returned : ((inOrder (step :: steps)).run host s).outcome = .returned (.ok ())) :
    (step.run host s).outcome = .returned (.ok ()) := by
  rw [inOrder, run_bind, Run.followedBy] at returned
  cases first : (step.run host s).outcome with
  | returned result =>
    rw [first] at returned
    cases result with
    | ok => rfl
    | error e => cases returned
  | stopped reason =>
    rw [first] at returned
    cases returned
  | crashed cause =>
    rw [first] at returned
    cases returned

/-- Nothing happens after a step that fails. -/
theorem run_inOrder_of_error {e : ε}
    (ran : step.run host s = ⟨before, .returned (.error e), between⟩)
    (steps : List (Program (Except ε Unit))) :
    (inOrder (step :: steps)).run host s = ⟨before, .returned (.error e), between⟩ := by
  rw [inOrder, run_bind, ran]
  show (⟨before ++ [], .returned (.error e), between⟩ : Run σ (Except ε Unit)) = _
  rw [List.append_nil]

/-- More steps after some are done where those succeed. -/
theorem inOrder_append (steps more : List (Program (Except ε Unit))) :
    inOrder (steps ++ more) = do
      match ← inOrder steps with
      | .ok () => inOrder more
      | .error e => return .error e := by
  induction steps with
  | nil => rfl
  | cons step steps ih =>
    simp only [List.cons_append, inOrder, LawfulMonad.bind_assoc]
    congr 1
    funext result
    cases result with
    | error e => rfl
    | ok => exact ih

/-- A step that is steps in order might as well be those steps. -/
theorem inOrder_cons_inOrder (steps more : List (Program (Except ε Unit))) :
    inOrder (inOrder steps :: more) = inOrder (steps ++ more) :=
  (inOrder_append steps more).symm

/-- Items whose steps come to the same do so together. -/
theorem inOrder_flatMap_congr {α : Type} {steps other : α → List (Program (Except ε Unit))}
    {items : List α} (same : ∀ item ∈ items, inOrder (steps item) = inOrder (other item)) :
    inOrder (items.flatMap steps) = inOrder (items.flatMap other) := by
  induction items with
  | nil => rfl
  | cons item items ih =>
    rw [List.flatMap_cons, List.flatMap_cons, inOrder_append, inOrder_append,
      same item List.mem_cons_self, ih fun later member => same later (List.mem_cons_of_mem _ member)]

end Program

/-- Writes data one after the other, each whole, until one fails. -/
def Facade.writeInOrder (f : Facade) (fd : Fd) (datas : List Bytes) :
    Program (Except Error Unit) :=
  Program.inOrder (datas.map (f.writeAll fd))

variable {f : Facade}

/-- Pieces that are sent while none fails are written in order, and the writer keeps the failure. -/
theorem Writer.writeWhile_eq (w : Writer) (pieces : List String) :
    w.writeWhile f pieces = do
      match ← f.writeInOrder w.fd (pieces.map Utf8.encode) with
      | .ok () => return (true, w)
      | .error e => return (false, { w with failure := some e }) := by
  induction pieces with
  | nil => rfl
  | cons piece pieces ih =>
    simp only [writeWhile, write, Facade.writeInOrder, List.map_cons, Program.inOrder, bind_assoc]
    congr 1
    funext result
    cases result with
    | error e => rfl
    | ok => exact ih

/-- Formatting is writing the pieces in order. -/
theorem Facade.writeFormatted_eq (f : Facade) (fd : Fd) (v : Formatted) :
    f.writeFormatted fd v = f.writeInOrder fd (v.pieces.map Utf8.encode) := by
  have forward : (f.writeInOrder fd (v.pieces.map Utf8.encode) >>= pure) =
      f.writeInOrder fd (v.pieces.map Utf8.encode) := bind_pure _
  rw [← forward, writeFormatted, Writer.writeWhile_eq, bind_assoc]
  congr 1
  funext result
  cases result with
  | error e => rfl
  | ok => cases v.fails <;> rfl

end Hostcall
