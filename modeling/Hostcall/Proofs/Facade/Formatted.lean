import Hostcall.Proofs.Facade.InOrder
import Hostcall.Proofs.Facade.Joined

/-!
# Formatted output in order

On any host, writing data in order runs as writing all of each that was written and then of the
first that failed, if one did, and nothing happens after it (`Sending`). So what was accepted is a
prefix of the data joined, and is all of it if and only if the result is no error
(`Sending.delivered`). On a machine the data might as well have been written joined
(`leaves_writeInOrder_iff`). Formatted output is such writes
(`formatted_output_stops_at_first_failure`).
-/

namespace Hostcall

namespace Facade

variable {σ : Type} {host : Host σ} {fd : Fd} {data : Bytes} {datas done rest : List Bytes}
  {s between after : σ} {before events later : List Event} {result : Except Error Unit} {e : Error}

/-- Data that was written one after the other, each whole. -/
inductive Written (host : Host σ) (fd : Fd) : List Bytes → σ → List Event → σ → Prop where
  | nil {s : σ} : Written host fd [] s [] s
  | cons {data : Bytes} {datas : List Bytes} {s between after : σ} {before later : List Event}
      (ran : (hosted.writeAll fd data).run host s = ⟨before, .returned (.ok ()), between⟩)
      (rest : Written host fd datas between later after) :
      Written host fd (data :: datas) s (before ++ later) after

/-- How data is written in order: all of it is, or it stops at the first that fails. -/
inductive Sending (host : Host σ) (fd : Fd) (datas : List Bytes) (s : σ) :
    List Event → Except Error Unit → σ → Prop where
  | all {events : List Event} {after : σ} (written : Written host fd datas s events after) :
      Sending host fd datas s events (.ok ()) after
  | stopped {done rest : List Bytes} {data : Bytes} {before last : List Event} {between after : σ}
      {e : Error} (split : datas = done ++ data :: rest)
      (written : Written host fd done s before between)
      (failed : (hosted.writeAll fd data).run host between =
        ⟨last, .returned (.error e), after⟩) :
      Sending host fd datas s (before ++ last) (.error e) after

/-- A piece that is written whole is followed by the rest. -/
theorem run_writeInOrder_of_ok
    (ran : (hosted.writeAll fd data).run host s = ⟨before, .returned (.ok ()), between⟩)
    (datas : List Bytes) :
    (hosted.writeInOrder fd (data :: datas)).run host s =
      ((hosted.writeInOrder fd datas).run host between).after before := by
  have run := Program.run_inOrder_cons (datas.map (hosted.writeAll fd)) (congrArg Run.outcome ran)
  rw [ran] at run
  exact run

/-- A piece that fails is the last. -/
theorem run_writeInOrder_of_error
    (ran : (hosted.writeAll fd data).run host s = ⟨before, .returned (.error e), between⟩)
    (datas : List Bytes) :
    (hosted.writeInOrder fd (data :: datas)).run host s =
      ⟨before, .returned (.error e), between⟩ :=
  Program.run_inOrder_of_error ran _

/-- What was written leads to where the rest is written. -/
theorem Written.run_append (h : Written host fd done s before between) (rest : List Bytes) :
    (hosted.writeInOrder fd (done ++ rest)).run host s =
      ((hosted.writeInOrder fd rest).run host between).after before := by
  induction h with
  | nil => rfl
  | cons ran _ ih =>
    rw [List.cons_append, run_writeInOrder_of_ok ran, ih]
    simp only [Run.after, List.append_assoc]

/-- What is sent is what the run does. -/
theorem Sending.run_eq (h : Sending host fd datas s events result after) :
    (hosted.writeInOrder fd datas).run host s = ⟨events, .returned result, after⟩ := by
  cases h with
  | all written =>
    have run := written.run_append []
    rw [List.append_nil] at run
    rw [run]
    show (⟨events ++ [], .returned (.ok ()), after⟩ : Run σ (Except Error Unit)) = _
    rw [List.append_nil]
  | stopped split written failed =>
    rw [split, written.run_append, run_writeInOrder_of_error failed]
    rfl

/-- On any host the data is written in one of the two ways. -/
theorem exists_sending (host : Host σ) (fd : Fd) (datas : List Bytes) (s : σ) :
    ∃ events result after, Sending host fd datas s events result after := by
  induction datas generalizing s with
  | nil => exact ⟨[], .ok (), s, .all .nil⟩
  | cons data datas ih =>
    obtain ⟨before, result, between, ran, -⟩ := writeAll_delivers host fd data s
    cases result with
    | error e => exact ⟨_, _, between, .stopped (List.nil_append _).symm .nil ran⟩
    | ok =>
      obtain ⟨later, result, after, sending⟩ := ih between
      cases sending with
      | all written => exact ⟨_, _, after, .all (.cons ran written)⟩
      | stopped split written failed =>
        refine ⟨_, _, after, .stopped (congrArg (data :: ·) split) (.cons ran written) failed⟩

/-- Each piece is delivered as all bytes are. -/
theorem delivery_of_run
    (ran : (hosted.writeAll fd data).run host s = ⟨events, .returned result, after⟩) :
    Delivery fd data events result := by
  obtain ⟨other, outcome, delivery⟩ := exists_delivery host fd data s
  rw [ran] at outcome delivery
  obtain rfl := Outcome.returned.inj outcome
  exact delivery

/-- No write follows one that takes nothing, and the result is an error then. -/
theorem Delivery.halts (h : Delivery fd data events result) {earlier later : List Write} {w : Write}
    (hw : writes events = earlier ++ w :: later) (nothing : w.reply ≤ 0) :
    later = [] ∧ result ≠ .ok () := by
  induction h generalizing earlier with
  | last ending =>
    cases ending with
    | done => simp at hw
    | failed =>
      simp [List.singleton_eq_append_iff] at hw
      exact ⟨hw.2.2, nofun⟩
    | stalled =>
      simp [List.singleton_eq_append_iff] at hw
      exact ⟨hw.2.2, nofun⟩
  | more offered taken rest ih =>
    cases earlier with
    | nil =>
      obtain ⟨rfl, -⟩ := List.cons.inj hw
      exact absurd nothing (Int.not_le.2 taken)
    | cons first earlier =>
      obtain ⟨-, hrest⟩ := List.cons.inj hw
      exact ih hrest

/-- What was written has taken the data joined. -/
theorem Written.accepted_eq (h : Written host fd datas s events after) :
    accepted (writes events) = datas.flatten := by
  induction h with
  | nil => rfl
  | cons ran rest ih =>
    rw [writes_append, accepted_append, ih, (delivery_of_run ran).ok_iff.1 rfl, List.flatten_cons]

/-- What was written has taken something with each write. -/
theorem Written.taken (h : Written host fd datas s events after) {w : Write}
    (hw : w ∈ writes events) : 0 < w.reply := by
  induction h with
  | nil => cases hw
  | cons ran rest ih =>
    rw [writes_append] at hw
    rcases List.mem_append.1 hw with hw | hw
    · obtain ⟨earlier, later, split⟩ := List.append_of_mem hw
      exact Int.not_le.1 fun nothing => ((delivery_of_run ran).halts split nothing).2 rfl
    · exact ih hw

theorem Delivery.target (h : Delivery fd data events result) {w : Write} (hw : w ∈ writes events) :
    w.fd = fd := by
  obtain ⟨earlier, later, split⟩ := List.append_of_mem hw
  exact (h.offers split).1

theorem Written.target (h : Written host fd datas s events after) {w : Write}
    (hw : w ∈ writes events) : w.fd = fd := by
  induction h with
  | nil => cases hw
  | cons ran rest ih =>
    rw [writes_append] at hw
    rcases List.mem_append.1 hw with hw | hw
    · exact (delivery_of_run ran).target hw
    · exact ih hw

/-- What a delivery that fails has accepted is a part of the data, and not all of it. -/
theorem Delivery.accepted_of_error (h : Delivery fd data events (.error e)) :
    ∃ left, left ≠ [] ∧ accepted (writes events) ++ left = data := by
  obtain ⟨before, left, last, -, -, split, ending⟩ := h.ends
  cases ending with
  | failed offered => exact ⟨left, offered, split⟩
  | stalled offered => exact ⟨left, offered, split⟩

/-- What a run over several data has done with them, and what its result says of it. -/
structure DeliveredInOrder (host : Host σ) (fd : Fd) (datas : List Bytes) (s : σ)
    (events : List Event) (result : Except Error Unit) : Prop where
  target : ∀ w ∈ writes events, w.fd = fd
  accepts : ∀ earlier later, writes events = earlier ++ later → accepted earlier <+: datas.flatten
  ok_iff : result = .ok () ↔ accepted (writes events) = datas.flatten
  /-- The error is that of the first data that failed, and nothing happened after it. -/
  error_iff : ∀ e, result = .error e ↔
    ∃ done data rest before between last after, datas = done ++ data :: rest ∧
      Written host fd done s before between ∧
      (hosted.writeAll fd data).run host between = ⟨last, .returned (.error e), after⟩ ∧
      events = before ++ last
  halts : ∀ earlier w later, writes events = earlier ++ w :: later → w.reply ≤ 0 →
    later = [] ∧ result ≠ .ok ()

/-- What was accepted, and what was left of the data joined. -/
theorem Sending.accepted_append (h : Sending host fd datas s events result after) :
    ∃ left, accepted (writes events) ++ left = datas.flatten ∧ (result = .ok () ↔ left = []) := by
  cases h with
  | all written => exact ⟨[], by rw [List.append_nil, written.accepted_eq], by simp⟩
  | @stopped done rest data before last between after e split written failed =>
    obtain ⟨left, some, whole⟩ := (delivery_of_run failed).accepted_of_error
    refine ⟨left ++ rest.flatten, ?_, by simp [some]⟩
    rw [writes_append, Facade.accepted_append, written.accepted_eq, split, List.flatten_append,
      List.flatten_cons, ← whole]
    simp only [List.append_assoc]

/-- All that is sent goes to one descriptor. -/
theorem Sending.target (h : Sending host fd datas s events result after) {w : Write}
    (hw : w ∈ writes events) : w.fd = fd := by
  cases h with
  | all written => exact written.target hw
  | stopped split written failed =>
    rw [writes_append] at hw
    rcases List.mem_append.1 hw with hw | hw
    · exact written.target hw
    · exact (delivery_of_run failed).target hw

/-- After a write that takes nothing there is no other. -/
theorem Sending.halts (h : Sending host fd datas s events result after) {earlier later : List Write}
    {w : Write} (hw : writes events = earlier ++ w :: later) (nothing : w.reply ≤ 0) :
    later = [] ∧ result ≠ .ok () := by
  cases h with
  | all written =>
    have taken := written.taken (hw ▸ List.mem_append_right earlier List.mem_cons_self)
    exact absurd nothing (Int.not_le.2 taken)
  | @stopped done rest data before last gap after e split written failed =>
    rw [writes_append] at hw
    rcases List.append_eq_append_iff.1 hw with ⟨between, -, hlast⟩ | ⟨between, hbefore, hlast⟩
    · exact ⟨((delivery_of_run failed).halts hlast nothing).1, nofun⟩
    · cases between with
      | nil =>
        have first : writes last = [] ++ w :: later := hlast.symm
        exact ⟨((delivery_of_run failed).halts first nothing).1, nofun⟩
      | cons first between =>
        obtain ⟨rfl, -⟩ := List.cons.inj hlast
        have taken := written.taken (hbefore ▸ List.mem_append_right earlier List.mem_cons_self)
        exact absurd nothing (Int.not_le.2 taken)

/-- Sending fails with the error of the first piece that fails. -/
theorem Sending.error_iff (h : Sending host fd datas s events result after) (e : Error) :
    result = .error e ↔
      ∃ done data rest before between last after, datas = done ++ data :: rest ∧
        Written host fd done s before between ∧
        (hosted.writeAll fd data).run host between = ⟨last, .returned (.error e), after⟩ ∧
        events = before ++ last := by
  constructor
  · rintro rfl
    cases h with
    | stopped split written failed => exact ⟨_, _, _, _, _, _, _, split, written, failed, rfl⟩
  · rintro ⟨done, data, rest, before, between, last, after, split, written, failed, -⟩
    have other := (Sending.stopped split written failed).run_eq
    rw [h.run_eq] at other
    exact Outcome.returned.inj (congrArg Run.outcome other)

/-- From what is sent, all is read off that is said of pieces in order. -/
theorem Sending.delivered (h : Sending host fd datas s events result after) :
    DeliveredInOrder host fd datas s events result where
  target _ hw := h.target hw
  accepts earlier later split := by
    obtain ⟨left, whole, -⟩ := h.accepted_append
    rw [split, Facade.accepted_append, List.append_assoc] at whole
    exact ⟨_, whole⟩
  ok_iff := by
    obtain ⟨left, whole, fine⟩ := h.accepted_append
    rw [fine, ← whole]
    exact List.self_eq_append_right.symm
  error_iff := h.error_iff
  halts _ _ _ hw nothing := h.halts hw nothing

end Facade

namespace Machine

open Facade (hosted Written Sending)

variable {m n : Machine} {fd : Fd} {datas : List Bytes} {events : List Event} {b : Machine}

/-- What is written piece by piece is taken as one, whatever the cap. -/
theorem takes_of_written (written : Written host fd datas m events n) :
    Takes m fd datas.flatten n.unmetered ∧ n.writeCap = m.writeCap := by
  induction written with
  | nil => exact ⟨.nothing, rfl⟩
  | cons ran rest ih =>
    obtain ⟨first, cap⟩ := takes_of_run_writeAll ran
    obtain ⟨others, same⟩ := ih
    exact ⟨first.append rfl cap others, same.trans cap⟩

/-- What is taken as one can be written piece by piece. -/
theorem written_of_takes (takes : Takes m fd datas.flatten b) :
    ∃ events writes, Written host fd datas m events (b.recapped m.writeCap writes) := by
  induction datas generalizing m with
  | nil =>
    rw [List.flatten_nil] at takes
    cases takes with
    | nothing => exact ⟨[], m.calls.write, .nil⟩
    | all offered => contradiction
  | cons data datas ih =>
    obtain ⟨between, first, others⟩ := takes.split
    obtain ⟨before, writes, ran⟩ := run_writeAll_of_takes first
    obtain ⟨later, more, rest⟩ :=
      ih (others (between.recapped m.writeCap writes) first.unmetered_eq rfl)
    exact ⟨_, more, .cons ran rest⟩

/-- In order or joined, data that is written leaves the same machine. -/
theorem leaves_writeInOrder_iff :
    Leaves (hosted.writeInOrder fd datas) m n ↔ Leaves (hosted.writeAll fd datas.flatten) m n := by
  rw [leaves_writeAll_iff]
  constructor
  · rintro ⟨events, writes, ran⟩
    obtain ⟨events', result, after, sending⟩ := Facade.exists_sending host fd datas m
    rw [sending.run_eq] at ran
    obtain ⟨rfl, same, rfl⟩ := Run.mk.inj ran
    cases sending with
    | stopped => cases same
    | all written => exact takes_of_written (n := n.recapped n.writeCap writes) written
  · rintro ⟨takes, cap⟩
    obtain ⟨events, writes, written⟩ := written_of_takes takes
    have ran := (Sending.all written).run_eq
    rw [← cap] at ran
    exact ⟨events, writes, ran⟩

end Machine

namespace Facade

/-- **Formatted output is delivered in order and stops at the first failure**, on any host. What was
accepted is a prefix of the pieces joined at every moment; the result is no error if and only if it
is all of them, and else it is the error of the first piece that failed. On a machine it comes to
the same as writing all of the pieces joined. -/
theorem formatted_output_stops_at_first_failure (fd : Fd) (v : Formatted) :
    (∀ {σ : Type} (host : Host σ) (s : σ), ∃ events result after,
      (hosted.writeFormatted fd v).run host s = ⟨events, .returned result, after⟩ ∧
        DeliveredInOrder host fd (v.pieces.map Utf8.encode) s events result) ∧
    ∀ m after : Machine, Machine.Leaves (hosted.writeFormatted fd v) m after ↔
      Machine.Leaves (hosted.writeAll fd (v.pieces.flatMap Utf8.encode)) m after := by
  rw [writeFormatted_eq]
  constructor
  · intro σ host s
    obtain ⟨events, result, after, sending⟩ := exists_sending host fd (v.pieces.map Utf8.encode) s
    exact ⟨events, result, after, sending.run_eq, sending.delivered⟩
  · intro m after
    rw [List.flatMap_def]
    exact Machine.leaves_writeInOrder_iff

end Facade

end Hostcall
