import Hostcall.Proofs.Facade.CapBlind

/-!
# Writing in pieces and writing at once

What `writeAll` leaves behind on a machine is what the machine without a cap takes at once
(`Takes`), but for the count of writes, and it succeeds if and only if that is possible
(`leaves_writeAll_iff`). What is taken in two pieces is taken joined, and the other way round
(`Takes.append`, `Takes.split`).
-/

namespace Hostcall.Machine

open Facade (hosted run_writeAll_nil run_writeAll_failed run_writeAll_stalled run_writeAll_more)

variable {m n : Machine} {fd : Fd} {data more : Bytes} {b c : Machine}

/-- The machine without a cap on writes and with no writes counted. -/
def unmetered (m : Machine) : Machine := m.recapped none 0

/-- Without cap and count, machines that differ in them are one. -/
theorem unmetered_recapped (m : Machine) (cap : Option Nat) (writes : Nat) :
    (m.recapped cap writes).unmetered = m.unmetered := rfl

/-- A machine without its meter takes bytes at once, and there is a machine that is so afterwards;
no bytes are taken whatever the machine. -/
inductive Takes (m : Machine) (fd : Fd) : Bytes → Machine → Prop where
  | nothing : Takes m fd [] m.unmetered
  | all {data : Bytes} {after : Machine} (offered : data ≠ []) (runs : m.stalled = false)
      (flows : m.writeCap ≠ some 0)
      (written : m.unmetered.write fd data = .ok (data.length, after)) : Takes m fd data after

/-- A write to a machine without its meter leaves one. -/
theorem unmetered_of_write {count : Nat} (h : m.unmetered.write fd data = .ok (count, b)) :
    b.unmetered = b := by
  cases wrote_of_write h <;> rfl

/-- Only what is unmetered and the ways in which writes fail tell what a machine takes. -/
theorem Takes.congr (h : Takes m fd data b) (same : n.unmetered = m.unmetered)
    (cap : n.writeCap = m.writeCap) : Takes n fd data b := by
  cases h with
  | nothing => exact same ▸ .nothing
  | all offered runs flows written =>
    have stalled : n.unmetered.stalled = m.unmetered.stalled := congrArg Machine.stalled same
    exact .all offered (stalled.trans runs) (cap ▸ flows) (same ▸ written)

/-- What takes data has no cap and no count left to look at. -/
theorem Takes.unmetered_eq (h : Takes m fd data b) : b.unmetered = b := by
  cases h with
  | nothing => rfl
  | all offered runs flows written => exact unmetered_of_write written

/-- What is taken after something was is taken together with it. -/
theorem Takes.append (first : Takes m fd data b) (reached : n.unmetered = b)
    (cap : n.writeCap = m.writeCap) (rest : Takes n fd more c) : Takes m fd (data ++ more) c := by
  cases first with
  | nothing => exact rest.congr reached.symm cap.symm
  | all offered runs flows written =>
    cases rest with
    | nothing =>
      rw [List.append_nil, reached]
      exact .all offered runs flows written
    | all _ _ _ latter =>
      rw [reached] at latter
      have joined := write_join (m := m.unmetered) rfl runs written latter
      rw [← List.length_append] at joined
      exact .all (List.append_ne_nil_of_left_ne_nil offered _) runs flows joined

/-- What is taken is taken in two pieces as well, one after the other. -/
theorem Takes.split (h : Takes m fd (data ++ more) c) :
    ∃ b, Takes m fd data b ∧
      ∀ n : Machine, n.unmetered = b → n.writeCap = m.writeCap → Takes n fd more c := by
  by_cases former : data = []
  · subst former
    exact ⟨m.unmetered, .nothing, fun n same cap => h.congr same cap⟩
  by_cases latter : more = []
  · subst latter
    rw [List.append_nil] at h
    refine ⟨c, h, fun n same _ => ?_⟩
    rw [← same]
    exact .nothing
  generalize whole : data ++ more = joined at h
  cases h with
  | nothing => exact absurd (List.append_eq_nil_iff.1 whole).1 former
  | all _ runs flows written =>
    subst whole
    obtain ⟨-, between, -, goes, first, second⟩ :=
      write_append (m := m.unmetered) rfl runs written
    refine ⟨between, .all former runs flows first, fun n same cap => ?_⟩
    have stalled : n.unmetered.stalled = between.stalled := congrArg Machine.stalled same
    exact .all latter (stalled.trans goes) (cap ▸ flows) (same ▸ second)

/-- A write is a write of the first bytes to the machine without its meter. -/
theorem answer_write (m : Machine) (fd : Fd) (data : Bytes) :
    host.answer (.write fd data) m =
      recap m.writeCap (m.calls.write + 1)
        (m.unmetered.settle (m.unmetered.write fd (m.capped data))) :=
  perform_write_recapped (m := m.unmetered) rfl m.writeCap m.calls.write fd data

/-- All bytes are written where they are taken. -/
theorem run_writeAll_of_takes (h : Takes m fd data b) :
    ∃ events writes, (hosted.writeAll fd data).run host m =
      ⟨events, .returned (.ok ()), b.recapped m.writeCap writes⟩ := by
  cases h with
  | nothing => exact ⟨[], m.calls.write, run_writeAll_nil host fd m⟩
  | all offered runs flows written =>
    have uncapped : m.uncapped.write fd data =
        .ok (data.length, b.recapped none m.calls.write) := by
      show (m.unmetered.recapped none m.calls.write).write fd data = _
      rw [write_recapped rfl, capped_of_free rfl, written]
      rfl
    obtain ⟨events, writes, ran⟩ := exists_run_writeAll runs flows offered uncapped
    exact ⟨events, writes, ran⟩

/-- A write that takes something takes the first bytes. -/
theorem takes_of_answer {count : Int} (answer : host.answer (.write fd data) m = (count, n))
    (taken : 0 < count) :
    Takes m fd (data.take count.toNat) n.unmetered ∧ n.writeCap = m.writeCap := by
  rw [answer_write] at answer
  cases written : m.unmetered.write fd (m.capped data) with
  | error e =>
    rw [written] at answer
    obtain rfl : -1 = count := congrArg Prod.fst answer
    contradiction
  | ok result =>
    obtain ⟨length, after⟩ := result
    rw [written] at answer
    obtain ⟨rfl, rfl⟩ : (length : Int) = count ∧
      after.recapped m.writeCap (m.calls.write + 1) = n := Prod.mk.inj answer
    have runs : m.stalled = false := by
      rw [← Bool.not_eq_true]
      intro stall
      have stuck := write_of_stalled (m := m.unmetered) stall written (m.capped data)
      rw [written] at stuck
      obtain rfl : length = 0 := congrArg Prod.fst (Except.ok.inj stuck)
      contradiction
    obtain rfl : length = (m.capped data).length := write_count (m := m.unmetered) rfl runs written
    have offered : m.capped data ≠ [] := by
      intro none
      simp [none] at taken
    have flows : m.writeCap ≠ some 0 := by
      intro zero
      simp [capped, zero] at offered
    refine ⟨?_, rfl⟩
    rw [Int.toNat_natCast, take_length_capped, unmetered_recapped, unmetered_of_write written]
    exact .all offered runs flows written

/-- All bytes are written only where they are taken. -/
theorem takes_of_run_writeAll {events : List Event}
    (ran : (hosted.writeAll fd data).run host m = ⟨events, .returned (.ok ()), n⟩) :
    Takes m fd data n.unmetered ∧ n.writeCap = m.writeCap := by
  induction h : data.length using Nat.strongRecOn generalizing data m events with
  | ind length ih =>
    by_cases offered : data = []
    · subst offered
      rw [run_writeAll_nil] at ran
      obtain rfl := congrArg Run.state ran
      exact ⟨.nothing, rfl⟩
    rcases answer : host.answer (.write fd data) m with ⟨count, next⟩
    rcases Int.lt_trichotomy count 0 with negative | rfl | taken
    · rw [run_writeAll_failed offered answer negative] at ran
      cases congrArg Run.outcome ran
    · rw [run_writeAll_stalled offered answer] at ran
      cases congrArg Run.outcome ran
    · -- The first write takes a piece, and the others what it has left.
      obtain ⟨first, cap⟩ := takes_of_answer answer taken
      rw [run_writeAll_more offered answer taken] at ran
      rcases later : (hosted.writeAll fd (data.drop count.toNat)).run host next
        with ⟨rest, outcome, last⟩
      rw [later] at ran
      obtain ⟨-, rfl, rfl⟩ := Run.mk.inj ran
      have shorter : (data.drop count.toNat).length < length := by
        have := List.length_pos_iff.2 offered
        rw [List.length_drop]
        omega
      obtain ⟨others, same⟩ := ih _ shorter later rfl
      have joined := first.append rfl cap others
      rw [List.take_append_drop] at joined
      exact ⟨joined, same.trans cap⟩

/-- A program succeeds and leaves a machine, whatever writes are counted there. -/
def Leaves (p : Program (Except Error Unit)) (m after : Machine) : Prop :=
  ∃ events writes, p.run host m =
    ⟨events, .returned (.ok ()), { after with calls := { after.calls with write := writes } }⟩

/-- Writing all bytes leaves the machine that has taken them. -/
theorem leaves_writeAll_iff :
    Leaves (hosted.writeAll fd data) m n ↔
      Takes m fd data n.unmetered ∧ n.writeCap = m.writeCap := by
  constructor
  · rintro ⟨events, writes, ran⟩
    exact takes_of_run_writeAll (n := n.recapped n.writeCap writes) ran
  · rintro ⟨takes, cap⟩
    obtain ⟨events, writes, ran⟩ := run_writeAll_of_takes takes
    rw [← cap] at ran
    exact ⟨events, writes, ran⟩

end Hostcall.Machine
