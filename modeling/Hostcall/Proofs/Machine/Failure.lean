import Hostcall.Proofs.Machine.Crowd

/-!
# Calls that fail

A call that reports a failure changes the error register and its own count, and nothing else: not
the machine and not the caller's buffer. The register then holds a number that the message table has
a text for. A call that does not fail leaves the register alone. Both hold of every call that answers
what it did, and so of every machine that gives a new descriptor a number that fits, whatever the
arguments are (`failure_changes_register_only`).
-/

namespace Hostcall.Machine

/-- Success leaves the register alone. -/
theorem Succeeded.errno_eq {m after : Machine} {request : Request} {reply : request.Reply}
    (h : Succeeded m request reply after) : after.errno = m.errno := by
  cases h with
  | write wrote => cases wrote <;> rfl
  | read read => cases read <;> rfl
  | openFile => rfl
  | close => rfl
  | unlink => rfl
  | mkdir => rfl
  | chdir => rfl
  | getcwd => rfl
  | lseek => rfl
  | errno => rfl
  | strerror => rfl
  | sleep => exact later_errno m _
  | usleep => exact later_errno m _

/-- The message table has a text for every reason. -/
theorem strerror_code (m : Machine) (e : SysError) :
    (m.perform (.strerror e.code)).1 = some (Utf8.encode e.text) := by
  simp [perform, respond]

/-- A call that reports a failure leaves all but the register and its count as it was, the caller's
buffer too, and sets the register to a number that has a text; one that does not leaves the
register. -/
structure Atomic (m : Machine) (request : Request) : Prop where
  fails : request.Fails (m.perform request).1 →
    request.KeepsBuffer (m.perform request).1 ∧
    ∃ code text, code ≠ 0 ∧
      (m.perform request).2 = { m with errno := code, calls := m.calls.add request } ∧
      ((m.perform request).2.perform (.strerror code)).1 = some text
  passes : ¬ request.Fails (m.perform request).1 → (m.perform request).2.errno = m.errno

/-- The number of a new descriptor is all that can keep a call from reporting what it did. -/
theorem TakesEffect.not_fails {m : Machine} {request : Request} (effect : m.TakesEffect request)
    (numbered : m.Numbered request) : ¬ request.Fails (m.perform request).1 := by
  rcases m.takesEffect_cases request with ⟨none, -⟩ | ⟨-, succeeded⟩
  · exact absurd effect none
  · exact succeeded.not_fails (m := m.counted request) numbered

/-- Where the new number fits, a call takes effect exactly when it is not answered with a
failure. -/
theorem takesEffect_iff {m : Machine} {request : Request} (numbered : m.Numbered request) :
    m.TakesEffect request ↔ ¬ request.Fails (m.perform request).1 :=
  ⟨fun effect => effect.not_fails numbered, .inl⟩

/-- While there is room for another descriptor, an open takes effect exactly when it is answered
with a number. -/
theorem opens_iff {m : Machine} (fits : m.files.next < CInt.bound) (name : CString)
    (flags : OpenFlags) (mode : Mode) :
    m.TakesEffect (.openFile name flags mode) ↔
      0 ≤ (m.perform (.openFile name flags mode)).1 :=
  have numbered : m.Numbered (.openFile name flags mode) := fits
  (takesEffect_iff numbered).trans Int.not_lt

/-- **Failures are atomic and the register is exact**, if and only if the answer reports no failure
of a call that takes effect. So it is where the number of a new descriptor fits. -/
theorem failure_changes_register_only (m : Machine) (request : Request) :
    (m.Atomic request ↔
      (m.TakesEffect request → ¬ request.Fails (m.perform request).1)) ∧
    (m.Numbered request → m.Atomic request) := by
  have exact_iff : m.Atomic request ↔
      (m.TakesEffect request → ¬ request.Fails (m.perform request).1) := by
    constructor
    · rintro ⟨fails, -⟩ (passes | changed) reported
      · exact passes reported
      · obtain ⟨-, code, text, -, after, -⟩ := fails reported
        rw [after] at changed
        exact changed rfl
    · intro told
      rcases m.takesEffect_cases request with ⟨-, reported, buffer, e, failed⟩ | ⟨effect, done⟩
      · refine ⟨fun _ => ⟨buffer, e.code, Utf8.encode e.text, e.code_ne_zero, failed, ?_⟩, ?_⟩
        · exact strerror_code _ e
        · exact fun passes => absurd reported passes
      · exact ⟨fun reported => absurd reported (told effect), fun _ => done.errno_eq⟩
  exact ⟨exact_iff, fun numbered => exact_iff.2 fun effect => effect.not_fails numbered⟩

/-- With as many descriptors open as can be numbered, an open reports a failure and has created the
file. -/
theorem Crowd.not_atomic {m : Machine} (crowd : m.Crowd CInt.bound) :
    (openAt "/g").Fails (m.perform (openAt "/g")).1 ∧ m.tree.get? "/g" = none ∧
      (m.perform (openAt "/g")).2.tree.get? "/g" = some (.file .empty 0o644) ∧
      ¬ m.Atomic (openAt "/g") := by
  have fails : (openAt "/g").Fails (m.perform (openAt "/g")).1 := by
    rw [crowd.perform_openAt]
    exact (by decide : (-2147483648 : Int) < 0)
  have absent : m.tree.get? "/g" = none := by
    rw [crowd.tree]
    decide
  have created : (m.perform (openAt "/g")).2.tree.get? "/g" = some (.file .empty 0o644) := by
    rw [crowd.perform_openAt, Tree.get?_put, if_pos rfl]
  refine ⟨fails, absent, created, fun atomic => ?_⟩
  obtain ⟨-, code, text, -, unchanged, -⟩ := atomic.fails fails
  rw [unchanged] at created
  exact nomatch absent.symm.trans created

theorem not_atomic_after_crowding :
    (openAt "/g").Fails ((initial.after crowding).perform (openAt "/g")).1 ∧
      ¬ (initial.after crowding).Atomic (openAt "/g") :=
  ⟨crowd_crowding.not_atomic.1, crowd_crowding.not_atomic.2.2.2⟩

end Hostcall.Machine
