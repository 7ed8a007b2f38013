import Hostcall.Facade.Derived

/-!
# Writing everything

A host takes what it is offered in parts, and may fail or take nothing at any of them. A run of
`writeAll` is a `Delivery`: writes that each took something, and an ending (`exists_delivery`).
Nothing is assumed about the host, so the statements hold of every order of partial writes,
failures and counts past what was offered. Main statement: what was accepted and what the result
says fit together, and no byte is lost or offered twice (`writeAll_delivers`).
-/

namespace Hostcall.Facade

variable {σ : Type} {fd : Fd} {data : Bytes} {events : List Event} {result : Except Error Unit}

/-- A write with what it offered and how it was answered. -/
structure Write where
  fd : Fd
  data : Bytes
  reply : Int

/-- The bytes that a write took: as many from the front as was answered, all if that is more than
was offered, and none if it failed. -/
def Write.accepted (w : Write) : Bytes := w.data.take w.reply.toNat

/-- The writes among the events of a run. -/
def writes (events : List Event) : List Write :=
  events.filterMap fun
    | .asked (.write fd data) n => some ⟨fd, data, n⟩
    | _ => none

/-- The bytes that some writes took, one after the other. -/
def accepted (ws : List Write) : Bytes := ws.flatMap Write.accepted

@[simp] theorem writes_append (events later : List Event) :
    writes (events ++ later) = writes events ++ writes later := List.filterMap_append

@[simp] theorem writes_nil : writes [] = [] := rfl

@[simp] theorem writes_write (fd : Fd) (data : Bytes) (n : Int) (events : List Event) :
    writes (.asked (.write fd data) n :: events) = ⟨fd, data, n⟩ :: writes events := rfl

@[simp] theorem writes_errno (code : Int) (events : List Event) :
    writes (.asked .errno code :: events) = writes events := rfl

@[simp] theorem writes_noted (entry : LogEntry) (events : List Event) :
    writes (.noted entry :: events) = writes events := rfl

@[simp] theorem accepted_nil : accepted [] = [] := rfl

@[simp] theorem accepted_cons (w : Write) (ws : List Write) :
    accepted (w :: ws) = w.accepted ++ accepted ws := List.flatMap_cons

@[simp] theorem accepted_append (ws more : List Write) :
    accepted (ws ++ more) = accepted ws ++ accepted more := List.flatMap_append

/-- A write that fails or stalls has taken nothing. -/
theorem Write.accepted_of_nonpos {w : Write} (h : w.reply ≤ 0) : w.accepted = [] := by
  rw [Write.accepted, Int.toNat_of_nonpos h, List.take_zero]

/-- How a run ends that has the bytes `data` left: there are none, or a write fails or takes
nothing. -/
inductive Ending (fd : Fd) : Bytes → List Event → Except Error Unit → Prop where
  | done : Ending fd [] [] (.ok ())
  | failed {data : Bytes} {n code : Int} (offered : data ≠ []) (negative : n < 0) :
      Ending fd data
        [.asked (.write fd data) n, .asked .errno code,
          .noted ⟨.trace, "write" ++ " failed: " ++ (Errno.mk code).text⟩]
        (.error (.host ⟨code⟩))
  | stalled {data : Bytes} (offered : data ≠ []) :
      Ending fd data
        [.asked (.write fd data) (0 : Int),
          .noted ⟨.trace,
            "write_all: " ++ fd.text ++ " stalled with " ++ toString data.length ++ " bytes left"⟩]
        (.error (.shortWrite data.length))

/-- A run that has the bytes `data` left. -/
inductive Delivery (fd : Fd) : Bytes → List Event → Except Error Unit → Prop where
  | last {data : Bytes} {events : List Event} {result : Except Error Unit}
      (ending : Ending fd data events result) : Delivery fd data events result
  | more {data : Bytes} {events : List Event} {result : Except Error Unit} {n : Int}
      (offered : data ≠ []) (taken : 0 < n) (rest : Delivery fd (data.drop n.toNat) events result) :
      Delivery fd data (.asked (.write fd data) n :: events) result

/-- A negative answer is turned into the reason in the register, and logged. -/
theorem run_checked (host : Host σ) (operation : String) (n : Int) (s : σ) :
    (checked operation n).run host s =
      if n < 0 then
        ⟨[.asked .errno (host.answer .errno s).1,
            .noted ⟨.trace, operation ++ " failed: " ++ (Errno.mk (host.answer .errno s).1).text⟩],
          .returned (.error (.host ⟨(host.answer .errno s).1⟩)), (host.answer .errno s).2⟩
      else ⟨[], .returned (.ok n.toNat), s⟩ := by
  unfold checked
  split <;> rfl

/-- A write of something is one call, and its answer is checked. -/
theorem run_write (host : Host σ) (fd : Fd) (offered : data ≠ []) (s : σ) :
    (hosted.write fd data).run host s =
      ((checked "write" (host.answer (.write fd data) s).1).run host
        (host.answer (.write fd data) s).2).after
          [.asked (.write fd data) (host.answer (.write fd data) s).1] := by
  simp only [hosted, if_neg offered]
  rfl

/-- To write nothing, the host is not asked. -/
theorem run_writeAll_nil (host : Host σ) (fd : Fd) (s : σ) :
    (hosted.writeAll fd []).run host s = ⟨[], .returned (.ok ()), s⟩ := by
  rw [writeAll]
  rfl

section

variable {host : Host σ} {s next : σ} {n : Int}

/-- A first write that fails is the end, with its reason. -/
theorem run_writeAll_failed (offered : data ≠ [])
    (answer : host.answer (.write fd data) s = (n, next)) (negative : n < 0) :
    (hosted.writeAll fd data).run host s =
      ⟨[.asked (.write fd data) n, .asked .errno (host.answer .errno next).1,
          .noted ⟨.trace,
            "write" ++ " failed: " ++ (Errno.mk (host.answer .errno next).1).text⟩],
        .returned (.error (.host ⟨(host.answer .errno next).1⟩)), (host.answer .errno next).2⟩ := by
  rw [writeAll, dif_neg offered, Program.run_bind, run_write host fd offered, run_checked, answer,
    if_pos negative]
  rfl

/-- A first write that takes nothing is the end, with all left. -/
theorem run_writeAll_stalled (offered : data ≠ [])
    (answer : host.answer (.write fd data) s = ((0 : Int), next)) :
    (hosted.writeAll fd data).run host s =
      ⟨[.asked (.write fd data) (0 : Int),
          .noted ⟨.trace,
            "write_all: " ++ fd.text ++ " stalled with " ++ toString data.length ++ " bytes left"⟩],
        .returned (.error (.shortWrite data.length)), next⟩ := by
  rw [writeAll, dif_neg offered, Program.run_bind, run_write host fd offered, run_checked, answer]
  rfl

/-- A first write that takes something is followed by those of the rest. -/
theorem run_writeAll_more (offered : data ≠ [])
    (answer : host.answer (.write fd data) s = (n, next)) (taken : 0 < n) :
    (hosted.writeAll fd data).run host s =
      ((hosted.writeAll fd (data.drop n.toNat)).run host next).after
        [.asked (.write fd data) n] := by
  have hn : n.toNat ≠ 0 := by omega
  rw [writeAll, dif_neg offered, Program.run_bind, run_write host fd offered, run_checked, answer,
    if_neg (Int.lt_asymm taken)]
  simp only [Run.after, Run.followedBy, dif_neg hn, List.append_nil]

end

/-- Whatever a host answers, the run comes to an end and returns. -/
theorem exists_delivery (host : Host σ) (fd : Fd) (data : Bytes) (s : σ) :
    ∃ result, ((hosted.writeAll fd data).run host s).outcome = .returned result ∧
      Delivery fd data ((hosted.writeAll fd data).run host s).events result := by
  induction h : data.length using Nat.strongRecOn generalizing data s with
  | ind length ih =>
    by_cases hdata : data = []
    · subst hdata
      rw [run_writeAll_nil]
      exact ⟨.ok (), rfl, .last .done⟩
    rcases answer : host.answer (.write fd data) s with ⟨n, next⟩
    rcases Int.lt_trichotomy n 0 with negative | rfl | taken
    · rw [run_writeAll_failed hdata answer negative]
      exact ⟨_, rfl, .last (.failed hdata negative)⟩
    · rw [run_writeAll_stalled hdata answer]
      exact ⟨_, rfl, .last (.stalled hdata)⟩
    · have hlength : (data.drop n.toNat).length < length := by
        have := List.length_pos_iff.2 hdata
        rw [List.length_drop]
        omega
      obtain ⟨result, houtcome, hrest⟩ := ih _ hlength (data.drop n.toNat) next rfl
      rw [run_writeAll_more hdata answer taken]
      exact ⟨result, houtcome, .more hdata taken hrest⟩

/-- An ending has one write that takes nothing, or there is nothing left to write. -/
theorem Ending.writes_cases (h : Ending fd data events result) :
    (data = [] ∧ writes events = [] ∧ result = .ok ()) ∨
      (data ≠ [] ∧ ∃ n, n ≤ 0 ∧ writes events = [⟨fd, data, n⟩]) := by
  cases h with
  | done => exact .inl ⟨rfl, rfl, rfl⟩
  | failed offered negative => exact .inr ⟨offered, _, Int.le_of_lt negative, rfl⟩
  | stalled offered => exact .inr ⟨offered, 0, Int.le_refl 0, rfl⟩

/-- How writing all bytes ends adds nothing to what was taken. -/
theorem Ending.accepted_eq_nil (h : Ending fd data events result) :
    accepted (writes events) = [] := by
  rcases h.writes_cases with ⟨-, hwrites, -⟩ | ⟨-, n, hn, hwrites⟩
  · rw [hwrites, accepted_nil]
  · rw [hwrites, accepted_cons, Write.accepted_of_nonpos hn]
    rfl

/-- Each write takes something as long as the run goes on. -/
theorem Delivery.length_writes_le (h : Delivery fd data events result) :
    (writes events).length ≤ data.length := by
  induction h with
  | last ending =>
    rcases ending.writes_cases with ⟨-, hwrites, -⟩ | ⟨hdata, n, -, hwrites⟩
    · simp [hwrites]
    · rw [hwrites]
      exact List.length_pos_iff.2 hdata
  | more offered taken rest ih =>
    have := List.length_pos_iff.2 offered
    rw [List.length_drop] at ih
    rw [writes_write, List.length_cons]
    omega

/-- Each write offers what the writes before it have left. -/
theorem Delivery.offers (h : Delivery fd data events result) {before later : List Write} {w : Write}
    (hw : writes events = before ++ w :: later) :
    w.fd = fd ∧ w.data = data.drop (accepted before).length := by
  induction h generalizing before with
  | last ending =>
    rcases ending.writes_cases with ⟨-, hwrites, -⟩ | ⟨-, n, -, hwrites⟩
    · simp [hwrites] at hw
    · rw [hwrites] at hw
      cases before with
      | nil =>
        obtain ⟨rfl, -⟩ := List.cons.inj hw
        exact ⟨rfl, rfl⟩
      | cons first before => simp at hw
  | @more data events result n offered taken rest ih =>
    cases before with
    | nil =>
      obtain ⟨rfl, -⟩ := List.cons.inj hw
      exact ⟨rfl, rfl⟩
    | cons first before =>
      obtain ⟨rfl, hrest⟩ := List.cons.inj hw
      obtain ⟨hfd, hdata⟩ := ih hrest
      refine ⟨hfd, ?_⟩
      rw [hdata, accepted_cons, List.length_append, Write.accepted, List.length_take,
        List.drop_drop]
      rcases Nat.le_total n.toNat data.length with hle | hle
      · rw [Nat.min_eq_left hle]
      · rw [Nat.min_eq_right hle, List.drop_eq_nil_of_le (by omega),
          List.drop_eq_nil_of_le (by omega)]

/-- A run is writes that took something, and then an ending with what they left. -/
theorem Delivery.ends (h : Delivery fd data events result) :
    ∃ before rest last, events = before ++ last ∧ (∀ w ∈ writes before, 0 < w.reply) ∧
      accepted (writes events) ++ rest = data ∧ Ending fd rest last result := by
  induction h with
  | @last data events result ending =>
    exact ⟨[], data, events, rfl, by simp, by rw [ending.accepted_eq_nil, List.nil_append], ending⟩
  | @more data events result n offered taken rest ih =>
    obtain ⟨before, left, last, hevents, htaken, haccepted, ending⟩ := ih
    refine ⟨.asked (.write fd data) n :: before, left, last, by rw [hevents]; rfl, ?_, ?_, ending⟩
    · intro w hw
      rcases List.mem_cons.1 hw with rfl | hw
      · exact taken
      · exact htaken w hw
    · rw [writes_write, accepted_cons, List.append_assoc, haccepted]
      exact List.take_append_drop n.toNat data

/-- A count past what was offered ends the run like a full one. -/
theorem Delivery.of_excess (h : Delivery fd data events result) {w : Write}
    (hw : w ∈ writes events) (excess : w.data.length < w.reply) :
    result = .ok () ∧ (writes events).getLast? = some w := by
  induction h with
  | last ending =>
    rcases ending.writes_cases with ⟨-, hwrites, -⟩ | ⟨-, n, hn, hwrites⟩
    · simp [hwrites] at hw
    · rw [hwrites] at hw
      obtain rfl := List.mem_singleton.1 hw
      simp only at excess
      omega
  | @more data events result n offered taken rest ih =>
    rcases List.mem_cons.1 hw with rfl | hw
    · -- Nothing is left, so nothing more is offered.
      have hnil : data.drop n.toNat = [] := List.drop_eq_nil_of_le (by simp only at excess; omega)
      rw [hnil] at rest
      cases rest with
      | last ending =>
        rcases ending.writes_cases with ⟨-, hwrites, hresult⟩ | ⟨offered, -⟩
        · exact ⟨hresult, by rw [writes_write, hwrites]; rfl⟩
        · contradiction
      | more offered => contradiction
    · obtain ⟨hresult, hlast⟩ := ih hw
      refine ⟨hresult, ?_⟩
      rw [writes_write, List.getLast?_cons, hlast]
      rfl

/-- What a run has done with the bytes that it was to write, and what its result says of it. -/
structure Delivered (fd : Fd) (data : Bytes) (events : List Event) (result : Except Error Unit) :
    Prop where
  few : (writes events).length ≤ data.length
  offers : ∀ before w later, writes events = before ++ w :: later →
    w.fd = fd ∧ w.data = data.drop (accepted before).length
  results : result = .ok () ∨ (∃ left, result = .error (.shortWrite left)) ∨
    ∃ e, result = .error (.host e)
  ok_iff : result = .ok () ↔ accepted (writes events) = data
  short_iff : (∃ left, result = .error (.shortWrite left)) ↔ ∃ w ∈ writes events, w.reply = 0
  short : ∀ left, result = .error (.shortWrite left) →
    0 < left ∧ left ≤ data.length ∧ accepted (writes events) = data.take (data.length - left)
  host_iff : (∃ e, result = .error (.host e)) ↔ ∃ w ∈ writes events, w.reply < 0
  /-- The register is read right after the call that failed, and then no more is written. -/
  host : ∀ e, result = .error (.host e) →
    accepted (writes events) <+: data ∧ accepted (writes events) ≠ data ∧
      ∃ before left n entry, n < 0 ∧
        events = before ++ [.asked (.write fd left) n, .asked .errno e.code, .noted entry]
  excess : ∀ w ∈ writes events, w.data.length < w.reply →
    result = .ok () ∧ (writes events).getLast? = some w

theorem ne_of_append_eq {taken rest : Bytes} (h : taken ++ rest = data) (hrest : rest ≠ []) :
    taken ≠ data := by
  rintro rfl
  exact hrest (List.append_right_eq_self.1 h)

/-- A write that took nothing is the one of the ending. -/
theorem exists_reply_iff {before last : List Event} (taken : ∀ w ∈ writes before, 0 < w.reply)
    {p : Int → Prop} (hp : ∀ n, p n → n ≤ 0) :
    (∃ w ∈ writes (before ++ last), p w.reply) ↔ ∃ w ∈ writes last, p w.reply := by
  rw [writes_append]
  constructor
  · rintro ⟨w, hw, hpw⟩
    rcases List.mem_append.1 hw with hw | hw
    · exact absurd (hp _ hpw) (Int.not_le.2 (taken w hw))
    · exact ⟨w, hw, hpw⟩
  · rintro ⟨w, hw, hpw⟩
    exact ⟨w, List.mem_append_right _ hw, hpw⟩

/-- There are three kinds of results. -/
theorem Delivery.results (h : Delivery fd data events result) :
    result = .ok () ∨ (∃ left, result = .error (.shortWrite left)) ∨
      ∃ e, result = .error (.host e) := by
  obtain ⟨before, rest, last, -, -, -, ending⟩ := h.ends
  cases ending with
  | done => exact .inl rfl
  | failed => exact .inr (.inr ⟨_, rfl⟩)
  | stalled => exact .inr (.inl ⟨_, rfl⟩)

/-- Success means that all was taken. -/
theorem Delivery.ok_iff (h : Delivery fd data events result) :
    result = .ok () ↔ accepted (writes events) = data := by
  obtain ⟨before, rest, last, -, -, hsplit, ending⟩ := h.ends
  cases ending with
  | done => simpa using hsplit
  | failed offered => simpa using ne_of_append_eq hsplit offered
  | stalled offered => simpa using ne_of_append_eq hsplit offered

/-- Running short means that one write took nothing. -/
theorem Delivery.short_iff (h : Delivery fd data events result) :
    (∃ left, result = .error (.shortWrite left)) ↔ ∃ w ∈ writes events, w.reply = 0 := by
  obtain ⟨before, rest, last, rfl, htaken, -, ending⟩ := h.ends
  rw [exists_reply_iff htaken fun n hn => Int.le_of_eq hn]
  cases ending with
  | done => simp
  | failed offered negative => simpa using Int.ne_of_lt negative
  | stalled offered => simp

/-- The number that is left is right, and the front was taken. -/
theorem Delivery.short (h : Delivery fd data events result) {left : Nat}
    (hresult : result = .error (.shortWrite left)) :
    0 < left ∧ left ≤ data.length ∧
      accepted (writes events) = data.take (data.length - left) := by
  obtain ⟨before, rest, last, -, -, hsplit, ending⟩ := h.ends
  cases ending with
  | done => cases hresult
  | failed => cases hresult
  | stalled offered =>
    obtain rfl : rest.length = left := by simpa using hresult
    refine ⟨List.length_pos_iff.2 offered, ?_, ?_⟩
    · rw [← hsplit, List.length_append]
      omega
    · rw [← hsplit, List.length_append, Nat.add_sub_cancel, List.take_left]

/-- A host error means that one write failed. -/
theorem Delivery.host_iff (h : Delivery fd data events result) :
    (∃ e, result = .error (.host e)) ↔ ∃ w ∈ writes events, w.reply < 0 := by
  obtain ⟨before, rest, last, rfl, htaken, -, ending⟩ := h.ends
  rw [exists_reply_iff htaken fun n hn => Int.le_of_lt hn]
  cases ending with
  | done => simp
  | failed offered negative => simpa using negative
  | stalled offered => simp

/-- The failed write comes last, and its reason is the one reported. -/
theorem Delivery.host (h : Delivery fd data events result) {e : Errno}
    (hresult : result = .error (.host e)) :
    accepted (writes events) <+: data ∧ accepted (writes events) ≠ data ∧
      ∃ before left n entry, n < 0 ∧
        events = before ++ [.asked (.write fd left) n, .asked .errno e.code, .noted entry] := by
  obtain ⟨before, rest, last, hevents, -, hsplit, ending⟩ := h.ends
  cases ending with
  | done => cases hresult
  | stalled => cases hresult
  | @failed _ n code offered negative =>
    obtain rfl : Errno.mk code = e := by simpa using hresult
    exact ⟨⟨rest, hsplit⟩, ne_of_append_eq hsplit offered, before, rest, n, _, negative, hevents⟩

/-- All that is said of a delivery is read off how it went. -/
theorem Delivery.delivered (h : Delivery fd data events result) :
    Delivered fd data events result where
  few := h.length_writes_le
  offers _ _ _ hw := h.offers hw
  results := h.results
  ok_iff := h.ok_iff
  short_iff := h.short_iff
  short _ hresult := h.short hresult
  host_iff := h.host_iff
  host _ hresult := h.host hresult
  excess _ hw excess := h.of_excess hw excess

/-- **Writing everything loses and repeats no byte**, on any host. A count past what was offered
counts as all of it. -/
theorem writeAll_delivers (host : Host σ) (fd : Fd) (data : Bytes) (s : σ) :
    ∃ events result after,
      (hosted.writeAll fd data).run host s = ⟨events, .returned result, after⟩ ∧
        Delivered fd data events result := by
  obtain ⟨result, houtcome, hdelivery⟩ := exists_delivery host fd data s
  rcases hrun : (hosted.writeAll fd data).run host s with ⟨events, outcome, after⟩
  rw [hrun] at houtcome hdelivery
  obtain rfl : outcome = .returned result := houtcome
  exact ⟨events, result, after, rfl, hdelivery.delivered⟩

end Hostcall.Facade
