import BinderBinder.Device.Thread

set_option relaxedAutoImplicit false
set_option autoImplicit false

/-!
# Rollbacks of guards

The objects in a transmission are marked before it is sent and unmarked if it was not delivered.
Whether it was is inferred from the result of a `binder_write_read`, which may be about another
record. Over every run of a thread, the rollbacks that have no cause are exactly those of the steps
that take such a result for a failure of the transmission.

## Main definitions

* `Cause.Justifies` — a read returned for a failure of a transmission.
* `Thread.GuardsKept` — all rollbacks had such a cause.
* `Thread.BlamesRightly` — a step takes nothing else for a failure of a transmission.

## Main results

* `Thread.guardsKept_iff` — guards are rolled back for failed transmissions only, exactly in the
  runs all of whose steps blame rightly.
-/

namespace BinderBinder

/-- A read returned because a transmission failed: the kernel reported a failure of it, the ioctl
that carried it failed, or the device was gone. -/
def Cause.Justifies (id : SendId) : Cause → Prop
  | .record r => r.record.isFailure = true ∧ r.about = some id
  | .ioctlFailed _ write => write = true
  | .gone => True
  | .exhausted => False

/-- Rollbacks are justified. -/
def Event.Justified : Event → Prop
  | .unmarked id cause => cause.Justifies id
  | _ => True

namespace Thread

/-- Every rollback so far was justified. -/
def GuardsKept (s : Thread) : Prop := ∀ e ∈ s.history, Event.Justified e

/-- The frame of a transmission dispatches no transaction whose target is not registered and no
failure of another transmission, and none of its ioctls fails but one that carries it. A full buffer
is no failure to a call or a one-way send. -/
def BlamesRightly (s : Thread) (l : Label) : Prop :=
  match l, s.frames with
  | .dispatch w, ⟨o, .dispatch (r :: _)⟩ :: _ =>
    ∀ id, o.sendId = some id → s.FindsTarget r.record ∧
      (r.record.isFailure = true → r.about = some id ∨
        r.record = .failedReply ∧ w.lastError = some negNospc ∧ ∀ n, id ≠ .reply n)
  | .ioctlFailed _ _ _, ⟨o, .ioctl write⟩ :: _ => ∀ id, o.sendId = some id → write = true
  | _, _ => True

/-- Which results of a read roll the guard of a transmission back. -/
def RollsBack (id : SendId) (res : Option WriteReadResult) : Prop :=
  ∃ e, res = some (.error e) ∧ (e = .asyncBufferFull → ∃ n, id = .reply n)

/-- What a frame does when it leaves is justified if the cause is, where it rolls back. -/
theorem Leaves.justified_iff {o : Owner} {res : Option WriteReadResult} {cause : Cause}
    {write : Option Bool} {events : List Event} (h : Leaves o res cause write events) :
    (∀ e ∈ events, Event.Justified e) ↔
      ∀ id, o.sendId = some id → RollsBack id res → cause.Justifies id := by
  cases h with
  | looperGone | looper => simp [Owner.sendId]
  | callOk | callFull | callNone | oneWayFull => simp [Owner.sendId, RollsBack, Event.Justified]
  | @callError t txn e err cause he =>
    have hfull : e ≠ .asyncBufferFull := by
      rintro rfl
      cases he
    simp [Owner.sendId, RollsBack, Event.Justified, hfull]
  | @oneWayError n txn e err cause he =>
    have hfull : e ≠ .asyncBufferFull := by
      rintro rfl
      cases he
    simp [Owner.sendId, RollsBack, Event.Justified, hfull]
  | oneWayOk h | replyOk h => simp [Owner.sendId, RollsBack, Event.Justified, h]
  | replyError => simp [Owner.sendId, RollsBack, Event.Justified]

/-- The result of an arm rolls back rightly exactly if the record is blamed rightly.

**Proof sketch.** One case per record whose arm returns: a `REPLY` rolls nothing back, a missing
handler does without a cause, and a failure does unless it is a full buffer that is tried again. -/
theorem justifies_iff_of_returned {w : World} {s : Thread} {r : KernelRecord} {res : WriteReadResult}
    (h : Returned w s.process r.record res) (id : SendId) :
    (RollsBack id (some res) → Cause.Justifies id (.record r)) ↔
      s.FindsTarget r.record ∧ (r.record.isFailure = true → r.about = some id ∨
        r.record = .failedReply ∧ w.lastError = some negNospc ∧ ∀ n, id ≠ .reply n) := by
  obtain ⟨record, about⟩ := r
  dsimp only at h
  cases h with
  | reply t => simp [RollsBack, FindsTarget, Record.isFailure]
  | objectNotFound secCtx t hobj =>
    simp [RollsBack, Cause.Justifies, FindsTarget, Record.isFailure, hobj]
  | deadReply | frozenReply => simp [RollsBack, Cause.Justifies, FindsTarget, Record.isFailure]
  | failedReply hfull => simp [RollsBack, Cause.Justifies, FindsTarget, Record.isFailure, hfull]
  | bufferFull hfull =>
    cases id <;> simp [RollsBack, Cause.Justifies, FindsTarget, Record.isFailure, hfull]

/-- A frame leaves justified exactly if the step blames rightly. -/
theorem Returns.justified_iff {s : Thread} {o : Owner} {l : Label} {phase : Phase}
    {outer : List Frame} {k : Kernel} {n : ℕ} {rest : List KernelRecord}
    {res : Option WriteReadResult} {cause : Cause} {write : Option Bool} {events : List Event}
    (hframes : s.frames = ⟨o, phase⟩ :: outer) (hret : Returns s o l phase k n rest res cause)
    (hleaves : Leaves o res cause write events) :
    (∀ e ∈ events, Event.Justified e) ↔ s.BlamesRightly l := by
  rw [hleaves.justified_iff]
  unfold BlamesRightly
  rw [hframes]
  cases hret with
  | exhausted => simp [RollsBack]
  | record hreturned _ =>
    exact forall_congr' fun id => forall_congr' fun _ => justifies_iff_of_returned hreturned id
  | ioctlFailed => simp [RollsBack, Cause.Justifies]

/-- **Step.** After a step all rollbacks are justified exactly if they were before and the step
blames rightly. -/
theorem guardsKept_step_iff {s s' : Thread} {l : Label} (h : Effect s l s') :
    s'.GuardsKept ↔ s.GuardsKept ∧ s.BlamesRightly l := by
  have hsame : ∀ {events : List Event}, (∀ e ∈ events, Event.Justified e) → s.BlamesRightly l →
      ((∀ e ∈ events ++ s.history, Event.Justified e) ↔ s.GuardsKept ∧ s.BlamesRightly l) := by
    intro events hevents hblames
    rw [List.forall_mem_append]
    exact ⟨fun h => ⟨h.2, hblames⟩, fun h => ⟨hevents, h.1⟩⟩
  cases h with
  | start hl _ =>
    refine @hsame [] (by simp) ?_
    cases l <;> trivial
  | @read o outer write rs k hframes _ =>
    exact @hsame [.read o rs] (by simp [Event.Justified]) trivial
  | @readGone outer write rs k hframes _ =>
    exact @hsame [.dropped .looper rs, .read .looper rs] (by simp [Event.Justified]) trivial
  | next hframes hr htarget | handle hframes hr htarget =>
    refine @hsame [] (by simp) ?_
    unfold BlamesRightly
    rw [hframes]
    intro id _
    refine ⟨htarget, fun hfail => ?_⟩
    -- a record after which the loop goes on is no failure
    rw [Record.isAnswer_of_isFailure hfail] at hr
    cases hr
  | handledOneWay hframes | handledTwoWay hframes => exact @hsame [] (by simp) trivial
  | @leave _ p k n o phase outer rest res cause write events hframes hret hleaves =>
    rw [← hret.justified_iff hframes hleaves]
    show (∀ e ∈ events ++ .dropped o rest :: s.history, Event.Justified e) ↔ _
    rw [List.forall_mem_append, List.forall_mem_cons]
    simp [Event.Justified, GuardsKept, and_comm]
  | others => exact @hsame [] (by simp) trivial

/-- **Guards are rolled back only for a failed transmission.** Along every run, every rollback has
a failure of that very transmission as its cause (or the ioctl that carried it failed, or the device
is gone) if and only if every step blames rightly. -/
theorem guardsKept_iff (kernelWrite : KernelWrite) (p : Process) (ls : List Label) (s : Thread)
    (h : Run.exec (step kernelWrite) (idle p) ls = some s) :
    s.GuardsKept ↔ Run.Along (step kernelWrite) BlamesRightly (idle p) ls := by
  have hrun := Run.exec_iff_along (P := GuardsKept) (C := BlamesRightly)
    (fun hstep => guardsKept_step_iff (step_effect hstep)) h
  rw [hrun]
  exact and_iff_right fun e he => by cases he

/-- A transmission that embeds a local object. -/
def objectTransmission (id : BinderObjectId) : Transmission where
  header := ⟨.ofHandle 0 0, 0, 0, TransactionFlags.acceptFds, 0, 0, 24, 8, 0, 0⟩
  data := FlatBinderObject.layout.encode
    ⟨⟨BinderType.binder.toU32⟩, FlatBinderFlags.acceptsFds, .ofBinder id.id, id.cookie⟩
  offsets := [0]

/-- A call that embeds the object is refused, and its guard is rolled back. -/
theorem guardsKept_deadReply :
    ∃ s, Run.exec (step fun _ _ => none) (idle (processWith ⟨1, 0⟩))
        [.startCall (objectTransmission ⟨1, 0⟩), .read [⟨.deadReply, some (.call 0)⟩] true,
          .dispatch quietWorld] = some s ∧ s.GuardsKept := by
  refine ⟨_, rfl, (guardsKept_iff (fun _ _ => none) (processWith ⟨1, 0⟩)
    [.startCall (objectTransmission ⟨1, 0⟩), .read [⟨.deadReply, some (.call 0)⟩] true,
      .dispatch quietWorld] _ rfl).mpr ?_⟩
  refine (Run.along_cons_iff rfl).mpr ⟨trivial, ?_⟩
  refine (Run.along_cons_iff rfl).mpr ⟨trivial, ?_⟩
  refine (Run.along_cons_iff rfl).mpr ⟨fun id hid => ⟨fun secCtx t ht => ?_, fun _ => ?_⟩, trivial⟩
  · cases ht
  · exact Or.inl hid

/-- A call that embeds the object is delivered, but its guard is rolled back for a transaction to
another object that is not registered. -/
theorem guard_rolled_back_for_other_transaction :
    ∃ s, Run.exec (step fun _ _ => none) (idle (processWith ⟨1, 0⟩))
        [.startCall (objectTransmission ⟨1, 0⟩),
          .read [⟨.transaction none (.ofBuilder (.ofBinder 2) 0 0 0 ⟨0, 0, 0, 0⟩ .new), none⟩] true,
          .dispatch quietWorld] = some s ∧
      .out 0 ∈ s.kernel.stack ∧ ¬ s.GuardsKept := by
  refine ⟨_, rfl, ?_, fun h => ?_⟩
  · exact List.mem_cons_self
  · have hjust := h (.unmarked (.call 0) _) (List.mem_cons_of_mem _ List.mem_cons_self)
    exact absurd hjust.1 (by decide)

end Thread

end BinderBinder
