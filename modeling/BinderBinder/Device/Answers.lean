import BinderBinder.Device.Thread
import BinderBinder.Lib.Nesting
import BinderBinder.Payload.Descriptors

set_option relaxedAutoImplicit false
set_option autoImplicit false

/-!
# Incoming transactions are answered

What a thread does about the transactions that its dispatch loop reaches: a two-way transaction is
answered with a `BC_REPLY`, and the reader of each transaction frees its buffer. A handler can start
calls, whose reads bring further transactions, so transactions nest.

## Main definitions

* `Thread.reached`, `Thread.replies` — the transaction that a step reaches, and what it replies.
* `Frame.owes`, `Thread.debts` — the answers that the frames still owe.

## Main results

* `Thread.Debts.of_step` — what a step does to these debts.
-/

namespace BinderBinder

/-! ## What the frames owe -/

/-- What a frame owes: the answer to the transaction whose handler runs, or the write of a reply. -/
inductive Debt
  | answer (t : Transmission)
  | write (reply : BinderTransactionData)

/-- The reply that a frame writes with its ioctl. -/
def Frame.reply? (f : Frame) : Option BinderTransactionData :=
  match f.phase, f.owner with
  | .ioctl true, .reply _ txn _ => some txn.header
  | _, _ => none

/-- What a frame owes: one-way transactions are not answered. -/
def Frame.owes (f : Frame) : Option Debt :=
  match f.phase with
  | .handling t _ => if t.header.isOneWay then none else some (.answer t)
  | _ => f.reply?.map .write

namespace Thread

/-- What the frames owe, from the inside out. -/
def debts (s : Thread) : List Debt := s.frames.filterMap Frame.owes

/-- The transaction whose arm a step runs. -/
def reached (s : Thread) : Label → Option Transmission
  | .dispatch _ =>
    match s.frames with
    | ⟨_, .dispatch (r :: _)⟩ :: _ =>
      match r.record with
      | .transaction _ t => some t
      | _ => none
    | _ => none
  | _ => none

/-- A handler is registered for a transaction. -/
def finds (s : Thread) (t : Transmission) : Bool := (s.process.device.objects t.targetId).isSome

/-- The `BC_REPLY`s that the kernel takes in a step: that of the innermost frame, with its ioctl,
and the empty one for a missing handler. -/
def replies (s : Thread) : Label → List BinderTransactionData
  | .read _ _ | .ioctlFailed _ _ true => (s.frames.head?.bind Frame.reply?).toList
  | .dispatch w =>
    match s.reached (.dispatch w) with
    | some t => if s.finds t || t.header.isOneWay then [] else [emptyReply w t]
    | none => []
  | _ => []

/-- A step does not lose the write of a reply: if its ioctl fails, then behind the write. -/
def TakesReply (s : Thread) : Label → Prop
  | .ioctlFailed _ _ false => s.frames.head?.bind Frame.reply? = none
  | _ => True

/-! ## What a step does to the debts -/

/-- What a step does about the transactions: nothing; it reaches one and hands it to its handler, or
answers it at once without a handler; a handler returns, and its reply is owed; or a reply is
written. -/
inductive Debts (s : Thread) (l : Label) (s' : Thread) : Prop
  | quiet (hreached : s.reached l = none) (hreplies : s.replies l = [])
    (hdebts : s'.debts = s.debts)
  | handle {t : Transmission} (hreached : s.reached l = some t) (hfinds : s.finds t = true)
    (hreplies : s.replies l = [])
    (hdebts : s'.debts = if t.header.isOneWay then s.debts else .answer t :: s.debts)
  | missing {t : Transmission} (w : World) (hreached : s.reached l = some t)
    (hfinds : s.finds t = false)
    (hreplies : s.replies l = if t.header.isOneWay then [] else [emptyReply w t])
    (hdebts : s'.debts = s.debts)
  | handled {t : Transmission} {debts : List Debt} (w : World) (replyData : PayloadBuilder)
    (hreached : s.reached l = none) (hreplies : s.replies l = [])
    (hbefore : s.debts = .answer t :: debts)
    (hdebts : s'.debts = .write (replyTo w t replyData).header :: debts)
  | written {reply : BinderTransactionData} (hreached : s.reached l = none)
    (hreplies : s.replies l = [reply]) (hdebts : s.debts = .write reply :: s'.debts)

/-- A frame that makes another ioctl, or none, owes nothing more: a reply is written once. -/
theorem owes_again {o : Owner} {res : Option WriteReadResult} {cause : Cause}
    {write : Option Bool} {events : List Event} (h : Leaves o res cause write events)
    (outer : List Frame) :
    (again o outer write).filterMap Frame.owes = outer.filterMap Frame.owes := by
  cases h <;> rfl

/-- A frame that dispatches records owes nothing. -/
theorem debts_dispatch {s : Thread} {o : Owner} {rest : List KernelRecord} {outer : List Frame}
    (hframes : s.frames = ⟨o, .dispatch rest⟩ :: outer) :
    s.debts = outer.filterMap Frame.owes := by
  rw [debts, hframes]
  rfl

/-- A frame in its ioctl owes the reply that it writes. -/
theorem owes_ioctl (o : Owner) (write : Bool) :
    Frame.owes ⟨o, .ioctl write⟩ = (Frame.reply? ⟨o, .ioctl write⟩).map .write := by
  cases o <;> rfl

/-- Behind an ioctl whose write was taken, its reply is not owed any more. -/
theorem Debts.of_ioctl {s s' : Thread} {l : Label} {o : Owner} {write : Bool} {outer : List Frame}
    (hframes : s.frames = ⟨o, .ioctl write⟩ :: outer) (hreached : s.reached l = none)
    (hreplies : s.replies l = (Frame.reply? ⟨o, .ioctl write⟩).toList)
    (hdebts : s'.debts = outer.filterMap Frame.owes) : Debts s l s' := by
  have howes := owes_ioctl o write
  cases hreply : Frame.reply? ⟨o, .ioctl write⟩ with
  | none =>
    rw [hreply] at hreplies howes
    refine .quiet hreached hreplies ?_
    rw [hdebts, debts, hframes, List.filterMap_cons_none howes]
  | some reply =>
    rw [hreply] at hreplies howes
    refine .written hreached hreplies ?_
    rw [hdebts, debts, hframes, List.filterMap_cons_some howes]

variable {kernelWrite : KernelWrite}

/-- A record that is not a transaction reaches none. -/
theorem reached_eq_none {s : Thread} {w : World} {o : Owner} {r : KernelRecord}
    {rest : List KernelRecord} {outer : List Frame}
    (hframes : s.frames = ⟨o, .dispatch (r :: rest)⟩ :: outer)
    (hr : ∀ secCtx t, r.record ≠ .transaction secCtx t) : s.reached (.dispatch w) = none := by
  rw [reached, hframes]
  dsimp only
  split
  · next secCtx t hrec => exact absurd hrec (hr secCtx t)
  · rfl

/-- The dispatch of a transaction: it is owed to its handler, or answered at once. -/
theorem Debts.of_transaction {s s' : Thread} {w : World} {o : Owner} {r : KernelRecord}
    {rest : List KernelRecord} {outer : List Frame} {secCtx : Option Usize} {t : Transmission}
    (hframes : s.frames = ⟨o, .dispatch (r :: rest)⟩ :: outer)
    (hr : r.record = .transaction secCtx t)
    (h : dispatchStep kernelWrite w s o outer r rest = some s') : Debts s (.dispatch w) s' := by
  have hreached : s.reached (.dispatch w) = some t := by
    simp only [reached, hframes, hr]
  have hdebts := debts_dispatch hframes
  rw [dispatchStep, hr] at h
  cases harm : arm kernelWrite w s.process (.transaction secCtx t) with
  | none => rw [harm] at h; cases h
  | some x =>
    obtain ⟨p, how⟩ := x
    rw [harm] at h
    rcases transactionArm_cases harm with ⟨handler, hobj, rfl⟩ | ⟨hobj, rfl⟩
    · cases h
      have hfinds : s.finds t = true := by rw [finds, hobj]; rfl
      refine .handle hreached hfinds ?_ ?_
      · simp only [replies, hreached, hfinds, Bool.true_or, if_true]
      · rw [hdebts]
        by_cases hone : t.header.isOneWay = true
        · rw [if_pos hone]
          exact List.filterMap_cons_none (if_pos hone)
        · rw [if_neg hone]
          exact List.filterMap_cons_some (if_neg hone)
    · have hfinds : s.finds t = false := by rw [finds, hobj]; rfl
      have hleft : s'.debts = s.debts := by
        dsimp only at h
        rw [hdebts]
        split_ifs at h
        all_goals
          obtain ⟨_, _, _, hleaves, rfl⟩ := leave_eq_some h
          exact owes_again hleaves outer
      refine .missing w hreached hfinds ?_ hleft
      simp only [replies, hreached, hfinds, Bool.false_or]

/-- The dispatch of a record that is not a transaction leaves the debts. -/
theorem Debts.of_other {s s' : Thread} {w : World} {o : Owner} {r : KernelRecord}
    {rest : List KernelRecord} {outer : List Frame}
    (hframes : s.frames = ⟨o, .dispatch (r :: rest)⟩ :: outer)
    (hr : ∀ secCtx t, r.record ≠ .transaction secCtx t)
    (h : dispatchStep kernelWrite w s o outer r rest = some s') : Debts s (.dispatch w) s' := by
  have hreached := reached_eq_none (w := w) hframes hr
  have hdebts := debts_dispatch hframes
  refine .quiet hreached (by simp only [replies, hreached]) ?_
  rw [hdebts]
  unfold dispatchStep at h
  split at h
  · cases h
  · cases h
    rfl
  · next p handler t harm =>
    obtain ⟨secCtx, hrec⟩ := exists_transaction_of_handle harm
    exact absurd hrec (hr secCtx t)
  · split at h
    · next secCtx t hrec => exact absurd hrec (hr secCtx t)
    · obtain ⟨_, _, _, hleaves, rfl⟩ := leave_eq_some h
      exact owes_again hleaves outer

/-- The return of a handler: it owes the write of its reply now. -/
theorem Debts.of_handled {s s' : Thread} {w : World} {o : Owner} {t : Transmission}
    {rest : List KernelRecord} {outer : List Frame} {replyData : PayloadBuilder}
    (hframes : s.frames = ⟨o, .handling t rest⟩ :: outer)
    (h : handledStep w s o outer t rest replyData = some s') :
    Debts s (.handled w replyData) s' := by
  unfold handledStep at h
  by_cases hone : t.header.isOneWay = true
  · rw [if_pos hone] at h
    cases h
    have hbefore : s.debts = outer.filterMap Frame.owes := by
      rw [debts, hframes]
      exact List.filterMap_cons_none (if_pos hone)
    exact .quiet rfl rfl hbefore.symm
  · rw [if_neg hone] at h
    obtain ⟨⟨reply, p⟩, hsend, rfl⟩ := Option.map_eq_some_iff.mp h
    obtain ⟨device, -, heq⟩ := Option.map_eq_some_iff.mp hsend
    obtain ⟨rfl, rfl⟩ := Prod.mk.inj heq
    have hbefore : s.debts = .answer t :: outer.filterMap Frame.owes := by
      rw [debts, hframes]
      exact List.filterMap_cons_some (if_neg hone)
    exact .handled w replyData rfl rfl hbefore rfl

/-- **Step.** What every step that loses no reply does about the transactions. -/
theorem Debts.of_step {s s' : Thread} {l : Label} (h : s.step kernelWrite l = some s')
    (htakes : s.TakesReply l) : Debts s l s' := by
  cases l with
  | startLooper =>
    rw [step] at h
    split_ifs at h
    cases h
    exact .quiet rfl rfl rfl
  | startCall txn | startOneWay txn =>
    rw [step] at h
    split_ifs at h
    obtain ⟨device, -, rfl⟩ := Option.map_eq_some_iff.mp h
    exact .quiet rfl rfl rfl
  | ioctlFailed w errno taken =>
    rw [step] at h
    split at h
    · next o write outer hframes =>
      obtain ⟨_, _, _, hleaves, rfl⟩ := leave_eq_some h
      refine .of_ioctl hframes rfl ?_ (owes_again hleaves outer)
      cases taken with
      | true => simp only [replies, hframes, List.head?_cons, Option.bind_some]
      | false =>
        rw [TakesReply, hframes] at htakes
        rw [show Frame.reply? ⟨o, .ioctl write⟩ = none from htakes]
        rfl
    · cases h
  | read rs alive =>
    rw [step] at h
    split at h
    · next o write outer hframes =>
      obtain ⟨k, -, h⟩ := Option.bind_eq_some_iff.mp h
      refine .of_ioctl hframes rfl (by simp [replies, hframes]) ?_
      cases alive with
      | true =>
        cases h
        rfl
      | false =>
        cases o <;> cases h
        rfl
    · cases h
  | dispatch w =>
    rw [step] at h
    split at h
    · next o outer hframes =>
      obtain ⟨_, _, _, hleaves, rfl⟩ := leave_eq_some h
      have hreached : s.reached (.dispatch w) = none := by rw [reached, hframes]
      refine .quiet hreached (by simp only [replies, hreached]) ?_
      rw [debts_dispatch hframes]
      exact owes_again hleaves outer
    · next o r rest outer hframes =>
      by_cases hr : ∃ secCtx t, r.record = .transaction secCtx t
      · obtain ⟨secCtx, t, hr⟩ := hr
        exact .of_transaction hframes hr h
      · simp only [not_exists] at hr
        exact .of_other hframes hr h
    · cases h
  | handled w replyData =>
    rw [step] at h
    split at h
    · next hframes => exact .of_handled hframes h
    · cases h
  | others p =>
    cases h
    exact .quiet rfl rfl rfl

end Thread

end BinderBinder
