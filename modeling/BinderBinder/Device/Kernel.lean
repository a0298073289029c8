import BinderBinder.Device.Dispatch

set_option relaxedAutoImplicit false
set_option autoImplicit false

/-!
# What the kernel keeps for a thread

The kernel's side of the transactions of one thread: the stack of its two-way transactions, which it
settles from the top, and the one-way transactions and replies it has not answered yet. The records
of a read are any that this state admits.

## Main definitions

* `KernelRecord` — a record with the transmission it answers.
* `Owner` — what a frame of the thread is for, and so what it writes.
* `Kernel.write`, `Kernel.deliver` — the kernel takes a transmission, and gives out a record.

## Main results

* `Kernel.count_out_writeOwner`, `Kernel.count_out_deliverAll` — how often a call waits for its
  answer.
-/

namespace BinderBinder

/-! ## Transmissions and the kernel -/

/-- A transmission of this thread, by kind and number. -/
inductive SendId
  | call (n : ℕ)
  | oneWay (n : ℕ)
  | reply (n : ℕ)
  deriving DecidableEq, Repr

/-- A record, with the transmission of this thread that it answers. -/
structure KernelRecord where
  record : Record
  about : Option SendId
  deriving DecidableEq, Repr

/-- The failure records. -/
def Record.isFailure : Record → Bool
  | .deadReply | .failedReply | .frozenReply => true
  | _ => false

/-- The records that answer a two-way transaction. -/
def Record.isAnswer : Record → Bool
  | .reply _ => true
  | r => r.isFailure

/-- Failures are answers. -/
theorem Record.isAnswer_of_isFailure {r : Record} (h : r.isFailure = true) : r.isAnswer = true := by
  cases r <;> first | rfl | exact h

/-- The record answers the call `t`. -/
def KernelRecord.answers (t : ℕ) (r : KernelRecord) : Bool :=
  r.record.isAnswer && r.about == some (.call t)

/-- An entry of the kernel's stack of two-way transactions of a thread: one it sent, or one it was
handed and has not replied to. -/
inductive StackEntry
  | out (t : ℕ)
  | inc (t : Transmission)
  deriving DecidableEq, Repr

/-- What the kernel keeps for a thread: the stack, and the one-way transactions and replies that it
has not answered yet. -/
structure Kernel where
  stack : List StackEntry
  unacked : List SendId

/-- What a frame of the thread is for; the transmissions carry what they embed. -/
inductive Owner
  | looper
  | call (t : ℕ) (txn : Transmission)
  | oneWay (n : ℕ) (txn : Transmission)
  | reply (n : ℕ) (txn : Transmission) (replyData : PayloadBuilder)

/-- The transmission of a frame. -/
def Owner.sendId : Owner → Option SendId
  | .looper => none
  | .call t _ => some (.call t)
  | .oneWay n _ => some (.oneWay n)
  | .reply n _ _ => some (.reply n)

/-- The number of the call of a frame, if it is one. -/
def Owner.callId : Owner → Option ℕ
  | .call t _ => some t
  | _ => none

namespace Kernel

/-- The kernel takes a transmission: a call goes onto the stack, a reply takes the transaction it
replies to off. -/
def write (k : Kernel) : SendId → Kernel
  | .call t => { k with stack := .out t :: k.stack }
  | .oneWay n => { k with unacked := .oneWay n :: k.unacked }
  | .reply n =>
    match k.stack with
    | .inc _ :: stack => ⟨stack, .reply n :: k.unacked⟩
    | _ => { k with unacked := .reply n :: k.unacked }

/-- The kernel takes what a frame writes. -/
def writeOwner (k : Kernel) (o : Owner) : Kernel :=
  match o.sendId with
  | some id => k.write id
  | none => k

/-- The kernel gives out an answer: that of a call only when the call is on top of the stack, a
failure of another transmission or its completion once. -/
def settle (k : Kernel) (about : Option SendId) : Option Kernel :=
  match about with
  | some (.call t) =>
    if k.stack.head? = some (.out t) then some { k with stack := k.stack.tail } else none
  | some id => if id ∈ k.unacked then some { k with unacked := k.unacked.erase id } else none
  | none => none

/-- The kernel gives out a record. Only calls get a `REPLY`, and a two-way transaction is only given to a
thread that does not owe a reply on top of its stack. -/
def deliver (k : Kernel) (r : KernelRecord) : Option Kernel :=
  match r.record with
  | .reply _ =>
    match r.about with
    | some (.call t) => k.settle (some (.call t))
    | _ => none
  | .deadReply | .failedReply | .frozenReply => k.settle r.about
  | .transactionComplete =>
    match r.about with
    | some (.call _) => some k
    | about => k.settle about
  | .transaction _ t =>
    if t.header.isOneWay then some k
    else
      match k.stack with
      | .inc _ :: _ => none
      | stack => some { k with stack := .inc t :: stack }
  | _ => some k

/-- The kernel gives out the records of a read. -/
def deliverAll (k : Kernel) (rs : List KernelRecord) : Option Kernel := rs.foldlM deliver k

/-! ### How often a call waits for its answer -/

/-- A reply takes no call off the stack. -/
theorem count_out_reply (k : Kernel) (n t : ℕ) :
    (k.write (.reply n)).stack.count (.out t) = k.stack.count (.out t) := by
  rw [write]
  split
  · next hstack => rw [hstack, List.count_cons_of_ne (by simp)]
  · rfl

/-- A call waits for its answer once more after it is written, and no other write changes that. -/
theorem count_out_writeOwner (k : Kernel) (o : Owner) (t : ℕ) :
    (k.writeOwner o).stack.count (.out t) =
      k.stack.count (.out t) + if o.callId = some t then 1 else 0 := by
  cases o with
  | looper => simp [writeOwner, Owner.sendId, Owner.callId]
  | call t' txn =>
    simp only [writeOwner, Owner.sendId, Owner.callId, write, List.count_cons, Option.some.injEq,
      beq_iff_eq, StackEntry.out.injEq]
  | oneWay n txn => simp [writeOwner, Owner.sendId, Owner.callId, write]
  | reply n txn replyData =>
    have hreply := count_out_reply k n t
    simpa [writeOwner, Owner.sendId, Owner.callId] using hreply

/-- Settling a call takes it off the stack, settling anything else does not. -/
theorem count_out_settle {k k' : Kernel} {about : Option SendId} (h : k.settle about = some k')
    (t : ℕ) : k.stack.count (.out t) =
      k'.stack.count (.out t) + if about = some (.call t) then 1 else 0 := by
  unfold settle at h
  split at h
  · next t' =>
    split_ifs at h with hhead
    cases h
    obtain ⟨stack, hstack⟩ := List.head?_eq_some_iff.mp hhead
    rw [hstack]
    simp only [List.count_cons, List.tail_cons, Option.some.injEq, SendId.call.injEq, beq_iff_eq,
      StackEntry.out.injEq]
  · next id hid =>
    split_ifs at h with hmem
    cases h
    rw [if_neg (fun heq => hid t (Option.some.inj heq)), Nat.add_zero]
  · cases h

/-- A record takes a call off the stack exactly if it answers the call. -/
theorem count_out_deliver {k k' : Kernel} {r : KernelRecord} (h : k.deliver r = some k') (t : ℕ) :
    k.stack.count (.out t) = k'.stack.count (.out t) + if r.answers t then 1 else 0 := by
  obtain ⟨record, about⟩ := r
  cases record
  case deadReply | failedReply | frozenReply =>
    have hcount := count_out_settle h t
    simpa [KernelRecord.answers, Record.isAnswer, Record.isFailure] using hcount
  case reply txn =>
    rcases about with _ | t' | n | n
    case some.call =>
      have hcount := @count_out_settle k k' (some (.call t')) h t
      simpa [KernelRecord.answers, Record.isAnswer] using hcount
    all_goals cases h
  case transactionComplete =>
    have hno : KernelRecord.answers t ⟨.transactionComplete, about⟩ = false := rfl
    rw [hno]
    rcases about with _ | t' | n | n
    · cases h
    · cases h
      rfl
    · have hcount := @count_out_settle k k' (some (.oneWay n)) h t
      simpa using hcount
    · have hcount := @count_out_settle k k' (some (.reply n)) h t
      simpa using hcount
  case transaction secCtx txn =>
    have hno : KernelRecord.answers t ⟨.transaction secCtx txn, about⟩ = false := rfl
    rw [hno]
    simp only [deliver] at h
    split_ifs at h
    · cases h
      rfl
    · split at h
      · cases h
      · cases h
        simp
  all_goals cases h; rfl

/-- A read takes a call off the stack as often as its records answer the call. -/
theorem count_out_deliverAll {k k' : Kernel} {rs : List KernelRecord}
    (h : k.deliverAll rs = some k') (t : ℕ) :
    k.stack.count (.out t) = k'.stack.count (.out t) + rs.countP (KernelRecord.answers t) := by
  induction rs generalizing k with
  | nil =>
    cases h
    rfl
  | cons r rs ih =>
    obtain ⟨k₁, hk₁, hrest⟩ := Option.bind_eq_some_iff.mp h
    rw [count_out_deliver hk₁ t, ih hrest, List.countP_cons]
    omega

/-- A `REPLY` answers a call. -/
theorem about_of_deliver_reply {k k' : Kernel} {r : KernelRecord} (h : k.deliver r = some k')
    {txn : Transmission} (hr : r.record = .reply txn) : ∃ t, r.about = some (.call t) := by
  obtain ⟨record, about⟩ := r
  cases hr
  rcases about with _ | t | n | n
  case some.call => exact ⟨t, rfl⟩
  all_goals cases h

/-- Every `REPLY` of a read answers a call. -/
theorem about_of_deliverAll_reply {k k' : Kernel} {rs : List KernelRecord}
    (h : k.deliverAll rs = some k') {r : KernelRecord} (hr : r ∈ rs) {txn : Transmission}
    (hreply : r.record = .reply txn) : ∃ t, r.about = some (.call t) := by
  induction rs generalizing k with
  | nil => cases hr
  | cons r' rs ih =>
    obtain ⟨k₁, hk₁, hrest⟩ := Option.bind_eq_some_iff.mp h
    rcases List.mem_cons.mp hr with rfl | hr
    · exact about_of_deliver_reply hk₁ hreply
    · exact ih hrest hr

end Kernel

end BinderBinder
