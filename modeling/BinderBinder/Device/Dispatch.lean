import BinderBinder.Device.Framing
import BinderBinder.Device.Transmission

set_option relaxedAutoImplicit false
set_option autoImplicit false

/-!
# Dispatch of the records of one read

The arms of the loop of `binder_write_read`: what each does to the device, and whether it returns
from the call. The kernel has given out all records of the buffer by then, so those behind a record
whose arm returns, panics or never comes to an end are lost.

## Main definitions

* `Record`, `ReadRecord.decode` — a record with the struct its arm reads.
* `arm`, `recordArm` — the arms of the loop, and a round of it as an arm that may panic.
* `dispatchRead` — the part of `binder_write_read` after the ioctl, on the bytes it read.
* `Record.change`, `Change.Made` — the effect a record must have, as a change of the device.
* `TakeEffectOnce` — every record that must have an effect has it, once.
* `Record.Passes`, `Record.Answered` — the loop goes on behind a record; its answer gets through.

## Main results

* `readsRecords_recordArm_iff` — when the loop reads the records of a buffer, with its own arms.
* `dispatchRead_encodeAll` — on the bytes of records, the loop hands each to its arm.
* `records_take_effect_iff` — which buffers have no record lost.
-/

namespace BinderBinder

/-! ## Records -/

/-- A record of the read stream, with what its arm reads. A transaction that comes with a security
context carries it along. -/
inductive Record
  | error (err : UInt32)
  | ok
  | transaction (secCtx : Option Usize) (t : Transmission)
  | reply (t : Transmission)
  | acquireResult (v : UInt32)
  | deadReply
  | transactionComplete
  | increfs (v : BinderPtrCookie)
  | acquire (target : BinderPtrCookie)
  | release (target : BinderPtrCookie)
  | decrefs (v : BinderPtrCookie)
  | attemptAcquire (v : BinderPtrCookie)
  | noop
  | spawnLooper
  | finished
  | deadBinder (cookie : Usize)
  | clearDeathNotificationDone (cookie : Usize)
  | failedReply
  | frozenReply
  | onewaySpamSuspect
  | transactionPendingFrozen
  | frozenBinder (v : BinderFrozenStateInfo)
  | clearFreezeNotificationDone (cookie : Usize)
  | unknown (code : UInt32)
  deriving DecidableEq, Repr

/-- The buffers a `BinderTransactionData` of the kernel points at, in the mapped memory. -/
abbrev Mapping := BinderTransactionData → List UInt8 × List ℕ

/-- A transaction with its buffers. -/
def Mapping.transmission (mem : Mapping) (header : BinderTransactionData) : Transmission :=
  ⟨header, (mem header).1, (mem header).2⟩

/-- The struct that an arm reads from the payload of its record. -/
def ReadRecord.decode (mem : Mapping) : ReadRecord → Record
  | .known ret payload =>
    match ret with
    | .error => .error (Layout.u32.decode payload)
    | .ok => .ok
    | .transactionSecCtx =>
      let v := BinderTransactionDataSecCtx.layout.decode payload
      .transaction (some v.secCtx) (mem.transmission v.transactionData)
    | .transaction =>
      .transaction none (mem.transmission (BinderTransactionData.layout.decode payload))
    | .reply => .reply (mem.transmission (BinderTransactionData.layout.decode payload))
    | .acquireResult => .acquireResult (Layout.u32.decode payload)
    | .deadReply => .deadReply
    | .transactionComplete => .transactionComplete
    | .increfs => .increfs (BinderPtrCookie.layout.decode payload)
    | .acquire => .acquire (BinderPtrCookie.layout.decode payload)
    | .release => .release (BinderPtrCookie.layout.decode payload)
    | .decrefs => .decrefs (BinderPtrCookie.layout.decode payload)
    | .attemptAcquire => .attemptAcquire (BinderPtrCookie.layout.decode payload)
    | .noop => .noop
    | .spawnLooper => .spawnLooper
    | .finished => .finished
    | .deadBinder => .deadBinder (Layout.u64.decode payload)
    | .clearDeathNotificationDone => .clearDeathNotificationDone (Layout.u64.decode payload)
    | .failedReply => .failedReply
    | .frozenReply => .frozenReply
    | .onewaySpamSuspect => .onewaySpamSuspect
    | .transactionPendingFrozen => .transactionPendingFrozen
    | .frozenBinder => .frozenBinder (BinderFrozenStateInfo.layout.decode payload)
    | .clearFreezeNotificationDone => .clearFreezeNotificationDone (Layout.u64.decode payload)
  | .unknown code => .unknown code

/-! ## What the arms act on -/

/-- The device, with what else the arms change: the death tokens that were cancelled, and the
loopers that were started because the kernel asked for one. -/
structure Process where
  device : BinderDevice
  cancelled : List Addr
  loopers : ℕ

/-- `Transaction`. -/
structure Transaction where
  code : UInt32
  payload : PayloadReader
  senderPid : UInt32
  senderEuid : UInt32

/-- What the arms use and do not decide: the ids of the process, the buffers of a reply, the last
error of the kernel (`BinderExtendedError::param`, `none` if the kernel refuses to tell), whether a
thread can be started, and what dropping a reader or a reply does; `none` is a drop that panics or
never comes to an end. -/
structure World where
  sender : Sender
  lastError : Option Int
  canSpawn : Bool
  dropReader : PayloadReader → Process → Option Process
  dropReply : PayloadBuilder → Process → Option Process

/-- `-Errno::NOSPC`. -/
def negNospc : Int := -28

/-- `WriteReadError`. -/
inductive WriteReadError
  | objectNotFound
  | deadReply
  | failedReply
  | frozenReply
  | asyncBufferFull
  | noDevice
  | writeReadIoctlFailed (errno : ℕ)
  deriving DecidableEq, Repr

/-- What `binder_write_read` returns, unless it is `None`. -/
abbrev WriteReadResult := Except WriteReadError (UInt32 × PayloadReader)

/-- How an arm goes on: with the next record, with a transaction that its handler handles first, or
not at all. -/
inductive Next
  | next
  | handle (handler : HandlerRef) (t : Transmission)
  | done (res : WriteReadResult)

/-! ## The arms -/

section Arms

-- the kernel's answers to commands that are written without a read buffer
variable (kernel : KernelWrite)

/-- A command whose refusal is only logged. -/
def BinderDevice.submitCommand (dev : BinderDevice) (cmd : Command) : BinderDevice :=
  (dev.writeCommand kernel cmd).getD dev

/-- The id that the kernel hands back as a pair of a pointer and a cookie. -/
def BinderPtrCookie.id (v : BinderPtrCookie) : BinderObjectId :=
  BinderObjectId.fromRaw v.ptr v.cookie

/-- The object an incoming transaction is for. -/
def Transmission.targetId (t : Transmission) : BinderObjectId :=
  BinderObjectId.fromRaw t.header.target.binder t.header.cookie

/-- The reply to a transaction whose target is not registered. -/
def emptyReply (w : World) (t : Transmission) : BinderTransactionData where
  target := .ofBinder 0
  cookie := 0
  code := t.header.code
  flags := t.header.flags
  senderPid := w.sender.pid
  senderEuid := w.sender.euid
  dataSize := 0
  offsetsSize := 0
  buffer := 0
  offsets := 0

/-- The reply to a transaction that was handled. -/
def replyTo (w : World) (t : Transmission) (replyData : PayloadBuilder) : Transmission :=
  .ofBuilder (.ofBinder 0) 0 t.header.code t.header.flags w.sender replyData

/-- The transaction as its handler gets it. -/
def Transmission.toTransaction (p : Process) (t : Transmission) : Transaction where
  code := t.header.code
  payload := PayloadReader.fromKernelRaw p.device.addr t
  senderPid := t.header.senderPid
  senderEuid := t.header.senderEuid

/-- The arm of `TRANSACTION` and `TRANSACTION_SEC_CTX`, up to the handler. Without a handler the
reader is dropped and a two-way caller gets an empty reply, whose write is unwrapped. -/
def transactionArm (w : World) (p : Process) (t : Transmission) : Option (Process × Next) :=
  match p.device.objects t.targetId with
  | none => do
    let p ← w.dropReader (PayloadReader.fromKernelRaw p.device.addr t) p
    if t.header.isOneWay then some (p, .done (.error .objectNotFound))
    else (p.device.writeCommand kernel (.reply (emptyReply w t))).map fun device =>
      ({ p with device }, .done (.error .objectNotFound))
  | some handler => some (p, .handle handler t)

/-- The arm behind the handler of a two-way transaction: the reply, with its objects marked, that a
nested `binder_write_read` writes. -/
def sendReply (w : World) (p : Process) (t : Transmission) (replyData : PayloadBuilder) :
    Option (Transmission × Process) :=
  let reply := replyTo w t replyData
  (markObjectsAsPendingRemote reply p.device).map fun device => (reply, { p with device })

/-- After the nested read, an error rolls the marks back. -/
def rollBack (p : Process) (reply : Transmission) : Option WriteReadResult → Option Process
  | some (.error _) => (unmarkObjectsAsPendingRemote reply p.device).map fun device =>
      { p with device }
  | _ => some p

/-- The rest of that arm, after the nested read. -/
def finishReply (w : World) (p : Process) (reply : Transmission) (replyData : PayloadBuilder)
    (res : Option WriteReadResult) : Option Process :=
  (rollBack p reply res).bind (w.dropReply replyData)

/-- The arms of the loop; `none` is a panic, or an arm that never comes to an end. -/
def arm (w : World) (p : Process) : Record → Option (Process × Next)
  | .transaction _ t => transactionArm kernel w p t
  | .reply t =>
    some (p, .done (.ok (t.header.code, PayloadReader.fromKernelRaw p.device.addr t)))
  | .deadReply => some (p, .done (.error .deadReply))
  | .increfs v => some ({ p with device := p.device.submitCommand kernel (.increfsDone v) }, .next)
  | .acquire target => (p.device.refOp target.id .increaseRemote).map fun (_, device) =>
      ({ p with device := device.submitCommand kernel (.acquireDone target) }, .next)
  | .release target => (p.device.refOp target.id .decreaseRemote).map fun (_, device) =>
      ({ p with device }, .next)
  | .spawnLooper => some (if w.canSpawn then { p with loopers := p.loopers + 1 } else p, .next)
  | .deadBinder cookie =>
    let device := { p.device with
      deathNotifications := p.device.deathNotifications.remove cookie }
    some ({ p with
      device := device.submitCommand kernel (.deadBinderDone cookie)
      cancelled := p.cancelled ++ (p.device.deathNotifications cookie).toList }, .next)
  | .failedReply => w.lastError.map fun param =>
      (p, .done (.error (if param = negNospc then .asyncBufferFull else .failedReply)))
  | .frozenReply => some (p, .done (.error .frozenReply))
  | .error _ | .ok | .acquireResult _ | .transactionComplete | .decrefs _ | .attemptAcquire _
  | .noop | .finished | .clearDeathNotificationDone _ | .onewaySpamSuspect
  | .transactionPendingFrozen | .frozenBinder _ | .clearFreezeNotificationDone _
  | .unknown _ => some (p, .next)

end Arms

/-! ## The loop -/

/-- What the loop meets at one record: the process as the other threads leave it when the arm
starts, the world and the handlers, and, if the arm sends a reply, the result of the nested read and
the process after it. The call of a handler ends with the drop of the reader that it was given. A
call that panics or never comes to an end is `none`. -/
structure Met where
  found : Process
  world : World
  handle : HandlerRef → Transaction → Process → Option (PayloadBuilder × Process)
  handleOneWay : HandlerRef → Transaction → Process → Option Process
  nested : Option (Option WriteReadResult × Process)

/-- How a read ends: its loop reaches the end of the buffer, an arm returns, or an arm panics or
never comes to an end. -/
inductive Ending
  | exhausted
  | returned (res : WriteReadResult)
  | panicked

/-- The state of the loop: for each record dispatched so far the process before and after it, and
how the read ends. -/
structure Dispatched where
  log : List (Process × Process)
  ending : Ending

section Loop

variable (kernel : KernelWrite)

/-- One arm with its nested read: the process it leaves and the result it returns, if it does. -/
def dispatch (m : Met) (r : Record) : Option (Process × Option WriteReadResult) :=
  match arm kernel m.world m.found r with
  | none => none
  | some (p, .next) => some (p, none)
  | some (p, .done res) => some (p, some res)
  | some (p, .handle handler t) =>
    if t.header.isOneWay then
      (m.handleOneWay handler (t.toTransaction p) p).map fun p => (p, none)
    else do
      let (replyData, p) ← m.handle handler (t.toTransaction p) p
      let (reply, _) ← sendReply m.world p t replyData
      let (res, p) ← m.nested
      let p ← finishReply m.world p reply replyData res
      return (p, none)

-- what the loop meets at its records
variable (env : ℕ → Met)

/-- One round of the loop: the state after it and whether the loop is left. -/
def dispatchRound (s : Dispatched) (r : Record) : Dispatched × Bool :=
  let m := env s.log.length
  match dispatch kernel m r with
  | none => ({ s with ending := .panicked }, true)
  | some (p, none) => ({ s with log := s.log ++ [(m.found, p)] }, false)
  | some (p, some res) => (⟨s.log ++ [(m.found, p)], .returned res⟩, true)

/-- `binder_write_read` after its ioctl, on the bytes that were read; `alive` says whether the
`Weak` of the device can be upgraded. -/
def dispatchRead (mem : Mapping) (alive : Bool) (bytes : List UInt8) : Option Dispatched :=
  if alive then
    (readLoop (fun s r => some (dispatchRound kernel env s (r.decode mem))) bytes.length
      ⟨[], .exhausted⟩ bytes).map fun x => x.2.1
  else some ⟨[], .returned (.error .noDevice)⟩

/-- The loop over decoded records. -/
def dispatchRecords (s : Dispatched) : List Record → Dispatched
  | [] => s
  | r :: rs =>
    match dispatchRound kernel env s r with
    | (s, true) => s
    | (s, false) => dispatchRecords s rs

end Loop

/-! ## The effect of a record -/

/-- A change of a process: a method on the counts of one id if it is registered, one command
written to the kernel, one death token taken out and cancelled, and loopers started. -/
structure Change where
  count : Option (BinderObjectId × RefOp)
  answer : Option Command
  cancel : Option Usize
  loopers : ℕ
  deriving DecidableEq, Repr

/-- The effect that a record must have, `none` for a record of another kind. -/
def Record.change : Record → Option Change
  | .acquire target => some ⟨some (target.id, .increaseRemote), some (.acquireDone target), none, 0⟩
  | .release target => some ⟨some (target.id, .decreaseRemote), none, none, 0⟩
  | .increfs v => some ⟨none, some (.increfsDone v), none, 0⟩
  | .deadBinder cookie => some ⟨none, some (.deadBinderDone cookie), some cookie, 0⟩
  | .spawnLooper => some ⟨none, none, none, 1⟩
  | _ => none

namespace Change

/-- The counts of an id after a change. -/
def countAfter (c : Change) (refcounts : DashMap BinderObjectId ObjectRefState)
    (id : BinderObjectId) : Option ObjectRefState :=
  match c.count with
  | some (id', op) => if id = id' then (refcounts id).bind (·.step op) else refcounts id
  | none => refcounts id

/-- The change was made once, and nothing else was. -/
structure Made (c : Change) (before after : Process) : Prop where
  objects : after.device.objects = before.device.objects
  counts : ∀ id, after.device.objectRefcounts id = c.countAfter before.device.objectRefcounts id
  registered : ∀ id,
    (after.device.objectRefcounts id).isSome = (before.device.objectRefcounts id).isSome
  written : after.device.written = before.device.written ++ c.answer.toList
  deathNotifications : ∀ cookie, after.device.deathNotifications cookie =
    if c.cancel = some cookie then none else before.device.deathNotifications cookie
  cancelled : after.cancelled =
    before.cancelled ++ (c.cancel.bind before.device.deathNotifications).toList
  loopers : after.loopers = before.loopers + c.loopers

end Change

/-- Every record that must have an effect was dispatched, and its arm made that change once. -/
def TakeEffectOnce (rs : List Record) (log : List (Process × Process)) : Prop :=
  ∀ (i : ℕ) (r : Record) (c : Change), rs[i]? = some r → r.change = some c →
    ∃ before after, log[i]? = some (before, after) ∧ c.Made before after

section Conditions

variable (kernel : KernelWrite)

/-- The arm of a two-way transaction comes to an end behind its handler, which returned a payload:
its objects can be marked, the nested read returns, after an error the marks can be rolled back, and
the payload can be dropped. -/
def Met.Replies (m : Met) (t : Transmission) (replyData : PayloadBuilder) (p : Process) : Prop :=
  (markObjectsAsPendingRemote (replyTo m.world t replyData) p.device).isSome ∧
    ∃ res after, m.nested = some (res, after) ∧
      ∃ p', rollBack after (replyTo m.world t replyData) res = some p' ∧
        (m.world.dropReply replyData p').isSome

/-- The loop goes on behind a record: its arm does not return, it comes to an end (the handler
does), and no count leaves its range. -/
def Record.Passes (m : Met) : Record → Prop
  | .reply _ | .deadReply | .failedReply | .frozenReply => False
  | .transaction _ t =>
    ∃ handler ∈ m.found.device.objects t.targetId,
      (t.header.isOneWay = true →
        (m.handleOneWay handler (t.toTransaction m.found) m.found).isSome) ∧
      (t.header.isOneWay = false → ∃ replyData p,
        m.handle handler (t.toTransaction m.found) m.found = some (replyData, p) ∧
          m.Replies t replyData p)
  | .acquire target => (m.found.device.refOp target.id .increaseRemote).isSome
  | .release target => (m.found.device.refOp target.id .decreaseRemote).isSome
  | _ => True

/-- What a record needs of its environment to have its effect: the kernel takes the answer, and a
thread can be started. -/
def Record.Answered (m : Met) (r : Record) : Prop :=
  ∀ c, r.change = some c →
    (∀ cmd ∈ c.answer, kernel m.found.device.written cmd = none) ∧
      (0 < c.loopers → m.world.canSpawn = true)

/-- The arm of a record that must have an effect is reached on a live device: all records up to it
pass, and it gets its answer through. -/
def Unobstructed (env : ℕ → Met) (alive : Bool) (rs : List Record) : Prop :=
  ∀ (i : ℕ) (r : Record) (c : Change), rs[i]? = some r → r.change = some c →
    alive = true ∧ (∀ j ≤ i, ∀ r' : Record, rs[j]? = some r' → r'.Passes (env j)) ∧
      r.Answered kernel (env i)

end Conditions

/-! ## From bytes to records -/

section Bytes

variable {σ : Type} (arm : σ → ReadRecord → Option (σ × Bool))

/-- Only records of the buffer get to their arms. -/
theorem mem_of_mem_visited {s : σ} {rs : List ReturnRecord} {x : σ × ReturnRecord}
    (h : x ∈ visited arm s rs) : x.2 ∈ rs := by
  induction rs generalizing s with
  | nil => cases h
  | cons r rs ih =>
    rw [visited] at h
    split at h
    · rcases List.mem_cons.mp h with rfl | h
      · exact List.mem_cons_self
      · exact List.mem_cons_of_mem r (ih h)
    · rw [List.mem_singleton.mp h]
      exact List.mem_cons_self

end Bytes

section Loop

variable (kernel : KernelWrite) (env : ℕ → Met)

/-- One round as an arm that may panic: what it reads is decoded and dispatched. -/
def recordArm (mem : Mapping) (s : Dispatched) (r : ReadRecord) : Option (Dispatched × Bool) :=
  (dispatch kernel (env s.log.length) (r.decode mem)).map fun (p, res) =>
    (⟨s.log ++ [((env s.log.length).found, p)], (res.map Ending.returned).getD s.ending⟩, res.isSome)

/-- A round of the loop is such an arm, or it notes its panic and leaves the loop. -/
theorem dispatchRound_eq (mem : Mapping) (s : Dispatched) (r : ReadRecord) :
    dispatchRound kernel env s (r.decode mem) =
      (recordArm kernel env mem s r).getD ({ s with ending := .panicked }, true) := by
  rw [dispatchRound, recordArm]
  cases dispatch kernel (env s.log.length) (r.decode mem) with
  | none => rfl
  | some x =>
    obtain ⟨p, _ | res⟩ := x <;> rfl

/-- **Framing, with the arms of the device.** The loop reads exactly the records up to the first one
that ends the call, without a panic, if and only if none of those that get to their arms is a
`BR_ATTEMPT_ACQUIRE`, and the arm of each comes to an end. -/
theorem readsRecords_recordArm_iff (mem : Mapping) (rs : List ReturnRecord) :
    ReadsRecords (recordArm kernel env mem) ⟨[], .exhausted⟩ rs ↔
      ∀ x ∈ visited (recordArm kernel env mem) ⟨[], .exhausted⟩ rs, x.2.ret ≠ .attemptAcquire ∧
        (dispatch kernel (env x.1.log.length) (x.2.read.decode mem)).isSome := by
  rw [ReadsRecords, readLoop_encodeAll _ _ _ (Nat.le_refl _)]
  simp only [recordArm, Option.isSome_map]

/-- The state in which the loop stops at the records it reaches is that of the loop over decoded
records. -/
theorem reached_dispatchRound (mem : Mapping) {s : Dispatched} {rs : List ReturnRecord}
    {x : List ReturnRecord × Dispatched × Bool}
    (h : reached (fun s r => some (dispatchRound kernel env s (r.decode mem))) s rs = some x) :
    x.2.1 = dispatchRecords kernel env s (rs.map fun r => r.read.decode mem) := by
  induction rs generalizing s x with
  | nil =>
    cases h
    rfl
  | cons r rs ih =>
    rw [reached, Option.bind_eq_bind, Option.bind_some] at h
    rw [List.map_cons, dispatchRecords]
    split <;> rename_i hround
    · rw [hround] at h
      cases h
      rfl
    · rw [hround] at h
      obtain ⟨⟨rs', s', returned⟩, hrest, heq⟩ := Option.bind_eq_some_iff.mp h
      cases heq
      have hlast := ih hrest
      exact hlast

/-- On the bytes of records whose arms read the right size, the loop hands each to its arm until
one returns. -/
theorem dispatchRead_encodeAll (mem : Mapping) {rs : List ReturnRecord}
    (hrs : ∀ r ∈ rs, r.ret ≠ .attemptAcquire) :
    dispatchRead kernel env mem true (ReturnRecord.encodeAll rs) =
      some (dispatchRecords kernel env ⟨[], .exhausted⟩ (rs.map fun r => r.read.decode mem)) := by
  obtain ⟨x, hreached, hloop⟩ := (readLoop_encodeAll
    (fun s r => some (dispatchRound kernel env s (r.decode mem))) ⟨[], .exhausted⟩ rs
      (Nat.le_refl _)).mpr fun y hy => ⟨hrs y.2 (mem_of_mem_visited _ hy), rfl⟩
  rw [dispatchRead, if_pos rfl, hloop, Option.map_some, reached_dispatchRound kernel env mem hreached]

/-! ## The log -/

/-- The log only grows. -/
theorem prefix_dispatchRecords (s : Dispatched) (rs : List Record) :
    s.log <+: (dispatchRecords kernel env s rs).log := by
  induction rs generalizing s with
  | nil => exact List.prefix_rfl
  | cons r rs ih =>
    rw [dispatchRecords, dispatchRound]
    split <;> rename_i hround <;> split at hround <;> cases hround
    · exact List.prefix_rfl
    · exact List.prefix_append _ _
    · exact (List.prefix_append _ _).trans (ih { s with log := s.log ++ [_] })

/-- The arms of the first records go on: that of the first one does, and those after it do. -/
theorem forall_lt_succ_dispatch (n : ℕ) (r₀ : Record) (rs : List Record) (i : ℕ) :
    (∀ j < i + 1, ∀ r, (r₀ :: rs)[j]? = some r →
        ∃ p, dispatch kernel (env (n + j)) r = some (p, none)) ↔
      (∃ p, dispatch kernel (env n) r₀ = some (p, none)) ∧
        ∀ j < i, ∀ r, rs[j]? = some r →
          ∃ p, dispatch kernel (env (n + 1 + j)) r = some (p, none) := by
  constructor
  · intro h
    refine ⟨h 0 (Nat.succ_pos i) r₀ rfl, fun j hj r hr => ?_⟩
    have hnext := h (j + 1) (by omega) r hr
    rwa [show n + (j + 1) = n + 1 + j by omega] at hnext
  · rintro ⟨hfirst, hrest⟩ j hj r hr
    cases j with
    | zero =>
      cases hr
      exact hfirst
    | succ j =>
      rw [show n + (j + 1) = n + 1 + j by omega]
      exact hrest j (by omega) r hr

/-- The log entry of a record whose arm never returns: it is there if the arms before it go on and
its own does not panic.

**Proof sketch.** Induction on the records. An arm that panics or returns leaves the log as it is,
so no later record gets an entry; an arm that goes on appends its entry, which stays. -/
theorem log_dispatchRecords (s : Dispatched) (rs : List Record) {i : ℕ} {r : Record}
    (hi : rs[i]? = some r)
    (hr : ∀ p res, dispatch kernel (env (s.log.length + i)) r ≠ some (p, some res))
    (x : Process × Process) :
    (dispatchRecords kernel env s rs).log[s.log.length + i]? = some x ↔
      (∀ j < i, ∀ r', rs[j]? = some r' →
        ∃ p, dispatch kernel (env (s.log.length + j)) r' = some (p, none)) ∧
      ∃ p, dispatch kernel (env (s.log.length + i)) r = some (p, none) ∧
        x = ((env (s.log.length + i)).found, p) := by
  induction rs generalizing s i with
  | nil => cases hi
  | cons r₀ rs ih =>
    rw [dispatchRecords, dispatchRound]
    cases hd : dispatch kernel (env s.log.length) r₀ with
    | none =>
      have hshort : s.log[s.log.length + i]? = none := by simp
      refine ⟨fun h => absurd (hshort.symm.trans h) (by simp), ?_⟩
      rintro ⟨hpast, p, hp, -⟩
      cases i with
      | zero =>
        cases hi
        rw [Nat.add_zero, hd] at hp
        cases hp
      | succ i =>
        rw [forall_lt_succ_dispatch, hd] at hpast
        simp at hpast
    | some q =>
      obtain ⟨p₀, _ | res⟩ := q
      · have hlen : (s.log ++ [((env s.log.length).found, p₀)]).length = s.log.length + 1 := by simp
        cases i with
        | zero =>
          cases hi
          obtain ⟨tail, htail⟩ := prefix_dispatchRecords kernel env
            { s with log := s.log ++ [((env s.log.length).found, p₀)] } rs
          have hentry : (dispatchRecords kernel env
              { s with log := s.log ++ [((env s.log.length).found, p₀)] } rs).log[s.log.length]? =
                some ((env s.log.length).found, p₀) := by
            rw [← htail]
            simp
          rw [Nat.add_zero, hd]
          simp only [hentry, Option.some.injEq, Prod.mk.injEq, and_true]
          constructor
          · rintro rfl
            exact ⟨fun j hj => absurd hj (Nat.not_lt_zero j), p₀, rfl, rfl⟩
          · rintro ⟨-, p, rfl, rfl⟩
            rfl
        | succ i =>
          have hshift : s.log.length + (i + 1) = s.log.length + 1 + i := by omega
          have hih := ih { s with log := s.log ++ [((env s.log.length).found, p₀)] }
            (i := i) hi (by rw [hlen, ← hshift]; exact hr)
          simp only [hlen] at hih
          have hfirst : ∃ p, some (p₀, none) = some (p, (none : Option WriteReadResult)) := ⟨p₀, rfl⟩
          rw [hshift, hih, forall_lt_succ_dispatch, hd]
          exact and_congr_left fun _ => (and_iff_right hfirst).symm
      · cases i with
        | zero =>
          cases hi
          exact absurd hd (hr p₀ res)
        | succ i =>
          have hshort : (s.log ++ [((env s.log.length).found, p₀)])[s.log.length + (i + 1)]? =
              none := by simp
          refine ⟨fun h => absurd (hshort.symm.trans h) (by simp), ?_⟩
          rintro ⟨hpast, -⟩
          rw [forall_lt_succ_dispatch, hd] at hpast
          simp at hpast

/-! ## The arms -/

/-- A method on the counts of an id does that to the counts and leaves the rest alone. -/
theorem refOp_counts {dev dev' : BinderDevice} {id : BinderObjectId} {op : RefOp} {b : Bool}
    (h : dev.refOp id op = some (b, dev')) :
    (∀ id', dev'.objectRefcounts id' =
      if id' = id then (dev.objectRefcounts id').bind (·.step op) else dev.objectRefcounts id') ∧
    (∀ id', (dev'.objectRefcounts id').isSome = (dev.objectRefcounts id').isSome) ∧
    dev' = { dev with objectRefcounts := dev'.objectRefcounts } := by
  rcases BinderDevice.refOp_eq_some h with ⟨hnone, -, rfl⟩ | ⟨s, s', hs, hs', -, rfl⟩
  · refine ⟨fun id' => ?_, fun _ => rfl, rfl⟩
    split_ifs with hid
    · rw [hid, hnone]
      rfl
    · rfl
  · refine ⟨fun id' => ?_, fun id' => ?_, rfl⟩
    · by_cases hid : id' = id
      · rw [if_pos hid, hid, hs]
        simp [hs']
      · rw [if_neg hid]
        exact DashMap.insert_of_ne _ _ hid
    · by_cases hid : id' = id
      · simp [hid, hs]
      · exact congrArg Option.isSome (DashMap.insert_of_ne _ _ hid)

/-- A submitted command is written if the kernel takes it, and nothing else happens. -/
theorem submitCommand_eq (dev : BinderDevice) (cmd : Command) :
    dev.submitCommand kernel cmd =
      { dev with
        written := dev.written ++ if kernel dev.written cmd = none then [cmd] else [] } := by
  unfold BinderDevice.submitCommand BinderDevice.writeCommand
  cases h : kernel dev.written cmd with
  | none => simp
  | some errno => simp

/-- An arm that goes on unless it panics. -/
theorem dispatch_of_arm {α : Type} {m : Met} {r : Record} {x : Option α} {f : α → Process}
    (h : arm kernel m.world m.found r = x.map fun y => (f y, .next)) :
    dispatch kernel m r = x.map fun y => (f y, none) := by
  rw [dispatch, h]
  cases x <;> rfl

/-- The arm of a record that must have an effect does not return. -/
theorem dispatch_of_change {m : Met} {r : Record} {c : Change} (hc : r.change = some c)
    (p : Process) (res : WriteReadResult) : dispatch kernel m r ≠ some (p, some res) := by
  intro h
  cases r <;> cases hc
  case acquire target | release target =>
    rw [dispatch_of_arm kernel rfl, Option.map_eq_some_iff] at h
    obtain ⟨_, _, heq⟩ := h
    cases heq
  all_goals cases h

/-- The end of the arm of a transaction comes to an end if the rollback and the drop do. -/
theorem isSome_finishReply (w : World) (p : Process) (reply : Transmission)
    (replyData : PayloadBuilder) (res : Option WriteReadResult) :
    (finishReply w p reply replyData res).isSome ↔
      ∃ p', rollBack p reply res = some p' ∧ (w.dropReply replyData p').isSome := by
  rw [finishReply]
  cases rollBack p reply res <;> simp

/-- The arm of a two-way transaction behind its handler. -/
theorem replies_iff (m : Met) (t : Transmission) (replyData : PayloadBuilder) (p : Process) :
    m.Replies t replyData p ↔ ∃ p', ((sendReply m.world p t replyData).bind fun sent =>
      m.nested.bind fun x => (finishReply m.world x.2 sent.1 replyData x.1).bind fun p =>
        some (p, (none : Option WriteReadResult))) = some (p', none) := by
  rw [Met.Replies, sendReply]
  cases markObjectsAsPendingRemote (replyTo m.world t replyData) p.device with
  | none => simp
  | some device =>
    cases m.nested with
    | none => simp
    | some x =>
      obtain ⟨res, after⟩ := x
      simp only [← isSome_finishReply, Option.isSome_some, true_and, Option.map_some,
        Option.bind_some, Option.some.injEq, Prod.mk.injEq]
      cases hfinish : finishReply m.world after (replyTo m.world t replyData) replyData res <;>
        simp [hfinish]

/-- The conditions under which the loop goes on behind a transaction. -/
theorem passes_transaction_iff (m : Met) (secCtx : Option Usize) (t : Transmission) :
    (Record.transaction secCtx t).Passes m ↔
      ∃ p, dispatch kernel m (.transaction secCtx t) = some (p, none) := by
  rw [Record.Passes, dispatch, arm, transactionArm]
  cases hobj : m.found.device.objects t.targetId with
  | none =>
    -- the arm returns, or the drop of the reader or the write of the empty reply panics
    refine ⟨fun h => ?_, fun h => ?_⟩
    · obtain ⟨handler, hmem, -⟩ := h
      cases hmem
    · obtain ⟨p, hp⟩ := h
      generalize m.world.dropReader _ _ = dropped at hp
      cases dropped with
      | none => cases hp
      | some p' =>
        simp only [Option.bind_eq_bind, Option.bind_some] at hp
        split_ifs at hp
        · simp at hp
        · generalize (BinderDevice.writeCommand kernel _ _) = write at hp
          cases write <;> simp at hp
  | some handler =>
    simp only [Option.mem_def, Option.some.injEq, exists_eq_left']
    cases hone : t.header.isOneWay with
    | true => cases m.handleOneWay handler (t.toTransaction m.found) m.found <;> simp
    | false =>
      simp only [Bool.false_eq_true, false_implies, true_and, if_false, forall_const]
      cases m.handle handler (t.toTransaction m.found) m.found with
      | none => simp
      | some x =>
        obtain ⟨replyData, p⟩ := x
        simp only [Option.some.injEq, Prod.mk.injEq, Option.bind_eq_bind, Option.bind_some]
        constructor
        · rintro ⟨replyData', p', ⟨rfl, rfl⟩, hreplies⟩
          exact (replies_iff m t replyData p).mp hreplies
        · intro h
          exact ⟨replyData, p, ⟨rfl, rfl⟩, (replies_iff m t replyData p).mpr h⟩

/-- The conditions under which the loop goes on behind a record. -/
theorem passes_iff (m : Met) (r : Record) :
    r.Passes m ↔ ∃ p, dispatch kernel m r = some (p, none) := by
  cases r
  case transaction secCtx t => exact passes_transaction_iff kernel m secCtx t
  case acquire target =>
    rw [Record.Passes, dispatch_of_arm kernel rfl]
    cases m.found.device.refOp target.id .increaseRemote <;> simp
  case release target =>
    rw [Record.Passes, dispatch_of_arm kernel rfl]
    cases m.found.device.refOp target.id .decreaseRemote <;> simp
  case failedReply =>
    rw [Record.Passes, dispatch, arm]
    cases m.world.lastError <;> simp
  all_goals simp [Record.Passes, dispatch, arm]

/-- Written once means that the kernel took the command. -/
theorem append_ite_eq_iff {P : Prop} [Decidable P] {α : Type} (l : List α) (a : α) :
    (l ++ if P then [a] else []) = l ++ [a] ↔ P := by
  split_ifs with h <;> simp [h]

/-- What a record needs, for the change it must make. -/
theorem answered_iff {m : Met} {r : Record} {c : Change} (hc : r.change = some c) :
    r.Answered kernel m ↔
      (∀ cmd ∈ c.answer, kernel m.found.device.written cmd = none) ∧
        (0 < c.loopers → m.world.canSpawn = true) := by
  refine ⟨fun h => h c hc, fun h c' hc' => ?_⟩
  rw [hc] at hc'
  cases hc'
  exact h

/-- An arm that submits its answer behind all else that it must do makes its change exactly if the
kernel takes the answer. -/
theorem made_submit_iff {c : Change} {before p : Process} {cmd : Command}
    (hanswer : c.answer = some cmd) (h : Change.Made { c with answer := none } before p) :
    c.Made before { p with device := p.device.submitCommand kernel cmd } ↔
      kernel before.device.written cmd = none := by
  have hwritten : p.device.written = before.device.written := by simpa using h.written
  rw [submitCommand_eq]
  constructor
  · intro hmade
    have hmade := hmade.written
    simp only [hwritten, hanswer, Option.toList_some, append_ite_eq_iff] at hmade
    exact hmade
  · intro hk
    refine ⟨h.objects, h.counts, h.registered, ?_, h.deathNotifications, h.cancelled, h.loopers⟩
    simp [hwritten, hanswer, hk]

/-- A method on the counts of an id is the whole change. -/
theorem made_of_refOp {before : Process} {device : BinderDevice} {id : BinderObjectId} {op : RefOp}
    {b : Bool} (h : before.device.refOp id op = some (b, device)) :
    Change.Made ⟨some (id, op), none, none, 0⟩ before { before with device } := by
  obtain ⟨hcounts, hreg, hrest⟩ := refOp_counts h
  refine ⟨by rw [hrest], hcounts, hreg, ?_, fun cookie => ?_, ?_, rfl⟩
  · rw [hrest]
    simp
  · rw [hrest]
    rfl
  · simp

/-- The arm of a record that must have an effect makes its change, if the record gets its answer
through.

**Proof sketch.** One case per kind. The counts change by the method of the arm, which leaves the
rest of the device alone; the answer is written if the kernel takes it. -/
theorem made_iff {m : Met} {r : Record} {c : Change} {p : Process} (hc : r.change = some c)
    (hp : dispatch kernel m r = some (p, none)) : c.Made m.found p ↔ r.Answered kernel m := by
  rw [answered_iff kernel hc]
  cases r <;> cases hc
  case acquire target =>
    rw [dispatch_of_arm kernel rfl, Option.map_eq_some_iff] at hp
    obtain ⟨⟨b, device⟩, hop, heq⟩ := hp
    cases heq
    rw [made_submit_iff kernel (p := { m.found with device }) rfl (made_of_refOp hop)]
    simp
  case release target =>
    rw [dispatch_of_arm kernel rfl, Option.map_eq_some_iff] at hp
    obtain ⟨⟨b, device⟩, hop, heq⟩ := hp
    cases heq
    exact ⟨fun _ => by simp, fun _ => made_of_refOp hop⟩
  case increfs v =>
    cases hp
    rw [made_submit_iff kernel (p := m.found) rfl]
    · simp
    · refine ⟨rfl, fun _ => rfl, fun _ => rfl, ?_, fun _ => rfl, ?_, rfl⟩ <;> simp
  case deadBinder cookie =>
    cases hp
    rw [made_submit_iff kernel (p := { m.found with
      device := { m.found.device with
        deathNotifications := m.found.device.deathNotifications.remove cookie }
      cancelled := m.found.cancelled ++ (m.found.device.deathNotifications cookie).toList }) rfl]
    · simp
    · refine ⟨rfl, fun _ => rfl, fun _ => rfl, ?_, fun cookie' => ?_, rfl, rfl⟩
      · simp
      · simp only [Option.some.injEq]
        split_ifs with heq
        · subst heq
          exact DashMap.remove_self _ _
        · exact DashMap.remove_of_ne _ (Ne.symm heq)
  case spawnLooper =>
    cases hp
    constructor
    · intro hmade
      have h := hmade.loopers
      refine ⟨fun _ hcmd => (by cases hcmd), fun _ => ?_⟩
      by_contra hspawn
      rw [if_neg hspawn] at h
      simp at h
    · rintro ⟨-, hspawn⟩
      rw [if_pos (hspawn Nat.one_pos)]
      refine ⟨rfl, fun _ => rfl, fun _ => rfl, ?_, fun _ => rfl, ?_, rfl⟩ <;> simp

/-! ## The whole buffer -/

/-- Over decoded records, every record that must have an effect has it if it is reached and gets
its answer through. -/
theorem takeEffectOnce_dispatchRecords (rs : List Record) :
    TakeEffectOnce rs (dispatchRecords kernel env ⟨[], .exhausted⟩ rs).log ↔
      Unobstructed kernel env true rs := by
  refine forall_congr' fun i => forall_congr' fun r => forall_congr' fun c =>
    forall_congr' fun hi => forall_congr' fun hc => ?_
  have hlog := log_dispatchRecords kernel env ⟨[], .exhausted⟩ rs hi
    (fun p res => dispatch_of_change kernel hc p res)
  simp only [List.length_nil, Nat.zero_add, ← passes_iff] at hlog
  constructor
  · rintro ⟨before, after, hentry, hmade⟩
    obtain ⟨hpast, p, hp, heq⟩ := (hlog (before, after)).mp hentry
    cases heq
    refine ⟨rfl, fun j hj r' hr' => ?_, (made_iff kernel hc hp).mp hmade⟩
    rcases Nat.lt_or_eq_of_le hj with hlt | rfl
    · exact hpast j hlt r' hr'
    · rw [hi] at hr'
      cases hr'
      exact (passes_iff kernel _ _).mpr ⟨after, hp⟩
  · rintro ⟨-, hpast, hans⟩
    obtain ⟨p, hp⟩ := (passes_iff kernel _ _).mp (hpast i (Nat.le_refl i) r hi)
    exact ⟨(env i).found, p, (hlog _).mpr ⟨fun j hj => hpast j (Nat.le_of_lt hj), p, hp, rfl⟩,
      (made_iff kernel hc hp).mpr hans⟩

/-- A read without a device dispatches nothing. -/
theorem takeEffectOnce_nil (rs : List Record) :
    TakeEffectOnce rs [] ↔ Unobstructed kernel env false rs := by
  refine forall_congr' fun i => forall_congr' fun r => forall_congr' fun c =>
    forall_congr' fun _ => forall_congr' fun _ => ?_
  simp

/-- **Records that are lost.** On every buffer of records whose arms read the right size, and
whatever the loop meets at them, every record that must have an effect has it once, if and only if
each of them is reached on a live device (no record up to it returns from the read, panics or never
comes to an end) and gets its answer through. -/
theorem records_take_effect_iff (mem : Mapping) (alive : Bool) (rs : List ReturnRecord)
    (hrs : ∀ r ∈ rs, r.ret ≠ .attemptAcquire) :
    (∃ s, dispatchRead kernel env mem alive (ReturnRecord.encodeAll rs) = some s ∧
        TakeEffectOnce (rs.map fun r => r.read.decode mem) s.log) ↔
      Unobstructed kernel env alive (rs.map fun r => r.read.decode mem) := by
  cases alive with
  | false => simp [dispatchRead, ← takeEffectOnce_nil]
  | true =>
    simp only [dispatchRead_encodeAll kernel env mem hrs, Option.some.injEq, exists_eq_left',
      takeEffectOnce_dispatchRecords]

end Loop

/-! ## A buffer with an acquire -/

/-- The record `BR_ACQUIRE` of a target. -/
def acquireRecord (target : BinderPtrCookie) : ReturnRecord where
  ret := .acquire
  payload := BinderPtrCookie.layout.encode target
  length_payload := BinderPtrCookie.layout.length_encode target

/-- The record `BR_DEAD_REPLY`. -/
def deadReplyRecord : ReturnRecord := ⟨.deadReply, [], rfl⟩

/-- A world in which drops do nothing. -/
def quietWorld : World where
  sender := ⟨0, 0, 0, 0⟩
  lastError := some 0
  canSpawn := true
  dropReader _ p := some p
  dropReply _ p := some p

/-- A process on which the object `id` is registered. -/
def processWith (id : BinderObjectId) : Process where
  device :=
    { BinderDevice.new 0 with
      objects := DashMap.insert DashMap.empty id ⟨0⟩
      objectRefcounts := DashMap.insert DashMap.empty id (ObjectRefState.new id) }
  cancelled := []
  loopers := 0

/-- The loop meets that process at each record, and handlers do nothing. -/
def quietMet (id : BinderObjectId) (_ : ℕ) : Met :=
  ⟨processWith id, quietWorld, fun _ _ p => some (PayloadBuilder.new, p), fun _ _ p => some p,
    some (none, processWith id)⟩

/-- In front of a `BR_DEAD_REPLY`, an acquire has its effect. -/
theorem acquire_before_deadReply :
    (∀ r ∈ [acquireRecord ⟨1, 0⟩, deadReplyRecord], r.ret ≠ .attemptAcquire) ∧
    ∃ s, dispatchRead (fun _ _ => none) (quietMet ⟨1, 0⟩) (fun _ => ([], [])) true
        (ReturnRecord.encodeAll [acquireRecord ⟨1, 0⟩, deadReplyRecord]) = some s ∧
      TakeEffectOnce ([acquireRecord ⟨1, 0⟩, deadReplyRecord].map fun r =>
        r.read.decode fun _ => ([], [])) s.log := by
  have hrs : ∀ r ∈ [acquireRecord ⟨1, 0⟩, deadReplyRecord], r.ret ≠ .attemptAcquire := by
    simp [acquireRecord, deadReplyRecord]
  refine ⟨hrs, (records_take_effect_iff _ _ _ _ _ hrs).mpr ?_⟩
  intro i r c hi hc
  match i with
  | 0 =>
    cases hi
    cases hc
    refine ⟨rfl, fun j hj r' hr' => ?_, fun c' hc' => ?_⟩
    · obtain rfl := Nat.le_zero.mp hj
      cases hr'
      show ((processWith ⟨1, 0⟩).device.refOp ⟨1, 0⟩ .increaseRemote).isSome
      decide
    · cases hc'
      exact ⟨fun _ _ => rfl, fun h => absurd h (Nat.lt_irrefl 0)⟩
  | 1 =>
    cases hi
    cases hc
  | i + 2 => cases hi

/-- Behind a `BR_DEAD_REPLY` it has none. -/
theorem acquire_lost_behind_deadReply :
    ¬ ∃ s, dispatchRead (fun _ _ => none) (quietMet ⟨1, 0⟩) (fun _ => ([], [])) true
        (ReturnRecord.encodeAll [deadReplyRecord, acquireRecord ⟨1, 0⟩]) = some s ∧
      TakeEffectOnce ([deadReplyRecord, acquireRecord ⟨1, 0⟩].map fun r =>
        r.read.decode fun _ => ([], [])) s.log := by
  have hrs : ∀ r ∈ [deadReplyRecord, acquireRecord ⟨1, 0⟩], r.ret ≠ .attemptAcquire := by
    simp [acquireRecord, deadReplyRecord]
  simp only [dispatchRead_encodeAll _ _ _ hrs, Option.some.injEq, exists_eq_left',
    takeEffectOnce_dispatchRecords]
  intro h
  -- the acquire is the second record, and the first one returns
  exact (h 1 _ _ rfl rfl).2.1 0 (Nat.zero_le 1) _ rfl

end BinderBinder
