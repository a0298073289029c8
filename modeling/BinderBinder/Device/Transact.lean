import BinderBinder.Device.ContextManager
import BinderBinder.Device.Thread
import BinderBinder.Payload.Drop

set_option relaxedAutoImplicit false
set_option autoImplicit false

/-!
# Transactions, from their target to their result

`transact_blocking` and `transact_one_way` resolve their target to a local object, whose handler
runs in this process, or to a handle, and then the kernel is asked. What each `binder_write_read` of
a remote transaction returns, and the device it leaves, is an input of these functions.

## Main definitions

* `TransactionTarget` — what a transaction can be sent to.
* `ReaderProgram` — what a handler does with the reader of a transaction.
* `PayloadReader.dropAlone` — the end of a reader on a device on which nothing else acts.
* `BinderDevice.selfTransactBlocking`, `BinderDevice.selfTransactOneWay` — the local path.
* `BinderDevice.remoteTransactBlocking`, `BinderDevice.remoteTransactOneWay` — the remote path.
* `BinderDevice.transactBlocking`, `BinderDevice.transactOneWay` — both, by the target.

## Main results

* `BinderDevice.transact_contextManager` — where transactions to the context manager go.
-/

namespace BinderBinder

open Run

/-! ## Targets -/

/-- The implementors of the trait `TransactionTarget`. -/
inductive TransactionTarget
  | binderObject (o : BinderObject)
  | binderObjectRef (r : BinderObjectRef)
  | borrowedBinderObject (o : BorrowedBinderObject)
  | weakBinderObject (o : WeakBinderObject)
  | binderRef (r : BinderRef)
  | weakBinderRef (r : WeakBinderRef)
  | binderObjectOrRef (x : BinderObjectOrRef)
  | contextManager (ctx : ContextManagerBinderRef)

/-- `BinderObjectOrRef::get_transaction_target_handle`. -/
def BinderObjectOrRef.getTransactionTargetHandle : BinderObjectOrRef → TransactionTargetHandle
  | object o => .local o.id
  | weakObject o => .local o.id
  | ref r => .remote r.handle
  | weakRef r => .remote r.id

/-- `TransactionTargetImpl::get_transaction_target_handle`. -/
def TransactionTarget.getTransactionTargetHandle : TransactionTarget → TransactionTargetHandle
  | binderObject o => .local o.id
  | binderObjectRef r => .local r.id
  | borrowedBinderObject o => .local o.id
  | weakBinderObject o => .local o.id
  | binderRef r => .remote r.handle
  | weakBinderRef r => .remote r.id
  | binderObjectOrRef x => x.getTransactionTargetHandle
  | contextManager ctx => ctx.getTransactionTargetHandle

/-! ## Handlers -/

/-- What a handler does with its reader: reads, each of which decides what it does next, and at the
end its result. A read that panics (`none`) may be caught, and has changed nothing. -/
inductive ReaderProgram (ρ : Type)
  | ret (result : ρ)
  | readBytes (numBytes : ℕ)
      (next : Option (Except PayloadBytesReadError (List UInt8)) → ReaderProgram ρ)
  | readBinderRef
      (next : Option (Except PayloadBinderRefReadError BinderObjectOrRef) → ReaderProgram ρ)
  | readFd (next : Option (Except PayloadObjectReadError (Fd × Usize)) → ReaderProgram ρ)
  | nextObjectType (next : Option (Option BinderObjectType) → ReaderProgram ρ)
  | bytesUntilNextObj (next : Option ℕ → ReaderProgram ρ)

/-- The program on a reader, with the reader that it leaves; handles are decoded on the device. -/
def ReaderProgram.run {ρ : Type} (kernel : KernelWrite) :
    ReaderProgram ρ → PayloadReader → BinderDevice → ρ × PayloadReader × BinderDevice
  | ret result, r, dev => (result, r, dev)
  | readBytes numBytes next, r, dev =>
    match r.readBytes numBytes with
    | some (res, r) => run kernel (next (some res)) r dev
    | none => run kernel (next none) r dev
  | readBinderRef next, r, dev =>
    match r.readBinderRef kernel dev with
    | some (res, r, dev) => run kernel (next (some res)) r dev
    | none => run kernel (next none) r dev
  | readFd next, r, dev =>
    match r.readFd with
    | some (res, r) => run kernel (next (some res)) r dev
    | none => run kernel (next none) r dev
  | nextObjectType next, r, dev => run kernel (next r.nextObjectType) r dev
  | bytesUntilNextObj next, r, dev => run kernel (next r.bytesUntilNextObj) r dev

/-! ## Drops on a device on which nothing else acts -/

/-- Handles are dropped in order, each on its own device, of which only `dev` is looked at here.
`last` says of each by its number whether it is the last of its `Arc`s. -/
def dropHandles (kernel : KernelWrite) (last : ℕ → Bool × Bool) (dev : BinderDevice)
    (handles : List (BinderObjectOrRef × ℕ)) : Option BinderDevice :=
  handles.foldlM (fun dev (x, i) =>
    if x.device = dev.addr then x.dropArc kernel dev (last i).1 (last i).2 else some dev) dev

/-- The end of a payload: its handles are dropped. -/
def PayloadBuilder.drop (kernel : KernelWrite) (last : ℕ → Bool × Bool) (dev : BinderDevice)
    (b : PayloadBuilder) : Option BinderDevice :=
  dropHandles kernel last dev b.binderObjects.zipIdx

namespace PayloadReader

variable (kernel : KernelWrite) (last : ℕ → Bool × Bool)

/-- The loop of `Drop for PayloadReader`, for at most `fuel` rounds: each round meets the device that
the one before it left. -/
def dropLoopAlone : ℕ → DropState → BinderDevice → Option (DropState × BinderDevice)
  | 0, _, _ => none
  | fuel + 1, s, dev =>
    match dropRound kernel ⟨dev, (last s.visited.length).1, (last s.visited.length).2⟩ s with
    | none => none
    | some none => some (s, dev)
    | some (some (s, dev)) => dropLoopAlone fuel s dev

/-- The end of a reader: `Drop for PayloadReader`, and then the handles that it holds are dropped. A
loop that has not left after a round for each unread object never does. `last` numbers the handles
that the loop reads, and behind them those that the reader holds. -/
def dropAlone (dev : BinderDevice) (r : PayloadReader) : Option BinderDevice := do
  let (s, dev) ← dropLoopAlone kernel last (r.unread.length + 1) ⟨r, [], [], []⟩ dev
  let dev ← s.reader.data.freeOn kernel dev
  dropHandles kernel last dev (r.binderObjects.zipIdx r.unread.length)

end PayloadReader

/-! ## What handlers do -/

/-- What the handlers do with a two-way transaction: its code and the ids of its sender decide, and
what they read from its payload. -/
abbrev Handlers := HandlerRef → UInt32 → UInt32 → UInt32 → ReaderProgram PayloadBuilder

/-- `handle` of the handler of an object: its program runs on the reader, and at its end the reader
is dropped; `none` is a panic, or a drop that never ends. -/
def Handlers.handle (handlers : Handlers) (kernel : KernelWrite) (lastRead : ℕ → Bool × Bool)
    (handler : HandlerRef) (transaction : Transaction) (dev : BinderDevice) :
    Option (PayloadBuilder × BinderDevice) :=
  let (reply, reader, dev) := (handlers handler transaction.code transaction.senderPid
    transaction.senderEuid).run kernel transaction.payload dev
  (reader.dropAlone kernel lastRead dev).map fun dev => (reply, dev)

namespace BinderDevice

/-! ## The local path -/

section Local

-- `dup` of the operating system on the descriptor table of the process, what the unused half of a
-- union holds, the ids of the process, and which handles of the payload, of its reader and of the
-- reply are the last of their `Arc`s
variable {φ : Type} (dup : φ → Fd → Option (Fd × φ)) (undef : ℕ → UInt32) (kernel : KernelWrite)
  (handlers : Handlers) (pid euid : UInt32) (last lastRead lastReply : ℕ → Bool × Bool)

/-- `BinderDevice::self_transact_blocking`; `none` is a panic. -/
def selfTransactBlocking (dev : BinderDevice) (files : φ) (id : BinderObjectId) (code : UInt32)
    (data : PayloadBuilder) :
    Option (Except Error (UInt32 × PayloadReader) × BinderDevice × φ) :=
  match dev.objects id with
  | none => (data.drop kernel last dev).map fun dev => (.error .objectNotFound, dev, files)
  | some handler => do
    let (payload, dev, files) ← PayloadReader.fromBuilder dup undef dev files data
    let (reply, dev) ← handlers.handle kernel lastRead handler ⟨code, payload, pid, euid⟩ dev
    let (replyReader, dev, files) ← PayloadReader.fromBuilder dup undef dev files reply
    let dev ← reply.drop kernel lastReply dev
    let dev ← data.drop kernel last dev
    return (.ok (code, replyReader), dev, files)

/-- `BinderDevice::self_transact_one_way`: with the task that is spawned to run the handler. -/
def selfTransactOneWay (dev : BinderDevice) (files : φ) (id : BinderObjectId) (code : UInt32)
    (data : PayloadBuilder) :
    Option (Except Error Unit × Option (HandlerRef × Transaction) × BinderDevice × φ) :=
  match dev.objects id with
  | none => (data.drop kernel last dev).map fun dev => (.error .objectNotFound, none, dev, files)
  | some handler => do
    let (payload, dev, files) ← PayloadReader.fromBuilder dup undef dev files data
    let dev ← data.drop kernel last dev
    return (.ok (), some (handler, ⟨code, payload, pid, euid⟩), dev, files)

end Local

end BinderDevice

/-! ## The remote path -/

/-- What a `binder_write_read` returned, and the device that it and the other threads left. -/
structure ReadResult where
  res : Option WriteReadResult
  after : BinderDevice

/-- How far a call is: it waits for more reads, it panicked, or it returned. -/
inductive CallResult (α : Type)
  | waiting
  | panicked
  | returned (res : Except Error α) (dev : BinderDevice)

/-- The error exit of the loops: the marks are rolled back. -/
def failCall {α : Type} (transaction : Transmission) (err : Error) (dev : BinderDevice) :
    CallResult α :=
  match unmarkObjectsAsPendingRemote transaction dev with
  | some dev => .returned (.error err) dev
  | none => .panicked

/-- The loop of `remote_transact_blocking`. -/
def blockingLoop (transaction : Transmission) :
    List ReadResult → CallResult (UInt32 × PayloadReader)
  | [] => .waiting
  | ⟨some (.ok v), dev⟩ :: _ => .returned (.ok v) dev
  | ⟨some (.error e), dev⟩ :: reads =>
    match e.toError with
    | some err => failCall transaction err dev
    | none => blockingLoop transaction reads
  | ⟨none, _⟩ :: reads => blockingLoop transaction reads

/-- The loop of a call waits through reads that return nothing. -/
theorem blockingLoop_append_of_none (td : Transmission) {quiet : List ReadResult}
    (h : ∀ read ∈ quiet, read.res = none) (rest : List ReadResult) :
    blockingLoop td (quiet ++ rest) = blockingLoop td rest := by
  induction quiet with
  | nil => rfl
  | cons read quiet ih =>
    obtain ⟨res, after⟩ := read
    have hnone : res = none := h ⟨res, after⟩ List.mem_cons_self
    subst hnone
    exact ih fun read hread => h read (List.mem_cons_of_mem _ hread)

/-- The loop of `remote_transact_one_way`. -/
def oneWayLoop (transaction : Transmission) : List ReadResult → CallResult Unit
  | [] => .waiting
  | ⟨some (.error e), dev⟩ :: reads =>
    match e.toError with
    | some err => failCall transaction err dev
    | none => oneWayLoop transaction reads
  | ⟨_, dev⟩ :: _ => .returned (.ok ()) dev

/-- A call returns, and the payload it was given is dropped. -/
def CallResult.dropData {α : Type} (kernel : KernelWrite) (last : ℕ → Bool × Bool)
    (data : PayloadBuilder) : CallResult α → CallResult α
  | waiting => waiting
  | panicked => panicked
  | returned res dev =>
    match data.drop kernel last dev with
    | some dev => returned res dev
    | none => panicked

/-- The transmission of a call. Its sender ids are zero, the kernel fills them in; `upper` is what
the union of its target holds next to the handle. -/
def callTransmission (upper : UInt32) (buffer offsets : Usize) (handle code flags : UInt32)
    (data : PayloadBuilder) : Transmission :=
  .ofBuilder (.ofHandle upper handle) 0 code flags ⟨0, 0, buffer, offsets⟩ data

namespace BinderDevice

section Remote

variable (kernel : KernelWrite) (last : ℕ → Bool × Bool) (upper : UInt32) (buffer offsets : Usize)

/-- `BinderDevice::remote_transact_blocking`. -/
def remoteTransactBlocking (dev : BinderDevice) (handle code : UInt32) (data : PayloadBuilder)
    (reads : List ReadResult) : CallResult (UInt32 × PayloadReader) :=
  let transaction := callTransmission upper buffer offsets handle code TransactionFlags.acceptFds
    data
  match markObjectsAsPendingRemote transaction dev with
  | some _ => (blockingLoop transaction reads).dropData kernel last data
  | none => .panicked

/-- `BinderDevice::remote_transact_one_way`. -/
def remoteTransactOneWay (dev : BinderDevice) (handle code : UInt32) (data : PayloadBuilder)
    (reads : List ReadResult) : CallResult Unit :=
  let transaction := callTransmission upper buffer offsets handle code
    (TransactionFlags.acceptFds ||| TransactionFlags.oneWay) data
  match markObjectsAsPendingRemote transaction dev with
  | some _ => (oneWayLoop transaction reads).dropData kernel last data
  | none => .panicked

/-- A two-way call whose objects could be marked runs its loop and drops the payload. -/
theorem remoteTransactBlocking_of_mark {dev dev' : BinderDevice} {handle code : UInt32}
    {data : PayloadBuilder} {reads : List ReadResult}
    (h : markObjectsAsPendingRemote (callTransmission upper buffer offsets handle code
      TransactionFlags.acceptFds data) dev = some dev') :
    dev.remoteTransactBlocking kernel last upper buffer offsets handle code data reads =
      (blockingLoop (callTransmission upper buffer offsets handle code
        TransactionFlags.acceptFds data) reads).dropData kernel last data := by
  simp only [remoteTransactBlocking, h]

/-- A one-way call whose objects could be marked runs its loop and drops the payload. -/
theorem remoteTransactOneWay_of_mark {dev dev' : BinderDevice} {handle code : UInt32}
    {data : PayloadBuilder} {reads : List ReadResult}
    (h : markObjectsAsPendingRemote (callTransmission upper buffer offsets handle code
      (TransactionFlags.acceptFds ||| TransactionFlags.oneWay) data) dev = some dev') :
    dev.remoteTransactOneWay kernel last upper buffer offsets handle code data reads =
      (oneWayLoop (callTransmission upper buffer offsets handle code
        (TransactionFlags.acceptFds ||| TransactionFlags.oneWay) data) reads).dropData kernel last
          data := by
  simp only [remoteTransactOneWay, h]

end Remote

/-! ## Both paths -/

section Both

variable {φ : Type} (dup : φ → Fd → Option (Fd × φ)) (undef : ℕ → UInt32) (kernel : KernelWrite)
  (handlers : Handlers) (pid euid : UInt32) (last lastRead lastReply : ℕ → Bool × Bool)
  (upper : UInt32) (buffer offsets : Usize)

/-- `BinderDevice::transact_blocking`. -/
def transactBlocking (dev : BinderDevice) (files : φ) (target : TransactionTarget) (code : UInt32)
    (data : PayloadBuilder) (reads : List ReadResult) : CallResult (UInt32 × PayloadReader) :=
  match target.getTransactionTargetHandle with
  | .local id =>
    match dev.selfTransactBlocking dup undef kernel handlers pid euid last lastRead lastReply files
      id code data with
    | some (res, dev, _) => .returned res dev
    | none => .panicked
  | .remote handle =>
    dev.remoteTransactBlocking kernel last upper buffer offsets handle code data reads

/-- `BinderDevice::transact_one_way`. -/
def transactOneWay (dev : BinderDevice) (files : φ) (target : TransactionTarget) (code : UInt32)
    (data : PayloadBuilder) (reads : List ReadResult) : CallResult Unit :=
  match target.getTransactionTargetHandle with
  | .local id =>
    match dev.selfTransactOneWay dup undef kernel pid euid last files id code data with
    | some (res, _, dev, _) => .returned res dev
    | none => .panicked
  | .remote handle =>
    dev.remoteTransactOneWay kernel last upper buffer offsets handle code data reads

/-- Targets that resolve to the same are the same for a two-way transaction. -/
theorem transactBlocking_congr (dev : BinderDevice) (files : φ) {target target' : TransactionTarget}
    (h : target.getTransactionTargetHandle = target'.getTransactionTargetHandle) :
    dev.transactBlocking dup undef kernel handlers pid euid last lastRead lastReply upper buffer
        offsets files target =
      dev.transactBlocking dup undef kernel handlers pid euid last lastRead lastReply upper buffer
        offsets files target' := by
  funext code data reads
  rw [transactBlocking, transactBlocking, h]

/-- They are for a one-way transaction. -/
theorem transactOneWay_congr (dev : BinderDevice) (files : φ) {target target' : TransactionTarget}
    (h : target.getTransactionTargetHandle = target'.getTransactionTargetHandle) :
    dev.transactOneWay dup undef kernel pid euid last upper buffer offsets files target =
      dev.transactOneWay dup undef kernel pid euid last upper buffer offsets files target' := by
  funext code data reads
  rw [transactOneWay, transactOneWay, h]

/-- **Transactions to the context manager.** Behind every sequence of calls whose last one was
accepted, or was for the object of the last accepted one, a transaction to the context manager is
one to that object, or to the handle zero if there is none. -/
theorem transact_contextManager {calls : List SetContextManagerCall} {s : Routing}
    (hcalls : exec Routing.step .new calls = some s)
    (hlast : ∀ c ∈ calls.getLast?, c.accepted = true ∨ lastAccepted calls = some c.id)
    {target : TransactionTarget}
    (htarget : target.getTransactionTargetHandle = Routing.targetOf (lastAccepted calls))
    (dev : BinderDevice) (files : φ) :
    dev.transactBlocking dup undef kernel handlers pid euid last lastRead lastReply upper buffer
        offsets files (.contextManager s.ctx) =
      dev.transactBlocking dup undef kernel handlers pid euid last lastRead lastReply upper buffer
        offsets files target ∧
    dev.transactOneWay dup undef kernel pid euid last upper buffer offsets files
        (.contextManager s.ctx) =
      dev.transactOneWay dup undef kernel pid euid last upper buffer offsets files target := by
  have hresolve : (TransactionTarget.contextManager s.ctx).getTransactionTargetHandle =
      target.getTransactionTargetHandle :=
    ((Routing.after_of_exec hcalls).target_eq_iff.mpr hlast).trans htarget.symm
  exact ⟨dev.transactBlocking_congr _ _ _ _ _ _ _ _ _ _ _ _ files hresolve,
    dev.transactOneWay_congr _ _ _ _ _ _ _ _ _ files hresolve⟩

end Both

end BinderDevice

end BinderBinder
