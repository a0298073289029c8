import BinderBinder.Device.Rollback

set_option relaxedAutoImplicit false
set_option autoImplicit false

/-!
# Handles of several devices

A process may have several devices open, each with its own counter of ids and its own handles. A
handle carries its device, and equality compares it. A transaction, a record of a payload and a mark
carry only the number, which is looked up on the device they are used on.

## Main definitions

* `Capability` — what a handle stands for: a device, and an id or a handle of it.
* `BinderDevice.registerObject` — the ids that a device gives out.
* `BinderDevice.Rejects` — a target that no handler runs for.
* `TargetKept`, `DecodeKept`, `SentKept`, `MarksKept` — a transaction, a delivered record, a sent
  record and the marks of a payload concern what the handle stands for, or nothing.

## Main results

* `BinderDevice.transactBlocking_runs_no_other`, `BinderDevice.transactBlocking_error_of_unknown`,
  `BinderDevice.transactOneWay_error_of_unknown` — what transactions by their target do, and when
  they fail.
* `capabilities_kept_iff` — when all of them concern what the handle stands for.
* `BinderDevice.other_object_reached` — two devices whose first objects are taken for each other.
-/

namespace BinderBinder

open Run

/-! ## What a handle stands for -/

/-- What a handle stands for: a local object of a device, or what a handle of a device refers to. -/
inductive Capability
  | object (device : Addr) (id : BinderObjectId)
  | remote (device : Addr) (handle : UInt32)
  deriving DecidableEq, Repr

namespace Capability

/-- The device. -/
def device : Capability → Addr
  | object d _ => d
  | remote d _ => d

/-- The same number on another device. -/
def on (addr : Addr) : Capability → Capability
  | object _ id => object addr id
  | remote _ handle => remote addr handle

/-- A number stands for the same on its own device only. -/
theorem on_eq_self_iff {c : Capability} {addr : Addr} : c.on addr = c ↔ c.device = addr := by
  cases c with
  | object d id =>
    rw [on, device, object.injEq]
    exact ⟨fun h => h.1.symm, fun h => ⟨h.symm, rfl⟩⟩
  | remote d handle =>
    rw [on, device, remote.injEq]
    exact ⟨fun h => h.1.symm, fun h => ⟨h.symm, rfl⟩⟩

end Capability

/-- What a handle stands for. -/
def BinderObjectOrRef.capability : BinderObjectOrRef → Capability
  | object o => .object o.device o.id
  | weakObject o => .object o.device o.id
  | ref r => .remote r.device r.handle
  | weakRef r => .remote r.device r.id

/-- Handles are equal if they are of the same kind and stand for the same. -/
theorem BinderObjectOrRef.beq_iff (x y : BinderObjectOrRef) :
    (x == y) = true ↔ x.binderType = y.binderType ∧ x.capability = y.capability := by
  cases x <;> cases y <;>
    simp [(· == ·), beq, binderType, capability, BinderRef.handle]

/-- The device of what a handle stands for is its own. -/
@[simp] theorem BinderObjectOrRef.device_capability (x : BinderObjectOrRef) :
    x.capability.device = x.device := by
  cases x <;> rfl

/-! ## Ids -/

/-- `BinderDevice::register_object`, with the counter of the device. -/
def BinderDevice.registerObject (dev : BinderDevice) (counter : Usize) (handler : HandlerRef) :
    BinderObject × BinderDevice × Usize :=
  let id : BinderObjectId := ⟨counter, 0⟩
  (⟨dev.addr, id, handler⟩,
    { dev with
      objects := dev.objects.insert id handler
      objectRefcounts := dev.objectRefcounts.insert id (ObjectRefState.new id) },
    counter + 1)

/-! ## Targets -/

/-- What a number stands for on a device. -/
def TransactionTargetHandle.resolve (addr : Addr) : TransactionTargetHandle → Capability
  | .local id => .object addr id
  | .remote handle => .remote addr handle

namespace TransactionTarget

/-- The device of a target. The cell of a context manager does not name its device: `owner` is the
one it was obtained from. -/
def device (owner : Addr) : TransactionTarget → Addr
  | binderObject o => o.device
  | binderObjectRef r => r.device
  | borrowedBinderObject o => o.device
  | weakBinderObject o => o.device
  | binderRef r => r.device
  | weakBinderRef r => r.device
  | binderObjectOrRef x => x.device
  | contextManager _ => owner

/-- What a target stands for. -/
def capability (owner : Addr) : TransactionTarget → Capability
  | binderObject o => .object o.device o.id
  | binderObjectRef r => .object r.device r.id
  | borrowedBinderObject o => .object o.device o.id
  | weakBinderObject o => .object o.device o.id
  | binderRef r => .remote r.device r.handle
  | weakBinderRef r => .remote r.device r.id
  | binderObjectOrRef x => x.capability
  | contextManager ctx => ctx.getTransactionTargetHandle.resolve owner

/-- On another device than its own, a target resolves to the same number there. -/
theorem resolve_getTransactionTargetHandle (target : TransactionTarget) (owner addr : Addr) :
    target.getTransactionTargetHandle.resolve addr = (target.capability owner).on addr := by
  cases target with
  | binderObjectOrRef x => cases x <;> rfl
  | contextManager ctx =>
    show ctx.getTransactionTargetHandle.resolve addr =
      (ctx.getTransactionTargetHandle.resolve owner).on addr
    cases ctx.getTransactionTargetHandle <;> rfl
  | _ => rfl

/-- The device of what a target stands for is its own. -/
theorem device_capability (target : TransactionTarget) (owner : Addr) :
    (target.capability owner).device = target.device owner := by
  cases target with
  | binderObjectOrRef x => exact x.device_capability
  | contextManager ctx =>
    show (ctx.getTransactionTargetHandle.resolve owner).device = owner
    cases ctx.getTransactionTargetHandle <;> rfl
  | _ => rfl

end TransactionTarget

/-- The handles of a device that the kernel knows; a transaction to another one is answered with
`BR_FAILED_REPLY`. -/
abbrev HandleTable := UInt32 → Bool

namespace BinderDevice

/-- Whatever is sent to the target, no handler runs and the caller gets an error. -/
def Rejects (dev : BinderDevice) (table : HandleTable) : TransactionTargetHandle → Prop
  | .local id =>
    ∀ {φ : Type} (dup : φ → Fd → Option (Fd × φ)) (undef : ℕ → UInt32) (kernel : KernelWrite)
      (handlers : Handlers) (pid euid : UInt32) (last lastRead lastReply : ℕ → Bool × Bool)
      (files : φ) (code : UInt32) (data : PayloadBuilder),
    (∀ res dev' files', dev.selfTransactBlocking dup undef kernel handlers pid euid last lastRead
        lastReply files id code data = some (res, dev', files') → res = .error .objectNotFound) ∧
      ∀ res task dev' files', dev.selfTransactOneWay dup undef kernel pid euid last files id code
        data = some (res, task, dev', files') → res = .error .objectNotFound ∧ task = none
  | .remote handle =>
    table handle = false ∧
    ∀ (kernel : KernelWrite) (last : ℕ → Bool × Bool) (upper : UInt32) (buffer offsets : Usize)
      (code : UInt32) (data : PayloadBuilder) (after dev' : BinderDevice),
    (∀ res, dev.remoteTransactBlocking kernel last upper buffer offsets handle code data
        [⟨some (.error .failedReply), after⟩] = .returned res dev' → res = .error (.unknown 1)) ∧
      ∀ res, dev.remoteTransactOneWay kernel last upper buffer offsets handle code data
        [⟨some (.error .failedReply), after⟩] = .returned res dev' → res = .error (.unknown 1)

/-- The number of a target means nothing on the device. -/
def Unknown (dev : BinderDevice) (table : HandleTable) : TransactionTargetHandle → Prop
  | .local id => dev.objects id = none
  | .remote handle => table handle = false

/-- A registered target runs its handler: an empty call to it succeeds. -/
theorem exists_ok_of_registered {dev : BinderDevice} {id : BinderObjectId} {handler : HandlerRef}
    (hobj : dev.objects id = some handler) :
    ∃ v dev' files', dev.selfTransactBlocking (fun (_ : Unit) _ => none) (fun _ => 0)
      (fun _ _ => none) (fun _ _ _ _ => .ret .new) 0 0 (fun _ => (false, false))
      (fun _ => (false, false)) (fun _ => (false, false)) () id 0 .new =
        some (.ok v, dev', files') := by
  simp only [selfTransactBlocking, hobj]
  exact ⟨_, _, _, rfl⟩

/-- A call that gets a failed reply returns it, if it returns. -/
theorem error_of_failedReply {α : Type} {kernel : KernelWrite} {last : ℕ → Bool × Bool}
    {data : PayloadBuilder} {td : Transmission} {after dev' : BinderDevice} {res : Except Error α}
    (h : (failCall td (.unknown 1) after : CallResult α).dropData kernel last data =
      .returned res dev') : res = .error (.unknown 1) := by
  obtain ⟨dev, hfail, -⟩ := CallResult.dropData_eq_returned.mp h
  rw [failCall] at hfail
  cases hunmark : unmarkObjectsAsPendingRemote td after with
  | none => rw [hunmark] at hfail; cases hfail
  | some dev₁ => rw [hunmark] at hfail; cases hfail; rfl

/-- A target that is not registered is an error of the local path. -/
theorem error_of_unregistered {φ : Type} {dup : φ → Fd → Option (Fd × φ)} {undef : ℕ → UInt32}
    {kernel : KernelWrite} {handlers : Handlers} {pid euid : UInt32}
    {last lastRead lastReply : ℕ → Bool × Bool} {files files' : φ} {code : UInt32}
    {data : PayloadBuilder} {dev dev' : BinderDevice} {id : BinderObjectId}
    (hobj : dev.objects id = none) {res : Except Error (UInt32 × PayloadReader)}
    (hres : dev.selfTransactBlocking dup undef kernel handlers pid euid last lastRead lastReply files
      id code data = some (res, dev', files')) : res = .error .objectNotFound := by
  rw [selfTransactBlocking, hobj] at hres
  obtain ⟨dev₁, -, heq⟩ := Option.map_eq_some_iff.mp hres
  cases heq
  rfl

/-- So it is of the one-way path, and no handler is spawned. -/
theorem refused_of_unregistered {φ : Type} {dup : φ → Fd → Option (Fd × φ)} {undef : ℕ → UInt32}
    {kernel : KernelWrite} {pid euid : UInt32} {last : ℕ → Bool × Bool} {files files' : φ}
    {code : UInt32} {data : PayloadBuilder} {dev dev' : BinderDevice} {id : BinderObjectId}
    (hobj : dev.objects id = none) {res : Except Error Unit}
    {task : Option (HandlerRef × Transaction)}
    (hres : dev.selfTransactOneWay dup undef kernel pid euid last files id code data =
      some (res, task, dev', files')) : res = .error .objectNotFound ∧ task = none := by
  rw [selfTransactOneWay, hobj] at hres
  obtain ⟨dev₁, -, heq⟩ := Option.map_eq_some_iff.mp hres
  cases heq
  exact ⟨rfl, rfl⟩

/-- A target is rejected exactly if its number means nothing on the device. -/
theorem rejects_iff (dev : BinderDevice) (table : HandleTable) (target : TransactionTargetHandle) :
    dev.Rejects table target ↔ dev.Unknown table target := by
  cases target with
  | «local» id =>
    constructor
    · intro h
      by_contra hobj
      obtain ⟨handler, hhandler⟩ := Option.ne_none_iff_exists'.mp hobj
      obtain ⟨v, dev', files', hok⟩ := exists_ok_of_registered hhandler
      have hres := (h _ _ _ _ _ _ _ _ _ _ _ _).1 _ _ _ hok
      cases hres
    · intro hobj φ dup undef kernel handlers pid euid last lastRead lastReply files code data
      exact ⟨fun _ _ _ => error_of_unregistered hobj, fun _ _ _ _ => refused_of_unregistered hobj⟩
  | remote handle =>
    refine ⟨fun h => h.1, fun h => ⟨h, ?_⟩⟩
    intro kernel last upper buffer offsets code data after dev'
    constructor
    · intro res hres
      simp only [remoteTransactBlocking] at hres
      split at hres
      · exact error_of_failedReply hres
      · cases hres
    · intro res hres
      simp only [remoteTransactOneWay] at hres
      split at hres
      · exact error_of_failedReply hres
      · cases hres

end BinderDevice

namespace BinderDevice

/-- A transaction on the device goes to what `c` stands for: no handler takes part in it but the one
registered for the object, or it carries the handle. -/
def Addresses (dev : BinderDevice) (c : Capability) : TransactionTargetHandle → Prop
  | .local id =>
    c = .object dev.addr id ∧
    ∀ {φ : Type} (dup : φ → Fd → Option (Fd × φ)) (undef : ℕ → UInt32) (kernel : KernelWrite)
      (pid euid : UInt32) (last lastRead lastReply : ℕ → Bool × Bool) (files : φ) (code : UInt32)
      (data : PayloadBuilder),
    (∀ handlers handlers' : Handlers, (∀ handler ∈ dev.objects id, handlers handler =
        handlers' handler) →
      dev.selfTransactBlocking dup undef kernel handlers pid euid last lastRead lastReply files id
          code data =
        dev.selfTransactBlocking dup undef kernel handlers' pid euid last lastRead lastReply files
          id code data) ∧
      ∀ res handler t dev' files', dev.selfTransactOneWay dup undef kernel pid euid last files id
        code data = some (res, some (handler, t), dev', files') → dev.objects id = some handler
  | .remote handle =>
    c = .remote dev.addr handle ∧
    ∀ (upper : UInt32) (buffer offsets : Usize) (code flags : UInt32) (data : PayloadBuilder),
      (callTransmission upper buffer offsets handle code flags data).header.target.handle = handle

/-- A transaction goes to what its number stands for on the device. -/
theorem addresses_iff (dev : BinderDevice) (c : Capability) (target : TransactionTargetHandle) :
    dev.Addresses c target ↔ c = target.resolve dev.addr := by
  cases target with
  | remote handle =>
    refine and_iff_left ?_
    intro upper buffer offsets code flags data
    exact FlatBinderObjectData.handle_ofHandle upper handle
  | «local» id =>
    refine and_iff_left ?_
    intro φ dup undef kernel pid euid last lastRead lastReply files code data
    constructor
    · intro handlers handlers' hsame
      cases hobj : dev.objects id with
      | none => simp only [selfTransactBlocking, hobj]
      | some handler =>
        have hhandle : ∀ t dev, handlers.handle kernel lastRead handler t dev =
            handlers'.handle kernel lastRead handler t dev := by
          intro t dev
          rw [Handlers.handle, Handlers.handle, hsame handler hobj]
        simp only [selfTransactBlocking, hobj, hhandle]
    · intro res handler t dev' files' hres
      rw [selfTransactOneWay] at hres
      cases hobj : dev.objects id with
      | none =>
        rw [hobj] at hres
        obtain ⟨dev₁, -, heq⟩ := Option.map_eq_some_iff.mp hres
        cases heq
      | some handler' =>
        rw [hobj] at hres
        obtain ⟨delivered, -, hrest⟩ := Option.bind_eq_some_iff.mp hres
        obtain ⟨dev₁, -, heq⟩ := Option.bind_eq_some_iff.mp hrest
        cases heq
        rfl

end BinderDevice

/-- A transaction on the device addresses what its target stands for, or it is rejected. -/
def TargetKept (dev : BinderDevice) (table : HandleTable) (owner : Addr)
    (target : TransactionTarget) : Prop :=
  dev.Addresses (target.capability owner) target.getTransactionTargetHandle ∨
    dev.Rejects table target.getTransactionTargetHandle

/-- It does exactly for the targets of the device itself, and for numbers that it does not know. -/
theorem targetKept_iff (dev : BinderDevice) (table : HandleTable) (owner : Addr)
    (target : TransactionTarget) : TargetKept dev table owner target ↔
      target.device owner = dev.addr ∨ dev.Unknown table target.getTransactionTargetHandle := by
  rw [TargetKept, BinderDevice.rejects_iff, BinderDevice.addresses_iff,
    target.resolve_getTransactionTargetHandle owner, eq_comm, Capability.on_eq_self_iff,
    target.device_capability]

namespace BinderDevice

section Through

variable {φ : Type} (dup : φ → Fd → Option (Fd × φ)) (undef : ℕ → UInt32) (kernel : KernelWrite)
  (handlers : Handlers) (pid euid : UInt32) (last lastRead lastReply : ℕ → Bool × Bool)
  (upper : UInt32) (buffer offsets : Usize) {dev : BinderDevice} {table : HandleTable}
  {target : TransactionTarget}

/-- A two-way transaction runs no handler but that of the object its target stands for, if the
target is kept. -/
theorem transactBlocking_runs_no_other {owner : Addr} (hkept : TargetKept dev table owner target)
    {handlers handlers' : Handlers}
    (hsame : ∀ id handler, target.capability owner = .object dev.addr id →
      dev.objects id = some handler → handlers handler = handlers' handler) (files : φ) :
    dev.transactBlocking dup undef kernel handlers pid euid last lastRead lastReply upper buffer
        offsets files target =
      dev.transactBlocking dup undef kernel handlers' pid euid last lastRead lastReply upper buffer
        offsets files target := by
  funext code data reads
  rw [transactBlocking, transactBlocking]
  cases htarget : target.getTransactionTargetHandle with
  | remote handle => rfl
  | «local» id =>
    have hsame' : ∀ handler ∈ dev.objects id, handlers handler = handlers' handler := by
      intro handler hobj
      rw [TargetKept, htarget, rejects_iff, addresses_iff] at hkept
      rcases hkept with haddressed | hunknown
      · exact hsame id handler haddressed hobj
      · rw [Unknown] at hunknown
        rw [hunknown] at hobj
        cases hobj
    have hruns := ((addresses_iff dev (.object dev.addr id) (.local id)).mpr rfl).2 dup undef kernel
      pid euid last lastRead lastReply files code data
    simp only [hruns.1 handlers handlers' hsame']

/-- A two-way transaction to a number that means nothing on the device does not succeed: the local
path refuses it, and the kernel answers it with a failed reply. -/
theorem transactBlocking_error_of_unknown
    (h : dev.Unknown table target.getTransactionTargetHandle) {files : φ} {code : UInt32}
    {data : PayloadBuilder} {quiet : List ReadResult} (hquiet : ∀ read ∈ quiet, read.res = none)
    {after dev' : BinderDevice} {rest : List ReadResult}
    {res : Except Error (UInt32 × PayloadReader)}
    (hres : dev.transactBlocking dup undef kernel handlers pid euid last lastRead lastReply upper
      buffer offsets files target code data (quiet ++ ⟨some (.error .failedReply), after⟩ :: rest) =
        .returned res dev') : ∃ err, res = .error err := by
  rw [transactBlocking] at hres
  cases htarget : target.getTransactionTargetHandle with
  | «local» id =>
    rw [htarget] at h hres
    dsimp only at hres
    cases hself : dev.selfTransactBlocking dup undef kernel handlers pid euid last lastRead
        lastReply files id code data with
    | none => rw [hself] at hres; cases hres
    | some x =>
      obtain ⟨res', dev₁, files'⟩ := x
      rw [hself] at hres
      cases hres
      exact ⟨_, error_of_unregistered h hself⟩
  | remote handle =>
    rw [htarget] at hres
    dsimp only [remoteTransactBlocking] at hres
    split at hres
    · rw [blockingLoop_append_of_none _ hquiet] at hres
      exact ⟨_, error_of_failedReply hres⟩
    · cases hres

/-- Nor does a one-way transaction. -/
theorem transactOneWay_error_of_unknown (h : dev.Unknown table target.getTransactionTargetHandle)
    {files : φ} {code : UInt32} {data : PayloadBuilder} {after dev' : BinderDevice}
    {rest : List ReadResult} {res : Except Error Unit}
    (hres : dev.transactOneWay dup undef kernel pid euid last upper buffer offsets files target code
      data (⟨some (.error .failedReply), after⟩ :: rest) = .returned res dev') :
    ∃ err, res = .error err := by
  rw [transactOneWay] at hres
  cases htarget : target.getTransactionTargetHandle with
  | «local» id =>
    rw [htarget] at h hres
    dsimp only at hres
    cases hself : dev.selfTransactOneWay dup undef kernel pid euid last files id code data with
    | none => rw [hself] at hres; cases hres
    | some x =>
      obtain ⟨res', task, dev₁, files'⟩ := x
      rw [hself] at hres
      cases hres
      exact ⟨_, (refused_of_unregistered h hself).1⟩
  | remote handle =>
    rw [htarget] at hres
    dsimp only [remoteTransactOneWay] at hres
    split at hres
    · exact ⟨_, error_of_failedReply hres⟩
    · cases hres

end Through

end BinderDevice

/-! ## Delivered records -/

section Decode

variable {kernel : KernelWrite} {dev dev' : BinderDevice}

namespace BinderDevice

/-- An allocation does not touch the counts, nor do the entries of references. -/
theorem SameCounts.getAndDedupWeak {handle : UInt32} {r : { r : WeakBinderRef // r.id = handle }}
    (h : WeakBinderRef.getAndDedupFromRaw kernel dev handle = some (r, dev')) :
    SameCounts dev dev' := by
  unfold WeakBinderRef.getAndDedupFromRaw at h
  split at h
  · cases h
    exact ⟨rfl, rfl⟩
  · simp only [Option.bind_eq_bind, Option.bind_eq_some_iff, writeCommand_eq_some] at h
    obtain ⟨dev₁, ⟨-, rfl⟩, dev₂, ⟨-, rfl⟩, hr⟩ := h
    cases hr
    exact ⟨rfl, rfl⟩

/-- Decoding a reference does not touch the counts. -/
theorem SameCounts.getAndDedupRef {handle : UInt32} {r : BinderRef}
    (h : BinderRef.getAndDedupFromRaw kernel dev handle = some (r, dev')) :
    SameCounts dev dev' := by
  unfold BinderRef.getAndDedupFromRaw at h
  split at h
  · cases h
    exact ⟨rfl, rfl⟩
  · simp only [Option.bind_eq_bind, Option.bind_eq_some_iff, writeCommand_eq_some] at h
    obtain ⟨⟨weak, dev₁⟩, hweak, dev₂, ⟨-, rfl⟩, hr⟩ := h
    cases hr
    exact SameCounts.trans (SameCounts.getAndDedupWeak hweak) ⟨rfl, rfl⟩

/-- Counts that are the same are the same for each id. -/
theorem SameCounts.countsOf (h : SameCounts dev dev') (id : BinderObjectId) :
    dev'.countsOf id = dev.countsOf id := by
  rw [BinderDevice.countsOf, BinderDevice.countsOf, h.2]

end BinderDevice

/-- A record decodes to a handle of the same kind, with its number on the device of the reader. Only
the counts of the object of that number change, and only if it does. -/
theorem decodeFlat_spec {x : BinderObjectOrRef} {upper : UInt32}
    {res : Except PayloadBinderRefReadError BinderObjectOrRef}
    (h : PayloadReader.decodeFlat kernel dev (x.getFlatBinderObject upper) = some (res, dev')) :
    (∀ y, res = .ok y → y.binderType = x.binderType ∧ y.capability = x.capability.on dev.addr) ∧
      ∀ id, dev'.countsOf id ≠ dev.countsOf id →
        (∃ y, res = .ok y) ∧ x.capability.on dev.addr = .object dev.addr id := by
  cases x with
  | object o =>
    rw [PayloadReader.decodeFlat_object] at h
    obtain ⟨⟨obj, dev₁⟩, hfrom, heq⟩ := Option.map_eq_some_iff.mp h
    rcases BorrowedBinderObject.fromId_cases hfrom with
      ⟨-, rfl, rfl⟩ | ⟨handler, counted, -, hinc, rfl⟩
    · cases heq
      exact ⟨fun y hy => (by cases hy), fun id hne => absurd rfl hne⟩
    · cases heq
      refine ⟨fun y hy => ?_, fun id hne => ⟨⟨_, rfl⟩, ?_⟩⟩
      · cases hy
        exact ⟨rfl, congrArg (fun d => Capability.object d o.id)
          (BinderDevice.addr_of_increaseLocal hinc)⟩
      · obtain ⟨hcounts, -, -⟩ := refOp_counts hinc
        by_contra hid
        have hid : id ≠ o.id := fun heq => hid (by rw [heq]; rfl)
        rw [BinderDevice.countsOf, BinderDevice.countsOf, hcounts, if_neg hid] at hne
        exact hne rfl
  | weakObject o =>
    rw [PayloadReader.decodeFlat_weakObject] at h
    cases h
    refine ⟨fun y hy => ?_, fun id hne => absurd rfl hne⟩
    cases hy
    exact ⟨rfl, rfl⟩
  | ref r =>
    rw [PayloadReader.decodeFlat_ref] at h
    obtain ⟨⟨r', dev₁⟩, hr', heq⟩ := Option.map_eq_some_iff.mp h
    cases heq
    obtain ⟨hdevice, hhandle⟩ := BinderRef.getAndDedupFromRaw_spec hr'
    refine ⟨fun y hy => ?_, fun id hne => ?_⟩
    · cases hy
      refine ⟨rfl, ?_⟩
      show Capability.remote r'.device r'.handle = .remote dev.addr r.handle
      rw [hdevice, hhandle]
    · exact absurd ((BinderDevice.SameCounts.getAndDedupRef hr').countsOf id) hne
  | weakRef r =>
    rw [PayloadReader.decodeFlat_weakRef] at h
    obtain ⟨⟨r', dev₁⟩, hr', heq⟩ := Option.map_eq_some_iff.mp h
    cases heq
    obtain ⟨hdevice, -⟩ := WeakBinderRef.getAndDedupFromRaw_spec hr'
    refine ⟨fun y hy => ?_, fun id hne => ?_⟩
    · cases hy
      refine ⟨rfl, ?_⟩
      show Capability.remote r'.1.device r'.1.id = .remote dev.addr r.id
      rw [hdevice, r'.2]
    · exact absurd ((BinderDevice.SameCounts.getAndDedupWeak hr').countsOf id) hne

/-- The record of a strong object whose id means nothing on the device, or cannot be counted. -/
def BinderDevice.Undecodable (dev : BinderDevice) : BinderObjectOrRef → Prop
  | .object o => dev.objects o.id = none ∨ ¬ dev.CanCount o.id
  | _ => False

/-- Every other record decodes to a handle. -/
theorem exists_decodeFlat_ok (hk : Accepts kernel) {x : BinderObjectOrRef} (upper : UInt32)
    (hx : ¬ dev.Undecodable x) : ∃ y dev',
      PayloadReader.decodeFlat kernel dev (x.getFlatBinderObject upper) = some (.ok y, dev') := by
  cases x with
  | object o =>
    have hx : ¬ (dev.objects o.id = none ∨ ¬ dev.CanCount o.id) := hx
    rw [not_or, not_not] at hx
    obtain ⟨o', dev', ho', -, -⟩ := BorrowedBinderObject.fromId_registered
      (Option.isSome_iff_ne_none.mpr hx.1) hx.2
    refine ⟨.object o', dev', ?_⟩
    rw [PayloadReader.decodeFlat_object, ho']
    rfl
  | weakObject o => exact ⟨_, _, PayloadReader.decodeFlat_weakObject _ _ _ _⟩
  | ref r =>
    obtain ⟨⟨r', dev'⟩, hr'⟩ :=
      Option.isSome_iff_exists.mp (BinderRef.isSome_getAndDedupFromRaw hk dev r.handle)
    refine ⟨.ref r', dev', ?_⟩
    rw [PayloadReader.decodeFlat_ref, hr']
    rfl
  | weakRef r =>
    obtain ⟨⟨r', dev'⟩, hr'⟩ :=
      Option.isSome_iff_exists.mp (WeakBinderRef.isSome_getAndDedupFromRaw hk dev r.id)
    refine ⟨.weakRef r'.1, dev', ?_⟩
    rw [PayloadReader.decodeFlat_weakRef, hr']
    rfl

/-- An undecodable record decodes to no handle. -/
theorem not_ok_of_undecodable {x : BinderObjectOrRef} {upper : UInt32} (hx : dev.Undecodable x)
    {y : BinderObjectOrRef} : PayloadReader.decodeFlat kernel dev (x.getFlatBinderObject upper) ≠
      some (.ok y, dev') := by
  intro h
  cases x with
  | object o =>
    rw [PayloadReader.decodeFlat_object] at h
    obtain ⟨⟨obj, dev₁⟩, hfrom, heq⟩ := Option.map_eq_some_iff.mp h
    rcases BorrowedBinderObject.fromId_cases hfrom with
      ⟨-, rfl, -⟩ | ⟨handler, counted, hhandler, hinc, -⟩
    · cases heq
    · rcases hx with hnone | hcount
      · rw [hhandler] at hnone
        cases hnone
      · exact hcount (Option.isSome_iff_exists.mpr ⟨_, hinc⟩)
  | weakObject o => exact hx
  | ref r => exact hx
  | weakRef r => exact hx

/-- A record that is delivered on the device decodes to a handle that is equal to the one it was
made from, or to none, and no counts change but those of its object. -/
def DecodeKept (kernel : KernelWrite) (dev : BinderDevice) (x : BinderObjectOrRef) : Prop :=
  ∀ upper res dev', PayloadReader.decodeFlat kernel dev (x.getFlatBinderObject upper) =
      some (res, dev') →
    (∀ y, res = .ok y → (y == x) = true) ∧
      ∀ id, dev'.countsOf id ≠ dev.countsOf id → x.capability = .object dev.addr id

/-- It does exactly for the handles of the device itself, and for those that cannot be decoded. -/
theorem decodeKept_iff (hk : Accepts kernel) (dev : BinderDevice) (x : BinderObjectOrRef) :
    DecodeKept kernel dev x ↔ x.device = dev.addr ∨ dev.Undecodable x := by
  constructor
  · intro h
    by_contra hnot
    rw [not_or] at hnot
    obtain ⟨y, dev', hy⟩ := exists_decodeFlat_ok hk 0 hnot.2
    have heq := (BinderObjectOrRef.beq_iff y x).mp ((h 0 _ _ hy).1 y rfl)
    have hspec := (decodeFlat_spec hy).1 y rfl
    have hon : x.capability.on dev.addr = x.capability := hspec.2.symm.trans heq.2
    exact hnot.1 (x.device_capability.symm.trans (Capability.on_eq_self_iff.mp hon))
  · intro h upper res dev' hres
    obtain ⟨hok, hcounts⟩ := decodeFlat_spec hres
    rcases h with hdevice | hundecodable
    · have hon : x.capability.on dev.addr = x.capability :=
        Capability.on_eq_self_iff.mpr (x.device_capability.trans hdevice)
      rw [hon] at hok hcounts
      exact ⟨fun y hy => (BinderObjectOrRef.beq_iff y x).mpr (hok y hy),
        fun id hne => (hcounts id hne).2⟩
    · refine ⟨fun y hy => ?_, fun id hne => ?_⟩
      · rw [hy] at hres
        exact absurd hres (not_ok_of_undecodable hundecodable)
      · obtain ⟨⟨y, hy⟩, -⟩ := hcounts id hne
        rw [hy] at hres
        exact absurd hres (not_ok_of_undecodable hundecodable)

end Decode

/-! ## Sent records -/

/-- What the kernel takes the record of a transaction on the device for, by the format of the
records: an object of the device, or what a handle of the device refers to. With a handle that it
does not know, it fails the transaction. -/
def translate (addr : Addr) (table : HandleTable) (flat : FlatBinderObject) : Option Capability :=
  match BinderType.ofU32 flat.hdr.type_ with
  | some .binder | some .weakBinder =>
    some (.object addr (BinderObjectId.fromRaw flat.data.binder flat.cookie))
  | some .handle | some .weakHandle =>
    if table flat.data.handle then some (.remote addr flat.data.handle) else none
  | _ => none

/-- A reference whose handle the kernel does not know on the device. -/
def HandleTable.Misses (table : HandleTable) : BinderObjectOrRef → Prop
  | .ref r => table r.handle = false
  | .weakRef r => table r.id = false
  | _ => False

/-- The kernel takes the record of a handle for its number on the device, if it takes it. -/
theorem translate_getFlatBinderObject (addr : Addr) (table : HandleTable) (x : BinderObjectOrRef)
    (upper : UInt32) (c : Capability) :
    translate addr table (x.getFlatBinderObject upper) = some c ↔
      c = x.capability.on addr ∧ ¬ table.Misses x := by
  have hif (handle : UInt32) (c' : Capability) :
      (if table handle = true then some c' else none) = some c ↔ c = c' ∧ ¬ table handle = false := by
    cases table handle <;> simp [eq_comm]
  have hsome (c' : Capability) : some c' = some c ↔ c = c' ∧ ¬ False := by
    simp [eq_comm]
  cases x with
  | object o =>
    simp only [translate, BinderObjectOrRef.ofU32_getFlatBinderObject, BinderObjectOrRef.binderType]
    exact hsome _
  | weakObject o =>
    simp only [translate, BinderObjectOrRef.ofU32_getFlatBinderObject, BinderObjectOrRef.binderType]
    exact hsome _
  | ref r =>
    have hhandle : ((BinderObjectOrRef.ref r).getFlatBinderObject upper).data.handle = r.handle :=
      FlatBinderObjectData.handle_ofHandle upper r.handle
    simp only [translate, BinderObjectOrRef.ofU32_getFlatBinderObject,
      BinderObjectOrRef.binderType, hhandle]
    exact hif _ _
  | weakRef r =>
    have hhandle : ((BinderObjectOrRef.weakRef r).getFlatBinderObject upper).data.handle = r.id :=
      FlatBinderObjectData.handle_ofHandle upper r.id
    simp only [translate, BinderObjectOrRef.ofU32_getFlatBinderObject,
      BinderObjectOrRef.binderType, hhandle]
    exact hif _ _

/-- A record that is sent on the device arrives as what its handle stands for, or fails the
transaction. -/
def SentKept (dev : BinderDevice) (table : HandleTable) (x : BinderObjectOrRef) : Prop :=
  ∀ upper c, translate dev.addr table (x.getFlatBinderObject upper) = some c → c = x.capability

/-- It does exactly for the handles of the device itself, and for handles that the kernel does not
know. -/
theorem sentKept_iff (dev : BinderDevice) (table : HandleTable) (x : BinderObjectOrRef) :
    SentKept dev table x ↔ x.device = dev.addr ∨ table.Misses x := by
  constructor
  · intro h
    by_contra hnot
    rw [not_or] at hnot
    have hon := h 0 _ ((translate_getFlatBinderObject dev.addr table x 0 _).mpr ⟨rfl, hnot.2⟩)
    exact hnot.1 (x.device_capability.symm.trans (Capability.on_eq_self_iff.mp hon))
  · intro h upper c hc
    obtain ⟨rfl, htaken⟩ := (translate_getFlatBinderObject dev.addr table x upper c).mp hc
    rcases h with hdevice | hmisses
    · exact Capability.on_eq_self_iff.mpr (x.device_capability.trans hdevice)
    · exact absurd hmisses htaken

/-! ## Marks -/

namespace BuilderCall

/-- The device and the id of the strong object that a call pushes. -/
def strongObject : BuilderCall → Option (Addr × BinderObjectId)
  | pushBinderRef _ x =>
    match x.handle with
    | .object o => some (o.device, o.id)
    | _ => none
  | _ => none

/-- The id is that of the object. -/
theorem strongId_eq (c : BuilderCall) : c.strongId = c.strongObject.map Prod.snd := by
  cases c with
  | pushBinderRef dev x =>
    rw [strongId, strongObject]
    cases x.handle <;> rfl
  | _ => rfl

/-- How often the object of a device was pushed. -/
def timesPushedOn (addr : Addr) (calls : List BuilderCall) (id : BinderObjectId) : ℕ :=
  (calls.filterMap strongObject).count (addr, id)

/-- How often objects of other devices with the same id were pushed. -/
def timesPushedElsewhere (addr : Addr) (calls : List BuilderCall) (id : BinderObjectId) : ℕ :=
  (calls.filterMap strongObject).countP fun o => o.1 != addr && o.2 == id

/-- An id is pushed with the object of the device, and with those of others. -/
theorem timesPushed_eq (addr : Addr) (calls : List BuilderCall) (id : BinderObjectId) :
    timesPushed calls id = timesPushedOn addr calls id + timesPushedElsewhere addr calls id := by
  have hids : calls.filterMap strongId = (calls.filterMap strongObject).map Prod.snd := by
    rw [List.map_filterMap]
    exact List.filterMap_congr fun c _ => strongId_eq c
  rw [timesPushed, timesPushedOn, timesPushedElsewhere, hids]
  induction calls.filterMap strongObject with
  | nil => rfl
  | cons o objects ih =>
    obtain ⟨d, id'⟩ := o
    rw [List.map_cons, List.count_cons, List.count_cons, List.countP_cons, ih]
    by_cases hid : id' = id
    · by_cases hd : d = addr
      · simp only [hid, hd, beq_self_eq_true, bne_self_eq_false, Bool.false_and, if_true]
        simp
        omega
      · simp [hid, hd]
        omega
    · simp [hid]

end BuilderCall

/-- The marks of a payload on the device are those of the objects of the device that were pushed. -/
def MarksKept (dev dev₁ : BinderDevice) (calls : List BuilderCall) : Prop :=
  ∀ id, dev₁.countsOf id =
    (dev.countsOf id).map (.raised (BuilderCall.timesPushedOn dev.addr calls id))

/-- More marks count more, unless there is a remote reference. -/
theorem RefCounts.raised_add_eq_iff {c : RefCounts} {n m : ℕ} :
    c.raised (n + m) = c.raised n ↔ c.remoteRefs ≠ 0 ∨ m = 0 := by
  unfold RefCounts.raised
  by_cases hzero : c.remoteRefs = 0
  · rw [if_pos hzero, if_pos hzero, RefCounts.mk.injEq]
    omega
  · rw [if_neg hzero, if_neg hzero]
    simp [hzero]

/-- They are exactly if no strong object of another device was pushed with an id that the device
counts without a remote reference. -/
theorem marksKept_iff {undef : ℕ → UInt32} {calls : List BuilderCall} {b : PayloadBuilder}
    (hbuilt : exec (fun b c => BuilderCall.run undef b c) .new calls = some b)
    {td : Transmission} (hdata : td.data = b.data) (hoffsets : td.offsets = b.objOffsets)
    {dev dev₁ : BinderDevice} (hmark : markObjectsAsPendingRemote td dev = some dev₁) :
    MarksKept dev dev₁ calls ↔
      ∀ o ∈ calls.filterMap BuilderCall.strongObject, ∀ c ∈ dev.countsOf o.2,
        o.1 = dev.addr ∨ c.remoteRefs ≠ 0 := by
  have hcounts (id : BinderObjectId) := BinderDevice.countsOf_mark hbuilt hdata hoffsets hmark id
  simp only [MarksKept, hcounts, BuilderCall.timesPushed_eq dev.addr]
  constructor
  · intro h o ho c hc
    have hc' := h o.2
    rw [hc, Option.map_some, Option.map_some, Option.some_inj, RefCounts.raised_add_eq_iff] at hc'
    rcases hc' with hremote | hzero
    · exact Or.inr hremote
    · have hnone := List.countP_eq_zero.mp hzero o ho
      left
      by_contra hd
      exact hnone (by simp [hd])
  · intro h id
    cases hc : dev.countsOf id with
    | none => rfl
    | some c =>
      rw [Option.map_some, Option.map_some, Option.some_inj, RefCounts.raised_add_eq_iff]
      by_cases hremote : c.remoteRefs = 0
      · right
        refine List.countP_eq_zero.mpr fun o ho hother => ?_
        have hboth : o.1 ≠ dev.addr ∧ o.2 = id := by simpa using hother
        rcases h o ho c (by rw [hboth.2]; exact hc) with hd | hne
        · exact hboth.1 hd
        · exact hne hremote
      · exact Or.inl hremote

/-! ## All of them -/

/-- **Handles on other devices.** A transaction, a delivered record and a sent record concern what
their handle stands for, or are rejected, exactly if the handle is one of the device itself, or its
number means nothing there; the marks of a payload are those of its own objects exactly if no object
of another device was pushed under an id that the device counts without a remote reference. -/
theorem capabilities_kept_iff {kernel : KernelWrite} (hk : Accepts kernel) (dev : BinderDevice)
    (table : HandleTable) :
    (∀ owner target, TargetKept dev table owner target ↔
      target.device owner = dev.addr ∨ dev.Unknown table target.getTransactionTargetHandle) ∧
    (∀ x, DecodeKept kernel dev x ↔ x.device = dev.addr ∨ dev.Undecodable x) ∧
    (∀ x, SentKept dev table x ↔ x.device = dev.addr ∨ table.Misses x) ∧
    ∀ undef calls b td dev₁, exec (fun b c => BuilderCall.run undef b c) .new calls = some b →
      td.data = b.data → td.offsets = b.objOffsets →
      markObjectsAsPendingRemote td dev = some dev₁ →
      (MarksKept dev dev₁ calls ↔
        ∀ o ∈ calls.filterMap BuilderCall.strongObject, ∀ c ∈ dev.countsOf o.2,
          o.1 = dev.addr ∨ c.remoteRefs ≠ 0) :=
  ⟨targetKept_iff dev table, decodeKept_iff hk dev, sentKept_iff dev table,
    fun _ _ _ _ _ hbuilt hdata hoffsets hmark => marksKept_iff hbuilt hdata hoffsets hmark⟩

/-! ## Two devices -/

/-- The first object of the first device, and the device with it. -/
def firstHere : BinderObject × BinderDevice × Usize :=
  (BinderDevice.new 100).registerObject 1 ⟨7⟩

/-- The first object of the second device, and the device with it. -/
def firstThere : BinderObject × BinderDevice × Usize :=
  (BinderDevice.new 200).registerObject 1 ⟨8⟩

/-- On the first device, its own first object is the target that it stands for, and that of the
second device is not. -/
theorem capabilities_kept_firstHere :
    TargetKept firstHere.2.1 (fun _ => false) 100 (.binderObject firstHere.1) ∧
      ¬ TargetKept firstHere.2.1 (fun _ => false) 200 (.binderObject firstThere.1) := by
  have hkept := (capabilities_kept_iff (fun _ _ => rfl : Accepts fun _ _ => none) firstHere.2.1
    fun _ => false).1
  refine ⟨(hkept _ _).mpr (Or.inl rfl), fun h => ?_⟩
  rcases (hkept _ _).mp h with hdevice | hunknown
  · exact absurd hdevice (by decide)
  · have hnone : some (HandlerRef.mk 7) = none := hunknown
    cases hnone

/-- A transaction on the first device to the first object of the second runs the handler of its own
first object, and a record of that object is delivered as a handle of its own. -/
theorem BinderDevice.other_object_reached :
    (∃ t dev', firstHere.2.1.selfTransactOneWay (fun (_ : Unit) _ => none) (fun _ => 0)
        (fun _ _ => none) 0 0 (fun _ => (false, false)) () firstThere.1.id 0 .new =
          some (.ok (), some (⟨7⟩, t), dev', ())) ∧
      firstThere.2.1.objects firstThere.1.id = some ⟨8⟩ ∧
      (∃ y dev', PayloadReader.decodeFlat (fun _ _ => none) firstHere.2.1
          ((BinderObjectOrRef.object ⟨200, firstThere.1.id, ⟨8⟩, true⟩).getFlatBinderObject 0) =
            some (.ok (.object y), dev') ∧ y.device = 100 ∧ y.handler = ⟨7⟩) ∧
      ¬ TargetKept firstHere.2.1 (fun _ => false) 200 (.binderObject firstThere.1) := by
  refine ⟨⟨_, _, rfl⟩, rfl, ⟨_, _, PayloadReader.decodeFlat_object _ _ _ _, rfl, rfl⟩, fun h => ?_⟩
  rcases (targetKept_iff _ _ _ _).mp h with hdevice | hunknown
  · exact absurd hdevice (by decide)
  · have hnone : some (HandlerRef.mk 7) = none := hunknown
    cases hnone

end BinderBinder
