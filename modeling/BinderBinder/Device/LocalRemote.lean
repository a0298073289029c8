import BinderBinder.Device.Handling
import BinderBinder.Device.LocalDelivery

set_option relaxedAutoImplicit false
set_option autoImplicit false

/-!
# The local and the remote path of a call

A caller does not see whether its target lives in its own process. The remote path goes through the
loops of two processes, the local one through none. On payloads of bytes a handler cannot tell one
from the other, and gives both the same reply, which reaches a remote caller byte for byte. A local
caller gets it so as well, but for the descriptors in it, which are duplicated. A target that is not
registered makes another difference: the owner sends an empty reply, and the local path returns an
error.

## Main definitions

* `PayloadBuilder.ByteOnly` — a payload without objects.
* `ReaderProgram.onBytes` — what a program makes of bytes without objects.
* `Process.answer` — what the owner of a target replies to a call.
* `LocalPath`, `RemotePath` — what the two paths are given besides the call.
* `LocalPath.outcome`, `RemotePath.outcome` — what a caller gets from each.

## Main results

* `ReaderProgram.exists_run_eq_onBytes` — a program on a reader without objects sees nothing but
  bytes.
* `local_remote_outcomes` — the two outcomes, for a registered and for an unknown target.
* `BinderDevice.transactBlocking_outcomes` — `transact_blocking` gives the same for a target in the
  process and one in another.
-/

namespace BinderBinder

open Run

/-! ## Payloads of bytes -/

/-- The payload holds bytes and no objects. -/
structure PayloadBuilder.ByteOnly (b : PayloadBuilder) : Prop where
  offsets : b.objOffsets = []
  objects : b.binderObjects = []

/-- The payload was made by some calls on a new builder. -/
def PayloadBuilder.MadeBy (b : PayloadBuilder) (calls : List BuilderCall) : Prop :=
  ∃ undef, exec (fun b c => BuilderCall.run undef b c) PayloadBuilder.new calls = some b

/-! ## Programs on bytes -/

namespace ReaderProgram

variable {ρ : Type}

/-- What a program makes of bytes without objects, from a position on. -/
def onBytes (data : List UInt8) : ReaderProgram ρ → ℕ → ρ
  | ret result, _ => result
  | readBytes numBytes next, pos =>
    match usizeAdd pos numBytes with
    | none => onBytes data (next none) pos
    | some stop =>
      if stop ≤ data.length then
        onBytes data (next (some (.ok ((data.drop pos).take numBytes)))) stop
      else onBytes data (next (some (.error .outOfBounds))) pos
  | readBinderRef next, pos => onBytes data (next (some (.error .empty))) pos
  | readFd next, pos => onBytes data (next (some (.error .empty))) pos
  | nextObjectType next, pos => onBytes data (next (some none)) pos
  | bytesUntilNextObj next, pos => onBytes data (next (checkedSub data.length pos)) pos

/-- Without an object table there is no next object. -/
theorem nextOffset_of_table_eq_nil {r : PayloadReader} (h : r.table = []) : r.nextOffset = none := by
  unfold PayloadReader.nextOffset
  unfold PayloadReader.table at h
  cases hoffsets : r.offsets with
  | none => rfl
  | some v =>
    rw [hoffsets] at h
    have hitems : v.items = [] := h
    rw [Option.bind_some, hitems, List.getElem?_nil]

/-- Nor is there one behind the cursor. -/
theorem offsetBehindCursor_of_table_eq_nil {r : PayloadReader} (h : r.table = []) :
    r.offsetBehindCursor = none := by
  unfold PayloadReader.offsetBehindCursor
  unfold PayloadReader.table at h
  cases hoffsets : r.offsets with
  | none => rfl
  | some v =>
    rw [hoffsets] at h
    have hitems : v.items = [] := h
    rw [Option.bind_some, hitems, List.find?_nil]

/-- A program on a reader without objects sees nothing but bytes, and leaves the device alone.

**Proof sketch.** Induction on the program. Byte reads meet no object, so they move the cursor if
they stay in the data; every other method finds no object and changes nothing. -/
theorem exists_run_eq_onBytes (kernel : KernelWrite) (prog : ReaderProgram ρ) {r : PayloadReader}
    (h : r.table = []) (dev : BinderDevice) :
    ∃ r', prog.run kernel r dev = (prog.onBytes r.data.items r.nextDataIndex, r', dev) ∧
      r'.table = [] ∧ r'.data = r.data ∧ r'.binderObjects = r.binderObjects := by
  have hnext := nextOffset_of_table_eq_nil h
  have hbehind := offsetBehindCursor_of_table_eq_nil h
  induction prog generalizing r with
  | ret result => exact ⟨r, rfl, h, rfl, rfl⟩
  | readBytes numBytes next ih =>
    rw [run, onBytes, PayloadReader.readBytes, hbehind]
    cases hstop : usizeAdd r.nextDataIndex numBytes with
    | none => exact ih none h hnext hbehind
    | some stop =>
      have hfree : ¬ ∃ off ∈ (none : Option ℕ), off < stop := by
        rintro ⟨off, hoff, -⟩
        cases hoff
      rw [Option.map_some, if_neg hfree]
      by_cases hfit : stop ≤ r.data.items.length
      · rw [if_pos hfit]
        simp only [hfit, if_true]
        have hmoved : ({ r with nextDataIndex := stop } : PayloadReader).table = [] := h
        exact ih _ hmoved (nextOffset_of_table_eq_nil hmoved)
          (offsetBehindCursor_of_table_eq_nil hmoved)
      · rw [if_neg hfit]
        simp only [hfit, if_false]
        exact ih _ h hnext hbehind
  | readBinderRef next ih =>
    rw [run, onBytes, PayloadReader.readBinderRef, hnext]
    exact ih _ h hnext hbehind
  | readFd next ih =>
    rw [run, onBytes, PayloadReader.readFd, hnext]
    exact ih _ h hnext hbehind
  | nextObjectType next ih =>
    rw [run, onBytes, PayloadReader.nextObjectType, hnext]
    exact ih _ h hnext hbehind
  | bytesUntilNextObj next ih =>
    rw [run, onBytes, PayloadReader.bytesUntilNextObj, hbehind]
    exact ih _ h hnext hbehind

end ReaderProgram

/-! ## What the kernel delivers -/

/-- A call as the owner of its target gets it: the target is the object, the sender is known, and
the buffers lie in the memory of the owner. -/
def Transmission.deliverCall (id : BinderObjectId) (sender : Sender) (t : Transmission) :
    Transmission :=
  { t with header := { t.header with
      target := .ofBinder id.id
      cookie := id.cookie
      senderPid := sender.pid
      senderEuid := sender.euid
      buffer := sender.buffer
      offsets := sender.offsets } }

/-- A reply as the caller gets it. -/
def Transmission.deliverReply (sender : Sender) (t : Transmission) : Transmission :=
  { t with header := { t.header with
      senderPid := sender.pid
      senderEuid := sender.euid
      buffer := sender.buffer
      offsets := sender.offsets } }

/-! ## The two paths -/

/-- The world of the arms with the drop of a reader as the process itself makes it. -/
def World.dropping (w : World) (kernel : KernelWrite) (lastRead : ℕ → Bool × Bool) : World :=
  { w with dropReader := fun r p =>
      (r.dropAlone kernel lastRead p.device).map fun device => { p with device } }

/-- What a process replies to an incoming two-way call: the reply of its handler, or what its arm
writes when there is none. `none` is a panic, or a drop that never ends. -/
def Process.answer (kernel : KernelWrite) (handlers : Handlers) (w : World)
    (lastRead : ℕ → Bool × Bool) (p : Process) (t : Transmission) : Option Transmission := do
  match ← transactionArm kernel (w.dropping kernel lastRead) p t with
  | (p, .handle handler t) =>
    let (replyData, p) ← handlers.call kernel lastRead handler (t.toTransaction p) p
    let (reply, _) ← sendReply w p t replyData
    return reply
  | (p, _) =>
    match p.device.written.getLast? with
    | some (.reply header) => some ⟨header, [], []⟩
    | _ => none

/-- What a `binder_write_read` of a call returns for the records it read, and the device it leaves.
`none` is a panic. -/
def readRecords (kernel : KernelWrite) (dev : BinderDevice) (env : ℕ → Met)
    (records : List Record) : Option ReadResult :=
  let s := dispatchRecords kernel env ⟨[], .exhausted⟩ records
  let after := (s.log.getLast?.map fun x => x.2.device).getD dev
  match s.ending with
  | .exhausted => some ⟨none, after⟩
  | .returned res => some ⟨some res, after⟩
  | .panicked => none

/-- The code and the bytes that a caller gets, or its error. -/
def replied (res : Except Error (UInt32 × PayloadReader)) : Except Error (UInt32 × List UInt8) :=
  res.map fun (code, reader) => (code, reader.data.items)

/-- What the local path is given: the descriptor table of the process, what unused halves of unions
hold, and which handles are the last of their `Arc`s. -/
structure LocalPath where
  files : Type
  table : files
  dup : files → Fd → Option (Fd × files)
  undef : ℕ → UInt32
  last : ℕ → Bool × Bool
  lastRead : ℕ → Bool × Bool
  lastReply : ℕ → Bool × Bool

/-- What the remote path is given: the device of the caller and its kernel, the handle of the target
and the other fields of the call, where the buffers are put, which handles are the last of their
`Arc`s, and what the caller reads: buffers that do not end its wait, and one that ends with the
reply. -/
structure RemotePath where
  caller : BinderDevice
  kernel : KernelWrite
  handle : UInt32
  upper : UInt32
  buffer : Usize
  offsets : Usize
  last : ℕ → Bool × Bool
  lastRead : ℕ → Bool × Bool
  callBuffer : Usize
  callOffsets : Usize
  replySender : Sender
  quiet : List ((ℕ → Met) × List Record)
  env : ℕ → Met
  before : List Record
  after : List Record

/-- What the reads of the caller return, the reply in the last of them. -/
def RemotePath.reads (path : RemotePath) (reply : Transmission) : Option (List ReadResult) :=
  (path.quiet ++ [(path.env, path.before ++ .reply reply :: path.after)]).mapM fun read =>
    readRecords path.kernel path.caller read.1 read.2

section Paths

-- the owner: its kernel, its handlers, its process and the world of its arms; and the ids of the
-- process that calls
variable (kernel : KernelWrite) (handlers : Handlers) (w : World) (p : Process) (pid euid : UInt32)
  (id : BinderObjectId) (code : UInt32) (data : PayloadBuilder)

/-- What a caller in the process of the owner gets; `none` is a panic. -/
def LocalPath.outcome (path : LocalPath) : Option (Except Error (UInt32 × List UInt8)) :=
  (p.device.selfTransactBlocking path.dup path.undef kernel handlers pid euid path.last
    path.lastRead path.lastReply path.table id code data).map fun (res, _, _) => replied res

/-- What a caller in another process gets; `none` is a panic of one of the two, or a call that still
waits. -/
def RemotePath.outcome (path : RemotePath) : Option (Except Error (UInt32 × List UInt8)) := do
  let sent := callTransmission path.upper path.buffer path.offsets path.handle code
    TransactionFlags.acceptFds data
  let reply ← p.answer kernel handlers w path.lastRead
    (sent.deliverCall id ⟨pid, euid, path.callBuffer, path.callOffsets⟩)
  let reads ← path.reads (reply.deliverReply path.replySender)
  match path.caller.remoteTransactBlocking path.kernel path.last path.upper path.buffer
      path.offsets path.handle code data reads with
  | .returned res _ => some (replied res)
  | _ => none

end Paths

/-- What the caller reads besides the reply does not end its wait. -/
structure RemotePath.Waits (path : RemotePath) : Prop where
  quiet : ∀ read ∈ path.quiet, ∀ i (r : Record), read.2[i]? = some r → r.Passes (read.1 i)
  before : ∀ i (r : Record), path.before[i]? = some r → r.Passes (path.env i)

/-! ## Reads of the caller -/

section Reads

variable (kernel : KernelWrite) {env : ℕ → Met}

/-- A record that passes leaves the loop going. -/
theorem dispatchRecords_cons_of_passes {s : Dispatched} {r : Record} (rs : List Record)
    (h : r.Passes (env s.log.length)) : ∃ x, dispatchRecords kernel env s (r :: rs) =
      dispatchRecords kernel env { s with log := s.log ++ [x] } rs := by
  obtain ⟨p, hp⟩ := (passes_iff kernel _ r).mp h
  refine ⟨((env s.log.length).found, p), ?_⟩
  rw [dispatchRecords, dispatchRound, hp]

/-- Records that pass leave the loop going. -/
theorem dispatchRecords_append_of_passes {s : Dispatched} {rs : List Record} (rest : List Record)
    (h : ∀ i (r : Record), rs[i]? = some r → r.Passes (env (s.log.length + i))) :
    ∃ log, dispatchRecords kernel env s (rs ++ rest) =
      dispatchRecords kernel env { s with log } rest := by
  induction rs generalizing s with
  | nil => exact ⟨s.log, rfl⟩
  | cons r rs ih =>
    obtain ⟨x, hx⟩ := dispatchRecords_cons_of_passes kernel (rs ++ rest)
      (h 0 r List.getElem?_cons_zero)
    have hrest : ∀ i (r' : Record), rs[i]? = some r' →
        r'.Passes (env ((s.log ++ [x]).length + i)) := by
      intro i r' hr'
      have hpass := h (i + 1) r' (by rw [List.getElem?_cons_succ, hr'])
      have hlen : (s.log ++ [x]).length + i = s.log.length + (i + 1) := by
        rw [List.length_append, List.length_singleton]
        omega
      rwa [hlen]
    obtain ⟨log, hlog⟩ := @ih { s with log := s.log ++ [x] } hrest
    exact ⟨log, by rw [List.cons_append, hx, hlog]⟩

/-- A read of records that pass returns nothing. -/
theorem readRecords_of_passes (dev : BinderDevice) {rs : List Record}
    (h : ∀ i (r : Record), rs[i]? = some r → r.Passes (env i)) :
    ∃ after, readRecords kernel dev env rs = some ⟨none, after⟩ := by
  obtain ⟨log, hlog⟩ := dispatchRecords_append_of_passes kernel
    (s := ⟨[], .exhausted⟩) [] (fun i r hr => by rw [List.length_nil, Nat.zero_add]; exact h i r hr)
  rw [List.append_nil] at hlog
  rw [readRecords, hlog]
  exact ⟨_, rfl⟩

/-- A read whose first record that does not pass is a reply returns the reply. -/
theorem readRecords_reply (dev : BinderDevice) {rs : List Record} (t : Transmission)
    (rest : List Record) (h : ∀ i (r : Record), rs[i]? = some r → r.Passes (env i)) :
    ∃ addr after, readRecords kernel dev env (rs ++ .reply t :: rest) =
      some ⟨some (.ok (t.header.code, PayloadReader.fromKernelRaw addr t)), after⟩ := by
  obtain ⟨log, hlog⟩ := dispatchRecords_append_of_passes kernel
    (s := ⟨[], .exhausted⟩) (.reply t :: rest)
    (fun i r hr => by rw [List.length_nil, Nat.zero_add]; exact h i r hr)
  rw [readRecords, hlog]
  exact ⟨(env log.length).found.device.addr, _, rfl⟩

end Reads

/-! ## The outcomes -/

section Outcomes

variable {kernel : KernelWrite} {handlers : Handlers} {w : World} {p : Process} {pid euid : UInt32}
  {id : BinderObjectId} {code : UInt32} {data : PayloadBuilder}

/-- Of the reads of a caller, those that do not end its wait return nothing, the last the reply. -/
theorem RemotePath.Waits.reads {path : RemotePath} (h : path.Waits) (t : Transmission) :
    ∃ quiet addr after, (∀ read ∈ quiet, read.res = none) ∧ path.reads t = some (quiet ++
      [⟨some (.ok (t.header.code, PayloadReader.fromKernelRaw addr t)), after⟩]) := by
  have hquiet := h.quiet
  rw [RemotePath.reads]
  generalize path.quiet = pending at hquiet ⊢
  induction pending with
  | nil =>
    obtain ⟨addr, after, hlast⟩ := readRecords_reply path.kernel path.caller t
      path.after h.before
    refine ⟨[], addr, after, fun read hread => (by cases hread), ?_⟩
    simp only [List.nil_append, List.mapM_cons, hlast]
    rfl
  | cons read pending ih =>
    obtain ⟨quiet, addr, after, hnone, hreads⟩ :=
      ih fun read' hread' => hquiet read' (List.mem_cons_of_mem read hread')
    obtain ⟨after₀, hfirst⟩ := readRecords_of_passes path.kernel path.caller
      (hquiet read List.mem_cons_self)
    refine ⟨⟨none, after₀⟩ :: quiet, addr, after, ?_, ?_⟩
    · intro read' hread'
      rcases List.mem_cons.mp hread' with rfl | hread'
      · rfl
      · exact hnone read' hread'
    · rw [List.cons_append, List.mapM_cons, hfirst, hreads]
      rfl

/-- The marks of a transmission without objects change nothing. -/
theorem markObjectsAsPendingRemote_of_offsets_eq_nil {t : Transmission} (h : t.offsets = [])
    (dev : BinderDevice) : markObjectsAsPendingRemote t dev = some dev := by
  rw [markObjectsAsPendingRemote, forEachEmbeddedBinderObject, h]
  rfl

/-- A payload of bytes is dropped without a trace. -/
theorem drop_of_byteOnly (hdata : data.ByteOnly) (last : ℕ → Bool × Bool) (dev : BinderDevice) :
    data.drop kernel last dev = some dev := by
  rw [PayloadBuilder.drop, hdata.objects]
  rfl

/-- **Step.** The caller gets the code and the bytes of what the owner replies. -/
theorem RemotePath.outcome_eq (path : RemotePath) (hwaits : path.Waits) (hdata : data.ByteOnly) :
    path.outcome kernel handlers w p pid euid id code data =
      (p.answer kernel handlers w path.lastRead ((callTransmission path.upper path.buffer
        path.offsets path.handle code TransactionFlags.acceptFds data).deliverCall id
          ⟨pid, euid, path.callBuffer, path.callOffsets⟩)).map fun reply =>
        .ok (reply.header.code, reply.data) := by
  rw [outcome]
  cases p.answer kernel handlers w _ _ with
  | none => rfl
  | some reply =>
    obtain ⟨quiet, addr, after, hnone, hreads⟩ :=
      hwaits.reads (reply.deliverReply path.replySender)
    have hmark := markObjectsAsPendingRemote_of_offsets_eq_nil (t := callTransmission path.upper
      path.buffer path.offsets path.handle code TransactionFlags.acceptFds data) hdata.offsets
    simp only [Option.bind_eq_bind, Option.bind_some, hreads, BinderDevice.remoteTransactBlocking,
      hmark, blockingLoop_append_of_none _ hnone,
      blockingLoop, CallResult.dropData, drop_of_byteOnly hdata]
    rfl

/-- A payload of bytes is delivered locally as it is. -/
theorem fromBuilder_of_byteOnly {φ : Type} {dup : φ → Fd → Option (Fd × φ)} {undef : ℕ → UInt32}
    (hdata : data.ByteOnly) (dev : BinderDevice) (files : φ) :
    PayloadReader.fromBuilder dup undef dev files data =
      some (⟨dev.addr, .owned data.data, some (.owned []), [], 0, 0⟩, dev, files) := by
  rw [PayloadReader.fromBuilder, hdata.offsets, hdata.objects]
  rfl

/-- What a handler replies to a payload of bytes. -/
def Handlers.onBytes (handlers : Handlers) (handler : HandlerRef) (code pid euid : UInt32)
    (bytes : List UInt8) : PayloadBuilder :=
  (handlers handler code pid euid).onBytes bytes 0

/-- A handler that gets a reader of bytes replies what it makes of the bytes, and frees the
buffer. -/
theorem Handlers.handle_eq_onBytes (handlers : Handlers) (kernel : KernelWrite)
    (lastRead : ℕ → Bool × Bool) (handler : HandlerRef) (code pid euid : UInt32)
    (payload : PayloadReader) (htable : payload.table = []) (hheld : payload.binderObjects = [])
    (hstart : payload.nextDataIndex = 0) (dev : BinderDevice) :
    handlers.handle kernel lastRead handler ⟨code, payload, pid, euid⟩ dev =
      (payload.data.freeOn kernel dev).map fun dev =>
        (handlers.onBytes handler code pid euid payload.data.items, dev) := by
  obtain ⟨left, hrun, hleft, hdata, hsame⟩ := ReaderProgram.exists_run_eq_onBytes kernel
    (handlers handler code pid euid) htable dev
  rw [Handlers.handle, hrun, hstart]
  dsimp only
  rw [PayloadReader.dropAlone_of_table_eq_nil kernel lastRead dev hleft (hsame.trans hheld), hdata]
  rfl

/-! ## The local path -/

/-- **Step.** Locally, the handler gets the bytes of the call, and its reply is delivered locally. -/
theorem selfTransactBlocking_of_registered (path : LocalPath) (hdata : data.ByteOnly)
    {handler : HandlerRef} (hobj : p.device.objects id = some handler) {reply : PayloadBuilder}
    (hreply : handlers.onBytes handler code pid euid data.data = reply) :
    p.device.selfTransactBlocking path.dup path.undef kernel handlers pid euid path.last
        path.lastRead path.lastReply path.table id code data =
      (PayloadReader.fromBuilder path.dup path.undef p.device path.table reply).bind fun delivered =>
        (reply.drop kernel path.lastReply delivered.2.1).map fun dev =>
          (.ok (code, delivered.1), dev, delivered.2.2) := by
  subst hreply
  have hhandle := handlers.handle_eq_onBytes kernel path.lastRead handler code pid euid
    ⟨p.device.addr, .owned data.data, some (.owned []), [], 0, 0⟩ rfl rfl rfl p.device
  have hfree : (PayloadReaderBuffer.owned data.data).freeOn kernel p.device = some p.device := rfl
  rw [hfree, Option.map_some] at hhandle
  simp only [BinderDevice.selfTransactBlocking, hobj, fromBuilder_of_byteOnly hdata,
    Option.bind_eq_bind, Option.bind_some, hhandle, drop_of_byteOnly hdata]
  refine congrArg (Option.bind _) (funext fun delivered => ?_)
  rw [Option.map_eq_bind]
  rfl

/-- Locally, the caller gets the bytes that the reply is delivered with, if its handles can be
cloned. -/
theorem LocalPath.outcome_eq (path : LocalPath) (hkernel : Accepts kernel) (hdata : data.ByteOnly)
    {handler : HandlerRef} (hobj : p.device.objects id = some handler) {reply : PayloadBuilder}
    (hreply : handlers.onBytes handler code pid euid data.data = reply) :
    path.outcome kernel handlers p pid euid id code data =
      (PayloadReader.patchFds path.dup path.undef path.table reply.data reply.objOffsets).bind
        fun x => (PayloadReader.cloneAll p.device reply.binderObjects).map fun _ =>
          .ok (code, x.1) := by
  rw [outcome, selfTransactBlocking_of_registered path hdata hobj hreply, PayloadReader.fromBuilder]
  cases PayloadReader.patchFds path.dup path.undef path.table reply.data reply.objOffsets with
  | none => rfl
  | some x =>
    cases hclones : PayloadReader.cloneAll p.device reply.binderObjects with
    | none => rfl
    | some y =>
      obtain ⟨clones, dev⟩ := y
      obtain ⟨dev', hdrop⟩ :=
        Option.isSome_iff_exists.mp (isSome_drop_of_cloneAll hkernel path.lastReply hclones)
      simp only [Option.bind_eq_bind, Option.bind_some, Option.map_some]
      show (((reply.drop kernel path.lastReply dev).map _).map _) = _
      rw [hdrop]
      rfl

/-- Locally, a target that is not registered is an error. -/
theorem LocalPath.outcome_of_unknown (path : LocalPath) (hdata : data.ByteOnly)
    (hobj : p.device.objects id = none) :
    path.outcome kernel handlers p pid euid id code data = some (.error .objectNotFound) := by
  rw [outcome, BinderDevice.selfTransactBlocking, hobj]
  simp only [drop_of_byteOnly hdata]
  rfl

/-! ## The remote path -/

/-- The owner of an incoming call reads its bytes. -/
theorem fromKernelRaw_deliverCall (hdata : data.ByteOnly) (addr : Addr) {t : Transmission}
    (ht : t.data = data.data ∧ t.offsets = data.objOffsets) (id : BinderObjectId)
    (sender : Sender) :
    (PayloadReader.fromKernelRaw addr (t.deliverCall id sender)).table = [] ∧
      (PayloadReader.fromKernelRaw addr (t.deliverCall id sender)).data.items = data.data := by
  refine ⟨?_, ht.1⟩
  have hnone : t.offsets = [] := by rw [ht.2, hdata.offsets]
  unfold PayloadReader.table PayloadReader.fromKernelRaw
  by_cases hnull : (t.deliverCall id sender).header.offsets = 0
  · rw [if_pos hnull]
    rfl
  · rw [if_neg hnull]
    exact hnone

/-- The buffer of a call is freed, which leaves the counts alone. -/
theorem exists_freeOn (hkernel : Accepts kernel) (addr : Addr) (t : Transmission)
    (dev : BinderDevice) : ∃ dev',
      (PayloadReader.fromKernelRaw addr t).data.freeOn kernel dev = some dev' ∧
        dev'.objectRefcounts = dev.objectRefcounts := by
  refine ⟨{ dev with written := dev.written ++ [.freeBuffer t.header.buffer] }, ?_, rfl⟩
  have hdata : (PayloadReader.fromKernelRaw addr t).data =
      .kernelBorrowed t.header.buffer t.data := rfl
  rw [hdata, PayloadReaderBuffer.freeOn, PayloadReaderBuffer.free, List.foldlM_cons,
    BinderDevice.writeCommand, hkernel]
  rfl

/-- The owner replies what the handler makes of the bytes, once the objects of the reply are
marked. -/
theorem Process.exists_answer_of_registered (w : World) (t : Transmission)
    (buffer offsets : Usize) (hkernel : Accepts kernel) (hdata : data.ByteOnly)
    (ht : t.data = data.data ∧ t.offsets = data.objOffsets) {handler : HandlerRef}
    (hobj : p.device.objects id = some handler) {reply : PayloadBuilder}
    (hreply : handlers.onBytes handler t.header.code pid euid data.data = reply)
    (lastRead : ℕ → Bool × Bool) : ∃ p' : Process,
      p'.device.objectRefcounts = p.device.objectRefcounts ∧
      p.answer kernel handlers w lastRead (t.deliverCall id ⟨pid, euid, buffer, offsets⟩) =
        (sendReply w p' (t.deliverCall id ⟨pid, euid, buffer, offsets⟩) reply).map Prod.fst := by
  subst hreply
  obtain ⟨htable, hitems⟩ :=
    fromKernelRaw_deliverCall hdata p.device.addr ht id ⟨pid, euid, buffer, offsets⟩
  obtain ⟨device, hfree, hcounts⟩ := exists_freeOn hkernel p.device.addr
    (t.deliverCall id ⟨pid, euid, buffer, offsets⟩) p.device
  have hhandle := handlers.handle_eq_onBytes kernel lastRead handler t.header.code pid euid _ htable
    rfl rfl p.device
  rw [hitems, hfree, Option.map_some] at hhandle
  have hcall : handlers.call kernel lastRead handler
      ((t.deliverCall id ⟨pid, euid, buffer, offsets⟩).toTransaction p) p =
        some (handlers.onBytes handler t.header.code pid euid data.data, { p with device }) :=
    congrArg (Option.map _) hhandle
  have harm : transactionArm kernel (w.dropping kernel lastRead) p
      (t.deliverCall id ⟨pid, euid, buffer, offsets⟩) =
      some (p, .handle handler (t.deliverCall id ⟨pid, euid, buffer, offsets⟩)) := by
    have htarget : (t.deliverCall id ⟨pid, euid, buffer, offsets⟩).targetId = id := rfl
    rw [transactionArm, htarget, hobj]
  refine ⟨{ p with device }, hcounts, ?_⟩
  simp only [Process.answer, harm, Option.bind_eq_bind, Option.bind_some, hcall]
  rw [Option.map_eq_bind]
  rfl

/-- The owner replies nothing but the code when the target is not registered. -/
theorem Process.answer_of_unknown {t : Transmission} (hkernel : Accepts kernel)
    (hdata : data.ByteOnly) (ht : t.data = data.data ∧ t.offsets = data.objOffsets)
    (htwoWay : t.header.isOneWay = false) (hobj : p.device.objects id = none)
    (handlers : Handlers) (w : World) (pid euid : UInt32) (lastRead : ℕ → Bool × Bool)
    (buffer offsets : Usize) :
    ∃ reply, p.answer kernel handlers w lastRead
        (t.deliverCall id ⟨pid, euid, buffer, offsets⟩) = some reply ∧
      reply.header.code = t.header.code ∧ reply.data = [] := by
  have htarget : (t.deliverCall id ⟨pid, euid, buffer, offsets⟩).targetId = id := rfl
  have hone : (t.deliverCall id ⟨pid, euid, buffer, offsets⟩).header.isOneWay = false := htwoWay
  obtain ⟨htable, -⟩ :=
    fromKernelRaw_deliverCall hdata p.device.addr ht id ⟨pid, euid, buffer, offsets⟩
  obtain ⟨device, hfree, -⟩ := exists_freeOn hkernel p.device.addr
    (t.deliverCall id ⟨pid, euid, buffer, offsets⟩) p.device
  have hdrop := (PayloadReader.dropAlone_of_table_eq_nil kernel lastRead p.device htable rfl).trans
    hfree
  refine ⟨⟨emptyReply w (t.deliverCall id ⟨pid, euid, buffer, offsets⟩), [], []⟩, ?_, rfl, rfl⟩
  simp only [Process.answer, transactionArm, World.dropping, htarget, hobj, hone, hdrop,
    BinderDevice.writeCommand, hkernel _ _, Bool.false_eq_true, if_false, Option.map_some,
    Option.bind_eq_bind, Option.bind_some, List.getLast?_append, List.getLast?_singleton,
    Option.some_or]
  rfl

/-- Remotely, the caller gets the bytes of the reply, if its objects can be marked. -/
theorem RemotePath.exists_outcome_eq (path : RemotePath) (hwaits : path.Waits)
    (hkernel : Accepts kernel) (hdata : data.ByteOnly) {handler : HandlerRef}
    (hobj : p.device.objects id = some handler) {reply : PayloadBuilder}
    (hreply : handlers.onBytes handler code pid euid data.data = reply) :
    ∃ (dev : BinderDevice) (sent : Transmission), dev.objectRefcounts = p.device.objectRefcounts ∧
      sent.data = reply.data ∧ sent.offsets = reply.objOffsets ∧
      path.outcome kernel handlers w p pid euid id code data =
        (markObjectsAsPendingRemote sent dev).map fun _ => .ok (code, reply.data) := by
  obtain ⟨p', hcounts, hanswer⟩ := Process.exists_answer_of_registered w (callTransmission path.upper
    path.buffer path.offsets path.handle code TransactionFlags.acceptFds data) path.callBuffer
    path.callOffsets hkernel hdata ⟨rfl, rfl⟩ hobj hreply path.lastRead
  refine ⟨p'.device, replyTo w ((callTransmission path.upper path.buffer path.offsets path.handle
    code TransactionFlags.acceptFds data).deliverCall id
      ⟨pid, euid, path.callBuffer, path.callOffsets⟩) reply, hcounts, rfl, rfl, ?_⟩
  rw [path.outcome_eq hwaits hdata, hanswer, sendReply, Option.map_map, Option.map_map]
  rfl

end Outcomes

/-! ## Agreement -/

/-- What a caller in the process of the owner gets, from a handler whose reply some calls made: the
reply is returned exactly if its descriptors can be duplicated and the counts of its objects have
room for the clones; it comes with its code and its bytes, up to the records of the descriptors. -/
structure LocalPath.Gives (path : LocalPath) (dev : BinderDevice) (code : UInt32)
    (reply : PayloadBuilder) (calls : List BuilderCall)
    (outcome : Option (Except Error (UInt32 × List UInt8))) : Prop where
  returns : outcome.isSome ↔
    (dupEach path.dup path.table (calls.filterMap BuilderCall.descriptor?)).isSome ∧
      dev.HasRoom .increaseLocal
        (reply.binderObjects.filterMap (BinderObjectOrRef.strongIdOn dev.addr))
  bytes : ∀ res, outcome = some res → ∃ bytes, res = .ok (code, bytes) ∧ reply.SameButFds bytes ∧
    (calls.filterMap BuilderCall.descriptor? = [] → bytes = reply.data)

/-- What a caller in another process gets: the reply is returned exactly if the counts of its
objects have room for the marks, with its code and its bytes. -/
structure RemotePath.Gives (dev : BinderDevice) (code : UInt32) (reply : PayloadBuilder)
    (calls : List BuilderCall) (outcome : Option (Except Error (UInt32 × List UInt8))) : Prop where
  returns : outcome.isSome ↔
    dev.HasRoom .markPendingRemote (calls.filterMap BuilderCall.strongId)
  bytes : ∀ res, outcome = some res → res = .ok (code, reply.data)

/-- What a caller gets from each path on a payload of bytes. If the target is registered, both give
its code and the bytes of the reply of its handler, locally up to the records of descriptors, and
for replies that local delivery knows; a reply of bytes is always given by both. If it is not
registered, the local path gives an error, and the remote path the code and no bytes. -/
structure Outcomes (kernel : KernelWrite) (handlers : Handlers) (w : World) (p : Process)
    (pid euid : UInt32) (id : BinderObjectId) (code : UInt32) (data : PayloadBuilder)
    (here : LocalPath) (there : RemotePath) : Prop where
  locally : ∀ handler, p.device.objects id = some handler → ∀ calls,
    (handlers.onBytes handler code pid euid data.data).MadeBy calls →
    (∀ c ∈ calls, c.isDeliverable = true) →
    here.Gives p.device code (handlers.onBytes handler code pid euid data.data) calls
      (here.outcome kernel handlers p pid euid id code data)
  remotely : ∀ handler, p.device.objects id = some handler → ∀ calls,
    (handlers.onBytes handler code pid euid data.data).MadeBy calls →
    RemotePath.Gives p.device code (handlers.onBytes handler code pid euid data.data) calls
      (there.outcome kernel handlers w p pid euid id code data)
  bytes : ∀ handler, p.device.objects id = some handler →
    (handlers.onBytes handler code pid euid data.data).ByteOnly →
    here.outcome kernel handlers p pid euid id code data =
        some (.ok (code, (handlers.onBytes handler code pid euid data.data).data)) ∧
      there.outcome kernel handlers w p pid euid id code data =
        some (.ok (code, (handlers.onBytes handler code pid euid data.data).data))
  unknown : p.device.objects id = none →
    here.outcome kernel handlers p pid euid id code data = some (.error .objectNotFound) ∧
      there.outcome kernel handlers w p pid euid id code data = some (.ok (code, []))

section Agreement

variable {kernel : KernelWrite} {handlers : Handlers} {w : World} {p : Process} {pid euid : UInt32}
  {id : BinderObjectId} {code : UInt32} {data : PayloadBuilder}

/-- What the local path gives if the target is registered. -/
theorem LocalPath.gives (path : LocalPath) (hkernel : Accepts kernel) (hdata : data.ByteOnly)
    {handler : HandlerRef} (hobj : p.device.objects id = some handler) {reply : PayloadBuilder}
    (hreply : handlers.onBytes handler code pid euid data.data = reply) {calls : List BuilderCall}
    (hmade : reply.MadeBy calls) (hcalls : ∀ c ∈ calls, c.isDeliverable = true) :
    path.Gives p.device code reply calls
      (path.outcome kernel handlers p pid euid id code data) := by
  obtain ⟨undef, hbuilt⟩ := hmade
  obtain ⟨⟨table, htable⟩, -⟩ := PayloadBuilder.represents_of_exec hbuilt
  obtain ⟨hdup, hsame⟩ := PayloadReader.patchFds_spec_of_represents path.dup path.undef
    htable hcalls path.table
  rw [path.outcome_eq hkernel hdata hobj hreply]
  constructor
  · rw [← hdup, ← PayloadReader.isSome_cloneAll_iff]
    cases PayloadReader.patchFds path.dup path.undef path.table reply.data reply.objOffsets <;> simp
  · intro res hres
    obtain ⟨x, hx, hres⟩ := Option.bind_eq_some_iff.mp hres
    obtain ⟨_, -, rfl⟩ := Option.map_eq_some_iff.mp hres
    have hsame := hsame x hx
    exact ⟨x.1, rfl, hsame, fun hnone =>
      hsame.eq_data (PayloadReader.not_fdAt_of_represents htable hnone)⟩

/-- What the remote path gives if the target is registered. -/
theorem RemotePath.gives (path : RemotePath) (hwaits : path.Waits) (hkernel : Accepts kernel)
    (hdata : data.ByteOnly) {handler : HandlerRef} (hobj : p.device.objects id = some handler)
    {reply : PayloadBuilder} (hreply : handlers.onBytes handler code pid euid data.data = reply)
    {calls : List BuilderCall} (hmade : reply.MadeBy calls) :
    RemotePath.Gives p.device code reply calls
      (path.outcome kernel handlers w p pid euid id code data) := by
  obtain ⟨undef, hbuilt⟩ := hmade
  obtain ⟨dev, sent, hcounts, hbytes, hoffsets, houtcome⟩ :=
    path.exists_outcome_eq (w := w) hwaits hkernel hdata hobj hreply
  rw [houtcome, markObjectsAsPendingRemote_eq hbuilt hbytes hoffsets]
  constructor
  · rw [Option.isSome_map, BinderDevice.isSome_refOpAll_iff, BinderDevice.HasRoom, hcounts]
    rfl
  · intro res hres
    obtain ⟨_, -, rfl⟩ := Option.map_eq_some_iff.mp hres
    rfl

/-- A reply of bytes is always given by the local path. -/
theorem LocalPath.outcome_of_byteOnly (path : LocalPath) (hkernel : Accepts kernel)
    (hdata : data.ByteOnly) {handler : HandlerRef} (hobj : p.device.objects id = some handler)
    {reply : PayloadBuilder} (hreply : handlers.onBytes handler code pid euid data.data = reply)
    (hbytes : reply.ByteOnly) :
    path.outcome kernel handlers p pid euid id code data = some (.ok (code, reply.data)) := by
  rw [path.outcome_eq hkernel hdata hobj hreply, hbytes.offsets, hbytes.objects]
  rfl

/-- It is by the remote path. -/
theorem RemotePath.outcome_of_byteOnly (path : RemotePath) (hwaits : path.Waits)
    (hkernel : Accepts kernel) (hdata : data.ByteOnly) {handler : HandlerRef}
    (hobj : p.device.objects id = some handler) {reply : PayloadBuilder}
    (hreply : handlers.onBytes handler code pid euid data.data = reply) (hbytes : reply.ByteOnly) :
    path.outcome kernel handlers w p pid euid id code data = some (.ok (code, reply.data)) := by
  obtain ⟨dev, sent, -, -, hoffsets, houtcome⟩ :=
    path.exists_outcome_eq (w := w) hwaits hkernel hdata hobj hreply
  rw [houtcome, markObjectsAsPendingRemote_of_offsets_eq_nil (hoffsets.trans hbytes.offsets)]
  rfl

end Agreement

/-- **Local and remote calls.** On every payload of bytes, a caller in the process of the owner and
one in another process get the same from a registered target, but for the descriptors in the reply;
from an unknown one, the first gets an error and the second an empty reply. -/
theorem local_remote_outcomes {kernel : KernelWrite} (hkernel : Accepts kernel)
    (handlers : Handlers) (w : World) (p : Process) (pid euid : UInt32) (id : BinderObjectId)
    (code : UInt32) {data : PayloadBuilder} (hdata : data.ByteOnly) (here : LocalPath)
    {there : RemotePath} (hwaits : there.Waits) :
    Outcomes kernel handlers w p pid euid id code data here there := by
  refine ⟨fun handler hobj calls hmade hcalls => here.gives hkernel hdata hobj rfl hmade hcalls,
    fun handler hobj calls hmade => there.gives hwaits hkernel hdata hobj rfl hmade,
    fun handler hobj hbytes => ⟨here.outcome_of_byteOnly hkernel hdata hobj rfl hbytes,
      there.outcome_of_byteOnly hwaits hkernel hdata hobj rfl hbytes⟩,
    fun hobj => ⟨here.outcome_of_unknown hdata hobj, ?_⟩⟩
  rw [there.outcome_eq hwaits hdata]
  have htwoWay : (callTransmission there.upper there.buffer there.offsets there.handle code
      TransactionFlags.acceptFds data).header.isOneWay = false := by
    simp only [callTransmission, Transmission.ofBuilder, BinderTransactionData.isOneWay]
    decide
  obtain ⟨reply, hreply, hcode, hnone⟩ := Process.answer_of_unknown hkernel hdata ⟨rfl, rfl⟩ htwoWay
    hobj handlers w pid euid there.lastRead there.callBuffer there.callOffsets
  rw [hreply, Option.map_some, hcode, hnone]
  rfl

/-! ## Transactions by their target -/

/-- What a caller gets from a call, once it has returned. -/
def CallResult.outcome :
    CallResult (UInt32 × PayloadReader) → Option (Except Error (UInt32 × List UInt8))
  | returned res _ => some (replied res)
  | _ => none

section Targets

variable {kernel : KernelWrite} {handlers : Handlers} {w : World} {p : Process} {pid euid : UInt32}
  {id : BinderObjectId} {code : UInt32} {data : PayloadBuilder} {target : TransactionTarget}

/-- A transaction to an object of the process gives what the local path does. -/
theorem LocalPath.outcome_transactBlocking (path : LocalPath)
    (htarget : target.getTransactionTargetHandle = .local id) (upper : UInt32)
    (buffer offsets : Usize) (reads : List ReadResult) :
    (p.device.transactBlocking path.dup path.undef kernel handlers pid euid path.last path.lastRead
      path.lastReply upper buffer offsets path.table target code data reads).outcome =
        path.outcome kernel handlers p pid euid id code data := by
  rw [BinderDevice.transactBlocking, htarget, outcome]
  dsimp only
  cases p.device.selfTransactBlocking path.dup path.undef kernel handlers pid euid path.last
    path.lastRead path.lastReply path.table id code data <;> rfl

/-- A transaction to a handle gives what the remote path does, once the owner has answered. -/
theorem RemotePath.outcome_transactBlocking (path : RemotePath)
    (htarget : target.getTransactionTargetHandle = .remote path.handle) (here : LocalPath)
    (pid' euid' : UInt32) {outcome : Except Error (UInt32 × List UInt8)}
    (houtcome : path.outcome kernel handlers w p pid euid id code data = some outcome) :
    ∃ reply reads, p.answer kernel handlers w path.lastRead ((callTransmission path.upper path.buffer
        path.offsets path.handle code TransactionFlags.acceptFds data).deliverCall id
          ⟨pid, euid, path.callBuffer, path.callOffsets⟩) = some reply ∧
      path.reads (reply.deliverReply path.replySender) = some reads ∧
      (path.caller.transactBlocking here.dup here.undef path.kernel handlers pid' euid' path.last
        here.lastRead here.lastReply path.upper path.buffer path.offsets here.table target code data
          reads).outcome = some outcome := by
  obtain ⟨reply, hreply, hrest⟩ := Option.bind_eq_some_iff.mp houtcome
  obtain ⟨reads, hreads, hcall⟩ := Option.bind_eq_some_iff.mp hrest
  refine ⟨reply, reads, hreply, hreads, ?_⟩
  rw [BinderDevice.transactBlocking, htarget, ← hcall]
  dsimp only
  cases path.caller.remoteTransactBlocking path.kernel path.last path.upper path.buffer path.offsets
    path.handle code data reads <;> rfl

/-- **Transactions by their target.** A payload of bytes to a registered object that replies with
bytes: from the process of the object and from another one, `transact_blocking` gives the same. -/
theorem BinderDevice.transactBlocking_outcomes (hkernel : Accepts kernel) (hdata : data.ByteOnly)
    {handler : HandlerRef} (hobj : p.device.objects id = some handler)
    (hbytes : (handlers.onBytes handler code pid euid data.data).ByteOnly) {here : LocalPath}
    {there : RemotePath} (hwaits : there.Waits) {target' : TransactionTarget}
    (htarget : target.getTransactionTargetHandle = .local id)
    (htarget' : target'.getTransactionTargetHandle = .remote there.handle)
    (pid' euid' : UInt32) (reads : List ReadResult) :
    ∃ reply reads', p.answer kernel handlers w there.lastRead ((callTransmission there.upper
        there.buffer there.offsets there.handle code TransactionFlags.acceptFds data).deliverCall id
          ⟨pid, euid, there.callBuffer, there.callOffsets⟩) = some reply ∧
      there.reads (reply.deliverReply there.replySender) = some reads' ∧
      (p.device.transactBlocking here.dup here.undef kernel handlers pid euid here.last here.lastRead
        here.lastReply there.upper there.buffer there.offsets here.table target code data
          reads).outcome =
      (there.caller.transactBlocking here.dup here.undef there.kernel handlers pid' euid' there.last
        here.lastRead here.lastReply there.upper there.buffer there.offsets here.table target' code
          data reads').outcome := by
  have hremote := there.outcome_of_byteOnly (w := w) hwaits hkernel hdata hobj rfl hbytes
  obtain ⟨reply, reads', hreply, hreads, hcall⟩ :=
    there.outcome_transactBlocking htarget' here pid' euid' hremote
  refine ⟨reply, reads', hreply, hreads, ?_⟩
  rw [hcall, here.outcome_transactBlocking htarget,
    here.outcome_of_byteOnly hkernel hdata hobj rfl hbytes]

end Targets

/-! ## An echo -/

/-- Handlers that read two bytes and send them back. -/
def echo : Handlers := fun _ _ _ _ => .readBytes 2 fun res =>
  match res with
  | some (.ok bytes) => .ret (PayloadBuilder.new.pushBytes bytes)
  | _ => .ret PayloadBuilder.new

/-- Handlers that reply with a descriptor. -/
def sendsFd : Handlers := fun _ _ _ _ =>
  .ret (PayloadBuilder.new.pushFd (fun _ => 0) ⟨8, by decide⟩ 9)

/-- Handlers that reply with an object of their process. -/
def sendsObject : Handlers := fun _ _ _ _ =>
  .ret (((PayloadBuilder.new.pushBinderRef (fun _ => 0) (BinderDevice.new 0)
    (.erased (.object ⟨0, ⟨1, 0⟩, ⟨0⟩, true⟩))).map Prod.fst).getD .new)

/-- The process of that object, which has as many references as a `u32` can count. -/
def fullProcess : Process :=
  { processWith ⟨1, 0⟩ with
    device := { (processWith ⟨1, 0⟩).device with
      objectRefcounts := DashMap.insert DashMap.empty ⟨1, 0⟩
        ⟨⟨1, 0⟩, ⟨2 ^ 32 - 1, 0, 0⟩, 2 ^ 32 - 1⟩ } }

/-- The local path of a process in which the next descriptor is 6. -/
def quietLocal : LocalPath where
  files := Unit
  table := ()
  dup _ _ := some (⟨6, by decide⟩, ())
  undef _ := 0
  last _ := (false, false)
  lastRead _ := (false, false)
  lastReply _ := (false, false)

/-- A remote path on which the caller reads an acknowledgement, and then the reply. -/
def quietRemote : RemotePath where
  caller := BinderDevice.new 9
  kernel _ _ := none
  handle := 1
  upper := 0
  buffer := 64
  offsets := 128
  last _ := (false, false)
  lastRead _ := (false, false)
  callBuffer := 4096
  callOffsets := 4112
  replySender := ⟨0, 0, 8192, 8192⟩
  quiet := [(quietMet ⟨5, 0⟩, [.noop, .transactionComplete])]
  env := quietMet ⟨5, 0⟩
  before := [.noop]
  after := []

/-- What the two paths give on two bytes, from a registered target. -/
theorem local_remote_outcomes_echo :
    Outcomes (fun _ _ => none) echo quietWorld (processWith ⟨1, 0⟩) 10 0 ⟨1, 0⟩ 7
      ⟨[3, 4], [], [], []⟩ quietLocal quietRemote := by
  refine local_remote_outcomes (fun _ _ => rfl) _ _ _ _ _ _ _ ⟨rfl, rfl⟩ _ ⟨?_, ?_⟩
  · intro read hread i r hr
    rw [List.mem_singleton.mp hread] at hr ⊢
    match i, hr with
    | 0, hr => cases hr; trivial
    | 1, hr => cases hr; trivial
  · intro i r hr
    match i, hr with
    | 0, hr => cases hr; trivial

/-- The paths differ in two ways: from a target that is not registered, the caller gets an error or
an empty reply, depending on where it is; and a local caller gets a reply with the number of a
duplicate in it, a remote one with that of the descriptor. And there is not always a reply: locally
the descriptor must be duplicated, and on both paths the objects must be counted once more. -/
theorem local_remote_differ :
    (quietLocal.outcome (fun _ _ => none) echo (processWith ⟨1, 0⟩) 10 0 ⟨2, 0⟩ 7
        ⟨[3, 4], [], [], []⟩ = some (.error .objectNotFound) ∧
      quietRemote.outcome (fun _ _ => none) echo quietWorld (processWith ⟨1, 0⟩) 10 0 ⟨2, 0⟩ 7
        ⟨[3, 4], [], [], []⟩ = some (.ok (7, []))) ∧
    (∃ bytes bytes', quietLocal.outcome (fun _ _ => none) sendsFd (processWith ⟨1, 0⟩) 10 0 ⟨1, 0⟩ 7
        ⟨[3, 4], [], [], []⟩ = some (.ok (7, bytes)) ∧
      quietRemote.outcome (fun _ _ => none) sendsFd quietWorld (processWith ⟨1, 0⟩) 10 0 ⟨1, 0⟩ 7
        ⟨[3, 4], [], [], []⟩ = some (.ok (7, bytes')) ∧ bytes ≠ bytes') ∧
    { quietLocal with dup := fun _ _ => none }.outcome (fun _ _ => none) sendsFd
        (processWith ⟨1, 0⟩) 10 0 ⟨1, 0⟩ 7 ⟨[3, 4], [], [], []⟩ = none ∧
    quietLocal.outcome (fun _ _ => none) sendsObject fullProcess 10 0 ⟨1, 0⟩ 7
        ⟨[3, 4], [], [], []⟩ = none ∧
      quietRemote.outcome (fun _ _ => none) sendsObject quietWorld fullProcess 10 0 ⟨1, 0⟩ 7
        ⟨[3, 4], [], [], []⟩ = none :=
  ⟨⟨rfl, rfl⟩, ⟨_, _, rfl, rfl, by decide +kernel⟩, rfl, by decide +kernel, by decide +kernel⟩

end BinderBinder
