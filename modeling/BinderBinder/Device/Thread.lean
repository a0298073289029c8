import BinderBinder.Device.Kernel
import BinderBinder.Lib.Run

set_option relaxedAutoImplicit false
set_option autoImplicit false

/-!
# A thread and its transactions

A thread of the process as a state machine: its stack of frames (calls, one-way sends, nested reply
writes and a looper), each inside `binder_write_read` or in a handler, next to what the kernel keeps
for it. Handlers may start transactions of their own; the other threads act on the process at any
time.

## Main definitions

* `Frame`, `Thread` — the frames of a thread, from the inside out, and its state.
* `Label`, `Thread.step` — the steps, taken from `binder_write_read`, `remote_transact_blocking`,
  `remote_transact_one_way` and `looper`.
* `Event` — what the thread has done, for statements about runs.
* `Thread.Effect` — everything a step can do.

## Main results

* `Thread.step_effect` — every step has one of these effects.
* `Thread.Numbered.step` — the calls of the frames are told apart by their numbers.
-/

namespace BinderBinder

/-! ## Frames -/

/-- Where a frame is: about to make its ioctl, with or without its write; dispatching the records
of a read; or in the handler of a transaction of that read. -/
inductive Phase
  | ioctl (write : Bool)
  | dispatch (rest : List KernelRecord)
  | handling (t : Transmission) (rest : List KernelRecord)

/-- The records that were read and not dispatched. -/
def Phase.rest : Phase → List KernelRecord
  | .ioctl _ => []
  | .dispatch rest => rest
  | .handling _ rest => rest

/-- A frame of the thread. -/
structure Frame where
  owner : Owner
  phase : Phase

/-- `Error`, as far as calls return it. -/
inductive Error
  | shutdown
  | deadReply
  | objectNotFound
  | unknown (code : ℕ)
  | frozenReply
  | binder (errno : ℕ)
  deriving DecidableEq, Repr

/-- The error a call returns for an error of `binder_write_read`; a full buffer is not returned. -/
def WriteReadError.toError : WriteReadError → Option Error
  | .noDevice => some .shutdown
  | .deadReply => some .deadReply
  | .objectNotFound => some .objectNotFound
  | .failedReply => some (.unknown 1)
  | .frozenReply => some .frozenReply
  | .writeReadIoctlFailed errno => some (.binder errno)
  | .asyncBufferFull => none

/-- Why a `binder_write_read` returned: its buffer was used up, the arm of a record returned, its
ioctl failed (with or without a write), or the device was gone. -/
inductive Cause
  | exhausted
  | record (r : KernelRecord)
  | ioctlFailed (errno : ℕ) (write : Bool)
  | gone

/-- What a thread has done: a frame read records, left records undispatched when it returned from
a read, a transmission ended, or its marks were rolled back. -/
inductive Event
  | read (owner : Owner) (rs : List KernelRecord)
  | dropped (owner : Owner) (rs : List KernelRecord)
  | callEnded (t : ℕ) (res : Except Error (UInt32 × PayloadReader)) (cause : Cause)
  | oneWayEnded (n : ℕ) (res : Except Error Unit) (cause : Cause)
  | unmarked (id : SendId) (cause : Cause)

/-- A thread: the process it shares with others, what the kernel keeps for it, its frames from the
inside out, the number of its next transmission, and its history, the latest event first. -/
structure Thread where
  process : Process
  kernel : Kernel
  frames : List Frame
  nextId : ℕ
  history : List Event

/-! ## Steps -/

/-- The steps of a thread, and what they meet: a looper, a call or a one-way send begins; the ioctl
fails (`taken` if the kernel took the write before) or gives out records; a record is dispatched, or
the end of the buffer reached; a handler returns; the other threads act. -/
inductive Label
  | startLooper
  | startCall (txn : Transmission)
  | startOneWay (txn : Transmission)
  | ioctlFailed (w : World) (errno : ℕ) (taken : Bool)
  | read (rs : List KernelRecord) (alive : Bool)
  | dispatch (w : World)
  | handled (w : World) (replyData : PayloadBuilder)
  | others (p : Process)

/-- The steps with which something begins. -/
def Label.isStart : Label → Bool
  | .startLooper | .startCall _ | .startOneWay _ => true
  | _ => false

namespace Thread

/-- A transaction can begin in an idle thread and in a handler. -/
def canStart (s : Thread) : Bool :=
  match s.frames with
  | [] => true
  | ⟨_, .handling _ _⟩ :: _ => true
  | _ => false

/-- The thread with a new frame inside, about to write. -/
def enter (s : Thread) (o : Owner) : Thread :=
  { s with frames := ⟨o, .ioctl true⟩ :: s.frames, nextId := s.nextId + 1 }

/-- The thread after some events. -/
def log (s : Thread) (events : List Event) : Thread := { s with history := events ++ s.history }

/-- A looper goes on after every result but `NoDevice`. -/
def leaveLooper (s : Thread) (outer : List Frame) (res : Option WriteReadResult) : Thread :=
  match res with
  | some (.error .noDevice) => { s with frames := outer }
  | _ => { s with frames := ⟨.looper, .ioctl false⟩ :: outer }

/-- The loop of `remote_transact_blocking` after a `binder_write_read`; its write was taken. -/
def leaveCall (s : Thread) (t : ℕ) (txn : Transmission) (outer : List Frame)
    (res : Option WriteReadResult) (cause : Cause) : Option Thread :=
  match res with
  | some (.ok v) => some ({ s with frames := outer }.log [.callEnded t (.ok v) cause])
  | some (.error e) =>
    match e.toError with
    | some err => (unmarkObjectsAsPendingRemote txn s.process.device).map fun device =>
        { s with frames := outer, process := { s.process with device } }.log
          [.callEnded t (.error err) cause, .unmarked (.call t) cause]
    | none => some { s with frames := ⟨.call t txn, .ioctl false⟩ :: outer }
  | none => some { s with frames := ⟨.call t txn, .ioctl false⟩ :: outer }

/-- The loop of `remote_transact_one_way` after a `binder_write_read`: a full buffer is tried again
with the same write. -/
def leaveOneWay (s : Thread) (n : ℕ) (txn : Transmission) (outer : List Frame)
    (res : Option WriteReadResult) (cause : Cause) : Option Thread :=
  match res with
  | some (.error e) =>
    match e.toError with
    | some err => (unmarkObjectsAsPendingRemote txn s.process.device).map fun device =>
        { s with frames := outer, process := { s.process with device } }.log
          [.oneWayEnded n (.error err) cause, .unmarked (.oneWay n) cause]
    | none => some { s with frames := ⟨.oneWay n txn, .ioctl true⟩ :: outer }
  | _ => some ({ s with frames := outer }.log [.oneWayEnded n (.ok ()) cause])

/-- The end of the arm that sent a reply, after its `binder_write_read`. -/
def leaveReply (w : World) (s : Thread) (n : ℕ) (txn : Transmission) (replyData : PayloadBuilder)
    (outer : List Frame) (res : Option WriteReadResult) (cause : Cause) : Option Thread :=
  (finishReply w s.process txn replyData res).map fun process =>
    { s with frames := outer, process }.log
      (match res with
        | some (.error _) => [.unmarked (.reply n) cause]
        | _ => [])

/-- `binder_write_read` of a frame inside the frames `outer` returns `res`; the records it did not
dispatch are gone. -/
def leave (w : World) (s : Thread) (o : Owner) (outer : List Frame) (rest : List KernelRecord)
    (res : Option WriteReadResult) (cause : Cause) : Option Thread :=
  let s := s.log [.dropped o rest]
  match o with
  | .looper => some (s.leaveLooper outer res)
  | .call t txn => s.leaveCall t txn outer res cause
  | .oneWay n txn => s.leaveOneWay n txn outer res cause
  | .reply n txn replyData => s.leaveReply w n txn replyData outer res cause

variable (kernelWrite : KernelWrite)

/-- The first record of the buffer goes to its arm. The empty reply for a missing handler is a
transmission of its own. -/
def dispatchStep (w : World) (s : Thread) (o : Owner) (outer : List Frame) (r : KernelRecord)
    (rest : List KernelRecord) : Option Thread :=
  match arm kernelWrite w s.process r.record with
  | none => none
  | some (process, .next) =>
    some { s with process, frames := ⟨o, .dispatch rest⟩ :: outer }
  | some (process, .handle _ t) =>
    some { s with process, frames := ⟨o, .handling t rest⟩ :: outer }
  | some (process, .done res) =>
    match r.record with
    | .transaction _ t =>
      if t.header.isOneWay then leave w { s with process } o outer rest (some res) (.record r)
      else leave w { s with process, kernel := s.kernel.write (.reply s.nextId),
                            nextId := s.nextId + 1 } o outer rest (some res) (.record r)
    | _ => leave w { s with process } o outer rest (some res) (.record r)

/-- A handler returns: the reply to a two-way transaction is written by a nested frame. -/
def handledStep (w : World) (s : Thread) (o : Owner) (outer : List Frame) (t : Transmission)
    (rest : List KernelRecord) (replyData : PayloadBuilder) : Option Thread :=
  if t.header.isOneWay then some { s with frames := ⟨o, .dispatch rest⟩ :: outer }
  else (sendReply w s.process t replyData).map fun (reply, process) =>
    { s with process, frames := ⟨o, .dispatch rest⟩ :: outer }.enter
      (.reply s.nextId reply replyData)

/-- The ioctl succeeds and gives out records. Only a looper can find the device gone, all other
frames hold an `Arc` of it. -/
def readStep (s : Thread) (o : Owner) (outer : List Frame) (write : Bool)
    (rs : List KernelRecord) (alive : Bool) : Option Thread :=
  ((if write then s.kernel.writeOwner o else s.kernel).deliverAll rs).bind fun kernel =>
    let s := { s with kernel }.log [.read o rs]
    if alive then some { s with frames := ⟨o, .dispatch rs⟩ :: outer }
    else
      match o with
      | .looper => some ((s.log [.dropped o rs]).leaveLooper outer (some (.error .noDevice)))
      | _ => none

/-- One step of the thread; `none` says that it is not enabled, or panics. -/
def step (s : Thread) : Label → Option Thread
  | .startLooper => if s.frames.isEmpty then some (s.enter .looper) else none
  | .startCall txn =>
    if s.canStart then
      (markObjectsAsPendingRemote txn s.process.device).map fun device =>
        { s with process := { s.process with device } }.enter (.call s.nextId txn)
    else none
  | .startOneWay txn =>
    if s.canStart then
      (markObjectsAsPendingRemote txn s.process.device).map fun device =>
        { s with process := { s.process with device } }.enter (.oneWay s.nextId txn)
    else none
  | .ioctlFailed w errno taken =>
    match s.frames with
    | ⟨o, .ioctl write⟩ :: outer =>
      leave w { s with kernel := if write && taken then s.kernel.writeOwner o else s.kernel } o
        outer [] (some (.error (.writeReadIoctlFailed errno))) (.ioctlFailed errno write)
    | _ => none
  | .read rs alive =>
    match s.frames with
    | ⟨o, .ioctl write⟩ :: outer => readStep s o outer write rs alive
    | _ => none
  | .dispatch w =>
    match s.frames with
    | ⟨o, .dispatch []⟩ :: outer => leave w s o outer [] none .exhausted
    | ⟨o, .dispatch (r :: rest)⟩ :: outer => dispatchStep kernelWrite w s o outer r rest
    | _ => none
  | .handled w replyData =>
    match s.frames with
    | ⟨o, .handling t rest⟩ :: outer => handledStep w s o outer t rest replyData
    | _ => none
  | .others process => some { s with process }

/-- A thread that has done nothing yet. -/
def idle (process : Process) : Thread := ⟨process, ⟨[], []⟩, [], 0, []⟩

end Thread

/-! ## What the arms return -/

section Arms

variable {kernelWrite : KernelWrite} {w : World} {p p' : Process} {r : Record}

/-- The records whose arms return, and what they return. -/
inductive Returned (w : World) (p : Process) : Record → WriteReadResult → Prop
  | reply (t : Transmission) :
    Returned w p (.reply t) (.ok (t.header.code, PayloadReader.fromKernelRaw p.device.addr t))
  | deadReply : Returned w p .deadReply (.error .deadReply)
  | bufferFull (h : w.lastError = some negNospc) :
    Returned w p .failedReply (.error .asyncBufferFull)
  | failedReply (h : w.lastError ≠ some negNospc) : Returned w p .failedReply (.error .failedReply)
  | frozenReply : Returned w p .frozenReply (.error .frozenReply)
  | objectNotFound (secCtx : Option Usize) (t : Transmission)
      (h : p.device.objects t.targetId = none) :
    Returned w p (.transaction secCtx t) (.error .objectNotFound)

/-- The arm of a transaction hands it to its handler; or there is none, and the arm returns. -/
theorem transactionArm_cases {how : Next} {t : Transmission}
    (h : transactionArm kernelWrite w p t = some (p', how)) :
    (∃ handler, p.device.objects t.targetId = some handler ∧ how = .handle handler t) ∨
      p.device.objects t.targetId = none ∧ how = .done (.error .objectNotFound) := by
  rw [transactionArm] at h
  split at h
  · next hobj =>
    obtain ⟨dropped, -, h⟩ := Option.bind_eq_some_iff.mp h
    refine Or.inr ⟨hobj, ?_⟩
    split_ifs at h
    · cases h
      rfl
    · obtain ⟨device, -, heq⟩ := Option.map_eq_some_iff.mp h
      cases heq
      rfl
  · next handler hobj =>
    cases h
    exact Or.inl ⟨handler, hobj, rfl⟩

/-- An arm returns only for these records. -/
theorem returned_of_arm {res : WriteReadResult}
    (h : arm kernelWrite w p r = some (p', .done res)) : Returned w p r res := by
  cases r
  case transaction secCtx t =>
    rcases transactionArm_cases h with ⟨_, -, hhow⟩ | ⟨hobj, hhow⟩
    · cases hhow
    · cases hhow
      exact .objectNotFound secCtx t hobj
  case failedReply =>
    obtain ⟨param, hparam, heq⟩ := Option.map_eq_some_iff.mp h
    cases heq
    split_ifs with hfull
    · exact .bufferFull (by rw [hparam, hfull])
    · exact .failedReply (by rw [hparam]; exact fun heq => hfull (Option.some.inj heq))
  case reply t =>
    cases h
    exact .reply t
  case deadReply =>
    cases h
    exact .deadReply
  case frozenReply =>
    cases h
    exact .frozenReply
  case acquire target | release target =>
    obtain ⟨_, -, heq⟩ := Option.map_eq_some_iff.mp h
    cases heq
  all_goals cases h

/-- The arm of an answer returns. -/
theorem not_isAnswer_of_next (h : arm kernelWrite w p r = some (p', .next)) :
    r.isAnswer = false := by
  cases r
  case failedReply =>
    obtain ⟨_, -, heq⟩ := Option.map_eq_some_iff.mp h
    cases heq
  all_goals first | rfl | cases h

/-- The arm of a transaction goes on only if the target is registered. -/
theorem registered_of_arm {how : Next} {secCtx : Option Usize} {t : Transmission}
    (h : arm kernelWrite w p (.transaction secCtx t) = some (p', how))
    (hnext : ∀ res, how ≠ .done res) : p.device.objects t.targetId ≠ none := by
  intro hobj
  rcases transactionArm_cases h with ⟨handler, hhandler, -⟩ | ⟨-, hhow⟩
  · rw [hobj] at hhandler
    cases hhandler
  · exact hnext _ hhow

/-- Only transactions are handled. -/
theorem exists_transaction_of_handle {handler : HandlerRef} {t : Transmission}
    (h : arm kernelWrite w p r = some (p', .handle handler t)) :
    ∃ secCtx, r = .transaction secCtx t := by
  cases r
  case transaction secCtx t' =>
    rcases transactionArm_cases h with ⟨_, -, hhow⟩ | ⟨-, hhow⟩
    · cases hhow
      exact ⟨secCtx, rfl⟩
    · cases hhow
  case acquire target | release target | failedReply =>
    obtain ⟨_, -, heq⟩ := Option.map_eq_some_iff.mp h
    cases heq
  all_goals cases h

end Arms

namespace Thread

/-! ## What a step does -/

/-- What the owner of a frame does with a result: whether the frame makes another ioctl, and with
its write or without, and what it does to the history. -/
inductive Leaves : Owner → Option WriteReadResult → Cause → Option Bool → List Event → Prop
  | looperGone {cause} : Leaves .looper (some (.error .noDevice)) cause none []
  | looper {res cause} (h : res ≠ some (.error .noDevice)) : Leaves .looper res cause (some false) []
  | callOk {t txn v cause} :
    Leaves (.call t txn) (some (.ok v)) cause none [.callEnded t (.ok v) cause]
  | callError {t txn e err cause} (h : WriteReadError.toError e = some err) :
    Leaves (.call t txn) (some (.error e)) cause none
      [.callEnded t (.error err) cause, .unmarked (.call t) cause]
  | callFull {t txn cause} :
    Leaves (.call t txn) (some (.error .asyncBufferFull)) cause (some false) []
  | callNone {t txn cause} : Leaves (.call t txn) none cause (some false) []
  | oneWayError {n txn e err cause} (h : WriteReadError.toError e = some err) :
    Leaves (.oneWay n txn) (some (.error e)) cause none
      [.oneWayEnded n (.error err) cause, .unmarked (.oneWay n) cause]
  | oneWayFull {n txn cause} :
    Leaves (.oneWay n txn) (some (.error .asyncBufferFull)) cause (some true) []
  | oneWayOk {n txn res cause} (h : ∀ e, res ≠ some (.error e)) :
    Leaves (.oneWay n txn) res cause none [.oneWayEnded n (.ok ()) cause]
  | replyError {n txn replyData e cause} :
    Leaves (.reply n txn replyData) (some (.error e)) cause none [.unmarked (.reply n) cause]
  | replyOk {n txn replyData res cause} (h : ∀ e, res ≠ some (.error e)) :
    Leaves (.reply n txn replyData) res cause none []

/-- The frames a frame leaves behind: itself if it makes another ioctl. -/
def again (o : Owner) (outer : List Frame) : Option Bool → List Frame
  | some write => ⟨o, .ioctl write⟩ :: outer
  | none => outer

/-- Only a full buffer is not returned as an error. -/
theorem toError_eq_none {e : WriteReadError} : e.toError = none ↔ e = .asyncBufferFull := by
  cases e <;> simp [WriteReadError.toError]

/-- What a frame whose `binder_write_read` returns does to the thread. -/
theorem leave_eq_some {w : World} {s s' : Thread} {o : Owner} {outer : List Frame}
    {rest : List KernelRecord} {res : Option WriteReadResult} {cause : Cause}
    (h : leave w s o outer rest res cause = some s') :
    ∃ p write events, Leaves o res cause write events ∧
      s' = ⟨p, s.kernel, again o outer write, s.nextId,
        events ++ .dropped o rest :: s.history⟩ := by
  cases o with
  | looper =>
    cases h
    by_cases hres : res = some (.error .noDevice)
    · subst hres
      exact ⟨s.process, none, [], .looperGone, rfl⟩
    · refine ⟨s.process, some false, [], .looper hres, ?_⟩
      rw [leaveLooper]
      · rfl
      · intro hgone
        exact hres hgone
  | call t txn =>
    rcases res with _ | e | v
    · cases h
      exact ⟨s.process, some false, [], .callNone, rfl⟩
    · simp only [leave, leaveCall] at h
      cases he : e.toError with
      | none =>
        rw [he] at h
        cases h
        obtain rfl := toError_eq_none.mp he
        exact ⟨s.process, some false, [], .callFull, rfl⟩
      | some err =>
        rw [he] at h
        obtain ⟨device, -, rfl⟩ := Option.map_eq_some_iff.mp h
        exact ⟨_, none, _, .callError he, rfl⟩
    · cases h
      exact ⟨s.process, none, _, .callOk, rfl⟩
  | oneWay n txn =>
    rcases res with _ | e | v
    · cases h
      exact ⟨s.process, none, _, .oneWayOk (by simp), rfl⟩
    · simp only [leave, leaveOneWay] at h
      cases he : e.toError with
      | none =>
        rw [he] at h
        cases h
        obtain rfl := toError_eq_none.mp he
        exact ⟨s.process, some true, [], .oneWayFull, rfl⟩
      | some err =>
        rw [he] at h
        obtain ⟨device, -, rfl⟩ := Option.map_eq_some_iff.mp h
        exact ⟨_, none, _, .oneWayError he, rfl⟩
    · cases h
      exact ⟨s.process, none, _, .oneWayOk (by simp), rfl⟩
  | reply n txn replyData =>
    obtain ⟨process, -, rfl⟩ := Option.map_eq_some_iff.mp h
    rcases res with _ | e | v
    · exact ⟨process, none, _, .replyOk (by simp), rfl⟩
    · exact ⟨process, none, _, .replyError, rfl⟩
    · exact ⟨process, none, _, .replyOk (by simp), rfl⟩

/-- Why a `binder_write_read` that is in some phase returns: with the kernel and the next number it
leaves, the records it did not dispatch and the result. -/
inductive Returns (s : Thread) (o : Owner) : Label → Phase → Kernel → ℕ → List KernelRecord →
    Option WriteReadResult → Cause → Prop
  | exhausted {w} : Returns s o (.dispatch w) (.dispatch []) s.kernel s.nextId [] none .exhausted
  | record {w r rest k n res} (hret : Returned w s.process r.record res)
      (hk : (k = s.kernel ∧ n = s.nextId) ∨
        (k = s.kernel.write (.reply s.nextId) ∧ n = s.nextId + 1)) :
    Returns s o (.dispatch w) (.dispatch (r :: rest)) k n rest (some res) (.record r)
  | ioctlFailed {w errno taken write} :
    Returns s o (.ioctlFailed w errno taken) (.ioctl write)
      (if write && taken then s.kernel.writeOwner o else s.kernel) s.nextId []
      (some (.error (.writeReadIoctlFailed errno))) (.ioctlFailed errno write)

/-- A record does not ask for an object that is not registered. -/
def FindsTarget (s : Thread) (r : Record) : Prop :=
  ∀ secCtx t, r = .transaction secCtx t → s.process.device.objects t.targetId ≠ none

/-- Everything a step can do. What it does to the process is left open. -/
inductive Effect (s : Thread) : Label → Thread → Prop
  | start {l p o} (hl : l.isStart = true)
      (ho : o = .looper ∨ ∃ txn, o = .call s.nextId txn ∨ o = .oneWay s.nextId txn) :
    Effect s l { s.enter o with process := p }
  | read {o outer write rs k} (hframes : s.frames = ⟨o, .ioctl write⟩ :: outer)
      (hk : (if write then s.kernel.writeOwner o else s.kernel).deliverAll rs = some k) :
    Effect s (.read rs true)
      ⟨s.process, k, ⟨o, .dispatch rs⟩ :: outer, s.nextId, .read o rs :: s.history⟩
  | readGone {outer write rs k} (hframes : s.frames = ⟨.looper, .ioctl write⟩ :: outer)
      (hk : s.kernel.deliverAll rs = some k) :
    Effect s (.read rs false)
      ⟨s.process, k, outer, s.nextId, .dropped .looper rs :: .read .looper rs :: s.history⟩
  | next {w p o outer r rest} (hframes : s.frames = ⟨o, .dispatch (r :: rest)⟩ :: outer)
      (hr : r.record.isAnswer = false) (htarget : s.FindsTarget r.record) :
    Effect s (.dispatch w)
      ⟨p, s.kernel, ⟨o, .dispatch rest⟩ :: outer, s.nextId, s.history⟩
  | handle {w p o outer r rest t} (hframes : s.frames = ⟨o, .dispatch (r :: rest)⟩ :: outer)
      (hr : r.record.isAnswer = false) (htarget : s.FindsTarget r.record) :
    Effect s (.dispatch w)
      ⟨p, s.kernel, ⟨o, .handling t rest⟩ :: outer, s.nextId, s.history⟩
  | handledOneWay {w replyData o outer t rest}
      (hframes : s.frames = ⟨o, .handling t rest⟩ :: outer) :
    Effect s (.handled w replyData)
      ⟨s.process, s.kernel, ⟨o, .dispatch rest⟩ :: outer, s.nextId, s.history⟩
  | handledTwoWay {w replyData o outer t rest reply p}
      (hframes : s.frames = ⟨o, .handling t rest⟩ :: outer) :
    Effect s (.handled w replyData)
      (enter ⟨p, s.kernel, ⟨o, .dispatch rest⟩ :: outer, s.nextId, s.history⟩
        (.reply s.nextId reply replyData))
  | leave {l p k n o phase outer rest res cause write events}
      (hframes : s.frames = ⟨o, phase⟩ :: outer) (hret : Returns s o l phase k n rest res cause)
      (hleaves : Leaves o res cause write events) :
    Effect s l ⟨p, k, again o outer write, n, events ++ .dropped o rest :: s.history⟩
  | others {p} : Effect s (.others p) { s with process := p }

variable {kernelWrite : KernelWrite}

/-- The dispatch of one record has one of these effects. -/
theorem dispatchStep_effect {w : World} {s s' : Thread} {o : Owner} {outer : List Frame}
    {r : KernelRecord} {rest : List KernelRecord}
    (hframes : s.frames = ⟨o, .dispatch (r :: rest)⟩ :: outer)
    (h : dispatchStep kernelWrite w s o outer r rest = some s') : Effect s (.dispatch w) s' := by
  unfold dispatchStep at h
  split at h
  · cases h
  · next p harm =>
    cases h
    refine .next hframes (not_isAnswer_of_next harm) fun secCtx t hr => ?_
    exact registered_of_arm (hr ▸ harm) (by simp)
  · next p handler t harm =>
    cases h
    obtain ⟨secCtx, hr⟩ := exists_transaction_of_handle harm
    refine .handle hframes (by rw [hr]; rfl) fun secCtx' t' hr' => ?_
    exact registered_of_arm (hr' ▸ harm) (by simp)
  · next p res harm =>
    have hret := returned_of_arm harm
    split at h
    · split_ifs at h with hone
      · obtain ⟨p', write, events, hleaves, rfl⟩ := leave_eq_some h
        exact .leave hframes (.record hret (.inl ⟨rfl, rfl⟩)) hleaves
      · obtain ⟨p', write, events, hleaves, rfl⟩ := leave_eq_some h
        exact .leave hframes (.record hret (.inr ⟨rfl, rfl⟩)) hleaves
    · obtain ⟨p', write, events, hleaves, rfl⟩ := leave_eq_some h
      exact .leave hframes (.record hret (.inl ⟨rfl, rfl⟩)) hleaves

/-- Every step has one of these effects. -/
theorem step_effect {s s' : Thread} {l : Label} (h : s.step kernelWrite l = some s') :
    Effect s l s' := by
  cases l with
  | startLooper =>
    rw [step] at h
    split_ifs at h
    cases h
    exact .start (p := s.process) rfl (.inl rfl)
  | startCall txn =>
    rw [step] at h
    split_ifs at h
    obtain ⟨device, -, rfl⟩ := Option.map_eq_some_iff.mp h
    exact .start rfl (.inr ⟨txn, .inl rfl⟩)
  | startOneWay txn =>
    rw [step] at h
    split_ifs at h
    obtain ⟨device, -, rfl⟩ := Option.map_eq_some_iff.mp h
    exact .start rfl (.inr ⟨txn, .inr rfl⟩)
  | ioctlFailed w errno taken =>
    rw [step] at h
    split at h
    · next o write outer hframes =>
      obtain ⟨p, write', events, hleaves, rfl⟩ := leave_eq_some h
      exact .leave hframes .ioctlFailed hleaves
    · cases h
  | read rs alive =>
    rw [step] at h
    split at h
    · next o write outer hframes =>
      obtain ⟨k, hk, h⟩ := Option.bind_eq_some_iff.mp h
      cases alive with
      | true =>
        cases h
        exact .read hframes hk
      | false =>
        cases o <;> cases h
        have hwrite : (if write then s.kernel.writeOwner .looper else s.kernel) = s.kernel := by
          cases write <;> rfl
        rw [hwrite] at hk
        exact .readGone hframes hk
    · cases h
  | dispatch w =>
    rw [step] at h
    split at h
    · next o outer hframes =>
      obtain ⟨p, write, events, hleaves, rfl⟩ := leave_eq_some h
      exact .leave hframes .exhausted hleaves
    · next hframes => exact dispatchStep_effect hframes h
    · cases h
  | handled w replyData =>
    rw [step] at h
    split at h
    · next o t rest outer hframes =>
      unfold handledStep at h
      split_ifs at h
      · cases h
        exact .handledOneWay hframes
      · obtain ⟨⟨reply, p⟩, -, rfl⟩ := Option.map_eq_some_iff.mp h
        exact .handledTwoWay hframes
    · cases h
  | others p =>
    cases h
    exact .others

/-! ## Calls are told apart by their numbers -/

/-- What the owners of some frames are numbered with; the phase of a frame does not matter. -/
theorem filterMap_owner_cons (number : Owner → Option ℕ) (o : Owner) (phase : Phase)
    (outer : List Frame) : (⟨o, phase⟩ :: outer).filterMap (fun f => number f.owner) =
      (number o).toList ++ outer.filterMap fun f => number f.owner := by
  rw [List.filterMap_cons]
  cases number o <;> rfl

/-- A frame that is left, or makes another ioctl, adds no number. -/
theorem filterMap_owner_again (number : Owner → Option ℕ) (o : Owner) (phase : Phase)
    (outer : List Frame) (write : Option Bool) :
    ((again o outer write).filterMap fun f => number f.owner).Sublist
      ((⟨o, phase⟩ :: outer).filterMap fun f => number f.owner) := by
  cases write with
  | none =>
    rw [filterMap_owner_cons]
    exact List.sublist_append_right _ _
  | some write => exact List.Sublist.refl _

/-- The numbers of the calls among some frames. -/
def callIds (frames : List Frame) : List ℕ := frames.filterMap fun f => f.owner.callId

/-- The phase of a frame does not matter for its number. -/
theorem callIds_cons (o : Owner) (phase : Phase) (outer : List Frame) :
    callIds (⟨o, phase⟩ :: outer) = o.callId.toList ++ callIds outer :=
  filterMap_owner_cons Owner.callId o phase outer

/-- A frame that is left, or makes another ioctl, adds no call. -/
theorem callIds_again (o : Owner) (phase : Phase) (outer : List Frame) (write : Option Bool) :
    (callIds (again o outer write)).Sublist (callIds (⟨o, phase⟩ :: outer)) :=
  filterMap_owner_again Owner.callId o phase outer write

/-- The calls of the frames have different numbers, all of them given out. -/
structure Numbered (s : Thread) : Prop where
  fresh : ∀ t ∈ callIds s.frames, t < s.nextId
  nodup : (callIds s.frames).Nodup

/-- A step that adds no call keeps the numbers apart. -/
theorem Numbered.of_sublist {s s' : Thread} (hs : s.Numbered)
    (hsub : (callIds s'.frames).Sublist (callIds s.frames)) (hnext : s.nextId ≤ s'.nextId) :
    s'.Numbered where
  fresh t ht := Nat.lt_of_lt_of_le (hs.fresh t (hsub.subset ht)) hnext
  nodup := hs.nodup.sublist hsub

/-- The numbers a return leaves are as large. -/
theorem Returns.le_nextId {s : Thread} {o : Owner} {l : Label} {phase : Phase} {k : Kernel} {n : ℕ}
    {rest : List KernelRecord} {res : Option WriteReadResult} {cause : Cause}
    (h : Returns s o l phase k n rest res cause) : s.nextId ≤ n := by
  cases h with
  | exhausted => exact Nat.le_refl _
  | record _ hk => rcases hk with ⟨-, rfl⟩ | ⟨-, rfl⟩ <;> omega
  | ioctlFailed => exact Nat.le_refl _

/-- Every step keeps the numbers apart. -/
theorem Numbered.step {s s' : Thread} {l : Label} (hs : s.Numbered) (h : Effect s l s') :
    s'.Numbered := by
  cases h with
  | @start _ p o _ ho =>
    have hle : ∀ t ∈ o.callId, t = s.nextId := by
      intro t ht
      rcases ho with rfl | ⟨txn, rfl | rfl⟩ <;> cases ht
      rfl
    constructor
    · intro t ht
      rw [enter, callIds_cons, List.mem_append, Option.mem_toList] at ht
      rcases ht with ht | ht
      · obtain rfl := hle t ht
        exact Nat.lt_succ_self _
      · exact Nat.lt_succ_of_lt (hs.fresh t ht)
    · show (callIds (⟨o, .ioctl true⟩ :: s.frames)).Nodup
      rw [callIds_cons]
      cases hid : o.callId with
      | none => exact hs.nodup
      | some t =>
        refine List.nodup_cons.mpr ⟨fun hmem => ?_, hs.nodup⟩
        have hlt := hs.fresh t hmem
        rw [hle t hid] at hlt
        exact Nat.lt_irrefl _ hlt
  | read hframes | next hframes | handle hframes | handledOneWay hframes =>
    refine hs.of_sublist ?_ (Nat.le_refl _)
    rw [hframes]
    exact List.Sublist.refl _
  | readGone hframes =>
    refine hs.of_sublist ?_ (Nat.le_refl _)
    rw [hframes]
    exact List.Sublist.refl _
  | handledTwoWay hframes =>
    refine hs.of_sublist ?_ (Nat.le_succ _)
    rw [hframes]
    exact List.Sublist.refl _
  | leave hframes hret _ =>
    refine hs.of_sublist ?_ hret.le_nextId
    rw [hframes]
    exact callIds_again _ _ _ _
  | others => exact ⟨hs.fresh, hs.nodup⟩

/-- A thread that has done nothing has no calls. -/
theorem numbered_idle (p : Process) : (idle p).Numbered :=
  ⟨fun _ ht => (by cases ht), List.nodup_nil⟩

/-- Two frames of the thread are not of the same call. -/
theorem Numbered.not_mem_outer {s : Thread} (hs : s.Numbered) {o : Owner} {phase : Phase}
    {outer : List Frame} (hframes : s.frames = ⟨o, phase⟩ :: outer) {t : ℕ}
    (ht : o.callId = some t) : t ∉ callIds outer := by
  have hnodup := hs.nodup
  rw [hframes, callIds_cons, ht] at hnodup
  exact (List.nodup_cons.mp hnodup).1

/-- A frame of a call has its number among those of the frames. -/
theorem mem_callIds {frames : List Frame} {f : Frame} (hf : f ∈ frames) {t : ℕ}
    (ht : f.owner.callId = some t) : t ∈ callIds frames :=
  List.mem_filterMap.mpr ⟨f, hf, ht⟩

end Thread

end BinderBinder
