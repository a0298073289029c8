import Mathlib.Algebra.Ring.Nat
import BinderBinder.BinderObject
import BinderBinder.Lib.Frames

set_option relaxedAutoImplicit false
set_option autoImplicit false

/-!
# Framing of the write stream

What the crate writes to the kernel: buffers of commands, each a code and the argument whose size
the code states. Every place that writes puts its buffer together by itself, from a code and the
bytes of a struct; the kernel cuts the buffers by the sizes in the codes. An `ioctl` that a signal
interrupts is called again with the same `BinderWriteRead`, and goes on behind the commands that
were consumed.

## Main definitions

* `BinderCommand`, `BinderCommand.payload`, `BinderCommand.toU32` — the table of commands.
* `Write`, `Write.bytes`, `Write.commands` — the buffers the crate writes, and what they say.
* `WireCommand.codec` — commands with their arguments, cut by the sizes in the codes.
* `WriteRead.retryOnIntr` — the calls of one `ioctl` until it is not interrupted.

## Main results

* `BinderCommand.ofU32_toU32` — no two commands have the same code.
* `writes_received` — the kernel receives each command once, in order and with its argument.
-/

namespace BinderBinder

/-! ## Command codes -/

/-- The payload types of commands. -/
inductive CommandPayload
  | none
  | i32
  | u32
  | uintptr
  | ptrCookie
  | priorityDesc
  | handleCookie
  | transactionData
  | transactionDataSg
  deriving DecidableEq, Repr

/-- `size_of` of a payload type. -/
def CommandPayload.size : CommandPayload → ℕ
  | none => 0
  | i32 | u32 => Layout.u32.size
  | uintptr => Layout.u64.size
  | ptrCookie => BinderPtrCookie.layout.size
  | priorityDesc => BinderPriorityDesc.layout.size
  | handleCookie => BinderHandleCookie.layout.size
  | transactionData => BinderTransactionData.layout.size
  | transactionDataSg => BinderTransactionDataSg.layout.size

/-- The table `BinderCommand`. -/
inductive BinderCommand
  | transaction
  | reply
  | acquireResult
  | freeBuffer
  | increfs
  | acquire
  | release
  | decrefs
  | increfsDone
  | acquireDone
  | attemptAcquire
  | registerLooper
  | enterLooper
  | exitLooper
  | requestDeathNotification
  | clearDeathNotification
  | deadBinderDone
  | transactionSg
  | replySg
  | requestFreezeNotification
  | clearFreezeNotification
  | freezeNotificationDone
  deriving DecidableEq, Repr

namespace BinderCommand

/-- Every command of the table. -/
def all : List BinderCommand :=
  [transaction, reply, acquireResult, freeBuffer, increfs, acquire, release, decrefs, increfsDone,
    acquireDone, attemptAcquire, registerLooper, enterLooper, exitLooper, requestDeathNotification,
    clearDeathNotification, deadBinderDone, transactionSg, replySg, requestFreezeNotification,
    clearFreezeNotification, freezeNotificationDone]

/-- The payload type in the table: `T` of `write::<T>`, or none for `none`. -/
def payload : BinderCommand → CommandPayload
  | transaction | reply => .transactionData
  | acquireResult => .i32
  | freeBuffer | deadBinderDone | freezeNotificationDone => .uintptr
  | increfs | acquire | release | decrefs => .u32
  | increfsDone | acquireDone => .ptrCookie
  | attemptAcquire => .priorityDesc
  | registerLooper | enterLooper | exitLooper => .none
  | requestDeathNotification | clearDeathNotification | requestFreezeNotification
  | clearFreezeNotification => .handleCookie
  | transactionSg | replySg => .transactionDataSg

/-- The number in the table. -/
def number : BinderCommand → UInt32
  | transaction => 0
  | reply => 1
  | acquireResult => 2
  | freeBuffer => 3
  | increfs => 4
  | acquire => 5
  | release => 6
  | decrefs => 7
  | increfsDone => 8
  | acquireDone => 9
  | attemptAcquire => 10
  | registerLooper => 11
  | enterLooper => 12
  | exitLooper => 13
  | requestDeathNotification => 14
  | clearDeathNotification => 15
  | deadBinderDone => 16
  | transactionSg => 17
  | replySg => 18
  | requestFreezeNotification => 19
  | clearFreezeNotification => 20
  | freezeNotificationDone => 21

/-- `write::<T>(b'c', number)`, or `none(b'c', number)` without a payload: the direction bits, the
size, the letter and the number. -/
def toU32 (c : BinderCommand) : UInt32 :=
  let low := ((ascii 'c').toUInt32 <<< 8) ||| c.number
  match c.payload with
  | .none => low
  | p => ((1 : UInt32) <<< 30) ||| (UInt32.ofNat p.size <<< 16) ||| low

/-- The command with a code, `none` for one that is not in the table. -/
def ofU32 (v : UInt32) : Option BinderCommand := all.find? fun c => c.toU32 == v

/-- No two commands of the table are the same. -/
@[simp] theorem ofU32_toU32 (c : BinderCommand) : ofU32 c.toU32 = some c := by
  cases c <;> decide +kernel

/-- The size in the bits of a code, `_IOC_SIZE`. -/
def codeSize (code : UInt32) : Option ℕ := some ((code >>> 16) &&& 0x3fff).toNat

/-- The code of a command states the size of its payload. -/
theorem codeSize_toU32 (c : BinderCommand) : codeSize c.toU32 = some c.payload.size := by
  cases c <;> decide +kernel

end BinderCommand

/-! ## What is written -/

/-- `as_u32().to_ne_bytes()`, then the bytes of a struct. -/
def structCommand (c : BinderCommand) (data : List UInt8) : List UInt8 :=
  Layout.u32.encode c.toU32 ++ data

/-- The buffer of a command that is written by itself: `write_binder_struct_command`, or a buffer put
together in place. -/
def Command.bytes : Command → List UInt8
  | .reply data => structCommand .reply (BinderTransactionData.layout.encode data)
  | .freeBuffer ptr => structCommand .freeBuffer (Layout.u64.encode ptr)
  | .increfs handle => structCommand .increfs (Layout.u32.encode handle)
  | .acquire handle => structCommand .acquire (Layout.u32.encode handle)
  | .release handle => structCommand .release (Layout.u32.encode handle)
  | .decrefs handle => structCommand .decrefs (Layout.u32.encode handle)
  | .increfsDone v => structCommand .increfsDone (BinderPtrCookie.layout.encode v)
  | .acquireDone v => structCommand .acquireDone (BinderPtrCookie.layout.encode v)
  | .exitLooper => Layout.u32.encode BinderCommand.exitLooper.toU32
  | .requestDeathNotification handle cookie =>
    structCommand .requestDeathNotification (BinderHandleCookie.layout.encode ⟨handle, cookie⟩)
  | .clearDeathNotification handle cookie =>
    structCommand .clearDeathNotification (BinderHandleCookie.layout.encode ⟨handle, cookie⟩)
  | .deadBinderDone cookie => structCommand .deadBinderDone (Layout.u64.encode cookie)

/-- The buffers that the crate writes: those of single commands, the one of a call between entering
and leaving the loop, and the one that a looper begins with. -/
inductive Write
  | command (cmd : Command)
  | remoteTransact (transaction : BinderTransactionData)
  | looper (spawned : Bool)
  deriving DecidableEq, Repr

/-- A command with its argument, whoever writes it. -/
inductive WireCommand
  | command (cmd : Command)
  | transaction (data : BinderTransactionData)
  | registerLooper
  | enterLooper
  deriving DecidableEq, Repr

namespace Write

/-- The bytes of a buffer, as the place that writes it puts them together. -/
def bytes : Write → List UInt8
  | command cmd => cmd.bytes
  | remoteTransact transaction =>
    Layout.u32.encode BinderCommand.enterLooper.toU32 ++
      Layout.u32.encode BinderCommand.transaction.toU32 ++
      BinderTransactionData.layout.encode transaction ++
      Layout.u32.encode BinderCommand.exitLooper.toU32
  | looper spawned =>
    let cmd := if spawned then BinderCommand.registerLooper else BinderCommand.enterLooper
    Layout.u32.encode cmd.toU32

/-- What a buffer says. -/
def commands : Write → List WireCommand
  | command cmd => [.command cmd]
  | remoteTransact transaction => [.enterLooper, .transaction transaction, .command .exitLooper]
  | looper spawned => [if spawned then .registerLooper else .enterLooper]

end Write

/-! ## What the kernel cuts -/

namespace WireCommand

/-- The command in the table. -/
def binderCommand : WireCommand → BinderCommand
  | command (.reply _) => .reply
  | command (.freeBuffer _) => .freeBuffer
  | command (.increfs _) => .increfs
  | command (.acquire _) => .acquire
  | command (.release _) => .release
  | command (.decrefs _) => .decrefs
  | command (.increfsDone _) => .increfsDone
  | command (.acquireDone _) => .acquireDone
  | command .exitLooper => .exitLooper
  | command (.requestDeathNotification _ _) => .requestDeathNotification
  | command (.clearDeathNotification _ _) => .clearDeathNotification
  | command (.deadBinderDone _) => .deadBinderDone
  | transaction _ => .transaction
  | registerLooper => .registerLooper
  | enterLooper => .enterLooper

/-- The bytes of the argument. -/
def argument : WireCommand → List UInt8
  | command (.reply data) | transaction data => BinderTransactionData.layout.encode data
  | command (.freeBuffer ptr) => Layout.u64.encode ptr
  | command (.increfs handle) | command (.acquire handle) | command (.release handle)
  | command (.decrefs handle) => Layout.u32.encode handle
  | command (.increfsDone v) | command (.acquireDone v) => BinderPtrCookie.layout.encode v
  | command (.requestDeathNotification handle cookie)
  | command (.clearDeathNotification handle cookie) =>
    BinderHandleCookie.layout.encode ⟨handle, cookie⟩
  | command (.deadBinderDone cookie) => Layout.u64.encode cookie
  | command .exitLooper | registerLooper | enterLooper => []

/-- The frame of a command. -/
def frame (c : WireCommand) : Frame := ⟨c.binderCommand.toU32, c.argument⟩

/-- The command of a frame, by the table; `none` for one that the crate never writes. -/
def ofFrame (f : Frame) : Option WireCommand :=
  (BinderCommand.ofU32 f.code).bind fun
    | .transaction => some (.transaction (BinderTransactionData.layout.decode f.payload))
    | .reply => some (.command (.reply (BinderTransactionData.layout.decode f.payload)))
    | .freeBuffer => some (.command (.freeBuffer (Layout.u64.decode f.payload)))
    | .increfs => some (.command (.increfs (Layout.u32.decode f.payload)))
    | .acquire => some (.command (.acquire (Layout.u32.decode f.payload)))
    | .release => some (.command (.release (Layout.u32.decode f.payload)))
    | .decrefs => some (.command (.decrefs (Layout.u32.decode f.payload)))
    | .increfsDone => some (.command (.increfsDone (BinderPtrCookie.layout.decode f.payload)))
    | .acquireDone => some (.command (.acquireDone (BinderPtrCookie.layout.decode f.payload)))
    | .registerLooper => some .registerLooper
    | .enterLooper => some .enterLooper
    | .exitLooper => some (.command .exitLooper)
    | .requestDeathNotification =>
      let v := BinderHandleCookie.layout.decode f.payload
      some (.command (.requestDeathNotification v.handle v.cookie))
    | .clearDeathNotification =>
      let v := BinderHandleCookie.layout.decode f.payload
      some (.command (.clearDeathNotification v.handle v.cookie))
    | .deadBinderDone => some (.command (.deadBinderDone (Layout.u64.decode f.payload)))
    | .acquireResult | .attemptAcquire | .transactionSg | .replySg | .requestFreezeNotification
    | .clearFreezeNotification | .freezeNotificationDone => none

/-- The argument is of the payload type in the table. -/
theorem length_argument (c : WireCommand) : c.argument.length = c.binderCommand.payload.size := by
  cases c with
  | command cmd => cases cmd <;> rfl
  | transaction data => exact Layout.length_encode _ _
  | registerLooper => rfl
  | enterLooper => rfl

/-- A command is read back from its frame. -/
theorem ofFrame_frame (c : WireCommand) : ofFrame c.frame = some c := by
  rw [ofFrame, frame, BinderCommand.ofU32_toU32]
  cases c with
  | command cmd => cases cmd <;> simp [binderCommand, argument, Layout.decode_encode]
  | transaction data => simp [binderCommand, argument, Layout.decode_encode]
  | registerLooper => rfl
  | enterLooper => rfl

/-- The size in the code of a command is that of its argument. -/
theorem fits (c : WireCommand) : c.frame.Fits BinderCommand.codeSize := by
  rw [Frame.Fits, frame, BinderCommand.codeSize_toU32, length_argument]

/-- Commands as the kernel cuts and reads them. -/
def codec : FrameCodec BinderCommand.codeSize WireCommand where
  frame := frame
  ofFrame := ofFrame
  fits := fits
  ofFrame_frame := ofFrame_frame

end WireCommand

/-- A buffer consists of the frames of what it says. -/
theorem Write.bytes_eq (w : Write) : w.bytes = WireCommand.codec.encodeAll w.commands := by
  have hcodec : ∀ cs, WireCommand.codec.encodeAll cs =
      cs.flatMap fun c => Layout.u32.encode c.binderCommand.toU32 ++ c.argument := by
    intro cs
    exact List.flatMap_map _ _ _
  rw [hcodec]
  cases w with
  | command cmd =>
    cases cmd <;> simp [bytes, commands, Command.bytes, structCommand, WireCommand.binderCommand,
      WireCommand.argument]
  | remoteTransact transaction =>
    simp [bytes, commands, WireCommand.binderCommand, WireCommand.argument]
  | looper spawned =>
    cases spawned <;> simp [bytes, commands, WireCommand.binderCommand, WireCommand.argument]

/-! ## Interrupted calls -/

/-- The write half of a `BinderWriteRead`: the buffer, and `write_consumed`. -/
structure WriteRead where
  buffer : List UInt8
  consumed : ℕ
  deriving DecidableEq, Repr

namespace WriteRead

/-- The struct that a write begins with. -/
def ofBytes (bytes : List UInt8) : WriteRead := ⟨bytes, 0⟩

/-- One `ioctl`, in which the kernel takes at most `k` commands behind those it consumed before. -/
def ioctl (w : WriteRead) (k : ℕ) : List Frame × WriteRead :=
  let taken := (Frame.scan BinderCommand.codeSize (w.buffer.drop w.consumed)).1.take k
  (taken, { w with consumed := w.consumed + (Frame.encodeAll taken).length })

/-- `io::retry_on_intr`: each `ioctl` but the last is interrupted, and the next one is given the struct
as it was left. The commands that the kernel takes, and the struct in the end. -/
def retryOnIntr (w : WriteRead) : List ℕ → List Frame × WriteRead
  | [] => ([], w)
  | k :: ks => ((w.ioctl k).1 ++ ((w.ioctl k).2.retryOnIntr ks).1, ((w.ioctl k).2.retryOnIntr ks).2)

/-- Behind the first `j` frames of a buffer, the kernel takes the next ones in order.

**Proof sketch.** Induction on the calls. What a call consumes ends at a frame again, `k` frames
further on. -/
theorem retryOnIntr_encodeAll {fs : List Frame} (h : ∀ f ∈ fs, f.Fits BinderCommand.codeSize)
    (ks : List ℕ) (j : ℕ) :
    (retryOnIntr ⟨Frame.encodeAll fs, (Frame.encodeAll (fs.take j)).length⟩ ks).1 =
      (fs.drop j).take ks.sum := by
  induction ks generalizing j with
  | nil => simp [retryOnIntr]
  | cons k ks ih =>
    have htaken : ioctl ⟨Frame.encodeAll fs, (Frame.encodeAll (fs.take j)).length⟩ k =
        ((fs.drop j).take k, ⟨Frame.encodeAll fs, (Frame.encodeAll (fs.take (j + k))).length⟩) := by
      simp only [ioctl]
      rw [Frame.scan_drop h, List.take_add, Frame.encodeAll_append, List.length_append]
    have hrest := ih (j + k)
    have hsplit : (fs.drop j).take (k + ks.sum) = (fs.drop j).take k ++ (fs.drop (j + k)).take ks.sum := by
      rw [List.take_add, List.drop_drop]
    rw [retryOnIntr, htaken, List.sum_cons, hsplit, ← hrest]

end WriteRead

/-- **What the kernel receives.** Whichever buffers the crate writes, and however often each write is
interrupted behind whichever commands: the commands that the kernel takes are those that the buffers
say, each once, in order and with its argument, as far as it went through a buffer. So the stream of
all that is written has one reading. -/
theorem writes_received (ws : List (Write × List ℕ)) :
    (ws.flatMap fun w => ((WriteRead.ofBytes w.1.bytes).retryOnIntr w.2).1).mapM WireCommand.ofFrame =
      some (ws.flatMap fun w => w.1.commands.take w.2.sum) ∧
    WireCommand.codec.decodeAll (ws.flatMap fun w => w.1.bytes) =
      some (ws.flatMap fun w => w.1.commands) := by
  constructor
  · have hone : ∀ (w : Write) (ks : List ℕ),
        ((WriteRead.ofBytes w.bytes).retryOnIntr ks).1 = (w.commands.take ks.sum).map WireCommand.frame := by
      intro w ks
      have hfits : ∀ f ∈ w.commands.map WireCommand.frame, f.Fits BinderCommand.codeSize := by
        intro f hf
        obtain ⟨c, -, rfl⟩ := List.mem_map.mp hf
        exact c.fits
      rw [WriteRead.ofBytes, w.bytes_eq]
      have htaken := WriteRead.retryOnIntr_encodeAll hfits ks 0
      rw [List.drop_zero] at htaken
      rw [List.map_take]
      exact htaken
    have hall : (ws.flatMap fun w => ((WriteRead.ofBytes w.1.bytes).retryOnIntr w.2).1) =
        (ws.flatMap fun w => w.1.commands.take w.2.sum).map WireCommand.codec.frame := by
      rw [List.map_flatMap]
      exact congrArg (List.flatMap · ws) (funext fun w => hone w.1 w.2)
    rw [hall]
    exact WireCommand.codec.mapM_ofFrame _
  · have hbytes : (ws.flatMap fun w => w.1.bytes) =
        WireCommand.codec.encodeAll (ws.flatMap fun w => w.1.commands) := by
      rw [FrameCodec.encodeAll_flatMap]
      exact congrArg (List.flatMap · ws) (funext fun w => w.1.bytes_eq)
    rw [hbytes, FrameCodec.decodeAll_encodeAll]

end BinderBinder
