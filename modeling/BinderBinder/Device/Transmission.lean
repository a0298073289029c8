import BinderBinder.Payload.Reader

set_option relaxedAutoImplicit false
set_option autoImplicit false

/-!
# Transmissions and the guards of their objects

A transmission is a `BinderTransactionData` with what its two pointers point at: a call, a reply or
an incoming transaction. Before it is sent, the local objects embedded in it are marked as awaiting
a remote acquire; if it turns out not to be delivered, the marks are rolled back.

## Main definitions

* `Transmission`, `Transmission.ofBuilder` — a transmission, and the one that carries a payload.
* `forEachEmbeddedBinderObject` — the walk over the embedded local objects.
* `markObjectsAsPendingRemote`, `unmarkObjectsAsPendingRemote` — the guard and its rollback.
* `PayloadReader.fromKernelRaw` — the reader of a transmission the kernel handed out.
-/

namespace BinderBinder

/-- A `BinderTransactionData` with the data and the offset table its pointers point at. -/
structure Transmission where
  header : BinderTransactionData
  data : List UInt8
  offsets : List ℕ
  deriving DecidableEq, Repr

/-- Where a payload lies in memory, and the ids of the process that sends it. -/
structure Sender where
  pid : UInt32
  euid : UInt32
  buffer : Usize
  offsets : Usize
  deriving DecidableEq, Repr

/-- The size in the header of `n` elements of `size` bytes. -/
def sizeField (n size : ℕ) : Usize := UInt64.ofNat (n * size)

/-- The `BinderTransactionData` that the callers build around a payload. -/
def Transmission.ofBuilder (target : FlatBinderObjectData) (cookie : Usize) (code flags : UInt32)
    (sender : Sender) (payload : PayloadBuilder) : Transmission where
  header :=
    { target, cookie, code, flags
      senderPid := sender.pid
      senderEuid := sender.euid
      dataSize := sizeField payload.data.length 1
      offsetsSize := sizeField payload.objOffsets.length 8
      buffer := sender.buffer
      offsets := sender.offsets }
  data := payload.data
  offsets := payload.objOffsets

/-- `PayloadReader::from_kernel_raw` on the buffers of a transmission; a null pointer means that
there is no offset table. -/
def PayloadReader.fromKernelRaw (device : Addr) (t : Transmission) : PayloadReader where
  device := device
  data := .kernelBorrowed t.header.buffer t.data
  offsets :=
    if t.header.offsets = 0 then none else some (.kernelBorrowed t.header.offsets t.offsets)
  binderObjects := []
  nextOffsetIndex := 0
  nextDataIndex := 0

/-! ## Embedded objects -/

/-- What the walk finds at an offset: the id of a strong local object, or nothing it looks at.
`none` is a slice out of range. -/
def embeddedBinderObject (data : List UInt8) (offset : ℕ) : Option (Option BinderObjectId) := do
  let header ← BinderObjectHeader.layout.readAt data offset
  if header.type_ = BinderType.binder.toU32 then
    let flatObj ← FlatBinderObject.layout.readAt data offset
    some (some (BinderObjectId.fromRaw flatObj.data.binder flatObj.cookie))
  else some none

/-- `for_each_embedded_binder_object`, for a closure that acts on the device. -/
def forEachEmbeddedBinderObject (transaction : Transmission)
    (f : BinderDevice → BinderObjectId → Option BinderDevice) (dev : BinderDevice) :
    Option BinderDevice :=
  transaction.offsets.foldlM (fun dev offset => do
    match ← embeddedBinderObject transaction.data offset with
    | some id => f dev id
    | none => some dev) dev

/-- `mark_objects_as_pending_remote`; an object without refcounts is only warned about. -/
def markObjectsAsPendingRemote (transaction : Transmission) :
    BinderDevice → Option BinderDevice :=
  forEachEmbeddedBinderObject transaction fun dev id =>
    (dev.refOp id .markPendingRemote).map Prod.snd

/-- `unmark_objects_as_pending_remote`. -/
def unmarkObjectsAsPendingRemote (transaction : Transmission) :
    BinderDevice → Option BinderDevice :=
  forEachEmbeddedBinderObject transaction fun dev id =>
    (dev.refOp id .clearPendingRemote).map Prod.snd

end BinderBinder
