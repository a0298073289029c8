import BinderBinder.Lib.Layout
import BinderBinder.RefState

set_option relaxedAutoImplicit false
set_option autoImplicit false

/-!
# The binder uapi

The types of `src/sys.rs` that the crate and the kernel exchange: object headers in a payload and
the structs that follow a return code. A `#[repr(C)]` struct is a record with a `Layout`; a union
is the word it occupies.

## Main definitions

* `BinderType`, `BinderType.toU32`, `BinderType.ofU32` — the object types and their codes.
* `FlatBinderObject`, `BinderFdObject`, `BinderBufferObject`, `BinderFdArrayObject` — the object
  records of a payload.
* `BinderTransactionData`, `BinderPtrCookie`, … — the payloads of return codes.

## Main results

* `BinderType.ofU32_toU32` — no two object types share a code.
* `FlatBinderObjectData.handle_ofHandle` — a union gives back the variant it was built from.
-/

namespace BinderBinder

/-! ## Object types -/

/-- `b_pack_chars`. -/
def bPackChars (c1 c2 c3 c4 : UInt8) : UInt32 :=
  (c1.toUInt32 <<< 24) ||| (c2.toUInt32 <<< 16) ||| (c3.toUInt32 <<< 8) ||| c4.toUInt32

/-- `B_TYPE_LARGE`. -/
def bTypeLarge : UInt8 := 0x85

/-- The ASCII code of a character. -/
def ascii (c : Char) : UInt8 := UInt8.ofNat c.toNat

/-- The known values of `BinderType`. -/
inductive BinderType
  | binder
  | weakBinder
  | handle
  | weakHandle
  | fd
  | fda
  | ptr
  deriving DecidableEq, Repr

namespace BinderType

/-- The code of an object type. -/
def toU32 : BinderType → UInt32
  | binder => bPackChars (ascii 's') (ascii 'b') (ascii '*') bTypeLarge
  | weakBinder => bPackChars (ascii 'w') (ascii 'b') (ascii '*') bTypeLarge
  | handle => bPackChars (ascii 's') (ascii 'h') (ascii '*') bTypeLarge
  | weakHandle => bPackChars (ascii 'w') (ascii 'h') (ascii '*') bTypeLarge
  | fd => bPackChars (ascii 'f') (ascii 'd') (ascii '*') bTypeLarge
  | fda => bPackChars (ascii 'f') (ascii 'd') (ascii 'a') bTypeLarge
  | ptr => bPackChars (ascii 'p') (ascii 't') (ascii '*') bTypeLarge

/-- Every known object type. -/
def all : List BinderType := [binder, weakBinder, handle, weakHandle, fd, fda, ptr]

/-- The object type with a code, `none` for a code the crate does not know. -/
def ofU32 (v : UInt32) : Option BinderType := all.find? fun t => t.toU32 == v

/-- No two object types share a code. -/
@[simp] theorem ofU32_toU32 (t : BinderType) : ofU32 t.toU32 = some t := by
  cases t <;> decide

end BinderType

/-- `BinderObjectHeader`; the type is any `u32`, known or not. -/
structure BinderObjectHeader where
  type_ : UInt32
  deriving DecidableEq, Repr

/-- The layout of `BinderObjectHeader`. -/
def BinderObjectHeader.layout : Layout BinderObjectHeader :=
  Layout.u32.map mk type_ fun _ => rfl

/-! ## Object records -/

/-- The union `FlatBinderObjectData`, as the word it occupies. -/
structure FlatBinderObjectData where
  word : UInt64
  deriving DecidableEq, Repr

namespace FlatBinderObjectData

/-- The union built from `binder`. -/
def ofBinder (v : Usize) : FlatBinderObjectData := ⟨v⟩

/-- The union built from `handle`: `upper` is whatever the upper half of the word holds then. -/
def ofHandle (upper v : UInt32) : FlatBinderObjectData := ⟨upper.toUInt64 <<< 32 ||| v.toUInt64⟩

/-- The variant `binder`. -/
def binder (d : FlatBinderObjectData) : Usize := d.word

/-- The variant `handle`: the lower half of the word. -/
def handle (d : FlatBinderObjectData) : UInt32 := d.word.toUInt32

/-- A union gives back the handle it was built from, whatever the upper half holds. -/
@[simp] theorem handle_ofHandle (upper v : UInt32) : (ofHandle upper v).handle = v := by
  apply UInt32.toBitVec_inj.mp
  simp only [handle, ofHandle, UInt64.toBitVec_toUInt32, UInt64.toBitVec_or,
    UInt64.toBitVec_shiftLeft, UInt32.toBitVec_toUInt64]
  apply BitVec.eq_of_getLsbD_eq
  intro i hi
  simp [hi]

end FlatBinderObjectData

/-- `FlatBinderFlags::ACCEPTS_FDS`. -/
def FlatBinderFlags.acceptsFds : UInt32 := 0x100

/-- `FlatBinderObject`. -/
structure FlatBinderObject where
  hdr : BinderObjectHeader
  flags : UInt32
  data : FlatBinderObjectData
  cookie : Usize
  deriving DecidableEq, Repr

/-- The layout of `FlatBinderObject`. -/
def FlatBinderObject.layout : Layout FlatBinderObject :=
  (BinderObjectHeader.layout.prod (Layout.u32.prod (Layout.u64.prod Layout.u64))).map
    (fun (hdr, flags, word, cookie) => ⟨hdr, flags, ⟨word⟩, cookie⟩)
    (fun o => (o.hdr, o.flags, o.data.word, o.cookie)) fun _ => rfl

/-- The bits of an `i32` file descriptor. -/
abbrev RawFd := UInt32

/-- The union `BinderFdObjectData`, as the word it occupies. -/
structure BinderFdObjectData where
  word : UInt64
  deriving DecidableEq, Repr

namespace BinderFdObjectData

/-- The union built from `fd`: `upper` is whatever the upper half of the word holds then. -/
def ofFd (upper : UInt32) (fd : RawFd) : BinderFdObjectData :=
  ⟨(FlatBinderObjectData.ofHandle upper fd).word⟩

/-- The variant `fd`. -/
def fd (d : BinderFdObjectData) : RawFd := (FlatBinderObjectData.mk d.word).handle

/-- A union gives back the descriptor it was built from. -/
@[simp] theorem fd_ofFd (upper : UInt32) (v : RawFd) : (ofFd upper v).fd = v :=
  FlatBinderObjectData.handle_ofHandle upper v

end BinderFdObjectData

/-- `BinderFdObject`. -/
structure BinderFdObject where
  hdr : BinderObjectHeader
  padFlags : UInt32
  data : BinderFdObjectData
  cookie : Usize
  deriving DecidableEq, Repr

/-- The layout of `BinderFdObject`. -/
def BinderFdObject.layout : Layout BinderFdObject :=
  (BinderObjectHeader.layout.prod (Layout.u32.prod (Layout.u64.prod Layout.u64))).map
    (fun (hdr, flags, word, cookie) => ⟨hdr, flags, ⟨word⟩, cookie⟩)
    (fun o => (o.hdr, o.padFlags, o.data.word, o.cookie)) fun _ => rfl

/-- `BinderBufferFlags::HAS_PARENT`. -/
def BinderBufferFlags.hasParent : UInt32 := 0x01

/-- `BinderBufferFlags::empty`. -/
def BinderBufferFlags.empty : UInt32 := 0

/-- `BinderBufferObject`. -/
structure BinderBufferObject where
  hdr : BinderObjectHeader
  flags : UInt32
  buffer : Usize
  length : Usize
  parent : Usize
  parentOffset : Usize
  deriving DecidableEq, Repr

/-- The layout of `BinderBufferObject`. -/
def BinderBufferObject.layout : Layout BinderBufferObject :=
  (BinderObjectHeader.layout.prod (Layout.u32.prod (Layout.u64.prod (Layout.u64.prod
    (Layout.u64.prod Layout.u64))))).map
    (fun (hdr, flags, buffer, length, parent, parentOffset) =>
      ⟨hdr, flags, buffer, length, parent, parentOffset⟩)
    (fun o => (o.hdr, o.flags, o.buffer, o.length, o.parent, o.parentOffset)) fun _ => rfl

/-- `BinderFdArrayObject`. -/
structure BinderFdArrayObject where
  hdr : BinderObjectHeader
  pad : UInt32
  numFds : Usize
  parent : Usize
  parentOffset : Usize
  deriving DecidableEq, Repr

/-- The layout of `BinderFdArrayObject`. -/
def BinderFdArrayObject.layout : Layout BinderFdArrayObject :=
  (BinderObjectHeader.layout.prod (Layout.u32.prod (Layout.u64.prod (Layout.u64.prod
    Layout.u64)))).map
    (fun (hdr, pad, numFds, parent, parentOffset) => ⟨hdr, pad, numFds, parent, parentOffset⟩)
    (fun o => (o.hdr, o.pad, o.numFds, o.parent, o.parentOffset)) fun _ => rfl

@[simp] theorem BinderObjectHeader.layout_size : BinderObjectHeader.layout.size = 4 := rfl

@[simp] theorem FlatBinderObject.layout_size : FlatBinderObject.layout.size = 24 := rfl

@[simp] theorem BinderFdObject.layout_size : BinderFdObject.layout.size = 24 := rfl

@[simp] theorem BinderBufferObject.layout_size : BinderBufferObject.layout.size = 40 := rfl

@[simp] theorem BinderFdArrayObject.layout_size : BinderFdArrayObject.layout.size = 32 := rfl

/-- The header of a flat object is its first field. -/
theorem FlatBinderObject.header_decode (o : FlatBinderObject) (rest : List UInt8) :
    BinderObjectHeader.layout.decode (FlatBinderObject.layout.encode o ++ rest) = o.hdr :=
  Layout.decode_fst_append BinderObjectHeader.layout _ _ _ _ o rest

/-- The header of a descriptor object is its first field. -/
theorem BinderFdObject.header_decode (o : BinderFdObject) (rest : List UInt8) :
    BinderObjectHeader.layout.decode (BinderFdObject.layout.encode o ++ rest) = o.hdr :=
  Layout.decode_fst_append BinderObjectHeader.layout _ _ _ _ o rest

/-- The header of a buffer object is its first field. -/
theorem BinderBufferObject.header_decode (o : BinderBufferObject) (rest : List UInt8) :
    BinderObjectHeader.layout.decode (BinderBufferObject.layout.encode o ++ rest) = o.hdr :=
  Layout.decode_fst_append BinderObjectHeader.layout _ _ _ _ o rest

/-- The header of a descriptor array is its first field. -/
theorem BinderFdArrayObject.header_decode (o : BinderFdArrayObject) (rest : List UInt8) :
    BinderObjectHeader.layout.decode (BinderFdArrayObject.layout.encode o ++ rest) = o.hdr :=
  Layout.decode_fst_append BinderObjectHeader.layout _ _ _ _ o rest

/-! ## Payloads of return codes -/

/-- `TransactionFlags::ONE_WAY`. -/
def TransactionFlags.oneWay : UInt32 := 0x01

/-- `TransactionFlags::ACCEPT_FDS`. -/
def TransactionFlags.acceptFds : UInt32 := 0x10

/-- `BinderTransactionData`; the target is a union of the same shape as that of a flat object, and
`data` is flattened into the addresses of the two buffers. -/
structure BinderTransactionData where
  target : FlatBinderObjectData
  cookie : Usize
  code : UInt32
  flags : UInt32
  senderPid : UInt32
  senderEuid : UInt32
  dataSize : Usize
  offsetsSize : Usize
  buffer : Usize
  offsets : Usize
  deriving DecidableEq, Repr

/-- `TransactionFlags::contains` for `ONE_WAY`. -/
def BinderTransactionData.isOneWay (td : BinderTransactionData) : Bool :=
  td.flags &&& TransactionFlags.oneWay == TransactionFlags.oneWay

/-- The layout of `BinderTransactionData`. -/
def BinderTransactionData.layout : Layout BinderTransactionData :=
  (Layout.u64.prod (Layout.u64.prod (Layout.u32.prod (Layout.u32.prod (Layout.u32.prod
    (Layout.u32.prod (Layout.u64.prod (Layout.u64.prod (Layout.u64.prod Layout.u64))))))))).map
    (fun (target, cookie, code, flags, senderPid, senderEuid, dataSize, offsetsSize, buffer,
        offsets) =>
      ⟨⟨target⟩, cookie, code, flags, senderPid, senderEuid, dataSize, offsetsSize, buffer,
        offsets⟩)
    (fun t => (t.target.word, t.cookie, t.code, t.flags, t.senderPid, t.senderEuid, t.dataSize,
      t.offsetsSize, t.buffer, t.offsets)) fun _ => rfl

/-- `BinderTransactionDataSecCtx`. -/
structure BinderTransactionDataSecCtx where
  transactionData : BinderTransactionData
  secCtx : Usize
  deriving DecidableEq, Repr

/-- The layout of `BinderTransactionDataSecCtx`. -/
def BinderTransactionDataSecCtx.layout : Layout BinderTransactionDataSecCtx :=
  (BinderTransactionData.layout.prod Layout.u64).map (fun (t, c) => ⟨t, c⟩)
    (fun t => (t.transactionData, t.secCtx)) fun _ => rfl

/-- `BinderPtrCookie`. -/
structure BinderPtrCookie where
  ptr : Usize
  cookie : Usize
  deriving DecidableEq, Repr

/-- The layout of `BinderPtrCookie`. -/
def BinderPtrCookie.layout : Layout BinderPtrCookie :=
  (Layout.u64.prod Layout.u64).map (fun (p, c) => ⟨p, c⟩) (fun t => (t.ptr, t.cookie)) fun _ => rfl

/-- `BinderPriorityPtrCookie`. -/
structure BinderPriorityPtrCookie where
  priority : UInt32
  ptr : Usize
  cookie : Usize
  deriving DecidableEq, Repr

/-- The layout of `BinderPriorityPtrCookie`: the pointer is aligned behind the priority. -/
def BinderPriorityPtrCookie.layout : Layout BinderPriorityPtrCookie :=
  (Layout.u32.prod ((Layout.pad 4).prod (Layout.u64.prod Layout.u64))).map
    (fun (q, _, p, c) => ⟨q, p, c⟩) (fun t => (t.priority, (), t.ptr, t.cookie)) fun _ => rfl

/-- `BinderTransactionDataSg`. -/
structure BinderTransactionDataSg where
  transactionData : BinderTransactionData
  bufferSize : Usize
  deriving DecidableEq, Repr

/-- The layout of `BinderTransactionDataSg`. -/
def BinderTransactionDataSg.layout : Layout BinderTransactionDataSg :=
  (BinderTransactionData.layout.prod Layout.u64).map (fun (t, n) => ⟨t, n⟩)
    (fun t => (t.transactionData, t.bufferSize)) fun _ => rfl

/-- `BinderHandleCookie`. -/
structure BinderHandleCookie where
  handle : UInt32
  cookie : Usize
  deriving DecidableEq, Repr

/-- The layout of `BinderHandleCookie`, which is packed. -/
def BinderHandleCookie.layout : Layout BinderHandleCookie :=
  (Layout.u32.prod Layout.u64).map (fun (h, c) => ⟨h, c⟩) (fun t => (t.handle, t.cookie)) fun _ => rfl

/-- `BinderPriorityDesc`. -/
structure BinderPriorityDesc where
  priority : UInt32
  desc : UInt32
  deriving DecidableEq, Repr

/-- The layout of `BinderPriorityDesc`. -/
def BinderPriorityDesc.layout : Layout BinderPriorityDesc :=
  (Layout.u32.prod Layout.u32).map (fun (q, d) => ⟨q, d⟩) (fun t => (t.priority, t.desc)) fun _ => rfl

/-- `BinderFrozenStateInfo`. -/
structure BinderFrozenStateInfo where
  cookie : Usize
  isFrozen : UInt32
  reserved : UInt32
  deriving DecidableEq, Repr

/-- The layout of `BinderFrozenStateInfo`. -/
def BinderFrozenStateInfo.layout : Layout BinderFrozenStateInfo :=
  (Layout.u64.prod (Layout.u32.prod Layout.u32)).map (fun (c, f, r) => ⟨c, f, r⟩)
    (fun t => (t.cookie, t.isFrozen, t.reserved)) fun _ => rfl

end BinderBinder
