import BinderBinder.Payload.Builder

set_option relaxedAutoImplicit false
set_option autoImplicit false

/-!
# Reading a payload

`PayloadReader` of `src/payload.rs`: two cursors over the bytes and the offset table of a payload,
one counting bytes and one counting objects. `none` is a panic: a slice out of range, an overflow
of the checked `usize` arithmetic, a descriptor that is `-1`, or a `todo!()`.

## Main definitions

* `PayloadReader` and its `readBytes`, `readBinderRef`, `readFd`, `nextObjectType`,
  `bytesUntilNextObj`.
* `PayloadReader.fromBuilder` — local delivery: the descriptors of the payload are duplicated.

## Main results

* `PayloadReader.decodeFlat_handle` — the record of a handle decodes to an equal handle.
-/

namespace BinderBinder

/-! ## `usize` arithmetic -/

/-- One more than the largest `usize`. -/
def usizeSize : ℕ := 2 ^ 64

/-- `a + b` on `usize`, `none` on overflow. -/
def usizeAdd (a b : ℕ) : Option ℕ := if a + b < usizeSize then some (a + b) else none

/-! ## The reader -/

/-- `PayloadReaderBuffer`; a buffer of the kernel is freed by its address. -/
inductive PayloadReaderBuffer (α : Type)
  | owned (items : List α)
  | kernelBorrowed (ptr : Usize) (items : List α)
  deriving Repr

/-- `Deref for PayloadReaderBuffer`. -/
def PayloadReaderBuffer.items {α : Type} : PayloadReaderBuffer α → List α
  | owned items => items
  | kernelBorrowed _ items => items

/-- `PayloadReader`. -/
structure PayloadReader where
  device : Addr
  data : PayloadReaderBuffer UInt8
  offsets : Option (PayloadReaderBuffer ℕ)
  binderObjects : List BinderObjectOrRef
  nextOffsetIndex : ℕ
  nextDataIndex : ℕ
  deriving Repr

/-- `PayloadBinderRefReadError`; nothing returns its `DeadBinderObject`. -/
inductive PayloadBinderRefReadError
  | incorrectObject
  | unknownBinderObject
  | deadBinderObject
  | empty
  deriving DecidableEq, Repr

/-- `PayloadObjectReadError`. -/
inductive PayloadObjectReadError
  | incorrectObject
  | empty
  deriving DecidableEq, Repr

/-- `PayloadBytesReadError`. -/
inductive PayloadBytesReadError
  | readingIntoObject
  | outOfBounds
  deriving DecidableEq, Repr

/-- `BinderObjectType`. -/
inductive BinderObjectType
  | binderObject
  | weakBinderObject
  | binderRef
  | weakBinderRef
  | fd
  | fdArray
  | buffer
  deriving DecidableEq, Repr

/-- The object type a header announces, `none` for a code the crate does not know. -/
def BinderObjectType.ofHeader (header : BinderObjectHeader) : Option BinderObjectType :=
  match BinderType.ofU32 header.type_ with
  | some .binder => some binderObject
  | some .handle => some binderRef
  | some .weakBinder => some weakBinderObject
  | some .weakHandle => some weakBinderRef
  | some .fd => some fd
  | some .fda => some fdArray
  | some .ptr => some buffer
  | none => none

namespace PayloadReader

/-- The first offset strictly behind the byte cursor. -/
def offsetBehindCursor (r : PayloadReader) : Option ℕ :=
  r.offsets.bind fun v => v.items.find? fun off => r.nextDataIndex < off

/-- The offset of the first object that was not read as an object. -/
def nextOffset (r : PayloadReader) : Option ℕ :=
  r.offsets.bind fun v => v.items[r.nextOffsetIndex]?

/-- `PayloadReader::read_bytes`. Both checks add the length to the cursor, so an overflow panics
whichever comes first. -/
def readBytes (r : PayloadReader) (numBytes : ℕ) :
    Option (Except PayloadBytesReadError (List UInt8) × PayloadReader) :=
  (usizeAdd r.nextDataIndex numBytes).map fun stop =>
    if ∃ off ∈ r.offsetBehindCursor, off < stop then (.error .readingIntoObject, r)
    else if stop ≤ r.data.items.length then
      (.ok ((r.data.items.drop r.nextDataIndex).take numBytes), { r with nextDataIndex := stop })
    else (.error .outOfBounds, r)

/-- `PayloadReader::next_object_type`. -/
def nextObjectType (r : PayloadReader) : Option (Option BinderObjectType) :=
  match r.nextOffset with
  | none => some none
  | some offset =>
    (BinderObjectHeader.layout.readAt r.data.items offset).map BinderObjectType.ofHeader

/-- `PayloadReader::bytes_until_next_obj`. -/
def bytesUntilNextObj (r : PayloadReader) : Option ℕ :=
  checkedSub (r.offsetBehindCursor.getD r.data.items.length) r.nextDataIndex

/-- The decoding part of `PayloadReader::read_binder_ref`: the object of a flat record. The last
arm is its `unreachable!()`. -/
def decodeFlat (kernel : KernelWrite) (dev : BinderDevice) (flat : FlatBinderObject) :
    Option (Except PayloadBinderRefReadError BinderObjectOrRef × BinderDevice) :=
  let id := BinderObjectId.fromRaw flat.data.binder flat.cookie
  match BinderType.ofU32 flat.hdr.type_ with
  | some .binder => (BorrowedBinderObject.fromId dev id).map fun (obj, dev) =>
      match obj with
      | some o => (.ok (.object o), dev)
      | none => (.error .unknownBinderObject, dev)
  | some .weakBinder => some (.ok (.weakObject ⟨dev.addr, id⟩), dev)
  | some .handle => (BinderRef.getAndDedupFromRaw kernel dev flat.data.handle).map fun (r, dev) =>
      (.ok (.ref r), dev)
  | some .weakHandle =>
      (WeakBinderRef.getAndDedupFromRaw kernel dev flat.data.handle).map fun (r, dev) =>
        (.ok (.weakRef r), dev)
  | _ => none

/-- `PayloadReader::read_binder_ref`; `dev` is the device of the reader. -/
def readBinderRef (kernel : KernelWrite) (dev : BinderDevice) (r : PayloadReader) :
    Option (Except PayloadBinderRefReadError BinderObjectOrRef × PayloadReader × BinderDevice) :=
  match r.nextOffset with
  | none => some (.error .empty, r, dev)
  | some offset => do
    let header ← BinderObjectHeader.layout.readAt r.data.items offset
    match BinderType.ofU32 header.type_ with
    | some .binder | some .handle | some .weakBinder | some .weakHandle =>
      let flat ← FlatBinderObject.layout.readAt r.data.items offset
      let (res, dev) ← decodeFlat kernel dev flat
      match res with
      | .ok objectOrRef => some (.ok objectOrRef,
          { r with
            nextOffsetIndex := r.nextOffsetIndex + 1
            nextDataIndex := offset + objectSize }, dev)
      | .error e => some (.error e, r, dev)
    | _ => some (.error .incorrectObject, r, dev)

/-- `PayloadReader::read_fd`. -/
def readFd (r : PayloadReader) :
    Option (Except PayloadObjectReadError (Fd × Usize) × PayloadReader) :=
  match r.nextOffset with
  | none => some (.error .empty, r)
  | some offset => do
    let header ← BinderObjectHeader.layout.readAt r.data.items offset
    match BinderType.ofU32 header.type_ with
    | some .fd =>
      let obj ← BinderFdObject.layout.readAt r.data.items offset
      let fd ← Fd.ofRaw obj.data.fd
      some (.ok (fd, obj.cookie),
        { r with
          nextOffsetIndex := r.nextOffsetIndex + 1
          nextDataIndex := offset + objectSize })
    | _ => some (.error .incorrectObject, r)

/-- Decoding finds what it needs: a strong object is registered, and its count has room. -/
def CanDecode (dev : BinderDevice) : BinderObjectOrRef → Prop
  | .object o => (dev.objects o.id).isSome ∧ dev.CanCount o.id
  | _ => True

section DecodeFlat

variable (kernel : KernelWrite) (dev : BinderDevice) (upper : UInt32)

/-- The record of a strong object is looked up. -/
theorem decodeFlat_object (o : BorrowedBinderObject) :
    decodeFlat kernel dev ((BinderObjectOrRef.object o).getFlatBinderObject upper) =
      (BorrowedBinderObject.fromId dev o.id).map fun (obj, dev) =>
        match obj with
        | some o => (.ok (.object o), dev)
        | none => (.error .unknownBinderObject, dev) := by
  simp only [decodeFlat, BinderObjectOrRef.getFlatBinderObject, BinderType.ofU32_toU32]
  rfl

/-- The record of a weak object is taken as it is. -/
theorem decodeFlat_weakObject (o : WeakBinderObject) :
    decodeFlat kernel dev ((BinderObjectOrRef.weakObject o).getFlatBinderObject upper) =
      some (.ok (.weakObject ⟨dev.addr, o.id⟩), dev) := by
  simp only [decodeFlat, BinderObjectOrRef.getFlatBinderObject, BinderType.ofU32_toU32]
  rfl

/-- The record of a reference is deduplicated by its handle. -/
theorem decodeFlat_ref (r : BinderRef) :
    decodeFlat kernel dev ((BinderObjectOrRef.ref r).getFlatBinderObject upper) =
      (BinderRef.getAndDedupFromRaw kernel dev r.handle).map fun (r, dev) =>
        (.ok (.ref r), dev) := by
  simp only [decodeFlat, BinderObjectOrRef.getFlatBinderObject, BinderType.ofU32_toU32,
    FlatBinderObjectData.handle_ofHandle]

/-- The record of a weak reference is deduplicated by its handle. -/
theorem decodeFlat_weakRef (r : WeakBinderRef) :
    decodeFlat kernel dev ((BinderObjectOrRef.weakRef r).getFlatBinderObject upper) =
      (WeakBinderRef.getAndDedupFromRaw kernel dev r.id).map fun (r, dev) =>
        (.ok (.weakRef r), dev) := by
  simp only [decodeFlat, BinderObjectOrRef.getFlatBinderObject, BinderType.ofU32_toU32]
  -- the type of the result names the handle, so the handle is replaced everywhere at once
  generalize hh : (FlatBinderObjectData.ofHandle upper r.id).handle = handle
  rw [FlatBinderObjectData.handle_ofHandle] at hh
  subst hh
  rfl

end DecodeFlat

/-- On the device of a handle, its record decodes to an equal handle of the same kind.

**Proof sketch.** One case per kind. An object record holds the id, and decoding looks the id up; a
reference record holds the handle, in the lower half of its union, and decoding deduplicates it. -/
theorem decodeFlat_handle {kernel : KernelWrite} (hk : Accepts kernel) {dev : BinderDevice}
    {x : BinderObjectOrRef} (hx : x.device = dev.addr) (hdec : CanDecode dev x) (upper : UInt32) :
    ∃ y dev', decodeFlat kernel dev (x.getFlatBinderObject upper) = some (.ok y, dev') ∧
      (y == x) = true := by
  cases x with
  | object o =>
    obtain ⟨o', dev', ho', hdev, hid⟩ := BorrowedBinderObject.fromId_registered hdec.1 hdec.2
    refine ⟨.object o', dev', ?_, ?_⟩
    · rw [decodeFlat_object, ho']
      rfl
    · show (o'.device == o.device && o'.id == o.id) = true
      have hdev' : o.device = dev.addr := hx
      rw [hdev, hid, hdev', beq_self_eq_true, beq_self_eq_true]
      rfl
  | weakObject o =>
    refine ⟨.weakObject ⟨dev.addr, o.id⟩, dev, decodeFlat_weakObject _ _ _ _, ?_⟩
    show (dev.addr == o.device && o.id == o.id) = true
    have hdev' : o.device = dev.addr := hx
    rw [hdev', beq_self_eq_true, beq_self_eq_true]
    rfl
  | ref r =>
    obtain ⟨⟨r', dev'⟩, hr'⟩ :=
      Option.isSome_iff_exists.mp (BinderRef.isSome_getAndDedupFromRaw hk dev r.handle)
    obtain ⟨hdev, hhandle⟩ := BinderRef.getAndDedupFromRaw_spec hr'
    refine ⟨.ref r', dev', ?_, ?_⟩
    · rw [decodeFlat_ref, hr']
      rfl
    · show (r'.device == r.device && r'.handle == r.handle) = true
      have hdev' : r.device = dev.addr := hx
      rw [hdev, hhandle, hdev', beq_self_eq_true, beq_self_eq_true]
      rfl
  | weakRef r =>
    obtain ⟨⟨r', dev'⟩, hr'⟩ :=
      Option.isSome_iff_exists.mp (WeakBinderRef.isSome_getAndDedupFromRaw hk dev r.id)
    obtain ⟨hdev, -⟩ := WeakBinderRef.getAndDedupFromRaw_spec hr'
    refine ⟨.weakRef r'.1, dev', ?_, ?_⟩
    · rw [decodeFlat_weakRef, hr']
      rfl
    · show (r'.1.device == r.device && r'.1.id == r.id) = true
      have hdev' : r.device = dev.addr := hx
      rw [hdev, r'.2, hdev', beq_self_eq_true, beq_self_eq_true]
      rfl

/-! ## What a successful read does -/

/-- Bytes that were read are as many as were asked for, and the byte cursor stands behind them. -/
theorem readBytes_ok {r r' : PayloadReader} {n : ℕ} {v : List UInt8}
    (h : r.readBytes n = some (.ok v, r')) :
    v = (r.data.items.drop r.nextDataIndex).take n ∧ v.length = n ∧
      r.nextDataIndex + n ≤ r.data.items.length ∧
      r' = { r with nextDataIndex := r.nextDataIndex + n } := by
  obtain ⟨stop, hstop, heq⟩ := Option.map_eq_some_iff.mp h
  have hsum : stop = r.nextDataIndex + n := by
    unfold usizeAdd at hstop
    split_ifs at hstop
    exact (Option.some.inj hstop).symm
  subst hsum
  split_ifs at heq with hobj hfit
  · cases heq
  · cases heq
    refine ⟨rfl, ?_, hfit, rfl⟩
    rw [List.length_take, List.length_drop]
    omega
  · cases heq

/-- A handle is read at the next offset, and both cursors move over its record. -/
theorem readBinderRef_ok {kernel : KernelWrite} {dev dev' : BinderDevice} {r r' : PayloadReader}
    {x : BinderObjectOrRef} (h : r.readBinderRef kernel dev = some (.ok x, r', dev')) :
    ∃ off, r.nextOffset = some off ∧
      r' = { r with
        nextOffsetIndex := r.nextOffsetIndex + 1
        nextDataIndex := off + objectSize } := by
  unfold readBinderRef at h
  cases hoff : r.nextOffset with
  | none => rw [hoff] at h; cases h
  | some off =>
    rw [hoff] at h
    refine ⟨off, rfl, ?_⟩
    obtain ⟨header, -, h⟩ := Option.bind_eq_some_iff.mp h
    split at h
    case h_5 => cases h
    all_goals
      obtain ⟨flat, -, h⟩ := Option.bind_eq_some_iff.mp h
      obtain ⟨⟨res, dev₁⟩, -, h⟩ := Option.bind_eq_some_iff.mp h
      cases res with
      | ok y => cases h; rfl
      | error e => cases h

/-- A descriptor is read at the next offset, and both cursors move over its record. -/
theorem readFd_ok {r r' : PayloadReader} {p : Fd × Usize} (h : r.readFd = some (.ok p, r')) :
    ∃ off, r.nextOffset = some off ∧
      r' = { r with
        nextOffsetIndex := r.nextOffsetIndex + 1
        nextDataIndex := off + objectSize } := by
  unfold readFd at h
  cases hoff : r.nextOffset with
  | none => rw [hoff] at h; cases h
  | some off =>
    rw [hoff] at h
    refine ⟨off, rfl, ?_⟩
    obtain ⟨header, -, h⟩ := Option.bind_eq_some_iff.mp h
    split at h
    · obtain ⟨obj, -, h⟩ := Option.bind_eq_some_iff.mp h
      obtain ⟨fd, -, h⟩ := Option.bind_eq_some_iff.mp h
      cases h
      rfl
    · cases h

/-- A distance of zero means the end of the data: an object at the cursor is not seen. -/
theorem cursor_of_bytesUntilNextObj_eq_zero {r : PayloadReader}
    (h : r.bytesUntilNextObj = some 0) : r.nextDataIndex = r.data.items.length := by
  obtain ⟨hle, hzero⟩ := checkedSub_eq_some.mp h
  cases hoff : r.offsetBehindCursor with
  | none =>
    rw [hoff, Option.getD_none] at hle hzero
    omega
  | some off =>
    rw [hoff, Option.getD_some] at hle hzero
    -- the offset that was found lies strictly behind the cursor
    have hbehind : r.nextDataIndex < off := by
      obtain ⟨v, -, hfind⟩ := Option.bind_eq_some_iff.mp hoff
      simpa using List.find?_some hfind
    omega

/-! ## Local delivery -/

section FromBuilder

-- `dup` of the operating system on the descriptor table of the process, and what the unused half
-- of a union holds
variable {φ : Type} (dup : φ → Fd → Option (Fd × φ)) (undef : ℕ → UInt32)

/-- The loop of `PayloadReader::from_builder`: each descriptor in the copied data is replaced by a
duplicate; buffers and descriptor arrays are a `todo!()`. -/
def patchFds (files : φ) (data : List UInt8) : List ℕ → Option (List UInt8 × φ)
  | [] => some (data, files)
  | offset :: offsets => do
    let header ← BinderObjectHeader.layout.readAt data offset
    match BinderType.ofU32 header.type_ with
    | some .fd =>
      let obj ← BinderFdObject.layout.readAt data offset
      let fd ← Fd.ofRaw obj.data.fd
      let (newFd, files) ← dup files fd
      let data ← BinderFdObject.layout.writeAt data offset
        { obj with data := .ofFd (undef offset) newFd.raw }
      patchFds files data offsets
    | some .fda | some .ptr => none
    | _ => patchFds files data offsets

/-- The clone of `binder_objects`, each on its own device, of which only `dev` is looked at here. -/
def cloneAll (dev : BinderDevice) : List BinderObjectOrRef →
    Option (List BinderObjectOrRef × BinderDevice)
  | [] => some ([], dev)
  | x :: xs => do
    let (x, dev) ← if x.device = dev.addr then x.clone dev else some (x, dev)
    let (xs, dev) ← cloneAll dev xs
    return (x :: xs, dev)

/-- `PayloadReader::from_builder`. -/
def fromBuilder (dev : BinderDevice) (files : φ) (b : PayloadBuilder) :
    Option (PayloadReader × BinderDevice × φ) := do
  let (data, files) ← patchFds dup undef files b.data b.objOffsets
  let (binderObjects, dev') ← cloneAll dev b.binderObjects
  return (⟨dev.addr, .owned data, some (.owned b.objOffsets), binderObjects, 0, 0⟩, dev', files)

end FromBuilder

end PayloadReader

end BinderBinder
