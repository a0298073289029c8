import Mathlib.Data.List.Basic
import BinderBinder.BinderObject

set_option relaxedAutoImplicit false
set_option autoImplicit false

/-!
# Building a payload

`PayloadBuilder` of `src/payload.rs`: a growing buffer of bytes and object records, and the table
of the offsets at which the records start. A record is aligned to eight bytes before it is written.

## Main definitions

* `PayloadBuilder` and its `pushBytes`, `pushBinderRef`, `pushFd`, `pushOwnedFd`, `pushBuffer`,
  `pushChildBuffer`, `pushFdArray`, `align`.
* `Item`, `PayloadBuilder.push`, `PayloadBuilder.pushAll` — the pushes as labels, and a run of them.
* `Item.bytesAt`, `Item.offsetAt` — what a push adds to a buffer of a given length.

## Main results

* `PayloadBuilder.align_eq` — the padding of `align` in closed form.
* `PayloadBuilder.push_spec` — a push appends the bytes and the offset of its item.
* `PayloadBuilder.pushAll_spec` — a run of pushes appends those of its items.
-/

namespace BinderBinder

/-! ## Descriptors -/

/-- The value no descriptor has: `-1` as an `i32`. -/
def invalidFd : RawFd := 0xFFFFFFFF

/-- An open file descriptor, as `OwnedFd` and `BorrowedFd` promise: it is not `-1`. -/
structure Fd where
  raw : RawFd
  valid : raw ≠ invalidFd
  deriving DecidableEq, Repr

/-- `OwnedFd::from_raw_fd` and `BorrowedFd::borrow_raw`, which panic on `-1`. -/
def Fd.ofRaw (raw : RawFd) : Option Fd := if h : raw ≠ invalidFd then some ⟨raw, h⟩ else none

@[simp] theorem Fd.ofRaw_raw (fd : Fd) : Fd.ofRaw fd.raw = some fd := by
  rw [Fd.ofRaw, dif_pos fd.valid]

/-! ## The builder -/

/-- `PayloadBuilder`. -/
structure PayloadBuilder where
  data : List UInt8
  objOffsets : List ℕ
  ownedFds : List Fd
  binderObjects : List BinderObjectOrRef
  deriving Repr

/-- The alignment of every object record, `align_of::<FlatBinderObject>()` and the others. -/
def objectAlign : ℕ := 8

/-- The size of the records of binder objects and descriptors. -/
def objectSize : ℕ := 24

/-- The loop of `PayloadBuilder::align`; it stops at the first multiple, fewer than `align` bytes
further on, so `align` rounds are enough for it. -/
def alignLoop (align : ℕ) : ℕ → List UInt8 → List UInt8
  | 0, data => data
  | n + 1, data => if align ∣ data.length then data else alignLoop align n (data ++ [0])

/-- How many bytes there are from `n` to the next multiple of `align`. -/
def padding (align n : ℕ) : ℕ := (align - n % align) % align

/-- The object of a descriptor; `upper` is what its union holds next to the descriptor. -/
def fdObject (upper : UInt32) (fd : Fd) (cookie : Usize) : BinderFdObject :=
  ⟨⟨BinderType.fd.toU32⟩, 0, .ofFd upper fd.raw, cookie⟩

/-- A `&[u8]`: where it lies and how long it is. -/
structure Slice where
  ptr : Usize
  len : Usize
  deriving DecidableEq, Repr

/-- The object of a buffer. -/
def bufferObject (bytes : Slice) (parent parentOffset : Usize) : BinderBufferObject :=
  ⟨⟨BinderType.ptr.toU32⟩, BinderBufferFlags.empty, bytes.ptr, bytes.len, parent, parentOffset⟩

/-- The object of an array of descriptors in a buffer. -/
def fdArrayObject (numFds parent parentOffset : Usize) : BinderFdArrayObject :=
  ⟨⟨BinderType.fda.toU32⟩, 0, numFds, parent, parentOffset⟩

namespace PayloadBuilder

/-- `PayloadBuilder::new`. -/
def new : PayloadBuilder := ⟨[], [], [], []⟩

/-- `PayloadBuilder::push_bytes`. -/
def pushBytes (b : PayloadBuilder) (bytes : List UInt8) : PayloadBuilder :=
  { b with data := b.data ++ bytes }

/-- `PayloadBuilder::align`, for a positive alignment. -/
def align (b : PayloadBuilder) (align : ℕ) : PayloadBuilder :=
  { b with data := alignLoop align align b.data }

/-- What the pushes of object records share: align, note the offset, copy the record. -/
def pushRecord (b : PayloadBuilder) (record : ℕ → List UInt8) : PayloadBuilder :=
  let b := b.align objectAlign
  { b with
    objOffsets := b.objOffsets ++ [b.data.length]
    data := b.data ++ record b.data.length }

section Push

-- what the unused half of a union holds, by the offset of its record: Rust leaves it undefined
variable (undef : ℕ → UInt32)

/-- `PayloadBuilder::push_binder_ref`; `dev` is the device of the handle. -/
def pushBinderRef (dev : BinderDevice) (b : PayloadBuilder) (binderRef : ToBinderObjectOrRef) :
    Option (PayloadBuilder × BinderDevice) :=
  (binderRef.toBinderObjectOrRef dev).map fun (port, dev) =>
    let b := b.pushRecord fun off =>
      FlatBinderObject.layout.encode (port.getFlatBinderObject (undef off))
    ({ b with binderObjects := b.binderObjects ++ [port] }, dev)

/-- `PayloadBuilder::push_fd`. -/
def pushFd (b : PayloadBuilder) (fd : Fd) (cookie : Usize) : PayloadBuilder :=
  b.pushRecord fun off => BinderFdObject.layout.encode (fdObject (undef off) fd cookie)

/-- `PayloadBuilder::push_owned_fd`: the same record, and the builder keeps the descriptor. -/
def pushOwnedFd (b : PayloadBuilder) (fd : Fd) (cookie : Usize) : PayloadBuilder :=
  let b := b.pushRecord fun off =>
    BinderFdObject.layout.encode (fdObject (undef off) fd cookie)
  { b with ownedFds := b.ownedFds ++ [fd] }

end Push

/-- `PayloadBuilder::push_buffer`; the offset of the record is returned. -/
def pushBuffer (b : PayloadBuilder) (bytes : Slice) : ℕ × PayloadBuilder :=
  ((b.align objectAlign).data.length,
    b.pushRecord fun _ => BinderBufferObject.layout.encode (bufferObject bytes 0 0))

/-- `PayloadBuilder::push_child_buffer`; the offset of the record is returned. -/
def pushChildBuffer (b : PayloadBuilder) (bytes : Slice) (parent parentPtrOffset : Usize) :
    ℕ × PayloadBuilder :=
  ((b.align objectAlign).data.length,
    b.pushRecord fun _ => BinderBufferObject.layout.encode
      (bufferObject bytes parent parentPtrOffset))

/-- `PayloadBuilder::push_fd_array`. -/
def pushFdArray (b : PayloadBuilder) (numFds parent parentPtrOffset : Usize) : PayloadBuilder :=
  b.pushRecord fun _ => BinderFdArrayObject.layout.encode
    (fdArrayObject numFds parent parentPtrOffset)

end PayloadBuilder

/-! ## Padding -/

/-- Aligned lengths need no padding, and no others. -/
theorem padding_eq_zero {a n : ℕ} (ha : 0 < a) : padding a n = 0 ↔ a ∣ n := by
  have hlt : n % a < a := Nat.mod_lt n ha
  unfold padding
  constructor
  · intro h
    by_contra hn
    have hpos : 0 < n % a := Nat.pos_of_ne_zero fun h0 => hn (Nat.dvd_of_mod_eq_zero h0)
    rw [Nat.mod_eq_of_lt (by omega)] at h
    omega
  · intro h
    rw [Nat.mod_eq_zero_of_dvd h, Nat.sub_zero, Nat.mod_self]

/-- One byte more is one byte of padding less. -/
theorem padding_succ {a n : ℕ} (hn : ¬ a ∣ n) (ha : 0 < a) :
    padding a n = padding a (n + 1) + 1 := by
  have hlt : n % a < a := Nat.mod_lt n ha
  have hpos : 0 < n % a := Nat.pos_of_ne_zero fun h0 => hn (Nat.dvd_of_mod_eq_zero h0)
  have hleft : padding a n = a - n % a := Nat.mod_eq_of_lt (by omega)
  rw [hleft, padding]
  by_cases hlast : n % a + 1 = a
  · have hzero : (n + 1) % a = 0 := by
      rw [Nat.add_mod, Nat.mod_eq_of_lt (show 1 < a by omega), hlast, Nat.mod_self]
    rw [hzero, Nat.sub_zero, Nat.mod_self]
    omega
  · have hnext : (n + 1) % a = n % a + 1 := by
      rw [Nat.add_mod, Nat.mod_eq_of_lt (show 1 < a by omega),
        Nat.mod_eq_of_lt (show n % a + 1 < a by omega)]
    rw [hnext, Nat.mod_eq_of_lt (show a - (n % a + 1) < a by omega)]
    omega

/-- There is less padding than the alignment. -/
theorem padding_lt {a : ℕ} (ha : 0 < a) (n : ℕ) : padding a n < a := Nat.mod_lt _ ha

/-- The loop appends the padding in zeros once it may go round often enough.

**Proof sketch.** Induction on the rounds: a length that is no multiple takes one zero and has one
byte of padding less to go; a multiple stops the loop, with no padding left. -/
theorem alignLoop_eq {a : ℕ} (ha : 0 < a) (n : ℕ) (data : List UInt8)
    (h : padding a data.length ≤ n) :
    alignLoop a n data = data ++ List.replicate (padding a data.length) 0 := by
  induction n generalizing data with
  | zero => rw [Nat.le_zero.mp h, alignLoop, List.replicate_zero, List.append_nil]
  | succ n ih =>
    rw [alignLoop]
    split_ifs with hd
    · rw [(padding_eq_zero ha).mpr hd, List.replicate_zero, List.append_nil]
    · have hlen : (data ++ [0]).length = data.length + 1 := by simp
      have hstep := padding_succ hd ha
      rw [ih _ (by rw [hlen]; omega), hlen, hstep, List.append_assoc, List.replicate_succ]
      rfl

/-- The padding of `align` in closed form. -/
theorem PayloadBuilder.align_eq {a : ℕ} (ha : 0 < a) (b : PayloadBuilder) :
    b.align a =
      { b with data := b.data ++ List.replicate (padding a b.data.length) 0 } := by
  have h := alignLoop_eq ha a b.data (Nat.le_of_lt (padding_lt ha _))
  rw [PayloadBuilder.align, h]

/-! ## Runs of pushes -/

/-- What a caller can push into a payload; a descriptor is lent or, if `owned`, handed over. -/
inductive Item
  | bytes (bytes : List UInt8)
  | binderRef (x : ToBinderObjectOrRef)
  | fd (fd : Fd) (cookie : Usize) (owned : Bool)
  deriving Repr

/-- The handle something converts to, but for the count of a strong object. -/
def ToBinderObjectOrRef.handle : ToBinderObjectOrRef → BinderObjectOrRef
  | .guard o => .object ⟨o.device, o.id, o.handler, false⟩
  | .typed r => .object ⟨r.device, r.id, r.handler, false⟩
  | .erased x => x

namespace Item

/-- The item becomes an object record; byte strings do not. -/
def IsObject : Item → Prop
  | bytes _ => False
  | _ => True

instance : DecidablePred IsObject := fun item => by
  cases item <;> unfold IsObject <;> infer_instance

section Bytes

variable (undef : ℕ → UInt32)

/-- The record of an object item that starts at `off`. -/
def recordAt (off : ℕ) : Item → List UInt8
  | bytes _ => []
  | binderRef x => FlatBinderObject.layout.encode (x.handle.getFlatBinderObject (undef off))
  | fd d cookie _ => BinderFdObject.layout.encode (fdObject (undef off) d cookie)

/-- What a push of the item appends to `n` bytes of data. -/
def bytesAt (n : ℕ) : Item → List UInt8
  | bytes bs => bs
  | item => List.replicate (padding objectAlign n) 0 ++
      item.recordAt undef (n + padding objectAlign n)

end Bytes

/-- What a push of the item appends to the offset table of `n` bytes of data. -/
def offsetAt (n : ℕ) : Item → List ℕ
  | bytes _ => []
  | _ => [n + padding objectAlign n]

/-- By how much a push of the item grows `n` bytes of data. -/
def sizeAt (n : ℕ) : Item → ℕ
  | bytes bs => bs.length
  | _ => padding objectAlign n + objectSize

end Item

namespace PayloadBuilder

variable (undef : ℕ → UInt32)

/-- The push of an item. -/
def push (dev : BinderDevice) (b : PayloadBuilder) : Item → Option (PayloadBuilder × BinderDevice)
  | .bytes bs => some (b.pushBytes bs, dev)
  | .binderRef x => b.pushBinderRef undef dev x
  | .fd fd cookie false => some (b.pushFd undef fd cookie, dev)
  | .fd fd cookie true => some (b.pushOwnedFd undef fd cookie, dev)

/-- A run of pushes. Other threads may change the device in between, so each push comes with the
state it finds the device in. -/
def pushAll (b : PayloadBuilder) : List (BinderDevice × Item) → Option PayloadBuilder
  | [] => some b
  | (dev, item) :: rest => (b.push undef dev item).bind fun (b', _) => pushAll b' rest

end PayloadBuilder

/-! ## What a run of pushes writes -/

namespace Item

variable (undef : ℕ → UInt32)

/-- What pushes of the items append to `n` bytes of data. -/
def allBytes : ℕ → List Item → List UInt8
  | _, [] => []
  | n, item :: items => item.bytesAt undef n ++ allBytes (n + item.sizeAt n) items

/-- What pushes of the items append to the offset table of `n` bytes of data. -/
def allOffsets : ℕ → List Item → List ℕ
  | _, [] => []
  | n, item :: items => item.offsetAt n ++ allOffsets (n + item.sizeAt n) items

/-- By how much pushes of the items grow `n` bytes of data. -/
def allSize : ℕ → List Item → ℕ
  | _, [] => 0
  | n, item :: items => item.sizeAt n + allSize (n + item.sizeAt n) items

/-- The record of an object fills its 24 bytes. -/
theorem length_recordAt {item : Item} (h : item.IsObject) (off : ℕ) :
    (item.recordAt undef off).length = objectSize := by
  cases item with
  | bytes bs => exact h.elim
  | binderRef x => exact FlatBinderObject.layout.length_encode _
  | fd d cookie owned => exact BinderFdObject.layout.length_encode _

/-- The bytes of an object are its padding and its record. -/
theorem bytesAt_of_isObject {item : Item} (h : item.IsObject) (n : ℕ) :
    item.bytesAt undef n = List.replicate (padding objectAlign n) 0 ++
      item.recordAt undef (n + padding objectAlign n) := by
  cases item with
  | bytes bs => exact h.elim
  | binderRef x => rfl
  | fd d cookie owned => rfl

/-- An object adds its offset to the table. -/
theorem offsetAt_of_isObject {item : Item} (h : item.IsObject) (n : ℕ) :
    item.offsetAt n = [n + padding objectAlign n] := by
  cases item with
  | bytes bs => exact h.elim
  | binderRef x => rfl
  | fd d cookie owned => rfl

/-- An object grows the data by its padding and its record. -/
theorem sizeAt_of_isObject {item : Item} (h : item.IsObject) (n : ℕ) :
    item.sizeAt n = padding objectAlign n + objectSize := by
  cases item with
  | bytes bs => exact h.elim
  | binderRef x => rfl
  | fd d cookie owned => rfl

/-- The bytes of an item are as many as it grows the data by. -/
@[simp] theorem length_bytesAt (item : Item) (n : ℕ) :
    (item.bytesAt undef n).length = item.sizeAt n := by
  by_cases h : item.IsObject
  · rw [bytesAt_of_isObject undef h, sizeAt_of_isObject h, List.length_append,
      List.length_replicate, length_recordAt undef h]
  · cases item with
    | bytes bs => rfl
    | _ => exact absurd trivial h

/-- The bytes of a run are as many as it grows the data by. -/
@[simp] theorem length_allBytes (n : ℕ) (items : List Item) :
    (allBytes undef n items).length = allSize n items := by
  induction items generalizing n with
  | nil => rfl
  | cons item items ih =>
    rw [allBytes, allSize, List.length_append, length_bytesAt, ih]

/-- The offsets of a run lie at or behind its start, each with room for its record. -/
theorem mem_allOffsets {n off : ℕ} {items : List Item} (h : off ∈ allOffsets n items) :
    n ≤ off ∧ off + objectSize ≤ n + allSize n items := by
  induction items generalizing n with
  | nil => simp [allOffsets] at h
  | cons item items ih =>
    rw [allOffsets, List.mem_append] at h
    rw [allSize]
    rcases h with h | h
    · by_cases hobj : item.IsObject
      · rw [offsetAt_of_isObject hobj, List.mem_singleton] at h
        rw [sizeAt_of_isObject hobj]
        omega
      · cases item with
        | bytes bs => simp [offsetAt] at h
        | _ => exact absurd trivial hobj
    · have := ih h
      omega

/-- A run without objects is the concatenation of its bytes and adds no offset. -/
theorem allOffsets_eq_nil_iff {n : ℕ} {items : List Item} :
    allOffsets n items = [] ↔ ∀ item ∈ items, ¬ item.IsObject := by
  induction items generalizing n with
  | nil => simp [allOffsets]
  | cons item items ih =>
    rw [allOffsets, List.append_eq_nil_iff, ih, List.forall_mem_cons]
    refine and_congr_left fun _ => ?_
    by_cases hobj : item.IsObject
    · simp [offsetAt_of_isObject hobj, hobj]
    · cases item with
      | bytes bs => simp [offsetAt, hobj]
      | _ => exact absurd trivial hobj

end Item

/-! ## The pushes write what the items say -/

namespace ToBinderObjectOrRef

variable {dev dev' : BinderDevice} {x : ToBinderObjectOrRef} {port : BinderObjectOrRef}

/-- A conversion finds what it needs: a typed reference its object, a strong one room in the
count. -/
def CanConvert (dev : BinderDevice) : ToBinderObjectOrRef → Prop
  | guard o => dev.CanCount o.id
  | typed r => (dev.objects r.id).isSome ∧ dev.CanCount r.id
  | erased (.object o) => dev.CanCount o.id
  | erased _ => True

/-- What a conversion needs is enough for it not to panic. -/
theorem isSome_toBinderObjectOrRef (h : x.CanConvert dev) :
    (x.toBinderObjectOrRef dev).isSome := by
  cases x with
  | guard o =>
    rw [toBinderObjectOrRef, Option.isSome_map]
    exact h
  | typed r =>
    obtain ⟨o, dev₁, ho, -, -⟩ := BorrowedBinderObject.fromId_registered h.1 h.2
    rw [toBinderObjectOrRef, ho]
    rfl
  | erased y =>
    cases y with
    | object o =>
      have hc : (dev.increaseLocal o.id).isSome := h
      simpa [toBinderObjectOrRef, BinderObjectOrRef.clone, BorrowedBinderObject.clone] using hc
    | weakObject o => rfl
    | ref r => rfl
    | weakRef r => rfl

/-- The converted handle has the record of what it was made from. -/
theorem getFlatBinderObject_of_convert (h : x.toBinderObjectOrRef dev = some (port, dev'))
    (upper : UInt32) : port.getFlatBinderObject upper = x.handle.getFlatBinderObject upper := by
  cases x with
  | guard o =>
    obtain ⟨⟨b, dev₁⟩, -, heq⟩ := Option.map_eq_some_iff.mp h
    cases heq
    rfl
  | typed r =>
    obtain ⟨⟨o, dev₁⟩, hfrom, hsome⟩ := Option.bind_eq_some_iff.mp h
    rcases BorrowedBinderObject.fromId_cases hfrom with ⟨-, rfl, -⟩ | ⟨handler, b, -, -, rfl⟩
    · cases hsome
    · cases hsome
      rfl
  | erased y =>
    cases y with
    | object o =>
      simp only [toBinderObjectOrRef, BinderObjectOrRef.clone, BorrowedBinderObject.clone,
        Option.map_map, Option.map_eq_some_iff] at h
      obtain ⟨p, -, heq⟩ := h
      cases heq
      rfl
    | weakObject o => cases h; rfl
    | ref r => cases h; rfl
    | weakRef r => cases h; rfl

end ToBinderObjectOrRef

/-- A push of the item finds what it needs. -/
def Item.CanPush (dev : BinderDevice) : Item → Prop
  | .binderRef x => x.CanConvert dev
  | _ => True

namespace PayloadBuilder

variable {undef : ℕ → UInt32}

/-- A record is appended after its padding, and the table notes where it starts. -/
theorem pushRecord_eq (b : PayloadBuilder) (record : ℕ → List UInt8) :
    b.pushRecord record =
      { b with
        data := b.data ++ (List.replicate (padding objectAlign b.data.length) 0 ++
          record (b.data.length + padding objectAlign b.data.length))
        objOffsets := b.objOffsets ++ [b.data.length + padding objectAlign b.data.length] } := by
  rw [pushRecord, align_eq (by decide)]
  simp only [List.length_append, List.length_replicate, List.append_assoc]

/-- A push appends the bytes and the offset of its item. -/
theorem push_spec {dev dev' : BinderDevice} {b b' : PayloadBuilder} {item : Item}
    (h : b.push undef dev item = some (b', dev')) :
    b'.data = b.data ++ item.bytesAt undef b.data.length ∧
      b'.objOffsets = b.objOffsets ++ item.offsetAt b.data.length := by
  cases item with
  | bytes bs =>
    cases h
    exact ⟨rfl, (List.append_nil _).symm⟩
  | binderRef x =>
    obtain ⟨⟨port, dev₁⟩, hport, heq⟩ := Option.map_eq_some_iff.mp h
    cases heq
    simp only [pushRecord_eq, ToBinderObjectOrRef.getFlatBinderObject_of_convert hport]
    exact ⟨rfl, rfl⟩
  | fd d cookie owned =>
    cases owned with
    | false =>
      cases h
      rw [pushFd, pushRecord_eq]
      exact ⟨rfl, rfl⟩
    | true =>
      cases h
      rw [pushOwnedFd, pushRecord_eq]
      exact ⟨rfl, rfl⟩

/-- A push that finds what it needs does not panic. -/
theorem isSome_push {dev : BinderDevice} {item : Item} (b : PayloadBuilder)
    (h : item.CanPush dev) : (b.push undef dev item).isSome := by
  cases item with
  | binderRef x =>
    rw [push, pushBinderRef, Option.isSome_map]
    exact ToBinderObjectOrRef.isSome_toBinderObjectOrRef h
  | bytes bs => rfl
  | fd d cookie owned => cases owned <;> rfl

/-- A run of pushes appends the bytes and the offsets of its items. -/
theorem pushAll_spec {b b' : PayloadBuilder} {items : List (BinderDevice × Item)}
    (h : b.pushAll undef items = some b') :
    b'.data = b.data ++ Item.allBytes undef b.data.length (items.map Prod.snd) ∧
      b'.objOffsets = b.objOffsets ++
        Item.allOffsets b.data.length (items.map Prod.snd) := by
  induction items generalizing b with
  | nil =>
    cases h
    simp [Item.allBytes, Item.allOffsets]
  | cons p items ih =>
    obtain ⟨dev, item⟩ := p
    obtain ⟨⟨b₁, dev₁⟩, hpush, hrest⟩ := Option.bind_eq_some_iff.mp h
    obtain ⟨hdata, hoff⟩ := push_spec hpush
    obtain ⟨hdata', hoff'⟩ := ih hrest
    have hlen : b₁.data.length = b.data.length + item.sizeAt b.data.length := by
      rw [hdata, List.length_append, Item.length_bytesAt]
    rw [hlen, hdata, List.append_assoc] at hdata'
    rw [hlen, hoff, List.append_assoc] at hoff'
    exact ⟨hdata', hoff'⟩

/-- A run of pushes that all find what they need does not panic. -/
theorem isSome_pushAll {items : List (BinderDevice × Item)} (b : PayloadBuilder)
    (h : ∀ p ∈ items, p.2.CanPush p.1) : (b.pushAll undef items).isSome := by
  induction items generalizing b with
  | nil => rfl
  | cons p items ih =>
    obtain ⟨dev, item⟩ := p
    rw [List.forall_mem_cons] at h
    have hpush : (b.push undef dev item).isSome := isSome_push b h.1
    obtain ⟨⟨b₁, dev₁⟩, hb₁⟩ := Option.isSome_iff_exists.mp hpush
    rw [pushAll, hb₁]
    exact ih b₁ h.2

end PayloadBuilder

end BinderBinder
