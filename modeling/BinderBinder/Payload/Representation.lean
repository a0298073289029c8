import Mathlib.Data.List.Forall2
import BinderBinder.Lib.Run
import BinderBinder.Lib.Segments
import BinderBinder.Payload.Builder

set_option relaxedAutoImplicit false
set_option autoImplicit false

/-!
# What a builder holds

Whatever is called on a `PayloadBuilder`, its data is a buffer of segments: the bytes that were
pushed, zeros, and the records of the objects that were pushed; and its table says where these
records are.

## Main definitions

* `BuilderCall`, `BuilderCall.run` — the methods as labels.
* `ObjectRecord` — the record of an object, of one of four shapes.
* `BuilderCall.segments` — what a call appends.
* `Padded` — byte strings with zeros between them.
* `PayloadBuilder.Represents` — the builder holds the objects and the bytes of some calls.

## Main results

* `BuilderCall.run_spec` — a call appends its segments.
* `PayloadBuilder.represents_of_exec` — after every run of calls, the builder represents them.
-/

namespace BinderBinder

open Run

/-! ## Calls -/

/-- The methods of a builder. A handle is converted on the device as other threads leave it. -/
inductive BuilderCall
  | pushBytes (bytes : List UInt8)
  | pushBinderRef (dev : BinderDevice) (x : ToBinderObjectOrRef)
  | pushFd (fd : Fd) (cookie : Usize)
  | pushOwnedFd (fd : Fd) (cookie : Usize)
  | pushBuffer (bytes : Slice)
  | pushChildBuffer (bytes : Slice) (parent parentPtrOffset : Usize)
  | pushFdArray (numFds parent parentPtrOffset : Usize)
  | align (align : ℕ) (pos : 0 < align)

/-- The record of an object. -/
inductive ObjectRecord
  | flat (o : FlatBinderObject)
  | fd (o : BinderFdObject)
  | buffer (o : BinderBufferObject)
  | fdArray (o : BinderFdArrayObject)
  deriving DecidableEq, Repr

namespace ObjectRecord

/-- The bytes of a record. -/
def encode : ObjectRecord → List UInt8
  | flat o => FlatBinderObject.layout.encode o
  | fd o => BinderFdObject.layout.encode o
  | buffer o => BinderBufferObject.layout.encode o
  | fdArray o => BinderFdArrayObject.layout.encode o

/-- The size of a record. -/
def size : ObjectRecord → ℕ
  | flat _ => FlatBinderObject.layout.size
  | fd _ => BinderFdObject.layout.size
  | buffer _ => BinderBufferObject.layout.size
  | fdArray _ => BinderFdArrayObject.layout.size

/-- The header of a record. -/
def hdr : ObjectRecord → BinderObjectHeader
  | flat o => o.hdr
  | fd o => o.hdr
  | buffer o => o.hdr
  | fdArray o => o.hdr

/-- Reading the struct of the record at an offset gives all its fields. -/
def LiesAt (data : List UInt8) (off : ℕ) : ObjectRecord → Prop
  | flat o => FlatBinderObject.layout.readAt data off = some o
  | fd o => BinderFdObject.layout.readAt data off = some o
  | buffer o => BinderBufferObject.layout.readAt data off = some o
  | fdArray o => BinderFdArrayObject.layout.readAt data off = some o

/-- The bytes of a record are as many as its size. -/
@[simp] theorem length_encode (o : ObjectRecord) : o.encode.length = o.size := by
  cases o with
  | flat o => exact Layout.length_encode _ o
  | fd o => exact Layout.length_encode _ o
  | buffer o => exact Layout.length_encode _ o
  | fdArray o => exact Layout.length_encode _ o

/-- Every record has room for its header. -/
theorem header_le_size (o : ObjectRecord) : BinderObjectHeader.layout.size ≤ o.size := by
  cases o <;> simp [size]

/-- Where the bytes of a record lie, its struct can be read. -/
theorem liesAt_append (o : ObjectRecord) (before after : List UInt8) :
    o.LiesAt (before ++ (o.encode ++ after)) before.length := by
  cases o with
  | flat o => exact Layout.readAt_append _ before after o
  | fd o => exact Layout.readAt_append _ before after o
  | buffer o => exact Layout.readAt_append _ before after o
  | fdArray o => exact Layout.readAt_append _ before after o

/-- The header of a record is its first field. -/
theorem decode_hdr (o : ObjectRecord) (after : List UInt8) :
    BinderObjectHeader.layout.decode (o.encode ++ after) = o.hdr := by
  cases o with
  | flat o => exact FlatBinderObject.header_decode o after
  | fd o => exact BinderFdObject.header_decode o after
  | buffer o => exact BinderBufferObject.header_decode o after
  | fdArray o => exact BinderFdArrayObject.header_decode o after

/-- Where the bytes of a record lie, its header can be read. -/
theorem header_append (o : ObjectRecord) (before after : List UInt8) :
    BinderObjectHeader.layout.readAt (before ++ (o.encode ++ after)) before.length =
      some o.hdr := by
  have hsize := o.header_le_size
  have hfit : before.length + BinderObjectHeader.layout.size ≤
      (before ++ (o.encode ++ after)).length := by
    rw [List.length_append, List.length_append, length_encode]
    omega
  rw [Layout.readAt, if_pos hfit, List.drop_left, decode_hdr]

end ObjectRecord

namespace BuilderCall

/-- The object that a call pushes, with its fields as they were passed; `upper` is what the union of
a handle or a descriptor holds next to it. -/
def object (upper : UInt32) : BuilderCall → Option ObjectRecord
  | pushBytes _ => none
  | pushBinderRef _ x => some (.flat (x.handle.getFlatBinderObject upper))
  | pushFd d cookie => some (.fd (fdObject upper d cookie))
  | pushOwnedFd d cookie => some (.fd (fdObject upper d cookie))
  | pushBuffer bytes => some (.buffer (bufferObject bytes 0 0))
  | pushChildBuffer bytes parent parentPtrOffset =>
    some (.buffer (bufferObject bytes parent parentPtrOffset))
  | pushFdArray numFds parent parentPtrOffset =>
    some (.fdArray (fdArrayObject numFds parent parentPtrOffset))
  | align _ _ => none

/-- The call pushes an object. -/
def isObject (c : BuilderCall) : Bool := (c.object 0).isSome

/-- The bytes that a call pushes. -/
def pushed : BuilderCall → Option (List UInt8)
  | pushBytes bytes => some bytes
  | _ => none

section Run

-- what the unused half of a union holds, by the offset of its record
variable (undef : ℕ → UInt32)

/-- A call on a builder. -/
def run (b : PayloadBuilder) : BuilderCall → Option PayloadBuilder
  | pushBytes bytes => some (b.pushBytes bytes)
  | pushBinderRef dev x => (b.pushBinderRef undef dev x).map Prod.fst
  | pushFd fd cookie => some (b.pushFd undef fd cookie)
  | pushOwnedFd fd cookie => some (b.pushOwnedFd undef fd cookie)
  | pushBuffer bytes => some (b.pushBuffer bytes).2
  | pushChildBuffer bytes parent parentPtrOffset =>
    some (b.pushChildBuffer bytes parent parentPtrOffset).2
  | pushFdArray numFds parent parentPtrOffset =>
    some (b.pushFdArray numFds parent parentPtrOffset)
  | align a _ => some (b.align a)

/-- What a call appends to `n` bytes of data. -/
def segments (n : ℕ) : BuilderCall → List (Segment UInt8 ObjectRecord)
  | pushBytes bytes => [.plain bytes]
  | align a _ => [.plain (List.replicate (padding a n) 0)]
  | c => .plain (List.replicate (padding objectAlign n) 0) ::
      ((c.object (undef (n + padding objectAlign n))).map Segment.record).toList

end Run

end BuilderCall

/-! ## What a call appends -/

namespace BuilderCall

variable {undef : ℕ → UInt32} {b b' : PayloadBuilder} {c : BuilderCall}

/-- Whether a call pushes an object does not depend on what a union holds. -/
theorem isSome_object (upper : UInt32) (c : BuilderCall) :
    (c.object upper).isSome = c.isObject := by
  cases c <;> simp only [isObject, object, Option.isSome_some, Option.isSome_none]

/-- A call that pushes an object appends its padding and its record. -/
theorem segments_of_object {n : ℕ} {o : ObjectRecord}
    (h : c.object (undef (n + padding objectAlign n)) = some o) :
    c.segments undef n = [.plain (List.replicate (padding objectAlign n) 0), .record o] := by
  cases c with
  | pushBytes bytes => cases h
  | align a ha => cases h
  | _ =>
    cases h
    rfl

/-- A push of a record whose bytes are those of an object. -/
theorem pushRecord_object (undef : ℕ → UInt32) (b : PayloadBuilder) (record : ℕ → List UInt8)
    (object : UInt32 → ObjectRecord) (h : ∀ off, record off = (object (undef off)).encode) :
    let o := object (undef (b.data.length + padding objectAlign b.data.length))
    let segs : List (Segment UInt8 ObjectRecord) :=
      [.plain (List.replicate (padding objectAlign b.data.length) 0), .record o]
    (b.pushRecord record).data = b.data ++ Segment.flatten ObjectRecord.encode segs ∧
      (b.pushRecord record).objOffsets =
        b.objOffsets ++ (Segment.marks ObjectRecord.encode b.data.length segs).map Prod.fst := by
  intro o segs
  rw [PayloadBuilder.pushRecord_eq, h]
  constructor
  · simp [segs, o, Segment.flatten, Segment.items]
  · simp [segs, Segment.marks]

/-- A call appends its segments to the data, and the places of their records to the table. -/
theorem run_spec (h : c.run undef b = some b') :
    b'.data = b.data ++ Segment.flatten ObjectRecord.encode (c.segments undef b.data.length) ∧
      b'.objOffsets = b.objOffsets ++ (Segment.marks ObjectRecord.encode b.data.length
        (c.segments undef b.data.length)).map Prod.fst := by
  cases c with
  | pushBytes bytes =>
    cases h
    simp [PayloadBuilder.pushBytes, segments, Segment.flatten, Segment.items, Segment.marks]
  | align a ha =>
    cases h
    rw [PayloadBuilder.align_eq ha]
    simp [segments, Segment.flatten, Segment.items, Segment.marks]
  | pushBinderRef dev x =>
    obtain ⟨⟨b₁, dev₁⟩, hpush, rfl⟩ := Option.map_eq_some_iff.mp h
    obtain ⟨⟨port, dev₂⟩, hport, heq⟩ := Option.map_eq_some_iff.mp hpush
    cases heq
    rw [segments_of_object rfl]
    refine pushRecord_object undef b
      (fun off => FlatBinderObject.layout.encode (port.getFlatBinderObject (undef off)))
      (fun upper => .flat (x.handle.getFlatBinderObject upper)) fun off => ?_
    rw [ToBinderObjectOrRef.getFlatBinderObject_of_convert hport]
    rfl
  | pushFd d cookie =>
    cases h
    rw [segments_of_object rfl]
    exact pushRecord_object undef b _ (fun upper => .fd (fdObject upper d cookie))
      fun _ => rfl
  | pushOwnedFd d cookie =>
    cases h
    rw [segments_of_object rfl]
    exact pushRecord_object undef b _ (fun upper => .fd (fdObject upper d cookie))
      fun _ => rfl
  | pushBuffer bytes =>
    cases h
    rw [segments_of_object rfl]
    exact pushRecord_object undef b _ (fun _ => .buffer (bufferObject bytes 0 0)) fun _ => rfl
  | pushChildBuffer bytes parent parentPtrOffset =>
    cases h
    rw [segments_of_object rfl]
    exact pushRecord_object undef b _ (fun _ => .buffer (bufferObject bytes parent parentPtrOffset))
      fun _ => rfl
  | pushFdArray numFds parent parentPtrOffset =>
    cases h
    rw [segments_of_object rfl]
    exact pushRecord_object undef b _
      (fun _ => .fdArray (fdArrayObject numFds parent parentPtrOffset)) fun _ => rfl

end BuilderCall

/-! ## What a builder represents -/

/-- Byte strings, in order, with any number of zeros in front of, between and behind them. -/
inductive Padded : List (List UInt8) → List UInt8 → Prop
  | nil : Padded [] []
  | zeros {strings : List (List UInt8)} {out : List UInt8} (h : Padded strings out) (n : ℕ) :
    Padded strings (out ++ List.replicate n 0)
  | bytes {strings : List (List UInt8)} {out : List UInt8} (h : Padded strings out)
      (bs : List UInt8) : Padded (strings ++ [bs]) (out ++ bs)

/-- The builder holds what some calls pushed, with the objects at the places of a table: the offsets
increase and are aligned, the records lie in the data and do not overlap, at each offset lies the
record of the object that was pushed, and outside of the records lie the byte strings that were
pushed, with only zeros between them. -/
structure PayloadBuilder.Represents (calls : List BuilderCall) (table : List (ℕ × ObjectRecord))
    (b : PayloadBuilder) : Prop where
  offsets : b.objOffsets = table.map Prod.fst
  objects : List.Forall₂ (fun c o => ∃ upper, c.object upper = some o)
    (calls.filter BuilderCall.isObject) (table.map Prod.snd)
  increasing : b.objOffsets.Pairwise (· < ·)
  aligned : ∀ off ∈ b.objOffsets, objectAlign ∣ off
  disjoint : table.Pairwise fun m m' => m.1 + m.2.size ≤ m'.1
  inside : ∀ m ∈ table, m.1 + m.2.size ≤ b.data.length
  header : ∀ m ∈ table, BinderObjectHeader.layout.readAt b.data m.1 = some m.2.hdr
  fields : ∀ m ∈ table, m.2.LiesAt b.data m.1
  outside : Padded (calls.filterMap BuilderCall.pushed)
    (Segment.outside 0 (table.map fun m => (m.1, m.2.size)) b.data)

namespace BuilderCall

variable {undef : ℕ → UInt32}

/-- The builder is made up of some segments: the records are aligned and those of the calls, and the
rest is the byte strings of the calls and zeros. -/
structure BuiltOf (calls : List BuilderCall) (segs : List (Segment UInt8 ObjectRecord))
    (b : PayloadBuilder) : Prop where
  data : b.data = Segment.flatten ObjectRecord.encode segs
  offsets : b.objOffsets = (Segment.marks ObjectRecord.encode 0 segs).map Prod.fst
  aligned : ∀ off ∈ b.objOffsets, objectAlign ∣ off
  objects : List.Forall₂ (fun c o => ∃ upper, c.object upper = some o)
    (calls.filter isObject) (Segment.records segs)
  plains : Padded (calls.filterMap pushed) (Segment.plains segs)

/-- A new builder is made up of nothing. -/
theorem builtOf_new : BuiltOf [] [] PayloadBuilder.new where
  data := rfl
  offsets := rfl
  aligned _ h := by cases h
  objects := .nil
  plains := .nil

/-- The offset behind the padding is aligned. -/
theorem dvd_add_padding (n : ℕ) : objectAlign ∣ n + padding objectAlign n := by
  have hlt : n % 8 < 8 := Nat.mod_lt n (by decide)
  have hsum : n = 8 * (n / 8) + n % 8 := (Nat.div_add_mod n 8).symm
  show 8 ∣ n + (8 - n % 8) % 8
  omega

section Step

variable {calls : List BuilderCall} {segs : List (Segment UInt8 ObjectRecord)}
  {b b' : PayloadBuilder} {c : BuilderCall}

/-- The records behind those of a builder. -/
theorem BuiltOf.marks_append (hb : BuiltOf calls segs b) (next : List (Segment UInt8 ObjectRecord)) :
    Segment.marks ObjectRecord.encode 0 (segs ++ next) =
      Segment.marks ObjectRecord.encode 0 segs ++
        Segment.marks ObjectRecord.encode b.data.length next := by
  rw [Segment.marks_append, Nat.zero_add, ← hb.data]

/-- An object comes behind its padding, at an aligned offset. -/
theorem BuiltOf.push (hb : BuiltOf calls segs b) (h : c.run undef b = some b') {o : ObjectRecord}
    (hobj : c.object (undef (b.data.length + padding objectAlign b.data.length)) = some o) :
    BuiltOf (calls ++ [c]) (segs ++ c.segments undef b.data.length) b' := by
  obtain ⟨hdata, hoffsets⟩ := run_spec h
  have hisObject : c.isObject = true := by
    rw [← isSome_object (undef (b.data.length + padding objectAlign b.data.length)), hobj]
    rfl
  have hpushed : c.pushed = none := by cases c <;> first | rfl | cases hobj
  have hsegs := segments_of_object hobj
  refine ⟨?_, ?_, ?_, ?_, ?_⟩
  · rw [hdata, Segment.flatten_append, hb.data]
  · rw [hoffsets, hb.marks_append, List.map_append, hb.offsets]
  · rw [hoffsets, hsegs]
    intro off hoff
    rcases List.mem_append.mp hoff with hoff | hoff
    · exact hb.aligned off hoff
    · simp only [Segment.marks, List.length_replicate, List.map_cons, List.map_nil,
        List.mem_singleton] at hoff
      rw [hoff]
      exact dvd_add_padding _
  · rw [hsegs, Segment.records_append, List.filter_append]
    refine List.rel_append hb.objects ?_
    simp only [List.filter_cons, hisObject, if_true, List.filter_nil, Segment.records]
    exact .cons ⟨_, hobj⟩ .nil
  · rw [hsegs, Segment.plains_append, List.filterMap_append]
    simp only [List.filterMap_cons, hpushed, List.filterMap_nil, List.append_nil, Segment.plains]
    exact hb.plains.zeros _

/-- The other calls add no record; what they add to the rest is their bytes, or zeros. -/
theorem BuiltOf.other (hb : BuiltOf calls segs b) (h : c.run undef b = some b')
    (hobj : c.object (undef (b.data.length + padding objectAlign b.data.length)) = none) :
    BuiltOf (calls ++ [c]) (segs ++ c.segments undef b.data.length) b' := by
  obtain ⟨hdata, hoffsets⟩ := run_spec h
  have hisObject : c.isObject = false := by
    rw [← isSome_object (undef (b.data.length + padding objectAlign b.data.length)), hobj]
    rfl
  have hrecords : Segment.records (c.segments undef b.data.length) = [] ∧
      Segment.marks ObjectRecord.encode b.data.length (c.segments undef b.data.length) = [] := by
    cases c <;> first | exact ⟨rfl, rfl⟩ | cases hobj
  rw [hrecords.2, List.map_nil, List.append_nil] at hoffsets
  refine ⟨?_, ?_, ?_, ?_, ?_⟩
  · rw [hdata, Segment.flatten_append, hb.data]
  · rw [hoffsets, hb.marks_append, hrecords.2, List.append_nil, hb.offsets]
  · rw [hoffsets]
    exact hb.aligned
  · rw [Segment.records_append, hrecords.1, List.filter_append]
    simp only [List.filter_cons, hisObject, Bool.false_eq_true, if_false, List.filter_nil,
      List.append_nil]
    exact hb.objects
  · rw [Segment.plains_append, List.filterMap_append]
    cases c <;> simp only [object, reduceCtorEq] at hobj <;>
      simp only [segments, Segment.plains, pushed, List.filterMap_cons, List.filterMap_nil,
        List.append_nil]
    · exact hb.plains.bytes _
    · exact hb.plains.zeros _

/-- A call appends its segments to those of a builder. -/
theorem BuiltOf.step (hb : BuiltOf calls segs b) (h : c.run undef b = some b') :
    BuiltOf (calls ++ [c]) (segs ++ c.segments undef b.data.length) b' := by
  cases hobj : c.object (undef (b.data.length + padding objectAlign b.data.length)) with
  | some o => exact hb.push h hobj
  | none => exact hb.other h hobj

end Step

/-- A builder that is made up of the segments of some calls represents these calls. -/
theorem BuiltOf.represents {calls : List BuilderCall} {segs : List (Segment UInt8 ObjectRecord)}
    {b : PayloadBuilder} (hb : BuiltOf calls segs b) :
    b.Represents calls (Segment.marks ObjectRecord.encode 0 segs) := by
  have hdisjoint := Segment.pairwise_marks ObjectRecord.encode 0 segs
  simp only [ObjectRecord.length_encode] at hdisjoint
  have hlies : ∀ m ∈ Segment.marks ObjectRecord.encode 0 segs,
      ∃ before after, b.data = before ++ (m.2.encode ++ after) ∧ before.length = m.1 := by
    intro m hm
    rw [hb.data]
    exact Segment.exists_of_mem_marks ObjectRecord.encode [] hm
  refine ⟨hb.offsets, ?_, ?_, hb.aligned, hdisjoint, fun m hm => ?_, fun m hm => ?_,
    fun m hm => ?_, ?_⟩
  · rw [Segment.map_snd_marks]
    exact hb.objects
  · rw [hb.offsets, List.pairwise_map]
    refine hdisjoint.imp fun {m m'} hle => ?_
    have hpos := m.2.header_le_size
    rw [BinderObjectHeader.layout_size] at hpos
    omega
  · have hbound := (Segment.bounds_of_mem_marks ObjectRecord.encode hm).2
    rw [ObjectRecord.length_encode, Nat.zero_add, ← hb.data] at hbound
    exact hbound
  · obtain ⟨before, after, hdata, hlen⟩ := hlies m hm
    rw [hdata, ← hlen]
    exact m.2.header_append before after
  · obtain ⟨before, after, hdata, hlen⟩ := hlies m hm
    rw [hdata, ← hlen]
    exact m.2.liesAt_append before after
  · have houtside := Segment.outside_marks ObjectRecord.encode 0 segs
    simp only [ObjectRecord.length_encode] at houtside
    rw [hb.data, houtside]
    exact hb.plains

/-- After a run of calls, a builder is made up of segments of all the calls on it. -/
theorem BuiltOf.of_exec {calls cs : List BuilderCall} {segs : List (Segment UInt8 ObjectRecord)}
    {b b' : PayloadBuilder} (hb : BuiltOf calls segs b)
    (h : exec (fun b c => c.run undef b) b cs = some b') :
    ∃ segs', BuiltOf (calls ++ cs) segs' b' := by
  induction cs generalizing calls segs b with
  | nil =>
    cases h
    rw [List.append_nil]
    exact ⟨segs, hb⟩
  | cons c cs ih =>
    obtain ⟨b₁, hb₁, hrest⟩ := exec_cons_eq_some.mp h
    obtain ⟨segs', hsegs'⟩ := ih (hb.step hb₁) hrest
    rw [List.append_assoc] at hsegs'
    exact ⟨segs', hsegs'⟩

/-- Later calls do not alter what a builder holds. -/
theorem prefix_of_exec {b b' : PayloadBuilder} {cs : List BuilderCall}
    (h : exec (fun b c => c.run undef b) b cs = some b') :
    b.data <+: b'.data ∧ b.objOffsets <+: b'.objOffsets := by
  refine exec_invariant (I := fun b' => b.data <+: b'.data ∧ b.objOffsets <+: b'.objOffsets) ?_
    ⟨List.prefix_rfl, List.prefix_rfl⟩ h
  rintro b₁ c b₂ ⟨hdata, hoffsets⟩ hstep
  obtain ⟨hdata', hoffsets'⟩ := run_spec hstep
  rw [hdata', hoffsets']
  exact ⟨hdata.trans (List.prefix_append _ _), hoffsets.trans (List.prefix_append _ _)⟩

end BuilderCall

/-- **What a builder holds.** After every sequence of calls the builder represents them, and calls
that come later alter nothing of what was there. -/
theorem PayloadBuilder.represents_of_exec {undef : ℕ → UInt32} {calls : List BuilderCall}
    {b : PayloadBuilder} (h : exec (fun b c => c.run undef b) PayloadBuilder.new calls = some b) :
    (∃ table, b.Represents calls table) ∧
      ∀ before after mid, calls = before ++ after →
        exec (fun b c => c.run undef b) PayloadBuilder.new before = some mid →
        mid.data <+: b.data ∧ mid.objOffsets <+: b.objOffsets := by
  constructor
  · obtain ⟨segs, hsegs⟩ := BuilderCall.builtOf_new.of_exec h
    exact ⟨_, hsegs.represents⟩
  · rintro before after mid rfl hmid
    obtain ⟨mid', hmid', hrest⟩ := exec_append_eq_some.mp h
    rw [hmid] at hmid'
    cases hmid'
    exact BuilderCall.prefix_of_exec hrest

/-- Bytes, an owned descriptor, a buffer with a child and an alignment. -/
def sampleCalls : List BuilderCall :=
  [.pushBytes [1, 2, 3], .pushOwnedFd ⟨3, by decide⟩ 7, .align 16 (by decide),
    .pushBuffer ⟨4096, 8⟩, .pushChildBuffer ⟨8192, 4⟩ 32 0, .pushBytes [9],
    .pushFdArray 2 32 0]

/-- What the builder holds after these calls. -/
theorem PayloadBuilder.represents_sampleCalls :
    ∃ b, exec (fun b c => c.run (fun _ => 0) b) PayloadBuilder.new sampleCalls = some b ∧
      ∃ table, b.Represents sampleCalls table := by
  obtain ⟨b, hb⟩ : ∃ b,
      exec (fun b c => c.run (fun _ => 0) b) PayloadBuilder.new sampleCalls = some b := ⟨_, rfl⟩
  exact ⟨b, hb, (represents_of_exec hb).1⟩

end BinderBinder
