import BinderBinder.Payload.Descriptors
import BinderBinder.Lib.Run

set_option relaxedAutoImplicit false
set_option autoImplicit false

/-!
# The two cursors of a reader

Reads of bytes and reads of objects move their own cursors, in any order. `read_bytes` looks only at
offsets strictly behind its cursor, so an object that starts at the cursor, or around it, does not
stop it; and its checks add the length to the cursor without a check of their own.

## Main definitions

* `PayloadReader.table`, `PayloadReader.recordSize` — the object table, and the size of a record.
* `Reading`, `Reading.step` — a reader with the bytes it gave out, and a call of it.
* `PayloadReader.InBounds`, `PayloadReader.Separate` — the records fit, and do not overlap.
* `PayloadReader.Sound` — the cursors are in range, and what the calls do there.
* `PayloadReader.ExactAt`, `PayloadReader.ReadsClear` — what `read_bytes` is to do, and when it does.

## Main results

* `PayloadReader.sound_of_exec` — the cursors stay in range, and failed calls change nothing.
* `PayloadReader.exactAt_iff` — when `read_bytes` does what it is to do.
* `PayloadReader.readBytes_exact_iff` — the same in every reachable state, and for whole runs.
-/

namespace BinderBinder

open Run

/-! ## Records -/

/-- The size of the record of an object. -/
def BinderObjectType.recordSize : BinderObjectType → ℕ
  | .fdArray => BinderFdArrayObject.layout.size
  | .buffer => BinderBufferObject.layout.size
  | .fd => BinderFdObject.layout.size
  | _ => FlatBinderObject.layout.size

namespace PayloadReader

/-- The object table; without a pointer to one it is empty. -/
def table (r : PayloadReader) : List ℕ := (r.offsets.map PayloadReaderBuffer.items).getD []

/-- The size of the record at an offset; of a type that the crate does not know, only the header
counts. -/
def recordSize (r : PayloadReader) (off : ℕ) : ℕ :=
  match r.typeAt off with
  | some ty => ty.recordSize
  | none => BinderObjectHeader.layout.size

/-- The records of the table fit in the data. -/
def InBounds (r : PayloadReader) : Prop :=
  ∀ off ∈ r.table, off + r.recordSize off ≤ r.data.items.length

/-- The table is sorted, and its records do not overlap. -/
def Separate (r : PayloadReader) : Prop :=
  r.table.Pairwise fun a b => a + r.recordSize a ≤ b

/-- No record is empty. -/
theorem recordSize_pos (r : PayloadReader) (off : ℕ) : 4 ≤ r.recordSize off := by
  unfold recordSize
  split
  · next ty _ => cases ty <;> decide
  · exact Nat.le_refl 4

/-- The next offset is the one of the table at the object index. -/
theorem nextOffset_eq (r : PayloadReader) : r.nextOffset = r.table[r.nextOffsetIndex]? := by
  unfold nextOffset table
  cases r.offsets <;> simp

/-- The offset behind the cursor is the first of the table that is. -/
theorem offsetBehindCursor_eq (r : PayloadReader) :
    r.offsetBehindCursor = r.table.find? fun off => r.nextDataIndex < off := by
  unfold offsetBehindCursor table
  cases r.offsets <;> simp

/-- The next offset is in the table. -/
theorem mem_table_of_nextOffset {r : PayloadReader} {off : ℕ} (h : r.nextOffset = some off) :
    off ∈ r.table := by
  rw [nextOffset_eq] at h
  exact List.mem_of_getElem? h

/-! ## Runs of calls -/

/-- A reader, and the ranges of bytes it gave out: where each starts and how long it is, in order. -/
structure Reading where
  reader : PayloadReader
  given : List (ℕ × ℕ)

/-- The range that a call gives out: that of a successful read of bytes. -/
def givesOut (r : PayloadReader) : ReaderCall → Option (ℕ × ℕ)
  | .readBytes numBytes =>
    match r.readBytes numBytes with
    | some (.ok _, _) => some (r.nextDataIndex, numBytes)
    | _ => none
  | _ => none

/-- A call of the reader. -/
def Reading.step (kernel : KernelWrite) (s : Reading) (c : ReaderCall) : Option Reading :=
  some ⟨(s.reader.call kernel c).1, s.given ++ (s.reader.givesOut c).toList⟩

/-- A reader that was not read from. -/
structure Fresh (r : PayloadReader) : Prop where
  index : r.nextOffsetIndex = 0
  cursor : r.nextDataIndex = 0

/-! ## What a call does to the cursors -/

/-- An object that is read as a handle has a record of that size. -/
theorem recordSize_of_readBinderRef {kernel : KernelWrite} {dev dev' : BinderDevice}
    {r r' : PayloadReader} {off : ℕ} {x : BinderObjectOrRef} (hoff : r.nextOffset = some off)
    (h : r.readBinderRef kernel dev = some (.ok x, r', dev')) : r.recordSize off = objectSize := by
  simp only [readBinderRef, hoff] at h
  obtain ⟨header, hheader, h⟩ := Option.bind_eq_some_iff.mp h
  have htype : ∀ ty : BinderObjectType, BinderType.ofU32 header.type_ = some ty.binderType →
      r.typeAt off = some ty := by
    intro ty hty
    rw [typeAt, hheader, Option.bind_some]
    exact BinderObjectType.ofHeader_eq_some.mpr hty
  split at h
  · next hty => rw [recordSize, htype .binderObject hty]; rfl
  · next hty => rw [recordSize, htype .binderRef hty]; rfl
  · next hty => rw [recordSize, htype .weakBinderObject hty]; rfl
  · next hty => rw [recordSize, htype .weakBinderRef hty]; rfl
  · cases h

/-- An object that is read as a descriptor has a record of that size. -/
theorem recordSize_of_readFd {r r' : PayloadReader} {off : ℕ} {p : Fd × Usize}
    (hoff : r.nextOffset = some off) (h : r.readFd = some (.ok p, r')) :
    r.recordSize off = objectSize := by
  have hfd := fdAt_of_readFd hoff h
  unfold fdAt at hfd
  split_ifs at hfd with hty
  rw [recordSize, hty]
  rfl

/-- What a call does to a reader, with the range it gives out: nothing, a move over bytes, or a move
behind the record of the next object. -/
inductive Moved (r : PayloadReader) : PayloadReader → Option (ℕ × ℕ) → Prop
  | stays : Moved r r none
  | bytes {n : ℕ} {v : List UInt8} {r' : PayloadReader} (h : r.readBytes n = some (.ok v, r')) :
    Moved r { r with nextDataIndex := r.nextDataIndex + n } (some (r.nextDataIndex, n))
  | object {off : ℕ} (hoff : r.nextOffset = some off) (hsize : r.recordSize off = objectSize) :
    Moved r { r with
      nextOffsetIndex := r.nextOffsetIndex + 1
      nextDataIndex := off + objectSize } none

/-- Every call does one of these. -/
theorem Moved.of_call (kernel : KernelWrite) (r : PayloadReader) (c : ReaderCall) :
    Moved r (r.call kernel c).1 (r.givesOut c) := by
  cases c with
  | readBytes n =>
    cases hread : r.readBytes n with
    | none =>
      simp only [call, givesOut, hread]
      exact .stays
    | some p =>
      obtain ⟨res, r'⟩ := p
      simp only [call, givesOut, hread]
      cases res with
      | ok v =>
        obtain ⟨-, -, -, rfl⟩ := readBytes_ok hread
        exact .bytes hread
      | error e =>
        obtain rfl := readBytes_error hread
        exact .stays
  | readBinderRef dev =>
    cases hread : r.readBinderRef kernel dev with
    | none =>
      simp only [call, givesOut, hread]
      exact .stays
    | some p =>
      obtain ⟨res, r', dev'⟩ := p
      simp only [call, givesOut, hread]
      have hspec := (readBinderRef_spec hread).2
      cases res with
      | ok x =>
        obtain ⟨off, hoff, rfl⟩ := hspec
        exact .object hoff (recordSize_of_readBinderRef hoff hread)
      | error e =>
        obtain rfl : r' = r := hspec
        exact .stays
  | readFd =>
    cases hread : r.readFd with
    | none =>
      simp only [call, givesOut, hread]
      exact .stays
    | some p =>
      obtain ⟨res, r'⟩ := p
      cases res with
      | ok q =>
        simp only [call, givesOut, hread]
        obtain ⟨off, hoff, rfl⟩ := readFd_ok hread
        exact .object hoff (recordSize_of_readFd hoff hread)
      | error e =>
        simp only [call, givesOut, hread]
        obtain rfl := readFd_error hread
        exact .stays

/-- The payload of a reader stays the same. -/
theorem Moved.payload {r r' : PayloadReader} {given : Option (ℕ × ℕ)} (h : Moved r r' given) :
    r'.data = r.data ∧ r'.table = r.table ∧ r'.recordSize = r.recordSize := by
  cases h <;> exact ⟨rfl, rfl, rfl⟩

/-! ## The cursors stay in range -/

/-- The cursors are in range, and so are the records. -/
structure InRange (r : PayloadReader) : Prop where
  cursor : r.nextDataIndex ≤ r.data.items.length
  index : r.nextOffsetIndex ≤ r.table.length
  inBounds : r.InBounds

/-- The cursors of a reader that was not read from are in range. -/
theorem InRange.of_fresh {r : PayloadReader} (hr : r.Fresh) (hbounds : r.InBounds) : r.InRange where
  cursor := hr.cursor ▸ Nat.zero_le _
  index := hr.index ▸ Nat.zero_le _
  inBounds := hbounds

/-- Every call keeps the cursors in range. -/
theorem InRange.of_moved {r r' : PayloadReader} {given : Option (ℕ × ℕ)} (hr : r.InRange)
    (h : Moved r r' given) : r'.InRange := by
  cases h with
  | stays => exact hr
  | bytes h =>
    obtain ⟨-, -, hfit, -⟩ := readBytes_ok h
    exact ⟨hfit, hr.index, hr.inBounds⟩
  | @object off hoff hsize =>
    have hfit := hr.inBounds off (mem_table_of_nextOffset hoff)
    rw [hsize] at hfit
    rw [nextOffset_eq] at hoff
    obtain ⟨hlt, -⟩ := List.getElem?_eq_some_iff.mp hoff
    exact ⟨hfit, hlt, hr.inBounds⟩

/-- A header fits in front of every record, so it can be read. -/
theorem InRange.exists_header {r : PayloadReader} (hr : r.InRange) {off : ℕ}
    (hoff : r.nextOffset = some off) :
    ∃ header, BinderObjectHeader.layout.readAt r.data.items off = some header := by
  have hfit := hr.inBounds off (mem_table_of_nextOffset hoff)
  have hsize := r.recordSize_pos off
  refine ⟨_, if_pos ?_⟩
  rw [BinderObjectHeader.layout_size]
  omega

/-- A record whose header announces a type with records of the size of a flat object can be read as
one, and as a descriptor. -/
theorem InRange.exists_record {r : PayloadReader} (hr : r.InRange) {off : ℕ}
    (hoff : r.nextOffset = some off) {header : BinderObjectHeader}
    (hheader : BinderObjectHeader.layout.readAt r.data.items off = some header)
    {ty : BinderObjectType} (hty : BinderType.ofU32 header.type_ = some ty.binderType)
    (hsize : ty.recordSize = objectSize) :
    (∃ flat, FlatBinderObject.layout.readAt r.data.items off = some flat) ∧
      ∃ obj, BinderFdObject.layout.readAt r.data.items off = some obj := by
  have hfit := hr.inBounds off (mem_table_of_nextOffset hoff)
  have htype : r.typeAt off = some ty := by
    rw [typeAt, hheader, Option.bind_some]
    exact BinderObjectType.ofHeader_eq_some.mpr hty
  rw [recordSize, htype] at hfit
  have hfit : off + 24 ≤ r.data.items.length := by
    rw [← show objectSize = 24 from rfl, ← hsize]
    exact hfit
  exact ⟨⟨_, if_pos hfit⟩, _, if_pos hfit⟩

/-- What holds of a reader at any point of a run: the cursors are in range, so no slice is out of
range and nothing underflows; a read panics only where a record that it has read cannot be decoded,
or where the end of a range is no `usize`; failed reads change nothing, and successful reads of an
object move the object index by one; the bytes that can be read are those up to the next object. -/
structure Sound (kernel : KernelWrite) (r : PayloadReader) : Prop where
  cursor : r.nextDataIndex ≤ r.data.items.length
  index : r.nextOffsetIndex ≤ r.table.length
  nextObjectType : r.nextObjectType.isSome
  bytesUntilNextObj : r.bytesUntilNextObj.isSome
  readBytes : ∀ n, r.readBytes n = none → usizeSize ≤ r.nextDataIndex + n
  readBinderRef : ∀ dev, r.readBinderRef kernel dev = none → ∃ off flat,
    r.nextOffset = some off ∧ FlatBinderObject.layout.readAt r.data.items off = some flat ∧
      decodeFlat kernel dev flat = none
  readFd : r.readFd = none → ∃ off obj,
    r.nextOffset = some off ∧ BinderFdObject.layout.readAt r.data.items off = some obj ∧
      Fd.ofRaw obj.data.fd = none
  readBytes_error : ∀ n e r', r.readBytes n = some (.error e, r') → r' = r
  readBinderRef_error : ∀ dev e r' dev',
    r.readBinderRef kernel dev = some (.error e, r', dev') → r' = r
  readFd_error : ∀ e r', r.readFd = some (.error e, r') → r' = r
  readBinderRef_ok : ∀ dev x r' dev', r.readBinderRef kernel dev = some (.ok x, r', dev') →
    r'.nextOffsetIndex = r.nextOffsetIndex + 1
  readFd_ok : ∀ p r', r.readFd = some (.ok p, r') → r'.nextOffsetIndex = r.nextOffsetIndex + 1
  readBytes_iff : ∀ k, r.nextDataIndex + k < usizeSize →
    ((∃ v r', r.readBytes k = some (.ok v, r')) ↔ ∃ m ∈ r.bytesUntilNextObj, k ≤ m)

/-- The distance to the next object, where the cursors are in range: to the first offset behind the
cursor, or to the end. -/
theorem InRange.bytesUntilNextObj_eq {r : PayloadReader} (hr : r.InRange) :
    r.bytesUntilNextObj =
      some (r.offsetBehindCursor.getD r.data.items.length - r.nextDataIndex) := by
  refine checkedSub_eq_some.mpr ⟨?_, rfl⟩
  cases hoff : r.offsetBehindCursor with
  | none => exact hr.cursor
  | some off =>
    rw [offsetBehindCursor_eq] at hoff
    have hbehind := List.find?_some hoff
    rw [decide_eq_true_eq] at hbehind
    exact Nat.le_of_lt hbehind

/-- What a read of bytes does, if the end of the range is a `usize`. -/
theorem readBytes_of_lt {r : PayloadReader} {n : ℕ} (h : r.nextDataIndex + n < usizeSize) :
    r.readBytes n =
      some (if ∃ off ∈ r.offsetBehindCursor, off < r.nextDataIndex + n then
          (.error .readingIntoObject, r)
        else if r.nextDataIndex + n ≤ r.data.items.length then
          (.ok ((r.data.items.drop r.nextDataIndex).take n),
            { r with nextDataIndex := r.nextDataIndex + n })
        else (.error .outOfBounds, r)) := by
  rw [PayloadReader.readBytes, usizeAdd, if_pos h, Option.map_some]

/-- Bytes can be read up to the next object.

**Proof sketch.** Both scans of the table find the same offset. If there is one, its record fits in
the data, so a range that ends in front of it does too; if there is none, both look at the end. -/
theorem InRange.readBytes_iff {r : PayloadReader} (hr : r.InRange) {k : ℕ}
    (hk : r.nextDataIndex + k < usizeSize) :
    (∃ v r', r.readBytes k = some (.ok v, r')) ↔ ∃ m ∈ r.bytesUntilNextObj, k ≤ m := by
  have hcursor := hr.cursor
  rw [hr.bytesUntilNextObj_eq, readBytes_of_lt hk]
  simp only [Option.mem_def, Option.some.injEq, exists_eq_left']
  cases hoff : r.offsetBehindCursor with
  | none =>
    simp only [reduceCtorEq, false_and, exists_false, if_false, Option.getD_none]
    split_ifs with hfit
    · exact ⟨fun _ => by omega, fun _ => ⟨_, _, rfl⟩⟩
    · refine ⟨?_, fun hle => absurd hle (by omega)⟩
      rintro ⟨v, r', h⟩
      cases h
  | some off =>
    simp only [Option.some.injEq, exists_eq_left', Option.getD_some]
    rw [offsetBehindCursor_eq] at hoff
    have hfit := hr.inBounds off (List.mem_of_find?_eq_some hoff)
    have hbehind := List.find?_some hoff
    rw [decide_eq_true_eq] at hbehind
    split_ifs with hobj hend
    · refine ⟨?_, fun hle => absurd hle (by omega)⟩
      rintro ⟨v, r', h⟩
      cases h
    · exact ⟨fun _ => by omega, fun _ => ⟨_, _, rfl⟩⟩
    · exact absurd (show r.nextDataIndex + k ≤ r.data.items.length by omega) hend

/-- A read of a handle panics only where a record that it has read cannot be decoded. -/
theorem InRange.readBinderRef_eq_none {kernel : KernelWrite} {dev : BinderDevice}
    {r : PayloadReader} (hr : r.InRange) (h : r.readBinderRef kernel dev = none) :
    ∃ off flat, r.nextOffset = some off ∧
      FlatBinderObject.layout.readAt r.data.items off = some flat ∧
      decodeFlat kernel dev flat = none := by
  cases hoff : r.nextOffset with
  | none => simp only [PayloadReader.readBinderRef, hoff] at h; cases h
  | some off =>
    obtain ⟨header, hheader⟩ := hr.exists_header hoff
    simp only [PayloadReader.readBinderRef, hoff, hheader, Option.bind_eq_bind,
      Option.bind_some] at h
    have hflat : ∀ ty : BinderObjectType, BinderType.ofU32 header.type_ = some ty.binderType →
        ty.recordSize = objectSize →
        ∃ flat, FlatBinderObject.layout.readAt r.data.items off = some flat :=
      fun ty hty hsize => (hr.exists_record hoff hheader hty hsize).1
    split at h
    case h_5 => cases h
    all_goals
      next hty =>
      obtain ⟨flat, hread⟩ := by
        first
        | exact hflat .binderObject hty rfl
        | exact hflat .binderRef hty rfl
        | exact hflat .weakBinderObject hty rfl
        | exact hflat .weakBinderRef hty rfl
      refine ⟨off, flat, rfl, hread, ?_⟩
      rw [hread, Option.bind_some] at h
      cases hdecode : decodeFlat kernel dev flat with
      | none => rfl
      | some p =>
        obtain ⟨res, dev'⟩ := p
        rw [hdecode] at h
        cases res <;> cases h

/-- A read of a descriptor panics only where the record that it has read holds none. -/
theorem InRange.readFd_eq_none {r : PayloadReader} (hr : r.InRange) (h : r.readFd = none) :
    ∃ off obj, r.nextOffset = some off ∧
      BinderFdObject.layout.readAt r.data.items off = some obj ∧ Fd.ofRaw obj.data.fd = none := by
  cases hoff : r.nextOffset with
  | none => simp only [PayloadReader.readFd, hoff] at h; cases h
  | some off =>
    obtain ⟨header, hheader⟩ := hr.exists_header hoff
    simp only [PayloadReader.readFd, hoff, hheader, Option.bind_eq_bind, Option.bind_some] at h
    split at h
    · next hty =>
      have hfd : BinderType.ofU32 _ = some BinderObjectType.fd.binderType := hty
      obtain ⟨obj, hread⟩ := (hr.exists_record hoff hheader hfd rfl).2
      refine ⟨off, obj, rfl, hread, ?_⟩
      rw [hread, Option.bind_some] at h
      cases hraw : Fd.ofRaw obj.data.fd with
      | none => rfl
      | some fd => rw [hraw] at h; cases h
    · cases h

/-- Where the cursors are in range, the calls do what is said of them. -/
theorem InRange.sound {r : PayloadReader} (hr : r.InRange) (kernel : KernelWrite) :
    r.Sound kernel where
  cursor := hr.cursor
  index := hr.index
  nextObjectType := by
    unfold PayloadReader.nextObjectType
    cases hoff : r.nextOffset with
    | none => rfl
    | some off =>
      obtain ⟨header, hheader⟩ := hr.exists_header hoff
      simp only [hheader, Option.map_some, Option.isSome_some]
  bytesUntilNextObj := by rw [hr.bytesUntilNextObj_eq, Option.isSome_some]
  readBytes n h := by
    rw [PayloadReader.readBytes, Option.map_eq_none_iff, usizeAdd] at h
    split_ifs at h with hfit
    exact Nat.le_of_not_lt hfit
  readBinderRef _ h := hr.readBinderRef_eq_none h
  readFd h := hr.readFd_eq_none h
  readBytes_error _ _ _ h := PayloadReader.readBytes_error h
  readBinderRef_error _ _ _ _ h := (readBinderRef_spec h).2
  readFd_error _ _ h := PayloadReader.readFd_error h
  readBinderRef_ok _ _ _ _ h := by
    obtain ⟨off, -, rfl⟩ := (readBinderRef_spec h).2
    rfl
  readFd_ok _ _ h := by
    obtain ⟨off, -, rfl⟩ := PayloadReader.readFd_ok h
    rfl
  readBytes_iff _ hk := hr.readBytes_iff hk

/-- Every call of a run keeps the cursors in range. -/
theorem InRange.of_exec {kernel : KernelWrite} {r : PayloadReader} (hr : r.InRange)
    {given : List (ℕ × ℕ)} {cs : List ReaderCall} {s : Reading}
    (h : exec (Reading.step kernel) ⟨r, given⟩ cs = some s) : s.reader.InRange := by
  refine exec_invariant (I := fun s : Reading => s.reader.InRange) ?_ hr h
  intro s c s' hs hstep
  cases hstep
  exact hs.of_moved (.of_call kernel s.reader c)

/-- **The cursors of a reader.** On every payload whose records fit in the data, whatever their
types, after every sequence of reads and whatever the registry is at each, both cursors are in range
and the calls do what `Sound` says. -/
theorem sound_of_exec (kernel : KernelWrite) {r : PayloadReader} (hr : r.Fresh)
    (hbounds : r.InBounds) {cs : List ReaderCall} {s : Reading}
    (h : exec (Reading.step kernel) ⟨r, []⟩ cs = some s) : s.reader.Sound kernel :=
  ((InRange.of_fresh hr hbounds).of_exec h).sound kernel

/-! ## Reads of bytes and the objects around them -/

/-- A byte lies in the record at an offset. -/
def InRecord (r : PayloadReader) (off i : ℕ) : Prop := off ≤ i ∧ i < off + r.recordSize off

/-- The `n` bytes behind the cursor lie in the data and in no record of an unread object. -/
def Clear (r : PayloadReader) (n : ℕ) : Prop :=
  r.nextDataIndex + n ≤ r.data.items.length ∧
    ∀ off ∈ r.unread, ∀ i, r.nextDataIndex ≤ i → i < r.nextDataIndex + n → ¬ r.InRecord off i

/-- What a read of `n` bytes is to do: give out the bytes behind the cursor if they are clear, and
else return an error and change nothing. -/
def ExactAt (r : PayloadReader) (n : ℕ) : Prop :=
  (r.Clear n → r.readBytes n = some (.ok ((r.data.items.drop r.nextDataIndex).take n),
    { r with nextDataIndex := r.nextDataIndex + n })) ∧
  (¬ r.Clear n → ∃ e, r.readBytes n = some (.error e, r))

/-- A read of `n` bytes for which the checks of `read_bytes` are enough: the end of its range is a
`usize`, and the byte at the cursor is not asked for, or lies in no unread object, or the range runs
into a later object or over the end. -/
def ReadsClear (r : PayloadReader) (n : ℕ) : Prop :=
  r.nextDataIndex + n < usizeSize ∧
    (n = 0 ∨ (∀ off ∈ r.unread, ¬ r.InRecord off r.nextDataIndex) ∨
      (∃ off ∈ r.table, r.nextDataIndex < off ∧ off < r.nextDataIndex + n) ∨
      r.data.items.length < r.nextDataIndex + n)

/-- The objects that were read lie in front of the byte cursor. -/
def ReadBehind (r : PayloadReader) : Prop :=
  ∀ off ∈ r.table.take r.nextOffsetIndex, off + r.recordSize off ≤ r.nextDataIndex

/-- In a sorted table the first offset behind the cursor is in front of `stop` if any is. -/
theorem exists_offsetBehindCursor_lt_iff {r : PayloadReader} (hsep : r.Separate) (stop : ℕ) :
    (∃ off ∈ r.offsetBehindCursor, off < stop) ↔
      ∃ off ∈ r.table, r.nextDataIndex < off ∧ off < stop := by
  rw [offsetBehindCursor_eq]
  have hsorted : r.table.Pairwise (· ≤ ·) :=
    List.Pairwise.imp (fun h => Nat.le_trans (Nat.le_add_right _ _) h) hsep
  generalize r.table = table at hsorted
  induction table with
  | nil => simp
  | cons a table ih =>
    obtain ⟨hfirst, hrest⟩ := List.pairwise_cons.mp hsorted
    rw [List.find?_cons]
    by_cases hbehind : r.nextDataIndex < a
    · simp only [hbehind, decide_true, Option.mem_def, Option.some.injEq, exists_eq_left',
        List.mem_cons]
      constructor
      · exact fun hlt => ⟨a, Or.inl rfl, hbehind, hlt⟩
      · rintro ⟨off, rfl | hoff, -, hlt⟩
        · exact hlt
        · exact Nat.lt_of_le_of_lt (hfirst off hoff) hlt
    · simp only [hbehind, decide_false, ih hrest, List.mem_cons]
      constructor
      · rintro ⟨off, hoff, hlt⟩
        exact ⟨off, Or.inr hoff, hlt⟩
      · rintro ⟨off, rfl | hoff, hlt⟩
        · exact absurd hlt.1 hbehind
        · exact ⟨off, hoff, hlt⟩

/-- Objects behind the cursor are unread. -/
theorem ReadBehind.mem_unread {r : PayloadReader} (hr : r.ReadBehind) {off : ℕ}
    (hoff : off ∈ r.table) (hbehind : r.nextDataIndex < off) : off ∈ r.unread := by
  rw [← List.take_append_drop r.nextOffsetIndex r.table, List.mem_append] at hoff
  rcases hoff with hread | hunread
  · have := hr off hread
    omega
  · exact hunread

/-- A range in which an offset strictly lies is not clear. -/
theorem ReadBehind.not_clear {r : PayloadReader} (hr : r.ReadBehind) {n off : ℕ}
    (hoff : off ∈ r.table) (hbehind : r.nextDataIndex < off)
    (hlt : off < r.nextDataIndex + n) : ¬ r.Clear n := by
  intro hclear
  have hpos := r.recordSize_pos off
  exact hclear.2 off (hr.mem_unread hoff hbehind) off (Nat.le_of_lt hbehind) hlt
    ⟨Nat.le_refl _, by omega⟩

/-- A range in the data that ends in front of every later object is clear if it is empty, or if the
byte at the cursor lies in no unread object. -/
theorem clear_iff {r : PayloadReader} {n : ℕ} (hfit : r.nextDataIndex + n ≤ r.data.items.length)
    (hlater : ¬ ∃ off ∈ r.table, r.nextDataIndex < off ∧ off < r.nextDataIndex + n) :
    r.Clear n ↔ n = 0 ∨ ∀ off ∈ r.unread, ¬ r.InRecord off r.nextDataIndex := by
  constructor
  · intro h
    by_cases hn : n = 0
    · exact Or.inl hn
    · exact Or.inr fun off hoff => h.2 off hoff _ (Nat.le_refl _) (by omega)
  · intro h
    refine ⟨hfit, fun off hoff i hi hlt hmem => ?_⟩
    have hle := hmem.1
    have hend := hmem.2
    rcases h with rfl | h
    · omega
    · refine h off hoff ⟨?_, by omega⟩
      by_contra hbehind
      exact hlater ⟨off, List.mem_of_mem_drop hoff, by omega, by omega⟩

/-- `read_bytes` does what it is to do exactly where its checks are enough.

**Proof sketch.** If an offset lies strictly in the range, the read is refused, and the object there
is unread, as those that were read lie in front of the cursor. If none does, an unread object that
the range meets contains the byte at the cursor, and is not seen. -/
theorem exactAt_iff {r : PayloadReader} (hsep : r.Separate) (hr : r.ReadBehind) (n : ℕ) :
    r.ExactAt n ↔ r.ReadsClear n := by
  by_cases hstop : r.nextDataIndex + n < usizeSize
  swap
  · have hnone : r.readBytes n = none := by
      rw [PayloadReader.readBytes, usizeAdd, if_neg hstop]
      rfl
    refine ⟨fun h => ?_, fun h => absurd h.1 hstop⟩
    rw [ExactAt, hnone] at h
    by_cases hclear : r.Clear n
    · cases h.1 hclear
    · obtain ⟨e, he⟩ := h.2 hclear
      cases he
  have hscan := exists_offsetBehindCursor_lt_iff hsep (r.nextDataIndex + n)
  rw [ExactAt, readBytes_of_lt hstop, ReadsClear]
  by_cases hseen : ∃ off ∈ r.offsetBehindCursor, off < r.nextDataIndex + n
  · obtain ⟨off, hoff, hbehind, hlt⟩ := hscan.mp hseen
    have hclear := hr.not_clear hoff hbehind hlt
    rw [if_pos hseen]
    exact ⟨fun _ => ⟨hstop, Or.inr (Or.inr (Or.inl ⟨off, hoff, hbehind, hlt⟩))⟩,
      fun _ => ⟨fun h => absurd h hclear, fun _ => ⟨_, rfl⟩⟩⟩
  · have hlater := mt hscan.mpr hseen
    rw [if_neg hseen]
    by_cases hfit : r.nextDataIndex + n ≤ r.data.items.length
    · rw [if_pos hfit, clear_iff hfit hlater]
      constructor
      · intro h
        refine ⟨hstop, ?_⟩
        by_cases hmet : n = 0 ∨ ∀ off ∈ r.unread, ¬ r.InRecord off r.nextDataIndex
        · exact hmet.imp_right Or.inl
        · obtain ⟨e, he⟩ := h.2 hmet
          cases he
      · rintro ⟨-, h⟩
        refine ⟨fun _ => rfl, fun hmet => absurd ?_ hmet⟩
        rcases h with hn | h | h | h
        · exact Or.inl hn
        · exact Or.inr h
        · exact absurd h hlater
        · omega
    · have hclear : ¬ r.Clear n := fun h => hfit h.1
      rw [if_neg hfit]
      exact ⟨fun _ => ⟨hstop, Or.inr (Or.inr (Or.inr (by omega)))⟩,
        fun _ => ⟨fun h => absurd h hclear, fun _ => ⟨_, rfl⟩⟩⟩

/-- The objects that were read stay in front of the byte cursor. -/
theorem ReadBehind.of_moved {r r' : PayloadReader} {given : Option (ℕ × ℕ)} (hsep : r.Separate)
    (hr : r.ReadBehind) (h : Moved r r' given) : r'.ReadBehind := by
  cases h with
  | stays => exact hr
  | bytes h => exact fun off hoff => Nat.le_trans (hr off hoff) (Nat.le_add_right _ _)
  | @object off hoff hsize =>
    intro off' hoff'
    rw [nextOffset_eq] at hoff
    obtain ⟨hlt, hget⟩ := List.getElem?_eq_some_iff.mp hoff
    have htake : off' ∈ r.table.take (r.nextOffsetIndex + 1) := hoff'
    rw [List.take_succ_eq_append_getElem hlt, List.mem_append, List.mem_singleton, hget] at htake
    show off' + r.recordSize off' ≤ off + objectSize
    rcases htake with hread | rfl
    · obtain ⟨i, hi, hget'⟩ := List.mem_take_iff_getElem.mp hread
      have hbefore := List.pairwise_iff_getElem.mp hsep i r.nextOffsetIndex (by omega) hlt (by omega)
      rw [hget', hget] at hbefore
      omega
    · exact Nat.le_of_eq (congrArg _ hsize)

/-! ## Runs whose reads of bytes are clear -/

/-- A call that is no read of bytes, or one for which the checks of `read_bytes` are enough. -/
def Reading.Clear (s : Reading) : ReaderCall → Prop
  | .readBytes n => s.reader.ReadsClear n
  | _ => True

/-- How far a run got: no unread object lies in front of the byte cursor, and the ranges that were
given out lie in front of it, one behind the other. -/
structure Forward (s : Reading) : Prop where
  inRange : s.reader.InRange
  separate : s.reader.Separate
  readBehind : s.reader.ReadBehind
  ahead : ∀ off ∈ s.reader.unread, s.reader.nextDataIndex ≤ off
  ordered : s.given.Pairwise fun a b => a.1 + a.2 ≤ b.1
  behind : ∀ a ∈ s.given, a.1 + a.2 ≤ s.reader.nextDataIndex

/-- Behind the next object come the other unread ones. -/
theorem ahead_of_object {r : PayloadReader} (hsep : r.Separate) {off : ℕ}
    (hoff : r.nextOffset = some off) (hsize : r.recordSize off = objectSize) :
    ∀ off' ∈ r.table.drop (r.nextOffsetIndex + 1), off + objectSize ≤ off' := by
  intro off' hoff'
  let next : PayloadReader := { r with nextOffsetIndex := r.nextOffsetIndex + 1 }
  have hnext : r.unread = off :: next.unread := unread_eq_cons hoff rfl rfl
  have hunread : r.unread = off :: r.table.drop (r.nextOffsetIndex + 1) := hnext
  have hrest : r.unread.Pairwise fun a b => a + r.recordSize a ≤ b :=
    hsep.sublist (List.drop_sublist _ _)
  rw [hunread] at hrest
  rw [← hsize]
  exact (List.pairwise_cons.mp hrest).1 off' hoff'

/-- Clear bytes are given out behind those that were, and in front of the unread objects. -/
theorem Forward.of_bytes {s : Reading} (hs : Forward s) {n : ℕ} (hclear : s.reader.Clear n) :
    Forward ⟨{ s.reader with nextDataIndex := s.reader.nextDataIndex + n },
      s.given ++ [(s.reader.nextDataIndex, n)]⟩ where
  inRange := ⟨hclear.1, hs.inRange.index, hs.inRange.inBounds⟩
  separate := hs.separate
  readBehind off hoff := Nat.le_trans (hs.readBehind off hoff) (Nat.le_add_right _ _)
  ahead off hoff := by
    have hge := hs.ahead off hoff
    have hpos := s.reader.recordSize_pos off
    by_contra hlt
    exact hclear.2 off hoff off hge (Nat.lt_of_not_le hlt) ⟨Nat.le_refl _, by omega⟩
  ordered := by
    refine List.pairwise_append.mpr ⟨hs.ordered, List.pairwise_singleton _ _, fun a ha b hb => ?_⟩
    rw [List.mem_singleton.mp hb]
    exact hs.behind a ha
  behind a ha := by
    rcases List.mem_append.mp ha with ha | ha
    · exact Nat.le_trans (hs.behind a ha) (Nat.le_add_right _ _)
    · rw [List.mem_singleton.mp ha]

/-- Only a read of bytes gives them out. -/
theorem eq_readBytes_of_givesOut {r : PayloadReader} {c : ReaderCall} {i n : ℕ}
    (h : r.givesOut c = some (i, n)) : c = .readBytes n := by
  cases c with
  | readBytes m =>
    simp only [givesOut] at h
    split at h
    · cases h
      rfl
    · cases h
  | readBinderRef dev => cases h
  | readFd => cases h

/-- A clear call keeps this, and does not move the byte cursor backwards.

**Step.** Bytes that are given out meet no unread object, and none lies in front of them, so they
end in front of all; behind an object that is read lie the bytes and objects that come after it. -/
theorem Forward.step {kernel : KernelWrite} {s s' : Reading} {c : ReaderCall} (hs : Forward s)
    (hc : s.Clear c) (h : s.step kernel c = some s') :
    Forward s' ∧ s.reader.nextDataIndex ≤ s'.reader.nextDataIndex := by
  cases h
  have hmoved := Moved.of_call kernel s.reader c
  generalize hr' : (s.reader.call kernel c).1 = r' at hmoved
  generalize hgiven : s.reader.givesOut c = given at hmoved
  cases hmoved with
  | stays =>
    rw [Option.toList_none, List.append_nil]
    exact ⟨hs, Nat.le_refl _⟩
  | @bytes n v r'' hread =>
    obtain rfl := eq_readBytes_of_givesOut hgiven
    refine ⟨hs.of_bytes ?_, Nat.le_add_right _ _⟩
    by_contra hno
    obtain ⟨e, he⟩ := ((exactAt_iff hs.separate hs.readBehind n).mpr hc).2 hno
    rw [hread] at he
    cases he
  | @object off hoff hsize =>
    have hmoved : Moved s.reader _ none := .object hoff hsize
    have hle : s.reader.nextDataIndex ≤ off + objectSize := by
      have hmem : off ∈ s.reader.unread := by
        rw [nextOffset_eq_head?] at hoff
        exact List.mem_of_head? hoff
      exact Nat.le_trans (hs.ahead off hmem) (Nat.le_add_right _ _)
    rw [Option.toList_none, List.append_nil]
    exact ⟨⟨hs.inRange.of_moved hmoved, hs.separate, hs.readBehind.of_moved hs.separate hmoved,
      ahead_of_object hs.separate hoff hsize, hs.ordered,
      fun a ha => Nat.le_trans (hs.behind a ha) hle⟩, hle⟩

/-- A reader that was not read from has not moved. -/
theorem Forward.of_fresh {r : PayloadReader} (hr : r.Fresh) (hbounds : r.InBounds)
    (hsep : r.Separate) : Forward ⟨r, []⟩ where
  inRange := .of_fresh hr hbounds
  separate := hsep
  readBehind off hoff := by
    rw [hr.index, List.take_zero] at hoff
    cases hoff
  ahead off _ := by
    show r.nextDataIndex ≤ off
    rw [hr.cursor]
    exact Nat.zero_le off
  ordered := List.Pairwise.nil
  behind a ha := by cases ha

/-- A run of clear calls moves the byte cursor only forwards. -/
theorem Forward.of_exec {kernel : KernelWrite} {s t : Reading} {cs : List ReaderCall}
    (hs : Forward s) (hclear : Along (Reading.step kernel) Reading.Clear s cs)
    (h : exec (Reading.step kernel) s cs = some t) :
    Forward t ∧ s.reader.nextDataIndex ≤ t.reader.nextDataIndex := by
  refine exec_invariant_along (C := Reading.Clear)
    (I := fun t => Forward t ∧ s.reader.nextDataIndex ≤ t.reader.nextDataIndex) ?_
    ⟨hs, Nat.le_refl _⟩ hclear h
  rintro t c t' ⟨ht, hle⟩ hc hstep
  obtain ⟨ht', hmove⟩ := ht.step hc hstep
  exact ⟨ht', Nat.le_trans hle hmove⟩

/-- **Reads of bytes.** On every payload with a sorted object table whose records fit in the data
and do not overlap, in every state that reads lead to, `read_bytes` of every length gives out the
bytes behind the cursor if they lie in the data and in no unread object, and else returns an error
and changes nothing, if and only if its checks are enough for them. In a run in which they are enough
for every read of bytes, the byte cursor never moves backwards and no byte is given out twice. -/
theorem readBytes_exact_iff (kernel : KernelWrite) {r : PayloadReader} (hr : r.Fresh)
    (hbounds : r.InBounds) (hsep : r.Separate) {cs : List ReaderCall} {s : Reading}
    (h : exec (Reading.step kernel) ⟨r, []⟩ cs = some s) :
    (∀ n, s.reader.ExactAt n ↔ s.reader.ReadsClear n) ∧
    (Along (Reading.step kernel) Reading.Clear ⟨r, []⟩ cs →
      (s.given.Pairwise fun a b => a.1 + a.2 ≤ b.1) ∧
      ∀ before after mid, cs = before ++ after →
        exec (Reading.step kernel) ⟨r, []⟩ before = some mid →
        mid.reader.nextDataIndex ≤ s.reader.nextDataIndex) := by
  have hstart := Forward.of_fresh hr hbounds hsep
  constructor
  · have hstate : s.reader.Separate ∧ s.reader.ReadBehind := by
      refine exec_invariant (I := fun s : Reading => s.reader.Separate ∧ s.reader.ReadBehind) ?_
        ⟨hsep, hstart.readBehind⟩ h
      rintro s c s' ⟨hsep, hbehind⟩ hstep
      cases hstep
      have hmoved := Moved.of_call kernel s.reader c
      refine ⟨?_, hbehind.of_moved hsep hmoved⟩
      obtain ⟨-, htable, hsize⟩ := hmoved.payload
      show (s.reader.call kernel c).1.Separate
      rw [Separate, htable, hsize]
      exact hsep
    exact fun n => exactAt_iff hstate.1 hstate.2 n
  · intro hclear
    refine ⟨(hstart.of_exec hclear h).1.ordered, ?_⟩
    rintro before after mid rfl hmid
    obtain ⟨hbefore, hafter⟩ := along_append_iff.mp hclear
    obtain ⟨mid', hmid', hrest⟩ := exec_append_eq_some.mp h
    rw [hmid] at hmid'
    cases hmid'
    exact ((hstart.of_exec hbefore hmid).1.of_exec (hafter mid hmid) hrest).2

/-! ## A descriptor at the cursor -/

/-- 3 is a descriptor. -/
theorem three_ne_invalidFd : (3 : RawFd) ≠ invalidFd := by decide

/-- A payload that begins with a descriptor, with eight bytes behind it. -/
def fdAtStart : PayloadReader where
  device := 0
  data := .owned (BinderFdObject.layout.encode (fdObject 0 ⟨3, three_ne_invalidFd⟩ 0) ++
    List.replicate 8 0)
  offsets := some (.owned [0])
  binderObjects := []
  nextOffsetIndex := 0
  nextDataIndex := 0

/-- Its record fits in the data, and there is no other. -/
theorem fdAtStart_wellFormed : fdAtStart.Fresh ∧ fdAtStart.InBounds ∧ fdAtStart.Separate := by
  refine ⟨⟨rfl, rfl⟩, fun off hoff => ?_, List.pairwise_singleton _ _⟩
  obtain rfl := List.mem_singleton.mp hoff
  decide

/-- Its record is given out as bytes, and again are the bytes behind it, once the byte cursor has
been moved back by the read of the descriptor; and a length that is too large for a `usize` sum is
no error but an overflow. -/
theorem bytes_given_twice_fdAtStart : fdAtStart.Fresh ∧ fdAtStart.InBounds ∧ fdAtStart.Separate ∧
    ¬ fdAtStart.ExactAt 32 ∧
    ∃ s, exec (Reading.step fun _ _ => none) ⟨fdAtStart, []⟩
        [.readBytes 32, .readFd, .readBytes 8] = some s ∧
      s.given = [(0, 32), (24, 8)] ∧ s.reader.readBytes (usizeSize - 1) = none := by
  obtain ⟨hfresh, hbounds, hsep⟩ := fdAtStart_wellFormed
  refine ⟨hfresh, hbounds, hsep, fun hexact => ?_, _, rfl, by decide, by decide⟩
  have hclear : ¬ fdAtStart.Clear 32 := fun h =>
    h.2 0 (List.mem_singleton.mpr rfl) 0 (Nat.le_refl _) (by decide) ⟨Nat.le_refl _, by decide⟩
  obtain ⟨e, he⟩ := hexact.2 hclear
  have hok : (fdAtStart.readBytes 32).any (fun p => p.1.toBool) = true := by decide
  rw [he] at hok
  cases hok

/-- Behind the descriptor, the bytes can be read. -/
theorem readBytes_exact_fdAtStart : ∃ s, exec (Reading.step fun _ _ => none) ⟨fdAtStart, []⟩
      [.readFd, .readBytes 8] = some s ∧
    (∀ n, s.reader.ExactAt n ↔ s.reader.ReadsClear n) ∧
    s.given.Pairwise fun a b => a.1 + a.2 ≤ b.1 := by
  obtain ⟨hfresh, hbounds, hsep⟩ := fdAtStart_wellFormed
  obtain ⟨s, hs⟩ : ∃ s, exec (Reading.step fun _ _ => none) ⟨fdAtStart, []⟩
    [.readFd, .readBytes 8] = some s := ⟨_, rfl⟩
  obtain ⟨hexact, hrun⟩ := readBytes_exact_iff (fun _ _ => none) hfresh hbounds hsep hs
  refine ⟨s, hs, hexact, (hrun ⟨trivial, fun s₁ hs₁ => ⟨?_, fun _ _ => trivial⟩⟩).1⟩
  cases hs₁
  exact ⟨by decide, Or.inr (Or.inl fun off hoff => by cases hoff)⟩

/-- Between two reads of it, the cursors are in range. -/
theorem sound_fdAtStart : ∃ s, exec (Reading.step fun _ _ => none) ⟨fdAtStart, []⟩
    [.readBytes 32, .readFd, .readBytes 9] = some s ∧ s.reader.Sound fun _ _ => none := by
  obtain ⟨hfresh, hbounds, -⟩ := fdAtStart_wellFormed
  obtain ⟨s, hs⟩ : ∃ s, exec (Reading.step fun _ _ => none) ⟨fdAtStart, []⟩
    [.readBytes 32, .readFd, .readBytes 9] = some s := ⟨_, rfl⟩
  exact ⟨s, hs, sound_of_exec (fun _ _ => none) hfresh hbounds hs⟩

end PayloadReader

end BinderBinder
