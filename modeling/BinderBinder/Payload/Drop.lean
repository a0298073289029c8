import Mathlib.Tactic.FinCases
import BinderBinder.Commands
import BinderBinder.Payload.Reader

set_option relaxedAutoImplicit false
set_option autoImplicit false

/-!
# Dropping a reader

`Drop for PayloadReader`: a loop that reads every object that was not read, so that what it stands
for is given back, and then `FREE_BUFFER` for a payload of the kernel. Descriptor arrays and
buffers are not read: the loop looks at the first of them for ever.

## Main definitions

* `DropMet`, `PayloadReader.dropRound`, `PayloadReader.dropLoop` — the loop, by rounds.
* `PayloadReader.drop` — the loop and the release of the buffer.
* `PayloadReader.Drains` — the drop finishes, with every unread object visited once.

## Main results

* `PayloadReader.Round.of_some`, `PayloadReader.exists_round` — what a round does.
* `PayloadReader.Drained.of_drainable` — the loop drains objects that it can step over.
* `PayloadReader.drains_iff` — the drop drains exactly the payloads without unread descriptor arrays
  and buffers, as long as the objects found can be counted.
-/

namespace BinderBinder

/-! ## The loop -/

/-- What a round of the loop meets: the device as other threads leave it, and whether the handle that
is read and dropped is the last one of its `Arc`s. -/
structure DropMet where
  found : BinderDevice
  lastRef : Bool
  lastWeak : Bool

/-- The state of the loop: the reader, the objects that its rounds looked at, the commands it wrote
and the descriptors it closed, each in order. -/
structure DropState where
  reader : PayloadReader
  visited : List ℕ
  sent : List Command
  closed : List Fd

/-- How far the drop is: it is through, a round panicked, or it is still going on. -/
inductive DropResult
  | finished (s : DropState)
  | panicked
  | running (s : DropState)

/-- The code of an object type. -/
def BinderObjectType.binderType : BinderObjectType → BinderType
  | .binderObject => .binder
  | .weakBinderObject => .weakBinder
  | .binderRef => .handle
  | .weakBinderRef => .weakHandle
  | .fd => .fd
  | .fdArray => .fda
  | .buffer => .ptr

/-- A header announces an object type if it holds its code. -/
theorem BinderObjectType.ofHeader_eq_some {header : BinderObjectHeader} {ty : BinderObjectType} :
    ofHeader header = some ty ↔ BinderType.ofU32 header.type_ = some ty.binderType := by
  unfold ofHeader
  split <;> cases ty <;> simp_all [binderType]

/-- The object type is one that the loop does not step over. -/
def BinderObjectType.stays : BinderObjectType → Bool
  | .fdArray | .buffer => true
  | _ => false

/-- `PayloadReaderBuffer::free`: the commands it writes. -/
def PayloadReaderBuffer.free {α : Type} : PayloadReaderBuffer α → List Command
  | owned _ => []
  | kernelBorrowed ptr _ => [.freeBuffer ptr]

/-- `PayloadReaderBuffer::free`; a refusal is unwrapped. -/
def PayloadReaderBuffer.freeOn {α : Type} (kernel : KernelWrite) (dev : BinderDevice)
    (buffer : PayloadReaderBuffer α) : Option BinderDevice :=
  buffer.free.foldlM (fun dev cmd => dev.writeCommand kernel cmd) dev

namespace PayloadReader

/-- The offsets of the objects that were not read. -/
def unread (r : PayloadReader) : List ℕ :=
  ((r.offsets.map PayloadReaderBuffer.items).getD []).drop r.nextOffsetIndex

/-- The type of the object at an offset. -/
def typeAt (r : PayloadReader) (off : ℕ) : Option BinderObjectType :=
  (BinderObjectHeader.layout.readAt r.data.items off).bind BinderObjectType.ofHeader

/-- The descriptor at an offset, if the object there is one. -/
def fdAt (r : PayloadReader) (off : ℕ) : Option Fd :=
  if r.typeAt off = some .fd then
    (BinderFdObject.layout.readAt r.data.items off).bind fun obj => Fd.ofRaw obj.data.fd
  else none

/-- The id in the record at an offset. -/
def idAt (r : PayloadReader) (off : ℕ) : Option BinderObjectId :=
  (FlatBinderObject.layout.readAt r.data.items off).map fun flat =>
    BinderObjectId.fromRaw flat.data.binder flat.cookie

/-- The object at an offset is one of the seven types and lies in the data, and a descriptor is not
`-1`. -/
structure Intact (r : PayloadReader) (off : ℕ) : Prop where
  fits : off + objectSize ≤ r.data.items.length
  type : ∃ ty, r.typeAt off = some ty
  fd : r.typeAt off = some .fd → (r.fdAt off).isSome

/-- A strong object that is found at an offset can be counted once more. -/
def HasRoom (r : PayloadReader) (dev : BinderDevice) (off : ℕ) : Prop :=
  r.typeAt off = some .binderObject → ∀ id, r.idAt off = some id →
    (dev.objects id).isSome → dev.CanCount id

/-- The loop can step over the object at an offset: it is neither a descriptor array nor a buffer,
and if a strong object is found there, its count has room. -/
structure Drainable (r : PayloadReader) (m : DropMet) (off : ℕ) : Prop where
  moves : ∀ ty, r.typeAt off = some ty → ty.stays = false
  room : r.HasRoom m.found off

section Loop

variable (kernel : KernelWrite)

/-- One round of the loop, with the device that it leaves; `some none` leaves the loop, `none` is a
panic. -/
def dropRound (m : DropMet) (s : DropState) : Option (Option (DropState × BinderDevice)) :=
  let visited := s.visited ++ [s.reader.nextOffsetIndex]
  match s.reader.nextObjectType with
  | none => none
  | some none => some none
  | some (some .fdArray) | some (some .buffer) => some (some ({ s with visited }, m.found))
  | some (some .fd) => s.reader.readFd.map fun (res, reader) =>
      -- the descriptor that was read is closed at once
      let fds := match res with
        | .ok (fd, _) => [fd]
        | .error _ => []
      some ({ s with reader, visited, closed := s.closed ++ fds }, m.found)
  | some (some _) => do
    let (res, reader, dev) ← s.reader.readBinderRef kernel m.found
    match res with
    | .ok v =>
      let dev ← v.dropArc kernel dev m.lastRef m.lastWeak
      return some ({ s with
        reader, visited, sent := s.sent ++ dev.written.drop m.found.written.length }, dev)
    | .error _ =>
      return some ({ s with
        reader := { reader with nextOffsetIndex := reader.nextOffsetIndex + 1 }
        visited, sent := s.sent ++ dev.written.drop m.found.written.length }, dev)

-- what the rounds meet
variable (env : ℕ → DropMet)

/-- The loop for at most `fuel` rounds. -/
def dropLoop : ℕ → DropState → DropResult
  | 0, s => .running s
  | fuel + 1, s =>
    match dropRound kernel (env s.visited.length) s with
    | none => .panicked
    | some none => .finished s
    | some (some (s', _)) => dropLoop fuel s'

/-- `Drop for PayloadReader`, with at most `fuel` rounds of its loop. -/
def drop (fuel : ℕ) (r : PayloadReader) : DropResult :=
  match dropLoop kernel env fuel ⟨r, [], [], []⟩ with
  | .finished s =>
    match s.reader.data.freeOn kernel (env s.visited.length).found with
    | some _ => .finished { s with sent := s.sent ++ s.reader.data.free }
    | none => .panicked
  | res => res

/-- The drop finishes. Its loop looks at each unread object once, in order, and writes no
`FREE_BUFFER`; then a payload of the kernel is freed once, and an owned one is not. -/
def Drains (r : PayloadReader) : Prop :=
  ∃ fuel s before, drop kernel env fuel r = .finished s ∧
    s.visited = List.range' r.nextOffsetIndex r.unread.length ∧
    s.sent = before ++ r.data.free ∧ ∀ c ∈ before, c.isFreeBuffer = false

end Loop

end PayloadReader

/-! ## The next object -/

/-- Decoding an object frees no buffer. -/
theorem BinderDevice.FreesNone.of_decodeFlat {kernel : KernelWrite} {dev dev' : BinderDevice}
    {flat : FlatBinderObject} {res : Except PayloadBinderRefReadError BinderObjectOrRef}
    (h : PayloadReader.decodeFlat kernel dev flat = some (res, dev')) : dev.FreesNone dev' := by
  unfold PayloadReader.decodeFlat at h
  split at h
  · obtain ⟨⟨o, dev₁⟩, ho, heq⟩ := Option.map_eq_some_iff.mp h
    cases o <;> cases heq <;> exact of_fromId ho
  · cases h
    exact of_written rfl
  · obtain ⟨⟨r, dev₁⟩, hr, heq⟩ := Option.map_eq_some_iff.mp h
    cases heq
    exact of_ref hr
  · obtain ⟨⟨r, dev₁⟩, hr, heq⟩ := Option.map_eq_some_iff.mp h
    cases heq
    exact of_weakRef hr
  · cases h

namespace PayloadReader

/-- The next offset is the first of those not read. -/
theorem nextOffset_eq_head? (r : PayloadReader) : r.nextOffset = r.unread.head? := by
  unfold nextOffset unread
  cases r.offsets with
  | none => simp
  | some v => simp [List.head?_drop]

/-- Over the next object, one offset fewer is not read. -/
theorem unread_eq_cons {r r' : PayloadReader} {off : ℕ} (hoff : r.nextOffset = some off)
    (hsame : r'.offsets = r.offsets) (hindex : r'.nextOffsetIndex = r.nextOffsetIndex + 1) :
    r.unread = off :: r'.unread := by
  rw [nextOffset_eq_head?] at hoff
  obtain ⟨rest, hrest⟩ := List.head?_eq_some_iff.mp hoff
  have htail : r'.unread = r.unread.tail := by
    rw [unread, unread, hsame, hindex, List.tail_drop]
  rw [htail, hrest, List.tail_cons]

/-- The type of the next object is that at the next offset. -/
theorem exists_typeAt {r : PayloadReader} {ty : BinderObjectType}
    (h : r.nextObjectType = some (some ty)) :
    ∃ off, r.nextOffset = some off ∧ r.typeAt off = some ty := by
  unfold nextObjectType at h
  cases hoff : r.nextOffset with
  | none => rw [hoff] at h; cases h
  | some off =>
    rw [hoff] at h
    obtain ⟨header, hheader, hty⟩ := Option.map_eq_some_iff.mp h
    exact ⟨off, rfl, Option.bind_eq_some_iff.mpr ⟨header, hheader, hty⟩⟩

/-- The type at the next offset is that of the next object. -/
theorem nextObjectType_of_typeAt {r : PayloadReader} {off : ℕ} {ty : BinderObjectType}
    (hoff : r.nextOffset = some off) (hty : r.typeAt off = some ty) :
    r.nextObjectType = some (some ty) := by
  obtain ⟨header, hheader, hty⟩ := Option.bind_eq_some_iff.mp hty
  simp only [nextObjectType, hoff, hheader, Option.map_some, hty]

/-- Records that lie in the data can be read, and begin with their header. -/
theorem exists_flat {r : PayloadReader} {off : ℕ} (h : off + objectSize ≤ r.data.items.length) :
    ∃ flat, FlatBinderObject.layout.readAt r.data.items off = some flat ∧
      BinderObjectHeader.layout.readAt r.data.items off = some flat.hdr := by
  have hheader : off + BinderObjectHeader.layout.size ≤ r.data.items.length := by
    rw [BinderObjectHeader.layout_size]
    rw [objectSize] at h
    omega
  refine ⟨FlatBinderObject.layout.decode (r.data.items.drop off), if_pos h, ?_⟩
  rw [Layout.readAt, if_pos hheader]
  rfl

/-- What `read_binder_ref` does to the reader, and what it writes. -/
theorem readBinderRef_spec {kernel : KernelWrite} {dev dev' : BinderDevice} {r r' : PayloadReader}
    {res : Except PayloadBinderRefReadError BinderObjectOrRef}
    (h : r.readBinderRef kernel dev = some (res, r', dev')) :
    dev.FreesNone dev' ∧ match res with
      | .ok _ => ∃ off, r.nextOffset = some off ∧ r' = { r with
          nextOffsetIndex := r.nextOffsetIndex + 1
          nextDataIndex := off + objectSize }
      | .error _ => r' = r := by
  unfold readBinderRef at h
  cases hoff : r.nextOffset with
  | none =>
    rw [hoff] at h
    cases h
    exact ⟨.of_written rfl, rfl⟩
  | some off =>
    rw [hoff] at h
    obtain ⟨header, -, h⟩ := Option.bind_eq_some_iff.mp h
    split at h
    case h_5 =>
      cases h
      exact ⟨.of_written rfl, rfl⟩
    all_goals
      obtain ⟨flat, -, h⟩ := Option.bind_eq_some_iff.mp h
      obtain ⟨⟨res', dev₁⟩, hdecode, h⟩ := Option.bind_eq_some_iff.mp h
      cases res' with
      | ok x =>
        cases h
        exact ⟨.of_decodeFlat hdecode, off, rfl, rfl⟩
      | error e =>
        cases h
        exact ⟨.of_decodeFlat hdecode, rfl⟩

/-- At a descriptor, `read_fd` gives that descriptor. -/
theorem readFd_of_fd {r r' : PayloadReader} {off : ℕ}
    {res : Except PayloadObjectReadError (Fd × Usize)} (hoff : r.nextOffset = some off)
    (hty : r.typeAt off = some .fd) (h : r.readFd = some (res, r')) :
    ∃ fd cookie, res = .ok (fd, cookie) ∧ r.fdAt off = some fd ∧ r' = { r with
      nextOffsetIndex := r.nextOffsetIndex + 1
      nextDataIndex := off + objectSize } := by
  obtain ⟨header, hheader, hfd⟩ := Option.bind_eq_some_iff.mp hty
  simp only [readFd, hoff, hheader, Option.bind_eq_bind, Option.bind_some,
    BinderObjectType.ofHeader_eq_some.mp hfd, BinderObjectType.binderType] at h
  obtain ⟨obj, hobj, h⟩ := Option.bind_eq_some_iff.mp h
  obtain ⟨fd, hraw, h⟩ := Option.bind_eq_some_iff.mp h
  cases h
  refine ⟨fd, obj.cookie, rfl, ?_, rfl⟩
  rw [fdAt, if_pos hty, hobj, Option.bind_some, hraw]

/-- Only a descriptor is one. -/
theorem fdAt_of_ne {r : PayloadReader} {off : ℕ} (h : r.typeAt off ≠ some .fd) :
    r.fdAt off = none := if_neg h

/-! ## What a round does -/

/-- What a round of the loop does at an object of the type `ty`: the reader moves over it unless it
is one of the two types that are not read; a descriptor is closed, and no buffer is freed. -/
structure Round (s s' : DropState) (off : ℕ) (ty : BinderObjectType) : Prop where
  next : s.reader.nextOffset = some off
  type : s.reader.typeAt off = some ty
  visited : s'.visited = s.visited ++ [s.reader.nextOffsetIndex]
  data : s'.reader.data = s.reader.data
  offsets : s'.reader.offsets = s.reader.offsets
  index : s'.reader.nextOffsetIndex = if ty.stays = true then s.reader.nextOffsetIndex
    else s.reader.nextOffsetIndex + 1
  sent : ∃ cs, s'.sent = s.sent ++ cs ∧ ∀ c ∈ cs, c.isFreeBuffer = false
  closed : s'.closed = s.closed ++ (s.reader.fdAt off).toList

/-- Every round that does not panic does this. -/
theorem Round.of_some {kernel : KernelWrite} {m : DropMet} {s s' : DropState}
    {left : BinderDevice} (h : dropRound kernel m s = some (some (s', left))) :
    ∃ off ty, Round s s' off ty := by
  unfold dropRound at h
  split at h
  · cases h
  · cases h
  · next hty =>
    cases h
    obtain ⟨off, hoff, hty⟩ := exists_typeAt hty
    have hno : s.reader.fdAt off = none := fdAt_of_ne (by simp [hty])
    exact ⟨off, .fdArray, hoff, hty, rfl, rfl, rfl, rfl, ⟨[], by simp⟩, by simp [hno]⟩
  · next hty =>
    cases h
    obtain ⟨off, hoff, hty⟩ := exists_typeAt hty
    have hno : s.reader.fdAt off = none := fdAt_of_ne (by simp [hty])
    exact ⟨off, .buffer, hoff, hty, rfl, rfl, rfl, rfl, ⟨[], by simp⟩, by simp [hno]⟩
  · next hty =>
    obtain ⟨off, hoff, hty⟩ := exists_typeAt hty
    obtain ⟨⟨res, reader⟩, hread, heq⟩ := Option.map_eq_some_iff.mp h
    obtain ⟨fd, cookie, rfl, hfd, rfl⟩ := readFd_of_fd hoff hty hread
    cases heq
    exact ⟨off, .fd, hoff, hty, rfl, rfl, rfl, rfl, ⟨[], by simp⟩, by simp [hfd]⟩
  · next ty harray hbuffer hfd hty =>
    obtain ⟨off, hoff, hty⟩ := exists_typeAt hty
    have hno : s.reader.fdAt off = none := by
      refine fdAt_of_ne fun hfd' => hfd ?_
      rw [hty] at hfd'
      rw [Option.some.inj hfd']
    have hstays : ty.stays = false := by
      cases ty <;> simp_all [BinderObjectType.stays]
    obtain ⟨⟨res, reader, dev⟩, hread, h⟩ := Option.bind_eq_some_iff.mp h
    obtain ⟨hfree, hreader⟩ := readBinderRef_spec hread
    cases res with
    | ok v =>
      obtain ⟨dev', hdrop, heq⟩ := Option.bind_eq_some_iff.mp h
      cases heq
      obtain ⟨off', -, rfl⟩ := hreader
      exact ⟨off, ty, hoff, hty, rfl, rfl, rfl, by simp [hstays],
        ⟨_, rfl, (hfree.trans (.of_dropArc hdrop)).drop_written⟩, by simp [hno]⟩
    | error e =>
      cases h
      obtain rfl : reader = s.reader := hreader
      exact ⟨off, ty, hoff, hty, rfl, rfl, rfl, by simp [hstays],
        ⟨_, rfl, hfree.drop_written⟩, by simp [hno]⟩

/-- A round over a strong object that is found has counted it. -/
theorem hasRoom_of_dropRound {kernel : KernelWrite} {m : DropMet} {s : DropState}
    {o : Option (DropState × BinderDevice)} {off : ℕ} (h : dropRound kernel m s = some o)
    (hoff : s.reader.nextOffset = some off) : s.reader.HasRoom m.found off := by
  intro hty id hid hobj
  rw [dropRound, nextObjectType_of_typeAt hoff hty] at h
  obtain ⟨⟨res, reader, dev⟩, hread, -⟩ := Option.bind_eq_some_iff.mp h
  obtain ⟨header, hheader, hbinder⟩ := Option.bind_eq_some_iff.mp hty
  obtain ⟨flat, hflat, rfl⟩ := Option.map_eq_some_iff.mp hid
  have hcode : BinderType.ofU32 header.type_ = some .binder :=
    BinderObjectType.ofHeader_eq_some.mp hbinder
  simp only [readBinderRef, hoff, hheader, hflat, hcode, Option.bind_eq_bind,
    Option.bind_some] at hread
  obtain ⟨⟨res', dev'⟩, hdecode, -⟩ := Option.bind_eq_some_iff.mp hread
  -- the header is the beginning of the record
  have hhdr : flat.hdr = header := by
    unfold Layout.readAt at hflat hheader
    split_ifs at hflat hheader
    cases hflat
    cases hheader
    rfl
  obtain ⟨handler, hhandler⟩ := Option.isSome_iff_exists.mp hobj
  simp only [decodeFlat, hhdr, hcode, BorrowedBinderObject.fromId, hhandler, Option.map_map,
    Option.map_eq_some_iff] at hdecode
  obtain ⟨_, hinc, -⟩ := hdecode
  exact Option.isSome_iff_exists.mpr ⟨_, hinc⟩

/-! ## Rounds that do not panic -/

section Exists

variable {kernel : KernelWrite}

/-- With a kernel that takes every command, a reference can be dropped. -/
theorem isSome_dropArc_ref (hk : Accepts kernel) (dev : BinderDevice) (lastRef lastWeak : Bool)
    (r : BinderRef) : ((BinderObjectOrRef.ref r).dropArc kernel dev lastRef lastWeak).isSome := by
  cases lastRef <;> cases lastWeak <;>
    simp [BinderObjectOrRef.dropArc, BinderRef.drop, WeakBinderRef.drop,
      BinderDevice.writeCommand, hk _ _]

/-- With a kernel that takes every command, a weak reference can be dropped. -/
theorem isSome_dropArc_weakRef (hk : Accepts kernel) (dev : BinderDevice)
    (lastRef lastWeak : Bool) (r : WeakBinderRef) :
    ((BinderObjectOrRef.weakRef r).dropArc kernel dev lastRef lastWeak).isSome := by
  cases lastWeak <;>
    simp [BinderObjectOrRef.dropArc, WeakBinderRef.drop, BinderDevice.writeCommand, hk _ _]

/-- The record of an object or a reference can be decoded, and what it decodes to can be
dropped. -/
theorem exists_decodeFlat (hk : Accepts kernel) {dev : BinderDevice} {flat : FlatBinderObject}
    {t : BinderType} (ht : BinderType.ofU32 flat.hdr.type_ = some t)
    (hhandle : t ∈ [BinderType.binder, .handle, .weakBinder, .weakHandle])
    (hroom : t = .binder → (dev.objects (.fromRaw flat.data.binder flat.cookie)).isSome →
      dev.CanCount (.fromRaw flat.data.binder flat.cookie)) :
    ∃ res dev', decodeFlat kernel dev flat = some (res, dev') ∧
      ∀ v, res = .ok v → ∀ lastRef lastWeak, (v.dropArc kernel dev' lastRef lastWeak).isSome := by
  have hcases : t = .binder ∨ t = .handle ∨ t = .weakBinder ∨ t = .weakHandle := by
    simpa using hhandle
  rcases hcases with rfl | rfl | rfl | rfl
  · by_cases hobj : (dev.objects (.fromRaw flat.data.binder flat.cookie)).isSome
    · obtain ⟨o, dev', ho, -, -⟩ :=
        BorrowedBinderObject.fromId_registered hobj (hroom rfl hobj)
      refine ⟨.ok (.object o), dev', by simp only [decodeFlat, ht, ho, Option.map_some], ?_⟩
      intro v hv lastRef lastWeak
      cases hv
      exact BorrowedBinderObject.isSome_drop_of_fromId ho
    · have ho : BorrowedBinderObject.fromId dev (.fromRaw flat.data.binder flat.cookie) =
          some (none, dev) := by
        rw [BorrowedBinderObject.fromId, Option.not_isSome_iff_eq_none.mp hobj]
      refine ⟨.error .unknownBinderObject, dev, ?_, ?_⟩
      · simp only [decodeFlat, ht, ho, Option.map_some]
      · intro v hv
        cases hv
  · obtain ⟨⟨r, dev'⟩, hr⟩ := Option.isSome_iff_exists.mp
      (BinderRef.isSome_getAndDedupFromRaw hk dev flat.data.handle)
    refine ⟨.ok (.ref r), dev', by simp only [decodeFlat, ht, hr, Option.map_some], ?_⟩
    intro v hv lastRef lastWeak
    cases hv
    exact isSome_dropArc_ref hk _ _ _ _
  · refine ⟨.ok (.weakObject ⟨dev.addr, .fromRaw flat.data.binder flat.cookie⟩), dev, ?_, ?_⟩
    · simp only [decodeFlat, ht]
    · intro v hv lastRef lastWeak
      cases hv
      rfl
  · obtain ⟨⟨r, dev'⟩, hr⟩ := Option.isSome_iff_exists.mp
      (WeakBinderRef.isSome_getAndDedupFromRaw hk dev flat.data.handle)
    refine ⟨.ok (.weakRef r.1), dev', by simp only [decodeFlat, ht, hr, Option.map_some], ?_⟩
    intro v hv lastRef lastWeak
    cases hv
    exact isSome_dropArc_weakRef hk _ _ _ _

/-- An intact object that is not a descriptor, a descriptor array or a buffer can be read, and what
is read can be dropped. -/
theorem exists_readBinderRef (hk : Accepts kernel) {dev : BinderDevice} {r : PayloadReader}
    {off : ℕ} {ty : BinderObjectType} (hoff : r.nextOffset = some off) (hintact : r.Intact off)
    (hty : r.typeAt off = some ty)
    (hhandle : ty.binderType ∈ [BinderType.binder, .handle, .weakBinder, .weakHandle])
    (hroom : r.HasRoom dev off) :
    ∃ res r' dev', r.readBinderRef kernel dev = some (res, r', dev') ∧
      ∀ v, res = .ok v → ∀ lastRef lastWeak, (v.dropArc kernel dev' lastRef lastWeak).isSome := by
  obtain ⟨flat, hflat, hheader⟩ := exists_flat hintact.fits
  have hcode : BinderType.ofU32 flat.hdr.type_ = some ty.binderType := by
    rw [typeAt, hheader, Option.bind_some] at hty
    exact BinderObjectType.ofHeader_eq_some.mp hty
  have hcount : ty.binderType = .binder →
      (dev.objects (.fromRaw flat.data.binder flat.cookie)).isSome →
      dev.CanCount (.fromRaw flat.data.binder flat.cookie) := by
    intro hbinder
    refine hroom ?_ _ (by rw [idAt, hflat, Option.map_some])
    cases ty <;> first | exact hty | cases hbinder
  obtain ⟨res, dev', hdecode, hdrop⟩ := exists_decodeFlat hk hcode hhandle hcount
  have hread : r.readBinderRef kernel dev = match res with
      | .ok v => some (.ok v, { r with
          nextOffsetIndex := r.nextOffsetIndex + 1
          nextDataIndex := off + objectSize }, dev')
      | .error e => some (.error e, r, dev') := by
    have hcases : ty = .binderObject ∨ ty = .binderRef ∨ ty = .weakBinderObject ∨
        ty = .weakBinderRef := by
      cases ty <;> simp [BinderObjectType.binderType] at hhandle ⊢
    rcases hcases with rfl | rfl | rfl | rfl <;>
      simp only [BinderObjectType.binderType] at hcode <;>
      cases res <;>
      simp only [readBinderRef, hoff, hheader, hflat, hcode, hdecode, Option.bind_eq_bind,
        Option.bind_some]
  cases res with
  | ok v => exact ⟨_, _, _, hread, hdrop⟩
  | error e => exact ⟨_, _, _, hread, hdrop⟩

/-- An intact descriptor can be read. -/
theorem exists_readFd {r : PayloadReader} {off : ℕ} (hoff : r.nextOffset = some off)
    (hintact : r.Intact off) (hty : r.typeAt off = some .fd) :
    ∃ res r', r.readFd = some (res, r') := by
  obtain ⟨header, hheader, hfd⟩ := Option.bind_eq_some_iff.mp hty
  obtain ⟨fd, hfdAt⟩ := Option.isSome_iff_exists.mp (hintact.fd hty)
  rw [fdAt, if_pos hty] at hfdAt
  obtain ⟨obj, hobj, hraw⟩ := Option.bind_eq_some_iff.mp hfdAt
  refine ⟨.ok (fd, obj.cookie), { r with
    nextOffsetIndex := r.nextOffsetIndex + 1
    nextDataIndex := off + objectSize }, ?_⟩
  simp only [readFd, hoff, hheader, hobj, hraw, Option.bind_eq_bind, Option.bind_some,
    BinderObjectType.ofHeader_eq_some.mp hfd, BinderObjectType.binderType]

/-- At an intact object, a round panics only if a strong object is found whose count is full. -/
theorem exists_round (hk : Accepts kernel) {m : DropMet} {s : DropState} {off : ℕ}
    (hoff : s.reader.nextOffset = some off) (hintact : s.reader.Intact off)
    (hroom : s.reader.HasRoom m.found off) :
    ∃ s' left, dropRound kernel m s = some (some (s', left)) := by
  obtain ⟨ty, hty⟩ := hintact.type
  have hnext := nextObjectType_of_typeAt hoff hty
  cases ty with
  | fd =>
    obtain ⟨res, r', hread⟩ := exists_readFd hoff hintact hty
    simp only [dropRound, hnext, hread, Option.map_some]
    exact ⟨_, _, rfl⟩
  | fdArray =>
    simp only [dropRound, hnext]
    exact ⟨_, _, rfl⟩
  | buffer =>
    simp only [dropRound, hnext]
    exact ⟨_, _, rfl⟩
  | _ =>
    obtain ⟨res, r', dev', hread, hdrop⟩ :=
      exists_readBinderRef hk hoff hintact hty (by decide) hroom
    cases res with
    | ok v =>
      obtain ⟨dev'', hdev''⟩ :=
        Option.isSome_iff_exists.mp (hdrop v rfl m.lastRef m.lastWeak)
      simp only [dropRound, hnext, hread, hdev'', Option.bind_eq_bind, Option.bind_some]
      exact ⟨_, _, rfl⟩
    | error e =>
      simp only [dropRound, hnext, hread, Option.bind_eq_bind, Option.bind_some]
      exact ⟨_, _, rfl⟩

end Exists

/-! ## The whole loop -/

section Data

variable {r r' : PayloadReader} (hdata : r'.data = r.data)
include hdata

/-- The types of the objects only depend on the data. -/
theorem typeAt_of_data : r'.typeAt = r.typeAt := by
  funext off
  rw [typeAt, typeAt, hdata]

/-- The descriptors only depend on the data. -/
theorem fdAt_of_data : r'.fdAt = r.fdAt := by
  funext off
  rw [fdAt, fdAt, hdata, typeAt_of_data hdata]

/-- Whether an object is intact only depends on the data. -/
theorem Intact.of_data {off : ℕ} (h : r.Intact off) : r'.Intact off := by
  refine ⟨by rw [hdata]; exact h.fits, ?_, ?_⟩
  · rw [typeAt_of_data hdata]
    exact h.type
  · rw [typeAt_of_data hdata, fdAt_of_data hdata]
    exact h.fd

/-- The ids only depend on the data. -/
theorem idAt_of_data : r'.idAt = r.idAt := by
  funext off
  rw [idAt, idAt, hdata]

/-- Whether the loop can step over an object only depends on the data and on what it meets. -/
theorem drainable_iff_of_data {m : DropMet} {off : ℕ} : r'.Drainable m off ↔ r.Drainable m off := by
  have hroom : r'.HasRoom m.found off ↔ r.HasRoom m.found off := by
    rw [HasRoom, HasRoom, typeAt_of_data hdata, idAt_of_data hdata]
  constructor
  · intro h
    exact ⟨typeAt_of_data hdata ▸ h.moves, hroom.mp h.room⟩
  · intro h
    exact ⟨(typeAt_of_data hdata).symm ▸ h.moves, hroom.mpr h.room⟩

end Data

/-- What the loop does to a reader that it drains. -/
structure Drained (s s' : DropState) : Prop where
  data : s'.reader.data = s.reader.data
  visited : s'.visited = s.visited ++ List.range' s.reader.nextOffsetIndex s.reader.unread.length
  sent : ∃ cs, s'.sent = s.sent ++ cs ∧ ∀ c ∈ cs, c.isFreeBuffer = false
  closed : s'.closed = s.closed ++ s.reader.unread.filterMap s.reader.fdAt

/-- A round over an object that the loop steps over leaves the objects behind it. -/
theorem Round.unread {s s' : DropState} {off : ℕ} {ty : BinderObjectType} (h : Round s s' off ty)
    (hty : ty.stays = false) : s.reader.unread = off :: s'.reader.unread :=
  unread_eq_cons h.next h.offsets (by rw [h.index, if_neg (by simp [hty])])

/-- A round over an object that the loop does not step over leaves all objects. -/
theorem Round.unread_of_stays {s s' : DropState} {off : ℕ} {ty : BinderObjectType}
    (h : Round s s' off ty) (hty : ty.stays = true) : s'.reader.unread = s.reader.unread := by
  rw [PayloadReader.unread, PayloadReader.unread, h.offsets, h.index, if_pos hty]

/-- What a round leaves is intact as it was. -/
theorem Round.intact {s s' : DropState} {off : ℕ} {ty : BinderObjectType} (h : Round s s' off ty)
    (hintact : ∀ o ∈ s.reader.unread, s.reader.Intact o) : ∀ o ∈ s'.reader.unread,
      s'.reader.Intact o := by
  intro o ho
  refine (hintact o ?_).of_data h.data
  cases hty : ty.stays with
  | true => rwa [← h.unread_of_stays hty]
  | false =>
    rw [h.unread hty]
    exact List.mem_cons_of_mem _ ho

/-- A round over one object and a drain of the rest is a drain. -/
theorem Drained.of_round {s s₁ s' : DropState} {off : ℕ} {ty : BinderObjectType}
    (h : Round s s₁ off ty) (hty : ty.stays = false) (hrest : Drained s₁ s') : Drained s s' := by
  have hunread := h.unread hty
  have hindex : s₁.reader.nextOffsetIndex = s.reader.nextOffsetIndex + 1 := by
    rw [h.index, if_neg (by simp [hty])]
  obtain ⟨cs, hcs, hfree⟩ := h.sent
  obtain ⟨cs', hcs', hfree'⟩ := hrest.sent
  refine ⟨hrest.data.trans h.data, ?_, ⟨cs ++ cs', ?_, ?_⟩, ?_⟩
  · rw [hrest.visited, h.visited, hindex, hunread, List.length_cons, List.range'_succ,
      List.append_assoc, List.singleton_append]
  · rw [hcs', hcs, List.append_assoc]
  · exact List.forall_mem_append.mpr ⟨hfree, hfree'⟩
  · rw [hrest.closed, h.closed, hunread, List.append_assoc, fdAt_of_data h.data]
    cases hfd : s.reader.fdAt off with
    | none => rw [List.filterMap_cons_none hfd, Option.toList_none, List.nil_append]
    | some fd => rw [List.filterMap_cons_some hfd, Option.toList_some, List.singleton_append]

/-- Without unread objects, a round leaves the loop. -/
theorem dropRound_of_unread_eq_nil {kernel : KernelWrite} {m : DropMet} {s : DropState}
    (h : s.reader.unread = []) : dropRound kernel m s = some none := by
  have hoff : s.reader.nextOffset = none := by rw [nextOffset_eq_head?, h, List.head?_nil]
  simp only [dropRound, nextObjectType, hoff]

/-- A round leaves the loop where there is no next object. -/
theorem nextObjectType_of_dropRound {kernel : KernelWrite} {m : DropMet} {s : DropState}
    (h : dropRound kernel m s = some none) : s.reader.nextObjectType = some none := by
  unfold dropRound at h
  split at h
  · cases h
  · assumption
  · cases h
  · cases h
  · obtain ⟨_, -, heq⟩ := Option.map_eq_some_iff.mp h
    cases heq
  · obtain ⟨⟨res, _, _⟩, -, h⟩ := Option.bind_eq_some_iff.mp h
    cases res with
    | ok v =>
      obtain ⟨_, -, heq⟩ := Option.bind_eq_some_iff.mp h
      cases heq
    | error e => cases h

section Loop

variable {kernel : KernelWrite} {env : ℕ → DropMet}

/-- The loop drains intact objects that it can step over, in one round for each and one more.

**Proof sketch.** Induction on the number of unread objects; a round moves over the first of them,
and what it leaves are the others, with the data as they were. -/
theorem Drained.of_drainable (hk : Accepts kernel) {n : ℕ} {s : DropState}
    (hn : s.reader.unread.length = n) (hintact : ∀ off ∈ s.reader.unread, s.reader.Intact off)
    (h : ∀ i off, s.reader.unread[i]? = some off →
      s.reader.Drainable (env (s.visited.length + i)) off) :
    ∃ s', dropLoop kernel env (n + 1) s = .finished s' ∧ Drained s s' := by
  induction n generalizing s with
  | zero =>
    have hnil := List.length_eq_zero_iff.mp hn
    refine ⟨s, ?_, rfl, by simp [hnil], ⟨[], by simp⟩, by simp [hnil]⟩
    rw [dropLoop, dropRound_of_unread_eq_nil hnil]
  | succ n ih =>
    obtain ⟨off, rest, hunread⟩ := List.exists_cons_of_length_eq_add_one hn
    have hoff : s.reader.nextOffset = some off := by
      rw [nextOffset_eq_head?, hunread, List.head?_cons]
    have hfirst : s.reader.Drainable (env s.visited.length) off :=
      h 0 off (by rw [hunread, List.getElem?_cons_zero])
    obtain ⟨s₁, left, hround⟩ := exists_round hk hoff (hintact off (by simp [hunread])) hfirst.room
    obtain ⟨off', ty, hspec⟩ := Round.of_some hround
    obtain rfl : off = off' := Option.some.inj (hoff.symm.trans hspec.next)
    have hty := hfirst.moves ty hspec.type
    have hcons := hspec.unread hty
    have hlen : s₁.reader.unread.length = n := by
      rw [hcons, List.length_cons] at hn
      omega
    have h₁ : ∀ i off, s₁.reader.unread[i]? = some off →
        s₁.reader.Drainable (env (s₁.visited.length + i)) off := by
      intro i off hi
      have hlater := h (i + 1) off (by rw [hcons, List.getElem?_cons_succ, hi])
      rw [hspec.visited, List.length_append, List.length_singleton,
        show s.visited.length + 1 + i = s.visited.length + (i + 1) by omega]
      exact (drainable_iff_of_data hspec.data).mpr hlater
    obtain ⟨s', hs', hrest⟩ := ih hlen (hspec.intact hintact) h₁
    refine ⟨s', ?_, .of_round hspec hty hrest⟩
    rw [dropLoop, hround]
    exact hs'

/-- A loop that finishes has stepped over every unread object.

**Proof sketch.** Induction on the rounds. A round over an object that the loop does not step over
leaves the same object to the rest of the loop, which steps over it by the hypothesis of the
induction: so there is no such round. -/
theorem drainable_of_finished {fuel : ℕ} {s s' : DropState}
    (hintact : ∀ off ∈ s.reader.unread, s.reader.Intact off)
    (h : dropLoop kernel env fuel s = .finished s') (i : ℕ) (off : ℕ)
    (hi : s.reader.unread[i]? = some off) :
    s.reader.Drainable (env (s.visited.length + i)) off := by
  induction fuel generalizing s i off with
  | zero => cases h
  | succ fuel ih =>
    obtain ⟨first, rest, hunread⟩ :=
      List.exists_cons_of_ne_nil (List.ne_nil_of_mem (List.mem_of_getElem? hi))
    have hnext : s.reader.nextOffset = some first := by
      rw [nextOffset_eq_head?, hunread, List.head?_cons]
    obtain ⟨ty, hty⟩ := (hintact first (by simp [hunread])).type
    rw [dropLoop] at h
    cases hround : dropRound kernel (env s.visited.length) s with
    | none => rw [hround] at h; cases h
    | some o =>
      have hroom := hasRoom_of_dropRound hround hnext
      rw [hround] at h
      cases o with
      | none =>
        have hend := nextObjectType_of_dropRound hround
        rw [nextObjectType_of_typeAt hnext hty] at hend
        cases hend
      | some x =>
        obtain ⟨s₁, left⟩ := x
        obtain ⟨off', ty', hspec⟩ := Round.of_some hround
        obtain rfl : first = off' := Option.some.inj (hnext.symm.trans hspec.next)
        obtain rfl : ty = ty' := Option.some.inj (hty.symm.trans hspec.type)
        have hlen : s₁.visited.length = s.visited.length + 1 := by
          rw [hspec.visited, List.length_append, List.length_singleton]
        have hmoves : ty.stays = false := by
          by_contra hstays
          have hsame := hspec.unread_of_stays (by simpa using hstays)
          have hagain := ih (s := s₁) (hspec.intact hintact) h 0 first
            (by rw [hsame, hunread, List.getElem?_cons_zero])
          exact hstays (((drainable_iff_of_data hspec.data).mp hagain).moves ty hty)
        have hcons := hspec.unread hmoves
        cases i with
        | zero =>
          rw [hcons, List.getElem?_cons_zero] at hi
          obtain rfl := Option.some.inj hi
          refine ⟨fun ty' hty' => ?_, hroom⟩
          rwa [← Option.some.inj (hty.symm.trans hty')]
        | succ i =>
          rw [hcons, List.getElem?_cons_succ] at hi
          have hlater := ih (s := s₁) (hspec.intact hintact) h i off hi
          rw [hlen, show s.visited.length + 1 + i = s.visited.length + (i + 1) by omega] at hlater
          exact (drainable_iff_of_data hspec.data).mp hlater

/-! ## The drop -/

/-- With a kernel that takes every command, a buffer can be freed. -/
theorem isSome_freeOn {α : Type} (hk : Accepts kernel) (dev : BinderDevice)
    (buffer : PayloadReaderBuffer α) : (buffer.freeOn kernel dev).isSome := by
  cases buffer with
  | owned items => rfl
  | kernelBorrowed ptr items =>
    simp [PayloadReaderBuffer.freeOn, PayloadReaderBuffer.free, BinderDevice.writeCommand, hk _ _]

/-- A loop that is through stays so with more rounds. -/
theorem dropLoop_of_le {fuel fuel' : ℕ} (hle : fuel ≤ fuel') {s s' : DropState}
    (h : dropLoop kernel env fuel s = .finished s') :
    dropLoop kernel env fuel' s = .finished s' := by
  induction fuel generalizing fuel' s with
  | zero => cases h
  | succ fuel ih =>
    obtain ⟨more, rfl⟩ := Nat.exists_eq_add_of_le' (Nat.le_of_succ_le hle)
    obtain ⟨k, hk⟩ : ∃ k, more + fuel = k + 1 := ⟨more + fuel - 1, by omega⟩
    rw [hk, dropLoop]
    rw [dropLoop] at h
    cases hround : dropRound kernel (env s.visited.length) s with
    | none => rw [hround] at h; cases h
    | some o =>
      rw [hround] at h
      cases o with
      | none => exact h
      | some x => exact ih (by omega) h

/-- A drop that is through stays so with more rounds. -/
theorem drop_of_le {fuel fuel' : ℕ} (hle : fuel ≤ fuel') {r : PayloadReader} {s : DropState}
    (h : drop kernel env fuel r = .finished s) : drop kernel env fuel' r = .finished s := by
  unfold drop at h ⊢
  split at h
  · next s' hloop => rwa [dropLoop_of_le hle hloop]
  · next hloop => exact absurd h (hloop s)

/-- A drop that is through has run its loop and then freed the buffer. -/
theorem dropLoop_of_finished {fuel : ℕ} {r : PayloadReader} {s : DropState}
    (h : drop kernel env fuel r = .finished s) :
    ∃ s', dropLoop kernel env fuel ⟨r, [], [], []⟩ = .finished s' := by
  unfold drop at h
  split at h
  · next s' hloop => exact ⟨s', hloop⟩
  · next hloop => exact absurd h (hloop s)

/-- The rounds of the loop leave the data as they are, and free no buffer.

**Proof sketch.** Induction on the rounds. -/
theorem sent_of_dropLoop {fuel : ℕ} {s s' : DropState}
    (h : dropLoop kernel env fuel s = .finished s') : s'.reader.data = s.reader.data ∧
      ∃ cs, s'.sent = s.sent ++ cs ∧ ∀ c ∈ cs, c.isFreeBuffer = false := by
  induction fuel generalizing s with
  | zero => cases h
  | succ fuel ih =>
    rw [dropLoop] at h
    cases hround : dropRound kernel (env s.visited.length) s with
    | none => rw [hround] at h; cases h
    | some o =>
      rw [hround] at h
      cases o with
      | none =>
        cases h
        exact ⟨rfl, [], by simp⟩
      | some x =>
        obtain ⟨s₁, left⟩ := x
        obtain ⟨off, ty, hspec⟩ := Round.of_some hround
        obtain ⟨hdata, cs', hcs', hfree'⟩ := ih h
        obtain ⟨cs, hcs, hfree⟩ := hspec.sent
        refine ⟨hdata.trans hspec.data, cs ++ cs', ?_, List.forall_mem_append.mpr ⟨hfree, hfree'⟩⟩
        rw [hcs', hcs, List.append_assoc]

/-- A drop that is through has freed the buffer once, whatever its rounds met. -/
theorem sent_of_drop {fuel : ℕ} {r : PayloadReader} {s : DropState}
    (h : drop kernel env fuel r = .finished s) :
    ∃ before, s.sent = before ++ r.data.free ∧ ∀ c ∈ before, c.isFreeBuffer = false := by
  unfold drop at h
  split at h
  · next s' hloop =>
    split at h
    · cases h
      obtain ⟨hdata, cs, hcs, hfree⟩ := sent_of_dropLoop hloop
      refine ⟨cs, ?_, hfree⟩
      show s'.sent ++ s'.reader.data.free = cs ++ r.data.free
      rw [hcs, hdata, List.nil_append]
    · cases h
  · next hloop => exact absurd h (hloop s)

/-- The drop of a reader whose objects the loop can step over visits each once, closes the
descriptors among them and frees the buffer. -/
theorem exists_drop (hk : Accepts kernel) {r : PayloadReader}
    (hintact : ∀ off ∈ r.unread, r.Intact off)
    (h : ∀ i off, r.unread[i]? = some off → r.Drainable (env i) off) :
    ∃ s before, drop kernel env (r.unread.length + 1) r = .finished s ∧
      s.visited = List.range' r.nextOffsetIndex r.unread.length ∧
      s.sent = before ++ r.data.free ∧ (∀ c ∈ before, c.isFreeBuffer = false) ∧
      s.closed = r.unread.filterMap r.fdAt := by
  have hstart : ∀ i off, r.unread[i]? = some off → r.Drainable (env (0 + i)) off := by
    intro i off hi
    rw [Nat.zero_add]
    exact h i off hi
  obtain ⟨s, hs, hspec⟩ := Drained.of_drainable (s := ⟨r, [], [], []⟩) hk rfl hintact hstart
  obtain ⟨cs, hcs, hfree⟩ := hspec.sent
  obtain ⟨dev, hdev⟩ := Option.isSome_iff_exists.mp
    (isSome_freeOn hk (env s.visited.length).found s.reader.data)
  refine ⟨{ s with sent := s.sent ++ s.reader.data.free }, cs, ?_, hspec.visited, ?_, hfree,
    hspec.closed⟩
  · simp only [drop, hs, hdev]
  · show s.sent ++ s.reader.data.free = cs ++ r.data.free
    rw [hcs, hspec.data, List.nil_append]

end Loop

/-- On a payload whose unread objects are intact, the drop finishes and drains exactly if none of
them is a descriptor array or a buffer, and a strong object that is found can be counted.

**Proof sketch.** A round over such an object moves the reader, so the loop ends behind the last
of them; a round over a descriptor array or a buffer leaves the reader where it is, and every later
round meets the same object. -/
theorem drains_iff {kernel : KernelWrite} {env : ℕ → DropMet} (hk : Accepts kernel)
    {r : PayloadReader} (hintact : ∀ off ∈ r.unread, r.Intact off) :
    r.Drains kernel env ↔ ∀ i off, r.unread[i]? = some off → r.Drainable (env i) off := by
  constructor
  · rintro ⟨fuel, s, before, hdrop, -⟩ i off hi
    obtain ⟨s', hs'⟩ := dropLoop_of_finished hdrop
    have hdrainable := drainable_of_finished hintact hs' i off hi
    rwa [List.length_nil, Nat.zero_add] at hdrainable
  · intro h
    obtain ⟨s, before, hdrop, hvisited, hsent, hfree, -⟩ := exists_drop hk hintact h
    exact ⟨_, s, before, hdrop, hvisited, hsent, hfree⟩

/-- What the rounds meet on a device that was never used. -/
def sampleMet (_ : ℕ) : DropMet := ⟨BinderDevice.new 1, true, true⟩

/-- A payload of the kernel with a descriptor and an object that is not registered. -/
def fdAndDeadObject : PayloadReader where
  device := 1
  data := .kernelBorrowed 0x1000
    (BinderFdObject.layout.encode (fdObject 0 ⟨5, by decide⟩ 9) ++
      FlatBinderObject.layout.encode ⟨⟨BinderType.binder.toU32⟩, 0, .ofBinder 7, 7⟩)
  offsets := some (.kernelBorrowed 0x2000 [0, 24])
  binderObjects := []
  nextOffsetIndex := 0
  nextDataIndex := 0

/-- A payload with a descriptor and an object that is not registered is drained. -/
theorem drains_fdAndDeadObject : fdAndDeadObject.Drains (fun _ _ => none) sampleMet := by
  have hfd : fdAndDeadObject.typeAt 0 = some .fd := by decide +kernel
  have hobj : fdAndDeadObject.typeAt 24 = some .binderObject := by decide +kernel
  have hunread : fdAndDeadObject.unread = [0, 24] := rfl
  refine (drains_iff (fun _ _ => rfl) ?_).mpr ?_
  · intro off hoff
    rw [hunread] at hoff
    fin_cases hoff
    · exact ⟨by decide, ⟨.fd, hfd⟩, fun _ => by decide +kernel⟩
    · exact ⟨by decide, ⟨.binderObject, hobj⟩, fun h => by simp [hobj] at h⟩
  · intro i off hi
    have hoff : off ∈ fdAndDeadObject.unread := List.mem_of_getElem? hi
    rw [hunread] at hoff
    refine ⟨fun ty hty => ?_, fun _ id _ hsome => absurd hsome (by simp [sampleMet, BinderDevice.new,
      DashMap.empty])⟩
    fin_cases hoff
    · cases hfd.symm.trans hty
      rfl
    · cases hobj.symm.trans hty
      rfl

/-- A payload of the kernel with one descriptor array. -/
def fdArrayPayload : PayloadReader where
  device := 1
  data := .kernelBorrowed 0x1000 (BinderObjectHeader.layout.encode ⟨BinderType.fda.toU32⟩ ++
    List.replicate 28 0)
  offsets := some (.kernelBorrowed 0x2000 [0])
  binderObjects := []
  nextOffsetIndex := 0
  nextDataIndex := 0

/-- A payload with a descriptor array, intact as it is, is never drained, however long the loop
runs. -/
theorem not_drains_fdArrayPayload :
    (∀ off ∈ fdArrayPayload.unread, fdArrayPayload.Intact off) ∧
      (∀ fuel, ∃ s, drop (fun _ _ => none) sampleMet fuel fdArrayPayload = .running s) ∧
      ¬ fdArrayPayload.Drains (fun _ _ => none) sampleMet := by
  have harray : fdArrayPayload.typeAt 0 = some .fdArray := by decide +kernel
  have hoff : fdArrayPayload.nextOffset = some 0 := rfl
  have hnext := nextObjectType_of_typeAt hoff harray
  have hloop : ∀ fuel visited sent closed, ∃ s,
      dropLoop (fun _ _ => none) sampleMet fuel ⟨fdArrayPayload, visited, sent, closed⟩ =
        .running s := by
    intro fuel
    induction fuel with
    | zero => exact fun _ _ _ => ⟨_, rfl⟩
    | succ fuel ih =>
      intro visited sent closed
      simp only [dropLoop, dropRound, hnext]
      exact ih _ _ _
  have hrunning : ∀ fuel, ∃ s,
      drop (fun _ _ => none) sampleMet fuel fdArrayPayload = .running s := by
    intro fuel
    obtain ⟨s, hs⟩ := hloop fuel [] [] []
    exact ⟨s, by simp only [drop, hs]⟩
  refine ⟨?_, hrunning, ?_⟩
  · intro off hoff
    have hunread : fdArrayPayload.unread = [0] := rfl
    rw [hunread] at hoff
    fin_cases hoff
    exact ⟨by decide, ⟨.fdArray, harray⟩, fun h => by simp [harray] at h⟩
  · rintro ⟨fuel, s, before, hdrop, -⟩
    obtain ⟨s', hs'⟩ := hrunning fuel
    rw [hs'] at hdrop
    cases hdrop

end PayloadReader

end BinderBinder
