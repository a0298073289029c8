import BinderBinder.Payload.Drop
import BinderBinder.Payload.RoundTrip

set_option relaxedAutoImplicit false
set_option autoImplicit false

/-!
# Who owns the descriptors of a payload

`from_builder` duplicates the descriptors of a payload and leaves the duplicates in the bytes as
plain numbers, which nobody owns. A number becomes an `OwnedFd` when `read_fd` reads it: the caller
gets it, or the drop of the reader, which closes it. The numbers that are not owned yet are those
of the unread objects, so the object index alone says which they are.

## Main definitions

* `ReaderCall`, `PayloadReader.calls` — calls of a reader, and what they hand out.
* `PayloadReader.pending` — the descriptors that nobody owns yet.
* `DupSpec` — what is asked of `dup`.

## Main results

* `PayloadReader.Called.of_call` — a call hands out a pending descriptor or leaves all of them.
* `PayloadReader.pending_of_allWrote` — what is pending before the first call.
* `PayloadReader.owned_once` — every duplicate is owned exactly once.
-/

namespace BinderBinder

/-! ## Calls of a reader -/

/-- The reads of a reader; a handle is decoded on the device as other threads leave it. -/
inductive ReaderCall
  | readBytes (numBytes : ℕ)
  | readBinderRef (dev : BinderDevice)
  | readFd

namespace PayloadReader

section Calls

variable (kernel : KernelWrite)

/-- What a call leaves of the reader, and the descriptor it hands out, if any. A call that panics
has changed nothing: the cursors move last. -/
def call (r : PayloadReader) : ReaderCall → PayloadReader × List Fd
  | .readBytes numBytes => match r.readBytes numBytes with
    | some (_, r') => (r', [])
    | none => (r, [])
  | .readBinderRef dev => match r.readBinderRef kernel dev with
    | some (_, r', _) => (r', [])
    | none => (r, [])
  | .readFd => match r.readFd with
    | some (.ok (fd, _), r') => (r', [fd])
    | some (.error _, r') => (r', [])
    | none => (r, [])

/-- A sequence of calls. -/
def calls (r : PayloadReader) : List ReaderCall → PayloadReader × List Fd
  | [] => (r, [])
  | c :: cs =>
    let (r', fds) := r.call kernel c
    let (r'', rest) := calls r' cs
    (r'', fds ++ rest)

end Calls

/-- The descriptors among the unread objects. -/
def pending (r : PayloadReader) : List Fd := r.unread.filterMap r.fdAt

/-- What calls that hand out `fds` do: the payload stays, and what they hand out and what is still
pending is what was pending before. -/
structure Called (r r' : PayloadReader) (fds : List Fd) : Prop where
  data : r'.data = r.data
  unread : r'.unread <:+ r.unread
  pending : fds ++ r'.pending = r.pending

namespace Called

variable {kernel : KernelWrite} {r r' r'' : PayloadReader} {fds fds' : List Fd}

/-- A call that leaves the object index where it was. -/
theorem of_index (hdata : r'.data = r.data) (hoffsets : r'.offsets = r.offsets)
    (hindex : r'.nextOffsetIndex = r.nextOffsetIndex) : Called r r' [] := by
  have hunread : r'.unread = r.unread := by
    rw [PayloadReader.unread, PayloadReader.unread, hoffsets, hindex]
  refine ⟨hdata, hunread ▸ List.suffix_rfl, ?_⟩
  rw [List.nil_append, PayloadReader.pending, PayloadReader.pending, hunread, fdAt_of_data hdata]

/-- A call that moves over an object, and hands out what is pending there. -/
theorem of_next {off : ℕ} (hoff : r.nextOffset = some off) (hdata : r'.data = r.data)
    (hoffsets : r'.offsets = r.offsets) (hindex : r'.nextOffsetIndex = r.nextOffsetIndex + 1) :
    Called r r' (r.fdAt off).toList := by
  have hunread := unread_eq_cons hoff hoffsets hindex
  refine ⟨hdata, hunread ▸ List.suffix_cons off _, ?_⟩
  rw [PayloadReader.pending, PayloadReader.pending, hunread, fdAt_of_data hdata]
  cases hfd : r.fdAt off with
  | none => rw [List.filterMap_cons_none hfd, Option.toList_none, List.nil_append]
  | some fd => rw [List.filterMap_cons_some hfd, Option.toList_some, List.singleton_append]

/-- Calls after calls. -/
theorem trans (h : Called r r' fds) (h' : Called r' r'' fds') : Called r r'' (fds ++ fds') := by
  refine ⟨h'.data.trans h.data, h'.unread.trans h.unread, ?_⟩
  rw [List.append_assoc, h'.pending, h.pending]

end Called

/-- An object that is read as a handle is not a descriptor. -/
theorem fdAt_of_readBinderRef {kernel : KernelWrite} {dev dev' : BinderDevice}
    {r r' : PayloadReader} {off : ℕ} {x : BinderObjectOrRef} (hoff : r.nextOffset = some off)
    (h : r.readBinderRef kernel dev = some (.ok x, r', dev')) : r.fdAt off = none := by
  refine fdAt_of_ne fun hty => ?_
  obtain ⟨header, hheader, hfd⟩ := Option.bind_eq_some_iff.mp hty
  have hcode : BinderType.ofU32 header.type_ = some .fd :=
    BinderObjectType.ofHeader_eq_some.mp hfd
  simp [readBinderRef, hoff, hheader, hcode] at h

/-- An object that is read as a descriptor is that descriptor. -/
theorem fdAt_of_readFd {r r' : PayloadReader} {off : ℕ} {fd : Fd} {cookie : Usize}
    (hoff : r.nextOffset = some off) (h : r.readFd = some (.ok (fd, cookie), r')) :
    r.fdAt off = some fd := by
  have hread := h
  simp only [readFd, hoff] at hread
  obtain ⟨header, hheader, hread⟩ := Option.bind_eq_some_iff.mp hread
  split at hread
  · next hcode =>
    have hty : r.typeAt off = some .fd := by
      rw [typeAt, hheader, Option.bind_some]
      exact BinderObjectType.ofHeader_eq_some.mpr hcode
    obtain ⟨fd', cookie', heq, hfd, -⟩ := readFd_of_fd hoff hty h
    cases heq
    exact hfd
  · cases hread

/-- A read of bytes that fails leaves the reader as it was. -/
theorem readBytes_error {r r' : PayloadReader} {n : ℕ} {e : PayloadBytesReadError}
    (h : r.readBytes n = some (.error e, r')) : r' = r := by
  obtain ⟨stop, -, heq⟩ := Option.map_eq_some_iff.mp h
  split_ifs at heq <;> cases heq <;> rfl

/-- A read of a descriptor that fails leaves the reader as it was. -/
theorem readFd_error {r r' : PayloadReader} {e : PayloadObjectReadError}
    (h : r.readFd = some (.error e, r')) : r' = r := by
  unfold readFd at h
  split at h
  · cases h
    rfl
  · obtain ⟨header, -, h⟩ := Option.bind_eq_some_iff.mp h
    split at h
    · obtain ⟨obj, -, h⟩ := Option.bind_eq_some_iff.mp h
      obtain ⟨fd, -, h⟩ := Option.bind_eq_some_iff.mp h
      cases h
    · cases h
      rfl

/-- A call hands out a pending descriptor or leaves all of them pending.

**Proof sketch.** Only a read of an object moves the object index, over that object. If it was read
as a handle then no descriptor was pending there, and if it was read as a descriptor then it is the
one that is handed out. -/
theorem Called.of_call (kernel : KernelWrite) (r : PayloadReader) (c : ReaderCall) :
    Called r (r.call kernel c).1 (r.call kernel c).2 := by
  cases c with
  | readBytes numBytes =>
    cases hread : r.readBytes numBytes with
    | none =>
      simp only [call, hread]
      exact .of_index rfl rfl rfl
    | some p =>
      obtain ⟨res, r'⟩ := p
      cases res with
      | ok v =>
        simp only [call, hread]
        obtain ⟨-, -, -, rfl⟩ := readBytes_ok hread
        exact .of_index rfl rfl rfl
      | error e =>
        simp only [call, hread]
        obtain rfl := readBytes_error hread
        exact .of_index rfl rfl rfl
  | readBinderRef dev =>
    cases hread : r.readBinderRef kernel dev with
    | none =>
      simp only [call, hread]
      exact .of_index rfl rfl rfl
    | some p =>
      obtain ⟨res, r', dev'⟩ := p
      simp only [call, hread]
      have hspec := (readBinderRef_spec hread).2
      cases res with
      | ok x =>
        obtain ⟨off, hoff, rfl⟩ := hspec
        have hnext : Called r { r with
            nextOffsetIndex := r.nextOffsetIndex + 1
            nextDataIndex := off + objectSize } _ := .of_next hoff rfl rfl rfl
        rwa [fdAt_of_readBinderRef hoff hread, Option.toList_none] at hnext
      | error e =>
        obtain rfl : r' = r := hspec
        exact .of_index rfl rfl rfl
  | readFd =>
    cases hread : r.readFd with
    | none =>
      simp only [call, hread]
      exact .of_index rfl rfl rfl
    | some p =>
      obtain ⟨res, r'⟩ := p
      cases res with
      | ok v =>
        obtain ⟨fd, cookie⟩ := v
        simp only [call, hread]
        obtain ⟨off, hoff, rfl⟩ := readFd_ok hread
        have hnext : Called r { r with
            nextOffsetIndex := r.nextOffsetIndex + 1
            nextDataIndex := off + objectSize } _ := .of_next hoff rfl rfl rfl
        rwa [fdAt_of_readFd hoff hread, Option.toList_some] at hnext
      | error e =>
        simp only [call, hread]
        obtain rfl := readFd_error hread
        exact .of_index rfl rfl rfl

/-- What a sequence of calls does. -/
theorem Called.of_calls (kernel : KernelWrite) (r : PayloadReader) (cs : List ReaderCall) :
    Called r (r.calls kernel cs).1 (r.calls kernel cs).2 := by
  induction cs generalizing r with
  | nil => exact .of_index rfl rfl rfl
  | cons c cs ih => exact (Called.of_call kernel r c).trans (ih _)

end PayloadReader

/-! ## Duplicates -/

namespace Item

/-- The descriptor of an item. -/
def descriptor? : Item → Option Fd
  | fd d _ _ => some d
  | _ => none

/-- The descriptors of the items, in the order of the pushes. -/
def descriptors (items : List Item) : List Fd := items.filterMap descriptor?

end Item

/-- A push hands the builder at most the descriptor of its item. -/
theorem PayloadBuilder.mem_ownedFds_of_push {undef : ℕ → UInt32} {dev dev' : BinderDevice}
    {b b' : PayloadBuilder} {item : Item} (h : b.push undef dev item = some (b', dev')) {d : Fd}
    (hd : d ∈ b'.ownedFds) : d ∈ b.ownedFds ∨ item.descriptor? = some d := by
  cases item with
  | bytes bs =>
    cases h
    exact Or.inl hd
  | binderRef x =>
    obtain ⟨⟨port, dev₁⟩, -, heq⟩ := Option.map_eq_some_iff.mp h
    cases heq
    exact Or.inl hd
  | fd fd cookie owned =>
    cases owned with
    | false =>
      cases h
      exact Or.inl hd
    | true =>
      cases h
      rcases List.mem_append.mp hd with hd | hd
      · exact Or.inl hd
      · rw [List.mem_singleton.mp hd]
        exact Or.inr rfl

/-- The descriptors that a builder keeps open are among those that were pushed. -/
theorem PayloadBuilder.mem_ownedFds_of_pushAll {undef : ℕ → UInt32} {b b' : PayloadBuilder}
    {items : List (BinderDevice × Item)} (h : b.pushAll undef items = some b') {d : Fd}
    (hd : d ∈ b'.ownedFds) : d ∈ b.ownedFds ∨ d ∈ Item.descriptors (items.map Prod.snd) := by
  induction items generalizing b with
  | nil =>
    cases h
    exact Or.inl hd
  | cons p items ih =>
    obtain ⟨dev, item⟩ := p
    obtain ⟨⟨b₁, dev₁⟩, hpush, hrest⟩ := Option.bind_eq_some_iff.mp h
    simp only [Item.descriptors, List.mem_filterMap, List.map_cons, List.exists_mem_cons_iff]
      at ih ⊢
    rcases ih hrest with hmem | hmem
    · rcases mem_ownedFds_of_push hpush hmem with hmem | hitem
      · exact Or.inl hmem
      · exact Or.inr (Or.inl hitem)
    · exact Or.inr (Or.inr hmem)

section Dup

variable {φ : Type} (dup : φ → Fd → Option (Fd × φ)) (isOpen : φ → Fd → Prop)

/-- What is asked of `dup`: a duplicate is a descriptor that was not open, and now is. -/
structure DupSpec : Prop where
  fresh : ∀ {files files' : φ} {d d' : Fd}, dup files d = some (d', files') → ¬ isOpen files d'
  isOpen_iff : ∀ {files files' : φ} {d d' : Fd}, dup files d = some (d', files') →
    ∀ x, isOpen files' x ↔ x = d' ∨ isOpen files x

/-- `dup`, with a list of the duplicates that were made. -/
def logged : φ × List Fd → Fd → Option (Fd × φ × List Fd) := fun (files, log) d =>
  (dup files d).map fun (d', files) => (d', files, log ++ [d'])

variable {dup isOpen}

/-- The list of duplicates is that of the descriptors of the duplicated items. -/
theorem dupAll_logged {items items' : List Item} {files files' : φ} {log log' : List Fd}
    (h : Item.dupAll (logged dup) (files, log) items = some (items', files', log')) :
    log' = log ++ Item.descriptors items' ∧ Item.dupAll dup files items = some (items', files') := by
  induction items generalizing items' files log with
  | nil =>
    cases h
    exact ⟨(List.append_nil _).symm, rfl⟩
  | cons item items ih =>
    cases item with
    | bytes bs =>
      obtain ⟨⟨items₁, files₁, log₁⟩, hitems, heq⟩ := Option.map_eq_some_iff.mp h
      cases heq
      obtain ⟨hlog, hdup⟩ := ih hitems
      exact ⟨hlog, Option.map_eq_some_iff.mpr ⟨_, hdup, rfl⟩⟩
    | binderRef x =>
      obtain ⟨⟨items₁, files₁, log₁⟩, hitems, heq⟩ := Option.map_eq_some_iff.mp h
      cases heq
      obtain ⟨hlog, hdup⟩ := ih hitems
      exact ⟨hlog, Option.map_eq_some_iff.mpr ⟨_, hdup, rfl⟩⟩
    | fd d cookie owned =>
      obtain ⟨⟨d', files₁, log₁⟩, hd, hmap⟩ := Option.bind_eq_some_iff.mp h
      obtain ⟨⟨d₂, files₂⟩, hd₂, heq₂⟩ := Option.map_eq_some_iff.mp hd
      cases heq₂
      obtain ⟨⟨items₁, files₃, log₃⟩, hitems, heq⟩ := Option.map_eq_some_iff.mp hmap
      cases heq
      obtain ⟨hlog, hdup⟩ := ih hitems
      refine ⟨by rw [hlog, List.append_assoc]; rfl, ?_⟩
      exact Option.bind_eq_some_iff.mpr ⟨_, hd₂, Option.map_eq_some_iff.mpr ⟨_, hdup, rfl⟩⟩

/-- Duplicates are pairwise different and were not open, and they are all that is open besides
what was. -/
theorem DupSpec.dupAll (hdup : DupSpec dup isOpen) {items items' : List Item} {files files' : φ}
    (h : Item.dupAll dup files items = some (items', files')) :
    (Item.descriptors items').Nodup ∧ (∀ d ∈ Item.descriptors items', ¬ isOpen files d) ∧
      ∀ d, isOpen files' d ↔ d ∈ Item.descriptors items' ∨ isOpen files d := by
  induction items generalizing items' files with
  | nil =>
    cases h
    simp [Item.descriptors]
  | cons item items ih =>
    cases item with
    | bytes bs =>
      obtain ⟨⟨items₁, files₁⟩, hitems, heq⟩ := Option.map_eq_some_iff.mp h
      cases heq
      have hrest := ih hitems
      exact hrest
    | binderRef x =>
      obtain ⟨⟨items₁, files₁⟩, hitems, heq⟩ := Option.map_eq_some_iff.mp h
      cases heq
      have hrest := ih hitems
      exact hrest
    | fd d cookie owned =>
      obtain ⟨⟨d', files₁⟩, hd, hmap⟩ := Option.bind_eq_some_iff.mp h
      obtain ⟨⟨items₁, files₂⟩, hitems, heq⟩ := Option.map_eq_some_iff.mp hmap
      cases heq
      obtain ⟨hnodup, hfresh, hopen⟩ := ih hitems
      have hcons : Item.descriptors (.fd d' cookie owned :: items₁) =
          d' :: Item.descriptors items₁ := rfl
      have hnew : ∀ x ∈ Item.descriptors items₁, x ≠ d' ∧ ¬ isOpen files x := by
        intro x hx
        have hclosed := hfresh x hx
        rw [hdup.isOpen_iff hd x] at hclosed
        exact not_or.mp hclosed
      rw [hcons]
      refine ⟨List.nodup_cons.mpr ⟨fun hmem => (hnew d' hmem).1 rfl, hnodup⟩, ?_, ?_⟩
      · exact List.forall_mem_cons.mpr ⟨hdup.fresh hd, fun x hx => (hnew x hx).2⟩
      · intro x
        rw [hopen, hdup.isOpen_iff hd x, List.mem_cons]
        tauto

end Dup

namespace PayloadReader

/-! ## What is delivered -/

/-- A record lies in the data that it is part of. -/
theorem fits_of_data {α : Type} {l : Layout α} {r : PayloadReader} {pre rest : List UInt8} {v : α}
    (hsize : l.size = objectSize) (hdata : r.data.items = pre ++ (l.encode v ++ rest)) :
    pre.length + objectSize ≤ r.data.items.length := by
  rw [hdata, List.length_append, List.length_append, l.length_encode, hsize]
  omega

/-- The record of a handle in the data of a reader is that of an intact object, which is no
descriptor and which the drop can step over. -/
theorem intact_of_flat {r : PayloadReader} {pre rest : List UInt8} {x : BinderObjectOrRef}
    {upper : UInt32} (hdata : r.data.items =
      pre ++ (FlatBinderObject.layout.encode (x.getFlatBinderObject upper) ++ rest)) :
    r.Intact pre.length ∧ r.fdAt pre.length = none ∧
      ∀ ty, r.typeAt pre.length = some ty → ty.stays = false := by
  obtain ⟨ty, hty, hstays, hfd⟩ :
      ∃ ty, r.typeAt pre.length = some ty ∧ ty.stays = false ∧ ty ≠ .fd := by
    have htypeAt : r.typeAt pre.length =
        BinderObjectType.ofHeader (x.getFlatBinderObject upper).hdr := by
      rw [typeAt, hdata, readAt_header_flat, Option.bind_some]
    rw [htypeAt, BinderObjectType.ofHeader, BinderObjectOrRef.ofU32_getFlatBinderObject]
    cases x <;> exact ⟨_, rfl, rfl, by decide⟩
  have hne : r.typeAt pre.length ≠ some .fd := by
    rw [hty]
    exact fun h => hfd (Option.some.inj h)
  refine ⟨⟨fits_of_data rfl hdata, ⟨ty, hty⟩, fun h => absurd h hne⟩, fdAt_of_ne hne, ?_⟩
  intro ty' hty'
  rwa [← Option.some.inj (hty.symm.trans hty')]

/-- The record of a descriptor in the data of a reader is that of an intact object, the
descriptor. -/
theorem intact_of_fd {r : PayloadReader} {pre rest : List UInt8} {d : Fd} {cookie : Usize}
    {upper : UInt32} (hdata : r.data.items =
      pre ++ (BinderFdObject.layout.encode (fdObject upper d cookie) ++ rest)) :
    r.Intact pre.length ∧ r.fdAt pre.length = some d ∧
      ∀ ty, r.typeAt pre.length = some ty → ty.stays = false := by
  have hty : r.typeAt pre.length = some .fd := by
    rw [typeAt, hdata, readAt_header_fd, Option.bind_some]
    exact BinderObjectType.ofHeader_eq_some.mpr (BinderType.ofU32_toU32 .fd)
  have hfd : r.fdAt pre.length = some d := by
    rw [fdAt, if_pos hty, hdata, Layout.readAt_append, Option.bind_some, fdObject,
      BinderFdObjectData.fd_ofFd, Fd.ofRaw_raw]
  refine ⟨⟨fits_of_data rfl hdata, ⟨.fd, hty⟩, fun _ => by rw [hfd]; rfl⟩, hfd, ?_⟩
  intro ty hty'
  rw [← Option.some.inj (hty.symm.trans hty')]
  rfl

/-- What the items wrote is a table of intact objects, whose descriptors are those of the items.

**Proof sketch.** Induction on the items, with everything before them already passed: a byte string
adds no offset, the others add that of their record behind its padding. -/
theorem pending_of_allWrote {r : PayloadReader} {items : List Item} {pre out : List UInt8}
    (hdata : r.data.items = pre ++ out) (hw : Item.AllWrote pre.length items out) :
    (Item.allOffsets pre.length items).filterMap r.fdAt = Item.descriptors items ∧
      ∀ off ∈ Item.allOffsets pre.length items, r.Intact off ∧
        ∀ ty, r.typeAt off = some ty → ty.stays = false := by
  induction items generalizing pre out with
  | nil => exact ⟨rfl, by simp [Item.allOffsets]⟩
  | cons item items ih =>
    obtain ⟨_, rest, rfl, ⟨undef, rfl⟩, hrest⟩ := hw
    have hrecord : ∀ record : List UInt8, item.bytesAt undef pre.length =
        List.replicate (padding objectAlign pre.length) 0 ++ record →
        r.data.items = (pre ++ List.replicate (padding objectAlign pre.length) 0) ++
          (record ++ rest) := by
      intro record hbytes
      rw [hdata, hbytes]
      simp only [List.append_assoc]
    rw [← length_append_bytesAt undef pre item] at hrest
    obtain ⟨hfds, hintact⟩ := ih (by rw [hdata, List.append_assoc]) hrest
    rw [length_append_bytesAt] at hfds hintact
    have hlen : (pre ++ List.replicate (padding objectAlign pre.length) 0).length =
        pre.length + padding objectAlign pre.length := by
      rw [List.length_append, List.length_replicate]
    cases item with
    | bytes bs => exact ⟨hfds, hintact⟩
    | binderRef x =>
      obtain ⟨hfirst, hfd, hstays⟩ := intact_of_flat (hrecord _ rfl)
      rw [hlen] at hfirst hfd hstays
      refine ⟨?_, List.forall_mem_cons.mpr ⟨⟨hfirst, hstays⟩, hintact⟩⟩
      exact (List.filterMap_cons_none hfd).trans hfds
    | fd d cookie owned =>
      obtain ⟨hfirst, hfd, hstays⟩ := intact_of_fd (hrecord _ rfl)
      rw [hlen] at hfirst hfd hstays
      refine ⟨?_, List.forall_mem_cons.mpr ⟨⟨hfirst, hstays⟩, hintact⟩⟩
      exact (List.filterMap_cons_some hfd).trans (congrArg (d :: ·) hfds)

/-- A delivered payload is a table of intact objects that the drop can step over, and what is pending
are the duplicates that `from_builder` made. -/
theorem delivered_pending {φ : Type} {dup : φ → Fd → Option (Fd × φ)} {undef undef' : ℕ → UInt32}
    {items : List (BinderDevice × Item)} {b : PayloadBuilder}
    (hb : PayloadBuilder.new.pushAll undef items = some b) {dev dev' : BinderDevice}
    {files files' : φ} {dups : List Fd} {r : PayloadReader}
    (hr : fromBuilder (logged dup) undef' dev (files, []) b = some (r, dev', files', dups)) :
    (∃ items', Item.dupAll dup files (items.map Prod.snd) = some (items', files') ∧
        dups = Item.descriptors items') ∧
      r.pending = dups ∧ ∀ off ∈ r.unread, r.Intact off ∧
        ∀ ty, r.typeAt off = some ty → ty.stays = false := by
  obtain ⟨hdata, hoffs⟩ := PayloadBuilder.pushAll_spec hb
  simp only [PayloadBuilder.new, List.length_nil, List.nil_append] at hdata hoffs
  obtain ⟨⟨data, files₁⟩, hpatch, hr⟩ := Option.bind_eq_some_iff.mp hr
  obtain ⟨⟨clones, dev₁⟩, -, heq⟩ := Option.bind_eq_some_iff.mp hr
  cases heq
  have hwrote := Item.allWrote_allBytes undef 0 (items.map Prod.snd)
  rw [hoffs, hdata] at hpatch
  obtain ⟨items', hlogged⟩ := @exists_dupAll _ _ _ _ _ _ [] _ _ hwrote hpatch
  obtain ⟨out', hpatch', hwrote'⟩ := @patchFds_spec _ _ undef' _ _ _ _ [] _ hwrote hlogged
  obtain ⟨hdups, hdup⟩ := dupAll_logged hlogged
  rw [List.nil_append] at hdups
  obtain rfl : data = out' := by
    have hsame := hpatch.symm.trans hpatch'
    rw [List.nil_append] at hsame
    exact congrArg Prod.fst (Option.some.inj hsame)
  have hlayout := (Item.allLayout_of_alike (n := 0) (Item.dupAll_alike hdup)).1
  obtain ⟨hfds, hintact⟩ := @pending_of_allWrote
    ⟨dev.addr, .owned data, some (.owned b.objOffsets), clones, 0, 0⟩ items' [] data rfl hwrote'
  have hunread : PayloadReader.unread
      ⟨dev.addr, .owned data, some (.owned b.objOffsets), clones, 0, 0⟩ =
        Item.allOffsets 0 items' := by
    rw [hlayout, ← hoffs]
    rfl
  refine ⟨⟨items', hdup, hdups⟩, ?_, ?_⟩
  · rw [pending, hunread, hdups]
    exact hfds
  · rw [hunread]
    exact hintact

/-- The drop of a reader with intact objects closes what is pending, once it is through. -/
theorem closed_of_finished {kernel : KernelWrite} (hk : Accepts kernel) {env : ℕ → DropMet}
    {r : PayloadReader} (hintact : ∀ off ∈ r.unread, r.Intact off) {fuel : ℕ} {s : DropState}
    (h : drop kernel env fuel r = .finished s) : s.closed = r.pending := by
  obtain ⟨s₀, hloop⟩ := dropLoop_of_finished h
  have hdrainable : ∀ i off, r.unread[i]? = some off → r.Drainable (env i) off := by
    intro i off hi
    have hat := drainable_of_finished hintact hloop i off hi
    rwa [List.length_nil, Nat.zero_add] at hat
  obtain ⟨s', -, hs', -, -, -, hclosed⟩ := exists_drop hk hintact hdrainable
  -- with as many rounds as both need, the two runs are one
  have hsame := (drop_of_le (Nat.le_max_left _ _) h).symm.trans
    (drop_of_le (Nat.le_max_right fuel (r.unread.length + 1)) hs')
  cases hsame
  exact hclosed

/-- **Descriptors are owned once.** A payload that was built by pushes is delivered by
`from_builder`, read by any calls in any order, and dropped. The duplicates that `from_builder` made
are those that the calls handed out, each by one `read_fd`, and behind them those that the drop
closed; they are pairwise different. The descriptors of the builder are none of them, and are still
open. The drop comes to its end unless the count of a strong object it finds is full.

**Proof sketch.** Before the first call all duplicates are pending; the calls and the drop take from
the pending ones in order. A duplicate was not open when it was made, unlike those made before it
and those of the builder. -/
theorem owned_once {φ : Type} {dup : φ → Fd → Option (Fd × φ)} {isOpen : φ → Fd → Prop}
    (hdup : DupSpec dup isOpen) {kernel : KernelWrite} (hk : Accepts kernel)
    {undef undef' : ℕ → UInt32} {items : List (BinderDevice × Item)} {b : PayloadBuilder}
    (hb : PayloadBuilder.new.pushAll undef items = some b) {dev dev' : BinderDevice}
    {files files' : φ} {dups : List Fd} {r : PayloadReader}
    (hopen : ∀ d ∈ Item.descriptors (items.map Prod.snd), isOpen files d)
    (hr : fromBuilder (logged dup) undef' dev (files, []) b = some (r, dev', files', dups))
    {cs : List ReaderCall} {r' : PayloadReader} {handed : List Fd}
    (hcalls : r.calls kernel cs = (r', handed)) (env : ℕ → DropMet) :
    (∀ fuel s, drop kernel env fuel r' = .finished s → handed ++ s.closed = dups) ∧
      ((∀ i off, r'.unread[i]? = some off → r'.HasRoom (env i).found off) →
        ∃ s, drop kernel env (r'.unread.length + 1) r' = .finished s) ∧
      dups.Nodup ∧ (∀ d ∈ dups, ¬ isOpen files d ∧ isOpen files' d) ∧
      ∀ d, d ∈ b.ownedFds ∨ d ∈ Item.descriptors (items.map Prod.snd) →
        d ∉ dups ∧ isOpen files' d := by
  obtain ⟨⟨items', hitems, hdups⟩, hpending, hobjects⟩ := delivered_pending hb hr
  obtain ⟨hnodup, hfresh, hafter⟩ := hdup.dupAll hitems
  have hcalled := Called.of_calls kernel r cs
  rw [hcalls] at hcalled
  have hmem : ∀ off ∈ r'.unread, off ∈ r.unread := fun off hoff => hcalled.unread.subset hoff
  have hintact : ∀ off ∈ r'.unread, r'.Intact off := fun off hoff =>
    (hobjects off (hmem off hoff)).1.of_data hcalled.data
  refine ⟨?_, ?_, hdups ▸ hnodup, ?_, ?_⟩
  · intro fuel s hs
    rw [closed_of_finished hk hintact hs, ← hpending]
    exact hcalled.pending
  · intro hroom
    obtain ⟨s, -, hs, -⟩ := exists_drop hk hintact fun i off hi => by
      refine ⟨?_, hroom i off hi⟩
      rw [typeAt_of_data hcalled.data]
      exact (hobjects off (hmem off (List.mem_of_getElem? hi))).2
    exact ⟨s, hs⟩
  · rw [hdups]
    exact fun d hd => ⟨hfresh d hd, (hafter d).mpr (Or.inl hd)⟩
  · intro d hd
    have hpushed : d ∈ Item.descriptors (items.map Prod.snd) := by
      rcases hd with hd | hd
      · rcases PayloadBuilder.mem_ownedFds_of_pushAll hb hd with hnone | hd
        · cases hnone
        · exact hd
      · exact hd
    refine ⟨fun hmem => hfresh d (hdups ▸ hmem) (hopen d hpushed), ?_⟩
    exact (hafter d).mpr (Or.inr (hopen d hpushed))

/-- The lowest free descriptor below sixteen, as `dup` of a process that may have sixteen open. -/
def lowestDup (opened : List Fd) (d : Fd) : Option (Fd × List Fd) :=
  if d ∈ opened then
    (((List.range 16).filterMap fun n => Fd.ofRaw (UInt32.ofNat n)).find? (· ∉ opened)).map
      fun d' => (d', d' :: opened)
  else none

/-- Such a process keeps to what is asked of `dup`. -/
theorem lowestDup_spec : DupSpec lowestDup fun opened d => d ∈ opened := by
  have hcases : ∀ {opened files' : List Fd} {d d' : Fd}, lowestDup opened d = some (d', files') →
      d' ∉ opened ∧ files' = d' :: opened := by
    intro opened files' d d' h
    unfold lowestDup at h
    split_ifs at h
    obtain ⟨x, hfind, heq⟩ := Option.map_eq_some_iff.mp h
    cases heq
    exact ⟨by simpa using List.find?_some hfind, rfl⟩
  refine ⟨fun h => (hcases h).1, fun h x => ?_⟩
  rw [(hcases h).2, List.mem_cons]

/-- Two descriptors around an object: one is handed out, the other closed by the drop. -/
theorem owned_once_handedAndClosed :
    ∃ b r dev' r' s, PayloadBuilder.new.pushAll (fun _ => 0)
        [(sampleDevice, .fd ⟨3, by decide⟩ 9 true),
          (sampleDevice, .binderRef (.erased (.weakObject ⟨1, ⟨1, 0⟩⟩))),
          (sampleDevice, .fd ⟨4, by decide⟩ 9 false)] = some b ∧
      fromBuilder (logged lowestDup) (fun _ => 0) sampleDevice ([⟨3, by decide⟩, ⟨4, by decide⟩], [])
        b = some (r, dev', [⟨1, by decide⟩, ⟨0, by decide⟩, ⟨3, by decide⟩, ⟨4, by decide⟩],
          [⟨0, by decide⟩, ⟨1, by decide⟩]) ∧
      r.calls (fun _ _ => none) [.readFd, .readFd] = (r', [⟨0, by decide⟩]) ∧
      drop (fun _ _ => none) sampleMet 3 r' = .finished s ∧ s.closed = [⟨1, by decide⟩] := by
  obtain ⟨b, hb⟩ : ∃ b, PayloadBuilder.new.pushAll (fun _ => 0)
      [(sampleDevice, .fd ⟨3, by decide⟩ 9 true),
        (sampleDevice, .binderRef (.erased (.weakObject ⟨1, ⟨1, 0⟩⟩))),
        (sampleDevice, .fd ⟨4, by decide⟩ 9 false)] = some b := ⟨_, rfl⟩
  obtain ⟨r, dev', hr⟩ : ∃ r dev', fromBuilder (logged lowestDup) (fun _ => 0) sampleDevice
      ([⟨3, by decide⟩, ⟨4, by decide⟩], []) b = some (r, dev',
        [⟨1, by decide⟩, ⟨0, by decide⟩, ⟨3, by decide⟩, ⟨4, by decide⟩],
        [⟨0, by decide⟩, ⟨1, by decide⟩]) := by
    cases hb
    exact ⟨_, _, rfl⟩
  obtain ⟨r', hcalls, hlen, hroom⟩ : ∃ r', r.calls (fun _ _ => none) [.readFd, .readFd] =
      (r', [⟨0, by decide⟩]) ∧ r'.unread.length = 2 ∧
        ∀ i off, r'.unread[i]? = some off → r'.HasRoom (sampleMet i).found off := by
    cases hb
    cases hr
    exact ⟨_, rfl, rfl, fun i off _ _ id _ hsome =>
      absurd hsome (by simp [sampleMet, BinderDevice.new, DashMap.empty])⟩
  have hopen : ∀ d ∈ Item.descriptors [Item.fd ⟨3, by decide⟩ 9 true,
      .binderRef (.erased (.weakObject ⟨1, ⟨1, 0⟩⟩)), .fd ⟨4, by decide⟩ 9 false],
      d ∈ [(⟨3, by decide⟩ : Fd), ⟨4, by decide⟩] := fun d hd => hd
  obtain ⟨hclosed, hfinished, -⟩ :=
    owned_once lowestDup_spec (fun _ _ => rfl) hb hopen hr hcalls sampleMet
  obtain ⟨s, hs⟩ := hfinished hroom
  refine ⟨b, r, dev', r', s, hb, hr, hcalls, by rwa [hlen] at hs, ?_⟩
  exact (List.cons.inj (hclosed _ s hs)).2

end PayloadReader

end BinderBinder
