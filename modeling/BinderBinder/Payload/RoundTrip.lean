import Mathlib.Tactic.FinCases
import BinderBinder.Payload.Reader

set_option relaxedAutoImplicit false
set_option autoImplicit false

/-!
# What is pushed is read back

A payload that was built by pushes and delivered by `from_builder` gives its items back to a reader
that asks for them in the same order. The two cursors of the reader stay in step with the builder:
before each item the byte cursor is where the data ended when the item was pushed, and the object
index counts the objects pushed before it.

## Main definitions

* `Item.AllWrote` — some bytes are what pushes of the items append, up to undefined padding.
* `Item.dupAll` — the items with each descriptor replaced by a duplicate.
* `PayloadReader.StandsBefore` — both cursors stand in front of the items.
* `PayloadReader.ReadsBack` — reading in order succeeds at every step and gives the items.

## Main results

* `PayloadReader.patchFds_spec` — `from_builder` duplicates the descriptors and nothing else.
* `PayloadReader.StandsBefore.readsBack` — a reader in front of the items reads them back.
* `PayloadReader.fromBuilder_readsBack` — the round trip of a local payload.
-/

namespace BinderBinder

/-! ## Bytes of items, up to undefined padding -/

namespace Item

/-- `out` is what a push of the item appends to `n` bytes, for some content of unused halves. -/
def Wrote (n : ℕ) (item : Item) (out : List UInt8) : Prop := ∃ undef, out = item.bytesAt undef n

/-- `out` is what pushes of the items append to `n` bytes, for some content of unused halves. -/
def AllWrote : ℕ → List Item → List UInt8 → Prop
  | _, [], out => out = []
  | n, item :: items, out =>
    ∃ a b, out = a ++ b ∧ item.Wrote n a ∧ AllWrote (n + item.sizeAt n) items b

/-- The pushes write what they write. -/
theorem allWrote_allBytes (undef : ℕ → UInt32) (n : ℕ) (items : List Item) :
    AllWrote n items (allBytes undef n items) := by
  induction items generalizing n with
  | nil => rfl
  | cons item items ih => exact ⟨_, _, rfl, ⟨undef, rfl⟩, ih _⟩

/-- What the pushes append is as long as they grow the data. -/
theorem AllWrote.length {n : ℕ} {items : List Item} {out : List UInt8}
    (h : AllWrote n items out) : out.length = allSize n items := by
  induction items generalizing n out with
  | nil => rw [show out = [] from h]; rfl
  | cons item items ih =>
    obtain ⟨a, b, rfl, ⟨undef, rfl⟩, hb⟩ := h
    rw [List.length_append, length_bytesAt, ih hb, allSize]

section Dup

variable {φ : Type} (dup : φ → Fd → Option (Fd × φ))

/-- The items with each descriptor replaced by a duplicate, in the order of the pushes. -/
def dupAll (files : φ) : List Item → Option (List Item × φ)
  | [] => some ([], files)
  | .fd d cookie owned :: items =>
    (dup files d).bind fun (d', files) =>
      (dupAll files items).map fun (items', files) => (.fd d' cookie owned :: items', files)
  | item :: items => (dupAll files items).map fun (items', files) => (item :: items', files)

variable {dup}

/-- The same item, but for the number of a descriptor. -/
inductive Alike : Item → Item → Prop
  | refl (item : Item) : Alike item item
  | fd (d d' : Fd) (cookie : Usize) (owned : Bool) : Alike (.fd d cookie owned) (.fd d' cookie owned)

/-- Duplicating changes nothing but the numbers of descriptors. -/
theorem dupAll_alike {files files' : φ} {items items' : List Item}
    (h : dupAll dup files items = some (items', files')) : List.Forall₂ Alike items items' := by
  induction items generalizing files items' with
  | nil =>
    cases h
    exact .nil
  | cons item items ih =>
    cases item with
    | bytes bs =>
      obtain ⟨⟨items₁, files₁⟩, hitems, heq⟩ := Option.map_eq_some_iff.mp h
      cases heq
      exact .cons (.refl _) (ih hitems)
    | binderRef x =>
      obtain ⟨⟨items₁, files₁⟩, hitems, heq⟩ := Option.map_eq_some_iff.mp h
      cases heq
      exact .cons (.refl _) (ih hitems)
    | fd d cookie owned =>
      obtain ⟨⟨d', files₁⟩, -, hmap⟩ := Option.bind_eq_some_iff.mp h
      obtain ⟨⟨items₁, files₂⟩, hitems, heq⟩ := Option.map_eq_some_iff.mp hmap
      cases heq
      exact .cons (.fd d d' cookie owned) (ih hitems)

/-- Alike items lie at the same places. -/
theorem allLayout_of_alike {n : ℕ} {items items' : List Item}
    (h : List.Forall₂ Alike items items') :
    allOffsets n items' = allOffsets n items ∧ allSize n items' = allSize n items := by
  induction h generalizing n with
  | nil => exact ⟨rfl, rfl⟩
  | @cons item _ _ _ ha _ ih =>
    cases ha with
    | refl =>
      obtain ⟨hoffs, hsize⟩ := @ih (n + item.sizeAt n)
      exact ⟨by rw [allOffsets, allOffsets, hoffs], by rw [allSize, allSize, hsize]⟩
    | fd d d' cookie owned =>
      obtain ⟨hoffs, hsize⟩ := @ih (n + (Item.fd d cookie owned).sizeAt n)
      refine ⟨?_, ?_⟩
      · rw [allOffsets, allOffsets, ← hoffs]
        rfl
      · rw [allSize, allSize, ← hsize]
        rfl

/-- Alike items have the same handles. -/
theorem mem_of_alike {items items' : List Item} (h : List.Forall₂ Alike items items')
    {x : ToBinderObjectOrRef} (hx : .binderRef x ∈ items') : .binderRef x ∈ items := by
  induction h with
  | nil => exact hx
  | cons ha _ ih =>
    rcases List.mem_cons.mp hx with hx | hx
    · cases ha with
      | refl item => exact hx ▸ List.mem_cons_self
      | fd d d' cookie owned => cases hx
    · exact List.mem_cons_of_mem _ (ih hx)

end Dup

end Item

namespace PayloadReader

/-! ## Local delivery -/

section Patch

variable {φ : Type} {dup : φ → Fd → Option (Fd × φ)} {undef : ℕ → UInt32}

/-- The header at the start of a flat record. -/
theorem readAt_header_flat (pre post : List UInt8) (o : FlatBinderObject) :
    BinderObjectHeader.layout.readAt (pre ++ (FlatBinderObject.layout.encode o ++ post))
      pre.length = some o.hdr := by
  have hlen := FlatBinderObject.layout.length_encode o
  rw [FlatBinderObject.layout_size] at hlen
  rw [Layout.readAt, if_pos (by simp only [List.length_append, hlen,
    BinderObjectHeader.layout_size]; omega), List.drop_left, FlatBinderObject.header_decode]

/-- The header at the start of a descriptor record. -/
theorem readAt_header_fd (pre post : List UInt8) (o : BinderFdObject) :
    BinderObjectHeader.layout.readAt (pre ++ (BinderFdObject.layout.encode o ++ post))
      pre.length = some o.hdr := by
  have hlen := BinderFdObject.layout.length_encode o
  rw [BinderFdObject.layout_size] at hlen
  rw [Layout.readAt, if_pos (by simp only [List.length_append, hlen,
    BinderObjectHeader.layout_size]; omega), List.drop_left, BinderFdObject.header_decode]

/-- The record of a handle is left as it is. -/
theorem patchFds_flat (files : φ) (pre post : List UInt8) (x : BinderObjectOrRef)
    (upper : UInt32) (offs : List ℕ) :
    patchFds dup undef files
        (pre ++ (FlatBinderObject.layout.encode (x.getFlatBinderObject upper) ++ post))
        (pre.length :: offs) =
      patchFds dup undef files
        (pre ++ (FlatBinderObject.layout.encode (x.getFlatBinderObject upper) ++ post)) offs := by
  rw [patchFds, readAt_header_flat]
  simp only [Option.bind_eq_bind, Option.bind_some, BinderObjectOrRef.ofU32_getFlatBinderObject]
  cases x <;> rfl

/-- The record of a descriptor becomes that of a duplicate. -/
theorem patchFds_fd (files : φ) (pre post : List UInt8) (d : Fd) (cookie : Usize)
    (upper : UInt32) (offs : List ℕ) :
    patchFds dup undef files
        (pre ++ (BinderFdObject.layout.encode (fdObject upper d cookie) ++ post))
        (pre.length :: offs) =
      (dup files d).bind fun (d', files) =>
        patchFds dup undef files (pre ++ (BinderFdObject.layout.encode
          (fdObject (undef pre.length) d' cookie) ++ post)) offs := by
  rw [patchFds, readAt_header_fd]
  simp only [Option.bind_eq_bind, Option.bind_some, fdObject, BinderType.ofU32_toU32,
    Layout.readAt_append, BinderFdObjectData.fd_ofFd, Fd.ofRaw_raw, Layout.writeAt_append]

/-- Over what an item wrote, the rest of the data is behind the item. -/
theorem length_append_bytesAt (undef' : ℕ → UInt32) (pre : List UInt8) (item : Item) :
    (pre ++ item.bytesAt undef' pre.length).length = pre.length + item.sizeAt pre.length := by
  rw [List.length_append, Item.length_bytesAt]

/-- A duplicate takes the same place. -/
theorem length_append_duplicate (undef' : ℕ → UInt32) (pre : List UInt8) (d d' : Fd)
    (cookie : Usize) (owned : Bool) :
    (pre ++ (Item.fd d cookie owned).bytesAt undef' pre.length).length =
      (pre ++ (Item.fd d' cookie owned).bytesAt undef pre.length).length := by
  rw [length_append_bytesAt, length_append_bytesAt]
  rfl

/-- A byte string is stepped over. -/
theorem patchFds_bytes (files : φ) (pre rest bs : List UInt8) (items : List Item) :
    patchFds dup undef files (pre ++ (bs ++ rest)) (Item.allOffsets pre.length (.bytes bs :: items)) =
      patchFds dup undef files ((pre ++ bs) ++ rest)
        (Item.allOffsets (pre ++ bs).length items) := by
  rw [List.append_assoc, List.length_append]
  rfl

/-- What a handle wrote is stepped over. -/
theorem patchFds_binderRef (files : φ) (pre rest : List UInt8) (undef' : ℕ → UInt32)
    (x : ToBinderObjectOrRef) (items : List Item) :
    patchFds dup undef files (pre ++ ((Item.binderRef x).bytesAt undef' pre.length ++ rest))
        (Item.allOffsets pre.length (.binderRef x :: items)) =
      patchFds dup undef files ((pre ++ (Item.binderRef x).bytesAt undef' pre.length) ++ rest)
        (Item.allOffsets (pre ++ (Item.binderRef x).bytesAt undef' pre.length).length items) := by
  have hflat := @patchFds_flat φ dup undef files
    (pre ++ List.replicate (padding objectAlign pre.length) 0) rest x.handle
    (undef' (pre.length + padding objectAlign pre.length))
    (Item.allOffsets (pre.length + (Item.binderRef x).sizeAt pre.length) items)
  rw [length_append_bytesAt]
  simp only [Item.bytesAt, Item.recordAt, List.append_assoc, List.length_append,
    List.length_replicate] at hflat ⊢
  rw [← hflat]
  rfl

/-- What a descriptor wrote becomes what its duplicate would have written in its place. -/
theorem patchFds_descriptor (files : φ) (pre rest : List UInt8) (undef' : ℕ → UInt32) (d : Fd)
    (cookie : Usize) (owned : Bool) (items : List Item) :
    patchFds dup undef files (pre ++ ((Item.fd d cookie owned).bytesAt undef' pre.length ++ rest))
        (Item.allOffsets pre.length (.fd d cookie owned :: items)) =
      (dup files d).bind fun (d', files) => patchFds dup undef files
        ((pre ++ (Item.fd d' cookie owned).bytesAt undef pre.length) ++ rest)
        (Item.allOffsets (pre ++ (Item.fd d' cookie owned).bytesAt undef pre.length).length
          items) := by
  have hfd := @patchFds_fd φ dup undef files
    (pre ++ List.replicate (padding objectAlign pre.length) 0) rest d cookie
    (undef' (pre.length + padding objectAlign pre.length))
    (Item.allOffsets (pre.length + (Item.fd d cookie owned).sizeAt pre.length) items)
  simp only [length_append_bytesAt]
  simp only [Item.bytesAt, Item.recordAt, List.append_assoc, List.length_append,
    List.length_replicate] at hfd ⊢
  exact hfd

/-- `from_builder` turns what the items wrote into what the duplicated items would have written.

**Proof sketch.** Induction on the items, with everything before them already done. Bytes and
handles are stepped over; the record of a descriptor is overwritten in place by one of the same
size, so the items behind it stay where they are. -/
theorem patchFds_spec {items items' : List Item} {files files' : φ} (pre : List UInt8)
    {out : List UInt8} (hw : Item.AllWrote pre.length items out)
    (hdup : Item.dupAll dup files items = some (items', files')) :
    ∃ out', patchFds dup undef files (pre ++ out) (Item.allOffsets pre.length items) =
        some (pre ++ out', files') ∧
      Item.AllWrote pre.length items' out' := by
  induction items generalizing pre out files items' with
  | nil =>
    cases hdup
    exact ⟨out, rfl, hw⟩
  | cons item items ih =>
    obtain ⟨_, rest, rfl, ⟨undef', rfl⟩, hrest⟩ := hw
    rw [← length_append_bytesAt undef' pre item] at hrest
    cases item with
    | bytes bs =>
      obtain ⟨⟨items₁, files₁⟩, hitems, heq⟩ := Option.map_eq_some_iff.mp hdup
      cases heq
      obtain ⟨rest', hpatch, hwrote⟩ := ih _ hrest hitems
      rw [length_append_bytesAt] at hwrote
      refine ⟨bs ++ rest', ?_, _, rest', rfl, ⟨undef', rfl⟩, hwrote⟩
      rw [← List.append_assoc pre bs rest']
      exact (patchFds_bytes files pre rest bs items).trans hpatch
    | binderRef x =>
      obtain ⟨⟨items₁, files₁⟩, hitems, heq⟩ := Option.map_eq_some_iff.mp hdup
      cases heq
      obtain ⟨rest', hpatch, hwrote⟩ := ih _ hrest hitems
      rw [length_append_bytesAt] at hwrote
      refine ⟨(Item.binderRef x).bytesAt undef' pre.length ++ rest', ?_, _, rest', rfl,
        ⟨undef', rfl⟩, hwrote⟩
      rw [← List.append_assoc pre _ rest']
      exact (patchFds_binderRef files pre rest undef' x items).trans hpatch
    | fd d cookie owned =>
      obtain ⟨⟨d', files₁⟩, hd, hmap⟩ := Option.bind_eq_some_iff.mp hdup
      obtain ⟨⟨items₁, files₂⟩, hitems, heq⟩ := Option.map_eq_some_iff.mp hmap
      cases heq
      rw [length_append_duplicate undef' pre d d'] at hrest
      obtain ⟨rest', hpatch, hwrote⟩ := ih _ hrest hitems
      rw [length_append_bytesAt] at hwrote
      refine ⟨(Item.fd d' cookie owned).bytesAt undef pre.length ++ rest', ?_, _, rest', rfl,
        ⟨undef, rfl⟩, hwrote⟩
      rw [← List.append_assoc pre _ rest', patchFds_descriptor, hd]
      exact hpatch

/-- If `from_builder` gets through the data, then every descriptor was duplicated. -/
theorem exists_dupAll {items : List Item} {files files' : φ} {pre out data : List UInt8}
    (hw : Item.AllWrote pre.length items out)
    (h : patchFds dup undef files (pre ++ out) (Item.allOffsets pre.length items) =
      some (data, files')) :
    ∃ items', Item.dupAll dup files items = some (items', files') := by
  induction items generalizing pre out files with
  | nil =>
    cases h
    exact ⟨[], rfl⟩
  | cons item items ih =>
    obtain ⟨_, rest, rfl, ⟨undef', rfl⟩, hrest⟩ := hw
    rw [← length_append_bytesAt undef' pre item] at hrest
    cases item with
    | bytes bs =>
      obtain ⟨items', hitems⟩ := ih hrest ((patchFds_bytes files pre rest bs items).symm.trans h)
      exact ⟨_, Option.map_eq_some_iff.mpr ⟨_, hitems, rfl⟩⟩
    | binderRef x =>
      obtain ⟨items', hitems⟩ :=
        ih hrest ((patchFds_binderRef files pre rest undef' x items).symm.trans h)
      exact ⟨_, Option.map_eq_some_iff.mpr ⟨_, hitems, rfl⟩⟩
    | fd d cookie owned =>
      rw [patchFds_descriptor] at h
      obtain ⟨⟨d', files₁⟩, hd, h⟩ := Option.bind_eq_some_iff.mp h
      rw [length_append_duplicate undef' pre d d'] at hrest
      obtain ⟨items', hitems⟩ := ih hrest h
      exact ⟨_, Option.bind_eq_some_iff.mpr ⟨_, hd, Option.map_eq_some_iff.mpr ⟨_, hitems, rfl⟩⟩⟩

end Patch

/-! ## Reading in order -/

/-- Both cursors stand in front of the items: the data from the byte cursor on is theirs, and so
is the offset table from the object index on. -/
structure StandsBefore (r : PayloadReader) (items : List Item) : Prop where
  data : ∃ pre out, r.data.items = pre ++ out ∧ pre.length = r.nextDataIndex ∧
    Item.AllWrote r.nextDataIndex items out
  offsets : ∃ v passed, r.offsets = some v ∧
    v.items = passed ++ Item.allOffsets r.nextDataIndex items ∧
    passed.length = r.nextOffsetIndex ∧ ∀ off ∈ passed, off ≤ r.nextDataIndex
  fits : r.data.items.length < usizeSize

namespace StandsBefore

variable {r : PayloadReader} {item : Item} {items : List Item}

/-- Behind the cursor there are only the offsets of the items in front of it, and these lie behind
a leading byte string. -/
theorem le_offsetBehindCursor {bs : List UInt8} (h : r.StandsBefore (.bytes bs :: items)) {off : ℕ}
    (hoff : off ∈ r.offsetBehindCursor) : r.nextDataIndex + bs.length ≤ off := by
  obtain ⟨v, passed, hv, hitems, -, hpassed⟩ := h.offsets
  rw [offsetBehindCursor, hv, Option.bind_some, hitems, Option.mem_def,
    Item.allOffsets, Item.offsetAt, List.nil_append] at hoff
  have hmem := List.mem_of_find?_eq_some hoff
  have hbehind : r.nextDataIndex < off := by simpa using List.find?_some hoff
  rcases List.mem_append.mp hmem with hmem | hmem
  · have := hpassed off hmem
    omega
  · exact (Item.mem_allOffsets hmem).1

/-- A byte string is read back, and the reader stands in front of the rest. -/
theorem readBytes {bs : List UInt8} (h : r.StandsBefore (.bytes bs :: items)) :
    ∃ r', r.readBytes bs.length = some (.ok bs, r') ∧ r'.StandsBefore items ∧
      r'.device = r.device := by
  obtain ⟨pre, out, hdata, hpre, a, rest, rfl, ⟨undef, ha⟩, hrest⟩ := h.data
  rw [show a = bs from ha] at hdata
  obtain ⟨v, passed, hv, hitems, hindex, hpassed⟩ := h.offsets
  have hfits := h.fits
  have hlen : r.data.items.length = r.nextDataIndex + (bs.length + rest.length) := by
    rw [hdata, List.length_append, List.length_append, hpre]
  refine ⟨{ r with nextDataIndex := r.nextDataIndex + bs.length }, ?_, ⟨?_, ?_, hfits⟩, rfl⟩
  · have hfree : ¬ ∃ off ∈ r.offsetBehindCursor, off < r.nextDataIndex + bs.length := by
      rintro ⟨off, hoff, hlt⟩
      have := h.le_offsetBehindCursor hoff
      omega
    have hslice : (r.data.items.drop r.nextDataIndex).take bs.length = bs := by
      rw [hdata, ← hpre, List.drop_left]
      exact List.take_left
    rw [PayloadReader.readBytes, usizeAdd, if_pos (by omega), Option.map_some, if_neg hfree,
      if_pos (by omega), hslice]
  · exact ⟨pre ++ bs, rest, by rw [hdata, List.append_assoc],
      by rw [List.length_append, hpre], hrest⟩
  · refine ⟨v, passed, hv, hitems, hindex, ?_⟩
    intro off hoff
    have := hpassed off hoff
    show off ≤ r.nextDataIndex + bs.length
    omega

/-- The next object is the record of a leading object item. -/
theorem nextOffset (hobj : item.IsObject) (h : r.StandsBefore (item :: items)) :
    r.nextOffset = some (r.nextDataIndex + padding objectAlign r.nextDataIndex) := by
  obtain ⟨v, passed, hv, hitems, hindex, -⟩ := h.offsets
  rw [PayloadReader.nextOffset, hv, Option.bind_some, hitems, ← hindex,
    List.getElem?_append_right (Nat.le_refl _), Nat.sub_self, Item.allOffsets,
    Item.offsetAt_of_isObject hobj]
  rfl

/-- The data around the record of a leading object item. -/
theorem record (hobj : item.IsObject) (h : r.StandsBefore (item :: items)) :
    ∃ pre undef rest, r.data.items =
        pre ++ (item.recordAt undef (r.nextDataIndex + padding objectAlign r.nextDataIndex) ++
          rest) ∧
      pre.length = r.nextDataIndex + padding objectAlign r.nextDataIndex := by
  obtain ⟨pre, out, hdata, hpre, a, rest, rfl, ⟨undef, rfl⟩, -⟩ := h.data
  refine ⟨pre ++ List.replicate (padding objectAlign r.nextDataIndex) 0, undef, rest, ?_, ?_⟩
  · rw [hdata, Item.bytesAt_of_isObject undef hobj]
    simp only [List.append_assoc]
  · rw [List.length_append, List.length_replicate, hpre]

/-- With both cursors moved over the record of a leading object item, the reader stands in front
of the rest. -/
theorem advance (hobj : item.IsObject) (h : r.StandsBefore (item :: items)) :
    StandsBefore { r with
      nextOffsetIndex := r.nextOffsetIndex + 1
      nextDataIndex := r.nextDataIndex + padding objectAlign r.nextDataIndex + objectSize }
      items := by
  obtain ⟨pre, out, hdata, hpre, a, rest, rfl, ⟨undef, rfl⟩, hrest⟩ := h.data
  obtain ⟨v, passed, hv, hitems, hindex, hpassed⟩ := h.offsets
  have hnext : r.nextDataIndex + item.sizeAt r.nextDataIndex =
      r.nextDataIndex + padding objectAlign r.nextDataIndex + objectSize := by
    rw [Item.sizeAt_of_isObject hobj, Nat.add_assoc]
  rw [hnext] at hrest
  rw [Item.allOffsets, Item.offsetAt_of_isObject hobj, hnext] at hitems
  refine ⟨⟨pre ++ item.bytesAt undef r.nextDataIndex, rest, ?_, ?_, hrest⟩,
    ⟨v, passed ++ [r.nextDataIndex + padding objectAlign r.nextDataIndex], hv, ?_, ?_, ?_⟩, h.fits⟩
  · rw [hdata, List.append_assoc]
  · rw [List.length_append, Item.length_bytesAt, hpre, hnext]
  · rw [hitems, List.append_assoc]
  · rw [List.length_append, hindex]
    rfl
  · intro off hoff
    show off ≤ r.nextDataIndex + padding objectAlign r.nextDataIndex + objectSize
    rcases List.mem_append.mp hoff with hoff | hoff
    · have := hpassed off hoff
      omega
    · rw [List.mem_singleton] at hoff
      omega

/-- A handle is read back as an equal handle. -/
theorem readBinderRef {kernel : KernelWrite} (hk : Accepts kernel) {dev : BinderDevice}
    {x : ToBinderObjectOrRef} (hx : x.handle.device = dev.addr)
    (hdec : CanDecode dev x.handle) (h : r.StandsBefore (.binderRef x :: items)) :
    ∃ y r' dev', r.readBinderRef kernel dev = some (.ok y, r', dev') ∧
      (y == x.handle) = true ∧ r'.StandsBefore items ∧ r'.device = r.device := by
  have hobj : (Item.binderRef x).IsObject := trivial
  obtain ⟨pre, undef, rest, hdata, hpre⟩ := h.record hobj
  simp only [Item.recordAt] at hdata
  obtain ⟨y, dev', hdecode, hy⟩ := decodeFlat_handle hk hx hdec
    (undef (r.nextDataIndex + padding objectAlign r.nextDataIndex))
  refine ⟨y, _, dev', ?_, hy, h.advance hobj, rfl⟩
  rw [PayloadReader.readBinderRef, h.nextOffset hobj]
  simp only [hdata, ← hpre, readAt_header_flat, Layout.readAt_append, Option.bind_eq_bind,
    Option.bind_some, BinderObjectOrRef.ofU32_getFlatBinderObject]
  rw [hpre, hdecode]
  cases x.handle <;> rfl

/-- A descriptor is read back with its cookie. -/
theorem readFd {d : Fd} {cookie : Usize} {owned : Bool}
    (h : r.StandsBefore (.fd d cookie owned :: items)) :
    ∃ r', r.readFd = some (.ok (d, cookie), r') ∧ r'.StandsBefore items ∧
      r'.device = r.device := by
  have hobj : (Item.fd d cookie owned).IsObject := trivial
  obtain ⟨pre, undef, rest, hdata, hpre⟩ := h.record hobj
  simp only [Item.recordAt] at hdata
  refine ⟨_, ?_, h.advance hobj, rfl⟩
  rw [PayloadReader.readFd, h.nextOffset hobj]
  simp only [hdata, ← hpre, readAt_header_fd, Layout.readAt_append, Option.bind_eq_bind,
    Option.bind_some, fdObject, BinderType.ofU32_toU32, BinderFdObjectData.fd_ofFd, Fd.ofRaw_raw]

end StandsBefore

/-! ## The round trip -/

section RoundTrip

variable (kernel : KernelWrite)

/-- Reading in the order of the items succeeds at every step and gives the items: the bytes of a
byte string, a handle equal to the one that was pushed, a descriptor with its cookie. Other threads
may change the device in between, so a handle is read in any state of the device that has what it
needs. -/
def ReadsBack (r : PayloadReader) : List Item → Prop
  | [] => True
  | .bytes bs :: items => ∃ r', r.readBytes bs.length = some (.ok bs, r') ∧ ReadsBack r' items
  | .binderRef x :: items => ∀ dev : BinderDevice, dev.addr = r.device → CanDecode dev x.handle →
      ∃ y r' dev', r.readBinderRef kernel dev = some (.ok y, r', dev') ∧ (y == x.handle) = true ∧
        ReadsBack r' items
  | .fd d cookie _ :: items => ∃ r', r.readFd = some (.ok (d, cookie), r') ∧ ReadsBack r' items

variable {kernel}

/-- A reader in front of the items reads them back. -/
theorem StandsBefore.readsBack (hk : Accepts kernel) {r : PayloadReader} {items : List Item}
    (hdev : ∀ x, .binderRef x ∈ items → x.handle.device = r.device) (h : r.StandsBefore items) :
    ReadsBack kernel r items := by
  induction items generalizing r with
  | nil => trivial
  | cons item items ih =>
    have hrest : ∀ x, .binderRef x ∈ items → x.handle.device = r.device :=
      fun x hx => hdev x (List.mem_cons_of_mem _ hx)
    cases item with
    | bytes bs =>
      obtain ⟨r', hread, hr', hd⟩ := h.readBytes
      exact ⟨r', hread, ih (by rwa [hd]) hr'⟩
    | binderRef x =>
      intro dev haddr hdec
      have hx : x.handle.device = dev.addr := by rw [haddr, hdev x List.mem_cons_self]
      obtain ⟨y, r', dev', hread, hy, hr', hd⟩ := h.readBinderRef hk hx hdec
      exact ⟨y, r', dev', hread, hy, ih (by rwa [hd]) hr'⟩
    | fd d cookie owned =>
      obtain ⟨r', hread, hr', hd⟩ := h.readFd
      exact ⟨r', hread, ih (by rwa [hd]) hr'⟩

/-- **Round trip of a local payload.** Items that are pushed into a new builder and delivered by
`from_builder` are read back in the order of the pushes, each descriptor as its duplicate. Pushing,
delivering and reading succeed at every step, given what these rely on: strong objects that are
registered and can be counted once more, a kernel that takes the commands of a decoded reference,
and descriptors that can be duplicated.

**Proof sketch.** The pushes write the bytes and offsets of the items; `from_builder` turns them
into those of the duplicated items; and a new reader stands in front of these. -/
theorem fromBuilder_readsBack {φ : Type} {dup : φ → Fd → Option (Fd × φ)}
    {undef undef' : ℕ → UInt32} (hk : Accepts kernel) {d : Addr}
    {items : List (BinderDevice × Item)}
    (hdev : ∀ x, .binderRef x ∈ items.map Prod.snd → x.handle.device = d)
    (hpush : ∀ p ∈ items, p.2.CanPush p.1) :
    ∃ b, PayloadBuilder.new.pushAll undef items = some b ∧
      ∀ {dev dev' : BinderDevice} {files files' : φ} {clones : List BinderObjectOrRef}
        {items' : List Item}, dev.addr = d → b.data.length < usizeSize →
        cloneAll dev b.binderObjects = some (clones, dev') →
        Item.dupAll dup files (items.map Prod.snd) = some (items', files') →
        ∃ r, fromBuilder dup undef' dev files b = some (r, dev', files') ∧
          ReadsBack kernel r items' := by
  obtain ⟨b, hb⟩ :=
    Option.isSome_iff_exists.mp (PayloadBuilder.isSome_pushAll PayloadBuilder.new hpush)
  refine ⟨b, hb, ?_⟩
  intro dev dev' files files' clones items' haddr hfits hclone hdup
  obtain ⟨hdata, hoffs⟩ := PayloadBuilder.pushAll_spec hb
  simp only [PayloadBuilder.new, List.length_nil, List.nil_append] at hdata hoffs
  obtain ⟨out', hpatch, hwrote⟩ := @patchFds_spec φ dup undef' _ _ _ _ [] _
    (Item.allWrote_allBytes undef 0 (items.map Prod.snd)) hdup
  simp only [List.length_nil, List.nil_append] at hpatch hwrote
  have halike := Item.dupAll_alike hdup
  obtain ⟨hoffs', hsize'⟩ := @Item.allLayout_of_alike 0 _ _ halike
  refine ⟨⟨dev.addr, .owned out', some (.owned b.objOffsets), clones, 0, 0⟩, ?_, ?_⟩
  · simp only [fromBuilder, hdata, hoffs, hpatch, hclone, Option.bind_eq_bind, Option.bind_some]
    rfl
  · refine StandsBefore.readsBack hk ?_ ⟨⟨[], out', rfl, rfl, hwrote⟩,
      ⟨.owned b.objOffsets, [], rfl, ?_, rfl, by simp⟩, ?_⟩
    · intro x hx
      rw [hdev x (Item.mem_of_alike halike hx), haddr]
    · show b.objOffsets = [] ++ Item.allOffsets 0 items'
      rw [hoffs, ← hoffs', List.nil_append]
    · -- descriptors were replaced in place, so the data is as long as it was
      show out'.length < usizeSize
      rw [hwrote.length, hsize', ← Item.length_allBytes undef, ← hdata]
      exact hfits

end RoundTrip

/-- A device with one registered object. -/
def sampleDevice : BinderDevice :=
  { BinderDevice.new 1 with
    objects := DashMap.empty.insert ⟨1, 0⟩ ⟨7⟩
    objectRefcounts := DashMap.empty.insert ⟨1, 0⟩ (ObjectRefState.new ⟨1, 0⟩) }

/-- `dup` for a process that counts its descriptors up. -/
def sampleDup (next : ℕ) (_ : Fd) : Option (Fd × ℕ) :=
  (Fd.ofRaw (UInt32.ofNat next)).map fun d => (d, next + 1)

/-- The round trip of three bytes, a strong object, an empty byte string and a descriptor. -/
theorem fromBuilder_readsBack_mixed :
    ∃ b r dev' files', PayloadBuilder.new.pushAll (fun _ => 0)
        [(sampleDevice, .bytes [1, 2, 3]), (sampleDevice, .binderRef (.guard ⟨1, ⟨1, 0⟩, ⟨7⟩⟩)),
          (sampleDevice, .bytes []), (sampleDevice, .fd ⟨5, by decide⟩ 9 true)] = some b ∧
      fromBuilder sampleDup (fun _ => 0) sampleDevice 11 b = some (r, dev', files') ∧
      ReadsBack (fun _ _ => none) r
        [.bytes [1, 2, 3], .binderRef (.guard ⟨1, ⟨1, 0⟩, ⟨7⟩⟩), .bytes [],
          .fd ⟨11, by decide⟩ 9 true] := by
  have hpush : ∀ p ∈ [(sampleDevice, Item.bytes [1, 2, 3]),
      (sampleDevice, .binderRef (.guard ⟨1, ⟨1, 0⟩, ⟨7⟩⟩)), (sampleDevice, .bytes []),
      (sampleDevice, .fd ⟨5, by decide⟩ 9 true)], p.2.CanPush p.1 := by
    intro p hp
    fin_cases hp
    · trivial
    · show (sampleDevice.increaseLocal ⟨1, 0⟩).isSome
      decide
    · trivial
    · trivial
  obtain ⟨b, hb, hread⟩ := @fromBuilder_readsBack (fun _ _ => none) ℕ sampleDup (fun _ => 0)
    (fun _ => 0) (fun _ _ => rfl) 1 _ (by simp [ToBinderObjectOrRef.handle,
      BinderObjectOrRef.device]) hpush
  -- the builder holds one handle, counted once, and is shorter than the address space
  have hobjs : b.binderObjects = [.object ⟨1, ⟨1, 0⟩, ⟨7⟩, true⟩] := by
    have := congrArg (Option.map PayloadBuilder.binderObjects) hb
    exact (Option.some.inj this).symm
  have hlen : b.data.length = 56 := by
    have := congrArg (Option.map fun b => b.data.length) hb
    exact (Option.some.inj this).symm
  obtain ⟨⟨clones, dev'⟩, hclone⟩ : ∃ p, cloneAll sampleDevice b.binderObjects = some p := by
    rw [hobjs]
    exact ⟨_, rfl⟩
  obtain ⟨r, hr, hback⟩ := @hread sampleDevice dev' 11 12 clones _ rfl (by rw [hlen]; decide)
    hclone rfl
  exact ⟨b, r, dev', 12, hb, hr, hback⟩

end PayloadReader

end BinderBinder
