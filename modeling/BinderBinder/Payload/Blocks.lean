import BinderBinder.Payload.Drain
import BinderBinder.Device.Identity

set_option relaxedAutoImplicit false
set_option autoImplicit false

/-!
# Blocks of bytes and objects

What a payload holds, apart from how its bytes were pushed: the bytes in front of the first object
may come in one block, with the padding of that object, or in several pieces. A builder that holds
some items, and a reader that stands in front of them, hold the block and the rest as well.

## Main definitions

* `PayloadBuilder.Holds` — a builder holds the bytes, the offsets and the handles of some items.
* `Item.blockAt`, `Item.fromFirst` — the bytes in front of the first object, and the items behind.
* `Item.objects` — the objects among the items.

## Main results

* `Item.allWrote_block` — the items in front of the first object write one block.
* `PayloadBuilder.Holds.pushBinderRef` — a handle is held as any handle it is equal to.
* `PayloadReader.StandsBefore.bytesUntilNextObj` — where the announced distance is right.
* `PayloadReader.standsBefore_of_fromBuilder` — delivery puts a reader in front of what was held.
-/

namespace BinderBinder

/-! ## What a builder holds -/

namespace Item

/-- The handle of an item. -/
def handle? : Item → Option BinderObjectOrRef
  | binderRef x => some x.handle
  | _ => none

/-- The bytes in front of the first object, with its padding, if they start behind `n` others. -/
def blockAt : ℕ → List Item → List UInt8
  | _, [] => []
  | n, bytes bs :: items => bs ++ blockAt (n + bs.length) items
  | n, _ :: _ => List.replicate (padding objectAlign n) 0

/-- The items from the first object on. -/
def fromFirst : List Item → List Item
  | bytes _ :: items => fromFirst items
  | items => items

/-- The objects among the items. -/
def objects (items : List Item) : List Item := items.filter fun item => item.IsObject

end Item

/-- The builder holds the bytes, the offsets and the handles of the items. -/
structure PayloadBuilder.Holds (b : PayloadBuilder) (items : List Item) : Prop where
  data : Item.AllWrote 0 items b.data
  offsets : b.objOffsets = Item.allOffsets 0 items
  objects : List.Forall₂ (fun y x => (y == x) = true) b.binderObjects
    (items.filterMap Item.handle?)

namespace Item

/-- Behind its padding an object is aligned. -/
theorem padding_padding (n : ℕ) : padding objectAlign (n + padding objectAlign n) = 0 := by
  rw [padding_eq_zero (by decide)]
  have halign : objectAlign = 8 := rfl
  unfold padding
  rw [halign]
  omega

/-- Bytes in front are written as they are. -/
theorem allWrote_bytes_cons {n : ℕ} {bs out : List UInt8} {items : List Item} :
    AllWrote n (bytes bs :: items) out ↔
      ∃ rest, out = bs ++ rest ∧ AllWrote (n + bs.length) items rest := by
  constructor
  · rintro ⟨a, rest, rfl, ⟨undef, rfl⟩, hrest⟩
    exact ⟨rest, rfl, hrest⟩
  · rintro ⟨rest, rfl, hrest⟩
    exact ⟨bs, rest, rfl, ⟨fun _ => 0, rfl⟩, hrest⟩

/-- What an object writes is its padding, and what it writes behind that. -/
theorem bytesAt_aligned (undef : ℕ → UInt32) {item : Item} (h : item.IsObject) (n : ℕ) :
    item.bytesAt undef n = List.replicate (padding objectAlign n) 0 ++
      item.bytesAt undef (n + padding objectAlign n) := by
  rw [bytesAt_of_isObject undef h, bytesAt_of_isObject undef h, padding_padding,
    List.replicate_zero, List.nil_append, Nat.add_zero]

/-- An object ends where it ends behind its padding. -/
theorem sizeAt_aligned {item : Item} (h : item.IsObject) (n : ℕ) :
    n + padding objectAlign n + item.sizeAt (n + padding objectAlign n) = n + item.sizeAt n := by
  rw [sizeAt_of_isObject h, sizeAt_of_isObject h, padding_padding]
  omega

/-- The padding of an object may be counted as bytes in front of it. -/
theorem allWrote_padding {n : ℕ} {item : Item} {items : List Item} {out : List UInt8}
    (h : item.IsObject) :
    AllWrote n (bytes (List.replicate (padding objectAlign n) 0) :: item :: items) out ↔
      AllWrote n (item :: items) out := by
  rw [allWrote_bytes_cons, List.length_replicate]
  constructor
  · rintro ⟨_, rfl, a, rest, rfl, ⟨undef, rfl⟩, hrest⟩
    rw [sizeAt_aligned h] at hrest
    refine ⟨_, rest, ?_, ⟨undef, rfl⟩, hrest⟩
    rw [bytesAt_aligned undef h n, List.append_assoc]
  · rintro ⟨_, rest, rfl, ⟨undef, rfl⟩, hrest⟩
    refine ⟨_, ?_, _, rest, rfl, ⟨undef, rfl⟩, ?_⟩
    · rw [bytesAt_aligned undef h n, List.append_assoc]
    · rw [sizeAt_aligned h]
      exact hrest

/-- An object lies where it lies behind its padding. -/
theorem allOffsets_padding (n : ℕ) {item : Item} (items : List Item) (h : item.IsObject) :
    allOffsets n (bytes (List.replicate (padding objectAlign n) 0) :: item :: items) =
      allOffsets n (item :: items) := by
  show [] ++ (item.offsetAt (n + (List.replicate (padding objectAlign n) (0 : UInt8)).length) ++
    allOffsets (n + (List.replicate (padding objectAlign n) (0 : UInt8)).length +
      item.sizeAt (n + (List.replicate (padding objectAlign n) (0 : UInt8)).length)) items) =
    item.offsetAt n ++ allOffsets (n + item.sizeAt n) items
  rw [List.nil_append, List.length_replicate, sizeAt_aligned h, offsetAt_of_isObject h,
    offsetAt_of_isObject h, padding_padding, Nat.add_zero]

/-- The items in front of the first object write one block. -/
theorem allWrote_block {n : ℕ} {items : List Item} {out : List UInt8} :
    AllWrote n (bytes (blockAt n items) :: fromFirst items) out ↔ AllWrote n items out := by
  induction items generalizing n out with
  | nil =>
    rw [allWrote_bytes_cons]
    constructor
    · rintro ⟨rest, rfl, hrest⟩
      exact hrest
    · intro h
      exact ⟨out, rfl, h⟩
  | cons item items ih =>
    cases item with
    | bytes bs =>
      rw [blockAt, fromFirst, allWrote_bytes_cons, allWrote_bytes_cons]
      simp only [← ih, allWrote_bytes_cons, List.length_append, Nat.add_assoc]
      constructor
      · rintro ⟨rest, rfl, hrest⟩
        exact ⟨_, List.append_assoc _ _ _, rest, rfl, hrest⟩
      · rintro ⟨_, rfl, rest, rfl, hrest⟩
        exact ⟨rest, (List.append_assoc _ _ _).symm, hrest⟩
    | binderRef x => exact allWrote_padding trivial
    | fd d cookie owned => exact allWrote_padding trivial

/-- The objects lie behind the block where they lie behind the items. -/
theorem allOffsets_block (n : ℕ) (items : List Item) :
    allOffsets n (bytes (blockAt n items) :: fromFirst items) = allOffsets n items := by
  induction items generalizing n with
  | nil => rfl
  | cons item items ih =>
    cases item with
    | bytes bs =>
      have hrest := ih (n + bs.length)
      simp only [allOffsets, offsetAt, sizeAt, List.nil_append] at hrest ⊢
      rw [blockAt, fromFirst, List.length_append, ← Nat.add_assoc, hrest]
    | binderRef x => exact allOffsets_padding n items trivial
    | fd d cookie owned => exact allOffsets_padding n items trivial

/-- The first object lies behind the block. -/
theorem head?_allOffsets {n : ℕ} {items : List Item} (h : fromFirst items ≠ []) :
    (allOffsets n items).head? = some (n + (blockAt n items).length) := by
  induction items generalizing n with
  | nil => exact absurd rfl h
  | cons item items ih =>
    cases item with
    | bytes bs =>
      rw [blockAt, List.length_append, ← Nat.add_assoc]
      exact ih h
    | binderRef x =>
      rw [blockAt, List.length_replicate]
      · rfl
      · intro bs hbs
        cases hbs
    | fd d cookie owned =>
      rw [blockAt, List.length_replicate]
      · rfl
      · intro bs hbs
        cases hbs

/-- Without objects the items are the block. -/
theorem allSize_of_fromFirst {n : ℕ} {items : List Item} (h : fromFirst items = []) :
    allOffsets n items = [] ∧ allSize n items = (blockAt n items).length := by
  induction items generalizing n with
  | nil => exact ⟨rfl, rfl⟩
  | cons item items ih =>
    cases item with
    | bytes bs =>
      obtain ⟨hoffs, hsize⟩ := @ih (n + bs.length) h
      exact ⟨hoffs, by rw [allSize, blockAt, List.length_append, ← hsize]; rfl⟩
    | _ => cases h

/-- The handles are those from the first object on. -/
theorem handles_fromFirst (items : List Item) :
    (fromFirst items).filterMap handle? = items.filterMap handle? := by
  induction items with
  | nil => rfl
  | cons item items ih =>
    cases item with
    | bytes bs => exact ih
    | binderRef x => rfl
    | fd d cookie owned => rfl

/-- The objects are those from the first object on. -/
theorem objects_fromFirst (items : List Item) : objects (fromFirst items) = objects items := by
  induction items with
  | nil => rfl
  | cons item items ih =>
    cases item with
    | bytes bs => exact ih
    | _ => rfl

/-- What is behind the block is one of the items. -/
theorem mem_fromFirst {item : Item} {items : List Item} (h : item ∈ fromFirst items) :
    item ∈ items := by
  induction items with
  | nil => exact h
  | cons first items ih =>
    cases first with
    | bytes bs => exact List.mem_cons_of_mem _ (ih h)
    | _ => exact h

/-- One more item is written behind the others. -/
theorem AllWrote.append {n : ℕ} {items : List Item} {out : List UInt8} (h : AllWrote n items out)
    (undef : ℕ → UInt32) (item : Item) :
    AllWrote n (items ++ [item]) (out ++ item.bytesAt undef (n + out.length)) := by
  induction items generalizing n out with
  | nil =>
    rw [show out = [] from h]
    exact ⟨_, [], (List.append_nil _).symm, ⟨undef, rfl⟩, rfl⟩
  | cons first items ih =>
    obtain ⟨_, rest, rfl, ⟨undef', rfl⟩, hrest⟩ := h
    have happend := ih hrest
    rw [Nat.add_assoc, ← length_bytesAt undef', ← List.length_append] at happend
    exact ⟨_, _, List.append_assoc _ _ _, ⟨undef', rfl⟩, by rwa [length_bytesAt] at happend⟩

/-- The offset of one more item is noted behind the others. -/
theorem allOffsets_append (n : ℕ) (items : List Item) (item : Item) :
    allOffsets n (items ++ [item]) = allOffsets n items ++ item.offsetAt (n + allSize n items) := by
  induction items generalizing n with
  | nil => simp [allOffsets, allSize]
  | cons first items ih =>
    rw [List.cons_append, allOffsets, ih, allOffsets, allSize, List.append_assoc, Nat.add_assoc]

/-- Objects have an offset each. -/
theorem length_allOffsets {n : ℕ} {items : List Item} (h : ∀ item ∈ items, item.IsObject) :
    (allOffsets n items).length = items.length := by
  induction items generalizing n with
  | nil => rfl
  | cons item items ih =>
    rw [List.forall_mem_cons] at h
    rw [allOffsets, offsetAt_of_isObject h.1, List.length_append, ih h.2,
      List.length_singleton, List.length_cons, Nat.add_comm]

end Item

/-! ## Equal handles -/

namespace BinderObjectOrRef

/-- Equality of handles is transitive. -/
theorem beq_trans {x y z : BinderObjectOrRef} (hzy : (z == y) = true) (hyx : (y == x) = true) :
    (z == x) = true := by
  rw [beq_iff] at hzy hyx ⊢
  exact ⟨hzy.1.trans hyx.1, hzy.2.trans hyx.2⟩

/-- What is equal to a strong object is one with its id. -/
theorem object_of_beq {y : BinderObjectOrRef} {o : BorrowedBinderObject}
    (h : (y == object o) = true) : ∃ o', y = object o' ∧ o'.id = o.id := by
  cases y with
  | object o' =>
    obtain ⟨-, hcap⟩ := (beq_iff _ _).mp h
    exact ⟨o', rfl, (Capability.object.inj hcap).2⟩
  | _ => cases h

/-- Equal handles have one record. -/
theorem getFlatBinderObject_of_beq {x y : BinderObjectOrRef} (h : (y == x) = true)
    (upper : UInt32) : y.getFlatBinderObject upper = x.getFlatBinderObject upper := by
  obtain ⟨hty, hcap⟩ := (beq_iff y x).mp h
  cases y <;> cases x <;> simp only [binderType, reduceCtorEq] at hty <;>
    simp only [capability, Capability.object.injEq, Capability.remote.injEq] at hcap <;>
    simp only [getFlatBinderObject, hcap]

/-- A handle is dropped where an equal one is counted. -/
theorem isSome_drop_of_beq {dev : BinderDevice} {x y : BinderObjectOrRef} (h : (y == x) = true)
    (hdrop : ∀ o, x = object o → (dev.decreaseLocal o.id).isSome) : (y.drop dev).isSome := by
  cases y with
  | object o' =>
    cases x with
    | object o =>
      obtain ⟨_, heq, hid⟩ := object_of_beq h
      cases heq
      rw [drop, BorrowedBinderObject.drop]
      split_ifs
      · rw [hid]
        exact hdrop o rfl
      · rfl
    | _ => cases h
  | _ => rfl

end BinderObjectOrRef

/-- A handle is converted where an equal one is. -/
theorem ToBinderObjectOrRef.canConvert_of_beq {dev : BinderDevice} {x y : BinderObjectOrRef}
    (h : (y == x) = true) (hx : (erased x).CanConvert dev) : (erased y).CanConvert dev := by
  cases y with
  | object o' =>
    cases x with
    | object o =>
      obtain ⟨_, heq, hid⟩ := BinderObjectOrRef.object_of_beq h
      cases heq
      rw [CanConvert, hid]
      exact hx
    | _ => cases h
  | _ => trivial

/-! ## Pushes -/

namespace PayloadBuilder

variable {undef : ℕ → UInt32}

/-- A new builder holds nothing. -/
theorem holds_new : new.Holds [] where
  data := rfl
  offsets := rfl
  objects := .nil

/-- Bytes that are pushed are held. -/
theorem Holds.pushBytes {b : PayloadBuilder} {items : List Item} (h : b.Holds items)
    (bs : List UInt8) : (b.pushBytes bs).Holds (items ++ [.bytes bs]) where
  data := h.data.append (fun _ => 0) (.bytes bs)
  offsets := by
    rw [Item.allOffsets_append, ← h.offsets]
    exact (List.append_nil _).symm
  objects := by
    rw [List.filterMap_append]
    exact (List.append_nil _).symm ▸ h.objects

/-- A record that is pushed is held, if it is the one of the item. -/
theorem Holds.pushRecord {b : PayloadBuilder} {items : List Item} (h : b.Holds items) (item : Item)
    (hobj : item.IsObject) (record : ℕ → List UInt8)
    (hrecord : ∀ off, record off = item.recordAt undef off) :
    Item.AllWrote 0 (items ++ [item]) (b.pushRecord record).data ∧
      (b.pushRecord record).objOffsets = Item.allOffsets 0 (items ++ [item]) := by
  have hdata := h.data.append undef item
  rw [Nat.zero_add, Item.bytesAt_of_isObject undef hobj, ← hrecord] at hdata
  rw [pushRecord_eq]
  refine ⟨hdata, ?_⟩
  rw [h.offsets, Item.allOffsets_append, Nat.zero_add, ← h.data.length,
    Item.offsetAt_of_isObject hobj]

/-- A descriptor that is pushed is held. -/
theorem Holds.pushFd {b : PayloadBuilder} {items : List Item} (h : b.Holds items) (d : Fd)
    (cookie : Usize) (owned : Bool) :
    (b.pushFd undef d cookie).Holds (items ++ [.fd d cookie owned]) := by
  obtain ⟨hdata, hoffs⟩ := h.pushRecord (.fd d cookie owned) trivial
    (fun off => BinderFdObject.layout.encode (fdObject (undef off) d cookie)) fun _ => rfl
  refine ⟨hdata, hoffs, ?_⟩
  rw [List.filterMap_append]
  exact (List.append_nil _).symm ▸ h.objects

/-- So is one that the builder keeps. -/
theorem Holds.pushOwnedFd {b : PayloadBuilder} {items : List Item} (h : b.Holds items) (d : Fd)
    (cookie : Usize) (owned : Bool) :
    (b.pushOwnedFd undef d cookie).Holds (items ++ [.fd d cookie owned]) := by
  obtain ⟨hdata, hoffs, hobjs⟩ := @Holds.pushFd undef _ _ h d cookie owned
  exact ⟨hdata, hoffs, hobjs⟩

/-- A handle that is pushed is held as any handle it becomes equal to. -/
theorem Holds.pushBinderRef {b b' : PayloadBuilder} {items : List Item} (h : b.Holds items)
    {dev dev' : BinderDevice} {x y : ToBinderObjectOrRef}
    (hy : ∀ p ∈ y.toBinderObjectOrRef dev, (p.1 == x.handle) = true)
    (hpush : b.pushBinderRef undef dev y = some (b', dev')) :
    b'.Holds (items ++ [.binderRef x]) := by
  obtain ⟨⟨port, dev₁⟩, hport, heq⟩ := Option.map_eq_some_iff.mp hpush
  have hbeq : (port == x.handle) = true := hy _ hport
  obtain ⟨hdata, hoffs⟩ := h.pushRecord (.binderRef x) trivial
    (fun off => FlatBinderObject.layout.encode (port.getFlatBinderObject (undef off)))
    fun off => by rw [BinderObjectOrRef.getFlatBinderObject_of_beq hbeq]; rfl
  cases heq
  refine ⟨hdata, hoffs, ?_⟩
  rw [List.filterMap_append]
  exact List.rel_append h.objects (.cons hbeq .nil)

/-- What holds the block and the rest of some items holds the items. -/
theorem Holds.of_block {b : PayloadBuilder} {items : List Item}
    (h : b.Holds (.bytes (Item.blockAt 0 items) :: Item.fromFirst items)) : b.Holds items where
  data := Item.allWrote_block.mp h.data
  offsets := by rw [h.offsets, Item.allOffsets_block]
  objects := by
    rw [← Item.handles_fromFirst]
    exact h.objects

end PayloadBuilder

/-! ## Reads of objects -/

namespace PayloadReader

variable {r : PayloadReader} {items : List Item}

/-- Both cursors stand in front of the block as they stand in front of the items. -/
theorem StandsBefore.block (h : r.StandsBefore items) :
    r.StandsBefore (.bytes (Item.blockAt r.nextDataIndex items) :: Item.fromFirst items) := by
  obtain ⟨pre, out, hdata, hpre, hwrote⟩ := h.data
  refine ⟨⟨pre, out, hdata, hpre, Item.allWrote_block.mpr hwrote⟩, ?_, h.fits⟩
  rw [Item.allOffsets_block]
  exact h.offsets

/-- The announced distance covers the block, if that is not empty in front of an object. -/
theorem StandsBefore.bytesUntilNextObj (h : r.StandsBefore items)
    (hfirst : Item.blockAt r.nextDataIndex items ≠ [] ∨ Item.fromFirst items = []) :
    r.bytesUntilNextObj = some (Item.blockAt r.nextDataIndex items).length := by
  obtain ⟨v, passed, hv, hitems, -, hpassed⟩ := h.offsets
  have hfind : r.offsetBehindCursor = (Item.allOffsets r.nextDataIndex items).find? fun off =>
      r.nextDataIndex < off := by
    have hnone : passed.find? (fun off => decide (r.nextDataIndex < off)) = none := by
      rw [List.find?_eq_none]
      intro off hoff
      have := hpassed off hoff
      simp only [decide_eq_true_eq]
      omega
    rw [offsetBehindCursor, hv, Option.bind_some, hitems, List.find?_append, hnone,
      Option.none_or]
  by_cases hobj : Item.fromFirst items = []
  · obtain ⟨hoffs, hsize⟩ := @Item.allSize_of_fromFirst r.nextDataIndex _ hobj
    obtain ⟨pre, out, hdata, hpre, hwrote⟩ := h.data
    have hlen := hwrote.length
    rw [PayloadReader.bytesUntilNextObj, hfind, hoffs, List.find?_nil, Option.getD_none, hdata,
      List.length_append, checkedSub_eq_some]
    omega
  · have hpos : 0 < (Item.blockAt r.nextDataIndex items).length :=
      List.length_pos_iff.mpr (hfirst.resolve_right hobj)
    have hhead := Item.head?_allOffsets (n := r.nextDataIndex) hobj
    obtain ⟨offs, hoffs⟩ := List.head?_eq_some_iff.mp hhead
    rw [PayloadReader.bytesUntilNextObj, hfind, hoffs, List.find?_cons_of_pos (by
      simp only [decide_eq_true_eq]
      omega), Option.getD_some, checkedSub_eq_some]
    omega

/-- Bytes in front of an object do not keep a read from that object. -/
theorem StandsBefore.skip {bs : List UInt8} (h : r.StandsBefore (.bytes bs :: items)) :
    StandsBefore { r with nextDataIndex := r.nextDataIndex + bs.length } items := by
  obtain ⟨r', hread, hr', -⟩ := h.readBytes
  obtain ⟨-, -, -, rfl⟩ := readBytes_ok hread
  exact hr'

/-- The next object is the first one of the items. -/
theorem StandsBefore.nextOffset_eq (h : r.StandsBefore items) :
    r.nextOffset = (Item.allOffsets r.nextDataIndex items).head? := by
  obtain ⟨v, passed, hv, hitems, hindex, -⟩ := h.offsets
  rw [PayloadReader.nextOffset, hv, Option.bind_some, hitems, ← hindex,
    List.getElem?_append_right (Nat.le_refl _), Nat.sub_self, List.head?_eq_getElem?]

/-- Without items there is no handle to read. -/
theorem StandsBefore.readBinderRef_nil (h : r.StandsBefore []) (kernel : KernelWrite)
    (dev : BinderDevice) : r.readBinderRef kernel dev = some (.error .empty, r, dev) := by
  rw [PayloadReader.readBinderRef, h.nextOffset_eq]
  rfl

/-- A descriptor is no handle. -/
theorem StandsBefore.readBinderRef_fd {d : Fd} {cookie : Usize} {owned : Bool}
    (h : r.StandsBefore (.fd d cookie owned :: items)) (kernel : KernelWrite)
    (dev : BinderDevice) : r.readBinderRef kernel dev = some (.error .incorrectObject, r, dev) := by
  have hobj : (Item.fd d cookie owned).IsObject := trivial
  obtain ⟨pre, undef, rest, hdata, hpre⟩ := h.record hobj
  simp only [Item.recordAt] at hdata
  rw [PayloadReader.readBinderRef, h.nextOffset hobj]
  simp only [hdata, ← hpre, readAt_header_fd, Option.bind_eq_bind, Option.bind_some, fdObject,
    BinderType.ofU32_toU32]

/-- Without items there is no descriptor to read. -/
theorem StandsBefore.readFd_nil (h : r.StandsBefore []) : r.readFd = some (.error .empty, r) := by
  rw [PayloadReader.readFd, h.nextOffset_eq]
  rfl

/-- A handle is no descriptor. -/
theorem StandsBefore.readFd_binderRef {x : ToBinderObjectOrRef}
    (h : r.StandsBefore (.binderRef x :: items)) :
    r.readFd = some (.error .incorrectObject, r) := by
  have hobj : (Item.binderRef x).IsObject := trivial
  obtain ⟨pre, undef, rest, hdata, hpre⟩ := h.record hobj
  simp only [Item.recordAt] at hdata
  rw [PayloadReader.readFd, h.nextOffset hobj]
  simp only [hdata, ← hpre, readAt_header_flat, Option.bind_eq_bind, Option.bind_some,
    BinderObjectOrRef.ofU32_getFlatBinderObject]
  cases x.handle <;> rfl

/-- A read of a handle that succeeds does not depend on the byte cursor. -/
theorem readBinderRef_moved (k : ℕ) (kernel : KernelWrite) (dev : BinderDevice)
    (r : PayloadReader) :
    ({ r with nextDataIndex := k } : PayloadReader).readBinderRef kernel dev =
      (r.readBinderRef kernel dev).map fun (res, r', dev') =>
        match res with
        | .ok x => (.ok x, r', dev')
        | .error e => (.error e, { r with nextDataIndex := k }, dev') := by
  have hnext : ({ r with nextDataIndex := k } : PayloadReader).nextOffset = r.nextOffset := rfl
  simp only [readBinderRef, hnext]
  cases r.nextOffset with
  | none => rfl
  | some off =>
    show (BinderObjectHeader.layout.readAt r.data.items off).bind _ =
      ((BinderObjectHeader.layout.readAt r.data.items off).bind _).map _
    cases BinderObjectHeader.layout.readAt r.data.items off with
    | none => rfl
    | some header =>
      simp only [Option.bind_some]
      split
      case h_5 => rfl
      all_goals
        show (FlatBinderObject.layout.readAt r.data.items off).bind _ =
          ((FlatBinderObject.layout.readAt r.data.items off).bind _).map _
        cases FlatBinderObject.layout.readAt r.data.items off with
        | none => rfl
        | some flat =>
          show (decodeFlat kernel dev flat).bind _ = ((decodeFlat kernel dev flat).bind _).map _
          cases decodeFlat kernel dev flat with
          | none => rfl
          | some p =>
            obtain ⟨res, dev'⟩ := p
            cases res <;> rfl

/-- A read of a descriptor that succeeds does not depend on the byte cursor. -/
theorem readFd_moved (k : ℕ) (r : PayloadReader) :
    ({ r with nextDataIndex := k } : PayloadReader).readFd =
      r.readFd.map fun (res, r') =>
        match res with
        | .ok p => (.ok p, r')
        | .error e => (.error e, { r with nextDataIndex := k }) := by
  have hnext : ({ r with nextDataIndex := k } : PayloadReader).nextOffset = r.nextOffset := rfl
  simp only [readFd, hnext]
  cases r.nextOffset with
  | none => rfl
  | some off =>
    show (BinderObjectHeader.layout.readAt r.data.items off).bind _ =
      ((BinderObjectHeader.layout.readAt r.data.items off).bind _).map _
    cases BinderObjectHeader.layout.readAt r.data.items off with
    | none => rfl
    | some header =>
      simp only [Option.bind_some]
      split
      · show (BinderFdObject.layout.readAt r.data.items off).bind _ =
          ((BinderFdObject.layout.readAt r.data.items off).bind _).map _
        cases BinderFdObject.layout.readAt r.data.items off with
        | none => rfl
        | some obj =>
          show (Fd.ofRaw obj.data.fd).bind _ = ((Fd.ofRaw obj.data.fd).bind _).map _
          cases Fd.ofRaw obj.data.fd <;> rfl
      · rfl

/-- A reader that a payload was delivered to stands in front of its items, but for the numbers of
descriptors. -/
theorem standsBefore_of_fromBuilder {φ : Type} {dup : φ → Fd → Option (Fd × φ)}
    {undef : ℕ → UInt32} {dev dev' : BinderDevice} {files files' : φ} {b : PayloadBuilder}
    (hb : b.Holds items) (hfits : b.data.length < usizeSize)
    (h : fromBuilder dup undef dev files b = some (r, dev', files')) :
    ∃ items', List.Forall₂ Item.Alike items items' ∧ r.StandsBefore items' ∧
      r.device = dev.addr ∧ r.nextDataIndex = 0 := by
  have hlength := (delivered_of_fromBuilder h).length
  obtain ⟨⟨data, files₁⟩, hpatch, h⟩ := Option.bind_eq_some_iff.mp h
  obtain ⟨⟨clones, dev₁⟩, -, h⟩ := Option.bind_eq_some_iff.mp h
  cases h
  rw [hb.offsets] at hpatch
  obtain ⟨items', hdup⟩ := @exists_dupAll φ dup undef items files files' [] _ _ hb.data hpatch
  obtain ⟨out, hpatch', hwrote⟩ := @patchFds_spec φ dup undef items items' files files' [] _
    hb.data hdup
  have hout : data = out := by
    have := hpatch.symm.trans hpatch'
    simpa using this
  subst hout
  have halike := Item.dupAll_alike hdup
  refine ⟨items', halike, ⟨⟨[], data, rfl, rfl, hwrote⟩, ⟨.owned b.objOffsets, [], rfl, ?_, rfl,
    by simp⟩, ?_⟩, rfl, rfl⟩
  · show b.objOffsets = [] ++ Item.allOffsets 0 items'
    rw [hb.offsets, (Item.allLayout_of_alike halike).1, List.nil_append]
  · rw [hlength]
    exact hfits

end PayloadReader

end BinderBinder
