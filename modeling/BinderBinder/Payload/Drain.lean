import BinderBinder.Payload.RoundTrip

set_option relaxedAutoImplicit false
set_option autoImplicit false

/-!
# Draining a payload without knowing its shape

The loop of the echo services in `tests/echo_combos.rs` and `examples/self_transaction.rs`: read
the bytes up to the next object, or the object, and push what was read into a new builder.

`bytes_until_next_obj` looks for an offset strictly behind the cursor. Once the cursor stands at an
object, the loop is told the distance to the one behind it and reads the object as bytes; at the
end of the data it jumps back and reads the objects once more. So the loop rebuilds a payload
exactly if it has no objects.

## Main definitions

* `EchoState`, `echoStep`, `echoLoop` — the loop.
* `Rebuilds` — a builder holds the same layout, offset table and objects as another.
* `PayloadReader.DistanceRight` — `bytes_until_next_obj` is the distance to the next unread object.

## Main results

* `Drained.step`, `echoLoop_drained` — what the loop has read and pushed so far.
* `echo_lossless_iff` — the loop is lossless, and the distances are right, without objects only.
-/

namespace BinderBinder

open Run

/-! ## The loop -/

/-- The variables of the loop, and the device the reader decodes on. -/
structure EchoState where
  reader : PayloadReader
  builder : PayloadBuilder
  device : BinderDevice

/-- One round of the loop ends in the next round or in `break`. -/
inductive EchoNext
  | next (s : EchoState)
  | done (b : PayloadBuilder)

section Echo

variable (undef : ℕ → UInt32) (kernel : KernelWrite)

/-- One round of the loop in `EchoService::handle`; the reads of objects are unwrapped. -/
def echoStep (s : EchoState) : Option EchoNext := do
  let bytes ← s.reader.bytesUntilNextObj
  if bytes ≠ 0 then
    let (res, reader) ← s.reader.readBytes bytes
    match res with
    | .ok v => some (.next { s with reader, builder := s.builder.pushBytes v })
    | .error _ => some (.done s.builder)
  else
    match ← s.reader.nextObjectType with
    | some .binderRef | some .weakBinderRef | some .weakBinderObject | some .binderObject =>
      let (res, reader, device) ← s.reader.readBinderRef kernel s.device
      match res with
      | .ok x =>
        let (builder, device) ← s.builder.pushBinderRef undef device (.erased x)
        -- the handle that was read is a temporary of the statement
        let device ← x.drop device
        some (.next ⟨reader, builder, device⟩)
      | .error _ => none
    | some .fd =>
      let (res, reader) ← s.reader.readFd
      match res with
      | .ok (fd, cookie) =>
        some (.next { s with reader, builder := s.builder.pushOwnedFd undef fd cookie })
      | .error _ => none
    | _ => some (.done s.builder)

/-- The loop for at most `fuel` rounds: the builder it breaks with. -/
def echoLoop : ℕ → EchoState → Option PayloadBuilder
  | 0, _ => none
  | n + 1, s => (echoStep undef kernel s).bind fun
    | .next s' => echoLoop n s'
    | .done b => some b

/-- The round as a partial step: `none` if there is no next round. -/
def echoNext (s : EchoState) (_ : Unit) : Option EchoState :=
  match echoStep undef kernel s with
  | some (.next s') => some s'
  | _ => none

end Echo

/-! ## What is asked of the loop -/

/-- `b'` holds the layout, the offset table and the objects of `b`. Bytes inside records may differ,
since descriptors are duplicated. -/
structure Rebuilds (b b' : PayloadBuilder) : Prop where
  length : b'.data.length = b.data.length
  bytes : ∀ i, (∀ off ∈ b.objOffsets, i < off ∨ off + objectSize ≤ i) → b'.data[i]? = b.data[i]?
  offsets : b'.objOffsets = b.objOffsets
  types : b'.objOffsets.map (BinderObjectHeader.layout.readAt b'.data) =
    b.objOffsets.map (BinderObjectHeader.layout.readAt b.data)
  objects : List.Forall₂ (fun x y => (x == y) = true) b'.binderObjects b.binderObjects

/-- `bytes_until_next_obj` is the distance from the byte cursor to the first object that was not
read, or to the end of the data if all were. -/
def PayloadReader.DistanceRight (r : PayloadReader) : Prop :=
  ∃ n, r.bytesUntilNextObj = some n ∧
    r.nextDataIndex + n = r.nextOffset.getD r.data.items.length

/-- A reader a payload was delivered to, before the first read. -/
structure Delivered (b : PayloadBuilder) (r : PayloadReader) : Prop where
  length : r.data.items.length = b.data.length
  data : b.objOffsets = [] → r.data.items = b.data
  offsets : ∃ v, r.offsets = some v ∧ v.items = b.objOffsets
  index : r.nextOffsetIndex = 0
  cursor : r.nextDataIndex = 0

/-! ## Local delivery keeps the length -/

namespace PayloadReader

variable {φ : Type} {dup : φ → Fd → Option (Fd × φ)} {undef : ℕ → UInt32}

/-- Duplicating descriptors in place keeps the length of the data. -/
theorem length_of_patchFds {files files' : φ} {data data' : List UInt8} {offs : List ℕ}
    (h : patchFds dup undef files data offs = some (data', files')) :
    data'.length = data.length := by
  induction offs generalizing files data with
  | nil => cases h; rfl
  | cons off offs ih =>
    obtain ⟨header, -, h⟩ := Option.bind_eq_some_iff.mp h
    split at h
    · obtain ⟨obj, -, h⟩ := Option.bind_eq_some_iff.mp h
      obtain ⟨fd, -, h⟩ := Option.bind_eq_some_iff.mp h
      obtain ⟨⟨newFd, files₁⟩, -, h⟩ := Option.bind_eq_some_iff.mp h
      obtain ⟨data₁, hwrite, h⟩ := Option.bind_eq_some_iff.mp h
      rw [ih h, Layout.length_of_writeAt _ hwrite]
    · cases h
    · cases h
    · exact ih h

/-- `from_builder` delivers the payload of the builder. -/
theorem delivered_of_fromBuilder {dev dev' : BinderDevice} {files files' : φ} {b : PayloadBuilder}
    {r : PayloadReader} (h : fromBuilder dup undef dev files b = some (r, dev', files')) :
    Delivered b r := by
  obtain ⟨⟨data, files₁⟩, hpatch, h⟩ := Option.bind_eq_some_iff.mp h
  obtain ⟨⟨clones, dev₁⟩, -, h⟩ := Option.bind_eq_some_iff.mp h
  cases h
  refine ⟨length_of_patchFds hpatch, ?_, ⟨_, rfl, rfl⟩, rfl, rfl⟩
  intro hnil
  rw [hnil] at hpatch
  cases hpatch
  rfl

end PayloadReader

/-! ## What a round does -/

section Step

variable {undef : ℕ → UInt32} {kernel : KernelWrite}

/-- A push of a handle makes the builder longer. -/
theorem PayloadBuilder.length_lt_of_pushBinderRef {dev dev' : BinderDevice}
    {b b' : PayloadBuilder} {x : ToBinderObjectOrRef}
    (h : b.pushBinderRef undef dev x = some (b', dev')) : b.data.length < b'.data.length := by
  have hpush : b.push undef dev (.binderRef x) = some (b', dev') := h
  rw [(push_spec hpush).1, List.length_append, Item.length_bytesAt]
  show b.data.length < b.data.length + (padding objectAlign b.data.length + 24)
  omega

/-- A push of a descriptor makes the builder longer. -/
theorem PayloadBuilder.length_lt_of_pushOwnedFd (b : PayloadBuilder) (fd : Fd) (cookie : Usize) :
    b.data.length < (b.pushOwnedFd undef fd cookie).data.length := by
  rw [pushOwnedFd, pushRecord_eq]
  simp only [List.length_append, BinderFdObject.layout.length_encode,
    BinderFdObject.layout_size]
  omega

/-- A round that goes on reads the announced bytes and pushes them, or, with none announced, reads
the next object and pushes that. -/
theorem echoStep_cases {s s' : EchoState} (h : echoStep undef kernel s = some (.next s')) :
    (∃ n v, n ≠ 0 ∧ s.reader.bytesUntilNextObj = some n ∧
        s.reader.nextDataIndex + n ≤ s.reader.data.items.length ∧
        v = (s.reader.data.items.drop s.reader.nextDataIndex).take n ∧ v.length = n ∧
        s' = { s with
          reader := { s.reader with nextDataIndex := s.reader.nextDataIndex + n }
          builder := s.builder.pushBytes v }) ∨
      (s.reader.bytesUntilNextObj = some 0 ∧ ∃ off, s.reader.nextOffset = some off ∧
        s'.reader = { s.reader with
          nextOffsetIndex := s.reader.nextOffsetIndex + 1
          nextDataIndex := off + objectSize } ∧
        s.builder.data.length < s'.builder.data.length) := by
  obtain ⟨n, hn, h⟩ := Option.bind_eq_some_iff.mp h
  split_ifs at h with hzero
  · obtain ⟨⟨res, reader⟩, hread, h⟩ := Option.bind_eq_some_iff.mp h
    cases res with
    | error e => cases h
    | ok v =>
      cases h
      obtain ⟨hv, hlen, hfit, hr⟩ := PayloadReader.readBytes_ok hread
      subst hr
      exact .inl ⟨n, v, hzero, hn, hfit, hv, hlen, rfl⟩
  · have hn0 : n = 0 := not_not.mp hzero
    subst hn0
    refine .inr ⟨hn, ?_⟩
    obtain ⟨ty, -, h⟩ := Option.bind_eq_some_iff.mp h
    split at h
    case h_5 =>
      obtain ⟨⟨res, reader⟩, hread, h⟩ := Option.bind_eq_some_iff.mp h
      cases res with
      | error e => cases h
      | ok p =>
        cases h
        obtain ⟨off, hoff, hr⟩ := PayloadReader.readFd_ok hread
        exact ⟨off, hoff, hr, PayloadBuilder.length_lt_of_pushOwnedFd _ _ _⟩
    case h_6 => cases h
    all_goals
      obtain ⟨⟨res, reader, device⟩, hread, h⟩ := Option.bind_eq_some_iff.mp h
      cases res with
      | error e => cases h
      | ok x =>
        obtain ⟨⟨builder, device₁⟩, hpush, h⟩ := Option.bind_eq_some_iff.mp h
        obtain ⟨device₂, -, h⟩ := Option.bind_eq_some_iff.mp h
        cases h
        obtain ⟨off, hoff, hr⟩ := PayloadReader.readBinderRef_ok hread
        exact ⟨off, hoff, hr, PayloadBuilder.length_lt_of_pushBinderRef hpush⟩

/-- A round that breaks gives the builder as it is. -/
theorem echoStep_done {s : EchoState} {b : PayloadBuilder}
    (h : echoStep undef kernel s = some (.done b)) : b = s.builder := by
  obtain ⟨n, -, h⟩ := Option.bind_eq_some_iff.mp h
  split_ifs at h
  · obtain ⟨⟨res, reader⟩, -, h⟩ := Option.bind_eq_some_iff.mp h
    cases res with
    | error e => cases h; rfl
    | ok v => cases h
  · obtain ⟨ty, -, h⟩ := Option.bind_eq_some_iff.mp h
    split at h
    case h_5 =>
      obtain ⟨⟨res, reader⟩, -, h⟩ := Option.bind_eq_some_iff.mp h
      cases res <;> cases h
    case h_6 => cases h; rfl
    all_goals
      obtain ⟨⟨res, reader, device⟩, -, h⟩ := Option.bind_eq_some_iff.mp h
      cases res with
      | error e => cases h
      | ok x =>
        obtain ⟨⟨builder, device₁⟩, -, h⟩ := Option.bind_eq_some_iff.mp h
        obtain ⟨device₂, -, h⟩ := Option.bind_eq_some_iff.mp h
        cases h

/-! ## Payloads with objects -/

/-- What the loop has done with the payload of `b`: as long as it has read no object, it has pushed
the bytes up to the cursor and no object; once it has, it has pushed more than the payload. -/
structure Drained (b : PayloadBuilder) (s : EchoState) : Prop where
  length : s.reader.data.items.length = b.data.length
  offsets : ∃ v, s.reader.offsets = some v ∧ v.items = b.objOffsets
  first : s.reader.nextOffsetIndex = 0 → s.builder.objOffsets = [] ∧
    s.builder.data.length = s.reader.nextDataIndex
  later : 0 < s.reader.nextOffsetIndex → b.data.length < s.builder.data.length

/-- Before the first round nothing was read and nothing was pushed. -/
theorem Delivered.drained {b : PayloadBuilder} {r : PayloadReader} (h : Delivered b r)
    (dev : BinderDevice) : Drained b ⟨r, PayloadBuilder.new, dev⟩ where
  length := h.length
  offsets := h.offsets
  first _ := ⟨rfl, h.cursor.symm⟩
  later hpos := by rw [h.index] at hpos; exact absurd hpos (Nat.lt_irrefl 0)

/-- A round keeps track of what the loop has done. The first object is read when all data has been
pushed as bytes, so that push makes the builder longer than the payload. -/
theorem Drained.step {b : PayloadBuilder} {s s' : EchoState} (hs : Drained b s)
    (h : echoStep undef kernel s = some (.next s')) : Drained b s' := by
  rcases echoStep_cases h with ⟨n, v, -, -, -, -, hv, rfl⟩ | ⟨hzero, off, -, hr, hlt⟩
  · refine ⟨hs.length, hs.offsets, ?_, ?_⟩
    · intro h0
      obtain ⟨hoffs, hlen⟩ := hs.first h0
      refine ⟨hoffs, ?_⟩
      show (s.builder.data ++ v).length = s.reader.nextDataIndex + n
      rw [List.length_append, hlen, hv]
    · intro hpos
      have := hs.later hpos
      show b.data.length < (s.builder.data ++ v).length
      rw [List.length_append]
      omega
  · refine ⟨by rw [hr]; exact hs.length, by rw [hr]; exact hs.offsets, ?_, ?_⟩
    · intro h0
      rw [hr] at h0
      cases h0
    · intro _
      have hend := PayloadReader.cursor_of_bytesUntilNextObj_eq_zero hzero
      rcases Nat.eq_zero_or_pos s.reader.nextOffsetIndex with h0 | hpos
      · have hlen := (hs.first h0).2
        have := hs.length
        omega
      · have := hs.later hpos
        omega

/-- When the loop breaks, the builder has no object or is longer than the payload. -/
theorem echoLoop_drained {b b' : PayloadBuilder} {fuel : ℕ} {s : EchoState} (hs : Drained b s)
    (h : echoLoop undef kernel fuel s = some b') :
    b'.objOffsets = [] ∨ b.data.length < b'.data.length := by
  induction fuel generalizing s with
  | zero => cases h
  | succ fuel ih =>
    obtain ⟨next, hstep, h⟩ := Option.bind_eq_some_iff.mp h
    cases next with
    | next s' => exact ih (hs.step hstep) h
    | done b'' =>
      cases h
      rw [echoStep_done hstep]
      rcases Nat.eq_zero_or_pos s.reader.nextOffsetIndex with h0 | hpos
      · exact .inl (hs.first h0).1
      · exact .inr (hs.later hpos)

/-- The loop never rebuilds a payload with objects. -/
theorem not_rebuilds_of_echoLoop {b b' : PayloadBuilder} {r : PayloadReader} {fuel : ℕ}
    {dev : BinderDevice} (hr : Delivered b r) (hobj : b.objOffsets ≠ [])
    (h : echoLoop undef kernel fuel ⟨r, PayloadBuilder.new, dev⟩ = some b') : ¬ Rebuilds b b' := by
  intro hreb
  rcases echoLoop_drained (hr.drained dev) h with hnil | hlt
  · exact hobj (by rw [← hreb.offsets, hnil])
  · have := hreb.length
    omega

/-! ## Payloads without objects -/

/-- Without offsets the announced distance is the one to the end of the data, and no object is
next. -/
theorem no_objects_next {r : PayloadReader} {v : PayloadReaderBuffer ℕ} (hv : r.offsets = some v)
    (hnil : v.items = []) :
    r.bytesUntilNextObj = checkedSub r.data.items.length r.nextDataIndex ∧
      r.offsetBehindCursor = none ∧ r.nextOffset = none := by
  have hbehind : r.offsetBehindCursor = none := by
    rw [PayloadReader.offsetBehindCursor, hv, Option.bind_some, hnil, List.find?_nil]
  have hnext : r.nextOffset = none := by
    rw [PayloadReader.nextOffset, hv, Option.bind_some, hnil, List.getElem?_nil]
  exact ⟨by rw [PayloadReader.bytesUntilNextObj, hbehind, Option.getD_none], hbehind, hnext⟩

/-- Without objects and bytes left, the loop breaks. -/
theorem echoStep_end {s : EchoState} {v : PayloadReaderBuffer ℕ} (hv : s.reader.offsets = some v)
    (hnil : v.items = []) (hend : s.reader.nextDataIndex = s.reader.data.items.length) :
    echoStep undef kernel s = some (.done s.builder) := by
  obtain ⟨hbytes, -, hnext⟩ := no_objects_next hv hnil
  have hzero : s.reader.bytesUntilNextObj = some 0 := by
    rw [hbytes, checkedSub_eq_some]
    omega
  rw [echoStep, hzero]
  simp [PayloadReader.nextObjectType, hnext]

/-- Without objects, a first round with bytes to read reads and pushes them all. -/
theorem echoStep_all {r : PayloadReader} {dev : BinderDevice} {v : PayloadReaderBuffer ℕ}
    (hv : r.offsets = some v) (hnil : v.items = []) (hcursor : r.nextDataIndex = 0)
    (hpos : r.data.items.length ≠ 0) (hfits : r.data.items.length < usizeSize) :
    echoStep undef kernel ⟨r, PayloadBuilder.new, dev⟩ =
      some (.next ⟨{ r with nextDataIndex := r.data.items.length },
        PayloadBuilder.new.pushBytes r.data.items, dev⟩) := by
  obtain ⟨hbytes, hbehind, -⟩ := no_objects_next hv hnil
  have hall : r.bytesUntilNextObj = some r.data.items.length := by
    rw [hbytes, checkedSub_eq_some]
    omega
  have hread : r.readBytes r.data.items.length =
      some (.ok r.data.items, { r with nextDataIndex := r.data.items.length }) := by
    rw [PayloadReader.readBytes, usizeAdd, hcursor, Nat.zero_add, if_pos hfits, Option.map_some,
      if_neg (by simp [hbehind]), if_pos (Nat.le_refl _), List.drop_zero, List.take_length]
  rw [echoStep, hall]
  simp only [Option.bind_eq_bind, Option.bind_some, ne_eq, hpos, not_false_eq_true, if_true, hread]

/-- Without objects the loop breaks with the payload rebuilt. -/
theorem rebuilds_of_no_objects {b : PayloadBuilder} {r : PayloadReader} {dev : BinderDevice}
    (hr : Delivered b r) (hfits : b.data.length < usizeSize) (hobj : b.objOffsets = [])
    (hobjs : b.binderObjects = []) :
    ∃ fuel b', echoLoop undef kernel fuel ⟨r, PayloadBuilder.new, dev⟩ = some b' ∧
      Rebuilds b b' := by
  obtain ⟨v, hv, hitems⟩ := hr.offsets
  rw [hobj] at hitems
  have hdata := hr.data hobj
  -- the builder the loop breaks with is the new one, with all data pushed as bytes
  suffices ∃ fuel, echoLoop undef kernel fuel ⟨r, PayloadBuilder.new, dev⟩ =
      some (PayloadBuilder.new.pushBytes b.data) by
    obtain ⟨fuel, h⟩ := this
    refine ⟨fuel, _, h, rfl, fun _ _ => rfl, ?_, ?_, ?_⟩
    · rw [hobj]
      rfl
    · rw [hobj]
      rfl
    · rw [hobjs]
      exact .nil
  by_cases hpos : r.data.items.length = 0
  · refine ⟨1, ?_⟩
    rw [echoLoop, echoStep_end hv hitems (by rw [hr.cursor, hpos])]
    show some PayloadBuilder.new = _
    rw [← hdata, List.length_eq_zero_iff.mp hpos]
    rfl
  · refine ⟨2, ?_⟩
    rw [echoLoop, echoStep_all hv hitems hr.cursor hpos (by rwa [hr.length])]
    show (echoStep undef kernel _).bind _ = _
    rw [echoStep_end hv hitems rfl, hdata]
    rfl

/-! ## The distances -/

/-- At an object, the announced distance is not zero, though it should be. -/
theorem not_distanceRight_at_object {r : PayloadReader} {off : ℕ} (hoff : r.nextOffset = some off)
    (hcursor : r.nextDataIndex = off) (hlt : off < r.data.items.length) : ¬ r.DistanceRight := by
  rintro ⟨n, hn, hsum⟩
  rw [hoff, Option.getD_some] at hsum
  have hzero : n = 0 := by omega
  subst hzero
  have := PayloadReader.cursor_of_bytesUntilNextObj_eq_zero hn
  omega

/-- Without objects, the announced distances are right in every state of the loop. -/
theorem distanceRight_of_no_objects {b : PayloadBuilder} {r : PayloadReader} {dev : BinderDevice}
    {s : EchoState} (hr : Delivered b r) (hobj : b.objOffsets = [])
    (hs : Reachable (echoNext undef kernel) ⟨r, PayloadBuilder.new, dev⟩ s) :
    s.reader.DistanceRight := by
  -- the loop only moves the byte cursor, and not out of the data
  have hinv : (∃ v, s.reader.offsets = some v ∧ v.items = []) ∧
      s.reader.nextDataIndex ≤ s.reader.data.items.length := by
    refine @Reachable.invariant _ _ _ (fun s => (∃ v, s.reader.offsets = some v ∧ v.items = []) ∧
      s.reader.nextDataIndex ≤ s.reader.data.items.length) _ _ hs ?_ ?_
    · obtain ⟨v, hv, hitems⟩ := hr.offsets
      exact ⟨⟨v, hv, by rw [hitems, hobj]⟩, by rw [hr.cursor]; exact Nat.zero_le _⟩
    · rintro s ⟨⟩ s' ⟨⟨v, hv, hitems⟩, -⟩ hnext
      have hstep : echoStep undef kernel s = some (.next s') := by
        unfold echoNext at hnext
        split at hnext
        · cases hnext; assumption
        · cases hnext
      rcases echoStep_cases hstep with ⟨n, v', -, -, hfit, -, -, rfl⟩ | ⟨-, off, hoff, -⟩
      · exact ⟨⟨v, hv, hitems⟩, hfit⟩
      · rw [(no_objects_next hv hitems).2.2] at hoff
        cases hoff
  obtain ⟨⟨v, hv, hitems⟩, hle⟩ := hinv
  obtain ⟨hbytes, -, hnext⟩ := no_objects_next hv hitems
  refine ⟨s.reader.data.items.length - s.reader.nextDataIndex, ?_, ?_⟩
  · rw [hbytes, checkedSub_eq_some]
    exact ⟨hle, rfl⟩
  · rw [hnext, Option.getD_none]
    omega

/-- With objects, the loop comes to a state in which the announced distance is wrong: the one in
which the byte cursor stands at the first object. -/
theorem exists_not_distanceRight {b : PayloadBuilder} {r : PayloadReader} {dev : BinderDevice}
    {off : ℕ} {offs : List ℕ} (hr : Delivered b r) (hfits : b.data.length < usizeSize)
    (hobj : b.objOffsets = off :: offs) (hroom : off + objectSize ≤ b.data.length) :
    ∃ s, Reachable (echoNext undef kernel) ⟨r, PayloadBuilder.new, dev⟩ s ∧
      ¬ s.reader.DistanceRight := by
  obtain ⟨v, hv, hitems⟩ := hr.offsets
  rw [hobj] at hitems
  have hlen := hr.length
  have hsize : objectSize = 24 := rfl
  have hnext : r.nextOffset = some off := by
    rw [PayloadReader.nextOffset, hv, Option.bind_some, hitems, hr.index]
    rfl
  by_cases h0 : off = 0
  · refine ⟨⟨r, PayloadBuilder.new, dev⟩, ⟨[], rfl⟩, not_distanceRight_at_object hnext ?_
      (show off < r.data.items.length by omega)⟩
    show r.nextDataIndex = off
    rw [h0, hr.cursor]
  · -- the first round reads the bytes in front of the first object
    have hbehind : r.offsetBehindCursor = some off := by
      rw [PayloadReader.offsetBehindCursor, hv, Option.bind_some, hitems, hr.cursor]
      exact List.find?_cons_of_pos (by simpa using Nat.pos_of_ne_zero h0)
    have hbytes : r.bytesUntilNextObj = some off := by
      rw [PayloadReader.bytesUntilNextObj, hbehind, Option.getD_some, checkedSub_eq_some, hr.cursor]
      omega
    have hread : r.readBytes off = some (.ok (r.data.items.take off),
        { r with nextDataIndex := off }) := by
      rw [PayloadReader.readBytes, usizeAdd, hr.cursor, Nat.zero_add,
        if_pos (show off < usizeSize by omega), Option.map_some, if_neg (by simp [hbehind]),
        if_pos (show off ≤ r.data.items.length by omega), List.drop_zero]
    have hstep : echoStep undef kernel ⟨r, PayloadBuilder.new, dev⟩ =
        some (.next ⟨{ r with nextDataIndex := off },
          PayloadBuilder.new.pushBytes (r.data.items.take off), dev⟩) := by
      rw [echoStep, hbytes]
      simp only [Option.bind_eq_bind, Option.bind_some, ne_eq, h0, not_false_eq_true, if_true,
        hread]
    refine ⟨⟨{ r with nextDataIndex := off }, PayloadBuilder.new.pushBytes (r.data.items.take off),
      dev⟩, ⟨[()], ?_⟩, ?_⟩
    · rw [exec_cons, echoNext, hstep]
      rfl
    · exact not_distanceRight_at_object hnext rfl
        (show off < r.data.items.length by omega)

/-! ## When the loop is lossless -/

/-- Without objects the builder holds no handle. -/
theorem PayloadBuilder.binderObjects_of_pushAll {b b' : PayloadBuilder}
    {items : List (BinderDevice × Item)} (hitems : ∀ p ∈ items, ¬ p.2.IsObject)
    (h : b.pushAll undef items = some b') : b'.binderObjects = b.binderObjects := by
  induction items generalizing b with
  | nil => cases h; rfl
  | cons p items ih =>
    obtain ⟨dev, item⟩ := p
    rw [List.forall_mem_cons] at hitems
    cases item with
    | bytes bs =>
      have hrest : (b.pushBytes bs).pushAll undef items = some b' := h
      have hobjs := ih hitems.2 hrest
      exact hobjs
    | _ => exact absurd trivial hitems.1

variable (undef kernel)

/-- The loop ends, and the builder it breaks with holds the same payload. -/
def EchoLossless (dev : BinderDevice) (r : PayloadReader) (b : PayloadBuilder) : Prop :=
  ∃ fuel b', echoLoop undef kernel fuel ⟨r, PayloadBuilder.new, dev⟩ = some b' ∧ Rebuilds b b'

/-- In every state of the loop the announced distance is right. -/
def EchoDistancesRight (dev : BinderDevice) (r : PayloadReader) : Prop :=
  ∀ s, Reachable (echoNext undef kernel) ⟨r, PayloadBuilder.new, dev⟩ s → s.reader.DistanceRight

variable {undef kernel}

/-- **The drain is lossless without objects only.** For a payload built by any sequence of pushes
and delivered to a reader, whatever is registered on the device: the loop ends and rebuilds the
payload, and `bytes_until_next_obj` is right in all its states, exactly if no object was pushed.

**Proof sketch.** Without objects one round moves all bytes. With objects, the loop stands at the
first of them after at most one round, with a wrong distance; it then goes on to push all data as
bytes before it reads an object, so its builder has no object or is longer than the payload. -/
theorem echo_lossless_iff {undef' : ℕ → UInt32} {items : List (BinderDevice × Item)}
    {b : PayloadBuilder} {r : PayloadReader} {dev : BinderDevice}
    (hb : PayloadBuilder.new.pushAll undef' items = some b) (hfits : b.data.length < usizeSize)
    (hr : Delivered b r) :
    (EchoLossless undef kernel dev r b ↔ ∀ p ∈ items, ¬ p.2.IsObject) ∧
      (EchoDistancesRight undef kernel dev r ↔ ∀ p ∈ items, ¬ p.2.IsObject) := by
  obtain ⟨hdata, hoffs⟩ := PayloadBuilder.pushAll_spec hb
  simp only [PayloadBuilder.new, List.length_nil, List.nil_append] at hdata hoffs
  have hnil : b.objOffsets = [] ↔ ∀ p ∈ items, ¬ p.2.IsObject := by
    rw [hoffs, Item.allOffsets_eq_nil_iff, List.forall_mem_map]
  rw [← hnil]
  refine ⟨⟨?_, ?_⟩, ⟨?_, ?_⟩⟩
  · rintro ⟨fuel, b', hloop, hreb⟩
    by_contra hobj
    exact not_rebuilds_of_echoLoop hr hobj hloop hreb
  · intro hobj
    exact rebuilds_of_no_objects hr hfits hobj
      (PayloadBuilder.binderObjects_of_pushAll (hnil.mp hobj) hb)
  · intro hright
    cases hobj : b.objOffsets with
    | nil => rfl
    | cons off offs =>
      have hmem : off ∈ Item.allOffsets 0 (items.map Prod.snd) := by
        rw [← hoffs, hobj]
        exact List.mem_cons_self
      have hroom : off + objectSize ≤ b.data.length := by
        have := (Item.mem_allOffsets hmem).2
        rw [hdata, Item.length_allBytes]
        omega
      obtain ⟨s, hs, hwrong⟩ := exists_not_distanceRight hr hfits hobj hroom
      exact absurd (hright s hs) hwrong
  · intro hobj s hs
    exact distanceRight_of_no_objects hr hobj hs

/-- Three bytes are drained losslessly. -/
theorem echo_lossless_bytes :
    ∃ b r, PayloadBuilder.new.pushAll (fun _ => 0)
        [(BinderDevice.new 1, .bytes [1, 2, 3])] = some b ∧
      EchoLossless (fun _ => 0) (fun _ _ => none) (BinderDevice.new 1) r b := by
  refine ⟨⟨[1, 2, 3], [], [], []⟩, ⟨1, .owned [1, 2, 3], some (.owned []), [], 0, 0⟩, rfl, ?_⟩
  have hr := @PayloadReader.delivered_of_fromBuilder ℕ PayloadReader.sampleDup (fun _ => 0)
    (BinderDevice.new 1) (BinderDevice.new 1) 11 11 ⟨[1, 2, 3], [], [], []⟩ _ rfl
  have hb : PayloadBuilder.new.pushAll (fun _ => 0)
      [(BinderDevice.new 1, .bytes [1, 2, 3])] = some ⟨[1, 2, 3], [], [], []⟩ := rfl
  exact (echo_lossless_iff hb (by decide) hr).1.mpr (by simp [Item.IsObject])

/-- The payload of one weak object. -/
def weakPayload : PayloadBuilder where
  data := FlatBinderObject.layout.encode
    ((BinderObjectOrRef.weakObject ⟨1, ⟨5, 0⟩⟩).getFlatBinderObject 0)
  objOffsets := [0]
  ownedFds := []
  binderObjects := [.weakObject ⟨1, ⟨5, 0⟩⟩]

/-- A payload of one weak object is not drained losslessly: the loop reads its record as bytes
first, and breaks with a builder in which the object starts at offset 24, not 0. -/
theorem echo_loses_object :
    PayloadBuilder.new.pushAll (fun _ => 0)
        [(BinderDevice.new 1, .binderRef (.erased (.weakObject ⟨1, ⟨5, 0⟩⟩)))] =
          some weakPayload ∧
      ∃ r, PayloadReader.fromBuilder PayloadReader.sampleDup (fun _ => 0) (BinderDevice.new 1) 11
          weakPayload = some (r, BinderDevice.new 1, 11) ∧
        (echoLoop (fun _ => 0) (fun _ _ => none) 3
          ⟨r, PayloadBuilder.new, BinderDevice.new 1⟩).map (·.objOffsets) = some [24] ∧
        ¬ EchoLossless (fun _ => 0) (fun _ _ => none) (BinderDevice.new 1) r weakPayload := by
  have hr : PayloadReader.fromBuilder PayloadReader.sampleDup (fun _ => 0) (BinderDevice.new 1) 11
      weakPayload = some (⟨1, .owned weakPayload.data, some (.owned [0]),
        [.weakObject ⟨1, ⟨5, 0⟩⟩], 0, 0⟩, BinderDevice.new 1, 11) := by rfl
  refine ⟨by rfl, _, hr, by decide +kernel, ?_⟩
  rintro ⟨fuel, b', hloop, hreb⟩
  exact not_rebuilds_of_echoLoop (PayloadReader.delivered_of_fromBuilder hr) (by decide) hloop hreb

end Step

end BinderBinder
