import BinderBinder.Device.Rollback

set_option relaxedAutoImplicit false
set_option autoImplicit false

/-!
# Local delivery of a payload

`PayloadReader::from_builder` copies a payload for a reader in the same process. It duplicates the
descriptors, and writes their new numbers into the copy; all other bytes stay as they are. Buffers
and descriptor arrays are a `todo!()`. It clones the handles, and the payload it was made from can
be dropped then.

## Main definitions

* `BuilderCall.isDeliverable`, `BuilderCall.descriptor?` — what a call pushes.
* `dupEach` — some descriptors are duplicated, one after another.
* `PayloadReader.Patches` — what becomes of the records of a table.
* `PayloadBuilder.SameButFds` — the bytes of a payload, up to the records of its descriptors.
* `BinderDevice.HasRoom` — the counts of a device have room for a method on some ids.

## Main results

* `PayloadReader.patchFds_spec_of_represents` — what becomes of the bytes of a payload.
* `PayloadReader.isSome_cloneAll_iff` — the handles of a payload can be cloned if the counts have
  room.
* `isSome_drop_of_cloneAll` — behind the clones, the payload can be dropped.
-/

namespace BinderBinder

open Run

/-! ## The bytes -/

/-- Local delivery knows what the call pushes. -/
def BuilderCall.isDeliverable : BuilderCall → Bool
  | pushBuffer _ | pushChildBuffer _ _ _ | pushFdArray _ _ _ => false
  | _ => true

/-- The descriptor that a call pushes. -/
def BuilderCall.descriptor? : BuilderCall → Option Fd
  | pushFd d _ | pushOwnedFd d _ => some d
  | _ => none

/-- Descriptors are duplicated one after another. -/
def dupEach {φ : Type} (dup : φ → Fd → Option (Fd × φ)) (files : φ) (ds : List Fd) : Option φ :=
  ds.foldlM (fun files d => (dup files d).map Prod.snd) files

/-- At the offset lies the record of a descriptor. -/
def PayloadBuilder.FdAt (b : PayloadBuilder) (off : ℕ) : Prop :=
  ∃ header, BinderObjectHeader.layout.readAt b.data off = some header ∧
    BinderType.ofU32 header.type_ = some .fd

/-- The bytes are those of the payload, but for the records of its descriptors. -/
structure PayloadBuilder.SameButFds (b : PayloadBuilder) (out : List UInt8) : Prop where
  length : out.length = b.data.length
  same : ∀ i, (∀ off ∈ b.objOffsets, b.FdAt off → i < off ∨ off + objectSize ≤ i) →
    out[i]? = b.data[i]?

/-- Without descriptors they are the bytes of the payload. -/
theorem PayloadBuilder.SameButFds.eq_data {b : PayloadBuilder} {out : List UInt8}
    (h : b.SameButFds out) (hno : ∀ off ∈ b.objOffsets, ¬ b.FdAt off) : out = b.data :=
  List.ext_getElem? fun i => h.same i fun off hoff hfd => absurd hfd (hno off hoff)

/-- Every record of a descriptor was pushed as one. -/
theorem BuilderCall.isSome_descriptor?_of_object {c : BuilderCall} {upper : UInt32}
    {o : ObjectRecord} (hobject : c.object upper = some o)
    (hfd : BinderType.ofU32 o.hdr.type_ = some .fd) : c.descriptor?.isSome := by
  cases c with
  | pushFd d cookie | pushOwnedFd d cookie => rfl
  | pushBytes bytes | align a ha => cases hobject
  | pushBinderRef dev x =>
    cases hobject
    have htype := BinderObjectOrRef.ofU32_getFlatBinderObject upper x.handle
    have hfd : some x.handle.binderType = some BinderType.fd := htype.symm.trans hfd
    cases hx : x.handle <;> rw [hx] at hfd <;> cases hfd
  | pushBuffer bytes | pushChildBuffer bytes parent parentPtrOffset =>
    cases hobject
    have hfd : BinderType.ofU32 BinderType.ptr.toU32 = some .fd := hfd
    rw [BinderType.ofU32_toU32] at hfd
    cases hfd
  | pushFdArray numFds parent parentPtrOffset =>
    cases hobject
    have hfd : BinderType.ofU32 BinderType.fda.toU32 = some .fd := hfd
    rw [BinderType.ofU32_toU32] at hfd
    cases hfd

namespace PayloadReader

section Patch

variable {φ : Type} (dup : φ → Fd → Option (Fd × φ)) (undef : ℕ → UInt32)

/-- The record of a handle is stepped over. -/
theorem patchFds_cons_handle {files : φ} {data : List UInt8} {off : ℕ} {offs : List ℕ}
    {header : BinderObjectHeader} (hheader : BinderObjectHeader.layout.readAt data off = some header)
    {x : BinderObjectOrRef} (hx : BinderType.ofU32 header.type_ = some x.binderType) :
    patchFds dup undef files data (off :: offs) = patchFds dup undef files data offs := by
  rw [patchFds, hheader]
  simp only [Option.bind_eq_bind, Option.bind_some, hx]
  cases x <;> rfl

/-- In the record of a descriptor, a duplicate is written. -/
theorem patchFds_cons_fd (files : φ) {data : List UInt8} {off : ℕ} (offs : List ℕ) {d : Fd}
    {cookie : Usize} {upper : UInt32}
    (hheader : BinderObjectHeader.layout.readAt data off = some (fdObject upper d cookie).hdr)
    (hfields : BinderFdObject.layout.readAt data off = some (fdObject upper d cookie)) :
    ∃ written : Fd → List UInt8,
      (∀ d', BinderFdObject.layout.writeAt data off (fdObject (undef off) d' cookie) =
        some (written d')) ∧
      patchFds dup undef files data (off :: offs) =
        (dup files d).bind fun x => patchFds dup undef x.2 (written x.1) offs := by
  have hfits : off + BinderFdObject.layout.size ≤ data.length := by
    by_contra hlt
    rw [Layout.readAt, if_neg hlt] at hfields
    cases hfields
  refine ⟨fun d' => data.take off ++ BinderFdObject.layout.encode (fdObject (undef off) d' cookie) ++
    data.drop (off + BinderFdObject.layout.size), fun d' => if_pos hfits, ?_⟩
  rw [patchFds, hheader]
  simp only [fdObject, BinderType.ofU32_toU32, Option.bind_eq_bind, Option.bind_some] at hfields ⊢
  rw [hfields]
  simp only [Option.bind_some, BinderFdObjectData.fd_ofFd, Fd.ofRaw_raw, Layout.writeAt,
    if_pos hfits]

/-- `from_builder` gets through the records of a table if the descriptors that the calls pushed can be
duplicated, and it changes only their records. -/
structure Patches (files : φ) (data : List UInt8) (calls : List BuilderCall)
    (table : List (ℕ × ObjectRecord)) : Prop where
  dups : (patchFds dup undef files data (table.map Prod.fst)).map Prod.snd =
    dupEach dup files (calls.filterMap BuilderCall.descriptor?)
  length : ∀ x, patchFds dup undef files data (table.map Prod.fst) = some x →
    x.1.length = data.length
  same : ∀ x, patchFds dup undef files data (table.map Prod.fst) = some x → ∀ i,
    (∀ m ∈ table, BinderType.ofU32 m.2.hdr.type_ = some .fd → i < m.1 ∨ m.1 + objectSize ≤ i) →
    x.1[i]? = data[i]?

variable {dup undef}

/-- In front of the other records lies that of a handle. -/
theorem Patches.handle {files : φ} {data : List UInt8} {cs : List BuilderCall}
    {table : List (ℕ × ObjectRecord)} (h : Patches dup undef files data cs table)
    {c : BuilderCall} (hc : c.descriptor? = none) {off : ℕ} {o : ObjectRecord}
    (hhead : BinderObjectHeader.layout.readAt data off = some o.hdr) {x : BinderObjectOrRef}
    (hx : BinderType.ofU32 o.hdr.type_ = some x.binderType) :
    Patches dup undef files data (c :: cs) ((off, o) :: table) := by
  have hstep := @patchFds_cons_handle φ dup undef files data off (table.map Prod.fst) _ hhead x hx
  refine ⟨?_, fun x hx => h.length x (hstep.symm.trans hx), fun x hx i hi => ?_⟩
  · rw [List.map_cons, hstep, h.dups, List.filterMap_cons_none hc]
  · exact h.same x (hstep.symm.trans hx) i fun m hm => hi m (List.mem_cons_of_mem _ hm)

/-- In front of the other records lies that of a descriptor, and they are patched behind it whatever
was written over it. -/
theorem Patches.fd {files : φ} {data : List UInt8} {cs : List BuilderCall}
    {table : List (ℕ × ObjectRecord)} {c : BuilderCall} {d : Fd} (hc : c.descriptor? = some d)
    {off : ℕ} {upper : UInt32} {cookie : Usize}
    (hhead : BinderObjectHeader.layout.readAt data off = some (fdObject upper d cookie).hdr)
    (hlies : BinderFdObject.layout.readAt data off = some (fdObject upper d cookie))
    (hnext : ∀ {written : List UInt8} {d' : Fd} (files : φ),
      BinderFdObject.layout.writeAt data off (fdObject (undef off) d' cookie) = some written →
      Patches dup undef files written cs table) :
    Patches dup undef files data (c :: cs) ((off, .fd (fdObject upper d cookie)) :: table) := by
  obtain ⟨written, hwritten, hstep⟩ :=
    patchFds_cons_fd dup undef files (table.map Prod.fst) hhead hlies
  have hrest (y : Fd × φ) := hnext y.2 (hwritten y.1)
  cases hdup : dup files d with
  | none =>
    rw [hdup] at hstep
    refine ⟨?_, fun x hx => ?_, fun x hx => ?_⟩
    · rw [List.map_cons, hstep, List.filterMap_cons_some hc, dupEach, List.foldlM_cons, hdup]
      rfl
    all_goals
      rw [List.map_cons, hstep] at hx
      cases hx
  | some y =>
    rw [hdup] at hstep
    refine ⟨?_, fun x hx => ?_, fun x hx i hi => ?_⟩
    · rw [List.map_cons, hstep, List.filterMap_cons_some hc, dupEach, List.foldlM_cons, hdup]
      exact (hrest y).dups
    · exact ((hrest y).length x (hstep.symm.trans hx)).trans
        (BinderFdObject.layout.length_of_writeAt (hwritten y.1))
    · have houtside : i < off ∨ off + BinderFdObject.layout.size ≤ i :=
        hi _ List.mem_cons_self (BinderType.ofU32_toU32 .fd)
      rw [(hrest y).same x (hstep.symm.trans hx) i fun m hm => hi m (List.mem_cons_of_mem _ hm),
        BinderFdObject.layout.getElem?_of_writeAt (hwritten y.1) houtside]

/-- The records of a table are patched.

**Proof sketch.** Induction on the table. A duplicate is written over the record of a descriptor,
so the records behind it stay as they are. -/
theorem patches_table {calls : List BuilderCall} {table : List (ℕ × ObjectRecord)}
    {data : List UInt8} (files : φ)
    (hobjects : List.Forall₂ (fun c m => ∃ upper, c.object upper = some m.2) calls table)
    (hheader : ∀ m ∈ table, BinderObjectHeader.layout.readAt data m.1 = some m.2.hdr)
    (hfields : ∀ m ∈ table, m.2.LiesAt data m.1)
    (hdisjoint : table.Pairwise fun m m' => m.1 + m.2.size ≤ m'.1)
    (hcalls : ∀ c ∈ calls, c.isDeliverable = true) : Patches dup undef files data calls table := by
  induction hobjects generalizing data files with
  | nil =>
    refine ⟨rfl, fun x hx => ?_, fun x hx _ _ => ?_⟩
    all_goals
      cases hx
      rfl
  | @cons c m cs table hc hrest ih =>
    obtain ⟨off, o⟩ := m
    obtain ⟨upper, hobject⟩ := hc
    obtain ⟨hfirst, hdisjoint⟩ := List.pairwise_cons.mp hdisjoint
    have hhead := hheader _ List.mem_cons_self
    have hlies := hfields _ List.mem_cons_self
    have hdeliverable := hcalls c List.mem_cons_self
    -- the rest of the table is patched in data in which its records are as they were
    have hnext (data' : List UInt8) (files : φ) (hread : ∀ m ∈ table, ∀ {β : Type} (l : Layout β),
        l.readAt data' m.1 = l.readAt data m.1) : Patches dup undef files data' cs table := by
      refine ih files (fun m hm => ?_) (fun m hm => ?_) hdisjoint
        fun c hc => hcalls c (List.mem_cons_of_mem _ hc)
      · exact (hread m hm _).trans (hheader m (List.mem_cons_of_mem _ hm))
      · have hlies := hfields m (List.mem_cons_of_mem _ hm)
        obtain ⟨off', o'⟩ := m
        cases o' <;> exact (hread _ hm _).trans hlies
    cases c with
    | pushBytes bytes | align a ha => cases hobject
    | pushBuffer bytes | pushChildBuffer bytes parent parentPtrOffset
    | pushFdArray numFds parent parentPtrOffset => cases hdeliverable
    | pushFd d cookie | pushOwnedFd d cookie =>
      cases hobject
      exact .fd rfl hhead hlies fun files hwritten => hnext _ files fun m hm β l =>
        BinderFdObject.layout.readAt_of_writeAt l hwritten (hfirst m hm)
    | pushBinderRef dev x =>
      cases hobject
      exact (hnext data files fun _ _ _ _ => rfl).handle rfl hhead
        (BinderObjectOrRef.ofU32_getFlatBinderObject upper x.handle)

variable (dup undef)

/-- **What becomes of the bytes.** Local delivery gets through a payload without buffers and
descriptor arrays if its descriptors can be duplicated, one after another; the copy has its bytes,
up to the records of the descriptors. -/
theorem patchFds_spec_of_represents {calls : List BuilderCall} {table : List (ℕ × ObjectRecord)}
    {b : PayloadBuilder} (hb : b.Represents calls table)
    (hcalls : ∀ c ∈ calls, c.isDeliverable = true) (files : φ) :
    (patchFds dup undef files b.data b.objOffsets).map Prod.snd =
        dupEach dup files (calls.filterMap BuilderCall.descriptor?) ∧
      ∀ x, patchFds dup undef files b.data b.objOffsets = some x → b.SameButFds x.1 := by
  have hpatches : Patches dup undef files b.data (calls.filter BuilderCall.isObject) table :=
    patches_table files (List.forall₂_map_right_iff.mp hb.objects) hb.header hb.fields hb.disjoint
      fun c hc => hcalls c (List.mem_of_mem_filter hc)
  have hobjects : (calls.filter BuilderCall.isObject).filterMap BuilderCall.descriptor? =
      calls.filterMap BuilderCall.descriptor? := by
    rw [List.filterMap_filter]
    refine List.filterMap_congr fun c _ => ?_
    cases c <;> rfl
  rw [hb.offsets, ← hobjects]
  refine ⟨hpatches.dups, fun x hx => ⟨hpatches.length x hx, fun i hi =>
    hpatches.same x hx i fun m hm hfd => ?_⟩⟩
  refine hi m.1 ?_ ⟨m.2.hdr, hb.header m hm, hfd⟩
  rw [hb.offsets]
  exact List.mem_map_of_mem hm

/-- A payload into which no descriptor was pushed has no record of one. -/
theorem not_fdAt_of_represents {calls : List BuilderCall} {table : List (ℕ × ObjectRecord)}
    {b : PayloadBuilder} (hb : b.Represents calls table)
    (hcalls : calls.filterMap BuilderCall.descriptor? = []) :
    ∀ off ∈ b.objOffsets, ¬ b.FdAt off := by
  rintro off hoff ⟨header, hheader, hfd⟩
  rw [hb.offsets] at hoff
  obtain ⟨m, hm, rfl⟩ := List.mem_map.mp hoff
  have heq : header = m.2.hdr := Option.some.inj (hheader.symm.trans (hb.header m hm))
  subst heq
  obtain ⟨i, hi, hget⟩ := List.mem_iff_getElem.mp hm
  have hobjects := List.forall₂_map_right_iff.mp hb.objects
  have hlen := hobjects.length_eq
  obtain ⟨upper, hobject⟩ := hobjects.get (i := i) (by omega) hi
  have hdescriptor := BuilderCall.isSome_descriptor?_of_object hobject
    (by rw [List.get_eq_getElem, hget]; exact hfd)
  have hmem : (calls.filter BuilderCall.isObject).get ⟨i, by omega⟩ ∈ calls :=
    List.mem_of_mem_filter (List.get_mem _ _)
  rw [List.filterMap_eq_nil_iff.mp hcalls _ hmem] at hdescriptor
  cases hdescriptor

end Patch

end PayloadReader

/-! ## The handles -/

/-- The id of a strong object of a device. -/
def BinderObjectOrRef.strongIdOn (addr : Addr) (x : BinderObjectOrRef) : Option BinderObjectId :=
  if x.device = addr then x.strongId else none

/-- A handle that holds a local reference to an object is one to that object. -/
theorem BinderObjectOrRef.strongId_of_holds {x : BinderObjectOrRef} {id : BinderObjectId}
    (h : x.holds id = true) : x.strongId = some id := by
  cases x with
  | object o =>
    obtain ⟨-, hid⟩ := Bool.and_eq_true_iff.mp h
    exact congrArg some (eq_of_beq hid)
  | _ => cases h

/-- A method on the counts of some ids goes through: none of them leaves its range. -/
def BinderDevice.HasRoom (dev : BinderDevice) (op : RefOp) (ids : List BinderObjectId) : Prop :=
  ∀ id s, dev.objectRefcounts id = some s →
    (exec ObjectRefState.step s (List.replicate (ids.count id) op)).isSome

/-- A method on many ids goes through exactly if the counts have room for it. -/
theorem BinderDevice.isSome_refOpAll_iff {dev : BinderDevice} {op : RefOp}
    {ids : List BinderObjectId} : (dev.refOpAll op ids).isSome ↔ dev.HasRoom op ids := by
  refine ⟨fun h id s hs => ?_, isSome_refOpAll⟩
  obtain ⟨dev', hdev'⟩ := Option.isSome_iff_exists.mp h
  obtain ⟨s', -, hexec⟩ := exec_of_refOpAll hdev' hs
  exact Option.isSome_iff_exists.mpr ⟨s', hexec⟩

/-- A clone counts a strong object once more. -/
theorem BinderObjectOrRef.clone_eq (dev : BinderDevice) (x : BinderObjectOrRef) :
    (x.clone dev).map Prod.snd = dev.refOpAll .increaseLocal x.strongId.toList := by
  cases x with
  | object o =>
    rw [clone, BorrowedBinderObject.clone, BinderDevice.increaseLocal, strongId, Option.toList_some,
      BinderDevice.refOpAll, List.foldlM_cons]
    cases dev.refOp o.id .increaseLocal <;> rfl
  | _ => rfl

/-- A method on the ids of two lists, one after the other. -/
theorem BinderDevice.refOpAll_append (dev : BinderDevice) (op : RefOp)
    (ids ids' : List BinderObjectId) : dev.refOpAll op (ids ++ ids') =
      (dev.refOpAll op ids).bind fun dev => dev.refOpAll op ids' :=
  List.foldlM_append

/-- The first handle is cloned on its device, and then the others are. -/
theorem PayloadReader.cloneAll_cons (dev : BinderDevice) (x : BinderObjectOrRef)
    (xs : List BinderObjectOrRef) : (cloneAll dev (x :: xs)).map Prod.snd =
      ((if x.device = dev.addr then x.clone dev else some (x, dev)).map Prod.snd).bind fun dev =>
        (cloneAll dev xs).map Prod.snd := by
  rw [cloneAll]
  split_ifs
  · cases x.clone dev with
    | none => rfl
    | some y =>
      obtain ⟨y, dev₁⟩ := y
      simp only [Option.bind_eq_bind, Option.bind_some, Option.map_some]
      cases cloneAll dev₁ xs <;> rfl
  · simp only [Option.bind_eq_bind, Option.bind_some, Option.map_some]
    cases cloneAll dev xs <;> rfl

/-- The clones of a payload count its strong objects of the device once more. -/
theorem PayloadReader.cloneAll_eq (dev : BinderDevice) (xs : List BinderObjectOrRef) :
    (cloneAll dev xs).map Prod.snd =
      dev.refOpAll .increaseLocal (xs.filterMap (BinderObjectOrRef.strongIdOn dev.addr)) := by
  induction xs generalizing dev with
  | nil => rfl
  | cons x xs ih =>
    have hfirst : ((if x.device = dev.addr then x.clone dev else some (x, dev)).map Prod.snd) =
        dev.refOpAll .increaseLocal (x.strongIdOn dev.addr).toList := by
      unfold BinderObjectOrRef.strongIdOn
      split_ifs
      · exact x.clone_eq dev
      · rfl
    have hids : (x :: xs).filterMap (BinderObjectOrRef.strongIdOn dev.addr) =
        (x.strongIdOn dev.addr).toList ++
          xs.filterMap (BinderObjectOrRef.strongIdOn dev.addr) := by
      rw [List.filterMap_cons]
      cases x.strongIdOn dev.addr <;> rfl
    rw [hids, BinderDevice.refOpAll_append, cloneAll_cons, hfirst]
    cases hids : dev.refOpAll .increaseLocal (x.strongIdOn dev.addr).toList with
    | none => rfl
    | some dev₁ =>
      have haddr : dev₁.addr = dev.addr := by rw [(BinderDevice.refOpAll_spec hids).2.2]
      rw [Option.bind_some, Option.bind_some, ih, haddr]

/-- The handles of a payload can be cloned exactly if the counts have room for it. -/
theorem PayloadReader.isSome_cloneAll_iff (dev : BinderDevice) (xs : List BinderObjectOrRef) :
    (cloneAll dev xs).isSome ↔
      dev.HasRoom .increaseLocal (xs.filterMap (BinderObjectOrRef.strongIdOn dev.addr)) := by
  rw [← BinderDevice.isSome_refOpAll_iff, ← cloneAll_eq, Option.isSome_map]

/-- Local references that are counted one after another. -/
theorem ObjectRefState.counts_of_increases {s s' : ObjectRefState} {n : ℕ}
    (h : exec step s (List.replicate n .increaseLocal) = some s') :
    s'.counts.localRefs = s.counts.localRefs + n ∧ (0 < n → s'.Published) := by
  induction n generalizing s with
  | zero =>
    cases h
    exact ⟨rfl, fun hpos => absurd hpos (Nat.lt_irrefl 0)⟩
  | succ n ih =>
    rw [List.replicate_succ] at h
    obtain ⟨s₁, hs₁, hrest⟩ := exec_cons_eq_some.mp h
    obtain ⟨hcounts, -, hpublished⟩ := step_eq_some.mp hs₁
    obtain ⟨hraised, -⟩ := ih hrest
    rw [(RefOp.apply_increaseLocal.mp hcounts).2] at hraised
    refine ⟨by rw [hraised]; show s.counts.localRefs + 1 + n = _; omega, fun _ => ?_⟩
    exact published_of_exec hpublished hrest

/-- Every handle holds a counted local reference, in its own name. -/
def BinderDevice.Backs (dev : BinderDevice) (handles : List BinderObjectOrRef) : Prop :=
  ∀ id s, dev.objectRefcounts id = some s →
    0 < (handles.countP fun x => x.device == dev.addr && x.holds id) →
    s.Published ∧ (handles.countP fun x => x.device == dev.addr && x.holds id) ≤ s.counts.localRefs

/-- Behind the clones of some handles, they are backed: each was counted once more. -/
theorem backs_of_cloneAll {dev dev' : BinderDevice} {xs ys : List BinderObjectOrRef}
    (h : PayloadReader.cloneAll dev xs = some (ys, dev')) : dev'.Backs xs := by
  have hall := PayloadReader.cloneAll_eq dev xs
  rw [h, Option.map_some] at hall
  obtain ⟨hcounts, -, hrest⟩ := BinderDevice.refOpAll_spec hall.symm
  have hrest : dev' = { dev with objectRefcounts := dev'.objectRefcounts } := hrest
  have haddr : dev'.addr = dev.addr := by rw [hrest]
  intro id s' hs' hpos
  rw [haddr] at hpos ⊢
  have hle : (xs.countP fun x => x.device == dev.addr && x.holds id) ≤
      (xs.filterMap (BinderObjectOrRef.strongIdOn dev.addr)).count id := by
    rw [List.count, List.countP_filterMap]
    refine List.countP_mono_left fun x _ hx => ?_
    obtain ⟨hdevice, hholds⟩ := Bool.and_eq_true_iff.mp hx
    rw [BinderObjectOrRef.strongIdOn, if_pos (eq_of_beq hdevice),
      BinderObjectOrRef.strongId_of_holds hholds]
    exact beq_self_eq_true id
  have hcounts := hcounts id
  rw [hs'] at hcounts
  obtain ⟨s, -, hexec⟩ := Option.bind_eq_some_iff.mp hcounts.symm
  obtain ⟨hlocal, hpublished⟩ := ObjectRefState.counts_of_increases hexec
  exact ⟨hpublished (by omega), by omega⟩

section Drop

variable {kernel : KernelWrite}

/-- A backed handle can be dropped. -/
theorem isSome_dropArc_of_backs (hk : Accepts kernel) {dev : BinderDevice} {x : BinderObjectOrRef}
    {xs : List BinderObjectOrRef} (hdevice : x.device = dev.addr) (h : dev.Backs (x :: xs))
    (lastRef lastWeak : Bool) : (x.dropArc kernel dev lastRef lastWeak).isSome := by
  cases x with
  | weakObject o => rfl
  | ref r => exact PayloadReader.isSome_dropArc_ref hk dev lastRef lastWeak r
  | weakRef r => exact PayloadReader.isSome_dropArc_weakRef hk dev lastRef lastWeak r
  | object o =>
    rw [BinderObjectOrRef.dropArc, BorrowedBinderObject.drop]
    split_ifs with hcounted
    · rw [BinderDevice.decreaseLocal, Option.isSome_map, BinderDevice.refOp]
      cases hs : dev.objectRefcounts o.id with
      | none => rfl
      | some s =>
        have hbacked := h o.id s hs
        rw [List.countP_cons_of_pos (by simp [hdevice, BinderObjectOrRef.holds, hcounted])]
          at hbacked
        obtain ⟨hpublished, hle⟩ := hbacked (Nat.succ_pos _)
        obtain ⟨s', hs'⟩ := hpublished.exists_decreaseLocal (by omega)
        simp [hs']
    · rfl

/-- Behind the drop of one handle, the others are backed. -/
theorem backs_of_dropArc {dev dev' : BinderDevice} {x : BinderObjectOrRef}
    {xs : List BinderObjectOrRef} {lastRef lastWeak : Bool} (hdevice : x.device = dev.addr)
    (h : dev.Backs (x :: xs)) (hdrop : x.dropArc kernel dev lastRef lastWeak = some dev') :
    dev'.Backs xs := by
  obtain ⟨haddr, -, hcounts⟩ := BinderDevice.counts_dropArc hdrop
  intro id s' hs' hpos
  rw [haddr] at hpos ⊢
  rw [hcounts] at hs'
  by_cases hholds : x.holds id = true
  · rw [if_pos hholds] at hs'
    obtain ⟨s, hs, hstep⟩ := Option.bind_eq_some_iff.mp hs'
    have hbacked := h id s hs
    rw [List.countP_cons_of_pos (by simp [hdevice, hholds])] at hbacked
    obtain ⟨-, hle⟩ := hbacked (Nat.succ_pos _)
    obtain ⟨hlowered, -, hpublished⟩ := ObjectRefState.step_eq_some.mp hstep
    rw [(RefOp.apply_decreaseLocal.mp hlowered).2]
    refine ⟨hpublished, ?_⟩
    show _ ≤ s.counts.localRefs - 1
    omega
  · rw [if_neg hholds] at hs'
    have hbacked := h id s' hs'
    rw [List.countP_cons_of_neg (by simp [hholds])] at hbacked
    exact hbacked hpos

/-- Backed handles can be dropped one after another. -/
theorem isSome_dropHandles_of_backs (hk : Accepts kernel) (last : ℕ → Bool × Bool)
    {handles : List (BinderObjectOrRef × ℕ)} {dev : BinderDevice}
    (h : dev.Backs (handles.map Prod.fst)) : (dropHandles kernel last dev handles).isSome := by
  induction handles generalizing dev with
  | nil => rfl
  | cons p handles ih =>
    obtain ⟨x, i⟩ := p
    rw [List.map_cons] at h
    rw [dropHandles, List.foldlM_cons]
    by_cases hdevice : x.device = dev.addr
    · obtain ⟨dev', hdrop⟩ := Option.isSome_iff_exists.mp
        (isSome_dropArc_of_backs hk hdevice h (last i).1 (last i).2)
      simp only [hdevice, if_true, hdrop]
      exact ih (backs_of_dropArc hdevice h hdrop)
    · simp only [hdevice, if_false]
      refine ih fun id s hs hpos => ?_
      have hbacked := h id s hs
      rw [List.countP_cons_of_neg (by simp [hdevice])] at hbacked
      exact hbacked hpos

/-- Behind the clones of its handles, a payload can be dropped. -/
theorem isSome_drop_of_cloneAll (hk : Accepts kernel) (last : ℕ → Bool × Bool)
    {b : PayloadBuilder} {dev dev' : BinderDevice} {ys : List BinderObjectOrRef}
    (h : PayloadReader.cloneAll dev b.binderObjects = some (ys, dev')) :
    (b.drop kernel last dev').isSome := by
  refine isSome_dropHandles_of_backs hk last ?_
  rw [List.zipIdx_map_fst]
  exact backs_of_cloneAll h

end Drop

end BinderBinder
