import BinderBinder.Lib.Table
import BinderBinder.Payload.Representation

set_option relaxedAutoImplicit false
set_option autoImplicit false

/-!
# Nested buffers

A buffer that is pushed may hang under another one: `push_child_buffer` takes what the push of the
parent returned, and where in the parent the pointer to the child lies. The kernel reads the nesting
from the payload: a buffer object with the flag `HAS_PARENT` names its parent by its position in the
table of offsets, and every other buffer object is a root.

## Main definitions

* `Uapi.buffersIn`, `Uapi.parentsIn` — the buffer objects of a payload, and their parents, as the
  kernel reads them.
* `PushedBuffer` — a buffer that was pushed, with the buffer it hangs under.
* `ForestCall`, `BufferForest.step` — a program that pushes a forest of buffers, and other things.

## Main results

* `BufferForest.forest_of_exec` — what a program pushes is a forest.
* `BufferForest.buffersIn_of_exec` — the buffer objects of the payload are those that were pushed.
* `BufferForest.parentsIn_of_exec` — the kernel reads each of them as a root.
* `BufferForest.parents_recovered_iff` — when it reads the forest that was pushed.
* `BufferForest.namesParent_iff` — when the parent field of a child names its parent.
* `BufferForest.no_decoder` — no other rules recover the forest either.
-/

namespace BinderBinder

open Run

/-! ## The rules of the kernel -/

/-- Where a buffer hangs: the position of its parent in the table of offsets, and where in the
parent the pointer to it lies. -/
structure ParentLink where
  position : ℕ
  offset : Usize
  deriving DecidableEq, Repr

namespace Uapi

/-- The parent of a buffer object: `none` without the flag `HAS_PARENT`. -/
def parentLink (o : BinderBufferObject) : Option ParentLink :=
  if o.flags &&& BinderBufferFlags.hasParent = BinderBufferFlags.hasParent then
    some ⟨o.parent.toNat, o.parentOffset⟩
  else none

/-- The buffer object at an offset; the header says whether there is one. -/
def bufferAt (data : List UInt8) (off : ℕ) : Option BinderBufferObject :=
  if BinderObjectHeader.layout.readAt data off = some ⟨BinderType.ptr.toU32⟩ then
    BinderBufferObject.layout.readAt data off
  else none

/-- The buffer objects of a payload, with their positions in the table of offsets. -/
def buffersIn (data : List UInt8) (offsets : List ℕ) : List (ℕ × BinderBufferObject) :=
  Table.select (bufferAt data) offsets

/-- The positions of the buffers of a payload, with their parents. -/
def parentsIn (data : List UInt8) (offsets : List ℕ) : List (ℕ × Option ParentLink) :=
  (buffersIn data offsets).map fun m => (m.1, parentLink m.2)

end Uapi

/-! ## Buffers among the objects -/

/-- The buffer object that a record is. -/
def ObjectRecord.buffer? : ObjectRecord → Option BinderBufferObject
  | .buffer o => some o
  | _ => none

namespace BuilderCall

/-- The buffer object that a call pushes. -/
def buffer? : BuilderCall → Option BinderBufferObject
  | pushBuffer bytes => some (bufferObject bytes 0 0)
  | pushChildBuffer bytes parent parentPtrOffset =>
    some (bufferObject bytes parent parentPtrOffset)
  | _ => none

/-- The call pushes a buffer. -/
def isBuffer (c : BuilderCall) : Bool := c.buffer?.isSome

variable {c : BuilderCall} {o : ObjectRecord} {upper : UInt32}

/-- A call that pushes a buffer pushes an object. -/
theorem isObject_of_buffer? {buf : BinderBufferObject} (h : c.buffer? = some buf) :
    c.isObject = true := by
  cases c with
  | pushBuffer bytes => rfl
  | pushChildBuffer bytes parent parentPtrOffset => rfl
  | _ => cases h

/-- The object of a call is a buffer exactly if the call pushes one. -/
theorem buffer?_of_object (h : c.object upper = some o) : o.buffer? = c.buffer? := by
  cases c with
  | pushBytes bytes => cases h
  | align a ha => cases h
  | _ =>
    cases h
    rfl

/-- The header of a buffer object announces one. -/
theorem hdr_of_buffer? {buf : BinderBufferObject} (h : c.buffer? = some buf) :
    buf.hdr = ⟨BinderType.ptr.toU32⟩ := by
  cases c with
  | pushBuffer bytes =>
    cases h
    rfl
  | pushChildBuffer bytes parent parentPtrOffset =>
    cases h
    rfl
  | _ => cases h

/-- Headers of different object types are different. -/
theorem header_ne {t t' : BinderType} (h : t ≠ t') :
    (⟨t.toU32⟩ : BinderObjectHeader) ≠ ⟨t'.toU32⟩ := by
  intro heq
  apply h
  apply Option.some.inj
  rw [← BinderType.ofU32_toU32 t, ← BinderType.ofU32_toU32 t', BinderObjectHeader.mk.inj heq]

/-- No other object has the header of a buffer object. -/
theorem hdr_ne_of_object (h : c.object upper = some o) (hbuf : c.buffer? = none) :
    o.hdr ≠ ⟨BinderType.ptr.toU32⟩ := by
  cases c with
  | pushBytes bytes => cases h
  | align a ha => cases h
  | pushBuffer bytes => cases hbuf
  | pushChildBuffer bytes parent parentPtrOffset => cases hbuf
  | pushBinderRef dev x =>
    cases h
    cases hx : x.handle with
    | object obj => exact header_ne (t := .binder) (by decide)
    | weakObject obj => exact header_ne (t := .weakBinder) (by decide)
    | ref r => exact header_ne (t := .handle) (by decide)
    | weakRef r => exact header_ne (t := .weakHandle) (by decide)
  | pushFd d cookie =>
    cases h
    exact header_ne (t := .fd) (by decide)
  | pushOwnedFd d cookie =>
    cases h
    exact header_ne (t := .fd) (by decide)
  | pushFdArray numFds parent parentPtrOffset =>
    cases h
    exact header_ne (t := .fda) (by decide)

end BuilderCall

/-- At the place of an object the kernel finds the buffer that the object is, if it is one. -/
theorem Uapi.bufferAt_eq {data : List UInt8} {c : BuilderCall} {m : ℕ × ObjectRecord}
    {upper : UInt32} (hobj : c.object upper = some m.2)
    (hhdr : BinderObjectHeader.layout.readAt data m.1 = some m.2.hdr)
    (hlies : m.2.LiesAt data m.1) :
    bufferAt data m.1 = c.buffer? := by
  have hbuf := BuilderCall.buffer?_of_object hobj
  rw [bufferAt, hhdr]
  cases hc : c.buffer? with
  | none =>
    rw [if_neg]
    intro heq
    exact BuilderCall.hdr_ne_of_object hobj hc (Option.some.inj heq)
  | some buf =>
    obtain ⟨off, o⟩ := m
    rw [hc] at hbuf
    cases o with
    | buffer o =>
      cases hbuf
      rw [if_pos]
      · exact hlies
      · exact congrArg some (BuilderCall.hdr_of_buffer? hc)
    | _ => cases hbuf

/-- What the kernel finds in the payload of a builder are the buffers of the calls it represents.

**Proof sketch.** The table lists the objects of the calls in order, each with its place; at its
place lie its header and its fields. -/
theorem PayloadBuilder.Represents.buffersIn_eq {calls : List BuilderCall}
    {table : List (ℕ × ObjectRecord)} {b : PayloadBuilder} (hb : b.Represents calls table) :
    Uapi.buffersIn b.data b.objOffsets =
      Table.select BuilderCall.buffer? (calls.filter BuilderCall.isObject) := by
  have hobjects := List.forall₂_map_right_iff.mp hb.objects
  have hplaced := (List.forall₂_and_left table _).mpr ⟨fun m hm => hm, hobjects.flip⟩
  rw [Uapi.buffersIn, hb.offsets]
  refine Table.select_eq_of_forall₂ (List.forall₂_map_left_iff.mpr (hplaced.imp ?_)) fun _ _ h => h
  rintro m c ⟨hm, upper, hobj⟩
  exact Uapi.bufferAt_eq hobj (hb.header m hm) (hb.fields m hm)

/-- There are as many offsets as calls that push an object. -/
theorem PayloadBuilder.Represents.length_objOffsets {calls : List BuilderCall}
    {table : List (ℕ × ObjectRecord)} {b : PayloadBuilder} (hb : b.Represents calls table) :
    (calls.filter BuilderCall.isObject).length = b.objOffsets.length := by
  rw [hb.objects.length_eq, hb.offsets, List.length_map, List.length_map]

/-! ## Forests of buffers -/

/-- A buffer that was pushed: its position in the table of offsets, what its push returned and, for
a child, the buffer it hangs under and where in it the pointer to the child lies. -/
inductive PushedBuffer
  | root (bytes : Slice) (position returned : ℕ)
  | child (bytes : Slice) (position returned : ℕ) (parent : PushedBuffer)
      (parentPtrOffset : Usize)
  deriving Repr

namespace PushedBuffer

/-- The position of a buffer in the table of offsets. -/
def position : PushedBuffer → ℕ
  | root _ position _ => position
  | child _ position _ _ _ => position

/-- What the push of a buffer returned. -/
def returned : PushedBuffer → ℕ
  | root _ _ returned => returned
  | child _ _ returned _ _ => returned

/-- The buffer that a buffer hangs under. -/
def parent? : PushedBuffer → Option PushedBuffer
  | root _ _ _ => none
  | child _ _ _ parent _ => some parent

/-- Where a buffer hangs. -/
def parentLink : PushedBuffer → Option ParentLink
  | root _ _ _ => none
  | child _ _ _ parent parentPtrOffset => some ⟨parent.position, parentPtrOffset⟩

/-- The object of a buffer: a child was given what the push of its parent returned. -/
def object : PushedBuffer → BinderBufferObject
  | root bytes _ _ => bufferObject bytes 0 0
  | child bytes _ _ parent parentPtrOffset =>
    bufferObject bytes (UInt64.ofNat parent.returned) parentPtrOffset

/-- The buffer hangs under another one. -/
def isChild : PushedBuffer → Bool
  | root _ _ _ => false
  | child _ _ _ _ _ => true

/-- The roots are the buffers without a parent. -/
theorem parentLink_eq_none {p : PushedBuffer} : p.parentLink = none ↔ p.isChild = false := by
  cases p <;> simp [parentLink, isChild]

/-- The kernel reads every buffer that was pushed as a root: no push writes the flag. -/
theorem parentLink_object (p : PushedBuffer) : Uapi.parentLink p.object = none := by
  have hflags : p.object.flags = BinderBufferFlags.empty := by cases p <;> rfl
  rw [Uapi.parentLink, if_neg]
  rw [hflags]
  decide

/-- The parent field of a child is what the push of its parent returned. -/
theorem parent_object {p q : PushedBuffer} (h : p.parent? = some q) :
    p.object.parent = UInt64.ofNat q.returned := by
  cases p with
  | root bytes position returned => cases h
  | child bytes position returned parent parentPtrOffset =>
    cases h
    rfl

end PushedBuffer

/-- A call of a program that builds a forest: a buffer, a buffer under the one of the `parent`-th of
the earlier pushes of buffers, or another method of the builder. -/
inductive ForestCall
  | pushBuffer (bytes : Slice)
  | pushChildBuffer (bytes : Slice) (parent : ℕ) (parentPtrOffset : Usize)
  | other (c : BuilderCall) (h : c.isBuffer = false)

/-- The call pushes a buffer under another one. -/
def ForestCall.isChild : ForestCall → Bool
  | pushChildBuffer _ _ _ => true
  | _ => false

/-- A builder, and the buffers that were pushed into it. -/
structure BufferForest where
  builder : PayloadBuilder
  pushed : List PushedBuffer
  deriving Repr

namespace BufferForest

/-- Nothing was pushed. -/
def new : BufferForest := ⟨PayloadBuilder.new, []⟩

/-- The positions of the buffers, with their parents. -/
def parents (f : BufferForest) : List (ℕ × Option ParentLink) :=
  f.pushed.map fun p => (p.position, p.parentLink)

-- what the unused half of a union holds, by the offset of its record
variable (undef : ℕ → UInt32)

/-- A call on the builder. A child is given what the push of its parent returned. -/
def step (f : BufferForest) : ForestCall → Option BufferForest
  | .pushBuffer bytes =>
    let (returned, b) := f.builder.pushBuffer bytes
    some ⟨b, f.pushed ++ [.root bytes f.builder.objOffsets.length returned]⟩
  | .pushChildBuffer bytes parent parentPtrOffset =>
    f.pushed[parent]?.map fun p =>
      let (returned, b) :=
        f.builder.pushChildBuffer bytes (UInt64.ofNat p.returned) parentPtrOffset
      ⟨b, f.pushed ++
        [.child bytes f.builder.objOffsets.length returned p parentPtrOffset]⟩
  | .other c _ => (c.run undef f.builder).map fun b => ⟨b, f.pushed⟩

variable {undef} {f f' : BufferForest} {c : ForestCall}

/-- The buffer `p` is the next to be pushed, with the object that `bc` pushes. -/
structure Pushes (bc : BuilderCall) (f f' : BufferForest) (p : PushedBuffer) : Prop where
  object : bc.buffer? = some p.object
  position : p.position = f.builder.objOffsets.length
  returned : f'.builder.objOffsets = f.builder.objOffsets ++ [p.returned]
  parent : ∀ q, p.parent? = some q → q ∈ f.pushed
  pushed : f'.pushed = f.pushed ++ [p]

/-- A call is one of a method of the builder, which pushes one more buffer or none.

**Step.** Both pushes of buffers note the offset that they return. -/
theorem step_cases (h : step undef f c = some f') :
    ∃ bc : BuilderCall, bc.run undef f.builder = some f'.builder ∧
      ((bc.buffer? = none ∧ c.isChild = false ∧ f'.pushed = f.pushed) ∨
        ∃ p, Pushes bc f f' p ∧ p.isChild = c.isChild) := by
  cases c with
  | pushBuffer bytes =>
    cases h
    exact ⟨.pushBuffer bytes, rfl, .inr ⟨_, ⟨rfl, rfl, rfl, fun q hq => (by cases hq), rfl⟩, rfl⟩⟩
  | pushChildBuffer bytes parent parentPtrOffset =>
    obtain ⟨p, hp, rfl⟩ := Option.map_eq_some_iff.mp h
    refine ⟨.pushChildBuffer bytes (UInt64.ofNat p.returned) parentPtrOffset, rfl, .inr ⟨_,
      ⟨rfl, rfl, rfl, fun q hq => ?_, rfl⟩, rfl⟩⟩
    cases hq
    exact List.mem_of_getElem? hp
  | other bc hbc =>
    obtain ⟨b, hb, rfl⟩ := Option.map_eq_some_iff.mp h
    have hnone : bc.buffer? = none := by simpa [BuilderCall.isBuffer] using hbc
    exact ⟨bc, hb, .inl ⟨hnone, rfl, rfl⟩⟩

/-- The forest is that of some calls of methods of the builder: its buffers are those that the calls
pushed, what a push returned is the offset at the position of its buffer, and parents are earlier
buffers of the forest. -/
structure BuiltBy (undef : ℕ → UInt32) (calls : List BuilderCall) (f : BufferForest) : Prop where
  run : exec (fun b c => c.run undef b) PayloadBuilder.new calls = some f.builder
  pushed : Table.select BuilderCall.buffer? (calls.filter BuilderCall.isObject) =
    f.pushed.map fun p => (p.position, p.object)
  returned : ∀ p ∈ f.pushed, f.builder.objOffsets[p.position]? = some p.returned
  parent : ∀ p ∈ f.pushed, ∀ q, p.parent? = some q → q ∈ f.pushed ∧ q.position < p.position

variable {calls : List BuilderCall}

/-- The builder represents the calls. -/
theorem BuiltBy.represents (hf : BuiltBy undef calls f) :
    ∃ table, f.builder.Represents calls table := by
  obtain ⟨segs, hsegs⟩ := BuilderCall.builtOf_new.of_exec hf.run
  exact ⟨_, hsegs.represents⟩

/-- An empty forest. -/
theorem builtBy_new : BuiltBy undef [] new where
  run := rfl
  pushed := rfl
  returned _ h := by cases h
  parent _ h := by cases h

section Step

variable {bc : BuilderCall} (hf : BuiltBy undef calls f)
  (hrun : bc.run undef f.builder = some f'.builder)

include hf hrun

/-- The builder after one more call. -/
theorem BuiltBy.exec_append : exec (fun b c => c.run undef b) PayloadBuilder.new (calls ++ [bc]) =
    some f'.builder :=
  exec_append_eq_some.mpr ⟨f.builder, hf.run, exec_cons_eq_some.mpr ⟨f'.builder, hrun, rfl⟩⟩

/-- The offsets that are there stay where they are. -/
theorem BuiltBy.returned_kept :
    ∀ p ∈ f.pushed, f'.builder.objOffsets[p.position]? = some p.returned := by
  intro p hp
  have hreturned := hf.returned p hp
  obtain ⟨hlt, -⟩ := List.getElem?_eq_some_iff.mp hreturned
  rw [(BuilderCall.run_spec hrun).2, List.getElem?_append_left hlt]
  exact hreturned

/-- A call that pushes no buffer keeps the forest. -/
theorem BuiltBy.other (hnone : bc.buffer? = none) (hpushed : f'.pushed = f.pushed) :
    BuiltBy undef (calls ++ [bc]) f' := by
  refine ⟨hf.exec_append hrun, ?_, ?_, ?_⟩
  · rw [List.filter_append, Table.select_append, hf.pushed, hpushed, Table.selectFrom_eq_nil,
      List.append_nil]
    intro c hc
    rw [List.mem_singleton.mp (List.mem_of_mem_filter hc)]
    exact hnone
  · rw [hpushed]
    exact hf.returned_kept hrun
  · rw [hpushed]
    exact hf.parent

/-- A buffer comes behind all objects, at the offset that its push returns. -/
theorem BuiltBy.push {p : PushedBuffer} (hp : Pushes bc f f' p) :
    BuiltBy undef (calls ++ [bc]) f' := by
  refine ⟨hf.exec_append hrun, ?_, ?_, ?_⟩
  · obtain ⟨table, htable⟩ := hf.represents
    have hobject : [bc].filter BuilderCall.isObject = [bc] :=
      List.filter_cons_of_pos (BuilderCall.isObject_of_buffer? hp.object)
    rw [List.filter_append, Table.select_append, hf.pushed, hp.pushed, hobject,
      Table.selectFrom_singleton hp.object, htable.length_objOffsets, ← hp.position,
      List.map_append]
    rfl
  · intro p' hp'
    rw [hp.pushed] at hp'
    rcases List.mem_append.mp hp' with hp' | hp'
    · exact hf.returned_kept hrun p' hp'
    · rw [List.mem_singleton.mp hp', hp.returned, hp.position, List.getElem?_concat_length]
  · intro p' hp' q hq
    rw [hp.pushed] at hp' ⊢
    rcases List.mem_append.mp hp' with hp' | hp'
    · obtain ⟨hmem, hlt⟩ := hf.parent p' hp' q hq
      exact ⟨List.mem_append_left _ hmem, hlt⟩
    · rw [List.mem_singleton.mp hp'] at hq ⊢
      have hmem := hp.parent q hq
      obtain ⟨hlt, -⟩ := List.getElem?_eq_some_iff.mp (hf.returned q hmem)
      rw [hp.position]
      exact ⟨List.mem_append_left _ hmem, hlt⟩

end Step

/-- After every run, a forest is that of some calls of methods of the builder. -/
theorem builtBy_of_exec {cs : List ForestCall}
    (h : exec (BufferForest.step undef) new cs = some f) : ∃ calls, BuiltBy undef calls f := by
  refine exec_invariant (I := fun f => ∃ calls, BuiltBy undef calls f) ?_ ⟨[], builtBy_new⟩ h
  rintro f c f' ⟨calls, hf⟩ hstep
  obtain ⟨bc, hrun, ⟨hnone, -, hpushed⟩ | ⟨p, hp, -⟩⟩ := step_cases hstep
  · exact ⟨_, hf.other hrun hnone hpushed⟩
  · exact ⟨_, hf.push hrun hp⟩

/-- A run adds a child to a forest exactly if one of its calls pushes one. -/
theorem any_isChild_of_exec {cs : List ForestCall}
    (h : exec (BufferForest.step undef) f cs = some f') :
    f'.pushed.any PushedBuffer.isChild =
      (f.pushed.any PushedBuffer.isChild || cs.any ForestCall.isChild) := by
  induction cs generalizing f with
  | nil =>
    cases h
    simp
  | cons c cs ih =>
    obtain ⟨f₁, hstep, hrest⟩ := exec_cons_eq_some.mp h
    have hchild : f₁.pushed.any PushedBuffer.isChild =
        (f.pushed.any PushedBuffer.isChild || c.isChild) := by
      obtain ⟨bc, -, ⟨-, hc, hpushed⟩ | ⟨p, hp, hc⟩⟩ := step_cases hstep
      · rw [hpushed, hc, Bool.or_false]
      · rw [hp.pushed, List.any_append, ← hc]
        simp
    rw [ih hrest, hchild, List.any_cons, Bool.or_assoc]

section Exec

variable {cs : List ForestCall}

/-- What a program builds is a forest: the buffers are at increasing positions, and the parent of a
buffer is one at a lower position. -/
theorem forest_of_exec (h : exec (BufferForest.step undef) new cs = some f) :
    (f.parents.map Prod.fst).Pairwise (· < ·) ∧
      ∀ i link, (i, some link) ∈ f.parents →
        link.position < i ∧ link.position ∈ f.parents.map Prod.fst := by
  obtain ⟨calls, hf⟩ := builtBy_of_exec h
  have hpositions : f.parents.map Prod.fst = f.pushed.map PushedBuffer.position := by
    rw [parents, List.map_map]
    rfl
  rw [hpositions]
  constructor
  · have hinc := Table.pairwise_selectFrom (f := BuilderCall.buffer?) 0
      (calls.filter BuilderCall.isObject)
    rw [← Table.select, hf.pushed, List.map_map] at hinc
    exact hinc
  · intro i link hmem
    obtain ⟨p, hp, heq⟩ := List.mem_map.mp hmem
    cases p with
    | root bytes position returned => cases heq
    | child bytes position returned parent parentPtrOffset =>
      cases heq
      obtain ⟨hparent, hlt⟩ := hf.parent _ hp parent rfl
      exact ⟨hlt, List.mem_map_of_mem hparent⟩

/-! ## What the kernel reads -/

/-- The buffer objects of the payload are those that were pushed, at their positions and with all
their fields. -/
theorem buffersIn_of_exec (h : exec (BufferForest.step undef) new cs = some f) :
    Uapi.buffersIn f.builder.data f.builder.objOffsets =
      f.pushed.map fun p => (p.position, p.object) := by
  obtain ⟨calls, hf⟩ := builtBy_of_exec h
  obtain ⟨table, htable⟩ := hf.represents
  rw [htable.buffersIn_eq, hf.pushed]

/-- The kernel reads every buffer as a root: the forest that was pushed, without its parents. -/
theorem parentsIn_of_exec (h : exec (BufferForest.step undef) new cs = some f) :
    Uapi.parentsIn f.builder.data f.builder.objOffsets = f.parents.map fun m => (m.1, none) := by
  rw [Uapi.parentsIn, buffersIn_of_exec h, parents, List.map_map, List.map_map]
  apply List.map_congr_left
  intro p _
  simp only [Function.comp_apply, p.parentLink_object]

/-- **When the nesting is recovered.** After every run, the kernel reads the parents that the
program gave the buffers exactly if it gave none: no call of the run pushes a child.

**Proof sketch.** The kernel reads a list of roots (`parentsIn_of_exec`); it is the forest that was
pushed exactly if all of its buffers are roots, and a run without a child pushes roots only. -/
theorem parents_recovered_iff (h : exec (BufferForest.step undef) new cs = some f) :
    Uapi.parentsIn f.builder.data f.builder.objOffsets = f.parents ↔
      ∀ c ∈ cs, c.isChild = false := by
  have hany := any_isChild_of_exec h
  rw [parentsIn_of_exec h, parents, List.map_map, List.map_inj_left]
  calc
    (∀ p ∈ f.pushed, (p.position, none) = (p.position, p.parentLink)) ↔
        ∀ p ∈ f.pushed, p.isChild = false := by
      refine forall₂_congr fun p _ => ?_
      rw [Prod.mk.injEq, eq_comm (a := none), PushedBuffer.parentLink_eq_none]
      exact and_iff_right rfl
    _ ↔ f.pushed.any PushedBuffer.isChild = false := by simp
    _ ↔ cs.any ForestCall.isChild = false := by
      rw [hany]
      simp [new]
    _ ↔ ∀ c ∈ cs, c.isChild = false := by simp

/-- Two buffers with four bytes in between, and an array of descriptors that hangs under the second:
the kernel reads two roots. -/
theorem parents_recovered_iff_roots : ∃ f, exec (BufferForest.step fun _ => 0) new
      [.pushBuffer ⟨4096, 8⟩, .other (.pushBytes [1, 2, 3, 4]) rfl, .pushBuffer ⟨8192, 16⟩,
        .other (.pushFdArray 2 48 0) rfl] = some f ∧
    Uapi.parentsIn f.builder.data f.builder.objOffsets = f.parents := by
  obtain ⟨f, hf⟩ : ∃ f, exec (BufferForest.step fun _ => 0) new
      [.pushBuffer ⟨4096, 8⟩, .other (.pushBytes [1, 2, 3, 4]) rfl, .pushBuffer ⟨8192, 16⟩,
        .other (.pushFdArray 2 48 0) rfl] = some f := ⟨_, rfl⟩
  exact ⟨f, hf, (parents_recovered_iff hf).mpr (by decide)⟩

/-- A buffer behind eight bytes and a child under it: the kernel reads two roots. -/
theorem child_read_as_root : ∃ f, exec (BufferForest.step fun _ => 0) new
      [.other (.pushBytes [1, 2, 3, 4, 5, 6, 7, 8]) rfl, .pushBuffer ⟨4096, 8⟩,
        .pushChildBuffer ⟨8192, 16⟩ 0 0] = some f ∧
    f.parents = [(0, none), (1, some ⟨0, 0⟩)] ∧
    Uapi.parentsIn f.builder.data f.builder.objOffsets = [(0, none), (1, none)] := by
  obtain ⟨f, hf, hparents⟩ : ∃ f, exec (BufferForest.step fun _ => 0) new
      [.other (.pushBytes [1, 2, 3, 4, 5, 6, 7, 8]) rfl, .pushBuffer ⟨4096, 8⟩,
        .pushChildBuffer ⟨8192, 16⟩ 0 0] = some f ∧
      f.parents = [(0, none), (1, some ⟨0, 0⟩)] := ⟨_, rfl, rfl⟩
  refine ⟨f, hf, hparents, ?_⟩
  rw [parentsIn_of_exec hf, hparents]
  rfl

/-- **What the parent field names.** The parent field of a child is the offset of its parent, not
its position; the two are the same only for a parent at the very start of the payload.

**Proof sketch.** The offsets increase in steps of eight at least, so that the offset at a position
is eight times the position at least. -/
theorem namesParent_iff (h : exec (BufferForest.step undef) new cs = some f)
    (hlen : f.builder.data.length < 2 ^ 64) {p q : PushedBuffer} (hp : p ∈ f.pushed)
    (hq : p.parent? = some q) :
    p.object.parent.toNat = q.position ↔ q.position = 0 ∧ q.returned = 0 := by
  obtain ⟨calls, hf⟩ := builtBy_of_exec h
  obtain ⟨table, htable⟩ := hf.represents
  have hreturned := hf.returned q (hf.parent p hp q hq).1
  have hmul : objectAlign * q.position ≤ q.returned :=
    Table.mul_le_of_pairwise htable.increasing htable.aligned hreturned
  have hmem : q.returned ∈ table.map Prod.fst := by
    rw [← htable.offsets]
    exact List.mem_of_getElem? hreturned
  obtain ⟨m, hm, hoff⟩ := List.mem_map.mp hmem
  have hinside := htable.inside m hm
  have hfits : q.returned < 2 ^ 64 := by omega
  have hfield : p.object.parent.toNat = q.returned := by
    rw [PushedBuffer.parent_object hq]
    exact UInt64.toNat_ofNat_of_lt' hfits
  simp only [objectAlign] at hmul
  rw [hfield]
  omega

end Exec

/-- A child at the start of a buffer that is at the start of the payload is written as a root is. -/
theorem builder_child_eq_root {k : ℕ} {q : PushedBuffer} (hq : f.pushed[k]? = some q)
    (hstart : q.returned = 0) (bytes : Slice) :
    (f.step undef (.pushChildBuffer bytes k 0)).map builder =
      (f.step undef (.pushBuffer bytes)).map builder := by
  simp only [step, hq, Option.map_some, hstart]
  rfl

/-- **No other rules recover the forest either**: what a builder holds does not determine it.

**Proof sketch.** Two forests of two buffers, one of them with a child; their builders are the same
(`builder_child_eq_root`). -/
theorem no_decoder (undef : ℕ → UInt32) :
    ¬ ∃ decode : PayloadBuilder → List (ℕ × Option ParentLink),
      ∀ cs f, exec (BufferForest.step undef) new cs = some f → decode f.builder = f.parents := by
  rintro ⟨decode, hdecode⟩
  obtain ⟨f, hf, hpushed⟩ : ∃ f, new.step undef (.pushBuffer ⟨4096, 8⟩) = some f ∧
      f.pushed[0]? = some (.root ⟨4096, 8⟩ 0 0) := ⟨_, rfl, rfl⟩
  have hrun : ∀ c,
      exec (BufferForest.step undef) new [.pushBuffer ⟨4096, 8⟩, c] = f.step undef c := by
    intro c
    rw [exec_cons, hf]
    exact Option.bind_fun_some _
  obtain ⟨f₁, h₁, hroots⟩ : ∃ f₁,
      exec (BufferForest.step undef) new [.pushBuffer ⟨4096, 8⟩, .pushBuffer ⟨8192, 16⟩] =
        some f₁ ∧ f₁.parents = [(0, none), (1, none)] := ⟨_, rfl, rfl⟩
  obtain ⟨f₂, h₂, hchild⟩ : ∃ f₂,
      exec (BufferForest.step undef) new
          [.pushBuffer ⟨4096, 8⟩, .pushChildBuffer ⟨8192, 16⟩ 0 0] = some f₂ ∧
        f₂.parents = [(0, none), (1, some ⟨0, 0⟩)] := ⟨_, rfl, rfl⟩
  have hbuilder : (f.step undef (.pushChildBuffer ⟨8192, 16⟩ 0 0)).map builder =
      (f.step undef (.pushBuffer ⟨8192, 16⟩)).map builder :=
    builder_child_eq_root hpushed rfl _
  rw [← hrun, ← hrun, h₁, h₂] at hbuilder
  have hsame : f₂.parents = f₁.parents := by
    rw [← hdecode _ _ h₁, ← hdecode _ _ h₂, Option.some.inj hbuilder]
  rw [hroots, hchild] at hsame
  cases hsame

end BufferForest

end BinderBinder
