import BinderBinder.BinderObject

set_option relaxedAutoImplicit false
set_option autoImplicit false

/-!
# What handles write to the kernel

Decoding, cloning and dropping a handle writes commands to the kernel. None of them is a
`FREE_BUFFER`: a payload is freed by its reader alone.

## Main definitions

* `Command.isFreeBuffer` — the command frees a buffer.
* `BinderDevice.FreesNone` — nothing that was written between two states of a device does.

## Main results

* `BinderDevice.FreesNone.of_ref`, `BinderDevice.FreesNone.of_fromId` — decoding frees no buffer.
* `BinderDevice.FreesNone.of_dropArc` — dropping a handle frees no buffer.
-/

namespace BinderBinder

/-- The command frees a buffer of the kernel. -/
def Command.isFreeBuffer : Command → Bool
  | .freeBuffer _ => true
  | _ => false

/-- What was written to the kernel between two states of a device frees no buffer. -/
def BinderDevice.FreesNone (dev dev' : BinderDevice) : Prop :=
  ∃ cs, dev'.written = dev.written ++ cs ∧ ∀ c ∈ cs, c.isFreeBuffer = false

namespace BinderDevice.FreesNone

variable {kernel : KernelWrite} {dev dev' dev'' : BinderDevice}

/-- A change of the maps writes nothing. -/
theorem of_written (h : dev'.written = dev.written) : dev.FreesNone dev' :=
  ⟨[], by rw [h, List.append_nil], by simp⟩

/-- One change after the other. -/
theorem trans (h : dev.FreesNone dev') (h' : dev'.FreesNone dev'') : dev.FreesNone dev'' := by
  obtain ⟨cs, hcs, hfree⟩ := h
  obtain ⟨cs', hcs', hfree'⟩ := h'
  refine ⟨cs ++ cs', by rw [hcs', hcs, List.append_assoc], ?_⟩
  exact List.forall_mem_append.mpr ⟨hfree, hfree'⟩

/-- Another command is written, behind a change of the maps. -/
theorem of_writeCommand {dev₀ : BinderDevice} {cmd : Command}
    (h : dev₀.writeCommand kernel cmd = some dev') (hsame : dev₀.written = dev.written)
    (hcmd : cmd.isFreeBuffer = false) : dev.FreesNone dev' := by
  obtain ⟨-, rfl⟩ := BinderDevice.writeCommand_eq_some.mp h
  exact ⟨[cmd], by rw [hsame], by simpa using hcmd⟩

/-- The commands that were written are behind those written before. -/
theorem drop_written (h : dev.FreesNone dev') :
    ∀ c ∈ dev'.written.drop dev.written.length, c.isFreeBuffer = false := by
  obtain ⟨cs, hcs, hfree⟩ := h
  rwa [hcs, List.drop_left]

/-- Counting writes nothing. -/
theorem of_refOp {id : BinderObjectId} {op : RefOp} {b : Bool}
    (h : dev.refOp id op = some (b, dev')) : dev.FreesNone dev' := by
  rcases BinderDevice.refOp_eq_some h with ⟨-, -, rfl⟩ | ⟨_, _, -, -, -, rfl⟩
  · exact of_written rfl
  · exact of_written rfl

/-- Looking a local object up writes nothing. -/
theorem of_fromId {id : BinderObjectId} {o : Option BorrowedBinderObject}
    (h : BorrowedBinderObject.fromId dev id = some (o, dev')) : dev.FreesNone dev' := by
  rcases BorrowedBinderObject.fromId_cases h with ⟨-, -, rfl⟩ | ⟨handler, b, -, hinc, -⟩
  · exact of_written rfl
  · exact of_refOp hinc

/-- Decoding a weak reference frees no buffer. -/
theorem of_weakRef {handle : UInt32} {r : { r : WeakBinderRef // r.id = handle }}
    (h : WeakBinderRef.getAndDedupFromRaw kernel dev handle = some (r, dev')) :
    dev.FreesNone dev' := by
  unfold WeakBinderRef.getAndDedupFromRaw at h
  split at h
  · cases h
    exact of_written rfl
  · simp only [Option.bind_eq_bind, Option.bind_eq_some_iff] at h
    obtain ⟨dev₁, hdev₁, dev₂, hdev₂, hr⟩ := h
    cases hr
    have h₁ : dev.FreesNone dev₁ := of_writeCommand hdev₁ rfl rfl
    exact (h₁.trans (of_writeCommand hdev₂ rfl rfl)).trans (of_written rfl)

/-- Decoding a reference frees no buffer. -/
theorem of_ref {handle : UInt32} {r : BinderRef}
    (h : BinderRef.getAndDedupFromRaw kernel dev handle = some (r, dev')) :
    dev.FreesNone dev' := by
  unfold BinderRef.getAndDedupFromRaw at h
  split at h
  · cases h
    exact of_written rfl
  · simp only [Option.bind_eq_bind, Option.bind_eq_some_iff] at h
    obtain ⟨⟨weak, dev₁⟩, hweak, dev₂, hdev₂, hr⟩ := h
    cases hr
    exact ((of_weakRef hweak).trans (of_writeCommand hdev₂ rfl rfl)).trans (of_written rfl)

/-- An entry that is removed writes nothing. -/
theorem of_evictRef (dev : BinderDevice) (handle : UInt32) : dev.FreesNone (dev.evictRef handle) := by
  unfold BinderDevice.evictRef
  split_ifs
  · exact of_written rfl
  · exact of_written rfl

/-- An entry that is removed writes nothing. -/
theorem of_evictWeakRef (dev : BinderDevice) (handle : UInt32) :
    dev.FreesNone (dev.evictWeakRef handle) := by
  unfold BinderDevice.evictWeakRef
  split_ifs
  · exact of_written rfl
  · exact of_written rfl

/-- Dropping a weak reference frees no buffer. -/
theorem of_weakDrop {r : WeakBinderRef} (h : r.drop kernel dev = some dev') :
    dev.FreesNone dev' := by
  simp only [WeakBinderRef.drop, Option.bind_eq_bind, Option.bind_eq_some_iff] at h
  obtain ⟨dev₁, hdev₁, dev₂, hdev₂, hdev'⟩ := h
  cases hdev'
  have h₁ : dev.FreesNone dev₁ := of_writeCommand hdev₁ rfl rfl
  have h₂ : dev₁.FreesNone dev₂ := of_writeCommand hdev₂ rfl rfl
  exact (h₁.trans h₂).trans (of_evictWeakRef _ _)

/-- Dropping a reference frees no buffer. -/
theorem of_refDrop {r : BinderRef} {lastWeak : Bool} (h : r.drop kernel dev lastWeak = some dev') :
    dev.FreesNone dev' := by
  simp only [BinderRef.drop, Option.bind_eq_bind, Option.bind_eq_some_iff] at h
  obtain ⟨dev₁, hdev₁, hdev'⟩ := h
  have h₁ : dev.FreesNone (dev₁.evictRef r.handle) :=
    (of_writeCommand hdev₁ rfl rfl).trans (of_evictRef _ _)
  split_ifs at hdev'
  · exact h₁.trans (of_weakDrop hdev')
  · cases hdev'
    exact h₁

/-- Dropping a handle frees no buffer. -/
theorem of_dropArc {x : BinderObjectOrRef} {lastRef lastWeak : Bool}
    (h : x.dropArc kernel dev lastRef lastWeak = some dev') : dev.FreesNone dev' := by
  cases x with
  | object o =>
    simp only [BinderObjectOrRef.dropArc, BorrowedBinderObject.drop] at h
    split_ifs at h
    · obtain ⟨⟨b, dev₁⟩, hdec, rfl⟩ := Option.map_eq_some_iff.mp h
      exact of_refOp hdec
    · cases h
      exact of_written rfl
  | weakObject o =>
    cases h
    exact of_written rfl
  | ref r =>
    simp only [BinderObjectOrRef.dropArc] at h
    split_ifs at h
    · exact of_refDrop h
    · cases h
      exact of_written rfl
  | weakRef r =>
    simp only [BinderObjectOrRef.dropArc] at h
    split_ifs at h
    · exact of_weakDrop h
    · cases h
      exact of_written rfl

end BinderDevice.FreesNone

end BinderBinder
