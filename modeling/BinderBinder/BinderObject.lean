import Mathlib.Logic.Function.Basic
import BinderBinder.Sys

set_option relaxedAutoImplicit false
set_option autoImplicit false

/-!
# Devices, local objects and references to remote ones

The handles of `src/binder_object.rs` and the registry of `BinderDevice` they look things up in.
The methods take the device a handle belongs to and give back the device they leave behind; `none`
is a panic. What the kernel answers to a command written without a read buffer is a parameter.

## Main definitions

* `BinderDevice` — the maps of a device, its live `Arc`s and the commands written to the kernel.
* `BinderObjectOrRef` — the four kinds of handles, with the `==` of the source.
* `BinderRef.getAndDedupFromRaw`, `BorrowedBinderObject.fromId` — decoding of a raw handle or id.
* `BinderRef.drop`, `WeakBinderRef.drop`, `BorrowedBinderObject.drop` — dropping a handle.
* `ToBinderObjectOrRef` — what can be pushed into a payload.

## Main results

* `BinderRef.getAndDedupFromRaw_spec`, `WeakBinderRef.getAndDedupFromRaw_spec` — a decoded
  reference has the handle and the device it was decoded from.
* `BorrowedBinderObject.fromId_registered` — a registered object decodes to a handle of its id.
-/

namespace BinderBinder

/-! ## Maps, addresses and commands -/

/-- A `DashMap`, seen between two accesses. -/
abbrev DashMap (κ β : Type) := κ → Option β

namespace DashMap

variable {κ β : Type} [DecidableEq κ]

/-- `DashMap::default`. -/
def empty : DashMap κ β := fun _ => none

/-- `DashMap::insert`. -/
def insert (m : DashMap κ β) (k : κ) (v : β) : DashMap κ β := Function.update m k (some v)

/-- `DashMap::remove`. -/
def remove (m : DashMap κ β) (k : κ) : DashMap κ β := Function.update m k none

@[simp] theorem insert_self (m : DashMap κ β) (k : κ) (v : β) : m.insert k v k = some v := by
  simp [insert]

@[simp] theorem remove_self (m : DashMap κ β) (k : κ) : m.remove k k = none := by
  simp [remove]

/-- Other keys keep their entry. -/
theorem insert_of_ne (m : DashMap κ β) {k k' : κ} (v : β) (h : k' ≠ k) : m.insert k v k' = m k' :=
  Function.update_of_ne h _ _

/-- Other keys keep their entry. -/
theorem remove_of_ne (m : DashMap κ β) {k k' : κ} (h : k' ≠ k) : m.remove k k' = m k' :=
  Function.update_of_ne h _ _

end DashMap

/-- The address of an allocation; `Arc::ptr_eq` compares addresses. -/
abbrev Addr := ℕ

/-- An `Arc<dyn ErasedTransactionHandler>`. -/
structure HandlerRef where
  addr : Addr
  deriving DecidableEq, Repr

/-- A `BinderCommand` with its argument, as written to the kernel without a read buffer. -/
inductive Command
  | reply (data : BinderTransactionData)
  | freeBuffer (ptr : Usize)
  | increfs (handle : UInt32)
  | acquire (handle : UInt32)
  | release (handle : UInt32)
  | decrefs (handle : UInt32)
  | increfsDone (v : BinderPtrCookie)
  | acquireDone (v : BinderPtrCookie)
  | exitLooper
  | requestDeathNotification (handle : UInt32) (cookie : Usize)
  | clearDeathNotification (handle : UInt32) (cookie : Usize)
  | deadBinderDone (cookie : Usize)
  deriving DecidableEq, Repr

/-- The kernel's answer to a command, given those written before: `none`, or an errno. -/
abbrev KernelWrite := List Command → Command → Option ℕ

/-! ## References to remote objects -/

/-- `WeakBinderRef`. -/
structure WeakBinderRef where
  addr : Addr
  device : Addr
  id : UInt32
  deathNotifCookie : Usize
  deriving DecidableEq, Repr

/-- `BinderRef`. -/
structure BinderRef where
  addr : Addr
  device : Addr
  weak : WeakBinderRef
  deriving DecidableEq, Repr

/-- `PartialEq for WeakBinderRef`: the device and the handle, not the allocation. -/
instance : BEq WeakBinderRef := ⟨fun a b => a.device == b.device && a.id == b.id⟩

/-- `PartialEq for BinderRef`; `id` is the one of the weak reference inside. -/
instance : BEq BinderRef := ⟨fun a b => a.device == b.device && a.weak.id == b.weak.id⟩

/-- `BinderRef::handle`. -/
def BinderRef.handle (r : BinderRef) : UInt32 := r.weak.id

/-! ## The device -/

/-- `BinderDevice`: its maps, which of its `Arc`s are alive, and the commands written so far. The
entry of a handle in `refs` and `weak_refs` is a `Weak` to a reference with that handle. -/
structure BinderDevice where
  addr : Addr
  deathCounter : Usize
  objects : DashMap BinderObjectId HandlerRef
  objectRefcounts : DashMap BinderObjectId ObjectRefState
  refs : DashMap UInt32 BinderRef
  weakRefs : DashMap UInt32 WeakBinderRef
  deathNotifications : DashMap Usize Addr
  alive : Addr → Bool
  nextAddr : Addr
  written : List Command
  refs_keyed : ∀ h r, refs h = some r → r.device = addr ∧ r.handle = h
  weakRefs_keyed : ∀ h r, weakRefs h = some r → r.device = addr ∧ r.id = h

namespace BinderDevice

/-- A device nothing was registered on. -/
def new (addr : Addr) : BinderDevice where
  addr := addr
  deathCounter := 1
  objects := DashMap.empty
  objectRefcounts := DashMap.empty
  refs := DashMap.empty
  weakRefs := DashMap.empty
  deathNotifications := DashMap.empty
  alive _ := false
  nextAddr := addr + 1
  written := []
  refs_keyed _ _ h := by cases h
  weakRefs_keyed _ _ h := by cases h

/-- `BinderDevice::write_binder_struct_command`: a refusal is unwrapped. -/
def writeCommand (kernel : KernelWrite) (dev : BinderDevice) (cmd : Command) :
    Option BinderDevice :=
  match kernel dev.written cmd with
  | none => some { dev with written := dev.written ++ [cmd] }
  | some _ => none

/-- `Arc::new`: a fresh address, alive from now on. -/
def alloc (dev : BinderDevice) : Addr × BinderDevice :=
  (dev.nextAddr, { dev with
    alive := Function.update dev.alive dev.nextAddr true, nextAddr := dev.nextAddr + 1 })

/-- `refs.insert`. -/
def insertRef (dev : BinderDevice) (h : UInt32) (r : BinderRef)
    (hr : r.device = dev.addr ∧ r.handle = h) : BinderDevice :=
  { dev with
    refs := dev.refs.insert h r
    refs_keyed := by
      intro h' r' hr'
      by_cases heq : h' = h
      · subst heq
        rw [DashMap.insert_self] at hr'
        cases hr'
        exact hr
      · rw [DashMap.insert_of_ne _ _ heq] at hr'
        exact dev.refs_keyed h' r' hr' }

/-- `weak_refs.insert`. -/
def insertWeakRef (dev : BinderDevice) (h : UInt32) (r : WeakBinderRef)
    (hr : r.device = dev.addr ∧ r.id = h) : BinderDevice :=
  { dev with
    weakRefs := dev.weakRefs.insert h r
    weakRefs_keyed := by
      intro h' r' hr'
      by_cases heq : h' = h
      · subst heq
        rw [DashMap.insert_self] at hr'
        cases hr'
        exact hr
      · rw [DashMap.insert_of_ne _ _ heq] at hr'
        exact dev.weakRefs_keyed h' r' hr' }

/-- `object_refcounts.get(&id)` and a method on what is found; whether anything was. -/
def refOp (dev : BinderDevice) (id : BinderObjectId) (op : RefOp) : Option (Bool × BinderDevice) :=
  match dev.objectRefcounts id with
  | none => some (false, dev)
  | some s => (s.step op).map fun s' =>
      (true, { dev with objectRefcounts := dev.objectRefcounts.insert id s' })

/-- `increase_local` on an id. -/
def increaseLocal (dev : BinderDevice) (id : BinderObjectId) : Option (Bool × BinderDevice) :=
  dev.refOp id .increaseLocal

/-- One more local reference to `id` can be counted. -/
def CanCount (dev : BinderDevice) (id : BinderObjectId) : Prop := (dev.increaseLocal id).isSome

/-- `decrease_local` on an id. -/
def decreaseLocal (dev : BinderDevice) (id : BinderObjectId) : Option BinderDevice :=
  (dev.refOp id .decreaseLocal).map Prod.snd

/-- What a method on the counts of an id does: nothing, or its step on what is found. -/
theorem refOp_eq_some {dev dev' : BinderDevice} {id : BinderObjectId} {op : RefOp} {b : Bool}
    (h : dev.refOp id op = some (b, dev')) :
    (dev.objectRefcounts id = none ∧ b = false ∧ dev' = dev) ∨
      ∃ s s', dev.objectRefcounts id = some s ∧ s.step op = some s' ∧ b = true ∧
        dev' = { dev with objectRefcounts := dev.objectRefcounts.insert id s' } := by
  unfold refOp at h
  split at h
  · next hnone =>
    cases h
    exact Or.inl ⟨hnone, rfl, rfl⟩
  · next s hs =>
    obtain ⟨s', hs', heq⟩ := Option.map_eq_some_iff.mp h
    cases heq
    exact Or.inr ⟨s, s', hs, hs', rfl, rfl⟩

/-- A device that is only different in its maps is the same device. -/
@[simp] theorem addr_of_increaseLocal {dev dev' : BinderDevice} {id : BinderObjectId} {b : Bool}
    (h : dev.increaseLocal id = some (b, dev')) : dev'.addr = dev.addr := by
  rcases refOp_eq_some h with ⟨-, -, rfl⟩ | ⟨s, s', -, -, -, rfl⟩ <;> rfl

end BinderDevice

/-! ## Decoding of a raw handle -/

section Decode

variable (kernel : KernelWrite)

/-- `weak_refs.get(&handle)` and `Weak::upgrade` on what is found. -/
def BinderDevice.upgradeWeakRef (dev : BinderDevice) (handle : UInt32) :
    Option { r : WeakBinderRef // r.device = dev.addr ∧ r.id = handle } :=
  match h : dev.weakRefs handle with
  | none => none
  | some r => if dev.alive r.addr then some ⟨r, dev.weakRefs_keyed handle r h⟩ else none

/-- `refs.get(&handle)` and `Weak::upgrade` on what is found. -/
def BinderDevice.upgradeRef (dev : BinderDevice) (handle : UInt32) :
    Option { r : BinderRef // r.device = dev.addr ∧ r.handle = handle } :=
  match h : dev.refs handle with
  | none => none
  | some r => if dev.alive r.addr then some ⟨r, dev.refs_keyed handle r h⟩ else none

/-- `WeakBinderRef::get_and_dedup_from_raw`: the reference of the map if it is still alive, else a
new one, whose death token is registered first and announced to the kernel. -/
def WeakBinderRef.getAndDedupFromRaw (dev : BinderDevice) (handle : UInt32) :
    Option ({ r : WeakBinderRef // r.id = handle } × BinderDevice) :=
  match dev.upgradeWeakRef handle with
  | some port => some (⟨port.1, port.2.2⟩, dev)
  | none => do
    let cookie := dev.deathCounter
    let (death, dev) := dev.alloc
    let dev := { dev with
      deathCounter := cookie + 1
      deathNotifications := dev.deathNotifications.insert cookie death }
    let dev ← dev.writeCommand kernel (.increfs handle)
    let dev ← dev.writeCommand kernel (.requestDeathNotification handle cookie)
    let (addr, dev) := dev.alloc
    let port : WeakBinderRef := ⟨addr, dev.addr, handle, cookie⟩
    return (⟨port, rfl⟩, dev.insertWeakRef handle port ⟨rfl, rfl⟩)

/-- `BinderRef::get_and_dedup_from_raw`. -/
def BinderRef.getAndDedupFromRaw (dev : BinderDevice) (handle : UInt32) :
    Option (BinderRef × BinderDevice) :=
  match dev.upgradeRef handle with
  | some port => some (port.1, dev)
  | none => do
    let (weak, dev) ← WeakBinderRef.getAndDedupFromRaw kernel dev handle
    let dev ← dev.writeCommand kernel (.acquire handle)
    let (addr, dev) := dev.alloc
    let port : BinderRef := ⟨addr, dev.addr, weak.1⟩
    return (port, dev.insertRef handle port ⟨rfl, weak.2⟩)

variable {kernel}

/-- A command that goes through leaves the device what it was, one command later. -/
theorem BinderDevice.writeCommand_eq_some {dev dev' : BinderDevice} {cmd : Command} :
    dev.writeCommand kernel cmd = some dev' ↔
      kernel dev.written cmd = none ∧ { dev with written := dev.written ++ [cmd] } = dev' := by
  unfold writeCommand
  split <;> simp_all

/-- A weak reference decoded from a handle is one to that handle on that device, and the device is
still the same. -/
theorem WeakBinderRef.getAndDedupFromRaw_spec {dev dev' : BinderDevice} {handle : UInt32}
    {r : { r : WeakBinderRef // r.id = handle }}
    (h : getAndDedupFromRaw kernel dev handle = some (r, dev')) :
    r.1.device = dev.addr ∧ dev'.addr = dev.addr := by
  unfold getAndDedupFromRaw at h
  split at h
  · next port _ =>
    cases h
    exact ⟨port.2.1, rfl⟩
  · simp only [Option.bind_eq_bind, Option.bind_eq_some_iff,
      BinderDevice.writeCommand_eq_some] at h
    obtain ⟨dev₁, ⟨-, rfl⟩, dev₂, ⟨-, rfl⟩, hr⟩ := h
    cases hr
    exact ⟨rfl, rfl⟩

/-- A reference decoded from a handle is one to that handle on that device. -/
theorem BinderRef.getAndDedupFromRaw_spec {dev dev' : BinderDevice} {handle : UInt32}
    {r : BinderRef} (h : getAndDedupFromRaw kernel dev handle = some (r, dev')) :
    r.device = dev.addr ∧ r.handle = handle := by
  unfold getAndDedupFromRaw at h
  split at h
  · next port _ =>
    cases h
    exact port.2
  · simp only [Option.bind_eq_bind, Option.bind_eq_some_iff,
      BinderDevice.writeCommand_eq_some] at h
    obtain ⟨⟨weak, dev₁⟩, hweak, dev₂, ⟨-, rfl⟩, hr⟩ := h
    cases hr
    exact ⟨(WeakBinderRef.getAndDedupFromRaw_spec hweak).2, weak.2⟩

/-- The kernel takes every command. -/
def Accepts (kernel : KernelWrite) : Prop := ∀ log cmd, kernel log cmd = none

/-- With a kernel that takes every command, decoding a weak reference does not panic. -/
theorem WeakBinderRef.isSome_getAndDedupFromRaw (hk : Accepts kernel) (dev : BinderDevice)
    (handle : UInt32) : (getAndDedupFromRaw kernel dev handle).isSome := by
  unfold getAndDedupFromRaw
  split
  · rfl
  · simp [BinderDevice.writeCommand, hk _ _]

/-- With a kernel that takes every command, decoding a reference does not panic. -/
theorem BinderRef.isSome_getAndDedupFromRaw (hk : Accepts kernel) (dev : BinderDevice)
    (handle : UInt32) : (getAndDedupFromRaw kernel dev handle).isSome := by
  unfold getAndDedupFromRaw
  split
  · rfl
  · obtain ⟨⟨weak, dev₁⟩, hweak⟩ :=
      Option.isSome_iff_exists.mp (WeakBinderRef.isSome_getAndDedupFromRaw hk dev handle)
    simp [hweak, BinderDevice.writeCommand, hk _ _]

end Decode

/-! ## Dropping a reference -/

namespace BinderDevice

/-- `refs.remove_if`, when the entry is of a reference that is not alive any more. -/
def evictRef (dev : BinderDevice) (handle : UInt32) : BinderDevice :=
  if (dev.refs handle).any (fun r => !dev.alive r.addr) then
    { dev with
      refs := dev.refs.remove handle
      refs_keyed := by
        intro h r hr
        by_cases heq : h = handle
        · subst heq
          simp at hr
        · rw [DashMap.remove_of_ne _ heq] at hr
          exact dev.refs_keyed h r hr }
  else dev

/-- `weak_refs.remove_if`, when the entry is of a reference that is not alive any more. -/
def evictWeakRef (dev : BinderDevice) (handle : UInt32) : BinderDevice :=
  if (dev.weakRefs handle).any (fun r => !dev.alive r.addr) then
    { dev with
      weakRefs := dev.weakRefs.remove handle
      weakRefs_keyed := by
        intro h r hr
        by_cases heq : h = handle
        · subst heq
          simp at hr
        · rw [DashMap.remove_of_ne _ heq] at hr
          exact dev.weakRefs_keyed h r hr }
  else dev

/-- The count of an `Arc` reaches zero. -/
def release (dev : BinderDevice) (addr : Addr) : BinderDevice :=
  { dev with alive := Function.update dev.alive addr false }

end BinderDevice

/-- `Drop for WeakBinderRef`, when the last `Arc` of it is dropped. -/
def WeakBinderRef.drop (kernel : KernelWrite) (dev : BinderDevice) (r : WeakBinderRef) :
    Option BinderDevice := do
  let dev ← (dev.release r.addr).writeCommand kernel
    (.clearDeathNotification r.id r.deathNotifCookie)
  let dev := { dev with
    deathNotifications := dev.deathNotifications.remove r.deathNotifCookie }
  let dev ← dev.writeCommand kernel (.decrefs r.id)
  return dev.evictWeakRef r.id

/-- `Drop for BinderRef`, when the last `Arc` of it is dropped, and behind it its field `weak`;
`lastWeak` says whether that is the last `Arc` of the weak reference. -/
def BinderRef.drop (kernel : KernelWrite) (dev : BinderDevice) (lastWeak : Bool) (r : BinderRef) :
    Option BinderDevice := do
  let dev ← (dev.release r.addr).writeCommand kernel (.release r.handle)
  let dev := dev.evictRef r.handle
  if lastWeak then r.weak.drop kernel dev else some dev

/-! ## Local objects -/

/-- `BinderObject`: the guard that keeps an object registered. -/
structure BinderObject where
  device : Addr
  id : BinderObjectId
  handler : HandlerRef
  deriving DecidableEq, Repr

/-- `BinderObjectRef`: a counted reference with the type of the handler. -/
structure BinderObjectRef where
  device : Addr
  id : BinderObjectId
  handler : HandlerRef
  deriving DecidableEq, Repr

/-- `BorrowedBinderObject`: a reference without the type, counted if `increasedLocalRef`. -/
structure BorrowedBinderObject where
  device : Addr
  id : BinderObjectId
  handler : HandlerRef
  increasedLocalRef : Bool
  deriving DecidableEq, Repr

/-- `WeakBinderObject`. -/
structure WeakBinderObject where
  device : Addr
  id : BinderObjectId
  deriving DecidableEq, Repr

/-- `PartialEq for BorrowedBinderObject`. -/
instance : BEq BorrowedBinderObject := ⟨fun a b => a.device == b.device && a.id == b.id⟩

/-- `PartialEq for WeakBinderObject`. -/
instance : BEq WeakBinderObject := ⟨fun a b => a.device == b.device && a.id == b.id⟩

namespace BorrowedBinderObject

/-- `BorrowedBinderObject::from_id`: the handler of the registry, and one more local reference if
the id has refcounts. -/
def fromId (dev : BinderDevice) (id : BinderObjectId) :
    Option (Option BorrowedBinderObject × BinderDevice) :=
  match dev.objects id with
  | none => some (none, dev)
  | some handler => (dev.increaseLocal id).map fun (increasedLocalRef, dev) =>
      (some ⟨dev.addr, id, handler, increasedLocalRef⟩, dev)

/-- `Clone for BorrowedBinderObject`; `dev` is the device of the handle. -/
def clone (dev : BinderDevice) (o : BorrowedBinderObject) :
    Option (BorrowedBinderObject × BinderDevice) :=
  (dev.increaseLocal o.id).map fun (increasedLocalRef, dev) => ({ o with increasedLocalRef }, dev)

/-- `Drop for BorrowedBinderObject`: a counted reference is given back. -/
def drop (dev : BinderDevice) (o : BorrowedBinderObject) : Option BinderDevice :=
  if o.increasedLocalRef then dev.decreaseLocal o.id else some dev

/-- A lookup that returns finds nothing and leaves the device alone, or makes a handle of what is
registered and counts it. -/
theorem fromId_cases {dev dev' : BinderDevice} {id : BinderObjectId}
    {o : Option BorrowedBinderObject} (h : fromId dev id = some (o, dev')) :
    (dev.objects id = none ∧ o = none ∧ dev' = dev) ∨
      ∃ handler b, dev.objects id = some handler ∧ dev.increaseLocal id = some (b, dev') ∧
        o = some ⟨dev'.addr, id, handler, b⟩ := by
  unfold fromId at h
  split at h
  · next hnone =>
    cases h
    exact .inl ⟨hnone, rfl, rfl⟩
  · next handler hhandler =>
    obtain ⟨⟨b, dev₁⟩, hinc, heq⟩ := Option.map_eq_some_iff.mp h
    cases heq
    exact .inr ⟨handler, b, hhandler, hinc, rfl⟩

/-- A registered object decodes to a handle of its id on this device. -/
theorem fromId_registered {dev : BinderDevice} {id : BinderObjectId}
    (hobj : (dev.objects id).isSome) (hcount : dev.CanCount id) :
    ∃ o dev', fromId dev id = some (some o, dev') ∧ o.device = dev.addr ∧ o.id = id := by
  obtain ⟨handler, hhandler⟩ := Option.isSome_iff_exists.mp hobj
  obtain ⟨⟨b, dev'⟩, hinc⟩ := Option.isSome_iff_exists.mp hcount
  refine ⟨⟨dev'.addr, id, handler, b⟩, dev', ?_, BinderDevice.addr_of_increaseLocal hinc, rfl⟩
  rw [fromId, hhandler, hinc]
  rfl

/-- A handle that was just decoded can be dropped. -/
theorem isSome_drop_of_fromId {dev dev' : BinderDevice} {id : BinderObjectId}
    {o : BorrowedBinderObject} (h : fromId dev id = some (some o, dev')) :
    (o.drop dev').isSome := by
  rcases fromId_cases h with ⟨-, hnone, -⟩ | ⟨handler, b, -, hinc, heq⟩
  · cases hnone
  · cases heq
    rcases BinderDevice.refOp_eq_some hinc with ⟨-, rfl, rfl⟩ | ⟨st, st', -, hst', rfl, rfl⟩
    · rfl
    · obtain ⟨hcounts, -, hpublished⟩ := ObjectRefState.step_eq_some.mp hst'
      have hpos : 0 < st'.counts.localRefs := by
        rw [(RefOp.apply_increaseLocal.mp hcounts).2]
        exact Nat.succ_pos _
      obtain ⟨st'', hst''⟩ := hpublished.exists_decreaseLocal hpos
      simp [drop, BinderDevice.decreaseLocal, BinderDevice.refOp, hst'']

end BorrowedBinderObject

/-! ## The handles of a transaction -/

/-- `BinderObjectOrRef`, with the derived equality of its four kinds. -/
inductive BinderObjectOrRef
  | object (o : BorrowedBinderObject)
  | weakObject (o : WeakBinderObject)
  | ref (r : BinderRef)
  | weakRef (r : WeakBinderRef)
  deriving Repr

namespace BinderObjectOrRef

/-- The derived `PartialEq`: the same kind, and equal as handles of that kind. -/
def beq : BinderObjectOrRef → BinderObjectOrRef → Bool
  | object a, object b => a == b
  | weakObject a, weakObject b => a == b
  | ref a, ref b => a == b
  | weakRef a, weakRef b => a == b
  | _, _ => false

instance : BEq BinderObjectOrRef := ⟨beq⟩

/-- `BinderObjectOrRef::device`. -/
def device : BinderObjectOrRef → Addr
  | object o => o.device
  | weakObject o => o.device
  | ref r => r.device
  | weakRef r => r.device

/-- `BinderObjectOrRef::get_flat_binder_object`; `upper` is what the union of a reference holds
next to its handle. -/
def getFlatBinderObject (upper : UInt32) : BinderObjectOrRef → FlatBinderObject
  | object o => ⟨⟨BinderType.binder.toU32⟩, FlatBinderFlags.acceptsFds, .ofBinder o.id.id,
      o.id.cookie⟩
  | weakObject o => ⟨⟨BinderType.weakBinder.toU32⟩, FlatBinderFlags.acceptsFds, .ofBinder o.id.id,
      o.id.cookie⟩
  | ref r => ⟨⟨BinderType.handle.toU32⟩, FlatBinderFlags.acceptsFds, .ofHandle upper r.handle, 0⟩
  | weakRef r => ⟨⟨BinderType.weakHandle.toU32⟩, FlatBinderFlags.acceptsFds, .ofHandle upper r.id,
      0⟩

/-- The object type of the record of a handle. -/
def binderType : BinderObjectOrRef → BinderType
  | object _ => .binder
  | weakObject _ => .weakBinder
  | ref _ => .handle
  | weakRef _ => .weakHandle

/-- The header of the record of a handle announces its type. -/
@[simp] theorem ofU32_getFlatBinderObject (upper : UInt32) (x : BinderObjectOrRef) :
    BinderType.ofU32 (x.getFlatBinderObject upper).hdr.type_ = some x.binderType := by
  cases x <;> simp only [getFlatBinderObject, binderType, BinderType.ofU32_toU32]

/-- `Clone for BinderObjectOrRef`: a counted copy of a strong object, the same `Arc` of a
reference. -/
def clone (dev : BinderDevice) : BinderObjectOrRef → Option (BinderObjectOrRef × BinderDevice)
  | object o => (o.clone dev).map fun (o, dev) => (object o, dev)
  | x => some (x, dev)

/-- Dropping a handle that is not the last one of its `Arc`. -/
def drop (dev : BinderDevice) : BinderObjectOrRef → Option BinderDevice
  | object o => o.drop dev
  | _ => some dev

/-- Dropping a handle; `lastRef` and `lastWeak` say whether it is the last one of its `Arc`. -/
def dropArc (kernel : KernelWrite) (dev : BinderDevice) (lastRef lastWeak : Bool) :
    BinderObjectOrRef → Option BinderDevice
  | object o => o.drop dev
  | weakObject _ => some dev
  | ref r => if lastRef then r.drop kernel dev lastWeak else some dev
  | weakRef r => if lastWeak then r.drop kernel dev else some dev

/-- A clone is equal to what it was made from. -/
theorem beq_of_clone {dev dev' : BinderDevice} {x y : BinderObjectOrRef}
    (h : x.clone dev = some (y, dev')) : (y == x) = true ∧ y.device = x.device := by
  cases x with
  | object o =>
    simp only [clone, BorrowedBinderObject.clone, Option.map_map, Option.map_eq_some_iff] at h
    obtain ⟨⟨b, dev₁⟩, -, heq⟩ := h
    cases heq
    exact ⟨by simp [(· == ·), beq], rfl⟩
  | weakObject o => cases h; exact ⟨by simp [(· == ·), beq], rfl⟩
  | ref r => cases h; exact ⟨by simp [(· == ·), beq], rfl⟩
  | weakRef r => cases h; exact ⟨by simp [(· == ·), beq], rfl⟩

end BinderObjectOrRef

/-- The implementors of the trait `ToBinderObjectOrRef`. A borrowed or weak object and an `Arc` of a
reference convert as the `BinderObjectOrRef` they are wrapped in. -/
inductive ToBinderObjectOrRef
  | guard (o : BinderObject)
  | typed (r : BinderObjectRef)
  | erased (x : BinderObjectOrRef)
  deriving Repr

namespace ToBinderObjectOrRef

/-- `to_binder_object_or_ref`; `dev` is the device of the handle. A typed reference goes back
through the registry (`as_erased`) and panics if its object is gone. -/
def toBinderObjectOrRef (dev : BinderDevice) :
    ToBinderObjectOrRef → Option (BinderObjectOrRef × BinderDevice)
  | guard o => (dev.increaseLocal o.id).map fun (increasedLocalRef, dev) =>
      (.object ⟨o.device, o.id, o.handler, increasedLocalRef⟩, dev)
  | typed r => (BorrowedBinderObject.fromId dev r.id).bind fun (o, dev) =>
      o.map fun o => (.object o, dev)
  | erased x => x.clone dev

end ToBinderObjectOrRef

end BinderBinder
