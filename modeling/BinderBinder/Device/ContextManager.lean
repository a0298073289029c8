import Mathlib.Data.List.Induction
import BinderBinder.BinderObject
import BinderBinder.Lib.Run

set_option relaxedAutoImplicit false
set_option autoImplicit false

/-!
# The context manager

`set_context_manager` stores the id of the object in a cell of the device and then asks the kernel.
`transact_blocking` and `transact_one_way` to `context_manager()` read the cell: a local target stays
in the process, a remote one goes to the kernel.

## Main definitions

* `ContextManagerBinderRef` — the cell, and the target that a transaction resolves it to.
* `ContextManagerBinderRef.setContextManager` — the method of the device.
* `Routing`, `Routing.step` — the cell, and the object that the kernel accepted last.

## Main results

* `Routing.follows_iff` — for which sequences of calls the routing is that of the kernel.
-/

namespace BinderBinder

open Run

/-! ## Targets -/

/-- `TransactionTargetHandle`. -/
inductive TransactionTargetHandle
  | local (id : BinderObjectId)
  | remote (handle : UInt32)
  deriving DecidableEq, Repr

/-- `ContextManagerBinderRef`: zero, or the id of a local object. -/
structure ContextManagerBinderRef where
  cell : Usize
  deriving DecidableEq, Repr

/-- `Error::PermissionDenied`, the only error of `set_context_manager`. -/
inductive SetContextManagerError
  | permissionDenied
  deriving DecidableEq, Repr

/-- A `BinderObject` that `register_object` gave out: ids are counted from 1, and have the cookie
zero. -/
structure RegisteredObject where
  obj : BinderObject
  id_ne_zero : obj.id.id ≠ 0
  cookie_eq_zero : obj.id.cookie = 0

namespace ContextManagerBinderRef

/-- The cell of a new device. -/
def new : ContextManagerBinderRef := ⟨0⟩

/-- `ContextManagerBinderRef::get_transaction_target_handle`. -/
def getTransactionTargetHandle (ctx : ContextManagerBinderRef) : TransactionTargetHandle :=
  if ctx.cell ≠ 0 then .local ⟨ctx.cell, 0⟩ else .remote 0

/-- The argument of the `SetContextMGR` ioctl. -/
def setContextMgr (obj : BinderObject) : FlatBinderObject where
  hdr := ⟨BinderType.binder.toU32⟩
  flags := FlatBinderFlags.acceptsFds
  data := FlatBinderObjectData.ofBinder obj.id.id
  cookie := obj.id.cookie

/-- `BinderDevice::set_context_manager`. The cell is stored first, whatever the ioctl answers:
`none`, or an errno. -/
def setContextManager (_ : ContextManagerBinderRef) (ioctl : FlatBinderObject → Option ℕ)
    (obj : BinderObject) : ContextManagerBinderRef × Except SetContextManagerError Unit :=
  let ctx : ContextManagerBinderRef := ⟨obj.id.id⟩
  match ioctl (setContextMgr obj) with
  | none => (ctx, .ok ())
  | some _ => (ctx, .error .permissionDenied)

/-- The cell is stored for every answer. -/
@[simp] theorem fst_setContextManager (ctx : ContextManagerBinderRef)
    (ioctl : FlatBinderObject → Option ℕ) (obj : BinderObject) :
    (ctx.setContextManager ioctl obj).1 = ⟨obj.id.id⟩ := by
  unfold setContextManager
  split <;> rfl

/-- The id of a registered object resolves to that object. -/
theorem target_of_registered (o : RegisteredObject) :
    (ContextManagerBinderRef.mk o.obj.id.id).getTransactionTargetHandle = .local o.obj.id := by
  have hid : (⟨o.obj.id.id, 0⟩ : BinderObjectId) = o.obj.id := by
    rw [← o.cookie_eq_zero]
  simp [getTransactionTargetHandle, o.id_ne_zero, hid]

end ContextManagerBinderRef

/-! ## Calls -/

/-- A call of `set_context_manager`, and what the ioctl answers. -/
structure SetContextManagerCall where
  object : RegisteredObject
  answer : Option ℕ

/-- The kernel accepts the object. -/
def SetContextManagerCall.accepted (c : SetContextManagerCall) : Bool := c.answer.isNone

/-- The id the kernel is told. -/
def SetContextManagerCall.id (c : SetContextManagerCall) : BinderObjectId := c.object.obj.id

/-- The object of the last accepted call. -/
def lastAccepted (calls : List SetContextManagerCall) : Option BinderObjectId :=
  (calls.filter SetContextManagerCall.accepted).getLast?.map SetContextManagerCall.id

/-- The cell of the device, and the object that the kernel took for the context manager. -/
structure Routing where
  ctx : ContextManagerBinderRef
  manager : Option BinderObjectId

namespace Routing

/-- A device on which `set_context_manager` was not called. -/
def new : Routing := ⟨.new, none⟩

/-- One call. -/
def step (s : Routing) (c : SetContextManagerCall) : Option Routing :=
  match s.ctx.setContextManager (fun _ => c.answer) c.object.obj with
  | (ctx, .ok ()) => some ⟨ctx, some c.id⟩
  | (ctx, .error _) => some ⟨ctx, s.manager⟩

/-- Where transactions to the context manager belong: to the object that the kernel took, or to
whoever is the context manager elsewhere. -/
def targetOf : Option BinderObjectId → TransactionTargetHandle
  | some id => .local id
  | none => .remote 0

/-- What a call does: the cell is that of its object, and the kernel's object changes if it is
accepted. -/
theorem step_eq (s : Routing) (c : SetContextManagerCall) :
    s.step c = some ⟨⟨c.id.id⟩, if c.accepted = true then some c.id else s.manager⟩ := by
  unfold step ContextManagerBinderRef.setContextManager
  cases hanswer : c.answer <;> simp [SetContextManagerCall.accepted, SetContextManagerCall.id, hanswer]

/-- The last accepted call is the last one, if that is accepted. -/
theorem lastAccepted_concat (calls : List SetContextManagerCall) (c : SetContextManagerCall) :
    lastAccepted (calls ++ [c]) = if c.accepted = true then some c.id else lastAccepted calls := by
  unfold lastAccepted
  rw [List.filter_append]
  split_ifs with hc
  · simp [hc]
  · simp [hc]

/-- After some calls the cell is that of the last one, and the kernel has the object of the last
accepted one. -/
structure After (calls : List SetContextManagerCall) (s : Routing) : Prop where
  cell : s.ctx = ⟨(calls.getLast?.map fun c => c.id.id).getD 0⟩
  manager : s.manager = lastAccepted calls

/-- Every run leaves this behind. The induction is on the last call. -/
theorem after_of_exec {calls : List SetContextManagerCall} {s : Routing}
    (h : exec step new calls = some s) : After calls s := by
  induction calls using List.reverseRecOn generalizing s with
  | nil =>
    cases h
    exact ⟨rfl, rfl⟩
  | append_singleton calls c ih =>
    obtain ⟨t, ht, hlast⟩ := exec_append_eq_some.mp h
    rw [exec_cons, step_eq] at hlast
    cases hlast
    refine ⟨by simp, ?_⟩
    rw [lastAccepted_concat, ← (ih ht).manager]

/-- After the calls, the target is the object of the last call. -/
theorem After.target {calls : List SetContextManagerCall} {s : Routing} (hs : After calls s) :
    s.ctx.getTransactionTargetHandle =
      targetOf (calls.getLast?.map SetContextManagerCall.id) := by
  rw [hs.cell]
  cases calls.getLast? with
  | none => rfl
  | some c => exact ContextManagerBinderRef.target_of_registered c.object

/-- Different objects are different targets. -/
theorem targetOf_injective : Function.Injective targetOf := by
  intro a b h
  cases a <;> cases b <;> simp_all [targetOf]

/-- If the last call was accepted, it is the last accepted one. -/
theorem lastAccepted_of_getLast? {calls : List SetContextManagerCall} {c : SetContextManagerCall}
    (hlast : calls.getLast? = some c) (hc : c.accepted = true) :
    lastAccepted calls = some c.id := by
  obtain ⟨before, rfl⟩ := List.getLast?_eq_some_iff.mp hlast
  rw [lastAccepted_concat, if_pos hc]

/-- The target is the object that the kernel took exactly if the last call was accepted, or was for
that object. -/
theorem After.target_eq_iff {calls : List SetContextManagerCall} {s : Routing} (hs : After calls s) :
    s.ctx.getTransactionTargetHandle = targetOf (lastAccepted calls) ↔
      ∀ c ∈ calls.getLast?, c.accepted = true ∨ lastAccepted calls = some c.id := by
  rw [hs.target, targetOf_injective.eq_iff]
  cases hlast : calls.getLast? with
  | none =>
    have hnil : calls = [] := List.getLast?_eq_none_iff.mp hlast
    simp [hnil, lastAccepted]
  | some c =>
    constructor
    · intro hsame c' hc'
      cases hc'
      exact Or.inr hsame.symm
    · intro hkept
      rcases hkept c rfl with hc | hsame
      · exact (lastAccepted_of_getLast? hlast hc).symm
      · exact hsame.symm

/-- Transactions to the context manager resolve to the object of the last accepted call, or to the
handle zero if there is none, exactly if there was no call, or the last call was accepted, or its
object is that of the last accepted call. A refused call leaves the routing as it was exactly if
its object was the target before. -/
theorem follows_iff {calls : List SetContextManagerCall} {s : Routing}
    (h : exec step new calls = some s) :
    (s.ctx.getTransactionTargetHandle = targetOf (lastAccepted calls) ↔
      ∀ c ∈ calls.getLast?, c.accepted = true ∨ lastAccepted calls = some c.id) ∧
    ∀ c s', c.accepted = false → s.step c = some s' →
      (s'.ctx.getTransactionTargetHandle = s.ctx.getTransactionTargetHandle ↔
        ∃ last ∈ calls.getLast?, c.id = last.id) := by
  have hs := after_of_exec h
  refine ⟨hs.target_eq_iff, fun c s' hc hstep => ?_⟩
  rw [step_eq] at hstep
  cases hstep
  have htarget : (ContextManagerBinderRef.mk c.id.id).getTransactionTargetHandle =
      targetOf (some c.id) := ContextManagerBinderRef.target_of_registered c.object
  rw [htarget, hs.target, targetOf_injective.eq_iff]
  cases calls.getLast? with
  | none => simp
  | some last => simp

/-- The call of a process that comes too late: the kernel refuses its object with `EBUSY`. -/
def late : SetContextManagerCall where
  object := ⟨⟨0, ⟨1, 0⟩, ⟨7⟩⟩, by decide, rfl⟩
  answer := some 16

/-- The refused call changes the routing: transactions to the context manager do not go to the
kernel any more, although no call was accepted. -/
theorem routed_to_self_late : ∃ s, exec step new [late] = some s ∧
    new.ctx.getTransactionTargetHandle = .remote 0 ∧
    s.ctx.getTransactionTargetHandle = .local ⟨1, 0⟩ ∧
    s.ctx.getTransactionTargetHandle ≠ targetOf (lastAccepted [late]) :=
  ⟨_, rfl, rfl, rfl, by decide⟩

/-- A call that is accepted after one that was refused is followed. -/
theorem follows_iff_accepted : ∃ s, exec step new [late, { late with answer := none }] = some s ∧
    s.ctx.getTransactionTargetHandle = targetOf (some ⟨1, 0⟩) := by
  obtain ⟨s, hs⟩ : ∃ s, exec step new [late, { late with answer := none }] = some s := ⟨_, rfl⟩
  refine ⟨s, hs, (follows_iff hs).1.mpr fun c hc => ?_⟩
  cases hc
  exact Or.inl rfl

end Routing

end BinderBinder
