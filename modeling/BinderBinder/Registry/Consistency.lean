import BinderBinder.Device.Identity
import BinderBinder.Registry.Handles

set_option relaxedAutoImplicit false
set_option autoImplicit false

/-!
# Consistency of the registry

The three maps of a device that are keyed by object ids, under `register_object`, `to_service`, the
drop of a guard, the cleanup tasks and incoming transactions. Every access to a map is a step of its
own, also the two insertions of `register_object`; ids are drawn from a counter that wraps, guards
are values that move, and nothing says that there is one guard for an id. A thread that is not given
a guard only looks things up and counts.

## Main definitions

* `DeviceRegistry`, `DeviceRegistry.step` — the maps, the guards and the threads, taken from
  `src/device.rs` and `src/binder_object.rs`.
* `GuardStage` — how far the guard of an id has come; the stages are passed in their order.
* `DeviceRegistry.At` — what the maps hold of an id at each stage.
* `DeviceRegistry.Settled` — nobody is registering the id or dropping its guard.

## Main results

* `DeviceRegistry.exec_registerObject`, `DeviceRegistry.exec_dropGuard` — run without interruption,
  the accesses are the methods of the device.
* `DeviceRegistry.At.step` — a step moves the guard of an id to the same stage or a later one.
* `DeviceRegistry.registry_consistent` — the maps agree in every run of every number of threads.
-/

namespace BinderBinder

open Run

/-! ## The state -/

/-- The accesses of the operations that take several of them, by the map that comes next. -/
inductive RegistryAccess
  | insertObject
  | insertRefcounts
  | getHandler
  | getRefcounts
  | subscribe
  | waitFor (subscribed : Bool)
  | removeService
  | removeObject
  | removeRefcounts
  deriving DecidableEq, Repr

/-- What a thread is in the middle of: its next access, and the guard that it is about. The spawned
cleanup of `to_service` takes over the slot of the thread that spawned it. -/
structure RegistryTask where
  access : RegistryAccess
  guard : BinderObject
  deriving DecidableEq, Repr

/-- The registry of a device: the number of ids drawn from `object_id_counter`, the maps, the guards
that the program holds, what the threads are in the middle of, and whether an `expect` of
`to_service` has failed. -/
structure DeviceRegistry (ι : Type) where
  addr : Addr
  registered : ℕ
  objects : DashMap BinderObjectId HandlerRef
  objectRefcounts : DashMap BinderObjectId ObjectRefState
  retainedServices : DashMap BinderObjectId BinderObject
  guards : List BinderObject
  tasks : ι → Option RegistryTask
  expectFailed : Bool

/-- The start of `register_object`, of `to_service` and of the drop of a guard; a lookup of a handler
and a method on the counts of an id, of which the handles and the incoming transactions consist; and
the next access of what the thread is in the middle of. -/
inductive RegistryAction
  | registerObject (handler : HandlerRef)
  | toService (guard : BinderObject)
  | dropGuard (guard : BinderObject)
  | getHandler (id : BinderObjectId)
  | refOp (id : BinderObjectId) (op : RefOp)
  | go
  deriving DecidableEq, Repr

namespace DeviceRegistry

section Step

variable {ι τ : Type} [DecidableEq ι] [DecidableEq τ] (typeId : HandlerRef → τ)

/-- The registry of a new device. -/
def new (ι : Type) (addr : Addr) : DeviceRegistry ι :=
  ⟨addr, 0, DashMap.empty, DashMap.empty, DashMap.empty, [], fun _ => none, false⟩

/-- The thread `i` is next in the middle of `t`. -/
def setTask (s : DeviceRegistry ι) (i : ι) (t : Option RegistryTask) : DeviceRegistry ι :=
  { s with tasks := Function.update s.tasks i t }

/-- The `expect` on what `BinderObjectRef::from_id` returns to `to_service` fails. -/
def expectFails (s : DeviceRegistry ι) (i : ι) : DeviceRegistry ι :=
  { s with expectFailed := true }.setTask i none

/-- The next access of the thread `i`. -/
def go (s : DeviceRegistry ι) (i : ι) (t : RegistryTask) : Option (DeviceRegistry ι) :=
  match t.access with
  | .insertObject =>
    some ({ s with objects := s.objects.insert t.guard.id t.guard.handler }.setTask i
      (some ⟨.insertRefcounts, t.guard⟩))
  | .insertRefcounts =>
    some ({ s with
      objectRefcounts := s.objectRefcounts.insert t.guard.id (ObjectRefState.new t.guard.id)
      guards := t.guard :: s.guards }.setTask i none)
  | .getHandler =>
    match s.objects t.guard.id with
    | some handler =>
      -- `handler.downcast().ok()?`
      if typeId handler = typeId t.guard.handler then
        some (s.setTask i (some ⟨.getRefcounts, t.guard⟩))
      else some (s.expectFails i)
    | none => some (s.expectFails i)
  | .getRefcounts =>
    match s.objectRefcounts t.guard.id with
    | some st => (st.step .increaseLocal).map fun st' =>
        { s with objectRefcounts := s.objectRefcounts.insert t.guard.id st' }.setTask i
          (some ⟨.subscribe, t.guard⟩)
    | none => some (s.expectFails i)
  | .subscribe =>
    some (s.setTask i (some ⟨.waitFor (s.objectRefcounts t.guard.id).isSome, t.guard⟩))
  | .waitFor subscribed =>
    match subscribed, s.objectRefcounts t.guard.id with
    | true, some st =>
      if st.strongCount = 0 then some (s.setTask i (some ⟨.removeService, t.guard⟩)) else none
    | _, _ => some (s.setTask i (some ⟨.removeService, t.guard⟩))
  | .removeService =>
    match s.retainedServices t.guard.id with
    | some guard =>
      some ({ s with retainedServices := s.retainedServices.remove t.guard.id }.setTask i
        (some ⟨.removeObject, guard⟩))
    | none => some (s.setTask i none)
  | .removeObject =>
    some ({ s with objects := s.objects.remove t.guard.id }.setTask i
      (some ⟨.removeRefcounts, t.guard⟩))
  | .removeRefcounts =>
    some ({ s with objectRefcounts := s.objectRefcounts.remove t.guard.id }.setTask i none)

/-- The first access of an action. -/
def begin (s : DeviceRegistry ι) (i : ι) : RegistryAction → Option (DeviceRegistry ι)
  | .registerObject handler =>
    some ({ s with registered := s.registered + 1 }.setTask i
      (some ⟨.insertObject, ⟨s.addr, ObjectTable.idOf s.registered, handler⟩⟩))
  | .toService guard =>
    if guard ∈ s.guards then
      -- A guard that is replaced is dropped by somebody.
      some ({ s with
        retainedServices := s.retainedServices.insert guard.id guard
        guards := (s.retainedServices guard.id).toList ++ s.guards.erase guard }.setTask i
          (some ⟨.getHandler, guard⟩))
    else none
  | .dropGuard guard =>
    if guard ∈ s.guards then
      some ({ s with guards := s.guards.erase guard }.setTask i (some ⟨.removeObject, guard⟩))
    else none
  | .getHandler _ => some s
  | .refOp id op =>
    match s.objectRefcounts id with
    | some st => (st.step op).map fun st' =>
        { s with objectRefcounts := s.objectRefcounts.insert id st' }
    | none => some s
  | .go => none

/-- One access of the thread `i`; `none` says that it is not enabled, or that a count overflows. -/
def step (s : DeviceRegistry ι) : ι × RegistryAction → Option (DeviceRegistry ι)
  | (i, a) =>
    match s.tasks i, a with
    | some t, .go => s.go typeId i t
    | some _, _ => none
    | none, a => s.begin i a

end Step

/-! ## The methods, run without interruption -/

end DeviceRegistry

/-- `BinderDevice::remove_binder_object`. -/
def BinderDevice.removeBinderObject (dev : BinderDevice) (id : BinderObjectId) : BinderDevice :=
  { dev with
    objects := dev.objects.remove id
    objectRefcounts := dev.objectRefcounts.remove id }

namespace DeviceRegistry

section Methods

variable {ι τ : Type} [DecidableEq ι] [DecidableEq τ] (typeId : HandlerRef → τ)
  {s : DeviceRegistry ι} {dev dev' : BinderDevice} {i : ι}

/-- The maps are those of the device. -/
structure Agrees (s : DeviceRegistry ι) (dev : BinderDevice) : Prop where
  addr : s.addr = dev.addr
  objects : s.objects = dev.objects
  objectRefcounts : s.objectRefcounts = dev.objectRefcounts

/-- `BinderDevice::register_object`: the id is drawn, and then the two insertions. -/
theorem exec_registerObject (hs : s.Agrees dev) (hidle : s.tasks i = none) (handler : HandlerRef) :
    ∃ s', exec (step typeId) s [(i, .registerObject handler), (i, .go), (i, .go)] = some s' ∧
      s'.Agrees (dev.registerObject (UInt64.ofNat (1 + s.registered)) handler).2.1 ∧
      s'.guards =
        (dev.registerObject (UInt64.ofNat (1 + s.registered)) handler).1 :: s.guards ∧
      s'.tasks i = none := by
  refine ⟨_, by simp [exec_cons, step, begin, go, hidle, setTask]; rfl, ⟨?_, ?_, ?_⟩, ?_, ?_⟩
  · exact hs.addr
  · simp [BinderDevice.registerObject, hs.objects, ObjectTable.idOf]
  · simp [BinderDevice.registerObject, hs.objectRefcounts, ObjectTable.idOf]
  · simp [BinderDevice.registerObject, hs.addr, ObjectTable.idOf]
  · simp

/-- `Drop for BinderObject`: the two removals of `remove_binder_object`. -/
theorem exec_dropGuard (hs : s.Agrees dev) (hidle : s.tasks i = none) {guard : BinderObject}
    (hmem : guard ∈ s.guards) :
    ∃ s', exec (step typeId) s [(i, .dropGuard guard), (i, .go), (i, .go)] = some s' ∧
      s'.Agrees (dev.removeBinderObject guard.id) ∧ s'.guards = s.guards.erase guard ∧
      s'.tasks i = none := by
  refine ⟨_, by simp [exec_cons, step, begin, go, hidle, hmem, setTask]; rfl, ⟨?_, ?_, ?_⟩, ?_, ?_⟩
  · exact hs.addr
  · simp [BinderDevice.removeBinderObject, hs.objects]
  · simp [BinderDevice.removeBinderObject, hs.objectRefcounts]
  · rfl
  · simp

/-- A method on the counts of an id. -/
theorem exec_refOp (hs : s.Agrees dev) (hidle : s.tasks i = none) {id : BinderObjectId} {op : RefOp}
    {b : Bool} (h : dev.refOp id op = some (b, dev')) :
    ∃ s', exec (step typeId) s [(i, .refOp id op)] = some s' ∧ s'.Agrees dev' := by
  rcases BinderDevice.refOp_eq_some h with ⟨hnone, -, rfl⟩ | ⟨c, c', hc, hc', -, rfl⟩
  · have hrefcounts : s.objectRefcounts id = none := by rw [hs.objectRefcounts, hnone]
    exact ⟨s, by simp [exec_cons, step, begin, hidle, hrefcounts]; rfl, hs⟩
  · have hrefcounts : s.objectRefcounts id = some c := by rw [hs.objectRefcounts, hc]
    refine ⟨{ s with objectRefcounts := s.objectRefcounts.insert id c' }, ?_, hs.addr, hs.objects, ?_⟩
    · simp [exec_cons, step, begin, hidle, hrefcounts, hc']
      rfl
    · simp [hs.objectRefcounts]

end Methods

/-! ## The stages of a guard -/

end DeviceRegistry

/-- How far the guard of an id has come: the id was not drawn, its guard is being registered, the
program holds it, `retained_services` does, it is being dropped, it is gone. -/
inductive GuardStage
  | undrawn
  | inserting
  | counting
  | user
  | retained
  | unregistering
  | uncounting
  | gone
  deriving DecidableEq, Repr

namespace GuardStage

/-- The order in which the stages are passed. -/
def rank : GuardStage → ℕ
  | .undrawn => 0
  | .inserting => 1
  | .counting => 2
  | .user => 3
  | .retained => 4
  | .unregistering => 5
  | .uncounting => 6
  | .gone => 7

/-- The id is a key of `objects`. -/
def inObjects (st : GuardStage) : Bool := 2 ≤ st.rank && st.rank ≤ 5

/-- The id is a key of `object_refcounts`. -/
def inRefcounts (st : GuardStage) : Bool := 3 ≤ st.rank && st.rank ≤ 6

/-- The guard is alive: the program or `retained_services` holds it. -/
def alive (st : GuardStage) : Bool := 3 ≤ st.rank && st.rank ≤ 4

/-- Some thread is in the middle of registering the id or of dropping its guard. -/
def busy : GuardStage → Bool
  | .inserting | .counting | .unregistering | .uncounting => true
  | _ => false

end GuardStage

/-- The stage of the guard that an access is about. -/
def RegistryAccess.stage : RegistryAccess → GuardStage
  | .insertObject => .inserting
  | .insertRefcounts => .counting
  | .getHandler | .getRefcounts | .subscribe | .waitFor _ | .removeService => .retained
  | .removeObject => .unregistering
  | .removeRefcounts => .uncounting

/-- No access is about a guard that was not drawn, or that the program holds. -/
theorem RegistryAccess.stage_ne (access : RegistryAccess) :
    access.stage ≠ .undrawn ∧ access.stage ≠ .user := by
  cases access <;> simp [stage]

namespace DeviceRegistry

section Stages

variable {ι τ : Type} [DecidableEq ι] [DecidableEq τ] {typeId : HandlerRef → τ}
  {s s' : DeviceRegistry ι} {id : BinderObjectId} {st st' : GuardStage} {h : HandlerRef}

/-- The guards of the id that the program holds. -/
def guardsOf (s : DeviceRegistry ι) (id : BinderObjectId) : List BinderObject :=
  s.guards.filter fun g => g.id = id

/-- How many guards of the id are alive, held by the program or by `retained_services`. -/
def guardsAlive (s : DeviceRegistry ι) (id : BinderObjectId) : ℕ :=
  (s.guardsOf id).length + (s.retainedServices id).toList.length

/-- What the registry holds of an id whose guard, with the handler `h`, is at the stage `st`. At most
one thread is in the middle of something that is about that guard. -/
structure At (s : DeviceRegistry ι) (id : BinderObjectId) (st : GuardStage) (h : HandlerRef) :
    Prop where
  drawn : st ≠ .undrawn → ∃ n < s.registered, id = ObjectTable.idOf n
  objects : s.objects id = if st.inObjects then some h else none
  refcounts : (s.objectRefcounts id).isSome = st.inRefcounts
  retained : s.retainedServices id = if st = .retained then some ⟨s.addr, id, h⟩ else none
  guards : s.guardsOf id = if st = .user then [⟨s.addr, id, h⟩] else []
  task : ∀ i t, s.tasks i = some t → t.guard.id = id →
    t.access.stage = st ∧ t.guard = ⟨s.addr, id, h⟩
  busy : st.busy = true → ∃ i t, s.tasks i = some t ∧ t.guard.id = id
  alone : ∀ i j t u, s.tasks i = some t → s.tasks j = some u → t.guard.id = id →
    u.guard.id = id → i = j

/-- Nothing about the id is different, except that its counts may be. -/
structure Same (s s' : DeviceRegistry ι) (id : BinderObjectId) : Prop where
  addr : s'.addr = s.addr
  registered : s.registered ≤ s'.registered
  objects : s'.objects id = s.objects id
  refcounts : (s'.objectRefcounts id).isSome = (s.objectRefcounts id).isSome
  retained : s'.retainedServices id = s.retainedServices id
  guards : s'.guardsOf id = s.guardsOf id
  tasks : ∀ j t, t.guard.id = id → (s'.tasks j = some t ↔ s.tasks j = some t)

omit [DecidableEq ι] in
/-- Where nothing is different, the guard stays at its stage. -/
theorem At.same (hs : s.At id st h) (hsame : Same s s' id) : s'.At id st h where
  drawn hst := by
    obtain ⟨n, hn, hid⟩ := hs.drawn hst
    exact ⟨n, Nat.lt_of_lt_of_le hn hsame.registered, hid⟩
  objects := hsame.objects.trans hs.objects
  refcounts := hsame.refcounts.trans hs.refcounts
  retained := by rw [hsame.retained, hs.retained, hsame.addr]
  guards := by rw [hsame.guards, hs.guards, hsame.addr]
  task i t ht hid := by
    rw [hsame.addr]
    exact hs.task i t ((hsame.tasks i t hid).mp ht) hid
  busy hst := by
    obtain ⟨i, t, ht, hid⟩ := hs.busy hst
    exact ⟨i, t, (hsame.tasks i t hid).mpr ht, hid⟩
  alone i j t u ht hu hid hid' :=
    hs.alone i j t u ((hsame.tasks i t hid).mp ht) ((hsame.tasks j u hid').mp hu) hid hid'

/-- A thread that is not in the middle of something about the id goes on with something that is not
about it either. -/
theorem tasks_update_iff {i : ι} {o : Option RegistryTask}
    (hold : ∀ t, s.tasks i = some t → t.guard.id ≠ id) (hnew : ∀ t, o = some t → t.guard.id ≠ id)
    (j : ι) (t : RegistryTask) (hid : t.guard.id = id) :
    Function.update s.tasks i o j = some t ↔ s.tasks j = some t := by
  by_cases hj : j = i
  · subst hj
    rw [Function.update_self]
    exact ⟨fun ho => (hnew t ho hid).elim, fun ht => (hold t ht hid).elim⟩
  · rw [Function.update_of_ne hj]

/-- The thread that is in the middle of something about the id goes on, and the guard of the id with
it. -/
theorem At.move {i : ι} {o : Option RegistryTask} {h' : HandlerRef}
    (honly : ∀ j t, s.tasks j = some t → t.guard.id = id → j = i)
    (htasks : s'.tasks = Function.update s.tasks i o)
    (ho : ∀ t, o = some t → t.access.stage = st' ∧ t.guard = ⟨s'.addr, id, h'⟩)
    (hbusy : st'.busy = true → o ≠ none)
    (hdrawn : ∃ n < s'.registered, id = ObjectTable.idOf n)
    (hobjects : s'.objects id = if st'.inObjects then some h' else none)
    (hrefcounts : (s'.objectRefcounts id).isSome = st'.inRefcounts)
    (hretained : s'.retainedServices id = if st' = .retained then some ⟨s'.addr, id, h'⟩ else none)
    (hguards : s'.guardsOf id = if st' = .user then [⟨s'.addr, id, h'⟩] else []) :
    s'.At id st' h' := by
  have hmine : ∀ j t, s'.tasks j = some t → t.guard.id = id → j = i ∧ o = some t := by
    intro j t ht hid
    rw [htasks] at ht
    by_cases hj : j = i
    · subst hj
      rw [Function.update_self] at ht
      exact ⟨rfl, ht⟩
    · rw [Function.update_of_ne hj] at ht
      exact (hj (honly j t ht hid)).elim
  refine ⟨fun _ => hdrawn, hobjects, hrefcounts, hretained, hguards, ?_, ?_, ?_⟩
  · intro j t ht hid
    exact ho t (hmine j t ht hid).2
  · intro hst
    obtain ⟨t, ht⟩ := Option.ne_none_iff_exists'.mp (hbusy hst)
    exact ⟨i, t, by rw [htasks, Function.update_self, ht], by rw [(ho t ht).2]⟩
  · intro j k t u ht hu hid hid'
    rw [(hmine j t ht hid).1, (hmine k u hu hid').1]

/-- The next access of a thread that is in the middle of something about the id. -/
theorem At.go (hs : s.At id st h) {i : ι} {t : RegistryTask} (ht : s.tasks i = some t)
    (hid : t.guard.id = id) (hgo : s.go typeId i t = some s') :
    ∃ st', s'.At id st' h ∧ st.rank ≤ st'.rank ∧ s'.expectFailed = s.expectFailed := by
  have honly : ∀ j u, s.tasks j = some u → u.guard.id = id → j = i :=
    fun j u hu hid' => hs.alone j i u t hu ht hid' hid
  obtain ⟨rfl, hguard⟩ := hs.task i t ht hid
  obtain ⟨access, guard⟩ := t
  cases hguard
  have hdrawn : ∃ n < s.registered, id = ObjectTable.idOf n :=
    hs.drawn access.stage_ne.1
  -- A service only changes counts until its cleanup removes it.
  have hwait : ∀ (access' : RegistryAccess) {u : DeviceRegistry ι},
      access.stage = .retained → access'.stage = .retained → u.addr = s.addr →
      u.registered = s.registered → u.objects = s.objects →
      (u.objectRefcounts id).isSome = (s.objectRefcounts id).isSome →
      u.retainedServices = s.retainedServices → u.guards = s.guards →
      u.tasks = Function.update s.tasks i (some ⟨access', ⟨s.addr, id, h⟩⟩) →
      u.At id access.stage h := by
    intro access' u hstage hstage' haddr hreg hobjects hrefcounts hretained hguards htasks
    refine At.move honly htasks ?_ (by simp) (by rwa [hreg]) (by rw [hobjects, hs.objects])
      (hrefcounts.trans hs.refcounts) (by rw [hretained, hs.retained, haddr]) ?_
    · intro t ht
      cases ht
      exact ⟨hstage'.trans hstage.symm, by rw [haddr]⟩
    · rw [guardsOf, hguards, haddr]
      exact hs.guards
  cases access with
  | insertObject =>
    cases hgo
    exact ⟨.counting, At.move honly rfl (by simp [RegistryAccess.stage, setTask]) (by simp) hdrawn
      (DashMap.insert_self _ _ _) hs.refcounts hs.retained hs.guards, Nat.le_succ _, rfl⟩
  | insertRefcounts =>
    cases hgo
    refine ⟨.user, At.move honly rfl (by simp) (by simp [GuardStage.busy]) hdrawn hs.objects ?_
      hs.retained ?_, Nat.le_succ _, rfl⟩
    · simp [setTask, GuardStage.inRefcounts, GuardStage.rank]
    · have hguards : s.guardsOf id = [] := hs.guards
      simpa [guardsOf, setTask] using hguards
  | getHandler =>
    have hobjects : s.objects id = some h := hs.objects
    simp only [DeviceRegistry.go, hobjects, if_true] at hgo
    cases hgo
    exact ⟨_, hwait .getRefcounts rfl rfl rfl rfl rfl rfl rfl rfl rfl, Nat.le_refl _, rfl⟩
  | getRefcounts =>
    obtain ⟨c, hc⟩ := Option.isSome_iff_exists.mp hs.refcounts
    simp only [DeviceRegistry.go, hc] at hgo
    obtain ⟨c', -, rfl⟩ := Option.map_eq_some_iff.mp hgo
    exact ⟨_, hwait .subscribe rfl rfl rfl rfl rfl (by simp [setTask, hc]) rfl rfl rfl,
      Nat.le_refl _, rfl⟩
  | subscribe =>
    cases hgo
    exact ⟨_, hwait (.waitFor _) rfl rfl rfl rfl rfl rfl rfl rfl rfl, Nat.le_refl _, rfl⟩
  | waitFor subscribed =>
    have hs' : s' = s.setTask i (some ⟨.removeService, ⟨s.addr, id, h⟩⟩) := by
      simp only [DeviceRegistry.go] at hgo
      split at hgo
      · split_ifs at hgo
        exact (Option.some_inj.mp hgo).symm
      · exact (Option.some_inj.mp hgo).symm
    subst hs'
    exact ⟨_, hwait .removeService rfl rfl rfl rfl rfl rfl rfl rfl rfl, Nat.le_refl _, rfl⟩
  | removeService =>
    have hretained : s.retainedServices id = some ⟨s.addr, id, h⟩ := hs.retained
    simp only [DeviceRegistry.go, hretained] at hgo
    cases hgo
    exact ⟨.unregistering, At.move honly rfl (by simp [RegistryAccess.stage, setTask]) (by simp)
      hdrawn hs.objects hs.refcounts (DashMap.remove_self _ _) hs.guards, Nat.le_succ _, rfl⟩
  | removeObject =>
    cases hgo
    exact ⟨.uncounting, At.move honly rfl (by simp [RegistryAccess.stage, setTask]) (by simp)
      hdrawn (DashMap.remove_self _ _) hs.refcounts hs.retained hs.guards, Nat.le_succ _, rfl⟩
  | removeRefcounts =>
    cases hgo
    refine ⟨.gone, At.move honly rfl (by simp) (by simp [GuardStage.busy]) hdrawn hs.objects ?_
      hs.retained hs.guards, Nat.le_succ _, rfl⟩
    simp [setTask, GuardStage.inRefcounts, GuardStage.rank]

/-- The next access of a thread that is in the middle of something about another id. -/
theorem Same.of_go (hall : ∀ id, ∃ st h, s.At id st h) {i : ι} {t : RegistryTask}
    (ht : s.tasks i = some t) (hid : t.guard.id ≠ id) (hgo : s.go typeId i t = some s') :
    Same s s' id := by
  have hold : ∀ u, s.tasks i = some u → u.guard.id ≠ id := by
    intro u hu
    rw [ht] at hu
    cases hu
    exact hid
  have hnew : ∀ access u, some (⟨access, t.guard⟩ : RegistryTask) = some u → u.guard.id ≠ id := by
    intro access u hu
    cases hu
    exact hid
  have hnone : ∀ u : RegistryTask, none = some u → u.guard.id ≠ id := fun u hu => by cases hu
  have hid' : id ≠ t.guard.id := fun heq => hid heq.symm
  have hobjects : ∀ v, s.objects.insert t.guard.id v id = s.objects id :=
    fun v => DashMap.insert_of_ne _ _ hid'
  have hrefcounts : ∀ v, s.objectRefcounts.insert t.guard.id v id = s.objectRefcounts id :=
    fun v => DashMap.insert_of_ne _ _ hid'
  -- Nothing but the task of the thread is different.
  have hmoves : ∀ o, (∀ u, o = some u → u.guard.id ≠ id) → Same s (s.setTask i o) id :=
    fun o ho => ⟨rfl, Nat.le_refl _, rfl, rfl, rfl, rfl, tasks_update_iff hold ho⟩
  have hfails : Same s (s.expectFails i) id :=
    ⟨rfl, Nat.le_refl _, rfl, rfl, rfl, rfl, tasks_update_iff hold hnone⟩
  obtain ⟨access, guard⟩ := t
  cases access with
  | insertObject =>
    cases hgo
    exact ⟨rfl, Nat.le_refl _, hobjects _, rfl, rfl, rfl, tasks_update_iff hold (hnew _)⟩
  | insertRefcounts =>
    cases hgo
    refine ⟨rfl, Nat.le_refl _, rfl, congrArg Option.isSome (hrefcounts _), rfl, ?_,
      tasks_update_iff hold hnone⟩
    simp [guardsOf, setTask, hid]
  | getHandler =>
    simp only [DeviceRegistry.go] at hgo
    split at hgo
    · split_ifs at hgo
      · cases hgo
        exact hmoves _ (hnew _)
      · cases hgo
        exact hfails
    · cases hgo
      exact hfails
  | getRefcounts =>
    simp only [DeviceRegistry.go] at hgo
    split at hgo
    · obtain ⟨c', -, rfl⟩ := Option.map_eq_some_iff.mp hgo
      exact ⟨rfl, Nat.le_refl _, rfl, congrArg Option.isSome (hrefcounts _), rfl, rfl,
        tasks_update_iff hold (hnew _)⟩
    · cases hgo
      exact hfails
  | subscribe =>
    cases hgo
    exact hmoves _ (hnew _)
  | waitFor subscribed =>
    simp only [DeviceRegistry.go] at hgo
    split at hgo
    · split_ifs at hgo
      cases hgo
      exact hmoves _ (hnew _)
    · cases hgo
      exact hmoves _ (hnew _)
  | removeService =>
    simp only [DeviceRegistry.go] at hgo
    split at hgo
    · next guard' hguard' =>
      cases hgo
      -- What is retained under a key is a guard of that id.
      obtain ⟨st, h, hat⟩ := hall guard.id
      have hguard : guard'.id = guard.id := by
        rw [hat.retained] at hguard'
        split_ifs at hguard'
        cases hguard'
        rfl
      refine ⟨rfl, Nat.le_refl _, rfl, rfl, DashMap.remove_of_ne _ hid', rfl,
        tasks_update_iff hold ?_⟩
      intro u hu
      cases hu
      rwa [hguard]
    · cases hgo
      exact hmoves _ hnone
  | removeObject =>
    cases hgo
    exact ⟨rfl, Nat.le_refl _, DashMap.remove_of_ne _ hid', rfl, rfl, rfl,
      tasks_update_iff hold (hnew _)⟩
  | removeRefcounts =>
    cases hgo
    exact ⟨rfl, Nat.le_refl _, rfl, congrArg Option.isSome (DashMap.remove_of_ne _ hid'), rfl, rfl,
      tasks_update_iff hold hnone⟩

omit [DecidableEq ι] in
/-- The guard of an id that the program holds is the one guard of the id. -/
theorem At.of_mem_guards (hs : s.At id st h) {g : BinderObject} (hmem : g ∈ s.guards)
    (hid : g.id = id) : st = .user ∧ g = ⟨s.addr, id, h⟩ := by
  have hg : g ∈ s.guardsOf id := List.mem_filter.mpr ⟨hmem, by simpa using hid⟩
  rw [hs.guards] at hg
  split_ifs at hg with hst
  · exact ⟨hst, List.mem_singleton.mp hg⟩
  · cases hg

omit [DecidableEq ι] in
/-- Where no thread can be in the middle of anything about the id, whichever is idle can start. -/
theorem At.only_of_stage (hs : s.At id st h) (hst : ∀ access : RegistryAccess, access.stage ≠ st)
    {i : ι} (j : ι) (t : RegistryTask) (ht : s.tasks j = some t) (hid : t.guard.id = id) : j = i :=
  (hst _ (hs.task j t ht hid).1).elim

omit [DecidableEq ι] in
/-- The program hands over a guard of the id, and nobody else has one. -/
theorem At.guardsOf_erase (hs : s.At id .user h) :
    (s.guards.erase ⟨s.addr, id, h⟩).filter (fun g => g.id = id) = [] := by
  have hguards : s.guardsOf id = [⟨s.addr, id, h⟩] := hs.guards
  calc (s.guards.erase ⟨s.addr, id, h⟩).filter (fun g => g.id = id)
      = (s.guardsOf id).erase ⟨s.addr, id, h⟩ := List.erase_filter.symm
    _ = [] := by rw [hguards, List.erase_cons_head]

omit [DecidableEq ι] in
/-- The program hands over a guard, and keeps those of other ids. -/
theorem guardsOf_erase_of_ne {g : BinderObject} (hid : g.id ≠ id) :
    (s.guards.erase g).filter (fun g => g.id = id) = s.guardsOf id := by
  rw [← List.erase_filter]
  exact List.erase_of_not_mem fun hmem => hid (by simpa using (List.mem_filter.mp hmem).2)

/-- The first access of a thread. -/
theorem At.begin (hs : s.At id st h) (hall : ∀ id, ∃ st h, s.At id st h) {i : ι}
    {a : RegistryAction} (hidle : s.tasks i = none) (hbegin : s.begin i a = some s')
    (hwrap : s'.registered ≤ 2 ^ 64) :
    ∃ st' h', s'.At id st' h' ∧ st.rank ≤ st'.rank ∧ s'.expectFailed = s.expectFailed := by
  have hold : ∀ t, s.tasks i = some t → t.guard.id ≠ id := by simp [hidle]
  have hstays : Same s s' id → s'.expectFailed = s.expectFailed →
      ∃ st' h', s'.At id st' h' ∧ st.rank ≤ st'.rank ∧ s'.expectFailed = s.expectFailed :=
    fun hsame hexpect => ⟨st, h, hs.same hsame, Nat.le_refl _, hexpect⟩
  cases a with
  | registerObject handler =>
    cases hbegin
    by_cases hid : ObjectTable.idOf s.registered = id
    · -- The id was not drawn before.
      have hst : st = .undrawn := by
        by_contra hdrawn
        obtain ⟨n, hn, heq⟩ := hs.drawn hdrawn
        have hlt : s.registered < 2 ^ 64 := hwrap
        have := ObjectTable.idOf_injective hlt (Nat.lt_trans hn hlt) (hid.trans heq)
        omega
      subst hst hid
      exact ⟨.inserting, handler, At.move (hs.only_of_stage fun access => access.stage_ne.1) rfl
        (by simp [RegistryAccess.stage, setTask]) (by simp) ⟨_, Nat.lt_succ_self _, rfl⟩
        hs.objects hs.refcounts hs.retained hs.guards, Nat.le_succ _, rfl⟩
    · refine hstays ⟨rfl, Nat.le_succ _, rfl, rfl, rfl, rfl, tasks_update_iff hold ?_⟩ rfl
      intro t ht
      cases ht
      exact hid
  | toService guard =>
    simp only [DeviceRegistry.begin] at hbegin
    split_ifs at hbegin with hmem
    cases hbegin
    by_cases hid : guard.id = id
    · obtain ⟨rfl, rfl⟩ := hs.of_mem_guards hmem hid
      have hretained : s.retainedServices id = none := hs.retained
      refine ⟨.retained, h, At.move (hs.only_of_stage fun access => access.stage_ne.2) rfl
        (by simp [RegistryAccess.stage, setTask]) (by simp) (hs.drawn (by simp))
        hs.objects hs.refcounts (DashMap.insert_self _ _ _) ?_, Nat.le_succ _, rfl⟩
      simp only [guardsOf, setTask, hretained, Option.toList_none, List.nil_append]
      exact hs.guardsOf_erase
    · refine hstays ⟨rfl, Nat.le_refl _, rfl, rfl, DashMap.insert_of_ne _ _ (Ne.symm hid), ?_,
        tasks_update_iff hold ?_⟩ rfl
      · simp only [guardsOf, setTask, List.filter_append]
        rw [guardsOf_erase_of_ne hid]
        obtain ⟨st₁, h₁, hat⟩ := hall guard.id
        rw [hat.retained]
        split_ifs <;> simp [hid, guardsOf]
      · intro t ht
        cases ht
        exact hid
  | dropGuard guard =>
    simp only [DeviceRegistry.begin] at hbegin
    split_ifs at hbegin with hmem
    cases hbegin
    by_cases hid : guard.id = id
    · obtain ⟨rfl, rfl⟩ := hs.of_mem_guards hmem hid
      exact ⟨.unregistering, h, At.move (hs.only_of_stage fun access => access.stage_ne.2) rfl
        (by simp [RegistryAccess.stage, setTask]) (by simp) (hs.drawn (by simp))
        hs.objects hs.refcounts hs.retained hs.guardsOf_erase, by simp [GuardStage.rank], rfl⟩
    · refine hstays ⟨rfl, Nat.le_refl _, rfl, rfl, rfl, guardsOf_erase_of_ne hid,
        tasks_update_iff hold ?_⟩ rfl
      intro t ht
      cases ht
      exact hid
  | getHandler id' =>
    cases hbegin
    exact ⟨st, h, hs, Nat.le_refl _, rfl⟩
  | refOp id' op =>
    simp only [DeviceRegistry.begin] at hbegin
    split at hbegin
    · next c hc =>
      obtain ⟨c', -, rfl⟩ := Option.map_eq_some_iff.mp hbegin
      refine hstays ⟨rfl, Nat.le_refl _, rfl, ?_, rfl, rfl, fun _ _ _ => Iff.rfl⟩ rfl
      by_cases hid : id = id'
      · subst hid
        simp [hc]
      · exact congrArg Option.isSome (DashMap.insert_of_ne _ _ hid)
    · cases hbegin
      exact ⟨st, h, hs, Nat.le_refl _, rfl⟩
  | go => cases hbegin

/-- Every step moves the guard of an id to the same stage or a later one, and no `expect` of
`to_service` fails. -/
theorem At.step (hs : s.At id st h) (hall : ∀ id, ∃ st h, s.At id st h) {l : ι × RegistryAction}
    (hstep : s.step typeId l = some s') (hwrap : s'.registered ≤ 2 ^ 64) :
    ∃ st' h', s'.At id st' h' ∧ st.rank ≤ st'.rank ∧ s'.expectFailed = s.expectFailed := by
  obtain ⟨i, a⟩ := l
  simp only [DeviceRegistry.step] at hstep
  split at hstep
  · next t ht =>
    obtain ⟨st₁, h₁, hat⟩ := hall t.guard.id
    obtain ⟨st₁', hat', hrank, hexpect⟩ := hat.go ht rfl hstep
    by_cases hid : t.guard.id = id
    · subst hid
      obtain ⟨st', hst'⟩ := hs.go ht rfl hstep
      exact ⟨st', h, hst'⟩
    · exact ⟨st, h, hs.same (Same.of_go hall ht hid hstep), Nat.le_refl _, hexpect⟩
  · cases hstep
  · next hidle => exact hs.begin hall hidle hstep hwrap

end Stages

/-! ## Runs -/

section Runs

variable {ι τ : Type} [DecidableEq ι] [DecidableEq τ] {typeId : HandlerRef → τ}
  {s s' : DeviceRegistry ι} {id : BinderObjectId}

/-- No thread is in the middle of registering the id or of dropping its guard. -/
def Settled (s : DeviceRegistry ι) (id : BinderObjectId) : Prop :=
  ∀ i t, s.tasks i = some t → t.guard.id = id → t.access.stage = .retained

/-- Some thread is in the middle of something about the id, and its next access is at the stage. -/
def Within (s : DeviceRegistry ι) (id : BinderObjectId) (st : GuardStage) : Prop :=
  ∃ i t, s.tasks i = some t ∧ t.guard.id = id ∧ t.access.stage = st

omit [DecidableEq ι] in
/-- On a new device no id was drawn. -/
theorem at_new (addr : Addr) (id : BinderObjectId) (h : HandlerRef) :
    (new ι addr).At id .undrawn h where
  drawn hst := (hst rfl).elim
  objects := rfl
  refcounts := rfl
  retained := rfl
  guards := rfl
  task _ _ ht := by cases ht
  busy hst := by cases hst
  alone _ _ _ _ ht := by cases ht

/-- No next access draws an id. -/
theorem registered_of_go {i : ι} {t : RegistryTask} (h : s.go typeId i t = some s') :
    s'.registered = s.registered := by
  obtain ⟨access, guard⟩ := t
  cases access with
  | getHandler =>
    simp only [go] at h
    split at h
    · split_ifs at h <;> (cases h; rfl)
    · cases h
      rfl
  | getRefcounts =>
    simp only [go] at h
    split at h
    · obtain ⟨c', -, rfl⟩ := Option.map_eq_some_iff.mp h
      rfl
    · cases h
      rfl
  | waitFor subscribed =>
    simp only [go] at h
    split at h
    · split_ifs at h
      cases h
      rfl
    · cases h
      rfl
  | removeService =>
    simp only [go] at h
    split at h <;> (cases h; rfl)
  | _ =>
    cases h
    rfl

/-- The counter does not go back. -/
theorem registered_of_step {l : ι × RegistryAction} (h : s.step typeId l = some s') :
    s.registered ≤ s'.registered := by
  obtain ⟨i, a⟩ := l
  simp only [step] at h
  split at h
  · exact Nat.le_of_eq (registered_of_go h).symm
  · cases h
  · simp only [begin] at h
    split at h
    · cases h
      exact Nat.le_succ _
    · split_ifs at h
      cases h
      exact Nat.le_refl _
    · split_ifs at h
      cases h
      exact Nat.le_refl _
    · cases h
      exact Nat.le_refl _
    · split at h
      · obtain ⟨c', -, rfl⟩ := Option.map_eq_some_iff.mp h
        exact Nat.le_refl _
      · cases h
        exact Nat.le_refl _
    · cases h

/-- As long as the counter has not wrapped, a run moves the guard of an id to the same stage or a
later one, and no `expect` of `to_service` fails. -/
theorem At.exec {st : GuardStage} {h : HandlerRef} (hs : s.At id st h)
    (hall : ∀ id, ∃ st h, s.At id st h) {ls : List (ι × RegistryAction)}
    (hrun : Run.exec (DeviceRegistry.step typeId) s ls = some s') (hwrap : s'.registered ≤ 2 ^ 64) :
    (∀ id, ∃ st h, s'.At id st h) ∧ (∃ st' h', s'.At id st' h' ∧ st.rank ≤ st'.rank) ∧
      s'.expectFailed = s.expectFailed := by
  have hinv : s'.registered ≤ 2 ^ 64 → (∀ id, ∃ st h, s'.At id st h) ∧
      (∃ st' h', s'.At id st' h' ∧ st.rank ≤ st'.rank) ∧ s'.expectFailed = s.expectFailed := by
    refine exec_invariant (I := fun t : DeviceRegistry ι =>
      t.registered ≤ 2 ^ 64 → (∀ id, ∃ st h, t.At id st h) ∧
        (∃ st' h', t.At id st' h' ∧ st.rank ≤ st'.rank) ∧ t.expectFailed = s.expectFailed) ?_
      (fun _ => ⟨hall, ⟨st, h, hs, Nat.le_refl _⟩, rfl⟩) hrun
    intro t l t' hI hstep hwrap'
    obtain ⟨hall', ⟨st₁, h₁, hat, hrank⟩, hexpect⟩ :=
      hI (Nat.le_trans (registered_of_step hstep) hwrap')
    obtain ⟨st₂, h₂, hat', hrank', hexpect'⟩ := hat.step hall' hstep hwrap'
    refine ⟨fun id' => ?_, ⟨st₂, h₂, hat', Nat.le_trans hrank hrank'⟩, hexpect'.trans hexpect⟩
    obtain ⟨st₃, h₃, hat₃⟩ := hall' id'
    obtain ⟨st₄, h₄, hat₄, -⟩ := hat₃.step hall' hstep hwrap'
    exact ⟨st₄, h₄, hat₄⟩
  exact hinv hwrap

omit [DecidableEq ι] in
/-- A guard of the id is alive exactly at two stages, and then there is one. -/
theorem At.guardsAlive_eq {st : GuardStage} {h : HandlerRef} (hs : s.At id st h) :
    s.guardsAlive id = if st.alive then 1 else 0 := by
  rw [guardsAlive, hs.guards, hs.retained]
  cases st <;> rfl

omit [DecidableEq ι] in
/-- At a busy stage, some thread is in the middle of it. -/
theorem At.within_iff {st st' : GuardStage} {h : HandlerRef} (hs : s.At id st h)
    (hbusy : st'.busy = true) : s.Within id st' ↔ st = st' := by
  constructor
  · rintro ⟨i, t, ht, hid, hst⟩
    exact (hs.task i t ht hid).1.symm.trans hst
  · rintro rfl
    obtain ⟨i, t, ht, hid⟩ := hs.busy hbusy
    exact ⟨i, t, ht, hid, (hs.task i t ht hid).1⟩

omit [DecidableEq ι] in
/-- When nobody is registering the id or dropping its guard, the stage is not a busy one. -/
theorem At.not_busy {st : GuardStage} {h : HandlerRef} (hs : s.At id st h)
    (hsettled : s.Settled id) : st.busy = false := by
  by_contra hbusy
  obtain ⟨i, t, ht, hid⟩ := hs.busy (by simpa using hbusy)
  have hst := (hs.task i t ht hid).1
  rw [hsettled i t ht hid] at hst
  subst hst
  exact hbusy rfl

omit [DecidableEq ι] in
/-- The keys of the maps, in every state of a run. -/
theorem At.keys {st : GuardStage} {h : HandlerRef} (hs : s.At id st h) :
    (s.objects id ≠ none ↔
      s.guardsAlive id = 1 ∨ s.Within id .counting ∨ s.Within id .unregistering) ∧
    (s.objectRefcounts id ≠ none ↔
      s.guardsAlive id = 1 ∨ s.Within id .unregistering ∨ s.Within id .uncounting) := by
  have hrefcounts : s.objectRefcounts id ≠ none ↔ st.inRefcounts = true := by
    rw [← hs.refcounts, Option.isSome_iff_ne_none]
  rw [hs.within_iff rfl, hs.within_iff rfl, hs.within_iff rfl, hrefcounts, hs.objects,
    hs.guardsAlive_eq]
  cases st <;> simp [GuardStage.inObjects, GuardStage.inRefcounts, GuardStage.alive,
    GuardStage.rank]

omit [DecidableEq ι] in
/-- A guard is retained at one stage. -/
theorem At.retained_ne_none_iff {st : GuardStage} {h : HandlerRef} (hs : s.At id st h) :
    s.retainedServices id ≠ none ↔ st.rank = 4 := by
  rw [hs.retained]
  cases st <;> simp [GuardStage.rank]

omit [DecidableEq ι] in
/-- An id is a key of `objects` at some stages in a row. -/
theorem At.objects_ne_none_iff {st : GuardStage} {h : HandlerRef} (hs : s.At id st h) :
    s.objects id ≠ none ↔ 2 ≤ st.rank ∧ st.rank ≤ 5 := by
  rw [hs.objects]
  simp [GuardStage.inObjects]

omit [DecidableEq ι] in
/-- An id is a key of `object_refcounts` at some stages in a row. -/
theorem At.objectRefcounts_ne_none_iff {st : GuardStage} {h : HandlerRef} (hs : s.At id st h) :
    s.objectRefcounts id ≠ none ↔ 3 ≤ st.rank ∧ st.rank ≤ 6 := by
  rw [← Option.isSome_iff_ne_none, hs.refcounts]
  simp [GuardStage.inRefcounts]

/-- An id that was a key of a map and is not any more never is again. -/
theorem At.removed {t u : DeviceRegistry ι} {st : GuardStage} {h : HandlerRef} (hs : s.At id st h)
    (hall : ∀ id, ∃ st h, s.At id st h) {ms ns : List (ι × RegistryAction)}
    (ht : Run.exec (DeviceRegistry.step typeId) s ms = some t)
    (hu : Run.exec (DeviceRegistry.step typeId) t ns = some u) (hwrap : u.registered ≤ 2 ^ 64) :
    (s.objects id ≠ none → t.objects id = none → u.objects id = none) ∧
    (s.objectRefcounts id ≠ none → t.objectRefcounts id = none → u.objectRefcounts id = none) ∧
    (s.retainedServices id ≠ none → t.retainedServices id = none →
      u.retainedServices id = none) := by
  have hmono : t.registered ≤ u.registered := by
    refine exec_invariant (I := fun v : DeviceRegistry ι => t.registered ≤ v.registered) ?_
      (Nat.le_refl _) hu
    intro v l v' hv hstep
    exact Nat.le_trans hv (registered_of_step hstep)
  obtain ⟨hall', ⟨st₁, h₁, hat, hrank⟩, -⟩ := hs.exec hall ht (Nat.le_trans hmono hwrap)
  obtain ⟨-, ⟨st₂, h₂, hat', hrank'⟩, -⟩ := hat.exec hall' hu hwrap
  refine ⟨fun hkey hnone => ?_, fun hkey hnone => ?_, fun hkey hnone => ?_⟩
  · have hthere := hs.objects_ne_none_iff.mp hkey
    have hgone := mt hat.objects_ne_none_iff.mpr (not_not.mpr hnone)
    exact not_not.mp (mt hat'.objects_ne_none_iff.mp (by omega))
  · have hthere := hs.objectRefcounts_ne_none_iff.mp hkey
    have hgone := mt hat.objectRefcounts_ne_none_iff.mpr (not_not.mpr hnone)
    exact not_not.mp (mt hat'.objectRefcounts_ne_none_iff.mp (by omega))
  · have hthere := hs.retained_ne_none_iff.mp hkey
    have hgone := mt hat.retained_ne_none_iff.mpr (not_not.mpr hnone)
    exact not_not.mp (mt hat'.retained_ne_none_iff.mp (by omega))

/-- The three maps agree in every run, however the threads interleave, as long as the counter of the
ids has not wrapped. When nobody is registering an id or dropping its guard, the id is a key of
`objects` exactly if it is one of `object_refcounts`, and exactly if one guard of it is alive; in
between, these are the only accesses that tell the maps apart. A retained id is a key of both other
maps. A removed id does not come back. What `to_service` looks up is there, so that its `expect` does
not fail.

**Proof sketch.** The guard of an id passes the stages in their order, each access on it being a step
to the next one, and a thread that is in the middle of something about the id is the only one. So at
each stage it is known what the maps hold. -/
theorem registry_consistent {addr : Addr} {ls : List (ι × RegistryAction)}
    (hrun : exec (step typeId) (new ι addr) ls = some s) (hwrap : s.registered ≤ 2 ^ 64) :
    (∀ id, s.Settled id →
      (s.objects id ≠ none ↔ s.objectRefcounts id ≠ none) ∧
        (s.objectRefcounts id ≠ none ↔ s.guardsAlive id = 1)) ∧
    (∀ id, s.guardsAlive id ≤ 1 ∧
      (s.objects id ≠ none ↔
        s.guardsAlive id = 1 ∨ s.Within id .counting ∨ s.Within id .unregistering) ∧
      (s.objectRefcounts id ≠ none ↔
        s.guardsAlive id = 1 ∨ s.Within id .unregistering ∨ s.Within id .uncounting)) ∧
    (∀ id, s.retainedServices id ≠ none → s.objects id ≠ none ∧ s.objectRefcounts id ≠ none) ∧
    (∀ id ms t ns u, exec (step typeId) s ms = some t → exec (step typeId) t ns = some u →
      u.registered ≤ 2 ^ 64 →
        (s.objects id ≠ none → t.objects id = none → u.objects id = none) ∧
        (s.objectRefcounts id ≠ none → t.objectRefcounts id = none →
          u.objectRefcounts id = none) ∧
        (s.retainedServices id ≠ none → t.retainedServices id = none →
          u.retainedServices id = none)) ∧
    (∀ i t, s.tasks i = some t → t.access.stage = .retained →
      s.objects t.guard.id = some t.guard.handler ∧ s.objectRefcounts t.guard.id ≠ none ∧
        s.retainedServices t.guard.id = some t.guard) ∧
    s.expectFailed = false := by
  have hnew : ∀ id, ∃ st h, (new ι addr).At id st h := fun id => ⟨.undrawn, ⟨0⟩, at_new addr id _⟩
  have hfirst : (new ι addr).At ⟨0, 0⟩ .undrawn ⟨0⟩ := at_new addr _ _
  obtain ⟨hall, -, hexpect⟩ := hfirst.exec hnew hrun hwrap
  refine ⟨fun id hsettled => ?_, fun id => ?_, fun id hkey => ?_, ?_, ?_, hexpect⟩
  · obtain ⟨st, h, hat⟩ := hall id
    have hbusy := hat.not_busy hsettled
    rw [hat.objects_ne_none_iff, hat.objectRefcounts_ne_none_iff, hat.guardsAlive_eq]
    cases st <;> simp_all [GuardStage.rank, GuardStage.busy, GuardStage.alive]
  · obtain ⟨st, h, hat⟩ := hall id
    refine ⟨?_, hat.keys⟩
    rw [hat.guardsAlive_eq]
    split_ifs <;> omega
  · obtain ⟨st, h, hat⟩ := hall id
    have hrank := hat.retained_ne_none_iff.mp hkey
    exact ⟨hat.objects_ne_none_iff.mpr (by omega),
      hat.objectRefcounts_ne_none_iff.mpr (by omega)⟩
  · intro id ms t ns u ht hu hwrap'
    obtain ⟨st, h, hat⟩ := hall id
    exact hat.removed hall ht hu hwrap'
  · intro i t ht hstage
    obtain ⟨st, h, hat⟩ := hall t.guard.id
    obtain ⟨rfl, hguard⟩ := hat.task i t ht rfl
    have hrank : t.access.stage.rank = 4 := by rw [hstage]; rfl
    refine ⟨?_, hat.objectRefcounts_ne_none_iff.mpr (by omega), ?_⟩
    · rw [hat.objects, hstage, hguard]
      rfl
    · rw [hat.retained, if_pos hstage, ← hguard]

end Runs

/-- Thread 0 registers an object and makes it a service, and thread 1 is between the two insertions
of another. Thread 2 drops the reference to the service, and its cleanup has taken the guard. -/
def servedAndRegistering : List (ℕ × RegistryAction) :=
  [(0, .registerObject ⟨7⟩), (1, .registerObject ⟨8⟩), (0, .go), (1, .go), (0, .go),
    (0, .toService ⟨100, ⟨1, 0⟩, ⟨7⟩⟩), (0, .go), (2, .getHandler ⟨1, 0⟩), (0, .go), (0, .go),
    (2, .refOp ⟨1, 0⟩ .decreaseLocal), (0, .go), (0, .go)]

/-- Both objects are registered, and one more access will end that of the service for good. -/
theorem registry_consistent_servedAndRegistering :
    ∃ s, exec (step HandlerRef.addr) (new ℕ 100) servedAndRegistering = some s ∧
      s.objects ⟨1, 0⟩ = some ⟨7⟩ ∧ s.guardsAlive ⟨1, 0⟩ = 0 ∧ s.objects ⟨2, 0⟩ = some ⟨8⟩ ∧
      s.objectRefcounts ⟨2, 0⟩ = none ∧ s.expectFailed = false ∧
      ∃ t, s.step HandlerRef.addr (0, .go) = some t ∧ ∀ ns u,
        exec (step HandlerRef.addr) t ns = some u → u.registered ≤ 2 ^ 64 →
          u.objects ⟨1, 0⟩ = none := by
  obtain ⟨s, hs, hobjects, halive, hother, hnone, hreg, t, ht, hgone⟩ :
      ∃ s, exec (step HandlerRef.addr) (new ℕ 100) servedAndRegistering = some s ∧
        s.objects ⟨1, 0⟩ = some ⟨7⟩ ∧ s.guardsAlive ⟨1, 0⟩ = 0 ∧ s.objects ⟨2, 0⟩ = some ⟨8⟩ ∧
        s.objectRefcounts ⟨2, 0⟩ = none ∧ s.registered = 2 ∧
        ∃ t, s.step HandlerRef.addr (0, .go) = some t ∧ t.objects ⟨1, 0⟩ = none :=
    ⟨_, rfl, rfl, rfl, rfl, rfl, rfl, _, rfl, rfl⟩
  obtain ⟨-, -, -, hremoved, -, hexpect⟩ := registry_consistent hs (by omega)
  refine ⟨s, hs, hobjects, halive, hother, hnone, hexpect, t, ht, fun ns u hu hwrap => ?_⟩
  have hstep : exec (step HandlerRef.addr) s [(0, .go)] = some t := by rw [exec_cons, ht]; rfl
  exact (hremoved ⟨1, 0⟩ _ t ns u hstep hu hwrap).1 (by simp [hobjects]) hgone

end DeviceRegistry

end BinderBinder
