import BinderBinder.BinderObject

set_option relaxedAutoImplicit false
set_option autoImplicit false

/-!
# The life of a local object

One object id of a device, with all threads that use it: its entries in `objects`,
`object_refcounts` and `retained_services`, its guard, its handles, and what each thread is in the
middle of. Each access to a map is a step of its own, so the threads interleave between any two.
The map entries of one id do not depend on those of another.

## Main definitions

* `Life` — the state of one id.
* `Op` — the operations that take several accesses, by where they are.
* `Action`, `Life.step` — the accesses, taken from `src/binder_object.rs` and `src/device.rs`.
* `Life.Effect` — everything an access can do.

## Main results

* `Life.step_effect` — every step has one of these effects.
-/

namespace BinderBinder

/-! ## The state -/

/-- The two kinds of handles to a local object: `BorrowedBinderObject` and `BinderObjectRef`. -/
inductive HandleKind
  | borrowed
  | typed
  deriving DecidableEq, Repr

/-- A handle that is alive. `counted` says that it took a local reference; a borrowed handle carries
this in `increased_local_ref`. -/
structure Handle where
  kind : HandleKind
  handler : HandlerRef
  counted : Bool
  deriving DecidableEq, Repr

/-- Where the `BinderObject` of the id is. It cannot be cloned, so it is in one place: it does not
exist yet, the program holds it, `retained_services` does, it is being dropped, or it was dropped
(by the cleanup of a service or by the program). -/
inductive Guard
  | unborn
  | user (handler : HandlerRef)
  | retained (handler : HandlerRef)
  | dropping
  | dropped (service : Bool)
  deriving DecidableEq, Repr

/-- What a thread is in the middle of, named after its next access. The spawned cleanup of
`to_service` takes over the slot of the thread that spawned it. -/
inductive Op
  | borrowing (handler : HandlerRef)
  | downcasting (handler : HandlerRef)
  | serving
  | servingCount (handler : HandlerRef)
  | subscribing
  | waiting (subscribed : Bool)
  | zeroSeen
  | unregistering (service : Bool)
  | uncounting (service : Bool)
  deriving DecidableEq, Repr

/-- The state of one id: its entries in `objects` and `object_refcounts`, its guard (which is its
entry in `retained_services`), its handles, the threads, and what the cleanup of the service found
in `object_refcounts` at each of its three removals. -/
structure Life where
  handler : Option HandlerRef
  refcounts : Option ObjectRefState
  guard : Guard
  handles : List Handle
  ops : ℕ → Option Op
  removals : List (Option ObjectRefState)

/-- The accesses of a thread: registration; the start of the lookups of a handle (an `upgrade`, a
decoded object or `as_erased`; and a typed one, whose downcast may fail); the operations of a single
access; the start of `to_service` and of the drop of the guard; a remote count operation (a record
of the kernel, or a send); and the next access of what the thread is in the middle of. -/
inductive Action
  | register (handler : HandlerRef)
  | toBinderObjectOrRef
  | fromId
  | downcast (ok : Bool)
  | clone (h : Handle)
  | dropHandle (h : Handle)
  | toService
  | dropGuard
  | remote (op : RefOp)
  | go
  deriving DecidableEq, Repr

/-- The operations that hold the guard, and take the entries of the id out of the maps. -/
def Op.drops : Op → Bool
  | .unregistering _ | .uncounting _ => true
  | _ => false

/-- The cleanup of a service that does not wait any more: it saw a total of zero, or found nothing to
wait for. -/
def Op.doomed : Op → Bool
  | .waiting subscribed => !subscribed
  | .zeroSeen => true
  | .unregistering service => service
  | .uncounting service => service
  | _ => false

/-- The methods that no handle calls. -/
def RefOp.isRemote : RefOp → Bool
  | .increaseLocal | .decreaseLocal => false
  | _ => true

/-- The methods that can raise the total. -/
def RefOp.takesReference : RefOp → Bool
  | .increaseLocal | .increaseRemote | .markPendingRemote => true
  | _ => false

namespace Life

/-- An id that was not given out. -/
def unborn : Life := ⟨none, none, .unborn, [], fun _ => none, []⟩

/-- The thread `i` is next in the middle of `o`. -/
def setOp (s : Life) (i : ℕ) (o : Option Op) : Life := { s with ops := Function.update s.ops i o }

@[simp] theorem ops_setOp_self (s : Life) (i : ℕ) (o : Option Op) : (s.setOp i o).ops i = o :=
  Function.update_self _ _ _

/-- The other threads stay where they are. -/
theorem ops_setOp_of_ne (s : Life) {i j : ℕ} (h : j ≠ i) (o : Option Op) :
    (s.setOp i o).ops j = s.ops j :=
  Function.update_of_ne h _ _

/-- A new handle of some kind, counted if the id has refcounts. -/
def newHandle (s : Life) (kind : HandleKind) (handler : HandlerRef) : Option Life :=
  match s.refcounts with
  | some st => (st.step .increaseLocal).map fun st' =>
      { s with refcounts := some st', handles := ⟨kind, handler, true⟩ :: s.handles }
  | none => some { s with handles := ⟨kind, handler, false⟩ :: s.handles }

/-- A handle is dropped. A typed one gives a local reference back whether it took one or not. -/
def dropHandle (s : Life) (h : Handle) : Option Life :=
  let s := { s with handles := s.handles.erase h }
  if h.kind = .typed ∨ h.counted = true then
    match s.refcounts with
    | some st => (st.step .decreaseLocal).map fun st' => { s with refcounts := some st' }
    | none => some s
  else some s

/-- The removals, with the refcounts that one by the cleanup of a service finds. -/
def noted (s : Life) (service : Bool) : List (Option ObjectRefState) :=
  if service then s.refcounts :: s.removals else s.removals

/-- The next access of the thread `i`. -/
def go (s : Life) (i : ℕ) : Op → Option Life
  | .borrowing handler => (s.newHandle .borrowed handler).map fun s => s.setOp i none
  | .downcasting handler =>
    match s.refcounts with
    | some _ => (s.newHandle .typed handler).map fun s => s.setOp i none
    | none => some (s.setOp i none)
  | .serving =>
    match s.handler with
    | some handler => some (s.setOp i (some (.servingCount handler)))
    | none => none
  | .servingCount handler =>
    match s.refcounts with
    | some _ => (s.newHandle .typed handler).map fun s => s.setOp i (some .subscribing)
    | none => none
  | .subscribing => some (s.setOp i (some (.waiting s.refcounts.isSome)))
  | .waiting subscribed =>
    match subscribed, s.refcounts with
    | true, some st => if st.strongCount = 0 then some (s.setOp i (some .zeroSeen)) else none
    | _, _ => some (s.setOp i (some .zeroSeen))
  | .zeroSeen =>
    match s.guard with
    | .retained _ =>
      some ({ s with guard := .dropping, removals := s.noted true }.setOp i
        (some (.unregistering true)))
    | _ => some (s.setOp i none)
  | .unregistering service =>
    some ({ s with handler := none, removals := s.noted service }.setOp i
      (some (.uncounting service)))
  | .uncounting service =>
    some ({ s with
      refcounts := none, guard := .dropped service, removals := s.noted service }.setOp i none)

/-- The first access of an action; `id` is the id itself. -/
def begin (id : BinderObjectId) (s : Life) (i : ℕ) : Action → Option Life
  | .register handler =>
    match s.guard with
    -- Both maps at once: nobody else has the id yet.
    | .unborn => some { s with
        handler := some handler, refcounts := some (ObjectRefState.new id), guard := .user handler }
    | _ => none
  | .toBinderObjectOrRef =>
    match s.guard with
    | .user handler => s.newHandle .borrowed handler
    | _ => none
  | .fromId =>
    match s.handler with
    | some handler => some (s.setOp i (some (.borrowing handler)))
    | none => some s
  | .downcast ok =>
    match s.handler, ok with
    | some handler, true => some (s.setOp i (some (.downcasting handler)))
    | _, _ => some s
  | .clone h => if h ∈ s.handles then s.newHandle h.kind h.handler else none
  | .dropHandle h => if h ∈ s.handles then s.dropHandle h else none
  | .toService =>
    match s.guard with
    | .user handler => some ({ s with guard := .retained handler }.setOp i (some .serving))
    | _ => none
  | .dropGuard =>
    match s.guard with
    | .user _ => some ({ s with guard := .dropping }.setOp i (some (.unregistering false)))
    | _ => none
  | .remote op =>
    if op.isRemote then
      match s.refcounts with
      | some st => (st.step op).map fun st' => { s with refcounts := some st' }
      | none => some s
    else none
  | .go => none

/-- One access of the thread `i`, which goes on with what it is in the middle of, if it is;
`none` says that the access is not enabled, or panics. -/
def step (id : BinderObjectId) (s : Life) : ℕ × Action → Option Life
  | (i, a) =>
    match s.ops i, a with
    | some o, .go => s.go i o
    | some _, _ => none
    | none, a => s.begin id i a

/-- The access takes a reference, if the id has refcounts. -/
def takesReference (s : Life) : ℕ × Action → Bool
  | (i, a) =>
    match s.ops i, a with
    | some (.borrowing _), .go => true
    | some (.downcasting _), .go => true
    | some (.servingCount _), .go => true
    | none, .toBinderObjectOrRef => true
    | none, .clone _ => true
    | none, .remote op => op.takesReference
    | _, _ => false

/-- A cleanup of the service does not wait any more, but is not through with its removals. -/
def Doomed (s : Life) : Prop := ∃ i o, s.ops i = some o ∧ o.doomed = true

/-! ## What an access does -/

/-- The id exists for the thread `i`: it was registered, or something is left of that. -/
def Known (s : Life) (i : ℕ) : Prop :=
  s.guard ≠ .unborn ∨ s.handler ≠ none ∨ s.ops i ≠ none ∨ s.handles ≠ []

/-- How an access moves the thread `i` on when it takes out no entries: the other threads stay, and
a cleanup that stops waiting does so at a published total of zero. -/
structure Moves (s : Life) (i : ℕ) (ops : ℕ → Option Op) : Prop where
  others : ∀ j ≠ i, ops j = s.ops j
  before : ∀ o, s.ops i = some o → o.drops = false
  after : ∀ o, ops i = some o → o.drops = false
  zero : ∀ o, ops i = some o → o.doomed = true →
    s.Doomed ∨ ∀ st, s.refcounts = some st → st.strongCount = 0

/-- Everything an access can do. -/
inductive Effect (id : BinderObjectId) (s : Life) : ℕ × Action → Life → Prop
  | nothing {l} : Effect id s l s
  | register {i handler} (hguard : s.guard = .unborn) :
    Effect id s (i, .register handler)
      { s with
        handler := some handler, refcounts := some (ObjectRefState.new id), guard := .user handler }
  | move {i a ops} (hknown : s.Known i) (hops : s.Moves i ops) :
    Effect id s (i, a) { s with ops }
  | take {i a kind handler st st' ops} (htakes : s.takesReference (i, a) = true)
      (hst : s.refcounts = some st) (hst' : st.step .increaseLocal = some st')
      (hops : s.Moves i ops) (hwaits : ∀ o, ops i = some o → o.doomed = false) :
    Effect id s (i, a)
      { s with refcounts := some st', handles := ⟨kind, handler, true⟩ :: s.handles, ops }
  | takeUncounted {i a kind handler ops} (hknown : s.Known i) (hnone : s.refcounts = none)
      (hops : s.Moves i ops) :
    Effect id s (i, a) { s with handles := ⟨kind, handler, false⟩ :: s.handles, ops }
  | giveBack {i h st st'} (hmem : h ∈ s.handles) (hh : h.kind = .typed ∨ h.counted = true)
      (hst : s.refcounts = some st) (hst' : st.step .decreaseLocal = some st') :
    Effect id s (i, .dropHandle h)
      { s with refcounts := some st', handles := s.handles.erase h }
  | forget {i h} (hmem : h ∈ s.handles) (hh : s.refcounts = none ∨ h.counted = false) :
    Effect id s (i, .dropHandle h) { s with handles := s.handles.erase h }
  | remote {i op st st'} (hops : s.ops i = none) (hop : op.isRemote = true)
      (hst : s.refcounts = some st) (hst' : st.step op = some st') :
    Effect id s (i, .remote op) { s with refcounts := some st' }
  | serve {i handler} (hguard : s.guard = .user handler) (hops : s.ops i = none) :
    Effect id s (i, .toService)
      ({ s with guard := .retained handler }.setOp i (some .serving))
  | dropGuard {i handler} (hguard : s.guard = .user handler) (hops : s.ops i = none) :
    Effect id s (i, .dropGuard)
      ({ s with guard := .dropping }.setOp i (some (.unregistering false)))
  | cleanUp {i handler} (hguard : s.guard = .retained handler) (hops : s.ops i = some .zeroSeen) :
    Effect id s (i, .go)
      ({ s with guard := .dropping, removals := s.noted true }.setOp i
        (some (.unregistering true)))
  | unregister {i service} (hops : s.ops i = some (.unregistering service)) :
    Effect id s (i, .go)
      ({ s with handler := none, removals := s.noted service }.setOp i
        (some (.uncounting service)))
  | uncount {i service} (hops : s.ops i = some (.uncounting service)) :
    Effect id s (i, .go)
      ({ s with
        refcounts := none, guard := .dropped service, removals := s.noted service }.setOp i none)

/-- A thread that is not at its last accesses moves on. -/
theorem moves_update {s : Life} {i : ℕ} {o : Option Op}
    (hbefore : ∀ o', s.ops i = some o' → o'.drops = false)
    (hafter : ∀ o', o = some o' → o'.drops = false)
    (hzero : ∀ o', o = some o' → o'.doomed = true →
      s.Doomed ∨ ∀ st, s.refcounts = some st → st.strongCount = 0) :
    s.Moves i (Function.update s.ops i o) where
  others j hj := Function.update_of_ne hj _ _
  before := hbefore
  after o' ho' := hafter o' (by rwa [Function.update_self] at ho')
  zero o' ho' hd := hzero o' (by rwa [Function.update_self] at ho') hd

/-- A thread that does nothing else need not move. -/
theorem moves_refl {s : Life} {i : ℕ} (h : s.ops i = none) : s.Moves i s.ops where
  others _ _ := rfl
  before _ ho := by rw [h] at ho; cases ho
  after _ ho := by rw [h] at ho; cases ho
  zero _ ho _ := by rw [h] at ho; cases ho

/-- With refcounts, a new handle takes a reference. -/
theorem newHandle_of_some {s : Life} {st st' : ObjectRefState} (hst : s.refcounts = some st)
    (hst' : st.step .increaseLocal = some st') (kind : HandleKind) (handler : HandlerRef) :
    s.newHandle kind handler = some
      { s with refcounts := some st', handles := ⟨kind, handler, true⟩ :: s.handles } := by
  simp [newHandle, hst, hst']

/-- Without refcounts, a new handle takes no reference. -/
theorem newHandle_of_none {s : Life} (h : s.refcounts = none) (kind : HandleKind)
    (handler : HandlerRef) :
    s.newHandle kind handler = some { s with handles := ⟨kind, handler, false⟩ :: s.handles } := by
  simp [newHandle, h]

/-- It does not matter for a new handle what threads are in the middle of. -/
theorem newHandle_setOp (s : Life) (i : ℕ) (o : Option Op) (kind : HandleKind)
    (handler : HandlerRef) :
    (s.setOp i o).newHandle kind handler = (s.newHandle kind handler).map (·.setOp i o) := by
  simp only [newHandle, setOp]
  split
  · simp [Option.map_map, Function.comp_def]
  · rfl

/-- A new handle takes a reference, if there are refcounts. -/
theorem newHandle_eq_some {s s' : Life} {kind : HandleKind} {handler : HandlerRef}
    (h : s.newHandle kind handler = some s') :
    (∃ st st', s.refcounts = some st ∧ st.step .increaseLocal = some st' ∧
      s' = { s with refcounts := some st', handles := ⟨kind, handler, true⟩ :: s.handles }) ∨
    (s.refcounts = none ∧ s' = { s with handles := ⟨kind, handler, false⟩ :: s.handles }) := by
  unfold newHandle at h
  split at h
  · next st hst =>
    obtain ⟨st', hst', rfl⟩ := Option.map_eq_some_iff.mp h
    exact Or.inl ⟨st, st', hst, hst', rfl⟩
  · next hnone =>
    cases h
    exact Or.inr ⟨hnone, rfl⟩

/-- A new handle is one of two effects, however the thread moves on. -/
theorem newHandle_effect {id : BinderObjectId} {s s' : Life} {i : ℕ} {a : Action} {kind : HandleKind}
    {handler : HandlerRef} (h : s.newHandle kind handler = some s')
    (htakes : s.takesReference (i, a) = true) (hknown : s.Known i) {ops : ℕ → Option Op}
    (hops : s.Moves i ops) (hwaits : ∀ o, ops i = some o → o.doomed = false) :
    Effect id s (i, a) { s' with ops } := by
  rcases newHandle_eq_some h with ⟨st, st', hst, hst', rfl⟩ | ⟨hnone, rfl⟩
  · exact .take htakes hst hst' hops hwaits
  · exact .takeUncounted hknown hnone hops

/-- A new handle leaves the threads where they are. -/
theorem ops_of_newHandle {s s' : Life} {kind : HandleKind} {handler : HandlerRef}
    (h : s.newHandle kind handler = some s') : s'.ops = s.ops := by
  rcases newHandle_eq_some h with ⟨_, _, _, _, rfl⟩ | ⟨_, rfl⟩ <;> rfl

/-- A new handle in a single access. -/
theorem newHandle_effect_begin {id : BinderObjectId} {s s' : Life} {i : ℕ} {a : Action}
    {kind : HandleKind} {handler : HandlerRef} (h : s.newHandle kind handler = some s')
    (htakes : s.takesReference (i, a) = true) (hknown : s.Known i) (hops : s.ops i = none) :
    Effect id s (i, a) s' := by
  have heffect : Effect id s (i, a) { s' with ops := s.ops } :=
    newHandle_effect h htakes hknown (moves_refl hops) (by simp [hops])
  rwa [← ops_of_newHandle h] at heffect

/-- With refcounts, a typed or counted handle gives a reference back. -/
theorem dropHandle_of_some {s : Life} {h : Handle} {st st' : ObjectRefState}
    (hh : h.kind = .typed ∨ h.counted = true) (hst : s.refcounts = some st)
    (hst' : st.step .decreaseLocal = some st') :
    s.dropHandle h = some { s with refcounts := some st', handles := s.handles.erase h } := by
  simp [dropHandle, hh, hst, hst']

/-- Without refcounts, or without a reference of its own, a handle is only gone. -/
theorem dropHandle_of_none {s : Life} {h : Handle}
    (hh : s.refcounts = none ∨ h.kind = .borrowed ∧ h.counted = false) :
    s.dropHandle h = some { s with handles := s.handles.erase h } := by
  rcases hh with hnone | ⟨hkind, hcounted⟩
  · simp [dropHandle, hnone]
  · simp [dropHandle, hkind, hcounted]

/-- The drop of a handle changes nothing else but the counts. -/
theorem dropHandle_eq_some {s s' : Life} {h : Handle} (hdrop : s.dropHandle h = some s') :
    ∃ refcounts, s' = { s with refcounts, handles := s.handles.erase h } := by
  unfold dropHandle at hdrop
  dsimp only at hdrop
  split_ifs at hdrop
  · split at hdrop
    · obtain ⟨st', -, rfl⟩ := Option.map_eq_some_iff.mp hdrop
      exact ⟨some st', rfl⟩
    · cases hdrop
      exact ⟨s.refcounts, rfl⟩
  · cases hdrop
    exact ⟨s.refcounts, rfl⟩

/-- The drop of a handle has one of two effects. -/
theorem dropHandle_effect {id : BinderObjectId} {s s' : Life} {i : ℕ} {h : Handle}
    (hmem : h ∈ s.handles) (hdrop : s.dropHandle h = some s') :
    Effect id s (i, .dropHandle h) s' := by
  unfold dropHandle at hdrop
  dsimp only at hdrop
  split_ifs at hdrop with hcond
  · split at hdrop
    · next st hst =>
      obtain ⟨st', hst', rfl⟩ := Option.map_eq_some_iff.mp hdrop
      exact .giveBack hmem hcond hst hst'
    · next hnone =>
      cases hdrop
      exact .forget hmem (Or.inl hnone)
  · cases hdrop
    exact .forget hmem (Or.inr (by simpa using fun hc => hcond (Or.inr hc)))

/-- A lookup that finds the handler moves the thread on. -/
theorem Effect.of_lookup {id : BinderObjectId} {s : Life} {i : ℕ} {a : Action} {o : Op}
    {handler : HandlerRef} (hops : s.ops i = none) (hh : s.handler = some handler)
    (hdrops : o.drops = false) (hdoomed : o.doomed = false) :
    Effect id s (i, a) (s.setOp i (some o)) := by
  refine .move (Or.inr (Or.inl (by simp [hh]))) (moves_update (by simp [hops]) ?_ ?_)
  · intro o' ho'
    cases ho'
    exact hdrops
  · intro o' ho' hd
    cases ho'
    simp [hdoomed] at hd

/-- The first access of an action has one of these effects. -/
theorem begin_effect {id : BinderObjectId} {s s' : Life} {i : ℕ} {a : Action}
    (hops : s.ops i = none) (h : s.begin id i a = some s') : Effect id s (i, a) s' := by
  cases a with
  | register handler =>
    rw [begin] at h
    split at h
    · next hguard =>
      cases h
      exact .register hguard
    · cases h
  | toBinderObjectOrRef =>
    rw [begin] at h
    split at h
    · next handler hguard =>
      exact newHandle_effect_begin h (by simp [takesReference, hops])
        (Or.inl (by rw [hguard]; simp)) hops
    · cases h
  | fromId =>
    rw [begin] at h
    split at h
    · next handler hh =>
      cases h
      exact .of_lookup hops hh rfl rfl
    · cases h
      exact .nothing
  | downcast ok =>
    simp only [begin] at h
    split at h
    · next handler hh =>
      cases h
      exact .of_lookup hops hh rfl rfl
    · cases h
      exact .nothing
  | clone handle =>
    rw [begin] at h
    split_ifs at h with hmem
    exact newHandle_effect_begin h (by simp [takesReference, hops])
      (Or.inr (Or.inr (Or.inr (List.ne_nil_of_mem hmem)))) hops
  | dropHandle handle =>
    rw [begin] at h
    split_ifs at h with hmem
    exact dropHandle_effect hmem h
  | toService =>
    rw [begin] at h
    split at h
    · next handler hguard =>
      cases h
      exact .serve hguard hops
    · cases h
  | dropGuard =>
    rw [begin] at h
    split at h
    · next handler hguard =>
      cases h
      exact .dropGuard hguard hops
    · cases h
  | remote op =>
    rw [begin] at h
    split_ifs at h with hop
    split at h
    · next st hst =>
      obtain ⟨st', hst', rfl⟩ := Option.map_eq_some_iff.mp h
      exact .remote hops hop hst hst'
    · cases h
      exact .nothing
  | go => cases h

/-- A subscribed cleanup goes on at a published total of zero. -/
theorem go_waiting_eq_some {s s' : Life} {i : ℕ} {subscribed : Bool}
    (h : s.go i (.waiting subscribed) = some s') :
    s' = s.setOp i (some .zeroSeen) ∧
      (subscribed = true → ∀ st, s.refcounts = some st → st.strongCount = 0) := by
  simp only [go] at h
  split at h
  · next st _ hst =>
    split_ifs at h with hzero
    refine ⟨(Option.some_inj.mp h).symm, fun _ st' hst' => ?_⟩
    rw [hst, Option.some_inj] at hst'
    rwa [← hst']
  · next hnot =>
    exact ⟨(Option.some_inj.mp h).symm, fun hsub st hst => (hnot st hsub hst).elim⟩

/-- The next access of a thread has one of these effects. -/
theorem go_effect {id : BinderObjectId} {s s' : Life} {i : ℕ} {o : Op} (hops : s.ops i = some o)
    (h : s.go i o = some s') : Effect id s (i, .go) s' := by
  have hknown : s.Known i := Or.inr (Or.inr (Or.inl (by simp [hops])))
  have hmoves : ∀ o' : Option Op, o.drops = false → (∀ o'', o' = some o'' → o''.drops = false) →
      (∀ o'', o' = some o'' → o''.doomed = true →
        s.Doomed ∨ ∀ st, s.refcounts = some st → st.strongCount = 0) →
      s.Moves i (Function.update s.ops i o') := by
    intro o' hbefore hafter hzero
    refine moves_update (fun o'' ho'' => ?_) hafter hzero
    rw [hops, Option.some_inj] at ho''
    rwa [← ho'']
  have hcount : ∀ {s₁ : Life} {kind : HandleKind} {handler : HandlerRef} {o' : Option Op},
      s.newHandle kind handler = some s₁ → s.takesReference (i, .go) = true → o.drops = false →
      (∀ o'', o' = some o'' → o''.drops = false ∧ o''.doomed = false) →
      Effect id s (i, .go) (s₁.setOp i o') := by
    intro s₁ kind handler o' hs₁ htakes hbefore hafter
    rw [setOp, ops_of_newHandle hs₁]
    refine newHandle_effect hs₁ htakes hknown
      (hmoves o' hbefore (fun o'' ho'' => (hafter o'' ho'').1) ?_) ?_
    · intro o'' ho'' hd
      simp [(hafter o'' ho'').2] at hd
    · intro o'' ho''
      rw [Function.update_self] at ho''
      exact (hafter o'' ho'').2
  cases o with
  | borrowing handler =>
    obtain ⟨s₁, hs₁, rfl⟩ := Option.map_eq_some_iff.mp h
    exact hcount hs₁ (by simp [takesReference, hops]) rfl (by simp)
  | downcasting handler =>
    rw [go] at h
    split at h
    · obtain ⟨s₁, hs₁, rfl⟩ := Option.map_eq_some_iff.mp h
      exact hcount hs₁ (by simp [takesReference, hops]) rfl (by simp)
    · cases h
      exact .move hknown (hmoves none rfl (by simp) (by simp))
  | serving =>
    rw [go] at h
    split at h
    · cases h
      exact .move hknown (hmoves _ rfl (by simp [Op.drops]) (by simp [Op.doomed]))
    · cases h
  | servingCount handler =>
    rw [go] at h
    split at h
    · obtain ⟨s₁, hs₁, rfl⟩ := Option.map_eq_some_iff.mp h
      exact hcount hs₁ (by simp [takesReference, hops]) rfl (by simp [Op.drops, Op.doomed])
    · cases h
  | subscribing =>
    cases h
    refine .move hknown (hmoves _ rfl (by simp [Op.drops]) ?_)
    intro o ho hdoomed
    -- Without refcounts there is nothing to wait for.
    refine Or.inr fun st hst => ?_
    rw [hst] at ho
    cases ho
    cases hdoomed
  | waiting subscribed =>
    obtain ⟨rfl, hzero⟩ := go_waiting_eq_some h
    refine .move hknown (hmoves _ rfl (by simp [Op.drops]) fun _ _ _ => ?_)
    by_cases hsub : subscribed = true
    · exact Or.inr (hzero hsub)
    · exact Or.inl ⟨i, _, hops, by simp [Op.doomed, hsub]⟩
  | zeroSeen =>
    rw [go] at h
    split at h
    · next handler hguard =>
      cases h
      exact .cleanUp hguard hops
    · cases h
      exact .move hknown (hmoves none rfl (by simp) (by simp))
  | unregistering service =>
    cases h
    exact .unregister hops
  | uncounting service =>
    cases h
    exact .uncount hops

/-- Every access has one of these effects. -/
theorem step_effect {id : BinderObjectId} {s s' : Life} {l : ℕ × Action}
    (h : s.step id l = some s') : Effect id s l s' := by
  obtain ⟨i, a⟩ := l
  simp only [step] at h
  split at h
  · next o hops => exact go_effect hops h
  · cases h
  · next hops => exact begin_effect hops h

end Life

end BinderBinder
