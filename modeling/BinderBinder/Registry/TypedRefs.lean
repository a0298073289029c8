import BinderBinder.Payload.Builder
import BinderBinder.Registry.Handles

set_option relaxedAutoImplicit false
set_option autoImplicit false

/-!
# Typed references

A `BinderObjectRef` has its own `Arc` of the handler, and counts, but does not keep the object
registered. `as_erased` goes back through the registry and expects to find the id there.

## Main definitions

* `BinderObjectRef.asErased` — the conversion, with the panic of its `expect`.
* `Life.Bound` — everything of an id has the handler that the id was registered with.
* `ObjectTable.RefsUsable` — every typed reference that is alive can be erased.
* `ObjectTable.KeepsObject`, `ObjectTable.Countable` — no step takes the object from under a typed
  reference, and one more reference can be counted.

## Main results

* `Life.Bound.step` — every step preserves that.
* `ObjectTable.refsUsable_iff` — when every typed reference can be erased in every state of a run.
* `ObjectTable.droppedUnderRef_asErased` — a run in which one cannot.
-/

namespace BinderBinder

open Run

/-! ## The conversion -/

/-- `BinderObjectRef::as_erased`; `none` is the panic of its `expect`, or an overflow of the count. -/
def BinderObjectRef.asErased (dev : BinderDevice) (r : BinderObjectRef) :
    Option (BorrowedBinderObject × BinderDevice) :=
  (BorrowedBinderObject.fromId dev r.id).bind fun (o, dev) => o.map fun o => (o, dev)

/-- A local reference can be counted if there are no refcounts, or if they have room for it. -/
theorem BinderDevice.canCount_iff {dev : BinderDevice} {id : BinderObjectId} :
    dev.CanCount id ↔
      ∀ st, dev.objectRefcounts id = some st → ∃ st', st.step .increaseLocal = some st' := by
  rw [CanCount, increaseLocal, refOp]
  split
  · next hnone => simp [hnone]
  · next st hst => simp [hst, Option.isSome_iff_exists]

/-- A typed reference is erased to a handle of its id, with the handler of the registry. -/
theorem BinderObjectRef.asErased_spec {dev dev' : BinderDevice} {r : BinderObjectRef}
    {o : BorrowedBinderObject} (h : r.asErased dev = some (o, dev')) :
    o.device = dev.addr ∧ o.id = r.id ∧ dev.objects r.id = some o.handler := by
  obtain ⟨⟨o', dev₁⟩, hfrom, hsome⟩ := Option.bind_eq_some_iff.mp h
  rcases BorrowedBinderObject.fromId_cases hfrom with
    ⟨-, rfl, -⟩ | ⟨handler, b, hhandler, hinc, rfl⟩
  · cases hsome
  · cases hsome
    exact ⟨BinderDevice.addr_of_increaseLocal hinc, rfl, hhandler⟩

/-- A typed reference can be erased exactly if its id is registered and can be counted. -/
theorem BinderObjectRef.isSome_asErased_iff {dev : BinderDevice} {r : BinderObjectRef} :
    (r.asErased dev).isSome ↔ dev.objects r.id ≠ none ∧ dev.CanCount r.id := by
  cases hobj : dev.objects r.id with
  | none => simp [asErased, BorrowedBinderObject.fromId, hobj]
  | some handler =>
    cases hinc : dev.increaseLocal r.id <;>
      simp [asErased, BorrowedBinderObject.fromId, hobj, BinderDevice.CanCount, hinc]

/-- A typed reference converts as what it is erased to. -/
theorem BinderObjectRef.toBinderObjectOrRef_eq (dev : BinderDevice) (r : BinderObjectRef) :
    (ToBinderObjectOrRef.typed r).toBinderObjectOrRef dev =
      (r.asErased dev).map fun x => (.object x.1, x.2) := by
  simp only [ToBinderObjectOrRef.toBinderObjectOrRef, asErased, Option.map_bind, Function.comp_def,
    Option.map_map]

/-- A typed reference is pushed exactly if it can be erased. -/
theorem BinderObjectRef.isSome_pushBinderRef (undef : ℕ → UInt32) (dev : BinderDevice)
    (b : PayloadBuilder) (r : BinderObjectRef) :
    (b.pushBinderRef undef dev (.typed r)).isSome = (r.asErased dev).isSome := by
  rw [PayloadBuilder.pushBinderRef, Option.isSome_map, toBinderObjectOrRef_eq, Option.isSome_map]

/-! ## The handler of an id -/

/-- The handler that a thread has looked up. -/
def Op.found : Op → Option HandlerRef
  | .borrowing handler | .downcasting handler | .servingCount handler => some handler
  | _ => none

/-- `to_service` and its cleanup, up to the removal of the guard. -/
def Op.serves : Op → Bool
  | .serving | .servingCount _ | .subscribing | .waiting _ | .zeroSeen => true
  | _ => false

namespace Life

/-- Everything of the id has the handler that it was registered with. While the guard is held, so is
the object registered; and one thread at most is at the service of the id. -/
structure Bound (s : Life) (handler : HandlerRef) : Prop where
  object : ∀ h, s.handler = some h → h = handler
  held : s.guard.held = true → s.handler = some handler
  guard : s.guard.held = true → s.guard = .user handler ∨ s.guard = .retained handler
  handles : ∀ h ∈ s.handles, h.handler = handler
  found : ∀ i o, s.ops i = some o → ∀ h, o.found = some h → h = handler
  serves : ∀ i o, s.ops i = some o → o.serves = true → s.guard = .retained handler
  alone : ∀ i j o o', s.ops i = some o → s.ops j = some o' → o.serves = true →
    o'.serves = true → i = j

/-- An id that was not given out is bound to any handler. -/
theorem bound_unborn (handler : HandlerRef) : unborn.Bound handler where
  object _ h := by cases h
  held h := by cases h
  guard h := by cases h
  handles _ h := by cases h
  found _ _ h := by cases h
  serves _ _ h := by cases h
  alone _ _ _ _ h := by cases h

section Bound

variable {s s' : Life} {handler : HandlerRef} {i : ℕ}

/-- A thread moves on. It has looked up the same handler, if any, and it is not at the service of the
id if it was not before. -/
theorem Bound.setOp (hs : s.Bound handler) {o : Option Op}
    (hfound : ∀ o', o = some o' → ∀ h, o'.found = some h → h = handler)
    (hserves : ∀ o', o = some o' → o'.serves = true →
      ∃ o₁, s.ops i = some o₁ ∧ o₁.serves = true) : (s.setOp i o).Bound handler := by
  have hbefore : ∀ j o', (s.setOp i o).ops j = some o' → o'.serves = true →
      ∃ o₁, s.ops j = some o₁ ∧ o₁.serves = true := by
    intro j o' ho' hserve
    by_cases hj : j = i
    · subst hj
      rw [ops_setOp_self] at ho'
      exact hserves o' ho' hserve
    · exact ⟨o', by rwa [ops_setOp_of_ne _ hj] at ho', hserve⟩
  refine ⟨hs.object, hs.held, hs.guard, hs.handles, ?_, ?_, ?_⟩
  · intro j o' ho' h hh
    by_cases hj : j = i
    · subst hj
      rw [ops_setOp_self] at ho'
      exact hfound o' ho' h hh
    · rw [ops_setOp_of_ne _ hj] at ho'
      exact hs.found j o' ho' h hh
  · intro j o' ho' hserve
    obtain ⟨o₁, ho₁, hserve₁⟩ := hbefore j o' ho' hserve
    exact hs.serves j o₁ ho₁ hserve₁
  · intro j k o₁ o₂ ho₁ ho₂ hserve₁ hserve₂
    obtain ⟨o₃, ho₃, hserve₃⟩ := hbefore j o₁ ho₁ hserve₁
    obtain ⟨o₄, ho₄, hserve₄⟩ := hbefore k o₂ ho₂ hserve₂
    exact hs.alone j k o₃ o₄ ho₃ ho₄ hserve₃ hserve₄

/-- A thread is done. -/
theorem Bound.setOp_none (hs : s.Bound handler) : (s.setOp i none).Bound handler :=
  hs.setOp (by simp) (by simp)

/-- A thread looks the handler up, and is not at the service of the id. -/
theorem Bound.looksUp (hs : s.Bound handler) {o : Op} {h : HandlerRef} (hfound : o.found = some h)
    (hserves : o.serves = false) (hh : s.handler = some h) : (s.setOp i (some o)).Bound handler := by
  refine hs.setOp ?_ ?_
  · intro o' ho' h' hh'
    cases ho'
    rw [hfound] at hh'
    cases hh'
    exact hs.object h hh
  · intro o' ho' hserve
    cases ho'
    simp [hserves] at hserve

/-- Counts change, and handles of the same handler come and go. -/
theorem Bound.counts (hs : s.Bound handler) {refcounts : Option ObjectRefState}
    {handles : List Handle} (hmem : ∀ h ∈ handles, h.handler = handler) :
    Bound { s with refcounts, handles } handler :=
  ⟨hs.object, hs.held, hs.guard, hmem, hs.found, hs.serves, hs.alone⟩

/-- A new handle has the handler of the id. -/
theorem Bound.newHandle (hs : s.Bound handler) {kind : HandleKind} {h : HandlerRef}
    (hh : h = handler) (hnew : s.newHandle kind h = some s') : s'.Bound handler := by
  have hmem : ∀ counted, ∀ x ∈ ⟨kind, h, counted⟩ :: s.handles, x.handler = handler := by
    intro counted x hx
    rcases List.mem_cons.mp hx with rfl | hx
    · exact hh
    · exact hs.handles x hx
  rcases newHandle_eq_some hnew with ⟨st, st', -, -, rfl⟩ | ⟨-, rfl⟩
  · exact hs.counts (hmem true)
  · exact hs.counts (hmem false)

/-- A handle is dropped. -/
theorem Bound.dropHandle (hs : s.Bound handler) {h : Handle} (hdrop : s.dropHandle h = some s') :
    s'.Bound handler := by
  obtain ⟨refcounts, rfl⟩ := dropHandle_eq_some hdrop
  exact hs.counts fun x hx => hs.handles x (List.mem_of_mem_erase hx)

/-- The guard is taken from whoever holds it: nobody is at the service of the id afterwards. -/
theorem Bound.takeGuard (hs : s.Bound handler)
    (honly : ∀ j o, s.ops j = some o → o.serves = true → j = i) {service : Bool}
    {removals : List (Option ObjectRefState)} :
    Bound ({ s with guard := .dropping, removals }.setOp i (some (.unregistering service)))
      handler := by
  have hnone : ∀ j o, Function.update s.ops i (some (.unregistering service)) j = some o →
      o.serves = false := by
    intro j o ho
    by_cases hj : j = i
    · subst hj
      rw [Function.update_self] at ho
      cases ho
      rfl
    · rw [Function.update_of_ne hj] at ho
      by_contra hserve
      exact hj (honly j o ho (by simpa using hserve))
  refine ⟨hs.object, fun h => (by cases h), fun h => (by cases h), hs.handles, ?_, ?_, ?_⟩
  · intro j o ho h hh
    by_cases hj : j = i
    · subst hj
      rw [ops_setOp_self] at ho
      cases ho
      cases hh
    · rw [ops_setOp_of_ne _ hj] at ho
      exact hs.found j o ho h hh
  · intro j o ho hserve
    simp [hnone j o ho] at hserve
  · intro j k o o' ho _ hserve
    simp [hnone j o ho] at hserve

/-- `to_service` takes the guard: nobody else is at the service of the id. -/
theorem Bound.serve (hs : s.Bound handler) (hheld : s.handler = some handler)
    (hnone : ∀ j o, s.ops j = some o → o.serves = false) :
    Bound ({ s with guard := .retained handler }.setOp i (some .serving)) handler := by
  have hmine : ∀ j o, Function.update s.ops i (some .serving) j = some o → o.serves = true →
      j = i := by
    intro j o ho hserve
    by_contra hj
    rw [Function.update_of_ne hj] at ho
    simp [hnone j o ho] at hserve
  refine ⟨hs.object, fun _ => hheld, fun _ => Or.inr rfl, hs.handles, ?_, fun _ _ _ _ => rfl, ?_⟩
  · intro j o ho h hh
    by_cases hj : j = i
    · subst hj
      rw [ops_setOp_self] at ho
      cases ho
      cases hh
    · rw [ops_setOp_of_ne _ hj] at ho
      exact hs.found j o ho h hh
  · intro j k o o' ho ho' hserve hserve'
    rw [hmine j o ho hserve, hmine k o' ho' hserve']

/-- The guard that the program holds has the handler of the id. -/
theorem Bound.guard_user (hs : s.Bound handler) {h : HandlerRef} (hguard : s.guard = .user h) :
    h = handler := by
  rcases hs.guard (by simp [hguard, Guard.held]) with heq | heq
  · rw [hguard] at heq
    cases heq
    rfl
  · rw [hguard] at heq
    cases heq

/-- While the guard is with the program, nobody is at the service of the id. -/
theorem Bound.not_serves (hs : s.Bound handler) {h : HandlerRef} (hguard : s.guard = .user h) {j : ℕ}
    {o : Op} (ho : s.ops j = some o) : o.serves = false := by
  by_contra hserve
  have hretained := hs.serves j o ho (by simpa using hserve)
  rw [hguard] at hretained
  cases hretained

/-- The next access of a thread. -/
theorem Bound.go (hs : s.Bound handler) (howned : s.Owned) {o : Op} (hops : s.ops i = some o)
    (hgo : s.go i o = some s') : s'.Bound handler := by
  have hfound : ∀ h, o.found = some h → h = handler := hs.found i o hops
  -- A thread at the service of the id stays at it.
  have hserve : ∀ o', o.serves = true → (∀ h, o'.found = some h → h = handler) →
      (s.setOp i (some o')).Bound handler := by
    intro o' hserve hfound'
    refine hs.setOp (fun o'' ho'' => ?_) (fun o'' _ _ => ⟨o, hops, hserve⟩)
    cases ho''
    exact hfound'
  cases o with
  | borrowing h =>
    obtain ⟨s₁, hs₁, rfl⟩ := Option.map_eq_some_iff.mp hgo
    exact (hs.newHandle (hfound h rfl) hs₁).setOp_none
  | downcasting h =>
    rw [Life.go] at hgo
    split at hgo
    · obtain ⟨s₁, hs₁, rfl⟩ := Option.map_eq_some_iff.mp hgo
      exact (hs.newHandle (hfound h rfl) hs₁).setOp_none
    · cases hgo
      exact hs.setOp_none
  | serving =>
    rw [Life.go] at hgo
    split at hgo
    · next h hh =>
      cases hgo
      refine hserve _ rfl fun h' hh' => ?_
      cases hh'
      exact hs.object h hh
    · cases hgo
  | servingCount h =>
    rw [Life.go] at hgo
    split at hgo
    · obtain ⟨s₁, hs₁, rfl⟩ := Option.map_eq_some_iff.mp hgo
      refine (hs.newHandle (hfound h rfl) hs₁).setOp ?_ ?_
      · intro o' ho' h' hh'
        cases ho'
        cases hh'
      · exact fun o' _ _ => ⟨_, (congrFun (ops_of_newHandle hs₁) i).trans hops, rfl⟩
    · cases hgo
  | subscribing =>
    cases hgo
    exact hserve _ rfl fun h hh => (by cases hh)
  | waiting subscribed =>
    obtain ⟨rfl, -⟩ := go_waiting_eq_some hgo
    exact hserve _ rfl fun h hh => (by cases hh)
  | zeroSeen =>
    rw [Life.go] at hgo
    split at hgo
    · cases hgo
      exact hs.takeGuard fun j o ho hserve => hs.alone j i _ _ ho hops hserve rfl
    · cases hgo
      exact hs.setOp_none
  | unregistering service =>
    cases hgo
    have hguard : s.guard = .dropping := howned.dropper i _ hops rfl
    have hdropped : Bound { s with handler := none, removals := s.noted service } handler :=
      ⟨fun h hh => (by cases hh), fun h => (by simp [hguard, Guard.held] at h), hs.guard, hs.handles,
        hs.found, hs.serves, hs.alone⟩
    refine hdropped.setOp ?_ ?_
    · intro o' ho' h hh
      cases ho'
      cases hh
    · intro o' ho' hserve'
      cases ho'
      cases hserve'
  | uncounting service =>
    cases hgo
    have hguard : s.guard = .dropping := howned.dropper i _ hops rfl
    have hnobody : ∀ j o', s.ops j = some o' → o'.serves = true → False := by
      intro j o' ho' hserve'
      have hretained := hs.serves j o' ho' hserve'
      rw [hguard] at hretained
      cases hretained
    have hdropped : Bound { s with
        refcounts := none, guard := .dropped service, removals := s.noted service } handler :=
      ⟨hs.object, fun h => (by cases h), fun h => (by cases h), hs.handles, hs.found,
        fun j o' ho' hserve' => (hnobody j o' ho' hserve').elim, hs.alone⟩
    exact hdropped.setOp_none

/-- The first access of an action; a registration binds the id to its handler. -/
theorem Bound.begin {id : BinderObjectId} (hs : s.Bound handler) (howned : s.Owned) {a : Action}
    (hbegin : s.begin id i a = some s') : ∃ h, s'.Bound h := by
  cases a with
  | register h =>
    rw [Life.begin] at hbegin
    split at hbegin
    · next hguard =>
      cases hbegin
      obtain ⟨-, -, hhandles, -, hnone⟩ := howned.unborn hguard
      refine ⟨h, ⟨fun h' hh' => (Option.some_inj.mp hh').symm, fun _ => rfl, fun _ => Or.inl rfl,
        fun x hx => ?_, ?_, ?_, ?_⟩⟩
      · rw [show s.handles = [] from hhandles] at hx
        cases hx
      all_goals
        intro j
        simp [hnone j]
    · cases hbegin
  | toBinderObjectOrRef =>
    rw [Life.begin] at hbegin
    split at hbegin
    · next h hguard =>
      exact ⟨handler, hs.newHandle (hs.guard_user hguard) hbegin⟩
    · cases hbegin
  | fromId =>
    rw [Life.begin] at hbegin
    split at hbegin
    · next h hh =>
      cases hbegin
      exact ⟨handler, hs.looksUp rfl rfl hh⟩
    · cases hbegin
      exact ⟨handler, hs⟩
  | downcast ok =>
    simp only [Life.begin] at hbegin
    split at hbegin
    · next h hh =>
      cases hbegin
      exact ⟨handler, hs.looksUp rfl rfl hh⟩
    · cases hbegin
      exact ⟨handler, hs⟩
  | clone x =>
    rw [Life.begin] at hbegin
    split_ifs at hbegin with hmem
    exact ⟨handler, hs.newHandle (hs.handles x hmem) hbegin⟩
  | dropHandle x =>
    rw [Life.begin] at hbegin
    split_ifs at hbegin with hmem
    exact ⟨handler, hs.dropHandle hbegin⟩
  | toService =>
    rw [Life.begin] at hbegin
    split at hbegin
    · next h hguard =>
      cases hbegin
      have hheld : s.guard.held = true := by simp [hguard, Guard.held]
      obtain rfl := hs.guard_user hguard
      exact ⟨h, hs.serve (hs.held hheld) fun j o ho => hs.not_serves hguard ho⟩
    · cases hbegin
  | dropGuard =>
    rw [Life.begin] at hbegin
    split at hbegin
    · next h hguard =>
      cases hbegin
      refine ⟨handler, hs.takeGuard fun j o ho hserve => ?_⟩
      simp [hs.not_serves hguard ho] at hserve
    · cases hbegin
  | remote op =>
    rw [Life.begin] at hbegin
    split_ifs at hbegin with hop
    split at hbegin
    · obtain ⟨st', -, rfl⟩ := Option.map_eq_some_iff.mp hbegin
      exact ⟨handler, hs.counts hs.handles⟩
    · cases hbegin
      exact ⟨handler, hs⟩
  | go => cases hbegin

/-- Every step leaves everything of the id with the handler that it was registered with. -/
theorem Bound.step {id : BinderObjectId} (hs : s.Bound handler) (howned : s.Owned)
    {l : ℕ × Action} (h : s.step id l = some s') : ∃ h, s'.Bound h := by
  obtain ⟨i, a⟩ := l
  simp only [Life.step] at h
  split at h
  · next o hops => exact ⟨handler, hs.go howned hops h⟩
  · cases h
  · exact hs.begin howned h

end Bound

/-! ## Typed references -/

section Typed

variable {s s' : Life} {i : ℕ} {h : Handle}

/-- Handles of another kind were there before. -/
theorem mem_of_newHandle {kind : HandleKind} {handler : HandlerRef}
    (hnew : s.newHandle kind handler = some s') (hmem : h ∈ s'.handles) (hkind : h.kind ≠ kind) :
    h ∈ s.handles := by
  have hcons : ∀ counted, h ∈ (⟨kind, handler, counted⟩ : Handle) :: s.handles → h ∈ s.handles := by
    intro counted hmem'
    rcases List.mem_cons.mp hmem' with rfl | hmem'
    · exact (hkind rfl).elim
    · exact hmem'
  rcases newHandle_eq_some hnew with ⟨st, st', -, -, rfl⟩ | ⟨-, rfl⟩
  · exact hcons true hmem
  · exact hcons false hmem

/-- A typed reference is made by a downcast that counts, or by `to_service`. -/
theorem typed_of_go {o : Op} (hgo : s.go i o = some s') (hmem : h ∈ s'.handles)
    (htyped : h.kind = .typed) :
    h ∈ s.handles ∨ (∃ handler, o = .servingCount handler) ∨
      ∃ handler st st', o = .downcasting handler ∧ s.refcounts = some st ∧
        st.step .increaseLocal = some st' := by
  cases o with
  | borrowing handler =>
    obtain ⟨s₁, hs₁, rfl⟩ := Option.map_eq_some_iff.mp hgo
    exact Or.inl (mem_of_newHandle hs₁ hmem (by simp [htyped]))
  | downcasting handler =>
    rw [go] at hgo
    split at hgo
    · next st hst =>
      obtain ⟨s₁, hs₁, rfl⟩ := Option.map_eq_some_iff.mp hgo
      rcases newHandle_eq_some hs₁ with ⟨st, st', hst, hst', -⟩ | ⟨hnone, -⟩
      · exact Or.inr (Or.inr ⟨handler, st, st', rfl, hst, hst'⟩)
      · rw [hst] at hnone
        cases hnone
    · cases hgo
      exact Or.inl hmem
  | servingCount handler => exact Or.inr (Or.inl ⟨handler, rfl⟩)
  | serving =>
    rw [go] at hgo
    split at hgo
    · cases hgo
      exact Or.inl hmem
    · cases hgo
  | waiting subscribed =>
    obtain ⟨rfl, -⟩ := go_waiting_eq_some hgo
    exact Or.inl hmem
  | zeroSeen =>
    rw [go] at hgo
    split at hgo <;> (cases hgo; exact Or.inl hmem)
  | _ =>
    cases hgo
    exact Or.inl hmem

/-- The first access of an action makes a typed reference only from another one. -/
theorem typed_of_begin {id : BinderObjectId} {a : Action} (hbegin : s.begin id i a = some s')
    (hmem : h ∈ s'.handles) (htyped : h.kind = .typed) : ∃ h' ∈ s.handles, h'.kind = .typed := by
  cases a with
  | register handler =>
    rw [begin] at hbegin
    split at hbegin
    · cases hbegin
      exact ⟨h, hmem, htyped⟩
    · cases hbegin
  | toBinderObjectOrRef =>
    rw [begin] at hbegin
    split at hbegin
    · exact ⟨h, mem_of_newHandle hbegin hmem (by simp [htyped]), htyped⟩
    · cases hbegin
  | fromId =>
    rw [begin] at hbegin
    split at hbegin <;> (cases hbegin; exact ⟨h, hmem, htyped⟩)
  | downcast ok =>
    simp only [begin] at hbegin
    split at hbegin <;> (cases hbegin; exact ⟨h, hmem, htyped⟩)
  | clone x =>
    rw [begin] at hbegin
    split_ifs at hbegin with hx
    by_cases hkind : x.kind = .typed
    · exact ⟨x, hx, hkind⟩
    · exact ⟨h, mem_of_newHandle hbegin hmem fun heq => hkind (heq.symm.trans htyped), htyped⟩
  | dropHandle x =>
    rw [begin] at hbegin
    split_ifs at hbegin
    obtain ⟨refcounts, rfl⟩ := dropHandle_eq_some hbegin
    exact ⟨h, List.mem_of_mem_erase hmem, htyped⟩
  | toService =>
    rw [begin] at hbegin
    split at hbegin
    · cases hbegin
      exact ⟨h, hmem, htyped⟩
    · cases hbegin
  | dropGuard =>
    rw [begin] at hbegin
    split at hbegin
    · cases hbegin
      exact ⟨h, hmem, htyped⟩
    · cases hbegin
  | remote op =>
    rw [begin] at hbegin
    split_ifs at hbegin
    split at hbegin
    · obtain ⟨st', -, rfl⟩ := Option.map_eq_some_iff.mp hbegin
      exact ⟨h, hmem, htyped⟩
    · cases hbegin
      exact ⟨h, hmem, htyped⟩
  | go => cases hbegin

/-- The object of an id is taken out by the drop of its guard. -/
theorem handler_of_step {id : BinderObjectId} {l : ℕ × Action} (hstep : s.step id l = some s') :
    s.handler = none ∨ s'.handler ≠ none ∨
      ∃ service, s.ops l.1 = some (.unregistering service) ∧ l.2 = .go := by
  cases hs : s.handler with
  | none => exact Or.inl rfl
  | some handler =>
    right
    cases step_effect hstep with
    | register _ => exact Or.inl (by simp)
    | unregister hops => exact Or.inr ⟨_, hops, rfl⟩
    | _ => exact Or.inl (by simp [setOp, hs])

/-- The drop of a guard takes the object out. -/
theorem step_unregistering (id : BinderObjectId) {service : Bool}
    (hops : s.ops i = some (.unregistering service)) : s.step id (i, .go) =
      some ({ s with handler := none, removals := s.noted service }.setOp i
        (some (.uncounting service))) := by
  simp [step, hops, go]

/-- A downcast counts, if there are refcounts with room for it. -/
theorem step_downcasting (id : BinderObjectId) {handler : HandlerRef} {st st' : ObjectRefState}
    (hops : s.ops i = some (.downcasting handler)) (hst : s.refcounts = some st)
    (hst' : st.step .increaseLocal = some st') : s.step id (i, .go) =
      some ({ s with
        refcounts := some st', handles := ⟨.typed, handler, true⟩ :: s.handles }.setOp i none) := by
  simp [step, hops, go, hst, newHandle_of_some hst hst']

end Typed

end Life

/-- The count of a local reference goes through exactly if the total has room for one more. -/
theorem ObjectRefState.Published.exists_increaseLocal_iff {st : ObjectRefState}
    (hpublished : st.Published) :
    (∃ st', st.step .increaseLocal = some st') ↔ st.strongCount + 1 < u32Size := by
  have htotal := hpublished.total
  constructor
  · rintro ⟨st', hst'⟩
    obtain ⟨hcounts, -, hpublished'⟩ := ObjectRefState.step_eq_some.mp hst'
    have htotal' := hpublished'.total
    have hlt' := hpublished'.lt
    rw [(RefOp.apply_increaseLocal.mp hcounts).2] at htotal'
    simp only at htotal'
    omega
  · intro hroom
    refine ⟨⟨st.objId, { st.counts with localRefs := st.counts.localRefs + 1 },
      st.strongCount + 1⟩, ObjectRefState.step_eq_some.mpr ⟨?_, rfl, ?_, hroom⟩⟩
    · exact RefOp.apply_increaseLocal.mpr ⟨by omega, rfl⟩
    · show st.strongCount + 1 = st.counts.localRefs + 1 + st.counts.remoteRefs + st.counts.pending
      omega

namespace ObjectTable

/-! ## Runs -/

/-- The device at `addr` with the maps of the table. -/
def device (s : ObjectTable) (addr : Addr) : BinderDevice :=
  { BinderDevice.new addr with
    objects := fun id => (s.lives id).handler
    objectRefcounts := fun id => (s.lives id).refcounts }

/-- `as_erased` on the typed reference `h` to `id` returns a handle of the same id and handler. -/
def Erases (s : ObjectTable) (addr : Addr) (id : BinderObjectId) (h : Handle) : Prop :=
  ∃ o dev', BinderObjectRef.asErased (s.device addr) ⟨addr, id, h.handler⟩ = some (o, dev') ∧
    o.device = addr ∧ o.id = id ∧ o.handler = h.handler

/-- Every typed reference that is alive can be erased. -/
def RefsUsable (addr : Addr) (s : ObjectTable) : Prop :=
  ∀ id, ∀ h ∈ (s.lives id).handles, h.kind = .typed → s.Erases addr id h

/-- Every id with a typed reference that is alive is registered. -/
def Kept (s : ObjectTable) : Prop :=
  ∀ id, ∀ h ∈ (s.lives id).handles, h.kind = .typed → (s.lives id).handler ≠ none

/-- Of every id with a typed reference that is alive, one more reference can be counted. -/
def Countable (s : ObjectTable) : Prop :=
  ∀ id, ∀ h ∈ (s.lives id).handles, h.kind = .typed →
    ∀ st, (s.lives id).refcounts = some st → st.strongCount + 1 < u32Size

/-- The drop of a guard takes the object out when no typed reference is alive, and a downcast that
has looked the handler up counts before it is taken out. -/
def KeepsObject (s : ObjectTable) : ℕ × TableAction → Prop
  | (i, .access id .go) =>
    match (s.lives id).ops i with
    | some (.unregistering _) => ∀ h ∈ (s.lives id).handles, h.kind ≠ .typed
    | some (.downcasting _) =>
      ∀ st, (s.lives id).refcounts = some st → st.strongCount + 1 < u32Size →
        (s.lives id).handler ≠ none
    | _ => True
  | _ => True

/-- The lives are in order, and everything of an id has the same handler. -/
structure Bound (s : ObjectTable) : Prop where
  sound : s.Sound
  bound : ∀ id, ∃ handler, (s.lives id).Bound handler

/-- On a new device nothing has a handler. -/
theorem bound_new : new.Bound := ⟨sound_new, fun _ => ⟨⟨0⟩, Life.bound_unborn _⟩⟩

/-- Every step leaves everything of an id with the same handler. -/
theorem Bound.step {s s' : ObjectTable} {l : ℕ × TableAction} (hs : s.Bound)
    (h : s.step l = some s') : s'.Bound := by
  refine ⟨hs.sound.step h, fun id => ?_⟩
  obtain ⟨handler, hbound⟩ := hs.bound id
  rcases life_of_step h id with hsame | ⟨i, a, hmine, -⟩
  · exact ⟨handler, by rwa [hsame]⟩
  · exact hbound.step (hs.sound.owned id) hmine

/-- A typed reference can be erased exactly if its id is registered and one more reference can be
counted. -/
theorem Bound.erases_iff {s : ObjectTable} (hs : s.Bound) {addr : Addr} {id : BinderObjectId}
    {h : Handle} (hmem : h ∈ (s.lives id).handles) :
    s.Erases addr id h ↔ (s.lives id).handler ≠ none ∧
      ∀ st, (s.lives id).refcounts = some st → st.strongCount + 1 < u32Size := by
  obtain ⟨handler, hbound⟩ := hs.bound id
  have hcount : (s.device addr).CanCount id ↔
      ∀ st, (s.lives id).refcounts = some st → st.strongCount + 1 < u32Size := by
    rw [BinderDevice.canCount_iff]
    refine forall_congr' fun st => forall_congr' fun hst => ?_
    exact (hs.sound.tallied id st hst).published.exists_increaseLocal_iff
  rw [← hcount]
  constructor
  · rintro ⟨o, dev', herased, -⟩
    exact BinderObjectRef.isSome_asErased_iff.mp (by rw [herased]; rfl)
  · intro hcan
    have hsome : (BinderObjectRef.asErased (s.device addr) ⟨addr, id, h.handler⟩).isSome :=
      BinderObjectRef.isSome_asErased_iff.mpr hcan
    obtain ⟨⟨o, dev'⟩, herased⟩ := Option.isSome_iff_exists.mp hsome
    obtain ⟨hdevice, hid, hhandler⟩ := BinderObjectRef.asErased_spec herased
    exact ⟨o, dev', herased, hdevice, hid,
      (hbound.object _ hhandler).trans (hbound.handles h hmem).symm⟩

/-- What a step that keeps the objects of typed references leaves registered. -/
theorem Kept.step {s s' : ObjectTable} {l : ℕ × TableAction} (hs : s.Bound) (hkept : s.Kept)
    (hkeeps : s.KeepsObject l) (h : s.step l = some s') : s'.Kept := by
  intro id x hmem htyped
  rcases life_of_step h id with hsame | ⟨i, a, hmine, hl⟩
  · rw [hsame] at hmem ⊢
    exact hkept id x hmem htyped
  obtain ⟨handler, hbound⟩ := hs.bound id
  -- It was registered before: what makes a typed reference finds the object, or another one.
  have hbefore : (s.lives id).handler ≠ none := by
    simp only [Life.step] at hmine
    split at hmine
    · next o hops =>
      rcases Life.typed_of_go hmine hmem htyped with hold | ⟨h', rfl⟩ | ⟨h', st, st', rfl, hst, hst'⟩
      · exact hkept id x hold htyped
      · have hguard := hbound.serves i _ hops rfl
        rw [hbound.held (by simp [hguard, Guard.held])]
        simp
      · rcases hl with rfl | ⟨handler', hregister⟩
        · have hpublished := (hs.sound.tallied id st hst).published
          rw [KeepsObject, hops] at hkeeps
          exact hkeeps st hst (hpublished.exists_increaseLocal_iff.mp ⟨st', hst'⟩)
        · cases hregister
    · cases hmine
    · obtain ⟨x', hmem', htyped'⟩ := Life.typed_of_begin hmine hmem htyped
      exact hkept id x' hmem' htyped'
  rcases Life.handler_of_step hmine with hnone | hsome | ⟨service, hops, hgo⟩
  · exact (hbefore hnone).elim
  · exact hsome
  · change a = .go at hgo
    subst hgo
    rcases hl with rfl | ⟨handler', hregister⟩
    · have hhandles : (s'.lives id).handles = (s.lives id).handles := by
        rw [Life.step_unregistering id hops, Option.some_inj] at hmine
        rw [← hmine, Life.setOp]
      rw [KeepsObject, hops] at hkeeps
      exact (hkeeps x (hhandles ▸ hmem) htyped).elim
    · cases hregister

/-- What keeps the objects of typed references registered. -/
theorem keepsObject_of_kept {s : ObjectTable} {l : ℕ × TableAction} (hs : s.Bound)
    (h : ∀ s', s.step l = some s' → s'.Kept) : s.KeepsObject l := by
  obtain ⟨i, a⟩ := l
  cases a with
  | registerObject handler => trivial
  | access id a =>
    cases a with
    | go =>
      -- The access leads to `t`, which has no typed reference if the id is not registered.
      have hkept : ∀ t, (s.lives id).step id (i, .go) = some t →
          ∀ x ∈ t.handles, x.kind = .typed → t.handler ≠ none := by
        intro t ht x hmem htyped
        have hstep : s.step (i, .access id .go) =
            some { s with lives := Function.update s.lives id t } := by
          simp [ObjectTable.step, Action.isRegister, Registry.step, family, ht]
        have hkept := h _ hstep id x
        simp only [Function.update_self] at hkept
        exact hkept hmem htyped
      rw [KeepsObject]
      split
      · next service hops =>
        intro x hmem htyped
        exact hkept _ (Life.step_unregistering id hops) x hmem htyped rfl
      · next handler hops =>
        intro st hst hroom
        have hpublished := (hs.sound.tallied id st hst).published
        obtain ⟨st', hst'⟩ := hpublished.exists_increaseLocal_iff.mpr hroom
        have hafter := hkept _ (Life.step_downcasting id hops hst hst') ⟨.typed, handler, true⟩
          List.mem_cons_self rfl
        exact hafter
      · trivial
    | _ => trivial

/-- Every typed reference that is alive can be erased exactly if all their ids are registered and can
be counted. -/
theorem Bound.refsUsable_iff {s : ObjectTable} (hs : s.Bound) (addr : Addr) :
    s.RefsUsable addr ↔ s.Kept ∧ s.Countable := by
  constructor
  · intro husable
    exact ⟨fun id x hmem htyped => ((hs.erases_iff hmem).mp (husable id x hmem htyped)).1,
      fun id x hmem htyped => ((hs.erases_iff hmem).mp (husable id x hmem htyped)).2⟩
  · rintro ⟨hkept, hcountable⟩ id x hmem htyped
    exact (hs.erases_iff hmem).mpr ⟨hkept id x hmem htyped, hcountable id x hmem htyped⟩

/-- In a run, every typed reference that is alive can always be erased, to a handle of its own id and
handler, exactly if no drop of a guard takes an object out while a typed reference to it is alive, no
downcast that found the object counts after it was taken out, and no count of a live typed reference
has reached the largest `u32`. What is true of `as_erased` is true of the two methods that call it;
and one that has found the handler goes on to return it whatever other threads do.

**Proof sketch.** Everything of an id has the handler that it was registered with, so it is only the
lookup and the count that can fail. Typed references are made by a downcast, by `to_service`, which
finds the object as long as the guard is retained, and from others; the object is taken out in one
place. -/
theorem refsUsable_always_iff (addr : Addr) (ls : List (ℕ × TableAction)) :
    (Always step (RefsUsable addr) new ls ↔
      Along step KeepsObject new ls ∧ Always step Countable new ls) ∧
    (∀ dev (r : BinderObjectRef),
      (ToBinderObjectOrRef.typed r).toBinderObjectOrRef dev =
        (r.asErased dev).map (fun x => (.object x.1, x.2)) ∧
      ∀ undef (b : PayloadBuilder),
        (b.pushBinderRef undef dev (.typed r)).isSome = (r.asErased dev).isSome) ∧
    (∀ s, exec step new ls = some s → ∀ id i handler,
      (s.lives id).ops i = some (.borrowing handler) → ∀ s',
        s.step (i, .access id .go) = some s' → ∃ counted,
          (s'.lives id).handles = ⟨.borrowed, handler, counted⟩ :: (s.lives id).handles ∧
            ∀ x ∈ (s.lives id).handles, x.handler = handler) := by
  refine ⟨?_, fun dev r => ⟨r.toBinderObjectOrRef_eq dev, fun undef b =>
    r.isSome_pushBinderRef undef dev b⟩, fun s h id i handler hops s' hstep => ?_⟩
  · have hkept : new.Kept := fun _ _ hmem => (by cases hmem)
    rw [always_congr Bound.step (fun hs => hs.refsUsable_iff addr) bound_new, always_and_iff,
      always_iff_along Bound.step Kept.step keepsObject_of_kept bound_new hkept]
  · have hs : s.Bound := exec_invariant Bound.step bound_new h
    obtain ⟨handler₀, hbound⟩ := hs.bound id
    obtain rfl := hbound.found i _ hops handler rfl
    rw [ObjectTable.step] at hstep
    split_ifs at hstep
    obtain ⟨lives, hlives, rfl⟩ := Option.map_eq_some_iff.mp hstep
    obtain ⟨t, ht, rfl⟩ := Option.map_eq_some_iff.mp hlives
    simp only [Life.step, hops] at ht
    obtain ⟨s₁, hs₁, rfl⟩ := Option.map_eq_some_iff.mp ht
    simp only [Function.update_self]
    rcases Life.newHandle_eq_some hs₁ with ⟨st, st', -, -, rfl⟩ | ⟨-, rfl⟩
    · exact ⟨true, rfl, hbound.handles⟩
    · exact ⟨false, rfl, hbound.handles⟩

/-- A handle is made of a registered object and downcast, and the guard is dropped up to its first
removal. -/
def droppedUnderRef : List (ℕ × TableAction) :=
  (0, .registerObject ⟨7⟩) ::
    [(0, .toBinderObjectOrRef), (0, .downcast true), (0, .go), (0, .dropGuard), (0, .go)].map
      fun l => (l.1, .access ⟨1, 0⟩ l.2)

/-- The typed reference is alive, and erasing it, converting it and pushing it all panic. -/
theorem droppedUnderRef_asErased : ∃ s, exec step new droppedUnderRef = some s ∧
    ⟨.typed, ⟨7⟩, true⟩ ∈ (s.lives ⟨1, 0⟩).handles ∧
    BinderObjectRef.asErased (s.device 100) ⟨100, ⟨1, 0⟩, ⟨7⟩⟩ = none ∧
    (ToBinderObjectOrRef.typed ⟨100, ⟨1, 0⟩, ⟨7⟩⟩).toBinderObjectOrRef (s.device 100) = none ∧
    PayloadBuilder.new.pushBinderRef (fun _ => 0) (s.device 100)
      (.typed ⟨100, ⟨1, 0⟩, ⟨7⟩⟩) = none :=
  ⟨_, rfl, List.mem_cons_self, rfl, rfl, rfl⟩

end ObjectTable

end BinderBinder
