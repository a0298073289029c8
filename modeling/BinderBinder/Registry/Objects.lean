import BinderBinder.Registry.Service

set_option relaxedAutoImplicit false
set_option autoImplicit false

/-!
# The objects of a device

All ids of a device, each with its life. The entries of one id do not depend on those of another, so
an access to one id leaves the others alone; which threads of two ids are the same is not said.

## Main definitions

* `Registry`, `Registry.step` — the lives of all ids, and an access to one of them.
* `Registry.Agrees` — the maps of a device are those of a registry.
* `Registry.ServicesUnreferenced` — services were torn down only when unreferenced.

## Main results

* `Registry.exec_fromId`, `Registry.exec_clone`, `Registry.exec_drop`, `Registry.exec_remote` — run
  without interruption, the accesses are the methods of a handle and of the dispatch loop.
* `Registry.servicesUnreferenced_along` — a run that takes no late reference tears services down
  only when unreferenced.
* `Registry.upgrade_during_cleanup` — a run that takes one does not.
-/

namespace BinderBinder

/-- The lives of all ids of a device. -/
abbrev Registry := BinderObjectId → Life

namespace Registry

/-- A device nothing was registered on. -/
def new : Registry := fun _ => Life.unborn

/-- An access to one id. -/
def step : Registry → BinderObjectId × ℕ × Action → Option Registry := Run.family Life.step

/-! ## The methods, run without interruption -/

/-- The entries of the device are those of the registry. -/
def Agrees (s : Registry) (dev : BinderDevice) : Prop :=
  ∀ id, (s id).handler = dev.objects id ∧ (s id).refcounts = dev.objectRefcounts id

/-- A new registry is that of a new device. -/
theorem agrees_new (addr : Addr) : new.Agrees (BinderDevice.new addr) := fun _ => ⟨rfl, rfl⟩

section Methods

variable {s : Registry} {dev dev' : BinderDevice} {id : BinderObjectId} {i : ℕ}

/-- The counts of an id change on both sides. -/
theorem Agrees.insert (hs : s.Agrees dev) {t : Life} {st : ObjectRefState}
    (hhandler : t.handler = (s id).handler) (hrefcounts : t.refcounts = some st) :
    Agrees (Function.update s id t)
      { dev with objectRefcounts := dev.objectRefcounts.insert id st } := by
  intro id'
  by_cases hid : id' = id
  · subst hid
    rw [Function.update_self, hhandler, hrefcounts]
    exact ⟨(hs id').1, by simp⟩
  · rw [Function.update_of_ne hid]
    exact ⟨(hs id').1, (hs id').2.trans (DashMap.insert_of_ne _ _ hid).symm⟩

/-- The entries of an id stay as they are on both sides. -/
theorem Agrees.update (hs : s.Agrees dev) {t : Life} (hhandler : t.handler = (s id).handler)
    (hrefcounts : t.refcounts = (s id).refcounts) : Agrees (Function.update s id t) dev := by
  intro id'
  by_cases hid : id' = id
  · subst hid
    rw [Function.update_self, hhandler, hrefcounts]
    exact hs id'
  · rw [Function.update_of_ne hid]
    exact hs id'

/-- An access to an id is one of its life. -/
theorem exec_one {l : ℕ × Action} {t : Life} (h : (s id).step id l = some t) :
    Run.exec step s [(id, l)] = some (Function.update s id t) := by
  rw [Run.exec_cons, step, Run.family, h]
  rfl

/-- Two accesses to an id, one after the other, are two of its life. -/
theorem exec_two {l m : ℕ × Action} {t u : Life} (ht : (s id).step id l = some t)
    (hu : t.step id m = some u) :
    Run.exec step s [(id, l), (id, m)] = some (Function.update s id u) := by
  refine Run.exec_append_eq_some.mpr ⟨_, exec_one ht, ?_⟩
  rw [← Function.update_idem t u s]
  exact exec_one (by rwa [Function.update_self])

/-- A counted or uncounted handle is made on both sides. -/
theorem Agrees.newHandle (hs : s.Agrees dev) {b : Bool} (h : dev.increaseLocal id = some (b, dev'))
    (kind : HandleKind) (handler : HandlerRef) :
    ∃ t, (s id).newHandle kind handler = some t ∧
      t.handles = ⟨kind, handler, b⟩ :: (s id).handles ∧
      ∀ ops, Agrees (Function.update s id { t with ops }) dev' := by
  rcases BinderDevice.refOp_eq_some h with ⟨hnone, rfl, rfl⟩ | ⟨st, st', hst, hst', rfl, rfl⟩
  · have hrefcounts : (s id).refcounts = none := (hs id).2.trans hnone
    exact ⟨_, Life.newHandle_of_none hrefcounts kind handler, rfl, fun ops => hs.update rfl rfl⟩
  · have hrefcounts : (s id).refcounts = some st := (hs id).2.trans hst
    exact ⟨_, Life.newHandle_of_some hrefcounts hst' kind handler, rfl,
      fun ops => hs.insert rfl rfl⟩

/-- `BorrowedBinderObject::from_id`, which decoding, `upgrade` and `as_erased` are: the two lookups,
one after the other. -/
theorem exec_fromId (hs : s.Agrees dev) (hidle : (s id).ops i = none) {o : BorrowedBinderObject}
    (h : BorrowedBinderObject.fromId dev id = some (some o, dev')) :
    ∃ s', Run.exec step s [(id, i, .fromId), (id, i, .go)] = some s' ∧ s'.Agrees dev' ∧
      (s' id).handles = ⟨.borrowed, o.handler, o.increasedLocalRef⟩ :: (s id).handles := by
  rcases BorrowedBinderObject.fromId_cases h with ⟨-, hnone, -⟩ | ⟨handler, b, hhandler, hinc, heq⟩
  · cases hnone
  · cases heq
    have hlookup : (s id).step id (i, .fromId) =
        some ((s id).setOp i (some (.borrowing handler))) := by
      simp [Life.step, hidle, Life.begin, (hs id).1, hhandler]
    obtain ⟨t, ht, hhandles, hagrees⟩ := hs.newHandle hinc .borrowed handler
    have hcount : ((s id).setOp i (some (.borrowing handler))).step id (i, .go) =
        some ((t.setOp i (some (.borrowing handler))).setOp i none) := by
      simp [Life.step, Life.go, Life.newHandle_setOp, ht]
    refine ⟨_, exec_two hlookup hcount, hagrees _, ?_⟩
    rw [Function.update_self]
    exact hhandles

/-- `Clone for BorrowedBinderObject`. -/
theorem exec_clone (hs : s.Agrees dev) (hidle : (s id).ops i = none) {o o' : BorrowedBinderObject}
    (hid : o.id = id) (hmem : ⟨.borrowed, o.handler, o.increasedLocalRef⟩ ∈ (s id).handles)
    (h : o.clone dev = some (o', dev')) :
    ∃ s', Run.exec step s [(id, i, .clone ⟨.borrowed, o.handler, o.increasedLocalRef⟩)] = some s' ∧
      s'.Agrees dev' ∧
      (s' id).handles = ⟨.borrowed, o'.handler, o'.increasedLocalRef⟩ :: (s id).handles := by
  subst hid
  obtain ⟨⟨b, dev₁⟩, hinc, heq⟩ := Option.map_eq_some_iff.mp h
  cases heq
  obtain ⟨t, ht, hhandles, hagrees⟩ := hs.newHandle hinc .borrowed o.handler
  refine ⟨_, exec_one (t := t) ?_, hagrees t.ops, ?_⟩
  · simp [Life.step, hidle, Life.begin, hmem, ht]
  · rw [Function.update_self]
    exact hhandles

/-- `Drop for BorrowedBinderObject`. -/
theorem exec_drop (hs : s.Agrees dev) (hidle : (s id).ops i = none) {o : BorrowedBinderObject}
    (hid : o.id = id) (hmem : ⟨.borrowed, o.handler, o.increasedLocalRef⟩ ∈ (s id).handles)
    (h : o.drop dev = some dev') :
    ∃ s', Run.exec step s [(id, i, .dropHandle ⟨.borrowed, o.handler, o.increasedLocalRef⟩)] =
        some s' ∧
      s'.Agrees dev' ∧
      (s' id).handles = (s id).handles.erase ⟨.borrowed, o.handler, o.increasedLocalRef⟩ := by
  subst hid
  have hdrop : ∀ {t : Life}, (s o.id).dropHandle ⟨.borrowed, o.handler, o.increasedLocalRef⟩ = some t →
      Run.exec step s [(o.id, i, .dropHandle ⟨.borrowed, o.handler, o.increasedLocalRef⟩)] =
        some (Function.update s o.id t) := by
    intro t ht
    exact exec_one (by simp [Life.step, hidle, Life.begin, hmem, ht])
  unfold BorrowedBinderObject.drop at h
  split_ifs at h with hcounted
  · obtain ⟨⟨b, dev₁⟩, hdec, rfl⟩ := Option.map_eq_some_iff.mp h
    rcases BinderDevice.refOp_eq_some hdec with ⟨hnone, -, rfl⟩ | ⟨st, st', hst, hst', -, rfl⟩
    · have hrefcounts : (s o.id).refcounts = none := (hs o.id).2.trans hnone
      exact ⟨_, hdrop (Life.dropHandle_of_none (Or.inl hrefcounts)), hs.update rfl rfl,
        by rw [Function.update_self]⟩
    · have hrefcounts : (s o.id).refcounts = some st := (hs o.id).2.trans hst
      exact ⟨_, hdrop (Life.dropHandle_of_some (Or.inr hcounted) hrefcounts hst'),
        hs.insert rfl rfl, by rw [Function.update_self]⟩
  · cases h
    exact ⟨_, hdrop (Life.dropHandle_of_none (Or.inr ⟨rfl, by simpa using hcounted⟩)),
      hs.update rfl rfl, by rw [Function.update_self]⟩

/-- A count of the dispatch loop or of a send. -/
theorem exec_remote (hs : s.Agrees dev) (hidle : (s id).ops i = none) {op : RefOp} {b : Bool}
    (hop : op.isRemote = true) (h : dev.refOp id op = some (b, dev')) :
    ∃ s', Run.exec step s [(id, i, .remote op)] = some s' ∧ s'.Agrees dev' := by
  rcases BinderDevice.refOp_eq_some h with ⟨hnone, -, rfl⟩ | ⟨st, st', hst, hst', -, rfl⟩
  · have hrefcounts : (s id).refcounts = none := (hs id).2.trans hnone
    refine ⟨_, exec_one (t := s id) ?_, hs.update rfl rfl⟩
    simp [Life.step, hidle, Life.begin, hop, hrefcounts]
  · have hrefcounts : (s id).refcounts = some st := (hs id).2.trans hst
    refine ⟨_, exec_one (t := { s id with refcounts := some st' }) ?_, hs.insert rfl rfl⟩
    simp [Life.step, hidle, Life.begin, hop, hrefcounts, hst']

end Methods

/-! ## The cleanup of services -/

/-- No reference to an object is taken once the cleanup of its service has stopped waiting. -/
def NoLateReference (s : Registry) (l : BinderObjectId × ℕ × Action) : Prop :=
  (s l.1).NoLateReference l.2

/-- Services were torn down only when unreferenced. -/
def ServicesUnreferenced (s : Registry) : Prop := ∀ id, (s id).TornDownUnreferenced

/-- A run that takes no late reference tears services down only when unreferenced.

**Proof sketch.** The refcounts of an id tell how many of its handles are counted. A cleanup stops
waiting at a published total of zero, which is the total of the counters; from there on only what
takes a reference can raise it. So each of its three removals finds zero, and with it no handle that
is counted. -/
theorem servicesUnreferenced_along {s : Registry} {ls : List (BinderObjectId × ℕ × Action)}
    (hlate : Run.Along step NoLateReference new ls) (h : Run.exec step new ls = some s) :
    s.ServicesUnreferenced := by
  have hnew : ∀ id, (new id).Owned ∧ (new id).Tallied ∧ (new id).Quiet :=
    fun _ => ⟨Life.owned_unborn, Life.tallied_unborn, Life.quiet_unborn⟩
  have hcalm : ∀ id, (s id).Owned ∧ (s id).Tallied ∧ (s id).Quiet := by
    refine Run.family_exec_invariant_along (C := fun _ => Life.NoLateReference)
      (I := fun _ t => t.Owned ∧ t.Tallied ∧ t.Quiet) ?_ hnew hlate h
    rintro id t l t' ⟨howned, htally, hquiet⟩ hC ht
    exact ⟨howned.step ht, htally.step howned ht, hquiet.step howned htally hC ht⟩
  intro id
  exact ⟨(hcalm id).2.2.clean, (hcalm id).2.2.free⟩

/-- Thread 0 registers an object and makes it a service, whose cleanup it waits for; thread 1 drops
the reference that it gets, and the cleanup sees that. -/
def served : List (BinderObjectId × ℕ × Action) :=
  [.register ⟨7⟩, .toService, .go, .go, .go].map (fun a => (⟨1, 0⟩, 0, a)) ++
    [(⟨1, 0⟩, 1, .dropHandle ⟨.typed, ⟨7⟩, true⟩), (⟨1, 0⟩, 0, .go)]

/-- The cleanup goes on with its three removals. -/
def cleanedUp : List (BinderObjectId × ℕ × Action) := List.replicate 3 (⟨1, 0⟩, 0, .go)

/-- Thread 1 upgrades a weak handle. -/
def upgraded : List (BinderObjectId × ℕ × Action) :=
  [(⟨1, 0⟩, 1, .fromId), (⟨1, 0⟩, 1, .go)]

/-- A service that is dropped is torn down, and nothing was left. -/
theorem service_cleanedUp : ∃ s, Run.exec step new (served ++ cleanedUp) = some s ∧
    (s ⟨1, 0⟩).guard = .dropped true ∧ s.ServicesUnreferenced := by
  have hplain : ∀ {s : Registry} {l : BinderObjectId × ℕ × Action},
      (s l.1).takesReference l.2 = false → s.NoLateReference l := fun h _ => h
  have hlate : Run.Along step NoLateReference new (served ++ cleanedUp) := by
    refine (Run.along_cons_iff rfl).mpr ⟨hplain rfl, ?_⟩
    refine (Run.along_cons_iff rfl).mpr ⟨hplain rfl, ?_⟩
    refine (Run.along_cons_iff rfl).mpr ⟨hplain rfl, ?_⟩
    refine (Run.along_cons_iff rfl).mpr ⟨?_, ?_⟩
    · -- The reference that `to_service` returns is taken before the cleanup starts.
      rintro ⟨i, o, ho, hdoomed⟩
      change Function.update (Function.update (fun _ => none) 0 (some Op.serving)) 0
        (some (.servingCount ⟨7⟩)) i = some o at ho
      by_cases hi : i = 0
      · subst hi
        cases ho
        cases hdoomed
      · simp [hi] at ho
    refine (Run.along_cons_iff rfl).mpr ⟨hplain rfl, ?_⟩
    refine (Run.along_cons_iff rfl).mpr ⟨hplain rfl, ?_⟩
    refine (Run.along_cons_iff rfl).mpr ⟨hplain rfl, ?_⟩
    refine (Run.along_cons_iff rfl).mpr ⟨hplain rfl, ?_⟩
    refine (Run.along_cons_iff rfl).mpr ⟨hplain rfl, ?_⟩
    exact (Run.along_cons_iff rfl).mpr ⟨hplain rfl, trivial⟩
  exact ⟨_, rfl, rfl, servicesUnreferenced_along hlate rfl⟩

/-- An upgrade between the cleanup's observation of zero and its removals succeeds, and leaves a
counted handle to a service that is gone. -/
theorem upgrade_during_cleanup : ∃ s, Run.exec step new (served ++ upgraded ++ cleanedUp) = some s ∧
    (s ⟨1, 0⟩).guard = .dropped true ∧ ⟨.borrowed, ⟨7⟩, true⟩ ∈ (s ⟨1, 0⟩).handles ∧
    (s ⟨1, 0⟩).handler = none ∧ ¬ s.ServicesUnreferenced := by
  refine ⟨_, rfl, rfl, List.mem_cons_self, rfl, fun h => ?_⟩
  have hcounted := (h ⟨1, 0⟩).2 (List.cons_ne_nil _ _) ⟨.borrowed, ⟨7⟩, true⟩ List.mem_cons_self
  cases hcounted

end Registry

end BinderBinder
