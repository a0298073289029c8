import BinderBinder.Lib.WeakCache
import BinderBinder.Refs.Life

set_option relaxedAutoImplicit false
set_option autoImplicit false

/-!
# Deduplication of references

A decode looks for the reference of its handle in the map, and if there is none it makes one and
inserts it. Between the lookup and the insertion other decodes do the same: then two references are
alive, and the map finds one of them. There is at most one of each kind, which the map finds, exactly
as long as no decode inserts its reference over one that is alive.

## Main definitions

* `RemoteHandle.refCache`, `RemoteHandle.weakCache` — the two maps, as caches.
* `RemoteHandle.Deduplicated` — at most one reference of each kind is alive, and `upgrade` finds it.
* `RemoteHandle.InsertsFree` — a decode does not insert its reference over one that is alive.

## Main results

* `RemoteHandle.Effect.refCache`, `RemoteHandle.Effect.weakCache` — a step is one of each cache.
* `RemoteHandle.Cached.step` — a step that inserts over nothing alive keeps both maps complete.
* `RemoteHandle.deduplicated_iff` — when references are deduplicated in every state of a run.
-/

namespace BinderBinder

open Run

namespace RemoteHandle

/-! ## The two caches -/

/-- `refs`, and the references. -/
def refCache (s : RemoteHandle) : WeakCache ℕ :=
  ⟨s.refs, s.RefAlive, s.nextRef, RefPhase.makingRef ∘ s.phase⟩

/-- `weak_refs`, and the weak references. -/
def weakCache (s : RemoteHandle) : WeakCache ℕ :=
  ⟨s.weakRefs, s.WeakAlive, s.deathCounter, RefPhase.makingWeak ∘ s.phase⟩

/-- In the step, the thread `t` inserts the new reference `i` into `refs`. -/
def InsertsRef (s : RemoteHandle) (a : HandleAction) (t i : ℕ) : Prop :=
  a = .go t ∧ s.phase t = .insertingRef i

/-- In the step, the thread `t` inserts the new weak reference `c` into `weak_refs`. -/
def InsertsWeak (s : RemoteHandle) (a : HandleAction) (t c : ℕ) : Prop :=
  a = .go t ∧ ∃ forRef, s.phase t = .insertingWeak forRef c

/-- `remove_if` takes a pointer out of its map only if it is dead. -/
theorem removeIf_eq_or (entry : Option ℕ) (strong : ℕ → ℕ) :
    (if entry.any fun k => strong k == 0 then none else entry) = entry ∨
      ¬ ∃ k, entry = some k ∧ strong k ≠ 0 := by
  by_cases hdead : (entry.any fun k => strong k == 0) = true
  · right
    rintro ⟨k, rfl, halive⟩
    rw [Option.any_some, beq_iff_eq] at hdead
    exact halive hdead
  · exact Or.inl (if_neg hdead)

/-- A reference that is inserted is alive from then on. -/
theorem refCache_insertRef (s : RemoteHandle) (t i : ℕ) :
    ({ s with refs := some i, refArcs := i :: s.refArcs }.setPhase t .idle).refCache =
      s.refCache.insert t i := by
  have halive : { s with refArcs := i :: s.refArcs }.RefAlive = fun j => s.RefAlive j ∨ j = i := by
    funext j
    rw [refAlive_iff, refAlive_iff, List.mem_cons, or_comm]
  show WeakCache.mk (some i) { s with refArcs := i :: s.refArcs }.RefAlive s.nextRef
    (RefPhase.makingRef ∘ (s.setPhase t .idle).phase) = _
  rw [halive, comp_setPhase]
  rfl

/-- A thread goes on that constructs the same reference as before. -/
theorem refCache_setPhase {s : RemoteHandle} {t : ℕ} {p : RefPhase}
    (hmaking : p.makingRef = (s.phase t).makingRef) : (s.setPhase t p).refCache = s.refCache :=
  congrArg (WeakCache.mk s.refs s.RefAlive s.nextRef) (comp_setPhase_of_eq hmaking)

/-- What the decode of a weak reference does to the references: it may start to construct one. -/
theorem refCache_takeWeak {s : RemoteHandle} {a : HandleAction} {t : ℕ} (c : ℕ) (forRef : Bool)
    (hmaking : (s.phase t).makingRef = none) :
    s.refCache.Step (s.InsertsRef a) (s.takeWeak t c forRef).refCache := by
  cases forRef with
  | false =>
    have hsame : (s.takeWeak t c false).refCache = s.refCache := refCache_setPhase hmaking.symm
    rw [hsame]
    exact .refl
  | true =>
    have hdraw : (s.takeWeak t c true).refCache = s.refCache.draw t := by
      show WeakCache.mk s.refs s.RefAlive (s.nextRef + 1)
        (RefPhase.makingRef ∘ (s.setPhase t (.acquiring s.nextRef)).phase) = _
      rw [comp_setPhase]
      rfl
    rw [hdraw]
    exact .draw t

/-- What a step does to the references. -/
theorem Effect.refCache {s s' : RemoteHandle} {a : HandleAction} (h : s.Effect a s') :
    s.refCache.Step (s.InsertsRef a) s'.refCache := by
  cases h with
  | same hq | evictsWeak hq | clears _ hq | reads _ hq =>
    exact .of_lose (fun _ hi => hi) (Or.inl rfl) rfl hq.makingRef
  | handsWeak | dies => exact .refl
  | handsRef hq hi =>
    refine .of_lose (fun j hj => ?_) (Or.inl rfl) rfl hq.makingRef
    rcases List.mem_cons.mp (refAlive_iff.mp hj) with rfl | hj
    · exact hi
    · exact refAlive_iff.mpr hj
  | losesRef hq =>
    refine .of_lose (fun j hj => ?_) (Or.inl rfl) rfl hq.makingRef
    exact refAlive_iff.mpr (List.mem_of_mem_erase (refAlive_iff.mp hj))
  | @insertsRef t i ha hp =>
    rw [refCache_insertRef]
    exact .insert t i (congrArg RefPhase.makingRef hp) ⟨ha, hp⟩
  | evictsRef hq =>
    exact .of_lose (fun _ hi => hi) (removeIf_eq_or s.refs s.refStrong) rfl hq.makingRef
  | @findsWeak t c forRef hp hc => exact refCache_takeWeak c forRef (congrArg RefPhase.makingRef hp)
  | @insertsWeak t forRef c ha hp =>
    exact refCache_takeWeak (s := { s with weakRefs := some c }) c forRef
      (congrArg RefPhase.makingRef hp)
  | losesWeak hp | losesField hp =>
    rw [leaveWeak, refCache_setPhase]
    · exact .refl
    · split_ifs <;> exact (congrArg RefPhase.makingRef hp).symm
  | draws hp | filesToken hp | requests _ hp | removesToken hp =>
    rw [refCache_setPhase]
    · exact .refl
    · exact (congrArg RefPhase.makingRef hp).symm

/-- A thread goes on that constructs the same weak reference as before. -/
theorem weakCache_setPhase {s : RemoteHandle} {t : ℕ} {p : RefPhase}
    (hmaking : p.makingWeak = (s.phase t).makingWeak) : (s.setPhase t p).weakCache = s.weakCache :=
  congrArg (WeakCache.mk s.weakRefs s.WeakAlive s.deathCounter) (comp_setPhase_of_eq hmaking)

/-- What a thread constructs behind the decode of a weak reference. -/
theorem makingWeak_takeWeak (s : RemoteHandle) (t c : ℕ) (forRef : Bool) :
    RefPhase.makingWeak ∘ (s.takeWeak t c forRef).phase =
      Function.update (RefPhase.makingWeak ∘ s.phase) t none := by
  cases forRef with
  | false => exact comp_setPhase RefPhase.makingWeak s t .idle
  | true => exact comp_setPhase RefPhase.makingWeak s t (.acquiring s.nextRef)

/-- A weak reference that is inserted is alive from then on. -/
theorem weakCache_insertWeak (s : RemoteHandle) (t c : ℕ) (forRef : Bool) :
    ({ s with weakRefs := some c }.takeWeak t c forRef).weakCache = s.weakCache.insert t c := by
  rw [weakCache, weakAlive_takeWeak, makingWeak_takeWeak]
  cases forRef <;> rfl

/-- A weak reference that is found gets one more handle. -/
theorem weakCache_takeWeak {s : RemoteHandle} {t c : ℕ} (forRef : Bool) (hc : s.WeakAlive c)
    (hmaking : (s.phase t).makingWeak = none) :
    (s.takeWeak t c forRef).weakCache = s.weakCache := by
  have halive : (s.takeWeak t c forRef).WeakAlive = s.WeakAlive := by
    rw [weakAlive_takeWeak]
    funext d
    refine propext (or_iff_left_of_imp ?_)
    rintro rfl
    exact hc
  rw [weakCache, makingWeak_takeWeak, halive, ← hmaking]
  cases forRef with
  | false => exact congrArg (WeakCache.mk _ _ _) (Function.update_eq_self t _)
  | true => exact congrArg (WeakCache.mk _ _ _) (Function.update_eq_self t _)

/-- What a step does to the weak references. -/
theorem Effect.weakCache {s s' : RemoteHandle} {a : HandleAction} (h : s.Effect a s') :
    s.weakCache.Step (s.InsertsWeak a) s'.weakCache := by
  cases h with
  | same hq | handsRef hq | losesRef hq | evictsRef hq | clears _ hq | reads _ hq =>
    exact .of_lose (fun _ hc => hc) (Or.inl rfl) rfl hq.makingWeak
  | dies => exact .refl
  | insertsRef _ hp | filesToken hp | requests _ hp | removesToken hp =>
    rw [weakCache_setPhase]
    · exact .refl
    · exact (congrArg RefPhase.makingWeak hp).symm
  | findsWeak hp hc =>
    rw [weakCache_takeWeak _ hc (congrArg RefPhase.makingWeak hp)]
    exact .refl
  | handsWeak hc => exact .of_lose (fun _ => weakAlive_of_consArc hc) (Or.inl rfl) rfl rfl
  | losesWeak hp =>
    rw [leaveWeak, weakCache_setPhase]
    · exact .of_lose (fun _ => weakAlive_of_eraseArc) (Or.inl rfl) rfl rfl
    · split_ifs <;> exact (congrArg RefPhase.makingWeak hp).symm
  | losesField hp =>
    rw [leaveWeak, weakCache_setPhase]
    · exact .of_lose (fun _ => weakAlive_of_eraseField) (Or.inl rfl) rfl rfl
    · split_ifs <;> exact (congrArg RefPhase.makingWeak hp).symm
  | @draws t forRef hp =>
    have hdraw : ({ s with deathCounter := s.deathCounter + 1 }.setPhase t
        (.insertingToken forRef s.deathCounter)).weakCache = s.weakCache.draw t := by
      show WeakCache.mk s.weakRefs s.WeakAlive (s.deathCounter + 1)
        (RefPhase.makingWeak ∘ (s.setPhase t (.insertingToken forRef s.deathCounter)).phase) = _
      rw [comp_setPhase]
      rfl
    rw [hdraw]
    exact .draw t
  | @insertsWeak t forRef c ha hp =>
    rw [weakCache_insertWeak]
    exact .insert t c (congrArg RefPhase.makingWeak hp) ⟨ha, forRef, hp⟩
  | evictsWeak hq =>
    exact .of_lose (fun _ hc => hc) (removeIf_eq_or s.weakRefs s.weakStrong) rfl hq.makingWeak

/-! ## Deduplication -/

/-- At most one reference and at most one weak reference are alive with their construction finished,
so that two decodes whose results are alive gave the same one, and `upgrade` finds the reference. -/
structure Deduplicated (s : RemoteHandle) : Prop where
  ref : ∀ i j, s.RefAlive i → s.RefAlive j → i = j
  weak : ∀ c d, s.WeakAlive c → s.WeakAlive d → c = d
  upgrade : ∀ i, s.RefAlive i → s.upgradeRef = some i

/-- If the step inserts a new reference into its map, then what the map points at is dead. -/
structure InsertsFree (s : RemoteHandle) (a : HandleAction) : Prop where
  ref : ∀ t i, s.InsertsRef a t i → ¬ s.refCache.Live
  weak : ∀ t c, s.InsertsWeak a t c → ¬ s.weakCache.Live

/-- References under construction are new and belong to one thread each. -/
structure Owned (s : RemoteHandle) : Prop where
  ref : s.refCache.keys.Owned
  weak : s.weakCache.keys.Owned

/-- Both maps find what is alive. -/
structure Cached (s : RemoteHandle) : Prop where
  ref : s.refCache.Complete
  weak : s.weakCache.Complete

/-- Nothing is under construction yet. -/
theorem owned_new (handle : UInt32) : (new handle).Owned where
  ref := .of_none (not_refAlive_new handle) fun _ => rfl
  weak := .of_none (not_weakAlive_new handle) fun _ => rfl

/-- **Step.** References under construction stay new and with their threads. -/
theorem Owned.step {s s' : RemoteHandle} {a : HandleAction} (hs : s.Owned)
    (h : s.step a = some s') : s'.Owned where
  ref := hs.ref.step (step_effect h).refCache.keys
  weak := hs.weak.step (step_effect h).weakCache.keys

/-- Nothing is alive yet. -/
theorem cached_new (handle : UInt32) : (new handle).Cached where
  ref i hi := absurd hi (not_refAlive_new handle i)
  weak c hc := absurd hc (not_weakAlive_new handle c)

/-- What the maps find is all there is. -/
theorem Cached.deduplicated {s : RemoteHandle} (h : s.Cached) : s.Deduplicated where
  ref _ _ hi hj := h.ref.unique hi hj
  weak _ _ hc hd := h.weak.unique hc hd
  upgrade i hi := upgradeRef_eq_some.mpr ⟨h.ref i hi, hi⟩

/-- **Step.** Both maps go on finding what is alive, unless a decode inserts its reference over one
that is alive. -/
theorem Cached.step {s s' : RemoteHandle} {a : HandleAction} (hs : s.Cached)
    (hfree : s.InsertsFree a) (h : s.step a = some s') : s'.Cached where
  ref := hs.ref.step hfree.ref (step_effect h).refCache
  weak := hs.weak.step hfree.weak (step_effect h).weakCache

/-- A step behind which references are deduplicated has not inserted one over one that is alive.

**Proof sketch.** The reference that is inserted is new, so it is not the one that the map points at,
and both would be alive. -/
theorem insertsFree_of_deduplicated {s : RemoteHandle} {a : HandleAction} (hs : s.Owned)
    (h : ∀ s', s.step a = some s' → s'.Deduplicated) : s.InsertsFree a := by
  constructor
  · rintro t i ⟨rfl, hp⟩
    have hstep : s.step (.go t) =
        some ({ s with refs := some i, refArcs := i :: s.refArcs }.setPhase t .idle) := by
      rw [step, hp]
      rfl
    have hunique := (h _ hstep).ref
    have hcache := congrArg WeakCache.alive (refCache_insertRef s t i)
    refine WeakCache.not_live_of_insert hs.ref (congrArg RefPhase.makingRef hp) fun j k hj hk => ?_
    rw [← hcache] at hj hk
    exact hunique j k hj hk
  · rintro t c ⟨rfl, forRef, hp⟩
    have hstep : s.step (.go t) = some ({ s with weakRefs := some c }.takeWeak t c forRef) := by
      rw [step, hp]
      rfl
    have hunique := (h _ hstep).weak
    have hcache := congrArg WeakCache.alive (weakCache_insertWeak s t c forRef)
    refine WeakCache.not_live_of_insert hs.weak (congrArg RefPhase.makingWeak hp) fun j k hj hk => ?_
    rw [← hcache] at hj hk
    exact hunique j k hj hk

/-- **References are deduplicated** in every state of a run of any number of threads exactly if no
decode inserts its new reference while the one that the map points at is alive. -/
theorem deduplicated_iff (handle : UInt32) (as : List HandleAction) :
    Always step Deduplicated (new handle) as ↔ Along step InsertsFree (new handle) as := by
  constructor
  · exact along_of_always (I := Owned) (fun hs h => hs.step h)
      (fun hs h => insertsFree_of_deduplicated hs h) (owned_new handle)
  · exact always_of_along (I := Cached) (fun hs hfree h => hs.step hfree h)
      (fun hs => hs.deduplicated) (cached_new handle)

/-- Two threads decode the handle at the same time. Both look into both maps before either inserts
anything. -/
def decodedTwice : List HandleAction :=
  [.decodeRef 0, .decodeRef 1, .go 0, .go 1, .go 0, .go 1] ++ List.replicate 5 (.go 0) ++
    List.replicate 5 (.go 1) ++ [.go 0, .go 0, .go 1, .go 1]

/-- Then two references and two weak references to one handle are alive, and `upgrade` finds one. -/
theorem not_deduplicated_decodedTwice :
    ∃ s, exec step (new 7) decodedTwice = some s ∧ s.RefAlive 0 ∧ s.RefAlive 1 ∧
      s.WeakAlive 1 ∧ s.WeakAlive 2 ∧ s.upgradeRef = some 1 ∧ ¬ s.Deduplicated := by
  obtain ⟨s, hrun, href, href', hweak, hweak', hupgrade⟩ :
      ∃ s, exec step (new 7) decodedTwice = some s ∧ s.refStrong 0 = 1 ∧ s.refStrong 1 = 1 ∧
        s.weakStrong 1 = 1 ∧ s.weakStrong 2 = 1 ∧ s.upgradeRef = some 1 :=
    ⟨_, rfl, rfl, rfl, rfl, rfl, rfl⟩
  have hzero : s.RefAlive 0 := by simp [RefAlive, href]
  have hone : s.RefAlive 1 := by simp [RefAlive, href']
  refine ⟨s, hrun, hzero, hone, by simp [WeakAlive, hweak], by simp [WeakAlive, hweak'], hupgrade,
    fun hdedup => ?_⟩
  have hsame : 0 = 1 := hdedup.ref 0 1 hzero hone
  omega

end RemoteHandle

end BinderBinder
