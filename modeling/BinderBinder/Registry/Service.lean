import Mathlib.Data.List.Count
import BinderBinder.Registry.Life

set_option relaxedAutoImplicit false
set_option autoImplicit false

/-!
# The cleanup of a service

`to_service` hands the guard of an object to `retained_services` and spawns a task that waits for a
published total of zero and then removes the guard, whose drop takes the other entries of the id
out. Nothing holds the maps or the counters between these accesses.

## Main definitions

* `Life.Owned` — where the guard of an id is, and who takes its entries out.
* `Life.Tallied` — the local counter is the number of handles that took a reference.
* `Life.NoLateReference` — no reference is taken once a cleanup has stopped waiting.
* `Life.TornDownUnreferenced` — what the removals of a cleanup should find and leave behind.
* `Life.Quiet` — the same as an invariant of the steps that take no late reference.

## Main results

* `Life.Owned.step`, `Life.Tallied.step` — every step preserves these.
* `Life.Quiet.step` — a step that takes no late reference preserves that all is quiet.
-/

namespace BinderBinder

namespace Life

/-! ## The guard -/

end Life

/-- The guard is in the hands of the program or of `retained_services`. -/
def Guard.held : Guard → Bool
  | .user _ | .retained _ => true
  | _ => false

namespace Life

/-- An id that was not given out has nothing. As long as its guard is not dropped, its refcounts are
there. The entries of an id are taken out by one thread at a time, while its guard is dropped. -/
structure Owned (s : Life) : Prop where
  unborn : s.guard = .unborn → s.handler = none ∧ s.refcounts = none ∧ s.handles = [] ∧
    s.removals = [] ∧ ∀ i, s.ops i = none
  present : s.refcounts = none → s.guard = .unborn ∨ ∃ service, s.guard = .dropped service
  dropper : ∀ i o, s.ops i = some o → o.drops = true → s.guard = .dropping
  unique : ∀ i j o o', s.ops i = some o → s.ops j = some o' → o.drops = true → o'.drops = true →
    i = j

/-- An id that was not given out is in order. -/
theorem owned_unborn : unborn.Owned where
  unborn _ := ⟨rfl, rfl, rfl, rfl, fun _ => rfl⟩
  present _ := Or.inl rfl
  dropper _ _ h := by cases h
  unique _ _ _ _ h := by cases h

/-- What is known to a thread was registered. -/
theorem Owned.born {s : Life} (hs : s.Owned) {i : ℕ} (h : s.Known i) : s.guard ≠ .unborn := by
  intro hguard
  obtain ⟨hhandler, -, hhandles, -, hops⟩ := hs.unborn hguard
  rcases h with h | h | h | h
  · exact h hguard
  · exact h hhandler
  · exact h (hops i)
  · exact h hhandles

/-- Where there are refcounts, there is a guard that was registered. -/
theorem Owned.born_of_refcounts {s : Life} (hs : s.Owned) {st : ObjectRefState}
    (h : s.refcounts = some st) : s.guard ≠ .unborn := by
  intro hguard
  rw [(hs.unborn hguard).2.1] at h
  cases h

/-- A thread that takes no entries out moves on, whatever happens to the counters and handles. -/
theorem Owned.moves {s : Life} (hs : s.Owned) {i : ℕ} {ops : ℕ → Option Op} (hops : s.Moves i ops)
    (hborn : s.guard ≠ .unborn) {refcounts : Option ObjectRefState} {handles : List Handle}
    (hsome : refcounts = none → s.refcounts = none) :
    Owned { s with refcounts, handles, ops } := by
  have hstay : ∀ j o, ops j = some o → o.drops = true → s.ops j = some o := by
    intro j o ho hdrops
    by_cases hj : j = i
    · subst hj
      rw [hops.after o ho] at hdrops
      cases hdrops
    · rwa [hops.others j hj] at ho
  refine ⟨fun h => (hborn h).elim, fun h => hs.present (hsome h), ?_, ?_⟩
  · intro j o ho hdrops
    exact hs.dropper j o (hstay j o ho hdrops) hdrops
  · intro j k o o' ho ho' hdrops hdrops'
    exact hs.unique j k o o' (hstay j o ho hdrops) (hstay k o' ho' hdrops') hdrops hdrops'

/-- Counters and handles change, and nothing else. -/
theorem Owned.counts {s : Life} (hs : s.Owned) (hborn : s.guard ≠ .unborn)
    {refcounts : Option ObjectRefState} {handles : List Handle}
    (hsome : refcounts = none → s.refcounts = none) : Owned { s with refcounts, handles } :=
  ⟨fun h => (hborn h).elim, fun h => hs.present (hsome h), hs.dropper, hs.unique⟩

/-- While the guard is held, the id has refcounts. -/
theorem Owned.refcounts_of_held {s : Life} (hs : s.Owned) (hheld : s.guard.held = true) :
    s.refcounts ≠ none := by
  intro h
  rcases hs.present h with hguard | ⟨service, hguard⟩ <;> simp [hguard, Guard.held] at hheld

/-- While entries are being taken out, the id has refcounts. -/
theorem Owned.refcounts_of_drops {s : Life} (hs : s.Owned) {i : ℕ} {o : Op} (ho : s.ops i = some o)
    (hdrops : o.drops = true) : s.refcounts ≠ none := by
  intro h
  simpa [hs.dropper i o ho hdrops] using hs.present h

/-- While the guard is held, no thread takes entries out. -/
theorem Owned.not_drops {s : Life} (hs : s.Owned) (hheld : s.guard.held = true) {i : ℕ} {o : Op}
    (ho : s.ops i = some o) : o.drops = false := by
  by_contra hdrops
  simp [hs.dropper i o ho (by simpa using hdrops), Guard.held] at hheld

/-- A thread gets hold of the guard, of which there is one. -/
theorem Owned.handOver {s : Life} (hs : s.Owned) {i : ℕ} {o : Op} {guard : Guard}
    {removals : List (Option ObjectRefState)} (hheld : s.guard.held = true)
    (hborn : guard ≠ .unborn) (hdrops : o.drops = true → guard = .dropping) :
    Owned ({ s with guard, removals }.setOp i (some o)) := by
  have hmine : ∀ j o', Function.update s.ops i (some o) j = some o' → o'.drops = true →
      j = i ∧ o' = o := by
    intro j o' ho' hd
    by_cases hj : j = i
    · subst hj
      rw [Function.update_self, Option.some_inj] at ho'
      exact ⟨rfl, ho'.symm⟩
    · rw [Function.update_of_ne hj] at ho'
      rw [hs.not_drops hheld ho'] at hd
      cases hd
  refine ⟨fun h => (hborn h).elim, fun h => (hs.refcounts_of_held hheld h).elim, ?_, ?_⟩
  · intro j o' ho' hd
    obtain ⟨-, rfl⟩ := hmine j o' ho' hd
    exact hdrops hd
  · intro j k o₁ o₂ ho₁ ho₂ hd₁ hd₂
    rw [(hmine j o₁ ho₁ hd₁).1, (hmine k o₂ ho₂ hd₂).1]

/-- A thread that takes entries out is the only one. -/
theorem Owned.only_of_update {s : Life} (hs : s.Owned) {i : ℕ} {o : Op} (ho : s.ops i = some o)
    (hdrops : o.drops = true) {o' : Option Op} {j : ℕ} {o'' : Op}
    (h : Function.update s.ops i o' j = some o'') (hd : o''.drops = true) : j = i := by
  by_contra hj
  rw [Function.update_of_ne hj] at h
  exact hj (hs.unique j i _ _ h ho hd hdrops)

/-- Every access keeps the guard in order. -/
theorem Owned.step {id : BinderObjectId} {s s' : Life} {l : ℕ × Action} (hs : s.Owned)
    (h : s.step id l = some s') : s'.Owned := by
  cases step_effect h with
  | nothing => exact hs
  | register hguard =>
    obtain ⟨-, -, -, -, hops⟩ := hs.unborn hguard
    refine ⟨by simp, by simp, ?_, ?_⟩
    · intro i o ho
      rw [hops i] at ho
      cases ho
    · intro i j o o' ho
      rw [hops i] at ho
      cases ho
  | move hknown hops => exact hs.moves hops (hs.born hknown) fun h => h
  | take _ hst _ hops _ => exact hs.moves hops (hs.born_of_refcounts hst) (by simp)
  | takeUncounted hknown _ hops => exact hs.moves hops (hs.born hknown) fun h => h
  | giveBack _ _ hst _ => exact hs.counts (hs.born_of_refcounts hst) (by simp)
  | @forget i h hmem _ =>
    exact hs.counts (hs.born (i := i) (Or.inr (Or.inr (Or.inr (List.ne_nil_of_mem hmem)))))
      fun h => h
  | remote _ _ hst _ => exact hs.counts (hs.born_of_refcounts hst) (by simp)
  | serve hguard _ => exact hs.handOver (by simp [hguard, Guard.held]) (by simp) (by simp [Op.drops])
  | dropGuard hguard _ => exact hs.handOver (by simp [hguard, Guard.held]) (by simp) (by simp)
  | cleanUp hguard _ => exact hs.handOver (by simp [hguard, Guard.held]) (by simp) (by simp)
  | @unregister i service hops =>
    have hguard : s.guard = .dropping := hs.dropper i _ hops rfl
    refine ⟨by simp [setOp, hguard], hs.present, fun _ _ _ _ => hguard, ?_⟩
    intro j k o o' ho ho' hdrops hdrops'
    rw [hs.only_of_update hops rfl ho hdrops, hs.only_of_update hops rfl ho' hdrops']
  | @uncount i service hops =>
    have hnone : ∀ j o, Function.update s.ops i none j = some o → o.drops = false := by
      intro j o ho
      by_contra hdrops
      have hj := hs.only_of_update hops rfl ho (by simpa using hdrops)
      subst hj
      simp at ho
    refine ⟨by simp [setOp], fun _ => Or.inr ⟨service, rfl⟩, ?_, ?_⟩
    · intro j o ho hdrops
      simp [hnone j o ho] at hdrops
    · intro j k o o' ho _ hdrops
      simp [hnone j o ho] at hdrops

/-! ## The handles -/

/-- The local counter is the number of handles that took a reference, and the typed ones all did. -/
structure Tally (st : ObjectRefState) (handles : List Handle) : Prop where
  published : st.Published
  counted : st.counts.localRefs = handles.countP Handle.counted
  typed : ∀ h ∈ handles, h.kind = .typed → h.counted = true

/-- The refcounts of an id, if there are any, tell how many handles took a reference. -/
def Tallied (s : Life) : Prop := ∀ st, s.refcounts = some st → Tally st s.handles

/-- An id that was not given out has no refcounts. -/
theorem tallied_unborn : unborn.Tallied := fun _ h => by cases h

namespace Tally

variable {st st' : ObjectRefState} {handles : List Handle}

/-- A new object has no handles. -/
theorem new (id : BinderObjectId) : Tally (ObjectRefState.new id) [] :=
  ⟨ObjectRefState.published_new id, rfl, by simp⟩

/-- A new handle takes a reference. -/
theorem take (h : Tally st handles) (hst' : st.step .increaseLocal = some st') (kind : HandleKind)
    (handler : HandlerRef) : Tally st' (⟨kind, handler, true⟩ :: handles) := by
  obtain ⟨hcounts, -, hpublished⟩ := ObjectRefState.step_eq_some.mp hst'
  rw [RefOp.apply_increaseLocal] at hcounts
  refine ⟨hpublished, ?_, ?_⟩
  · rw [hcounts.2, List.countP_cons_of_pos rfl, ← h.counted]
  · intro handle hmem hkind
    rcases List.mem_cons.mp hmem with rfl | hmem
    · rfl
    · exact h.typed handle hmem hkind

/-- A handle that took a reference gives it back. -/
theorem giveBack (h : Tally st handles) {handle : Handle} (hmem : handle ∈ handles)
    (hh : handle.kind = .typed ∨ handle.counted = true) (hst' : st.step .decreaseLocal = some st') :
    Tally st' (handles.erase handle) := by
  obtain ⟨hcounts, -, hpublished⟩ := ObjectRefState.step_eq_some.mp hst'
  rw [RefOp.apply_decreaseLocal] at hcounts
  have hcounted : handle.counted = true := hh.elim (h.typed handle hmem) fun hc => hc
  refine ⟨hpublished, ?_, fun handle' hmem' => h.typed handle' (List.mem_of_mem_erase hmem')⟩
  rw [hcounts.2, List.countP_erase, if_pos ⟨hmem, hcounted⟩, ← h.counted]

/-- A handle that took no reference is forgotten. -/
theorem forget (h : Tally st handles) {handle : Handle} (hh : handle.counted = false) :
    Tally st (handles.erase handle) := by
  refine ⟨h.published, ?_, fun handle' hmem' => h.typed handle' (List.mem_of_mem_erase hmem')⟩
  rw [h.counted, List.countP_erase, if_neg (by simp [hh]), Nat.sub_zero]

/-- Remote counts are not those of handles. -/
theorem remote (h : Tally st handles) {op : RefOp} (hop : op.isRemote = true)
    (hst' : st.step op = some st') : Tally st' handles := by
  obtain ⟨hcounts, -, hpublished⟩ := ObjectRefState.step_eq_some.mp hst'
  have hlocal : st'.counts.localRefs = st.counts.localRefs := by
    cases op with
    | increaseLocal => cases hop
    | decreaseLocal => cases hop
    | increaseRemote => rw [(RefOp.apply_increaseRemote.mp hcounts).2]
    | decreaseRemote => rw [(RefOp.apply_decreaseRemote.mp hcounts).2]
    | markPendingRemote =>
      rcases RefOp.apply_markPendingRemote.mp hcounts with ⟨-, -, h⟩ | ⟨-, h⟩ <;> rw [h]
    | clearPendingRemote => rw [RefOp.apply_clearPendingRemote.mp hcounts]
  exact ⟨hpublished, hlocal.trans h.counted, h.typed⟩

/-- At a published total of zero no counter is above zero and no handle is counted. -/
theorem eq_zero (h : Tally st handles) (hzero : st.strongCount = 0) :
    st.counts = RefCounts.default ∧ ∀ handle ∈ handles, handle.counted = false := by
  have htotal := h.published.total
  have hcounted := h.counted
  refine ⟨?_, fun handle hmem => ?_⟩
  · ext <;> simp only [RefCounts.default] <;> omega
  · have hnone : handles.countP Handle.counted = 0 := by omega
    simpa using List.countP_eq_zero.mp hnone handle hmem

end Tally

/-- Every access keeps the tally of the handles. -/
theorem Tallied.step {id : BinderObjectId} {s s' : Life} {l : ℕ × Action} (hs : s.Tallied)
    (howned : s.Owned) (h : s.step id l = some s') : s'.Tallied := by
  intro st₀ hst₀
  cases step_effect h with
  | nothing => exact hs st₀ hst₀
  | register hguard =>
    cases hst₀
    rw [(howned.unborn hguard).2.2.1]
    exact Tally.new id
  | move _ _ => exact hs st₀ hst₀
  | take _ hst hst' _ _ =>
    cases hst₀
    exact (hs _ hst).take hst' _ _
  | takeUncounted _ hnone _ =>
    simp [hnone] at hst₀
  | giveBack hmem hh hst hst' =>
    cases hst₀
    exact (hs _ hst).giveBack hmem hh hst'
  | forget _ hh =>
    rcases hh with hnone | hh
    · simp [hnone] at hst₀
    · exact (hs st₀ hst₀).forget hh
  | remote _ hop hst hst' =>
    cases hst₀
    exact (hs _ hst).remote hop hst'
  | serve _ _ => exact hs st₀ hst₀
  | dropGuard _ _ => exact hs st₀ hst₀
  | cleanUp _ _ => exact hs st₀ hst₀
  | unregister _ => exact hs st₀ hst₀
  | uncount _ => cases hst₀

/-! ## The cleanup -/

/-- Once a cleanup has stopped waiting, no access takes a reference. -/
def NoLateReference (s : Life) (l : ℕ × Action) : Prop := s.Doomed → s.takesReference l = false

/-- A cleanup has taken the guard of its service and is taking the entries out. -/
def Removing (s : Life) : Prop := ∃ i o, s.ops i = some o ∧ o.drops = true ∧ o.doomed = true

/-- When a cleanup has stopped waiting, the total is zero and stays zero; every removal found it so;
and no handle was counted from the first removal on. -/
structure Quiet (s : Life) : Prop where
  zero : s.Doomed → ∀ st, s.refcounts = some st → st.strongCount = 0
  clean : ∀ r ∈ s.removals, ∃ st, r = some st ∧ st.counts = RefCounts.default
  free : s.removals ≠ [] → ∀ h ∈ s.handles, h.counted = false
  left : s.removals ≠ [] → s.refcounts ≠ none → s.Removing

/-- The service of the id was torn down only when unreferenced: each removal of its cleanup found the
local, the remote and the pending count at zero, and no handle was counted from the first one on. -/
def TornDownUnreferenced (s : Life) : Prop :=
  (∀ r ∈ s.removals, ∃ st, r = some st ∧ st.counts = RefCounts.default) ∧
    (s.removals ≠ [] → ∀ h ∈ s.handles, h.counted = false)

/-- For an id that was not given out all is quiet. -/
theorem quiet_unborn : unborn.Quiet where
  zero h := by obtain ⟨_, _, h, _⟩ := h; cases h
  clean _ h := by cases h
  free h := (h rfl).elim
  left h := (h rfl).elim

/-- A cleanup that removes has stopped waiting. -/
theorem Removing.doomed {s : Life} (h : s.Removing) : s.Doomed := by
  obtain ⟨i, o, ho, -, hdoomed⟩ := h
  exact ⟨i, o, ho, hdoomed⟩

/-- At a total of zero, what takes no reference leaves the total at zero. -/
theorem zero_of_step {st st' : ObjectRefState} {op : RefOp} (hst : st.counts = RefCounts.default)
    (hop : op.takesReference = false) (h : st.step op = some st') : st'.strongCount = 0 := by
  obtain ⟨hcounts, -, hpublished⟩ := ObjectRefState.step_eq_some.mp h
  rw [hst] at hcounts
  cases op with
  | increaseLocal => cases hop
  | increaseRemote => cases hop
  | markPendingRemote => cases hop
  | decreaseLocal => simp [RefCounts.default] at hcounts
  | decreaseRemote => simp [RefCounts.default] at hcounts
  | clearPendingRemote =>
    rw [RefOp.apply_clearPendingRemote] at hcounts
    rw [hpublished.total, hcounts]
    rfl

section Updates

variable {s : Life} {i : ℕ}

/-- A cleanup that has stopped waiting after an update had done so before, or is the updated
thread. -/
theorem doomed_or_of_update {o : Option Op} {j : ℕ} {o' : Op}
    (h : Function.update s.ops i o j = some o') (hdoomed : o'.doomed = true) :
    s.Doomed ∨ o = some o' := by
  by_cases hj : j = i
  · subst hj
    rw [Function.update_self] at h
    exact Or.inr h
  · rw [Function.update_of_ne hj] at h
    exact Or.inl ⟨j, o', h, hdoomed⟩

/-- A thread moves on, and a cleanup has stopped waiting afterwards: it had before, or it is the
thread that moved. -/
theorem Moves.doomed_or {ops : ℕ → Option Op} (hops : s.Moves i ops) {j : ℕ} {o : Op}
    (h : ops j = some o) (hdoomed : o.doomed = true) : s.Doomed ∨ ops i = some o := by
  by_cases hj : j = i
  · subst hj
    exact Or.inr h
  · rw [hops.others j hj] at h
    exact Or.inl ⟨j, o, h, hdoomed⟩

/-- A thread that takes no entries out moves on, and leaves a cleanup where it is. -/
theorem Moves.removing {ops : ℕ → Option Op} (hops : s.Moves i ops) (h : s.Removing) :
    ∃ j o, ops j = some o ∧ o.drops = true ∧ o.doomed = true := by
  obtain ⟨j, o, ho, hdrops, hdoomed⟩ := h
  have hj : j ≠ i := by
    rintro rfl
    rw [hops.before o ho] at hdrops
    cases hdrops
  exact ⟨j, o, by rw [hops.others j hj, ho], hdrops, hdoomed⟩

end Updates

/-- When a cleanup that has stopped waiting removes something, it finds no references, and no handle
is counted. -/
theorem Quiet.removal {s : Life} (hs : s.Quiet) (htally : s.Tallied) {service : Bool}
    (hdoomed : service = true → s.Doomed) (hsome : s.refcounts ≠ none) :
    (∀ r ∈ s.noted service, ∃ st, r = some st ∧ st.counts = RefCounts.default) ∧
      (s.noted service ≠ [] → ∀ h ∈ s.handles, h.counted = false) := by
  cases service with
  | false => exact ⟨hs.clean, hs.free⟩
  | true =>
    obtain ⟨st, hst⟩ := Option.ne_none_iff_exists'.mp hsome
    obtain ⟨hcounts, hhandles⟩ := (htally st hst).eq_zero (hs.zero (hdoomed rfl) st hst)
    refine ⟨fun r hr => ?_, fun _ => hhandles⟩
    rcases List.mem_cons.mp hr with rfl | hr
    · exact ⟨st, hst, hcounts⟩
    · exact hs.clean r hr

/-- A thread starts on what is not the end of a cleanup. -/
theorem Quiet.starts {s : Life} (hs : s.Quiet) {i : ℕ} {o : Op} (hidle : s.ops i = none)
    (ho : o.doomed = false) (guard : Guard) : Quiet ({ s with guard }.setOp i (some o)) := by
  refine ⟨?_, hs.clean, hs.free, fun h hsome => ?_⟩
  · rintro ⟨j, o', ho', hdoomed⟩
    rcases doomed_or_of_update ho' hdoomed with hbefore | heq
    · exact hs.zero hbefore
    · rw [Option.some_inj] at heq
      simp [← heq, ho] at hdoomed
  · obtain ⟨j, o', ho', hremoving⟩ := hs.left h hsome
    have hj : j ≠ i := by
      rintro rfl
      simp [hidle] at ho'
    exact ⟨j, o', (Function.update_of_ne hj _ _).trans ho', hremoving⟩

/-- A thread moves on and takes nothing. -/
theorem Quiet.moves {s : Life} (hs : s.Quiet) {i : ℕ} {ops : ℕ → Option Op} (hops : s.Moves i ops) :
    Quiet { s with ops } := by
  refine ⟨?_, hs.clean, hs.free, fun h hsome => hops.removing (hs.left h hsome)⟩
  rintro ⟨j, o, ho, hdoomed⟩ st hst
  rcases hops.doomed_or ho hdoomed with hbefore | ho
  · exact hs.zero hbefore st hst
  · rcases hops.zero o ho hdoomed with hbefore | hzero
    · exact hs.zero hbefore st hst
    · exact hzero st hst

/-- Before a cleanup has stopped waiting, references are taken. -/
theorem Quiet.takes {s : Life} (hs : s.Quiet) (hnot : ¬ s.Doomed) (hsome : s.refcounts ≠ none)
    {i : ℕ} {ops : ℕ → Option Op} (hops : s.Moves i ops)
    (hwaits : ∀ o, ops i = some o → o.doomed = false) (refcounts : Option ObjectRefState)
    (handles : List Handle) : Quiet { s with refcounts, handles, ops } := by
  have hnone : s.removals = [] := by
    by_contra h
    exact hnot (hs.left h hsome).doomed
  refine ⟨?_, hs.clean, fun h => (h hnone).elim, fun h => (h hnone).elim⟩
  rintro ⟨j, o, ho, hdoomed⟩
  rcases hops.doomed_or ho hdoomed with hbefore | ho
  · exact (hnot hbefore).elim
  · simp [hwaits o ho] at hdoomed

/-- The total changes, but not from zero once a cleanup has stopped waiting, and handles go. -/
theorem Quiet.counts {s : Life} (hs : s.Quiet) {refcounts : Option ObjectRefState}
    {handles : List Handle} (hzero : s.Doomed → ∀ st, refcounts = some st → st.strongCount = 0)
    (hsome : refcounts ≠ none → s.refcounts ≠ none) (hmem : ∀ h ∈ handles, h ∈ s.handles) :
    Quiet { s with refcounts, handles } :=
  ⟨hzero, hs.clean, fun h handle hhandle => hs.free h handle (hmem handle hhandle),
    fun h hrefcounts => hs.left h (hsome hrefcounts)⟩

/-- The handler of an id is taken out. -/
theorem Quiet.unregisters {s : Life} (hs : s.Quiet) (howned : s.Owned) (htally : s.Tallied) {i : ℕ}
    {service : Bool} (hops : s.ops i = some (.unregistering service)) :
    Quiet ({ s with handler := none, removals := s.noted service }.setOp i
      (some (.uncounting service))) := by
  have hdoomed : service = true → s.Doomed := fun h => ⟨i, _, hops, by simp [Op.doomed, h]⟩
  have hsome : s.refcounts ≠ none := howned.refcounts_of_drops hops rfl
  obtain ⟨hclean, hfree⟩ := hs.removal htally hdoomed hsome
  refine ⟨?_, hclean, hfree, fun h _ => ?_⟩
  · rintro ⟨j, o, ho, ho'⟩
    rcases doomed_or_of_update ho ho' with hbefore | heq
    · exact hs.zero hbefore
    · rw [Option.some_inj] at heq
      refine hs.zero (hdoomed ?_)
      simpa [← heq, Op.doomed] using ho'
  · cases service with
    | true => exact ⟨i, _, Function.update_self _ _ _, rfl, rfl⟩
    | false =>
      -- The removals were another thread's, which is still at them.
      obtain ⟨j, o, ho, hdrops, ho'⟩ := hs.left h hsome
      have hj : j ≠ i := by
        rintro rfl
        rw [hops, Option.some_inj] at ho
        simp [← ho, Op.doomed] at ho'
      exact ⟨j, o, (Function.update_of_ne hj _ _).trans ho, hdrops, ho'⟩

/-- An access that takes no late reference keeps all quiet. -/
theorem Quiet.step {id : BinderObjectId} {s s' : Life} {l : ℕ × Action} (hs : s.Quiet)
    (howned : s.Owned) (htally : s.Tallied) (hlate : s.NoLateReference l)
    (h : s.step id l = some s') : s'.Quiet := by
  have hcounts : s.Doomed → ∀ st, s.refcounts = some st → st.counts = RefCounts.default :=
    fun hdoomed st hst => ((htally st hst).eq_zero (hs.zero hdoomed st hst)).1
  cases step_effect h with
  | nothing => exact hs
  | register hguard =>
    obtain ⟨-, -, -, hremovals, -⟩ := howned.unborn hguard
    refine ⟨fun _ st hst => ?_, hs.clean, hs.free, fun h => (h hremovals).elim⟩
    cases hst
    rfl
  | move _ hops => exact hs.moves hops
  | take htakes hst _ hops hwaits =>
    have hnot : ¬ s.Doomed := fun hdoomed => by simp [hlate hdoomed] at htakes
    exact hs.takes hnot (by simp [hst]) hops hwaits _ _
  | takeUncounted _ hnone hops =>
    refine ⟨fun _ st hst => by simp [hnone] at hst, hs.clean, fun hremovals h hmem => ?_,
      fun _ h => (h hnone).elim⟩
    rcases List.mem_cons.mp hmem with rfl | hmem
    · rfl
    · exact hs.free hremovals h hmem
  | giveBack _ _ hst hst' =>
    refine hs.counts (fun hdoomed st₀ hst₀ => ?_) (by simp [hst]) fun _ => List.mem_of_mem_erase
    cases hst₀
    exact zero_of_step (hcounts hdoomed _ hst) rfl hst'
  | forget _ _ => exact hs.counts hs.zero (fun h => h) fun _ => List.mem_of_mem_erase
  | remote hops _ hst hst' =>
    refine hs.counts (fun hdoomed st₀ hst₀ => ?_) (by simp [hst]) fun _ h => h
    cases hst₀
    refine zero_of_step (hcounts hdoomed _ hst) ?_ hst'
    simpa [takesReference, hops] using hlate hdoomed
  | serve _ hops => exact hs.starts hops rfl _
  | dropGuard _ hops => exact hs.starts hops rfl _
  | @cleanUp i handler hguard hops =>
    have hdoomed : s.Doomed := ⟨i, _, hops, rfl⟩
    have hsome : s.refcounts ≠ none := howned.refcounts_of_held (by simp [hguard, Guard.held])
    obtain ⟨hclean, hfree⟩ := hs.removal htally (fun _ : true = true => hdoomed) hsome
    exact ⟨fun _ => hs.zero hdoomed, hclean, hfree,
      fun _ _ => ⟨i, _, Function.update_self _ _ _, rfl, rfl⟩⟩
  | unregister hops => exact hs.unregisters howned htally hops
  | @uncount i service hops =>
    have hdoomed : service = true → s.Doomed := fun h => ⟨i, _, hops, by simp [Op.doomed, h]⟩
    obtain ⟨hclean, hfree⟩ := hs.removal htally hdoomed (howned.refcounts_of_drops hops rfl)
    exact ⟨fun _ _ h => by simp [setOp] at h, hclean, hfree, fun _ h => (h rfl).elim⟩

end Life

end BinderBinder
