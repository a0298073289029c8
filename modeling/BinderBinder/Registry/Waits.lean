import BinderBinder.Registry.Handles

set_option relaxedAutoImplicit false
set_option autoImplicit false

/-!
# Waiting for the total

The futures of `strong_refs_hit_zero` and `strong_refs_not_zero`, which a guard and a typed reference
have alike: they subscribe to the published total when they are made, if the id has refcounts, and
wait for a value. The result of the wait is ignored, so they also complete when the refcounts are
gone. A poll changes nothing but the future.

## Main definitions

* `WaitKind`, `WaitFuture`, `WaitFuture.poll` — the futures, and whether a poll completes one.
* `ObjectTable.Satisfied` — the total of an id is what a future waits for.
* `ObjectTable.CompletesTruly` — a future completes only if the total was that since it was made.
* `ObjectTable.SatisfiedBeforeUnregistered` — the total was that before the refcounts were removed.

## Main results

* `ObjectTable.completesTruly_iff` — when a future completes truly in a run.
* `ObjectTable.not_completesTruly` — a run in which futures of both kinds do not.
-/

namespace BinderBinder

open Run

/-! ## The futures -/

/-- The two predicates that are waited for. -/
inductive WaitKind
  | hitZero
  | notZero
  deriving DecidableEq, Repr

/-- The predicate, of a total. -/
def WaitKind.holds : WaitKind → ℕ → Bool
  | .hitZero, n => n = 0
  | .notZero, n => n ≠ 0

/-- A future: what it waits for, and whether there was something to subscribe to. -/
structure WaitFuture where
  kind : WaitKind
  subscribed : Bool
  deriving DecidableEq, Repr

namespace ObjectTable

/-- `BinderObject::strong_refs_hit_zero`, `BinderObjectRef::strong_refs_hit_zero`. -/
def strongRefsHitZero (s : ObjectTable) (id : BinderObjectId) : WaitFuture :=
  ⟨.hitZero, (s.lives id).refcounts.isSome⟩

/-- `BinderObject::strong_refs_not_zero`, `BinderObjectRef::strong_refs_not_zero`. -/
def strongRefsNotZero (s : ObjectTable) (id : BinderObjectId) : WaitFuture :=
  ⟨.notZero, (s.lives id).refcounts.isSome⟩

end ObjectTable

/-- Whether a poll of a future for `id` completes it: there was nothing to subscribe to, the current
value satisfies the predicate, or the sender was dropped. -/
def WaitFuture.poll (f : WaitFuture) (s : ObjectTable) (id : BinderObjectId) : Bool :=
  match f.subscribed, (s.lives id).refcounts with
  | true, some st => f.kind.holds st.strongCount
  -- `let _ =`: an error of `wait_for` is ignored.
  | true, none => true
  | false, _ => true

namespace ObjectTable

/-- The id has refcounts, and the sum of its counters is what is waited for. -/
def Satisfied (kind : WaitKind) (id : BinderObjectId) (s : ObjectTable) : Prop :=
  ∃ st, (s.lives id).refcounts = some st ∧
    kind.holds (st.counts.localRefs + st.counts.remoteRefs + st.counts.pending) = true

/-- Whether the total is what is waited for is read off the counters. -/
instance (kind : WaitKind) (id : BinderObjectId) : DecidablePred (Satisfied kind id) := fun s =>
  inferInstanceAs (Decidable (∃ st ∈ (s.lives id).refcounts,
    kind.holds (st.counts.localRefs + st.counts.remoteRefs + st.counts.pending) = true))

/-- Whenever a poll completes the future, which was made at the start of the run, the total was what
it waits for at some moment since. -/
def CompletesTruly (f : WaitFuture) (id : BinderObjectId) (s₀ : ObjectTable)
    (ls : List (ℕ × TableAction)) : Prop :=
  ∀ ms ns s, ls = ms ++ ns → exec step s₀ ms = some s → f.poll s id = true →
    Sometime step (Satisfied f.kind id) s₀ ms

/-- The access removes the refcounts of the id. -/
def Unregisters (s : ObjectTable) (id : BinderObjectId) (l : ℕ × TableAction) : Prop :=
  ∃ i service, l = (i, .access id .go) ∧ (s.lives id).ops i = some (.uncounting service)

/-- There are refcounts at the start of the run, and when they are removed, the total was what is
waited for at some moment since. -/
def SatisfiedBeforeUnregistered (kind : WaitKind) (id : BinderObjectId) (s₀ : ObjectTable)
    (ls : List (ℕ × TableAction)) : Prop :=
  (s₀.lives id).refcounts ≠ none ∧
    ∀ ms l ns s, ls = ms ++ l :: ns → exec step s₀ ms = some s → s.Unregisters id l →
      Sometime step (Satisfied kind id) s₀ ms

/-! ## The removal of the refcounts -/

section Removal

variable {s s' : ObjectTable} {id : BinderObjectId} {l : ℕ × TableAction}

/-- An access that removes the refcounts goes through. -/
theorem Unregisters.exists_step (h : s.Unregisters id l) :
    ∃ s', s.step l = some s' ∧ (s'.lives id).refcounts = none := by
  obtain ⟨i, service, rfl, hops⟩ := h
  refine ⟨{ s with lives := Function.update s.lives id ({ s.lives id with
    refcounts := none, guard := .dropped service,
    removals := (s.lives id).noted service }.setOp i none) }, ?_, by simp [Life.setOp]⟩
  simp [step, Action.isRegister, Registry.step, family, Life.step, hops, Life.go]

/-- Refcounts are not gone but by such an access. -/
theorem unregisters_of_step (hstep : s.step l = some s') (hsome : (s.lives id).refcounts ≠ none)
    (hnone : (s'.lives id).refcounts = none) : s.Unregisters id l := by
  rcases life_of_step hstep id with hsame | ⟨i, a, hmine, hl⟩
  · rw [hsame] at hnone
    exact (hsome hnone).elim
  generalize hs' : s'.lives id = t at hmine hnone
  cases Life.step_effect hmine with
  | @uncount i service hops =>
    rcases hl with rfl | ⟨handler, hregister⟩
    · exact ⟨i, service, rfl, hops⟩
    · cases hregister
  | _ => simp_all [Life.setOp]

end Removal

/-! ## Runs -/

section Runs

variable {s₀ : ObjectTable} {id : BinderObjectId} {ls : List (ℕ × TableAction)}

/-- A future that was subscribed completes truly in a run exactly if what it waits for was true
before the refcounts were removed; one that was not does not.

**Step.** A poll completes by the value, which is the total, or because the refcounts are gone since
the future was made, and then some step of the run removed them. -/
theorem completesTruly_iff_of_sound (hs₀ : s₀.Sound) (kind : WaitKind) :
    CompletesTruly ⟨kind, (s₀.lives id).refcounts.isSome⟩ id s₀ ls ↔
      SatisfiedBeforeUnregistered kind id s₀ ls := by
  constructor
  · intro htruly
    have hsome : (s₀.lives id).refcounts ≠ none := by
      intro hnone
      obtain ⟨st, hst, -⟩ := htruly [] ls s₀ rfl rfl (by simp [WaitFuture.poll, hnone])
      rw [hnone] at hst
      cases hst
    refine ⟨hsome, fun ms l ns s hls hexec hunregisters => ?_⟩
    obtain ⟨s', hstep, hnone⟩ := hunregisters.exists_step
    have hexec' : exec step s₀ (ms ++ [l]) = some s' := by
      rw [exec_append, hexec]
      exact exec_cons_eq_some.mpr ⟨s', hstep, rfl⟩
    have hpoll : WaitFuture.poll ⟨kind, (s₀.lives id).refcounts.isSome⟩ s' id = true := by
      simp [WaitFuture.poll, hnone, Option.isSome_iff_ne_none.mpr hsome]
    have hsometime := htruly (ms ++ [l]) ns s' (by simp [hls]) hexec' hpoll
    rcases hsometime.before_or hexec hstep with hbefore | ⟨st, hst, -⟩
    · exact hbefore
    · rw [hnone] at hst
      cases hst
  · rintro ⟨hsome, hbefore⟩ ms ns s hls hexec hpoll
    cases hst : (s.lives id).refcounts with
    | some st =>
      have hs : s.Sound := exec_invariant Sound.step hs₀ hexec
      have hpublished := (hs.tallied id st hst).published
      refine Sometime.of_exec hexec ⟨st, hst, ?_⟩
      rw [← hpublished.total]
      simpa [WaitFuture.poll, hst, Option.isSome_iff_ne_none.mpr hsome] using hpoll
    | none =>
      obtain ⟨ms₁, l, ms₂, u, u', rfl, hu, hu', hthere, hgone⟩ :=
        exists_step_of_exec (P := fun s => (s.lives id).refcounts ≠ none) hexec hsome
          (not_not.mpr hst)
      have hunregisters := unregisters_of_step hu' hthere (not_not.mp hgone)
      exact (hbefore ms₁ l (ms₂ ++ ns) u (by simp [hls]) hu hunregisters).append _

/-- In every run, a future made in any of its states completes truly, whatever happens and whenever
it is polled, exactly if there were refcounts when it was made and what it waits for was true at some
moment before they are removed. As long as the guard of the id is held there are refcounts. -/
theorem completesTruly_iff {ls₀ : List (ℕ × TableAction)} (h₀ : exec step new ls₀ = some s₀)
    (id : BinderObjectId) (ls : List (ℕ × TableAction)) :
    (CompletesTruly (s₀.strongRefsHitZero id) id s₀ ls ↔
      SatisfiedBeforeUnregistered .hitZero id s₀ ls) ∧
    (CompletesTruly (s₀.strongRefsNotZero id) id s₀ ls ↔
      SatisfiedBeforeUnregistered .notZero id s₀ ls) ∧
    ((s₀.lives id).guard.held = true → (s₀.lives id).refcounts ≠ none) := by
  have hs₀ : s₀.Sound := exec_invariant Sound.step sound_new h₀
  exact ⟨completesTruly_iff_of_sound hs₀ .hitZero, completesTruly_iff_of_sound hs₀ .notZero,
    (hs₀.owned id).refcounts_of_held⟩

end Runs

/-- An object is registered. -/
def objectRegistered : List (ℕ × TableAction) := [(0, .registerObject ⟨7⟩)]

/-- A handle is made of a registered object. -/
def handleMade : List (ℕ × TableAction) :=
  objectRegistered ++ [(0, .access ⟨1, 0⟩ .toBinderObjectOrRef)]

/-- The guard is dropped. -/
def guardDropped : List (ℕ × TableAction) :=
  [(0, .access ⟨1, 0⟩ .dropGuard), (0, .access ⟨1, 0⟩ .go), (0, .access ⟨1, 0⟩ .go)]

/-- A new object has no references, and a future that waits for that completes truly when the guard
is dropped. -/
theorem completesTruly_iff_guardDropped : ∃ s₀, exec step new objectRegistered = some s₀ ∧
    CompletesTruly (s₀.strongRefsHitZero ⟨1, 0⟩) ⟨1, 0⟩ s₀ guardDropped := by
  obtain ⟨s₀, h₀, hst, hguard⟩ : ∃ s₀, exec step new objectRegistered = some s₀ ∧
      (s₀.lives ⟨1, 0⟩).refcounts = some (ObjectRefState.new ⟨1, 0⟩) ∧
      (s₀.lives ⟨1, 0⟩).guard.held = true := ⟨_, rfl, rfl, rfl⟩
  obtain ⟨hiff, -, hthere⟩ := completesTruly_iff h₀ ⟨1, 0⟩ guardDropped
  refine ⟨s₀, h₀, hiff.mpr ⟨hthere hguard, fun ms l ns s _ _ _ => Sometime.of_head ?_⟩⟩
  exact ⟨_, hst, rfl⟩

/-- When the guard of a new object is dropped, a future that waits for references completes, and
there never were any. When the guard of an object with a live handle is dropped, a future that waits
for zero completes, and the total was one. -/
theorem not_completesTruly :
    (∃ s₀, exec step new objectRegistered = some s₀ ∧
      ¬ CompletesTruly (s₀.strongRefsNotZero ⟨1, 0⟩) ⟨1, 0⟩ s₀ guardDropped) ∧
    (∃ s₀, exec step new handleMade = some s₀ ∧
      ¬ CompletesTruly (s₀.strongRefsHitZero ⟨1, 0⟩) ⟨1, 0⟩ s₀ guardDropped) := by
  constructor
  · refine ⟨_, rfl, fun h => ?_⟩
    have hsometime := h guardDropped [] _ rfl rfl rfl
    revert hsometime
    decide
  · refine ⟨_, rfl, fun h => ?_⟩
    have hsometime := h guardDropped [] _ rfl rfl rfl
    revert hsometime
    decide

end ObjectTable

end BinderBinder
