import Mathlib.Logic.Function.Basic
import BinderBinder.RefState

set_option relaxedAutoImplicit false
set_option autoImplicit false

/-!
# Updates from many threads

`ObjectRefState::update` step by step: any number of threads take the lock, run their closure on the
counters, publish the total to the watch channel and release the lock, interleaved in any order. A
panic under the lock (a counter or the total leaves its range) poisons it, and every later `lock`
panics too.

## Main definitions

* `Watch`, `Receiver` — the watch channel and its subscribers.
* `Updates`, `Updates.step` — the object with all threads inside its methods.
* `Updates.Settled`, `Updates.Unpublished` — between two updates, and between a closure and its
  publication.

## Main results

* `Updates.Serialized.step` — every step keeps one thread at a time under the lock, and what was
  published is a run of `ObjectRefState.step` over the methods, in the order of their closures.
* `Updates.published_never_stale` — while the lock is free, the published value is the total.
-/

namespace BinderBinder

open Run

/-! ## The watch channel -/

/-- The shared state of a `watch` channel. -/
structure Watch where
  value : ℕ
  version : ℕ
  deriving DecidableEq, Repr

/-- A `watch::Receiver`: the version it has seen. -/
structure Receiver where
  version : ℕ
  deriving DecidableEq, Repr

/-- `watch::Sender::new`. -/
def Watch.new (value : ℕ) : Watch := ⟨value, 0⟩

/-- `watch::Sender::send_replace`. -/
def Watch.sendReplace (w : Watch) (value : ℕ) : Watch := ⟨value, w.version + 1⟩

/-- `watch::Sender::subscribe`: the current version counts as seen. -/
def Watch.subscribe (w : Watch) : Receiver := ⟨w.version⟩

/-- `watch::Receiver::borrow`: the current value, whatever version was seen. -/
def Receiver.borrow (_ : Receiver) (w : Watch) : ℕ := w.value

/-! ## The threads -/

/-- The mutex around the counters. -/
inductive Lock
  | free
  | held (i : ℕ)
  | poisoned
  deriving DecidableEq, Repr

/-- Where a thread is in `update`: before the lock, under the lock before its closure, after the
closure with the snapshot it made, and after the publication. -/
inductive Stage
  | waiting (op : RefOp)
  | locked (op : RefOp)
  | mutated (snapshot : RefCounts)
  | published
  deriving DecidableEq, Repr

/-- The thread holds the lock. -/
def Stage.critical : Stage → Bool
  | .waiting _ => false
  | _ => true

/-- The sum of the counters. -/
def RefCounts.sum (c : RefCounts) : ℕ := c.localRefs + c.remoteRefs + c.pending

/-- `ObjectRefState` with its mutex, its watch channel with the subscribers, and the threads in its
methods; and for statements about runs, the methods whose closures ran and the totals they left, and
the values that were published, each in order. -/
structure Updates where
  objId : BinderObjectId
  counts : RefCounts
  lock : Lock
  watch : Watch
  receivers : List Receiver
  stages : ℕ → Option Stage
  methods : List RefOp
  totals : List ℕ
  published : List ℕ

/-- A thread calls a method, makes its next step in it, or subscribes to the channel. -/
inductive UpdateAction
  | call (op : RefOp)
  | go
  | subscribe
  deriving DecidableEq, Repr

namespace Updates

/-- `ObjectRefState::new`. -/
def new (objId : BinderObjectId) : Updates :=
  ⟨objId, RefCounts.default, .free, Watch.new 0, [], fun _ => none, [], [], []⟩

/-- The thread `i` is at another stage. -/
def setStage (s : Updates) (i : ℕ) (stage : Option Stage) : Updates :=
  { s with stages := Function.update s.stages i stage }

/-- The thread `i` panics under the lock. -/
def panics (s : Updates) (i : ℕ) : Updates := { s with lock := .poisoned }.setStage i none

/-- The next step of a thread. A poisoned lock is unwrapped; a lock that is held is not given. -/
def go (s : Updates) (i : ℕ) : Stage → Option Updates
  | .waiting op =>
    match s.lock with
    | .free => some ({ s with lock := .held i }.setStage i (some (.locked op)))
    | .held _ => none
    | .poisoned => some (s.setStage i none)
  | .locked op =>
    match op.apply s.counts with
    | some counts => some ({ s with
        counts, methods := s.methods ++ [op], totals := s.totals ++ [counts.sum] }.setStage i
          (some (.mutated counts)))
    | none => some (s.panics i)
  | .mutated snapshot =>
    match snapshot.total with
    | some total => some ({ s with
        watch := s.watch.sendReplace total, published := s.published ++ [total] }.setStage i
          (some .published))
    | none => some (s.panics i)
  | .published => some ({ s with lock := .free }.setStage i none)

/-- One step of the thread `i`; `none` says that it is not enabled. -/
def step (s : Updates) : ℕ × UpdateAction → Option Updates
  | (i, .call op) =>
    if s.stages i = none then some (s.setStage i (some (.waiting op))) else none
  | (i, .go) => (s.stages i).bind (s.go i)
  | (_, .subscribe) => some { s with receivers := s.watch.subscribe :: s.receivers }

/-- The counters and the value of the channel. -/
def state (s : Updates) : ObjectRefState := ⟨s.objId, s.counts, s.watch.value⟩

/-! ## Between the steps of an update -/

/-- All closures that ran were published, one after the other. -/
structure Settled (s : Updates) : Prop where
  methods : exec ObjectRefState.step (.new s.objId) s.methods = some s.state
  published : s.published = s.totals

/-- The last closure that ran left `c`, which is not published yet. -/
def Unpublished (s : Updates) (c : RefCounts) : Prop :=
  s.counts = c ∧ s.totals = s.published ++ [c.sum] ∧
    ∃ methods op before, s.methods = methods ++ [op] ∧
      exec ObjectRefState.step (.new s.objId) methods = some before ∧
      op.apply before.counts = some c

/-- What a thread under the lock may rely on. -/
def Holds (s : Updates) : Stage → Prop
  | .waiting _ => True
  | .locked _ | .published => s.Settled
  | .mutated snapshot => s.Unpublished snapshot

@[simp] theorem stages_setStage_self (s : Updates) (i : ℕ) (stage : Option Stage) :
    (s.setStage i stage).stages i = stage := Function.update_self _ _ _

/-- The other threads stay where they are. -/
theorem stages_setStage_of_ne (s : Updates) {i j : ℕ} (stage : Option Stage) (h : j ≠ i) :
    (s.setStage i stage).stages j = s.stages j := Function.update_of_ne h _ _

/-- What a thread relies on is not where threads are. -/
theorem holds_setStage {s : Updates} {i : ℕ} {stage : Option Stage} {o : Stage} (h : s.Holds o) :
    (s.setStage i stage).Holds o := by
  cases o with
  | waiting op => trivial
  | locked op => exact ⟨h.methods, h.published⟩
  | mutated snapshot => exact h
  | published => exact ⟨h.methods, h.published⟩

/-- One thread at a time is under the lock, and while none is, everything is published. -/
structure Serialized (s : Updates) : Prop where
  exclusive : ∀ i stage, s.stages i = some stage → stage.critical = true → s.lock = .held i
  holder : ∀ i, s.lock = .held i → ∃ stage, s.stages i = some stage ∧ stage.critical = true
  free : s.lock = .free → s.Settled
  holds : ∀ i stage, s.stages i = some stage → s.Holds stage

/-- Nobody is in a method of a new object. -/
theorem serialized_new (objId : BinderObjectId) : (new objId).Serialized where
  exclusive i stage h := by cases h
  holder i h := by cases h
  free _ := ⟨rfl, rfl⟩
  holds i stage h := by cases h

/-- The subscribers do not matter. -/
theorem Serialized.subscribe {s : Updates} (hs : s.Serialized) (receivers : List Receiver) :
    Serialized { s with receivers } where
  exclusive := hs.exclusive
  holder := hs.holder
  free h := ⟨(hs.free h).methods, (hs.free h).published⟩
  holds i stage h := by
    have hstage := hs.holds i stage h
    cases stage with
    | waiting op => trivial
    | locked op => exact ⟨hstage.methods, hstage.published⟩
    | mutated snapshot => exact hstage
    | published => exact ⟨hstage.methods, hstage.published⟩

/-- A thread that is not under the lock moves, and is not under it afterwards. -/
theorem Serialized.outside {s : Updates} (hs : s.Serialized) {i : ℕ} {stage : Option Stage}
    (hbefore : ∀ o, s.stages i = some o → o.critical = false)
    (hafter : ∀ o, stage = some o → o.critical = false) : (s.setStage i stage).Serialized where
  exclusive j o ho hcrit := by
    by_cases hj : j = i
    · subst hj
      rw [stages_setStage_self] at ho
      simp [hafter o ho] at hcrit
    · rw [stages_setStage_of_ne s stage hj] at ho
      exact hs.exclusive j o ho hcrit
  holder j hj := by
    obtain ⟨o, ho, hcrit⟩ := hs.holder j hj
    have hne : j ≠ i := by
      rintro rfl
      simp [hbefore o ho] at hcrit
    exact ⟨o, by rw [stages_setStage_of_ne s stage hne, ho], hcrit⟩
  free h := ⟨(hs.free h).methods, (hs.free h).published⟩
  holds j o ho := by
    by_cases hj : j = i
    · subst hj
      rw [stages_setStage_self] at ho
      cases o with
      | waiting op => trivial
      | _ => cases hafter _ ho
    · rw [stages_setStage_of_ne s stage hj] at ho
      exact holds_setStage (hs.holds j o ho)

/-- The thread `i` makes a step at the lock, which no other thread holds: what is to be shown is
about `i` and the lock only. -/
theorem Serialized.inside {s s₁ : Updates} (hs : s.Serialized) {i : ℕ} {stage : Option Stage}
    (hlock : s.lock = .free ∨ s.lock = .held i) (hstages : s₁.stages = s.stages)
    (hheld : ∀ j, s₁.lock = .held j → j = i ∧ ∃ o, stage = some o ∧ o.critical = true)
    (hcrit : ∀ o, stage = some o → o.critical = true → s₁.lock = .held i)
    (hfree : s₁.lock = .free → s₁.Settled)
    (hholds : ∀ o, stage = some o → s₁.Holds o) : (s₁.setStage i stage).Serialized := by
  have hothers : ∀ j o, j ≠ i → s₁.stages j = some o → o.critical = false := by
    intro j o hj ho
    by_contra hc
    rw [hstages] at ho
    have hj' := hs.exclusive j o ho (by simpa using hc)
    rcases hlock with h | h
    · simp [h] at hj'
    · rw [h] at hj'
      exact hj (Lock.held.inj hj').symm
  refine ⟨fun j o ho hc => ?_, fun j hj => ?_, fun h => ?_, fun j o ho => ?_⟩
  · by_cases hj : j = i
    · subst hj
      rw [stages_setStage_self] at ho
      exact hcrit o ho hc
    · rw [stages_setStage_of_ne s₁ stage hj] at ho
      simp [hothers j o hj ho] at hc
  · obtain ⟨rfl, o, rfl, hc⟩ := hheld j hj
    exact ⟨o, stages_setStage_self _ _ _, hc⟩
  · exact ⟨(hfree h).methods, (hfree h).published⟩
  · by_cases hj : j = i
    · subst hj
      rw [stages_setStage_self] at ho
      exact holds_setStage (hholds o ho)
    · rw [stages_setStage_of_ne s₁ stage hj] at ho
      cases o with
      | waiting op => trivial
      | _ => cases hothers j _ hj ho

/-- The thread that holds the lock goes on under it. -/
theorem Serialized.goesOn {s s₁ : Updates} (hs : s.Serialized) {i : ℕ} {o : Stage}
    (hlock : s.lock = .held i) (hstages : s₁.stages = s.stages) (hlock₁ : s₁.lock = .held i)
    (hcrit : o.critical = true) (hholds : s₁.Holds o) : (s₁.setStage i (some o)).Serialized := by
  refine hs.inside (Or.inr hlock) hstages ?_ (fun _ _ _ => hlock₁) (by simp [hlock₁]) ?_
  · intro j hj
    exact ⟨Lock.held.inj (hj.symm.trans hlock₁), o, rfl, hcrit⟩
  · intro o' ho'
    cases ho'
    exact hholds

/-- A thread under the lock panics: the lock is poisoned. -/
theorem Serialized.panics {s : Updates} (hs : s.Serialized) {i : ℕ} (hlock : s.lock = .held i) :
    (s.panics i).Serialized :=
  hs.inside (Or.inr hlock) rfl (by simp) (by simp) (by simp) (by simp)

/-- A closure that runs on settled counters leaves them unpublished. -/
theorem Settled.mutate {s : Updates} (hs : s.Settled) {op : RefOp} {counts : RefCounts}
    (h : op.apply s.counts = some counts) :
    Unpublished { s with
      counts, methods := s.methods ++ [op], totals := s.totals ++ [counts.sum] } counts :=
  ⟨rfl, by rw [hs.published], s.methods, op, s.state, rfl, hs.methods, h⟩

/-- The publication of the total settles the counters. -/
theorem Unpublished.publish {s : Updates} {c : RefCounts} (hs : s.Unpublished c) {total : ℕ}
    (h : c.total = some total) :
    Settled { s with
      watch := s.watch.sendReplace total, published := s.published ++ [total] } := by
  obtain ⟨hcounts, htotals, methods, op, before, hmethods, hbefore, hop⟩ := hs
  obtain ⟨hlt, rfl⟩ := RefCounts.total_eq_some.mp h
  have hid : before.objId = s.objId := by
    have hsame : ∀ {s₁ s₂ : ObjectRefState} {op : RefOp}, s₁.objId = s.objId →
        s₁.step op = some s₂ → s₂.objId = s.objId := by
      intro s₁ s₂ op h₁ h₂
      rw [← h₁]
      exact (ObjectRefState.step_eq_some.mp h₂).2.1
    exact exec_invariant hsame rfl hbefore
  refine ⟨?_, htotals.symm⟩
  show exec ObjectRefState.step (.new s.objId) s.methods = _
  rw [hmethods]
  refine exec_append_eq_some.mpr ⟨before, hbefore, exec_cons_eq_some.mpr ⟨_, ?_, rfl⟩⟩
  refine ObjectRefState.step_eq_some.mpr ⟨?_, hid.symm, ?_, hlt⟩
  · rw [hop]
    exact congrArg some hcounts.symm
  · show _ = s.counts.localRefs + s.counts.remoteRefs + s.counts.pending
    rw [hcounts]
    rfl

/-- Every step keeps the updates serialized. -/
theorem Serialized.step {s s' : Updates} {l : ℕ × UpdateAction} (hs : s.Serialized)
    (h : s.step l = some s') : s'.Serialized := by
  obtain ⟨i, a⟩ := l
  cases a with
  | call op =>
    rw [Updates.step] at h
    split_ifs at h with hidle
    cases h
    exact hs.outside (by simp [hidle]) (by simp [Stage.critical])
  | subscribe =>
    cases h
    exact hs.subscribe _
  | go =>
    obtain ⟨stage, hstage, h⟩ := Option.bind_eq_some_iff.mp h
    cases stage with
    | waiting op =>
      rw [go] at h
      split at h
      · next hlock =>
        cases h
        refine hs.inside (Or.inl hlock) rfl ?_ (by simp) (by simp) ?_
        · rintro j hj
          exact ⟨(Lock.held.inj hj).symm, _, rfl, rfl⟩
        · intro o ho
          cases ho
          exact ⟨(hs.free hlock).methods, (hs.free hlock).published⟩
      · cases h
      · cases h
        exact hs.outside (by simp [hstage, Stage.critical]) (by simp)
    | locked op =>
      have hlock := hs.exclusive i _ hstage rfl
      have hsettled : s.Settled := hs.holds i _ hstage
      rw [go] at h
      split at h
      · next counts hcounts =>
        cases h
        exact hs.goesOn hlock rfl hlock rfl (hsettled.mutate hcounts)
      · cases h
        exact hs.panics hlock
    | mutated snapshot =>
      have hlock := hs.exclusive i _ hstage rfl
      have hunpublished : s.Unpublished snapshot := hs.holds i _ hstage
      rw [go] at h
      split at h
      · next total htotal =>
        cases h
        exact hs.goesOn hlock rfl hlock rfl (hunpublished.publish htotal)
      · cases h
        exact hs.panics hlock
    | published =>
      have hlock := hs.exclusive i _ hstage rfl
      have hsettled : s.Settled := hs.holds i _ hstage
      cases h
      refine hs.inside (Or.inr hlock) rfl (by simp) (by simp) ?_ (by simp)
      exact fun _ => ⟨hsettled.methods, hsettled.published⟩

/-- While the lock is free, the published value is the total of the counters, the values published
are the totals left by the closures in their order, and every subscriber reads that total. The lock
is free again when no thread is in a method any more, unless one of them panicked under it.

**Proof sketch.** One thread at a time is under the lock. From its closure to its publication it is
the only one whose total is not published; the publication makes its method a step of
`ObjectRefState.step`, and after such steps the published value is the total. -/
theorem published_never_stale {objId : BinderObjectId} {ls : List (ℕ × UpdateAction)} {s : Updates}
    (h : exec Updates.step (new objId) ls = some s) :
    (s.lock = .free →
      s.counts.total = some s.watch.value ∧ s.published = s.totals ∧
        exec ObjectRefState.step (.new s.objId) s.methods = some s.state ∧
        ∀ r ∈ s.receivers, s.counts.total = some (r.borrow s.watch)) ∧
      ((∀ i, s.stages i = none) → s.lock = .free ∨ s.lock = .poisoned) := by
  have hs : s.Serialized := exec_invariant Serialized.step (serialized_new objId) h
  refine ⟨fun hfree => ?_, fun hidle => ?_⟩
  · obtain ⟨hmethods, hpublished⟩ := hs.free hfree
    have hstate : s.state.Published :=
      ObjectRefState.published_of_exec (ObjectRefState.published_new s.objId) hmethods
    have hvalue : s.watch.value =
        s.counts.localRefs + s.counts.remoteRefs + s.counts.pending := hstate.total
    have htotal : s.counts.total = some s.watch.value :=
      RefCounts.total_eq_some.mpr ⟨hvalue ▸ hstate.lt, hvalue⟩
    exact ⟨htotal, hpublished, hmethods, fun _ _ => htotal⟩
  · cases hlock : s.lock with
    | free => exact Or.inl rfl
    | poisoned => exact Or.inr rfl
    | held i =>
      obtain ⟨stage, hstage, -⟩ := hs.holder i hlock
      simp [hidle i] at hstage

/-- An owner creates a handle and drops it while a looper counts an `ACQUIRE`, and one subscriber
comes late. -/
def ownerAndRemote : List (ℕ × UpdateAction) :=
  [(0, .call .increaseLocal), (1, .call .increaseRemote), (0, .go), (0, .go), (0, .go), (0, .go),
    (0, .call .decreaseLocal), (1, .go), (1, .go), (9, .subscribe), (1, .go), (1, .go), (0, .go),
    (0, .go), (0, .go), (0, .go)]

/-- The lock is free after both threads, and the subscriber reads the total that is left. -/
theorem published_never_stale_ownerAndRemote :
    ∃ s, exec Updates.step (new ⟨1, 0⟩) ownerAndRemote = some s ∧ s.lock = .free ∧
      s.published = [1, 2, 1] ∧ s.totals = [1, 2, 1] ∧ s.counts.total = some 1 ∧
        ∀ r ∈ s.receivers, some 1 = some (r.borrow s.watch) := by
  obtain ⟨s, hrun, hlock, hvalues, hvalue⟩ :
      ∃ s, exec Updates.step (new ⟨1, 0⟩) ownerAndRemote = some s ∧ s.lock = .free ∧
        s.published = [1, 2, 1] ∧ s.watch.value = 1 := ⟨_, rfl, rfl, rfl, rfl⟩
  obtain ⟨htotal, hpublished, -, hreceivers⟩ := (published_never_stale hrun).1 hlock
  rw [hvalue] at htotal
  refine ⟨s, hrun, hlock, hvalues, hpublished ▸ hvalues, htotal, fun r hr => ?_⟩
  rw [← htotal]
  exact hreceivers r hr

end Updates

end BinderBinder
