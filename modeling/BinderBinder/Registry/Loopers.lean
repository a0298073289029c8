import Mathlib.Data.List.Count
import BinderBinder.RefState

set_option relaxedAutoImplicit false
set_option autoImplicit false

/-!
# Remote counts and loopers

The `ACQUIRE` and `RELEASE` records of one object, and the threads that process them: a thread takes
a record, looks the refcounts up by id, updates the count, and answers an `ACQUIRE` by
`ACQUIRE_DONE`. Each of these is a step of its own. A thread that read several records processes
them in their order; between threads there is no order.

The kernel alternates the two records of an object, and issues a `RELEASE` after it has received the
`ACQUIRE_DONE` of the `ACQUIRE` before.

## Main definitions

* `RemoteRecord`, `Job` — a record, and how far its processing is.
* `Loopers`, `Loopers.step` — the object with the records in flight.
* `Loopers.Balanced` — the remote count, corrected by the records that are not counted yet.

## Main results

* `Loopers.Balanced.step` — every step keeps the balance.
* `Loopers.remoteRefs_of_exec` — no `RELEASE` finds the remote count at zero, and with no record in
  flight the count is that of the last record.
-/

namespace BinderBinder

open Run

/-! ## The records -/

/-- The two records about the strong references of a local object. -/
inductive RemoteRecord
  | acquire
  | release
  deriving DecidableEq, Repr

/-- The method that counts a record. -/
def RemoteRecord.op : RemoteRecord → RefOp
  | .acquire => .increaseRemote
  | .release => .decreaseRemote

/-- How far a thread is with a record: it has it, it looked the refcounts up (and found them or
not), it counted the record. -/
inductive JobPhase
  | taken
  | found (present : Bool)
  | counted
  deriving DecidableEq, Repr

/-- A record in the hands of a thread. -/
structure Job where
  thread : ℕ
  record : RemoteRecord
  phase : JobPhase
  deriving DecidableEq, Repr

/-- A record that will raise the count. -/
def Job.raises (j : Job) : Bool := j.record == .acquire && j.phase != .counted

/-- A record that will lower the count. -/
def Job.lowers (j : Job) : Bool := j.record == .release && j.phase != .counted

/-- An `ACQUIRE`, counted or not, that was not answered. -/
def Job.acquires (j : Job) : Bool := j.record == .acquire

/-- The first record in the hands of the thread `i`, with the records before and after it. -/
def firstJob (i : ℕ) : List Job → Option (List Job × Job × List Job)
  | [] => none
  | j :: js =>
    if j.thread = i then some ([], j, js)
    else (firstJob i js).map fun (before, k, after) => (j :: before, k, after)

/-- The first record of a thread is among the records, where it was found. -/
theorem firstJob_eq_some {i : ℕ} {jobs before after : List Job} {j : Job}
    (h : firstJob i jobs = some (before, j, after)) :
    jobs = before ++ j :: after ∧ j.thread = i := by
  induction jobs generalizing before with
  | nil => cases h
  | cons k ks ih =>
    rw [firstJob] at h
    split_ifs at h with hk
    · cases h
      exact ⟨rfl, hk⟩
    · obtain ⟨⟨before', j', after'⟩, hrest, heq⟩ := Option.map_eq_some_iff.mp h
      cases heq
      obtain ⟨rfl, hj⟩ := ih hrest
      exact ⟨rfl, hj⟩

/-! ## The steps -/

/-- One object: its entry in `object_refcounts`, the last record the kernel issued about it, whether
its `ACQUIRE_DONE` was received, and the records in flight, oldest first. -/
structure Loopers where
  entry : Option ObjectRefState
  last : Option RemoteRecord
  acquired : Bool
  jobs : List Job

/-- The steps of a thread: it is handed a record, it goes on with its first one (the write of
`ACQUIRE_DONE` may fail, which is only logged), it calls a method that is not one of the two, or it
unregisters the object. -/
inductive LooperAction
  | take (r : RemoteRecord)
  | lookUp
  | count
  | writeDone (ok : Bool)
  | other (op : RefOp)
  | unregister
  deriving DecidableEq, Repr

/-- The methods that no record calls. -/
def RefOp.isOther : RefOp → Bool
  | .increaseRemote | .decreaseRemote => false
  | _ => true

namespace Loopers

/-- An object that was registered. -/
def new (id : BinderObjectId) : Loopers := ⟨some (.new id), none, false, []⟩

/-- The kernel may issue the record. -/
def mayIssue (s : Loopers) : RemoteRecord → Bool
  | .acquire => s.last != some .acquire
  | .release => s.last == some .acquire && s.acquired

/-- A method runs on the entry, if there is one. -/
def runOp (s : Loopers) (op : RefOp) : Option (Option ObjectRefState) :=
  match s.entry with
  | some st => (st.step op).map some
  | none => some none

/-- The records of a thread after one was counted: an `ACQUIRE` is left to be answered. -/
def afterCount (i : ℕ) : RemoteRecord → List Job
  | .acquire => [⟨i, .acquire, .counted⟩]
  | .release => []

/-- One step of the thread `i`; `none` says that it is not enabled, or panics. The object may be
unregistered at any time, also while a thread holds what it looked up. -/
def step (s : Loopers) : ℕ × LooperAction → Option Loopers
  | (i, .take r) =>
    if s.mayIssue r = true then
      some { s with last := some r, acquired := false, jobs := s.jobs ++ [⟨i, r, .taken⟩] }
    else none
  | (i, .lookUp) =>
    match firstJob i s.jobs with
    | some (before, ⟨_, r, .taken⟩, after) =>
      some { s with jobs := before ++ [⟨i, r, .found s.entry.isSome⟩] ++ after }
    | _ => none
  | (i, .count) =>
    match firstJob i s.jobs with
    | some (before, ⟨_, r, .found true⟩, after) =>
      (s.runOp r.op).map fun entry => { s with entry, jobs := before ++ afterCount i r ++ after }
    | some (before, ⟨_, r, .found false⟩, after) =>
      some { s with jobs := before ++ afterCount i r ++ after }
    | _ => none
  | (i, .writeDone ok) =>
    match firstJob i s.jobs with
    | some (before, ⟨_, .acquire, .counted⟩, after) =>
      some { s with acquired := ok, jobs := before ++ after }
    | _ => none
  | (_, .other op) =>
    if op.isOther = true then (s.runOp op).map fun entry => { s with entry } else none
  | (_, .unregister) => some { s with entry := none }

/-- The object is referenced by the kernel after its last record. -/
def referenced (s : Loopers) : ℕ := if s.last = some .acquire then 1 else 0

/-- The kernel's last record says that there is a reference, or not. -/
theorem referenced_le (s : Loopers) : s.referenced ≤ 1 := by
  unfold referenced
  split_ifs <;> omega

/-! ## The balance -/

/-- There is at most one unanswered `ACQUIRE`, the last record. The remote count, with the records
not counted yet, is what the kernel's last record says. Whoever did not find the refcounts will not
find them again. -/
structure Balanced (s : Loopers) : Prop where
  acquires : s.jobs.countP Job.acquires ≤ if s.acquired = true then 0 else s.referenced
  remote : ∀ st, s.entry = some st →
    st.counts.remoteRefs + s.jobs.countP Job.raises =
      s.jobs.countP Job.lowers + s.referenced
  absent : ∀ j ∈ s.jobs, j.phase = .found false → s.entry = none

/-- For a new object all is balanced. -/
theorem balanced_new (id : BinderObjectId) : (new id).Balanced where
  acquires := Nat.le_refl 0
  remote st h := by
    cases h
    rfl
  absent j h := by cases h

/-- A record that is not counted yet is unanswered. -/
theorem raises_le_acquires (jobs : List Job) :
    jobs.countP Job.raises ≤ jobs.countP Job.acquires := by
  refine List.countP_mono_left fun j _ hj => ?_
  rw [Job.raises, Bool.and_eq_true] at hj
  exact hj.1

/-- While the refcounts are there, there are no fewer references than records that will give one
back. -/
theorem Balanced.lowers_le {s : Loopers} (hs : s.Balanced) {st : ObjectRefState}
    (hst : s.entry = some st) : s.jobs.countP Job.lowers ≤ st.counts.remoteRefs := by
  have hremote := hs.remote st hst
  have hacquires := hs.acquires
  have hraises := raises_le_acquires s.jobs
  split_ifs at hacquires <;> omega

/-- The methods that no record calls leave `remote` as it is. -/
theorem remoteRefs_of_isOther {st st' : ObjectRefState} {op : RefOp} (hop : op.isOther = true)
    (h : st.step op = some st') : st'.counts.remoteRefs = st.counts.remoteRefs := by
  obtain ⟨hcounts, -, -⟩ := ObjectRefState.step_eq_some.mp h
  cases op with
  | increaseLocal => rw [(RefOp.apply_increaseLocal.mp hcounts).2]
  | decreaseLocal => rw [(RefOp.apply_decreaseLocal.mp hcounts).2]
  | increaseRemote => cases hop
  | decreaseRemote => cases hop
  | markPendingRemote =>
    rcases RefOp.apply_markPendingRemote.mp hcounts with ⟨-, -, h⟩ | ⟨-, h⟩ <;> rw [h]
  | clearPendingRemote => rw [RefOp.apply_clearPendingRemote.mp hcounts]

/-- A method on an entry gives an entry exactly if there was one. -/
theorem runOp_eq_some {s : Loopers} {op : RefOp} {entry : Option ObjectRefState}
    (h : s.runOp op = some entry) :
    (s.entry = none ∧ entry = none) ∨
      ∃ st st', s.entry = some st ∧ st.step op = some st' ∧ entry = some st' := by
  unfold runOp at h
  split at h
  · next st hst =>
    obtain ⟨st', hst', rfl⟩ := Option.map_eq_some_iff.mp h
    exact Or.inr ⟨st, st', hst, hst', rfl⟩
  · next hnone =>
    cases h
    exact Or.inl ⟨hnone, rfl⟩

/-- The kernel hands a record out. -/
theorem Balanced.take {s : Loopers} (hs : s.Balanced) (i : ℕ) {r : RemoteRecord}
    (hr : s.mayIssue r = true) :
    Balanced { s with
      last := some r, acquired := false, jobs := s.jobs ++ [⟨i, r, .taken⟩] } := by
  have hacquires := hs.acquires
  have habsent : ∀ j ∈ s.jobs ++ [(⟨i, r, .taken⟩ : Job)], j.phase = .found false →
      s.entry = none := by
    intro j hj hphase
    rcases List.mem_append.mp hj with hj | hj
    · exact hs.absent j hj hphase
    · rw [List.mem_singleton] at hj
      subst hj
      cases hphase
  have hcount : ∀ p : Job → Bool, (s.jobs ++ [(⟨i, r, .taken⟩ : Job)]).countP p =
      s.jobs.countP p + if p ⟨i, r, .taken⟩ = true then 1 else 0 := by
    intro p
    rw [List.countP_append, List.countP_singleton]
  cases r with
  | acquire =>
    have hlast : s.referenced = 0 := by
      rw [mayIssue] at hr
      exact if_neg (by simpa using hr)
    rw [hlast, ite_self] at hacquires
    refine ⟨?_, fun st hst => ?_, habsent⟩
    · rw [hcount]
      exact Nat.succ_le_succ hacquires
    · have hremote := hs.remote st hst
      rw [hlast] at hremote
      rw [hcount, hcount]
      show st.counts.remoteRefs + (s.jobs.countP Job.raises + 1) = s.jobs.countP Job.lowers + 0 + 1
      omega
  | release =>
    rw [mayIssue, Bool.and_eq_true] at hr
    have hlast : s.referenced = 1 := if_pos (by simpa using hr.1)
    rw [if_pos hr.2] at hacquires
    refine ⟨?_, fun st hst => ?_, habsent⟩
    · rw [hcount]
      exact hacquires
    · have hremote := hs.remote st hst
      rw [hlast] at hremote
      rw [hcount, hcount]
      show st.counts.remoteRefs + (s.jobs.countP Job.raises + 0) = s.jobs.countP Job.lowers + 1 + 0
      omega

/-- The records around one that moves on. -/
theorem countP_around (p : Job → Bool) (before after js : List Job) :
    (before ++ js ++ after).countP p = (before ++ after).countP p + js.countP p := by
  rw [List.countP_append, List.countP_append, List.countP_append]
  omega

/-- A thread goes on with a record `j`, and what is left of it are the records `js`. -/
theorem Balanced.goOn {s : Loopers} (hs : s.Balanced) {before after js : List Job} {j : Job}
    (hjobs : s.jobs = before ++ j :: after) {entry : Option ObjectRefState} {acquired : Bool}
    (hacquires : js.countP Job.acquires = [j].countP Job.acquires ∧ acquired = s.acquired ∨
      js.countP Job.acquires = 0 ∧ j.acquires = true)
    (hremote : ∀ st', entry = some st' → ∃ st, s.entry = some st ∧
      st'.counts.remoteRefs + js.countP Job.raises + [j].countP Job.lowers =
        st.counts.remoteRefs + [j].countP Job.raises + js.countP Job.lowers)
    (habsent : ∀ k ∈ js, k.phase = .found false → entry = none) :
    Balanced { s with entry, acquired, jobs := before ++ js ++ after } := by
  have hcount : ∀ p : Job → Bool,
      s.jobs.countP p = (before ++ after).countP p + [j].countP p := by
    intro p
    rw [hjobs, ← countP_around p before after [j], List.append_assoc, List.singleton_append]
  have hold := hs.acquires
  rw [hcount] at hold
  refine ⟨?_, fun st' hst' => ?_, fun k hk hphase => ?_⟩
  · show (before ++ js ++ after).countP Job.acquires ≤
      if acquired = true then 0 else s.referenced
    rw [countP_around]
    rcases hacquires with ⟨hsame, rfl⟩ | ⟨hnone, hj⟩
    · rw [hsame]
      exact hold
    · have hone : [j].countP Job.acquires = 1 := by simp [hj]
      have hle := s.referenced_le
      split_ifs at hold ⊢ <;> omega
  · obtain ⟨st, hst, heq⟩ := hremote st' hst'
    have hbalance := hs.remote st hst
    rw [hcount, hcount] at hbalance
    show st'.counts.remoteRefs + (before ++ js ++ after).countP Job.raises =
      (before ++ js ++ after).countP Job.lowers + s.referenced
    rw [countP_around, countP_around]
    omega
  · have hnone : s.entry = none → entry = none := by
      intro hnone
      by_contra hsome
      obtain ⟨st', hst'⟩ := Option.ne_none_iff_exists'.mp hsome
      obtain ⟨st, hst, -⟩ := hremote st' hst'
      simp [hnone] at hst
    have hmem : k ∈ js ∨ k ∈ s.jobs := by
      rw [hjobs]
      simp only [List.mem_append, List.mem_cons] at hk ⊢
      tauto
    rcases hmem with hmem | hmem
    · exact habsent k hmem hphase
    · exact hnone (hs.absent k hmem hphase)

/-- A thread counts a record on the entry that it found, if it still is there. -/
theorem Balanced.counts {s : Loopers} (hs : s.Balanced) {before after : List Job} {i j : ℕ}
    {r : RemoteRecord} (hjobs : s.jobs = before ++ ⟨j, r, .found true⟩ :: after)
    {entry : Option ObjectRefState} (hentry : s.runOp r.op = some entry) :
    Balanced { s with entry, jobs := before ++ afterCount i r ++ after } := by
  refine hs.goOn hjobs (Or.inl ⟨by cases r <;> rfl, rfl⟩) (fun st' hst' => ?_) ?_
  · rcases runOp_eq_some hentry with ⟨-, rfl⟩ | ⟨st, st₁, hst, hstep, rfl⟩
    · cases hst'
    · cases hst'
      obtain ⟨hcounts, -, -⟩ := ObjectRefState.step_eq_some.mp hstep
      refine ⟨st, hst, ?_⟩
      cases r with
      | acquire =>
        rw [(RefOp.apply_increaseRemote.mp hcounts).2]
        rfl
      | release =>
        obtain ⟨hpos, hlower⟩ := RefOp.apply_decreaseRemote.mp hcounts
        rw [hlower]
        show st.counts.remoteRefs - 1 + 0 + 1 = st.counts.remoteRefs + 0 + 0
        omega
  · intro k hk hphase
    cases r <;> simp [afterCount] at hk
    subst hk
    cases hphase

/-- A thread goes on with a record whose refcounts it did not find. -/
theorem Balanced.skips {s : Loopers} (hs : s.Balanced) {before after : List Job} {i j : ℕ}
    {r : RemoteRecord} (hjobs : s.jobs = before ++ ⟨j, r, .found false⟩ :: after) :
    Balanced { s with jobs := before ++ afterCount i r ++ after } := by
  have hnone : s.entry = none := hs.absent ⟨j, r, .found false⟩ (by simp [hjobs]) rfl
  refine hs.goOn hjobs (Or.inl ⟨by cases r <;> rfl, rfl⟩) (fun st hst => ?_) fun _ _ _ => hnone
  simp [hnone] at hst

/-- The entry stays, loses its references of another kind, or goes. -/
theorem Balanced.changeEntry {s : Loopers} (hs : s.Balanced) {entry : Option ObjectRefState}
    (h : ∀ st', entry = some st' → ∃ st, s.entry = some st ∧
      st'.counts.remoteRefs = st.counts.remoteRefs) : Balanced { s with entry } where
  acquires := hs.acquires
  remote st' hst' := by
    obtain ⟨st, hst, hsame⟩ := h st' hst'
    rw [hsame]
    exact hs.remote st hst
  absent j hj hphase := by
    by_contra hsome
    obtain ⟨st', hst'⟩ := Option.ne_none_iff_exists'.mp hsome
    obtain ⟨st, hst, -⟩ := h st' hst'
    simp [hs.absent j hj hphase] at hst

/-- Every step keeps the balance. -/
theorem Balanced.step {s s' : Loopers} {l : ℕ × LooperAction} (hs : s.Balanced)
    (h : s.step l = some s') : s'.Balanced := by
  obtain ⟨i, a⟩ := l
  cases a with
  | take r =>
    rw [Loopers.step] at h
    split_ifs at h with hr
    cases h
    exact hs.take i hr
  | lookUp =>
    simp only [Loopers.step] at h
    split at h
    · next before j r after hfirst =>
      cases h
      obtain ⟨hjobs, -⟩ := firstJob_eq_some hfirst
      refine hs.goOn hjobs (Or.inl ⟨rfl, rfl⟩) (fun st hst => ⟨st, hst, rfl⟩) ?_
      intro k hk hphase
      rw [List.mem_singleton] at hk
      subst hk
      simpa using hphase
    · cases h
  | count =>
    simp only [Loopers.step] at h
    split at h
    · next before j r after hfirst =>
      obtain ⟨entry, hentry, rfl⟩ := Option.map_eq_some_iff.mp h
      obtain ⟨hjobs, -⟩ := firstJob_eq_some hfirst
      exact hs.counts hjobs hentry
    · next before j r after hfirst =>
      cases h
      obtain ⟨hjobs, -⟩ := firstJob_eq_some hfirst
      exact hs.skips hjobs
    · cases h
  | writeDone ok =>
    simp only [Loopers.step] at h
    split at h
    · next before j after hfirst =>
      cases h
      obtain ⟨hjobs, -⟩ := firstJob_eq_some hfirst
      have hdone : Balanced { s with acquired := ok, jobs := before ++ [] ++ after } :=
        hs.goOn hjobs (Or.inr ⟨rfl, rfl⟩) (fun st hst => ⟨st, hst, rfl⟩) (by simp)
      rwa [List.append_nil] at hdone
    · cases h
  | other op =>
    rw [Loopers.step] at h
    split_ifs at h with hop
    obtain ⟨entry, hentry, rfl⟩ := Option.map_eq_some_iff.mp h
    refine hs.changeEntry fun st' hst' => ?_
    rcases runOp_eq_some hentry with ⟨-, rfl⟩ | ⟨st, st₁, hst, hstep, rfl⟩
    · cases hst'
    · cases hst'
      exact ⟨st, hst, remoteRefs_of_isOther hop hstep⟩
  | unregister =>
    cases h
    exact hs.changeEntry (by simp)

/-! ## The remote count -/

/-- A `RELEASE` that is to be counted on refcounts that are there finds a remote count above zero.
With no record in flight, the remote count is one if the last record was an `ACQUIRE`, and else zero.

**Proof sketch.** The remote count, raised by the `ACQUIRE`s and lowered by the `RELEASE`s that are
not counted yet, is what the last record says. An `ACQUIRE` that is not counted is not answered
either, so it is the last record and the only one of its kind; then the last record says one, and
the count is no less than the number of `RELEASE`s that are not counted. -/
theorem remoteRefs_of_exec {id : BinderObjectId} {ls : List (ℕ × LooperAction)} {s : Loopers}
    (h : exec step (new id) ls = some s) {st : ObjectRefState} (hst : s.entry = some st) :
    (∀ j ∈ s.jobs, j.record = .release → j.phase = .found true → 0 < st.counts.remoteRefs) ∧
      (s.jobs = [] → st.counts.remoteRefs = if s.last = some .acquire then 1 else 0) := by
  have hs : s.Balanced := exec_invariant Balanced.step (balanced_new id) h
  refine ⟨fun j hj hrecord hphase => ?_, fun hnil => ?_⟩
  · have hlowers : 0 < s.jobs.countP Job.lowers :=
      List.countP_pos_iff.mpr ⟨j, hj, by rw [Job.lowers, hrecord, hphase]; rfl⟩
    exact Nat.lt_of_lt_of_le hlowers (hs.lowers_le hst)
  · have hremote := hs.remote st hst
    simpa [hnil, referenced] using hremote

/-- Thread 1 is handed a `RELEASE`, and thread 2 counts the next `ACQUIRE` before it is counted. -/
def overtaken : List (ℕ × LooperAction) :=
  [(0, .take .acquire), (0, .lookUp), (0, .count), (0, .writeDone true), (1, .take .release),
    (2, .take .acquire), (2, .lookUp), (2, .count), (1, .lookUp)]

/-- Both threads go on. -/
def settled : List (ℕ × LooperAction) := [(1, .count), (2, .writeDone true)]

/-- The count is two before the `RELEASE` is counted, and one at the end. -/
theorem remoteRefs_of_exec_overtaken :
    (∃ s st, exec step (new ⟨1, 0⟩) overtaken = some s ∧ s.entry = some st ∧
      st.counts.remoteRefs = 2 ∧ 0 < st.counts.remoteRefs) ∧
    ∃ s st, exec step (new ⟨1, 0⟩) (overtaken ++ settled) = some s ∧ s.entry = some st ∧
      st.counts.remoteRefs = 1 := by
  obtain ⟨s, st, hrun, hst, htwo, hjob⟩ :
      ∃ s st, exec step (new ⟨1, 0⟩) overtaken = some s ∧ s.entry = some st ∧
        st.counts.remoteRefs = 2 ∧ ⟨1, .release, .found true⟩ ∈ s.jobs :=
    ⟨_, _, rfl, rfl, rfl, List.mem_cons_self⟩
  obtain ⟨s', st', hrun', hst', hnil, hlast⟩ :
      ∃ s st, exec step (new ⟨1, 0⟩) (overtaken ++ settled) = some s ∧ s.entry = some st ∧
        s.jobs = [] ∧ s.last = some .acquire := ⟨_, _, rfl, rfl, rfl, rfl⟩
  refine ⟨⟨s, st, hrun, hst, htwo, ?_⟩, s', st', hrun', hst', ?_⟩
  · exact (remoteRefs_of_exec hrun hst).1 _ hjob rfl rfl
  · rw [(remoteRefs_of_exec hrun' hst').2 hnil, hlast, if_pos rfl]

end Loopers

end BinderBinder
