import Mathlib.Algebra.GroupWithZero.Nat
import BinderBinder.Device.Guards

set_option relaxedAutoImplicit false
set_option autoImplicit false

/-!
# The outcome of a one-way send

What `remote_transact_one_way` promises about its transaction, over every run of a thread. The send
returns `Ok` as soon as a read returns without an error, whether the record that answers it was
among those the read gave out or is still to come.

## Main definitions

* `KernelRecord.acks`, `lastAck` — the records that answer a send, and the last one read.
* `Thread.OneWayAccepted` — sends return `Ok` when they were accepted, and leave no answer behind.
* `Thread.ReadsAnswer` — every read of a send gives out its answer.

## Main results

* `Thread.oneWayAccepted_along` — then `Ok` means accepted.
* `Thread.oneWay_ok_unanswered` — a read that is full before the answer does not give it out.
-/

namespace BinderBinder

/-! ## Answers to one-way sends -/

/-- The records that answer a transmission that expects no `REPLY`: it was accepted, or it failed. -/
def Record.endsSend : Record → Bool
  | .transactionComplete => true
  | r => r.isFailure

/-- The record answers the one-way send `n`. -/
def KernelRecord.acks (n : ℕ) (r : KernelRecord) : Bool :=
  r.record.endsSend && r.about == some (.oneWay n)

/-- The last answer to the one-way send `n` among the records that the thread has read; the latest
event is first. -/
def lastAck (n : ℕ) : List Event → Option Record
  | [] => none
  | .read _ rs :: events =>
    match (rs.filter (KernelRecord.acks n)).getLast? with
    | some r => some r.record
    | none => lastAck n events
  | _ :: events => lastAck n events

/-- The number of the one-way send of a frame, if it is one. -/
def Owner.oneWayId : Owner → Option ℕ
  | .oneWay n _ => some n
  | _ => none

namespace Kernel

/-- A reply is no one-way send. -/
theorem count_unacked_reply (k : Kernel) (m n : ℕ) :
    (k.write (.reply m)).unacked.count (.oneWay n) = k.unacked.count (.oneWay n) := by
  rw [write]
  split <;> simp

/-- A one-way send is unanswered once more after it is written, and no other write changes that. -/
theorem count_unacked_writeOwner (k : Kernel) (o : Owner) (n : ℕ) :
    (k.writeOwner o).unacked.count (.oneWay n) =
      k.unacked.count (.oneWay n) + if o.oneWayId = some n then 1 else 0 := by
  cases o with
  | looper => simp [writeOwner, Owner.sendId, Owner.oneWayId]
  | call t txn => simp [writeOwner, Owner.sendId, Owner.oneWayId, write]
  | oneWay m txn =>
    simp only [writeOwner, Owner.sendId, Owner.oneWayId, write, List.count_cons, Option.some.injEq,
      beq_iff_eq, SendId.oneWay.injEq]
  | reply m txn replyData =>
    have hreply := count_unacked_reply k m n
    simpa [writeOwner, Owner.sendId, Owner.oneWayId] using hreply

/-- Settling a one-way send answers it, settling anything else does not. -/
theorem count_unacked_settle {k k' : Kernel} {about : Option SendId} (h : k.settle about = some k')
    (n : ℕ) : k.unacked.count (.oneWay n) =
      k'.unacked.count (.oneWay n) + if about = some (.oneWay n) then 1 else 0 := by
  unfold settle at h
  split at h
  · split_ifs at h
    cases h
    simp
  · next id _ =>
    split_ifs at h with hmem
    cases h
    by_cases hid : id = .oneWay n
    · subst hid
      have hpos := List.count_pos_iff.mpr hmem
      simp only [List.count_erase_self, if_true]
      omega
    · rw [List.count_erase_of_ne (Ne.symm hid), if_neg (fun heq => hid (Option.some.inj heq)),
        Nat.add_zero]
  · cases h

/-- A record takes a one-way send off the unanswered ones exactly if it answers the send. -/
theorem count_unacked_deliver {k k' : Kernel} {r : KernelRecord} (h : k.deliver r = some k')
    (n : ℕ) : k.unacked.count (.oneWay n) =
      k'.unacked.count (.oneWay n) + if r.acks n then 1 else 0 := by
  obtain ⟨record, about⟩ := r
  cases record
  case deadReply | failedReply | frozenReply =>
    have hcount := count_unacked_settle h n
    simpa [KernelRecord.acks, Record.endsSend, Record.isFailure] using hcount
  case reply txn =>
    rcases about with _ | t' | m | m
    case some.call =>
      have hcount := @count_unacked_settle k k' (some (.call t')) h n
      simpa [KernelRecord.acks, Record.endsSend, Record.isFailure] using hcount
    all_goals cases h
  case transactionComplete =>
    rcases about with _ | t' | m | m
    · cases h
    · cases h
      simp [KernelRecord.acks]
    · have hcount := @count_unacked_settle k k' (some (.oneWay m)) h n
      simpa [KernelRecord.acks, Record.endsSend] using hcount
    · have hcount := @count_unacked_settle k k' (some (.reply m)) h n
      simpa [KernelRecord.acks] using hcount
  case transaction secCtx txn =>
    simp only [deliver] at h
    split_ifs at h
    · cases h
      rfl
    · split at h
      · cases h
      · cases h
        rfl
  all_goals cases h; rfl

/-- A read takes a one-way send off as often as its records answer the send. -/
theorem count_unacked_deliverAll {k k' : Kernel} {rs : List KernelRecord}
    (h : k.deliverAll rs = some k') (n : ℕ) :
    k.unacked.count (.oneWay n) =
      k'.unacked.count (.oneWay n) + rs.countP (KernelRecord.acks n) := by
  induction rs generalizing k with
  | nil =>
    cases h
    rfl
  | cons r rs ih =>
    obtain ⟨k₁, hk₁, hrest⟩ := Option.bind_eq_some_iff.mp h
    rw [count_unacked_deliver hk₁ n, ih hrest, List.countP_cons]
    omega

end Kernel

namespace Thread

/-! ## What a send promises -/

/-- One-way sends end with their own outcome: `Ok` only after the kernel's last answer was that it
accepted the transaction, so never after a failure; and when a send has ended, no answer to it is
still to come. -/
structure OneWayAccepted (s : Thread) : Prop where
  accepted : ∀ n cause before, .oneWayEnded n (.ok ()) cause :: before <:+ s.history →
    lastAck n before = some .transactionComplete
  failed : ∀ n res cause before r, .oneWayEnded n res cause :: before <:+ s.history →
    lastAck n before = some r → r.isFailure = true → ∃ err, res = .error err
  settled : ∀ n res cause, .oneWayEnded n res cause ∈ s.history → .oneWay n ∉ s.kernel.unacked

/-- Among the records of a read is the answer to the one-way send `n`, and if that is a failure, no
`REPLY` comes before it. -/
def Answered (n : ℕ) (rs : List KernelRecord) : Prop :=
  ∃ before r after, rs = before ++ r :: after ∧ r.acks n = true ∧
    (r.record.isFailure = true → ∀ r' ∈ before, ∀ txn, r'.record ≠ .reply txn)

/-- Every read of a one-way send gives out its answer, and its ioctl does not fail once the kernel
has taken its write. -/
def ReadsAnswer (s : Thread) (l : Label) : Prop :=
  match l, s.frames with
  | .read rs _, ⟨.oneWay n _, _⟩ :: _ => Answered n rs
  | .ioctlFailed _ _ taken, ⟨.oneWay _ _, .ioctl write⟩ :: _ => (write && taken) = false
  | _, _ => True

/-! ## The last answer -/

/-- Only reads give out answers. -/
theorem lastAck_append {n : ℕ} {events history : List Event}
    (h : ∀ o rs, .read o rs ∉ events) : lastAck n (events ++ history) = lastAck n history := by
  induction events with
  | nil => rfl
  | cons e events ih =>
    have hrest := ih fun o rs hmem => h o rs (List.mem_cons_of_mem _ hmem)
    cases e with
    | read o rs => exact (h o rs List.mem_cons_self).elim
    | _ => exact hrest

/-- A read that gives out no answer does not change the last one. -/
theorem lastAck_read_of_none {n : ℕ} {o : Owner} {rs : List KernelRecord} {history : List Event}
    (h : rs.countP (KernelRecord.acks n) = 0) :
    lastAck n (.read o rs :: history) = lastAck n history := by
  have hnil : rs.filter (KernelRecord.acks n) = [] := by
    rw [List.countP_eq_length_filter] at h
    exact List.eq_nil_of_length_eq_zero h
  rw [lastAck, hnil]
  rfl

/-- The only answer that a read gives out is the last one. -/
theorem lastAck_read_of_one {n : ℕ} {o : Owner} {before after : List KernelRecord}
    {r : KernelRecord} {history : List Event} (hr : r.acks n = true)
    (h : (before ++ r :: after).countP (KernelRecord.acks n) ≤ 1) :
    lastAck n (.read o (before ++ r :: after) :: history) = some r.record := by
  rw [List.countP_append, List.countP_cons, if_pos hr] at h
  have hnil : ∀ rs : List KernelRecord, rs.countP (KernelRecord.acks n) = 0 →
      rs.filter (KernelRecord.acks n) = [] := by
    intro rs hrs
    rw [List.countP_eq_length_filter] at hrs
    exact List.eq_nil_of_length_eq_zero hrs
  have hfilter : (before ++ r :: after).filter (KernelRecord.acks n) = [r] := by
    rw [List.filter_append, List.filter_cons, if_pos hr, hnil before (by omega),
      hnil after (by omega), List.nil_append]
  rw [lastAck, hfilter]
  rfl

/-- What a frame logs when it leaves is no read. -/
theorem Leaves.not_read {o : Owner} {res : Option WriteReadResult} {cause : Cause}
    {write : Option Bool} {events : List Event} (h : Leaves o res cause write events)
    (o' : Owner) (rs : List KernelRecord) : .read o' rs ∉ events := by
  cases h <;> simp

/-! ## Sends whose reads give out their answers -/

/-- The numbers of the one-way sends among some frames. -/
def oneWayIds (frames : List Frame) : List ℕ := frames.filterMap fun f => f.owner.oneWayId

/-- The phase of a frame does not matter for its number. -/
theorem oneWayIds_cons (o : Owner) (phase : Phase) (outer : List Frame) :
    oneWayIds (⟨o, phase⟩ :: outer) = o.oneWayId.toList ++ oneWayIds outer :=
  filterMap_owner_cons Owner.oneWayId o phase outer

/-- A frame of a send has its number among those of the frames. -/
theorem mem_oneWayIds {frames : List Frame} {f : Frame} (hf : f ∈ frames) {n : ℕ}
    (hn : f.owner.oneWayId = some n) : n ∈ oneWayIds frames :=
  List.mem_filterMap.mpr ⟨f, hf, hn⟩

/-- A failure will be dispatched, and no `REPLY` before it. -/
def FailureAhead (rest : List KernelRecord) : Prop :=
  ∃ before r after, rest = before ++ r :: after ∧ r.record.isFailure = true ∧
    ∀ r' ∈ before, ∀ txn, r'.record ≠ .reply txn

/-- No one-way send is unanswered between two steps, and each send that has read was accepted, or
will dispatch a failure. Frames further in have larger numbers. -/
structure Answering (s : Thread) : Prop where
  quiet : ∀ n, s.kernel.unacked.count (.oneWay n) = 0
  decreasing : (s.nextId :: oneWayIds s.frames).Pairwise (· > ·)
  answered : ∀ f ∈ s.frames, ∀ n, f.owner.oneWayId = some n → (∀ write, f.phase ≠ .ioctl write) →
    lastAck n s.history = some .transactionComplete ∨ FailureAhead f.phase.rest
  accepted : ∀ n cause before, .oneWayEnded n (.ok ()) cause :: before <:+ s.history →
    lastAck n before = some .transactionComplete

/-- An event that is not the last one was logged before. -/
theorem suffix_of_suffix_cons {e e' : Event} {before history : List Event}
    (h : e' :: before <:+ e :: history) (hne : e' ≠ e) : e' :: before <:+ history :=
  (List.suffix_cons_iff.mp h).resolve_left fun heq => hne (List.cons.inj heq).1

/-- A thread that has done nothing has sent nothing. -/
theorem answering_idle (p : Process) : (idle p).Answering where
  quiet _ := rfl
  decreasing := List.pairwise_singleton _ _
  answered f hf := by cases hf
  accepted n cause before h := by simp [idle] at h

/-- The number of a frame is not that of one further out. -/
theorem Answering.ne_outer {s : Thread} (hs : s.Answering) {o : Owner} {phase : Phase}
    {outer : List Frame} (hframes : s.frames = ⟨o, phase⟩ :: outer) {n : ℕ} (hn : n ∈ oneWayIds outer) :
    o.oneWayId ≠ some n := by
  intro ho
  have hdecreasing := hs.decreasing
  rw [hframes, oneWayIds_cons, ho] at hdecreasing
  have hlt := (List.pairwise_cons.mp (List.pairwise_cons.mp hdecreasing).2).1 n hn
  exact Nat.lt_irrefl _ hlt

/-- A step that answers nothing, begins no send and lets no failure pass keeps sends answering. -/
theorem Answering.mono {s s' : Thread} (hs : s.Answering)
    (hquiet : ∀ n, s'.kernel.unacked.count (.oneWay n) = 0) (hnext : s.nextId ≤ s'.nextId)
    (hsub : (oneWayIds s'.frames).Sublist (oneWayIds s.frames))
    (hack : ∀ n ∈ oneWayIds s'.frames, lastAck n s'.history = lastAck n s.history)
    (hframes : ∀ f ∈ s'.frames, (∀ write, f.phase ≠ .ioctl write) →
      ∃ f' ∈ s.frames, f'.owner = f.owner ∧ (∀ write, f'.phase ≠ .ioctl write) ∧
        (FailureAhead f'.phase.rest → FailureAhead f.phase.rest))
    (haccepted : ∀ n cause before, .oneWayEnded n (.ok ()) cause :: before <:+ s'.history →
      lastAck n before = some .transactionComplete) : s'.Answering where
  quiet := hquiet
  decreasing := by
    obtain ⟨hfresh, hids⟩ := List.pairwise_cons.mp hs.decreasing
    refine List.pairwise_cons.mpr ⟨fun n hn => ?_, hids.sublist hsub⟩
    exact Nat.lt_of_lt_of_le (hfresh n (hsub.subset hn)) hnext
  answered f hf n hn hphase := by
    obtain ⟨f', hf', ho, hphase', hahead⟩ := hframes f hf hphase
    rw [hack n (mem_oneWayIds hf hn)]
    rcases hs.answered f' hf' n (by rw [ho, hn]) hphase' with h | h
    · exact Or.inl h
    · exact Or.inr (hahead h)
  accepted := haccepted

/-- A read gives out at most the answer to the send of its own frame. -/
theorem Answering.count_read {s : Thread} (hs : s.Answering) {o : Owner} {write : Bool}
    {rs : List KernelRecord} {k : Kernel}
    (hk : (if write then s.kernel.writeOwner o else s.kernel).deliverAll rs = some k) (n : ℕ) :
    k.unacked.count (.oneWay n) + rs.countP (KernelRecord.acks n) ≤
      if o.oneWayId = some n then 1 else 0 := by
  have hcount := Kernel.count_unacked_deliverAll hk n
  have hquiet := hs.quiet n
  cases write with
  | false =>
    simp only [Bool.false_eq_true, if_false] at hcount
    omega
  | true =>
    simp only [if_true, Kernel.count_unacked_writeOwner] at hcount
    omega

/-- An answered read gives out an answer. -/
theorem Answered.countP_pos {n : ℕ} {rs : List KernelRecord} (h : Answered n rs) :
    0 < rs.countP (KernelRecord.acks n) := by
  obtain ⟨before, r, after, rfl, hr, -⟩ := h
  exact List.countP_pos_iff.mpr ⟨r, by simp, hr⟩

/-- A failure is no completion, and what answers a send and is no failure is one. -/
theorem complete_or_failure {r : KernelRecord} {n : ℕ} (h : r.acks n = true) :
    r.record = .transactionComplete ∨ r.record.isFailure = true := by
  rw [KernelRecord.acks, Bool.and_eq_true] at h
  cases hrec : r.record <;> simp_all [Record.endsSend, Record.isFailure]

/-- **Step.** A read that gives out the answer of its own send keeps sends answering. -/
theorem Answering.read {s : Thread} (hs : s.Answering) {o : Owner} {write : Bool}
    {outer : List Frame} {rs : List KernelRecord} {k : Kernel}
    (hframes : s.frames = ⟨o, .ioctl write⟩ :: outer)
    (hk : (if write then s.kernel.writeOwner o else s.kernel).deliverAll rs = some k)
    (hread : ∀ n, o.oneWayId = some n → Answered n rs) :
    Answering ⟨s.process, k, ⟨o, .dispatch rs⟩ :: outer, s.nextId, .read o rs :: s.history⟩ where
  quiet n := by
    have hle := hs.count_read hk n
    show k.unacked.count (.oneWay n) = 0
    split_ifs at hle with ho
    · have hpos := (hread n ho).countP_pos
      omega
    · omega
  decreasing := by
    have hdecreasing := hs.decreasing
    rwa [hframes] at hdecreasing
  answered f hf n hn hphase := by
    rcases List.mem_cons.mp hf with rfl | hf
    · obtain ⟨before, r, after, rfl, hr, hahead⟩ := hread n hn
      have hle := hs.count_read hk n
      rw [if_pos hn] at hle
      have hlast : lastAck n (.read o (before ++ r :: after) :: s.history) = some r.record :=
        lastAck_read_of_one hr (by omega)
      rcases complete_or_failure hr with hcomplete | hfail
      · rw [hcomplete] at hlast
        exact Or.inl hlast
      · exact Or.inr ⟨before, r, after, rfl, hfail, hahead hfail⟩
    · have hne := hs.ne_outer hframes (mem_oneWayIds hf hn)
      have hle := hs.count_read hk n
      rw [if_neg hne] at hle
      rw [lastAck_read_of_none (by omega)]
      exact hs.answered f (by rw [hframes]; exact List.mem_cons_of_mem _ hf) n hn hphase
  accepted n cause before h := hs.accepted n cause before (suffix_of_suffix_cons h (by simp))

/-- A send that ends with `Ok` was accepted: its read was used up, or returned for a `REPLY`, and
in neither case was a failure of it ahead. -/
theorem Answering.accepted_of_returns {s : Thread} (hs : s.Answering) {n : ℕ} {txn : Transmission}
    {l : Label} {phase : Phase} {outer : List Frame} {k : Kernel} {m : ℕ} {rest : List KernelRecord}
    {res : Option WriteReadResult} {cause : Cause}
    (hframes : s.frames = ⟨.oneWay n txn, phase⟩ :: outer)
    (hret : Returns s (.oneWay n txn) l phase k m rest res cause)
    (hok : ∀ e, res ≠ some (.error e)) : lastAck n s.history = some .transactionComplete := by
  have hmem : ⟨.oneWay n txn, phase⟩ ∈ s.frames := by rw [hframes]; exact List.mem_cons_self
  cases hret with
  | exhausted =>
    rcases hs.answered _ hmem n rfl (by simp) with h | ⟨before, r, after, hnil, -⟩
    · exact h
    · simp [Phase.rest] at hnil
  | @record w r rest k m res hreturned hk =>
    rcases hs.answered _ hmem n rfl (by simp) with h | ⟨before, r', after, hrest, hfail, hreply⟩
    · exact h
    · exfalso
      generalize hrec : r.record = record at hreturned
      cases hreturned with
      | reply t =>
        cases before with
        | nil =>
          cases hrest
          rw [hrec] at hfail
          cases hfail
        | cons r₀ before =>
          cases hrest
          exact hreply r List.mem_cons_self t hrec
      | _ => exact hok _ rfl
  | ioctlFailed => exact (hok _ rfl).elim

/-- What a return leaves in the kernel has no one-way send unanswered. -/
theorem Answering.quiet_of_returns {s : Thread} (hs : s.Answering) {l : Label} {o : Owner}
    {phase : Phase} {outer : List Frame} {k : Kernel} {m : ℕ} {rest : List KernelRecord}
    {res : Option WriteReadResult} {cause : Cause} (hread : s.ReadsAnswer l)
    (hframes : s.frames = ⟨o, phase⟩ :: outer) (hret : Returns s o l phase k m rest res cause)
    (n : ℕ) : k.unacked.count (.oneWay n) = 0 := by
  cases hret with
  | exhausted => exact hs.quiet n
  | record _ hk =>
    rcases hk with ⟨rfl, -⟩ | ⟨rfl, -⟩
    · exact hs.quiet n
    · rw [Kernel.count_unacked_reply, hs.quiet n]
  | @ioctlFailed w errno taken write =>
    split_ifs with htaken
    · rw [Kernel.count_unacked_writeOwner, hs.quiet n, Nat.zero_add]
      refine if_neg fun ho => ?_
      cases o with
      | oneWay m txn =>
        unfold ReadsAnswer at hread
        rw [hframes] at hread
        exact absurd htaken (by simp [hread])
      | _ => cases ho
    · exact hs.quiet n

/-- **Step.** A frame that leaves keeps sends answering. -/
theorem Answering.leave {s : Thread} (hs : s.Answering) {l : Label} {p : Process} {o : Owner}
    {phase : Phase} {outer : List Frame} {k : Kernel} {m : ℕ} {rest : List KernelRecord}
    {res : Option WriteReadResult} {cause : Cause} {write : Option Bool} {events : List Event}
    (hread : s.ReadsAnswer l) (hframes : s.frames = ⟨o, phase⟩ :: outer)
    (hret : Returns s o l phase k m rest res cause) (hleaves : Leaves o res cause write events) :
    Answering ⟨p, k, again o outer write, m, events ++ .dropped o rest :: s.history⟩ := by
  have hack : ∀ n, lastAck n (events ++ .dropped o rest :: s.history) = lastAck n s.history :=
    fun n => lastAck_append hleaves.not_read
  refine hs.mono (hs.quiet_of_returns hread hframes hret) hret.le_nextId ?_ (fun n _ => hack n) ?_ ?_
  · rw [hframes]
    exact filterMap_owner_again Owner.oneWayId o phase outer write
  · intro f hf hphase
    have houter : f ∈ outer → f ∈ s.frames := fun h => by
      rw [hframes]
      exact List.mem_cons_of_mem _ h
    cases write with
    | none => exact ⟨f, houter hf, rfl, hphase, fun h => h⟩
    | some write =>
      rcases List.mem_cons.mp hf with rfl | hf
      · exact (hphase write rfl).elim
      · exact ⟨f, houter hf, rfl, hphase, fun h => h⟩
  · intro n cause' before h
    have hskip : .oneWayEnded n (.ok ()) cause' :: before <:+ .dropped o rest :: s.history →
        lastAck n before = some .transactionComplete :=
      fun h => hs.accepted n cause' before (suffix_of_suffix_cons h (by simp))
    cases hleaves with
    | oneWayOk hok =>
      rcases List.suffix_cons_iff.mp h with heq | h
      · cases heq
        exact hs.accepted_of_returns hframes hret hok
      · exact hskip h
    | callOk | replyError => exact hskip (suffix_of_suffix_cons h (by simp))
    | callError | oneWayError =>
      have h := suffix_of_suffix_cons h (by simp)
      exact hskip (suffix_of_suffix_cons h (by simp))
    | _ => exact hskip h

/-- The innermost frame may dispatch records that are no failures. -/
theorem Answering.advance {s : Thread} (hs : s.Answering) {p : Process} {o : Owner}
    {phase phase' : Phase} {outer : List Frame} (hframes : s.frames = ⟨o, phase⟩ :: outer)
    (hphase : ∀ write, phase ≠ .ioctl write)
    (hahead : FailureAhead phase.rest → FailureAhead phase'.rest) :
    Answering ⟨p, s.kernel, ⟨o, phase'⟩ :: outer, s.nextId, s.history⟩ := by
  refine hs.mono hs.quiet (Nat.le_refl _) ?_ (fun n _ => rfl) (fun f hf hphase' => ?_) hs.accepted
  · rw [hframes, oneWayIds_cons, oneWayIds_cons]
  · rcases List.mem_cons.mp hf with rfl | hf
    · exact ⟨⟨o, phase⟩, by rw [hframes]; exact List.mem_cons_self, rfl, hphase, hahead⟩
    · exact ⟨f, by rw [hframes]; exact List.mem_cons_of_mem _ hf, rfl, hphase', fun h => h⟩

/-- A new frame keeps sends answering; if it is one of a send, the send has a new number. -/
theorem Answering.enter {s : Thread} (hs : s.Answering) {o : Owner}
    (hnew : ∀ n, o.oneWayId = some n → n = s.nextId) : (s.enter o).Answering where
  quiet := hs.quiet
  decreasing := by
    obtain ⟨hfresh, hids⟩ := List.pairwise_cons.mp hs.decreasing
    have hlater : ∀ n ∈ oneWayIds s.frames, s.nextId + 1 > n :=
      fun n hn => Nat.lt_succ_of_lt (hfresh n hn)
    show ((s.nextId + 1) :: oneWayIds (⟨o, .ioctl true⟩ :: s.frames)).Pairwise (· > ·)
    rw [oneWayIds_cons]
    cases ho : o.oneWayId with
    | none => exact List.pairwise_cons.mpr ⟨hlater, hids⟩
    | some n =>
      obtain rfl := hnew n ho
      refine List.pairwise_cons.mpr ⟨fun m hm => ?_, List.pairwise_cons.mpr ⟨hfresh, hids⟩⟩
      rcases List.mem_cons.mp hm with rfl | hm
      · exact Nat.lt_succ_self _
      · exact hlater m hm
  answered f hf n hn hphase := by
    rcases List.mem_cons.mp hf with rfl | hf
    · exact (hphase true rfl).elim
    · exact hs.answered f hf n hn hphase
  accepted := hs.accepted

/-- A record that is no failure is not the failure that is ahead. -/
theorem FailureAhead.tail {r : KernelRecord} {rest : List KernelRecord}
    (h : FailureAhead (r :: rest)) (hr : r.record.isAnswer = false) : FailureAhead rest := by
  obtain ⟨before, r', after, heq, hfail, hreply⟩ := h
  cases before with
  | nil =>
    cases heq
    rw [Record.isAnswer_of_isFailure hfail] at hr
    cases hr
  | cons r₀ before =>
    cases heq
    exact ⟨before, r', after, rfl, hfail, fun r'' hr'' => hreply r'' (List.mem_cons_of_mem _ hr'')⟩

/-- **Step.** A step whose read gives out the answer keeps sends answering. -/
theorem Answering.step {s s' : Thread} {l : Label} (hs : s.Answering) (hread : s.ReadsAnswer l)
    (h : Effect s l s') : s'.Answering := by
  cases h with
  | @start _ p o _ ho =>
    have henter : (s.enter o).Answering := by
      refine hs.enter fun n hn => ?_
      rcases ho with rfl | ⟨txn, rfl | rfl⟩ <;> cases hn
      rfl
    exact ⟨henter.quiet, henter.decreasing, henter.answered, henter.accepted⟩
  | @read o outer write rs k hframes hk =>
    refine hs.read hframes hk fun n ho => ?_
    unfold ReadsAnswer at hread
    rw [hframes] at hread
    cases o <;> cases ho
    exact hread
  | @readGone outer write rs k hframes hk =>
    have hcount : ∀ n, k.unacked.count (.oneWay n) + rs.countP (KernelRecord.acks n) = 0 := by
      intro n
      rw [← Kernel.count_unacked_deliverAll hk n, hs.quiet n]
    refine hs.mono (fun n => Nat.eq_zero_of_add_eq_zero_right (hcount n)) (Nat.le_refl _) ?_
      (fun n _ => ?_) (fun f hf hphase => ?_) fun n cause before h => ?_
    · rw [hframes, oneWayIds_cons]
      exact List.sublist_append_right _ _
    · have hnone := @lastAck_read_of_none n .looper rs s.history
      exact hnone (Nat.eq_zero_of_add_eq_zero_left (hcount n))
    · exact ⟨f, by rw [hframes]; exact List.mem_cons_of_mem _ hf, rfl, hphase, fun h => h⟩
    · have h := suffix_of_suffix_cons h (by simp)
      exact hs.accepted n cause before (suffix_of_suffix_cons h (by simp))
  | next hframes hr _ | handle hframes hr _ =>
    exact hs.advance hframes (by simp) fun hahead => hahead.tail hr
  | handledOneWay hframes => exact hs.advance hframes (by simp) fun hahead => hahead
  | @handledTwoWay w replyData o outer txn rest reply p hframes =>
    have hadv : Answering ⟨p, s.kernel, ⟨o, .dispatch rest⟩ :: outer, s.nextId, s.history⟩ :=
      hs.advance hframes (by simp) fun hahead => hahead
    exact hadv.enter fun n hn => by cases hn
  | leave hframes hret hleaves => exact hs.leave hread hframes hret hleaves
  | others => exact ⟨hs.quiet, hs.decreasing, hs.answered, hs.accepted⟩

/-- **One-way `Ok` means accepted.** In every run in which each read of a one-way send gives out the
answer to the transaction it carries, a send returns `Ok` only after the kernel said that it
accepted the transaction, and `Err` if it failed; and no answer is left for a later read.

**Proof sketch.** Between two steps no send is unanswered. A frame that has read either was
accepted, or a failure is ahead of every `REPLY` in its buffer, for which its read returns. -/
theorem oneWayAccepted_along (kernelWrite : KernelWrite) (p : Process) (ls : List Label) (s : Thread)
    (h : Run.exec (step kernelWrite) (idle p) ls = some s)
    (hread : Run.Along (step kernelWrite) ReadsAnswer (idle p) ls) : s.OneWayAccepted := by
  have hs : s.Answering := Run.exec_invariant_along
    (fun hs hC hstep => hs.step hC (step_effect hstep)) (answering_idle p) hread h
  refine ⟨hs.accepted, fun n res cause before r hsuffix hlast hfail => ?_, fun n _ _ _ hmem => ?_⟩
  · cases res with
    | error err => exact ⟨err, rfl⟩
    | ok _ =>
      rw [hs.accepted n cause before hsuffix] at hlast
      cases hlast
      cases hfail
  · have hpos := List.count_pos_iff.mpr hmem
    rw [hs.quiet n] at hpos
    exact Nat.lt_irrefl _ hpos

/-- Six local objects. -/
def sixIds : List BinderObjectId := (List.range 6).map fun n => ⟨UInt64.ofNat (n + 1), 0⟩

/-- A process on which some objects are registered. -/
def processWithAll (ids : List BinderObjectId) : Process where
  device :=
    { BinderDevice.new 0 with
      objects := fun id => if id ∈ ids then some ⟨0⟩ else none
      objectRefcounts := fun id => if id ∈ ids then some (ObjectRefState.new id) else none }
  cancelled := []
  loopers := 0

/-- A one-way transmission that embeds some local objects. -/
def objectsTransmission (ids : List BinderObjectId) : Transmission where
  header := ⟨.ofHandle 0 0, 0, 0, TransactionFlags.acceptFds ||| TransactionFlags.oneWay, 0, 0,
    UInt64.ofNat (24 * ids.length), UInt64.ofNat (8 * ids.length), 0, 0⟩
  data := ids.flatMap fun id => FlatBinderObject.layout.encode
    ⟨⟨BinderType.binder.toU32⟩, FlatBinderFlags.acceptsFds, .ofBinder id.id, id.cookie⟩
  offsets := (List.range ids.length).map (24 * ·)

/-- What the kernel queues for the sender before it answers: `INCREFS` and `ACQUIRE` of each object
it sees for the first time, behind the `NOOP` at the start of every read. -/
def firstReferences (ids : List BinderObjectId) : List KernelRecord :=
  ⟨.noop, none⟩ :: ids.flatMap fun id =>
    [⟨.increfs ⟨id.id, id.cookie⟩, none⟩, ⟨.acquire ⟨id.id, id.cookie⟩, none⟩]

/-- A one-way send of an object whose read gives out the references and the completion. -/
def sendOne : List Label :=
  [.startOneWay (objectsTransmission [⟨1, 0⟩]),
    .read (firstReferences [⟨1, 0⟩] ++ [⟨.transactionComplete, some (.oneWay 0)⟩]) true] ++
      List.replicate 5 (.dispatch quietWorld)

/-- A one-way send of six objects: the references fill the read, which returns without the answer. -/
def sendSix : List Label :=
  [.startOneWay (objectsTransmission sixIds), .read (firstReferences sixIds) true] ++
    List.replicate 14 (.dispatch quietWorld)

/-- The send of one object returns `Ok`, and was accepted. -/
theorem oneWayAccepted_sendOne :
    ∃ s, Run.exec (step fun _ _ => none) (idle (processWithAll [⟨1, 0⟩])) sendOne = some s ∧
      s.frames = [] ∧ s.OneWayAccepted := by
  refine ⟨_, rfl, rfl, oneWayAccepted_along (fun _ _ => none) (processWithAll [⟨1, 0⟩]) sendOne _ rfl
    ?_⟩
  refine (Run.along_cons_iff rfl).mpr ⟨trivial, ?_⟩
  refine (Run.along_cons_iff rfl).mpr ⟨?_, ?_⟩
  · exact ⟨firstReferences [⟨1, 0⟩], ⟨.transactionComplete, some (.oneWay 0)⟩, [], rfl, rfl,
      fun hfail => by cases hfail⟩
  refine (Run.along_cons_iff rfl).mpr ⟨trivial, ?_⟩
  refine (Run.along_cons_iff rfl).mpr ⟨trivial, ?_⟩
  refine (Run.along_cons_iff rfl).mpr ⟨trivial, ?_⟩
  refine (Run.along_cons_iff rfl).mpr ⟨trivial, ?_⟩
  exact (Run.along_cons_iff rfl).mpr ⟨trivial, trivial⟩

set_option maxRecDepth 4000 in
/-- The send of six objects returns `Ok` before the kernel's answer was read, and leaves it to the
next read of the thread. -/
theorem oneWay_ok_unanswered :
    ((firstReferences sixIds).map fun r => match r.record with
      | .noop => 4
      | _ => 20).sum ≤ 256 ∧
    ∃ s, Run.exec (step fun _ _ => none) (idle (processWithAll sixIds)) sendSix = some s ∧
      s.frames = [] ∧ .oneWay 0 ∈ s.kernel.unacked ∧ ¬ s.OneWayAccepted := by
  refine ⟨by decide, _, rfl, rfl, List.mem_cons_self, fun h => ?_⟩
  have hlast := h.accepted 0 .exhausted _ (List.suffix_refl _)
  cases hlast

end Thread

end BinderBinder
