import BinderBinder.Device.Thread

set_option relaxedAutoImplicit false
set_option autoImplicit false

/-!
# The outcome of a two-way call

What `remote_transact_blocking` promises about its transaction, over every run of a thread. Two
things disturb it: `binder_write_read` returns to the call for records about something else, and a
nested read for a reply can take the answer of the call.

## Main definitions

* `Thread.waits` — how often a call waits for its answer, in the kernel or in a buffer.
* `Thread.OutstandingWhenReading` — a call that reads again is outstanding in the kernel.
* `Thread.OwnOutcome` — calls end with their own outcome, and no answer is lost or left behind.
* `Thread.KeepsAnswers`, `Thread.Undisturbed` — the steps that do not break these.

## Main results

* `Thread.outstandingWhenReading_along` — a call never waits without a transaction.
* `Thread.ownOutcome_along` — a two-way call gets its own outcome.
-/

namespace BinderBinder

namespace Thread

/-! ## Waiting for an answer -/

/-- A read gives the answer of a call whose frame is there to that frame. -/
def AnswersHome (s : Thread) (o : Owner) (rs : List KernelRecord) : Prop :=
  ∀ r ∈ rs, ∀ t ∈ callIds s.frames, r.answers t = true → o.callId = some t

/-- A call that is about to read again without writing is outstanding in the kernel: written, and
its answer not given out. -/
def OutstandingWhenReading (s : Thread) : Prop :=
  ∀ t txn outer, s.frames = ⟨.call t txn, .ioctl false⟩ :: outer → .out t ∈ s.kernel.stack

/-- A step does not lose the answer of a call: no read for another frame (the send of a nested
reply) takes it, and a full buffer is not reported to the call itself, whose transaction is no
longer outstanding then. -/
def KeepsAnswers (s : Thread) (l : Label) : Prop :=
  match l, s.frames with
  | .read rs _, ⟨o, _⟩ :: _ => s.AnswersHome o rs
  | .dispatch w, ⟨.call t _, .dispatch (r :: _)⟩ :: _ =>
    r.record = .failedReply → w.lastError = some negNospc → .out t ∈ s.kernel.stack
  | _, _ => True

/-- A call that was written is outstanding, or its answer is in the buffer of its frame. -/
def Waiting (s : Thread) : Prop :=
  ∀ f ∈ s.frames, ∀ t, f.owner.callId = some t → f.phase ≠ .ioctl true →
    .out t ∈ s.kernel.stack ∨ ∃ r ∈ f.phase.rest, r.answers t = true

/-- A read keeps a call outstanding, or gives out its answer. -/
theorem mem_stack_or_answer {k k' : Kernel} {rs : List KernelRecord} (h : k.deliverAll rs = some k')
    {t : ℕ} (ht : .out t ∈ k.stack) : .out t ∈ k'.stack ∨ ∃ r ∈ rs, r.answers t = true := by
  have hcount := Kernel.count_out_deliverAll h t
  have hpos : 0 < k.stack.count (.out t) := List.count_pos_iff.mpr ht
  by_cases hrs : 0 < rs.countP (KernelRecord.answers t)
  · exact Or.inr (List.countP_pos_iff.mp hrs)
  · exact Or.inl (List.count_pos_iff.mp (by omega))

/-- A write keeps what is outstanding. -/
theorem mem_stack_write {k : Kernel} {write : Bool} {o : Owner} {t : ℕ} (ht : .out t ∈ k.stack) :
    .out t ∈ (if write then k.writeOwner o else k).stack := by
  cases write with
  | false => exact ht
  | true =>
    have hcount := Kernel.count_out_writeOwner k o t
    have hpos : 0 < k.stack.count (.out t) := List.count_pos_iff.mpr ht
    exact List.count_pos_iff.mp (by rw [if_pos rfl]; omega)

/-- What a return leaves keeps what is outstanding. -/
theorem Returns.mem_stack {s : Thread} {o : Owner} {l : Label} {phase : Phase} {k : Kernel} {n : ℕ}
    {rest : List KernelRecord} {res : Option WriteReadResult} {cause : Cause}
    (h : Returns s o l phase k n rest res cause) {t : ℕ} (ht : .out t ∈ s.kernel.stack) :
    .out t ∈ k.stack := by
  cases h with
  | exhausted => exact ht
  | record _ hk =>
    rcases hk with ⟨rfl, -⟩ | ⟨rfl, -⟩
    · exact ht
    · rw [← List.count_pos_iff] at ht ⊢
      rwa [Kernel.count_out_reply]
  | @ioctlFailed _ _ taken write =>
    cases hw : write && taken with
    | false => simpa [hw] using ht
    | true => exact @mem_stack_write s.kernel true o t ht

/-- A frame that makes another ioctl without its write, and is a call, is still outstanding. -/
theorem Waiting.mem_stack_of_leaves {s : Thread} (hs : s.Waiting) {l : Label}
    (hkeep : s.KeepsAnswers l) {t : ℕ} {txn : Transmission} {outer : List Frame} {phase : Phase}
    {k : Kernel} {n : ℕ} {rest : List KernelRecord} {res : Option WriteReadResult} {cause : Cause}
    {events : List Event} (hframes : s.frames = ⟨.call t txn, phase⟩ :: outer)
    (hret : Returns s (.call t txn) l phase k n rest res cause)
    (hleaves : Leaves (.call t txn) res cause (some false) events) : .out t ∈ s.kernel.stack := by
  cases hret with
  | exhausted =>
    have hwait := hs ⟨.call t txn, .dispatch []⟩ (by rw [hframes]; exact List.mem_cons_self) t rfl
      (by simp)
    rcases hwait with hout | ⟨r, hr, -⟩
    · exact hout
    · cases hr
  | @record w r rest k n res hreturned hk =>
    cases hleaves
    unfold KeepsAnswers at hkeep
    rw [hframes] at hkeep
    generalize hrec : r.record = record at hreturned
    cases hreturned with
    | bufferFull hfull => exact hkeep hrec hfull
  | ioctlFailed => cases hleaves

/-- What every call waiting says of one frame. -/
def WaitsIn (k : Kernel) (f : Frame) : Prop :=
  ∀ t, f.owner.callId = some t → f.phase ≠ .ioctl true →
    .out t ∈ k.stack ∨ ∃ r ∈ f.phase.rest, r.answers t = true

/-- The innermost frame waits. -/
theorem Waiting.inner {s : Thread} (hs : s.Waiting) {f : Frame} {outer : List Frame}
    (hframes : s.frames = f :: outer) : WaitsIn s.kernel f :=
  hs f (by rw [hframes]; exact List.mem_cons_self)

/-- The other frames wait. -/
theorem Waiting.outer {s : Thread} (hs : s.Waiting) {f : Frame} {outer : List Frame}
    (hframes : s.frames = f :: outer) : ∀ g ∈ outer, WaitsIn s.kernel g :=
  fun g hg => hs g (by rw [hframes]; exact List.mem_cons_of_mem _ hg)

/-- A frame that is about to write waits for nothing yet. -/
theorem waitsIn_write (k : Kernel) (o : Owner) : WaitsIn k ⟨o, .ioctl true⟩ :=
  fun _ _ hphase => absurd rfl hphase

/-- A frame goes on waiting behind a record that is no answer. -/
theorem WaitsIn.tail {k : Kernel} {o : Owner} {r : KernelRecord} {rest : List KernelRecord}
    {phase : Phase} (h : WaitsIn k ⟨o, .dispatch (r :: rest)⟩) (hr : r.record.isAnswer = false)
    (hrest : phase.rest = rest) : WaitsIn k ⟨o, phase⟩ := by
  intro t ht _
  rcases h t ht (by simp) with hout | ⟨r', hr', hrt⟩
  · exact Or.inl hout
  · rcases List.mem_cons.mp hr' with rfl | hr'
    · simp [KernelRecord.answers, hr] at hrt
    · exact Or.inr ⟨r', hrest ▸ hr', hrt⟩

/-- A read that gives the answer of a call to no other frame keeps the other frames waiting. -/
theorem WaitsIn.read {k k' : Kernel} {f : Frame} {rs : List KernelRecord} (h : WaitsIn k f)
    (hstack : ∀ t, .out t ∈ k.stack → .out t ∈ k'.stack ∨ ∃ r ∈ rs, r.answers t = true)
    (hno : ∀ t, f.owner.callId = some t → ∀ r ∈ rs, r.answers t = false) : WaitsIn k' f := by
  intro t ht hphase
  rcases h t ht hphase with hout | hanswer
  · rcases hstack t hout with hout | ⟨r, hr, hrt⟩
    · exact Or.inl hout
    · rw [hno t ht r hr] at hrt
      cases hrt
  · exact Or.inr hanswer

/-- **Step.** A read that gives the answers of a call to the frame of that call only keeps every call
waiting. -/
theorem Waiting.read {s : Thread} (hnum : s.Numbered) (hs : s.Waiting) {o : Owner} {write : Bool}
    {outer : List Frame} {rs : List KernelRecord} {k : Kernel}
    (hframes : s.frames = ⟨o, .ioctl write⟩ :: outer) (hhome : s.AnswersHome o rs)
    (hk : (if write then s.kernel.writeOwner o else s.kernel).deliverAll rs = some k) :
    ∀ f ∈ ⟨o, .dispatch rs⟩ :: outer, WaitsIn k f := by
  refine List.forall_mem_cons.mpr ⟨fun t ht _ => ?_, fun f hf => ?_⟩
  · refine mem_stack_or_answer hk ?_
    cases write with
    | true =>
      have hcount := Kernel.count_out_writeOwner s.kernel o t
      have hid : o.callId = some t := ht
      rw [if_pos hid] at hcount
      exact List.count_pos_iff.mp (by rw [if_pos rfl]; omega)
    | false =>
      rcases hs.inner hframes t ht (by simp) with hout | ⟨r, hr, -⟩
      · exact hout
      · cases hr
  · have hmem : f ∈ s.frames := by rw [hframes]; exact List.mem_cons_of_mem _ hf
    refine WaitsIn.read (hs f hmem)
      (fun t hout => mem_stack_or_answer hk (mem_stack_write hout)) fun t ht r hr => ?_
    by_contra hrt
    -- another frame would have read the answer
    have hid := hhome r hr t (mem_callIds hmem ht) (by simpa using hrt)
    exact hnum.not_mem_outer hframes hid (mem_callIds hf ht)

/-- **Step.** A frame that leaves keeps every call waiting. -/
theorem Waiting.leave {s : Thread} (hs : s.Waiting) {l : Label} (hkeep : s.KeepsAnswers l)
    {o : Owner} {phase : Phase} {outer : List Frame} {k : Kernel} {n : ℕ} {rest : List KernelRecord}
    {res : Option WriteReadResult} {cause : Cause} {write : Option Bool} {events : List Event}
    (hframes : s.frames = ⟨o, phase⟩ :: outer) (hret : Returns s o l phase k n rest res cause)
    (hleaves : Leaves o res cause write events) : ∀ f ∈ again o outer write, WaitsIn k f := by
  have houter : ∀ f ∈ outer, WaitsIn k f := fun f hf t ht hphase =>
    (hs.outer hframes f hf t ht hphase).imp_left hret.mem_stack
  match write with
  | none => exact houter
  | some true => exact List.forall_mem_cons.mpr ⟨waitsIn_write k o, houter⟩
  | some false =>
    refine List.forall_mem_cons.mpr ⟨fun t ht _ => ?_, houter⟩
    -- the frame that reads again is a call
    cases o <;> cases ht
    exact Or.inl (hret.mem_stack (hs.mem_stack_of_leaves hkeep hframes hret hleaves))

/-- **Step.** A step that does not lose an answer keeps every call waiting.

**Proof sketch.** One case per effect. A read gives the answers of a call to the frame of that call
only, so an outer call stays outstanding; the innermost call stays outstanding or finds its answer
in its buffer. The frame reads again only when its buffer is used up, or for a full buffer. -/
theorem Waiting.step {s s' : Thread} {l : Label} (hnum : s.Numbered) (hs : s.Waiting)
    (hkeep : s.KeepsAnswers l) (h : Effect s l s') : s'.Waiting := by
  cases h with
  | start => exact List.forall_mem_cons.mpr ⟨waitsIn_write _ _, hs⟩
  | @read o outer write rs k hframes hk =>
    unfold KeepsAnswers at hkeep
    rw [hframes] at hkeep
    exact hs.read hnum hframes hkeep hk
  | @readGone outer write rs k hframes hk =>
    unfold KeepsAnswers at hkeep
    rw [hframes] at hkeep
    intro f hf
    have hmem : f ∈ s.frames := by rw [hframes]; exact List.mem_cons_of_mem _ hf
    refine WaitsIn.read (hs f hmem) (fun t hout => mem_stack_or_answer hk hout) fun t ht r hr => ?_
    by_contra hrt
    cases hkeep r hr t (mem_callIds hmem ht) (by simpa using hrt)
  | next hframes hr _ | handle hframes hr _ =>
    exact List.forall_mem_cons.mpr ⟨(hs.inner hframes).tail hr rfl, hs.outer hframes⟩
  | handledOneWay hframes =>
    exact List.forall_mem_cons.mpr
      ⟨fun t ht _ => hs.inner hframes t ht (by simp), hs.outer hframes⟩
  | @handledTwoWay w replyData o outer txn rest reply p hframes =>
    have hinner : WaitsIn s.kernel ⟨o, .dispatch rest⟩ :=
      fun t ht _ => hs.inner hframes t ht (by simp)
    exact List.forall_mem_cons.mpr
      ⟨waitsIn_write _ _, List.forall_mem_cons.mpr ⟨hinner, hs.outer hframes⟩⟩
  | leave hframes hret hleaves => exact hs.leave hkeep hframes hret hleaves
  | others => exact hs

/-- A run that does not lose an answer keeps every call waiting. -/
theorem waiting_along {kernelWrite : KernelWrite} {p : Process} {ls : List Label} {s : Thread}
    (h : Run.exec (step kernelWrite) (idle p) ls = some s)
    (hkeep : Run.Along (step kernelWrite) KeepsAnswers (idle p) ls) : s.Waiting := by
  have hinit : (idle p).Numbered ∧ (idle p).Waiting :=
    ⟨numbered_idle p, fun f hf => by cases hf⟩
  have hinv : s.Numbered ∧ s.Waiting :=
    Run.exec_invariant_along (I := fun s => s.Numbered ∧ s.Waiting)
      (fun hs hC hstep =>
        ⟨hs.1.step (step_effect hstep), hs.2.step hs.1 hC (step_effect hstep)⟩) hinit hkeep h
  exact hinv.2

/-- **A call never waits without a transaction.** In every run whose steps lose no answer, whenever
the loop of a call is about to read again without writing, its transaction is outstanding in the
kernel. -/
theorem outstandingWhenReading_along (kernelWrite : KernelWrite) (p : Process) (ls : List Label)
    (s : Thread) (h : Run.exec (step kernelWrite) (idle p) ls = some s)
    (hkeep : Run.Along (step kernelWrite) KeepsAnswers (idle p) ls) :
    s.OutstandingWhenReading := by
  intro t txn outer hframes
  have hmem : ⟨.call t txn, .ioctl false⟩ ∈ s.frames := by rw [hframes]; exact List.mem_cons_self
  rcases waiting_along h hkeep _ hmem t rfl (by simp) with hout | ⟨r, hr, -⟩
  · exact hout
  · cases hr

/-- A transmission without objects. -/
def emptyTransmission : Transmission :=
  .ofBuilder (.ofHandle 0 0) 0 0 TransactionFlags.acceptFds ⟨0, 0, 0, 0⟩ PayloadBuilder.new

/-- A call whose transaction was taken and not answered reads again. -/
theorem outstandingWhenReading_unanswered :
    ∃ s, Run.exec (step fun _ _ => none) (idle (processWith ⟨1, 0⟩))
        [.startCall emptyTransmission, .read [⟨.transactionComplete, some (.call 0)⟩] true,
          .dispatch quietWorld, .dispatch quietWorld] = some s ∧
      s.frames = [⟨.call 0 emptyTransmission, .ioctl false⟩] ∧ s.OutstandingWhenReading := by
  refine ⟨_, rfl, rfl, outstandingWhenReading_along (fun _ _ => none) (processWith ⟨1, 0⟩)
    [.startCall emptyTransmission, .read [⟨.transactionComplete, some (.call 0)⟩] true,
      .dispatch quietWorld, .dispatch quietWorld] _ rfl ?_⟩
  refine (Run.along_cons_iff rfl).mpr ⟨trivial, ?_⟩
  refine (Run.along_cons_iff rfl).mpr ⟨fun r hr t _ hrt => ?_, ?_⟩
  · obtain rfl := List.mem_singleton.mp hr
    cases hrt
  refine (Run.along_cons_iff rfl).mpr ⟨fun hr => (by cases hr), ?_⟩
  exact (Run.along_cons_iff rfl).mpr ⟨trivial, trivial⟩

/-- A full buffer is reported to the call, which reads again although its transaction is gone. -/
theorem waits_after_bufferFull :
    ∃ s, Run.exec (step fun _ _ => none) (idle (processWith ⟨1, 0⟩))
        [.startCall emptyTransmission, .read [⟨.failedReply, some (.call 0)⟩] true,
          .dispatch { quietWorld with lastError := some negNospc }] = some s ∧
      ¬ s.OutstandingWhenReading := by
  refine ⟨_, rfl, fun h => ?_⟩
  have hmem := h 0 emptyTransmission [] rfl
  cases hmem

/-! ## The outcome of a call -/

/-- An event keeps the outcomes of calls their own: a call ends well with the `REPLY` to it, and
badly with a failure of it, a failed ioctl or a lost device; the answer of a call is read by its own
frame, and not dropped undispatched. -/
def Event.Own : Event → Prop
  | .callEnded t (.ok v) cause => ∃ r txn dev, cause = .record r ∧ r.record = .reply txn ∧
      r.about = some (.call t) ∧ v = (txn.header.code, PayloadReader.fromKernelRaw dev txn)
  | .callEnded t (.error _) cause =>
    (∃ r, cause = .record r ∧ r.record.isFailure = true ∧ r.about = some (.call t)) ∨
      (∃ errno write, cause = .ioctlFailed errno write) ∨ cause = .gone
  | .read o rs => ∀ r ∈ rs, ∀ t, r.answers t = true → o.callId = some t
  | .dropped _ rs => ∀ r ∈ rs, ∀ t, r.answers t = false
  | .oneWayEnded _ _ _ | .unmarked _ _ => True

/-- Calls get their own outcomes, and when a call has ended no answer is still to come: not from
the kernel, and not from a buffer. -/
structure OwnOutcome (s : Thread) : Prop where
  events : ∀ e ∈ s.history, Event.Own e
  settled : ∀ t res cause, .callEnded t res cause ∈ s.history →
    .out t ∉ s.kernel.stack ∧ ∀ f ∈ s.frames, ∀ r ∈ f.phase.rest, r.answers t = false

/-- A step does not disturb a call: no read for another frame takes its answer; its own frame
dispatches no transaction whose target is not registered and no failure of another transmission
(but for a full buffer, which the call ignores, when its answer is not behind it in the buffer); and
its ioctl fails only while its transaction is not outstanding. -/
def Undisturbed (s : Thread) (l : Label) : Prop :=
  match l, s.frames with
  | .read rs _, ⟨o, _⟩ :: _ => s.AnswersHome o rs
  | .dispatch w, ⟨.call t _, .dispatch (r :: rest)⟩ :: _ =>
    s.FindsTarget r.record ∧ (r.record.isFailure = true → r.about = some (.call t) ∨
      r.record = .failedReply ∧ w.lastError = some negNospc ∧ ∀ r' ∈ rest, r'.answers t = false)
  | .ioctlFailed _ _ taken, ⟨.call t txn, .ioctl write⟩ :: _ =>
    .out t ∉ (if write && taken then s.kernel.writeOwner (.call t txn) else s.kernel).stack
  | _, _ => True

/-- How many answers of a call were read and not dispatched. -/
def unread (frames : List Frame) (t : ℕ) : ℕ :=
  (frames.flatMap fun f => f.phase.rest).countP (KernelRecord.answers t)

/-- How often a call waits for its answer: in the kernel, or in a buffer. -/
def waits (s : Thread) (t : ℕ) : ℕ := s.kernel.stack.count (.out t) + unread s.frames t

@[simp] theorem unread_cons (o : Owner) (phase : Phase) (outer : List Frame) (t : ℕ) :
    unread (⟨o, phase⟩ :: outer) t =
      phase.rest.countP (KernelRecord.answers t) + unread outer t := by
  simp [unread]

/-- Frames whose buffers hold no answer of a call have none unread. -/
theorem unread_eq_zero {frames : List Frame} {t : ℕ}
    (h : ∀ f ∈ frames, ∀ r ∈ f.phase.rest, r.answers t = false) : unread frames t = 0 := by
  refine List.countP_eq_zero.mpr fun r hr => ?_
  obtain ⟨f, hf, hr⟩ := List.mem_flatMap.mp hr
  simp [h f hf r hr]

/-- An answer in a buffer is unread. -/
theorem unread_pos {frames : List Frame} {t : ℕ} {f : Frame} {r : KernelRecord} (hf : f ∈ frames)
    (hr : r ∈ f.phase.rest) (hrt : r.answers t = true) : 0 < unread frames t :=
  List.countP_pos_iff.mpr ⟨r, List.mem_flatMap.mpr ⟨f, hf, hr⟩, hrt⟩

/-- Every call waits at most once, and not before it is written or after it has ended; its answer
comes to its own frame. -/
structure Settling (s : Thread) : Prop where
  once : ∀ t, s.waits t ≤ 1
  closed : ∀ t, t ∉ callIds s.frames → s.waits t = 0
  unwritten : ∀ f ∈ s.frames, ∀ t, f.owner.callId = some t → f.phase = .ioctl true → s.waits t = 0
  home : ∀ f ∈ s.frames, ∀ r ∈ f.phase.rest, ∀ t, r.answers t = true → f.owner.callId = some t
  replies : ∀ f ∈ s.frames, ∀ r ∈ f.phase.rest, ∀ txn, r.record = .reply txn →
    ∃ t, r.about = some (.call t)
  ended : ∀ t res cause, .callEnded t res cause ∈ s.history →
    t < s.nextId ∧ t ∉ callIds s.frames

/-- The frames outside that of a call hold none of its answers. -/
theorem Settling.unread_outer {s : Thread} (hs : s.Settling) (hnum : s.Numbered) {o : Owner}
    {phase : Phase} {outer : List Frame} (hframes : s.frames = ⟨o, phase⟩ :: outer) {t : ℕ}
    (ht : o.callId = some t) : unread outer t = 0 := by
  refine unread_eq_zero fun f hf r hr => ?_
  by_contra hrt
  have hid := hs.home f (by rw [hframes]; exact List.mem_cons_of_mem _ hf) r hr t (by simpa using hrt)
  exact hnum.not_mem_outer hframes ht (mem_callIds hf hid)

/-- Undisturbed, the arm of a record returns to a call only for the answer of that call, or for a full
buffer in front of records that do not answer it. -/
theorem Settling.answers_of_returned {s : Thread} (hs : s.Settling) {w : World} {t : ℕ}
    {txn : Transmission} {r : KernelRecord} {rest : List KernelRecord} {outer : List Frame}
    {res : WriteReadResult} (hframes : s.frames = ⟨.call t txn, .dispatch (r :: rest)⟩ :: outer)
    (hund : s.Undisturbed (.dispatch w)) (hret : Returned w s.process r.record res) :
    r.answers t = true ∨
      res = .error .asyncBufferFull ∧ ∀ r' ∈ rest, r'.answers t = false := by
  unfold Undisturbed at hund
  rw [hframes] at hund
  have hmem : ⟨.call t txn, .dispatch (r :: rest)⟩ ∈ s.frames := by
    rw [hframes]; exact List.mem_cons_self
  have hanswer : ∀ {record : Record}, r.record = record → record.isFailure = true →
      r.about = some (.call t) → r.answers t = true := by
    intro record hrec hfail habout
    simp [KernelRecord.answers, hrec, Record.isAnswer_of_isFailure hfail, habout]
  generalize hrec : r.record = record at hret
  cases hret with
  | reply txn' =>
    obtain ⟨t', ht'⟩ := hs.replies _ hmem r List.mem_cons_self txn' hrec
    have hrt' : r.answers t' = true := by simp [KernelRecord.answers, hrec, Record.isAnswer, ht']
    have hid := hs.home _ hmem r List.mem_cons_self t' hrt'
    cases hid
    exact Or.inl hrt'
  | objectNotFound secCtx txn' hobj => exact absurd hobj (hund.1 secCtx txn' hrec)
  | bufferFull hfull =>
    rcases hund.2 (by rw [hrec]; rfl) with habout | ⟨-, -, hrest⟩
    · exact Or.inl (hanswer hrec rfl habout)
    · exact Or.inr ⟨rfl, hrest⟩
  | deadReply | frozenReply =>
    rcases hund.2 (by rw [hrec]; rfl) with habout | ⟨hother, -⟩
    · exact Or.inl (hanswer hrec rfl habout)
    · rw [hrec] at hother
      cases hother
  | failedReply hfull =>
    rcases hund.2 (by rw [hrec]; rfl) with habout | ⟨-, hfull', -⟩
    · exact Or.inl (hanswer hrec rfl habout)
    · exact absurd hfull' hfull

/-- What waits in a thread, by its innermost frame. -/
theorem waits_eq {s : Thread} {o : Owner} {phase : Phase} {outer : List Frame}
    (hframes : s.frames = ⟨o, phase⟩ :: outer) (t : ℕ) :
    s.waits t = s.kernel.stack.count (.out t) +
      (phase.rest.countP (KernelRecord.answers t) + unread outer t) := by
  rw [waits, hframes, unread_cons]

/-- Undisturbed, a return leaves no call waiting more often than before. -/
theorem Settling.count_le_of_returns {s : Thread} {o : Owner} {l : Label} {phase : Phase}
    {outer : List Frame} {k : Kernel} {n : ℕ} {rest : List KernelRecord}
    {res : Option WriteReadResult} {cause : Cause} (hframes : s.frames = ⟨o, phase⟩ :: outer)
    (hund : s.Undisturbed l) (hret : Returns s o l phase k n rest res cause) (t : ℕ) :
    k.stack.count (.out t) + rest.countP (KernelRecord.answers t) ≤
      s.kernel.stack.count (.out t) + phase.rest.countP (KernelRecord.answers t) := by
  cases hret with
  | exhausted => exact Nat.le_refl _
  | @record w r rest k n res _ hk =>
    have hle : rest.countP (KernelRecord.answers t) ≤ (r :: rest).countP (KernelRecord.answers t) :=
      (List.sublist_cons_self r rest).countP_le
    rcases hk with ⟨rfl, -⟩ | ⟨rfl, -⟩
    · exact Nat.add_le_add_left hle _
    · rw [Kernel.count_out_reply]
      exact Nat.add_le_add_left hle _
  | @ioctlFailed w errno taken write =>
    show _ + 0 ≤ _ + 0
    cases hw : write && taken with
    | false => simp
    | true =>
      rw [if_pos rfl, Kernel.count_out_writeOwner]
      split_ifs with hid
      · -- the transaction of a call is not outstanding when its ioctl fails
        cases o <;> cases hid
        unfold Undisturbed at hund
        rw [hframes] at hund
        simp only [hw, if_true] at hund
        have hzero := List.count_eq_zero_of_not_mem hund
        rw [Kernel.count_out_writeOwner, if_pos (show Owner.callId _ = some t from rfl)] at hzero
        omega
      · exact Nat.le_refl _

/-- Undisturbed, nothing waits for a call that ends.

**Proof sketch.** A call ends for a record that answers it, which was the only answer there was, or
because its ioctl fails, when it is not outstanding. -/
theorem Settling.settled_of_ended {s : Thread} (hs : s.Settling) (hnum : s.Numbered) {t : ℕ}
    {txn : Transmission} {l : Label} {phase : Phase} {outer : List Frame} {k : Kernel} {n : ℕ}
    {rest : List KernelRecord} {res : Option WriteReadResult} {cause : Cause} {events : List Event}
    (hframes : s.frames = ⟨.call t txn, phase⟩ :: outer) (hund : s.Undisturbed l)
    (hret : Returns s (.call t txn) l phase k n rest res cause)
    (hleaves : Leaves (.call t txn) res cause none events) :
    k.stack.count (.out t) + unread outer t = 0 := by
  have houter := hs.unread_outer hnum hframes rfl
  cases hret with
  | exhausted => cases hleaves
  | @record w r rest k n res hreturned hk =>
    have hrt : r.answers t = true := by
      refine (hs.answers_of_returned hframes hund hreturned).resolve_right ?_
      rintro ⟨rfl, -⟩
      cases hleaves with
      | callError he => cases he
    have honce := hs.once t
    rw [waits_eq hframes] at honce
    simp only [Phase.rest, List.countP_cons, hrt, if_true] at honce
    have hcount : k.stack.count (.out t) = s.kernel.stack.count (.out t) := by
      rcases hk with ⟨rfl, -⟩ | ⟨rfl, -⟩
      · rfl
      · exact Kernel.count_out_reply _ _ _
    omega
  | ioctlFailed =>
    unfold Undisturbed at hund
    rw [hframes] at hund
    rw [List.count_eq_zero_of_not_mem hund, houter]

/-- Undisturbed, a return drops no answers. -/
theorem Settling.dropped_of_returns {s : Thread} (hs : s.Settling) {o : Owner} {l : Label}
    {phase : Phase} {outer : List Frame} {k : Kernel} {n : ℕ} {rest : List KernelRecord}
    {res : Option WriteReadResult} {cause : Cause} (hframes : s.frames = ⟨o, phase⟩ :: outer)
    (hund : s.Undisturbed l) (hret : Returns s o l phase k n rest res cause) {r : KernelRecord}
    (hr : r ∈ rest) (t : ℕ) : r.answers t = false := by
  cases hret with
  | exhausted => cases hr
  | @record w r₀ rest k n res hreturned hk =>
    by_contra hrt
    rw [Bool.not_eq_false] at hrt
    have hmem : ⟨o, .dispatch (r₀ :: rest)⟩ ∈ s.frames := by rw [hframes]; exact List.mem_cons_self
    have hid := hs.home _ hmem r (List.mem_cons_of_mem _ hr) t hrt
    cases o <;> cases hid
    rcases hs.answers_of_returned hframes hund hreturned with hrt₀ | ⟨-, hrest⟩
    · -- the record that was dispatched is a second answer
      have honce := hs.once t
      have hpos : 0 < rest.countP (KernelRecord.answers t) := List.countP_pos_iff.mpr ⟨r, hr, hrt⟩
      rw [waits_eq hframes] at honce
      simp only [Phase.rest, List.countP_cons, hrt₀, if_true] at honce
      omega
    · rw [hrest r hr] at hrt
      cases hrt
  | ioctlFailed => cases hr

/-- A step that lets nothing wait longer, ends only calls that nothing waits for and starts only
calls that are new keeps calls settling. -/
theorem Settling.mono {s s' : Thread} (hs : s.Settling) (hwaits : ∀ t, s'.waits t ≤ s.waits t)
    (hclosed : ∀ t ∈ callIds s.frames, t ∉ callIds s'.frames → s'.waits t = 0)
    (hframes : ∀ f ∈ s'.frames, f.phase.rest = [] ∧ (∀ t ∈ f.owner.callId, f.phase = .ioctl true →
        t ∉ callIds s.frames) ∨
      ∃ f' ∈ s.frames, f.owner = f'.owner ∧ (∀ r ∈ f.phase.rest, r ∈ f'.phase.rest) ∧
        (f.phase = .ioctl true → f'.phase = .ioctl true))
    (hended : ∀ t res cause, .callEnded t res cause ∈ s'.history →
      t < s'.nextId ∧ t ∉ callIds s'.frames) : s'.Settling where
  once t := Nat.le_trans (hwaits t) (hs.once t)
  closed t ht := by
    by_cases hmem : t ∈ callIds s.frames
    · exact hclosed t hmem ht
    · exact Nat.le_zero.mp (hs.closed t hmem ▸ hwaits t)
  unwritten f hf t ht hphase := by
    refine Nat.le_zero.mp ?_
    rcases hframes f hf with ⟨-, hnew⟩ | ⟨f', hf', ho, -, hioctl⟩
    · rw [← hs.closed t (hnew t ht hphase)]
      exact hwaits t
    · rw [← hs.unwritten f' hf' t (ho ▸ ht) (hioctl hphase)]
      exact hwaits t
  home f hf r hr t hrt := by
    rcases hframes f hf with ⟨hnil, -⟩ | ⟨f', hf', ho, hsub, -⟩
    · rw [hnil] at hr
      cases hr
    · rw [ho]
      exact hs.home f' hf' r (hsub r hr) t hrt
  replies f hf r hr txn hreply := by
    rcases hframes f hf with ⟨hnil, -⟩ | ⟨f', hf', -, hsub, -⟩
    · rw [hnil] at hr
      cases hr
    · exact hs.replies f' hf' r (hsub r hr) txn hreply
  ended := hended

/-- **Step.** An undisturbed read keeps calls settling: what it gives out, the kernel no longer
holds. -/
theorem Settling.read {s : Thread} (hs : s.Settling) (hnum : s.Numbered) {o : Owner} {write : Bool}
    {outer : List Frame} {rs : List KernelRecord} {k : Kernel}
    (hframes : s.frames = ⟨o, .ioctl write⟩ :: outer)
    (hk : (if write then s.kernel.writeOwner o else s.kernel).deliverAll rs = some k)
    (hhome : ∀ r ∈ rs, ∀ t, r.answers t = true → o.callId = some t) :
    Settling ⟨s.process, k, ⟨o, .dispatch rs⟩ :: outer, s.nextId, .read o rs :: s.history⟩ := by
  have hmem : ⟨o, .ioctl write⟩ ∈ s.frames := by rw [hframes]; exact List.mem_cons_self
  have hids : callIds (⟨o, .dispatch rs⟩ :: outer) = callIds s.frames := by rw [hframes]; rfl
  have hwaits : ∀ t, k.stack.count (.out t) + (rs.countP (KernelRecord.answers t) + unread outer t)
      = s.waits t + if write = true ∧ o.callId = some t then 1 else 0 := by
    intro t
    have hcount := Kernel.count_out_deliverAll hk t
    rw [waits_eq hframes]
    cases write with
    | false =>
      simp only [Bool.false_eq_true, if_false, false_and] at hcount ⊢
      simp only [Phase.rest, List.countP_nil]
      omega
    | true =>
      simp only [if_true, true_and, Kernel.count_out_writeOwner] at hcount ⊢
      simp only [Phase.rest, List.countP_nil]
      omega
  -- only the call that is written waits once more, and it did not wait before
  have hfresh : write = true → ∀ t, o.callId = some t → s.waits t = 0 := by
    rintro rfl t ht
    exact hs.unwritten _ hmem t ht rfl
  constructor
  · intro t
    show k.stack.count (.out t) + unread (⟨o, .dispatch rs⟩ :: outer) t ≤ 1
    rw [unread_cons]
    rw [show (Phase.dispatch rs).rest = rs from rfl, hwaits t]
    split_ifs with hnew
    · exact Nat.le_of_eq (by rw [hfresh hnew.1 t hnew.2])
    · exact hs.once t
  · intro t ht
    show k.stack.count (.out t) + unread (⟨o, .dispatch rs⟩ :: outer) t = 0
    have ht' : t ∉ callIds s.frames := hids ▸ ht
    have hno : ¬ (write = true ∧ o.callId = some t) := fun h => ht' (mem_callIds hmem h.2)
    rw [unread_cons, show (Phase.dispatch rs).rest = rs from rfl, hwaits t, if_neg hno,
      hs.closed t ht']
  · intro f hf t ht hphase
    rcases List.mem_cons.mp hf with rfl | hf
    · cases hphase
    · show k.stack.count (.out t) + unread (⟨o, .dispatch rs⟩ :: outer) t = 0
      have hno : ¬ (write = true ∧ o.callId = some t) := fun h =>
        hnum.not_mem_outer hframes h.2 (mem_callIds hf ht)
      rw [unread_cons, show (Phase.dispatch rs).rest = rs from rfl, hwaits t, if_neg hno]
      exact hs.unwritten f (by rw [hframes]; exact List.mem_cons_of_mem _ hf) t ht hphase
  · intro f hf r hr t hrt
    rcases List.mem_cons.mp hf with rfl | hf
    · exact hhome r hr t hrt
    · exact hs.home f (by rw [hframes]; exact List.mem_cons_of_mem _ hf) r hr t hrt
  · intro f hf r hr txn hreply
    rcases List.mem_cons.mp hf with rfl | hf
    · exact Kernel.about_of_deliverAll_reply hk hr hreply
    · exact hs.replies f (by rw [hframes]; exact List.mem_cons_of_mem _ hf) r hr txn hreply
  · intro t res cause hended
    rcases List.mem_cons.mp hended with heq | hended
    · cases heq
    · rw [hids]
      exact hs.ended t res cause hended

/-- The answers of an undisturbed read are those of the call of its own frame. -/
theorem Settling.home_of_read {s : Thread} (hs : s.Settling) {o : Owner} {write : Bool}
    {outer : List Frame} {rs : List KernelRecord} {k : Kernel} {alive : Bool}
    (hframes : s.frames = ⟨o, .ioctl write⟩ :: outer)
    (hk : (if write then s.kernel.writeOwner o else s.kernel).deliverAll rs = some k)
    (hund : s.Undisturbed (.read rs alive)) :
    ∀ r ∈ rs, ∀ t, r.answers t = true → o.callId = some t := by
  intro r hr t hrt
  unfold Undisturbed at hund
  rw [hframes] at hund
  have hcount := Kernel.count_out_deliverAll hk t
  have hpos : 0 < rs.countP (KernelRecord.answers t) := List.countP_pos_iff.mpr ⟨r, hr, hrt⟩
  by_contra hid
  -- so the call was outstanding before, and has a frame
  have hbefore : (if write then s.kernel.writeOwner o else s.kernel).stack.count (.out t) =
      s.kernel.stack.count (.out t) := by
    cases write with
    | false => rfl
    | true => rw [if_pos rfl, Kernel.count_out_writeOwner, if_neg hid, Nat.add_zero]
  refine hid (hund r hr t ?_ hrt)
  by_contra hclosed
  have hzero := hs.closed t hclosed
  rw [waits] at hzero
  omega

/-- A new frame keeps calls settling; if it is one of a call, the call is new. -/
theorem Settling.enter {s : Thread} (hs : s.Settling) (hfresh : ∀ t ∈ callIds s.frames, t < s.nextId)
    {o : Owner} (hnew : ∀ t ∈ o.callId, t = s.nextId) : (s.enter o).Settling := by
  refine hs.mono (fun t => ?_) (fun t ht hnot => ?_) (fun f hf => ?_) (fun t res cause hend => ?_)
  · have hunread : unread (s.enter o).frames t = unread s.frames t := by
      rw [Thread.enter, unread_cons]
      exact Nat.zero_add _
    exact Nat.le_of_eq (congrArg (s.kernel.stack.count (.out t) + ·) hunread)
  · exact absurd (by rw [Thread.enter, callIds_cons]; exact List.mem_append_right _ ht) hnot
  · rcases List.mem_cons.mp hf with rfl | hf
    · refine Or.inl ⟨rfl, fun t ht _ hmem => ?_⟩
      have hlt := hfresh t hmem
      rw [hnew t ht] at hlt
      exact Nat.lt_irrefl _ hlt
    · exact Or.inr ⟨f, hf, rfl, fun r hr => hr, fun h => h⟩
  · obtain ⟨hlt, hnot⟩ := hs.ended t res cause hend
    refine ⟨Nat.lt_succ_of_lt hlt, fun hmem => ?_⟩
    rw [Thread.enter, callIds_cons, List.mem_append, Option.mem_toList] at hmem
    rcases hmem with hmem | hmem
    · rw [hnew t hmem] at hlt
      exact Nat.lt_irrefl _ hlt
    · exact hnot hmem

/-- The innermost frame may dispatch records. -/
theorem Settling.advance {s : Thread} (hs : s.Settling) {p : Process} {o : Owner}
    {phase phase' : Phase} {outer : List Frame} (hframes : s.frames = ⟨o, phase⟩ :: outer)
    (hrest : phase'.rest.Sublist phase.rest) (hphase : phase' ≠ .ioctl true) :
    Settling ⟨p, s.kernel, ⟨o, phase'⟩ :: outer, s.nextId, s.history⟩ := by
  have hids : callIds (⟨o, phase'⟩ :: outer) = callIds s.frames := by rw [hframes]; rfl
  refine hs.mono (fun t => ?_) (fun t ht hnot => ?_) (fun f hf => ?_) (fun t res cause hend => ?_)
  · rw [waits_eq hframes, waits, unread_cons]
    exact Nat.add_le_add_left (Nat.add_le_add_right hrest.countP_le _) _
  · exact absurd (hids ▸ ht) hnot
  · rcases List.mem_cons.mp hf with rfl | hf
    · exact Or.inr ⟨⟨o, phase⟩, by rw [hframes]; exact List.mem_cons_self, rfl,
        fun r hr => hrest.subset hr, fun h => absurd h hphase⟩
    · exact Or.inr ⟨f, by rw [hframes]; exact List.mem_cons_of_mem _ hf, rfl, fun r hr => hr,
        fun h => h⟩
  · rw [hids]
    exact hs.ended t res cause hend

/-- A call ends with the result of its last read. -/
theorem Leaves.of_ended {o : Owner} {res : Option WriteReadResult} {cause cause' : Cause}
    {write : Option Bool} {events : List Event} {t : ℕ}
    {result : Except Error (UInt32 × PayloadReader)} (h : Leaves o res cause write events)
    (hend : .callEnded t result cause' ∈ events) :
    write = none ∧ cause' = cause ∧ (∃ txn, o = .call t txn) ∧
      match result with
      | .ok v => res = some (.ok v)
      | .error err => ∃ e, res = some (.error e) ∧ e.toError = some err := by
  cases h
  case callOk =>
    cases List.mem_singleton.mp hend
    exact ⟨rfl, rfl, ⟨_, rfl⟩, rfl⟩
  case callError t txn e err he =>
    rcases List.mem_cons.mp hend with heq | hend
    · cases heq
      exact ⟨rfl, rfl, ⟨_, rfl⟩, e, rfl, he⟩
    · cases List.mem_singleton.mp hend
  case oneWayError =>
    rcases List.mem_cons.mp hend with heq | hend
    · cases heq
    · cases List.mem_singleton.mp hend
  case oneWayOk | replyError => cases List.mem_singleton.mp hend
  all_goals cases hend

/-- A frame that leaves has nothing unread. -/
theorem unread_again (o : Owner) (outer : List Frame) (write : Option Bool) (t : ℕ) :
    unread (again o outer write) t = unread outer t := by
  cases write with
  | none => rfl
  | some write =>
    rw [again, unread_cons]
    exact Nat.zero_add _

/-- **Step.** An undisturbed return keeps calls settling: a call that ends has nothing left to wait
for. -/
theorem Settling.leave {s : Thread} (hnum : s.Numbered) (hs : s.Settling) {l : Label} {p : Process}
    {o : Owner} {phase : Phase} {outer : List Frame} {k : Kernel} {n : ℕ}
    {rest : List KernelRecord} {res : Option WriteReadResult} {cause : Cause} {write : Option Bool}
    {events : List Event} (hund : s.Undisturbed l) (hframes : s.frames = ⟨o, phase⟩ :: outer)
    (hret : Returns s o l phase k n rest res cause) (hleaves : Leaves o res cause write events) :
    Settling ⟨p, k, again o outer write, n, events ++ .dropped o rest :: s.history⟩ := by
  have hmem : ⟨o, phase⟩ ∈ s.frames := by rw [hframes]; exact List.mem_cons_self
  have hsub : (callIds (again o outer write)).Sublist (callIds s.frames) := by
    rw [hframes]
    exact callIds_again _ _ _ _
  refine hs.mono (fun t => ?_) (fun t ht hnot => ?_) (fun f hf => ?_) (fun t res' c hend => ?_)
  · have hle := Settling.count_le_of_returns hframes hund hret t
    rw [waits_eq hframes, waits, unread_again]
    show k.stack.count (.out t) + unread outer t ≤ _
    omega
  · rw [waits, unread_again]
    rw [hframes, callIds_cons, List.mem_append, Option.mem_toList] at ht
    cases write with
    | some write =>
      refine absurd ?_ hnot
      rw [again, callIds_cons, List.mem_append, Option.mem_toList]
      exact ht
    | none =>
      rcases ht with ht | ht
      · cases o <;> cases ht
        exact hs.settled_of_ended hnum hframes hund hret hleaves
      · exact absurd ht hnot
  · cases write with
    | none =>
      exact Or.inr ⟨f, by rw [hframes]; exact List.mem_cons_of_mem _ hf, rfl, fun r hr => hr,
        fun h => h⟩
    | some write =>
      rcases List.mem_cons.mp hf with rfl | hf
      · refine Or.inl ⟨rfl, fun t ht hioctl => ?_⟩
        -- only one-way sends write again
        cases hioctl
        cases hleaves
        cases ht
      · exact Or.inr ⟨f, by rw [hframes]; exact List.mem_cons_of_mem _ hf, rfl, fun r hr => hr,
          fun h => h⟩
  · rcases List.mem_append.mp hend with hend | hend
    · obtain ⟨rfl, -, ⟨txn, rfl⟩, -⟩ := hleaves.of_ended hend
      exact ⟨Nat.lt_of_lt_of_le (hnum.fresh t (mem_callIds hmem rfl)) hret.le_nextId,
        hnum.not_mem_outer hframes rfl⟩
    · rcases List.mem_cons.mp hend with heq | hend
      · cases heq
      · obtain ⟨hlt, hnot⟩ := hs.ended t res' c hend
        exact ⟨Nat.lt_of_lt_of_le hlt hret.le_nextId, fun hmem => hnot (hsub.subset hmem)⟩

/-- **Step.** Undisturbed, every step keeps calls settling. -/
theorem Settling.step {s s' : Thread} {l : Label} (hnum : s.Numbered) (hs : s.Settling)
    (hund : s.Undisturbed l) (h : Effect s l s') : s'.Settling := by
  cases h with
  | @start _ p o _ ho =>
    have hnew : ∀ t ∈ o.callId, t = s.nextId := by
      intro t ht
      rcases ho with rfl | ⟨txn, rfl | rfl⟩ <;> cases ht
      rfl
    have henter := hs.enter hnum.fresh hnew
    exact ⟨henter.once, henter.closed, henter.unwritten, henter.home, henter.replies, henter.ended⟩
  | read hframes hk => exact hs.read hnum hframes hk (hs.home_of_read hframes hk hund)
  | @readGone outer write rs k hframes hk =>
    have hids : callIds outer = callIds s.frames := by rw [hframes]; rfl
    refine hs.mono (fun t => ?_) (fun t ht hnot => absurd (hids ▸ ht) hnot) (fun f hf => ?_)
      (fun t res cause hend => ?_)
    · have hcount := Kernel.count_out_deliverAll hk t
      rw [waits_eq hframes, waits]
      show k.stack.count (.out t) + unread outer t ≤ _
      omega
    · exact Or.inr ⟨f, by rw [hframes]; exact List.mem_cons_of_mem _ hf, rfl, fun r hr => hr,
        fun h => h⟩
    · rw [hids]
      rcases List.mem_cons.mp hend with heq | hend
      · cases heq
      · rcases List.mem_cons.mp hend with heq | hend
        · cases heq
        · exact hs.ended t res cause hend
  | next hframes _ _ | handle hframes _ _ =>
    exact hs.advance hframes (List.sublist_cons_self _ _) (by simp)
  | handledOneWay hframes => exact hs.advance hframes (List.Sublist.refl _) (by simp)
  | @handledTwoWay w replyData o outer t rest reply p hframes =>
    have hadv : Settling ⟨p, s.kernel, ⟨o, .dispatch rest⟩ :: outer, s.nextId, s.history⟩ :=
      hs.advance hframes (List.Sublist.refl _) (by simp)
    refine hadv.enter (fun t ht => ?_) (fun t ht => by cases ht)
    refine hnum.fresh t ?_
    rw [hframes]
    exact ht
  | leave hframes hret hleaves => exact hs.leave hnum hund hframes hret hleaves
  | others => exact ⟨hs.once, hs.closed, hs.unwritten, hs.home, hs.replies, hs.ended⟩

/-- When a call has ended, no answer is still to come. -/
theorem Settling.settled {s : Thread} (hs : s.Settling) {t : ℕ}
    {res : Except Error (UInt32 × PayloadReader)} {cause : Cause}
    (h : .callEnded t res cause ∈ s.history) :
    .out t ∉ s.kernel.stack ∧ ∀ f ∈ s.frames, ∀ r ∈ f.phase.rest, r.answers t = false := by
  have hzero := hs.closed t (hs.ended t res cause h).2
  rw [waits] at hzero
  refine ⟨fun hout => ?_, fun f hf r hr => ?_⟩
  · have hpos : 0 < s.kernel.stack.count (.out t) := List.count_pos_iff.mpr hout
    omega
  · by_contra hrt
    have hpos := unread_pos hf hr (by simpa using hrt)
    omega

/-- A call that ends undisturbed ends with its own outcome. -/
theorem Settling.outcome_of_ended {s : Thread} (hs : s.Settling) {l : Label} {o : Owner}
    {phase : Phase} {outer : List Frame} {k : Kernel} {n : ℕ} {rest : List KernelRecord}
    {res : Option WriteReadResult} {cause cause' : Cause} {write : Option Bool}
    {events : List Event} {t : ℕ} {result : Except Error (UInt32 × PayloadReader)}
    (hund : s.Undisturbed l) (hframes : s.frames = ⟨o, phase⟩ :: outer)
    (hret : Returns s o l phase k n rest res cause) (hleaves : Leaves o res cause write events)
    (hend : .callEnded t result cause' ∈ events) : Event.Own (.callEnded t result cause') := by
  obtain ⟨-, rfl, ⟨txn, rfl⟩, hres⟩ := hleaves.of_ended hend
  cases hret with
  | exhausted =>
    cases result with
    | ok v => cases hres
    | error err =>
      obtain ⟨e, he, -⟩ := hres
      cases he
  | ioctlFailed =>
    cases result with
    | ok v => cases hres
    | error err => exact Or.inr (Or.inl ⟨_, _, rfl⟩)
  | @record w r rest k n res hreturned hk =>
    have hrt : r.answers t = true := by
      refine (hs.answers_of_returned hframes hund hreturned).resolve_right ?_
      rintro ⟨rfl, -⟩
      cases result with
      | ok v => cases hres
      | error err =>
        obtain ⟨e, he, herr⟩ := hres
        cases he
        cases herr
    simp only [KernelRecord.answers, Bool.and_eq_true, beq_iff_eq] at hrt
    generalize hrec : r.record = record at hreturned
    cases result with
    | ok v =>
      cases hres
      cases hreturned with
      | reply txn' => exact ⟨r, txn', _, rfl, hrec, hrt.2, rfl⟩
    | error err =>
      obtain ⟨e, he, -⟩ := hres
      cases he
      refine Or.inl ⟨r, rfl, ?_, hrt.2⟩
      have hans := hrt.1
      rw [hrec] at hans ⊢
      cases hreturned with
      | objectNotFound => cases hans
      | deadReply | bufferFull | failedReply | frozenReply => rfl

/-- Undisturbed, what a frame does when it leaves keeps the outcomes of calls their own. -/
theorem Settling.own_of_leaves {s : Thread} (hs : s.Settling) {l : Label} {o : Owner}
    {phase : Phase} {outer : List Frame} {k : Kernel} {n : ℕ} {rest : List KernelRecord}
    {res : Option WriteReadResult} {cause : Cause} {write : Option Bool} {events : List Event}
    (hund : s.Undisturbed l) (hframes : s.frames = ⟨o, phase⟩ :: outer)
    (hret : Returns s o l phase k n rest res cause) (hleaves : Leaves o res cause write events) :
    ∀ e ∈ events, Event.Own e := by
  intro e he
  cases e with
  | callEnded t result cause' => exact hs.outcome_of_ended hund hframes hret hleaves he
  | read o' rs | dropped o' rs =>
    -- leaving is no read
    cases hleaves <;> simp at he
  | oneWayEnded | unmarked => trivial

/-- **Step.** Undisturbed, every step keeps the outcomes of calls their own. -/
theorem OwnOutcome.step {s s' : Thread} {l : Label} (ho : s.OwnOutcome) (hs : s.Settling)
    (hs' : s'.Settling) (hund : s.Undisturbed l) (h : Effect s l s') : s'.OwnOutcome := by
  refine ⟨fun e he => ?_, fun t res cause hend => hs'.settled hend⟩
  cases h with
  | start | next | handle | handledOneWay | handledTwoWay | others => exact ho.events e he
  | read hframes hk =>
    rcases List.mem_cons.mp he with rfl | he
    · exact hs.home_of_read hframes hk hund
    · exact ho.events e he
  | @readGone outer write rs k hframes hk =>
    have hhome := hs.home_of_read hframes (by cases write <;> exact hk) hund
    rcases List.mem_cons.mp he with rfl | he
    · intro r hr t
      by_contra hrt
      cases hhome r hr t (by simpa using hrt)
    · rcases List.mem_cons.mp he with rfl | he
      · exact hhome
      · exact ho.events e he
  | leave hframes hret hleaves =>
    rcases List.mem_append.mp he with he | he
    · exact hs.own_of_leaves hund hframes hret hleaves e he
    · rcases List.mem_cons.mp he with rfl | he
      · exact fun r hr t => hs.dropped_of_returns hframes hund hret hr t
      · exact ho.events e he

/-- A thread that has done nothing has nothing to settle. -/
theorem settling_idle (p : Process) : (idle p).Settling where
  once _ := Nat.zero_le _
  closed _ _ := rfl
  unwritten _ hf := by cases hf
  home _ hf := by cases hf
  replies _ hf := by cases hf
  ended _ _ _ h := by cases h

/-- **A two-way call gets its own outcome.** In every run whose steps disturb no call, a call
returns `Ok` only with the `REPLY` to it and `Err` only for a failure of it, a failed ioctl or a
lost device; its answer is read by its own frame and not dropped, and none is left behind.

**Proof sketch.** The invariant counts how often a call waits for its answer, in the kernel or in a
buffer: at most once, and not before it is written. A read moves answers from the kernel into the
buffer of the call they answer; a record that returns to the call is its only answer, so nothing is
left to wait for when it ends. -/
theorem ownOutcome_along (kernelWrite : KernelWrite) (p : Process) (ls : List Label) (s : Thread)
    (h : Run.exec (step kernelWrite) (idle p) ls = some s)
    (hund : Run.Along (step kernelWrite) Undisturbed (idle p) ls) : s.OwnOutcome := by
  have hinit : (idle p).Numbered ∧ (idle p).Settling ∧ (idle p).OwnOutcome :=
    ⟨numbered_idle p, settling_idle p,
      ⟨fun e he => (by cases he), fun t res cause hend => (by cases hend)⟩⟩
  have hinv : s.Numbered ∧ s.Settling ∧ s.OwnOutcome := by
    refine Run.exec_invariant_along (I := fun s => s.Numbered ∧ s.Settling ∧ s.OwnOutcome)
      (fun {s l s'} hI hC hstep => ?_) hinit hund h
    obtain ⟨hnum, hs, ho⟩ := hI
    have heffect := step_effect hstep
    have hs' := hs.step hnum hC heffect
    exact ⟨hnum.step heffect, hs', ho.step hs hs' hC heffect⟩
  exact hinv.2.2

/-- An incoming two-way transaction for an object. -/
def incomingTransaction (id : BinderObjectId) : Transmission :=
  .ofBuilder (.ofBinder id.id) id.cookie 0 0 ⟨0, 0, 0, 0⟩ PayloadBuilder.new

/-- A call that handles a nested transaction before its `REPLY` arrives. -/
def nestedCall : List Label :=
  [.startCall emptyTransmission,
    .read [⟨.transaction none (incomingTransaction ⟨1, 0⟩), none⟩] true, .dispatch quietWorld,
    .handled quietWorld PayloadBuilder.new,
    .read [⟨.transactionComplete, some (.reply 1)⟩] true, .dispatch quietWorld,
    .dispatch quietWorld, .dispatch quietWorld,
    .read [⟨.reply emptyTransmission, some (.call 0)⟩] true, .dispatch quietWorld]

/-- That call returns `Ok` with the `REPLY` to it. -/
theorem ownOutcome_nestedCall :
    ∃ s, Run.exec (step fun _ _ => none) (idle (processWith ⟨1, 0⟩)) nestedCall = some s ∧
      .callEnded 0 (.ok (0, PayloadReader.fromKernelRaw 0 emptyTransmission))
        (.record ⟨.reply emptyTransmission, some (.call 0)⟩) ∈ s.history ∧ s.OwnOutcome := by
  refine ⟨_, rfl, List.mem_cons_self, ownOutcome_along (fun _ _ => none) (processWith ⟨1, 0⟩)
    nestedCall _ rfl ?_⟩
  have hsingle : ∀ (x r : KernelRecord) (t : ℕ), r ∈ [x] → r.answers t = true →
      x.answers t = true := fun x r t hr hrt => List.mem_singleton.mp hr ▸ hrt
  refine (Run.along_cons_iff rfl).mpr ⟨trivial, ?_⟩
  refine (Run.along_cons_iff rfl).mpr ⟨fun r hr t _ hrt => ?_, ?_⟩
  · cases hsingle _ r t hr hrt
  refine (Run.along_cons_iff rfl).mpr ⟨⟨fun secCtx txn htxn hobj => ?_, fun h => ?_⟩, ?_⟩
  · cases htxn
    cases hobj
  · cases h
  refine (Run.along_cons_iff rfl).mpr ⟨trivial, ?_⟩
  refine (Run.along_cons_iff rfl).mpr ⟨fun r hr t _ hrt => ?_, ?_⟩
  · cases hsingle _ r t hr hrt
  refine (Run.along_cons_iff rfl).mpr ⟨trivial, ?_⟩
  refine (Run.along_cons_iff rfl).mpr ⟨trivial, ?_⟩
  refine (Run.along_cons_iff rfl).mpr ⟨trivial, ?_⟩
  refine (Run.along_cons_iff rfl).mpr ⟨fun r hr t _ hrt => ?_, ?_⟩
  · have hzero := hsingle _ r t hr hrt
    simp only [KernelRecord.answers, Bool.and_eq_true, beq_iff_eq, Option.some.injEq,
      SendId.call.injEq] at hzero
    exact congrArg some hzero.2
  exact (Run.along_cons_iff rfl).mpr ⟨⟨fun secCtx txn htxn => (by cases htxn),
    fun h => (by cases h)⟩, trivial⟩

/-- A transaction for an object that is not registered ends the call as if it had failed. -/
theorem call_ended_by_other_transaction :
    ∃ s, Run.exec (step fun _ _ => none) (idle (processWith ⟨1, 0⟩))
        [.startCall emptyTransmission,
          .read [⟨.transaction none (incomingTransaction ⟨2, 0⟩), none⟩] true,
          .dispatch quietWorld] = some s ∧ ¬ s.OwnOutcome := by
  refine ⟨_, rfl, fun h => ?_⟩
  have hown := h.events _ List.mem_cons_self
  rcases hown with ⟨r, hr, hfail, -⟩ | ⟨errno, write, hcause⟩ | hcause
  · cases hr
    cases hfail
  · cases hcause
  · cases hcause

end Thread

end BinderBinder
