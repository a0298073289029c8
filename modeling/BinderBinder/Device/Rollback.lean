import BinderBinder.Device.Transact
import BinderBinder.Payload.Representation

set_option relaxedAutoImplicit false
set_option autoImplicit false

/-!
# What a failed send does to the counts

The objects of a payload are found again in its bytes, once to be marked before it is sent and once
to have their marks rolled back if that fails. The two walks see the same objects as often, so the
rollback undoes the marks. The payload itself is gone when the call returns, and the references
that its handles held with it.

## Main definitions

* `BinderDevice.countsOf`, `BinderDevice.refOpAll` — the counts of an id, and a method on many ids.
* `BuilderCall.timesPushed` — how often a strong object with an id was pushed.
* `RefCounts.raised`, `PayloadBuilder.held` — what the marks do, and what a payload holds.
* `Untouched` — nothing else happens to an id while a call reads.
* `BinderDevice.MarksExactly`, `BinderDevice.RollsBackExactly` — what the marks do to the counts, and
  what a failed call leaves of them.

## Main results

* `forEachEmbeddedBinderObject_eq` — the walk over a payload finds the strong objects pushed.
* `BinderDevice.refOpAll_spec` — what a method on many ids does to each.
* `BinderDevice.failedSend` — the marks, and the counts after a failed send.
-/

namespace BinderBinder

open Run

/-! ## A method on many ids -/

namespace BinderDevice

/-- The counts of an id, if it is registered. -/
def countsOf (dev : BinderDevice) (id : BinderObjectId) : Option RefCounts :=
  (dev.objectRefcounts id).map ObjectRefState.counts

/-- The same method on the counts of some ids. -/
def refOpAll (dev : BinderDevice) (op : RefOp) (ids : List BinderObjectId) : Option BinderDevice :=
  ids.foldlM (fun dev id => (dev.refOp id op).map Prod.snd) dev

/-- A method on many ids acts on each as often as the id occurs, and leaves the rest of the device
alone. -/
theorem refOpAll_spec {op : RefOp} {ids : List BinderObjectId} {dev dev' : BinderDevice}
    (h : dev.refOpAll op ids = some dev') :
    (∀ id, dev'.objectRefcounts id = (dev.objectRefcounts id).bind fun s =>
      exec ObjectRefState.step s (List.replicate (ids.count id) op)) ∧
    (∀ id, (dev'.objectRefcounts id).isSome = (dev.objectRefcounts id).isSome) ∧
    dev' = { dev with objectRefcounts := dev'.objectRefcounts } := by
  induction ids generalizing dev with
  | nil =>
    cases h
    refine ⟨fun id => ?_, fun _ => rfl, rfl⟩
    cases dev'.objectRefcounts id <;> rfl
  | cons id₀ ids ih =>
    obtain ⟨dev₁, hfirst, hrest⟩ := Option.bind_eq_some_iff.mp h
    obtain ⟨⟨b, _⟩, hop, rfl⟩ := Option.map_eq_some_iff.mp hfirst
    obtain ⟨hcounts, hregistered, hsame⟩ := refOp_counts hop
    obtain ⟨hcounts', hregistered', hsame'⟩ := ih hrest
    refine ⟨fun id => ?_, fun id => (hregistered' id).trans (hregistered id), ?_⟩
    · rw [hcounts', hcounts]
      by_cases hid : id = id₀
      · rw [if_pos hid, hid, List.count_cons_self, List.replicate_succ]
        cases dev.objectRefcounts id₀ <;> rfl
      · rw [if_neg hid, List.count_cons_of_ne (Ne.symm hid)]
    · rw [hsame', hsame]

/-- A registered id goes through the method as often as it occurs. -/
theorem exec_of_refOpAll {op : RefOp} {ids : List BinderObjectId} {dev dev' : BinderDevice}
    (h : dev.refOpAll op ids = some dev') {id : BinderObjectId} {s : ObjectRefState}
    (hs : dev.objectRefcounts id = some s) : ∃ s', dev'.objectRefcounts id = some s' ∧
      exec ObjectRefState.step s (List.replicate (ids.count id) op) = some s' := by
  obtain ⟨hcounts, hregistered, -⟩ := refOpAll_spec h
  have hregistered := hregistered id
  have hcounts := hcounts id
  rw [hs] at hregistered hcounts
  obtain ⟨s', hs'⟩ := Option.isSome_iff_exists.mp hregistered
  rw [hs'] at hcounts
  exact ⟨s', hs', hcounts.symm⟩

/-- A method on many ids goes through if it does on each, as often as the id occurs. -/
theorem isSome_refOpAll {op : RefOp} {ids : List BinderObjectId} {dev : BinderDevice}
    (h : ∀ id s, dev.objectRefcounts id = some s →
      (exec ObjectRefState.step s (List.replicate (ids.count id) op)).isSome) :
    (dev.refOpAll op ids).isSome := by
  induction ids generalizing dev with
  | nil => rfl
  | cons id₀ ids ih =>
    have hfirst : (dev.refOp id₀ op).isSome := by
      rw [refOp]
      cases hs : dev.objectRefcounts id₀ with
      | none => rfl
      | some s =>
        have hexec := h id₀ s hs
        rw [List.count_cons_self, List.replicate_succ, exec_cons] at hexec
        obtain ⟨t, ht⟩ := Option.isSome_iff_exists.mp hexec
        obtain ⟨s', hs', -⟩ := Option.bind_eq_some_iff.mp ht
        rw [Option.isSome_map, hs', Option.isSome_some]
    obtain ⟨⟨b, dev₁⟩, hop⟩ := Option.isSome_iff_exists.mp hfirst
    obtain ⟨hcounts, -, -⟩ := refOp_counts hop
    have hrest : (dev₁.refOpAll op ids).isSome := by
      refine ih fun id s hs => ?_
      rw [hcounts] at hs
      by_cases hid : id = id₀
      · rw [if_pos hid] at hs
        obtain ⟨s₀, hs₀, hstep⟩ := Option.bind_eq_some_iff.mp hs
        have hexec := h id s₀ hs₀
        rw [hid, List.count_cons_self, List.replicate_succ, exec_cons, hstep] at hexec
        rw [hid]
        exact hexec
      · rw [if_neg hid] at hs
        have hexec := h id s hs
        rwa [List.count_cons_of_ne (Ne.symm hid)] at hexec
    rw [refOpAll, List.foldlM_cons, hop]
    exact hrest

end BinderDevice

/-! ## Marks and rollbacks on one object -/

/-- The counts after some marks: only `pending` is raised, and only if `remote` is zero. -/
def RefCounts.raised (n : ℕ) (c : RefCounts) : RefCounts :=
  if c.remoteRefs = 0 then { c with pending := c.pending + n } else c

namespace ObjectRefState

/-- What the methods keep: with a remote reference there is no credit, and the published value is
the total. -/
structure Settled (s : ObjectRefState) : Prop where
  published : s.Published
  no_credit : s.counts.remoteRefs ≠ 0 → s.counts.pending = 0

/-- Every method keeps this. -/
theorem Settled.step {s s' : ObjectRefState} {op : RefOp} (hs : s.Settled)
    (h : s.step op = some s') : s'.Settled := by
  obtain ⟨hcounts, -, hpublished⟩ := step_eq_some.mp h
  refine ⟨hpublished, fun hremote => ?_⟩
  have hno := hs.no_credit
  cases op with
  | increaseLocal =>
    obtain ⟨-, heq⟩ := RefOp.apply_increaseLocal.mp hcounts
    rw [heq] at hremote ⊢
    exact hno hremote
  | decreaseLocal =>
    obtain ⟨-, heq⟩ := RefOp.apply_decreaseLocal.mp hcounts
    rw [heq] at hremote ⊢
    exact hno hremote
  | increaseRemote =>
    obtain ⟨-, heq⟩ := RefOp.apply_increaseRemote.mp hcounts
    rw [heq]
  | decreaseRemote =>
    obtain ⟨hpos, heq⟩ := RefOp.apply_decreaseRemote.mp hcounts
    rw [heq]
    exact hno (by omega)
  | markPendingRemote =>
    rcases RefOp.apply_markPendingRemote.mp hcounts with ⟨hzero, -, heq⟩ | ⟨hne, heq⟩
    · rw [heq] at hremote
      exact absurd hzero hremote
    · rw [heq]
      exact hno hne
  | clearPendingRemote =>
    have heq := RefOp.apply_clearPendingRemote.mp hcounts
    rw [heq] at hremote ⊢
    show s.counts.pending - 1 = 0
    rw [hno hremote]

/-- Reachable states are settled. -/
theorem Settled.of_reachable {id : BinderObjectId} {s : ObjectRefState}
    (h : Reachable ObjectRefState.step (new id) s) : s.Settled :=
  h.invariant ⟨published_new id, fun h => absurd rfl h⟩ Settled.step

/-- Two states of an object with the same counts are the same. -/
theorem eq_of_counts {s s' : ObjectRefState} (hid : s'.objId = s.objId)
    (hcounts : s'.counts = s.counts) (hs : s.Published) (hs' : s'.Published) : s' = s := by
  have htotal : s'.strongCount = s.strongCount := by rw [hs'.total, hs.total, hcounts]
  obtain ⟨id, c, n⟩ := s
  obtain ⟨id', c', n'⟩ := s'
  cases hid
  cases hcounts
  cases htotal
  rfl

/-- Marks raise `pending`, if they go through. -/
theorem counts_of_marks {s s' : ObjectRefState} {n : ℕ}
    (h : exec step s (List.replicate n .markPendingRemote) = some s') :
    s'.counts = s.counts.raised n ∧ s'.objId = s.objId := by
  induction n generalizing s with
  | zero =>
    cases h
    exact ⟨by rw [RefCounts.raised]; split_ifs <;> rfl, rfl⟩
  | succ n ih =>
    rw [List.replicate_succ] at h
    obtain ⟨s₁, hs₁, hrest⟩ := exec_cons_eq_some.mp h
    obtain ⟨hcounts, hid, -⟩ := step_eq_some.mp hs₁
    obtain ⟨hcounts', hid'⟩ := ih hrest
    refine ⟨?_, hid'.trans hid⟩
    rw [hcounts']
    rcases RefOp.apply_markPendingRemote.mp hcounts with ⟨hzero, -, heq⟩ | ⟨hne, heq⟩
    · rw [heq, RefCounts.raised, RefCounts.raised, if_pos hzero, if_pos hzero]
      show RefCounts.mk _ _ (s.counts.pending + 1 + n) = RefCounts.mk _ _ (s.counts.pending + (n + 1))
      rw [Nat.add_assoc, Nat.add_comm 1 n]
    · rw [heq, RefCounts.raised, RefCounts.raised, if_neg hne, if_neg hne]

/-- Marks go through if the total stays a `u32`. -/
theorem isSome_marks_iff {s : ObjectRefState} (hs : s.Published) (n : ℕ) :
    (exec step s (List.replicate n .markPendingRemote)).isSome ↔
      (s.counts.remoteRefs = 0 → s.strongCount + n < u32Size) := by
  induction n generalizing s with
  | zero =>
    have := hs.lt
    simp only [List.replicate_zero, exec, Option.isSome_some, Nat.add_zero, true_iff]
    exact fun _ => this
  | succ n ih =>
    have htotal := hs.total
    have hlt := hs.lt
    rw [List.replicate_succ, exec_cons]
    by_cases hzero : s.counts.remoteRefs = 0
    · by_cases hroom : s.strongCount + 1 < u32Size
      · have hstep : s.step .markPendingRemote = some ⟨s.objId,
            { s.counts with pending := s.counts.pending + 1 }, s.strongCount + 1⟩ := by
          refine step_eq_some.mpr ⟨RefOp.apply_markPendingRemote.mpr (Or.inl ⟨hzero, ?_, rfl⟩), rfl,
            ?_, hroom⟩
          · omega
          · show s.strongCount + 1 = s.counts.localRefs + s.counts.remoteRefs + (s.counts.pending + 1)
            omega
        rw [hstep, Option.bind_some, ih (step_eq_some.mp hstep).2.2]
        show (s.counts.remoteRefs = 0 → s.strongCount + 1 + n < u32Size) ↔
          (s.counts.remoteRefs = 0 → s.strongCount + (n + 1) < u32Size)
        rw [Nat.add_assoc, Nat.add_comm 1 n]
      · have hstep : s.step .markPendingRemote = none := by
          cases hstep : s.step .markPendingRemote with
          | none => rfl
          | some s' =>
            obtain ⟨hcounts, -, hpublished⟩ := step_eq_some.mp hstep
            rcases RefOp.apply_markPendingRemote.mp hcounts with ⟨-, -, heq⟩ | ⟨hne, -⟩
            · have htotal' := hpublished.total
              have hlt' := hpublished.lt
              rw [heq] at htotal'
              have hsum : s'.strongCount =
                s.counts.localRefs + s.counts.remoteRefs + (s.counts.pending + 1) := htotal'
              omega
            · exact absurd hzero hne
        rw [hstep, Option.bind_none]
        refine ⟨fun h => (by cases h), fun h => absurd (h hzero) (by omega)⟩
    · have hstep : s.step .markPendingRemote = some s :=
        step_eq_some.mpr ⟨RefOp.apply_markPendingRemote.mpr (Or.inr ⟨hzero, rfl⟩), rfl, hs⟩
      rw [hstep, Option.bind_some, ih hs]
      exact ⟨fun _ h => absurd h hzero, fun _ h => absurd h hzero⟩

/-- Rollbacks give credits back while there are any, and never panic. -/
theorem exists_clears {s : ObjectRefState} (hs : s.Published) (n : ℕ) :
    ∃ s', exec step s (List.replicate n .clearPendingRemote) = some s' ∧
      s'.counts = { s.counts with pending := s.counts.pending - n } ∧ s'.objId = s.objId ∧
      s'.Published := by
  induction n generalizing s with
  | zero => exact ⟨s, rfl, rfl, rfl, hs⟩
  | succ n ih =>
    have htotal := hs.total
    have hlt := hs.lt
    have hstep : s.step .clearPendingRemote = some ⟨s.objId,
        { s.counts with pending := s.counts.pending - 1 },
        s.counts.localRefs + s.counts.remoteRefs + (s.counts.pending - 1)⟩ :=
      step_eq_some.mpr ⟨RefOp.apply_clearPendingRemote.mpr rfl, rfl, rfl, by
        show s.counts.localRefs + s.counts.remoteRefs + (s.counts.pending - 1) < u32Size
        omega⟩
    obtain ⟨s', hs', hcounts, hid, hpublished⟩ := ih (step_eq_some.mp hstep).2.2
    refine ⟨s', ?_, ?_, hid, hpublished⟩
    · rw [List.replicate_succ, exec_cons, hstep, Option.bind_some, hs']
    · rw [hcounts]
      show RefCounts.mk _ _ (s.counts.pending - 1 - n) = RefCounts.mk _ _ (s.counts.pending - (n + 1))
      rw [Nat.sub_sub, Nat.add_comm 1 n]

/-- As many rollbacks as marks bring an object back to where it was. -/
theorem clears_of_marks {s s₁ : ObjectRefState} (hs : s.Settled) {n : ℕ}
    (hmarks : exec step s (List.replicate n .markPendingRemote) = some s₁) :
    exec step s₁ (List.replicate n .clearPendingRemote) = some s := by
  obtain ⟨hraised, hid⟩ := counts_of_marks hmarks
  have hs₁ : s₁.Published := published_of_exec hs.published hmarks
  obtain ⟨s', hs', hcounts, hid', hpublished⟩ := exists_clears hs₁ n
  rw [hs']
  refine congrArg some (eq_of_counts (hid'.trans hid) ?_ hs.published hpublished)
  rw [hcounts, hraised]
  by_cases hzero : s.counts.remoteRefs = 0
  · simp only [RefCounts.raised, if_pos hzero, Nat.add_sub_cancel]
  · have hnone := hs.no_credit hzero
    simp only [RefCounts.raised, if_neg hzero, hnone, Nat.zero_sub]
    rw [← hnone]

end ObjectRefState

/-! ## The strong objects of a payload -/

/-- The id that a handle to a strong object carries. -/
def BinderObjectOrRef.strongId : BinderObjectOrRef → Option BinderObjectId
  | object o => some o.id
  | _ => none

namespace BuilderCall

/-- The id of the strong object that a call pushes. -/
def strongId : BuilderCall → Option BinderObjectId
  | pushBinderRef _ x => x.handle.strongId
  | _ => none

/-- How often a strong object with an id was pushed. -/
def timesPushed (calls : List BuilderCall) (id : BinderObjectId) : ℕ :=
  (calls.filterMap strongId).count id

/-- The walk finds at the record of a call the id of the strong object that the call pushed. -/
theorem embeddedBinderObject_object {c : BuilderCall} {upper : UInt32} {o : ObjectRecord}
    {data : List UInt8} {off : ℕ} (hobject : c.object upper = some o)
    (hheader : BinderObjectHeader.layout.readAt data off = some o.hdr)
    (hfields : o.LiesAt data off) : embeddedBinderObject data off = some c.strongId := by
  -- a record of another type is passed over whatever it holds
  have hother (hne : o.hdr.type_ ≠ BinderType.binder.toU32) :
      embeddedBinderObject data off = some none := by
    rw [embeddedBinderObject, hheader]
    exact if_neg hne
  cases c with
  | pushBytes bytes => cases hobject
  | align a ha => cases hobject
  | pushFd d cookie =>
    cases hobject
    exact hother (show BinderType.fd.toU32 ≠ _ by decide)
  | pushOwnedFd d cookie =>
    cases hobject
    exact hother (show BinderType.fd.toU32 ≠ _ by decide)
  | pushBuffer bytes =>
    cases hobject
    exact hother (show BinderType.ptr.toU32 ≠ _ by decide)
  | pushChildBuffer bytes parent parentPtrOffset =>
    cases hobject
    exact hother (show BinderType.ptr.toU32 ≠ _ by decide)
  | pushFdArray numFds parent parentPtrOffset =>
    cases hobject
    exact hother (show BinderType.fda.toU32 ≠ _ by decide)
  | pushBinderRef dev x =>
    cases hobject
    rw [strongId]
    cases hx : x.handle with
    | object obj =>
      rw [hx] at hheader hfields
      have hflat : FlatBinderObject.layout.readAt data off =
        some ((BinderObjectOrRef.object obj).getFlatBinderObject upper) := hfields
      rw [embeddedBinderObject, hheader, hflat]
      rfl
    | weakObject obj =>
      rw [hx] at hother
      exact hother (show BinderType.weakBinder.toU32 ≠ _ by decide)
    | ref r =>
      rw [hx] at hother
      exact hother (show BinderType.handle.toU32 ≠ _ by decide)
    | weakRef r =>
      rw [hx] at hother
      exact hother (show BinderType.weakHandle.toU32 ≠ _ by decide)

/-- A call that pushes no object pushes no strong one. -/
theorem filterMap_strongId_filter (calls : List BuilderCall) :
    (calls.filter isObject).filterMap strongId = calls.filterMap strongId := by
  induction calls with
  | nil => rfl
  | cons c calls ih =>
    by_cases hobject : c.isObject = true
    · rw [List.filter_cons_of_pos hobject, List.filterMap_cons, List.filterMap_cons, ih]
    · have hnone : c.strongId = none := by
        cases c <;> first | rfl | exact absurd rfl hobject
      rw [List.filter_cons_of_neg hobject, List.filterMap_cons, hnone, ih]

end BuilderCall

/-- The walk over the transmission of a payload finds the strong objects that were pushed, in the
order and as often as they were. -/
theorem forEachEmbeddedBinderObject_eq {calls : List BuilderCall} {b : PayloadBuilder}
    {table : List (ℕ × ObjectRecord)} (hb : b.Represents calls table) {td : Transmission}
    (hdata : td.data = b.data) (hoffsets : td.offsets = b.objOffsets)
    (f : BinderDevice → BinderObjectId → Option BinderDevice) (dev : BinderDevice) :
    forEachEmbeddedBinderObject td f dev =
      (calls.filterMap BuilderCall.strongId).foldlM f dev := by
  rw [forEachEmbeddedBinderObject, hdata, hoffsets, hb.offsets,
    ← BuilderCall.filterMap_strongId_filter]
  have hobjects := List.forall₂_map_right_iff.mp hb.objects
  have hheader := hb.header
  have hfields := hb.fields
  -- from here on only what lies at the entries of the table matters
  clear hb
  generalize calls.filter BuilderCall.isObject = objects at hobjects ⊢
  induction hobjects generalizing dev with
  | nil => rfl
  | @cons c m cs rest hc hrest ih =>
    obtain ⟨upper, hobject⟩ := hc
    have hfound := BuilderCall.embeddedBinderObject_object hobject
      (hheader m List.mem_cons_self) (hfields m List.mem_cons_self)
    have hnext (dev : BinderDevice) := ih dev
      (fun m' hm' => hheader m' (List.mem_cons_of_mem m hm'))
      (fun m' hm' => hfields m' (List.mem_cons_of_mem m hm'))
    rw [List.map_cons, List.foldlM_cons, hfound, List.filterMap_cons]
    cases c.strongId with
    | none => exact hnext dev
    | some id =>
      rw [List.foldlM_cons]
      show (f dev id).bind _ = (f dev id).bind _
      exact congrArg (f dev id).bind (funext hnext)

/-! ## The handles of a payload -/

/-- The handle holds a local reference to an object with the id. -/
def BinderObjectOrRef.holds (id : BinderObjectId) : BinderObjectOrRef → Bool
  | object o => o.increasedLocalRef && o.id == id
  | _ => false

/-- How many local references to an object of a device the handles of a payload hold. -/
def PayloadBuilder.held (b : PayloadBuilder) (addr : Addr) (id : BinderObjectId) : ℕ :=
  b.binderObjects.countP fun x => x.device == addr && x.holds id

/-- The counts with some local references fewer. -/
def RefCounts.lowered (n : ℕ) (c : RefCounts) : RefCounts := { c with localRefs := c.localRefs - n }

namespace BinderDevice

variable {kernel : KernelWrite}

/-- Reachable counts: every registered object went through a run of the methods. -/
def CountsReachable (dev : BinderDevice) : Prop :=
  ∀ id s, dev.objectRefcounts id = some s → Reachable ObjectRefState.step (.new id) s

/-- The counts are those of another device with the same address. -/
def SameCounts (dev dev' : BinderDevice) : Prop :=
  dev'.addr = dev.addr ∧ dev'.objectRefcounts = dev.objectRefcounts

/-- A command does not touch the counts. -/
theorem SameCounts.writeCommand {dev dev' : BinderDevice} {cmd : Command}
    (h : dev.writeCommand kernel cmd = some dev') : SameCounts dev dev' := by
  obtain ⟨-, rfl⟩ := writeCommand_eq_some.mp h
  exact ⟨rfl, rfl⟩

/-- One device after another. -/
theorem SameCounts.trans {dev dev' dev'' : BinderDevice} (h : SameCounts dev dev')
    (h' : SameCounts dev' dev'') : SameCounts dev dev'' :=
  ⟨h'.1.trans h.1, h'.2.trans h.2⟩

/-- The cleanup of an entry does not touch the counts. -/
theorem SameCounts.evictRef (dev : BinderDevice) (handle : UInt32) :
    SameCounts dev (dev.evictRef handle) := by
  unfold BinderDevice.evictRef
  split_ifs <;> exact ⟨rfl, rfl⟩

/-- The cleanup of an entry does not touch the counts. -/
theorem SameCounts.evictWeakRef (dev : BinderDevice) (handle : UInt32) :
    SameCounts dev (dev.evictWeakRef handle) := by
  unfold BinderDevice.evictWeakRef
  split_ifs <;> exact ⟨rfl, rfl⟩

/-- The end of a weak reference does not touch the counts. -/
theorem SameCounts.dropWeak {dev dev' : BinderDevice} {r : WeakBinderRef}
    (h : r.drop kernel dev = some dev') : SameCounts dev dev' := by
  obtain ⟨dev₁, hclear, hrest⟩ := Option.bind_eq_some_iff.mp h
  obtain ⟨dev₂, hdec, heq⟩ := Option.bind_eq_some_iff.mp hrest
  cases heq
  have hfirst : SameCounts (dev.release r.addr) dev₁ := SameCounts.writeCommand hclear
  have hsecond := SameCounts.writeCommand hdec
  have hboth : SameCounts dev dev₂ :=
    ⟨hsecond.1.trans hfirst.1, hsecond.2.trans hfirst.2⟩
  exact hboth.trans (SameCounts.evictWeakRef dev₂ r.id)

/-- The end of a reference does not touch the counts. -/
theorem SameCounts.dropRef {dev dev' : BinderDevice} {lastWeak : Bool} {r : BinderRef}
    (h : r.drop kernel dev lastWeak = some dev') : SameCounts dev dev' := by
  obtain ⟨dev₁, hrelease, hrest⟩ := Option.bind_eq_some_iff.mp h
  have hfirst : SameCounts (dev.release r.addr) dev₁ := SameCounts.writeCommand hrelease
  have hevict : SameCounts dev (dev₁.evictRef r.handle) :=
    SameCounts.trans ⟨hfirst.1, hfirst.2⟩ (SameCounts.evictRef dev₁ r.handle)
  by_cases hlast : lastWeak = true
  · rw [if_pos hlast] at hrest
    exact hevict.trans (SameCounts.dropWeak hrest)
  · rw [if_neg hlast] at hrest
    cases hrest
    exact hevict

/-- A handle that is dropped gives back what it holds, and nothing else. -/
theorem counts_dropArc {dev dev' : BinderDevice} {lastRef lastWeak : Bool} {x : BinderObjectOrRef}
    (h : x.dropArc kernel dev lastRef lastWeak = some dev') :
    dev'.addr = dev.addr ∧
      (∀ id, (dev'.objectRefcounts id).isSome = (dev.objectRefcounts id).isSome) ∧
      ∀ id, dev'.objectRefcounts id =
        if x.holds id then (dev.objectRefcounts id).bind (·.step .decreaseLocal)
        else dev.objectRefcounts id := by
  have hsame (hs : SameCounts dev dev') (hx : ∀ id, x.holds id = false) :
      dev'.addr = dev.addr ∧
        (∀ id, (dev'.objectRefcounts id).isSome = (dev.objectRefcounts id).isSome) ∧
        ∀ id, dev'.objectRefcounts id =
          if x.holds id then (dev.objectRefcounts id).bind (·.step .decreaseLocal)
          else dev.objectRefcounts id := by
    refine ⟨hs.1, fun id => by rw [hs.2], fun id => ?_⟩
    rw [hx, hs.2]
    rfl
  cases x with
  | object o =>
    cases hcounted : o.increasedLocalRef with
    | true =>
      have hdrop : dev.decreaseLocal o.id = some dev' := by
        have h : o.drop dev = some dev' := h
        rwa [BorrowedBinderObject.drop, if_pos hcounted] at h
      obtain ⟨⟨b, _⟩, hop, rfl⟩ := Option.map_eq_some_iff.mp hdrop
      obtain ⟨hcounts, hregistered, hrest⟩ := refOp_counts hop
      refine ⟨by rw [hrest], hregistered, fun id => ?_⟩
      rw [hcounts]
      by_cases hid : id = o.id
      · simp [BinderObjectOrRef.holds, hcounted, hid]
      · simp [BinderObjectOrRef.holds, hid, Ne.symm hid]
    | false =>
      have hdrop : some dev = some dev' := by
        have h : o.drop dev = some dev' := h
        rwa [BorrowedBinderObject.drop, if_neg (by rw [hcounted]; exact Bool.false_ne_true)] at h
      cases hdrop
      refine hsame ⟨rfl, rfl⟩ fun id => ?_
      rw [BinderObjectOrRef.holds, hcounted, Bool.false_and]
  | weakObject o =>
    cases h
    exact hsame ⟨rfl, rfl⟩ fun _ => rfl
  | ref r =>
    refine hsame ?_ fun _ => rfl
    by_cases hlast : lastRef = true
    · exact SameCounts.dropRef ((if_pos hlast).symm.trans h)
    · cases (if_neg hlast).symm.trans h
      exact ⟨rfl, rfl⟩
  | weakRef r =>
    refine hsame ?_ fun _ => rfl
    by_cases hlast : lastWeak = true
    · exact SameCounts.dropWeak ((if_pos hlast).symm.trans h)
    · cases (if_neg hlast).symm.trans h
      exact ⟨rfl, rfl⟩

/-- Handles that are dropped one after another give back what they hold on this device.

**Step.** A handle of another device, or one that holds nothing of the id, leaves its entry alone;
the others take one local reference from it. -/
theorem counts_dropAll {last : ℕ → Bool × Bool} {handles : List (BinderObjectOrRef × ℕ)}
    {dev dev' : BinderDevice}
    (h : handles.foldlM (fun dev (x, i) => if x.device = dev.addr then
      x.dropArc kernel dev (last i).1 (last i).2 else some dev) dev = some dev') :
    dev'.addr = dev.addr ∧
      (∀ id, (dev'.objectRefcounts id).isSome = (dev.objectRefcounts id).isSome) ∧
      ∀ id, dev'.objectRefcounts id = (dev.objectRefcounts id).bind fun s =>
        exec ObjectRefState.step s (List.replicate
          ((handles.map Prod.fst).countP fun x => x.device == dev.addr && x.holds id)
          .decreaseLocal) := by
  induction handles generalizing dev with
  | nil =>
    cases h
    refine ⟨rfl, fun _ => rfl, fun id => ?_⟩
    cases dev'.objectRefcounts id <;> rfl
  | cons p handles ih =>
    obtain ⟨x, i⟩ := p
    obtain ⟨dev₁, hfirst, hrest⟩ := Option.bind_eq_some_iff.mp h
    obtain ⟨haddr, hregistered, hcounts⟩ := ih hrest
    by_cases hdevice : x.device = dev.addr
    · obtain ⟨haddr₁, hregistered₁, hcounts₁⟩ :=
        counts_dropArc ((if_pos hdevice).symm.trans hfirst)
      refine ⟨haddr.trans haddr₁, fun id => (hregistered id).trans (hregistered₁ id), fun id => ?_⟩
      rw [hcounts, hcounts₁, haddr₁, List.map_cons]
      by_cases hholds : x.holds id = true
      · rw [if_pos hholds, List.countP_cons_of_pos (by simp [hdevice, hholds]),
          List.replicate_succ]
        cases dev.objectRefcounts id <;> rfl
      · rw [if_neg hholds, List.countP_cons_of_neg (by simp [hholds])]
    · cases (if_neg hdevice).symm.trans hfirst
      refine ⟨haddr, hregistered, fun id => ?_⟩
      rw [hcounts, List.map_cons, List.countP_cons_of_neg (by simp [hdevice])]

/-- Local references that are given back one after another. -/
theorem counts_of_decreases {s s' : ObjectRefState} {n : ℕ}
    (h : exec ObjectRefState.step s (List.replicate n .decreaseLocal) = some s') :
    n ≤ s.counts.localRefs ∧ s'.counts = s.counts.lowered n := by
  induction n generalizing s with
  | zero =>
    cases h
    exact ⟨Nat.zero_le _, rfl⟩
  | succ n ih =>
    rw [List.replicate_succ] at h
    obtain ⟨s₁, hs₁, hrest⟩ := exec_cons_eq_some.mp h
    obtain ⟨hcounts, -, -⟩ := ObjectRefState.step_eq_some.mp hs₁
    obtain ⟨hpos, heq⟩ := RefOp.apply_decreaseLocal.mp hcounts
    obtain ⟨hle, hlowered⟩ := ih hrest
    rw [heq] at hle hlowered
    have hle : n ≤ s.counts.localRefs - 1 := hle
    refine ⟨by omega, ?_⟩
    rw [hlowered]
    show RefCounts.mk (s.counts.localRefs - 1 - n) _ _ = RefCounts.mk (s.counts.localRefs - (n + 1)) _ _
    rw [Nat.sub_sub, Nat.add_comm 1 n]

/-- A payload that is dropped gives back what its handles hold. -/
theorem counts_dropPayload {last : ℕ → Bool × Bool} {b : PayloadBuilder} {dev dev' : BinderDevice}
    (h : b.drop kernel last dev = some dev') (id : BinderObjectId) :
    dev'.countsOf id = (dev.countsOf id).map (RefCounts.lowered (b.held dev.addr id)) ∧
      ∀ c ∈ dev.countsOf id, b.held dev.addr id ≤ c.localRefs := by
  obtain ⟨-, hregistered, hcounts⟩ := counts_dropAll h
  have hregistered := hregistered id
  have hcounts := hcounts id
  rw [List.zipIdx_map_fst] at hcounts
  rw [countsOf, countsOf]
  cases hs : dev.objectRefcounts id with
  | none =>
    rw [hs] at hcounts
    rw [hcounts]
    exact ⟨rfl, fun c hc => by cases hc⟩
  | some s =>
    rw [hs] at hregistered hcounts
    obtain ⟨s', hs'⟩ := Option.isSome_iff_exists.mp hregistered
    rw [hs'] at hcounts ⊢
    obtain ⟨hle, hlowered⟩ := counts_of_decreases hcounts.symm
    refine ⟨congrArg some hlowered, fun c hc => ?_⟩
    cases hc
    exact hle

end BinderDevice

/-! ## Failed sends -/

/-- Marks are exact: they go through as long as the totals stay `u32`s, and an object without remote
references gains as many credits as often it was pushed. -/
structure BinderDevice.MarksExactly (dev : BinderDevice) (calls : List BuilderCall)
    (td : Transmission) : Prop where
  goes_through : (markObjectsAsPendingRemote td dev).isSome ↔
    ∀ id s, dev.objectRefcounts id = some s → s.counts.remoteRefs = 0 →
      s.strongCount + BuilderCall.timesPushed calls id < u32Size
  raised : ∀ dev₁, markObjectsAsPendingRemote td dev = some dev₁ → ∀ id,
    dev₁.countsOf id = (dev.countsOf id).map (.raised (BuilderCall.timesPushed calls id))
  rest : ∀ dev₁, markObjectsAsPendingRemote td dev = some dev₁ →
    dev₁ = { dev with objectRefcounts := dev₁.objectRefcounts }

/-- Nothing but the call itself is done to an id while it reads. -/
def Untouched (id : BinderObjectId) (dev₁ : BinderDevice) (reads : List ReadResult) : Prop :=
  ∀ r ∈ reads, r.after.addr = dev₁.addr ∧
    r.after.objectRefcounts id = dev₁.objectRefcounts id

/-- A failed call rolls its marks back, and takes with it what its payload held. -/
structure BinderDevice.RollsBackExactly {α : Type} (dev : BinderDevice) (b : PayloadBuilder)
    (td : Transmission) (loop call : List ReadResult → CallResult α) : Prop where
  goes_through : ∀ dev₁ reads, markObjectsAsPendingRemote td dev = some dev₁ →
    (∀ id, Untouched id dev₁ reads) → loop reads ≠ .panicked
  counts : ∀ dev₁ reads err dev', markObjectsAsPendingRemote td dev = some dev₁ →
    call reads = .returned (.error err) dev' → ∀ id, Untouched id dev₁ reads →
    dev'.countsOf id = (dev.countsOf id).map (.lowered (b.held dev.addr id)) ∧
      ∀ c ∈ dev.countsOf id, b.held dev.addr id ≤ c.localRefs

/-- A call returns what its loop does, if its payload can be dropped. -/
theorem CallResult.dropData_eq_returned {α : Type} {kernel : KernelWrite} {last : ℕ → Bool × Bool}
    {b : PayloadBuilder} {c : CallResult α} {res : Except Error α} {dev' : BinderDevice} :
    c.dropData kernel last b = .returned res dev' ↔
      ∃ dev, c = .returned res dev ∧ b.drop kernel last dev = some dev' := by
  cases c with
  | waiting => exact ⟨fun h => (by cases h), fun ⟨_, h, _⟩ => (by cases h)⟩
  | panicked => exact ⟨fun h => (by cases h), fun ⟨_, h, _⟩ => (by cases h)⟩
  | returned res₀ dev =>
    rw [dropData]
    cases hdrop : b.drop kernel last dev with
    | none =>
      refine ⟨fun h => (by cases h), ?_⟩
      rintro ⟨dev, heq, hdev⟩
      cases heq
      rw [hdrop] at hdev
      cases hdev
    | some dev₁ =>
      constructor
      · intro h
        cases h
        exact ⟨dev, rfl, hdrop⟩
      · rintro ⟨dev, heq, hdev⟩
        cases heq
        rw [hdrop] at hdev
        cases hdev
        rfl

/-- The error exit returns its error once the marks are rolled back. -/
theorem failCall_eq_returned {α : Type} {td : Transmission} {err err' : Error}
    {dev dev' : BinderDevice} : (failCall td err dev : CallResult α) = .returned (.error err') dev' ↔
      err = err' ∧ unmarkObjectsAsPendingRemote td dev = some dev' := by
  rw [failCall]
  cases unmarkObjectsAsPendingRemote td dev with
  | none => exact ⟨fun h => (by cases h), fun h => (by cases h.2)⟩
  | some dev₁ =>
    constructor
    · intro h
      cases h
      exact ⟨rfl, rfl⟩
    · rintro ⟨rfl, heq⟩
      cases heq
      rfl

/-- A loop that is not at its error exit has not failed: it waits, or it returned no error. -/
def CallResult.Unfailed {α : Type} : CallResult α → Prop
  | waiting => True
  | panicked => False
  | returned res _ => ∀ err, res ≠ .error err

/-- The blocking loop fails only at its error exit, with the device that a read left. -/
theorem blockingLoop_cases (td : Transmission) (reads : List ReadResult) :
    (blockingLoop td reads).Unfailed ∨
      ∃ r ∈ reads, ∃ err, blockingLoop td reads = failCall td err r.after := by
  induction reads with
  | nil => exact Or.inl trivial
  | cons r reads ih =>
    have hlater : (blockingLoop td reads).Unfailed ∨
        ∃ r' ∈ r :: reads, ∃ err, blockingLoop td reads = failCall td err r'.after := by
      refine ih.imp_right ?_
      rintro ⟨r', hr', hfail⟩
      exact ⟨r', List.mem_cons_of_mem r hr', hfail⟩
    obtain ⟨res, dev⟩ := r
    rcases res with _ | (e | v)
    · exact hlater
    · rw [blockingLoop]
      cases he : e.toError with
      | none => exact hlater
      | some err => exact Or.inr ⟨_, List.mem_cons_self, err, rfl⟩
    · exact Or.inl fun err herr => by cases herr

/-- The one-way loop fails only at its error exit, with the device that a read left. -/
theorem oneWayLoop_cases (td : Transmission) (reads : List ReadResult) :
    (oneWayLoop td reads).Unfailed ∨
      ∃ r ∈ reads, ∃ err, oneWayLoop td reads = failCall td err r.after := by
  induction reads with
  | nil => exact Or.inl trivial
  | cons r reads ih =>
    obtain ⟨res, dev⟩ := r
    rcases res with _ | (e | v)
    · exact Or.inl fun err herr => by cases herr
    · rw [oneWayLoop]
      cases he : e.toError with
      | none =>
        refine ih.imp_right ?_
        rintro ⟨r', hr', hfail⟩
        exact ⟨r', List.mem_cons_of_mem _ hr', hfail⟩
      | some err => exact Or.inr ⟨_, List.mem_cons_self, err, rfl⟩
    · exact Or.inl fun err herr => by cases herr

section Failed

variable {undef : ℕ → UInt32} {calls : List BuilderCall} {b : PayloadBuilder}
  {dev dev₁ : BinderDevice} {td : Transmission}

/-- The marks of a payload are one method on the ids that were pushed. -/
theorem markObjectsAsPendingRemote_eq
    (hbuilt : exec (fun b c => BuilderCall.run undef b c) PayloadBuilder.new calls = some b)
    (hdata : td.data = b.data) (hoffsets : td.offsets = b.objOffsets) (dev : BinderDevice) :
    markObjectsAsPendingRemote td dev =
      dev.refOpAll .markPendingRemote (calls.filterMap BuilderCall.strongId) := by
  obtain ⟨⟨table, htable⟩, -⟩ := PayloadBuilder.represents_of_exec hbuilt
  exact forEachEmbeddedBinderObject_eq htable hdata hoffsets _ dev

/-- So are the rollbacks. -/
theorem unmarkObjectsAsPendingRemote_eq
    (hbuilt : exec (fun b c => BuilderCall.run undef b c) PayloadBuilder.new calls = some b)
    (hdata : td.data = b.data) (hoffsets : td.offsets = b.objOffsets) (dev : BinderDevice) :
    unmarkObjectsAsPendingRemote td dev =
      dev.refOpAll .clearPendingRemote (calls.filterMap BuilderCall.strongId) := by
  obtain ⟨⟨table, htable⟩, -⟩ := PayloadBuilder.represents_of_exec hbuilt
  exact forEachEmbeddedBinderObject_eq htable hdata hoffsets _ dev

/-- The marks of a payload raise `pending` as often as an id was pushed. -/
theorem BinderDevice.countsOf_mark
    (hbuilt : exec (fun b c => BuilderCall.run undef b c) PayloadBuilder.new calls = some b)
    (hdata : td.data = b.data) (hoffsets : td.offsets = b.objOffsets)
    (h : markObjectsAsPendingRemote td dev = some dev₁) (id : BinderObjectId) :
    dev₁.countsOf id = (dev.countsOf id).map (.raised (BuilderCall.timesPushed calls id)) := by
  rw [markObjectsAsPendingRemote_eq hbuilt hdata hoffsets] at h
  rw [countsOf, countsOf]
  cases hs : dev.objectRefcounts id with
  | none =>
    rw [(refOpAll_spec h).1, hs]
    rfl
  | some s =>
    obtain ⟨s', hs', hexec⟩ := exec_of_refOpAll h hs
    rw [hs']
    exact congrArg some (ObjectRefState.counts_of_marks hexec).1

/-- The marks of a payload are exact. -/
theorem BinderDevice.marksExactly
    (hbuilt : exec (fun b c => BuilderCall.run undef b c) PayloadBuilder.new calls = some b)
    (hdata : td.data = b.data) (hoffsets : td.offsets = b.objOffsets)
    (hreach : dev.CountsReachable) : dev.MarksExactly calls td := by
  have hmark := markObjectsAsPendingRemote_eq hbuilt hdata hoffsets dev
  have hpublished {id : BinderObjectId} {s : ObjectRefState}
      (hs : dev.objectRefcounts id = some s) : s.Published :=
    (ObjectRefState.Settled.of_reachable (hreach id s hs)).published
  refine ⟨?_, fun dev₁ h => countsOf_mark hbuilt hdata hoffsets h, fun dev₁ h => ?_⟩
  · rw [hmark]
    constructor
    · intro h id s hs
      obtain ⟨dev₁, hdev₁⟩ := Option.isSome_iff_exists.mp h
      obtain ⟨s', -, hexec⟩ := exec_of_refOpAll hdev₁ hs
      refine (ObjectRefState.isSome_marks_iff (hpublished hs) _).mp ?_
      exact Option.isSome_iff_exists.mpr ⟨s', hexec⟩
    · intro h
      refine isSome_refOpAll fun id s hs => ?_
      exact (ObjectRefState.isSome_marks_iff (hpublished hs) _).mpr (h id s hs)
  · rw [hmark] at h
    exact (refOpAll_spec h).2.2

/-- A rollback brings an id back to where it was before the marks. -/
theorem BinderDevice.counts_of_unmark
    (hbuilt : exec (fun b c => BuilderCall.run undef b c) PayloadBuilder.new calls = some b)
    (hdata : td.data = b.data) (hoffsets : td.offsets = b.objOffsets)
    (hreach : dev.CountsReachable) (hmark : markObjectsAsPendingRemote td dev = some dev₁)
    {id : BinderObjectId} {after dev₂ : BinderDevice}
    (hafter : after.objectRefcounts id = dev₁.objectRefcounts id)
    (hunmark : unmarkObjectsAsPendingRemote td after = some dev₂) :
    dev₂.objectRefcounts id = dev.objectRefcounts id := by
  rw [markObjectsAsPendingRemote_eq hbuilt hdata hoffsets] at hmark
  rw [unmarkObjectsAsPendingRemote_eq hbuilt hdata hoffsets] at hunmark
  rw [(refOpAll_spec hunmark).1, hafter]
  cases hs : dev.objectRefcounts id with
  | none =>
    rw [(refOpAll_spec hmark).1, hs]
    rfl
  | some s =>
    obtain ⟨s₁, hs₁, hexec⟩ := exec_of_refOpAll hmark hs
    rw [hs₁]
    exact ObjectRefState.clears_of_marks (.of_reachable (hreach id s hs)) hexec

/-- A rollback does not panic. -/
theorem BinderDevice.isSome_unmark
    (hbuilt : exec (fun b c => BuilderCall.run undef b c) PayloadBuilder.new calls = some b)
    (hdata : td.data = b.data) (hoffsets : td.offsets = b.objOffsets)
    (hreach : dev.CountsReachable) (hmark : markObjectsAsPendingRemote td dev = some dev₁)
    {after : BinderDevice} (hafter : ∀ id, after.objectRefcounts id = dev₁.objectRefcounts id) :
    (unmarkObjectsAsPendingRemote td after).isSome := by
  rw [markObjectsAsPendingRemote_eq hbuilt hdata hoffsets] at hmark
  rw [unmarkObjectsAsPendingRemote_eq hbuilt hdata hoffsets]
  refine isSome_refOpAll fun id s₁ hs₁ => ?_
  rw [hafter] at hs₁
  cases hs : dev.objectRefcounts id with
  | none =>
    rw [(refOpAll_spec hmark).1, hs] at hs₁
    cases hs₁
  | some s =>
    obtain ⟨s', hs', hexec⟩ := exec_of_refOpAll hmark hs
    rw [hs₁] at hs'
    cases hs'
    rw [ObjectRefState.clears_of_marks (.of_reachable (hreach id s hs)) hexec]
    rfl

/-- A loop that fails only at its error exit rolls its marks back exactly.

**Proof sketch.** The device that the loop returns is the one that its last read left, rolled back:
there every id is back where it was. The payload is dropped on that device. -/
theorem BinderDevice.rollsBackExactly {α : Type} (kernel : KernelWrite) (last : ℕ → Bool × Bool)
    {loop call : List ReadResult → CallResult α}
    (hbuilt : exec (fun b c => BuilderCall.run undef b c) PayloadBuilder.new calls = some b)
    (hdata : td.data = b.data) (hoffsets : td.offsets = b.objOffsets)
    (hreach : dev.CountsReachable)
    (hloop : ∀ reads, (loop reads).Unfailed ∨
      ∃ r ∈ reads, ∃ err, loop reads = failCall td err r.after)
    (hcall : ∀ dev₁ reads, markObjectsAsPendingRemote td dev = some dev₁ →
      call reads = (loop reads).dropData kernel last b) :
    dev.RollsBackExactly b td loop call := by
  constructor
  · intro dev₁ reads hmark huntouched hpanic
    rcases hloop reads with hunfailed | ⟨r, hr, err, hfail⟩
    · rw [hpanic] at hunfailed
      exact hunfailed
    · have hsome := isSome_unmark hbuilt hdata hoffsets hreach hmark
        (fun id => (huntouched id r hr).2)
      obtain ⟨dev₂, hdev₂⟩ := Option.isSome_iff_exists.mp hsome
      rw [hfail, failCall, hdev₂] at hpanic
      cases hpanic
  · intro dev₁ reads err dev' hmark hreturned id huntouched
    rw [hcall dev₁ reads hmark] at hreturned
    obtain ⟨dev₂, hfailed, hdrop⟩ := CallResult.dropData_eq_returned.mp hreturned
    rcases hloop reads with hunfailed | ⟨r, hr, err', hfail⟩
    · rw [hfailed] at hunfailed
      exact absurd rfl (hunfailed err)
    · obtain ⟨-, hunmark⟩ := failCall_eq_returned.mp (hfail.symm.trans hfailed)
      obtain ⟨haddr, hafter⟩ := huntouched r hr
      have hcounts := counts_of_unmark hbuilt hdata hoffsets hreach hmark hafter hunmark
      rw [markObjectsAsPendingRemote_eq hbuilt hdata hoffsets] at hmark
      rw [unmarkObjectsAsPendingRemote_eq hbuilt hdata hoffsets] at hunmark
      have haddr₁ : dev₁.addr = dev.addr := by rw [(refOpAll_spec hmark).2.2]
      have haddr₂ : dev₂.addr = r.after.addr := by rw [(refOpAll_spec hunmark).2.2]
      have hdropped := counts_dropPayload hdrop id
      rwa [haddr₂, haddr, haddr₁, countsOf, countsOf, hcounts] at hdropped

/-- **A failed send leaves the counts as they were, but for what its payload held.** The marks raise
`pending` as often as an id was pushed; a call that fails takes them back, and the references that
the handles of its payload hold go with the payload. -/
theorem BinderDevice.failedSend
    (hbuilt : exec (fun b c => BuilderCall.run undef b c) PayloadBuilder.new calls = some b)
    (hreach : dev.CountsReachable) (kernel : KernelWrite) (last : ℕ → Bool × Bool)
    (upper : UInt32) (buffer offsets : Usize) (handle code : UInt32) :
    let td flags := callTransmission upper buffer offsets handle code flags b
    let twoWay := td TransactionFlags.acceptFds
    let oneWay := td (TransactionFlags.acceptFds ||| TransactionFlags.oneWay)
    dev.MarksExactly calls twoWay ∧ dev.MarksExactly calls oneWay ∧
      dev.RollsBackExactly b twoWay (blockingLoop twoWay)
        (dev.remoteTransactBlocking kernel last upper buffer offsets handle code b) ∧
      dev.RollsBackExactly b oneWay (oneWayLoop oneWay)
        (dev.remoteTransactOneWay kernel last upper buffer offsets handle code b) := by
  intro td twoWay oneWay
  refine ⟨marksExactly hbuilt rfl rfl hreach, marksExactly hbuilt rfl rfl hreach, ?_, ?_⟩
  · refine rollsBackExactly kernel last hbuilt rfl rfl hreach (blockingLoop_cases twoWay) ?_
    intro dev₁ reads hmark
    exact remoteTransactBlocking_of_mark kernel last upper buffer offsets hmark
  · refine rollsBackExactly kernel last hbuilt rfl rfl hreach (oneWayLoop_cases oneWay) ?_
    intro dev₁ reads hmark
    exact remoteTransactOneWay_of_mark kernel last upper buffer offsets hmark

end Failed

/-! ## A payload with the last reference -/

/-- The device of the object that is pushed. -/
def ownerOfOne : BinderDevice := (processWith ⟨1, 0⟩).device

/-- The object is pushed twice, with a byte in between. -/
def pushTwice : List BuilderCall :=
  [.pushBinderRef ownerOfOne (.guard ⟨0, ⟨1, 0⟩, ⟨0⟩⟩), .pushBytes [1],
    .pushBinderRef ownerOfOne (.guard ⟨0, ⟨1, 0⟩, ⟨0⟩⟩)]

/-- Nothing has happened to the counts yet. -/
theorem BinderDevice.countsReachable_ownerOfOne : ownerOfOne.CountsReachable := by
  intro id s hs
  refine ⟨[], ?_⟩
  by_cases hid : id = ⟨1, 0⟩
  · subst hid
    exact hs.symm ▸ rfl
  · have hnone : ownerOfOne.objectRefcounts id = none := DashMap.insert_of_ne _ _ hid
    rw [hnone] at hs
    cases hs

/-- A failed call with two pushes of one object. -/
theorem BinderDevice.failedSend_pushTwice :
    ∃ b, exec (fun b c => BuilderCall.run (fun _ => 0) b c) .new pushTwice = some b ∧
      let td flags := callTransmission 0 0 0 7 0 flags b
      let twoWay := td TransactionFlags.acceptFds
      let oneWay := td (TransactionFlags.acceptFds ||| TransactionFlags.oneWay)
      ownerOfOne.MarksExactly pushTwice twoWay ∧ ownerOfOne.MarksExactly pushTwice oneWay ∧
        ownerOfOne.RollsBackExactly b twoWay (blockingLoop twoWay)
          (ownerOfOne.remoteTransactBlocking (fun _ _ => none) (fun _ => (false, false)) 0 0 0 7 0
            b) ∧
        ownerOfOne.RollsBackExactly b oneWay (oneWayLoop oneWay)
          (ownerOfOne.remoteTransactOneWay (fun _ _ => none) (fun _ => (false, false)) 0 0 0 7 0
            b) := by
  obtain ⟨b, hb⟩ : ∃ b,
      exec (fun b c => BuilderCall.run (fun _ => 0) b c) .new pushTwice = some b := ⟨_, rfl⟩
  exact ⟨b, hb, failedSend hb countsReachable_ownerOfOne _ _ 0 0 0 7 0⟩

/-- The counts of the object before and after a call on a payload that holds it, when the call ends
with a dead reply. -/
def countsAroundDeadReply : Option (Option RefCounts × Option RefCounts) := do
  let (b, dev) ← PayloadBuilder.new.pushBinderRef (fun _ => 0) ownerOfOne
    (.guard ⟨0, ⟨1, 0⟩, ⟨0⟩⟩)
  let td := callTransmission 0 0 0 7 0 TransactionFlags.acceptFds b
  let dev₁ ← markObjectsAsPendingRemote td dev
  match dev.remoteTransactBlocking (fun _ _ => none) (fun _ => (false, false)) 0 0 0 7 0 b
      [⟨some (.error .deadReply), dev₁⟩] with
  | .returned (.error .deadReply) dev' => some (dev.countsOf ⟨1, 0⟩, dev'.countsOf ⟨1, 0⟩)
  | _ => none

/-- The object had one local reference before the failed call, and has none after it. -/
theorem BinderDevice.countsAroundDeadReply_eq :
    countsAroundDeadReply = some (some ⟨1, 0, 0⟩, some ⟨0, 0, 0⟩) := by
  decide +kernel

end BinderBinder
