import Mathlib.Data.Finset.Card
import BinderBinder.RefState

set_option relaxedAutoImplicit false
set_option autoImplicit false

/-!
# No credit gets stuck

The other half of what the counter `pending` is for: it stands for sends that are still open, and
for nothing else. A send takes a credit when it marks the object while `remote` is zero; the credit
is resolved when the send is rolled back, or by the next `BR_ACQUIRE`, which resolves all credits at
once. So `pending` never exceeds the number of unresolved credits, whatever the order of events.

## Main definitions

* `Credits`, `CreditOp`, `Credits.step` — one object with the marks whose credits are unresolved.
* `Credits.Resolvable` — there are at most as many credits as marks to resolve them.

## Main results

* `Credits.pending_le_credited` — `pending` is bounded by the unresolved credits, and zero while
  there are remote references; without unresolved credits the total is `local` plus `remote`.
-/

namespace BinderBinder

open Run

/-- One object with the number of marks so far, and those of them that took a credit and were since
neither rolled back nor followed by an acquire. A send that embeds the object more than once marks
it as often. -/
structure Credits where
  refs : ObjectRefState
  marks : ℕ
  credited : Finset ℕ
  deriving DecidableEq

/-- What can happen to the object. Marks are numbered in their order, and any of them may be rolled
back, at any time. -/
inductive CreditOp
  | mark
  | rollback (mark : ℕ)
  | acquire
  | release
  | newHandle
  | dropHandle
  deriving DecidableEq, Repr

namespace Credits

/-- A freshly registered object. -/
def new (objId : BinderObjectId) : Credits := ⟨.new objId, 0, ∅⟩

/-- One operation. The kernel releases only what is acquired. -/
def step (s : Credits) : CreditOp → Option Credits
  | .mark => s.refs.markPendingRemote.map fun refs =>
      ⟨refs, s.marks + 1,
        if s.refs.counts.remoteRefs = 0 then insert s.marks s.credited else s.credited⟩
  | .rollback mark => s.refs.clearPendingRemote.map fun refs =>
      { s with refs, credited := s.credited.erase mark }
  | .acquire => s.refs.increaseRemote.map fun refs => { s with refs, credited := ∅ }
  | .release =>
    if 0 < s.refs.counts.remoteRefs then s.refs.decreaseRemote.map fun refs => { s with refs }
    else none
  | .newHandle => s.refs.increaseLocal.map fun refs => { s with refs }
  | .dropHandle => s.refs.decreaseLocal.map fun refs => { s with refs }

/-- There are at most as many credits as marks to resolve them, none of these while `remote` is
nonzero; later marks are not among them, and the total is published. -/
structure Resolvable (s : Credits) : Prop where
  published : s.refs.Published
  pending_le : s.refs.counts.pending ≤ s.credited.card
  remote : 0 < s.refs.counts.remoteRefs → s.credited = ∅
  fresh : ∀ n ∈ s.credited, n < s.marks

/-- A freshly registered object has no credits. -/
theorem resolvable_new (objId : BinderObjectId) : (new objId).Resolvable where
  published := ObjectRefState.published_new objId
  pending_le := Nat.le_refl 0
  remote _ := rfl
  fresh n h := by simp [new] at h

/-- Counters that leave `pending` alone, and do not raise `remote` from zero, resolve as before. -/
theorem Resolvable.counts {s : Credits} (hs : s.Resolvable) {refs : ObjectRefState}
    (hpub : refs.Published) (hpending : refs.counts.pending = s.refs.counts.pending)
    (hremote : 0 < refs.counts.remoteRefs → 0 < s.refs.counts.remoteRefs) :
    Resolvable { s with refs } where
  published := hpub
  pending_le := hpending ▸ hs.pending_le
  remote h := hs.remote (hremote h)
  fresh := hs.fresh

/-- Every operation keeps credits resolvable.

**Proof sketch.** A mark at `remote = 0` adds a credit and a mark to resolve it. A rollback takes a
credit, if there is one left, and at most one mark. An acquire resolves everything. -/
theorem Resolvable.step {s s' : Credits} {op : CreditOp} (hs : s.Resolvable)
    (h : s.step op = some s') : s'.Resolvable := by
  cases op with
  | mark =>
    obtain ⟨refs, hrefs, rfl⟩ := Option.map_eq_some_iff.mp h
    obtain ⟨hc, -, hpub⟩ := ObjectRefState.update_eq_some.mp hrefs
    rcases RefOp.apply_markPendingRemote.mp hc with ⟨hz, -, hc⟩ | ⟨hnz, hc⟩
    · have hnew : s.marks ∉ s.credited := fun hmem => Nat.lt_irrefl _ (hs.fresh _ hmem)
      have hle := hs.pending_le
      rw [if_pos hz]
      refine ⟨hpub, ?_, ?_, ?_⟩
      · simp only [hc, Finset.card_insert_of_notMem hnew]
        omega
      · simp only [hc]
        omega
      · intro n hn
        rcases Finset.mem_insert.mp hn with rfl | hn
        · exact Nat.lt_succ_self _
        · exact Nat.lt_succ_of_lt (hs.fresh n hn)
    · rw [if_neg hnz]
      refine ⟨hpub, ?_, ?_, fun n hn => Nat.lt_succ_of_lt (hs.fresh n hn)⟩
      · simpa only [hc] using hs.pending_le
      · simpa only [hc] using hs.remote
  | rollback mark =>
    obtain ⟨refs, hrefs, rfl⟩ := Option.map_eq_some_iff.mp h
    obtain ⟨hc, -, hpub⟩ := ObjectRefState.update_eq_some.mp hrefs
    have hc := RefOp.apply_clearPendingRemote.mp hc
    have hle := hs.pending_le
    refine ⟨hpub, ?_, ?_, fun n hn => hs.fresh n (Finset.mem_of_mem_erase hn)⟩
    · have hcard := @Finset.pred_card_le_card_erase _ s.credited mark _
      simp only [hc]
      omega
    · intro hpos
      simp only [hc] at hpos
      rw [hs.remote hpos, Finset.erase_empty]
  | acquire =>
    obtain ⟨refs, hrefs, rfl⟩ := Option.map_eq_some_iff.mp h
    obtain ⟨hc, -, hpub⟩ := ObjectRefState.update_eq_some.mp hrefs
    refine ⟨hpub, ?_, fun _ => rfl, fun n hn => by simp at hn⟩
    rw [(RefOp.apply_increaseRemote.mp hc).2]
    exact Nat.le_refl 0
  | release =>
    rw [Credits.step] at h
    split_ifs at h with hnz
    obtain ⟨refs, hrefs, rfl⟩ := Option.map_eq_some_iff.mp h
    obtain ⟨hc, -, hpub⟩ := ObjectRefState.update_eq_some.mp hrefs
    have hc := (RefOp.apply_decreaseRemote.mp hc).2
    exact hs.counts hpub (by rw [hc]) fun _ => hnz
  | newHandle =>
    obtain ⟨refs, hrefs, rfl⟩ := Option.map_eq_some_iff.mp h
    obtain ⟨hc, -, hpub⟩ := ObjectRefState.update_eq_some.mp hrefs
    have hc := (RefOp.apply_increaseLocal.mp hc).2
    exact hs.counts hpub (by rw [hc]) fun hpos => by rwa [hc] at hpos
  | dropHandle =>
    obtain ⟨refs, hrefs, rfl⟩ := Option.map_eq_some_iff.mp h
    obtain ⟨hc, -, hpub⟩ := ObjectRefState.update_eq_some.mp hrefs
    have hc := (RefOp.apply_decreaseLocal.mp hc).2
    exact hs.counts hpub (by rw [hc]) fun hpos => by rwa [hc] at hpos

/-- In every reachable state `pending` is bounded by the unresolved credits, and zero while `remote`
is not. Once no credit is unresolved, the total is `local` plus `remote`, and so zero as soon as
both are. -/
theorem pending_le_credited {objId : BinderObjectId} {ops : List CreditOp} {s : Credits}
    (h : exec step (new objId) ops = some s) :
    s.refs.counts.pending ≤ s.credited.card ∧
      (0 < s.refs.counts.remoteRefs → s.refs.counts.pending = 0) ∧
      (s.credited = ∅ →
        s.refs.counts.total = some (s.refs.counts.localRefs + s.refs.counts.remoteRefs) ∧
        s.refs.strongCount = s.refs.counts.localRefs + s.refs.counts.remoteRefs) := by
  have hs : s.Resolvable := exec_invariant Resolvable.step (resolvable_new objId) h
  have hzero : s.credited = ∅ → s.refs.counts.pending = 0 := by
    intro hnone
    have hle := hs.pending_le
    rw [hnone, Finset.card_empty] at hle
    omega
  refine ⟨hs.pending_le, fun hpos => hzero (hs.remote hpos), fun hnone => ?_⟩
  have htotal := hs.published.total
  have hlt := hs.published.lt
  rw [hzero hnone, Nat.add_zero] at htotal
  refine ⟨RefCounts.total_eq_some.mpr ?_, htotal⟩
  rw [hzero hnone, Nat.add_zero]
  exact ⟨htotal ▸ hlt, rfl⟩

/-- Two sends race for the first acquire and one of them fails afterwards: its rollback finds no
credit left. -/
theorem pending_le_credited_race :
    exec step (new ⟨1, 0⟩) [.mark, .mark, .acquire, .rollback 0, .release] =
      some ⟨.new ⟨1, 0⟩, 2, ∅⟩ ∧ (ObjectRefState.new ⟨1, 0⟩).counts.total = some 0 := by
  have hrun : exec step (new ⟨1, 0⟩) [.mark, .mark, .acquire, .rollback 0, .release] =
      some ⟨.new ⟨1, 0⟩, 2, ∅⟩ := rfl
  exact ⟨hrun, ((pending_le_credited hrun).2.2 rfl).1⟩

end Credits

end BinderBinder
