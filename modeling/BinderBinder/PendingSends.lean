import Mathlib.Data.Finset.Card
import BinderBinder.RefState

set_option relaxedAutoImplicit false
set_option autoImplicit false

/-!
# Sends in flight and the `pending` credits

A send of an object calls `mark_pending_remote` before the write. It is later either rolled back
(`clear_pending_remote`) or confirmed by the first `BR_ACQUIRE` after its mark. The counter
`pending` is meant to keep the published total above zero as long as one such send is open.

It does so with one exception: a send marked while `remote` is nonzero takes no credit, so nothing
stands for it once a `BR_RELEASE` brings `remote` down to zero. A rollback has the mirror image of
this defect: it gives a credit back whether or not its own mark took one.

## Main definitions

* `Sends`, `SendOp`, `Sends.step` — one object with its live handles and its open sends.
* `Sends.NoPrematureZero` — the total is nonzero while anything holds on to the object.
* `Sends.ReleaseGuarded` — a release does not take `remote` to zero under a send without credit.

## Main results

* `Sends.noPrematureZero_along` — no premature zero in a run of guarded releases, and a release
  that is not guarded leads to one.
* `ObjectRefState.rollback_undoes_iff` — when a rollback undoes its own mark and nothing else.
-/

namespace BinderBinder

open Run

/-! ## Rolling back one send -/

/-- `b` counts what `a` counts, and `k` credits more. -/
structure RefCounts.Lead (k : ℕ) (a b : RefCounts) : Prop where
  localRefs : b.localRefs = a.localRefs
  remoteRefs : b.remoteRefs = a.remoteRefs
  pending : b.pending = a.pending + k

/-- Counters without a lead are equal. -/
theorem RefCounts.Lead.eq {a b : RefCounts} (h : Lead 0 a b) : b = a := by
  obtain ⟨al, ar, ap⟩ := a
  obtain ⟨bl, br, bp⟩ := b
  obtain ⟨rfl, rfl, rfl⟩ := h
  rfl

/-- What a method does to a lead of at most one credit: it keeps it while credits are left, and
without credits there is no lead. A rollback that finds only the leading credit takes it. -/
lemma RefOp.apply_lead {k : ℕ} (hk : k ≤ 1) {op : RefOp} {a b b' : RefCounts}
    (h : RefCounts.Lead k a b) (hb : op.apply b = some b') :
    ∃ a', op.apply a = some a' ∧
      (0 < b'.pending ∧ RefCounts.Lead k a' b' ∨ b'.pending = 0 ∧ RefCounts.Lead 0 a' b') := by
  obtain ⟨hl, hr, hp⟩ := h
  -- once the new counters of `a` are known, the two cases are those of the new `pending`
  suffices ∃ a', op.apply a = some a' ∧ b'.localRefs = a'.localRefs ∧
      b'.remoteRefs = a'.remoteRefs ∧ (b'.pending = a'.pending + k ∨
        b'.pending = 0 ∧ a'.pending = 0) by
    obtain ⟨a', ha', hl', hr', hp'⟩ := this
    refine ⟨a', ha', ?_⟩
    rcases Nat.eq_zero_or_pos b'.pending with h0 | h0
    · exact .inr ⟨h0, hl', hr', by omega⟩
    · exact .inl ⟨h0, hl', hr', by omega⟩
  cases op with
  | increaseLocal =>
    obtain ⟨hbound, rfl⟩ := apply_increaseLocal.mp hb
    exact ⟨_, apply_increaseLocal.mpr ⟨by omega, rfl⟩, by simp only; omega, hr, .inl hp⟩
  | decreaseLocal =>
    obtain ⟨hbound, rfl⟩ := apply_decreaseLocal.mp hb
    exact ⟨_, apply_decreaseLocal.mpr ⟨by omega, rfl⟩, by simp only; omega, hr, .inl hp⟩
  | increaseRemote =>
    obtain ⟨hbound, rfl⟩ := apply_increaseRemote.mp hb
    exact ⟨_, apply_increaseRemote.mpr ⟨by omega, rfl⟩, hl, by simp only; omega, .inr ⟨rfl, rfl⟩⟩
  | decreaseRemote =>
    obtain ⟨hbound, rfl⟩ := apply_decreaseRemote.mp hb
    exact ⟨_, apply_decreaseRemote.mpr ⟨by omega, rfl⟩, hl, by simp only; omega, .inl hp⟩
  | markPendingRemote =>
    rcases apply_markPendingRemote.mp hb with ⟨hz, hbound, rfl⟩ | ⟨hnz, rfl⟩
    · exact ⟨_, apply_markPendingRemote.mpr (.inl ⟨by omega, by omega, rfl⟩), hl, hr,
        .inl (by simp only; omega)⟩
    · exact ⟨a, apply_markPendingRemote.mpr (.inr ⟨by omega, rfl⟩), hl, hr, .inl hp⟩
  | clearPendingRemote =>
    obtain rfl := apply_clearPendingRemote.mp hb
    refine ⟨_, apply_clearPendingRemote.mpr rfl, hl, hr, ?_⟩
    rcases Nat.eq_zero_or_pos a.pending with h0 | h0
    · exact .inr (by simp only; omega)
    · exact .inl (by simp only; omega)

namespace ObjectRefState

/-- Some credit is outstanding. -/
def Credited (s : ObjectRefState) : Prop := 0 < s.counts.pending

/-- The step version of `RefOp.apply_lead`: with fewer credits the method runs as well. -/
lemma step_lead {k : ℕ} (hk : k ≤ 1) {op : RefOp} {a b b' : ObjectRefState}
    (h : RefCounts.Lead k a.counts b.counts) (hb : b.step op = some b') :
    ∃ a', a.step op = some a' ∧
      (b'.Credited ∧ RefCounts.Lead k a'.counts b'.counts ∨
        ¬ b'.Credited ∧ RefCounts.Lead 0 a'.counts b'.counts) := by
  obtain ⟨happ, -, hpub, hlt⟩ := step_eq_some.mp hb
  obtain ⟨c, hc, hlead⟩ := RefOp.apply_lead hk h happ
  have hle : c.localRefs + c.remoteRefs + c.pending ≤ b'.strongCount := by
    rw [hpub]
    rcases hlead with ⟨-, hl, hr, hp⟩ | ⟨-, hl, hr, hp⟩ <;> omega
  refine ⟨⟨a.objId, c, c.localRefs + c.remoteRefs + c.pending⟩,
    step_eq_some.mpr ⟨hc, rfl, rfl, lt_of_le_of_lt hle hlt⟩, ?_⟩
  rcases hlead with ⟨h0, hl⟩ | ⟨h0, hl⟩
  · exact .inl ⟨h0, hl⟩
  · exact .inr ⟨by unfold Credited; omega, hl⟩

/-- Two runs of the same methods from states that count the same end in states that count the
same. -/
lemma exec_level {ops : List RefOp} {a b b' : ObjectRefState}
    (h : RefCounts.Lead 0 a.counts b.counts) (hb : exec step b ops = some b') :
    ∃ a', exec step a ops = some a' ∧ RefCounts.Lead 0 a'.counts b'.counts := by
  induction ops generalizing a b with
  | nil => cases hb; exact ⟨a, rfl, h⟩
  | cons op ops ih =>
    obtain ⟨b₁, hb₁, hrest⟩ := exec_cons_eq_some.mp hb
    obtain ⟨a₁, ha₁, hlead⟩ := step_lead (Nat.zero_le 1) h hb₁
    obtain ⟨a', ha', hl'⟩ := ih (hlead.elim And.right And.right) hrest
    exact ⟨a', exec_cons_eq_some.mpr ⟨a₁, ha₁, ha'⟩, hl'⟩

/-- A lead of one credit is kept by a run exactly if credits are outstanding in every state of it;
from the first state without credits on, the two runs count the same. -/
lemma exec_lead {ops : List RefOp} {a b b' : ObjectRefState}
    (h : RefCounts.Lead 1 a.counts b.counts) (hb : exec step b ops = some b') :
    ∃ a', exec step a ops = some a' ∧
      (Always step Credited b ops ∧ RefCounts.Lead 1 a'.counts b'.counts ∨
        ¬ Always step Credited b ops ∧ RefCounts.Lead 0 a'.counts b'.counts) := by
  induction ops generalizing a b with
  | nil =>
    cases hb
    exact ⟨a, rfl, .inl ⟨by have := h.pending; simp only [Always, Credited]; omega, h⟩⟩
  | cons op ops ih =>
    obtain ⟨b₁, hb₁, hrest⟩ := exec_cons_eq_some.mp hb
    have hcred : b.Credited := by have := h.pending; unfold Credited; omega
    obtain ⟨a₁, ha₁, ⟨-, hlead⟩ | ⟨hnot, hlead⟩⟩ := step_lead le_rfl h hb₁
    · obtain ⟨a', ha', hl'⟩ := ih hlead hrest
      refine ⟨a', exec_cons_eq_some.mpr ⟨a₁, ha₁, ha'⟩, ?_⟩
      rw [always_cons_iff hb₁]
      simpa only [hcred, true_and] using hl'
    · obtain ⟨a', ha', hl'⟩ := exec_level hlead hrest
      refine ⟨a', exec_cons_eq_some.mpr ⟨a₁, ha₁, ha'⟩, .inr ⟨fun hall => ?_, hl'⟩⟩
      exact hnot ((always_cons_iff hb₁).mp hall).2.head

/-- **When a rollback undoes its own mark and nothing else.** A send marks the object in state
`s`, others run `ops`, and the send is rolled back in state `r`. The counters are those of running
`ops` alone exactly if the send took a credit and credits were outstanding ever since, or none is
outstanding when it is rolled back.

**Proof sketch.** Compare with the run of `ops` alone. The mark puts the run with the send one
credit ahead if `remote` is zero, and level otherwise; `exec_lead` and `exec_level` carry this
through `ops`. At the rollback a lead of one is undone exactly, and a level run loses a credit of
another send unless there is none to lose. -/
theorem rollback_undoes_iff {s s₁ r t : ObjectRefState} {ops : List RefOp}
    (hmark : s.markPendingRemote = some s₁) (hops : exec step s₁ ops = some r)
    (hclear : r.clearPendingRemote = some t) :
    ∃ u, exec step s ops = some u ∧
      (t.counts = u.counts ↔
        s.counts.remoteRefs = 0 ∧ Always step Credited s₁ ops ∨ r.counts.pending = 0) := by
  have ht : t.counts = ⟨r.counts.localRefs, r.counts.remoteRefs, r.counts.pending - 1⟩ :=
    RefOp.apply_clearPendingRemote.mp (update_eq_some.mp hclear).1
  -- what the mark did
  rcases RefOp.apply_markPendingRemote.mp (update_eq_some.mp hmark).1 with ⟨hz, -, hc⟩ | ⟨hnz, hc⟩
  · have hlead : RefCounts.Lead 1 s.counts s₁.counts := by rw [hc]; exact ⟨rfl, rfl, rfl⟩
    obtain ⟨u, hu, ⟨hall, hl, hr, hp⟩ | ⟨hnot, hlevel⟩⟩ := exec_lead hlead hops
    · refine ⟨u, hu, iff_of_true ?_ (.inl ⟨hz, hall⟩)⟩
      rw [ht, hl, hr, hp, Nat.add_sub_cancel]
    · refine ⟨u, hu, ?_⟩
      rw [ht, hlevel.eq]
      simp [hnot, RefCounts.ext_iff]
      omega
  · have hlevel : RefCounts.Lead 0 s.counts s₁.counts := by rw [hc]; exact ⟨rfl, rfl, rfl⟩
    obtain ⟨u, hu, hl⟩ := exec_level hlevel hops
    refine ⟨u, hu, ?_⟩
    rw [ht, hl.eq]
    simp [hnz, RefCounts.ext_iff]
    omega

/-- A send whose credit is still there at its rollback: it is marked at `remote = 0`, and another
send is marked meanwhile. -/
theorem rollback_undoes_own_mark :
    ∃ u, exec step (new ⟨1, 0⟩) [.markPendingRemote] = some u ∧ (⟨0, 0, 1⟩ : RefCounts) = u.counts :=
  have hmark : (new ⟨1, 0⟩).markPendingRemote = some ⟨⟨1, 0⟩, ⟨0, 0, 1⟩, 1⟩ := rfl
  have hother : step ⟨⟨1, 0⟩, ⟨0, 0, 1⟩, 1⟩ .markPendingRemote =
      some ⟨⟨1, 0⟩, ⟨0, 0, 2⟩, 2⟩ := rfl
  have hclear : clearPendingRemote ⟨⟨1, 0⟩, ⟨0, 0, 2⟩, 2⟩ = some ⟨⟨1, 0⟩, ⟨0, 0, 1⟩, 1⟩ := rfl
  have ⟨u, hu, hiff⟩ := rollback_undoes_iff hmark (exec_cons_eq_some.mpr ⟨_, hother, rfl⟩) hclear
  have hkept : Always step Credited ⟨⟨1, 0⟩, ⟨0, 0, 1⟩, 1⟩ [.markPendingRemote] :=
    (always_cons_iff hother).mpr ⟨Nat.zero_lt_one, Nat.zero_lt_two⟩
  ⟨u, hu, hiff.mpr (.inl ⟨rfl, hkept⟩)⟩

/-- A send that took no credit, because `remote` was nonzero at its mark, takes the credit of
another send when it is rolled back: between its mark and its rollback the remote reference is
released and the other send is marked. -/
theorem rollback_takes_other_credit :
    ¬ ∀ (objId : BinderObjectId) (ops : List RefOp) (s s₁ r t u : ObjectRefState),
      Reachable step (new objId) s → s.markPendingRemote = some s₁ →
      exec step s₁ ops = some r → r.clearPendingRemote = some t → exec step s ops = some u →
      t.counts = u.counts := by
  intro h
  have hreach : Reachable step (new ⟨1, 0⟩) ⟨⟨1, 0⟩, ⟨0, 1, 0⟩, 1⟩ := ⟨[.increaseRemote], rfl⟩
  have := h ⟨1, 0⟩ [.decreaseRemote, .markPendingRemote] _ ⟨⟨1, 0⟩, ⟨0, 1, 0⟩, 1⟩
    ⟨⟨1, 0⟩, ⟨0, 0, 1⟩, 1⟩ ⟨⟨1, 0⟩, ⟨0, 0, 0⟩, 0⟩ ⟨⟨1, 0⟩, ⟨0, 0, 1⟩, 1⟩ hreach rfl rfl rfl rfl
  exact absurd this (by decide)

end ObjectRefState

/-! ## The open sends of one object -/

/-- One object with its live counted handles and its open sends, those neither rolled back nor
confirmed: `guarded` were marked at `remote = 0` and took a credit, `bare` were not. -/
structure Sends where
  refs : ObjectRefState
  handles : ℕ
  guarded : Finset ℕ
  bare : Finset ℕ
  deriving DecidableEq

/-- What can happen to the object; sends are named by numbers. -/
inductive SendOp
  | newHandle
  | dropHandle
  | mark (send : ℕ)
  | rollback (send : ℕ)
  | acquire
  | release
  deriving DecidableEq, Repr

namespace Sends

/-- A freshly registered object. -/
def new (objId : BinderObjectId) : Sends := ⟨.new objId, 0, ∅, ∅⟩

/-- The send is open. -/
def Open (s : Sends) (send : ℕ) : Prop := send ∈ s.guarded ∨ send ∈ s.bare

instance (s : Sends) (send : ℕ) : Decidable (s.Open send) :=
  inferInstanceAs (Decidable (_ ∨ _))

/-- One operation. A handle is dropped only if there is one, a send is marked only if it is not
open and rolled back only if it is, and the kernel releases only what is acquired. An acquire
confirms every open send. -/
def step (s : Sends) : SendOp → Option Sends
  | .newHandle =>
    s.refs.increaseLocal.map fun refs => { s with refs := refs, handles := s.handles + 1 }
  | .dropHandle =>
    if 0 < s.handles then
      s.refs.decreaseLocal.map fun refs => { s with refs := refs, handles := s.handles - 1 }
    else none
  | .mark send =>
    if s.Open send then none
    else if s.refs.counts.remoteRefs = 0 then
      s.refs.markPendingRemote.map fun refs =>
        { s with refs := refs, guarded := insert send s.guarded }
    else
      s.refs.markPendingRemote.map fun refs => { s with refs := refs, bare := insert send s.bare }
  | .rollback send =>
    if s.Open send then
      s.refs.clearPendingRemote.map fun refs =>
        { s with refs := refs, guarded := s.guarded.erase send, bare := s.bare.erase send }
    else none
  | .acquire => s.refs.increaseRemote.map fun refs => { s with refs := refs, guarded := ∅, bare := ∅ }
  | .release =>
    if 0 < s.refs.counts.remoteRefs then
      s.refs.decreaseRemote.map fun refs => { s with refs := refs }
    else none

/-- What each operation does to the counters, the handles and the open sends. The new counters `r`
are published. -/
inductive Effect (s : Sends) : SendOp → Sends → Prop
  | newHandle {r : ObjectRefState} (hpub : r.Published)
      (hc : r.counts = { s.refs.counts with localRefs := s.refs.counts.localRefs + 1 }) :
      Effect s .newHandle ⟨r, s.handles + 1, s.guarded, s.bare⟩
  | dropHandle {r : ObjectRefState} (hpub : r.Published) (hh : 0 < s.handles)
      (hc : r.counts = { s.refs.counts with localRefs := s.refs.counts.localRefs - 1 }) :
      Effect s .dropHandle ⟨r, s.handles - 1, s.guarded, s.bare⟩
  | markGuarded {r : ObjectRefState} {send : ℕ} (hpub : r.Published) (hopen : ¬ s.Open send)
      (hz : s.refs.counts.remoteRefs = 0)
      (hc : r.counts = { s.refs.counts with pending := s.refs.counts.pending + 1 }) :
      Effect s (.mark send) ⟨r, s.handles, insert send s.guarded, s.bare⟩
  | markBare {r : ObjectRefState} {send : ℕ} (hpub : r.Published) (hopen : ¬ s.Open send)
      (hnz : s.refs.counts.remoteRefs ≠ 0) (hc : r.counts = s.refs.counts) :
      Effect s (.mark send) ⟨r, s.handles, s.guarded, insert send s.bare⟩
  | rollback {r : ObjectRefState} {send : ℕ} (hpub : r.Published) (hopen : s.Open send)
      (hc : r.counts = { s.refs.counts with pending := s.refs.counts.pending - 1 }) :
      Effect s (.rollback send) ⟨r, s.handles, s.guarded.erase send, s.bare.erase send⟩
  | acquire {r : ObjectRefState} (hpub : r.Published)
      (hc : r.counts =
        { s.refs.counts with remoteRefs := s.refs.counts.remoteRefs + 1, pending := 0 }) :
      Effect s .acquire ⟨r, s.handles, ∅, ∅⟩
  | release {r : ObjectRefState} (hpub : r.Published) (hnz : 0 < s.refs.counts.remoteRefs)
      (hc : r.counts = { s.refs.counts with remoteRefs := s.refs.counts.remoteRefs - 1 }) :
      Effect s .release ⟨r, s.handles, s.guarded, s.bare⟩

/-- Every enabled operation has the effect of its label. -/
theorem step_effect {s s' : Sends} {op : SendOp} (h : s.step op = some s') : s.Effect op s' := by
  cases op with
  | newHandle =>
    obtain ⟨r, hr, rfl⟩ := Option.map_eq_some_iff.mp h
    obtain ⟨hc, -, hpub⟩ := ObjectRefState.update_eq_some.mp hr
    exact .newHandle hpub (RefOp.apply_increaseLocal.mp hc).2
  | dropHandle =>
    simp only [step] at h
    split_ifs at h with hh
    obtain ⟨r, hr, rfl⟩ := Option.map_eq_some_iff.mp h
    obtain ⟨hc, -, hpub⟩ := ObjectRefState.update_eq_some.mp hr
    exact .dropHandle hpub hh (RefOp.apply_decreaseLocal.mp hc).2
  | mark send =>
    simp only [step] at h
    split_ifs at h with hopen hz
    · obtain ⟨r, hr, rfl⟩ := Option.map_eq_some_iff.mp h
      obtain ⟨hc, -, hpub⟩ := ObjectRefState.update_eq_some.mp hr
      rcases RefOp.apply_markPendingRemote.mp hc with ⟨-, -, hc⟩ | ⟨hnz, -⟩
      · exact .markGuarded hpub hopen hz hc
      · exact absurd hz hnz
    · obtain ⟨r, hr, rfl⟩ := Option.map_eq_some_iff.mp h
      obtain ⟨hc, -, hpub⟩ := ObjectRefState.update_eq_some.mp hr
      rcases RefOp.apply_markPendingRemote.mp hc with ⟨hz', -⟩ | ⟨-, hc⟩
      · exact absurd hz' hz
      · exact .markBare hpub hopen hz hc
  | rollback send =>
    simp only [step] at h
    split_ifs at h with hopen
    obtain ⟨r, hr, rfl⟩ := Option.map_eq_some_iff.mp h
    obtain ⟨hc, -, hpub⟩ := ObjectRefState.update_eq_some.mp hr
    exact .rollback hpub hopen (RefOp.apply_clearPendingRemote.mp hc)
  | acquire =>
    obtain ⟨r, hr, rfl⟩ := Option.map_eq_some_iff.mp h
    obtain ⟨hc, -, hpub⟩ := ObjectRefState.update_eq_some.mp hr
    exact .acquire hpub (RefOp.apply_increaseRemote.mp hc).2
  | release =>
    simp only [step] at h
    split_ifs at h with hnz
    obtain ⟨r, hr, rfl⟩ := Option.map_eq_some_iff.mp h
    obtain ⟨hc, -, hpub⟩ := ObjectRefState.update_eq_some.mp hr
    exact .release hpub hnz (RefOp.apply_decreaseRemote.mp hc).2

/-- The published total is nonzero while a local handle is alive, a remote reference is held, or a
send is open. -/
def NoPrematureZero (s : Sends) : Prop :=
  (0 < s.handles ∨ 0 < s.refs.counts.remoteRefs ∨ ∃ send, s.Open send) → s.refs.strongCount ≠ 0

/-- A release does not take `remote` to zero while a send without credit is open. -/
def ReleaseGuarded (s : Sends) (op : SendOp) : Prop :=
  op = .release → s.refs.counts.remoteRefs = 1 → s.bare = ∅

/-- What holds in every state: the total is published, `local` counts the handles, there are at
most as many credits as sends that took one, and none at all while `remote` is nonzero. -/
structure Counted (s : Sends) : Prop where
  published : s.refs.Published
  handles : s.refs.counts.localRefs = s.handles
  pending_le : s.refs.counts.pending ≤ s.guarded.card
  remote : 0 < s.refs.counts.remoteRefs → s.guarded = ∅

/-- What holds as long as releases are guarded: without remote references, every open send has its
credit. -/
structure Guarded (s : Sends) : Prop extends Counted s where
  bare : s.refs.counts.remoteRefs = 0 → s.bare = ∅
  card_le : s.refs.counts.remoteRefs = 0 → s.guarded.card ≤ s.refs.counts.pending

/-- A freshly registered object has no handle, no credit and no open send. -/
theorem counted_new (objId : BinderObjectId) : (new objId).Counted where
  published := ObjectRefState.published_new objId
  handles := rfl
  pending_le := Nat.le_refl 0
  remote _ := rfl

/-- Every operation keeps the counts. -/
theorem Counted.step {s s' : Sends} {op : SendOp} (hs : s.Counted) (h : s.step op = some s') :
    s'.Counted := by
  obtain ⟨-, hhandles, hle, hremote⟩ := hs
  cases step_effect h with
  | newHandle hpub hc =>
    refine ⟨hpub, ?_, ?_, ?_⟩ <;> simp only [hc]
    · rw [hhandles]
    · exact hle
    · exact hremote
  | dropHandle hpub hh hc =>
    refine ⟨hpub, ?_, ?_, ?_⟩ <;> simp only [hc]
    · rw [hhandles]
    · exact hle
    · exact hremote
  | @markGuarded r send hpub hopen hz hc =>
    have hfresh : send ∉ s.guarded := fun hmem => hopen (.inl hmem)
    refine ⟨hpub, ?_, ?_, ?_⟩ <;> simp only [hc]
    · exact hhandles
    · rw [Finset.card_insert_of_notMem hfresh]
      omega
    · omega
  | markBare hpub hopen hnz hc => refine ⟨hpub, ?_, ?_, ?_⟩ <;> simp only [hc] <;> assumption
  | @rollback r send hpub hopen hc =>
    refine ⟨hpub, ?_, ?_, ?_⟩ <;> simp only [hc]
    · exact hhandles
    · have := Finset.pred_card_le_card_erase (s := s.guarded) (a := send)
      omega
    · intro hpos
      rw [hremote hpos, Finset.erase_empty]
  | acquire hpub hc =>
    refine ⟨hpub, ?_, ?_, ?_⟩ <;> simp only [hc]
    · exact hhandles
    · exact Nat.zero_le _
    · exact fun _ => trivial
  | release hpub hnz hc =>
    refine ⟨hpub, ?_, ?_, ?_⟩ <;> simp only [hc]
    · exact hhandles
    · exact hle
    · exact fun _ => hremote hnz

/-- In every state a run leads to, the counts hold. -/
theorem counted_of_exec {objId : BinderObjectId} {ops : List SendOp} {s : Sends}
    (h : exec step (new objId) ops = some s) : s.Counted :=
  exec_invariant Counted.step (counted_new objId) h

/-- Every operation that is a guarded release, or no release, keeps the credits of the open sends.

**Proof sketch.** Sends without a credit appear while `remote` is nonzero only, and a guarded
release leaves none. At `remote = 0` a mark adds a send and a credit, and a rollback takes one of
each. An acquire empties both sides and makes `remote` nonzero. -/
theorem Guarded.step {s s' : Sends} {op : SendOp} (hs : s.Guarded) (hg : s.ReleaseGuarded op)
    (h : s.step op = some s') : s'.Guarded := by
  refine ⟨hs.toCounted.step h, ?_, ?_⟩
  · -- sends without a credit
    intro hz
    cases step_effect h with
    | newHandle hpub hc => exact hs.bare (by simpa only [hc] using hz)
    | dropHandle hpub hh hc => exact hs.bare (by simpa only [hc] using hz)
    | markGuarded hpub hopen hz' hc => exact hs.bare hz'
    | markBare hpub hopen hnz hc => exact absurd (by simpa only [hc] using hz) hnz
    | rollback hpub hopen hc =>
      have hbare : s.bare = ∅ := hs.bare (by simpa only [hc] using hz)
      simp only [hbare, Finset.erase_empty]
    | acquire hpub hc => rfl
    | release hpub hnz hc =>
      have hone : s.refs.counts.remoteRefs = 1 := by simp only [hc] at hz; omega
      exact hg rfl hone
  · -- credits of the others
    intro hz
    have hle := hs.card_le
    cases step_effect h with
    | newHandle hpub hc => simp only [hc] at hz ⊢; exact hle hz
    | dropHandle hpub hh hc => simp only [hc] at hz ⊢; exact hle hz
    | @markGuarded r send hpub hopen hz' hc =>
      simp only [hc]
      have := Finset.card_insert_le send s.guarded
      have := hle hz'
      omega
    | markBare hpub hopen hnz hc => exact absurd (by simpa only [hc] using hz) hnz
    | @rollback r send hpub hopen hc =>
      simp only [hc] at hz ⊢
      have hmem : send ∈ s.guarded := by
        rcases hopen with hmem | hmem
        · exact hmem
        · rw [hs.bare hz] at hmem
          exact absurd hmem (Finset.notMem_empty _)
      rw [Finset.card_erase_of_mem hmem]
      have := hle hz
      omega
    | acquire hpub hc => simp only [hc] at hz; omega
    | release hpub hnz hc =>
      simp only [hc] at hz ⊢
      rw [hs.remote hnz]
      exact Nat.zero_le _

/-- While the open sends have their credits, there is no premature zero. -/
theorem Guarded.noPrematureZero {s : Sends} (hs : s.Guarded) : s.NoPrematureZero := by
  intro hheld hzero
  have htotal := hs.published.total
  have hlocal := hs.handles
  rcases hheld with hh | hr | ⟨send, hopen⟩
  · omega
  · omega
  · have hz : s.refs.counts.remoteRefs = 0 := by omega
    rcases hopen with hmem | hmem
    · have := Finset.card_pos.mpr ⟨send, hmem⟩
      have := hs.card_le hz
      omega
    · rw [hs.bare hz] at hmem
      exact absurd hmem (Finset.notMem_empty _)

/-- Dropping every handle brings `local` to zero and changes nothing else. -/
lemma exec_dropHandles {s : Sends} (hs : s.Counted) :
    ∃ t, exec step s (List.replicate s.handles .dropHandle) = some t ∧ t.Counted ∧
      t.handles = 0 ∧ t.bare = s.bare ∧
      t.refs.counts = { s.refs.counts with localRefs := 0 } := by
  induction hn : s.handles generalizing s with
  | zero =>
    refine ⟨s, rfl, hs, hn, rfl, ?_⟩
    rw [← hn, ← hs.handles]
  | succ n ih =>
    have hlocal := hs.handles
    obtain ⟨htotal, hlt⟩ := hs.published
    -- the first drop is enabled: there is a handle, and the total only shrinks
    have hdrop : s.refs.decreaseLocal =
        some ⟨s.refs.objId, { s.refs.counts with localRefs := s.refs.counts.localRefs - 1 },
          s.refs.strongCount - 1⟩ :=
      ObjectRefState.update_eq_some.mpr ⟨RefOp.apply_decreaseLocal.mpr ⟨by omega, rfl⟩, rfl,
        by simp only; omega, by simp only; omega⟩
    have hstep : s.step .dropHandle = some { s with
        refs := ⟨s.refs.objId, { s.refs.counts with localRefs := s.refs.counts.localRefs - 1 },
          s.refs.strongCount - 1⟩, handles := s.handles - 1 } := by
      simp only [step]
      rw [if_pos (by omega), hdrop]
      rfl
    obtain ⟨t, ht, hcounted, hzero, hbare, hcounts⟩ := ih (hs.step hstep) (by simp only; omega)
    exact ⟨t, exec_cons_eq_some.mpr ⟨_, hstep, ht⟩, hcounted, hzero, hbare, hcounts⟩

/-- **No premature zero, and when there is one.** In every run whose releases are guarded, every
state reached keeps its total above zero while the object is held or a send is open. A release
that is not guarded leads to a premature zero as soon as the local handles are dropped.

**Proof sketch.** The first half is `Guarded.step` along the run. For the second, a nonzero
`remote` means that no credit is outstanding, so after the release only the local handles are
counted; dropping them leaves a total of zero with the send still open. -/
theorem noPrematureZero_along (objId : BinderObjectId) (ops : List SendOp) (s : Sends)
    (h : exec step (new objId) ops = some s) :
    (Along step ReleaseGuarded (new objId) ops → s.NoPrematureZero) ∧
      (s.refs.counts.remoteRefs = 1 → s.bare ≠ ∅ →
        ∃ t, exec step s (.release :: List.replicate s.handles .dropHandle) = some t ∧
          ¬ t.NoPrematureZero) := by
  constructor
  · intro hguarded
    have hnew : (new objId).Guarded := ⟨counted_new objId, fun _ => rfl, fun _ => Nat.le_refl 0⟩
    exact (exec_invariant_along Guarded.step hnew hguarded h).noPrematureZero
  · intro hone hbare
    have hs := counted_of_exec h
    obtain ⟨htotal, hlt⟩ := hs.published
    have hpending : s.refs.counts.pending = 0 := by
      have := hs.pending_le
      rw [hs.remote (by omega), Finset.card_empty] at this
      omega
    have hrelease : s.refs.decreaseRemote =
        some ⟨s.refs.objId, { s.refs.counts with remoteRefs := s.refs.counts.remoteRefs - 1 },
          s.refs.strongCount - 1⟩ :=
      ObjectRefState.update_eq_some.mpr ⟨RefOp.apply_decreaseRemote.mpr ⟨by omega, rfl⟩, rfl,
        by simp only; omega, by simp only; omega⟩
    have hstep : s.step .release = some { s with
        refs := ⟨s.refs.objId, { s.refs.counts with remoteRefs := s.refs.counts.remoteRefs - 1 },
          s.refs.strongCount - 1⟩ } := by
      simp only [step]
      rw [if_pos (by omega), hrelease]
      rfl
    obtain ⟨t, ht, htc, hzero, htbare, hcounts⟩ := exec_dropHandles (hs.step hstep)
    refine ⟨t, exec_cons_eq_some.mpr ⟨_, hstep, ht⟩, fun hno => ?_⟩
    obtain ⟨send, hmem⟩ := Finset.nonempty_iff_ne_empty.mpr hbare
    have hopen : t.Open send := .inr (by rw [htbare]; exact hmem)
    apply hno (.inr (.inr ⟨send, hopen⟩))
    rw [htc.published.total, hcounts]
    simp only
    omega

/-- Both halves at work: a send marked without remote references keeps the total above zero when
the last handle goes, and a send marked under one remote reference is exposed by its release. -/
theorem noPrematureZero_along_mark :
    NoPrematureZero ⟨⟨⟨1, 0⟩, ⟨0, 0, 1⟩, 1⟩, 0, {0}, ∅⟩ ∧
      ∃ t, exec step ⟨⟨⟨1, 0⟩, ⟨0, 1, 0⟩, 1⟩, 0, ∅, {0}⟩ [.release] = some t ∧
        ¬ t.NoPrematureZero := by
  have hrun : exec step (new ⟨1, 0⟩) [.newHandle, .mark 0, .dropHandle] =
      some ⟨⟨⟨1, 0⟩, ⟨0, 0, 1⟩, 1⟩, 0, {0}, ∅⟩ := rfl
  have hbare : exec step (new ⟨1, 0⟩) [.acquire, .mark 0] =
      some ⟨⟨⟨1, 0⟩, ⟨0, 1, 0⟩, 1⟩, 0, ∅, {0}⟩ := rfl
  refine ⟨(noPrematureZero_along _ _ _ hrun).1 ?_,
    (noPrematureZero_along _ _ _ hbare).2 rfl (by decide)⟩
  -- no operation of the run is a release
  have hguarded : ∀ (s : Sends) (op : SendOp), op ≠ .release → s.ReleaseGuarded op :=
    fun s op hne he => absurd he hne
  refine ⟨hguarded _ _ (by decide), fun s _ => ⟨hguarded _ _ (by decide), fun s _ => ?_⟩⟩
  exact ⟨hguarded _ _ (by decide), fun s _ => trivial⟩

/-- A premature zero: an object with a remote reference is sent again, the reference is released
while the send is on its way, and the sender drops its handle. -/
theorem prematureZero_of_release :
    ¬ ∀ (objId : BinderObjectId) (ops : List SendOp) (s : Sends),
      exec step (new objId) ops = some s → s.NoPrematureZero := by
  intro h
  have hrun : exec step (new ⟨1, 0⟩) [.newHandle, .acquire, .mark 0, .release, .dropHandle] =
      some ⟨⟨⟨1, 0⟩, ⟨0, 0, 0⟩, 0⟩, 0, ∅, {0}⟩ := rfl
  have hopen : Open ⟨⟨⟨1, 0⟩, ⟨0, 0, 0⟩, 0⟩, 0, ∅, {0}⟩ 0 := by decide
  exact h _ _ _ hrun (.inr (.inr ⟨0, hopen⟩)) rfl

end Sends

end BinderBinder
