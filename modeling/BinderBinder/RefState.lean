import Mathlib.Algebra.Group.Nat.Defs
import Mathlib.Tactic.Common
import BinderBinder.Lib.Run

set_option relaxedAutoImplicit false
set_option autoImplicit false

/-!
# Reference counts of a local object

`ObjectRefState` of `src/device.rs`: the three counters of one local object, changed under one
lock, and the total that each change publishes to a watch channel. The counters are `u32` with
checked arithmetic; `none` is the overflow panic of `+=` and `-=`.

## Main definitions

* `RefCounts`, `RefCounts.total` — the counters and their sum.
* `ObjectRefState.update` — apply a closure to the counters and publish the new total.
* `RefOp`, `ObjectRefState.step` — the six methods as labels of one step function.

## Main results

* `ObjectRefState.step_eq_some` — what a method does: it applies its closure and publishes.
* `ObjectRefState.Published.step` — the published value is the total after every method.
-/

namespace BinderBinder

/-- `usize` on the 64-bit targets the crate builds for; also `BinderUintptrT`, `BinderSizeT`. -/
abbrev Usize := UInt64

/-- The id of a local object (`BinderObjectId`): what the kernel hands back as `ptr`, `cookie`. -/
structure BinderObjectId where
  id : Usize
  cookie : Usize
  deriving DecidableEq, Repr

/-- `BinderObjectId::from_raw`. -/
def BinderObjectId.fromRaw (binder cookie : Usize) : BinderObjectId := ⟨binder, cookie⟩

/-! ## Checked `u32` arithmetic -/

/-- One more than the largest `u32`. -/
def u32Size : ℕ := 2 ^ 32

/-- `a + b` on `u32`, `none` on overflow. -/
def checkedAdd (a b : ℕ) : Option ℕ := if a + b < u32Size then some (a + b) else none

/-- `a - b` on `u32`, `none` on underflow. -/
def checkedSub (a b : ℕ) : Option ℕ := if b ≤ a then some (a - b) else none

/-- An addition that does not panic is the sum, and the sum is a `u32`. -/
@[simp] theorem checkedAdd_eq_some {a b c : ℕ} :
    checkedAdd a b = some c ↔ a + b < u32Size ∧ c = a + b := by
  unfold checkedAdd
  split_ifs with h <;> simp [h, eq_comm]

/-- A subtraction that does not panic is the difference, and nothing was cut off. -/
@[simp] theorem checkedSub_eq_some {a b c : ℕ} :
    checkedSub a b = some c ↔ b ≤ a ∧ c = a - b := by
  unfold checkedSub
  split_ifs with h <;> simp [h, eq_comm]

/-! ## The counters -/

/-- The counters of `RefCounts`: `local`, `remote` and `pending`, the number of sends in flight
that are neither confirmed by a `BR_ACQUIRE` nor rolled back. -/
@[ext]
structure RefCounts where
  localRefs : ℕ
  remoteRefs : ℕ
  pending : ℕ
  deriving DecidableEq, Repr

/-- `RefCounts::default`. -/
def RefCounts.default : RefCounts := ⟨0, 0, 0⟩

namespace RefCounts

/-- `RefCounts::total`. -/
def total (c : RefCounts) : Option ℕ := do
  let a ← checkedAdd c.localRefs c.remoteRefs
  checkedAdd a c.pending

/-- A total that does not panic is the sum of the three counters. -/
theorem total_eq_some {c : RefCounts} {n : ℕ} :
    c.total = some n ↔
      c.localRefs + c.remoteRefs + c.pending < u32Size ∧
        n = c.localRefs + c.remoteRefs + c.pending := by
  simp only [total, Option.bind_eq_bind, Option.bind_eq_some_iff, checkedAdd_eq_some]
  constructor
  · rintro ⟨_, ⟨_, rfl⟩, h⟩
    exact h
  · rintro ⟨h, hn⟩
    exact ⟨_, ⟨by omega, rfl⟩, h, hn⟩

/-- The closure of `increase_local`. -/
def increaseLocal (c : RefCounts) : Option RefCounts := do
  let n ← checkedAdd c.localRefs 1
  return { c with localRefs := n }

/-- The closure of `decrease_local`. -/
def decreaseLocal (c : RefCounts) : Option RefCounts := do
  let n ← checkedSub c.localRefs 1
  return { c with localRefs := n }

/-- The closure of `increase_remote`: a full reset of `pending`, not a decrement by one. -/
def increaseRemote (c : RefCounts) : Option RefCounts := do
  let n ← checkedAdd c.remoteRefs 1
  return { c with remoteRefs := n, pending := 0 }

/-- The closure of `decrease_remote`. -/
def decreaseRemote (c : RefCounts) : Option RefCounts := do
  let n ← checkedSub c.remoteRefs 1
  return { c with remoteRefs := n }

/-- The closure of `mark_pending_remote`: a credit is taken only while `remote` is zero. -/
def markPendingRemote (c : RefCounts) : Option RefCounts :=
  if c.remoteRefs = 0 then do
    let n ← checkedAdd c.pending 1
    return { c with pending := n }
  else some c

/-- The closure of `clear_pending_remote`; `-` on `ℕ` is `saturating_sub`. -/
def clearPendingRemote (c : RefCounts) : Option RefCounts :=
  some { c with pending := c.pending - 1 }

end RefCounts

/-! ## The state of one object -/

/-- `ObjectRefState`: the counters under the lock and the value of the watch channel. -/
structure ObjectRefState where
  objId : BinderObjectId
  counts : RefCounts
  strongCount : ℕ
  deriving DecidableEq, Repr

/-- The methods of `ObjectRefState` that change the counters. -/
inductive RefOp
  | increaseLocal
  | decreaseLocal
  | increaseRemote
  | decreaseRemote
  | markPendingRemote
  | clearPendingRemote
  deriving DecidableEq, Repr

/-- The closure a method hands to `update`. -/
def RefOp.apply : RefOp → RefCounts → Option RefCounts
  | .increaseLocal => RefCounts.increaseLocal
  | .decreaseLocal => RefCounts.decreaseLocal
  | .increaseRemote => RefCounts.increaseRemote
  | .decreaseRemote => RefCounts.decreaseRemote
  | .markPendingRemote => RefCounts.markPendingRemote
  | .clearPendingRemote => RefCounts.clearPendingRemote

namespace ObjectRefState

/-- `ObjectRefState::new`. -/
def new (objId : BinderObjectId) : ObjectRefState := ⟨objId, RefCounts.default, 0⟩

/-- `ObjectRefState::update`: apply `f` to the counters and publish the total of the result.
The lock is held throughout, so a caller sees one step. -/
def update (s : ObjectRefState) (f : RefCounts → Option RefCounts) : Option ObjectRefState := do
  let counts ← f s.counts
  let total ← counts.total
  return { s with counts := counts, strongCount := total }

/-- `ObjectRefState::increase_local`. -/
def increaseLocal (s : ObjectRefState) : Option ObjectRefState := s.update RefCounts.increaseLocal

/-- `ObjectRefState::decrease_local`. -/
def decreaseLocal (s : ObjectRefState) : Option ObjectRefState := s.update RefCounts.decreaseLocal

/-- `ObjectRefState::increase_remote`, run on a `BR_ACQUIRE`. -/
def increaseRemote (s : ObjectRefState) : Option ObjectRefState := s.update RefCounts.increaseRemote

/-- `ObjectRefState::decrease_remote`, run on a `BR_RELEASE`. -/
def decreaseRemote (s : ObjectRefState) : Option ObjectRefState := s.update RefCounts.decreaseRemote

/-- `ObjectRefState::mark_pending_remote`, run before a send. -/
def markPendingRemote (s : ObjectRefState) : Option ObjectRefState :=
  s.update RefCounts.markPendingRemote

/-- `ObjectRefState::clear_pending_remote`, run when a send failed. -/
def clearPendingRemote (s : ObjectRefState) : Option ObjectRefState :=
  s.update RefCounts.clearPendingRemote

/-- The method named by a label. -/
def step (s : ObjectRefState) : RefOp → Option ObjectRefState
  | .increaseLocal => s.increaseLocal
  | .decreaseLocal => s.decreaseLocal
  | .increaseRemote => s.increaseRemote
  | .decreaseRemote => s.decreaseRemote
  | .markPendingRemote => s.markPendingRemote
  | .clearPendingRemote => s.clearPendingRemote

/-- The published value is the total of the counters, a `u32`. -/
structure Published (s : ObjectRefState) : Prop where
  total : s.strongCount = s.counts.localRefs + s.counts.remoteRefs + s.counts.pending
  lt : s.strongCount < u32Size

/-- The published total of a new object is zero, as its counters are. -/
theorem published_new (objId : BinderObjectId) : (new objId).Published :=
  ⟨rfl, Nat.two_pow_pos 32⟩

/-- What `update` does: the closure, then the publication of the total. -/
theorem update_eq_some {s s' : ObjectRefState} {f : RefCounts → Option RefCounts} :
    s.update f = some s' ↔
      f s.counts = some s'.counts ∧ s'.objId = s.objId ∧ s'.Published := by
  obtain ⟨id', c', n'⟩ := s'
  simp only [update, Option.bind_eq_bind, Option.bind_eq_some_iff, RefCounts.total_eq_some]
  constructor
  · rintro ⟨c, hc, n, ⟨hlt, rfl⟩, h⟩
    cases h
    exact ⟨hc, rfl, rfl, hlt⟩
  · rintro ⟨hc, rfl, htotal, hlt⟩
    simp only at htotal hlt
    exact ⟨c', hc, n', ⟨by omega, htotal⟩, rfl⟩

/-- Every method is `update` with the closure of its label. -/
theorem step_eq_update (s : ObjectRefState) (op : RefOp) : s.step op = s.update op.apply := by
  cases op <;> rfl

/-- What a method does: it applies its closure, publishes, and leaves the id alone. -/
theorem step_eq_some {s s' : ObjectRefState} {op : RefOp} :
    s.step op = some s' ↔
      op.apply s.counts = some s'.counts ∧ s'.objId = s.objId ∧ s'.Published := by
  rw [step_eq_update, update_eq_some]

/-- After every method the published value is the total. -/
theorem Published.step {s s' : ObjectRefState} {op : RefOp} (h : s.step op = some s') :
    s'.Published :=
  (step_eq_some.mp h).2.2

/-- In every state a run of the methods leads to, the published value is the total. -/
theorem published_of_exec {s s' : ObjectRefState} {ops : List RefOp} (hs : s.Published)
    (h : Run.exec step s ops = some s') : s'.Published :=
  Run.exec_invariant (fun _ => Published.step) hs h

end ObjectRefState

/-! ## The closures, counter by counter -/

namespace RefOp

/-- `increase_local` raises `local` and leaves the others. -/
@[simp] theorem apply_increaseLocal {c c' : RefCounts} :
    increaseLocal.apply c = some c' ↔
      c.localRefs + 1 < u32Size ∧ c' = { c with localRefs := c.localRefs + 1 } := by
  simp only [apply, RefCounts.increaseLocal, Option.bind_eq_bind, Option.bind_eq_some_iff]
  simp [and_assoc, @eq_comm _ _ c']

/-- `decrease_local` panics at zero, and else lowers `local`. -/
@[simp] theorem apply_decreaseLocal {c c' : RefCounts} :
    decreaseLocal.apply c = some c' ↔
      1 ≤ c.localRefs ∧ c' = { c with localRefs := c.localRefs - 1 } := by
  simp only [apply, RefCounts.decreaseLocal, Option.bind_eq_bind, Option.bind_eq_some_iff]
  simp [and_assoc, @eq_comm _ _ c']

/-- `increase_remote` raises `remote` and drops every credit. -/
@[simp] theorem apply_increaseRemote {c c' : RefCounts} :
    increaseRemote.apply c = some c' ↔
      c.remoteRefs + 1 < u32Size ∧
        c' = { c with remoteRefs := c.remoteRefs + 1, pending := 0 } := by
  simp only [apply, RefCounts.increaseRemote, Option.bind_eq_bind, Option.bind_eq_some_iff]
  simp [and_assoc, @eq_comm _ _ c']

/-- `decrease_remote` panics at zero, and else lowers `remote`. -/
@[simp] theorem apply_decreaseRemote {c c' : RefCounts} :
    decreaseRemote.apply c = some c' ↔
      1 ≤ c.remoteRefs ∧ c' = { c with remoteRefs := c.remoteRefs - 1 } := by
  simp only [apply, RefCounts.decreaseRemote, Option.bind_eq_bind, Option.bind_eq_some_iff]
  simp [and_assoc, @eq_comm _ _ c']

/-- `mark_pending_remote` takes a credit at `remote = 0` and does nothing else. -/
@[simp] theorem apply_markPendingRemote {c c' : RefCounts} :
    markPendingRemote.apply c = some c' ↔
      (c.remoteRefs = 0 ∧ c.pending + 1 < u32Size ∧ c' = { c with pending := c.pending + 1 }) ∨
        (c.remoteRefs ≠ 0 ∧ c' = c) := by
  simp only [apply, RefCounts.markPendingRemote]
  split_ifs with h
  · simp only [Option.bind_eq_bind, Option.bind_eq_some_iff]
    simp [h, and_assoc, @eq_comm _ _ c']
  · simp [h, eq_comm]

/-- `clear_pending_remote` gives one credit back, if there is any. -/
@[simp] theorem apply_clearPendingRemote {c c' : RefCounts} :
    clearPendingRemote.apply c = some c' ↔ c' = { c with pending := c.pending - 1 } := by
  simp [apply, RefCounts.clearPendingRemote, eq_comm]

end RefOp

namespace ObjectRefState

/-- Above zero, `decrease_local` does not panic. -/
theorem Published.exists_decreaseLocal {st : ObjectRefState} (hpublished : st.Published)
    (hpos : 0 < st.counts.localRefs) : ∃ st', st.step .decreaseLocal = some st' := by
  have htotal := hpublished.total
  have hlt := hpublished.lt
  refine ⟨⟨st.objId, { st.counts with localRefs := st.counts.localRefs - 1 },
    st.strongCount - 1⟩, step_eq_some.mpr ⟨?_, rfl, ?_, ?_⟩⟩
  · exact RefOp.apply_decreaseLocal.mpr ⟨hpos, rfl⟩
  · show st.strongCount - 1 = st.counts.localRefs - 1 + st.counts.remoteRefs + st.counts.pending
    omega
  · show st.strongCount - 1 < u32Size
    omega

end ObjectRefState

end BinderBinder
