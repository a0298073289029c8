import Mathlib.Logic.Function.Basic
import Mathlib.Tactic.Common

set_option relaxedAutoImplicit false
set_option autoImplicit false

/-!
# Keys from a counter

Threads draw keys from a shared counter. A thread works on one key at a time; when its work is
finished the key is alive, and later it dies. A key that is being worked on is not alive yet, and
nobody else works on it.

## Main definitions

* `Keys`, `Keys.Step` — the keys, and what happens to them.
* `Keys.Owned` — every key that is worked on is new and belongs to one thread.
* `Keys.Gone` — a key is dead.

## Main results

* `Keys.Owned.step`, `Keys.Gone.step` — this stays so.
-/

/-- The keys that are alive, the counter, and the key that each thread works on. -/
structure Keys (τ : Type*) where
  alive : ℕ → Prop
  next : ℕ
  making : τ → Option ℕ

namespace Keys

variable {τ : Type*} [DecidableEq τ]

/-- A thread works on the next key. -/
def draw (s : Keys τ) (t : τ) : Keys τ :=
  { s with next := s.next + 1, making := Function.update s.making t (some s.next) }

/-- The key that a thread worked on is alive. -/
def finish (s : Keys τ) (t : τ) (k : ℕ) : Keys τ :=
  { s with alive := fun j => s.alive j ∨ j = k, making := Function.update s.making t none }

/-- Some keys die, a thread draws a key, or a thread finishes its work. -/
inductive Step (s : Keys τ) : Keys τ → Prop
  | lose (alive : ℕ → Prop) (h : ∀ k, alive k → s.alive k) : Step s { s with alive }
  | draw (t : τ) : Step s (s.draw t)
  | finish (t : τ) (k : ℕ) (h : s.making t = some k) : Step s (s.finish t k)

/-- A key that a thread works on is drawn, not alive, and no other thread's. -/
structure Owned (s : Keys τ) : Prop where
  alive_lt : ∀ k, s.alive k → k < s.next
  making_lt : ∀ t k, s.making t = some k → k < s.next
  dead : ∀ t k, s.making t = some k → ¬ s.alive k
  once : ∀ t t' k, s.making t = some k → s.making t' = some k → t = t'

/-- Nobody has the key any more, or will. -/
structure Gone (s : Keys τ) (k : ℕ) : Prop where
  lt : k < s.next
  dead : ¬ s.alive k
  unmade : ∀ t, s.making t ≠ some k

/-- Nothing happens. -/
theorem Step.refl (s : Keys τ) : s.Step s := .lose s.alive fun _ h => h

omit [DecidableEq τ] in
/-- At the start nobody works and no key is alive. -/
theorem Owned.of_none {s : Keys τ} (halive : ∀ k, ¬ s.alive k) (hmaking : ∀ t, s.making t = none) :
    s.Owned where
  alive_lt k hk := absurd hk (halive k)
  making_lt t k hk := by rw [hmaking t] at hk; cases hk
  dead _ k _ hk := halive k hk
  once t t' k hk _ := by rw [hmaking t] at hk; cases hk

/-- Who works on what after a draw. -/
theorem making_draw {s : Keys τ} {t t' : τ} {k : ℕ} (h : (s.draw t).making t' = some k) :
    (t' = t ∧ k = s.next) ∨ (t' ≠ t ∧ s.making t' = some k) := by
  simp only [draw] at h
  by_cases ht : t' = t
  · subst ht
    rw [Function.update_self] at h
    exact Or.inl ⟨rfl, (Option.some.inj h).symm⟩
  · rw [Function.update_of_ne ht] at h
    exact Or.inr ⟨ht, h⟩

/-- Who works on what after a thread has finished. -/
theorem making_finish {s : Keys τ} {t t' : τ} {j k : ℕ} (h : (s.finish t k).making t' = some j) :
    t' ≠ t ∧ s.making t' = some j := by
  simp only [finish] at h
  by_cases ht : t' = t
  · subst ht
    rw [Function.update_self] at h
    cases h
  · rw [Function.update_of_ne ht] at h
    exact ⟨ht, h⟩

/-- Over a draw, keys that are worked on stay new and with their threads. -/
theorem Owned.draw {s : Keys τ} (hs : s.Owned) (t : τ) : (s.draw t).Owned where
  alive_lt k hk := Nat.lt_succ_of_lt (hs.alive_lt k hk)
  making_lt t' k hk := by
    show k < s.next + 1
    rcases making_draw hk with ⟨-, rfl⟩ | ⟨-, hold⟩
    · omega
    · exact Nat.lt_succ_of_lt (hs.making_lt t' k hold)
  dead t' k hk halive := by
    rcases making_draw hk with ⟨-, rfl⟩ | ⟨-, hold⟩
    · exact absurd (hs.alive_lt s.next halive) (Nat.lt_irrefl _)
    · exact hs.dead t' k hold halive
  once t' t'' k hk hk' := by
    rcases making_draw hk with ⟨rfl, rfl⟩ | ⟨-, hold⟩
    · rcases making_draw hk' with ⟨rfl, -⟩ | ⟨-, hold'⟩
      · rfl
      · exact absurd (hs.making_lt t'' _ hold') (Nat.lt_irrefl _)
    · rcases making_draw hk' with ⟨rfl, rfl⟩ | ⟨-, hold'⟩
      · exact absurd (hs.making_lt t' _ hold) (Nat.lt_irrefl _)
      · exact hs.once t' t'' k hold hold'

/-- When a thread has finished, the others' keys stay new and with their threads. -/
theorem Owned.finish {s : Keys τ} (hs : s.Owned) {t : τ} {k : ℕ} (h : s.making t = some k) :
    (s.finish t k).Owned where
  alive_lt j hj := by
    rcases hj with hj | rfl
    · exact hs.alive_lt j hj
    · exact hs.making_lt t j h
  making_lt t' j hj := hs.making_lt t' j (making_finish hj).2
  dead t' j hj halive := by
    obtain ⟨ht, hold⟩ := making_finish hj
    rcases halive with halive | rfl
    · exact hs.dead t' j hold halive
    · exact ht (hs.once t' t j hold h)
  once t' t'' j hj hj' := hs.once t' t'' j (making_finish hj).2 (making_finish hj').2

/-- **Step.** Keys that are worked on stay new and with their threads. -/
theorem Owned.step {s s' : Keys τ} (hs : s.Owned) (h : s.Step s') : s'.Owned := by
  cases h with
  | lose alive h =>
    exact ⟨fun k hk => hs.alive_lt k (h k hk), hs.making_lt,
      fun t k hk halive => hs.dead t k hk (h k halive), hs.once⟩
  | draw t => exact hs.draw t
  | finish t k h => exact hs.finish h

/-- A key that is gone stays so: the counter does not come back to it. -/
theorem Gone.step {s s' : Keys τ} {k : ℕ} (hgone : s.Gone k) (h : s.Step s') : s'.Gone k := by
  cases h with
  | lose alive h => exact ⟨hgone.lt, fun halive => hgone.dead (h k halive), hgone.unmade⟩
  | draw t =>
    refine ⟨Nat.lt_succ_of_lt hgone.lt, hgone.dead, fun t' hk => ?_⟩
    rcases making_draw hk with ⟨-, rfl⟩ | ⟨-, hold⟩
    · exact absurd hgone.lt (Nat.lt_irrefl _)
    · exact hgone.unmade t' hold
  | finish t j h =>
    refine ⟨hgone.lt, fun halive => ?_, fun t' hk => hgone.unmade t' (making_finish hk).2⟩
    rcases halive with halive | rfl
    · exact hgone.dead halive
    · exact hgone.unmade t h

omit [DecidableEq τ] in
/-- A key that was alive is gone when it dies. -/
theorem Owned.gone {s : Keys τ} (hs : s.Owned) {k : ℕ} (hk : s.alive k) {alive : ℕ → Prop}
    (hdead : ¬ alive k) : Gone { s with alive } k :=
  ⟨hs.alive_lt k hk, hdead, fun t hmaking => hs.dead t k hmaking hk⟩

end Keys
