import BinderBinder.Lib.Keys

set_option relaxedAutoImplicit false
set_option autoImplicit false

/-!
# Caches of one weak pointer

One entry of a cache of weak pointers. Threads that find nothing alive there each make something new
and insert it; what is alive loses its last owner at any time; and the entry is dropped only when
what it points at is dead.

## Main definitions

* `WeakCache`, `WeakCache.Step` — the entry, and what happens to it.
* `WeakCache.Complete` — the cache finds everything that is alive.

## Main results

* `WeakCache.Complete.step` — the cache stays complete, if nothing is inserted over a live pointer.
* `WeakCache.not_live_of_insert` — an insertion over a live pointer leaves two things alive.
-/

/-- The pointer that is cached, the things that are alive, the counter that names them, and the thing
that each thread makes. -/
structure WeakCache (τ : Type*) where
  entry : Option ℕ
  alive : ℕ → Prop
  next : ℕ
  making : τ → Option ℕ

namespace WeakCache

variable {τ : Type*} {s s' : WeakCache τ} {inserts : τ → ℕ → Prop}

/-- The things as keys that threads work on. -/
def keys (s : WeakCache τ) : Keys τ := ⟨s.alive, s.next, s.making⟩

/-- The cached pointer can be upgraded. -/
def Live (s : WeakCache τ) : Prop := ∃ k, s.entry = some k ∧ s.alive k

/-- The cache finds everything that is alive; so no two things are. -/
def Complete (s : WeakCache τ) : Prop := ∀ k, s.alive k → s.entry = some k

/-- In a complete cache, two things that are alive are the same. -/
theorem Complete.unique (hs : s.Complete) {i j : ℕ} (hi : s.alive i) (hj : s.alive j) : i = j :=
  Option.some.inj ((hs i hi).symm.trans (hs j hj))

variable [DecidableEq τ]

/-- A thread makes something new. -/
def draw (s : WeakCache τ) (t : τ) : WeakCache τ :=
  { s with next := s.next + 1, making := Function.update s.making t (some s.next) }

/-- What a thread has made is alive and cached. -/
def insert (s : WeakCache τ) (t : τ) (k : ℕ) : WeakCache τ :=
  { s with
    entry := some k
    alive := fun j => s.alive j ∨ j = k
    making := Function.update s.making t none }

/-- Some things die and a dead pointer may leave the cache, a thread makes something new, or one that
`inserts` says inserts what it has made. -/
inductive Step (inserts : τ → ℕ → Prop) (s : WeakCache τ) : WeakCache τ → Prop
  | lose (entry : Option ℕ) (alive : ℕ → Prop) (halive : ∀ k, alive k → s.alive k)
      (hentry : entry = s.entry ∨ ¬ s.Live) : Step inserts s { s with entry, alive }
  | draw (t : τ) : Step inserts s (s.draw t)
  | insert (t : τ) (k : ℕ) (hk : s.making t = some k) (h : inserts t k) :
      Step inserts s (s.insert t k)

/-- Nothing happens. -/
theorem Step.refl : s.Step inserts s := .lose s.entry s.alive (fun _ h => h) (Or.inl rfl)

/-- A step in which no thread makes or inserts anything. -/
theorem Step.of_lose (halive : ∀ k, s'.alive k → s.alive k) (hentry : s'.entry = s.entry ∨ ¬ s.Live)
    (hnext : s'.next = s.next) (hmaking : s'.making = s.making) : s.Step inserts s' := by
  have hs' : s' = { s with entry := s'.entry, alive := s'.alive } := by rw [← hnext, ← hmaking]
  rw [hs']
  exact .lose s'.entry s'.alive halive hentry

/-- What happens to the keys that threads work on. -/
theorem Step.keys (h : s.Step inserts s') : s.keys.Step s'.keys := by
  cases h with
  | lose entry alive halive hentry => exact .lose alive halive
  | draw t => exact .draw t
  | insert t k hk h => exact .finish t k hk

/-- **Step.** The cache stays complete, if nothing is inserted while its pointer is alive: then nothing
is. -/
theorem Complete.step (hs : s.Complete) (hdead : ∀ t k, inserts t k → ¬ s.Live)
    (h : s.Step inserts s') : s'.Complete := by
  cases h with
  | lose entry alive halive hentry =>
    intro k hk
    have hfound := hs k (halive k hk)
    rcases hentry with hsame | hdead
    · exact hsame.trans hfound
    · exact absurd ⟨k, hfound, halive k hk⟩ hdead
  | draw t => exact hs
  | insert t k hk h =>
    intro j hj
    rcases hj with hj | rfl
    · exact absurd ⟨j, hs j hj, hj⟩ (hdead t k h)
    · rfl

/-- If only one thing is alive after a thread has inserted what it made, then the pointer was dead. -/
theorem not_live_of_insert (hs : s.keys.Owned) {t : τ} {k : ℕ} (hk : s.making t = some k)
    (hunique : ∀ i j, (s.insert t k).alive i → (s.insert t k).alive j → i = j) : ¬ s.Live := by
  rintro ⟨j, -, hj⟩
  obtain rfl : j = k := hunique j k (Or.inl hj) (Or.inr rfl)
  exact hs.dead t j hk hj

end WeakCache
