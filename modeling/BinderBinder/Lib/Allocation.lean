import Mathlib.Data.List.Nodup
import Mathlib.Logic.Function.Basic

set_option relaxedAutoImplicit false
set_option autoImplicit false

/-!
# Things made from a counter

What is made gets the next number of a counter, and it belongs to one owner. What belongs to an
owner is live, and nothing belongs to two.

## Main definitions

* `Allocation.Sound` — what belongs to somebody is live, below the counter, and belongs to one.

## Main results

* `Allocation.Sound.update` — an owner gives some of it up and gets what is new.
-/

namespace Allocation

/-- What belongs to somebody is live and below the counter, and it belongs to one, once. -/
structure Sound {κ : Type*} (own : κ → List ℕ) (live : ℕ → Prop) (next : ℕ) : Prop where
  live : ∀ {k a}, a ∈ own k → live a
  below : ∀ {k a}, a ∈ own k → a < next
  nodup : ∀ k, (own k).Nodup
  apart : ∀ {k k' a}, a ∈ own k → a ∈ own k' → k = k'

variable {κ : Type*} {own : κ → List ℕ} {live live' : ℕ → Prop} {next next' : ℕ}

/-- Nothing belongs to anybody yet. -/
theorem sound_nil (live : ℕ → Prop) (next : ℕ) : Sound (fun _ : κ => []) live next where
  live ha := by cases ha
  below ha := by cases ha
  nodup _ := List.nodup_nil
  apart ha := by cases ha

variable [DecidableEq κ]

/-- **Update.** An owner has from now on some of what it had and what is new; what belongs to others
is as live as before. -/
theorem Sound.update (h : Sound own live next) (k : κ) {mine : List ℕ} (hnext : next ≤ next')
    (hnodup : mine.Nodup)
    (hmine : ∀ a ∈ mine, live' a ∧ a < next' ∧ (a ∈ own k ∨ next ≤ a))
    (hothers : ∀ a, a < next → a ∉ own k → live a → live' a) :
    Sound (Function.update own k mine) live' next' := by
  have hforeign : ∀ {k' a}, k' ≠ k → a ∈ own k' → a ∉ mine := by
    intro k' a hk ha hnew
    have hlt := h.below ha
    rcases (hmine a hnew).2.2 with hold | hge
    · exact hk (h.apart ha hold)
    · omega
  refine ⟨fun {k' a} ha => ?_, fun {k' a} ha => ?_, fun k' => ?_, fun {k₁ k₂ a} h₁ h₂ => ?_⟩
  · by_cases hk : k' = k
    · subst hk
      rw [Function.update_self] at ha
      exact (hmine a ha).1
    · rw [Function.update_of_ne hk] at ha
      exact hothers a (h.below ha) (fun hold => hk (h.apart ha hold)) (h.live ha)
  · by_cases hk : k' = k
    · subst hk
      rw [Function.update_self] at ha
      exact (hmine a ha).2.1
    · rw [Function.update_of_ne hk] at ha
      have hlt := h.below ha
      omega
  · by_cases hk : k' = k
    · subst hk
      rwa [Function.update_self]
    · rw [Function.update_of_ne hk]
      exact h.nodup k'
  · by_cases hk₁ : k₁ = k <;> by_cases hk₂ : k₂ = k
    · rw [hk₁, hk₂]
    · rw [hk₁, Function.update_self] at h₁
      rw [Function.update_of_ne hk₂] at h₂
      exact absurd h₁ (hforeign hk₂ h₂)
    · rw [Function.update_of_ne hk₁] at h₁
      rw [hk₂, Function.update_self] at h₂
      exact absurd h₂ (hforeign hk₁ h₁)
    · rw [Function.update_of_ne hk₁] at h₁
      rw [Function.update_of_ne hk₂] at h₂
      exact h.apart h₁ h₂

end Allocation
