import BinderBinder.Lib.Keys

set_option relaxedAutoImplicit false
set_option autoImplicit false

/-!
# One registration at a time

Things with a key of their own want to be told when something happens. A thread that makes one files
a token for its key and registers the key; when the thing dies, a thread clears its registration and
removes its token. There is one registration at a time: another one is refused while it is there,
and only its own key clears it. When it happens, or has happened already, there is mail for the key
that is registered; to tell a key is to take its mail and its token.

If no registration is refused, then what is alive is registered and has its token, or was told. So at
most one thing that is alive was not told.

## Main definitions

* `Registration`, `Registration.Step` — the keys, tokens and the registration, and what happens.
* `Registration.Heard` — the key was told, or it is registered, has its token, and has mail if it
  happened.

## Main results

* `Registration.Sound.step` — what is alive is heard, as long as no registration is refused.
-/

/-- What a thread does with a key: it makes the thing, before its token, before its registration and
behind it, or it clears up behind it. -/
inductive Role
  | idle
  | making (k : ℕ)
  | tokened (k : ℕ)
  | requested (k : ℕ)
  | dying (k : ℕ)

/-- The key of the thing that a thread makes. -/
def Role.key : Role → Option ℕ
  | .making k | .tokened k | .requested k => some k
  | _ => none

/-- The keys that are alive, the counter, the threads, the tokens, the keys that were told, the
registration, whether it happened, and who has mail. -/
structure Registration (τ : Type*) where
  alive : ℕ → Prop
  next : ℕ
  role : τ → Role
  token : ℕ → Prop
  told : ℕ → Prop
  slot : Option ℕ
  happened : Prop
  mail : ℕ → Prop

namespace Registration

variable {τ : Type*} [DecidableEq τ]

/-- The keys that threads work on. -/
def keys (s : Registration τ) : Keys τ := ⟨s.alive, s.next, Role.key ∘ s.role⟩

/-- The thread `t` has another role. -/
def setRole (s : Registration τ) (t : τ) (role : Role) : Registration τ :=
  { s with role := Function.update s.role t role }

/-- What happens, if no registration is refused. -/
inductive Step (s : Registration τ) : Registration τ → Prop
  | lose (alive : ℕ → Prop) (h : ∀ k, alive k → s.alive k) : Step s { s with alive }
  | draw (t : τ) : Step s ({ s with next := s.next + 1 }.setRole t (.making s.next))
  | fileToken (t : τ) (k : ℕ) (h : s.role t = .making k) :
      Step s ({ s with token := fun j => s.token j ∨ j = k }.setRole t (.tokened k))
  | request (t : τ) (k : ℕ) (h : s.role t = .tokened k) (hfree : s.slot = none) :
      Step s ({ s with
        slot := some k
        mail := fun j => s.mail j ∨ s.happened ∧ j = k }.setRole t (.requested k))
  | finish (t : τ) (k : ℕ) (h : s.role t = .requested k) :
      Step s ({ s with alive := fun j => s.alive j ∨ j = k }.setRole t .idle)
  | die (t : τ) (k : ℕ) (h : s.role t = .idle) (hk : s.alive k) (alive : ℕ → Prop)
      (halive : ∀ j, alive j → s.alive j ∧ j ≠ k) :
      Step s ({ s with alive }.setRole t (.dying k))
  | clear (t : τ) (k : ℕ) (h : s.role t = .dying k) :
      Step s { s with slot := if s.slot = some k then none else s.slot }
  | removeToken (t : τ) (k : ℕ) (h : s.role t = .dying k) :
      Step s ({ s with token := fun j => s.token j ∧ j ≠ k }.setRole t .idle)
  | happen : Step s { s with happened := True, mail := fun j => s.mail j ∨ s.slot = some j }
  | tell (k : ℕ) (mail : ℕ → Prop) (hmail : ∀ j, j ≠ k → s.mail j → mail j) :
      Step s { s with
        token := fun j => s.token j ∧ j ≠ k
        told := fun j => s.told j ∨ j = k ∧ s.token k
        mail }

/-- Nothing happens. -/
theorem Step.refl (s : Registration τ) : s.Step s := .lose s.alive fun _ h => h

/-- The key was told, or it is registered, has its token, and has mail if it happened. -/
def Heard (s : Registration τ) (k : ℕ) : Prop :=
  s.told k ∨ s.slot = some k ∧ s.token k ∧ (s.happened → s.mail k)

/-- What a thread relies on: a token that is filed stays or was told, a key that was registered is
heard, and a key that it clears up behind is gone. -/
def Holds (s : Registration τ) : Role → Prop
  | .idle | .making _ => True
  | .tokened k => s.token k ∨ s.told k
  | .requested k => s.Heard k
  | .dying k => s.keys.Gone k

/-- What is alive is heard, and every thread has what it relies on. -/
structure Sound (s : Registration τ) : Prop where
  owned : s.keys.Owned
  threads : ∀ t, s.Holds (s.role t)
  alive : ∀ k, s.alive k → s.Heard k

/-- What holds of the role of every thread holds after one has changed, if it holds of that. -/
theorem forall_setRole {s : Registration τ} {t : τ} {role : Role} {P : Role → Prop} (hnew : P role)
    (hold : ∀ t', P (s.role t')) (t' : τ) : P ((s.setRole t role).role t') := by
  simp only [setRole]
  by_cases ht : t' = t
  · subst ht
    rwa [Function.update_self]
  · rw [Function.update_of_ne ht]
    exact hold t'

/-- A thread that keeps its role. -/
theorem setRole_self {s : Registration τ} {t : τ} {role : Role} (h : role = s.role t) :
    s.setRole t role = s := by
  rw [h, setRole, Function.update_eq_self]

/-- It does not matter that a thread keeps its role. -/
theorem Step.sameRole {s s' : Registration τ} {t : τ} {role : Role} (h : s.Step s')
    (hrole : role = s'.role t) : s.Step (s'.setRole t role) := by
  rwa [setRole_self hrole]

/-- The keys that threads work on after a change of a role. -/
theorem keys_setRole (s : Registration τ) (t : τ) (role : Role) :
    (s.setRole t role).keys =
      { s.keys with making := Function.update s.keys.making t role.key } :=
  congrArg (Keys.mk s.alive s.next) (Function.comp_update Role.key s.role t role)

/-- A thread that goes on with its key works on the same. -/
theorem keys_setRole_of_eq {s : Registration τ} {t : τ} {role : Role}
    (h : role.key = (s.role t).key) : (s.setRole t role).keys = s.keys := by
  rw [keys_setRole, h]
  exact congrArg (Keys.mk s.alive s.next) (Function.update_eq_self t (Role.key ∘ s.role))

/-- What happens to the keys that threads work on. -/
theorem Step.keys {s s' : Registration τ} (h : s.Step s') : s.keys.Step s'.keys := by
  cases h with
  | lose alive h => exact .lose alive h
  | draw t =>
    rw [keys_setRole]
    exact .draw t
  | fileToken t k h =>
    rw [keys_setRole_of_eq (by rw [h]; rfl)]
    exact .refl _
  | request t k h hfree =>
    rw [keys_setRole_of_eq (by rw [h]; rfl)]
    exact .refl _
  | finish t k h =>
    rw [keys_setRole]
    exact .finish t k (congrArg Role.key h)
  | die t k h hk alive halive =>
    rw [keys_setRole_of_eq (by rw [h]; rfl)]
    exact .lose alive fun j hj => (halive j hj).1
  | clear t k h => exact .refl _
  | removeToken t k h =>
    rw [keys_setRole_of_eq (by rw [h]; rfl)]
    exact .refl _
  | happen => exact .refl _
  | tell k mail hmail => exact .refl _

namespace Sound

variable {s s' : Registration τ} {k : ℕ}

/-- The token of a key that is not gone stays until the key is told. -/
theorem token_step (hs : s.Sound) (h : s.Step s') (hk : ¬ s.keys.Gone k)
    (htoken : s.token k ∨ s.told k) : s'.token k ∨ s'.told k := by
  cases h with
  | fileToken t j h => exact htoken.imp_left Or.inl
  | removeToken t j h =>
    refine htoken.imp_left fun htoken => ⟨htoken, ?_⟩
    rintro rfl
    have hgone := hs.threads t
    rw [h] at hgone
    exact hk hgone
  | tell j mail hmail =>
    rcases htoken with htoken | htold
    · by_cases hj : k = j
      · subst hj
        exact Or.inr (Or.inr ⟨rfl, htoken⟩)
      · exact Or.inl ⟨htoken, hj⟩
    · exact Or.inr (Or.inl htold)
  | _ => exact htoken

/-- A key that is not gone stays registered. -/
theorem slot_step (hs : s.Sound) (h : s.Step s') (hk : ¬ s.keys.Gone k) (hslot : s.slot = some k) :
    s'.slot = some k := by
  cases h with
  | request t j h hfree =>
    rw [hfree] at hslot
    cases hslot
  | clear t j h =>
    have hgone := hs.threads t
    rw [h] at hgone
    have hne : s.slot ≠ some j := by
      rw [hslot]
      intro heq
      exact hk (Option.some.inj heq ▸ hgone)
    exact (if_neg hne).trans hslot
  | _ => exact hslot

/-- The mail of a key stays until the key is told. -/
theorem mail_step (h : s.Step s') (hslot : s.slot = some k) (htoken : s'.token k)
    (hmail : s.happened → s.mail k) (hhappened : s'.happened) : s'.mail k := by
  cases h with
  | request t j h hfree =>
    rw [hfree] at hslot
    cases hslot
  | happen => exact Or.inr hslot
  | tell j mail h => exact h k htoken.2 (hmail hhappened)
  | _ => exact hmail hhappened

/-- A key that is not gone stays heard. -/
theorem heard_step (hs : s.Sound) (h : s.Step s') (hk : ¬ s.keys.Gone k) (hheard : s.Heard k) :
    s'.Heard k := by
  rcases hheard with htold | ⟨hslot, htoken, hmail⟩
  · refine Or.inl ?_
    cases h with
    | tell j mail hmail => exact Or.inl htold
    | _ => exact htold
  · rcases hs.token_step h hk (Or.inl htoken) with htoken' | htold'
    · exact Or.inr ⟨hs.slot_step h hk hslot, htoken', mail_step h hslot htoken' hmail⟩
    · exact Or.inl htold'

omit [DecidableEq τ] in
/-- A key that a thread works on is not gone. -/
theorem not_gone_of_key {t : τ} (h : (s.role t).key = some k) : ¬ s.keys.Gone k :=
  fun hgone => hgone.unmade t h

/-- A step of the others leaves a thread what it relies on. -/
theorem holds_step (hs : s.Sound) (h : s.Step s') (t : τ) : s'.Holds (s.role t) := by
  have hrely := hs.threads t
  cases hrole : s.role t with
  | idle => trivial
  | making k => trivial
  | tokened k =>
    rw [hrole] at hrely
    exact hs.token_step h (not_gone_of_key (t := t) (by rw [hrole]; rfl)) hrely
  | requested k =>
    rw [hrole] at hrely
    exact hs.heard_step h (not_gone_of_key (t := t) (by rw [hrole]; rfl)) hrely
  | dying k =>
    rw [hrole] at hrely
    exact hrely.step h.keys

/-- What is alive after a step was alive before, or its registration was just behind. -/
theorem alive_step (h : s.Step s') (hk : s'.alive k) :
    s.alive k ∨ ∃ t, s.role t = .requested k := by
  cases h with
  | lose alive h => exact Or.inl (h k hk)
  | finish t j h =>
    rcases hk with hk | rfl
    · exact Or.inl hk
    · exact Or.inr ⟨t, h⟩
  | die t j h hj alive halive => exact Or.inl (halive k hk).1
  | _ => exact Or.inl hk

/-- **Step.** What is alive is heard, if no registration is refused.

**Proof sketch.** Only the thread that clears up behind a key takes away its registration or its
token, and then the key is gone. The thread that makes a key files the token, finds the slot free,
and has the key heard when it is alive. -/
theorem step (hs : s.Sound) (h : s.Step s') : s'.Sound := by
  have hholds := hs.holds_step h
  refine ⟨hs.owned.step h.keys, ?_, ?_⟩
  · cases h with
    | lose alive h => exact hholds
    | draw t => exact forall_setRole trivial hholds
    | fileToken t k h => exact forall_setRole (Or.inl (Or.inr rfl)) hholds
    | request t k h hfree =>
      refine forall_setRole ?_ hholds
      have htoken := hs.threads t
      rw [h] at htoken
      rcases htoken with htoken | htold
      · exact Or.inr ⟨rfl, htoken, fun hhappened => Or.inr ⟨hhappened, rfl⟩⟩
      · exact Or.inl htold
    | finish t k h => exact forall_setRole trivial hholds
    | die t k h hk alive halive =>
      refine forall_setRole ?_ hholds
      show Keys.Gone (setRole _ t (.dying k)).keys k
      rw [keys_setRole_of_eq (by rw [h]; rfl)]
      exact hs.owned.gone hk fun hdead => (halive k hdead).2 rfl
    | clear t k h => exact hholds
    | removeToken t k h => exact forall_setRole trivial hholds
    | happen => exact hholds
    | tell k mail hmail => exact hholds
  · intro k hk
    rcases alive_step h hk with hold | ⟨t, hrole⟩
    · exact hs.heard_step h (fun hgone => hgone.dead hold) (hs.alive k hold)
    · have hheard := hs.threads t
      rw [hrole] at hheard
      exact hs.heard_step h (not_gone_of_key (t := t) (by rw [hrole]; rfl)) hheard

end Sound

end Registration
