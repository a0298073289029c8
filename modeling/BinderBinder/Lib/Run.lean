import Mathlib.Tactic.Common

set_option relaxedAutoImplicit false
set_option autoImplicit false

/-!
# Runs of partial labelled step functions

A system is a partial step function `step : σ → ℓ → Option σ`: `none` says that the step is not
enabled (or that it crashes). A run is a list of labels; it is defined when every step is.

## Main definitions

* `Run.exec` — the state after a list of labels.
* `Run.Along` — every step of a run meets a condition in the state before it.
* `Run.Always`, `Run.Sometime` — a property of every state of a run, and of some.
* `Run.Reachable` — the states some run ends in.
* `Run.family` — a family of systems that take their steps one at a time.

## Main results

* `Run.exec_append` — a run is cut at any point.
* `Run.exec_invariant` — what every step preserves, every run preserves.
* `Run.exec_invariant_along` — the same when only the steps that meet a condition preserve it.
* `Run.always_of_along`, `Run.along_of_always` — between conditions on steps and properties of states.
* `Run.exec_iff_along`, `Run.always_iff_along` — the same as an equivalence.
* `Run.exists_step_of_exec` — what holds at the start and not at the end, some step takes away.
* `Run.family_exec_invariant_along` — the same for each member of a family.
-/

namespace Run

variable {σ ℓ : Type*} (step : σ → ℓ → Option σ)

/-- The state a list of labels leads to, `none` if some step on the way is not enabled. -/
def exec : σ → List ℓ → Option σ
  | s, [] => some s
  | s, l :: ls => (step s l).bind fun s' => exec s' ls

/-- Every step of the run meets `C` in the state before it. -/
def Along (C : σ → ℓ → Prop) : σ → List ℓ → Prop
  | _, [] => True
  | s, l :: ls => C s l ∧ ∀ s', step s l = some s' → Along C s' ls

/-- Whether the steps of a run meet a condition is decided by running it. -/
instance decidableAlong (C : σ → ℓ → Prop) [∀ s l, Decidable (C s l)] :
    (s : σ) → (ls : List ℓ) → Decidable (Along step C s ls)
  | _, [] => inferInstanceAs (Decidable True)
  | s, l :: ls =>
    have : ∀ s', Decidable (Along step C s' ls) := fun s' => decidableAlong C s' ls
    inferInstanceAs (Decidable (C s l ∧ ∀ s' ∈ step s l, Along step C s' ls))

/-- `P` holds in every state of the run, the first and the last included. -/
def Always (P : σ → Prop) : σ → List ℓ → Prop
  | s, [] => P s
  | s, l :: ls => P s ∧ ∀ s', step s l = some s' → Always P s' ls

/-- `P` holds in some state of the run, the first and the last included. -/
def Sometime (P : σ → Prop) : σ → List ℓ → Prop
  | s, [] => P s
  | s, l :: ls => P s ∨ ∃ s', step s l = some s' ∧ Sometime P s' ls

/-- Whether a property holds at some time of a run is decided by running it. -/
instance decidableSometime (P : σ → Prop) [DecidablePred P] :
    (s : σ) → (ls : List ℓ) → Decidable (Sometime step P s ls)
  | s, [] => inferInstanceAs (Decidable (P s))
  | s, l :: ls =>
    have : DecidablePred fun s' => Sometime step P s' ls := fun s' => decidableSometime P s' ls
    inferInstanceAs (Decidable (P s ∨ ∃ s' ∈ step s l, Sometime step P s' ls))

/-- The states some run from `s₀` ends in. -/
def Reachable (s₀ s : σ) : Prop := ∃ ls, exec step s₀ ls = some s

variable {step}

/-- A run of `l :: ls` is a step on `l` followed by a run of `ls`. -/
theorem exec_cons (s : σ) (l : ℓ) (ls : List ℓ) :
    exec step s (l :: ls) = (step s l).bind fun s' => exec step s' ls := rfl

/-- The first step of a defined run is enabled, and the rest is a run from where it leads. -/
theorem exec_cons_eq_some {s t : σ} {l : ℓ} {ls : List ℓ} :
    exec step s (l :: ls) = some t ↔ ∃ s', step s l = some s' ∧ exec step s' ls = some t := by
  rw [exec_cons, Option.bind_eq_some_iff]

/-- A run is cut at any point. -/
theorem exec_append (s : σ) (ls ms : List ℓ) :
    exec step s (ls ++ ms) = (exec step s ls).bind fun s' => exec step s' ms := by
  induction ls generalizing s with
  | nil => rfl
  | cons l ls ih =>
    rw [List.cons_append, exec_cons, exec_cons]
    cases step s l with
    | none => rfl
    | some s' => exact ih s'

/-- A defined run is a defined run up to any point and a defined run from there. -/
theorem exec_append_eq_some {s t : σ} {ls ms : List ℓ} :
    exec step s (ls ++ ms) = some t ↔
      ∃ s', exec step s ls = some s' ∧ exec step s' ms = some t := by
  rw [exec_append, Option.bind_eq_some_iff]

/-- A run on which `P` always holds starts in a state with `P`. -/
theorem Always.head {P : σ → Prop} {s : σ} {ls : List ℓ} (h : Always step P s ls) : P s := by
  cases ls with
  | nil => exact h
  | cons l ls => exact h.1

/-- Along a step that is enabled, `P` always holds exactly if it holds before the step and always
after it. -/
theorem always_cons_iff {P : σ → Prop} {s s' : σ} {l : ℓ} {ls : List ℓ} (h : step s l = some s') :
    Always step P s (l :: ls) ↔ P s ∧ Always step P s' ls := by
  refine and_congr_right fun _ => ⟨fun hall => hall s' h, fun hall t ht => ?_⟩
  rw [h] at ht
  cases ht
  exact hall

/-- Along a step that is enabled, a condition on steps holds exactly if it holds of that step and
along the rest. -/
theorem along_cons_iff {C : σ → ℓ → Prop} {s s' : σ} {l : ℓ} {ls : List ℓ}
    (h : step s l = some s') : Along step C s (l :: ls) ↔ C s l ∧ Along step C s' ls := by
  refine and_congr_right fun _ => ⟨fun hall => hall s' h, fun hall t ht => ?_⟩
  rw [h] at ht
  cases ht
  exact hall

/-- A run whose steps all meet a condition is one up to any point and from there. -/
theorem along_append_iff {C : σ → ℓ → Prop} {s : σ} {ls ms : List ℓ} :
    Along step C s (ls ++ ms) ↔
      Along step C s ls ∧ ∀ t, exec step s ls = some t → Along step C t ms := by
  induction ls generalizing s with
  | nil =>
    refine ⟨fun h => ⟨trivial, fun t ht => ?_⟩, fun h => h.2 s rfl⟩
    cases ht
    exact h
  | cons l ls ih =>
    constructor
    · rintro ⟨hC, hrest⟩
      refine ⟨⟨hC, fun s' hs' => (ih.mp (hrest s' hs')).1⟩, fun t ht => ?_⟩
      obtain ⟨s', hs', ht⟩ := exec_cons_eq_some.mp ht
      exact (ih.mp (hrest s' hs')).2 t ht
    · rintro ⟨⟨hC, hrest⟩, hafter⟩
      refine ⟨hC, fun s' hs' => ih.mpr ⟨hrest s' hs', fun t ht => ?_⟩⟩
      exact hafter t (exec_cons_eq_some.mpr ⟨s', hs', ht⟩)

/-- A condition that every label meets in every state is met along every run. -/
theorem along_of_forall {C : σ → ℓ → Prop} {ls : List ℓ} (h : ∀ l ∈ ls, ∀ s, C s l) (s : σ) :
    Along step C s ls := by
  induction ls generalizing s with
  | nil => trivial
  | cons l ls ih =>
    exact ⟨h l List.mem_cons_self s, fun s' _ => ih (fun m hm => h m (List.mem_cons_of_mem l hm)) s'⟩

/-- What every step that meets `C` preserves, every run whose steps all meet `C` preserves. -/
theorem exec_invariant_along {C : σ → ℓ → Prop} {I : σ → Prop}
    (hstep : ∀ {s l s'}, I s → C s l → step s l = some s' → I s') {s t : σ} {ls : List ℓ}
    (hI : I s) (hC : Along step C s ls) (h : exec step s ls = some t) : I t := by
  induction ls generalizing s with
  | nil => cases h; exact hI
  | cons l ls ih =>
    obtain ⟨s', hs', hrest⟩ := exec_cons_eq_some.mp h
    exact ih (hstep hI hC.1 hs') (hC.2 s' hs') hrest

/-- If steps that meet `C` preserve `I`, and `I` implies `P`, then `P` always holds along a run whose
steps all meet `C`. -/
theorem always_of_along {C : σ → ℓ → Prop} {I P : σ → Prop}
    (hstep : ∀ {s l s'}, I s → C s l → step s l = some s' → I s') (hP : ∀ {s}, I s → P s) {s : σ}
    {ls : List ℓ} (hI : I s) (hC : Along step C s ls) : Always step P s ls := by
  induction ls generalizing s with
  | nil => exact hP hI
  | cons l ls ih => exact ⟨hP hI, fun s' hs' => ih (hstep hI hC.1 hs') (hC.2 s' hs')⟩

/-- If `P` after a step, under an invariant `I`, implies `C` of the step, then the steps of a run on
which `P` always holds all meet `C`. -/
theorem along_of_always {C : σ → ℓ → Prop} {I P : σ → Prop}
    (hstep : ∀ {s l s'}, I s → step s l = some s' → I s')
    (hC : ∀ {s l}, I s → (∀ s', step s l = some s' → P s') → C s l) {s : σ} {ls : List ℓ}
    (hI : I s) (h : Always step P s ls) : Along step C s ls := by
  induction ls generalizing s with
  | nil => trivial
  | cons l ls ih =>
    exact ⟨hC hI fun s' hs' => (h.2 s' hs').head, fun s' hs' => ih (hstep hI hs') (h.2 s' hs')⟩

/-- Where an invariant makes two properties the same, they always hold along the same runs. -/
theorem always_congr {I P Q : σ → Prop} (hstep : ∀ {s l s'}, I s → step s l = some s' → I s')
    (h : ∀ {s}, I s → (P s ↔ Q s)) {s : σ} {ls : List ℓ} (hI : I s) :
    Always step P s ls ↔ Always step Q s ls := by
  induction ls generalizing s with
  | nil => exact h hI
  | cons l ls ih =>
    exact and_congr (h hI) (forall_congr' fun s' => forall_congr' fun hs' => ih (hstep hI hs'))

/-- Two properties always hold together exactly if each of them always holds. -/
theorem always_and_iff {P Q : σ → Prop} {s : σ} {ls : List ℓ} :
    Always step (fun s => P s ∧ Q s) s ls ↔ Always step P s ls ∧ Always step Q s ls := by
  induction ls generalizing s with
  | nil => exact Iff.rfl
  | cons l ls ih =>
    constructor
    · rintro ⟨⟨hP, hQ⟩, hrest⟩
      exact ⟨⟨hP, fun s' hs' => (ih.mp (hrest s' hs')).1⟩, ⟨hQ, fun s' hs' => (ih.mp (hrest s' hs')).2⟩⟩
    · rintro ⟨⟨hP, hrestP⟩, ⟨hQ, hrestQ⟩⟩
      exact ⟨⟨hP, hQ⟩, fun s' hs' => ih.mpr ⟨hrestP s' hs', hrestQ s' hs'⟩⟩

/-- Under an invariant `I`, a property that holds at the start always holds along a run exactly if
every step meets the condition that keeps it. -/
theorem always_iff_along {C : σ → ℓ → Prop} {I P : σ → Prop}
    (hstep : ∀ {s l s'}, I s → step s l = some s' → I s')
    (hkeep : ∀ {s l s'}, I s → P s → C s l → step s l = some s' → P s')
    (hC : ∀ {s l}, I s → (∀ s', step s l = some s' → P s') → C s l) {s : σ} {ls : List ℓ}
    (hI : I s) (hP : P s) : Always step P s ls ↔ Along step C s ls := by
  constructor
  · exact along_of_always hstep hC hI
  · intro halong
    exact always_of_along (I := fun s => I s ∧ P s)
      (fun h hcond hs' => ⟨hstep h.1 hs', hkeep h.1 h.2 hcond hs'⟩) (fun h => h.2) ⟨hI, hP⟩ halong

/-- A property that a step leaves true exactly when it meets `C` is true at the end of a run exactly
when it was at the start and every step meets `C`. -/
theorem exec_iff_along {C : σ → ℓ → Prop} {P : σ → Prop}
    (hstep : ∀ {s l s'}, step s l = some s' → (P s' ↔ P s ∧ C s l)) {s t : σ} {ls : List ℓ}
    (h : exec step s ls = some t) : P t ↔ P s ∧ Along step C s ls := by
  induction ls generalizing s with
  | nil =>
    cases h
    exact (and_iff_left trivial).symm
  | cons l ls ih =>
    obtain ⟨s', hs', hrest⟩ := exec_cons_eq_some.mp h
    rw [ih hrest, hstep hs', along_cons_iff hs', and_assoc]

/-- What every step preserves, every run preserves. -/
theorem exec_invariant {I : σ → Prop} (hstep : ∀ {s l s'}, I s → step s l = some s' → I s')
    {s t : σ} {ls : List ℓ} (hI : I s) (h : exec step s ls = some t) : I t := by
  induction ls generalizing s with
  | nil => cases h; exact hI
  | cons l ls ih =>
    obtain ⟨s', hs', hrest⟩ := exec_cons_eq_some.mp h
    exact ih (hstep hI hs') hrest

/-- What holds at the start of a run and not at its end, some step of the run takes away. -/
theorem exists_step_of_exec {P : σ → Prop} {s t : σ} {ls : List ℓ} (h : exec step s ls = some t)
    (hP : P s) (hnot : ¬ P t) : ∃ ms l ns u u', ls = ms ++ l :: ns ∧ exec step s ms = some u ∧
      step u l = some u' ∧ P u ∧ ¬ P u' := by
  induction ls generalizing s with
  | nil =>
    cases h
    exact (hnot hP).elim
  | cons l ls ih =>
    obtain ⟨s', hs', hrest⟩ := exec_cons_eq_some.mp h
    by_cases hP' : P s'
    · obtain ⟨ms, m, ns, u, u', rfl, hu, hu', hPu, hPu'⟩ := ih hrest hP'
      exact ⟨l :: ms, m, ns, u, u', rfl, exec_cons_eq_some.mpr ⟨s', hs', hu⟩, hu', hPu, hPu'⟩
    · exact ⟨[], l, ls, s, s', rfl, rfl, hs', hP, hP'⟩

/-- What holds at the start of a run held at some time. -/
theorem Sometime.of_head {P : σ → Prop} {s : σ} {ls : List ℓ} (h : P s) : Sometime step P s ls := by
  cases ls with
  | nil => exact h
  | cons l ls => exact Or.inl h

/-- What holds at the end of a run held at some time. -/
theorem Sometime.of_exec {P : σ → Prop} {s t : σ} {ls : List ℓ} (h : exec step s ls = some t)
    (hP : P t) : Sometime step P s ls := by
  induction ls generalizing s with
  | nil =>
    cases h
    exact hP
  | cons l ls ih =>
    obtain ⟨s', hs', hrest⟩ := exec_cons_eq_some.mp h
    exact Or.inr ⟨s', hs', ih hrest⟩

/-- What held at some time still did when the run goes on. -/
theorem Sometime.append {P : σ → Prop} {s : σ} {ls : List ℓ} (h : Sometime step P s ls)
    (ms : List ℓ) : Sometime step P s (ls ++ ms) := by
  induction ls generalizing s with
  | nil => exact Sometime.of_head h
  | cons l ls ih =>
    rcases h with hP | ⟨s', hs', hrest⟩
    · exact Or.inl hP
    · exact Or.inr ⟨s', hs', ih hrest⟩

/-- What held at some time of a run held before its last step, or holds at its end. -/
theorem Sometime.before_or {P : σ → Prop} {s t t' : σ} {ls : List ℓ} {l : ℓ}
    (hexec : exec step s ls = some t) (hstep : step t l = some t')
    (h : Sometime step P s (ls ++ [l])) : Sometime step P s ls ∨ P t' := by
  induction ls generalizing s with
  | nil =>
    cases hexec
    rcases h with hP | ⟨s', hs', hP⟩
    · exact Or.inl hP
    · rw [hstep] at hs'
      cases hs'
      exact Or.inr hP
  | cons m ls ih =>
    obtain ⟨s', hs', hrest⟩ := exec_cons_eq_some.mp hexec
    rcases h with hP | ⟨s'', hs'', hsometime⟩
    · exact Or.inl (Or.inl hP)
    · rw [hs'] at hs''
      cases hs''
      rcases ih hrest hsometime with hbefore | hP
      · exact Or.inl (Or.inr ⟨s', hs', hbefore⟩)
      · exact Or.inr hP

/-- An invariant of the steps holds in every reachable state. -/
theorem Reachable.invariant {I : σ → Prop} {s₀ s : σ} (h : Reachable step s₀ s) (h₀ : I s₀)
    (hstep : ∀ {s l s'}, I s → step s l = some s' → I s') : I s := by
  obtain ⟨ls, hls⟩ := h
  exact exec_invariant hstep h₀ hls

/-! ## Families -/

section Family

variable {κ : Type*} [DecidableEq κ] (member : κ → σ → ℓ → Option σ)

/-- A step of a family is a step of one member; the others stay where they are. -/
def family (s : κ → σ) : κ × ℓ → Option (κ → σ)
  | (k, l) => (member k (s k) l).map (Function.update s k)

variable {member}

/-- A step of a family, seen from one of its members: it is not theirs, or it is their step. -/
theorem family_apply {s s' : κ → σ} {k : κ} {l : ℓ} (h : family member s (k, l) = some s') (k' : κ) :
    s' k' = s k' ∨ k' = k ∧ member k' (s k') l = some (s' k') := by
  obtain ⟨t, ht, rfl⟩ := Option.map_eq_some_iff.mp h
  by_cases hk : k' = k
  · subst hk
    rw [Function.update_self]
    exact Or.inr ⟨rfl, ht⟩
  · exact Or.inl (Function.update_of_ne hk _ _)

/-- What the steps of each member that meet `C` preserve for it, every run of the family whose steps
all meet `C` preserves for each member. -/
theorem family_exec_invariant_along {C : κ → σ → ℓ → Prop} {I : κ → σ → Prop}
    (hstep : ∀ {k s l s'}, I k s → C k s l → member k s l = some s' → I k s') {s t : κ → σ}
    {ls : List (κ × ℓ)} (hI : ∀ k, I k (s k))
    (hC : Along (family member) (fun s l => C l.1 (s l.1) l.2) s ls)
    (h : exec (family member) s ls = some t) : ∀ k, I k (t k) := by
  have hfamily : ∀ {s : κ → σ} {l : κ × ℓ} {s' : κ → σ}, (∀ k, I k (s k)) → C l.1 (s l.1) l.2 →
      family member s l = some s' → ∀ k, I k (s' k) := by
    intro s l s' hI hC hs' k
    rcases family_apply hs' k with hsame | ⟨rfl, hmine⟩
    · rw [hsame]
      exact hI k
    · exact hstep (hI l.1) hC hmine
  exact exec_invariant_along hfamily hI hC h

end Family

end Run
