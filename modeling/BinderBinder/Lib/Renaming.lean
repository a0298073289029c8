import Mathlib.Data.List.Forall2

set_option relaxedAutoImplicit false
set_option autoImplicit false

/-!
# Lists that differ in names

Two systems do the same, but one of them names what it makes from a counter that others draw from
as well. What the one calls `x` is the `n`-th thing that the other has made. Lists of such names
correspond element by element, and since the correspondence is one to one, so do all operations on
them that compare names.

## Main definitions

* `Renaming.Named` — `x` is the name of the `n`-th thing, counted from one.
* `Renaming.Tagged` — pairs of the same tag and of names that correspond.

## Main results

* `Renaming.biUnique_named` — different things have different names.
* `Renaming.count_eq`, `Renaming.erase`, `Renaming.lookup` — operations that compare names.
-/

namespace Renaming

/-! ## Names in the order of drawing -/

section Named

variable {α : Type*} {names : List α}

/-- `x` is the name of the `n`-th thing, counted from one. -/
def Named (names : List α) (x : α) (n : ℕ) : Prop := 0 < n ∧ names[n - 1]? = some x

/-- A name is one of the names. -/
theorem Named.mem {x : α} {n : ℕ} (h : Named names x n) : x ∈ names := List.mem_of_getElem? h.2

/-- Every name is that of a thing. -/
theorem exists_named {x : α} (h : x ∈ names) : ∃ n, Named names x n := by
  obtain ⟨i, hi⟩ := List.mem_iff_getElem?.mp h
  exact ⟨i + 1, Nat.succ_pos i, hi⟩

/-- A name is kept when others are drawn. -/
theorem Named.append {x : α} {n : ℕ} (h : Named names x n) (more : List α) :
    Named (names ++ more) x n := by
  obtain ⟨hlt, -⟩ := List.getElem?_eq_some_iff.mp h.2
  exact ⟨h.1, by rw [List.getElem?_append_left hlt, h.2]⟩

/-- So is an entry that may be empty. -/
theorem rel_append {a : Option α} {b : Option ℕ} (h : Option.Rel (Named names) a b)
    (more : List α) : Option.Rel (Named (names ++ more)) a b := by
  cases h with
  | none => exact .none
  | some hx => exact .some (hx.append more)

/-- What stands for nothing is nothing. -/
theorem eq_none_of_rel {β : Type*} {R : α → β → Prop} {a : Option α} (h : Option.Rel R a none) :
    a = none := by
  cases h
  rfl

/-- What is there has a partner. -/
theorem exists_of_rel {β : Type*} {R : α → β → Prop} {a : Option α} {b : Option β} {x : α}
    (h : Option.Rel R a b) (hx : a = some x) : ∃ y, R x y ∧ b = some y := by
  cases h with
  | none => cases hx
  | @some x' y hxy =>
    cases hx
    exact ⟨y, hxy, rfl⟩

/-- There are as many things as names. -/
theorem Named.le {x : α} {n : ℕ} (h : Named names x n) : n ≤ names.length := by
  obtain ⟨hlt, -⟩ := List.getElem?_eq_some_iff.mp h.2
  have := h.1
  omega

/-- The last name is that of the last thing. -/
theorem named_last (names : List α) (x : α) : Named (names ++ [x]) x (names.length + 1) :=
  ⟨Nat.succ_pos _, List.getElem?_concat_length⟩

/-- With one more name, a thing is one of the others or the last. -/
theorem named_append {x y : α} {n : ℕ} (h : Named (names ++ [y]) x n) :
    Named names x n ∨ x = y ∧ n = names.length + 1 := by
  have hpos := h.1
  have hle := h.le
  rw [List.length_append, List.length_singleton] at hle
  by_cases hn : n ≤ names.length
  · refine Or.inl ⟨hpos, ?_⟩
    rw [← h.2, List.getElem?_append_left (by omega)]
  · obtain rfl : n = names.length + 1 := by omega
    refine Or.inr ⟨?_, rfl⟩
    exact Option.some.inj (h.2.symm.trans (named_last names y).2)

/-- Different things have different names, if no name is drawn twice. -/
theorem biUnique_named (h : names.Nodup) : Relator.BiUnique (Named names) := by
  constructor
  · intro x y n hx hy
    exact Option.some.inj (hx.2.symm.trans hy.2)
  · intro x n m hn hm
    obtain ⟨hlt, -⟩ := List.getElem?_eq_some_iff.mp hn.2
    have heq : n - 1 = m - 1 := (List.getElem?_inj hlt h).mp (hn.2.trans hm.2.symm)
    have hn0 := hn.1
    have hm0 := hm.1
    omega

end Named

/-! ## Lists of names -/

section Lists

variable {α β : Type*} {R : α → β → Prop} {xs : List α} {ys : List β} {x : α} {y : β}

/-- What is in one list has its partner in the other. -/
theorem exists_of_mem (h : List.Forall₂ R xs ys) (hx : x ∈ xs) : ∃ y ∈ ys, R x y := by
  induction h with
  | nil => cases hx
  | @cons a b xs ys hab _ ih =>
    rcases List.mem_cons.mp hx with rfl | hx
    · exact ⟨b, List.mem_cons_self, hab⟩
    · obtain ⟨y, hy, hxy⟩ := ih hx
      exact ⟨y, List.mem_cons_of_mem _ hy, hxy⟩

variable [BEq α] [LawfulBEq α] [BEq β] [LawfulBEq β]

/-- Elements are equal exactly if their partners are. -/
theorem beq_eq (hR : Relator.BiUnique R) {x' : α} {y' : β} (h : R x y) (h' : R x' y') :
    (x == x') = (y == y') := by
  rw [Bool.eq_iff_iff, beq_iff_eq, beq_iff_eq]
  exact Relator.rel_eq hR h h'

/-- Partners occur equally often. -/
theorem count_eq (hR : Relator.BiUnique R) (h : List.Forall₂ R xs ys) (hxy : R x y) :
    xs.count x = ys.count y := by
  induction h with
  | nil => rfl
  | cons hab _ ih => rw [List.count_cons, List.count_cons, ih, beq_eq hR hab hxy]

/-- Without partners, what is left are partners. -/
theorem erase (hR : Relator.BiUnique R) (h : List.Forall₂ R xs ys) (hxy : R x y) :
    List.Forall₂ R (xs.erase x) (ys.erase y) := by
  induction h with
  | nil => exact .nil
  | cons hab hrest ih =>
    rw [List.erase_cons, List.erase_cons, beq_eq hR hab hxy]
    split_ifs
    · exact hrest
    · exact .cons hab ih

end Lists

section Counting

variable {α β : Type*} {R : α → β → Prop} {xs : List α} {ys : List β}

/-- Partners that a test does not tell apart pass it equally often. -/
theorem countP_eq {p : α → Bool} {q : β → Bool} (h : List.Forall₂ R xs ys)
    (hpq : ∀ x y, R x y → p x = q y) : xs.countP p = ys.countP q := by
  induction h with
  | nil => rfl
  | cons hab _ ih => rw [List.countP_cons, List.countP_cons, ih, hpq _ _ hab]

end Counting

/-! ## Lists of tagged names -/

section Tagged

variable {κ α β : Type*} {R : α → β → Prop}

/-- Pairs of the same tag and of names that correspond. -/
def Tagged (R : α → β → Prop) (p : κ × α) (q : κ × β) : Prop := p.1 = q.1 ∧ R p.2 q.2

/-- A correspondence that is one to one is so for tagged names. -/
theorem biUnique_tagged (hR : Relator.BiUnique R) :
    Relator.BiUnique (Tagged R : κ × α → κ × β → Prop) := by
  constructor
  · intro p q r hp hq
    exact Prod.ext (hp.1.trans hq.1.symm) (hR.1 hp.2 hq.2)
  · intro p q r hq hr
    exact Prod.ext (hq.1.symm.trans hr.1) (hR.2 hq.2 hr.2)

/-- The names of tagged names. -/
theorem map_snd {xs : List (κ × α)} {ys : List (κ × β)} (h : List.Forall₂ (Tagged R) xs ys) :
    List.Forall₂ R (xs.map Prod.snd) (ys.map Prod.snd) := by
  rw [List.forall₂_map_left_iff, List.forall₂_map_right_iff]
  exact h.imp fun _ _ hpq => hpq.2

/-- Under the same tag there are partners. -/
theorem lookup [BEq κ] {xs : List (κ × α)} {ys : List (κ × β)}
    (h : List.Forall₂ (Tagged R) xs ys) (k : κ) : Option.Rel R (xs.lookup k) (ys.lookup k) := by
  induction h with
  | nil => exact .none
  | @cons p q xs ys hpq _ ih =>
    obtain ⟨i, a⟩ := p
    obtain ⟨j, b⟩ := q
    obtain ⟨rfl, hab⟩ : i = j ∧ R a b := hpq
    rw [List.lookup_cons, List.lookup_cons]
    split
    · exact .some hab
    · exact ih

end Tagged

end Renaming
