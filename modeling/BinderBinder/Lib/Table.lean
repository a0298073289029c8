import Mathlib.Data.List.Forall2
import Mathlib.Tactic.Common

set_option relaxedAutoImplicit false
set_option autoImplicit false

/-!
# Entries of a table

A table is a list whose entries are named by their positions. Some of the entries are selected, with
their positions; and a table of increasing multiples puts its entries at least so far apart.

## Main definitions

* `Table.select` — what a partial function gives on the entries, with their positions.

## Main results

* `Table.pairwise_selectFrom` — entries are selected in order.
* `Table.select_append` — the entries behind others come with shifted positions.
* `Table.select_eq_of_forall₂` — tables of related entries select the same.
* `Table.filter_eraseIdx_of_not`, `Table.filter_eraseIdx_of_replicate` — an entry less.
* `Table.mul_le_of_pairwise` — the `i`-th of increasing multiples of `a` is at least `a * i`.
-/

namespace Table

variable {α β γ : Type*}

/-- What `f` gives on the entries of a table whose first position is `n`. -/
def selectFrom (f : α → Option β) (n : ℕ) (xs : List α) : List (ℕ × β) :=
  (xs.zipIdx n).filterMap fun x => (f x.1).map fun b => (x.2, b)

/-- What `f` gives on the entries of a table, with their positions. -/
def select (f : α → Option β) (xs : List α) : List (ℕ × β) := selectFrom f 0 xs

variable {f : α → Option β} {g : γ → Option β}

/-- The first entry of a table, and those behind it. -/
theorem selectFrom_cons (n : ℕ) (a : α) (xs : List α) :
    selectFrom f n (a :: xs) =
      ((f a).map fun b => (n, b)).toList ++ selectFrom f (n + 1) xs := by
  rw [selectFrom, List.zipIdx_cons, List.filterMap_cons]
  cases f a <;> rfl

/-- Entries are selected in the order of their positions. -/
theorem pairwise_selectFrom (n : ℕ) (xs : List α) :
    ((selectFrom f n xs).map Prod.fst).Pairwise (· < ·) := by
  have hsub : ((selectFrom f n xs).map Prod.fst).Sublist (List.range' n xs.length) := by
    induction xs generalizing n with
    | nil => simp [selectFrom]
    | cons a xs ih =>
      rw [selectFrom_cons, List.map_append, List.length_cons, List.range'_succ]
      cases f a with
      | none => exact (ih (n + 1)).cons n
      | some b => exact (ih (n + 1)).cons_cons n
  exact List.Pairwise.sublist hsub List.pairwise_lt_range'

/-- The entries behind others come with shifted positions. -/
theorem select_append (xs ys : List α) :
    select f (xs ++ ys) = select f xs ++ selectFrom f xs.length ys := by
  rw [select, selectFrom, List.zipIdx_append, List.filterMap_append, Nat.zero_add]
  rfl

/-- A table of one entry that is selected. -/
theorem selectFrom_singleton {n : ℕ} {a : α} {b : β} (h : f a = some b) :
    selectFrom f n [a] = [(n, b)] := by
  simp [selectFrom, h]

/-- Entries on which the function is not defined are not selected. -/
theorem selectFrom_eq_nil {n : ℕ} {xs : List α} (h : ∀ a ∈ xs, f a = none) :
    selectFrom f n xs = [] := by
  rw [selectFrom, List.filterMap_eq_nil_iff]
  rintro ⟨a, i⟩ hmem
  rw [h a (List.fst_mem_of_mem_zipIdx hmem)]
  rfl

/-- Tables of related entries select the same. -/
theorem select_eq_of_forall₂ {R : α → γ → Prop} {xs : List α} {ys : List γ}
    (h : List.Forall₂ R xs ys) (hfg : ∀ a c, R a c → f a = g c) : select f xs = select g ys := by
  suffices hfrom : ∀ n, selectFrom f n xs = selectFrom g n ys from hfrom 0
  induction h with
  | nil =>
    intro n
    rfl
  | cons hac _ ih =>
    intro n
    rw [selectFrom_cons, selectFrom_cons, hfg _ _ hac, ih]

/-- The `i`-th of increasing multiples of `a` is at least `a * i`.

**Proof sketch.** Induction on the position: the next multiple is above the one before it, so by at
least `a`. -/
theorem mul_le_of_pairwise {a : ℕ} {offsets : List ℕ} (hinc : offsets.Pairwise (· < ·))
    (hdvd : ∀ off ∈ offsets, a ∣ off) {i off : ℕ} (h : offsets[i]? = some off) : a * i ≤ off := by
  induction i generalizing off with
  | zero => simp
  | succ i ih =>
    obtain ⟨hi, rfl⟩ := List.getElem?_eq_some_iff.mp h
    have hi' : i < offsets.length := by omega
    have hprev : a * i ≤ offsets[i] := ih (List.getElem?_eq_getElem hi')
    have hlt : offsets[i] < offsets[i + 1] :=
      List.pairwise_iff_getElem.mp hinc i (i + 1) hi' hi (Nat.lt_succ_self i)
    obtain ⟨m, hm⟩ := hdvd _ (List.getElem_mem hi)
    rw [hm] at hlt ⊢
    have him : i < m := Nat.lt_of_mul_lt_mul_left (Nat.lt_of_le_of_lt hprev hlt)
    exact Nat.mul_le_mul_left a him

section Erase

variable {P : α → Bool} {xs : List α} {j : ℕ} {x : α}

/-- A list around one of its positions. -/
theorem exists_eraseIdx (h : xs[j]? = some x) :
    ∃ before after, xs = before ++ x :: after ∧ xs.eraseIdx j = before ++ after := by
  obtain ⟨hj, rfl⟩ := List.getElem?_eq_some_iff.mp h
  refine ⟨xs.take j, xs.drop (j + 1), ?_, List.eraseIdx_eq_take_drop_succ xs j⟩
  rw [← List.drop_eq_getElem_cons hj, List.take_append_drop]

/-- What a test does not select is not missed by it. -/
theorem filter_eraseIdx_of_not (h : xs[j]? = some x) (hP : P x = false) :
    (xs.eraseIdx j).filter P = xs.filter P := by
  obtain ⟨before, after, hxs, herase⟩ := exists_eraseIdx h
  rw [herase, hxs, List.filter_append, List.filter_append, List.filter_cons_of_neg (by simp [hP])]

/-- Where a test selects one thing only, it selects one less. -/
theorem filter_eraseIdx_of_replicate (h : xs[j]? = some x) (hP : P x = true) {n : ℕ}
    (hall : xs.filter P = List.replicate (n + 1) x) :
    (xs.eraseIdx j).filter P = List.replicate n x := by
  obtain ⟨before, after, hxs, herase⟩ := exists_eraseIdx h
  rw [hxs, List.filter_append, List.filter_cons_of_pos hP] at hall
  rw [herase, List.filter_append]
  obtain ⟨hlength, hmem⟩ := List.eq_replicate_iff.mp hall
  refine List.eq_replicate_iff.mpr ⟨?_, fun y hy => hmem y ?_⟩
  · simp only [List.length_append, List.length_cons] at hlength ⊢
    omega
  · rw [List.mem_append] at hy ⊢
    exact hy.imp_right (List.mem_cons_of_mem x)

end Erase

end Table
