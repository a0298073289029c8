import Mathlib.Data.List.Basic
import Mathlib.Tactic.Common

set_option relaxedAutoImplicit false
set_option autoImplicit false

/-!
# Buffers of segments

A buffer that grows at its end by segments, some of which are records: encodings of values whose
places are noted in a table. The table determines where the records lie, and what lies outside of
them.

## Main definitions

* `Segment` — plain items, or a record.
* `Segment.flatten`, `Segment.marks`, `Segment.plains` — the buffer, the table of its records, and
  what is no record.
* `Segment.outside` — a buffer without some ranges of it.

## Main results

* `Segment.pairwise_marks` — records do not overlap, and the table is in order.
* `Segment.exists_of_mem_marks` — at the place of a record lies its encoding.
* `Segment.outside_marks` — outside of the records lie the plain items, in order.
-/

/-- Plain items, or a record. -/
inductive Segment (α ρ : Type*)
  | plain (items : List α)
  | record (r : ρ)

namespace Segment

variable {α ρ : Type*} (encode : ρ → List α)

/-- The items of a segment. -/
def items : Segment α ρ → List α
  | plain items => items
  | record r => encode r

/-- The buffer that some segments make up. -/
def flatten (segs : List (Segment α ρ)) : List α := segs.flatMap (items encode)

/-- The records of segments behind `n` items, with their places. -/
def marks : ℕ → List (Segment α ρ) → List (ℕ × ρ)
  | _, [] => []
  | n, plain items :: segs => marks (n + items.length) segs
  | n, record r :: segs => (n, r) :: marks (n + (encode r).length) segs

/-- What is no record, in order. -/
def plains : List (Segment α ρ) → List α
  | [] => []
  | plain items :: segs => items ++ plains segs
  | record _ :: segs => plains segs

/-- The records, in order. -/
def records : List (Segment α ρ) → List ρ
  | [] => []
  | plain _ :: segs => records segs
  | record r :: segs => r :: records segs

/-- What a buffer behind `n` items holds outside of some ranges, each given by where it starts and
how long it is. -/
def outside : ℕ → List (ℕ × ℕ) → List α → List α
  | _, [], xs => xs
  | n, (start, length) :: ranges, xs =>
    xs.take (start - n) ++ outside (start + length) ranges (xs.drop (start - n + length))

/-! ## Appended segments -/

/-- The buffer of appended segments. -/
@[simp] theorem flatten_append (segs segs' : List (Segment α ρ)) :
    flatten encode (segs ++ segs') = flatten encode segs ++ flatten encode segs' :=
  List.flatMap_append

/-- The buffer with a segment in front. -/
theorem flatten_cons (s : Segment α ρ) (segs : List (Segment α ρ)) :
    flatten encode (s :: segs) = s.items encode ++ flatten encode segs :=
  List.flatMap_cons

/-- The records of appended segments lie behind those in front. -/
theorem marks_append (n : ℕ) (segs segs' : List (Segment α ρ)) :
    marks encode n (segs ++ segs') =
      marks encode n segs ++ marks encode (n + (flatten encode segs).length) segs' := by
  induction segs generalizing n with
  | nil => rfl
  | cons s segs ih =>
    rw [flatten_cons, List.length_append, ← Nat.add_assoc]
    cases s with
    | plain xs => exact ih _
    | record r => exact congrArg _ (ih _)

/-- What is no record, of appended segments. -/
theorem plains_append (segs segs' : List (Segment α ρ)) :
    plains (segs ++ segs') = plains segs ++ plains segs' := by
  induction segs with
  | nil => rfl
  | cons s segs ih =>
    cases s with
    | plain xs => rw [List.cons_append, plains, plains, ih, List.append_assoc]
    | record r => exact ih

/-- The records of appended segments. -/
theorem records_append (segs segs' : List (Segment α ρ)) :
    records (segs ++ segs') = records segs ++ records segs' := by
  induction segs with
  | nil => rfl
  | cons s segs ih =>
    cases s with
    | plain xs => exact ih
    | record r => exact congrArg _ ih

/-! ## The table -/

/-- The table lists the records in order. -/
theorem map_snd_marks (n : ℕ) (segs : List (Segment α ρ)) :
    (marks encode n segs).map Prod.snd = records segs := by
  induction segs generalizing n with
  | nil => rfl
  | cons s segs ih =>
    cases s with
    | plain xs => exact ih _
    | record r => exact congrArg _ (ih _)

/-- Records lie in the buffer. -/
theorem bounds_of_mem_marks {n : ℕ} {segs : List (Segment α ρ)} {m : ℕ × ρ}
    (h : m ∈ marks encode n segs) :
    n ≤ m.1 ∧ m.1 + (encode m.2).length ≤ n + (flatten encode segs).length := by
  induction segs generalizing n with
  | nil => cases h
  | cons s segs ih =>
    rw [flatten_cons, List.length_append]
    cases s with
    | plain xs =>
      have := ih h
      simp only [items]
      omega
    | record r =>
      simp only [items]
      rcases List.mem_cons.mp h with rfl | h
      · refine ⟨Nat.le_refl _, ?_⟩
        show n + (encode r).length ≤ n + ((encode r).length + (flatten encode segs).length)
        omega
      · have := ih h
        omega

/-- Records do not overlap, and the table is in order. -/
theorem pairwise_marks (n : ℕ) (segs : List (Segment α ρ)) :
    (marks encode n segs).Pairwise fun a b => a.1 + (encode a.2).length ≤ b.1 := by
  induction segs generalizing n with
  | nil => exact List.Pairwise.nil
  | cons s segs ih =>
    cases s with
    | plain xs => exact ih _
    | record r => exact List.pairwise_cons.mpr ⟨fun m hm => (bounds_of_mem_marks encode hm).1, ih _⟩

/-- At the place of a record lies its encoding. -/
theorem exists_of_mem_marks (pre : List α) {segs : List (Segment α ρ)} {m : ℕ × ρ}
    (h : m ∈ marks encode pre.length segs) :
    ∃ before after, pre ++ flatten encode segs = before ++ (encode m.2 ++ after) ∧
      before.length = m.1 := by
  induction segs generalizing pre with
  | nil => cases h
  | cons s segs ih =>
    have hnext : m ∈ marks encode (pre ++ s.items encode).length segs →
        ∃ before after, pre ++ flatten encode (s :: segs) = before ++ (encode m.2 ++ after) ∧
          before.length = m.1 := by
      intro hm
      rw [flatten_cons, ← List.append_assoc]
      exact ih _ hm
    rw [List.length_append] at hnext
    cases s with
    | plain xs => exact hnext h
    | record r =>
      rcases List.mem_cons.mp h with rfl | h
      · exact ⟨pre, flatten encode segs, by rw [flatten_cons]; rfl, rfl⟩
      · exact hnext h

/-! ## Outside of the records -/

/-- Items in front of all ranges lie outside of them. -/
theorem outside_append {n : ℕ} {ranges : List (ℕ × ℕ)} (xs ys : List α)
    (h : ∀ m ∈ ranges, n + xs.length ≤ m.1) :
    outside n ranges (xs ++ ys) = xs ++ outside (n + xs.length) ranges ys := by
  cases ranges with
  | nil => rfl
  | cons m ranges =>
    obtain ⟨start, length⟩ := m
    have hstart : n + xs.length ≤ start := h _ List.mem_cons_self
    have htake : start - n = xs.length + (start - (n + xs.length)) := by omega
    rw [outside, outside, htake, List.take_length_add_append, Nat.add_assoc xs.length,
      List.drop_length_add_append, List.append_assoc]

/-- Outside of the records lie the plain items, in order. -/
theorem outside_marks (n : ℕ) (segs : List (Segment α ρ)) :
    outside n ((marks encode n segs).map fun m => (m.1, (encode m.2).length))
      (flatten encode segs) = plains segs := by
  induction segs generalizing n with
  | nil => rfl
  | cons s segs ih =>
    rw [flatten_cons]
    cases s with
    | plain xs =>
      rw [marks, items, outside_append, plains, ih]
      intro m hm
      obtain ⟨m', hm', rfl⟩ := List.mem_map.mp hm
      exact (bounds_of_mem_marks encode hm').1
    | record r =>
      rw [marks, List.map_cons, outside, items, plains, Nat.sub_self, List.take_zero,
        List.nil_append, Nat.zero_add, List.drop_left]
      exact ih _

end Segment
