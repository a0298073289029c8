import Mathlib.Data.List.Induction
import Mathlib.Data.List.Nodup
import BinderBinder.Lib.Run

set_option relaxedAutoImplicit false
set_option autoImplicit false

/-!
# Brackets that are closed in order

Events open something, or close what was opened last. A word of such events is read from the left;
an event that closes is matched with what is innermost at that moment, so a word can only be read
if something is open at each of them.

## Main definitions

* `Nest.Bracket`, `Nest` — the events, and what is open and what was matched.
* `Nest.step`, `Nest.read` — one event, and a word of them.
* `Nest.Balanced` — everything that a word opens it closes, in order.
* `Nest.Spans` — what was opened and what closed it, with a balanced word in between.
* `Nest.partners` — what closed something.

## Main results

* `Nest.Reads.of_read` — what reading a word finds.
* `Nest.Reads.partners` — what was opened once is open, or was closed once.
-/

/-- An event that opens something, or closes what was opened last. -/
inductive Nest.Bracket (α β : Type*)
  | opens (a : α)
  | closes (b : β)

/-- What is open, the last first, and what was matched with what, in the order of the closing. -/
structure Nest (α β : Type*) where
  opened : List α
  matched : List (α × β)

namespace Nest

variable {α β : Type*}

/-- One event; `none` if nothing is open that it could close. -/
def step (n : Nest α β) : Bracket α β → Option (Nest α β)
  | .opens a => some { n with opened := a :: n.opened }
  | .closes b =>
    match n.opened with
    | a :: rest => some ⟨rest, n.matched ++ [(a, b)]⟩
    | [] => none

/-- A word of events, from the left. -/
def read (word : List (Bracket α β)) : Option (Nest α β) := Run.exec step ⟨[], []⟩ word

/-- What a word opens, in order. -/
def opensOf (word : List (Bracket α β)) : List α :=
  word.filterMap fun
    | .opens a => some a
    | .closes _ => none

/-- What a word closes with, in order. -/
def closesOf (word : List (Bracket α β)) : List β :=
  word.filterMap fun
    | .opens _ => none
    | .closes b => some b

@[simp] theorem opensOf_append (u v : List (Bracket α β)) :
    opensOf (u ++ v) = opensOf u ++ opensOf v :=
  List.filterMap_append

@[simp] theorem closesOf_append (u v : List (Bracket α β)) :
    closesOf (u ++ v) = closesOf u ++ closesOf v :=
  List.filterMap_append

/-- What closed something. -/
def partners [DecidableEq α] (n : Nest α β) (a : α) : List β :=
  (n.matched.filter fun m => m.1 = a).map Prod.snd

/-! ## Words -/

/-- Everything that a word opens it closes, in order. -/
inductive Balanced : List (Bracket α β) → Prop
  | nil : Balanced []
  | span (a : α) (b : β) {inner rest : List (Bracket α β)} (hinner : Balanced inner)
      (hrest : Balanced rest) : Balanced (.opens a :: (inner ++ .closes b :: rest))

/-- A word opens these, the last first, and does not close them; between them it is balanced. -/
inductive Opened : List α → List (Bracket α β) → Prop
  | balanced {word : List (Bracket α β)} (h : Balanced word) : Opened [] word
  | opens (a : α) {as : List α} {before word : List (Bracket α β)} (hbefore : Opened as before)
      (h : Balanced word) : Opened (a :: as) (before ++ .opens a :: word)

/-- Somewhere in a word `b` closes `a`, and what is between them is balanced. -/
def Spans (a : α) (b : β) (word : List (Bracket α β)) : Prop :=
  ∃ before inner after, word = before ++ .opens a :: (inner ++ .closes b :: after) ∧ Balanced inner

/-- A balanced word behind a balanced word.

**Proof sketch.** Induction on the first word: what is behind its last span is appended to. -/
theorem Balanced.append {u v : List (Bracket α β)} (hu : Balanced u) (hv : Balanced v) :
    Balanced (u ++ v) := by
  induction hu with
  | nil => exact hv
  | span a b hinner _ _ ih =>
    rw [List.cons_append, List.append_assoc, List.cons_append]
    exact .span a b hinner ih

/-- A balanced word opens nothing that it leaves open. -/
theorem Opened.append {as : List α} {u v : List (Bracket α β)} (hu : Opened as u)
    (hv : Balanced v) : Opened as (u ++ v) := by
  cases hu with
  | balanced h => exact .balanced (h.append hv)
  | opens a hbefore h =>
    rw [List.append_assoc, List.cons_append]
    exact .opens a hbefore (h.append hv)

/-- An event closes the innermost of what is open, with a balanced word in between. -/
theorem Opened.close {a : α} {as : List α} {word : List (Bracket α β)} (h : Opened (a :: as) word)
    (b : β) : Opened as (word ++ [.closes b]) ∧ Spans a b (word ++ [.closes b]) := by
  cases h with
  | @opens _ _ before inner hbefore hinner =>
    have hword : before ++ .opens a :: inner ++ [.closes b] =
        before ++ .opens a :: (inner ++ [.closes b]) := by
      rw [List.append_assoc, List.cons_append]
    rw [hword]
    exact ⟨hbefore.append (.span a b hinner .nil), before, inner, [], rfl, hinner⟩

/-- What closes something still does when the word goes on. -/
theorem Spans.append {a : α} {b : β} {word : List (Bracket α β)} (h : Spans a b word)
    (more : List (Bracket α β)) : Spans a b (word ++ more) := by
  obtain ⟨before, inner, after, rfl, hinner⟩ := h
  refine ⟨before, inner, after ++ more, ?_, hinner⟩
  simp only [List.append_assoc, List.cons_append]

/-! ## Reading -/

/-- A longer word is read event by event. -/
theorem read_concat (word : List (Bracket α β)) (e : Bracket α β) :
    read (word ++ [e]) = (read word).bind fun n => n.step e := by
  rw [read, Run.exec_append]
  refine congrArg _ (funext fun n => ?_)
  rw [Run.exec_cons]
  exact Option.bind_fun_some _

/-- What reading a word finds: what is open has not been closed, what was matched is closed in
order, and every event is one of a pair or has opened what is still open. -/
structure Reads (word : List (Bracket α β)) (n : Nest α β) : Prop where
  opened : Opened n.opened word
  spans : ∀ m ∈ n.matched, Spans m.1 m.2 word
  opens : (n.opened ++ n.matched.map Prod.fst).Perm (opensOf word)
  closes : n.matched.map Prod.snd = closesOf word

/-- Before the first event nothing is open. -/
theorem Reads.nil : Reads ([] : List (Bracket α β)) ⟨[], []⟩ :=
  ⟨.balanced .nil, fun _ hm => (by cases hm), .refl _, rfl⟩

/-- **Step.** One more event. -/
theorem Reads.step {word : List (Bracket α β)} {n n' : Nest α β} (h : Reads word n)
    {e : Bracket α β} (hstep : n.step e = some n') : Reads (word ++ [e]) n' := by
  cases e with
  | opens a =>
    cases hstep
    refine ⟨.opens a h.opened .nil, fun m hm => (h.spans m hm).append _, ?_, ?_⟩
    · rw [opensOf_append]
      exact (h.opens.cons a).trans (List.perm_append_singleton a _).symm
    · rw [closesOf_append]
      exact h.closes.trans (List.append_nil _).symm
  | closes b =>
    obtain ⟨opened, matched⟩ := n
    cases opened with
    | nil => cases hstep
    | cons a as =>
      cases hstep
      obtain ⟨hopened, hspan⟩ := h.opened.close b
      refine ⟨hopened, ?_, ?_, ?_⟩
      · intro m hm
        rcases List.mem_append.mp hm with hm | hm
        · exact (h.spans m hm).append _
        · rw [List.mem_singleton.mp hm]
          exact hspan
      · rw [opensOf_append]
        -- what was open is matched now
        have hmove : (as ++ (matched ++ [(a, b)]).map Prod.fst).Perm
            (a :: as ++ matched.map Prod.fst) := by
          rw [List.map_append, ← List.append_assoc]
          exact List.perm_append_singleton a _
        exact (hmove.trans h.opens).trans (.of_eq (List.append_nil _).symm)
      · rw [closesOf_append, List.map_append]
        exact congrArg (· ++ [b]) h.closes

/-- What reading a word finds.

**Proof sketch.** Induction on the word from its end. -/
theorem Reads.of_read {word : List (Bracket α β)} {n : Nest α β} (h : read word = some n) :
    Reads word n := by
  induction word using List.reverseRecOn generalizing n with
  | nil =>
    cases h
    exact .nil
  | append_singleton word e ih =>
    rw [read_concat] at h
    obtain ⟨n₀, hn₀, hstep⟩ := Option.bind_eq_some_iff.mp h
    exact (ih hn₀).step hstep

/-! ## Partners -/

section Partners

variable [DecidableEq α] {n : Nest α β} {word : List (Bracket α β)} {a : α}

/-- What is a partner of something was matched with it. -/
theorem mem_partners {b : β} : b ∈ n.partners a ↔ (a, b) ∈ n.matched := by
  simp [partners]

/-- What was not matched has no partner. -/
theorem partners_eq_nil (h : a ∉ n.matched.map Prod.fst) : n.partners a = [] := by
  rw [List.eq_nil_iff_forall_not_mem]
  intro b hb
  exact h (List.mem_map.mpr ⟨(a, b), mem_partners.mp hb, rfl⟩)

/-- What was matched once has one partner. -/
theorem exists_partners_eq (hnodup : (n.matched.map Prod.fst).Nodup)
    (h : a ∈ n.matched.map Prod.fst) : ∃ b, n.partners a = [b] := by
  have hcount := List.count_eq_one_of_mem hnodup h
  have hlen : (n.partners a).length = 1 := by
    rw [partners, List.length_map, ← List.countP_eq_length_filter, ← hcount, List.count,
      List.countP_map]
    exact List.countP_congr fun m _ => by simp
  exact List.length_eq_one_iff.mp hlen

/-- What was opened once is open, or was closed once; what was not opened is neither. -/
theorem Reads.partners (h : Reads word n) (hnodup : (opensOf word).Nodup) :
    (a ∈ opensOf word → a ∈ n.opened ∧ n.partners a = [] ∨
      a ∉ n.opened ∧ ∃ b, n.partners a = [b]) ∧
    (a ∉ opensOf word → a ∉ n.opened ∧ n.partners a = []) := by
  have hboth := h.opens.nodup_iff.mpr hnodup
  have hdisjoint := List.disjoint_of_nodup_append hboth
  rw [← h.opens.mem_iff, List.mem_append]
  constructor
  · rintro (hopen | hmatched)
    · exact Or.inl ⟨hopen, partners_eq_nil (hdisjoint hopen)⟩
    · exact Or.inr ⟨fun hopen => hdisjoint hopen hmatched,
        exists_partners_eq (List.Nodup.of_append_right hboth) hmatched⟩
  · intro hnot
    rw [not_or] at hnot
    exact ⟨hnot.1, partners_eq_nil hnot.2⟩

end Partners

end Nest
