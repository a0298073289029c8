import Mathlib.Data.List.Nodup
import Mathlib.Data.List.Perm.Subperm
import Mathlib.Logic.Function.Basic
import Mathlib.Tactic.Common

set_option relaxedAutoImplicit false
set_option autoImplicit false

/-!
# Stations that are passed in order

Things pass the stations of their lives in order, one at a time, and each station keeps a log of what
passed it. At some places a thing is at rest. From there a thread may move it on, and then it is that
thread's to move until it is at rest again, so no two threads move the same thing.

Nothing passes a station twice, and what passed a station passed all before it. So the log of a later
station is the shorter one, and two logs differ by what stands between their stations.

## Main definitions

* `Stations`, `Stations.moveOn` — where things stand, who moves them, and the logs.
* `Stations.Step` — a thread moves a thing that is at rest, or its own.
* `Stations.Kept` — the logs say where things stand, and a thing that is not at rest has one mover.
* `Stations.Tracked` — the stations are those of a system that draws names, and keeps things alive at
  one of the places where they rest.

## Main results

* `Stations.Kept.step`, `Stations.Tracked.move` — this stays so.
* `Stations.Kept.length_le`, `Stations.Kept.exists_between` — the logs of two stations.
-/

/-- The place of each thing, which is the next station it passes; the thing that each thread moves;
and what passed each station, the latest first. -/
structure Stations (τ : Type*) where
  place : ℕ → ℕ
  mover : τ → Option ℕ
  log : ℕ → List ℕ

namespace Stations

variable {τ : Type*}

/-- Everything stands before the first station. -/
def new : Stations τ where
  place _ := 0
  mover _ := none
  log _ := []

variable [DecidableEq τ] (rest : ℕ → Prop) [DecidablePred rest]

/-- The thread `t` moves `k` over the next station, and leaves it there if it is at rest. -/
def moveOn (s : Stations τ) (t : τ) (k : ℕ) : Stations τ where
  place := Function.update s.place k (s.place k + 1)
  mover := Function.update s.mover t (if rest (s.place k + 1) then none else some k)
  log := Function.update s.log (s.place k) (k :: s.log (s.place k))

/-- Nothing moves, or a thread moves its own thing or takes one that is at rest. -/
inductive Step (s : Stations τ) : Stations τ → Prop
  | stay : Step s s
  | move (t : τ) (k : ℕ) (h : s.mover t = some k ∨ s.mover t = none ∧ rest (s.place k)) :
      Step s (s.moveOn rest t k)

/-- The logs list what passed their stations, once; and exactly what is not at rest has a mover, one
only. -/
structure Kept (s : Stations τ) : Prop where
  mem_log : ∀ n k, k ∈ s.log n ↔ n < s.place k
  nodup : ∀ n, (s.log n).Nodup
  moved : ∀ t k, s.mover t = some k → ¬ rest (s.place k)
  mover : ∀ k, ¬ rest (s.place k) → ∃ t, s.mover t = some k
  once : ∀ t t' k, s.mover t = some k → s.mover t' = some k → t = t'

variable {rest} {s s' : Stations τ}

omit [DecidableEq τ] [DecidablePred rest] in
/-- Everything is at rest before the first station. -/
theorem kept_new (h : rest 0) : (new : Stations τ).Kept rest where
  mem_log n k := by simp [new]
  nodup _ := List.nodup_nil
  moved t k ht := by cases ht
  mover k hk := absurd h hk
  once t _ k ht _ := by cases ht

@[simp] theorem moveOn_place_self (s : Stations τ) (t : τ) (k : ℕ) :
    (s.moveOn rest t k).place k = s.place k + 1 := Function.update_self _ _ _

@[simp] theorem moveOn_place_of_ne (s : Stations τ) (t : τ) {j k : ℕ} (h : j ≠ k) :
    (s.moveOn rest t k).place j = s.place j := Function.update_of_ne h _ _

@[simp] theorem moveOn_mover_self (s : Stations τ) (t : τ) (k : ℕ) :
    (s.moveOn rest t k).mover t = if rest (s.place k + 1) then none else some k :=
  Function.update_self _ _ _

@[simp] theorem moveOn_mover_of_ne (s : Stations τ) {t t' : τ} (k : ℕ) (h : t' ≠ t) :
    (s.moveOn rest t k).mover t' = s.mover t' := Function.update_of_ne h _ _

@[simp] theorem moveOn_log_self (s : Stations τ) (t : τ) (k : ℕ) :
    (s.moveOn rest t k).log (s.place k) = k :: s.log (s.place k) := Function.update_self _ _ _

@[simp] theorem moveOn_log_of_ne (s : Stations τ) (t : τ) (k : ℕ) {n : ℕ} (h : n ≠ s.place k) :
    (s.moveOn rest t k).log n = s.log n := Function.update_of_ne h _ _

/-- Things go forward only. -/
theorem place_le_moveOn (s : Stations τ) (t : τ) (j k : ℕ) :
    s.place k ≤ (s.moveOn rest t j).place k := by
  by_cases hk : k = j
  · subst hk
    rw [moveOn_place_self]
    omega
  · exact Nat.le_of_eq (moveOn_place_of_ne s t hk).symm

/-- The log of the station that is passed gets longer. -/
theorem length_moveOn_log (s : Stations τ) (t : τ) (k n : ℕ) :
    ((s.moveOn rest t k).log n).length = (s.log n).length + if s.place k = n then 1 else 0 := by
  by_cases hn : n = s.place k
  · subst hn
    simp
  · rw [moveOn_log_of_ne s t k hn, if_neg (fun h => hn h.symm)]
    rfl

namespace Kept

omit [DecidableEq τ] [DecidablePred rest] in
/-- Nobody else moves a thing that a thread may move. -/
theorem not_mover (hs : s.Kept rest) {t t' : τ} {k : ℕ} (ht : t' ≠ t)
    (h : s.mover t = some k ∨ s.mover t = none ∧ rest (s.place k)) : s.mover t' ≠ some k := by
  intro ht'
  rcases h with h | ⟨-, h⟩
  · exact ht (hs.once t' t k ht' h)
  · exact hs.moved t' k ht' h

/-- **Step.** A move keeps the logs and the movers right. -/
theorem step (hs : s.Kept rest) (h : s.Step rest s') : s'.Kept rest := by
  cases h with
  | stay => exact hs
  | move t k hmove =>
    have hother := fun t' (ht : t' ≠ t) => hs.not_mover ht hmove
    -- what the thread moved before is `k`, so nothing else loses its mover
    have hown : ∀ j, s.mover t = some j → j = k := by
      intro j hj
      rcases hmove with hk | ⟨hnone, -⟩
      · exact Option.some.inj (hj.symm.trans hk)
      · rw [hnone] at hj
        cases hj
    refine ⟨fun n j => ?_, fun n => ?_, fun t' j hj => ?_, fun j hj => ?_, fun t' t'' j hj hj' => ?_⟩
    · by_cases hn : n = s.place k
      · subst hn
        by_cases hjk : j = k
        · subst hjk
          simp
        · simp [hjk, hs.mem_log]
      · rw [moveOn_log_of_ne s t k hn, hs.mem_log]
        by_cases hjk : j = k
        · subst hjk
          rw [moveOn_place_self]
          omega
        · rw [moveOn_place_of_ne s t hjk]
    · by_cases hn : n = s.place k
      · subst hn
        rw [moveOn_log_self]
        refine List.nodup_cons.mpr ⟨fun hmem => ?_, hs.nodup _⟩
        exact absurd ((hs.mem_log _ _).mp hmem) (Nat.lt_irrefl _)
      · rw [moveOn_log_of_ne s t k hn]
        exact hs.nodup n
    · by_cases ht : t' = t
      · subst ht
        rw [moveOn_mover_self] at hj
        split_ifs at hj with hrest
        cases hj
        rwa [moveOn_place_self]
      · rw [moveOn_mover_of_ne s k ht] at hj
        have hjk : j ≠ k := by
          rintro rfl
          exact hother t' ht hj
        rw [moveOn_place_of_ne s t hjk]
        exact hs.moved t' j hj
    · by_cases hjk : j = k
      · subst hjk
        rw [moveOn_place_self] at hj
        exact ⟨t, by rw [moveOn_mover_self, if_neg hj]⟩
      · rw [moveOn_place_of_ne s t hjk] at hj
        obtain ⟨t', ht'⟩ := hs.mover j hj
        have ht : t' ≠ t := by
          rintro rfl
          exact hjk (hown j ht')
        exact ⟨t', by rw [moveOn_mover_of_ne s k ht, ht']⟩
    · -- a mover of `k` behind the step is the thread itself
      have hself : ∀ u, (s.moveOn rest t k).mover u = some k → u = t := by
        intro u hu
        by_contra hne
        rw [moveOn_mover_of_ne s k hne] at hu
        exact hother u hne hu
      have hold : ∀ u, j ≠ k → (s.moveOn rest t k).mover u = some j → s.mover u = some j := by
        intro u hjk hu
        by_cases hut : u = t
        · subst hut
          rw [moveOn_mover_self] at hu
          split_ifs at hu
          exact absurd (Option.some.inj hu).symm hjk
        · rwa [moveOn_mover_of_ne s k hut] at hu
      by_cases hjk : j = k
      · subst hjk
        rw [hself t' hj, hself t'' hj']
      · exact hs.once t' t'' j (hold t' hjk hj) (hold t'' hjk hj')

omit [DecidableEq τ] [DecidablePred rest]

/-- What passed a station passed all before it. -/
theorem log_subset (hs : s.Kept rest) {m n : ℕ} (h : m ≤ n) : s.log n ⊆ s.log m := by
  intro k hk
  rw [hs.mem_log] at hk ⊢
  omega

/-- The log of a later station is not longer. -/
theorem length_le (hs : s.Kept rest) {m n : ℕ} (h : m ≤ n) : (s.log n).length ≤ (s.log m).length :=
  ((hs.nodup n).subperm (hs.log_subset h)).length_le

/-- It is shorter by what stands between the two stations. -/
theorem exists_between (hs : s.Kept rest) {m n : ℕ} (h : m ≤ n) :
    ∃ between : List ℕ, between.Nodup ∧ (∀ k, k ∈ between ↔ m < s.place k ∧ s.place k ≤ n) ∧
      (s.log m).length = (s.log n).length + between.length := by
  refine ⟨(s.log m).filter fun k => !decide (n < s.place k), (hs.nodup m).filter _, fun k => ?_, ?_⟩
  · rw [List.mem_filter, hs.mem_log]
    simp
  · have hpassed : ((s.log m).filter fun k => decide (n < s.place k)).Perm (s.log n) := by
      refine (List.perm_ext_iff_of_nodup ((hs.nodup m).filter _) (hs.nodup n)).mpr fun k => ?_
      rw [List.mem_filter, hs.mem_log, hs.mem_log, decide_eq_true_iff]
      omega
    rw [← hpassed.length_eq, List.length_eq_length_filter_add fun k => decide (n < s.place k)]

/-- It is as long if nothing stands between them. -/
theorem length_eq (hs : s.Kept rest) {m n : ℕ} (h : m ≤ n)
    (hnone : ∀ k, s.place k ≤ m ∨ n < s.place k) : (s.log m).length = (s.log n).length := by
  obtain ⟨between, -, hmem, hlength⟩ := hs.exists_between h
  have hempty : between = [] := by
    rw [List.eq_nil_iff_forall_not_mem]
    intro k hk
    have hbetween := (hmem k).mp hk
    have hplace := hnone k
    omega
  rw [hlength, hempty, List.length_nil, Nat.add_zero]

end Kept

/-! ## Systems -/

/-- The stations are those of a system. It knows of each thread what it moves and from where; what is
`alive` stands at `home`; and names from `next` on are new. -/
structure Tracked (rest : ℕ → Prop) (home : ℕ) (station : τ → Option (ℕ × ℕ)) (alive : ℕ → Prop)
    (next : ℕ) (s : Stations τ) : Prop where
  kept : s.Kept rest
  mover : ∀ t, s.mover t = (station t).map Prod.fst
  place : ∀ t k n, station t = some (k, n) → s.place k = n
  alive : ∀ k, alive k ↔ s.place k = home
  fresh : ∀ k, next ≤ k → s.place k = 0

namespace Tracked

variable {home next next' : ℕ} {station : τ → Option (ℕ × ℕ)} {alive alive' : ℕ → Prop}

omit [DecidableEq τ] [DecidablePred rest] in
/-- A system in which nothing was drawn. -/
theorem new (h : rest 0) (hhome : home ≠ 0) (hstation : ∀ t, station t = none)
    (halive : ∀ k, ¬ alive k) : Tracked rest home station alive next (Stations.new : Stations τ) where
  kept := kept_new h
  mover t := by rw [hstation t]; rfl
  place t k n ht := by rw [hstation t] at ht; cases ht
  alive k := by
    refine iff_of_false (halive k) fun hk => ?_
    exact hhome hk.symm
  fresh _ _ := rfl

omit [DecidableEq τ] [DecidablePred rest] in
/-- Where the thing of a thread stands, or one that it may take. -/
theorem place_of_move (hs : Tracked rest home station alive next s) {t : τ} {k n : ℕ}
    (h : station t = some (k, n) ∨ station t = none ∧ s.place k = n ∧ rest n) : s.place k = n := by
  rcases h with h | ⟨-, h, -⟩
  · exact hs.place t k n h
  · exact h

omit [DecidableEq τ] [DecidablePred rest] in
/-- What is not at rest is at the station of a thread. -/
theorem place_eq_iff (hs : Tracked rest home station alive next s) {k n : ℕ} (hn : ¬ rest n) :
    s.place k = n ↔ ∃ t, station t = some (k, n) := by
  refine ⟨?_, fun ⟨t, ht⟩ => hs.place t k n ht⟩
  rintro rfl
  obtain ⟨t, ht⟩ := hs.kept.mover k hn
  rw [hs.mover t] at ht
  obtain ⟨⟨j, m⟩, hstation, rfl⟩ := Option.map_eq_some_iff.mp ht
  exact ⟨t, by rw [hstation, hs.place t j m hstation]⟩

omit [DecidableEq τ] [DecidablePred rest] in
/-- When no thread moves anything, everything is at rest. -/
theorem rest_of_idle (hs : Tracked rest home station alive next s) (h : ∀ t, station t = none)
    (k : ℕ) : rest (s.place k) := by
  by_contra hmoves
  obtain ⟨t, ht⟩ := (hs.place_eq_iff hmoves).mp rfl
  rw [h t] at ht
  cases ht

omit [DecidableEq τ] [DecidablePred rest] in
/-- What has left its first place has a name. -/
theorem lt_next (hs : Tracked rest home station alive next s) {k : ℕ} (hk : s.place k ≠ 0) :
    k < next := by
  by_contra hle
  exact hk (hs.fresh k (Nat.not_lt.mp hle))

omit [DecidableEq τ] [DecidablePred rest] in
/-- What a thread may move is one of its stations. -/
theorem may_move (hs : Tracked rest home station alive next s) {t : τ} {k n : ℕ}
    (h : station t = some (k, n) ∨ station t = none ∧ s.place k = n ∧ rest n) :
    s.mover t = some k ∨ s.mover t = none ∧ rest (s.place k) := by
  rw [hs.mover t, hs.place_of_move h]
  refine h.imp ?_ ?_
  · intro h
    rw [h]
    rfl
  · rintro ⟨h, -, hrest⟩
    exact ⟨by rw [h]; rfl, hrest⟩

/-- **Step.** A thread moves a thing on; a thing that it takes from the start gets the next name. -/
theorem move (hs : Tracked rest home station alive next s) {t : τ} {k n : ℕ}
    (h : station t = some (k, n) ∨ station t = none ∧ s.place k = n ∧ rest n)
    (halive : ∀ j, alive' j ↔ alive j ∧ ¬ (j = k ∧ n = home) ∨ j = k ∧ n + 1 = home)
    (hnext : next' = next + if n = 0 then 1 else 0) (hnew : n = 0 → k = next) :
    Tracked rest home (Function.update station t (if rest (n + 1) then none else some (k, n + 1)))
      alive' next' (s.moveOn rest t k) := by
  have hplace := hs.place_of_move h
  have hmay := hs.may_move h
  refine ⟨hs.kept.step (.move t k hmay), fun u => ?_, fun u j m hu => ?_, fun j => ?_,
    fun j hj => ?_⟩
  · by_cases hut : u = t
    · subst hut
      rw [moveOn_mover_self, Function.update_self, hplace]
      split_ifs <;> rfl
    · rw [moveOn_mover_of_ne s k hut, Function.update_of_ne hut, hs.mover u]
  · by_cases hut : u = t
    · subst hut
      rw [Function.update_self] at hu
      split_ifs at hu
      cases hu
      rw [moveOn_place_self, hplace]
    · rw [Function.update_of_ne hut] at hu
      have hjk : j ≠ k := by
        rintro rfl
        exact hs.kept.not_mover hut hmay (by rw [hs.mover u, hu]; rfl)
      rw [moveOn_place_of_ne s t hjk]
      exact hs.place u j m hu
  · rw [halive j]
    by_cases hjk : j = k
    · subst hjk
      rw [moveOn_place_self, hs.alive j]
      omega
    · rw [moveOn_place_of_ne s t hjk, ← hs.alive j]
      simp [hjk]
  · have hjk : j ≠ k := by
      rintro rfl
      by_cases hn : n = 0
      · have hj' := hnew hn
        rw [if_pos hn] at hnext
        omega
      · rw [if_neg hn] at hnext
        have hzero := hs.fresh j (by omega)
        omega
    rw [moveOn_place_of_ne s t hjk]
    exact hs.fresh j (by omega)

end Tracked

end Stations
