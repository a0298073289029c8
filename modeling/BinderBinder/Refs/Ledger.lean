import BinderBinder.Lib.Stations
import BinderBinder.Refs.Life

set_option relaxedAutoImplicit false
set_option autoImplicit false

/-!
# The strong counts of references

A reference takes a strong count of its handle when it is made and gives it back when it is dropped.
It passes the commands for this, its entries and its field in order, each at most once, whichever
threads move it on; so what was written says how many references are alive or on their way.

## Main definitions

* `RefPhase.refAt` — the reference that a thread works on, and the station it passes next.
* `RemoteHandle.RefLedger` — the references stand where the commands, the fields and `refs` say.

## Main results

* `RemoteHandle.refs_step` — a step of a thread leaves the references alone or moves one on.
* `RemoteHandle.RefLedger.step` — so there is a ledger behind every step.
-/

namespace BinderBinder

/-! ## Stations -/

/-- The reference that a thread works on, and the station it passes next: `ACQUIRE` (1), the insertion
into `refs` (2), `RELEASE` (4), `refs.remove_if` (5), the drop of the field `weak` (6). It gets its
name and its field at 0, and its last handle is dropped at 3. -/
def RefPhase.refAt : RefPhase → Option (ℕ × ℕ)
  | .acquiring i => some (i, 1)
  | .insertingRef i => some (i, 2)
  | .releasing i => some (i, 4)
  | .evictingRef i => some (i, 5)
  | .droppingField i => some (i, 6)
  | _ => none

/-- Where no thread works on a reference: it is not made yet, it is alive, or it is gone. -/
def RefRest (n : ℕ) : Prop := n = 0 ∨ n = 3 ∨ 7 ≤ n

/-- Whether a reference is at rest is decided by its place. -/
instance : DecidablePred RefRest := fun n => inferInstanceAs (Decidable (n = 0 ∨ n = 3 ∨ 7 ≤ n))

/-- A command that takes or gives back a strong count. -/
def Command.isStrong : Command → Bool
  | .acquire _ | .release _ => true
  | _ => false

namespace RemoteHandle

/-- The strong counts of the handle that were taken. -/
def acquired (s : RemoteHandle) : ℕ := s.written.count (.acquire s.handle)

/-- The strong counts of the handle that were given back. -/
def released (s : RemoteHandle) : ℕ := s.written.count (.release s.handle)

/-! ## References -/

/-- The references stand where the commands, the fields and `refs` say. -/
structure RefLedger (s : RemoteHandle) (p : Stations ℕ) : Prop where
  tracked : p.Tracked RefRest 3 (RefPhase.refAt ∘ s.phase) s.RefAlive s.nextRef
  acquired : s.acquired = (p.log 1).length
  released : s.released = (p.log 4).length
  field : ∀ i, i ∈ s.weakFields.map Prod.fst ↔ 0 < p.place i ∧ p.place i < 7
  fields : (s.weakFields.map Prod.fst).Nodup
  mapped : ∀ i, s.refs = some i → 3 ≤ p.place i ∧ p.place i < 6

/-- Nothing happens to a reference. -/
structure SameRefs (s s' : RemoteHandle) : Prop where
  phase : RefPhase.refAt ∘ s'.phase = RefPhase.refAt ∘ s.phase
  alive : s'.RefAlive = s.RefAlive := by rfl
  nextRef : s'.nextRef = s.nextRef := by rfl
  acquired : s'.acquired = s.acquired := by rfl
  released : s'.released = s.released := by rfl
  weakFields : s'.weakFields = s.weakFields := by rfl
  refs : s'.refs = s.refs := by rfl

/-- The thread `t` moves the reference `i` over station `n`. -/
structure MovesRef (s s' : RemoteHandle) (t i n : ℕ) : Prop where
  station : (s.phase t).refAt = some (i, n) ∨
    (s.phase t).refAt = none ∧ (n = 0 ∧ i = s.nextRef ∨ n = 3 ∧ s.RefAlive i)
  phase : RefPhase.refAt ∘ s'.phase = Function.update (RefPhase.refAt ∘ s.phase) t
    (if RefRest (n + 1) then none else some (i, n + 1))
  alive : ∀ j, s'.RefAlive j ↔ s.RefAlive j ∧ ¬ (j = i ∧ n = 3) ∨ j = i ∧ n + 1 = 3
  nextRef : s'.nextRef = s.nextRef + if n = 0 then 1 else 0
  acquired : s'.acquired = s.acquired + if n = 1 then 1 else 0
  released : s'.released = s.released + if n = 4 then 1 else 0
  field : (s.weakFields.map Prod.fst).Nodup → ∀ j, j ∈ s'.weakFields.map Prod.fst ↔
    j ∈ s.weakFields.map Prod.fst ∧ ¬ (j = i ∧ n = 6) ∨ j = i ∧ n = 0
  fields : (s.weakFields.map Prod.fst).Nodup → i ∉ s.weakFields.map Prod.fst ∨ n ≠ 0 →
    (s'.weakFields.map Prod.fst).Nodup
  refs : ∀ j, s'.refs = some j →
    s.refs = some j ∧ ¬ (j = i ∧ n = 5 ∧ ¬ s.RefAlive i) ∨ j = i ∧ n = 2

/-- Nothing was decoded yet. -/
theorem refLedger_new (handle : UInt32) : (new handle).RefLedger Stations.new where
  tracked := .new (Or.inl rfl) (by decide) (fun _ => rfl) (not_refAlive_new handle)
  acquired := rfl
  released := rfl
  field i := by simp [new, Stations.new]
  fields := List.nodup_nil
  mapped i hi := by cases hi

namespace RefLedger

variable {s s' : RemoteHandle} {p : Stations ℕ}

/-- A step that leaves the references alone. -/
theorem stay (hs : s.RefLedger p) (h : s.SameRefs s') : s'.RefLedger p where
  tracked := by
    rw [h.phase, h.alive, h.nextRef]
    exact hs.tracked
  acquired := h.acquired.trans hs.acquired
  released := h.released.trans hs.released
  field i := by rw [h.weakFields, hs.field i]
  fields := by
    rw [h.weakFields]
    exact hs.fields
  mapped i hi := hs.mapped i (h.refs ▸ hi)

/-- **Step.** A step that moves a reference on. -/
theorem move (hs : s.RefLedger p) {t i n : ℕ} (h : s.MovesRef s' t i n) :
    s'.RefLedger (p.moveOn RefRest t i) := by
  have hmay : (s.phase t).refAt = some (i, n) ∨
      (s.phase t).refAt = none ∧ p.place i = n ∧ RefRest n := by
    refine h.station.imp_right ?_
    rintro ⟨hnone, ⟨rfl, rfl⟩ | ⟨rfl, halive⟩⟩
    · exact ⟨hnone, hs.tracked.fresh _ (Nat.le_refl _), Or.inl rfl⟩
    · exact ⟨hnone, (hs.tracked.alive i).mp halive, Or.inr (Or.inl rfl)⟩
  have hplace : p.place i = n := hs.tracked.place_of_move hmay
  have hnew : n = 0 → i = s.nextRef := by
    rintro rfl
    rcases h.station with hi | ⟨-, ⟨-, hi⟩ | ⟨h0, -⟩⟩
    · cases hphase : s.phase t <;> rw [hphase] at hi <;> cases hi
    · exact hi
    · cases h0
  refine ⟨?_, ?_, ?_, fun j => ?_, ?_, fun j hj => ?_⟩
  · rw [h.phase]
    exact hs.tracked.move hmay h.alive h.nextRef hnew
  · rw [h.acquired, hs.acquired, Stations.length_moveOn_log, hplace]
  · rw [h.released, hs.released, Stations.length_moveOn_log, hplace]
  · rw [h.field hs.fields j, hs.field j]
    by_cases hj : j = i
    · subst hj
      rw [Stations.moveOn_place_self]
      omega
    · rw [Stations.moveOn_place_of_ne p t hj]
      simp [hj]
  · refine h.fields hs.fields ?_
    rw [hs.field i]
    omega
  · by_cases hji : j = i
    · subst hji
      rw [Stations.moveOn_place_self]
      rcases h.refs j hj with ⟨hold, hne⟩ | ⟨-, rfl⟩
      · have hmapped := hs.mapped j hold
        have halive := hs.tracked.alive j
        have hn : n ≠ 5 := by
          rintro rfl
          exact hne ⟨rfl, rfl, fun ha => by have hthree := halive.mp ha; omega⟩
        omega
      · omega
    · rw [Stations.moveOn_place_of_ne p t hji]
      rcases h.refs j hj with ⟨hold, -⟩ | ⟨rfl, -⟩
      · exact hs.mapped j hold
      · exact absurd rfl hji

end RefLedger

/-! ### What a step does -/

/-- One step after another. -/
theorem SameRefs.trans {s s' s'' : RemoteHandle} (h : s.SameRefs s') (h' : s'.SameRefs s'') :
    s.SameRefs s'' where
  phase := h'.phase.trans h.phase
  alive := h'.alive.trans h.alive
  nextRef := h'.nextRef.trans h.nextRef
  acquired := h'.acquired.trans h.acquired
  released := h'.released.trans h.released
  weakFields := h'.weakFields.trans h.weakFields
  refs := h'.refs.trans h.refs

/-- A reference is moved on behind a step that left the references alone. -/
theorem SameRefs.moves {s s₀ s' : RemoteHandle} {t i n : ℕ} (h : s.SameRefs s₀)
    (h' : s₀.MovesRef s' t i n) : s.MovesRef s' t i n := by
  have hphase : (s₀.phase t).refAt = (s.phase t).refAt := congrFun h.phase t
  constructor
  · rw [← hphase, ← h.nextRef, ← h.alive]
    exact h'.station
  · rw [← h.phase]
    exact h'.phase
  · rw [← h.alive]
    exact h'.alive
  · rw [← h.nextRef]
    exact h'.nextRef
  · rw [← h.acquired]
    exact h'.acquired
  · rw [← h.released]
    exact h'.released
  · rw [← h.weakFields]
    exact h'.field
  · rw [← h.weakFields]
    exact h'.fields
  · rw [← h.refs, ← h.alive]
    exact h'.refs

/-- A thread goes on with the same reference, or with none as before. -/
theorem sameRefs_setPhase {s : RemoteHandle} {t : ℕ} {q : RefPhase}
    (h : q.refAt = (s.phase t).refAt) : s.SameRefs (s.setPhase t q) :=
  { phase := comp_setPhase_of_eq h }

/-- A command about something else. -/
theorem sameRefs_write (s : RemoteHandle) {cmd : Command} (h : cmd.isStrong = false) :
    s.SameRefs (s.write cmd) where
  phase := rfl
  acquired := by
    have hne : cmd ≠ .acquire s.handle := by
      rintro rfl
      cases h
    simp [acquired, write, List.count_append, hne]
  released := by
    have hne : cmd ≠ .release s.handle := by
      rintro rfl
      cases h
    simp [released, write, List.count_append, hne]

/-- One handle more of a reference that is alive. -/
theorem sameRefs_consArc {s : RemoteHandle} {i : ℕ} (hi : s.RefAlive i) :
    s.SameRefs { s with refArcs := i :: s.refArcs } where
  phase := rfl
  alive := by
    funext j
    rw [refAlive_iff, refAlive_iff, List.mem_cons]
    refine propext (or_iff_right_of_imp ?_)
    rintro rfl
    exact refAlive_iff.mp hi

/-- One handle less of a reference: it is dead if that was the last. -/
theorem refAlive_eraseArc (s : RemoteHandle) (i j : ℕ) :
    { s with refArcs := s.refArcs.erase i }.RefAlive j ↔
      s.RefAlive j ∧ (j = i → { s with refArcs := s.refArcs.erase i }.refStrong i ≠ 0) := by
  simp only [RefAlive, refStrong]
  by_cases hj : j = i
  · subst hj
    simp only [forall_const]
    refine ⟨fun h => ⟨?_, h⟩, And.right⟩
    rw [List.count_erase_self] at h
    omega
  · rw [List.count_erase_of_ne hj]
    simp [hj]

/-- A field less: the reference that it was in is the only one that has none any more. -/
theorem mem_fields_erase {fields : List (ℕ × ℕ)} {i c : ℕ} (hnodup : (fields.map Prod.fst).Nodup)
    (h : fields.lookup i = some c) (j : ℕ) :
    j ∈ (fields.erase (i, c)).map Prod.fst ↔ j ∈ fields.map Prod.fst ∧ j ≠ i := by
  have hmem : (i, c) ∈ fields := by
    obtain ⟨before, after, rfl, -⟩ := List.lookup_eq_some_iff.mp h
    simp
  simp only [List.mem_map, Prod.exists, exists_and_right, exists_eq_right]
  constructor
  · rintro ⟨d, hd⟩
    obtain ⟨hne, hold⟩ := (hnodup.of_map _).mem_erase_iff.mp hd
    refine ⟨⟨d, hold⟩, ?_⟩
    rintro rfl
    exact hne (List.inj_on_of_nodup_map hnodup hold hmem rfl)
  · rintro ⟨⟨d, hd⟩, hne⟩
    refine ⟨d, (hnodup.of_map _).mem_erase_iff.mpr ⟨fun heq => ?_, hd⟩⟩
    exact hne (congrArg Prod.fst heq)

/-- A reference that is decoded behind its weak reference gets its name and its field. -/
theorem movesRef_takeWeak {s : RemoteHandle} {t c : ℕ} (h : (s.phase t).refAt = none) :
    s.MovesRef (s.takeWeak t c true) t s.nextRef 0 where
  station := Or.inr ⟨h, Or.inl ⟨rfl, rfl⟩⟩
  phase := comp_setPhase RefPhase.refAt s t (.acquiring s.nextRef)
  alive j := by
    show s.RefAlive j ↔ _
    simp
  nextRef := rfl
  acquired := rfl
  released := rfl
  field _ j := by simp [takeWeak, setPhase, or_comm]
  fields hnodup hi := by
    refine List.nodup_cons.mpr ⟨?_, hnodup⟩
    exact hi.resolve_right fun hne => hne rfl
  refs j hj := Or.inl ⟨hj, by simp⟩

/-- A weak reference that was decoded on its own leaves the references alone. -/
theorem sameRefs_takeWeak {s : RemoteHandle} {t c : ℕ} (h : (s.phase t).refAt = none) :
    s.SameRefs (s.takeWeak t c false) := by
  have harcs : s.SameRefs { s with weakArcs := c :: s.weakArcs } := { phase := rfl }
  exact harcs.trans (sameRefs_setPhase (q := .idle) h.symm)

/-- What the last handle of a weak reference does about the references. -/
theorem sameRefs_leaveWeak {s : RemoteHandle} {t c : ℕ} (h : (s.phase t).refAt = none) :
    s.SameRefs (s.leaveWeak t c) := by
  apply sameRefs_setPhase
  rw [h]
  split_ifs <;> rfl

/-- A weak reference that is decoded: a reference is made behind it if it is for one. -/
theorem refs_takeWeak {s s₀ : RemoteHandle} {t c : ℕ} (hsame : s.SameRefs s₀)
    (h : (s₀.phase t).refAt = none) (forRef : Bool) :
    s.SameRefs (s₀.takeWeak t c forRef) ∨ ∃ i n, s.MovesRef (s₀.takeWeak t c forRef) t i n := by
  cases forRef with
  | false => exact Or.inl (hsame.trans (sameRefs_takeWeak h))
  | true => exact Or.inr ⟨_, _, hsame.moves (movesRef_takeWeak h)⟩

/-- A thread takes or gives back a strong count for the reference that it works on, and goes to the
next station. -/
theorem movesRef_write {s : RemoteHandle} {t i n : ℕ} {cmd : Command} {q : RefPhase}
    (hp : (s.phase t).refAt = some (i, n)) (hq : q.refAt = some (i, n + 1))
    (hcmd : n = 1 ∧ cmd = .acquire s.handle ∨ n = 4 ∧ cmd = .release s.handle) :
    s.MovesRef ((s.write cmd).setPhase t q) t i n := by
  have hn : n = 1 ∨ n = 4 := hcmd.imp And.left And.left
  have hcounts : ((s.write cmd).setPhase t q).acquired = s.acquired + (if n = 1 then 1 else 0) ∧
      ((s.write cmd).setPhase t q).released = s.released + if n = 4 then 1 else 0 := by
    rcases hcmd with ⟨rfl, rfl⟩ | ⟨rfl, rfl⟩ <;>
      simp [acquired, released, write, setPhase, List.count_append]
  refine ⟨Or.inl hp, ?_, fun j => ?_, ?_, hcounts.1, hcounts.2, fun _ j => ?_,
    fun hnodup _ => hnodup, fun j hj => Or.inl ⟨hj, by omega⟩⟩
  · have hrest : ¬ RefRest (n + 1) := by
      unfold RefRest
      omega
    rw [comp_setPhase, hq, if_neg hrest]
    rfl
  · show s.RefAlive j ↔ _
    have hmade : n ≠ 3 ∧ n + 1 ≠ 3 := by omega
    simp [hmade]
  · rw [if_neg (by omega)]
    rfl
  · show j ∈ s.weakFields.map Prod.fst ↔ _
    have hfield : n ≠ 6 ∧ n ≠ 0 := by omega
    simp [hfield]

/-- The next step of a thread leaves the references alone or moves one on. -/
theorem refs_go {s s' : RemoteHandle} {t : ℕ} {p : RefPhase} (hp : s.phase t = p)
    (h : s.go t p = some s') : s.SameRefs s' ∨ ∃ i n, s.MovesRef s' t i n := by
  have hquiet : ∀ {q : RefPhase}, q.refAt = p.refAt → s.SameRefs (s.setPhase t q) := by
    intro q hq
    exact sameRefs_setPhase (by rw [hq, hp])
  have hwrites : ∀ {cmd : Command} {q : RefPhase}, cmd.isStrong = false → q.refAt = p.refAt →
      s.SameRefs ((s.write cmd).setPhase t q) := by
    intro cmd q hcmd hq
    exact (sameRefs_write s hcmd).trans (sameRefs_setPhase (s := s.write cmd) (hq.trans
      (congrArg RefPhase.refAt hp.symm)))
  cases p with
  | idle => cases h
  | lookingUpRef =>
    simp only [go] at h
    split at h
    · next i hi =>
      cases h
      have halive := (upgradeRef_eq_some.mp hi).2
      refine Or.inl ((sameRefs_consArc halive).trans (sameRefs_setPhase ?_))
      exact (congrArg RefPhase.refAt hp).symm
    · cases h
      exact Or.inl (hquiet rfl)
  | acquiring i =>
    cases h
    exact Or.inr ⟨i, 1, movesRef_write (by rw [hp]; rfl) rfl (Or.inl ⟨rfl, rfl⟩)⟩
  | insertingRef i =>
    cases h
    refine Or.inr ⟨i, 2, Or.inl (by rw [hp]; rfl), ?_, fun j => ?_, rfl, rfl, rfl, fun _ j => ?_,
      fun hnodup _ => hnodup, fun j hj => Or.inr ⟨?_, rfl⟩⟩
    · exact comp_setPhase RefPhase.refAt s t .idle
    · rw [refAlive_iff, refAlive_iff]
      simp [setPhase, or_comm]
    · simp [setPhase]
    · exact (Option.some.inj hj).symm
  | lookingUpWeak forRef =>
    simp only [go] at h
    split at h
    · next c hc =>
      cases h
      exact refs_takeWeak { phase := rfl } (by rw [hp]; rfl) forRef
    · cases h
      exact Or.inl (hquiet rfl)
  | drawing forRef =>
    cases h
    have hdraw : s.SameRefs { s with deathCounter := s.deathCounter + 1 } := { phase := rfl }
    refine Or.inl (hdraw.trans (sameRefs_setPhase ?_))
    exact (congrArg RefPhase.refAt hp).symm
  | insertingToken forRef c =>
    cases h
    have htoken : s.SameRefs (s.insertToken c) := { phase := rfl }
    exact Or.inl (htoken.trans (sameRefs_setPhase (congrArg RefPhase.refAt hp).symm))
  | increfs forRef c =>
    cases h
    exact Or.inl (hwrites rfl rfl)
  | requesting forRef c =>
    cases h
    have hrequest : s.SameRefs (s.request c) := { phase := rfl }
    refine Or.inl ((hrequest.trans (sameRefs_write _ ?_)).trans (sameRefs_setPhase ?_))
    · rfl
    · exact (congrArg RefPhase.refAt hp).symm
  | insertingWeak forRef c =>
    cases h
    have hinsert : s.SameRefs { s with weakRefs := some c } := { phase := rfl }
    exact refs_takeWeak hinsert (congrArg RefPhase.refAt hp) forRef
  | releasing i =>
    cases h
    exact Or.inr ⟨i, 4, movesRef_write (by rw [hp]; rfl) rfl (Or.inr ⟨rfl, rfl⟩)⟩
  | evictingRef i =>
    cases h
    refine Or.inr ⟨i, 5, Or.inl (by rw [hp]; rfl), ?_, fun j => ?_, rfl, rfl, rfl, fun _ j => ?_,
      fun hnodup _ => hnodup, fun j hj => Or.inl ?_⟩
    · exact comp_setPhase RefPhase.refAt s.evictRef t (.droppingField i)
    · show s.RefAlive j ↔ _
      simp
    · simp [setPhase, evictRef]
    · -- what `remove_if` leaves in the map is alive
      simp only [setPhase, evictRef] at hj
      split_ifs at hj with hdead
      refine ⟨hj, ?_⟩
      rintro ⟨rfl, -, hgone⟩
      rw [hj, Option.any_some, beq_iff_eq] at hdead
      exact hgone hdead
  | droppingField i =>
    obtain ⟨c, hc, rfl⟩ := Option.map_eq_some_iff.mp h
    have hafter : (if { s with weakFields := s.weakFields.erase (i, c) }.weakStrong c = 0
        then RefPhase.clearing c else .idle).refAt = none := by
      split_ifs <;> rfl
    refine Or.inr ⟨i, 6, Or.inl (by rw [hp]; rfl), ?_, fun j => ?_, rfl, rfl, rfl,
      fun hnodup j => ?_, fun hnodup _ => ?_, fun j hj => Or.inl ⟨hj, by simp⟩⟩
    · rw [leaveWeak, comp_setPhase, hafter]
      rfl
    · show s.RefAlive j ↔ _
      simp
    · show j ∈ (s.weakFields.erase (i, c)).map Prod.fst ↔ _
      rw [mem_fields_erase hnodup hc]
      simp
    · exact hnodup.sublist ((List.erase_sublist ..).map Prod.fst)
  | clearing c =>
    cases h
    have hclear : s.SameRefs (s.clear c) := { phase := rfl }
    refine Or.inl ((hclear.trans (sameRefs_write _ ?_)).trans (sameRefs_setPhase ?_))
    · rfl
    · exact (congrArg RefPhase.refAt hp).symm
  | removingToken c =>
    cases h
    have htoken : s.SameRefs (s.removeToken c) := { phase := rfl }
    exact Or.inl (htoken.trans (sameRefs_setPhase (congrArg RefPhase.refAt hp).symm))
  | decrefs c =>
    cases h
    exact Or.inl (hwrites rfl rfl)
  | evictingWeak =>
    cases h
    have hevict : s.SameRefs s.evictWeak := { phase := rfl }
    exact Or.inl (hevict.trans (sameRefs_setPhase (congrArg RefPhase.refAt hp).symm))
  | deadBinderDone c =>
    cases h
    exact Or.inl (hwrites rfl rfl)

/-- A handle of a reference is dropped: the reference is dropped behind its last one. -/
theorem refs_dropRef {s : RemoteHandle} {t i : ℕ} (hp : s.phase t = .idle) (hi : s.RefAlive i) :
    s.SameRefs ({ s with refArcs := s.refArcs.erase i }.leaveRef t i) ∨
      ∃ j n, s.MovesRef ({ s with refArcs := s.refArcs.erase i }.leaveRef t i) t j n := by
  have halive := refAlive_eraseArc s i
  by_cases hlast : { s with refArcs := s.refArcs.erase i }.refStrong i = 0
  · rw [leaveRef, if_pos hlast]
    refine Or.inr ⟨i, 3, Or.inr ⟨by rw [hp]; rfl, Or.inr ⟨rfl, hi⟩⟩, ?_, fun j => ?_, rfl, rfl, rfl,
      fun _ j => ?_, fun hnodup _ => hnodup, fun j hj => Or.inl ⟨hj, by simp⟩⟩
    · exact comp_setPhase RefPhase.refAt s t (.releasing i)
    · refine (halive j).trans ?_
      simp [hlast]
    · simp [setPhase]
  · rw [leaveRef, if_neg hlast]
    refine Or.inl { phase := comp_setPhase_of_eq (congrArg RefPhase.refAt hp.symm), alive := ?_ }
    funext j
    refine propext ((halive j).trans (and_iff_left fun _ => hlast))

/-- A step leaves the references alone or moves one on. -/
theorem refs_step {s s' : RemoteHandle} {a : HandleAction} (h : s.step a = some s') :
    s.SameRefs s' ∨ ∃ t i n, s.MovesRef s' t i n := by
  cases a with
  | go t => exact (refs_go rfl h).imp_right fun hmove => ⟨t, hmove⟩
  | decodeRef t | decodeWeak t =>
    simp only [step] at h
    split_ifs at h with hp
    cases h
    exact Or.inl (sameRefs_setPhase (by rw [hp]; rfl))
  | cloneRef i =>
    simp only [step] at h
    split_ifs at h with hi
    cases h
    exact Or.inl (sameRefs_consArc (refAlive_iff.mpr hi))
  | cloneWeak c =>
    simp only [step] at h
    split_ifs at h
    cases h
    exact Or.inl { phase := rfl }
  | downgrade i =>
    simp only [step] at h
    split_ifs at h
    obtain ⟨c, hc, rfl⟩ := Option.map_eq_some_iff.mp h
    exact Or.inl { phase := rfl }
  | upgrade c =>
    simp only [step] at h
    split_ifs at h
    split at h
    · next i hi =>
      cases h
      exact Or.inl (sameRefs_consArc (upgradeRef_eq_some.mp hi).2)
    · cases h
      exact Or.inl { phase := rfl }
  | dropRef t i =>
    simp only [step] at h
    split_ifs at h with hp
    cases h
    exact (refs_dropRef hp.1 (refAlive_iff.mpr hp.2)).imp_right fun hmove => ⟨t, hmove⟩
  | dropWeak t c =>
    simp only [step] at h
    split_ifs at h with hp
    cases h
    have harcs : s.SameRefs { s with weakArcs := s.weakArcs.erase c } := { phase := rfl }
    exact Or.inl (harcs.trans (sameRefs_leaveWeak (congrArg RefPhase.refAt hp.1)))
  | die =>
    simp only [step] at h
    split_ifs at h
    cases h
    exact Or.inl { phase := rfl }
  | deadBinder t c =>
    simp only [step] at h
    split_ifs at h with hp
    have hphase : RefPhase.refAt ∘ (s.setPhase t (.deadBinderDone c)).phase =
        RefPhase.refAt ∘ s.phase := comp_setPhase_of_eq (congrArg RefPhase.refAt hp.1).symm
    split at h
    · cases h
      exact Or.inl { phase := hphase }
    · cases h
      exact Or.inl { phase := hphase }

/-- **Step.** There is a ledger of the references behind every step. -/
theorem RefLedger.step {s s' : RemoteHandle} {a : HandleAction} {p : Stations ℕ}
    (hs : s.RefLedger p) (h : s.step a = some s') : ∃ p', s'.RefLedger p' := by
  rcases refs_step h with hsame | ⟨t, i, n, hmove⟩
  · exact ⟨p, hs.stay hsame⟩
  · exact ⟨p.moveOn RefRest t i, hs.move hmove⟩

end RemoteHandle

end BinderBinder
