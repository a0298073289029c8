import BinderBinder.Refs.Balance
import BinderBinder.Refs.Death

set_option relaxedAutoImplicit false
set_option autoImplicit false

/-!
# What users see of a reference

A user of a reference sees whether it is alive, and waits for decodes and drops. A report of death is
true and stays, and comes from the record of its own cookie alone. A decode or a drop takes at most
nine steps of its thread, whatever the other threads do in between; none of them waits for another.

## Main definitions

* `RemoteHandle.Reported` — deaths are recorded and reported only of a process that died.
* `RefPhase.remaining` — the steps that a thread still makes in what it does.

## Main results

* `RemoteHandle.death_reports` — reports of death are true, final and made once.
* `RemoteHandle.go_isSome` — a thread that is in the middle of something can go on.
* `RemoteHandle.operations_finish` — an operation takes a bounded number of steps of its thread.
-/

namespace BinderBinder

open Run

/-! ## Reports of death -/

namespace RemoteHandle

/-- Cookies that have a record, or whose token was cancelled, requested a notification of a process
that is dead; and a token that was cancelled is not filed any more. -/
structure Reported (s : RemoteHandle) (q : Stations ℕ) : Prop where
  ledger : s.WeakLedger q
  dead : ∀ c, c ∈ s.records ∨ s.cancelled c = true → s.dead = true ∧ 3 < q.place c
  token : ∀ c, s.cancelled c = true → s.deathNotifications c = none

/-- Nothing is recorded or cancelled yet. -/
theorem reported_new (handle : UInt32) : (new handle).Reported Stations.new where
  ledger := weakLedger_new handle
  dead c hc := by simp [new] at hc
  token c hc := by cases hc

/-- Which tokens a step cancels: the one of the cookie that a `BR_DEAD_BINDER` names. -/
theorem cancelled_step {s s' : RemoteHandle} {a : HandleAction} (h : s.step a = some s') (c : ℕ) :
    s'.cancelled c = true ↔ s.cancelled c = true ∨
      s.deathNotifications c = some c ∧ ∃ t, a = .deadBinder t c := by
  by_cases hread : ∃ t d, a = .deadBinder t d
  · obtain ⟨t, d, rfl⟩ := hread
    have htold := iff_of_eq (congrFun (congrArg Registration.told (deadBinder_spec h).2.2) c)
    refine htold.trans ?_
    show s.cancelled c = true ∨ c = d ∧ s.deathNotifications d = some d ↔ _
    simp only [HandleAction.deadBinder.injEq]
    refine or_congr_right ⟨?_, ?_⟩
    · rintro ⟨rfl, htoken⟩
      exact ⟨htoken, t, rfl, rfl⟩
    · rintro ⟨htoken, t', -, rfl⟩
      exact ⟨rfl, htoken⟩
  · have hsame : s'.cancelled = s.cancelled := by
      cases step_effect h with
      | @findsWeak t c forRef | @insertsWeak t forRef c => cases forRef <;> rfl
      | reads ha => exact absurd ⟨_, _, ha⟩ hread
      | _ => rfl
    rw [hsame]
    refine (or_iff_left ?_).symm
    rintro ⟨-, t, ha⟩
    exact hread ⟨t, c, ha⟩

/-- A `BR_DEAD_BINDER` that is read has a record. -/
theorem record_of_deadBinder {s s' : RemoteHandle} {t c : ℕ}
    (h : s.step (.deadBinder t c) = some s') : c ∈ s.records := by
  simp only [step] at h
  split_ifs at h with hp
  exact hp.2

/-- A token that is filed was filed before, or its cookie has just been drawn. -/
theorem WeakLedger.token_step {s s' : RemoteHandle} {a : HandleAction} {q : Stations ℕ}
    (hs : s.WeakLedger q) (h : s.step a = some s') {c : ℕ} (hc : s'.deathNotifications c ≠ none) :
    s.deathNotifications c ≠ none ∨ q.place c = 1 := by
  rcases weaks_step h with hsame | ⟨t, d, n, hmove⟩
  · exact Or.inl (hsame.token c hc)
  · rcases hmove.token c hc with ⟨hbefore, -⟩ | ⟨rfl, rfl⟩
    · exact Or.inl hbefore
    · rcases hmove.station with hwhere | ⟨-, ⟨h0, -⟩ | ⟨h5, -⟩⟩
      · exact Or.inr (hs.tracked.place t c 1 hwhere)
      · cases h0
      · cases h5

/-- **Step.** Every step keeps the reports right.

**Proof sketch.** A record is made only for the registration, when the process dies, or for a cookie
that requests a notification of a process that is dead. A token is filed before its cookie requests
anything, so it is not filed again behind its cancellation. -/
theorem Reported.step {s s' : RemoteHandle} {a : HandleAction} {q : Stations ℕ}
    (hs : s.Reported q) (h : s.step a = some s') : ∃ q', s'.Reported q' := by
  obtain ⟨q', hq', hforward⟩ := hs.ledger.step h
  have hold : ∀ c, c ∈ s.records ∨ s.cancelled c = true → s.dead = true ∧ 3 < q'.place c :=
    fun c hc => (hs.dead c hc).imp_right fun hplace => Nat.lt_of_lt_of_le hplace (hforward c)
  refine ⟨q', hq', ?_, ?_⟩
  · intro c hc
    cases step_effect h with
    | @findsWeak t d forRef | @insertsWeak t forRef d => cases forRef <;> exact hold c hc
    | @requests t forRef d written ha hp =>
      rcases hc with hrecord | hcancelled
      · have hrecord : c ∈ (if s.registered = none ∧ s.dead then s.records ++ [d] else s.records) :=
          hrecord
        split_ifs at hrecord with hanswered
        · rcases List.mem_append.mp hrecord with hrecord | hnew
          · exact hold c (Or.inl hrecord)
          · obtain rfl := List.mem_singleton.mp hnew
            have hplace : q'.place c = 4 :=
              hq'.tracked.place t c 4 (by simp [setPhase, RefPhase.weakAt])
            exact ⟨hanswered.2, by omega⟩
        · exact hold c (Or.inl hrecord)
      · exact hold c (Or.inr hcancelled)
    | dies =>
      refine ⟨rfl, ?_⟩
      rcases hc with hrecord | hcancelled
      · rcases List.mem_append.mp hrecord with hrecord | hregistered
        · exact (hold c (Or.inl hrecord)).2
        · have hplace := hs.ledger.registered c (Option.mem_toList.mp hregistered)
          exact Nat.lt_of_lt_of_le hplace.1 (hforward c)
      · exact (hold c (Or.inr hcancelled)).2
    | @reads t d phase deathNotifications cancelled records keyed ha hq =>
      subst ha
      have hrecorded : d ∈ s.records := record_of_deadBinder h
      have hdeaths := (deadBinder_spec h).2.2
      rcases hc with hrecord | hcancelled
      · have hrecord : c ∈ s.records.erase d :=
          (iff_of_eq (congrFun (congrArg Registration.mail hdeaths) c)).mp hrecord
        exact hold c (Or.inl (List.mem_of_mem_erase hrecord))
      · rcases (cancelled_step h c).mp hcancelled with hcancelled | ⟨-, t', ha⟩
        · exact hold c (Or.inr hcancelled)
        · cases ha
          exact hold c (Or.inl hrecorded)
    | _ => exact hold c hc
  · intro c hc
    by_contra htoken
    rcases (cancelled_step h c).mp hc with hcancelled | ⟨-, t, rfl⟩
    · have hplace := (hs.dead c (Or.inr hcancelled)).2
      rcases hs.ledger.token_step h htoken with hbefore | hone
      · exact hbefore (hs.token c hcancelled)
      · omega
    · obtain ⟨token, hsome⟩ := Option.ne_none_iff_exists'.mp htoken
      obtain rfl := s'.keyed c token hsome
      have hdeaths := (deadBinder_spec h).2.2
      exact ((iff_of_eq (congrFun (congrArg Registration.token hdeaths) token)).mp hsome).2 rfl

/-- Deaths are recorded and reported as they should be in every state that a run leads to. -/
theorem exists_reported {handle : UInt32} {as : List HandleAction} {s : RemoteHandle}
    (h : exec step (new handle) as = some s) : ∃ q, s.Reported q := by
  apply exec_invariant (I := fun s => ∃ q, s.Reported q) ?_ ⟨_, reported_new handle⟩ h
  rintro s a s' ⟨q, hq⟩ hstep
  exact hq.step hstep

/-- **Reports of death are true, final and made once.** A weak reference whose `alive` is false had
requested a notification of a process that is dead by now; its token is not filed any more, and
`alive` stays false. It becomes false in a `BR_DEAD_BINDER` of its own cookie and in no other step. -/
theorem death_reports {handle : UInt32} {as : List HandleAction} {s : RemoteHandle}
    (h : exec step (new handle) as = some s) :
    (∀ c, s.alive c = false → s.dead = true ∧ UInt64.ofNat c ∈ s.requestedCookies ∧
      s.deathNotifications c = none) ∧
    (∀ bs s', exec step s bs = some s' → ∀ c, s.alive c = false → s'.alive c = false) ∧
    (∀ a s', s.step a = some s' → ∀ c, s.alive c = true → s'.alive c = false →
      ∃ t, a = .deadBinder t c) := by
  have hcancelled : ∀ {s : RemoteHandle} {c : ℕ}, s.alive c = false ↔ s.cancelled c = true := by
    intro s c
    rw [alive, Bool.not_eq_false']
  obtain ⟨q, hreported⟩ := exists_reported h
  refine ⟨fun c hc => ?_, fun bs s' hrun c hc => ?_, fun a s' hstep c hbefore hafter => ?_⟩
  · obtain ⟨hdead, hplace⟩ := hreported.dead c (Or.inr (hcancelled.mp hc))
    refine ⟨hdead, ?_, hreported.token c (hcancelled.mp hc)⟩
    rw [hreported.ledger.requested]
    apply List.mem_map_of_mem
    rw [List.mem_reverse, hreported.ledger.tracked.kept.mem_log]
    exact hplace
  · exact exec_invariant (I := fun s => s.alive c = false)
      (fun hs hstep => hcancelled.mpr ((cancelled_step hstep c).mpr (Or.inl (hcancelled.mp hs))))
      hc hrun
  · rcases (cancelled_step hstep c).mp (hcancelled.mp hafter) with hc | ⟨-, hread⟩
    · rw [hcancelled.mpr hc] at hbefore
      cases hbefore
    · exact hread

/-- The remote process dies and a thread reads the record of it. -/
theorem death_reports_decoded :
    ∃ s, exec step (new 7) (decoded ++ [.die, .deadBinder 1 1]) = some s ∧ s.alive 1 = false ∧
      s.dead = true ∧ 1 ∈ s.requestedCookies ∧ s.deathNotifications 1 = none := by
  obtain ⟨s, hrun, halive⟩ :
      ∃ s, exec step (new 7) (decoded ++ [.die, .deadBinder 1 1]) = some s ∧ s.alive 1 = false :=
    ⟨_, rfl, rfl⟩
  exact ⟨s, hrun, halive, (death_reports hrun).1 1 halive⟩

end RemoteHandle

/-! ## Progress -/

/-- The steps that a thread still makes in what it does, if it finds nothing in the maps. -/
def RefPhase.remaining : RefPhase → ℕ
  | .idle => 0
  | .lookingUpRef => 9
  | .lookingUpWeak forRef => if forRef then 8 else 6
  | .drawing forRef => if forRef then 7 else 5
  | .insertingToken forRef _ => if forRef then 6 else 4
  | .increfs forRef _ => if forRef then 5 else 3
  | .requesting forRef _ => if forRef then 4 else 2
  | .insertingWeak forRef _ => if forRef then 3 else 1
  | .acquiring _ => 2
  | .insertingRef _ => 1
  | .releasing _ => 7
  | .evictingRef _ => 6
  | .droppingField _ => 5
  | .clearing _ => 4
  | .removingToken _ => 3
  | .decrefs _ => 2
  | .evictingWeak => 1
  | .deadBinderDone _ => 1

/-- No thread has more than nine steps to make. -/
theorem RefPhase.remaining_le (p : RefPhase) : p.remaining ≤ 9 := by
  cases p <;> simp only [RefPhase.remaining] <;> try split
  all_goals omega

/-- The thread that starts something. -/
def HandleAction.startedBy : HandleAction → Option ℕ
  | .decodeRef t | .decodeWeak t | .dropRef t _ | .dropWeak t _ | .deadBinder t _ => some t
  | _ => none

namespace RemoteHandle

/-- A thread that is in the middle of something can go on, in every state that a run leads to. -/
theorem go_isSome {handle : UInt32} {as : List HandleAction} {s : RemoteHandle}
    (h : exec step (new handle) as = some s) {t : ℕ} (ht : s.phase t ≠ .idle) :
    (s.step (.go t)).isSome = true := by
  obtain ⟨p, -, hp, -⟩ := exists_ledgers h
  rw [step]
  cases hphase : s.phase t with
  | idle => exact absurd hphase ht
  | lookingUpRef | lookingUpWeak forRef =>
    simp only [go]
    split <;> rfl
  | droppingField i =>
    -- the only step that can find nothing: the field is there as long as its station is not passed
    have hplace : p.place i = 6 := hp.tracked.place t i 6 (congrArg RefPhase.refAt hphase)
    obtain ⟨⟨j, c⟩, hmem, rfl⟩ := List.mem_map.mp ((hp.field i).mpr (by omega))
    cases hfield : s.weakFields.lookup j with
    | none => exact absurd (List.lookup_eq_none_iff.mp hfield (j, c) hmem) (by simp)
    | some d => simp [go, hfield]
  | _ => rfl

/-- The next step of a thread leads to a phase from which it has fewer steps to make. -/
theorem go_remaining {s s' : RemoteHandle} {t : ℕ} {p : RefPhase} (h : s.go t p = some s') :
    ∃ q : RefPhase, s'.phase = Function.update s.phase t q ∧ q.remaining + 1 ≤ p.remaining := by
  cases p with
  | idle => cases h
  | lookingUpRef =>
    simp only [go] at h
    split at h <;> cases h
    · exact ⟨.idle, rfl, by simp [RefPhase.remaining]⟩
    · exact ⟨.lookingUpWeak true, rfl, by simp [RefPhase.remaining]⟩
  | lookingUpWeak forRef =>
    simp only [go] at h
    split at h <;> cases h
    · cases forRef with
      | false => exact ⟨.idle, rfl, by simp [RefPhase.remaining]⟩
      | true => exact ⟨.acquiring s.nextRef, rfl, by simp [RefPhase.remaining]⟩
    · exact ⟨.drawing forRef, rfl, by cases forRef <;> simp [RefPhase.remaining]⟩
  | drawing forRef =>
    cases h
    exact ⟨.insertingToken forRef s.deathCounter, rfl, by cases forRef <;> simp [RefPhase.remaining]⟩
  | insertingToken forRef c =>
    cases h
    exact ⟨.increfs forRef c, rfl, by cases forRef <;> simp [RefPhase.remaining]⟩
  | increfs forRef c =>
    cases h
    exact ⟨.requesting forRef c, rfl, by cases forRef <;> simp [RefPhase.remaining]⟩
  | requesting forRef c =>
    cases h
    exact ⟨.insertingWeak forRef c, rfl, by cases forRef <;> simp [RefPhase.remaining]⟩
  | insertingWeak forRef c =>
    cases h
    cases forRef with
    | false => exact ⟨.idle, rfl, by simp [RefPhase.remaining]⟩
    | true => exact ⟨.acquiring s.nextRef, rfl, by simp [RefPhase.remaining]⟩
  | droppingField i =>
    obtain ⟨c, -, rfl⟩ := Option.map_eq_some_iff.mp h
    refine ⟨_, rfl, ?_⟩
    split_ifs <;> simp [RefPhase.remaining]
  | _ =>
    cases h
    exact ⟨_, rfl, by simp [RefPhase.remaining]⟩

/-- A thread is where it was behind a step in which it neither goes on nor starts anything. -/
theorem phase_of_ne {s s' : RemoteHandle} {a : HandleAction} {t : ℕ} (h : s.step a = some s')
    (hgo : a ≠ .go t) (hstart : a.startedBy ≠ some t) : s'.phase t = s.phase t := by
  have hother : ∀ {u : ℕ} {q : RefPhase}, u ≠ t → Function.update s.phase u q t = s.phase t := by
    intro u q hu
    exact Function.update_of_ne hu.symm _ _
  cases a with
  | go u =>
    obtain ⟨q, hphase, -⟩ := go_remaining h
    rw [hphase]
    exact hother fun hu => hgo (hu ▸ rfl)
  | decodeRef u | decodeWeak u =>
    simp only [step] at h
    split_ifs at h
    cases h
    exact hother fun hu => hstart (hu ▸ rfl)
  | cloneRef i | cloneWeak c | die =>
    simp only [step] at h
    split_ifs at h
    cases h
    rfl
  | downgrade i =>
    simp only [step] at h
    split_ifs at h
    obtain ⟨c, -, rfl⟩ := Option.map_eq_some_iff.mp h
    rfl
  | upgrade c =>
    simp only [step] at h
    split_ifs at h
    split at h <;> cases h <;> rfl
  | dropRef u i | dropWeak u c =>
    simp only [step] at h
    split_ifs at h
    cases h
    exact hother fun hu => hstart (hu ▸ rfl)
  | deadBinder u c =>
    simp only [step] at h
    split_ifs at h
    split at h <;> cases h
    · exact hother fun hu => hstart (hu ▸ rfl)
    · exact hother fun hu => hstart (hu ▸ rfl)

/-- **Step.** What remains to a thread gets less when it goes on, and the others leave it alone. -/
theorem remaining_step {s s' : RemoteHandle} {a : HandleAction} {t : ℕ} (h : s.step a = some s')
    (hstart : a.startedBy ≠ some t) :
    (if a == .go t then 1 else 0) + (s'.phase t).remaining ≤ (s.phase t).remaining := by
  by_cases hgo : a = .go t
  · subst hgo
    obtain ⟨q, hphase, hless⟩ := go_remaining h
    rw [hphase, Function.update_self, beq_self_eq_true, if_pos rfl]
    omega
  · rw [phase_of_ne h hgo hstart, if_neg (by simpa using hgo)]
    omega

/-- **Operations finish.** From any state that a run leads to, however the threads are interleaved, a
thread that starts nothing makes at most the steps that remain to it, so at most nine; and as long
as it is in the middle of something it can make the next one, whatever the others are doing. -/
theorem operations_finish {handle : UInt32} {as bs : List HandleAction} {s s' : RemoteHandle}
    (h : exec step (new handle) as = some s) (hrun : exec step s bs = some s') (t : ℕ)
    (hstart : ∀ a ∈ bs, a.startedBy ≠ some t) :
    bs.count (.go t) + (s'.phase t).remaining ≤ (s.phase t).remaining ∧
      (s.phase t).remaining ≤ 9 ∧ (s'.phase t ≠ .idle → (s'.step (.go t)).isSome = true) := by
  refine ⟨?_, RefPhase.remaining_le _, go_isSome (exec_append_eq_some.mpr ⟨s, h, hrun⟩)⟩
  clear h
  induction bs generalizing s with
  | nil =>
    cases hrun
    simp
  | cons a bs ih =>
    obtain ⟨s₁, hs₁, hrest⟩ := exec_cons_eq_some.mp hrun
    have hfirst := remaining_step hs₁ (hstart a List.mem_cons_self)
    have hthen := ih hrest fun b hb => hstart b (List.mem_cons_of_mem a hb)
    rw [List.count_cons]
    omega

/-- Two threads decode the handle at the same time: after five steps each, the first can go on. -/
theorem operations_finish_twoDecodes :
    ∃ s s', exec step (new 7) [.decodeRef 0, .decodeRef 1] = some s ∧
      exec step s (List.flatten (List.replicate 5 [.go 0, .go 1])) = some s' ∧
      (s'.phase 0).remaining = 4 ∧ (s'.step (.go 0)).isSome = true := by
  obtain ⟨s, s', hrun, hmore, hphase⟩ :
      ∃ s s', exec step (new 7) [.decodeRef 0, .decodeRef 1] = some s ∧
        exec step s (List.flatten (List.replicate 5 [.go 0, .go 1])) = some s' ∧
        s'.phase 0 = .requesting true 1 := ⟨_, _, rfl, rfl, rfl⟩
  refine ⟨s, s', hrun, hmore, by rw [hphase]; rfl, ?_⟩
  exact (operations_finish hrun hmore 0 (by decide)).2.2 (by rw [hphase]; decide)

end RemoteHandle

end BinderBinder
