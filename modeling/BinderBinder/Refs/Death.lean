import BinderBinder.Lib.Registration
import BinderBinder.Refs.Life

set_option relaxedAutoImplicit false
set_option autoImplicit false

/-!
# Death notifications

The kernel keeps one death registration for a handle. A new weak reference requests its own, and a
weak reference that is dropped clears it, some steps after its last handle is gone. In between a new
one may be made: then its request is ignored, and it never hears of death.

## Main definitions

* `RemoteHandle.RequestsFree` — a request finds no registration.
* `RemoteHandle.deaths` — the weak references as keys that register.
* `RemoteHandle.Hears` — a weak reference is registered, and `BR_DEAD_BINDER` cancels its token.

## Main results

* `RemoteHandle.step_refines` — a step is one of `Registration`, if a request finds no registration.
* `RemoteHandle.hears_along` — every live weak reference hears of death in every run of such steps.
-/

namespace BinderBinder

open Run

/-- The weak reference whose request a thread writes next. -/
def RefPhase.requested : RefPhase → Option ℕ
  | .requesting _ c => some c
  | _ => none

namespace RemoteHandle

/-- If the step writes `REQUEST_DEATH_NOTIFICATION`, then the kernel has no registration for the
handle. -/
def RequestsFree (s : RemoteHandle) (a : HandleAction) : Prop :=
  ∀ t forRef c, a = .go t → s.phase t = .requesting forRef c → s.registered = none

/-- Whether a request finds no registration is read off the phase of the thread that goes on. -/
instance decidableRequestsFree (s : RemoteHandle) (a : HandleAction) :
    Decidable (s.RequestsFree a) :=
  match a with
  | .go t =>
    decidable_of_iff ((s.phase t).requested = none ∨ s.registered = none) <| by
      constructor
      · rintro (hp | hfree) t' forRef c ht hphase
        · cases ht
          rw [hphase] at hp
          cases hp
        · exact hfree
      · intro h
        cases hp : s.phase t with
        | requesting forRef c => exact Or.inr (h t forRef c rfl hp)
        | _ => exact Or.inl rfl
  | .decodeRef _ | .decodeWeak _ | .cloneRef _ | .cloneWeak _ | .downgrade _ | .upgrade _
  | .dropRef _ _ | .dropWeak _ _ | .die | .deadBinder _ _ => isTrue fun _ _ _ ha => by cases ha

/-- `WeakBinderRef::alive`. -/
def alive (s : RemoteHandle) (c : ℕ) : Bool := !s.cancelled c

/-- The weak reference `c` hears of death: its cookie is registered and its token is filed under it;
there is a record for it if the process is dead; and `BR_DEAD_BINDER` for the handle turns its
`alive` false, and no other's. -/
structure Hears (s : RemoteHandle) (c : ℕ) : Prop where
  registered : s.registered = some c
  token : s.deathNotifications c = some c
  record : s.dead = true → c ∈ s.records
  deadBinder : ∀ t s', s.step (.deadBinder t c) = some s' →
    s'.alive c = false ∧ ∀ c', c' ≠ c → s'.alive c' = s.alive c'

/-- The weak references as keys that register with the kernel. -/
def deaths (s : RemoteHandle) : Registration ℕ where
  alive := s.WeakAlive
  next := s.deathCounter
  role := RefPhase.role ∘ s.phase
  token c := s.deathNotifications c = some c
  told c := s.cancelled c = true
  slot := s.registered
  happened := s.dead = true
  mail c := c ∈ s.records

/-! ## Refinement -/

/-- The role of a thread at another phase. -/
theorem deaths_setPhase (s : RemoteHandle) (t : ℕ) (p : RefPhase) :
    (s.setPhase t p).deaths = s.deaths.setRole t p.role := by
  show Registration.mk s.deaths.alive _ (RefPhase.role ∘ (s.setPhase t p).phase) _ _ _ _ _ = _
  rw [comp_setPhase]
  rfl

/-- Other phases of the same roles do not show. -/
theorem deaths_quiet {s : RemoteHandle} {phase : ℕ → RefPhase} (hq : s.Quiet phase) :
    { s with phase }.deaths = s.deaths := by
  show Registration.mk s.WeakAlive _ (RefPhase.role ∘ phase) _ _ _ _ _ = _
  rw [hq.role]
  rfl

/-- A step that does not show in the weak references is none. -/
theorem refines_quiet {s s' : RemoteHandle} {phase : ℕ → RefPhase} (hq : s.Quiet phase)
    (hsame : s'.deaths = { s with phase }.deaths) : s.deaths.Step s'.deaths := by
  rw [hsame, deaths_quiet hq]
  exact .refl _

/-- A weak reference that is decoded is alive; the thread is through with it. -/
theorem deaths_takeWeak (s : RemoteHandle) (t c : ℕ) (forRef : Bool) :
    (s.takeWeak t c forRef).deaths =
      { s.deaths with alive := fun x => s.WeakAlive x ∨ x = c }.setRole t .idle := by
  have halive := weakAlive_takeWeak s t c forRef
  cases forRef with
  | false =>
    rw [← halive]
    exact deaths_setPhase _ _ _
  | true =>
    rw [← halive]
    exact deaths_setPhase _ _ _

/-- `death_notifications.insert` files a token. -/
theorem deaths_insertToken (s : RemoteHandle) (c : ℕ) :
    (s.insertToken c).deaths = { s.deaths with token := fun x => s.deaths.token x ∨ x = c } := by
  have htoken : (s.insertToken c).deaths.token = fun x => s.deaths.token x ∨ x = c := by
    funext x
    show (s.deathNotifications.insert c c x = some x) = (s.deathNotifications x = some x ∨ x = c)
    by_cases hx : x = c
    · subst hx
      simp
    · rw [DashMap.insert_of_ne _ _ hx]
      simp [hx]
  rw [← htoken]
  rfl

/-- `death_notifications.remove` removes a token. -/
theorem deaths_removeToken (s : RemoteHandle) (c : ℕ) :
    (s.removeToken c).deaths = { s.deaths with token := fun x => s.deaths.token x ∧ x ≠ c } := by
  have htoken : (s.removeToken c).deaths.token = fun x => s.deaths.token x ∧ x ≠ c := by
    funext x
    show (s.deathNotifications.remove c x = some x) = (s.deathNotifications x = some x ∧ x ≠ c)
    by_cases hx : x = c
    · subst hx
      simp
    · rw [DashMap.remove_of_ne _ hx]
      simp [hx]
  rw [← htoken]
  rfl

/-- A request that finds no registration is one, and is answered if the process is dead. -/
theorem deaths_request {s : RemoteHandle} (hfree : s.registered = none) (c : ℕ) :
    (s.request c).deaths = { s.deaths with
      slot := some c
      mail := fun x => s.deaths.mail x ∨ s.deaths.happened ∧ x = c } := by
  have hslot : (s.request c).deaths.slot = some c := by
    show some (s.registered.getD c) = some c
    rw [hfree, Option.getD_none]
  have hmail : (s.request c).deaths.mail =
      fun x => s.deaths.mail x ∨ s.deaths.happened ∧ x = c := by
    funext x
    show (x ∈ if s.registered = none ∧ s.dead = true then s.records ++ [c] else s.records) =
      (x ∈ s.records ∨ s.dead = true ∧ x = c)
    by_cases hdead : s.dead = true <;> simp [hfree, hdead]
  rw [← hslot, ← hmail]
  rfl

/-- When the process dies, there is a record for the registration. -/
theorem deaths_die (s : RemoteHandle) :
    { s with dead := true, records := s.records ++ s.registered.toList }.deaths =
      { s.deaths with
        happened := True
        mail := fun x => s.deaths.mail x ∨ s.deaths.slot = some x } := by
  have hmail : (fun x => x ∈ s.records ++ s.registered.toList) =
      fun x => s.deaths.mail x ∨ s.deaths.slot = some x := by
    funext x
    rw [List.mem_append, Option.mem_toList]
    rfl
  rw [← hmail]
  show Registration.mk _ _ _ _ _ _ (true = true) _ = _
  rw [eq_self]
  rfl

/-- A thread that has dropped a handle of a weak reference: if it was the last, the weak reference is
dead and the thread clears up behind it. -/
theorem refines_leaveWeak {s s₀ : RemoteHandle} {t c : ℕ}
    (hsame : s₀.deaths = { s.deaths with alive := s₀.WeakAlive }) (hrole : s.deaths.role t = .idle)
    (hc : s.WeakAlive c) (halive : ∀ x, s₀.WeakAlive x → s.WeakAlive x) :
    s.deaths.Step (s₀.leaveWeak t c).deaths := by
  rw [leaveWeak, deaths_setPhase, hsame]
  by_cases hlast : s₀.weakStrong c = 0
  · rw [if_pos hlast]
    refine .die t c hrole hc s₀.WeakAlive fun x hx => ⟨halive x hx, ?_⟩
    rintro rfl
    exact hx hlast
  · rw [if_neg hlast]
    exact Registration.Step.sameRole (.lose s₀.WeakAlive halive) hrole.symm

/-- What `BR_DEAD_BINDER` does: its record is gone and its token is removed, and if there was one, it
is cancelled. -/
theorem deadBinder_spec {s s' : RemoteHandle} {t c : ℕ} (h : s.step (.deadBinder t c) = some s') :
    s.phase t = .idle ∧ s'.phase = (s.setPhase t (.deadBinderDone c)).phase ∧
      s'.deaths = { s.deaths with
        role := RefPhase.role ∘ s'.phase
        token := fun x => s.deaths.token x ∧ x ≠ c
        told := fun x => s.deaths.told x ∨ x = c ∧ s.deaths.token c
        mail := fun x => x ∈ s.records.erase c } := by
  simp only [step] at h
  split_ifs at h with hp
  refine ⟨hp.1, ?_⟩
  split at h
  · next token htoken =>
    obtain rfl : token = c := s.keyed c token htoken
    cases h
    refine ⟨rfl, ?_⟩
    have hremoved := congrArg Registration.token (deaths_removeToken s token)
    have htold : (fun x => Function.update s.cancelled token true x = true) =
        fun x => s.deaths.told x ∨ x = token ∧ s.deaths.token token := by
      funext x
      by_cases hx : x = token
      · subst hx
        simp [deaths, show s.deathNotifications x = some x from htoken]
      · simp [deaths, hx]
    rw [← htold]
    exact congrArg (fun token => Registration.mk _ _ _ token _ _ _ _) hremoved
  · next hnone =>
    have hno : ¬ s.deaths.token c := fun htoken => by
      have hsome : s.deathNotifications c = some c := htoken
      rw [show s.deathNotifications c = none from hnone] at hsome
      cases hsome
    cases h
    refine ⟨rfl, ?_⟩
    have htoken : s.deaths.token = fun x => s.deaths.token x ∧ x ≠ c := by
      funext x
      refine propext ⟨fun hx => ⟨hx, ?_⟩, And.left⟩
      rintro rfl
      exact hno hx
    have htold : s.deaths.told = fun x => s.deaths.told x ∨ x = c ∧ s.deaths.token c := by
      funext x
      exact propext ⟨Or.inl, fun hx => hx.resolve_right fun hx => hno hx.2⟩
    rw [← htold]
    exact congrArg (fun token => Registration.mk _ _ _ token _ _ _ _) htoken

/-- `BR_DEAD_BINDER` tells the weak reference of its cookie. -/
theorem deadBinder_refines {s s' : RemoteHandle} {t c : ℕ} (h : s.step (.deadBinder t c) = some s') :
    s.deaths.Step s'.deaths := by
  obtain ⟨hp, hphase, hdeaths⟩ := deadBinder_spec h
  have hrole : RefPhase.role ∘ s'.phase = RefPhase.role ∘ s.phase := by
    rw [hphase]
    exact comp_setPhase_of_eq (by rw [hp]; rfl)
  rw [hdeaths, hrole]
  exact .tell c _ fun x hx hmem => (List.mem_erase_of_ne hx).mpr hmem

/-- **Refinement.** A step of the references is one of keys that register, if a request finds no
registration. -/
theorem step_refines {s s' : RemoteHandle} {a : HandleAction} (hfree : s.RequestsFree a)
    (h : s.step a = some s') : s.deaths.Step s'.deaths := by
  cases step_effect h with
  | same hq | handsRef hq | losesRef hq | evictsRef hq | evictsWeak hq =>
    exact refines_quiet hq rfl
  | insertsRef ha hp =>
    rw [deaths_setPhase]
    exact Registration.Step.sameRole (.refl _) (congrArg RefPhase.role hp).symm
  | @findsWeak t c forRef hp hc =>
    rw [deaths_takeWeak]
    refine Registration.Step.sameRole (.lose _ fun d hd => ?_) (congrArg RefPhase.role hp).symm
    rcases hd with hd | rfl
    · exact hd
    · exact hc
  | handsWeak hc => exact .lose _ fun _ => weakAlive_of_consArc hc
  | losesWeak hp hc =>
    exact refines_leaveWeak rfl (congrArg RefPhase.role hp) (weakAlive_iff.mpr (Or.inl hc))
      fun _ => weakAlive_of_eraseArc
  | losesField hp hc =>
    exact refines_leaveWeak rfl (congrArg RefPhase.role hp) (weakAlive_of_lookup hc)
      fun _ => weakAlive_of_eraseField
  | @draws t forRef hp =>
    rw [deaths_setPhase]
    exact .draw t
  | @insertsWeak t forRef c ha hp =>
    rw [deaths_takeWeak]
    exact .finish t c (congrArg RefPhase.role hp)
  | @filesToken t forRef c hp =>
    rw [deaths_setPhase, deaths_insertToken]
    exact .fileToken t c (congrArg RefPhase.role hp)
  | @requests t forRef c written ha hp =>
    have hnone := hfree t forRef c ha hp
    have hrequest := deaths_request hnone c
    rw [deaths_setPhase]
    show s.deaths.Step ((s.request c).deaths.setRole t _)
    rw [hrequest]
    exact .request t c (congrArg RefPhase.role hp) hnone
  | @clears t c phase written hp hq =>
    have hsame : { s.clear c with phase, written }.deaths = (s.clear c).deaths :=
      deaths_quiet (s := s.clear c) ⟨hq.makingRef, hq.role⟩
    rw [hsame]
    exact .clear t c (congrArg RefPhase.role hp)
  | @removesToken t c hp =>
    rw [deaths_setPhase, deaths_removeToken]
    exact .removeToken t c (congrArg RefPhase.role hp)
  | dies =>
    rw [deaths_die]
    exact .happen
  | reads ha hq =>
    subst ha
    exact deadBinder_refines h

/-! ## Live references hear of death -/

/-- Nothing is alive, and no thread relies on anything. -/
theorem sound_new (handle : UInt32) : (new handle).deaths.Sound where
  owned := .of_none (not_weakAlive_new handle) fun _ => rfl
  threads _ := trivial
  alive c hc := absurd hc (not_weakAlive_new handle c)

/-- `BR_DEAD_BINDER` for a weak reference whose token is filed cancels that token alone. -/
theorem alive_of_deadBinder {s s' : RemoteHandle} {t c : ℕ}
    (htoken : s.deathNotifications c = some c) (h : s.step (.deadBinder t c) = some s') :
    s'.alive c = false ∧ ∀ c', c' ≠ c → s'.alive c' = s.alive c' := by
  have htold : ∀ x, s'.cancelled x = true ↔ s.cancelled x = true ∨ x = c ∧
      s.deathNotifications c = some c := by
    intro x
    have hdeaths := (deadBinder_spec h).2.2
    exact iff_of_eq (congrFun (congrArg Registration.told hdeaths) x)
  constructor
  · rw [alive, (htold c).mpr (Or.inr ⟨rfl, htoken⟩)]
    rfl
  · intro c' hc'
    have hsame : s'.cancelled c' = s.cancelled c' := by
      rw [Bool.eq_iff_iff, htold c']
      exact or_iff_left fun hx => hc' hx.1
    rw [alive, alive, hsame]

/-- **A live weak reference hears of death**, in every state of a run of any number of threads in
which no request finds a registration.

**Proof sketch.** The steps are those of keys that register one at a time, so a weak reference that is
alive was told or is registered and has its token. -/
theorem hears_along {handle : UInt32} {as : List HandleAction} {s : RemoteHandle}
    (hfree : Along step RequestsFree (new handle) as) (h : exec step (new handle) as = some s)
    (c : ℕ) (hc : s.WeakAlive c) (halive : s.alive c = true) : s.Hears c := by
  have hsound : s.deaths.Sound := exec_invariant_along
    (I := fun s => s.deaths.Sound) (fun hs hC hstep => hs.step (step_refines hC hstep))
    (sound_new handle) hfree h
  rcases hsound.alive c hc with htold | ⟨hslot, htoken, hmail⟩
  · have hcancelled : s.cancelled c = true := htold
    rw [alive, hcancelled] at halive
    cases halive
  · exact ⟨hslot, htoken, hmail, fun t s' hstep => alive_of_deadBinder htoken hstep⟩

/-- A thread drops a weak reference while another one decodes a new one; the request comes after the
registration was cleared. -/
def clearedInTime : List HandleAction :=
  .decodeWeak 0 :: List.replicate 6 (.go 0) ++ [.dropWeak 0 1, .go 0] ++
    .decodeWeak 1 :: List.replicate 4 (.go 1) ++ [.go 0, .go 1, .go 0, .go 1, .go 0, .die]

/-- The new weak reference of such a run hears of death. -/
theorem hears_along_clearedInTime :
    ∃ s, exec step (new 7) clearedInTime = some s ∧ s.WeakAlive 2 ∧ s.Hears 2 := by
  obtain ⟨s, hrun, hstrong, halive⟩ :
      ∃ s, exec step (new 7) clearedInTime = some s ∧ s.weakStrong 2 = 1 ∧ s.alive 2 = true :=
    ⟨_, rfl, rfl, rfl⟩
  have hfree : Along step RequestsFree (new 7) clearedInTime := by decide
  have hweak : s.WeakAlive 2 := by
    rw [WeakAlive, hstrong]
    exact Nat.one_ne_zero
  exact ⟨s, hrun, hweak, hears_along hfree hrun 2 hweak halive⟩

/-- The same, but the request comes before the registration is cleared. -/
def clearedTooLate : List HandleAction :=
  .decodeWeak 0 :: List.replicate 6 (.go 0) ++ [.dropWeak 0 1] ++
    .decodeWeak 1 :: List.replicate 6 (.go 1) ++ List.replicate 4 (.go 0) ++ [.die]

/-- The new weak reference of such a run is alive for ever: the process is dead, nothing is
registered, and there is no record to read. -/
theorem not_hears_clearedTooLate :
    ∃ s, exec step (new 7) clearedTooLate = some s ∧ s.WeakAlive 2 ∧ s.alive 2 = true ∧
      s.dead = true ∧ s.registered = none ∧ s.records = [] ∧ ¬ s.Hears 2 := by
  obtain ⟨s, hrun, hstrong, halive, hdead, hregistered, hrecords⟩ :
      ∃ s, exec step (new 7) clearedTooLate = some s ∧ s.weakStrong 2 = 1 ∧ s.alive 2 = true ∧
        s.dead = true ∧ s.registered = none ∧ s.records = [] :=
    ⟨_, rfl, rfl, rfl, rfl, rfl, rfl⟩
  refine ⟨s, hrun, ?_, halive, hdead, hregistered, hrecords, fun hhears => ?_⟩
  · rw [WeakAlive, hstrong]
    exact Nat.one_ne_zero
  · have hsome := hhears.registered
    rw [hregistered] at hsome
    cases hsome

end RemoteHandle

end BinderBinder
