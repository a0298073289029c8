import BinderBinder.Refs.Ledger

set_option relaxedAutoImplicit false
set_option autoImplicit false

/-!
# The weak counts and the death notifications of references

A weak reference takes a weak count of its handle and requests a death notification when it is made,
and clears the notification and gives the count back when it is dropped. Like a reference it passes
the commands and the maps in order, each at most once.

## Main definitions

* `RefPhase.weakAt` — the weak reference that a thread works on, and the station it passes next.
* `RemoteHandle.WeakLedger` — the weak references stand where the commands and the maps say.

## Main results

* `RemoteHandle.weaks_step` — a step of a thread leaves the weak references alone or moves one on.
* `RemoteHandle.WeakLedger.step` — so there is a ledger behind every step.
-/

namespace BinderBinder

/-! ## Stations -/

/-- The weak reference that a thread works on, and the station it passes next:
`death_notifications.insert` (1), `INCREFS` (2), `REQUEST_DEATH_NOTIFICATION` (3), the insertion into
`weak_refs` (4), `CLEAR_DEATH_NOTIFICATION` (6), `death_notifications.remove` (7), `DECREFS` (8). Its
cookie is drawn at 0, and its last handle is dropped at 5. -/
def RefPhase.weakAt : RefPhase → Option (ℕ × ℕ)
  | .insertingToken _ c => some (c, 1)
  | .increfs _ c => some (c, 2)
  | .requesting _ c => some (c, 3)
  | .insertingWeak _ c => some (c, 4)
  | .clearing c => some (c, 6)
  | .removingToken c => some (c, 7)
  | .decrefs c => some (c, 8)
  | _ => none

/-- Where no thread works on a weak reference: it is not made yet, it is alive, or it is gone. -/
def WeakRest (n : ℕ) : Prop := n = 0 ∨ n = 5 ∨ 9 ≤ n

/-- Whether a weak reference is at rest is decided by its place. -/
instance : DecidablePred WeakRest := fun n => inferInstanceAs (Decidable (n = 0 ∨ n = 5 ∨ 9 ≤ n))

/-- The thread has `weak_refs.remove_if` before it, behind a weak reference that was dropped. -/
def RefPhase.evictsWeak : RefPhase → Bool
  | .clearing _ | .removingToken _ | .decrefs _ | .evictingWeak => true
  | _ => false

/-- A command that is about weak counts or death notifications of handles. -/
def Command.isWeak : Command → Bool
  | .increfs _ | .decrefs _ | .requestDeathNotification _ _ | .clearDeathNotification _ _ => true
  | _ => false

/-- The cookie of a `REQUEST_DEATH_NOTIFICATION`. -/
def Command.requestedCookie : Command → Option Usize
  | .requestDeathNotification _ cookie => some cookie
  | _ => none

/-- The cookie of a `CLEAR_DEATH_NOTIFICATION`. -/
def Command.clearedCookie : Command → Option Usize
  | .clearDeathNotification _ cookie => some cookie
  | _ => none

namespace RemoteHandle

/-- The weak counts of the handle that were taken. -/
def increfed (s : RemoteHandle) : ℕ := s.written.count (.increfs s.handle)

/-- The weak counts of the handle that were given back. -/
def decrefed (s : RemoteHandle) : ℕ := s.written.count (.decrefs s.handle)

/-- The cookies that death notifications were requested for, in order. -/
def requestedCookies (s : RemoteHandle) : List Usize := s.written.filterMap Command.requestedCookie

/-- The cookies whose death notifications were cleared, in order. -/
def clearedCookies (s : RemoteHandle) : List Usize := s.written.filterMap Command.clearedCookie

/-! ## Weak references -/

/-- The weak references stand where the commands and the maps say; what `weak_refs` points at is alive
or on its way out of the map. -/
structure WeakLedger (s : RemoteHandle) (p : Stations ℕ) : Prop where
  tracked : p.Tracked WeakRest 5 (RefPhase.weakAt ∘ s.phase) s.WeakAlive s.deathCounter
  increfed : s.increfed = (p.log 2).length
  decrefed : s.decrefed = (p.log 8).length
  requested : s.requestedCookies = (p.log 3).reverse.map UInt64.ofNat
  cleared : s.clearedCookies = (p.log 6).reverse.map UInt64.ofNat
  token : ∀ c, s.deathNotifications c ≠ none → 1 < p.place c ∧ p.place c < 8
  registered : ∀ c, s.registered = some c → 3 < p.place c ∧ p.place c < 7
  mapped : ∀ c, s.weakRefs = some c → s.WeakAlive c ∨ ∃ t, (s.phase t).evictsWeak = true

/-- Nothing happens to a weak reference, but that `BR_DEAD_BINDER` may take its token and
`weak_refs.remove_if` its entry. -/
structure SameWeaks (s s' : RemoteHandle) : Prop where
  phase : RefPhase.weakAt ∘ s'.phase = RefPhase.weakAt ∘ s.phase
  alive : s'.WeakAlive = s.WeakAlive := by rfl
  deathCounter : s'.deathCounter = s.deathCounter := by rfl
  increfed : s'.increfed = s.increfed := by rfl
  decrefed : s'.decrefed = s.decrefed := by rfl
  requested : s'.requestedCookies = s.requestedCookies := by rfl
  cleared : s'.clearedCookies = s.clearedCookies := by rfl
  token : ∀ c, s'.deathNotifications c ≠ none → s.deathNotifications c ≠ none := by exact fun _ h => h
  registered : s'.registered = s.registered := by rfl
  weakRefs : ∀ c, s'.weakRefs = some c → s.weakRefs = some c := by exact fun _ h => h
  evicts : ∀ t, (s.phase t).evictsWeak = true →
    (s'.phase t).evictsWeak = true ∨ ∀ c, s'.weakRefs = some c → s.WeakAlive c

/-- The thread `t` moves the weak reference `c` over station `n`. -/
structure MovesWeak (s s' : RemoteHandle) (t c n : ℕ) : Prop where
  station : (s.phase t).weakAt = some (c, n) ∨
    (s.phase t).weakAt = none ∧ (n = 0 ∧ c = s.deathCounter ∨ n = 5 ∧ s.WeakAlive c)
  phase : RefPhase.weakAt ∘ s'.phase = Function.update (RefPhase.weakAt ∘ s.phase) t
    (if WeakRest (n + 1) then none else some (c, n + 1))
  alive : ∀ d, s'.WeakAlive d ↔ s.WeakAlive d ∧ ¬ (d = c ∧ n = 5) ∨ d = c ∧ n + 1 = 5
  deathCounter : s'.deathCounter = s.deathCounter + if n = 0 then 1 else 0
  increfed : s'.increfed = s.increfed + if n = 2 then 1 else 0
  decrefed : s'.decrefed = s.decrefed + if n = 8 then 1 else 0
  requested : s'.requestedCookies =
    s.requestedCookies ++ if n = 3 then [UInt64.ofNat c] else []
  cleared : s'.clearedCookies = s.clearedCookies ++ if n = 6 then [UInt64.ofNat c] else []
  token : ∀ d, s'.deathNotifications d ≠ none →
    s.deathNotifications d ≠ none ∧ ¬ (d = c ∧ n = 7) ∨ d = c ∧ n = 1
  registered : ∀ d, s'.registered = some d →
    s.registered = some d ∧ ¬ (d = c ∧ n = 6) ∨ d = c ∧ n = 3
  weakRefs : ∀ d, s'.weakRefs = some d → s.weakRefs = some d ∨ d = c ∧ n = 4
  evicts : ∀ u, (s.phase u).evictsWeak = true → (s'.phase u).evictsWeak = true
  evicting : n = 5 → (s'.phase t).evictsWeak = true

/-- The command that is written for a weak reference at its station `n`. -/
def WritesWeak (s : RemoteHandle) (c n : ℕ) (cmd : Command) : Prop :=
  n = 2 ∧ cmd = .increfs s.handle ∨
    n = 3 ∧ cmd = .requestDeathNotification s.handle (UInt64.ofNat c) ∨
    n = 6 ∧ cmd = .clearDeathNotification s.handle (UInt64.ofNat c) ∨
    n = 8 ∧ cmd = .decrefs s.handle

/-- A command is written at four stations. -/
theorem WritesWeak.station {s : RemoteHandle} {c n : ℕ} {cmd : Command} (h : s.WritesWeak c n cmd) :
    n = 2 ∨ n = 3 ∨ n = 6 ∨ n = 8 :=
  h.imp And.left (Or.imp And.left (Or.imp And.left And.left))

/-- Nothing was decoded yet. -/
theorem weakLedger_new (handle : UInt32) : (new handle).WeakLedger Stations.new where
  tracked := .new (Or.inl rfl) (by decide) (fun _ => rfl) (not_weakAlive_new handle)
  increfed := rfl
  decrefed := rfl
  requested := rfl
  cleared := rfl
  token c hc := absurd rfl hc
  registered c hc := by cases hc
  mapped c hc := by cases hc

namespace WeakLedger

variable {s s' : RemoteHandle} {p : Stations ℕ}

/-- A step that leaves the weak references alone. -/
theorem stay (hs : s.WeakLedger p) (h : s.SameWeaks s') : s'.WeakLedger p where
  tracked := by
    rw [h.phase, h.alive, h.deathCounter]
    exact hs.tracked
  increfed := h.increfed.trans hs.increfed
  decrefed := h.decrefed.trans hs.decrefed
  requested := h.requested.trans hs.requested
  cleared := h.cleared.trans hs.cleared
  token c hc := hs.token c (h.token c hc)
  registered c hc := hs.registered c (h.registered ▸ hc)
  mapped c hc := by
    rw [h.alive]
    rcases hs.mapped c (h.weakRefs c hc) with halive | ⟨t, ht⟩
    · exact Or.inl halive
    · rcases h.evicts t ht with ht' | halive
      · exact Or.inr ⟨t, ht'⟩
      · exact Or.inl (halive c hc)

/-- The list of a station's cookies behind a move. -/
theorem cookies_moveOn (p : Stations ℕ) (t c n : ℕ) :
    ((p.moveOn WeakRest t c).log n).reverse.map UInt64.ofNat =
      (p.log n).reverse.map UInt64.ofNat ++
        if p.place c = n then [UInt64.ofNat c] else [] := by
  by_cases hn : n = p.place c
  · subst hn
    simp
  · rw [Stations.moveOn_log_of_ne p t c hn, if_neg (fun h => hn h.symm), List.append_nil]

/-- **Step.** A step that moves a weak reference on. -/
theorem move (hs : s.WeakLedger p) {t c n : ℕ} (h : s.MovesWeak s' t c n) :
    s'.WeakLedger (p.moveOn WeakRest t c) := by
  have hmay : (s.phase t).weakAt = some (c, n) ∨
      (s.phase t).weakAt = none ∧ p.place c = n ∧ WeakRest n := by
    refine h.station.imp_right ?_
    rintro ⟨hnone, ⟨rfl, rfl⟩ | ⟨rfl, halive⟩⟩
    · exact ⟨hnone, hs.tracked.fresh _ (Nat.le_refl _), Or.inl rfl⟩
    · exact ⟨hnone, (hs.tracked.alive c).mp halive, Or.inr (Or.inl rfl)⟩
  have hplace : p.place c = n := hs.tracked.place_of_move hmay
  have hnew : n = 0 → c = s.deathCounter := by
    rintro rfl
    rcases h.station with hc | ⟨-, ⟨-, hc⟩ | ⟨h0, -⟩⟩
    · cases hphase : s.phase t <;> rw [hphase] at hc <;> cases hc
    · exact hc
    · cases h0
  refine ⟨?_, ?_, ?_, ?_, ?_, fun d hd => ?_, fun d hd => ?_, fun d hd => ?_⟩
  · rw [h.phase]
    exact hs.tracked.move hmay h.alive h.deathCounter hnew
  · rw [h.increfed, hs.increfed, Stations.length_moveOn_log, hplace]
  · rw [h.decrefed, hs.decrefed, Stations.length_moveOn_log, hplace]
  · rw [h.requested, hs.requested, cookies_moveOn, hplace]
  · rw [h.cleared, hs.cleared, cookies_moveOn, hplace]
  · by_cases hdc : d = c
    · subst hdc
      rw [Stations.moveOn_place_self]
      rcases h.token d hd with ⟨hold, hne⟩ | ⟨-, rfl⟩
      · have htoken := hs.token d hold
        omega
      · omega
    · rw [Stations.moveOn_place_of_ne p t hdc]
      exact hs.token d ((h.token d hd).resolve_right fun hnew => hdc hnew.1).1
  · by_cases hdc : d = c
    · subst hdc
      rw [Stations.moveOn_place_self]
      rcases h.registered d hd with ⟨hold, hne⟩ | ⟨-, rfl⟩
      · have hregistered := hs.registered d hold
        omega
      · omega
    · rw [Stations.moveOn_place_of_ne p t hdc]
      exact hs.registered d ((h.registered d hd).resolve_right fun hnew => hdc hnew.1).1
  · rw [h.alive d]
    rcases h.weakRefs d hd with hold | ⟨rfl, rfl⟩
    · rcases hs.mapped d hold with halive | ⟨u, hu⟩
      · by_cases hdies : d = c ∧ n = 5
        · exact Or.inr ⟨t, h.evicting hdies.2⟩
        · exact Or.inl (Or.inl ⟨halive, hdies⟩)
      · exact Or.inr ⟨u, h.evicts u hu⟩
    · exact Or.inl (Or.inr ⟨rfl, rfl⟩)

end WeakLedger

/-! ### What a step does -/

/-- One step after another. -/
theorem SameWeaks.trans {s s' s'' : RemoteHandle} (h : s.SameWeaks s') (h' : s'.SameWeaks s'') :
    s.SameWeaks s'' where
  phase := h'.phase.trans h.phase
  alive := h'.alive.trans h.alive
  deathCounter := h'.deathCounter.trans h.deathCounter
  increfed := h'.increfed.trans h.increfed
  decrefed := h'.decrefed.trans h.decrefed
  requested := h'.requested.trans h.requested
  cleared := h'.cleared.trans h.cleared
  token c hc := h.token c (h'.token c hc)
  registered := h'.registered.trans h.registered
  weakRefs c hc := h.weakRefs c (h'.weakRefs c hc)
  evicts t ht := by
    rcases h.evicts t ht with ht' | halive
    · rcases h'.evicts t ht' with ht'' | halive
      · exact Or.inl ht''
      · exact Or.inr fun c hc => h.alive ▸ halive c hc
    · exact Or.inr fun c hc => halive c (h'.weakRefs c hc)

/-- A thread that goes on keeps what it has before it, if it had something to evict. -/
theorem evicts_setPhase {s : RemoteHandle} {t : ℕ} {q : RefPhase}
    (h : (s.phase t).evictsWeak = true → q.evictsWeak = true) (u : ℕ)
    (hu : (s.phase u).evictsWeak = true) : ((s.setPhase t q).phase u).evictsWeak = true := by
  simp only [setPhase]
  by_cases hut : u = t
  · subst hut
    rw [Function.update_self]
    exact h hu
  · rwa [Function.update_of_ne hut]

/-- A thread goes on with the same weak reference, or with none as before. -/
theorem sameWeaks_setPhase {s : RemoteHandle} {t : ℕ} {q : RefPhase}
    (h : q.weakAt = (s.phase t).weakAt)
    (he : (s.phase t).evictsWeak = true → q.evictsWeak = true) : s.SameWeaks (s.setPhase t q) where
  phase := comp_setPhase_of_eq h
  evicts u hu := Or.inl (evicts_setPhase he u hu)

/-- A command about something else. -/
theorem sameWeaks_write (s : RemoteHandle) {cmd : Command} (h : cmd.isWeak = false) :
    s.SameWeaks (s.write cmd) where
  phase := rfl
  increfed := by
    have hne : cmd ≠ .increfs s.handle := by
      rintro rfl
      cases h
    simp [increfed, write, List.count_append, hne]
  decrefed := by
    have hne : cmd ≠ .decrefs s.handle := by
      rintro rfl
      cases h
    simp [decrefed, write, List.count_append, hne]
  requested := by
    have hnone : cmd.requestedCookie = none := by
      cases cmd <;> first | rfl | cases h
    simp [requestedCookies, write, hnone]
  cleared := by
    have hnone : cmd.clearedCookie = none := by
      cases cmd <;> first | rfl | cases h
    simp [clearedCookies, write, hnone]
  evicts _ ht := Or.inl ht

/-- One handle more of a weak reference that is alive. -/
theorem sameWeaks_consArc {s : RemoteHandle} {c : ℕ} (hc : s.WeakAlive c) :
    s.SameWeaks { s with weakArcs := c :: s.weakArcs } where
  phase := rfl
  alive := by
    funext d
    refine propext ⟨weakAlive_of_consArc hc, fun hd => ?_⟩
    rw [weakAlive_iff] at hd ⊢
    exact hd.imp_left (List.mem_cons_of_mem c)
  evicts _ ht := Or.inl ht

/-- A weak reference that is found alive and gets one more handle. -/
theorem sameWeaks_takeWeak {s : RemoteHandle} {t c : ℕ} (hc : s.WeakAlive c) (forRef : Bool)
    (h : (s.phase t).weakAt = none) (he : (s.phase t).evictsWeak = false) :
    s.SameWeaks (s.takeWeak t c forRef) := by
  have halive : (s.takeWeak t c forRef).WeakAlive = s.WeakAlive := by
    rw [weakAlive_takeWeak]
    funext d
    refine propext (or_iff_left_of_imp ?_)
    rintro rfl
    exact hc
  have hevicts : ∀ q : RefPhase, (s.phase t).evictsWeak = true → q.evictsWeak = true := by
    intro q hq
    rw [he] at hq
    cases hq
  cases forRef with
  | false =>
    exact {
      phase := comp_setPhase_of_eq h.symm
      alive := halive
      evicts := fun u hu => Or.inl (evicts_setPhase (hevicts .idle) u hu) }
  | true =>
    exact {
      phase := comp_setPhase_of_eq h.symm
      alive := halive
      evicts := fun u hu => Or.inl (evicts_setPhase (hevicts (.acquiring s.nextRef)) u hu) }

/-- A weak reference that was made is inserted and gets its first handle. -/
theorem movesWeak_insertWeak {s : RemoteHandle} {t c : ℕ} {forRef : Bool}
    (hp : s.phase t = .insertingWeak forRef c) :
    s.MovesWeak ({ s with weakRefs := some c }.takeWeak t c forRef) t c 4 := by
  have halive : ∀ d, ({ s with weakRefs := some c }.takeWeak t c forRef).WeakAlive d ↔
      s.WeakAlive d ∧ ¬ (d = c ∧ 4 = 5) ∨ d = c ∧ 4 + 1 = 5 := by
    intro d
    rw [weakAlive_takeWeak]
    show s.WeakAlive d ∨ d = c ↔ _
    simp
  have hevicts : ∀ q : RefPhase, (s.phase t).evictsWeak = true → q.evictsWeak = true := by
    intro q hq
    rw [hp] at hq
    cases hq
  have hwhere : (s.phase t).weakAt = some (c, 4) := congrArg RefPhase.weakAt hp
  have hmapped : ∀ d, some c = some d → s.weakRefs = some d ∨ d = c ∧ 4 = 4 :=
    fun d hd => Or.inr ⟨(Option.some.inj hd).symm, rfl⟩
  cases forRef with
  | false =>
    exact ⟨Or.inl hwhere, comp_setPhase RefPhase.weakAt s t .idle, halive, rfl, rfl, rfl,
      (List.append_nil _).symm, (List.append_nil _).symm, fun d hd => Or.inl ⟨hd, by simp⟩,
      fun d hd => Or.inl ⟨hd, by simp⟩, hmapped, evicts_setPhase (hevicts .idle), by simp⟩
  | true =>
    exact ⟨Or.inl hwhere, comp_setPhase RefPhase.weakAt s t (.acquiring s.nextRef), halive, rfl, rfl,
      rfl, (List.append_nil _).symm, (List.append_nil _).symm, fun d hd => Or.inl ⟨hd, by simp⟩,
      fun d hd => Or.inl ⟨hd, by simp⟩, hmapped, evicts_setPhase (hevicts (.acquiring s.nextRef)),
      by simp⟩

/-- A handle of a weak reference is gone: the weak reference is dropped behind its last one. -/
theorem weaks_leaveWeak {s : RemoteHandle} {t c : ℕ} {arcs : List ℕ} {fields : List (ℕ × ℕ)}
    (h : (s.phase t).weakAt = none) (he : (s.phase t).evictsWeak = false) (hc : s.WeakAlive c)
    (hothers : ∀ d, d ≠ c →
      { s with weakArcs := arcs, weakFields := fields }.weakStrong d = s.weakStrong d) :
    s.SameWeaks ({ s with weakArcs := arcs, weakFields := fields }.leaveWeak t c) ∨
      ∃ d n, s.MovesWeak ({ s with weakArcs := arcs, weakFields := fields }.leaveWeak t c) t d n := by
  have hevicts : ∀ q : RefPhase, (s.phase t).evictsWeak = true → q.evictsWeak = true := by
    intro q hq
    rw [he] at hq
    cases hq
  by_cases hlast : { s with weakArcs := arcs, weakFields := fields }.weakStrong c = 0
  · rw [leaveWeak, if_pos hlast]
    refine Or.inr ⟨c, 5, Or.inr ⟨h, Or.inr ⟨rfl, hc⟩⟩, ?_, fun d => ?_, rfl, rfl, rfl,
      (List.append_nil _).symm, (List.append_nil _).symm, fun d hd => Or.inl ⟨hd, by simp⟩,
      fun d hd => Or.inl ⟨hd, by simp⟩, fun d hd => Or.inl hd, evicts_setPhase (hevicts _),
      fun _ => ?_⟩
    · exact comp_setPhase RefPhase.weakAt s t (.clearing c)
    · show { s with weakArcs := arcs, weakFields := fields }.weakStrong d ≠ 0 ↔
        s.weakStrong d ≠ 0 ∧ _ ∨ _
      by_cases hdc : d = c
      · subst hdc
        simp [hlast]
      · rw [hothers d hdc]
        simp [hdc]
    · show (Function.update s.phase t (.clearing c) t).evictsWeak = true
      rw [Function.update_self]
      rfl
  · rw [leaveWeak, if_neg hlast]
    refine Or.inl { phase := comp_setPhase_of_eq h.symm, alive := ?_,
                    evicts := fun u hu => Or.inl (evicts_setPhase (hevicts .idle) u hu) }
    funext d
    show ({ s with weakArcs := arcs, weakFields := fields }.weakStrong d ≠ 0) = (s.weakStrong d ≠ 0)
    by_cases hdc : d = c
    · subst hdc
      exact propext (iff_of_true hlast hc)
    · rw [hothers d hdc]

/-- The other weak references have as many handles as before when one loses a field. -/
theorem weakStrong_eraseField {s : RemoteHandle} {i c d : ℕ} (h : s.weakFields.lookup i = some c)
    (hd : d ≠ c) :
    { s with weakFields := s.weakFields.erase (i, c) }.weakStrong d = s.weakStrong d := by
  have hmem : (i, c) ∈ s.weakFields := by
    obtain ⟨before, after, hsplit, -⟩ := List.lookup_eq_some_iff.mp h
    rw [hsplit]
    simp
  have hperm := ((List.perm_cons_erase hmem).map Prod.snd).count_eq d
  rw [List.map_cons, List.count_cons_of_ne (by exact fun heq => hd heq.symm)] at hperm
  rw [weakStrong, weakStrong, hperm]

/-- The other weak references have as many handles as before when a user drops one. -/
theorem weakStrong_eraseArc (s : RemoteHandle) {c d : ℕ} (hd : d ≠ c) :
    { s with weakArcs := s.weakArcs.erase c }.weakStrong d = s.weakStrong d := by
  rw [weakStrong, weakStrong, List.count_erase_of_ne hd]

/-- What is counted behind a command that is written for a weak reference. -/
theorem WritesWeak.counts {s : RemoteHandle} {c n : ℕ} {cmd : Command} (h : s.WritesWeak c n cmd) :
    (s.write cmd).increfed = s.increfed + (if n = 2 then 1 else 0) ∧
      (s.write cmd).decrefed = s.decrefed + (if n = 8 then 1 else 0) ∧
      (s.write cmd).requestedCookies =
        s.requestedCookies ++ (if n = 3 then [UInt64.ofNat c] else []) ∧
      (s.write cmd).clearedCookies =
        s.clearedCookies ++ if n = 6 then [UInt64.ofNat c] else [] := by
  rcases h with ⟨rfl, rfl⟩ | ⟨rfl, rfl⟩ | ⟨rfl, rfl⟩ | ⟨rfl, rfl⟩ <;>
    simp [increfed, decrefed, requestedCookies, clearedCookies, write, List.count_append,
      Command.requestedCookie, Command.clearedCookie]

/-- A thread writes a command for the weak reference that it works on, and goes to the next station;
what the kernel has of the handle may change with it. -/
theorem movesWeak_write {s : RemoteHandle} {t c n : ℕ} {cmd : Command} {q : RefPhase}
    (hp : (s.phase t).weakAt = some (c, n)) (hcmd : s.WritesWeak c n cmd)
    (hq : q.weakAt = if WeakRest (n + 1) then none else some (c, n + 1))
    (he : (s.phase t).evictsWeak = true → q.evictsWeak = true) {slot : Option ℕ} {records : List ℕ}
    (hslot : ∀ d, slot = some d → s.registered = some d ∧ ¬ (d = c ∧ n = 6) ∨ d = c ∧ n = 3) :
    s.MovesWeak (({ s with registered := slot, records := records }.write cmd).setPhase t q)
      t c n := by
  have hn := hcmd.station
  obtain ⟨hincrefed, hdecrefed, hrequested, hcleared⟩ := hcmd.counts
  refine ⟨Or.inl hp, ?_, fun d => ?_, ?_, hincrefed, hdecrefed, hrequested, hcleared,
    fun d hd => Or.inl ⟨hd, by omega⟩, hslot, fun d hd => Or.inl hd, evicts_setPhase he, by omega⟩
  · exact (comp_setPhase RefPhase.weakAt s t q).trans (by rw [hq])
  · show s.WeakAlive d ↔ _
    have hmade : n ≠ 5 ∧ n + 1 ≠ 5 := by omega
    simp [hmade]
  · rw [if_neg (by omega)]
    rfl

/-- The next step of a thread leaves the weak references alone or moves one on. -/
theorem weaks_go {s s' : RemoteHandle} {t : ℕ} {p : RefPhase} (hp : s.phase t = p)
    (h : s.go t p = some s') : s.SameWeaks s' ∨ ∃ c n, s.MovesWeak s' t c n := by
  have hquiet : ∀ {q : RefPhase}, q.weakAt = p.weakAt →
      (p.evictsWeak = true → q.evictsWeak = true) → s.SameWeaks (s.setPhase t q) := by
    intro q hq he
    exact sameWeaks_setPhase (by rw [hq, hp]) (by rw [hp]; exact he)
  have hwrites : ∀ {cmd : Command} {q : RefPhase}, cmd.isWeak = false → q.weakAt = p.weakAt →
      (p.evictsWeak = true → q.evictsWeak = true) →
      s.SameWeaks ((s.write cmd).setPhase t q) := by
    intro cmd q hcmd hq he
    refine (sameWeaks_write s hcmd).trans (sameWeaks_setPhase ?_ ?_)
    · exact hq.trans (congrArg RefPhase.weakAt hp).symm
    · show (s.phase t).evictsWeak = true → _
      rw [hp]
      exact he
  have hkeep : ∀ {q : RefPhase}, (p.evictsWeak = true → q.evictsWeak = true) → ∀ u,
      (s.phase u).evictsWeak = true → ((s.setPhase t q).phase u).evictsWeak = true := by
    intro q he
    exact evicts_setPhase (by rw [hp]; exact he)
  cases p with
  | idle => cases h
  | lookingUpRef =>
    simp only [go] at h
    split at h
    · next i hi =>
      cases h
      exact Or.inl { phase := comp_setPhase_of_eq (congrArg RefPhase.weakAt hp).symm
                     evicts := fun u hu => Or.inl (hkeep (by simp [RefPhase.evictsWeak]) u hu) }
    · cases h
      exact Or.inl (hquiet rfl (by simp [RefPhase.evictsWeak]))
  | acquiring i =>
    cases h
    exact Or.inl (hwrites rfl rfl (by simp [RefPhase.evictsWeak]))
  | insertingRef i =>
    cases h
    exact Or.inl { phase := comp_setPhase_of_eq (congrArg RefPhase.weakAt hp).symm
                   evicts := fun u hu => Or.inl (hkeep (by simp [RefPhase.evictsWeak]) u hu) }
  | lookingUpWeak forRef =>
    simp only [go] at h
    split at h
    · next c hc =>
      cases h
      have halive := (upgradeWeak_eq_some.mp hc).2
      exact Or.inl (sameWeaks_takeWeak halive forRef (by rw [hp]; rfl) (by rw [hp]; rfl))
    · cases h
      exact Or.inl (hquiet rfl (by simp [RefPhase.evictsWeak]))
  | drawing forRef =>
    cases h
    refine Or.inr ⟨s.deathCounter, 0, Or.inr ⟨by rw [hp]; rfl, Or.inl ⟨rfl, rfl⟩⟩, ?_, fun d => ?_,
      rfl, rfl, rfl, (List.append_nil _).symm, (List.append_nil _).symm,
      fun d hd => Or.inl ⟨hd, by simp⟩, fun d hd => Or.inl ⟨hd, by simp⟩, fun d hd => Or.inl hd,
      hkeep (by simp [RefPhase.evictsWeak]), by simp⟩
    · exact comp_setPhase RefPhase.weakAt s t (.insertingToken forRef s.deathCounter)
    · show s.WeakAlive d ↔ _
      simp
  | insertingToken forRef c =>
    cases h
    refine Or.inr ⟨c, 1, Or.inl (by rw [hp]; rfl), ?_, fun d => ?_, rfl, rfl, rfl,
      (List.append_nil _).symm, (List.append_nil _).symm, fun d hd => ?_,
      fun d hd => Or.inl ⟨hd, by simp⟩, fun d hd => Or.inl hd,
      hkeep (by simp [RefPhase.evictsWeak]), by simp⟩
    · exact comp_setPhase RefPhase.weakAt (s.insertToken c) t (.increfs forRef c)
    · show s.WeakAlive d ↔ _
      simp
    · by_cases hdc : d = c
      · exact Or.inr ⟨hdc, rfl⟩
      · refine Or.inl ⟨?_, by simp⟩
        have hne : s.deathNotifications.insert c c d ≠ none := hd
        rwa [DashMap.insert_of_ne _ _ hdc] at hne
  | increfs forRef c =>
    cases h
    exact Or.inr ⟨c, 2, movesWeak_write (by rw [hp]; rfl) (Or.inl ⟨rfl, rfl⟩) rfl
      (by rw [hp]; simp [RefPhase.evictsWeak]) fun d hd => Or.inl ⟨hd, by simp⟩⟩
  | requesting forRef c =>
    cases h
    refine Or.inr ⟨c, 3, movesWeak_write (by rw [hp]; rfl) (Or.inr (Or.inl ⟨rfl, rfl⟩)) rfl
      (by rw [hp]; simp [RefPhase.evictsWeak]) fun d hd => ?_⟩
    -- the registration that was there stays, or `c` gets it
    cases hregistered : s.registered with
    | none =>
      rw [hregistered] at hd
      exact Or.inr ⟨(Option.some.inj hd).symm, rfl⟩
    | some e =>
      rw [hregistered] at hd
      exact Or.inl ⟨hd, by simp⟩
  | insertingWeak forRef c =>
    cases h
    exact Or.inr ⟨c, 4, movesWeak_insertWeak hp⟩
  | releasing i =>
    cases h
    exact Or.inl (hwrites rfl rfl (by simp [RefPhase.evictsWeak]))
  | evictingRef i =>
    cases h
    exact Or.inl { phase := comp_setPhase_of_eq (s := s.evictRef) (congrArg RefPhase.weakAt hp).symm
                   evicts := fun u hu => Or.inl (hkeep (by simp [RefPhase.evictsWeak]) u hu) }
  | droppingField i =>
    obtain ⟨c, hc, rfl⟩ := Option.map_eq_some_iff.mp h
    exact weaks_leaveWeak (by rw [hp]; rfl) (by rw [hp]; rfl) (weakAlive_of_lookup hc)
      fun d hd => weakStrong_eraseField hc hd
  | clearing c =>
    cases h
    refine Or.inr ⟨c, 6, movesWeak_write (by rw [hp]; rfl) (Or.inr (Or.inr (Or.inl ⟨rfl, rfl⟩))) rfl
      (by rw [hp]; simp [RefPhase.evictsWeak]) fun d hd => Or.inl ?_⟩
    split_ifs at hd with hmine
    refine ⟨hd, ?_⟩
    rintro ⟨rfl, -⟩
    exact hmine hd
  | removingToken c =>
    cases h
    refine Or.inr ⟨c, 7, Or.inl (by rw [hp]; rfl), ?_, fun d => ?_, rfl, rfl, rfl,
      (List.append_nil _).symm, (List.append_nil _).symm, fun d hd => Or.inl ?_,
      fun d hd => Or.inl ⟨hd, by simp⟩, fun d hd => Or.inl hd,
      hkeep (by simp [RefPhase.evictsWeak]), by simp⟩
    · exact comp_setPhase RefPhase.weakAt (s.removeToken c) t (.decrefs c)
    · show s.WeakAlive d ↔ _
      simp
    · have hne : s.deathNotifications.remove c d ≠ none := hd
      by_cases hdc : d = c
      · subst hdc
        rw [DashMap.remove_self] at hne
        exact absurd rfl hne
      · rw [DashMap.remove_of_ne _ hdc] at hne
        exact ⟨hne, fun heq => hdc heq.1⟩
  | decrefs c =>
    cases h
    exact Or.inr ⟨c, 8, movesWeak_write (by rw [hp]; rfl) (Or.inr (Or.inr (Or.inr ⟨rfl, rfl⟩))) rfl
      (by rw [hp]; simp [RefPhase.evictsWeak]) fun d hd => Or.inl ⟨hd, by simp⟩⟩
  | evictingWeak =>
    cases h
    refine Or.inl { phase := comp_setPhase_of_eq (s := s.evictWeak)
                      (congrArg RefPhase.weakAt hp).symm, weakRefs := ?_, evicts := ?_ }
    · intro d hd
      simp only [setPhase, evictWeak] at hd
      split_ifs at hd
      exact hd
    · -- what `remove_if` leaves in the map is alive
      intro u _
      refine Or.inr fun d hd => ?_
      simp only [setPhase, evictWeak] at hd
      split_ifs at hd with hdead
      rw [hd, Option.any_some, beq_iff_eq] at hdead
      exact hdead
  | deadBinderDone c =>
    cases h
    exact Or.inl (hwrites rfl rfl (by simp [RefPhase.evictsWeak]))

/-- A step leaves the weak references alone or moves one on. -/
theorem weaks_step {s s' : RemoteHandle} {a : HandleAction} (h : s.step a = some s') :
    s.SameWeaks s' ∨ ∃ t c n, s.MovesWeak s' t c n := by
  cases a with
  | go t => exact (weaks_go rfl h).imp_right fun hmove => ⟨t, hmove⟩
  | decodeRef t | decodeWeak t =>
    simp only [step] at h
    split_ifs at h with hp
    cases h
    exact Or.inl (sameWeaks_setPhase (by rw [hp]; rfl) (by rw [hp]; simp [RefPhase.evictsWeak]))
  | cloneRef i =>
    simp only [step] at h
    split_ifs at h
    cases h
    exact Or.inl { phase := rfl, evicts := fun _ hu => Or.inl hu }
  | cloneWeak c =>
    simp only [step] at h
    split_ifs at h with hc
    cases h
    exact Or.inl (sameWeaks_consArc (weakAlive_iff.mpr (Or.inl hc)))
  | downgrade i =>
    simp only [step] at h
    split_ifs at h
    obtain ⟨c, hc, rfl⟩ := Option.map_eq_some_iff.mp h
    exact Or.inl (sameWeaks_consArc (weakAlive_of_lookup hc))
  | upgrade c =>
    simp only [step] at h
    split_ifs at h
    split at h <;> cases h
    · exact Or.inl { phase := rfl, evicts := fun _ hu => Or.inl hu }
    · exact Or.inl { phase := rfl, evicts := fun _ hu => Or.inl hu }
  | dropRef t i =>
    simp only [step] at h
    split_ifs at h with hp
    cases h
    have harcs : s.SameWeaks { s with refArcs := s.refArcs.erase i } :=
      { phase := rfl, evicts := fun _ hu => Or.inl hu }
    refine Or.inl (harcs.trans (sameWeaks_setPhase ?_ ?_))
    · show _ = (s.phase t).weakAt
      rw [hp.1]
      split_ifs <;> rfl
    · show (s.phase t).evictsWeak = true → _
      rw [hp.1]
      simp [RefPhase.evictsWeak]
  | dropWeak t c =>
    simp only [step] at h
    split_ifs at h with hp
    cases h
    refine (weaks_leaveWeak ?_ ?_ (weakAlive_iff.mpr (Or.inl hp.2))
      fun d hd => weakStrong_eraseArc s hd).imp_right fun hmove => ⟨t, hmove⟩
    · rw [hp.1]
      rfl
    · rw [hp.1]
      rfl
  | die =>
    simp only [step] at h
    split_ifs at h
    cases h
    exact Or.inl { phase := rfl, evicts := fun _ hu => Or.inl hu }
  | deadBinder t c =>
    simp only [step] at h
    split_ifs at h with hp
    have hphase : RefPhase.weakAt ∘ (s.setPhase t (.deadBinderDone c)).phase =
        RefPhase.weakAt ∘ s.phase := comp_setPhase_of_eq (congrArg RefPhase.weakAt hp.1).symm
    have hkeep := evicts_setPhase (s := s) (t := t) (q := .deadBinderDone c)
      (by rw [hp.1]; simp [RefPhase.evictsWeak])
    split at h
    · cases h
      refine Or.inl { phase := hphase, token := fun d hd => ?_, evicts := fun u hu =>
                        Or.inl (hkeep u hu) }
      have hne : s.deathNotifications.remove c d ≠ none := hd
      by_cases hdc : d = c
      · subst hdc
        rw [DashMap.remove_self] at hne
        exact absurd rfl hne
      · rwa [DashMap.remove_of_ne _ hdc] at hne
    · cases h
      exact Or.inl { phase := hphase, evicts := fun u hu => Or.inl (hkeep u hu) }

/-- **Step.** There is a ledger of the weak references behind every step, and they only go forward. -/
theorem WeakLedger.step {s s' : RemoteHandle} {a : HandleAction} {p : Stations ℕ}
    (hs : s.WeakLedger p) (h : s.step a = some s') :
    ∃ p', s'.WeakLedger p' ∧ ∀ c, p.place c ≤ p'.place c := by
  rcases weaks_step h with hsame | ⟨t, c, n, hmove⟩
  · exact ⟨p, hs.stay hsame, fun _ => Nat.le_refl _⟩
  · exact ⟨p.moveOn WeakRest t c, hs.move hmove, fun d => p.place_le_moveOn t c d⟩

end RemoteHandle

end BinderBinder
