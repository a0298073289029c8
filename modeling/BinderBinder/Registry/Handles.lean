import BinderBinder.Registry.Objects

set_option relaxedAutoImplicit false
set_option autoImplicit false

/-!
# Handles and local counts

All objects of a device together with `object_id_counter`. A registration draws the next id, which
nobody has yet, and every other access is one to the life of an id. The counter is a `usize` and
wraps: an id that was given out before would have to be drawn again for a registration not to be
possible.

## Main definitions

* `ObjectTable`, `ObjectTable.step` — the objects of a device and the counter of their ids.
* `ObjectTable.Sound` — what every step preserves.

## Main results

* `ObjectTable.localRefs_eq_handles` — local counts match live handles, and every drop finds the
  reference that it gives back.
-/

namespace BinderBinder

open Run

/-- The lives of all ids of a device, and how many ids were given out. -/
structure ObjectTable where
  registered : ℕ
  lives : Registry

/-- `register_object`, or an access of a thread to an id. -/
inductive TableAction
  | registerObject (handler : HandlerRef)
  | access (id : BinderObjectId) (a : Action)
  deriving DecidableEq, Repr

/-- The access registers the id. -/
def Action.isRegister : Action → Bool
  | .register _ => true
  | _ => false

/-- A handle that gives a local reference back when it is dropped. -/
def Handle.givesBack (h : Handle) : Bool := h.kind == .typed || h.counted

namespace ObjectTable

/-- The id drawn after `n` others: `object_id_counter` starts at 1 and wraps. -/
def idOf (n : ℕ) : BinderObjectId := ⟨UInt64.ofNat (1 + n), 0⟩

/-- A device nothing was registered on. -/
def new : ObjectTable := ⟨0, Registry.new⟩

/-- One access of the thread `i`. -/
def step (s : ObjectTable) : ℕ × TableAction → Option ObjectTable
  | (i, .registerObject handler) =>
    (s.lives.step (idOf s.registered, i, .register handler)).map fun lives =>
      ⟨s.registered + 1, lives⟩
  | (i, .access id a) =>
    if a.isRegister then none
    else (s.lives.step (id, i, a)).map fun lives => { s with lives }

/-! ## What every step preserves -/

/-- The lives are in order, and only ids that were drawn have one. -/
structure Sound (s : ObjectTable) : Prop where
  owned : ∀ id, (s.lives id).Owned
  tallied : ∀ id, (s.lives id).Tallied
  drawn : ∀ id, (s.lives id).guard ≠ .unborn → ∃ n < s.registered, id = idOf n

/-- A new device is in order. -/
theorem sound_new : new.Sound where
  owned _ := Life.owned_unborn
  tallied _ := Life.tallied_unborn
  drawn _ h := (h rfl).elim

/-- An id that was not registered stays so until it is. -/
theorem guard_of_step {id : BinderObjectId} {s s' : Life} {i : ℕ} {a : Action} (howned : s.Owned)
    (ha : a.isRegister = false) (hguard : s.guard = .unborn) (h : s.step id (i, a) = some s') :
    s'.guard = .unborn := by
  obtain ⟨-, -, -, -, hops⟩ := howned.unborn hguard
  cases Life.step_effect h with
  | register _ => cases ha
  | serve huser _ => simp [hguard] at huser
  | dropGuard huser _ => simp [hguard] at huser
  | cleanUp hretained _ => simp [hguard] at hretained
  | uncount hmine => simp [hops] at hmine
  | _ => exact hguard

/-- A step of one life keeps all lives in order. -/
theorem lives_of_step {s s' : Registry} {l : BinderObjectId × ℕ × Action}
    (hs : ∀ id, (s id).Owned ∧ (s id).Tallied) (h : s.step l = some s') :
    ∀ id, (s' id).Owned ∧ (s' id).Tallied := by
  intro id
  obtain ⟨k, l⟩ := l
  rcases family_apply h id with hsame | ⟨rfl, hmine⟩
  · rw [hsame]
    exact hs id
  · exact ⟨(hs id).1.step hmine, (hs id).2.step (hs id).1 hmine⟩

/-- Every step keeps a device in order. -/
theorem Sound.step {s s' : ObjectTable} {l : ℕ × TableAction} (hs : s.Sound)
    (h : s.step l = some s') : s'.Sound := by
  obtain ⟨i, a⟩ := l
  have hlives : ∀ id, (s.lives id).Owned ∧ (s.lives id).Tallied :=
    fun id => ⟨hs.owned id, hs.tallied id⟩
  cases a with
  | registerObject handler =>
    obtain ⟨lives, hstep, rfl⟩ := Option.map_eq_some_iff.mp h
    have hlives' := lives_of_step hlives hstep
    refine ⟨fun id => (hlives' id).1, fun id => (hlives' id).2, fun id hborn => ?_⟩
    change (lives id).guard ≠ .unborn at hborn
    rcases family_apply hstep id with hsame | ⟨rfl, -⟩
    · rw [hsame] at hborn
      obtain ⟨n, hn, rfl⟩ := hs.drawn id hborn
      exact ⟨n, Nat.lt_succ_of_lt hn, rfl⟩
    · exact ⟨s.registered, Nat.lt_succ_self _, rfl⟩
  | access id a =>
    rw [ObjectTable.step] at h
    split_ifs at h with ha
    obtain ⟨lives, hstep, rfl⟩ := Option.map_eq_some_iff.mp h
    have hlives' := lives_of_step hlives hstep
    refine ⟨fun id => (hlives' id).1, fun id => (hlives' id).2, fun id' hborn => ?_⟩
    change (lives id').guard ≠ .unborn at hborn
    rcases family_apply hstep id' with hsame | ⟨rfl, hmine⟩
    · rw [hsame] at hborn
      exact hs.drawn id' hborn
    · refine hs.drawn id' fun hguard => hborn ?_
      exact guard_of_step (hs.owned id') (by simpa using ha) hguard hmine

/-- A step, seen from one id: it is about another, or it is an access to it, or its registration. -/
theorem life_of_step {s s' : ObjectTable} {l : ℕ × TableAction} (h : s.step l = some s')
    (id : BinderObjectId) : s'.lives id = s.lives id ∨
      ∃ i a, (s.lives id).step id (i, a) = some (s'.lives id) ∧
        (l = (i, .access id a) ∨ ∃ handler, a = .register handler) := by
  obtain ⟨i, a⟩ := l
  cases a with
  | registerObject handler =>
    obtain ⟨lives, hstep, rfl⟩ := Option.map_eq_some_iff.mp h
    rcases family_apply hstep id with hsame | ⟨rfl, hmine⟩
    · exact Or.inl hsame
    · exact Or.inr ⟨i, _, hmine, Or.inr ⟨handler, rfl⟩⟩
  | access id' a =>
    rw [ObjectTable.step] at h
    split_ifs at h
    obtain ⟨lives, hstep, rfl⟩ := Option.map_eq_some_iff.mp h
    rcases family_apply hstep id with hsame | ⟨rfl, hmine⟩
    · exact Or.inl hsame
    · exact Or.inr ⟨i, a, hmine, Or.inl rfl⟩

/-! ## Fresh ids -/

/-- The first `2 ^ 64` ids are different. -/
theorem idOf_injective {m n : ℕ} (hm : m < 2 ^ 64) (hn : n < 2 ^ 64) (h : idOf m = idOf n) :
    m = n := by
  have hword : UInt64.ofNat (1 + m) = UInt64.ofNat (1 + n) := congrArg BinderObjectId.id h
  have hnat := congrArg UInt64.toNat hword
  simp only [UInt64.toNat_ofNat'] at hnat
  omega

/-- As long as the counter has not wrapped, the next id is nobody's. -/
theorem Sound.unborn_next {s : ObjectTable} (hs : s.Sound) (hlt : s.registered < 2 ^ 64) :
    (s.lives (idOf s.registered)).guard = .unborn := by
  by_contra hborn
  obtain ⟨n, hn, hid⟩ := hs.drawn _ hborn
  have := idOf_injective hlt (Nat.lt_trans hn hlt) hid
  omega

/-! ## Drops -/

/-- A live handle that gives a reference back is one of those that the local count counts. -/
theorem localRefs_pos {st : ObjectRefState} {handles : List Handle} {h : Handle}
    (htally : Life.Tally st handles) (hmem : h ∈ handles) (hgives : h.givesBack = true) :
    0 < st.counts.localRefs := by
  have hcounted : h.counted = true := by
    rcases Bool.or_eq_true_iff.mp hgives with hkind | hcounted
    · exact htally.typed h hmem (by simpa using hkind)
    · exact hcounted
  rw [htally.counted]
  exact List.countP_pos_iff.mpr ⟨h, hmem, hcounted⟩

/-- The drop of a live handle does not panic. -/
theorem exists_dropHandle {s : Life} {h : Handle} (hs : s.Tallied) (hmem : h ∈ s.handles) :
    ∃ s', s.dropHandle h = some s' := by
  by_cases hgives : h.kind = .typed ∨ h.counted = true
  · cases hst : s.refcounts with
    | none => exact ⟨_, Life.dropHandle_of_none (Or.inl hst)⟩
    | some st =>
      have hpos := localRefs_pos (hs st hst) hmem (by simpa [Handle.givesBack] using hgives)
      obtain ⟨st', hst'⟩ := (hs st hst).published.exists_decreaseLocal hpos
      exact ⟨_, Life.dropHandle_of_some hgives hst hst'⟩
  · exact ⟨{ s with handles := s.handles.erase h }, by simp only [Life.dropHandle, if_neg hgives]⟩

/-- For every id with refcounts, `local` is the number of live handles that incremented it, and it is
above zero whenever a handle that will decrement it is alive; so no drop of a handle panics. Only a
counter that has wrapped can give out an id twice.

**Proof sketch.** The entries of an id are made when it is drawn and taken out once, by the drop of
its guard; so the handles made without refcounts are not counted, and as long as there are refcounts
every typed handle took a reference. -/
theorem localRefs_eq_handles {ls : List (ℕ × TableAction)} {s : ObjectTable}
    (h : exec step new ls = some s) :
    (∀ id st, (s.lives id).refcounts = some st →
      st.counts.localRefs = (s.lives id).handles.countP Handle.counted ∧
        ∀ handle ∈ (s.lives id).handles, handle.givesBack = true → 0 < st.counts.localRefs) ∧
    (∀ id i, (s.lives id).ops i = none → ∀ handle ∈ (s.lives id).handles,
      ∃ s', s.step (i, .access id (.dropHandle handle)) = some s') ∧
    (s.registered < 2 ^ 64 → ∀ i handler,
      ∃ s', s.step (i, .registerObject handler) = some s') := by
  have hs : s.Sound := exec_invariant Sound.step sound_new h
  refine ⟨fun id st hst => ?_, fun id i hidle handle hmem => ?_, fun hlt i handler => ?_⟩
  · have htally := hs.tallied id st hst
    exact ⟨htally.counted, fun handle hmem hgives => localRefs_pos htally hmem hgives⟩
  · obtain ⟨t, ht⟩ := exists_dropHandle (hs.tallied id) hmem
    refine ⟨⟨s.registered, Function.update s.lives id t⟩, ?_⟩
    simp [step, Action.isRegister, Registry.step, family, Life.step, hidle, Life.begin, hmem, ht]
  · have hguard := hs.unborn_next hlt
    obtain ⟨-, -, -, -, hops⟩ := (hs.owned _).unborn hguard
    have hregister : (s.lives (idOf s.registered)).step (idOf s.registered)
        (i, .register handler) = some { s.lives (idOf s.registered) with
          handler := some handler, refcounts := some (ObjectRefState.new (idOf s.registered)),
          guard := .user handler } := by
      simp [Life.step, hops, Life.begin, hguard]
    exact ⟨_, by rw [step, Registry.step, family, hregister]; rfl⟩

/-- A device with one object: a borrowed handle is made and cloned, a second thread makes a typed
one, the guard is dropped while a third is between its two lookups, and the clone is dropped after
the first removal. -/
def handlesAndGuard : List (ℕ × TableAction) :=
  (0, .registerObject ⟨7⟩) ::
    [(0, .toBinderObjectOrRef), (0, .clone ⟨.borrowed, ⟨7⟩, true⟩), (1, .downcast true), (1, .go),
      (2, .fromId), (0, .dropGuard), (0, .go), (2, .go),
      (1, .dropHandle ⟨.borrowed, ⟨7⟩, true⟩)].map fun l => (l.1, .access ⟨1, 0⟩ l.2)

/-- Three counted handles are left, two borrowed and one typed. -/
theorem localRefs_eq_handles_handlesAndGuard :
    ∃ s st, exec step new handlesAndGuard = some s ∧ (s.lives ⟨1, 0⟩).refcounts = some st ∧
      (s.lives ⟨1, 0⟩).handles =
        [⟨.typed, ⟨7⟩, true⟩, ⟨.borrowed, ⟨7⟩, true⟩, ⟨.borrowed, ⟨7⟩, true⟩] ∧
      st.counts.localRefs = 3 := by
  obtain ⟨s, st, hrun, hst, hhandles⟩ :
      ∃ s st, exec step new handlesAndGuard = some s ∧ (s.lives ⟨1, 0⟩).refcounts = some st ∧
        (s.lives ⟨1, 0⟩).handles =
          [⟨.typed, ⟨7⟩, true⟩, ⟨.borrowed, ⟨7⟩, true⟩, ⟨.borrowed, ⟨7⟩, true⟩] :=
    ⟨_, _, rfl, rfl, rfl⟩
  refine ⟨s, st, hrun, hst, hhandles, ?_⟩
  rw [((localRefs_eq_handles hrun).1 _ st hst).1, hhandles]
  rfl

end ObjectTable

end BinderBinder
