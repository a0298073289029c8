import BinderBinder.Refs.Device

set_option relaxedAutoImplicit false
set_option autoImplicit false

/-!
# Operations without interruption

A decode or a drop that no other thread interrupts goes through all its steps in a row. What is then
left of a handle is said at once, and what one thread does at a handle alone it does on a device on
which all threads are idle.

## Main definitions

* `RemoteHandle.makeWeak`, `RemoteHandle.makeRef`, `RemoteHandle.unmakeRef`,
  `RemoteHandle.unmakeWeak` — what references come and go with.
* `RemoteRefs.Rested` — a device between the operations of its threads.

## Main results

* `RemoteHandle.exec_decodeRef_made`, `RemoteHandle.exec_dropRef` and the others — one for each
  operation and outcome.
* `RemoteRefs.Rested.exec` — what is done at a handle alone is done on the device.
-/

namespace BinderBinder

open Run

namespace RemoteHandle

/-! ## What a thread does without interruption -/

variable {s s₁ s' : RemoteHandle} {t : ℕ} {p : RefPhase} {as : List HandleAction}

/-- A thread that goes to two phases is at the second. -/
theorem setPhase_setPhase (s : RemoteHandle) (t : ℕ) (p q : RefPhase) :
    (s.setPhase t p).setPhase t q = s.setPhase t q := by
  simp only [setPhase, Function.update_idem]

/-- What a thread does next does not depend on where it was. -/
theorem go_setPhase (s : RemoteHandle) (t : ℕ) (p q : RefPhase) :
    (s.setPhase t p).go t q = s.go t q := by
  have hidem : ∀ (s : RemoteHandle) (q : RefPhase),
      (s.setPhase t p).setPhase t q = s.setPhase t q := fun s q => setPhase_setPhase s t p q
  have htake : ∀ (s : RemoteHandle) (c : ℕ) (forRef : Bool),
      (s.setPhase t p).takeWeak t c forRef = s.takeWeak t c forRef := by
    intro s c forRef
    cases forRef
    · exact hidem { s with weakArcs := c :: s.weakArcs } _
    · exact hidem { s with
        weakFields := (s.nextRef, c) :: s.weakFields, nextRef := s.nextRef + 1 } _
  cases q with
  | idle => rfl
  | lookingUpRef =>
    have hfound : (s.setPhase t p).upgradeRef = s.upgradeRef := rfl
    simp only [go, hfound]
    split
    · next i _ => exact congrArg some (hidem { s with refArcs := i :: s.refArcs } _)
    · exact congrArg some (hidem s _)
  | lookingUpWeak forRef =>
    have hfound : (s.setPhase t p).upgradeWeak = s.upgradeWeak := rfl
    simp only [go, hfound]
    split
    · next c _ => exact congrArg some (htake s c forRef)
    · exact congrArg some (hidem s _)
  | drawing forRef => exact congrArg some (hidem { s with deathCounter := s.deathCounter + 1 } _)
  | insertingToken forRef c => exact congrArg some (hidem (s.insertToken c) _)
  | increfs forRef c => exact congrArg some (hidem (s.write _) _)
  | requesting forRef c => exact congrArg some (hidem ((s.request c).write _) _)
  | insertingWeak forRef c => exact congrArg some (htake { s with weakRefs := some c } c forRef)
  | acquiring i => exact congrArg some (hidem (s.write _) _)
  | insertingRef i =>
    exact congrArg some (hidem { s with refs := some i, refArcs := i :: s.refArcs } _)
  | releasing i => exact congrArg some (hidem (s.write _) _)
  | evictingRef i => exact congrArg some (hidem s.evictRef _)
  | droppingField i =>
    have hdrop : ∀ c, { s.setPhase t p with
        weakFields := (s.setPhase t p).weakFields.erase (i, c) }.leaveWeak t c =
          { s with weakFields := s.weakFields.erase (i, c) }.leaveWeak t c :=
      fun c => hidem { s with weakFields := s.weakFields.erase (i, c) } _
    exact congrArg (fun f => (s.weakFields.lookup i).map f) (funext hdrop)
  | clearing c => exact congrArg some (hidem ((s.clear c).write _) _)
  | removingToken c => exact congrArg some (hidem (s.removeToken c) _)
  | decrefs c => exact congrArg some (hidem (s.write _) _)
  | evictingWeak => exact congrArg some (hidem s.evictWeak _)
  | deadBinderDone c => exact congrArg some (hidem (s.write _) _)

/-- A new weak reference: its token, its commands and its entry. -/
def makeWeak (s : RemoteHandle) : RemoteHandle :=
  { ((({ s with deathCounter := s.deathCounter + 1 }.insertToken s.deathCounter).write
      (.increfs s.handle)).request s.deathCounter).write
        (.requestDeathNotification s.handle (UInt64.ofNat s.deathCounter)) with
    weakRefs := some s.deathCounter }

/-- A new reference with the field `c`: its command, its entry and its first handle. -/
def makeRef (s : RemoteHandle) (c : ℕ) : RemoteHandle :=
  { s.write (.acquire s.handle) with
    weakFields := (s.nextRef, c) :: s.weakFields
    nextRef := s.nextRef + 1
    refs := some s.nextRef
    refArcs := s.nextRef :: s.refArcs }

/-- A reference whose last handle is dropped: its command, its entry and its field `c`. -/
def unmakeRef (s : RemoteHandle) (i c : ℕ) : RemoteHandle :=
  { ({ s with refArcs := s.refArcs.erase i }.write (.release s.handle)).evictRef with
    weakFields := s.weakFields.erase (i, c) }

/-- A weak reference that was dropped: its commands, its token and its entry. -/
def unmakeWeak (s : RemoteHandle) (c : ℕ) : RemoteHandle :=
  ((((s.clear c).write (.clearDeathNotification s.handle (UInt64.ofNat c))).removeToken c).write
    (.decrefs s.handle)).evictWeak

/-- The handles and the fields are the same, and the threads are where they were. -/
structure KeepsArcs (s s' : RemoteHandle) : Prop where
  handle : s'.handle = s.handle
  refs : s'.refs = s.refs
  refArcs : s'.refArcs = s.refArcs
  weakArcs : s'.weakArcs = s.weakArcs
  weakFields : s'.weakFields = s.weakFields
  nextRef : s'.nextRef = s.nextRef
  phase : s'.phase = s.phase

/-- So they are when a weak reference is made, before somebody gets it. -/
theorem keepsArcs_makeWeak (s : RemoteHandle) : s.KeepsArcs s.makeWeak := by
  constructor <;> simp only [makeWeak, write, request, insertToken]

/-- And when it is dropped, after its last handle was given up. -/
theorem keepsArcs_unmakeWeak (s : RemoteHandle) (c : ℕ) : s.KeepsArcs (s.unmakeWeak c) := by
  constructor <;> simp only [unmakeWeak, write, clear, removeToken, evictWeak]

/-- The map of weak references points at the new one. -/
theorem weakRefs_makeWeak (s : RemoteHandle) : s.makeWeak.weakRefs = some s.deathCounter := rfl

/-- The map of weak references does not point at one that is dead. -/
theorem weakRefs_unmakeWeak (s : RemoteHandle) (c : ℕ) :
    (s.unmakeWeak c).weakRefs = s.evictWeak.weakRefs := rfl

/-- The commands of a new weak reference. -/
theorem written_makeWeak (s : RemoteHandle) : s.makeWeak.written = s.written ++
    [.increfs s.handle] ++ [.requestDeathNotification s.handle (UInt64.ofNat s.deathCounter)] := rfl

/-- The command of a new reference. -/
theorem written_makeRef (s : RemoteHandle) (c : ℕ) :
    (s.makeRef c).written = s.written ++ [.acquire s.handle] := rfl

/-- The command of a reference whose last handle is dropped. -/
theorem written_unmakeRef (s : RemoteHandle) (i c : ℕ) :
    (s.unmakeRef i c).written = s.written ++ [.release s.handle] := rfl

/-- The commands of a weak reference that was dropped. -/
theorem written_unmakeWeak (s : RemoteHandle) (c : ℕ) : (s.unmakeWeak c).written = s.written ++
    [.clearDeathNotification s.handle (UInt64.ofNat c)] ++ [.decrefs s.handle] := rfl

/-- A thread that is at a phase makes the step from there. -/
theorem exec_go (hgo : s.go t p = some s₁) (hrest : exec step s₁ as = some s') :
    exec step (s.setPhase t p) (.go t :: as) = some s' := by
  refine exec_cons_eq_some.mpr ⟨s₁, ?_, hrest⟩
  have hp : (s.setPhase t p).phase t = p := Function.update_self ..
  rw [step, hp, go_setPhase, hgo]

/-- A thread that looks a weak reference up and finds it. -/
theorem exec_findWeak {forRef : Bool} {c : ℕ} (hc : s.upgradeWeak = some c) :
    exec step (s.setPhase t (.lookingUpWeak forRef)) [.go t] = some (s.takeWeak t c forRef) :=
  exec_go (by rw [go, hc]) rfl

/-- A thread that finds none makes one. -/
theorem exec_makeWeak {forRef : Bool} (hnone : s.upgradeWeak = none) :
    exec step (s.setPhase t (.lookingUpWeak forRef)) (List.replicate 6 (.go t)) =
      some (s.makeWeak.takeWeak t s.deathCounter forRef) := by
  have hlooked : s.go t (.lookingUpWeak forRef) = some (s.setPhase t (.drawing forRef)) := by
    rw [go, hnone]
  refine exec_go hlooked ?_
  refine exec_go rfl ?_
  refine exec_go rfl ?_
  refine exec_go rfl ?_
  refine exec_go rfl ?_
  exact exec_go rfl rfl

/-- A thread that was idle and is idle again. -/
theorem setPhase_idle (h : s.phase t = .idle) : s.setPhase t .idle = s := by
  have hphase : Function.update s.phase t .idle = s.phase := by
    rw [← h]
    exact Function.update_eq_self t s.phase
  simp only [setPhase, hphase]

/-- A decode of a weak reference that is found. -/
theorem exec_decodeWeak_found (hidle : s.phase t = .idle) {c : ℕ} (hc : s.upgradeWeak = some c) :
    exec step s [.decodeWeak t, .go t] = some { s with weakArcs := c :: s.weakArcs } := by
  refine exec_cons_eq_some.mpr ⟨_, if_pos hidle, ?_⟩
  rw [exec_findWeak hc]
  exact congrArg some (setPhase_idle hidle)

/-- A decode of a weak reference that is made. -/
theorem exec_decodeWeak_made (hidle : s.phase t = .idle) (hnone : s.upgradeWeak = none) :
    exec step s (.decodeWeak t :: List.replicate 6 (.go t)) =
      some { s.makeWeak with weakArcs := s.deathCounter :: s.weakArcs } := by
  refine exec_cons_eq_some.mpr ⟨_, if_pos hidle, ?_⟩
  rw [exec_makeWeak hnone]
  exact congrArg some (setPhase_idle hidle)

/-- A decode of a reference that is found. -/
theorem exec_decodeRef_found (hidle : s.phase t = .idle) {i : ℕ} (hi : s.upgradeRef = some i) :
    exec step s [.decodeRef t, .go t] = some { s with refArcs := i :: s.refArcs } := by
  refine exec_cons_eq_some.mpr ⟨_, if_pos hidle, ?_⟩
  refine exec_go (by rw [go, hi]) ?_
  exact congrArg some (setPhase_idle hidle)

/-- A thread that has the weak reference `c` makes a reference with it. -/
theorem exec_makeRef (hidle : s.phase t = .idle) (c : ℕ) :
    exec step (s.takeWeak t c true) [.go t, .go t] = some (s.makeRef c) := by
  refine exec_go rfl ?_
  refine exec_go rfl ?_
  exact congrArg some (setPhase_idle hidle)

/-- A decode of a reference that is made with a weak reference that is found. -/
theorem exec_decodeRef_found_made (hidle : s.phase t = .idle) (hnone : s.upgradeRef = none) {c : ℕ}
    (hc : s.upgradeWeak = some c) :
    exec step s (.decodeRef t :: List.replicate 4 (.go t)) = some (s.makeRef c) := by
  refine exec_cons_eq_some.mpr ⟨_, if_pos hidle, ?_⟩
  have hlooked : s.go t .lookingUpRef = some (s.setPhase t (.lookingUpWeak true)) := by
    rw [go, hnone]
  refine exec_go hlooked ?_
  exact exec_append_eq_some.mpr ⟨_, exec_findWeak hc, exec_makeRef hidle c⟩

/-- A decode of a reference that is made with a weak reference that is made. -/
theorem exec_decodeRef_made (hidle : s.phase t = .idle) (hnone : s.upgradeRef = none)
    (hweak : s.upgradeWeak = none) :
    exec step s (.decodeRef t :: List.replicate 9 (.go t)) =
      some (s.makeWeak.makeRef s.deathCounter) := by
  refine exec_cons_eq_some.mpr ⟨_, if_pos hidle, ?_⟩
  have hlooked : s.go t .lookingUpRef = some (s.setPhase t (.lookingUpWeak true)) := by
    rw [go, hnone]
  refine exec_go hlooked ?_
  exact exec_append_eq_some.mpr
    ⟨_, exec_makeWeak hweak, exec_makeRef (s := s.makeWeak) hidle s.deathCounter⟩

/-- A thread that drops the last handle of a weak reference. -/
theorem exec_unmakeWeak (hidle : s.phase t = .idle) (c : ℕ) :
    exec step (s.setPhase t (.clearing c)) (List.replicate 4 (.go t)) = some (s.unmakeWeak c) := by
  refine exec_go rfl ?_
  refine exec_go rfl ?_
  refine exec_go rfl ?_
  refine exec_go rfl ?_
  exact congrArg some (setPhase_idle hidle)

/-- A drop of a weak reference: only the last handle does more. -/
theorem exec_dropWeak (hidle : s.phase t = .idle) {c : ℕ} (hc : c ∈ s.weakArcs) :
    ∃ n, exec step s (.dropWeak t c :: List.replicate n (.go t)) = some
      (let s₁ := { s with weakArcs := s.weakArcs.erase c }
       if s₁.weakStrong c = 0 then s₁.unmakeWeak c else s₁) := by
  have hstep : s.step (.dropWeak t c) =
      some ({ s with weakArcs := s.weakArcs.erase c }.leaveWeak t c) := if_pos ⟨hidle, hc⟩
  by_cases hlast : { s with weakArcs := s.weakArcs.erase c }.weakStrong c = 0
  · refine ⟨4, exec_cons_eq_some.mpr ⟨_, hstep, ?_⟩⟩
    rw [leaveWeak, if_pos hlast]
    simp only [if_pos hlast]
    exact exec_unmakeWeak (s := { s with weakArcs := s.weakArcs.erase c }) hidle c
  · refine ⟨0, exec_cons_eq_some.mpr ⟨_, hstep, ?_⟩⟩
    rw [leaveWeak, if_neg hlast]
    simp only [if_neg hlast]
    exact congrArg some (setPhase_idle hidle)

/-- A drop of a reference: only the last handle does more, and it drops the field. -/
theorem exec_dropRef (hidle : s.phase t = .idle) {i c : ℕ} (hi : i ∈ s.refArcs)
    (hc : s.weakFields.lookup i = some c) :
    ∃ n, exec step s (.dropRef t i :: List.replicate n (.go t)) = some
      (let s₁ := { s with refArcs := s.refArcs.erase i }
       if s₁.refStrong i = 0 then
         let s₂ := s.unmakeRef i c
         if s₂.weakStrong c = 0 then s₂.unmakeWeak c else s₂
       else s₁) := by
  have hstep : s.step (.dropRef t i) =
      some ({ s with refArcs := s.refArcs.erase i }.leaveRef t i) := if_pos ⟨hidle, hi⟩
  by_cases hlast : { s with refArcs := s.refArcs.erase i }.refStrong i = 0
  · have hfield : (({ s with refArcs := s.refArcs.erase i }.write (.release s.handle)).evictRef).go t
        (.droppingField i) = some ((s.unmakeRef i c).leaveWeak t c) :=
      congrArg (Option.map _) hc
    by_cases hweak : (s.unmakeRef i c).weakStrong c = 0
    · refine ⟨7, exec_cons_eq_some.mpr ⟨_, hstep, ?_⟩⟩
      rw [leaveRef, if_pos hlast]
      simp only [if_pos hlast, if_pos hweak]
      refine exec_go rfl ?_
      refine exec_go rfl ?_
      refine exec_go hfield ?_
      rw [leaveWeak, if_pos hweak]
      exact exec_unmakeWeak (s := s.unmakeRef i c) hidle c
    · refine ⟨3, exec_cons_eq_some.mpr ⟨_, hstep, ?_⟩⟩
      rw [leaveRef, if_pos hlast]
      simp only [if_pos hlast, if_neg hweak]
      refine exec_go rfl ?_
      refine exec_go rfl ?_
      refine exec_go hfield ?_
      rw [leaveWeak, if_neg hweak]
      exact congrArg some (setPhase_idle hidle)
  · refine ⟨0, exec_cons_eq_some.mpr ⟨_, hstep, ?_⟩⟩
    rw [leaveRef, if_neg hlast]
    simp only [if_neg hlast]
    exact congrArg some (setPhase_idle hidle)

end RemoteHandle

namespace RemoteRefs

/-! ## A device at rest -/

/-- What a handle does alone, the device does at it; the threads that were idle or at the handle
still are. -/
theorem exec_at {d : RemoteRefs} {k : UInt32} {as : List HandleAction} {g : RemoteHandle}
    (hfree : ∀ t, (d.phase t).1 = k ∨ (d.phase t).2 = .idle)
    (h : exec RemoteHandle.step (d.view k) as = some g) :
    ∃ φ, exec step d (as.map (Prod.mk k)) = some { d.put k g with phase := φ } ∧
      (∀ t, seenAt k (φ t) = g.phase t) ∧ ∀ t, (φ t).1 = k ∨ (φ t).2 = .idle := by
  induction as generalizing d with
  | nil =>
    cases h
    refine ⟨d.phase, ?_, fun t => rfl, hfree⟩
    simp only [put, view, Function.update_eq_self]
    rfl
  | cons a as ih =>
    obtain ⟨g₁, hg₁, hrest⟩ := exec_cons_eq_some.mp h
    have hstep : d.step (k, a) = some (d.put k g₁) := by
      rw [step, if_pos fun t _ => hfree t, hg₁, Option.map_some]
    have hview : (d.put k g₁).view k = g₁ := view_put_self d (handle_step hg₁)
    have hfree₁ : ∀ t, ((d.put k g₁).phase t).1 = k ∨ ((d.put k g₁).phase t).2 = .idle := by
      intro t
      simp only [put]
      split_ifs
      · exact hfree t
      · exact Or.inl rfl
    obtain ⟨φ, hφ, hseen, hfreeφ⟩ := ih hfree₁ (by rw [hview]; exact hrest)
    refine ⟨φ, exec_cons_eq_some.mpr ⟨_, hstep, hφ.trans ?_⟩, hseen, hfreeφ⟩
    simp only [put, Function.update_idem]

/-- A device that a run has led to, with no thread in the middle of anything. -/
structure Rested (d : RemoteRefs) : Prop where
  run : ∃ acts, exec step new acts = some d
  idle : ∀ t, (d.phase t).2 = .idle

/-- No thread has done anything yet. -/
theorem rested_new : new.Rested := ⟨⟨[], rfl⟩, fun _ => rfl⟩

namespace Rested

variable {d : RemoteRefs} {k : UInt32}

/-- Seen from a handle, no thread does anything. -/
theorem view_idle (h : d.Rested) (k : UInt32) (t : ℕ) : (d.view k).phase t = .idle :=
  seenAt_of_idle (h.idle t)

/-- What a handle does alone leads to a device at rest if the threads are idle behind it. -/
theorem exec (h : d.Rested) {as : List HandleAction} {g : RemoteHandle}
    (hrun : Run.exec RemoteHandle.step (d.view k) as = some g)
    (hidle : g.phase = (d.view k).phase) :
    ∃ φ, Run.exec step d (as.map (Prod.mk k)) = some { d.put k g with phase := φ } ∧
      Rested { d.put k g with phase := φ } := by
  obtain ⟨φ, hφ, hseen, hfree⟩ := exec_at (fun t => Or.inr (h.idle t)) hrun
  obtain ⟨acts, hacts⟩ := h.run
  refine ⟨φ, hφ, ⟨_, exec_append_eq_some.mpr ⟨d, hacts, hφ⟩⟩, fun t => ?_⟩
  rcases hfree t with hk | hdone
  · have hat : seenAt k (φ t) = .idle := by rw [hseen, hidle, h.view_idle k t]
    rwa [seenAt, if_pos hk] at hat
  · exact hdone

end Rested

end RemoteRefs

end BinderBinder
