import BinderBinder.BinderObject
import BinderBinder.Lib.Registration
import BinderBinder.Lib.Run

set_option relaxedAutoImplicit false
set_option autoImplicit false

/-!
# The references to one handle

What any number of threads do to the references of one handle on one device: decoding, cloning,
upgrading and dropping them, and the death notifications of the kernel, in any interleaving. The map
lookups, the commands to the kernel and the changes of the maps are steps of their own.

A weak reference is named by its cookie, which `death_counter` gives out once; a reference is named
by a number of its own. The strong count of an `Arc` is the number of its handles: those of the
users, and for a weak reference also the fields `weak` of the references, dying ones included.

## Main definitions

* `RefPhase` — where a thread is in a decode, in a drop, or behind a `BR_DEAD_BINDER`.
* `RemoteHandle`, `RemoteHandle.step` — the references of a handle, and their steps.
* `RemoteHandle.RefAlive`, `RemoteHandle.WeakAlive` — a reference is alive.
* `RemoteHandle.Effect` — what a step changes of what matters here.

## Main results

* `RemoteHandle.step_effect` — every step has one of these effects.
-/

namespace BinderBinder

/-! ## Threads -/

/-- Where a thread is: what it does next, and with which reference. A decode of a weak reference that
runs inside one of a reference is marked `forRef`. -/
inductive RefPhase
  | idle
  | lookingUpRef
  | lookingUpWeak (forRef : Bool)
  | drawing (forRef : Bool)
  | insertingToken (forRef : Bool) (c : ℕ)
  | increfs (forRef : Bool) (c : ℕ)
  | requesting (forRef : Bool) (c : ℕ)
  | insertingWeak (forRef : Bool) (c : ℕ)
  | acquiring (i : ℕ)
  | insertingRef (i : ℕ)
  | releasing (i : ℕ)
  | evictingRef (i : ℕ)
  | droppingField (i : ℕ)
  | clearing (c : ℕ)
  | removingToken (c : ℕ)
  | decrefs (c : ℕ)
  | evictingWeak
  | deadBinderDone (c : ℕ)
  deriving DecidableEq, Repr

/-- The reference that a thread constructs. -/
def RefPhase.makingRef : RefPhase → Option ℕ
  | .acquiring i | .insertingRef i => some i
  | _ => none

/-- The weak reference that a thread constructs. -/
def RefPhase.makingWeak : RefPhase → Option ℕ
  | .insertingToken _ c | .increfs _ c | .requesting _ c | .insertingWeak _ c => some c
  | _ => none

/-- What a thread does with a weak reference, as far as its death notification goes. -/
def RefPhase.role : RefPhase → Role
  | .insertingToken _ c => .making c
  | .increfs _ c | .requesting _ c => .tokened c
  | .insertingWeak _ c => .requested c
  | .clearing c | .removingToken c => .dying c
  | _ => .idle

/-- A thread starts a decode or makes its next step in what it does; a user clones, downgrades,
upgrades or drops a reference; the remote process dies, or a thread reads a `BR_DEAD_BINDER`. -/
inductive HandleAction
  | decodeRef (t : ℕ)
  | decodeWeak (t : ℕ)
  | go (t : ℕ)
  | cloneRef (i : ℕ)
  | cloneWeak (c : ℕ)
  | downgrade (i : ℕ)
  | upgrade (c : ℕ)
  | dropRef (t i : ℕ)
  | dropWeak (t c : ℕ)
  | die
  | deadBinder (t c : ℕ)
  deriving DecidableEq, Repr

/-! ## The references -/

/-- The references to one handle: the entries of `refs` and `weak_refs`, the handles of users by the
reference they share, the fields `weak` with the references they are in, the counters, the tokens
of `death_notifications` and which of them are cancelled; what the kernel knows of the handle; the
commands written to it; and the threads. The token of a weak reference has the name of its cookie.
`deathCounter` has no bound: runs are those in which the counter of the device has not wrapped. -/
structure RemoteHandle where
  handle : UInt32
  refs : Option ℕ
  weakRefs : Option ℕ
  refArcs : List ℕ
  weakArcs : List ℕ
  weakFields : List (ℕ × ℕ)
  nextRef : ℕ
  deathCounter : ℕ
  deathNotifications : DashMap ℕ ℕ
  cancelled : ℕ → Bool
  -- the kernel: its one registration, the records it has to give out, and whether the process died
  registered : Option ℕ
  records : List ℕ
  dead : Bool
  written : List Command
  phase : ℕ → RefPhase
  keyed : ∀ c token, deathNotifications c = some token → token = c

namespace RemoteHandle

/-- A handle that was never decoded. -/
def new (handle : UInt32) : RemoteHandle where
  handle := handle
  refs := none
  weakRefs := none
  refArcs := []
  weakArcs := []
  weakFields := []
  nextRef := 0
  deathCounter := 1
  deathNotifications := DashMap.empty
  cancelled _ := false
  registered := none
  records := []
  dead := false
  written := []
  phase _ := .idle
  keyed _ _ h := by cases h

/-- `strong_count` of a reference. -/
def refStrong (s : RemoteHandle) (i : ℕ) : ℕ := s.refArcs.count i

/-- `strong_count` of a weak reference. -/
def weakStrong (s : RemoteHandle) (c : ℕ) : ℕ :=
  s.weakArcs.count c + (s.weakFields.map Prod.snd).count c

/-- `refs.get` and `Weak::upgrade` on what is found, before the count goes up. -/
def upgradeRef (s : RemoteHandle) : Option ℕ := s.refs.filter fun i => s.refStrong i != 0

/-- `weak_refs.get` and `Weak::upgrade` on what is found, before the count goes up. -/
def upgradeWeak (s : RemoteHandle) : Option ℕ := s.weakRefs.filter fun c => s.weakStrong c != 0

/-- `refs.remove_if`. -/
def evictRef (s : RemoteHandle) : RemoteHandle :=
  { s with refs := if s.refs.any fun i => s.refStrong i == 0 then none else s.refs }

/-- `weak_refs.remove_if`. -/
def evictWeak (s : RemoteHandle) : RemoteHandle :=
  { s with weakRefs := if s.weakRefs.any fun c => s.weakStrong c == 0 then none else s.weakRefs }

/-- `death_notifications.insert` of the token of a new weak reference. -/
def insertToken (s : RemoteHandle) (c : ℕ) : RemoteHandle :=
  { s with
    deathNotifications := s.deathNotifications.insert c c
    keyed := by
      intro c' token h
      by_cases hc : c' = c
      · subst hc
        rw [DashMap.insert_self] at h
        exact (Option.some.inj h).symm
      · rw [DashMap.insert_of_ne _ _ hc] at h
        exact s.keyed c' token h }

/-- `death_notifications.remove`. -/
def removeToken (s : RemoteHandle) (c : ℕ) : RemoteHandle :=
  { s with
    deathNotifications := s.deathNotifications.remove c
    keyed := by
      intro c' token h
      by_cases hc : c' = c
      · subst hc
        rw [DashMap.remove_self] at h
        cases h
      · rw [DashMap.remove_of_ne _ hc] at h
        exact s.keyed c' token h }

/-- A command is written. -/
def write (s : RemoteHandle) (cmd : Command) : RemoteHandle :=
  { s with written := s.written ++ [cmd] }

/-- The kernel takes `REQUEST_DEATH_NOTIFICATION`: it is ignored while there is a registration, and
answered at once if the process is dead. -/
def request (s : RemoteHandle) (c : ℕ) : RemoteHandle :=
  { s with
    registered := some (s.registered.getD c)
    records := if s.registered = none ∧ s.dead then s.records ++ [c] else s.records }

/-- The kernel takes `CLEAR_DEATH_NOTIFICATION`: only the cookie of the registration removes it. -/
def clear (s : RemoteHandle) (c : ℕ) : RemoteHandle :=
  { s with registered := if s.registered = some c then none else s.registered }

/-- The thread `t` is at another phase. -/
def setPhase (s : RemoteHandle) (t : ℕ) (p : RefPhase) : RemoteHandle :=
  { s with phase := Function.update s.phase t p }

/-- The thread `t` has decoded the weak reference `c`: its caller gets a handle, or the reference
that it decodes gets its field. -/
def takeWeak (s : RemoteHandle) (t : ℕ) (c : ℕ) : Bool → RemoteHandle
  | false => { s with weakArcs := c :: s.weakArcs }.setPhase t .idle
  | true => { s with
      weakFields := (s.nextRef, c) :: s.weakFields
      nextRef := s.nextRef + 1 }.setPhase t (.acquiring s.nextRef)

/-- The thread `t` has dropped a handle of `i`; if it was the last, the reference is dropped. -/
def leaveRef (s : RemoteHandle) (t : ℕ) (i : ℕ) : RemoteHandle :=
  s.setPhase t (if s.refStrong i = 0 then .releasing i else .idle)

/-- The thread `t` has dropped a handle of `c`; if it was the last, the weak reference is dropped. -/
def leaveWeak (s : RemoteHandle) (t : ℕ) (c : ℕ) : RemoteHandle :=
  s.setPhase t (if s.weakStrong c = 0 then .clearing c else .idle)

/-- The next step of the thread `t`. -/
def go (s : RemoteHandle) (t : ℕ) : RefPhase → Option RemoteHandle
  | .idle => none
  -- `BinderRef::get_and_dedup_from_raw`
  | .lookingUpRef =>
    match s.upgradeRef with
    | some i => some ({ s with refArcs := i :: s.refArcs }.setPhase t .idle)
    | none => some (s.setPhase t (.lookingUpWeak true))
  | .acquiring i => some ((s.write (.acquire s.handle)).setPhase t (.insertingRef i))
  | .insertingRef i =>
    some ({ s with refs := some i, refArcs := i :: s.refArcs }.setPhase t .idle)
  -- `WeakBinderRef::get_and_dedup_from_raw`
  | .lookingUpWeak forRef =>
    match s.upgradeWeak with
    | some c => some (s.takeWeak t c forRef)
    | none => some (s.setPhase t (.drawing forRef))
  | .drawing forRef =>
    some ({ s with deathCounter := s.deathCounter + 1 }.setPhase t
      (.insertingToken forRef s.deathCounter))
  | .insertingToken forRef c => some ((s.insertToken c).setPhase t (.increfs forRef c))
  | .increfs forRef c => some ((s.write (.increfs s.handle)).setPhase t (.requesting forRef c))
  | .requesting forRef c =>
    some (((s.request c).write (.requestDeathNotification s.handle (UInt64.ofNat c))).setPhase t
      (.insertingWeak forRef c))
  | .insertingWeak forRef c => some ({ s with weakRefs := some c }.takeWeak t c forRef)
  -- `Drop for BinderRef`, and the drop of its field behind it
  | .releasing i => some ((s.write (.release s.handle)).setPhase t (.evictingRef i))
  | .evictingRef i => some (s.evictRef.setPhase t (.droppingField i))
  | .droppingField i => (s.weakFields.lookup i).map fun c =>
      { s with weakFields := s.weakFields.erase (i, c) }.leaveWeak t c
  -- `Drop for WeakBinderRef`
  | .clearing c =>
    some (((s.clear c).write (.clearDeathNotification s.handle (UInt64.ofNat c))).setPhase t
      (.removingToken c))
  | .removingToken c => some ((s.removeToken c).setPhase t (.decrefs c))
  | .decrefs _ => some ((s.write (.decrefs s.handle)).setPhase t .evictingWeak)
  | .evictingWeak => some (s.evictWeak.setPhase t .idle)
  -- `BR_DEAD_BINDER`
  | .deadBinderDone c =>
    some ((s.write (.deadBinderDone (UInt64.ofNat c))).setPhase t .idle)

/-- One step; `none` says that it is not enabled. Only a thread that is idle starts something, and
only a handle that someone has is cloned or dropped. -/
def step (s : RemoteHandle) : HandleAction → Option RemoteHandle
  | .decodeRef t => if s.phase t = .idle then some (s.setPhase t .lookingUpRef) else none
  | .decodeWeak t => if s.phase t = .idle then some (s.setPhase t (.lookingUpWeak false)) else none
  | .go t => s.go t (s.phase t)
  | .cloneRef i => if i ∈ s.refArcs then some { s with refArcs := i :: s.refArcs } else none
  | .cloneWeak c => if c ∈ s.weakArcs then some { s with weakArcs := c :: s.weakArcs } else none
  | .downgrade i =>
    if i ∈ s.refArcs then
      (s.weakFields.lookup i).map fun c => { s with weakArcs := c :: s.weakArcs }
    else none
  | .upgrade c =>
    if c ∈ s.weakArcs then
      match s.upgradeRef with
      | some i => some { s with refArcs := i :: s.refArcs }
      | none => some s
    else none
  | .dropRef t i =>
    if s.phase t = .idle ∧ i ∈ s.refArcs then
      some ({ s with refArcs := s.refArcs.erase i }.leaveRef t i)
    else none
  | .dropWeak t c =>
    if s.phase t = .idle ∧ c ∈ s.weakArcs then
      some ({ s with weakArcs := s.weakArcs.erase c }.leaveWeak t c)
    else none
  | .die =>
    if s.dead then none
    else some { s with dead := true, records := s.records ++ s.registered.toList }
  | .deadBinder t c =>
    if s.phase t = .idle ∧ c ∈ s.records then
      let s := { s with records := s.records.erase c }.setPhase t (.deadBinderDone c)
      match s.deathNotifications c with
      | some token =>
        some { s.removeToken c with cancelled := Function.update s.cancelled token true }
      | none => some s
    else none

/-! ## What is alive -/

/-- A reference is alive, and so its construction is finished, if someone has a handle of it. -/
def RefAlive (s : RemoteHandle) (i : ℕ) : Prop := s.refStrong i ≠ 0

/-- A weak reference is alive, and so its construction is finished, if there is a handle of it. -/
def WeakAlive (s : RemoteHandle) (c : ℕ) : Prop := s.weakStrong c ≠ 0

/-- The handles of a reference that is alive. -/
theorem refAlive_iff {s : RemoteHandle} {i : ℕ} : s.RefAlive i ↔ i ∈ s.refArcs := by
  rw [RefAlive, refStrong, ne_eq, List.count_eq_zero, not_not]

/-- The handles of a weak reference that is alive. -/
theorem weakAlive_iff {s : RemoteHandle} {c : ℕ} :
    s.WeakAlive c ↔ c ∈ s.weakArcs ∨ ∃ i, (i, c) ∈ s.weakFields := by
  rw [WeakAlive, weakStrong, ne_eq, Nat.add_eq_zero_iff, List.count_eq_zero, List.count_eq_zero,
    not_and_or, not_not, not_not]
  simp

/-- What `refs` finds. -/
theorem upgradeRef_eq_some {s : RemoteHandle} {i : ℕ} :
    s.upgradeRef = some i ↔ s.refs = some i ∧ s.RefAlive i := by
  simp [upgradeRef, RefAlive, Option.filter_eq_some_iff]

/-- What `weak_refs` finds. -/
theorem upgradeWeak_eq_some {s : RemoteHandle} {c : ℕ} :
    s.upgradeWeak = some c ↔ s.weakRefs = some c ∧ s.WeakAlive c := by
  simp [upgradeWeak, WeakAlive, Option.filter_eq_some_iff]

/-- No reference is alive yet. -/
theorem not_refAlive_new (handle : UInt32) (i : ℕ) : ¬ (new handle).RefAlive i :=
  fun h => List.not_mem_nil (refAlive_iff.mp h)

/-- No weak reference is alive yet. -/
theorem not_weakAlive_new (handle : UInt32) (c : ℕ) : ¬ (new handle).WeakAlive c := by
  intro h
  rcases weakAlive_iff.mp h with hc | ⟨i, hi⟩
  · cases hc
  · cases hi

/-- A weak reference that was decoded is alive from then on. -/
theorem weakAlive_takeWeak (s : RemoteHandle) (t c : ℕ) (forRef : Bool) :
    (s.takeWeak t c forRef).WeakAlive = fun c' => s.WeakAlive c' ∨ c' = c := by
  funext c'
  rw [weakAlive_iff, weakAlive_iff]
  cases forRef with
  | false =>
    show (c' ∈ c :: s.weakArcs ∨ ∃ i, (i, c') ∈ s.weakFields) = _
    rw [List.mem_cons]
    exact propext (by tauto)
  | true =>
    show (c' ∈ s.weakArcs ∨ ∃ i, (i, c') ∈ (s.nextRef, c) :: s.weakFields) = _
    simp only [List.mem_cons, Prod.mk.injEq, exists_or, exists_eq_left]
    exact propext (by tauto)

/-- One handle less of a weak reference, in a field. -/
theorem weakAlive_of_eraseField {s : RemoteHandle} {i c c' : ℕ}
    (h : { s with weakFields := s.weakFields.erase (i, c) }.WeakAlive c') :
    s.WeakAlive c' := by
  rw [weakAlive_iff] at h ⊢
  refine h.imp_right ?_
  rintro ⟨j, hj⟩
  exact ⟨j, List.mem_of_mem_erase hj⟩

/-- One handle less of a weak reference, at a user. -/
theorem weakAlive_of_eraseArc {s : RemoteHandle} {c c' : ℕ}
    (h : { s with weakArcs := s.weakArcs.erase c }.WeakAlive c') :
    s.WeakAlive c' := by
  rw [weakAlive_iff] at h ⊢
  exact h.imp_left List.mem_of_mem_erase

/-- One handle more of a weak reference that is alive. -/
theorem weakAlive_of_consArc {s : RemoteHandle} {c c' : ℕ} (hc : s.WeakAlive c)
    (h : { s with weakArcs := c :: s.weakArcs }.WeakAlive c') : s.WeakAlive c' := by
  rw [weakAlive_iff] at h
  rcases h with h | h
  · rcases List.mem_cons.mp h with rfl | h
    · exact hc
    · exact weakAlive_iff.mpr (Or.inl h)
  · exact weakAlive_iff.mpr (Or.inr h)

/-- The field of a reference is a handle of its weak reference. -/
theorem weakAlive_of_lookup {s : RemoteHandle} {i c : ℕ} (h : s.weakFields.lookup i = some c) :
    s.WeakAlive c := by
  obtain ⟨before, after, hsplit, -⟩ := List.lookup_eq_some_iff.mp h
  refine weakAlive_iff.mpr (Or.inr ⟨i, ?_⟩)
  rw [hsplit]
  simp

/-- The phase of a thread, seen through a function. -/
theorem comp_setPhase {β : Type} (f : RefPhase → β) (s : RemoteHandle) (t : ℕ) (p : RefPhase) :
    f ∘ (s.setPhase t p).phase = Function.update (f ∘ s.phase) t (f p) :=
  Function.comp_update f s.phase t p

/-- A function that does not tell two phases apart does not see a thread go from one to the other. -/
theorem comp_setPhase_of_eq {β : Type} {f : RefPhase → β} {s : RemoteHandle} {t : ℕ} {p : RefPhase}
    (h : f p = f (s.phase t)) : f ∘ (s.setPhase t p).phase = f ∘ s.phase := by
  rw [comp_setPhase, h]
  exact Function.update_eq_self t (f ∘ s.phase)

/-! ## What a step does -/

/-- The threads are at other phases, but construct the same and have the same roles. -/
structure Quiet (s : RemoteHandle) (phase : ℕ → RefPhase) : Prop where
  makingRef : RefPhase.makingRef ∘ phase = RefPhase.makingRef ∘ s.phase
  role : RefPhase.role ∘ phase = RefPhase.role ∘ s.phase

/-- No thread is at another phase. -/
theorem Quiet.refl (s : RemoteHandle) : s.Quiet s.phase := ⟨rfl, rfl⟩

/-- A thread goes to a phase in which it constructs the same and has the same role. -/
theorem Quiet.update {s : RemoteHandle} {t : ℕ} {p q : RefPhase} (hp : s.phase t = q)
    (hmaking : p.makingRef = q.makingRef) (hrole : p.role = q.role) :
    s.Quiet (Function.update s.phase t p) := by
  subst hp
  exact ⟨comp_setPhase_of_eq hmaking, comp_setPhase_of_eq hrole⟩

/-- A thread constructs the weak reference that its role is about. -/
theorem key_role (p : RefPhase) : p.role.key = p.makingWeak := by
  cases p <;> rfl

/-- The threads construct the same weak references. -/
theorem Quiet.makingWeak {s : RemoteHandle} {phase : ℕ → RefPhase} (h : s.Quiet phase) :
    RefPhase.makingWeak ∘ phase = RefPhase.makingWeak ∘ s.phase := by
  funext t
  have hrole : (phase t).role = (s.phase t).role := congrFun h.role t
  rw [Function.comp_apply, Function.comp_apply, ← key_role, ← key_role, hrole]

/-- What a step does: nothing that shows but in the phases and the commands; or it is one of the
steps that change what is cached, alive, under construction or registered. -/
inductive Effect (s : RemoteHandle) (a : HandleAction) : RemoteHandle → Prop
  | same {phase written} (hq : s.Quiet phase) : Effect s a { s with phase, written }
  -- the references
  | handsRef {phase i} (hq : s.Quiet phase) (hi : s.RefAlive i) :
    Effect s a { s with refArcs := i :: s.refArcs, phase }
  | losesRef {phase i} (hq : s.Quiet phase) :
    Effect s a { s with refArcs := s.refArcs.erase i, phase }
  | insertsRef {t i} (ha : a = .go t) (hp : s.phase t = .insertingRef i) :
    Effect s a ({ s with refs := some i, refArcs := i :: s.refArcs }.setPhase t .idle)
  | evictsRef {phase} (hq : s.Quiet phase) : Effect s a { s.evictRef with phase }
  -- the weak references
  | findsWeak {t c forRef} (hp : s.phase t = .lookingUpWeak forRef) (hc : s.WeakAlive c) :
    Effect s a (s.takeWeak t c forRef)
  | handsWeak {c} (hc : s.WeakAlive c) : Effect s a { s with weakArcs := c :: s.weakArcs }
  | losesWeak {t c} (hp : s.phase t = .idle) (hc : c ∈ s.weakArcs) :
    Effect s a ({ s with weakArcs := s.weakArcs.erase c }.leaveWeak t c)
  | losesField {t i c} (hp : s.phase t = .droppingField i) (hc : s.weakFields.lookup i = some c) :
    Effect s a ({ s with weakFields := s.weakFields.erase (i, c) }.leaveWeak t c)
  | draws {t forRef} (hp : s.phase t = .drawing forRef) :
    Effect s a ({ s with deathCounter := s.deathCounter + 1 }.setPhase t
      (.insertingToken forRef s.deathCounter))
  | insertsWeak {t forRef c} (ha : a = .go t) (hp : s.phase t = .insertingWeak forRef c) :
    Effect s a ({ s with weakRefs := some c }.takeWeak t c forRef)
  | evictsWeak {phase} (hq : s.Quiet phase) : Effect s a { s.evictWeak with phase }
  -- the death notifications
  | filesToken {t forRef c} (hp : s.phase t = .insertingToken forRef c) :
    Effect s a ((s.insertToken c).setPhase t (.increfs forRef c))
  | requests {t forRef c written} (ha : a = .go t) (hp : s.phase t = .requesting forRef c) :
    Effect s a ({ s.request c with written }.setPhase t (.insertingWeak forRef c))
  | clears {t c phase written} (hp : s.phase t = .clearing c) (hq : s.Quiet phase) :
    Effect s a { s.clear c with phase, written }
  | removesToken {t c} (hp : s.phase t = .removingToken c) :
    Effect s a ((s.removeToken c).setPhase t (.decrefs c))
  | dies : Effect s a { s with dead := true, records := s.records ++ s.registered.toList }
  | reads {t c phase deathNotifications cancelled records keyed} (ha : a = .deadBinder t c)
      (hq : s.Quiet phase) :
    Effect s a { s with deathNotifications, keyed, cancelled, records, phase }

/-- What the next step of a thread does. -/
theorem go_effect {s s' : RemoteHandle} {t : ℕ} {p : RefPhase} (hp : s.phase t = p)
    (h : s.go t p = some s') : s.Effect (.go t) s' := by
  cases p with
  | idle => cases h
  | lookingUpRef =>
    simp only [go] at h
    split at h
    · next i hi =>
      cases h
      exact .handsRef (.update hp rfl rfl) (upgradeRef_eq_some.mp hi).2
    · cases h
      exact .same (.update hp rfl rfl)
  | insertingRef i =>
    cases h
    exact .insertsRef rfl hp
  | lookingUpWeak forRef =>
    simp only [go] at h
    split at h
    · next c hc =>
      cases h
      exact .findsWeak hp (upgradeWeak_eq_some.mp hc).2
    · cases h
      exact .same (.update hp rfl rfl)
  | drawing forRef =>
    cases h
    exact .draws hp
  | insertingToken forRef c =>
    cases h
    exact .filesToken hp
  | requesting forRef c =>
    cases h
    exact .requests rfl hp
  | insertingWeak forRef c =>
    cases h
    exact .insertsWeak rfl hp
  | evictingRef i =>
    cases h
    exact .evictsRef (.update hp rfl rfl)
  | droppingField i =>
    obtain ⟨c, hc, rfl⟩ := Option.map_eq_some_iff.mp h
    exact .losesField hp hc
  | clearing c =>
    cases h
    exact .clears hp (.update hp rfl rfl)
  | removingToken c =>
    cases h
    exact .removesToken hp
  | evictingWeak =>
    cases h
    exact .evictsWeak (.update hp rfl rfl)
  | _ =>
    cases h
    exact .same (.update hp rfl rfl)

/-- What a step does. -/
theorem step_effect {s s' : RemoteHandle} {a : HandleAction} (h : s.step a = some s') :
    s.Effect a s' := by
  cases a with
  | go t => exact go_effect rfl h
  | decodeRef t =>
    simp only [step] at h
    split_ifs at h with hp
    cases h
    exact .same (.update hp rfl rfl)
  | decodeWeak t =>
    simp only [step] at h
    split_ifs at h with hp
    cases h
    exact .same (.update hp rfl rfl)
  | cloneRef i =>
    simp only [step] at h
    split_ifs at h with hi
    cases h
    exact .handsRef (.refl s) (refAlive_iff.mpr hi)
  | cloneWeak c =>
    simp only [step] at h
    split_ifs at h with hc
    cases h
    exact .handsWeak (weakAlive_iff.mpr (Or.inl hc))
  | downgrade i =>
    simp only [step] at h
    split_ifs at h
    obtain ⟨c, hc, rfl⟩ := Option.map_eq_some_iff.mp h
    exact .handsWeak (weakAlive_of_lookup hc)
  | upgrade c =>
    simp only [step] at h
    split_ifs at h
    split at h
    · next i hi =>
      cases h
      exact .handsRef (.refl s) (upgradeRef_eq_some.mp hi).2
    · cases h
      exact .same (.refl s)
  | dropRef t i =>
    simp only [step] at h
    split_ifs at h with hp
    cases h
    exact .losesRef (.update hp.1 (by split_ifs <;> rfl) (by split_ifs <;> rfl))
  | dropWeak t c =>
    simp only [step] at h
    split_ifs at h with hp
    cases h
    exact .losesWeak hp.1 hp.2
  | die =>
    simp only [step] at h
    split_ifs at h
    cases h
    exact .dies
  | deadBinder t c =>
    simp only [step] at h
    split_ifs at h with hp
    split at h
    · cases h
      exact .reads rfl (.update hp.1 rfl rfl)
    · cases h
      exact .reads rfl (.update hp.1 rfl rfl)

end RemoteHandle

end BinderBinder
