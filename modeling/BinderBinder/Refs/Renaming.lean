import BinderBinder.Lib.Renaming
import BinderBinder.Refs.Life

set_option relaxedAutoImplicit false
set_option autoImplicit false

/-!
# The references to one handle among others

`death_counter` and `death_notifications` belong to the device, so the cookies of one handle are not
drawn one after the other if threads work on other handles as well. But for the names of its cookies
a handle goes through the same states as it would alone.

## Main definitions

* `RefPhase.Renamed`, `HandleAction.Renamed`, `Command.Renamed` — the same, but for the cookie.
* `RemoteHandle.Renames` — the state of a handle among others, and of the handle alone.

## Main results

* `RemoteHandle.Renames.step` — what a step does among others, it does alone.
* `RemoteHandle.Renames.foreign` — a step leaves the tokens of other handles alone.
-/

namespace BinderBinder

open Renaming

/-! ## Names in phases, actions and commands -/

/-- The cookie that a thread works with. -/
def RefPhase.cookie : RefPhase → Option ℕ
  | .insertingToken _ c | .increfs _ c | .requesting _ c | .insertingWeak _ c | .clearing c
  | .removingToken c | .decrefs c | .deadBinderDone c => some c
  | _ => none

/-- The phase with another cookie. -/
def RefPhase.withCookie (c : ℕ) : RefPhase → RefPhase
  | .insertingToken forRef _ => .insertingToken forRef c
  | .increfs forRef _ => .increfs forRef c
  | .requesting forRef _ => .requesting forRef c
  | .insertingWeak forRef _ => .insertingWeak forRef c
  | .clearing _ => .clearing c
  | .removingToken _ => .removingToken c
  | .decrefs _ => .decrefs c
  | .deadBinderDone _ => .deadBinderDone c
  | p => p

/-- The same phase, but for the cookie. -/
inductive RefPhase.Renamed (names : List ℕ) : RefPhase → RefPhase → Prop
  | same {p} (h : p.cookie = none) : Renamed names p p
  | cookie {p x c} (h : p.cookie = some x) (hx : Named names x c) :
    Renamed names p (p.withCookie c)

/-- The cookie of an action of a user or of the kernel. -/
def HandleAction.cookie : HandleAction → Option ℕ
  | .cloneWeak c | .upgrade c | .dropWeak _ c | .deadBinder _ c => some c
  | _ => none

/-- The action with another cookie. -/
def HandleAction.withCookie (c : ℕ) : HandleAction → HandleAction
  | .cloneWeak _ => .cloneWeak c
  | .upgrade _ => .upgrade c
  | .dropWeak t _ => .dropWeak t c
  | .deadBinder t _ => .deadBinder t c
  | a => a

/-- The same action, but for the cookie. -/
inductive HandleAction.Renamed (names : List ℕ) : HandleAction → HandleAction → Prop
  | same {a} (h : a.cookie = none) : Renamed names a a
  | cookie {a x c} (h : a.cookie = some x) (hx : Named names x c) :
    Renamed names a (a.withCookie c)

/-- A phase without a cookie is the same. -/
theorem RefPhase.Renamed.eq_of_none {names : List ℕ} {p q : RefPhase} (h : p.Renamed names q)
    (hp : p.cookie = none) : q = p := by
  cases h with
  | same => rfl
  | cookie hx => rw [hp] at hx; cases hx

/-- A phase with a cookie has another for it. -/
theorem RefPhase.Renamed.exists_cookie {names : List ℕ} {p q : RefPhase} (h : p.Renamed names q)
    {x : ℕ} (hp : p.cookie = some x) : ∃ c, Named names x c ∧ q = p.withCookie c := by
  cases h with
  | same hnone => rw [hp] at hnone; cases hnone
  | cookie hx hc =>
    rw [hp] at hx
    cases hx
    exact ⟨_, hc, rfl⟩

/-- A thread that is idle alone is idle among others. -/
theorem RefPhase.Renamed.eq_idle {names : List ℕ} {p : RefPhase} (h : p.Renamed names .idle) :
    p = .idle := by
  cases hp : p.cookie with
  | none => exact (h.eq_of_none hp).symm
  | some x =>
    obtain ⟨c, -, hq⟩ := h.exists_cookie hp
    cases p <;> cases hp <;> cases hq

/-- The phase is the same when more cookies are drawn. -/
theorem RefPhase.Renamed.append {names : List ℕ} {p q : RefPhase} (h : p.Renamed names q)
    (more : List ℕ) : p.Renamed (names ++ more) q := by
  cases h with
  | same hp => exact .same hp
  | cookie hp hx => exact .cookie hp (hx.append more)

/-- The action is the same when more cookies are drawn. -/
theorem HandleAction.Renamed.append {names : List ℕ} {a b : HandleAction} (h : a.Renamed names b)
    (more : List ℕ) : a.Renamed (names ++ more) b := by
  cases h with
  | same ha => exact .same ha
  | cookie ha hx => exact .cookie ha (hx.append more)

/-- The same command, but for the cookie. -/
inductive Command.Renamed (names : List ℕ) : Command → Command → Prop
  | increfs (handle : UInt32) : Renamed names (.increfs handle) (.increfs handle)
  | acquire (handle : UInt32) : Renamed names (.acquire handle) (.acquire handle)
  | release (handle : UInt32) : Renamed names (.release handle) (.release handle)
  | decrefs (handle : UInt32) : Renamed names (.decrefs handle) (.decrefs handle)
  | requestDeathNotification (handle : UInt32) {x c} (hx : Named names x c) :
    Renamed names (.requestDeathNotification handle (UInt64.ofNat x))
      (.requestDeathNotification handle (UInt64.ofNat c))
  | clearDeathNotification (handle : UInt32) {x c} (hx : Named names x c) :
    Renamed names (.clearDeathNotification handle (UInt64.ofNat x))
      (.clearDeathNotification handle (UInt64.ofNat c))
  | deadBinderDone {x c} (hx : Named names x c) :
    Renamed names (.deadBinderDone (UInt64.ofNat x)) (.deadBinderDone (UInt64.ofNat c))

/-- The command is the same when more cookies are drawn. -/
theorem Command.Renamed.append {names : List ℕ} {cmd cmd' : Command} (h : cmd.Renamed names cmd')
    (more : List ℕ) : cmd.Renamed (names ++ more) cmd' := by
  cases h with
  | increfs handle => exact .increfs handle
  | acquire handle => exact .acquire handle
  | release handle => exact .release handle
  | decrefs handle => exact .decrefs handle
  | requestDeathNotification handle hx => exact .requestDeathNotification handle (hx.append more)
  | clearDeathNotification handle hx => exact .clearDeathNotification handle (hx.append more)
  | deadBinderDone hx => exact .deadBinderDone (hx.append more)

namespace RemoteHandle

/-- There is nothing yet under a cookie that was not drawn. -/
structure Undrawn (deathCounter : ℕ) (deathNotifications : DashMap ℕ ℕ) (cancelled : ℕ → Bool) :
    Prop where
  token : ∀ c, deathCounter ≤ c → deathNotifications c = none
  cancelled : ∀ c, deathCounter ≤ c → cancelled c = false

/-- The state `g` of a handle among others is the state `s` of the handle alone, but for the names
of the cookies: `names` are those drawn for the handle. Of the tokens, those of its own cookies are
compared. -/
structure Renames (names : List ℕ) (g s : RemoteHandle) : Prop where
  nodup : names.Nodup
  below : ∀ x ∈ names, x < g.deathCounter
  drawn : names.length < g.deathCounter
  counter : s.deathCounter = names.length + 1
  undrawn : Undrawn g.deathCounter g.deathNotifications g.cancelled
  undrawn_alone : Undrawn s.deathCounter s.deathNotifications s.cancelled
  handle : g.handle = s.handle
  refs : g.refs = s.refs
  weakRefs : Option.Rel (Named names) g.weakRefs s.weakRefs
  refArcs : g.refArcs = s.refArcs
  weakArcs : List.Forall₂ (Named names) g.weakArcs s.weakArcs
  weakFields : List.Forall₂ (Tagged (Named names)) g.weakFields s.weakFields
  nextRef : g.nextRef = s.nextRef
  token : ∀ {x c}, Named names x c →
    (g.deathNotifications x).isSome = (s.deathNotifications c).isSome
  cancelled : ∀ {x c}, Named names x c → g.cancelled x = s.cancelled c
  registered : Option.Rel (Named names) g.registered s.registered
  records : List.Forall₂ (Named names) g.records s.records
  dead : g.dead = s.dead
  written : List.Forall₂ (Command.Renamed names) g.written s.written
  phase : ∀ t, (g.phase t).Renamed names (s.phase t)

namespace Undrawn

variable {n c : ℕ} {tokens : DashMap ℕ ℕ} {cancelled : ℕ → Bool}

/-- A token is filed under a cookie that was drawn. -/
theorem insertToken (h : Undrawn n tokens cancelled) (hc : c < n) (token : ℕ) :
    Undrawn n (tokens.insert c token) cancelled where
  token d hd := by
    rw [DashMap.insert_of_ne _ _ (by omega)]
    exact h.token d hd
  cancelled := h.cancelled

/-- A token is removed. -/
theorem removeToken (h : Undrawn n tokens cancelled) (c : ℕ) :
    Undrawn n (tokens.remove c) cancelled where
  token d hd := by
    by_cases hne : d = c
    · rw [hne, DashMap.remove_self]
    · rw [DashMap.remove_of_ne _ hne]
      exact h.token d hd
  cancelled := h.cancelled

/-- A token is cancelled under a cookie that was drawn. -/
theorem cancel (h : Undrawn n tokens cancelled) (hc : c < n) :
    Undrawn n tokens (Function.update cancelled c true) where
  token := h.token
  cancelled d hd := by
    rw [Function.update_of_ne (by omega)]
    exact h.cancelled d hd

/-- One more cookie is drawn. -/
theorem draw (h : Undrawn n tokens cancelled) : Undrawn (n + 1) tokens cancelled where
  token c hc := h.token c (Nat.le_of_succ_le hc)
  cancelled c hc := h.cancelled c (Nat.le_of_succ_le hc)

end Undrawn

namespace Renames

variable {names : List ℕ} {g s : RemoteHandle}

/-! ## What is found -/

/-- The correspondence of cookies is one to one. -/
theorem biUnique (h : Renames names g s) : Relator.BiUnique (Named names) :=
  biUnique_named h.nodup

/-- The same references are alive. -/
theorem refStrong (h : Renames names g s) (i : ℕ) : g.refStrong i = s.refStrong i := by
  rw [RemoteHandle.refStrong, RemoteHandle.refStrong, h.refArcs]

/-- Weak references with the same name but for the cookie have the same count. -/
theorem weakStrong (h : Renames names g s) {x c : ℕ} (hx : Named names x c) :
    g.weakStrong x = s.weakStrong c := by
  rw [RemoteHandle.weakStrong, RemoteHandle.weakStrong, count_eq h.biUnique h.weakArcs hx,
    count_eq h.biUnique (map_snd h.weakFields) hx]

/-- `refs` finds the same. -/
theorem upgradeRef (h : Renames names g s) : g.upgradeRef = s.upgradeRef := by
  rw [RemoteHandle.upgradeRef, RemoteHandle.upgradeRef, h.refs]
  congr 1
  funext i
  rw [h.refStrong]

/-- `weak_refs` finds the same. -/
theorem upgradeWeak (h : Renames names g s) :
    Option.Rel (Named names) g.upgradeWeak s.upgradeWeak := by
  have hentry := h.weakRefs
  rw [RemoteHandle.upgradeWeak, RemoteHandle.upgradeWeak]
  generalize g.weakRefs = entry, s.weakRefs = entry' at hentry
  cases hentry with
  | none => exact .none
  | some hx =>
    rw [Option.filter_some, Option.filter_some, h.weakStrong hx]
    split_ifs
    · exact .some hx
    · exact .none

/-! ## Changes that correspond -/

/-- A thread goes to the same phase but for the cookie. -/
theorem setPhase (h : Renames names g s) (t : ℕ) {p q : RefPhase} (hp : p.Renamed names q) :
    Renames names (g.setPhase t p) (s.setPhase t q) :=
  { h with
    phase := by
      intro u
      by_cases hu : u = t
      · subst hu
        simpa [RemoteHandle.setPhase] using hp
      · simpa [RemoteHandle.setPhase, Function.update_of_ne hu] using h.phase u }

/-- The same command but for the cookie is written. -/
theorem write (h : Renames names g s) {cmd cmd' : Command} (hcmd : cmd.Renamed names cmd') :
    Renames names (g.write cmd) (s.write cmd') :=
  { h with written := List.rel_append h.written (.cons hcmd .nil) }

/-- A handle of a reference more. -/
theorem consRefArc (h : Renames names g s) (i : ℕ) :
    Renames names { g with refArcs := i :: g.refArcs } { s with refArcs := i :: s.refArcs } :=
  { h with refArcs := congrArg (i :: ·) h.refArcs }

/-- A handle of a reference less. -/
theorem eraseRefArc (h : Renames names g s) (i : ℕ) :
    Renames names { g with refArcs := g.refArcs.erase i }
      { s with refArcs := s.refArcs.erase i } :=
  { h with refArcs := congrArg (List.erase · i) h.refArcs }

/-- A handle of a weak reference more. -/
theorem consWeakArc (h : Renames names g s) {x c : ℕ} (hx : Named names x c) :
    Renames names { g with weakArcs := x :: g.weakArcs } { s with weakArcs := c :: s.weakArcs } :=
  { h with weakArcs := .cons hx h.weakArcs }

/-- A handle of a weak reference less. -/
theorem eraseWeakArc (h : Renames names g s) {x c : ℕ} (hx : Named names x c) :
    Renames names { g with weakArcs := g.weakArcs.erase x }
      { s with weakArcs := s.weakArcs.erase c } :=
  { h with weakArcs := erase h.biUnique h.weakArcs hx }

/-- A field less. -/
theorem eraseField (h : Renames names g s) (i : ℕ) {x c : ℕ} (hx : Named names x c) :
    Renames names { g with weakFields := g.weakFields.erase (i, x) }
      { s with weakFields := s.weakFields.erase (i, c) } :=
  { h with
    weakFields := erase (biUnique_tagged h.biUnique) h.weakFields (show Tagged _ (i, x) (i, c) from
      ⟨rfl, hx⟩) }

/-- The entry of a reference. -/
theorem insertRef (h : Renames names g s) (i : ℕ) :
    Renames names { g with refs := some i, refArcs := i :: g.refArcs }
      { s with refs := some i, refArcs := i :: s.refArcs } :=
  { h with
    refs := rfl
    refArcs := congrArg (i :: ·) h.refArcs }

/-- The entry of a weak reference. -/
theorem insertWeak (h : Renames names g s) {x c : ℕ} (hx : Named names x c) :
    Renames names { g with weakRefs := some x } { s with weakRefs := some c } :=
  { h with weakRefs := .some hx }

/-- A weak reference that was decoded. -/
theorem takeWeak (h : Renames names g s) (t : ℕ) {x c : ℕ} (hx : Named names x c)
    (forRef : Bool) : Renames names (g.takeWeak t x forRef) (s.takeWeak t c forRef) := by
  cases forRef with
  | false => exact (h.consWeakArc hx).setPhase t (.same rfl)
  | true =>
    have hfield : Tagged (Named names) (g.nextRef, x) (s.nextRef, c) := ⟨h.nextRef, hx⟩
    have hmade : Renames names
        { g with weakFields := (g.nextRef, x) :: g.weakFields, nextRef := g.nextRef + 1 }
        { s with weakFields := (s.nextRef, c) :: s.weakFields, nextRef := s.nextRef + 1 } :=
      { h with
        weakFields := .cons hfield h.weakFields
        nextRef := congrArg (· + 1) h.nextRef }
    have hphase := hmade.setPhase t (.same (p := .acquiring g.nextRef) rfl)
    rw [RemoteHandle.takeWeak, RemoteHandle.takeWeak]
    rw [h.nextRef] at hphase ⊢
    exact hphase

/-- `refs.remove_if` removes the same. -/
theorem evictRef (h : Renames names g s) : Renames names g.evictRef s.evictRef :=
  { h with
    refs := by
      simp only [RemoteHandle.evictRef, h.refs, h.refStrong] }

/-- `weak_refs.remove_if` removes the same. -/
theorem evictWeak (h : Renames names g s) : Renames names g.evictWeak s.evictWeak :=
  { h with
    weakRefs := by
      have hentry := h.weakRefs
      simp only [RemoteHandle.evictWeak]
      generalize g.weakRefs = entry, s.weakRefs = entry' at hentry
      cases hentry with
      | none => exact .none
      | some hx =>
        simp only [Option.any_some, h.weakStrong hx]
        split_ifs
        · exact .none
        · exact .some hx }

/-- A cookie that was drawn is below the counter. -/
theorem lt_counter (h : Renames names g s) {x c : ℕ} (hx : Named names x c) :
    x < g.deathCounter ∧ c < s.deathCounter := by
  refine ⟨h.below x hx.mem, ?_⟩
  rw [h.counter]
  exact Nat.lt_succ_of_le hx.le

/-- A token is filed. -/
theorem insertToken (h : Renames names g s) {x c : ℕ} (hx : Named names x c) :
    Renames names (g.insertToken x) (s.insertToken c) :=
  { h with
    undrawn := h.undrawn.insertToken (h.lt_counter hx).1 x
    undrawn_alone := h.undrawn_alone.insertToken (h.lt_counter hx).2 c
    token := by
      intro y d hy
      have heq : y = x ↔ d = c := Relator.rel_eq h.biUnique hy hx
      simp only [RemoteHandle.insertToken]
      by_cases hyx : y = x
      · rw [hyx, heq.mp hyx, DashMap.insert_self, DashMap.insert_self]
        rfl
      · rw [DashMap.insert_of_ne _ _ hyx, DashMap.insert_of_ne _ _ (fun hd => hyx (heq.mpr hd))]
        exact h.token hy }

/-- A token is removed. -/
theorem removeToken (h : Renames names g s) {x c : ℕ} (hx : Named names x c) :
    Renames names (g.removeToken x) (s.removeToken c) :=
  { h with
    undrawn := h.undrawn.removeToken x
    undrawn_alone := h.undrawn_alone.removeToken c
    token := by
      intro y d hy
      have heq : y = x ↔ d = c := Relator.rel_eq h.biUnique hy hx
      simp only [RemoteHandle.removeToken]
      by_cases hyx : y = x
      · rw [hyx, heq.mp hyx, DashMap.remove_self, DashMap.remove_self]
      · rw [DashMap.remove_of_ne _ hyx, DashMap.remove_of_ne _ (fun hd => hyx (heq.mpr hd))]
        exact h.token hy }

/-- A token is cancelled. -/
theorem cancel (h : Renames names g s) {x c : ℕ} (hx : Named names x c) :
    Renames names { g with cancelled := Function.update g.cancelled x true }
      { s with cancelled := Function.update s.cancelled c true } :=
  { h with
    undrawn := h.undrawn.cancel (h.lt_counter hx).1
    undrawn_alone := h.undrawn_alone.cancel (h.lt_counter hx).2
    cancelled := by
      intro y d hy
      have heq : y = x ↔ d = c := Relator.rel_eq h.biUnique hy hx
      by_cases hyx : y = x
      · simp only [hyx, heq.mp hyx, Function.update_self]
      · simp only [Function.update_of_ne hyx, Function.update_of_ne (fun hd => hyx (heq.mpr hd)),
          h.cancelled hy] }

/-- The kernel takes a request. -/
theorem request (h : Renames names g s) {x c : ℕ} (hx : Named names x c) :
    Renames names (g.request x) (s.request c) :=
  { h with
    registered := by
      have hreg := h.registered
      simp only [RemoteHandle.request]
      generalize g.registered = r, s.registered = r' at hreg
      cases hreg with
      | none => exact .some hx
      | some hy => exact .some hy
    records := by
      have hreg := h.registered
      simp only [RemoteHandle.request, h.dead]
      generalize g.registered = r, s.registered = r' at hreg
      cases hreg with
      | none =>
        by_cases hdead : s.dead = true
        · simpa [hdead] using List.rel_append h.records (.cons hx .nil)
        · simpa [hdead] using h.records
      | some hy => simpa using h.records }

/-- The kernel takes the removal of a registration. -/
theorem clear (h : Renames names g s) {x c : ℕ} (hx : Named names x c) :
    Renames names (g.clear x) (s.clear c) :=
  { h with
    registered := by
      have hreg := h.registered
      simp only [RemoteHandle.clear]
      generalize g.registered = r, s.registered = r' at hreg
      cases hreg with
      | none => simp
      | @some y d hy =>
        have heq : y = x ↔ d = c := Relator.rel_eq h.biUnique hy hx
        simp only [Option.some.injEq, heq]
        split_ifs
        · exact .none
        · exact .some hy }

/-- The remote process dies. -/
theorem die (h : Renames names g s) :
    Renames names { g with dead := true, records := g.records ++ g.registered.toList }
      { s with dead := true, records := s.records ++ s.registered.toList } :=
  { h with
    dead := rfl
    records := by
      have hreg := h.registered
      generalize g.registered = r, s.registered = r' at hreg
      cases hreg with
      | none => simpa using h.records
      | some hy => exact List.rel_append h.records (.cons hy .nil) }

/-- A record is read. -/
theorem readRecord (h : Renames names g s) {x c : ℕ} (hx : Named names x c) :
    Renames names { g with records := g.records.erase x }
      { s with records := s.records.erase c } :=
  { h with records := erase h.biUnique h.records hx }

/-- One more cookie is drawn. -/
theorem draw (h : Renames names g s) :
    Renames (names ++ [g.deathCounter]) { g with deathCounter := g.deathCounter + 1 }
      { s with deathCounter := s.deathCounter + 1 } where
  nodup := by
    rw [List.nodup_append]
    refine ⟨h.nodup, by simp, ?_⟩
    intro x hx y hy hxy
    rw [List.mem_singleton] at hy
    have := h.below x hx
    omega
  below x hx := by
    show x < g.deathCounter + 1
    rcases List.mem_append.mp hx with hx | hx
    · have := h.below x hx
      omega
    · rw [List.mem_singleton] at hx
      omega
  drawn := by
    show _ < g.deathCounter + 1
    rw [List.length_append, List.length_singleton]
    exact Nat.succ_lt_succ h.drawn
  counter := by
    show s.deathCounter + 1 = _
    rw [h.counter, List.length_append, List.length_singleton]
  undrawn := h.undrawn.draw
  undrawn_alone := h.undrawn_alone.draw
  handle := h.handle
  refs := h.refs
  weakRefs := rel_append h.weakRefs _
  refArcs := h.refArcs
  weakArcs := h.weakArcs.imp fun _ _ hx => hx.append _
  weakFields := h.weakFields.imp fun _ _ hp => ⟨hp.1, hp.2.append _⟩
  nextRef := h.nextRef
  token hx := by
    rcases named_append hx with hx | ⟨rfl, hc⟩
    · exact h.token hx
    · show (g.deathNotifications g.deathCounter).isSome = _
      rw [h.undrawn.token _ (Nat.le_refl _),
        h.undrawn_alone.token _ (Nat.le_of_eq (h.counter.trans hc.symm))]
  cancelled hx := by
    rcases named_append hx with hx | ⟨rfl, hc⟩
    · exact h.cancelled hx
    · show g.cancelled g.deathCounter = _
      rw [h.undrawn.cancelled _ (Nat.le_refl _),
        h.undrawn_alone.cancelled _ (Nat.le_of_eq (h.counter.trans hc.symm))]
  registered := rel_append h.registered _
  records := h.records.imp fun _ _ hx => hx.append _
  dead := h.dead
  written := h.written.imp fun _ _ hcmd => hcmd.append _
  phase t := (h.phase t).append _

/-! ## Steps that correspond -/

/-- A handle of a reference was dropped. -/
theorem leaveRef (h : Renames names g s) (t i : ℕ) :
    Renames names (g.leaveRef t i) (s.leaveRef t i) := by
  rw [RemoteHandle.leaveRef, RemoteHandle.leaveRef, h.refStrong]
  split_ifs <;> exact h.setPhase t (.same rfl)

/-- A handle of a weak reference was dropped. -/
theorem leaveWeak (h : Renames names g s) (t : ℕ) {x c : ℕ} (hx : Named names x c) :
    Renames names (g.leaveWeak t x) (s.leaveWeak t c) := by
  rw [RemoteHandle.leaveWeak, RemoteHandle.leaveWeak, h.weakStrong hx]
  split_ifs
  · exact h.setPhase t (.cookie rfl hx)
  · exact h.setPhase t (.same rfl)

/-- What a thread does next among others, it does alone, if it does not draw a cookie. -/
theorem go (h : Renames names g s) {t : ℕ} {p q : RefPhase} (hpq : p.Renamed names q)
    (hdraw : ∀ forRef, p ≠ .drawing forRef) {g' : RemoteHandle} (hstep : g.go t p = some g') :
    ∃ s', s.go t q = some s' ∧ Renames names g' s' ∧ g'.deathCounter = g.deathCounter := by
  cases p with
  | idle => cases hstep
  | drawing forRef => exact absurd rfl (hdraw forRef)
  | lookingUpRef =>
    obtain rfl := hpq.eq_of_none rfl
    simp only [RemoteHandle.go, h.upgradeRef] at hstep ⊢
    cases hup : s.upgradeRef with
    | some i =>
      rw [hup] at hstep
      cases hstep
      exact ⟨_, rfl, (h.consRefArc i).setPhase t (.same rfl), rfl⟩
    | none =>
      rw [hup] at hstep
      cases hstep
      exact ⟨_, rfl, h.setPhase t (.same rfl), rfl⟩
  | lookingUpWeak forRef =>
    obtain rfl := hpq.eq_of_none rfl
    have hup := h.upgradeWeak
    simp only [RemoteHandle.go] at hstep ⊢
    generalize g.upgradeWeak = found, s.upgradeWeak = found' at hup hstep ⊢
    cases hup with
    | some hx =>
      cases hstep
      exact ⟨_, rfl, h.takeWeak t hx forRef, by cases forRef <;> rfl⟩
    | none =>
      cases hstep
      exact ⟨_, rfl, h.setPhase t (.same rfl), rfl⟩
  | insertingToken forRef x =>
    obtain ⟨c, hx, rfl⟩ := hpq.exists_cookie rfl
    cases hstep
    exact ⟨_, rfl, (h.insertToken hx).setPhase t (.cookie rfl hx), rfl⟩
  | increfs forRef x =>
    obtain ⟨c, hx, rfl⟩ := hpq.exists_cookie rfl
    cases hstep
    rw [h.handle]
    exact ⟨_, rfl, (h.write (.increfs _)).setPhase t (.cookie rfl hx), rfl⟩
  | requesting forRef x =>
    obtain ⟨c, hx, rfl⟩ := hpq.exists_cookie rfl
    cases hstep
    rw [h.handle]
    exact ⟨_, rfl, ((h.request hx).write (.requestDeathNotification _ hx)).setPhase t
      (.cookie rfl hx), rfl⟩
  | insertingWeak forRef x =>
    obtain ⟨c, hx, rfl⟩ := hpq.exists_cookie rfl
    cases hstep
    exact ⟨_, rfl, (h.insertWeak hx).takeWeak t hx forRef, by cases forRef <;> rfl⟩
  | acquiring i =>
    obtain rfl := hpq.eq_of_none rfl
    cases hstep
    rw [h.handle]
    exact ⟨_, rfl, (h.write (.acquire _)).setPhase t (.same rfl), rfl⟩
  | insertingRef i =>
    obtain rfl := hpq.eq_of_none rfl
    cases hstep
    exact ⟨_, rfl, (h.insertRef i).setPhase t (.same rfl), rfl⟩
  | releasing i =>
    obtain rfl := hpq.eq_of_none rfl
    cases hstep
    rw [h.handle]
    exact ⟨_, rfl, (h.write (.release _)).setPhase t (.same rfl), rfl⟩
  | evictingRef i =>
    obtain rfl := hpq.eq_of_none rfl
    cases hstep
    exact ⟨_, rfl, h.evictRef.setPhase t (.same rfl), rfl⟩
  | droppingField i =>
    obtain rfl := hpq.eq_of_none rfl
    have hfield := lookup h.weakFields i
    simp only [RemoteHandle.go] at hstep ⊢
    generalize g.weakFields.lookup i = found, s.weakFields.lookup i = found' at hfield hstep ⊢
    cases hfield with
    | none => cases hstep
    | some hx =>
      cases hstep
      exact ⟨_, rfl, (h.eraseField i hx).leaveWeak t hx, rfl⟩
  | clearing x =>
    obtain ⟨c, hx, rfl⟩ := hpq.exists_cookie rfl
    cases hstep
    rw [h.handle]
    exact ⟨_, rfl, ((h.clear hx).write (.clearDeathNotification _ hx)).setPhase t
      (.cookie rfl hx), rfl⟩
  | removingToken x =>
    obtain ⟨c, hx, rfl⟩ := hpq.exists_cookie rfl
    cases hstep
    exact ⟨_, rfl, (h.removeToken hx).setPhase t (.cookie rfl hx), rfl⟩
  | decrefs x =>
    obtain ⟨c, hx, rfl⟩ := hpq.exists_cookie rfl
    cases hstep
    rw [h.handle]
    exact ⟨_, rfl, (h.write (.decrefs _)).setPhase t (.same rfl), rfl⟩
  | evictingWeak =>
    obtain rfl := hpq.eq_of_none rfl
    cases hstep
    exact ⟨_, rfl, h.evictWeak.setPhase t (.same rfl), rfl⟩
  | deadBinderDone x =>
    obtain ⟨c, hx, rfl⟩ := hpq.exists_cookie rfl
    cases hstep
    exact ⟨_, rfl, (h.write (.deadBinderDone hx)).setPhase t (.same rfl), rfl⟩

/-- What a thread draws among others, it draws alone under a name of its own. -/
theorem goDrawing (h : Renames names g s) (t : ℕ) (forRef : Bool) :
    Renames (names ++ [g.deathCounter])
      ({ g with deathCounter := g.deathCounter + 1 }.setPhase t
        (.insertingToken forRef g.deathCounter))
      ({ s with deathCounter := s.deathCounter + 1 }.setPhase t
        (.insertingToken forRef s.deathCounter)) := by
  refine h.draw.setPhase t (.cookie rfl ?_)
  rw [h.counter]
  exact named_last names _

end Renames

/-- A thread that reads a `BR_DEAD_BINDER` was idle, and there was a record with the cookie. -/
theorem reads_of_deadBinder {s s' : RemoteHandle} {t c : ℕ}
    (h : s.step (.deadBinder t c) = some s') : s.phase t = .idle ∧ c ∈ s.records := by
  simp only [RemoteHandle.step] at h
  split_ifs at h with hc
  exact hc

/-- A `BR_DEAD_BINDER` whose token is not filed. -/
theorem step_deadBinder_of_none {s : RemoteHandle} {t c : ℕ} (hidle : s.phase t = .idle)
    (hc : c ∈ s.records) (htoken : s.deathNotifications c = none) :
    s.step (.deadBinder t c) =
      some ({ s with records := s.records.erase c }.setPhase t (.deadBinderDone c)) := by
  have hkept : ({ s with records := s.records.erase c }.setPhase t
      (.deadBinderDone c)).deathNotifications c = none := htoken
  simp only [RemoteHandle.step, if_pos (And.intro hidle hc), hkept]

/-- A `BR_DEAD_BINDER` whose token is filed: it is the one of the cookie. -/
theorem step_deadBinder_of_isSome {s : RemoteHandle} {t c : ℕ} (hidle : s.phase t = .idle)
    (hc : c ∈ s.records) (htoken : (s.deathNotifications c).isSome) :
    s.step (.deadBinder t c) =
      some { ({ s with records := s.records.erase c }.setPhase t (.deadBinderDone c)).removeToken c
        with cancelled := Function.update s.cancelled c true } := by
  obtain ⟨token, hfiled⟩ := Option.isSome_iff_exists.mp htoken
  obtain rfl := s.keyed c token hfiled
  have hkept : ({ s with records := s.records.erase token }.setPhase t
      (.deadBinderDone token)).deathNotifications token = some token := hfiled
  simp only [RemoteHandle.step, if_pos (And.intro hidle hc), hkept]
  rfl

/-- The names behind a step are those before, or one more if the step draws a cookie. -/
def NamesGrow (names names' : List ℕ) (g g' : RemoteHandle) : Prop :=
  names' = names ∧ g'.deathCounter = g.deathCounter ∨
    names' = names ++ [g.deathCounter] ∧ g'.deathCounter = g.deathCounter + 1

/-- The only new name is what the counter was at. -/
theorem NamesGrow.exists_more {names names' : List ℕ} {g g' : RemoteHandle}
    (h : NamesGrow names names' g g') : ∃ more, names' = names ++ more ∧
      (∀ x ∈ more, x = g.deathCounter) ∧ g.deathCounter ≤ g'.deathCounter := by
  rcases h with ⟨rfl, hcounter⟩ | ⟨rfl, hcounter⟩
  · exact ⟨[], (List.append_nil _).symm, by simp, by omega⟩
  · exact ⟨[g.deathCounter], rfl, by simp, by omega⟩

namespace Renames

variable {names : List ℕ} {g g' s : RemoteHandle} {a : HandleAction}

/-- A thread that is idle among others is idle alone. -/
theorem idle (h : Renames names g s) {t : ℕ} (hidle : g.phase t = .idle) : s.phase t = .idle := by
  have hphase := h.phase t
  rw [hidle] at hphase
  exact hphase.eq_of_none rfl

/-- **Step.** What a step does among others, it does alone. -/
theorem step (h : Renames names g s) (hstep : g.step a = some g') :
    ∃ names' a' s', s.step a' = some s' ∧ a.Renamed names' a' ∧ Renames names' g' s' ∧
      NamesGrow names names' g g' := by
  cases a with
  | go t =>
    by_cases hdraw : ∃ forRef, g.phase t = .drawing forRef
    · obtain ⟨forRef, hphase⟩ := hdraw
      have hother := h.phase t
      rw [hphase] at hother
      rw [RemoteHandle.step, hphase] at hstep
      cases hstep
      refine ⟨_, .go t, _, ?_, .same rfl, h.goDrawing t forRef, Or.inr ⟨rfl, rfl⟩⟩
      rw [RemoteHandle.step, hother.eq_of_none rfl, RemoteHandle.go]
    · obtain ⟨s', hs', hnext, hcounter⟩ :=
        h.go (h.phase t) (fun forRef hp => hdraw ⟨forRef, hp⟩) hstep
      exact ⟨names, .go t, s', hs', .same rfl, hnext, Or.inl ⟨rfl, hcounter⟩⟩
  | decodeRef t =>
    simp only [RemoteHandle.step] at hstep
    split_ifs at hstep with hidle
    cases hstep
    refine ⟨names, .decodeRef t, _, ?_, .same rfl, h.setPhase t (.same rfl), Or.inl ⟨rfl, rfl⟩⟩
    rw [RemoteHandle.step, if_pos (h.idle hidle)]
  | decodeWeak t =>
    simp only [RemoteHandle.step] at hstep
    split_ifs at hstep with hidle
    cases hstep
    refine ⟨names, .decodeWeak t, _, ?_, .same rfl, h.setPhase t (.same rfl), Or.inl ⟨rfl, rfl⟩⟩
    rw [RemoteHandle.step, if_pos (h.idle hidle)]
  | cloneRef i =>
    simp only [RemoteHandle.step] at hstep
    split_ifs at hstep with hi
    cases hstep
    refine ⟨names, .cloneRef i, _, ?_, .same rfl, h.consRefArc i, Or.inl ⟨rfl, rfl⟩⟩
    rw [RemoteHandle.step, if_pos (h.refArcs ▸ hi)]
  | cloneWeak x =>
    simp only [RemoteHandle.step] at hstep
    split_ifs at hstep with hx
    cases hstep
    obtain ⟨c, hc, hxc⟩ := exists_of_mem h.weakArcs hx
    refine ⟨names, .cloneWeak c, _, ?_, .cookie rfl hxc, h.consWeakArc hxc, Or.inl ⟨rfl, rfl⟩⟩
    rw [RemoteHandle.step, if_pos hc]
  | downgrade i =>
    simp only [RemoteHandle.step] at hstep
    split_ifs at hstep with hi
    obtain ⟨x, hx, rfl⟩ := Option.map_eq_some_iff.mp hstep
    have hfield := lookup h.weakFields i
    rw [hx] at hfield
    obtain ⟨c, hc, hxc⟩ : ∃ c, s.weakFields.lookup i = some c ∧ Named names x c := by
      generalize s.weakFields.lookup i = found at hfield
      cases hfield with
      | some hxc => exact ⟨_, rfl, hxc⟩
    refine ⟨names, .downgrade i, _, ?_, .same rfl, h.consWeakArc hxc, Or.inl ⟨rfl, rfl⟩⟩
    rw [RemoteHandle.step, if_pos (h.refArcs ▸ hi), hc, Option.map_some]
  | upgrade x =>
    simp only [RemoteHandle.step, h.upgradeRef] at hstep
    split_ifs at hstep with hx
    obtain ⟨c, hc, hxc⟩ := exists_of_mem h.weakArcs hx
    cases hfound : s.upgradeRef with
    | some i =>
      rw [hfound] at hstep
      cases hstep
      refine ⟨names, .upgrade c, _, ?_, .cookie rfl hxc, h.consRefArc i, Or.inl ⟨rfl, rfl⟩⟩
      simp only [RemoteHandle.step, if_pos hc, hfound]
    | none =>
      rw [hfound] at hstep
      cases hstep
      refine ⟨names, .upgrade c, _, ?_, .cookie rfl hxc, h, Or.inl ⟨rfl, rfl⟩⟩
      simp only [RemoteHandle.step, if_pos hc, hfound]
  | dropRef t i =>
    simp only [RemoteHandle.step] at hstep
    split_ifs at hstep with hi
    cases hstep
    refine ⟨names, .dropRef t i, _, ?_, .same rfl, (h.eraseRefArc i).leaveRef t i,
      Or.inl ⟨rfl, rfl⟩⟩
    rw [RemoteHandle.step, if_pos ⟨h.idle hi.1, h.refArcs ▸ hi.2⟩]
  | dropWeak t x =>
    simp only [RemoteHandle.step] at hstep
    split_ifs at hstep with hx
    cases hstep
    obtain ⟨c, hc, hxc⟩ := exists_of_mem h.weakArcs hx.2
    refine ⟨names, .dropWeak t c, _, ?_, .cookie rfl hxc, (h.eraseWeakArc hxc).leaveWeak t hxc,
      Or.inl ⟨rfl, rfl⟩⟩
    rw [RemoteHandle.step, if_pos ⟨h.idle hx.1, hc⟩]
  | die =>
    simp only [RemoteHandle.step] at hstep
    split_ifs at hstep with hdead
    cases hstep
    refine ⟨names, .die, _, ?_, .same rfl, h.die, Or.inl ⟨rfl, rfl⟩⟩
    rw [RemoteHandle.step, if_neg (h.dead ▸ hdead)]
  | deadBinder t x =>
    have hx := reads_of_deadBinder hstep
    obtain ⟨c, hc, hxc⟩ := exists_of_mem h.records hx.2
    have hread := (h.readRecord hxc).setPhase t (.cookie (p := .deadBinderDone x) rfl hxc)
    -- the token is filed in both or in neither
    by_cases htoken : (s.deathNotifications c).isSome = true
    · rw [step_deadBinder_of_isSome hx.1 hx.2 ((h.token hxc).trans htoken)] at hstep
      cases hstep
      refine ⟨names, .deadBinder t c, _, step_deadBinder_of_isSome (h.idle hx.1) hc htoken,
        .cookie rfl hxc, (hread.removeToken hxc).cancel hxc, Or.inl ⟨rfl, rfl⟩⟩
    · have hnone := htoken
      rw [← h.token hxc] at htoken
      rw [Option.not_isSome_iff_eq_none] at htoken hnone
      rw [step_deadBinder_of_none hx.1 hx.2 htoken] at hstep
      cases hstep
      exact ⟨names, .deadBinder t c, _, step_deadBinder_of_none (h.idle hx.1) hc hnone,
        .cookie rfl hxc, hread, Or.inl ⟨rfl, rfl⟩⟩

/-! ## What the others see -/

/-- The cookie that a thread works with is one of the names. -/
theorem mem_of_phase (h : Renames names g s) {t x : ℕ} (hx : (g.phase t).cookie = some x) :
    x ∈ names := by
  obtain ⟨c, hc, -⟩ := (h.phase t).exists_cookie hx
  exact hc.mem

/-- **Foreign tokens.** A step leaves the tokens of the cookies of other handles alone. -/
theorem foreign (h : Renames names g s) (hstep : g.step a = some g') {x : ℕ} (hx : x ∉ names) :
    g'.deathNotifications x = g.deathNotifications x ∧ g'.cancelled x = g.cancelled x := by
  by_cases hread : ∃ t c, a = .deadBinder t c
  · obtain ⟨t, c, rfl⟩ := hread
    obtain ⟨hidle, hc⟩ := reads_of_deadBinder hstep
    obtain ⟨d, -, hd⟩ := exists_of_mem h.records hc
    have hne : x ≠ c := fun heq => hx (heq ▸ hd.mem)
    by_cases htoken : (g.deathNotifications c).isSome = true
    · rw [step_deadBinder_of_isSome hidle hc htoken] at hstep
      cases hstep
      exact ⟨DashMap.remove_of_ne _ hne, Function.update_of_ne hne _ _⟩
    · rw [Option.not_isSome_iff_eq_none] at htoken
      rw [step_deadBinder_of_none hidle hc htoken] at hstep
      cases hstep
      exact ⟨rfl, rfl⟩
  · cases step_effect hstep with
    | @filesToken t forRef c hp =>
      have hne : x ≠ c := fun heq => hx (heq ▸ h.mem_of_phase (by rw [hp]; rfl))
      exact ⟨DashMap.insert_of_ne _ _ hne, rfl⟩
    | @removesToken t c hp =>
      have hne : x ≠ c := fun heq => hx (heq ▸ h.mem_of_phase (by rw [hp]; rfl))
      exact ⟨DashMap.remove_of_ne _ hne, rfl⟩
    | reads ha => exact absurd ⟨_, _, ha⟩ hread
    | @findsWeak t c forRef | @insertsWeak t forRef c => cases forRef <;> exact ⟨rfl, rfl⟩
    | _ => exact ⟨rfl, rfl⟩

/-- **Interference.** What others do to the counter and to their own tokens does not show. -/
theorem elsewhere (h : Renames names g s) {n : ℕ} {tokens : DashMap ℕ ℕ} {cancelled : ℕ → Bool}
    {keyed : ∀ c token, tokens c = some token → token = c} (hn : g.deathCounter ≤ n)
    (hundrawn : Undrawn n tokens cancelled)
    (hforeign : ∀ x ∈ names, tokens x = g.deathNotifications x ∧ cancelled x = g.cancelled x) :
    Renames names
      { g with deathCounter := n, deathNotifications := tokens, cancelled := cancelled, keyed := keyed }
      s :=
  { h with
    below := fun x hx => Nat.lt_of_lt_of_le (h.below x hx) hn
    drawn := Nat.lt_of_lt_of_le h.drawn hn
    undrawn := hundrawn
    token := by
      intro x c hx
      rw [← h.token hx]
      exact congrArg Option.isSome (hforeign x hx.mem).1
    cancelled := fun hx => (hforeign _ hx.mem).2.trans (h.cancelled hx) }

/-- A handle that was never decoded, on a device that has drawn no cookie. -/
theorem new (handle : UInt32) : Renames [] (new handle) (new handle) where
  nodup := List.nodup_nil
  below x hx := by cases hx
  drawn := Nat.zero_lt_one
  counter := rfl
  undrawn := ⟨fun _ _ => rfl, fun _ _ => rfl⟩
  undrawn_alone := ⟨fun _ _ => rfl, fun _ _ => rfl⟩
  handle := rfl
  refs := rfl
  weakRefs := .none
  refArcs := rfl
  weakArcs := .nil
  weakFields := .nil
  nextRef := rfl
  token hx := by cases hx.mem
  cancelled hx := by cases hx.mem
  registered := .none
  records := .nil
  dead := rfl
  written := .nil
  phase _ := .same rfl

end Renames

end RemoteHandle

end BinderBinder
