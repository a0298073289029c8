import Mathlib.Data.List.Induction
import Mathlib.Data.List.Nodup
import BinderBinder.Refs.Renaming
import BinderBinder.Refs.Progress

set_option relaxedAutoImplicit false
set_option autoImplicit false

/-!
# The references of a device

All handles of a device have their references in the same maps, draw their cookies from the same
`death_counter` and file their tokens in the same `death_notifications`, and a thread works on one
handle after the other. Seen from one handle, a device goes through the states of that handle alone,
but for the names of the cookies; so what holds of every handle alone holds on the device.

## Main definitions

* `RemoteRefs`, `RemoteRefs.step` — the references of a device, and their steps.
* `RemoteRefs.view`, `RemoteRefs.put` — one handle of the device.
* `RemoteRefs.Refines` — every handle is in a state of the handle alone.

## Main results

* `RemoteRefs.Refines.step` — every step of the device is one of a handle alone.
* `RemoteRefs.handles_alone` — every run of the device is one of each handle alone.
* `RemoteRefs.device_nothing_leaks`, `RemoteRefs.cookies_apart`,
  `RemoteRefs.device_death_reports`, `RemoteRefs.device_operations_finish` — so what holds of every
  handle alone holds on the device.
-/

namespace BinderBinder

open Run Renaming

/-! ## What was written, under other names -/

/-- The 64 bits of a cookie in the commands, among others and alone. -/
def CookieSent (names : List ℕ) (u v : Usize) : Prop :=
  ∃ x c, Named names x c ∧ u = UInt64.ofNat x ∧ v = UInt64.ofNat c

/-- As long as the counters have not wrapped, different cookies have different 64 bits. -/
theorem biUnique_cookieSent {names : List ℕ} (hnodup : names.Nodup)
    (hbelow : ∀ x ∈ names, x < 2 ^ 64) (hlength : names.length < 2 ^ 64) :
    Relator.BiUnique (CookieSent names) := by
  have hunique := biUnique_named hnodup
  constructor
  · rintro u v w ⟨x, c, hx, rfl, rfl⟩ ⟨y, d, hy, rfl, hv⟩
    obtain rfl := ofNat_inj (Nat.lt_of_le_of_lt hx.le hlength) (Nat.lt_of_le_of_lt hy.le hlength) hv
    rw [hunique.1 hx hy]
  · rintro u v w ⟨x, c, hx, rfl, rfl⟩ ⟨y, d, hy, hu, rfl⟩
    obtain rfl := ofNat_inj (hbelow x hx.mem) (hbelow y hy.mem) hu
    rw [hunique.2 hx hy]

namespace RemoteHandle.Renames

variable {names : List ℕ} {g s : RemoteHandle}

/-- A command without a cookie was written equally often. -/
theorem count_written (h : Renames names g s) {cmd : Command}
    (hcmd : ∀ {cmd₁ cmd₂ : Command}, cmd₁.Renamed names cmd₂ → (cmd₁ == cmd) = (cmd₂ == cmd)) :
    g.written.count cmd = s.written.count cmd :=
  countP_eq h.written fun _ _ => hcmd

/-- The same counts were taken and given back. -/
theorem counts (h : Renames names g s) : g.acquired = s.acquired ∧ g.released = s.released ∧
    g.increfed = s.increfed ∧ g.decrefed = s.decrefed := by
  simp only [acquired, released, increfed, decrefed, h.handle]
  refine ⟨?_, ?_, ?_, ?_⟩ <;>
  · apply h.count_written
    intro cmd₁ cmd₂ hcmd
    cases hcmd <;> simp

/-- The same cookies were requested. -/
theorem requestedCookies (h : Renames names g s) :
    List.Forall₂ (CookieSent names) g.requestedCookies s.requestedCookies := by
  refine List.rel_filterMap ?_ h.written
  intro cmd₁ cmd₂ hcmd
  cases hcmd with
  | requestDeathNotification handle hx => exact .some ⟨_, _, hx, rfl, rfl⟩
  | _ => exact .none

/-- The same cookies were cleared. -/
theorem clearedCookies (h : Renames names g s) :
    List.Forall₂ (CookieSent names) g.clearedCookies s.clearedCookies := by
  refine List.rel_filterMap ?_ h.written
  intro cmd₁ cmd₂ hcmd
  cases hcmd with
  | clearDeathNotification handle hx => exact .some ⟨_, _, hx, rfl, rfl⟩
  | _ => exact .none

/-- A weak reference that is alive among others is one that is alive alone. -/
theorem exists_weakAlive (h : Renames names g s) {x : ℕ} (hx : g.WeakAlive x) :
    ∃ c, Named names x c ∧ s.WeakAlive c := by
  obtain ⟨c, hc⟩ : ∃ c, Named names x c := by
    rcases weakAlive_iff.mp hx with harc | ⟨i, hi⟩
    · obtain ⟨c, -, hc⟩ := exists_of_mem h.weakArcs harc
      exact ⟨c, hc⟩
    · obtain ⟨⟨j, c⟩, -, -, hc⟩ := exists_of_mem h.weakFields hi
      exact ⟨c, hc⟩
  refine ⟨c, hc, ?_⟩
  rwa [WeakAlive, ← h.weakStrong hc]

/-- What can go on alone can go on among others. -/
theorem go_isSome (h : Renames names g s) {t : ℕ} (hs : (s.step (.go t)).isSome = true) :
    (g.step (.go t)).isSome = true := by
  rw [RemoteHandle.step]
  cases hphase : g.phase t with
  | idle =>
    rw [RemoteHandle.step, h.idle hphase] at hs
    cases hs
  | lookingUpRef | lookingUpWeak forRef =>
    simp only [RemoteHandle.go]
    split <;> rfl
  | droppingField i =>
    have hother := h.phase t
    rw [hphase] at hother
    rw [RemoteHandle.step, hother.eq_of_none rfl] at hs
    simp only [RemoteHandle.go, Option.isSome_map] at hs ⊢
    have hfield := lookup h.weakFields i
    generalize g.weakFields.lookup i = found, s.weakFields.lookup i = found' at hfield hs ⊢
    cases hfield with
    | some _ => rfl
    | none => cases hs
  | _ => rfl

/-- What is at rest among others is at rest alone. -/
theorem atRest (h : Renames names g s) (hrest : g.AtRest) : s.AtRest where
  idle t := h.idle (hrest.idle t)
  refArcs := h.refArcs ▸ hrest.refArcs
  weakArcs := by
    have harcs := h.weakArcs
    rw [hrest.weakArcs] at harcs
    exact List.forall₂_nil_left_iff.mp harcs

end RemoteHandle.Renames

/-! ## The device -/

/-- The references of a device: the entries of `refs` and `weak_refs`, the handles of users and the
fields `weak` for each handle, the counter, the tokens of `death_notifications` and which of them are
cancelled; what the kernel knows of each handle and the commands written for it; and where each
thread is, and at which handle. `deathCounter` has no bound: runs are those in which the counter of
the device has not wrapped. -/
structure RemoteRefs where
  refs : DashMap UInt32 ℕ
  weakRefs : DashMap UInt32 ℕ
  refArcs : UInt32 → List ℕ
  weakArcs : UInt32 → List ℕ
  weakFields : UInt32 → List (ℕ × ℕ)
  nextRef : UInt32 → ℕ
  deathCounter : ℕ
  deathNotifications : DashMap ℕ ℕ
  cancelled : ℕ → Bool
  registered : UInt32 → Option ℕ
  records : UInt32 → List ℕ
  dead : UInt32 → Bool
  written : UInt32 → List Command
  phase : ℕ → UInt32 × RefPhase
  keyed : ∀ c token, deathNotifications c = some token → token = c

namespace RemoteRefs

/-- Before the first token is filed, none is filed under the cookie of another. -/
theorem keyed_empty (c token : ℕ) (h : (DashMap.empty : DashMap ℕ ℕ) c = some token) : token = c := by
  cases h

/-- A device that has decoded no handle. -/
def new : RemoteRefs where
  refs := DashMap.empty
  weakRefs := DashMap.empty
  refArcs _ := []
  weakArcs _ := []
  weakFields _ := []
  nextRef _ := 0
  deathCounter := 1
  deathNotifications := DashMap.empty
  cancelled _ := false
  registered _ := none
  records _ := []
  dead _ := false
  written _ := []
  phase _ := (0, .idle)
  keyed := keyed_empty

/-- Where a thread is, seen from a handle: at work on another, it is not seen to do anything. -/
def seenAt (k : UInt32) (p : UInt32 × RefPhase) : RefPhase := if p.1 = k then p.2 else .idle

/-- One handle of the device. -/
def view (d : RemoteRefs) (k : UInt32) : RemoteHandle where
  handle := k
  refs := d.refs k
  weakRefs := d.weakRefs k
  refArcs := d.refArcs k
  weakArcs := d.weakArcs k
  weakFields := d.weakFields k
  nextRef := d.nextRef k
  deathCounter := d.deathCounter
  deathNotifications := d.deathNotifications
  cancelled := d.cancelled
  registered := d.registered k
  records := d.records k
  dead := d.dead k
  written := d.written k
  phase t := seenAt k (d.phase t)
  keyed := d.keyed

/-- The device with one handle in another state. A thread that starts something at the handle works
on it from then on. -/
def put (d : RemoteRefs) (k : UInt32) (g : RemoteHandle) : RemoteRefs where
  refs := Function.update d.refs k g.refs
  weakRefs := Function.update d.weakRefs k g.weakRefs
  refArcs := Function.update d.refArcs k g.refArcs
  weakArcs := Function.update d.weakArcs k g.weakArcs
  weakFields := Function.update d.weakFields k g.weakFields
  nextRef := Function.update d.nextRef k g.nextRef
  deathCounter := g.deathCounter
  deathNotifications := g.deathNotifications
  cancelled := g.cancelled
  registered := Function.update d.registered k g.registered
  records := Function.update d.records k g.records
  dead := Function.update d.dead k g.dead
  written := Function.update d.written k g.written
  phase t := if (d.phase t).1 ≠ k ∧ g.phase t = .idle then d.phase t else (k, g.phase t)
  keyed := g.keyed

/-- One step of the device is a step at one of its handles; only a thread that is not at work on
another handle starts something. -/
def step (d : RemoteRefs) : UInt32 × HandleAction → Option RemoteRefs
  | (k, a) =>
    if ∀ t ∈ a.startedBy, (d.phase t).1 = k ∨ (d.phase t).2 = .idle then
      ((d.view k).step a).map (d.put k)
    else none

/-! ## One handle of the device -/

section View

variable {d : RemoteRefs} {k : UInt32} {g : RemoteHandle}

/-- A thread that works on the handle. -/
theorem seenAt_self (k : UInt32) (p : RefPhase) : seenAt k (k, p) = p := if_pos rfl

/-- A thread that works on another handle. -/
theorem seenAt_of_ne {p : UInt32 × RefPhase} (h : p.1 ≠ k) : seenAt k p = .idle := if_neg h

/-- A thread that is idle works on none. -/
theorem seenAt_of_idle {p : UInt32 × RefPhase} (h : p.2 = .idle) : seenAt k p = .idle := by
  rw [seenAt, h, ite_self]

/-- The handle that was changed is in the state that it was put into. -/
theorem view_put_self (d : RemoteRefs) (hk : g.handle = k) : (d.put k g).view k = g := by
  have hphase : (fun t => seenAt k ((d.put k g).phase t)) = g.phase := by
    funext t
    simp only [put]
    split_ifs with ht
    · rw [seenAt_of_ne ht.1, ht.2]
    · exact seenAt_self k _
  subst hk
  simp only [view, hphase]
  simp only [put, Function.update_self]

/-- Another handle is as before, but for what all handles share, if the threads at work on it are left
alone. -/
theorem view_put_of_ne {k' : UInt32} (hne : k' ≠ k)
    (hkept : ∀ t, (d.phase t).1 ≠ k → g.phase t ≠ .idle → (d.phase t).2 = .idle) :
    (d.put k g).view k' = { d.view k' with
      deathCounter := g.deathCounter
      deathNotifications := g.deathNotifications
      cancelled := g.cancelled
      keyed := g.keyed } := by
  have hphase : (fun t => seenAt k' ((d.put k g).phase t)) = fun t => seenAt k' (d.phase t) := by
    funext t
    simp only [put]
    split_ifs with ht
    · rfl
    · rw [seenAt_of_ne hne.symm]
      by_cases hk : (d.phase t).1 = k
      · exact (seenAt_of_ne fun h => hne (h.symm.trans hk)).symm
      · exact (seenAt_of_idle (hkept t hk fun hidle => ht ⟨hk, hidle⟩)).symm
  simp only [view, hphase]
  simp only [put, Function.update_of_ne hne]

/-- A step keeps the name of the handle. -/
theorem handle_step {s s' : RemoteHandle} {a : HandleAction} (h : s.step a = some s') :
    s'.handle = s.handle := by
  cases RemoteHandle.step_effect h with
  | @findsWeak t c forRef | @insertsWeak t forRef c => cases forRef <;> rfl
  | _ => rfl

/-- A step of the device is a step of the handle that it is at, and the other handles are left alone
but for what all handles share. -/
theorem step_cases {d' : RemoteRefs} {a : HandleAction} (h : d.step (k, a) = some d') :
    ∃ g, (d.view k).step a = some g ∧ d'.view k = g ∧ d'.deathNotifications = g.deathNotifications ∧
      ∀ k' ≠ k, d'.view k' = { d.view k' with
        deathCounter := g.deathCounter
        deathNotifications := g.deathNotifications
        cancelled := g.cancelled
        keyed := g.keyed } := by
  rw [step] at h
  split_ifs at h with hfree
  obtain ⟨g, hg, rfl⟩ := Option.map_eq_some_iff.mp h
  refine ⟨g, hg, view_put_self d (handle_step hg), rfl, fun k' hne => view_put_of_ne hne ?_⟩
  intro t hk hidle
  have hseen : (d.view k).phase t = .idle := seenAt_of_ne hk
  -- only the thread that starts something leaves off being idle
  by_cases hstart : a.startedBy = some t
  · exact (hfree t hstart).resolve_left hk
  · have hgo : a ≠ .go t := by
      rintro rfl
      rw [RemoteHandle.step, hseen] at hg
      cases hg
    rw [RemoteHandle.phase_of_ne hg hgo hstart] at hidle
    exact absurd hseen hidle

end View

/-! ## The handles alone -/

/-- What was done at a handle. -/
def actionsAt (k : UInt32) (acts : List (UInt32 × HandleAction)) : List HandleAction :=
  (acts.filter fun act => act.1 == k).map Prod.snd

/-- Every handle of the device is in a state `alone` of the handle alone, but for the `names` of its
cookies. Every cookie is the name of one of one handle, and only names have tokens. -/
structure Refines (d : RemoteRefs) (names : UInt32 → List ℕ) (alone : UInt32 → RemoteHandle) :
    Prop where
  renames : ∀ k, RemoteHandle.Renames (names k) (d.view k) (alone k)
  apart : ∀ {k k' x}, x ∈ names k → x ∈ names k' → k = k'
  filed : ∀ x, d.deathNotifications x ≠ none → ∃ k, x ∈ names k

/-- A device that has decoded no handle. -/
theorem refines_new : Refines new (fun _ => []) RemoteHandle.new where
  renames k := by
    have hidle : (fun t => seenAt k (new.phase t)) = fun _ => .idle := by
      funext t
      exact seenAt_of_idle rfl
    have hview : new.view k = RemoteHandle.new k := by
      simp only [view, hidle]
      rfl
    rw [hview]
    exact .new k
  apart hx := by cases hx
  filed x hx := absurd rfl hx

/-- The names of a handle and those drawn for it: no other handle gets one. -/
theorem mem_update_names {names : UInt32 → List ℕ} {more : List ℕ} {k k' : UInt32} {x : ℕ} :
    x ∈ Function.update names k (names k ++ more) k' ↔ x ∈ names k' ∨ k' = k ∧ x ∈ more := by
  by_cases hk : k' = k
  · subst hk
    simp
  · simp [hk]

/-- **Step.** A step of the device is one of a handle alone, but for the names of its cookies; the
others stay in the states they were in. -/
theorem Refines.step {d d' : RemoteRefs} {names : UInt32 → List ℕ} {alone : UInt32 → RemoteHandle}
    (h : d.Refines names alone) {k : UInt32} {a : HandleAction} (hstep : d.step (k, a) = some d') :
    ∃ more a' s', (alone k).step a' = some s' ∧ a.Renamed (names k ++ more) a' ∧
      d'.Refines (Function.update names k (names k ++ more)) (Function.update alone k s') := by
  obtain ⟨g, hg, hself, htokens, hothers⟩ := step_cases hstep
  obtain ⟨names', a', s', hs', ha, hnext, hgrow⟩ := (h.renames k).step hg
  obtain ⟨more, rfl, hmore, hle⟩ := hgrow.exists_more
  have hforeign : ∀ x, x ∉ names k → g.deathNotifications x = d.deathNotifications x ∧
      g.cancelled x = d.cancelled x := fun x hx => (h.renames k).foreign hg hx
  have hold : ∀ {k' x}, x ∈ names k' → x ∉ more := by
    intro k' x hx hnew
    have hbelow : x < d.deathCounter := (h.renames k').below x hx
    have hdrawn : x = d.deathCounter := hmore x hnew
    omega
  refine ⟨more, a', s', hs', ha, ?_, ?_, ?_⟩
  · intro k'
    by_cases hk : k' = k
    · subst hk
      rw [Function.update_self, Function.update_self, hself]
      exact hnext
    · rw [Function.update_of_ne hk, Function.update_of_ne hk, hothers k' hk]
      exact (h.renames k').elsewhere hle hnext.undrawn
        fun x hx => hforeign x fun hxk => hk (h.apart hx hxk)
  · intro k₁ k₂ x h₁ h₂
    rcases mem_update_names.mp h₁ with hold₁ | ⟨hk₁, hnew₁⟩
    · rcases mem_update_names.mp h₂ with hold₂ | ⟨-, hnew₂⟩
      · exact h.apart hold₁ hold₂
      · exact absurd hnew₂ (hold hold₁)
    · rcases mem_update_names.mp h₂ with hold₂ | ⟨hk₂, -⟩
      · exact absurd hnew₁ (hold hold₂)
      · exact hk₁.trans hk₂.symm
  · intro x hx
    rw [htokens] at hx
    by_cases hxk : x ∈ names k
    · exact ⟨k, mem_update_names.mpr (Or.inl hxk)⟩
    · rw [(hforeign x hxk).1] at hx
      obtain ⟨k', hk'⟩ := h.filed x hx
      exact ⟨k', mem_update_names.mpr (Or.inl hk')⟩

/-! ## Runs -/

/-- What was done at a handle, with one step more. -/
theorem actionsAt_append (k : UInt32) (acts : List (UInt32 × HandleAction)) (k' : UInt32)
    (a : HandleAction) :
    actionsAt k (acts ++ [(k', a)]) = actionsAt k acts ++ if k = k' then [a] else [] := by
  by_cases hk : k = k'
  · simp [actionsAt, hk]
  · simp [actionsAt, hk, Ne.symm hk]

/-- Each handle alone goes through what was done at it. -/
structure Alone (d : RemoteRefs) (acts : List (UInt32 × HandleAction)) (names : UInt32 → List ℕ)
    (alone : UInt32 → RemoteHandle) (runs : UInt32 → List HandleAction) : Prop where
  refines : d.Refines names alone
  exec : ∀ k, exec RemoteHandle.step (.new k) (runs k) = some (alone k)
  renamed : ∀ k, List.Forall₂ (HandleAction.Renamed (names k)) (actionsAt k acts) (runs k)

/-- **Step.** The handle that a step is at goes on alone. -/
theorem Alone.step {d d' : RemoteRefs} {acts : List (UInt32 × HandleAction)}
    {names : UInt32 → List ℕ} {alone : UInt32 → RemoteHandle} {runs : UInt32 → List HandleAction}
    (h : d.Alone acts names alone runs) {k : UInt32} {a : HandleAction}
    (hstep : d.step (k, a) = some d') :
    ∃ names alone runs, d'.Alone (acts ++ [(k, a)]) names alone runs := by
  obtain ⟨more, a', s', hs', ha, hrefines⟩ := h.refines.step hstep
  refine ⟨_, _, Function.update runs k (runs k ++ [a']), hrefines, fun k' => ?_, fun k' => ?_⟩
  · by_cases hk : k' = k
    · subst hk
      rw [Function.update_self, Function.update_self]
      exact exec_append_eq_some.mpr ⟨_, h.exec k', exec_cons_eq_some.mpr ⟨s', hs', rfl⟩⟩
    · rw [Function.update_of_ne hk, Function.update_of_ne hk]
      exact h.exec k'
  · rw [actionsAt_append]
    by_cases hk : k' = k
    · subst hk
      rw [Function.update_self, Function.update_self, if_pos rfl]
      exact List.rel_append ((h.renamed k').imp fun _ _ hb => hb.append more) (.cons ha .nil)
    · rw [Function.update_of_ne hk, Function.update_of_ne hk, if_neg hk, List.append_nil]
      exact h.renamed k'

/-- Every run of the device is one of each of its handles alone. -/
theorem exists_alone {acts : List (UInt32 × HandleAction)} {d : RemoteRefs}
    (h : exec step new acts = some d) : ∃ names alone runs, d.Alone acts names alone runs := by
  induction acts using List.reverseRecOn generalizing d with
  | nil =>
    cases h
    exact ⟨_, _, fun _ => [], refines_new, fun _ => rfl, fun _ => .nil⟩
  | append_singleton acts act ih =>
    obtain ⟨d₀, hd₀, hlast⟩ := exec_append_eq_some.mp h
    obtain ⟨names, alone, runs, halone⟩ := ih hd₀
    obtain ⟨d', hd', hnil⟩ := exec_cons_eq_some.mp hlast
    cases hnil
    exact halone.step hd'

/-- **The handles of a device.** In every run of a device, whatever its threads do at its handles and
however they are interleaved, each handle goes through a run of its own: the one in which what was
done at this handle is done alone, but for the names of the cookies. No cookie is drawn for two
handles. -/
theorem handles_alone {acts : List (UInt32 × HandleAction)} {d : RemoteRefs}
    (h : exec step new acts = some d) :
    ∃ (names : UInt32 → List ℕ) (alone : UInt32 → RemoteHandle) (runs : UInt32 → List HandleAction),
      (∀ k, exec RemoteHandle.step (.new k) (runs k) = some (alone k) ∧
        List.Forall₂ (HandleAction.Renamed (names k)) (actionsAt k acts) (runs k) ∧
        RemoteHandle.Renames (names k) (d.view k) (alone k)) ∧
      ∀ k k' x, x ∈ names k → x ∈ names k' → k = k' := by
  obtain ⟨names, alone, runs, halone⟩ := exists_alone h
  exact ⟨names, alone, runs, fun k => ⟨halone.exec k, halone.renamed k, halone.refines.renames k⟩,
    fun _ _ _ => halone.refines.apart⟩

/-- Two threads decode two handles in step, and the second draws its cookie first. -/
def decodedBoth : List (UInt32 × HandleAction) :=
  [(7, .decodeRef 0), (8, .decodeRef 1)] ++ (List.replicate 9 [(8, .go 1), (7, .go 0)]).flatten

/-- Then the weak reference to the first handle has the second cookie of the device; alone it would
have the first. -/
theorem handles_alone_decodedBoth :
    ∃ d, exec step new decodedBoth = some d ∧ d.weakRefs 7 = some 2 ∧ d.weakRefs 8 = some 1 ∧
      ∃ (names : UInt32 → List ℕ) (alone : UInt32 → RemoteHandle)
        (runs : UInt32 → List HandleAction),
        (∀ k, exec RemoteHandle.step (.new k) (runs k) = some (alone k) ∧
          List.Forall₂ (HandleAction.Renamed (names k)) (actionsAt k decodedBoth) (runs k) ∧
          RemoteHandle.Renames (names k) (d.view k) (alone k)) ∧
        ∀ k k' x, x ∈ names k → x ∈ names k' → k = k' :=
  ⟨_, rfl, rfl, rfl, handles_alone rfl⟩

/-- A handle at which nothing was done has no references. -/
theorem arcs_of_untouched {acts : List (UInt32 × HandleAction)} {d : RemoteRefs}
    (h : exec step new acts = some d) {k : UInt32} (hk : ∀ act ∈ acts, act.1 ≠ k) :
    d.refArcs k = [] ∧ d.weakArcs k = [] := by
  obtain ⟨names, alone, runs, halone⟩ := exists_alone h
  have hnone : actionsAt k acts = [] := by
    rw [actionsAt, List.map_eq_nil_iff, List.filter_eq_nil_iff]
    intro act hact
    simpa using hk act hact
  have hrun := halone.renamed k
  rw [hnone, List.forall₂_nil_left_iff] at hrun
  have hexec := halone.exec k
  rw [hrun] at hexec
  have hview := halone.refines.renames k
  rw [← Option.some.inj hexec] at hview
  exact ⟨hview.refArcs, List.forall₂_nil_right_iff.mp hview.weakArcs⟩

/-! ### What remains to a thread -/

/-- A thread is where it was behind a step in which it neither goes on nor starts anything. -/
theorem phase_of_ne {d d' : RemoteRefs} {k : UInt32} {a : HandleAction} {t : ℕ}
    (h : d.step (k, a) = some d') (hgo : a ≠ .go t) (hstart : a.startedBy ≠ some t) :
    d'.phase t = d.phase t := by
  rw [step] at h
  split_ifs at h
  obtain ⟨g, hg, rfl⟩ := Option.map_eq_some_iff.mp h
  have hseen : g.phase t = seenAt k (d.phase t) := RemoteHandle.phase_of_ne hg hgo hstart
  simp only [put]
  split_ifs with hat
  · rfl
  · rw [hseen]
    by_cases hk : (d.phase t).1 = k
    · subst hk
      rw [seenAt, if_pos rfl]
    · exact absurd ⟨hk, hseen.trans (seenAt_of_ne hk)⟩ hat

/-- **Step.** What remains to a thread gets less when it goes on, and nothing that others do at any
handle makes it more. -/
theorem remaining_step {d d' : RemoteRefs} {act : UInt32 × HandleAction} {t : ℕ}
    (h : d.step act = some d') (hstart : act.2.startedBy ≠ some t) :
    (if act.2 == .go t then 1 else 0) + (d'.phase t).2.remaining ≤ (d.phase t).2.remaining := by
  obtain ⟨k, a⟩ := act
  by_cases hgo : a = .go t
  · subst hgo
    rw [step] at h
    split_ifs at h
    obtain ⟨g, hg, rfl⟩ := Option.map_eq_some_iff.mp h
    by_cases hk : (d.phase t).1 = k
    · obtain ⟨q, hphase, hless⟩ := RemoteHandle.go_remaining hg
      have hseen : (d.view k).phase t = (d.phase t).2 := if_pos hk
      have hput : ((d.put k g).phase t).2 = q := by
        simp only [put]
        rw [if_neg fun hat => hat.1 hk, hphase, Function.update_self]
      rw [hput, if_pos (by simp), ← hseen]
      omega
    · rw [RemoteHandle.step, show (d.view k).phase t = .idle from seenAt_of_ne hk] at hg
      cases hg
  · rw [phase_of_ne h hgo hstart, if_neg (by simpa using hgo)]
    omega

/-- Over a run, a thread that starts nothing makes no more steps than remain to it. -/
theorem remaining_run {bs : List (UInt32 × HandleAction)} {d d' : RemoteRefs}
    (hrun : exec step d bs = some d') {t : ℕ} (hstart : ∀ act ∈ bs, act.2.startedBy ≠ some t) :
    bs.countP (fun act => act.2 == .go t) + (d'.phase t).2.remaining ≤ (d.phase t).2.remaining := by
  induction bs generalizing d with
  | nil =>
    cases hrun
    simp
  | cons act bs ih =>
    obtain ⟨d₁, hd₁, hrest⟩ := exec_cons_eq_some.mp hrun
    have hfirst := remaining_step hd₁ (hstart act List.mem_cons_self)
    have hthen := ih hrest fun b hb => hstart b (List.mem_cons_of_mem act hb)
    rw [List.countP_cons]
    omega

/-- A thread that never started anything is idle. -/
theorem idle_of_unstarted {acts : List (UInt32 × HandleAction)} {d : RemoteRefs}
    (h : exec step new acts = some d) {t : ℕ} (hstart : ∀ act ∈ acts, act.2.startedBy ≠ some t) :
    (d.phase t).2 = .idle := by
  have hremaining : (d.phase t).2.remaining = 0 := by
    have hrun : _ ≤ RefPhase.idle.remaining := remaining_run h hstart
    rw [RefPhase.remaining] at hrun
    omega
  generalize (d.phase t).2 = p at hremaining
  cases p with
  | idle => rfl
  | lookingUpWeak forRef | drawing forRef | insertingToken forRef c | increfs forRef c
  | requesting forRef c | insertingWeak forRef c => cases forRef <;> cases hremaining
  | _ => cases hremaining

/-! ## What holds of a device -/

/-- No thread is in the middle of anything, and no user has a handle of a reference. -/
structure AtRest (d : RemoteRefs) : Prop where
  idle : ∀ t, (d.phase t).2 = .idle
  refArcs : ∀ k, d.refArcs k = []
  weakArcs : ∀ k, d.weakArcs k = []

/-- Then every handle is at rest. -/
theorem AtRest.view {d : RemoteRefs} (h : d.AtRest) (k : UInt32) : (d.view k).AtRest where
  idle t := seenAt_of_idle (h.idle t)
  refArcs := h.refArcs k
  weakArcs := h.weakArcs k

/-- **Nothing leaks on a device.** When no thread is in the middle of anything and no user has a handle
of a reference, then the maps of the device are empty, and everything that was taken from the kernel
for any of its handles was given back. -/
theorem device_nothing_leaks {acts : List (UInt32 × HandleAction)} {d : RemoteRefs}
    (h : exec step new acts = some d) (hrest : d.AtRest) :
    d.refs = DashMap.empty ∧ d.weakRefs = DashMap.empty ∧ d.deathNotifications = DashMap.empty ∧
      ∀ k, (d.view k).acquired = (d.view k).released ∧ (d.view k).increfed = (d.view k).decrefed ∧
        (d.view k).requestedCookies.length = (d.view k).clearedCookies.length ∧
        d.registered k = none ∧ d.weakFields k = [] := by
  obtain ⟨names, alone, runs, halone⟩ := exists_alone h
  have hrenames := halone.refines.renames
  have hclean : ∀ k, (alone k).Clean := fun k =>
    ((hrenames k).atRest (hrest.view k)).clean (halone.exec k)
  refine ⟨?_, ?_, ?_, fun k => ⟨?_, ?_, ?_, ?_, ?_⟩⟩
  · funext k
    exact (hrenames k).refs.trans (hclean k).refs
  · funext k
    have hentry := (hrenames k).weakRefs
    rw [(hclean k).weakRefs] at hentry
    exact eq_none_of_rel hentry
  · funext x
    by_contra hfiled
    obtain ⟨k, hx⟩ := halone.refines.filed x hfiled
    obtain ⟨c, hc⟩ := exists_named hx
    have hsame := (hrenames k).token hc
    rw [(hclean k).token c, Option.isSome_none, Option.isSome_eq_false_iff,
      Option.isNone_iff_eq_none] at hsame
    exact hfiled hsame
  · obtain ⟨hacquired, hreleased, -, -⟩ := (hrenames k).counts
    rw [hacquired, hreleased, (hclean k).acquired]
  · obtain ⟨-, -, hincrefed, hdecrefed⟩ := (hrenames k).counts
    rw [hincrefed, hdecrefed, (hclean k).increfed]
  · rw [(hrenames k).requestedCookies.length_eq, (hrenames k).clearedCookies.length_eq,
      (hclean k).requested]
  · have hregistered := (hrenames k).registered
    rw [(hclean k).registered] at hregistered
    exact eq_none_of_rel hregistered
  · have hfields := (hrenames k).weakFields
    rw [(hclean k).weakFields] at hfields
    exact List.forall₂_nil_right_iff.mp hfields

/-- The two threads drop what they decoded. -/
def droppedBoth : List (UInt32 × HandleAction) :=
  decodedBoth ++ [(7, .dropRef 0 0), (8, .dropRef 1 0)] ++
    (List.replicate 7 [(8, .go 1), (7, .go 0)]).flatten

/-- Then the maps are empty. -/
theorem device_nothing_leaks_droppedBoth :
    ∃ d, exec step new droppedBoth = some d ∧ (d.view 7).acquired = 1 ∧ (d.view 7).released = 1 ∧
      d.refs = DashMap.empty ∧ d.weakRefs = DashMap.empty ∧
      d.deathNotifications = DashMap.empty := by
  obtain ⟨d, hrun, hacquired, hidle, hseven, height⟩ :
      ∃ d, exec step new droppedBoth = some d ∧ (d.view 7).acquired = 1 ∧
        ((d.phase 0).2 = .idle ∧ (d.phase 1).2 = .idle) ∧
        (d.refArcs 7 = [] ∧ d.weakArcs 7 = []) ∧ d.refArcs 8 = [] ∧ d.weakArcs 8 = [] :=
    ⟨_, rfl, rfl, ⟨rfl, rfl⟩, ⟨rfl, rfl⟩, rfl, rfl⟩
  have hall : ∀ act ∈ droppedBoth, (act.1 = 7 ∨ act.1 = 8) ∧
      (act.2.startedBy = none ∨ act.2.startedBy = some 0 ∨ act.2.startedBy = some 1) := by decide
  have hrest : ∀ t, (d.phase t).2 = .idle := by
    intro t
    by_cases ht : t = 0 ∨ t = 1
    · rcases ht with rfl | rfl
      · exact hidle.1
      · exact hidle.2
    · apply idle_of_unstarted hrun
      intro act hact hstart
      rcases (hall act hact).2 with hby | hby | hby <;> rw [hstart] at hby <;> cases hby
      · exact ht (Or.inl rfl)
      · exact ht (Or.inr rfl)
  have hother : ∀ k, d.refArcs k = [] ∧ d.weakArcs k = [] := by
    intro k
    by_cases hk : k = 7 ∨ k = 8
    · rcases hk with rfl | rfl
      · exact hseven
      · exact height
    · apply arcs_of_untouched hrun
      rintro act hact rfl
      exact hk (hall act hact).1
  obtain ⟨hrefs, hweakRefs, htokens, hcounts⟩ := device_nothing_leaks hrun
    ⟨hrest, fun k => (hother k).1, fun k => (hother k).2⟩
  exact ⟨d, hrun, hacquired, (hcounts 7).1.symm.trans hacquired, hrefs, hweakRefs, htokens⟩

/-- **Cookies on a device.** As long as the counter of cookies has not wrapped, no two of the death
notifications that were requested for any of the handles have the same 64 bits; those of a weak
reference that is alive, or of the registration of a handle, were requested and not cleared. So what
the kernel sends back with a cookie is for one weak reference of one handle.

**Proof sketch.** The cookies of one handle are apart when it is alone, and the names that stand for
them are different and below the counter; the names of two handles are different as well. -/
theorem cookies_apart {acts : List (UInt32 × HandleAction)} {d : RemoteRefs}
    (h : exec step new acts = some d) (hcounter : d.deathCounter ≤ 2 ^ 64) :
    (∀ k, (d.view k).requestedCookies.Nodup) ∧
    (∀ k k' u, u ∈ (d.view k).requestedCookies → u ∈ (d.view k').requestedCookies → k = k') ∧
    ∀ k x, (d.view k).WeakAlive x ∨ d.registered k = some x →
      UInt64.ofNat x ∈ (d.view k).requestedCookies ∧ UInt64.ofNat x ∉ (d.view k).clearedCookies := by
  obtain ⟨names, alone, runs, halone⟩ := exists_alone h
  have hrenames := halone.refines.renames
  have hbelow : ∀ k, ∀ x ∈ names k, x < 2 ^ 64 := fun k x hx =>
    Nat.lt_of_lt_of_le ((hrenames k).below x hx) hcounter
  have hunique : ∀ k, Relator.BiUnique (CookieSent (names k)) := fun k =>
    biUnique_cookieSent (hrenames k).nodup (hbelow k)
      (Nat.lt_of_lt_of_le (hrenames k).drawn hcounter)
  have hapart : ∀ k, (alone k).requestedCookies.Nodup ∧ (alone k).clearedCookies.Nodup ∧
      ∀ c, (alone k).WeakAlive c ∨ (alone k).registered = some c →
        UInt64.ofNat c ∈ (alone k).requestedCookies ∧
          UInt64.ofNat c ∉ (alone k).clearedCookies := by
    intro k
    obtain ⟨-, q, -, hq⟩ := RemoteHandle.exists_ledgers (halone.exec k)
    have hdrawn : (names k).length < d.deathCounter := (hrenames k).drawn
    refine hq.requests_apart ?_
    rw [(hrenames k).counter]
    omega
  refine ⟨fun k => ?_, fun k k' u hu hu' => ?_, fun k x hx => ?_⟩
  · exact (List.rel_nodup (hunique k) (hrenames k).requestedCookies).mpr (hapart k).1
  · obtain ⟨-, -, x, c, hx, rfl, -⟩ := exists_of_mem (hrenames k).requestedCookies hu
    obtain ⟨-, -, y, e, hy, hxy, -⟩ := exists_of_mem (hrenames k').requestedCookies hu'
    obtain rfl := ofNat_inj (hbelow k x hx.mem) (hbelow k' y hy.mem) hxy
    exact halone.refines.apart hx.mem hy.mem
  · obtain ⟨c, hc, hkept⟩ : ∃ c, Named (names k) x c ∧
        ((alone k).WeakAlive c ∨ (alone k).registered = some c) := by
      rcases hx with halive | hregistered
      · obtain ⟨c, hc, halive⟩ := (hrenames k).exists_weakAlive halive
        exact ⟨c, hc, Or.inl halive⟩
      · obtain ⟨c, hc, hregistered⟩ := exists_of_rel ((hrenames k).registered) hregistered
        exact ⟨c, hc, Or.inr hregistered⟩
    have hsent : CookieSent (names k) (UInt64.ofNat x) (UInt64.ofNat c) := ⟨x, c, hc, rfl, rfl⟩
    obtain ⟨hrequested, hcleared⟩ := (hapart k).2.2 c hkept
    have hmem := List.rel_mem (hunique k) hsent (hrenames k).requestedCookies
    have hmem' := List.rel_mem (hunique k) hsent (hrenames k).clearedCookies
    exact ⟨hmem.mpr hrequested, fun hcookie => hcleared (hmem'.mp hcookie)⟩

/-- The registration of the first handle has the second cookie, which is that of no other. -/
theorem cookies_apart_decodedBoth :
    ∃ d, exec step new decodedBoth = some d ∧ d.registered 7 = some 2 ∧
      2 ∈ (d.view 7).requestedCookies ∧ 2 ∉ (d.view 7).clearedCookies ∧
      2 ∉ (d.view 8).requestedCookies := by
  obtain ⟨d, hrun, hcounter, hregistered⟩ :
      ∃ d, exec step new decodedBoth = some d ∧ d.deathCounter = 3 ∧ d.registered 7 = some 2 :=
    ⟨_, rfl, rfl, rfl⟩
  obtain ⟨-, hapart, hcookies⟩ := cookies_apart hrun (by rw [hcounter]; decide)
  obtain ⟨hrequested, hcleared⟩ := hcookies 7 2 (Or.inr hregistered)
  exact ⟨d, hrun, hregistered, hrequested, hcleared,
    fun hother => absurd (hapart 7 8 2 hrequested hother) (by decide)⟩

/-- **Reports of death on a device.** The `alive` of a weak reference is false only if the process of
its own handle died; it becomes false in a `BR_DEAD_BINDER` of its own cookie, for its own handle,
and in no other step at any handle; and it stays false. -/
theorem device_death_reports {acts : List (UInt32 × HandleAction)} {d : RemoteRefs}
    (h : exec step new acts = some d) {k : UInt32} {x : ℕ} (hx : (d.view k).WeakAlive x) :
    (d.cancelled x = true → d.dead k = true) ∧
    (∀ k' a d', d.step (k', a) = some d' → d.cancelled x = false → d'.cancelled x = true →
      k' = k ∧ ∃ t, a = .deadBinder t x) ∧
    ∀ bs d', exec step d bs = some d' → d.cancelled x = true → d'.cancelled x = true := by
  obtain ⟨names, alone, runs, halone⟩ := exists_alone h
  have hrenames := halone.refines.renames
  obtain ⟨c, hc, -⟩ := (hrenames k).exists_weakAlive hx
  have hcancelled : ∀ {d d' : RemoteRefs} {k' a}, d.step (k', a) = some d' →
      (d'.cancelled x = true ↔ d.cancelled x = true ∨
        d.deathNotifications x = some x ∧ ∃ t, a = .deadBinder t x) := by
    intro d d' k' a hstep
    obtain ⟨g, hg, hself, -⟩ := step_cases hstep
    rw [← hself] at hg
    exact RemoteHandle.cancelled_step hg x
  refine ⟨fun hreport => ?_, fun k' a d' hstep hbefore hafter => ?_, fun bs d' hrun hreport => ?_⟩
  · obtain ⟨q, hq⟩ := RemoteHandle.exists_reported (halone.exec k)
    have halone' : (alone k).cancelled c = true := ((hrenames k).cancelled hc).symm.trans hreport
    exact (hrenames k).dead.trans (hq.dead c (Or.inr halone')).1
  · rcases (hcancelled hstep).mp hafter with hsame | ⟨-, t, rfl⟩
    · rw [hsame] at hbefore
      cases hbefore
    · obtain ⟨g, hg, -⟩ := step_cases hstep
      obtain ⟨e, -, he⟩ := exists_of_mem (hrenames k').records (RemoteHandle.reads_of_deadBinder hg).2
      exact ⟨halone.refines.apart he.mem hc.mem, t, rfl⟩
  · exact exec_invariant (I := fun d => d.cancelled x = true)
      (fun hs hstep => (hcancelled hstep).mpr (Or.inl hs)) hreport hrun

/-- The process of the first handle dies and a third thread reads the record of it. -/
theorem device_death_reports_decodedBoth :
    ∃ d, exec step new (decodedBoth ++ [(7, .die), (7, .deadBinder 2 2)]) = some d ∧
      d.cancelled 2 = true ∧ d.dead 7 = true ∧ d.dead 8 = false ∧ d.cancelled 1 = false := by
  obtain ⟨d, hrun, hreport, halive, hother, hsame⟩ :
      ∃ d, exec step new (decodedBoth ++ [(7, .die), (7, .deadBinder 2 2)]) = some d ∧
        d.cancelled 2 = true ∧ (d.view 7).weakStrong 2 = 1 ∧ d.dead 8 = false ∧
        d.cancelled 1 = false := ⟨_, rfl, rfl, rfl, rfl, rfl⟩
  have hweak : (d.view 7).WeakAlive 2 := by
    rw [RemoteHandle.WeakAlive, halive]
    decide
  exact ⟨d, hrun, hreport, (device_death_reports hrun hweak).1 hreport, hother, hsame⟩

/-- **Operations finish on a device.** From any state that a run of the device leads to, whatever is
done at any of its handles, a thread that starts nothing makes at most nine steps, and as long as it
is in the middle of something it can make the next one: it waits neither for a thread at its handle
nor for one at another. -/
theorem device_operations_finish {acts bs : List (UInt32 × HandleAction)} {d d' : RemoteRefs}
    (h : exec step new acts = some d) (hrun : exec step d bs = some d') (t : ℕ)
    (hstart : ∀ act ∈ bs, act.2.startedBy ≠ some t) :
    bs.countP (fun act => act.2 == .go t) + (d'.phase t).2.remaining ≤ (d.phase t).2.remaining ∧
      (d.phase t).2.remaining ≤ 9 ∧
      ((d'.phase t).2 ≠ .idle → (d'.step ((d'.phase t).1, .go t)).isSome = true) := by
  refine ⟨remaining_run hrun hstart, RefPhase.remaining_le _, fun hmiddle => ?_⟩
  obtain ⟨names, alone, runs, halone⟩ := exists_alone (exec_append_eq_some.mpr ⟨d, h, hrun⟩)
  have hrenames := halone.refines.renames (d'.phase t).1
  have hseen : (d'.view (d'.phase t).1).phase t = (d'.phase t).2 := if_pos rfl
  have hother : (alone (d'.phase t).1).phase t ≠ .idle := by
    intro hidle
    have hphase := hrenames.phase t
    rw [hidle, hseen] at hphase
    exact hmiddle hphase.eq_idle
  have hgo := hrenames.go_isSome (RemoteHandle.go_isSome (halone.exec _) hother)
  rw [step, if_pos (fun u hu => by cases hu), Option.isSome_map]
  exact hgo

/-- The two threads are in the middle of their decodes: the first can go on. -/
theorem device_operations_finish_decodedBoth :
    ∃ d d', exec step new (decodedBoth.take 2) = some d ∧
      exec step d ((decodedBoth.drop 2).take 10) = some d' ∧ (d'.phase 0).2.remaining = 4 ∧
      (d'.step (7, .go 0)).isSome = true := by
  obtain ⟨d, d', hrun, hmore, hphase⟩ :
      ∃ d d', exec step new (decodedBoth.take 2) = some d ∧
        exec step d ((decodedBoth.drop 2).take 10) = some d' ∧
        d'.phase 0 = (7, .requesting true 2) := ⟨_, _, rfl, rfl, rfl⟩
  obtain ⟨-, -, hgo⟩ := device_operations_finish hrun hmore 0 (by decide)
  rw [hphase] at hgo
  exact ⟨d, d', hrun, hmore, by rw [hphase]; rfl, hgo (by decide)⟩

end RemoteRefs

end BinderBinder
