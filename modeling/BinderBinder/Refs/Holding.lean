import BinderBinder.Refs.Sequential

set_option relaxedAutoImplicit false
set_option autoImplicit false

/-!
# What a thread has at a handle

One thread whose calls run to their end never has two references to one handle, nor two weak ones:
what it has is a number of handles of each. Every operation on references goes from such numbers to
others, and which commands are written follows from them.

## Main definitions

* `Holding` — what a thread has at a handle.
* `Holding.commands` — what is written when this changes.
* `Balanced` — what was written, and what of it was not given back.
* `RemoteHandle.Holds`, `RemoteHandle.Goes` — the same among interleaved threads.

## Main results

* `Balanced.append` — what is written keeps the balance.
* `RemoteHandle.goes_decodeRef_made` and the others — one for each operation and outcome.
-/

namespace BinderBinder

open Run

/-! ## What a thread has at a handle -/

/-- Nothing; `n + 1` handles of the weak reference `w`; or `m + 1` handles of the reference `r`,
which is the `i`-th to the handle, and `n` of its weak reference. -/
inductive Holding
  | nothing
  | weak (w : WeakBinderRef) (n : ℕ)
  | strong (r : BinderRef) (i m n : ℕ)

namespace Holding

/-- The reference. -/
def ref : Holding → Option BinderRef
  | strong r _ _ _ => some r
  | _ => none

/-- The weak reference. -/
def weakRef : Holding → Option WeakBinderRef
  | nothing => none
  | weak w _ => some w
  | strong r _ _ _ => some r.weak

/-- The handles of the reference. -/
def refs : Holding → List BinderRef
  | strong r _ m _ => List.replicate (m + 1) r
  | _ => []

/-- The handles of the weak reference. -/
def weaks : Holding → List WeakBinderRef
  | nothing => []
  | weak w n => List.replicate (n + 1) w
  | strong r _ _ n => List.replicate n r.weak

/-- The number of the reference. -/
def name : Holding → Option ℕ
  | strong _ i _ _ => some i
  | _ => none

/-- The cookie of the weak reference, which names it. -/
def cookie (p : Holding) : Option ℕ := p.weakRef.map fun w => w.deathNotifCookie.toNat

/-- The same, as a list. -/
def cookies (p : Holding) : List ℕ := p.cookie.toList

/-- The handles of the reference, by its number. -/
def refArcs : Holding → List ℕ
  | strong _ i m _ => List.replicate (m + 1) i
  | _ => []

/-- The handles of the weak reference, by its cookie. -/
def weakArcs (p : Holding) : List ℕ := p.weaks.map fun w => w.deathNotifCookie.toNat

/-- The field `weak` of the reference. -/
def weakFields : Holding → List (ℕ × ℕ)
  | strong r i _ _ => [(i, r.weak.deathNotifCookie.toNat)]
  | _ => []

/-- One handle more of the weak reference. -/
def consWeak : Holding → Holding
  | nothing => nothing
  | weak w n => weak w (n + 1)
  | strong r i m n => strong r i m (n + 1)

/-- With one handle more of the weak reference, the rest is the same. -/
theorem consWeak_spec {p : Holding} {w : WeakBinderRef} (hw : p.weakRef = some w) :
    p.ref = p.consWeak.ref ∧ p.weakRef = p.consWeak.weakRef ∧ p.consWeak.refs = p.refs ∧
      p.consWeak.weaks = w :: p.weaks := by
  cases p with
  | nothing => cases hw
  | weak w' n | strong r i m n =>
    cases hw
    exact ⟨rfl, rfl, rfl, rfl⟩

/-- The handles of the reference are of that reference. -/
theorem mem_refs_iff {p : Holding} {r : BinderRef} : r ∈ p.refs ↔ p.ref = some r := by
  cases p with
  | nothing | weak w n => simp [refs, ref]
  | strong r' i m n =>
    rw [refs, List.mem_replicate, ref, Option.some.injEq, eq_comm]
    exact and_iff_right (Nat.succ_ne_zero m)

/-- The handles of the weak reference are of that weak reference. -/
theorem weakRef_of_mem {p : Holding} {w : WeakBinderRef} (hw : w ∈ p.weaks) :
    p.weakRef = some w := by
  cases p with
  | nothing => cases hw
  | weak w' n | strong r i m n => exact congrArg some (List.eq_of_mem_replicate hw).symm

/-- The thread has a reference. -/
theorem eq_strong {p : Holding} {r : BinderRef} (hr : p.ref = some r) :
    ∃ i m n, p = strong r i m n := by
  cases p with
  | nothing | weak w n => cases hr
  | strong r' i m n =>
    cases hr
    exact ⟨i, m, n, rfl⟩

/-- The thread has no weak reference, so it has nothing. -/
theorem eq_nothing {p : Holding} (hw : p.weakRef = none) : p = nothing := by
  cases p with
  | nothing => rfl
  | weak w n | strong r i m n => cases hw

/-- The allocations. -/
def addrs (p : Holding) : List Addr :=
  p.ref.toList.map BinderRef.addr ++ p.weakRef.toList.map WeakBinderRef.addr

/-- The commands that are written at a handle when the thread has `new` there after `old`: what it
did not have is taken from the kernel, weak before strong, and what it has no more is given back,
strong before weak. -/
def commands (handle : UInt32) (old new : Holding) : List Command :=
  (match old.weakRef, new.weakRef with
    | none, some w => [.increfs handle, .requestDeathNotification handle w.deathNotifCookie]
    | _, _ => []) ++
  (match old.ref, new.ref with
    | none, some _ => [.acquire handle]
    | some _, none => [.release handle]
    | _, _ => []) ++
  match old.weakRef, new.weakRef with
  | some w, none => [.clearDeathNotification handle w.deathNotifCookie, .decrefs handle]
  | _, _ => []

end Holding

/-! ## The commands -/

/-- The command is about the references to a handle. -/
def Command.isFor (handle : UInt32) : Command → Bool
  | .increfs h | .acquire h | .release h | .decrefs h => h == handle
  | .requestDeathNotification h _ | .clearDeathNotification h _ => h == handle
  | _ => false

/-- What was taken from the kernel for a handle and not given back is what the thread has there: a
count for its reference, a count and a death notification for its weak reference. -/
structure Balanced (handle : UInt32) (p : Holding) (log : List Command) : Prop where
  acquired : log.count (.acquire handle) = log.count (.release handle) + p.ref.toList.length
  increfed : log.count (.increfs handle) = log.count (.decrefs handle) + p.weakRef.toList.length
  requested : ∀ v, log.count (.requestDeathNotification handle v) =
    log.count (.clearDeathNotification handle v) + p.cookies.count v.toNat

namespace Holding

variable {handle handle' : UInt32} {old new : Holding}

/-- As long as the thread has both before and after, nothing is written. -/
theorem commands_eq_nil (href : old.ref = new.ref) (hweak : old.weakRef = new.weakRef) :
    commands handle old new = [] := by
  rw [commands, href, hweak]
  cases new.ref <;> cases new.weakRef <;> rfl

/-- What is written is about the handle. -/
theorem filter_commands (handle : UInt32) (old new : Holding) :
    (commands handle old new).filter (·.isFor handle) = commands handle old new := by
  rw [List.filter_eq_self]
  unfold commands
  cases old.ref <;> cases new.ref <;> cases old.weakRef <;> cases new.weakRef <;>
    simp [Command.isFor]

/-- And about no other. -/
theorem filter_commands_of_ne (hne : handle' ≠ handle) :
    (commands handle old new).filter (·.isFor handle') = [] := by
  unfold commands
  cases old.ref <;> cases new.ref <;> cases old.weakRef <;> cases new.weakRef <;>
    simp [Command.isFor, hne.symm]

end Holding

namespace Balanced

variable {handle handle' : UInt32} {old new : Holding} {log : List Command}

/-- What the thread has at another handle makes no difference. -/
theorem append_of_ne (h : Balanced handle' new log) {p q : Holding} (hne : handle' ≠ handle) :
    Balanced handle' new (log ++ Holding.commands handle p q) := by
  have hnone : ∀ cmd : Command, cmd.isFor handle' = true →
      (Holding.commands handle p q).count cmd = 0 := by
    intro cmd hcmd
    rw [List.count_eq_zero]
    intro hmem
    have hin := List.mem_filter.mpr ⟨hmem, hcmd⟩
    rw [Holding.filter_commands_of_ne hne] at hin
    cases hin
  have hself : (handle' == handle') = true := beq_self_eq_true handle'
  constructor
  · rw [List.count_append, List.count_append, hnone (.acquire handle') hself,
      hnone (.release handle') hself]
    exact h.acquired
  · rw [List.count_append, List.count_append, hnone (.increfs handle') hself,
      hnone (.decrefs handle') hself]
    exact h.increfed
  · intro v
    rw [List.count_append, List.count_append, hnone (.requestDeathNotification handle' v) hself,
      hnone (.clearDeathNotification handle' v) hself]
    exact h.requested v

/-- What is written when this changes keeps the balance. -/
theorem append (h : Balanced handle old log)
    (hsame : ∀ w w', old.weakRef = some w → new.weakRef = some w' → w = w') :
    Balanced handle new (log ++ Holding.commands handle old new) := by
  obtain ⟨hacquired, hincrefed, hrequested⟩ := h
  simp only [Holding.cookies, Holding.cookie] at hrequested
  refine ⟨?_, ?_, fun v => ?_⟩
  · rw [List.count_append, List.count_append, hacquired]
    unfold Holding.commands
    cases old.ref <;> cases new.ref <;> cases old.weakRef <;> cases new.weakRef <;>
      simp
  · rw [List.count_append, List.count_append, hincrefed]
    unfold Holding.commands
    cases old.ref <;> cases new.ref <;> cases old.weakRef <;> cases new.weakRef <;>
      simp
  · rw [List.count_append, List.count_append, hrequested v, Holding.cookies, Holding.cookie]
    unfold Holding.commands
    cases hold : old.weakRef <;> cases hnew : new.weakRef
    · cases old.ref <;> cases new.ref <;> simp
    · cases old.ref <;> cases new.ref <;> simp [List.count_cons, UInt64.toNat_inj]
    · cases old.ref <;> cases new.ref <;> simp [List.count_cons, UInt64.toNat_inj]
    · rw [hsame _ _ hold hnew]
      cases old.ref <;> cases new.ref <;> simp

end Balanced

/-! ## The same among interleaved threads -/

namespace RemoteHandle

/-- The same, on the device on which threads interleave. -/
structure Holds (s : RemoteHandle) (p : Holding) : Prop where
  refs : s.refs = p.name
  weakRefs : s.weakRefs = p.cookie
  refArcs : s.refArcs = p.refArcs
  weakArcs : s.weakArcs = p.weakArcs
  weakFields : s.weakFields = p.weakFields

/-- A thread does something at the handle without interruption, writes `cmds`, and has `new`
then. -/
structure Goes (s g : RemoteHandle) (t : ℕ) (a : HandleAction) (new : Holding)
    (cmds : List Command) : Prop where
  run : ∃ n, exec step s (a :: List.replicate n (.go t)) = some g
  phase : g.phase = s.phase
  holds : g.Holds new
  written : g.written = s.written ++ cmds

variable {s : RemoteHandle} {p : Holding} {t i m n : ℕ} {w : WeakBinderRef} {r : BinderRef}

namespace Holds

/-- The reference is found. -/
theorem upgradeRef (h : s.Holds (.strong r i m n)) : s.upgradeRef = some i := by
  rw [upgradeRef_eq_some, refAlive_iff, h.refs, h.refArcs]
  exact ⟨rfl, List.mem_replicate.mpr ⟨by omega, rfl⟩⟩

/-- The thread has a handle of the reference. -/
theorem mem_refArcs (h : s.Holds (.strong r i m n)) : i ∈ s.refArcs :=
  refAlive_iff.mp (upgradeRef_eq_some.mp h.upgradeRef).2

/-- The weak reference is in the field of the reference. -/
theorem lookup_field (h : s.Holds (.strong r i m n)) :
    s.weakFields.lookup i = some r.weak.deathNotifCookie.toNat := by
  rw [h.weakFields, Holding.weakFields, List.lookup_cons_self]

/-- No reference is found. -/
theorem upgradeRef_eq_none (h : s.Holds p) (hp : p.ref = none) : s.upgradeRef = none := by
  have hname : p.name = none := by
    cases p with
    | strong r i m n => cases hp
    | nothing | weak w n => rfl
  rw [RemoteHandle.upgradeRef, h.refs, hname, Option.filter_none]

/-- The weak reference is found. -/
theorem upgradeWeak (h : s.Holds p) (hw : p.weakRef = some w) :
    s.upgradeWeak = some w.deathNotifCookie.toNat := by
  rw [upgradeWeak_eq_some, weakAlive_iff, h.weakRefs, h.weakArcs, h.weakFields]
  refine ⟨by rw [Holding.cookie, hw, Option.map_some], ?_⟩
  cases p with
  | nothing => cases hw
  | weak w' n =>
    cases hw
    simp [Holding.weakArcs, Holding.weaks]
  | strong r i m n =>
    cases hw
    simp [Holding.weakFields]

/-- No weak reference is found. -/
theorem upgradeWeak_eq_none (h : s.Holds .nothing) : s.upgradeWeak = none := by
  rw [RemoteHandle.upgradeWeak, h.weakRefs]
  rfl

/-- One handle more of the reference. -/
theorem consRef (h : s.Holds (.strong r i m n)) :
    { s with refArcs := i :: s.refArcs }.Holds (.strong r i (m + 1) n) :=
  { h with refArcs := congrArg (List.cons i) h.refArcs }

/-- One handle more of the weak reference. -/
theorem consWeak (h : s.Holds p) (hw : p.weakRef = some w) :
    { s with weakArcs := w.deathNotifCookie.toNat :: s.weakArcs }.Holds p.consWeak := by
  cases p with
  | nothing => cases hw
  | weak w' n =>
    cases hw
    exact { h with weakArcs := congrArg (List.cons _) h.weakArcs }
  | strong r i m n =>
    cases hw
    exact { h with weakArcs := congrArg (List.cons _) h.weakArcs }

/-- One handle less of the reference. -/
theorem eraseRef (h : s.Holds (.strong r i m n)) :
    s.refArcs.erase i = List.replicate m i := by
  rw [h.refArcs, Holding.refArcs, List.erase_replicate_self, Nat.add_sub_cancel]

/-- A weak reference is made. -/
theorem makeWeak (h : s.Holds .nothing) (hw : w.deathNotifCookie.toNat = s.deathCounter) :
    { s.makeWeak with weakArcs := s.deathCounter :: s.weakArcs }.Holds (.weak w 0) := by
  constructor <;> dsimp only
  · rw [s.keepsArcs_makeWeak.refs, h.refs]
    rfl
  · rw [weakRefs_makeWeak, ← hw]
    rfl
  · rw [s.keepsArcs_makeWeak.refArcs, h.refArcs]
    rfl
  · rw [h.weakArcs, ← hw]
    rfl
  · rw [s.keepsArcs_makeWeak.weakFields, h.weakFields]
    rfl

/-- A reference is made with a weak reference that there is. -/
theorem makeRef (h : s.Holds (.weak r.weak n)) :
    (s.makeRef r.weak.deathNotifCookie.toNat).Holds (.strong r s.nextRef 0 (n + 1)) where
  refs := rfl
  weakRefs := h.weakRefs
  refArcs := congrArg (List.cons _) h.refArcs
  weakArcs := h.weakArcs
  weakFields := congrArg (List.cons _) h.weakFields

/-- A reference is made with a weak reference that is made for it. -/
theorem makeBoth (h : s.Holds .nothing) (hw : r.weak.deathNotifCookie.toNat = s.deathCounter) :
    (s.makeWeak.makeRef s.deathCounter).Holds (.strong r s.nextRef 0 0) := by
  constructor <;> dsimp only [RemoteHandle.makeRef, write]
  · rfl
  · rw [weakRefs_makeWeak, ← hw]
    rfl
  · rw [s.keepsArcs_makeWeak.refArcs, s.keepsArcs_makeWeak.nextRef, h.refArcs]
    rfl
  · rw [s.keepsArcs_makeWeak.weakArcs, h.weakArcs]
    rfl
  · rw [s.keepsArcs_makeWeak.weakFields, s.keepsArcs_makeWeak.nextRef, h.weakFields, ← hw]
    rfl

/-- The last handle of a reference is given up. -/
theorem unmakeRef (h : s.Holds (.strong r i 0 n)) :
    (s.unmakeRef i r.weak.deathNotifCookie.toNat).refs = none ∧
    (s.unmakeRef i r.weak.deathNotifCookie.toNat).refArcs = [] ∧
    (s.unmakeRef i r.weak.deathNotifCookie.toNat).weakFields = [] := by
  have harcs : s.refArcs.erase i = [] := h.eraseRef
  refine ⟨?_, harcs, ?_⟩
  · show (if s.refs.any fun j => ({ s with refArcs := s.refArcs.erase i }).refStrong j == 0 then none
      else s.refs) = none
    simp [refStrong, harcs, h.refs, Holding.name]
  · show s.weakFields.erase (i, r.weak.deathNotifCookie.toNat) = []
    simp [h.weakFields, Holding.weakFields]

/-- The last handle of a weak reference is given up. -/
theorem unmakeWeak {c : ℕ} (hrefs : s.refs = none) (hweakRefs : s.weakRefs = some c)
    (hrefArcs : s.refArcs = []) (hweakArcs : s.weakArcs = []) (hfields : s.weakFields = []) :
    (s.unmakeWeak c).Holds .nothing := by
  constructor
  · rw [(s.keepsArcs_unmakeWeak c).refs, hrefs]
    rfl
  · have hnone : s.weakStrong c = 0 := by simp [weakStrong, hweakArcs, hfields]
    rw [weakRefs_unmakeWeak, evictWeak, hweakRefs]
    simp [hnone, Holding.cookie, Holding.weakRef]
  · rw [(s.keepsArcs_unmakeWeak c).refArcs, hrefArcs]
    rfl
  · rw [(s.keepsArcs_unmakeWeak c).weakArcs, hweakArcs]
    rfl
  · rw [(s.keepsArcs_unmakeWeak c).weakFields, hfields]
    rfl

end Holds

/-! ### Operations without interruption -/

section Goes

variable (hidle : s.phase t = .idle)

include hidle

/-- A weak reference is decoded that there is. -/
theorem goes_decodeWeak_found (h : s.Holds p) (hw : p.weakRef = some w) :
    s.Goes { s with weakArcs := w.deathNotifCookie.toNat :: s.weakArcs } t (.decodeWeak t)
      p.consWeak [] :=
  ⟨⟨1, exec_decodeWeak_found hidle (h.upgradeWeak hw)⟩, rfl, h.consWeak hw,
    (List.append_nil _).symm⟩

/-- A weak reference is decoded that is made. -/
theorem goes_decodeWeak_made (h : s.Holds .nothing)
    (hw : w.deathNotifCookie.toNat = s.deathCounter) :
    s.Goes { s.makeWeak with weakArcs := s.deathCounter :: s.weakArcs } t (.decodeWeak t)
      (.weak w 0) (Holding.commands s.handle .nothing (.weak w 0)) := by
  refine ⟨⟨6, exec_decodeWeak_made hidle h.upgradeWeak_eq_none⟩, rfl, h.makeWeak hw, ?_⟩
  refine (written_makeWeak s).trans ?_
  rw [← hw, UInt64.ofNat_toNat, List.append_assoc]
  rfl

/-- A reference is decoded that there is. -/
theorem goes_decodeRef_found (h : s.Holds (.strong r i m n)) :
    s.Goes { s with refArcs := i :: s.refArcs } t (.decodeRef t) (.strong r i (m + 1) n) [] :=
  ⟨⟨1, exec_decodeRef_found hidle h.upgradeRef⟩, rfl, h.consRef, (List.append_nil _).symm⟩

/-- A reference is decoded that is made with a weak reference that there is. -/
theorem goes_decodeRef_found_made (h : s.Holds (.weak r.weak n)) :
    s.Goes (s.makeRef r.weak.deathNotifCookie.toNat) t (.decodeRef t)
      (.strong r s.nextRef 0 (n + 1))
      (Holding.commands s.handle (.weak r.weak n) (.strong r s.nextRef 0 (n + 1))) :=
  ⟨⟨4, exec_decodeRef_found_made hidle (h.upgradeRef_eq_none rfl) (h.upgradeWeak rfl)⟩, rfl,
    h.makeRef, rfl⟩

/-- A reference is decoded that is made with a weak reference that is made. -/
theorem goes_decodeRef_made (h : s.Holds .nothing)
    (hw : r.weak.deathNotifCookie.toNat = s.deathCounter) :
    s.Goes (s.makeWeak.makeRef s.deathCounter) t (.decodeRef t) (.strong r s.nextRef 0 0)
      (Holding.commands s.handle .nothing (.strong r s.nextRef 0 0)) := by
  refine ⟨⟨9, exec_decodeRef_made hidle (h.upgradeRef_eq_none rfl) h.upgradeWeak_eq_none⟩,
    s.keepsArcs_makeWeak.phase, h.makeBoth hw, ?_⟩
  rw [written_makeRef, written_makeWeak, s.keepsArcs_makeWeak.handle, ← hw, UInt64.ofNat_toNat,
    List.append_assoc, List.append_assoc]
  rfl

omit hidle

/-- A reference is cloned. -/
theorem goes_cloneRef (h : s.Holds (.strong r i m n)) :
    s.Goes { s with refArcs := i :: s.refArcs } t (.cloneRef i) (.strong r i (m + 1) n) [] := by
  exact ⟨⟨0, exec_cons_eq_some.mpr ⟨_, if_pos h.mem_refArcs, rfl⟩⟩, rfl, h.consRef,
    (List.append_nil _).symm⟩

/-- A weak reference that the thread has is among its handles. -/
theorem Holds.mem_weakArcs (h : s.Holds p) (hw : w ∈ p.weaks) :
    w.deathNotifCookie.toNat ∈ s.weakArcs ∧ p.weakRef = some w :=
  ⟨h.weakArcs ▸ List.mem_map_of_mem hw, Holding.weakRef_of_mem hw⟩

/-- A weak reference is cloned. -/
theorem goes_cloneWeak (h : s.Holds p) (hw : w ∈ p.weaks) :
    s.Goes { s with weakArcs := w.deathNotifCookie.toNat :: s.weakArcs } t
      (.cloneWeak w.deathNotifCookie.toNat) p.consWeak [] := by
  obtain ⟨hmem, hentry⟩ := h.mem_weakArcs hw
  exact ⟨⟨0, exec_cons_eq_some.mpr ⟨_, if_pos hmem, rfl⟩⟩, rfl, h.consWeak hentry,
    (List.append_nil _).symm⟩

/-- A reference is downgraded. -/
theorem goes_downgrade (h : s.Holds (.strong r i m n)) :
    s.Goes { s with weakArcs := r.weak.deathNotifCookie.toNat :: s.weakArcs } t (.downgrade i)
      (.strong r i m (n + 1)) [] := by
  have hstep : s.step (.downgrade i) =
      some { s with weakArcs := r.weak.deathNotifCookie.toNat :: s.weakArcs } := by
    rw [step, if_pos h.mem_refArcs, h.lookup_field, Option.map_some]
  exact ⟨⟨0, exec_cons_eq_some.mpr ⟨_, hstep, rfl⟩⟩, rfl, h.consWeak rfl, (List.append_nil _).symm⟩

/-- A weak reference is upgraded, and there is a reference. -/
theorem goes_upgrade (h : s.Holds (.strong r i m n)) (hw : w ∈ (Holding.strong r i m n).weaks) :
    s.Goes { s with refArcs := i :: s.refArcs } t (.upgrade w.deathNotifCookie.toNat)
      (.strong r i (m + 1) n) [] := by
  have hstep : s.step (.upgrade w.deathNotifCookie.toNat) =
      some { s with refArcs := i :: s.refArcs } := by
    simp only [step, if_pos (h.mem_weakArcs hw).1, h.upgradeRef]
  exact ⟨⟨0, exec_cons_eq_some.mpr ⟨_, hstep, rfl⟩⟩, rfl, h.consRef, (List.append_nil _).symm⟩

/-- A weak reference is upgraded, and there is none. -/
theorem goes_upgrade_none (h : s.Holds p) (hp : p.ref = none) (hw : w ∈ p.weaks) :
    s.Goes s t (.upgrade w.deathNotifCookie.toNat) p [] := by
  have hstep : s.step (.upgrade w.deathNotifCookie.toNat) = some s := by
    simp only [step, if_pos (h.mem_weakArcs hw).1, h.upgradeRef_eq_none hp]
  exact ⟨⟨0, exec_cons_eq_some.mpr ⟨_, hstep, rfl⟩⟩, rfl, h, (List.append_nil _).symm⟩

include hidle

/-- A handle of a reference is dropped, and it is not the last. -/
theorem goes_dropRef (h : s.Holds (.strong r i (m + 1) n)) :
    s.Goes { s with refArcs := s.refArcs.erase i } t (.dropRef t i) (.strong r i m n) [] := by
  have hmore : { s with refArcs := s.refArcs.erase i }.refStrong i ≠ 0 := by
    simp [refStrong, h.eraseRef]
  have hstep : s.step (.dropRef t i) = some { s with refArcs := s.refArcs.erase i } := by
    rw [step, if_pos ⟨hidle, h.mem_refArcs⟩, leaveRef, if_neg hmore]
    exact congrArg some (setPhase_idle hidle)
  exact ⟨⟨0, exec_cons_eq_some.mpr ⟨_, hstep, rfl⟩⟩, rfl, { h with refArcs := h.eraseRef },
    (List.append_nil _).symm⟩

/-- The last handle of a reference is dropped, and there is one of its weak reference. -/
theorem goes_dropRef_last (h : s.Holds (.strong r i 0 (n + 1))) :
    s.Goes (s.unmakeRef i r.weak.deathNotifCookie.toNat) t (.dropRef t i) (.weak r.weak n)
      (Holding.commands s.handle (.strong r i 0 (n + 1)) (.weak r.weak n)) := by
  obtain ⟨hrefs, harcs, hfields⟩ := h.unmakeRef
  have hlast : { s with refArcs := s.refArcs.erase i }.refStrong i = 0 := by
    simp [refStrong, h.eraseRef]
  have hmore : (s.unmakeRef i r.weak.deathNotifCookie.toNat).weakStrong
      r.weak.deathNotifCookie.toNat ≠ 0 := by
    have hweak : (s.unmakeRef i r.weak.deathNotifCookie.toNat).weakArcs = _ := h.weakArcs
    simp [weakStrong, hfields, hweak, Holding.weakArcs, Holding.weaks]
  obtain ⟨k, hk⟩ := exec_dropRef hidle h.mem_refArcs h.lookup_field
  rw [if_pos hlast] at hk
  simp only [if_neg hmore] at hk
  exact ⟨⟨k, hk⟩, rfl, ⟨hrefs, h.weakRefs, harcs, h.weakArcs, hfields⟩, rfl⟩

/-- The last handle of a reference is dropped, and with it the last of its weak reference. -/
theorem goes_dropRef_both (h : s.Holds (.strong r i 0 0)) :
    s.Goes ((s.unmakeRef i r.weak.deathNotifCookie.toNat).unmakeWeak
        r.weak.deathNotifCookie.toNat) t (.dropRef t i) .nothing
      (Holding.commands s.handle (.strong r i 0 0) .nothing) := by
  obtain ⟨hrefs, harcs, hfields⟩ := h.unmakeRef
  have hweak : (s.unmakeRef i r.weak.deathNotifCookie.toNat).weakArcs = [] := h.weakArcs
  have hlast : { s with refArcs := s.refArcs.erase i }.refStrong i = 0 := by
    simp [refStrong, h.eraseRef]
  have hnone : (s.unmakeRef i r.weak.deathNotifCookie.toNat).weakStrong
      r.weak.deathNotifCookie.toNat = 0 := by
    simp [weakStrong, hfields, hweak]
  obtain ⟨k, hk⟩ := exec_dropRef hidle h.mem_refArcs h.lookup_field
  rw [if_pos hlast] at hk
  simp only [if_pos hnone] at hk
  refine ⟨⟨k, hk⟩, rfl, Holds.unmakeWeak hrefs h.weakRefs harcs hweak hfields, ?_⟩
  rw [written_unmakeWeak, written_unmakeRef, UInt64.ofNat_toNat, List.append_assoc,
    List.append_assoc]
  rfl

/-- A handle of a weak reference is dropped, and it is not the last. -/
theorem goes_dropWeak {q : Holding} (h : s.Holds q.consWeak) (hw : w ∈ q.consWeak.weaks)
    (hq : q.weakRef = some w) :
    s.Goes { s with weakArcs := s.weakArcs.erase w.deathNotifCookie.toNat } t
      (.dropWeak t w.deathNotifCookie.toNat) q [] := by
  have hmem := (h.mem_weakArcs hw).1
  have harcs : s.weakArcs.erase w.deathNotifCookie.toNat = q.weakArcs := by
    rw [h.weakArcs]
    cases q with
    | nothing => cases hq
    | weak w' n | strong r i m n =>
      cases hq
      exact List.erase_cons_head ..
  have hholds : { s with weakArcs := s.weakArcs.erase w.deathNotifCookie.toNat }.Holds q := by
    cases q with
    | nothing => cases hq
    | weak w' n | strong r i m n => exact { h with weakArcs := harcs }
  have hmore : { s with weakArcs := s.weakArcs.erase w.deathNotifCookie.toNat }.weakStrong
      w.deathNotifCookie.toNat ≠ 0 := (upgradeWeak_eq_some.mp (hholds.upgradeWeak hq)).2
  have hstep : s.step (.dropWeak t w.deathNotifCookie.toNat) =
      some { s with weakArcs := s.weakArcs.erase w.deathNotifCookie.toNat } := by
    rw [step, if_pos ⟨hidle, hmem⟩, leaveWeak, if_neg hmore]
    exact congrArg some (setPhase_idle hidle)
  exact ⟨⟨0, exec_cons_eq_some.mpr ⟨_, hstep, rfl⟩⟩, rfl, hholds, (List.append_nil _).symm⟩

/-- The last handle of a weak reference is dropped. -/
theorem goes_dropWeak_last (h : s.Holds (.weak w 0)) :
    s.Goes ({ s with weakArcs := s.weakArcs.erase w.deathNotifCookie.toNat }.unmakeWeak
        w.deathNotifCookie.toNat) t (.dropWeak t w.deathNotifCookie.toNat) .nothing
      (Holding.commands s.handle (.weak w 0) .nothing) := by
  have hmem := (h.mem_weakArcs (List.mem_singleton_self w)).1
  have harcs : s.weakArcs.erase w.deathNotifCookie.toNat = [] := by
    simp [h.weakArcs, Holding.weakArcs, Holding.weaks]
  have hnone : { s with weakArcs := s.weakArcs.erase w.deathNotifCookie.toNat }.weakStrong
      w.deathNotifCookie.toNat = 0 := by
    simp [weakStrong, harcs, h.weakFields, Holding.weakFields]
  obtain ⟨k, hk⟩ := exec_dropWeak hidle hmem
  simp only [if_pos hnone] at hk
  refine ⟨⟨k, hk⟩, rfl, Holds.unmakeWeak h.refs h.weakRefs h.refArcs harcs h.weakFields, ?_⟩
  rw [written_unmakeWeak, UInt64.ofNat_toNat, List.append_assoc]
  rfl

end Goes

end RemoteHandle

end BinderBinder
