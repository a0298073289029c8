import BinderBinder.Device.Writing
import BinderBinder.Lib.Run

set_option relaxedAutoImplicit false
set_option autoImplicit false

/-!
# The looper threads of a device

The threads that `from_fd` and the `SPAWN_LOOPER` records start, over any interleaving with the users
of the device. A looper of `from_fd` waits until the kernel was told how many threads there may be.
Each looper announces itself with the write of its first `ioctl`, upgrades its `Weak` of the device
whenever an `ioctl` returned records, holds that `Arc` while it serves them, and leaves when there is
nothing to upgrade to.

## Main definitions

* `LooperStage`, `LooperThread` — where a looper is, and what the kernel took from it.
* `DeviceThreads`, `DeviceThreads.step` — the `Arc`s of a device and its loopers, and their steps.
* `DeviceThreads.Kept` — the invariant.

## Main results

* `DeviceThreads.looper_writes` — what the loopers write, and when.
* `DeviceThreads.loopers_stay` — a looper leaves behind its device only, and reads once more at most.
-/

namespace BinderBinder

open Run

/-! ## Loopers -/

/-- Where a looper is: it waits for `started`; it has its first `ioctl` before it; it is in an `ioctl`
without a write or goes into one; the `ioctl` returned records; it serves them with an `Arc` of the
device; it is behind its loop; it wrote `EXIT_LOOPER`; or it panicked. -/
inductive LooperStage
  | waiting
  | entering
  | reading
  | received
  | serving
  | leaving
  | finished
  | panicked
  deriving DecidableEq, Repr

/-- A looper: the argument `spawned`, where it is, and which of its writes the kernel took. -/
structure LooperThread where
  spawned : Bool
  stage : LooperStage
  wrote : List Write
  deriving DecidableEq, Repr

/-- Who has an `Arc` of the device: a user, or the looper with a number. -/
inductive DeviceOwner
  | user
  | looper (i : ℕ)
  deriving DecidableEq, Repr

/-- The `Arc`s of a device by their owners; whether `SET_MAX_THREADS` was accepted and `started` is
set; and the loopers in the order in which they were started. -/
structure DeviceThreads where
  owners : List DeviceOwner
  limited : Bool
  started : Bool
  loopers : List LooperThread
  deriving DecidableEq, Repr

/-- What a looper does. Where the kernel decides, the action says what it does: whether it took the
write of the first `ioctl`, whether a thread could be started, whether it took `EXIT_LOOPER`. -/
inductive LooperMove
  | pass
  | submit (taken : Bool)
  | ioctlFails
  | ioctlReturns
  | upgrade
  | spawnLooper (ok : Bool)
  | finish
  | panic
  | exit (ok : Bool)
  deriving DecidableEq, Repr

/-- The steps: `from_fd` sets the limit and lets the loopers go; a user clones or drops an `Arc`, or
handles a `SPAWN_LOOPER` in a call of its own; a looper does something. -/
inductive ThreadsAction
  | setMaxThreads (ok : Bool)
  | start
  | clone
  | drop
  | callerSpawns (ok : Bool)
  | looper (i : ℕ) (m : LooperMove)
  deriving DecidableEq, Repr

/-- The looper starts another one. -/
def LooperMove.spawns : LooperMove → Bool
  | .spawnLooper ok => ok
  | _ => false

/-- The step starts a looper. -/
def ThreadsAction.spawns : ThreadsAction → Bool
  | .callerSpawns ok => ok
  | .looper _ m => m.spawns
  | _ => false

namespace DeviceThreads

/-- A device whose loopers wait; the list says which of the threads could be started. -/
def new (oks : List Bool) : DeviceThreads where
  owners := [.user]
  limited := false
  started := false
  loopers := List.replicate (oks.count true) ⟨false, .waiting, []⟩

/-- The looper `i` is `l`. -/
def setLooper (s : DeviceThreads) (i : ℕ) (l : LooperThread) : DeviceThreads :=
  { s with loopers := s.loopers.set i l }

/-- `std::thread::Builder::spawn` of a looper for a `SPAWN_LOOPER`, which may fail. -/
def spawnLooper (s : DeviceThreads) : Bool → DeviceThreads
  | true => { s with loopers := s.loopers ++ [⟨true, .entering, []⟩] }
  | false => s

/-- What the looper `i` does; `none` says that it is somewhere else. -/
def go (s : DeviceThreads) (i : ℕ) (l : LooperThread) : LooperMove → LooperStage → Option DeviceThreads
  | .pass, .waiting => if s.started then some (s.setLooper i { l with stage := .entering }) else none
  -- the first call of `binder_write_read`, which takes `init_data`
  | .submit taken, .entering =>
    let wrote := if taken then l.wrote ++ [.looper l.spawned] else l.wrote
    some (s.setLooper i { l with stage := .reading, wrote })
  -- the rest of it, and the later calls
  | .ioctlFails, .reading => some s
  | .ioctlReturns, .reading => some (s.setLooper i { l with stage := .received })
  | .upgrade, .received =>
    if s.owners = [] then some (s.setLooper i { l with stage := .leaving })
    else some { s.setLooper i { l with stage := .serving } with owners := .looper i :: s.owners }
  | .spawnLooper ok, .serving => some (s.spawnLooper ok)
  | .finish, .serving =>
    some { s.setLooper i { l with stage := .reading } with owners := s.owners.erase (.looper i) }
  | .panic, .serving =>
    some { s.setLooper i { l with stage := .panicked } with owners := s.owners.erase (.looper i) }
  -- behind the loop
  | .exit true, .leaving =>
    some (s.setLooper i { l with stage := .finished, wrote := l.wrote ++ [.command .exitLooper] })
  | .exit false, .leaving => some (s.setLooper i { l with stage := .panicked })
  | _, _ => none

/-- One step; `none` says that it is not enabled. -/
def step (s : DeviceThreads) : ThreadsAction → Option DeviceThreads
  | .setMaxThreads ok =>
    if s.limited = false ∧ .user ∈ s.owners then
      -- a refusal is unwrapped, and `from_fd` drops what it made
      if ok then some { s with limited := true } else some { s with owners := s.owners.erase .user }
    else none
  | .start => if s.limited = true ∧ s.started = false then some { s with started := true } else none
  | .clone =>
    if s.started = true ∧ s.owners ≠ [] then some { s with owners := .user :: s.owners } else none
  | .drop =>
    if s.started = true ∧ .user ∈ s.owners then some { s with owners := s.owners.erase .user } else none
  | .callerSpawns ok => if s.started = true ∧ .user ∈ s.owners then some (s.spawnLooper ok) else none
  | .looper i m => s.loopers[i]?.bind fun l => s.go i l m l.stage

end DeviceThreads

/-! ## What is kept -/

/-- What the kernel took from a looper fits where it is. -/
def LooperThread.Sound (l : LooperThread) : Prop :=
  match l.stage with
  | .waiting | .entering => l.wrote = []
  | .reading | .received | .serving | .leaving | .panicked =>
    l.wrote = [] ∨ l.wrote = [.looper l.spawned]
  | .finished =>
    l.wrote = [.command .exitLooper] ∨ l.wrote = [.looper l.spawned, .command .exitLooper]

/-- A looper is behind its loop. -/
def LooperThread.left (l : LooperThread) : Prop := l.stage = .leaving ∨ l.stage = .finished

/-- The `Arc`s that a looper has. -/
def LooperThread.arcs (l : LooperThread) : ℕ :=
  match l.stage with
  | .serving => 1
  | _ => 0

/-- A looper that is not waiting was let go, behind the limit; it has an `Arc` of the device while it
serves records, and is behind its loop only if there is no `Arc` left. -/
structure DeviceThreads.Kept (s : DeviceThreads) : Prop where
  sound : ∀ l ∈ s.loopers, l.Sound
  limited : s.started = true → s.limited = true
  started : ∀ l ∈ s.loopers, l.stage ≠ .waiting → s.started = true
  counted : ∀ i, s.owners.count (.looper i) = (s.loopers[i]?.map LooperThread.arcs).getD 0
  gone : ∀ l ∈ s.loopers, l.left → s.owners = []

namespace DeviceThreads

variable {s s' : DeviceThreads} {i : ℕ} {l : LooperThread}

/-- Nothing is written yet. -/
theorem kept_new (oks : List Bool) : (new oks).Kept where
  sound l hl := by
    obtain ⟨-, rfl⟩ := List.mem_replicate.mp hl
    rfl
  limited h := by cases h
  started l hl hstage := by
    obtain ⟨-, rfl⟩ := List.mem_replicate.mp hl
    exact absurd rfl hstage
  counted i := by
    show 0 = _
    cases hl : (new oks).loopers[i]? with
    | none => rfl
    | some l =>
      obtain ⟨-, rfl⟩ := List.mem_replicate.mp (List.mem_of_getElem? hl)
      rfl
  gone l hl hleft := by
    obtain ⟨-, rfl⟩ := List.mem_replicate.mp hl
    rcases hleft with h | h <;> cases h

/-- The `Arc`s that a looper has are among those of the device. -/
theorem Kept.count (hs : s.Kept) (hl : s.loopers[i]? = some l) :
    s.owners.count (.looper i) = l.arcs := by
  rw [hs.counted i, hl]
  rfl

/-- A looper that serves records has an `Arc`. -/
theorem Kept.owners_ne_nil (hs : s.Kept) (hl : s.loopers[i]? = some l) (hstage : l.stage = .serving) :
    s.owners ≠ [] := by
  intro hnil
  have hcount := hs.count hl
  rw [hnil, LooperThread.arcs, hstage] at hcount
  cases hcount

/-- A looper is somewhere else, and the `Arc`s are others. -/
theorem Kept.setLooper (hs : s.Kept) (hl : s.loopers[i]? = some l) {l' : LooperThread}
    {owners : List DeviceOwner} (hsound : l'.Sound) (hstarted : s.started = true)
    (hself : owners.count (.looper i) = l'.arcs)
    (hother : ∀ j, j ≠ i → owners.count (.looper j) = s.owners.count (.looper j))
    (hleft : l'.left → owners = []) (hnil : s.owners = [] → owners = []) :
    Kept { s.setLooper i l' with owners } where
  sound k hk := by
    rcases List.mem_or_eq_of_mem_set hk with hk | rfl
    · exact hs.sound k hk
    · exact hsound
  limited := hs.limited
  started _ _ _ := hstarted
  counted j := by
    by_cases hj : j = i
    · subst hj
      have hlt := (List.getElem?_eq_some_iff.mp hl).1
      show owners.count (.looper j) = ((s.loopers.set j l')[j]?.map LooperThread.arcs).getD 0
      rw [hself, List.getElem?_set_self hlt]
      rfl
    · show owners.count (.looper j) = ((s.loopers.set i l')[j]?.map LooperThread.arcs).getD 0
      rw [hother j hj, List.getElem?_set_ne (Ne.symm hj)]
      exact hs.counted j
  gone k hk hkleft := by
    rcases List.mem_or_eq_of_mem_set hk with hk | rfl
    · exact hnil (hs.gone k hk hkleft)
    · exact hleft hkleft

/-- A looper is started while there is an `Arc`. -/
theorem Kept.spawnLooper (hs : s.Kept) (hstarted : s.started = true) (ok : Bool) :
    (s.spawnLooper ok).Kept := by
  cases ok with
  | false => exact hs
  | true =>
    refine ⟨?_, hs.limited, fun _ _ _ => hstarted, ?_, ?_⟩
    · intro k hk
      rcases List.mem_append.mp hk with hk | hk
      · exact hs.sound k hk
      · rw [List.mem_singleton.mp hk]
        rfl
    · intro j
      show s.owners.count (.looper j) = ((s.loopers ++ [_])[j]?.map LooperThread.arcs).getD 0
      rw [hs.counted j]
      by_cases hj : j < s.loopers.length
      · rw [List.getElem?_append_left hj]
      · rw [List.getElem?_append_right (by omega), List.getElem?_eq_none (by omega)]
        cases j - s.loopers.length <;> rfl
    · intro k hk hleft
      rcases List.mem_append.mp hk with hk | hk
      · exact hs.gone k hk hleft
      · rw [List.mem_singleton.mp hk] at hleft
        rcases hleft with h | h <;> cases h

/-- Other `Arc`s of users come or go, while there is one. -/
theorem Kept.setOwners (hs : s.Kept) {owners : List DeviceOwner}
    (hcount : ∀ i, owners.count (.looper i) = s.owners.count (.looper i))
    (hnil : s.owners = [] → owners = []) : Kept { s with owners } where
  sound := hs.sound
  limited := hs.limited
  started := hs.started
  counted i := (hcount i).trans (hs.counted i)
  gone l hl hleft := hnil (hs.gone l hl hleft)

/-- A looper that serves nothing before and after is somewhere else. -/
theorem Kept.moveLooper (hs : s.Kept) (hl : s.loopers[i]? = some l) {l' : LooperThread}
    (hsound : l'.Sound) (hstarted : s.started = true) (harcs : l'.arcs = l.arcs)
    (hleft : l'.left → s.owners = []) : (s.setLooper i l').Kept :=
  hs.setLooper hl hsound hstarted ((hs.count hl).trans harcs.symm) (fun _ _ => rfl) hleft id

/-- A looper that serves records drops its `Arc`. -/
theorem Kept.dropArc (hs : s.Kept) (hl : s.loopers[i]? = some l) (hstage : l.stage = .serving)
    {l' : LooperThread} (hsound : l'.Sound) (hstarted : s.started = true) (harcs : l'.arcs = 0)
    (hleft : ¬ l'.left) :
    Kept { s.setLooper i l' with owners := s.owners.erase (.looper i) } := by
  refine hs.setLooper hl hsound hstarted ?_ (fun j hj => ?_) (fun h => absurd h hleft) ?_
  · rw [List.count_erase_self, hs.count hl, LooperThread.arcs, hstage, harcs]
    rfl
  · exact List.count_erase_of_ne (by simpa using hj)
  · intro hnil
    rw [hnil]
    rfl

/-- What a looper does keeps the invariant. -/
theorem Kept.go (hs : s.Kept) (hl : s.loopers[i]? = some l) {m : LooperMove}
    (h : s.go i l m l.stage = some s') : s'.Kept := by
  have hmem := List.mem_of_getElem? hl
  have hsound := hs.sound l hmem
  have hstarted := hs.started l hmem
  have hgone := hs.gone l hmem
  have harcs : l.arcs = match l.stage with | .serving => 1 | _ => 0 := rfl
  generalize hstage : l.stage = stage at h
  rw [LooperThread.Sound] at hsound
  rw [hstage] at hsound hstarted harcs
  unfold DeviceThreads.go at h
  split at h
  · -- `pass`
    split_ifs at h with hset
    cases h
    exact hs.moveLooper hl hsound hset harcs.symm (by simp [LooperThread.left])
  · -- `submit`
    cases h
    refine hs.moveLooper hl ?_ (hstarted (by simp)) harcs.symm (by simp [LooperThread.left])
    rename_i taken
    cases taken <;> simp [LooperThread.Sound, hsound]
  · cases h
    exact hs
  · -- `ioctlReturns`
    cases h
    exact hs.moveLooper hl hsound (hstarted (by simp)) harcs.symm (by simp [LooperThread.left])
  · -- `upgrade`
    split_ifs at h with hnil
    · cases h
      exact hs.moveLooper hl hsound (hstarted (by simp)) harcs.symm fun _ => hnil
    · cases h
      refine hs.setLooper hl hsound (hstarted (by simp)) ?_ (fun j hj => ?_) ?_ fun h => absurd h hnil
      · rw [List.count_cons_self, hs.count hl, harcs]
        rfl
      · exact List.count_cons_of_ne (by simpa using Ne.symm hj)
      · simp [LooperThread.left]
  · -- `spawnLooper`
    cases h
    exact hs.spawnLooper (hstarted (by simp)) _
  · -- `finish`
    cases h
    exact hs.dropArc hl hstage hsound (hstarted (by simp)) rfl (by simp [LooperThread.left])
  · -- `panic`
    cases h
    exact hs.dropArc hl hstage hsound (hstarted (by simp)) rfl (by simp [LooperThread.left])
  · -- `exit`
    cases h
    refine hs.moveLooper hl ?_ (hstarted (by simp)) harcs.symm fun _ => hgone (Or.inl hstage)
    rcases hsound with hwrote | hwrote <;> simp [LooperThread.Sound, hwrote]
  · cases h
    exact hs.moveLooper hl hsound (hstarted (by simp)) harcs.symm (by simp [LooperThread.left])
  · cases h

/-- Every step keeps the invariant. -/
theorem Kept.step (hs : s.Kept) {a : ThreadsAction} (h : s.step a = some s') : s'.Kept := by
  have hcons : ∀ j, (DeviceOwner.user :: s.owners).count (.looper j) = s.owners.count (.looper j) :=
    fun j => List.count_cons_of_ne (by simp)
  have herase : ∀ j, (s.owners.erase .user).count (.looper j) = s.owners.count (.looper j) :=
    fun j => List.count_erase_of_ne (by simp)
  have hnil : s.owners = [] → s.owners.erase .user = [] := fun h => by rw [h]; rfl
  cases a with
  | setMaxThreads ok =>
    simp only [DeviceThreads.step] at h
    split_ifs at h with hguard hok
    · cases h
      exact ⟨hs.sound, fun _ => rfl, hs.started, hs.counted, hs.gone⟩
    · cases h
      exact hs.setOwners herase hnil
  | start =>
    simp only [DeviceThreads.step] at h
    split_ifs at h with hguard
    cases h
    exact ⟨hs.sound, fun _ => hguard.1, fun _ _ _ => rfl, hs.counted, hs.gone⟩
  | clone =>
    simp only [DeviceThreads.step] at h
    split_ifs at h with hguard
    cases h
    exact hs.setOwners hcons fun hnil => absurd hnil hguard.2
  | drop =>
    simp only [DeviceThreads.step] at h
    split_ifs at h with hguard
    cases h
    exact hs.setOwners herase hnil
  | callerSpawns ok =>
    simp only [DeviceThreads.step] at h
    split_ifs at h with hguard
    cases h
    exact hs.spawnLooper hguard.1 ok
  | looper i m =>
    obtain ⟨l, hl, hgo⟩ := Option.bind_eq_some_iff.mp h
    exact hs.go hl hgo

/-- The invariant holds in every state that a run leads to. -/
theorem kept_of_exec {oks : List Bool} {as : List ThreadsAction} (h : exec step (new oks) as = some s) :
    s.Kept :=
  exec_invariant (I := Kept) (fun hs hstep => hs.step hstep) (kept_new oks) h

/-! ## What a looper does -/

end DeviceThreads

/-- How often an `ioctl` still returns to a looper once the device is gone. -/
def LooperThread.ahead (l : LooperThread) : ℕ :=
  match l.stage with
  | .waiting | .entering | .reading => 1
  | .received | .serving | .leaving | .finished | .panicked => 0

/-- A looper has its first `ioctl` behind it. -/
def LooperThread.begun (l : LooperThread) : Prop := l.stage ≠ .waiting ∧ l.stage ≠ .entering

namespace DeviceThreads

variable {s s' : DeviceThreads} {i : ℕ} {l : LooperThread}

/-- What a looper does changes itself and the `Arc`s, as far as it can: with its first `ioctl` behind
it, it does not announce itself any more, and with the device gone, it goes towards its end. -/
structure Moves (s : DeviceThreads) (i : ℕ) (l l' : LooperThread) (m : LooperMove)
    (owners : List DeviceOwner) : Prop where
  spawned : l'.spawned = l.spawned
  quiet : m.spawns = false
  begun : l.begun → l'.begun ∧ (.looper l.spawned ∈ l'.wrote ↔ .looper l.spawned ∈ l.wrote)
  gone : s.owners = [] → l.stage ≠ .serving →
    owners = [] ∧ (if m = .ioctlReturns then 1 else 0) + l'.ahead ≤ l.ahead

/-- What a looper does: it starts another one, or goes somewhere else. -/
theorem go_spec (hl : s.loopers[i]? = some l) {m : LooperMove} (h : s.go i l m l.stage = some s') :
    (∃ ok, m = .spawnLooper ok ∧ l.stage = .serving ∧ s' = s.spawnLooper ok) ∨
      ∃ l' owners, s' = { s.setLooper i l' with owners } ∧ s.Moves i l l' m owners := by
  generalize hstage : l.stage = stage at h
  unfold DeviceThreads.go at h
  split at h
  · split_ifs at h
    cases h
    refine Or.inr ⟨_, s.owners, rfl, rfl, rfl, fun hbegun => absurd hstage hbegun.1, ?_⟩
    simp +contextual [LooperThread.ahead, hstage]
  · cases h
    refine Or.inr ⟨_, s.owners, rfl, rfl, rfl, fun hbegun => absurd hstage hbegun.2, ?_⟩
    simp +contextual [LooperThread.ahead, hstage]
  · cases h
    have hself : s.loopers.set i l = s.loopers := by
      obtain ⟨hlt, rfl⟩ := List.getElem?_eq_some_iff.mp hl
      exact List.set_getElem_self hlt
    refine Or.inr ⟨l, s.owners, ?_, rfl, rfl, fun hbegun => ⟨hbegun, Iff.rfl⟩, ?_⟩
    · rw [DeviceThreads.setLooper, hself]
    · simp +contextual [LooperThread.ahead, hstage]
  · cases h
    refine Or.inr ⟨_, s.owners, rfl, rfl, rfl, fun _ => ⟨?_, Iff.rfl⟩, ?_⟩
    · simp [LooperThread.begun]
    · simp +contextual [LooperThread.ahead, hstage]
  · split_ifs at h with hnil
    · cases h
      refine Or.inr ⟨_, s.owners, rfl, rfl, rfl, fun _ => ⟨?_, Iff.rfl⟩, ?_⟩
      · simp [LooperThread.begun]
      · simp +contextual [LooperThread.ahead, hstage]
    · cases h
      refine Or.inr ⟨_, _, rfl, rfl, rfl, fun _ => ⟨?_, Iff.rfl⟩, fun h => absurd h hnil⟩
      simp [LooperThread.begun]
  · next ok =>
    cases h
    exact Or.inl ⟨ok, rfl, rfl, rfl⟩
  · cases h
    refine Or.inr ⟨_, _, rfl, rfl, rfl, fun _ => ⟨?_, Iff.rfl⟩, fun _ h => absurd hstage h⟩
    simp [LooperThread.begun]
  · cases h
    refine Or.inr ⟨_, _, rfl, rfl, rfl, fun _ => ⟨?_, Iff.rfl⟩, fun _ h => absurd hstage h⟩
    simp [LooperThread.begun]
  · cases h
    refine Or.inr ⟨_, s.owners, rfl, rfl, rfl, fun _ => ⟨?_, ?_⟩, ?_⟩
    · simp [LooperThread.begun]
    · simp
    · simp +contextual [LooperThread.ahead, hstage]
  · cases h
    refine Or.inr ⟨_, s.owners, rfl, rfl, rfl, fun _ => ⟨?_, Iff.rfl⟩, ?_⟩
    · simp [LooperThread.begun]
    · simp +contextual [LooperThread.ahead, hstage]
  · cases h

/-! ## What the loopers write -/

/-- The loopers by their argument `spawned`. -/
def flags (s : DeviceThreads) : List Bool := s.loopers.map LooperThread.spawned

/-- A looper keeps its argument. -/
theorem flags_setLooper (hl : s.loopers[i]? = some l) {l' : LooperThread} (h : l'.spawned = l.spawned)
    (owners : List DeviceOwner) : flags { s.setLooper i l' with owners } = s.flags := by
  show (s.loopers.set i l').map LooperThread.spawned = s.loopers.map LooperThread.spawned
  apply List.ext_getElem?
  intro j
  rw [List.getElem?_map, List.getElem?_map]
  by_cases hj : i = j
  · subst hj
    rw [List.getElem?_set_self (List.getElem?_eq_some_iff.mp hl).1, hl, Option.map_some,
      Option.map_some, h]
  · rw [List.getElem?_set_ne hj]

/-- How often an `ioctl` still returns to the looper `i` once the device is gone. -/
def aheadAt (s : DeviceThreads) (i : ℕ) : ℕ := (s.loopers[i]?.map LooperThread.ahead).getD 0

/-- A device that is gone stays gone, and its loopers go towards their ends. -/
theorem Kept.gone_step (hs : s.Kept) (hgone : s.owners = []) {a : ThreadsAction}
    (h : s.step a = some s') :
    s'.owners = [] ∧ s'.flags = s.flags ∧
      ∀ i, (if a = .looper i .ioctlReturns then 1 else 0) + s'.aheadAt i ≤ s.aheadAt i := by
  cases a with
  | setMaxThreads ok =>
    simp only [DeviceThreads.step] at h
    split_ifs at h with hguard hok
    · rw [hgone] at hguard
      cases hguard.2
    · rw [hgone] at hguard
      cases hguard.2
  | start =>
    simp only [DeviceThreads.step] at h
    split_ifs at h
    cases h
    exact ⟨hgone, rfl, fun i => Nat.le_of_eq (Nat.zero_add _)⟩
  | clone =>
    simp only [DeviceThreads.step] at h
    split_ifs at h with hguard
    exact absurd hgone hguard.2
  | drop =>
    simp only [DeviceThreads.step] at h
    split_ifs at h with hguard
    rw [hgone] at hguard
    cases hguard.2
  | callerSpawns ok =>
    simp only [DeviceThreads.step] at h
    split_ifs at h with hguard
    rw [hgone] at hguard
    cases hguard.2
  | looper j m =>
    obtain ⟨k, hk, hgo⟩ := Option.bind_eq_some_iff.mp h
    have hserves : k.stage ≠ .serving := fun hstage => hs.owners_ne_nil hk hstage hgone
    rcases go_spec hk hgo with ⟨ok, -, hstage, -⟩ | ⟨k', owners, rfl, hmoves⟩
    · exact absurd hstage hserves
    · obtain ⟨howners, hahead⟩ := hmoves.gone hgone hserves
      refine ⟨howners, flags_setLooper hk hmoves.spawned owners, fun i => ?_⟩
      show _ + ((s.loopers.set j k')[i]?.map LooperThread.ahead).getD 0 ≤ s.aheadAt i
      by_cases hj : j = i
      · subst hj
        rw [List.getElem?_set_self (List.getElem?_eq_some_iff.mp hk).1, aheadAt, hk]
        simpa using hahead
      · rw [List.getElem?_set_ne hj, if_neg (by simpa using fun h => absurd h hj), Nat.zero_add]
        exact Nat.le_refl _

/-- In a run behind the end of a device, its loopers go towards their ends. -/
theorem Kept.gone_exec (hs : s.Kept) (hgone : s.owners = []) {bs : List ThreadsAction}
    (h : exec DeviceThreads.step s bs = some s') :
    s'.owners = [] ∧ s'.flags = s.flags ∧
      ∀ i, bs.count (.looper i .ioctlReturns) + s'.aheadAt i ≤ s.aheadAt i := by
  induction bs generalizing s with
  | nil =>
    cases h
    exact ⟨hgone, rfl, fun i => Nat.le_of_eq (Nat.zero_add _)⟩
  | cons a bs ih =>
    obtain ⟨t, ht, hrest⟩ := exec_cons_eq_some.mp h
    obtain ⟨htgone, htflags, htahead⟩ := hs.gone_step hgone ht
    obtain ⟨hgone', hflags', hahead'⟩ := ih (hs.step ht) htgone hrest
    refine ⟨hgone', hflags'.trans htflags, fun i => ?_⟩
    have h₁ := htahead i
    have h₂ := hahead' i
    rw [List.count_cons]
    simp only [beq_iff_eq]
    omega

/-- An `ioctl` returns to a looper once more at most when the device is gone. -/
theorem aheadAt_le (s : DeviceThreads) (i : ℕ) : s.aheadAt i ≤ 1 := by
  rw [aheadAt]
  cases s.loopers[i]? with
  | none => exact Nat.zero_le _
  | some l =>
    show l.ahead ≤ 1
    unfold LooperThread.ahead
    split <;> omega

/-- A looper that was given records of a device that is gone writes `EXIT_LOOPER` and ends. -/
theorem exec_exit (hgone : s.owners = []) (hl : s.loopers[i]? = some l) (hstage : l.stage = .received) :
    ∃ s' l', exec step s [.looper i .upgrade, .looper i (.exit true)] = some s' ∧
      s'.loopers[i]? = some l' ∧ l'.stage = .finished ∧ .command .exitLooper ∈ l'.wrote := by
  have hlt := (List.getElem?_eq_some_iff.mp hl).1
  let t := s.setLooper i { l with stage := .leaving }
  let l' : LooperThread := ⟨l.spawned, .finished, l.wrote ++ [.command .exitLooper]⟩
  have hleaving : t.loopers[i]? = some { l with stage := .leaving } := List.getElem?_set_self hlt
  have hupgrade : s.step (.looper i .upgrade) = some t := by
    simp [DeviceThreads.step, hl, DeviceThreads.go, hstage, hgone, t]
  have hexit : t.step (.looper i (.exit true)) = some (t.setLooper i l') := by
    simp [DeviceThreads.step, hleaving, DeviceThreads.go, l']
  refine ⟨t.setLooper i l', l', ?_, ?_, rfl, by simp [l']⟩
  · rw [exec_cons, hupgrade, Option.bind_some, exec_cons, hexit]
    rfl
  · exact List.getElem?_set_self (by simpa [t, setLooper] using hlt)

/-- **When the loopers leave.** As long as there is an `Arc` of the device, no looper is behind its
loop. When there is none left, there never is one again, no looper is started any more, and an `ioctl`
returns to each looper once more at most: behind that the looper writes `EXIT_LOOPER` and ends. -/
theorem loopers_stay {oks : List Bool} {as : List ThreadsAction} (h : exec step (new oks) as = some s) :
    (s.owners ≠ [] → ∀ l ∈ s.loopers, ¬ l.left) ∧
    (s.owners = [] →
      (∀ bs s', exec step s bs = some s' → s'.owners = [] ∧ s'.flags = s.flags ∧
        ∀ i, bs.count (.looper i .ioctlReturns) ≤ 1) ∧
      ∀ (i : ℕ) (l : LooperThread), s.loopers[i]? = some l → l.stage = .received → ∃ s' l',
        exec step s [.looper i .upgrade, .looper i (.exit true)] = some s' ∧
        s'.loopers[i]? = some l' ∧ l'.stage = .finished ∧ .command .exitLooper ∈ l'.wrote) := by
  have hs := kept_of_exec h
  refine ⟨fun howners l hl hleft => howners (hs.gone l hl hleft), fun hgone => ⟨?_, ?_⟩⟩
  · intro bs s' hexec
    obtain ⟨hgone', hflags, hahead⟩ := hs.gone_exec hgone hexec
    refine ⟨hgone', hflags, fun i => ?_⟩
    have hcount := hahead i
    have hle := s.aheadAt_le i
    omega
  · intro i l hl hstage
    exact exec_exit hgone hl hstage

/-- A device of two loopers, one of which is let go and starts a third one while it serves a record;
the other one has an `ioctl` that fails before the kernel takes its write. -/
def spawnedThird : List ThreadsAction :=
  [.setMaxThreads true, .start, .looper 0 .pass, .looper 0 (.submit true), .looper 0 .ioctlReturns,
    .looper 0 .upgrade, .looper 0 (.spawnLooper true), .looper 0 .finish, .looper 1 .pass,
    .looper 1 (.submit false)]

/-- Then the user drops the device, and an `ioctl` returns to the first looper. -/
def droppedDevice : List ThreadsAction := spawnedThird ++ [.drop, .looper 0 .ioctlReturns]

/-- It ends, and the device stays gone. -/
theorem loopers_stay_droppedDevice :
    ∃ s, exec step (new [true, true]) droppedDevice = some s ∧ s.owners = [] ∧
      (∀ bs s', exec step s bs = some s' → s'.owners = []) ∧
      ∃ s' l', exec step s [.looper 0 .upgrade, .looper 0 (.exit true)] = some s' ∧
        s'.loopers[0]? = some l' ∧ l'.stage = .finished := by
  obtain ⟨s, hrun, hgone, l, hl, hstage⟩ :
      ∃ s, exec step (new [true, true]) droppedDevice = some s ∧ s.owners = [] ∧
        ∃ l, s.loopers[0]? = some l ∧ l.stage = .received := ⟨_, rfl, rfl, _, rfl, rfl⟩
  obtain ⟨hstays, hends⟩ := (loopers_stay hrun).2 hgone
  obtain ⟨s', l', hexec, hl', hfinished, -⟩ := hends 0 l hl hstage
  exact ⟨s, hrun, hgone, fun bs s' h => (hstays bs s' h).1, s', l', hexec, hl', hfinished⟩

end DeviceThreads

end BinderBinder
