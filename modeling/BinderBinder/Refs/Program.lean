import BinderBinder.Refs.Calls
import BinderBinder.Refs.Functions

set_option relaxedAutoImplicit false
set_option autoImplicit false

/-!
# Programs that use references

One thread decodes handles, clones, upgrades, downgrades and drops references, each call run to its
end. What it has at a handle is a number of handles of one reference and of one weak reference; the
maps of the device, the commands that it wrote and the tokens of death notifications follow from
these numbers. And every such program is a run of the threads of a device, so what holds of every
interleaving holds of it.

## Main definitions

* `RefUser.Agrees` — the device of a program, and the device on which threads interleave.
* `RefUser.Follows` — an operation without interruption leads to a device that agrees.
* `RefUser.Uninterrupted` — what one thread does in a program.

## Main results

* `RefUser.Agrees.step` — a call is an operation of one thread without interruption.
* `RefUser.program_interleaves` — every program is a run of the device.
* `RefUser.program_balanced` — what the maps, the commands and the tokens are behind a program.
-/

namespace BinderBinder

open Run

/-! ## The two devices -/

namespace RefUser

/-- The device of a program, on which every call runs to its end, and the device on which threads
interleave: the thread has `p` at its handles on both. -/
structure Agrees (u : RefUser) (d : RemoteRefs) (p : UInt32 → Holding) : Prop where
  rested : d.Rested
  refs : u.dev.refs = Holding.ref ∘ p
  weakRefs : u.dev.weakRefs = Holding.weakRef ∘ p
  held : Held u.refs u.weaks p
  holds : ∀ k, (d.view k).Holds (p k)
  filed : Filed u.dev d.deathCounter d.deathNotifications p
  written : ∀ k, u.dev.written.filter (·.isFor k) = d.written k
  balanced : ∀ k, Balanced k (p k) u.dev.written
  placed : Allocation.Sound (Holding.addrs ∘ p) (fun a => u.dev.alive a = true) u.dev.nextAddr

/-- Nothing was decoded yet. -/
theorem agrees_new (addr : Addr) : (new addr).Agrees .new fun _ => .nothing where
  rested := RemoteRefs.rested_new
  refs := rfl
  weakRefs := rfl
  held := ⟨fun _ => rfl, fun _ => rfl⟩
  holds _ := ⟨rfl, rfl, rfl, rfl, rfl⟩
  filed := by
    refine ⟨rfl, fun v => rfl, Allocation.sound_nil _ _, fun v => ?_⟩
    simp [new, BinderDevice.new, DashMap.empty, Holding.cookies, Holding.cookie, Holding.weakRef]
  written _ := rfl
  balanced _ := ⟨rfl, rfl, fun _ => rfl⟩
  placed := Allocation.sound_nil _ _

/-- An operation of the thread at a handle, without interruption, leads to a device that the program
agrees with; it draws at most one cookie. -/
def Follows (u : RefUser) (d : RemoteRefs) (k : UInt32) (a : HandleAction) : Prop :=
  ∃ n d' p, exec RemoteRefs.step d ((a :: List.replicate n (.go 0)).map (Prod.mk k)) = some d' ∧
    u.Agrees d' p ∧ d'.deathCounter ≤ d.deathCounter + 1

namespace Agrees

variable {u : RefUser} {d : RemoteRefs} {p : UInt32 → Holding} {k : UInt32} {new : Holding}
  {r : BinderRef} {w : WeakBinderRef} {i m n : ℕ}

/-- The thread is idle. -/
theorem idle (h : u.Agrees d p) (k : UInt32) : (d.view k).phase 0 = .idle := h.rested.view_idle k 0

/-- The same reference as before. -/
theorem update_refs (h : u.Agrees d p) (href : (p k).ref = new.ref) :
    Function.update u.dev.refs k new.ref = u.dev.refs := by
  rw [← href, h.refs]
  exact Function.update_eq_self k (Holding.ref ∘ p)

/-- The same weak reference as before. -/
theorem update_weakRefs (h : u.Agrees d p) (hweak : (p k).weakRef = new.weakRef) :
    Function.update u.dev.weakRefs k new.weakRef = u.dev.weakRefs := by
  rw [← hweak, h.weakRefs]
  exact Function.update_eq_self k (Holding.weakRef ∘ p)

/-- The entry of a handle in `refs`. -/
theorem refs_at (h : u.Agrees d p) (k : UInt32) : u.dev.refs k = (p k).ref := congrFun h.refs k

/-- The entry of a handle in `weak_refs`. -/
theorem weakRefs_at (h : u.Agrees d p) (k : UInt32) : u.dev.weakRefs k = (p k).weakRef :=
  congrFun h.weakRefs k

/-- What `refs` points at is alive. -/
theorem alive_ref (h : u.Agrees d p) (hr : (p k).ref = some r) : u.dev.alive r.addr = true :=
  h.placed.live (k := k) (by simp [Holding.addrs, hr])

/-- What `weak_refs` points at is alive. -/
theorem alive_weakRef (h : u.Agrees d p) (hw : (p k).weakRef = some w) :
    u.dev.alive w.addr = true :=
  h.placed.live (k := k) (by simp [Holding.addrs, hw])

/-- What the thread has at the handle of one of its references. -/
theorem of_mem_refs (h : u.Agrees d p) (hr : r ∈ u.refs) :
    ∃ i m n, p r.handle = .strong r i m n :=
  Holding.eq_strong (Holding.mem_refs_iff.mp (h.held.mem_refs hr))

/-- **One handle.** What the thread has at one handle is `new` from now on: on the device of the
program after some changes, on the other one after an operation at the handle. -/
theorem put (h : u.Agrees d p) {g : RemoteHandle} {a : HandleAction} {dev' : BinderDevice}
    {refs' : List BinderRef} {weaks' : List WeakBinderRef}
    (hg : (d.view k).Goes g 0 a new (Holding.commands k (p k) new))
    (hdrawn : g.deathCounter ≤ d.deathCounter + 1)
    (hrefs : dev'.refs = Function.update u.dev.refs k new.ref)
    (hweakRefs : dev'.weakRefs = Function.update u.dev.weakRefs k new.weakRef)
    (hwritten : dev'.written = u.dev.written ++ Holding.commands k (p k) new)
    (hsame : ∀ w w', (p k).weakRef = some w → new.weakRef = some w' → w = w')
    (hheld : Held refs' weaks' (Function.update p k new))
    (hfiled : Filed dev' g.deathCounter g.deathNotifications (Function.update p k new))
    (hplaced : Allocation.Sound (Function.update (Holding.addrs ∘ p) k new.addrs)
      (fun a => dev'.alive a = true) dev'.nextAddr) :
    Follows ⟨dev', refs', weaks'⟩ d k a := by
  obtain ⟨n, hrun⟩ := hg.run
  obtain ⟨φ, hexec, hrested⟩ := h.rested.exec hrun hg.phase
  refine ⟨n, _, Function.update p k new, hexec, ?_, hdrawn⟩
  refine ⟨hrested, ?_, ?_, hheld, fun k' => ?_, hfiled, fun k' => ?_, fun k' => ?_, ?_⟩
  · rw [Function.comp_update, ← h.refs]
    exact hrefs
  · rw [Function.comp_update, ← h.weakRefs]
    exact hweakRefs
  · by_cases hk : k' = k
    · subst hk
      rw [Function.update_self]
      constructor <;> simp only [RemoteRefs.view, RemoteRefs.put, Function.update_self]
      · exact hg.holds.refs
      · exact hg.holds.weakRefs
      · exact hg.holds.refArcs
      · exact hg.holds.weakArcs
      · exact hg.holds.weakFields
    · have hold := h.holds k'
      rw [Function.update_of_ne hk]
      constructor <;> simp only [RemoteRefs.view, RemoteRefs.put, Function.update_of_ne hk]
      · exact hold.refs
      · exact hold.weakRefs
      · exact hold.refArcs
      · exact hold.weakArcs
      · exact hold.weakFields
  · show dev'.written.filter (·.isFor k') = Function.update d.written k g.written k'
    rw [hwritten, List.filter_append, h.written]
    by_cases hk : k' = k
    · subst hk
      rw [Function.update_self, hg.written, Holding.filter_commands]
      rfl
    · rw [Function.update_of_ne hk, Holding.filter_commands_of_ne hk, List.append_nil]
  · show Balanced k' (Function.update p k new k') dev'.written
    rw [hwritten]
    by_cases hk : k' = k
    · subst hk
      rw [Function.update_self]
      exact (h.balanced k').append hsame
    · rw [Function.update_of_ne hk]
      exact (h.balanced k').append_of_ne hk
  · rw [Function.comp_update]
    exact hplaced

/-- **Handles only.** The thread has more or fewer handles of the same references: nothing is
written and no map is changed. -/
theorem putHandles (h : u.Agrees d p) {g : RemoteHandle} {a : HandleAction}
    {refs' : List BinderRef} {weaks' : List WeakBinderRef}
    (hg : (d.view k).Goes g 0 a new [])
    (hcounter : g.deathCounter = d.deathCounter)
    (htokens : g.deathNotifications = d.deathNotifications)
    (href : (p k).ref = new.ref) (hweak : (p k).weakRef = new.weakRef)
    (hheld : Held refs' weaks' (Function.update p k new)) :
    Follows ⟨u.dev, refs', weaks'⟩ d k a := by
  have hnone : Holding.commands k (p k) new = [] := Holding.commands_eq_nil href hweak
  refine h.put (by rwa [hnone]) (by omega) (h.update_refs href).symm (h.update_weakRefs hweak).symm
    ?_ ?_ hheld ?_ ?_
  · rw [hnone, List.append_nil]
  · intro w w' hw hw'
    rw [hweak, hw'] at hw
    exact (Option.some.inj hw).symm
  · rw [hcounter, htokens]
    refine h.filed.keep rfl rfl ?_
    rw [Holding.cookies, Holding.cookies, Holding.cookie, Holding.cookie, hweak]
  · have haddrs : new.addrs = (Holding.addrs ∘ p) k := by
      rw [Function.comp_apply, Holding.addrs, Holding.addrs, href, hweak]
    rw [haddrs, Function.update_eq_self]
    exact h.placed

/-! ### Decodes -/

variable {kernel : KernelWrite} {dev' : BinderDevice}

/-- A weak reference is decoded. -/
theorem decodeWeak (h : u.Agrees d p) (hbound : d.deathCounter + 1 < 2 ^ 64) {handle : UInt32}
    {x : { w : WeakBinderRef // w.id = handle } × BinderDevice}
    (hx : WeakBinderRef.getAndDedupFromRaw kernel u.dev handle = some x) :
    Follows ⟨x.2, u.refs, x.1.1 :: u.weaks⟩ d handle (.decodeWeak 0) := by
  have hholds := h.holds handle
  cases hw : (p handle).weakRef with
  | some w =>
    obtain ⟨hfound, hsame⟩ := WeakBinderRef.getAndDedupFromRaw_found hx
      ((h.weakRefs_at handle).trans hw) (h.alive_weakRef hw)
    have hid : w.id = handle := hfound ▸ x.1.2
    subst hid
    rw [hfound, hsame]
    obtain ⟨href, hweak, hrefs, hweaks⟩ := Holding.consWeak_spec hw
    exact h.putHandles (RemoteHandle.goes_decodeWeak_found (h.idle _) hholds hw) rfl rfl
      href hweak (h.held.consWeak hrefs hweaks)
  | none =>
    have hp : p handle = .nothing := Holding.eq_nothing hw
    obtain ⟨⟨w, rfl⟩, dev'⟩ := x
    have hmade := WeakBinderRef.getAndDedupFromRaw_made hx ((h.weakRefs_at w.id).trans hw)
    have hcookie : w.deathNotifCookie.toNat = d.deathCounter := by
      rw [hmade.cookie, h.filed.drawn]
    rw [hp] at hholds
    refine h.put (by
      rw [hp]
      exact RemoteHandle.goes_decodeWeak_made (h.idle _) hholds hcookie) (Nat.le_refl _) ?_ ?_ ?_ ?_
      ?_ ?_ ?_
    · rw [h.update_refs (by rw [hp]; rfl)]
      exact hmade.refs
    · exact hmade.weakRefs
    · rw [hmade.written, hp, ← hmade.cookie, List.append_assoc]
      rfl
    · intro w' w'' hw'
      rw [hw] at hw'
      cases hw'
    · refine h.held.consWeak ?_ ?_ <;> rw [hp] <;> rfl
    · refine h.filed.make hbound hmade.deathCounter hmade.deathNotifications (by rw [hp]; rfl) ?_
      exact congrArg (fun c => [c]) hcookie
    · rw [hmade.nextAddr, hmade.alive]
      refine h.placed.update w.id (by omega) (List.nodup_singleton _) ?_ ?_
      · intro a ha
        obtain rfl := List.mem_singleton.mp ha
        rw [hmade.addr]
        exact ⟨Function.update_self .., by omega, by omega⟩
      · intro a hlt _ halive
        rw [Function.update_of_ne (show a ≠ u.dev.nextAddr + 1 by omega),
          Function.update_of_ne (show a ≠ u.dev.nextAddr by omega)]
        exact halive

/-- A reference is decoded. -/
theorem decodeRef (h : u.Agrees d p) (hbound : d.deathCounter + 1 < 2 ^ 64) {handle : UInt32}
    {x : BinderRef × BinderDevice}
    (hx : BinderRef.getAndDedupFromRaw kernel u.dev handle = some x) :
    Follows ⟨x.2, x.1 :: u.refs, u.weaks⟩ d handle (.decodeRef 0) := by
  have hholds := h.holds handle
  obtain ⟨r, dev'⟩ := x
  cases hp : p handle with
  | strong r' i m n =>
    have hr : (p handle).ref = some r' := by rw [hp]; rfl
    obtain ⟨rfl, rfl⟩ := BinderRef.getAndDedupFromRaw_found hx ((h.refs_at handle).trans hr)
      (h.alive_ref hr)
    obtain rfl : r.handle = handle := (u.dev.refs_keyed handle r ((h.refs_at handle).trans hr)).2
    rw [hp] at hholds
    refine h.putHandles (RemoteHandle.goes_decodeRef_found (h.idle _) hholds) rfl rfl ?_ ?_ ?_
    · rw [hp]
      rfl
    · rw [hp]
      rfl
    · refine h.held.consRef ?_ ?_ <;> rw [hp] <;> rfl
  | weak w n =>
    have hw : (p handle).weakRef = some w := by rw [hp]; rfl
    have hr : (p handle).ref = none := by rw [hp]; rfl
    obtain ⟨y, hy, hmade⟩ := BinderRef.getAndDedupFromRaw_made hx ((h.refs_at handle).trans hr)
    obtain ⟨hfound, hsame⟩ := WeakBinderRef.getAndDedupFromRaw_found hy
      ((h.weakRefs_at handle).trans hw) (h.alive_weakRef hw)
    have hid : w.id = handle := hfound ▸ y.1.2
    rw [hfound, hsame] at hmade
    have hmade : u.dev.MadeRef dev' w r := hmade
    obtain rfl : r.weak = w := hmade.weak
    subst hid
    rw [hp] at hholds
    refine h.put (by
      rw [hp]
      exact RemoteHandle.goes_decodeRef_found_made (h.idle _) hholds) (Nat.le_succ _) ?_ ?_ ?_ ?_
      ?_ ?_ ?_
    · exact hmade.refs
    · rw [h.update_weakRefs (by rw [hp]; rfl)]
      exact hmade.weakRefs
    · rw [hmade.written, hp]
      rfl
    · intro w' w'' hw' hw''
      rw [hp] at hw'
      exact Option.some.inj (hw'.symm.trans hw'')
    · refine h.held.consRef ?_ ?_ <;> rw [BinderRef.handle, hp] <;> rfl
    · exact h.filed.keep hmade.deathCounter hmade.deathNotifications (by rw [hp]; rfl)
    · have hbelow := h.placed.below (k := r.weak.id) (a := r.weak.addr)
        (by simp [hp, Holding.addrs, Holding.weakRef])
      have halive := h.alive_weakRef hw
      rw [hmade.nextAddr, hmade.alive]
      refine h.placed.update r.weak.id (Nat.le_succ _) ?_ ?_ ?_
      · simp [Holding.addrs, Holding.ref, Holding.weakRef, hmade.addr, (Nat.ne_of_lt hbelow).symm]
      · intro a ha
        simp only [Holding.addrs, Holding.ref, Holding.weakRef, Option.toList_some, List.map_cons,
          List.map_nil, List.cons_append, List.nil_append, List.mem_cons, List.not_mem_nil,
          or_false, hmade.addr] at ha
        rcases ha with rfl | rfl
        · exact ⟨Function.update_self .., by omega, by omega⟩
        · refine ⟨?_, Nat.lt_succ_of_lt hbelow, Or.inl ?_⟩
          · rw [Function.update_of_ne (Nat.ne_of_lt hbelow)]
            exact halive
          · simp [hp, Holding.addrs, Holding.weakRef]
      · intro a hlt _ halive
        rw [Function.update_of_ne (show a ≠ u.dev.nextAddr by omega)]
        exact halive
  | nothing =>
    have hw : (p handle).weakRef = none := by rw [hp]; rfl
    have hr : (p handle).ref = none := by rw [hp]; rfl
    obtain ⟨⟨⟨w, rfl⟩, dev₁⟩, hy, hmade⟩ :=
      BinderRef.getAndDedupFromRaw_made hx ((h.refs_at handle).trans hr)
    have hweak : u.dev.MadeWeak dev₁ w.id w :=
      WeakBinderRef.getAndDedupFromRaw_made hy ((h.weakRefs_at w.id).trans hw)
    have hmade : dev₁.MadeRef dev' w r := hmade
    obtain rfl : r.weak = w := hmade.weak
    have hcookie : r.weak.deathNotifCookie.toNat = d.deathCounter := by
      rw [hweak.cookie, h.filed.drawn]
    rw [hp] at hholds
    refine h.put (by
      rw [hp]
      exact RemoteHandle.goes_decodeRef_made (h.idle _) hholds hcookie) (Nat.le_refl _) ?_ ?_ ?_ ?_
      ?_ ?_ ?_
    · rw [hmade.refs, hweak.refs]
      rfl
    · rw [hmade.weakRefs, hweak.weakRefs]
      rfl
    · rw [hmade.written, hweak.written, hp, ← hweak.cookie, List.append_assoc, List.append_assoc]
      rfl
    · intro w' w'' hw'
      rw [hw] at hw'
      cases hw'
    · refine h.held.consRef ?_ ?_ <;> rw [BinderRef.handle, hp] <;> rfl
    · refine h.filed.make hbound (hmade.deathCounter.trans hweak.deathCounter)
        (hmade.deathNotifications.trans hweak.deathNotifications) (by rw [hp]; rfl) ?_
      exact congrArg (fun c => [c]) hcookie
    · have hlast : r.addr = u.dev.nextAddr + 1 + 1 := hmade.addr.trans hweak.nextAddr
      rw [hmade.nextAddr, hmade.alive, hweak.nextAddr, hweak.alive]
      refine h.placed.update r.weak.id (by omega) ?_ ?_ ?_
      · simp [Holding.addrs, Holding.ref, Holding.weakRef, hlast, hweak.addr]
      · intro a ha
        simp only [Holding.addrs, Holding.ref, Holding.weakRef, Option.toList_some, List.map_cons,
          List.map_nil, List.cons_append, List.nil_append, List.mem_cons, List.not_mem_nil,
          or_false, hlast, hweak.addr] at ha
        rcases ha with rfl | rfl
        · exact ⟨Function.update_self .., by omega, by omega⟩
        · refine ⟨?_, by omega, by omega⟩
          rw [Function.update_of_ne (Nat.ne_of_lt (Nat.lt_succ_self (u.dev.nextAddr + 1)))]
          exact Function.update_self ..
      · intro a hlt _ halive
        rw [Function.update_of_ne (show a ≠ u.dev.nextAddr + 1 + 1 by omega),
          Function.update_of_ne (show a ≠ u.dev.nextAddr + 1 by omega),
          Function.update_of_ne (show a ≠ u.dev.nextAddr by omega)]
        exact halive

/-! ### Clones, downgrades and upgrades -/

/-- A reference is cloned. -/
theorem cloneRef (h : u.Agrees d p) (hr : r ∈ u.refs) :
    ∃ i, Follows ⟨u.dev, r :: u.refs, u.weaks⟩ d r.handle (.cloneRef i) := by
  obtain ⟨i, m, n, hp⟩ := h.of_mem_refs hr
  have hholds := h.holds r.handle
  rw [hp] at hholds
  refine ⟨i, h.putHandles (RemoteHandle.goes_cloneRef hholds) rfl rfl ?_ ?_ ?_⟩
  · rw [hp]
    rfl
  · rw [hp]
    rfl
  · refine h.held.consRef ?_ ?_ <;> rw [hp] <;> rfl

/-- A weak reference is cloned. -/
theorem cloneWeak (h : u.Agrees d p) (hw : w ∈ u.weaks) :
    Follows ⟨u.dev, u.refs, w :: u.weaks⟩ d w.id (.cloneWeak w.deathNotifCookie.toNat) := by
  have hmem := h.held.mem_weaks hw
  obtain ⟨href, hweak, hrefs, hweaks⟩ := Holding.consWeak_spec (Holding.weakRef_of_mem hmem)
  exact h.putHandles (RemoteHandle.goes_cloneWeak (h.holds w.id) hmem) rfl rfl href hweak
    (h.held.consWeak hrefs hweaks)

/-- A reference is downgraded. -/
theorem downgrade (h : u.Agrees d p) (hr : r ∈ u.refs) :
    ∃ i, Follows ⟨u.dev, u.refs, r.weak :: u.weaks⟩ d r.handle (.downgrade i) := by
  obtain ⟨i, m, n, hp⟩ := h.of_mem_refs hr
  have hholds := h.holds r.handle
  rw [hp] at hholds
  refine ⟨i, h.putHandles (RemoteHandle.goes_downgrade hholds) rfl rfl ?_ ?_ ?_⟩
  · rw [hp]
    rfl
  · rw [hp]
    rfl
  · refine h.held.consWeak (w := r.weak) ?_ ?_ <;> rw [← BinderRef.handle, hp] <;> rfl

/-- A weak reference is upgraded. -/
theorem upgrade (h : u.Agrees d p) (hw : w ∈ u.weaks) :
    Follows ⟨u.dev, ((u.dev.upgradeRef w.id).map Subtype.val).toList ++ u.refs, u.weaks⟩ d w.id
      (.upgrade w.deathNotifCookie.toNat) := by
  have hmem := h.held.mem_weaks hw
  have hholds := h.holds w.id
  cases hr : (p w.id).ref with
  | some r =>
    have hentry := (h.refs_at w.id).trans hr
    obtain ⟨port, hport, hfound⟩ := BinderDevice.upgradeRef_eq hentry (h.alive_ref hr)
    have htaken : ((u.dev.upgradeRef w.id).map Subtype.val).toList = [r] := by
      rw [hport, Option.map_some, hfound, Option.toList_some]
    have hid : r.handle = w.id := (u.dev.refs_keyed w.id r hentry).2
    rw [htaken]
    obtain ⟨i, m, n, hp⟩ := Holding.eq_strong hr
    rw [hp] at hholds hmem
    refine h.putHandles (RemoteHandle.goes_upgrade hholds hmem) rfl rfl ?_ ?_ ?_
    · rw [hp]
      rfl
    · rw [hp]
      rfl
    · rw [← hid] at hp ⊢
      refine h.held.consRef ?_ ?_ <;> rw [hp] <;> rfl
  | none =>
    rw [BinderDevice.upgradeRef_eq_none ((h.refs_at w.id).trans hr)]
    refine h.putHandles (RemoteHandle.goes_upgrade_none hholds hr hmem) rfl rfl rfl rfl ?_
    rw [Function.update_eq_self]
    exact h.held

/-! ### Drops -/

/-- Where a reference of the thread is allocated. -/
theorem addr_mem_ref (h : u.Agrees d p) (hr : r ∈ u.refs) :
    r.addr ∈ (Holding.addrs ∘ p) r.handle ∧ r.weak.addr ∈ (Holding.addrs ∘ p) r.handle := by
  obtain ⟨i, m, n, hp⟩ := h.of_mem_refs hr
  simp [hp, Holding.addrs, Holding.ref, Holding.weakRef]

/-- Where a weak reference of the thread is allocated. -/
theorem addr_mem_weak (h : u.Agrees d p) (hw : w ∈ u.weaks) :
    w.addr ∈ (Holding.addrs ∘ p) w.id := by
  have hentry := Holding.weakRef_of_mem (h.held.mem_weaks hw)
  simp [Holding.addrs, hentry]

/-- Whether it was the last handle of a reference. -/
theorem any_refs (h : u.Agrees d p) {refs' : List BinderRef} {weaks' : List WeakBinderRef}
    (hr : r ∈ u.refs) (hheld : Held refs' weaks' (Function.update p r.handle new))
    (hsub : ∀ r' ∈ refs', r' ∈ u.refs) (hnew : new.ref = none ∨ new.ref = some r) :
    (refs'.any fun r' => r'.addr == r.addr) = new.ref.isSome := by
  have hrefs := hheld.refs r.handle
  rw [Function.update_self] at hrefs
  rcases hnew with hnone | hsome
  · rw [hnone, Option.isSome_none, List.any_eq_false]
    intro r' hr' haddr
    have hhandle : r'.handle = r.handle := by
      refine h.placed.apart (h.addr_mem_ref (hsub r' hr')).1 ?_
      rw [beq_iff_eq.mp haddr]
      exact (h.addr_mem_ref hr).1
    have hmem : r' ∈ new.refs := hrefs ▸ List.mem_filter.mpr ⟨hr', beq_iff_eq.mpr hhandle⟩
    rw [Holding.mem_refs_iff, hnone] at hmem
    cases hmem
  · rw [hsome, Option.isSome_some, List.any_eq_true]
    refine ⟨r, ?_, beq_self_eq_true r.addr⟩
    have hmem : r ∈ new.refs := Holding.mem_refs_iff.mpr hsome
    rw [← hrefs] at hmem
    exact (List.mem_filter.mp hmem).1

/-- Whether it was the last handle of a weak reference. -/
theorem lastWeak_eq (h : u.Agrees d p) {refs' : List BinderRef} {weaks' : List WeakBinderRef}
    (hw : (p k).weakRef = some w) (hheld : Held refs' weaks' (Function.update p k new))
    (hsubRefs : ∀ r' ∈ refs', r' ∈ u.refs) (hsubWeaks : ∀ w' ∈ weaks', w' ∈ u.weaks)
    (hnew : new.weakRef = none ∨ new.weakRef = some w) :
    lastWeak ⟨u.dev, refs', weaks'⟩ w = new.weakRef.isNone := by
  have hrefs := hheld.refs k
  have hweaks := hheld.weaks k
  have haddr : w.addr ∈ (Holding.addrs ∘ p) k := by simp [Holding.addrs, hw]
  rw [Function.update_self] at hrefs hweaks
  rcases hnew with hnone | hsome
  · obtain rfl := Holding.eq_nothing hnone
    have hnoWeak : (weaks'.any fun w' => w'.addr == w.addr) = false := by
      rw [List.any_eq_false]
      intro w' hw' heq
      have hid : w'.id = k := by
        refine h.placed.apart (h.addr_mem_weak (hsubWeaks w' hw')) ?_
        rwa [beq_iff_eq.mp heq]
      have hmem : w' ∈ weaks'.filter (fun w => w.id == k) :=
        List.mem_filter.mpr ⟨hw', beq_iff_eq.mpr hid⟩
      rw [hweaks] at hmem
      cases hmem
    have hnoRef : (refs'.any fun r => r.weak.addr == w.addr) = false := by
      rw [List.any_eq_false]
      intro r' hr' heq
      have hid : r'.handle = k := by
        refine h.placed.apart (h.addr_mem_ref (hsubRefs r' hr')).2 ?_
        rwa [beq_iff_eq.mp heq]
      have hmem : r' ∈ refs'.filter (fun r => r.handle == k) :=
        List.mem_filter.mpr ⟨hr', beq_iff_eq.mpr hid⟩
      rw [hrefs] at hmem
      cases hmem
    rw [lastWeak, hnoWeak, hnoRef]
    rfl
  · rw [hsome, Option.isNone_some, lastWeak, Bool.and_eq_false_iff, Bool.not_eq_false',
      Bool.not_eq_false', List.any_eq_true, List.any_eq_true]
    cases new with
    | nothing => cases hsome
    | weak w' n =>
      cases hsome
      refine Or.inl ⟨w, ?_, beq_self_eq_true w.addr⟩
      have hmem : w ∈ (Holding.weak w n).weaks := List.mem_cons_self
      rw [← hweaks] at hmem
      exact (List.mem_filter.mp hmem).1
    | strong r i m n =>
      cases hsome
      refine Or.inr ⟨r, ?_, beq_self_eq_true r.weak.addr⟩
      have hmem : r ∈ (Holding.strong r i m n).refs := List.mem_cons_self
      rw [← hrefs] at hmem
      exact (List.mem_filter.mp hmem).1

/-- A handle of a reference is dropped. -/
theorem dropRef (h : u.Agrees d p) {j : ℕ} (hj : u.refs[j]? = some r) {u' : RefUser}
    (hstep : leaveRef kernel { u with refs := u.refs.eraseIdx j } r = some u') :
    ∃ i, Follows u' d r.handle (.dropRef 0 i) := by
  have hr : r ∈ u.refs := List.mem_of_getElem? hj
  have hsub : ∀ r' ∈ u.refs.eraseIdx j, r' ∈ u.refs := fun r' => List.mem_of_mem_eraseIdx
  obtain ⟨i, m, n, hp⟩ := h.of_mem_refs hr
  have href : (p r.handle).ref = some r := by rw [hp]; rfl
  have hweak : (p r.handle).weakRef = some r.weak := by rw [hp]; rfl
  have hholds := h.holds r.handle
  rw [hp] at hholds
  refine ⟨i, ?_⟩
  dsimp only [leaveRef] at hstep
  cases m with
  | succ m =>
    have hheld : Held (u.refs.eraseIdx j) u.weaks
        (Function.update p r.handle (.strong r i m n)) := by
      refine h.held.eraseRef hj (by rw [hp]; rfl) rfl ?_
      rw [hp]
      rfl
    have hmore : ((u.refs.eraseIdx j).any fun r' => r'.addr == r.addr) = true :=
      h.any_refs hr hheld hsub (Or.inr rfl)
    rw [if_pos hmore] at hstep
    cases hstep
    exact h.putHandles (RemoteHandle.goes_dropRef (h.idle _) hholds) rfl rfl href hweak hheld
  | zero =>
    cases n with
    | succ n =>
      have hheld : Held (u.refs.eraseIdx j) u.weaks
          (Function.update p r.handle (.weak r.weak n)) := by
        refine h.held.eraseRef hj (by rw [hp]; rfl) rfl ?_
        rw [hp]
        rfl
      rw [if_neg (by rw [h.any_refs hr hheld hsub (Or.inl rfl)]; exact Bool.false_ne_true),
        h.lastWeak_eq hweak hheld hsub (fun _ hw => hw) (Or.inr rfl)] at hstep
      obtain ⟨dev', hdrop, rfl⟩ := Option.map_eq_some_iff.mp hstep
      obtain ⟨dev₁, hunmade, hsame, -⟩ := BinderRef.drop_spec hdrop
        ((h.refs_at r.handle).trans href) ((h.weakRefs_at r.handle).trans hweak)
      obtain rfl : dev' = dev₁ := hsame rfl
      refine h.put (by
        rw [hp]
        exact RemoteHandle.goes_dropRef_last (h.idle _) hholds) (Nat.le_succ _) ?_ ?_ ?_ ?_ hheld
        ?_ ?_
      · exact hunmade.refs
      · rw [h.update_weakRefs hweak]
        exact hunmade.weakRefs
      · rw [hunmade.written, hp]
        rfl
      · intro w w' hw hw'
        rw [hweak] at hw
        exact Option.some.inj (hw.symm.trans hw')
      · exact h.filed.keep hunmade.deathCounter hunmade.deathNotifications (by rw [hp]; rfl)
      · have hnodup := h.placed.nodup r.handle
        have hbelow := h.placed.below (h.addr_mem_ref hr).2
        have halive := h.alive_weakRef hweak
        simp only [Function.comp_apply, hp, Holding.addrs, Holding.ref, Holding.weakRef,
          Option.toList_some, List.map_cons, List.map_nil, List.cons_append, List.nil_append,
          List.nodup_cons, List.mem_singleton] at hnodup
        rw [hunmade.nextAddr, hunmade.alive]
        refine h.placed.update r.handle (Nat.le_refl _) (List.nodup_singleton _) ?_ ?_
        · intro a ha
          obtain rfl := List.mem_singleton.mp ha
          refine ⟨?_, hbelow, Or.inl (h.addr_mem_ref hr).2⟩
          rw [Function.update_of_ne (Ne.symm hnodup.1)]
          exact halive
        · intro a _ hforeign halive
          have hne : a ≠ r.addr := by
            rintro rfl
            exact hforeign (h.addr_mem_ref hr).1
          rw [Function.update_of_ne hne]
          exact halive
    | zero =>
      have hheld : Held (u.refs.eraseIdx j) u.weaks (Function.update p r.handle .nothing) := by
        refine h.held.eraseRef hj (by rw [hp]; rfl) rfl ?_
        rw [hp]
        rfl
      rw [if_neg (by rw [h.any_refs hr hheld hsub (Or.inl rfl)]; exact Bool.false_ne_true),
        h.lastWeak_eq hweak hheld hsub (fun _ hw => hw) (Or.inl rfl)] at hstep
      obtain ⟨dev', hdrop, rfl⟩ := Option.map_eq_some_iff.mp hstep
      obtain ⟨dev₁, hunmade, -, hbehind⟩ := BinderRef.drop_spec hdrop
        ((h.refs_at r.handle).trans href) ((h.weakRefs_at r.handle).trans hweak)
      have hthen := hbehind rfl
      refine h.put (by
        rw [hp]
        exact RemoteHandle.goes_dropRef_both (h.idle _) hholds) (Nat.le_succ _) ?_ ?_ ?_ ?_ hheld
        ?_ ?_
      · rw [hthen.refs, hunmade.refs]
        rfl
      · rw [hthen.weakRefs, hunmade.weakRefs]
        rfl
      · rw [hthen.written, hunmade.written, hp, List.append_assoc, List.append_assoc]
        rfl
      · intro w w' _ hw'
        cases hw'
      · refine h.filed.unmake (hthen.deathCounter.trans hunmade.deathCounter) ?_ (by rw [hp]; rfl)
          rfl
        rw [hthen.deathNotifications, hunmade.deathNotifications]
      · rw [hthen.nextAddr, hunmade.nextAddr, hthen.alive, hunmade.alive]
        refine h.placed.update r.handle (Nat.le_refl _) List.nodup_nil (fun a ha => ?_) ?_
        · cases ha
        · intro a _ hforeign halive
          have hne : a ≠ r.addr ∧ a ≠ r.weak.addr := by
            constructor <;> rintro rfl
            · exact hforeign (h.addr_mem_ref hr).1
            · exact hforeign (h.addr_mem_ref hr).2
          rw [Function.update_of_ne hne.2, Function.update_of_ne hne.1]
          exact halive

/-- A handle of a weak reference is dropped. -/
theorem dropWeak (h : u.Agrees d p) {j : ℕ} (hj : u.weaks[j]? = some w) {u' : RefUser}
    (hstep : leaveWeak kernel { u with weaks := u.weaks.eraseIdx j } w = some u') :
    Follows u' d w.id (.dropWeak 0 w.deathNotifCookie.toNat) := by
  have hw : w ∈ u.weaks := List.mem_of_getElem? hj
  have hsub : ∀ w' ∈ u.weaks.eraseIdx j, w' ∈ u.weaks := fun w' => List.mem_of_mem_eraseIdx
  have hmem := h.held.mem_weaks hw
  have hholds := h.holds w.id
  have hweak := Holding.weakRef_of_mem hmem
  dsimp only [leaveWeak] at hstep
  by_cases hlast : p w.id = .weak w 0
  · have hheld : Held u.refs (u.weaks.eraseIdx j) (Function.update p w.id .nothing) := by
      refine h.held.eraseWeak hj (n := 0) (by rw [hlast]; rfl) ?_ rfl
      rw [hlast]
      rfl
    rw [h.lastWeak_eq hweak hheld (fun _ hr => hr) hsub (Or.inl rfl)] at hstep
    obtain ⟨dev', hdrop, rfl⟩ := Option.map_eq_some_iff.mp hstep
    have hunmade := WeakBinderRef.drop_spec hdrop ((h.weakRefs_at w.id).trans hweak)
    rw [hlast] at hholds
    refine h.put (by
      rw [hlast]
      exact RemoteHandle.goes_dropWeak_last (h.idle _) hholds) (Nat.le_succ _) ?_ ?_ ?_ ?_ hheld
      ?_ ?_
    · rw [h.update_refs (by rw [hlast]; rfl)]
      exact hunmade.refs
    · exact hunmade.weakRefs
    · rw [hunmade.written, hlast, List.append_assoc]
      rfl
    · intro w' w'' _ hw''
      cases hw''
    · exact h.filed.unmake hunmade.deathCounter hunmade.deathNotifications (by rw [hlast]; rfl) rfl
    · rw [hunmade.nextAddr, hunmade.alive]
      refine h.placed.update w.id (Nat.le_refl _) List.nodup_nil (fun a ha => ?_) ?_
      · cases ha
      · intro a _ hforeign halive
        have hne : a ≠ w.addr := by
          rintro rfl
          exact hforeign (h.addr_mem_weak hw)
        rw [Function.update_of_ne hne]
        exact halive
  · obtain ⟨q, hp, hq⟩ : ∃ q : Holding, p w.id = q.consWeak ∧ q.weakRef = some w := by
      cases hp : p w.id with
      | nothing =>
        rw [hp] at hweak
        cases hweak
      | weak w' n =>
        rw [hp] at hweak
        cases hweak
        cases n with
        | zero => exact absurd hp hlast
        | succ n => exact ⟨.weak w n, rfl, rfl⟩
      | strong r i m n =>
        rw [hp] at hweak hmem
        cases hweak
        cases n with
        | zero => cases hmem
        | succ n => exact ⟨.strong r i m n, rfl, rfl⟩
    obtain ⟨hqref, hqweak, hqrefs, hqweaks⟩ := Holding.consWeak_spec hq
    have hall : ∃ n, q.weaks = List.replicate n w := by
      cases q with
      | nothing => exact ⟨0, rfl⟩
      | weak w' n | strong r i m n =>
        cases hq
        exact ⟨_, rfl⟩
    obtain ⟨n, hn⟩ := hall
    rw [hp] at hholds hmem
    have hheld : Held u.refs (u.weaks.eraseIdx j) (Function.update p w.id q) := by
      refine h.held.eraseWeak hj (n := n) ?_ ?_ hn
      · rw [hp, hqweaks, hn]
        rfl
      · rw [hp, hqrefs]
    rw [h.lastWeak_eq hweak hheld (fun _ hr => hr) hsub (Or.inr hq), hq] at hstep
    cases hstep
    refine h.putHandles (RemoteHandle.goes_dropWeak (h.idle _) hholds hmem hq) rfl rfl ?_ ?_ hheld
    · rw [hp, hqref]
    · rw [hp, hqweak]

end Agrees

/-! ## Programs -/

/-- The operation of thread `0` that a call is, and the handle that it is at. -/
inductive Performs (u : RefUser) : RefCall → UInt32 → HandleAction → Prop
  | decodeRef (k : UInt32) : Performs u (.decodeRef k) k (.decodeRef 0)
  | decodeWeak (k : UInt32) : Performs u (.decodeWeak k) k (.decodeWeak 0)
  | cloneRef {j : ℕ} {r : BinderRef} (hj : u.refs[j]? = some r) (i : ℕ) :
    Performs u (.cloneRef j) r.handle (.cloneRef i)
  | cloneWeak {j : ℕ} {w : WeakBinderRef} (hj : u.weaks[j]? = some w) :
    Performs u (.cloneWeak j) w.id (.cloneWeak w.deathNotifCookie.toNat)
  | downgrade {j : ℕ} {r : BinderRef} (hj : u.refs[j]? = some r) (i : ℕ) :
    Performs u (.downgrade j) r.handle (.downgrade i)
  | upgrade {j : ℕ} {w : WeakBinderRef} (hj : u.weaks[j]? = some w) :
    Performs u (.upgrade j) w.id (.upgrade w.deathNotifCookie.toNat)
  | dropRef {j : ℕ} {r : BinderRef} (hj : u.refs[j]? = some r) (i : ℕ) :
    Performs u (.dropRef j) r.handle (.dropRef 0 i)
  | dropWeak {j : ℕ} {w : WeakBinderRef} (hj : u.weaks[j]? = some w) :
    Performs u (.dropWeak j) w.id (.dropWeak 0 w.deathNotifCookie.toNat)

/-- What thread `0` does in a program: for each call its operation, without interruption. -/
inductive Uninterrupted (kernel : KernelWrite) :
    RefUser → List RefCall → List (UInt32 × HandleAction) → Prop
  | nil (u : RefUser) : Uninterrupted kernel u [] []
  | cons {u u' : RefUser} {call : RefCall} {calls : List RefCall} {k : UInt32} {a : HandleAction}
      {acts : List (UInt32 × HandleAction)} (n : ℕ) (hstep : u.step kernel call = some u')
      (ha : u.Performs call k a) (hrest : Uninterrupted kernel u' calls acts) :
    Uninterrupted kernel u (call :: calls)
      ((a :: List.replicate n (.go 0)).map (Prod.mk k) ++ acts)

section Programs

variable {kernel : KernelWrite} {u u' : RefUser} {d : RemoteRefs} {p : UInt32 → Holding}
  {calls : List RefCall} {addr : Addr}

/-- **Step.** A call is an operation of one thread without interruption, at one handle. -/
theorem Agrees.step (h : u.Agrees d p) (hbound : d.deathCounter + 1 < 2 ^ 64) {call : RefCall}
    (hstep : u.step kernel call = some u') :
    ∃ k a, u.Performs call k a ∧ u'.Follows d k a := by
  cases call with
  | decodeRef k =>
    obtain ⟨x, hx, rfl⟩ := Option.map_eq_some_iff.mp hstep
    exact ⟨k, _, .decodeRef k, h.decodeRef hbound hx⟩
  | decodeWeak k =>
    obtain ⟨x, hx, rfl⟩ := Option.map_eq_some_iff.mp hstep
    exact ⟨k, _, .decodeWeak k, h.decodeWeak hbound hx⟩
  | cloneRef j =>
    obtain ⟨r, hr, rfl⟩ := Option.map_eq_some_iff.mp hstep
    obtain ⟨i, hi⟩ := h.cloneRef (List.mem_of_getElem? hr)
    exact ⟨_, _, .cloneRef hr i, hi⟩
  | cloneWeak j =>
    obtain ⟨w, hw, rfl⟩ := Option.map_eq_some_iff.mp hstep
    exact ⟨_, _, .cloneWeak hw, h.cloneWeak (List.mem_of_getElem? hw)⟩
  | downgrade j =>
    obtain ⟨r, hr, rfl⟩ := Option.map_eq_some_iff.mp hstep
    obtain ⟨i, hi⟩ := h.downgrade (List.mem_of_getElem? hr)
    exact ⟨_, _, .downgrade hr i, hi⟩
  | upgrade j =>
    obtain ⟨w, hw, rfl⟩ := Option.map_eq_some_iff.mp hstep
    exact ⟨_, _, .upgrade hw, h.upgrade (List.mem_of_getElem? hw)⟩
  | dropRef j =>
    obtain ⟨r, hr, hleave⟩ := Option.bind_eq_some_iff.mp hstep
    obtain ⟨i, hi⟩ := h.dropRef hr hleave
    exact ⟨_, _, .dropRef hr i, hi⟩
  | dropWeak j =>
    obtain ⟨w, hw, hleave⟩ := Option.bind_eq_some_iff.mp hstep
    exact ⟨_, _, .dropWeak hw, h.dropWeak hw hleave⟩

/-- **Run.** A program is a run of the device on which threads interleave. -/
theorem Agrees.exec (h : u.Agrees d p) (hbound : d.deathCounter + calls.length < 2 ^ 64)
    (hrun : Run.exec (RefUser.step kernel) u calls = some u') :
    ∃ acts d' p', Uninterrupted kernel u calls acts ∧
      Run.exec RemoteRefs.step d acts = some d' ∧ u'.Agrees d' p' := by
  induction calls generalizing u d p with
  | nil =>
    cases hrun
    exact ⟨[], d, p, .nil _, rfl, h⟩
  | cons call calls ih =>
    obtain ⟨u₁, hcall, hrest⟩ := exec_cons_eq_some.mp hrun
    rw [List.length_cons] at hbound
    obtain ⟨k, a, ha, n, d₁, p₁, hd₁, hagrees, hdrawn⟩ := h.step (by omega) hcall
    obtain ⟨acts, d', p', hacts, hd', hagrees'⟩ := ih hagrees (by omega) hrest
    exact ⟨_, d', p', .cons n hcall ha hacts, exec_append_eq_some.mpr ⟨d₁, hd₁, hd'⟩, hagrees'⟩

/-- **Programs interleave.** Whatever a thread calls on a device that was just opened, as long as
the counter of cookies does not wrap: its calls are operations of one thread of the device on which
threads interleave, each without interruption, and they lead to the same. `refs` and `weak_refs`
have entries for the same handles and those of `weak_refs` have the same cookies, there are as many
handles of references, the same commands were written for every handle, and tokens are filed under
the same cookies. So what holds of every interleaving holds of every program. -/
theorem program_interleaves (hlength : calls.length + 1 < 2 ^ 64)
    (h : Run.exec (step kernel) (new addr) calls = some u) :
    ∃ acts d, Uninterrupted kernel (new addr) calls acts ∧
      Run.exec RemoteRefs.step .new acts = some d ∧ (∀ t, (d.phase t).2 = .idle) ∧
      (∀ k, (u.dev.refs k).isSome = (d.refs k).isSome ∧
        (u.dev.weakRefs k).map (fun w => w.deathNotifCookie.toNat) = d.weakRefs k ∧
        (u.refs.filter fun r => r.handle == k).length = (d.refArcs k).length ∧
        ((u.weaks.filter fun w => w.id == k).map fun w => w.deathNotifCookie.toNat) =
          d.weakArcs k ∧
        u.dev.written.filter (·.isFor k) = d.written k) ∧
      ∀ v, (u.dev.deathNotifications v).isSome = (d.deathNotifications v.toNat).isSome := by
  have hbound : RemoteRefs.new.deathCounter + calls.length < 2 ^ 64 := by
    rw [Nat.add_comm]
    exact hlength
  obtain ⟨acts, d, p, hacts, hd, hagrees⟩ := (agrees_new addr).exec hbound h
  refine ⟨acts, d, hacts, hd, hagrees.rested.idle, fun k => ?_, hagrees.filed.tokens⟩
  have hholds := hagrees.holds k
  refine ⟨?_, ?_, ?_, ?_, hagrees.written k⟩
  · rw [show d.refs k = _ from hholds.refs, hagrees.refs_at k]
    cases p k <;> rfl
  · rw [show d.weakRefs k = _ from hholds.weakRefs, hagrees.weakRefs_at k]
    rfl
  · rw [show d.refArcs k = _ from hholds.refArcs, hagrees.held.refs k]
    cases p k with
    | nothing | weak w n => rfl
    | strong r i m n => exact (List.length_replicate ..).trans (List.length_replicate ..).symm
  · rw [show d.weakArcs k = _ from hholds.weakArcs, hagrees.held.weaks k]
    rfl

/-- A program on a device where the kernel takes every command: two handles are decoded, the first
is downgraded, dropped and decoded again with the weak reference, the second is cloned and dropped
twice. -/
def decodedTwice : List RefCall :=
  [.decodeRef 7, .downgrade 0, .dropRef 0, .upgrade 0, .decodeRef 7, .decodeRef 8, .cloneRef 0,
    .dropRef 0, .dropRef 0]

/-- The thread has the second reference to the first handle and the weak reference that it had
before; nothing of the second handle is left. -/
theorem program_interleaves_decodedTwice :
    ∃ u, Run.exec (step fun _ _ => none) (new 0) decodedTwice = some u ∧ u.refs.length = 1 ∧
      ∃ acts d, Uninterrupted (fun _ _ => none) (new 0) decodedTwice acts ∧
        Run.exec RemoteRefs.step .new acts = some d ∧ d.weakRefs 7 = some 1 ∧
        d.weakRefs 8 = none ∧ (d.written 7).length = 5 := by
  obtain ⟨u, hrun, hlength, hseven, height, hwritten⟩ :
      ∃ u, Run.exec (step fun _ _ => none) (new 0) decodedTwice = some u ∧ u.refs.length = 1 ∧
        (u.dev.weakRefs 7).map (fun w => w.deathNotifCookie.toNat) = some 1 ∧
        (u.dev.weakRefs 8).map (fun w => w.deathNotifCookie.toNat) = none ∧
        (u.dev.written.filter (·.isFor 7)).length = 5 := ⟨_, rfl, rfl, rfl, rfl, rfl⟩
  obtain ⟨acts, d, hacts, hd, -, hsame, -⟩ := program_interleaves (by decide) hrun
  refine ⟨u, hrun, hlength, acts, d, hacts, hd, ?_, ?_, ?_⟩
  · exact (hsame 7).2.1.symm.trans hseven
  · exact (hsame 8).2.1.symm.trans height
  · rw [← (hsame 7).2.2.2.2, hwritten]

/-- **Balance.** Behind any program that a thread runs on a device that was just opened, as long as
the counter of cookies does not wrap: `refs` points at exactly the references that the thread has, so
it has one to each handle at most, and `weak_refs` at exactly the weak references that it has itself
or in the field of a reference. For every handle, one `ACQUIRE` was not given back if it has a
reference, one `INCREFS` if it has a weak reference, and one death notification, with the cookie of
that weak reference; no two have the same cookie, and exactly their cookies have tokens. When it has
none, the maps are empty and everything was given back.

**Proof sketch.** What the thread has at every handle is described by numbers, call by call; maps,
commands and tokens follow from these. -/
theorem program_balanced (hlength : calls.length + 1 < 2 ^ 64)
    (h : Run.exec (step kernel) (new addr) calls = some u) :
    (∀ k r, u.dev.refs k = some r ↔ r ∈ u.refs ∧ r.handle = k) ∧
    (∀ k w, u.dev.weakRefs k = some w ↔
      w.id = k ∧ (w ∈ u.weaks ∨ ∃ r ∈ u.refs, r.weak = w)) ∧
    (∀ k, u.dev.written.count (.acquire k) =
        u.dev.written.count (.release k) + (u.dev.refs k).toList.length ∧
      u.dev.written.count (.increfs k) =
        u.dev.written.count (.decrefs k) + (u.dev.weakRefs k).toList.length ∧
      ∀ v, u.dev.written.count (.requestDeathNotification k v) =
        u.dev.written.count (.clearDeathNotification k v) +
          (u.dev.weakRefs k).toList.countP fun w => w.deathNotifCookie == v) ∧
    (∀ k k' w w', u.dev.weakRefs k = some w → u.dev.weakRefs k' = some w' →
      w.deathNotifCookie = w'.deathNotifCookie → k = k') ∧
    ∀ v, (u.dev.deathNotifications v).isSome = true ↔
      ∃ k w, u.dev.weakRefs k = some w ∧ w.deathNotifCookie = v := by
  have hbound : RemoteRefs.new.deathCounter + calls.length < 2 ^ 64 := by
    rw [Nat.add_comm]
    exact hlength
  obtain ⟨acts, d, p, -, -, hagrees⟩ := (agrees_new addr).exec hbound h
  have hcookies : ∀ k w, u.dev.weakRefs k = some w →
      w.deathNotifCookie.toNat ∈ (Holding.cookies ∘ p) k := by
    intro k w hw
    rw [hagrees.weakRefs_at k] at hw
    simp [Holding.cookies, Holding.cookie, hw]
  refine ⟨fun k r => ⟨fun hr => ?_, ?_⟩, fun k w => ⟨fun hw => ?_, ?_⟩,
    fun k => ⟨?_, ?_, fun v => ?_⟩, fun k k' w w' hw hw' heq => ?_, fun v => ?_⟩
  · refine ⟨?_, (u.dev.refs_keyed k r hr).2⟩
    rw [hagrees.refs_at k] at hr
    exact hagrees.held.of_mem_refs (Holding.mem_refs_iff.mpr hr)
  · rintro ⟨hr, rfl⟩
    obtain ⟨i, m, n, hp⟩ := hagrees.of_mem_refs hr
    rw [hagrees.refs_at, hp]
    rfl
  · refine ⟨(u.dev.weakRefs_keyed k w hw).2, ?_⟩
    rw [hagrees.weakRefs_at k] at hw
    cases hp : p k with
    | nothing =>
      rw [hp] at hw
      cases hw
    | weak w' n =>
      rw [hp] at hw
      cases hw
      refine Or.inl (hagrees.held.of_mem_weaks (k := k) ?_)
      rw [hp]
      exact List.mem_cons_self
    | strong r i m n =>
      rw [hp] at hw
      cases hw
      refine Or.inr ⟨r, hagrees.held.of_mem_refs (k := k) ?_, rfl⟩
      rw [hp]
      exact List.mem_cons_self
  · rintro ⟨rfl, hw | ⟨r, hr, rfl⟩⟩
    · rw [hagrees.weakRefs_at]
      exact Holding.weakRef_of_mem (hagrees.held.mem_weaks hw)
    · obtain ⟨i, m, n, hp⟩ := hagrees.of_mem_refs hr
      rw [hagrees.weakRefs_at, ← BinderRef.handle, hp]
      rfl
  · rw [hagrees.refs_at k]
    exact (hagrees.balanced k).acquired
  · rw [hagrees.weakRefs_at k]
    exact (hagrees.balanced k).increfed
  · rw [hagrees.weakRefs_at k, (hagrees.balanced k).requested v, Holding.cookies, Holding.cookie]
    cases (p k).weakRef with
    | none => rfl
    | some w => simp [List.count_cons, UInt64.toNat_inj]
  · exact hagrees.filed.cookies.apart (hcookies k w hw) (heq ▸ hcookies k' w' hw')
  · rw [hagrees.filed.filed v]
    constructor
    · rintro ⟨k, hk⟩
      cases hw : (p k).weakRef with
      | none => simp [Holding.cookies, Holding.cookie, hw] at hk
      | some w =>
        refine ⟨k, w, (hagrees.weakRefs_at k).trans hw, ?_⟩
        simp only [Function.comp_apply, Holding.cookies, Holding.cookie, hw, Option.map_some,
          Option.toList_some, List.mem_singleton, UInt64.toNat_inj] at hk
        exact hk.symm
    · rintro ⟨k, w, hw, rfl⟩
      exact ⟨k, hcookies k w hw⟩

/-- Of the two references to the first handle one is dropped, and the kernel has one count for it;
the weak reference has been the same all the time. -/
theorem program_balanced_decodedTwice :
    ∃ u, Run.exec (step fun _ _ => none) (new 0) decodedTwice = some u ∧
      u.dev.written.count (.release 7) = 1 ∧ u.dev.written.count (.acquire 7) = 2 ∧
      u.dev.written.count (.increfs 7) = u.dev.written.count (.decrefs 7) + 1 ∧
      u.dev.written.count (.increfs 8) = u.dev.written.count (.decrefs 8) ∧
      u.dev.deathNotifications 2 = none := by
  obtain ⟨u, hrun, hreleased, hseven, hweak, height, hall⟩ :
      ∃ u, Run.exec (step fun _ _ => none) (new 0) decodedTwice = some u ∧
        u.dev.written.count (.release 7) = 1 ∧ (u.dev.refs 7).toList.length = 1 ∧
        (u.dev.weakRefs 7).toList.length = 1 ∧ u.dev.weakRefs 8 = none ∧
        u.dev.deathNotifications 2 = none := ⟨_, rfl, rfl, rfl, rfl, rfl, rfl⟩
  obtain ⟨-, -, hcounts, -, -⟩ := program_balanced (by decide) hrun
  refine ⟨u, hrun, hreleased, ?_, ?_, ?_, hall⟩
  · rw [(hcounts 7).1, hreleased, hseven]
  · rw [(hcounts 7).2.1, hweak]
  · rw [(hcounts 8).2.1, height]
    rfl

end Programs

end RefUser

end BinderBinder
