import BinderBinder.BinderObject

set_option relaxedAutoImplicit false
set_option autoImplicit false

/-!
# What the functions on references do to a device

A decode finds the reference of its handle or makes one; the drop of a reference or of a weak
reference that a map points at takes it out of the map. What each of them leaves behind is said
field by field.

## Main definitions

* `BinderDevice.MadeWeak`, `BinderDevice.MadeRef` — the device behind what a decode makes.
* `BinderDevice.UnmadeWeak`, `BinderDevice.UnmadeRef` — the device behind a drop.

## Main results

* `WeakBinderRef.getAndDedupFromRaw_found`, `WeakBinderRef.getAndDedupFromRaw_made`,
  `BinderRef.getAndDedupFromRaw_found`, `BinderRef.getAndDedupFromRaw_made` — a decode.
* `WeakBinderRef.drop_spec`, `BinderRef.drop_spec` — a drop.
-/

namespace BinderBinder

section Functions

variable {kernel : KernelWrite} {dev dev' : BinderDevice} {handle : UInt32}

namespace BinderDevice

/-- A weak reference `w` was made for a handle; its token was allocated before it. -/
structure MadeWeak (dev dev' : BinderDevice) (handle : UInt32) (w : WeakBinderRef) : Prop where
  addr : w.addr = dev.nextAddr + 1
  id : w.id = handle
  cookie : w.deathNotifCookie = dev.deathCounter
  deathCounter : dev'.deathCounter = dev.deathCounter + 1
  refs : dev'.refs = dev.refs
  weakRefs : dev'.weakRefs = dev.weakRefs.insert handle w
  deathNotifications :
    dev'.deathNotifications = dev.deathNotifications.insert dev.deathCounter dev.nextAddr
  alive : dev'.alive =
    Function.update (Function.update dev.alive dev.nextAddr true) (dev.nextAddr + 1) true
  nextAddr : dev'.nextAddr = dev.nextAddr + 1 + 1
  written : dev'.written =
    dev.written ++ [.increfs handle] ++ [.requestDeathNotification handle dev.deathCounter]

/-- A reference `r` was made with the weak reference `w`. -/
structure MadeRef (dev dev' : BinderDevice) (w : WeakBinderRef) (r : BinderRef) : Prop where
  addr : r.addr = dev.nextAddr
  weak : r.weak = w
  deathCounter : dev'.deathCounter = dev.deathCounter
  refs : dev'.refs = dev.refs.insert w.id r
  weakRefs : dev'.weakRefs = dev.weakRefs
  deathNotifications : dev'.deathNotifications = dev.deathNotifications
  alive : dev'.alive = Function.update dev.alive dev.nextAddr true
  nextAddr : dev'.nextAddr = dev.nextAddr + 1
  written : dev'.written = dev.written ++ [.acquire w.id]

/-- A weak reference was dropped, which `weak_refs` pointed at. -/
structure UnmadeWeak (dev dev' : BinderDevice) (w : WeakBinderRef) : Prop where
  deathCounter : dev'.deathCounter = dev.deathCounter
  refs : dev'.refs = dev.refs
  weakRefs : dev'.weakRefs = dev.weakRefs.remove w.id
  deathNotifications : dev'.deathNotifications = dev.deathNotifications.remove w.deathNotifCookie
  alive : dev'.alive = Function.update dev.alive w.addr false
  nextAddr : dev'.nextAddr = dev.nextAddr
  written : dev'.written =
    dev.written ++ [.clearDeathNotification w.id w.deathNotifCookie] ++ [.decrefs w.id]

/-- A reference was dropped, which `refs` pointed at, but for its field. -/
structure UnmadeRef (dev dev' : BinderDevice) (r : BinderRef) : Prop where
  deathCounter : dev'.deathCounter = dev.deathCounter
  refs : dev'.refs = dev.refs.remove r.handle
  weakRefs : dev'.weakRefs = dev.weakRefs
  deathNotifications : dev'.deathNotifications = dev.deathNotifications
  alive : dev'.alive = Function.update dev.alive r.addr false
  nextAddr : dev'.nextAddr = dev.nextAddr
  written : dev'.written = dev.written ++ [.release r.handle]

/-- What `weak_refs` points at is found if it is alive. -/
theorem upgradeWeakRef_eq {w : WeakBinderRef} (hw : dev.weakRefs handle = some w)
    (halive : dev.alive w.addr = true) :
    ∃ port, dev.upgradeWeakRef handle = some port ∧ port.1 = w := by
  unfold upgradeWeakRef
  split
  · next hnone =>
    rw [hw] at hnone
    cases hnone
  · next w' hw' =>
    obtain rfl := Option.some.inj (hw.symm.trans hw')
    exact ⟨_, if_pos halive, rfl⟩

/-- What `refs` points at is found if it is alive. -/
theorem upgradeRef_eq {r : BinderRef} (hr : dev.refs handle = some r)
    (halive : dev.alive r.addr = true) :
    ∃ port, dev.upgradeRef handle = some port ∧ port.1 = r := by
  unfold upgradeRef
  split
  · next hnone =>
    rw [hr] at hnone
    cases hnone
  · next r' hr' =>
    obtain rfl := Option.some.inj (hr.symm.trans hr')
    exact ⟨_, if_pos halive, rfl⟩

/-- Where `weak_refs` has no entry, nothing is found. -/
theorem upgradeWeakRef_eq_none (hw : dev.weakRefs handle = none) :
    dev.upgradeWeakRef handle = none := by
  unfold upgradeWeakRef
  split
  · rfl
  · next w hw' =>
    rw [hw] at hw'
    cases hw'

/-- Where `refs` has no entry, nothing is found. -/
theorem upgradeRef_eq_none (hr : dev.refs handle = none) : dev.upgradeRef handle = none := by
  unfold upgradeRef
  split
  · rfl
  · next r hr' =>
    rw [hr] at hr'
    cases hr'

end BinderDevice

/-- A decode of a weak reference that is found. -/
theorem WeakBinderRef.getAndDedupFromRaw_found {w : WeakBinderRef}
    {x : { r : WeakBinderRef // r.id = handle } × BinderDevice}
    (h : getAndDedupFromRaw kernel dev handle = some x) (hw : dev.weakRefs handle = some w)
    (halive : dev.alive w.addr = true) : x.1.1 = w ∧ x.2 = dev := by
  obtain ⟨port, hport, rfl⟩ := BinderDevice.upgradeWeakRef_eq hw halive
  rw [getAndDedupFromRaw, hport] at h
  cases h
  exact ⟨rfl, rfl⟩

/-- A decode of a weak reference that is made. -/
theorem WeakBinderRef.getAndDedupFromRaw_made
    {x : { r : WeakBinderRef // r.id = handle } × BinderDevice}
    (h : getAndDedupFromRaw kernel dev handle = some x) (hw : dev.weakRefs handle = none) :
    dev.MadeWeak x.2 handle x.1.1 := by
  rw [getAndDedupFromRaw, BinderDevice.upgradeWeakRef_eq_none hw] at h
  simp only [Option.bind_eq_bind, Option.bind_eq_some_iff,
    BinderDevice.writeCommand_eq_some] at h
  obtain ⟨dev₁, ⟨-, rfl⟩, dev₂, ⟨-, rfl⟩, hr⟩ := h
  cases hr
  exact ⟨rfl, rfl, rfl, rfl, rfl, rfl, rfl, rfl, rfl, rfl⟩

/-- A decode of a reference that is found. -/
theorem BinderRef.getAndDedupFromRaw_found {r : BinderRef} {x : BinderRef × BinderDevice}
    (h : getAndDedupFromRaw kernel dev handle = some x) (hr : dev.refs handle = some r)
    (halive : dev.alive r.addr = true) : x.1 = r ∧ x.2 = dev := by
  obtain ⟨port, hport, rfl⟩ := BinderDevice.upgradeRef_eq hr halive
  rw [getAndDedupFromRaw, hport] at h
  cases h
  exact ⟨rfl, rfl⟩

/-- A decode of a reference that is made, with a weak reference that is decoded. -/
theorem BinderRef.getAndDedupFromRaw_made {x : BinderRef × BinderDevice}
    (h : getAndDedupFromRaw kernel dev handle = some x) (hr : dev.refs handle = none) :
    ∃ y, WeakBinderRef.getAndDedupFromRaw kernel dev handle = some y ∧
      y.2.MadeRef x.2 y.1.1 x.1 := by
  rw [getAndDedupFromRaw, BinderDevice.upgradeRef_eq_none hr] at h
  simp only [Option.bind_eq_bind, Option.bind_eq_some_iff,
    BinderDevice.writeCommand_eq_some] at h
  obtain ⟨⟨⟨w, rfl⟩, dev₁⟩, hw, dev₂, ⟨-, rfl⟩, hr⟩ := h
  cases hr
  exact ⟨_, hw, rfl, rfl, rfl, rfl, rfl, rfl, rfl, rfl, rfl⟩

/-- `Drop for WeakBinderRef`. -/
theorem WeakBinderRef.drop_spec {w : WeakBinderRef} (h : w.drop kernel dev = some dev')
    (hw : dev.weakRefs w.id = some w) : dev.UnmadeWeak dev' w := by
  simp only [drop, Option.bind_eq_bind, Option.bind_eq_some_iff,
    BinderDevice.writeCommand_eq_some] at h
  obtain ⟨dev₁, ⟨-, rfl⟩, dev₂, ⟨-, rfl⟩, hr⟩ := h
  rw [BinderDevice.evictWeakRef, if_pos (by simp [BinderDevice.release, hw])] at hr
  cases hr
  exact ⟨rfl, rfl, rfl, rfl, rfl, rfl, rfl⟩

/-- `Drop for BinderRef`, and the drop of its field behind it. -/
theorem BinderRef.drop_spec {r : BinderRef} {lastWeak : Bool}
    (h : r.drop kernel dev lastWeak = some dev') (hr : dev.refs r.handle = some r)
    (hw : dev.weakRefs r.weak.id = some r.weak) :
    ∃ dev₁, dev.UnmadeRef dev₁ r ∧
      (lastWeak = false → dev' = dev₁) ∧ (lastWeak = true → dev₁.UnmadeWeak dev' r.weak) := by
  simp only [drop, Option.bind_eq_bind, Option.bind_eq_some_iff,
    BinderDevice.writeCommand_eq_some] at h
  obtain ⟨dev₁, ⟨-, rfl⟩, hrest⟩ := h
  have hunmade : dev.UnmadeRef (BinderDevice.evictRef { dev.release r.addr with
      written := (dev.release r.addr).written ++ [.release r.handle] } r.handle) r := by
    rw [BinderDevice.evictRef, if_pos (by simp [BinderDevice.release, hr])]
    exact ⟨rfl, rfl, rfl, rfl, rfl, rfl, rfl⟩
  refine ⟨_, hunmade, fun hmore => ?_, fun hlast => ?_⟩
  · subst hmore
    exact (Option.some.inj hrest).symm
  · subst hlast
    exact WeakBinderRef.drop_spec hrest (hunmade.weakRefs ▸ hw)

end Functions

end BinderBinder
