import BinderBinder.Lib.Allocation
import BinderBinder.Lib.Table
import BinderBinder.Refs.Holding

set_option relaxedAutoImplicit false
set_option autoImplicit false

/-!
# Calls of one thread

A thread decodes handles, clones, upgrades, downgrades and drops references, each call run to its
end. Which references it has determines what it has at each handle, and the tokens that are filed.

## Main definitions

* `RefUser`, `RefUser.step` — a device and the references that a thread has, and its calls.
* `Held` — the references that the thread has, handle by handle.
* `Filed` — the tokens of death notifications, and the cookies they are filed under.

## Main results

* `Held.consRef`, `Held.eraseRef`, `Held.consWeak`, `Held.eraseWeak` — a handle more or less.
* `Filed.make`, `Filed.unmake` — a weak reference is made or dropped.
-/

namespace BinderBinder

open Run

/-! ## The calls -/

/-- A decode of a handle, or a clone, an upgrade, a downgrade or a drop of the `j`-th reference or
weak reference that the thread has. -/
inductive RefCall
  | decodeRef (handle : UInt32)
  | decodeWeak (handle : UInt32)
  | cloneRef (j : ℕ)
  | cloneWeak (j : ℕ)
  | downgrade (j : ℕ)
  | upgrade (j : ℕ)
  | dropRef (j : ℕ)
  | dropWeak (j : ℕ)
  deriving DecidableEq, Repr

/-- A device, and each `Arc` of a reference or of a weak reference that the thread has. -/
structure RefUser where
  dev : BinderDevice
  refs : List BinderRef
  weaks : List WeakBinderRef

namespace RefUser

/-- A device that was just opened. -/
def new (addr : Addr) : RefUser := ⟨.new addr, [], []⟩

/-- Nothing points at the weak reference any more, the fields `weak` included. -/
def lastWeak (u : RefUser) (w : WeakBinderRef) : Bool :=
  !(u.weaks.any fun w' => w'.addr == w.addr) && !(u.refs.any fun r => r.weak.addr == w.addr)

/-- An `Arc<BinderRef>` was given up: the last one drops the reference. -/
def leaveRef (kernel : KernelWrite) (u : RefUser) (r : BinderRef) : Option RefUser :=
  if u.refs.any fun r' => r'.addr == r.addr then some u
  else (r.drop kernel u.dev (u.lastWeak r.weak)).map fun dev => { u with dev }

/-- An `Arc<WeakBinderRef>` was given up: the last one drops the weak reference. -/
def leaveWeak (kernel : KernelWrite) (u : RefUser) (w : WeakBinderRef) : Option RefUser :=
  if u.lastWeak w then (w.drop kernel u.dev).map fun dev => { u with dev } else some u

/-- One call; `none` if it panics, or if the thread has no such reference. -/
def step (kernel : KernelWrite) (u : RefUser) : RefCall → Option RefUser
  | .decodeRef handle => (BinderRef.getAndDedupFromRaw kernel u.dev handle).map fun x =>
      ⟨x.2, x.1 :: u.refs, u.weaks⟩
  | .decodeWeak handle => (WeakBinderRef.getAndDedupFromRaw kernel u.dev handle).map fun x =>
      ⟨x.2, u.refs, x.1.1 :: u.weaks⟩
  | .cloneRef j => u.refs[j]?.map fun r => { u with refs := r :: u.refs }
  | .cloneWeak j => u.weaks[j]?.map fun w => { u with weaks := w :: u.weaks }
  | .downgrade j => u.refs[j]?.map fun r => { u with weaks := r.weak :: u.weaks }
  | .upgrade j => u.weaks[j]?.map fun w =>
      { u with refs := ((u.dev.upgradeRef w.id).map Subtype.val).toList ++ u.refs }
  | .dropRef j => u.refs[j]?.bind fun r => leaveRef kernel { u with refs := u.refs.eraseIdx j } r
  | .dropWeak j => u.weaks[j]?.bind fun w =>
      leaveWeak kernel { u with weaks := u.weaks.eraseIdx j } w

end RefUser

/-! ## The references of the thread -/

/-- What a thread has at each handle is what it has of it. -/
structure Held (refs : List BinderRef) (weaks : List WeakBinderRef) (p : UInt32 → Holding) :
    Prop where
  refs : ∀ k, refs.filter (fun r => r.handle == k) = (p k).refs
  weaks : ∀ k, weaks.filter (fun w => w.id == k) = (p k).weaks

namespace Held

variable {refs refs' : List BinderRef} {weaks weaks' : List WeakBinderRef} {p : UInt32 → Holding}
  {k : UInt32} {new : Holding} {r : BinderRef} {w : WeakBinderRef} {j : ℕ}

/-- A reference that the thread has. -/
theorem mem_refs (h : Held refs weaks p) (hr : r ∈ refs) : r ∈ (p r.handle).refs := by
  rw [← h.refs, List.mem_filter]
  exact ⟨hr, beq_self_eq_true _⟩

/-- A weak reference that the thread has. -/
theorem mem_weaks (h : Held refs weaks p) (hw : w ∈ weaks) : w ∈ (p w.id).weaks := by
  rw [← h.weaks, List.mem_filter]
  exact ⟨hw, beq_self_eq_true _⟩

/-- And back. -/
theorem of_mem_refs (h : Held refs weaks p) (hr : r ∈ (p k).refs) : r ∈ refs := by
  rw [← h.refs] at hr
  exact (List.mem_filter.mp hr).1

/-- And back. -/
theorem of_mem_weaks (h : Held refs weaks p) (hw : w ∈ (p k).weaks) : w ∈ weaks := by
  rw [← h.weaks] at hw
  exact (List.mem_filter.mp hw).1

/-- At one handle it is something else, and the same at the others. -/
theorem update (h : Held refs weaks p)
    (hrefs : refs'.filter (fun r => r.handle == k) = new.refs)
    (hweaks : weaks'.filter (fun w => w.id == k) = new.weaks)
    (hrefs' : ∀ k' ≠ k, refs'.filter (fun r => r.handle == k') =
      refs.filter (fun r => r.handle == k'))
    (hweaks' : ∀ k' ≠ k, weaks'.filter (fun w => w.id == k') =
      weaks.filter (fun w => w.id == k')) :
    Held refs' weaks' (Function.update p k new) := by
  constructor <;>
  · intro k'
    by_cases hk : k' = k
    · subst hk
      rw [Function.update_self]
      first | exact hrefs | exact hweaks
    · rw [Function.update_of_ne hk]
      first | exact (hrefs' k' hk).trans (h.refs k') | exact (hweaks' k' hk).trans (h.weaks k')

/-- One handle more of a reference. -/
theorem consRef (h : Held refs weaks p) (hrefs : new.refs = r :: (p r.handle).refs)
    (hweaks : new.weaks = (p r.handle).weaks) :
    Held (r :: refs) weaks (Function.update p r.handle new) := by
  refine h.update ?_ ((h.weaks _).trans hweaks.symm) (fun k' hk => ?_) fun _ _ => rfl
  · rw [List.filter_cons, if_pos (beq_self_eq_true r.handle), h.refs, hrefs]
  · exact List.filter_cons_of_neg (by simpa using hk.symm)

/-- One handle more of a weak reference. -/
theorem consWeak (h : Held refs weaks p) (hrefs : new.refs = (p w.id).refs)
    (hweaks : new.weaks = w :: (p w.id).weaks) :
    Held refs (w :: weaks) (Function.update p w.id new) := by
  refine h.update ((h.refs _).trans hrefs.symm) ?_ (fun _ _ => rfl) fun k' hk => ?_
  · rw [List.filter_cons, if_pos (beq_self_eq_true w.id), h.weaks, hweaks]
  · exact List.filter_cons_of_neg (by simpa using hk.symm)

/-- One handle less of a reference. -/
theorem eraseRef (h : Held refs weaks p) (hj : refs[j]? = some r) {m : ℕ}
    (hold : (p r.handle).refs = List.replicate (m + 1) r) (hrefs : new.refs = List.replicate m r)
    (hweaks : new.weaks = (p r.handle).weaks) :
    Held (refs.eraseIdx j) weaks (Function.update p r.handle new) := by
  refine h.update ?_ ((h.weaks _).trans hweaks.symm) (fun k' hk => ?_) fun _ _ => rfl
  · rw [hrefs]
    exact Table.filter_eraseIdx_of_replicate hj (beq_self_eq_true r.handle) ((h.refs _).trans hold)
  · exact Table.filter_eraseIdx_of_not hj (by simpa using hk.symm)

/-- One handle less of a weak reference. -/
theorem eraseWeak (h : Held refs weaks p) (hj : weaks[j]? = some w) {n : ℕ}
    (hold : (p w.id).weaks = List.replicate (n + 1) w) (hrefs : new.refs = (p w.id).refs)
    (hweaks : new.weaks = List.replicate n w) :
    Held refs (weaks.eraseIdx j) (Function.update p w.id new) := by
  refine h.update ((h.refs _).trans hrefs.symm) ?_ (fun _ _ => rfl) fun k' hk => ?_
  · rw [hweaks]
    exact Table.filter_eraseIdx_of_replicate hj (beq_self_eq_true w.id) ((h.weaks _).trans hold)
  · exact Table.filter_eraseIdx_of_not hj (by simpa using hk.symm)

end Held

/-! ## The tokens of death notifications -/

/-- The tokens are filed under the cookies of the weak references that the thread has, on both
devices. -/
structure Filed (dev : BinderDevice) (counter : ℕ) (tokens : DashMap ℕ ℕ)
    (p : UInt32 → Holding) : Prop where
  drawn : dev.deathCounter.toNat = counter
  tokens : ∀ v, (dev.deathNotifications v).isSome = (tokens v.toNat).isSome
  cookies : Allocation.Sound (Holding.cookies ∘ p) (fun _ => True) counter
  filed : ∀ v, (dev.deathNotifications v).isSome = true ↔ ∃ k, v.toNat ∈ (Holding.cookies ∘ p) k

namespace Filed

variable {dev dev' : BinderDevice} {counter : ℕ} {tokens : DashMap ℕ ℕ} {p : UInt32 → Holding}
  {k : UInt32} {new : Holding}

/-- No weak reference is made or dropped. -/
theorem keep (h : Filed dev counter tokens p) (hcounter : dev'.deathCounter = dev.deathCounter)
    (htokens : dev'.deathNotifications = dev.deathNotifications)
    (hnew : new.cookies = (p k).cookies) :
    Filed dev' counter tokens (Function.update p k new) := by
  have hsame : Holding.cookies ∘ Function.update p k new = Holding.cookies ∘ p := by
    rw [Function.comp_update, hnew]
    exact Function.update_eq_self k (Holding.cookies ∘ p)
  refine ⟨hcounter ▸ h.drawn, fun v => ?_, hsame ▸ h.cookies, fun v => ?_⟩
  · rw [htokens]
    exact h.tokens v
  · rw [htokens, hsame]
    exact h.filed v

/-- A weak reference is made. -/
theorem make (h : Filed dev counter tokens p) (hbound : counter + 1 < 2 ^ 64) {token : Addr}
    (hcounter : dev'.deathCounter = dev.deathCounter + 1)
    (htokens : dev'.deathNotifications = dev.deathNotifications.insert dev.deathCounter token)
    (hold : (p k).cookies = []) (hnew : new.cookies = [counter]) :
    Filed dev' (counter + 1) (tokens.insert counter counter) (Function.update p k new) := by
  have hself : ∀ {v : Usize}, v = dev.deathCounter ↔ v.toNat = counter := by
    intro v
    rw [← h.drawn, UInt64.toNat_inj]
  have hwhere : ∀ v : Usize, (∃ k', v.toNat ∈ (Holding.cookies ∘ Function.update p k new) k') ↔
      v.toNat = counter ∨ ∃ k', v.toNat ∈ (Holding.cookies ∘ p) k' := by
    intro v
    rw [Function.comp_update, hnew]
    constructor
    · rintro ⟨k', hk'⟩
      by_cases hk : k' = k
      · subst hk
        rw [Function.update_self, List.mem_singleton] at hk'
        exact Or.inl hk'
      · rw [Function.update_of_ne hk] at hk'
        exact Or.inr ⟨k', hk'⟩
    · rintro (hv | ⟨k', hk'⟩)
      · exact ⟨k, by rw [Function.update_self, hv, List.mem_singleton]⟩
      · refine ⟨k', ?_⟩
        rw [Function.update_of_ne]
        · exact hk'
        · rintro rfl
          rw [Function.comp_apply, hold] at hk'
          cases hk'
  refine ⟨?_, fun v => ?_, ?_, fun v => ?_⟩
  · rw [hcounter, UInt64.toNat_add, h.drawn]
    exact Nat.mod_eq_of_lt hbound
  · rw [htokens]
    by_cases hv : v = dev.deathCounter
    · rw [hself.mp hv, hv, DashMap.insert_self, DashMap.insert_self]
      rfl
    · rw [DashMap.insert_of_ne _ _ hv, DashMap.insert_of_ne _ _ fun heq => hv (hself.mpr heq)]
      exact h.tokens v
  · rw [Function.comp_update]
    refine h.cookies.update k (Nat.le_succ counter) ?_ ?_ fun _ _ _ _ => trivial
    · rw [hnew]
      exact List.nodup_singleton counter
    · intro a ha
      rw [hnew, List.mem_singleton] at ha
      exact ⟨trivial, by omega, by omega⟩
  · rw [htokens, hwhere]
    by_cases hv : v = dev.deathCounter
    · rw [hv, DashMap.insert_self]
      exact ⟨fun _ => Or.inl h.drawn, fun _ => rfl⟩
    · rw [DashMap.insert_of_ne _ _ hv, h.filed, or_iff_right fun heq => hv (hself.mpr heq)]

/-- A weak reference is dropped. -/
theorem unmake (h : Filed dev counter tokens p) {cookie : Usize}
    (hcounter : dev'.deathCounter = dev.deathCounter)
    (htokens : dev'.deathNotifications = dev.deathNotifications.remove cookie)
    (hold : (p k).cookies = [cookie.toNat]) (hnew : new.cookies = []) :
    Filed dev' counter (tokens.remove cookie.toNat) (Function.update p k new) := by
  have hmine : cookie.toNat ∈ (Holding.cookies ∘ p) k := by
    rw [Function.comp_apply, hold]
    exact List.mem_singleton_self _
  have hwhere : ∀ v : Usize, (∃ k', v.toNat ∈ (Holding.cookies ∘ Function.update p k new) k') ↔
      v ≠ cookie ∧ ∃ k', v.toNat ∈ (Holding.cookies ∘ p) k' := by
    intro v
    rw [Function.comp_update, hnew]
    constructor
    · rintro ⟨k', hk'⟩
      by_cases hk : k' = k
      · subst hk
        rw [Function.update_self] at hk'
        cases hk'
      · rw [Function.update_of_ne hk] at hk'
        refine ⟨?_, k', hk'⟩
        rintro rfl
        exact hk (h.cookies.apart hk' hmine)
    · rintro ⟨hv, k', hk'⟩
      refine ⟨k', ?_⟩
      rw [Function.update_of_ne]
      · exact hk'
      · rintro rfl
        rw [Function.comp_apply, hold, List.mem_singleton, UInt64.toNat_inj] at hk'
        exact hv hk'
  refine ⟨hcounter ▸ h.drawn, fun v => ?_, ?_, fun v => ?_⟩
  · rw [htokens]
    by_cases hv : v = cookie
    · rw [hv, DashMap.remove_self, DashMap.remove_self]
    · rw [DashMap.remove_of_ne _ hv,
        DashMap.remove_of_ne _ fun heq => hv (UInt64.toNat_inj.mp heq)]
      exact h.tokens v
  · rw [Function.comp_update, hnew]
    refine h.cookies.update k (Nat.le_refl counter) List.nodup_nil (fun a ha => ?_)
      fun _ _ _ _ => trivial
    cases ha
  · rw [htokens, hwhere]
    by_cases hv : v = cookie
    · simp [hv]
    · rw [DashMap.remove_of_ne _ hv, h.filed, and_iff_right hv]

end Filed

end BinderBinder
