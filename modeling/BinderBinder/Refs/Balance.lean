import BinderBinder.Lib.Run
import BinderBinder.Refs.WeakLedger

set_option relaxedAutoImplicit false
set_option autoImplicit false

/-!
# What the kernel holds for a handle

The strong counts, weak counts and death notifications that a device has taken for a handle and not
given back, over every run of any number of threads. They are those of the references that are
alive, or that a thread is still making or already dropping.

## Main definitions

* `RemoteHandle.HoldsStrong`, `RemoteHandle.HoldsWeak` — a reference stands for a count of the kernel.
* `RemoteHandle.AtRest` — no thread is in the middle of anything, and no user has a handle.
* `RemoteHandle.Clean` — everything was given back, and the maps hold nothing.

## Main results

* `RemoteHandle.strong_counts`, `RemoteHandle.weak_counts` — the counts that the kernel holds.
* `RemoteHandle.death_requests` — each cookie is requested once, and cleared behind its last handle.
* `RemoteHandle.nothing_leaks` — what is left when all handles are gone.
-/

namespace BinderBinder

open Run

/-- Numbers below 2^64 are told apart by their 64 bits. -/
theorem ofNat_inj {m n : ℕ} (hm : m < 2 ^ 64) (hn : n < 2 ^ 64)
    (h : UInt64.ofNat m = UInt64.ofNat n) : m = n := by
  have hnat := congrArg UInt64.toNat h
  rwa [UInt64.toNat_ofNat_of_lt' hm, UInt64.toNat_ofNat_of_lt' hn] at hnat

namespace RemoteHandle

/-- A reference stands for a strong count: it is alive, or a thread has written its `ACQUIRE` and not
inserted it yet, or has dropped its last handle and not written its `RELEASE` yet. -/
def HoldsStrong (s : RemoteHandle) (i : ℕ) : Prop :=
  s.RefAlive i ∨ ∃ t, s.phase t = .insertingRef i ∨ s.phase t = .releasing i

/-- A weak reference stands for a weak count: it is alive, or a thread has written its `INCREFS` and
not inserted it yet, or has dropped its last handle and not written its `DECREFS` yet. -/
def HoldsWeak (s : RemoteHandle) (c : ℕ) : Prop :=
  s.WeakAlive c ∨ ∃ t, (∃ forRef, s.phase t = .requesting forRef c ∨
    s.phase t = .insertingWeak forRef c) ∨ s.phase t = .clearing c ∨
      s.phase t = .removingToken c ∨ s.phase t = .decrefs c

/-- No thread is in the middle of anything, and no user has a handle. -/
structure AtRest (s : RemoteHandle) : Prop where
  idle : ∀ t, s.phase t = .idle
  refArcs : s.refArcs = []
  weakArcs : s.weakArcs = []

/-- There are ledgers for every state that a run leads to. -/
theorem exists_ledgers {handle : UInt32} {as : List HandleAction} {s : RemoteHandle}
    (h : exec step (new handle) as = some s) : ∃ p q, s.RefLedger p ∧ s.WeakLedger q := by
  have hrefs : ∃ p, s.RefLedger p := exec_invariant (I := fun s => ∃ p, s.RefLedger p)
    (fun ⟨_, hp⟩ hstep => hp.step hstep) ⟨_, refLedger_new handle⟩ h
  have hweaks : ∃ q, s.WeakLedger q := exec_invariant (I := fun s => ∃ q, s.WeakLedger q)
    (fun ⟨_, hq⟩ hstep => (hq.step hstep).imp fun _ hq' => hq'.1) ⟨_, weakLedger_new handle⟩ h
  obtain ⟨p, hp⟩ := hrefs
  obtain ⟨q, hq⟩ := hweaks
  exact ⟨p, q, hp, hq⟩

namespace RefLedger

variable {s : RemoteHandle} {p : Stations ℕ}

/-- Between `ACQUIRE` and `RELEASE`, a reference stands for a strong count. -/
theorem holdsStrong_iff (hs : s.RefLedger p) (i : ℕ) :
    s.HoldsStrong i ↔ 1 < p.place i ∧ p.place i ≤ 4 := by
  have hmade : ∀ q : RefPhase, q.refAt = some (i, 2) ↔ q = .insertingRef i := by
    intro q
    cases q <;> simp [RefPhase.refAt]
  have hdropped : ∀ q : RefPhase, q.refAt = some (i, 4) ↔ q = .releasing i := by
    intro q
    cases q <;> simp [RefPhase.refAt]
  have htwo := hs.tracked.place_eq_iff (k := i) (n := 2) (by decide)
  have hfour := hs.tracked.place_eq_iff (k := i) (n := 4) (by decide)
  simp only [Function.comp_apply, hmade] at htwo
  simp only [Function.comp_apply, hdropped] at hfour
  rw [HoldsStrong, hs.tracked.alive i, exists_or, ← htwo, ← hfour]
  omega

/-- The field of a reference that stands for a strong count is a handle of a weak reference. -/
theorem exists_field (hs : s.RefLedger p) {i : ℕ} (h : s.HoldsStrong i) :
    ∃ c, (i, c) ∈ s.weakFields ∧ s.WeakAlive c := by
  have hplace := (hs.holdsStrong_iff i).mp h
  have hfield := (hs.field i).mpr ⟨by omega, by omega⟩
  obtain ⟨⟨j, c⟩, hc, rfl⟩ := List.mem_map.mp hfield
  exact ⟨c, hc, weakAlive_iff.mpr (Or.inr ⟨j, hc⟩)⟩

/-- The `ACQUIRE`s without a `RELEASE` are one for each reference that stands for a strong count. -/
theorem exists_holders (hs : s.RefLedger p) :
    ∃ holders : List ℕ, holders.Nodup ∧ (∀ i, i ∈ holders ↔ s.HoldsStrong i) ∧
      s.acquired = s.released + holders.length := by
  obtain ⟨between, hnodup, hmem, hlength⟩ := hs.tracked.kept.exists_between (m := 1) (n := 4) (by omega)
  refine ⟨between, hnodup, fun i => ?_, ?_⟩
  · rw [hmem i, hs.holdsStrong_iff i]
  · rw [hs.acquired, hs.released, hlength]

end RefLedger

/-- Between `INCREFS` and `DECREFS`, a weak reference stands for a weak count. -/
theorem WeakLedger.holdsWeak_iff {s : RemoteHandle} {p : Stations ℕ} (hs : s.WeakLedger p) (c : ℕ) :
    s.HoldsWeak c ↔ 2 < p.place c ∧ p.place c ≤ 8 := by
  have hwhere : ∀ n, ¬ WeakRest n → (p.place c = n ↔ ∃ t, (s.phase t).weakAt = some (c, n)) :=
    fun n hn => hs.tracked.place_eq_iff hn
  have hmade : ∀ q : RefPhase, (∃ forRef, q = .requesting forRef c ∨ q = .insertingWeak forRef c) ↔
      q.weakAt = some (c, 3) ∨ q.weakAt = some (c, 4) := by
    intro q
    cases q <;> simp [RefPhase.weakAt]
  have hdropped : ∀ q : RefPhase, q = .clearing c ∨ q = .removingToken c ∨ q = .decrefs c ↔
      q.weakAt = some (c, 6) ∨ q.weakAt = some (c, 7) ∨ q.weakAt = some (c, 8) := by
    intro q
    cases q <;> simp [RefPhase.weakAt]
  simp only [HoldsWeak, hmade, hdropped, exists_or]
  rw [hs.tracked.alive c, ← hwhere 3 (by decide), ← hwhere 4 (by decide), ← hwhere 6 (by decide),
    ← hwhere 7 (by decide), ← hwhere 8 (by decide)]
  omega

namespace WeakLedger

variable {s : RemoteHandle} {q : Stations ℕ}

/-- As long as the counter of cookies has not wrapped, those that were drawn are told apart by their
64 bits. -/
theorem ofNat_inj (hs : s.WeakLedger q) (hcounter : s.deathCounter ≤ 2 ^ 64) {c d : ℕ}
    (hc : q.place c ≠ 0) (hd : q.place d ≠ 0) (h : UInt64.ofNat c = UInt64.ofNat d) : c = d :=
  BinderBinder.ofNat_inj (Nat.lt_of_lt_of_le (hs.tracked.lt_next hc) hcounter)
    (Nat.lt_of_lt_of_le (hs.tracked.lt_next hd) hcounter) h

/-- So no station has the same 64 bits twice in its log. -/
theorem nodup_log (hs : s.WeakLedger q) (hcounter : s.deathCounter ≤ 2 ^ 64) (n : ℕ) :
    ((q.log n).reverse.map UInt64.ofNat).Nodup := by
  have hplace : ∀ {c}, c ∈ (q.log n).reverse → q.place c ≠ 0 := by
    intro c hc
    rw [List.mem_reverse, hs.tracked.kept.mem_log] at hc
    omega
  exact List.Nodup.map_on (fun c hc d hd => hs.ofNat_inj hcounter (hplace hc) (hplace hd))
    (List.nodup_reverse.mpr (hs.tracked.kept.nodup n))

/-- No cookie is requested or cleared twice; that of a weak reference that is alive, or of the
registration, was requested and not cleared. -/
theorem requests_apart (hs : s.WeakLedger q) (hcounter : s.deathCounter ≤ 2 ^ 64) :
    s.requestedCookies.Nodup ∧ s.clearedCookies.Nodup ∧
      ∀ c, s.WeakAlive c ∨ s.registered = some c →
        UInt64.ofNat c ∈ s.requestedCookies ∧ UInt64.ofNat c ∉ s.clearedCookies := by
  rw [hs.requested, hs.cleared]
  refine ⟨hs.nodup_log hcounter 3, hs.nodup_log hcounter 6, fun c hc => ?_⟩
  have hplace : 3 < q.place c ∧ q.place c < 7 := by
    rcases hc with halive | hregistered
    · have hfive := (hs.tracked.alive c).mp halive
      omega
    · exact hs.registered c hregistered
  refine ⟨List.mem_map_of_mem ?_, fun hmem => ?_⟩
  · rw [List.mem_reverse, hs.tracked.kept.mem_log]
    exact hplace.1
  · obtain ⟨d, hd, heq⟩ := List.mem_map.mp hmem
    rw [List.mem_reverse, hs.tracked.kept.mem_log] at hd
    obtain rfl := hs.ofNat_inj hcounter (by omega) (by omega) heq
    omega

end WeakLedger

/-- **The strong counts of a handle.** The kernel holds one for each reference that stands for one, so
no `RELEASE` is written that does not give back an earlier `ACQUIRE`.

**Proof sketch.** The threads move references over the stations of their lives in order, and the
commands that were written are the logs of two of the stations. -/
theorem strong_counts {handle : UInt32} {as : List HandleAction} {s : RemoteHandle}
    (h : exec step (new handle) as = some s) :
    ∃ holders : List ℕ, holders.Nodup ∧ (∀ i, i ∈ holders ↔ s.HoldsStrong i) ∧
      s.acquired = s.released + holders.length := by
  obtain ⟨p, -, hp, -⟩ := exists_ledgers h
  exact hp.exists_holders

/-- A thread decodes the handle. -/
def decoded : List HandleAction := .decodeRef 0 :: List.replicate 9 (.go 0)

/-- Then the reference stands for the one strong count. -/
theorem strong_counts_decoded :
    ∃ s, exec step (new 7) decoded = some s ∧ s.acquired = 1 ∧ s.released = 0 ∧
      ∃ holders : List ℕ, holders.Nodup ∧ (∀ i, i ∈ holders ↔ s.HoldsStrong i) ∧
        s.acquired = s.released + holders.length := by
  obtain ⟨s, hrun, hacquired, hreleased⟩ :
      ∃ s, exec step (new 7) decoded = some s ∧ s.acquired = 1 ∧ s.released = 0 :=
    ⟨_, rfl, rfl, rfl⟩
  exact ⟨s, hrun, hacquired, hreleased, strong_counts hrun⟩

/-- **The weak counts of a handle.** The kernel holds one for each weak reference that stands for one,
and never a strong count without a weak one. -/
theorem weak_counts {handle : UInt32} {as : List HandleAction} {s : RemoteHandle}
    (h : exec step (new handle) as = some s) :
    (∃ holders : List ℕ, holders.Nodup ∧ (∀ c, c ∈ holders ↔ s.HoldsWeak c) ∧
      s.increfed = s.decrefed + holders.length) ∧
    (∀ i, s.HoldsStrong i → ∃ c, (i, c) ∈ s.weakFields ∧ s.HoldsWeak c) ∧
    (s.released < s.acquired → s.decrefed < s.increfed) := by
  obtain ⟨p, q, hp, hq⟩ := exists_ledgers h
  obtain ⟨between, hnodup, hmem, hlength⟩ := hq.tracked.kept.exists_between (m := 2) (n := 8) (by omega)
  have hholders : ∀ c, c ∈ between ↔ s.HoldsWeak c := fun c => by rw [hmem c, hq.holdsWeak_iff c]
  have hcounts : s.increfed = s.decrefed + between.length := by rw [hq.increfed, hq.decrefed, hlength]
  have hfield : ∀ i, s.HoldsStrong i → ∃ c, (i, c) ∈ s.weakFields ∧ s.HoldsWeak c := by
    intro i hi
    obtain ⟨c, hc, halive⟩ := hp.exists_field hi
    exact ⟨c, hc, Or.inl halive⟩
  refine ⟨⟨between, hnodup, hholders, hcounts⟩, hfield, fun hstrong => ?_⟩
  obtain ⟨holders, -, hmem', hcounts'⟩ := hp.exists_holders
  obtain ⟨i, hi⟩ : ∃ i, i ∈ holders := List.exists_mem_of_length_pos (by omega)
  obtain ⟨c, -, hc⟩ := hfield i ((hmem' i).mp hi)
  have hpos : 0 < between.length := List.length_pos_of_mem ((hholders c).mpr hc)
  omega

/-- A thread has decoded the handle and writes the `RELEASE` for it, while another thread decodes it
again: it finds the weak reference alive. -/
def decodedAgain : List HandleAction :=
  decoded ++ [.dropRef 0 0, .go 0] ++ .decodeRef 1 :: List.replicate 4 (.go 1)

/-- Then two strong counts were taken under one weak count, and one of them was given back. -/
theorem weak_counts_decodedAgain :
    ∃ s, exec step (new 7) decodedAgain = some s ∧ s.acquired = 2 ∧ s.released = 1 ∧ s.increfed = 1 ∧
      s.decrefed < s.increfed := by
  obtain ⟨s, hrun, hacquired, hreleased, hincrefed⟩ :
      ∃ s, exec step (new 7) decodedAgain = some s ∧ s.acquired = 2 ∧ s.released = 1 ∧
        s.increfed = 1 := ⟨_, rfl, rfl, rfl, rfl⟩
  exact ⟨s, hrun, hacquired, hreleased, hincrefed, (weak_counts hrun).2.2 (by omega)⟩

/-- **The death notifications of a handle.** Every notification that is cleared was requested, under a
weak count that is given back only behind that. As long as the counter of cookies has not wrapped,
no cookie is requested or cleared twice, and the cookie of a weak reference that is alive was
requested and not cleared; the kernel has no registration but one that can still be cleared. -/
theorem death_requests {handle : UInt32} {as : List HandleAction} {s : RemoteHandle}
    (h : exec step (new handle) as = some s) :
    s.decrefed ≤ s.clearedCookies.length ∧ s.clearedCookies.length ≤ s.requestedCookies.length ∧
      s.requestedCookies.length ≤ s.increfed ∧ s.clearedCookies ⊆ s.requestedCookies ∧
      (s.deathCounter ≤ 2 ^ 64 → s.requestedCookies.Nodup ∧ s.clearedCookies.Nodup ∧
        ∀ c, s.WeakAlive c ∨ s.registered = some c →
          UInt64.ofNat c ∈ s.requestedCookies ∧ UInt64.ofNat c ∉ s.clearedCookies) := by
  obtain ⟨-, q, -, hq⟩ := exists_ledgers h
  have hkept := hq.tracked.kept
  have hrequested : s.requestedCookies.length = (q.log 3).length := by simp [hq.requested]
  have hcleared : s.clearedCookies.length = (q.log 6).length := by simp [hq.cleared]
  refine ⟨?_, ?_, ?_, ?_, hq.requests_apart⟩
  · rw [hq.decrefed, hcleared]
    exact hkept.length_le (by omega)
  · rw [hrequested, hcleared]
    exact hkept.length_le (by omega)
  · rw [hrequested, hq.increfed]
    exact hkept.length_le (by omega)
  · rw [hq.requested, hq.cleared]
    apply List.map_subset
    intro c hc
    rw [List.mem_reverse] at hc ⊢
    exact hkept.log_subset (by omega) hc

/-- In the same run, one notification is requested and none is cleared. -/
theorem death_requests_decodedAgain :
    ∃ s, exec step (new 7) decodedAgain = some s ∧ s.requestedCookies = [1] ∧
      s.clearedCookies ⊆ s.requestedCookies ∧ 1 ∉ s.clearedCookies := by
  obtain ⟨s, hrun, hrequested, hcounter, hregistered⟩ :
      ∃ s, exec step (new 7) decodedAgain = some s ∧ s.requestedCookies = [1] ∧
        s.deathCounter = 2 ∧ s.registered = some 1 := ⟨_, rfl, rfl, rfl, rfl⟩
  obtain ⟨-, -, -, hsubset, hcookies⟩ := death_requests hrun
  obtain ⟨-, -, hcookie⟩ := hcookies (by rw [hcounter]; decide)
  exact ⟨s, hrun, hrequested, hsubset, (hcookie 1 (Or.inr hregistered)).2⟩

/-- A reference that is neither alive nor worked on is not made yet, or is through all stations. -/
theorem RefLedger.done {s : RemoteHandle} {p : Stations ℕ} (hs : s.RefLedger p) (hrest : s.AtRest)
    (i : ℕ) : p.place i = 0 ∨ 7 ≤ p.place i := by
  have hplace := hs.tracked.rest_of_idle (fun t => congrArg RefPhase.refAt (hrest.idle t)) i
  have hdead : p.place i ≠ 3 := by
    rw [ne_eq, ← hs.tracked.alive i, refAlive_iff, hrest.refArcs]
    exact List.not_mem_nil
  unfold RefRest at hplace
  omega

/-- Then its field is gone. -/
theorem RefLedger.fields_eq_nil {s : RemoteHandle} {p : Stations ℕ} (hs : s.RefLedger p)
    (hrest : s.AtRest) : s.weakFields = [] := by
  rw [← List.map_eq_nil_iff (f := Prod.fst), List.eq_nil_iff_forall_not_mem]
  intro i hi
  have hfield := (hs.field i).mp hi
  have hplace := hs.done hrest i
  omega

/-- A weak reference without a handle is not made yet, or is through all stations. -/
theorem WeakLedger.done {s : RemoteHandle} {q : Stations ℕ} (hs : s.WeakLedger q) (hrest : s.AtRest)
    (hdead : ∀ c, ¬ s.WeakAlive c) (c : ℕ) : q.place c = 0 ∨ 9 ≤ q.place c := by
  have hplace := hs.tracked.rest_of_idle (fun t => congrArg RefPhase.weakAt (hrest.idle t)) c
  have hfive : q.place c ≠ 5 := fun h5 => hdead c ((hs.tracked.alive c).mpr h5)
  unfold WeakRest at hplace
  omega

/-- Everything that was taken from the kernel was given back, and the maps hold nothing. -/
structure Clean (s : RemoteHandle) : Prop where
  acquired : s.acquired = s.released
  increfed : s.increfed = s.decrefed
  requested : s.requestedCookies.length = s.clearedCookies.length
  registered : s.registered = none
  refs : s.refs = none
  weakRefs : s.weakRefs = none
  token : ∀ c, s.deathNotifications c = none
  weakFields : s.weakFields = []

/-- **At rest.** What is at rest is clean.

**Proof sketch.** Every reference is through all stations or was not made; then its field is gone,
which was the last handle of its weak reference. -/
theorem AtRest.clean {handle : UInt32} {as : List HandleAction} {s : RemoteHandle}
    (hrest : s.AtRest) (h : exec step (new handle) as = some s) : s.Clean := by
  obtain ⟨p, q, hp, hq⟩ := exists_ledgers h
  have hdead : ∀ c, ¬ s.WeakAlive c := by
    intro c hc
    rw [weakAlive_iff, hrest.weakArcs, hp.fields_eq_nil hrest] at hc
    simp at hc
  have hdone := hp.done hrest
  have hgone := hq.done hrest hdead
  refine ⟨?_, ?_, ?_, ?_, ?_, ?_, fun c => ?_, hp.fields_eq_nil hrest⟩
  · rw [hp.acquired, hp.released]
    exact hp.tracked.kept.length_eq (by omega) fun i => by have hplace := hdone i; omega
  · rw [hq.increfed, hq.decrefed]
    exact hq.tracked.kept.length_eq (by omega) fun c => by have hplace := hgone c; omega
  · rw [hq.requested, hq.cleared]
    simp only [List.length_map, List.length_reverse]
    exact hq.tracked.kept.length_eq (by omega) fun c => by have hplace := hgone c; omega
  · rw [Option.eq_none_iff_forall_ne_some]
    intro c hc
    have hregistered := hq.registered c hc
    have hplace := hgone c
    omega
  · rw [Option.eq_none_iff_forall_ne_some]
    intro i hi
    have hmapped := hp.mapped i hi
    have hplace := hdone i
    omega
  · rw [Option.eq_none_iff_forall_ne_some]
    intro c hc
    rcases hq.mapped c hc with halive | ⟨t, ht⟩
    · exact hdead c halive
    · rw [hrest.idle t] at ht
      cases ht
  · by_contra htoken
    have hplace := hq.token c htoken
    have hplace' := hgone c
    omega

/-- **Nothing leaks.** When no thread is in the middle of anything and no user has a handle, then
everything that was taken from the kernel was given back, and the maps of the device hold nothing
for the handle. -/
theorem nothing_leaks {handle : UInt32} {as : List HandleAction} {s : RemoteHandle}
    (h : exec step (new handle) as = some s) (hrest : s.AtRest) :
    s.acquired = s.released ∧ s.increfed = s.decrefed ∧
      s.requestedCookies.length = s.clearedCookies.length ∧ s.registered = none ∧
      s.refs = none ∧ s.weakRefs = none ∧ (∀ c, s.deathNotifications c = none) ∧
      s.weakFields = [] := by
  have hclean := hrest.clean h
  exact ⟨hclean.acquired, hclean.increfed, hclean.requested, hclean.registered, hclean.refs,
    hclean.weakRefs, hclean.token, hclean.weakFields⟩

/-- A thread decodes the handle and drops what it got. -/
def decodedAndDropped : List HandleAction :=
  decoded ++ .dropRef 0 0 :: List.replicate 7 (.go 0)

/-- Then nothing is left of the handle. -/
theorem nothing_leaks_decodedAndDropped :
    ∃ s, exec step (new 7) decodedAndDropped = some s ∧ s.acquired = 1 ∧ s.acquired = s.released ∧
      s.refs = none ∧ s.weakRefs = none ∧ s.deathNotifications 1 = none := by
  obtain ⟨s, hrun, hacquired, hidle, hrefs, hweaks⟩ :
      ∃ s, exec step (new 7) decodedAndDropped = some s ∧ s.acquired = 1 ∧
        (∀ t, s.phase t = .idle) ∧ s.refArcs = [] ∧ s.weakArcs = [] :=
    ⟨_, rfl, rfl, fun t => by cases t <;> rfl, rfl, rfl⟩
  obtain ⟨hcounts, -, -, -, hmap, hweakMap, htokens, -⟩ := nothing_leaks hrun ⟨hidle, hrefs, hweaks⟩
  exact ⟨s, hrun, hacquired, hcounts, hmap, hweakMap, htokens 1⟩

end RemoteHandle

end BinderBinder
