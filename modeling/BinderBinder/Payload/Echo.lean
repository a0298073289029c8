import BinderBinder.Payload.Blocks

set_option relaxedAutoImplicit false
set_option autoImplicit false

/-!
# Echoing a payload whose shape is announced

`echo_into` of `examples/bench.rs`, which does not drain a payload object by object as the loop of
`BinderBinder.Payload.Drain` does. The message starts with the numbers of its references and of its
descriptors; the echo reads the bytes up to the first object once, and then as many objects as it
was told, without asking for distances again.

The header is what the sender wrote, and it need not be true. On every payload the echo ends with
the bytes in front of the first object and the objects up to the first one that is not of the
announced kind; on the messages that `Client::message` builds, these are all.

## Main definitions

* `headerCounts`, `echoRefs`, `echoFds`, `echoInto` — the echo of the service.
* `Client.message` — the messages of the client.
* `Item.asked` — the objects that an echo with given counts gets through.
* `Item.Announced` — the objects are those that given counts announce.

## Main results

* `echoRefs_spec`, `echoFds_spec` — what a loop pushes, and where it leaves the reader.
* `echo_complete_iff` — what the echo of any payload holds, and when this is all.
* `echo_round_trip` — a message comes back to the client that sent it.
-/

namespace BinderBinder

/-! ## The echo -/

/-- `header_counts`: the numbers of references and of descriptors off the front of a message. -/
def headerCounts (data : List UInt8) : ℕ × ℕ :=
  if data.length < 8 then (0, 0)
  else ((Layout.u32.decode (data.take 4)).toNat, (Layout.u32.decode ((data.drop 4).take 4)).toNat)

/-- The states in which one round of the loop over the references finds the device when it reads a
handle, pushes it and drops it: other threads may change the device in between. -/
structure EchoMet where
  read : BinderDevice
  push : BinderDevice
  drop : BinderDevice

section Echo

variable (undef : ℕ → UInt32) (kernel : KernelWrite) (met : ℕ → EchoMet)

/-- The loop over the references, from round `i` on; an error is the early `return` with the builder
as it is. -/
def echoRefs : ℕ → ℕ → PayloadReader → PayloadBuilder →
    Option (Except PayloadBuilder (PayloadReader × PayloadBuilder))
  | 0, _, reader, builder => some (.ok (reader, builder))
  | n + 1, i, reader, builder => do
    let (res, reader, _) ← reader.readBinderRef kernel (met i).read
    match res with
    | .ok r =>
      let (builder, _) ← builder.pushBinderRef undef (met i).push (.erased r)
      let _ ← r.drop (met i).drop
      echoRefs n (i + 1) reader builder
    | .error _ => some (.error builder)

/-- The loop over the descriptors, with the same early `return`. -/
def echoFds : ℕ → PayloadReader → PayloadBuilder → Option PayloadBuilder
  | 0, _, builder => some builder
  | n + 1, reader, builder => do
    let (res, reader) ← reader.readFd
    match res with
    | .ok (fd, cookie) => echoFds n reader (builder.pushOwnedFd undef fd cookie)
    | .error _ => some builder

/-- `echo_into`. -/
def echoInto (reader : PayloadReader) (builder : PayloadBuilder) : Option PayloadBuilder := do
  let block ← reader.bytesUntilNextObj
  let (res, reader) ← reader.readBytes block
  match res with
  | .ok data =>
    let counts := headerCounts data
    match ← echoRefs undef kernel met counts.1 0 reader (builder.pushBytes data) with
    | .ok (reader, builder) => echoFds undef counts.2 reader builder
    | .error builder => some builder
  | .error _ => some builder

end Echo

/-- What a `Client` puts into its messages. -/
structure Client where
  replyObj : BinderObject
  devnull : Fd

/-- The loop that pushes references to an object, with the state of the device at each push. -/
def pushRefs (undef : ℕ → UInt32) (obj : BinderObject) (devs : ℕ → BinderDevice) :
    ℕ → ℕ → PayloadBuilder → Option PayloadBuilder
  | 0, _, b => some b
  | n + 1, i, b => do
    let (b, _) ← b.pushBinderRef undef (devs i) (.guard obj)
    pushRefs undef obj devs n (i + 1) b

/-- `Client::message`: `refs as u32` and `fds as u32`, the payload, the references, the
descriptors. -/
def Client.message (undef : ℕ → UInt32) (devs : ℕ → BinderDevice) (c : Client)
    (payload : List UInt8) (refs fds : ℕ) : Option PayloadBuilder := do
  let b := PayloadBuilder.new.pushBytes (Layout.u32.encode (UInt32.ofNat refs))
  let b := b.pushBytes (Layout.u32.encode (UInt32.ofNat fds))
  let b := b.pushBytes payload
  let b ← pushRefs undef c.replyObj devs refs 0 b
  return (fun b => b.pushFd undef c.devnull 0)^[fds] b

/-! ## The objects an echo gets through -/

namespace Item

/-- The objects a loop over `fds` descriptors gets through: it steps over bytes, and stops at the
first handle. -/
def askedFds : ℕ → List Item → List Item
  | n, bytes _ :: items => askedFds n items
  | n + 1, fd d cookie owned :: items => fd d cookie owned :: askedFds n items
  | _, _ => []

/-- The objects an echo gets through that is told of `refs` references and `fds` descriptors: it
steps over bytes, and stops at the first object that is not of the kind that is due. -/
def asked : ℕ → ℕ → List Item → List Item
  | 0, fds, items => askedFds fds items
  | n + 1, fds, bytes _ :: items => asked (n + 1) fds items
  | n + 1, fds, binderRef x :: items => binderRef x :: asked n fds items
  | _ + 1, _, _ => []

end Item

/-! ## What the loops get through -/

section Loops

variable {undef : ℕ → UInt32} {kernel : KernelWrite} {met : ℕ → EchoMet}

/-- The states of the device in a round are such that a handle can be read, pushed and dropped: it
can be decoded and counted, and what was counted for it is still there. -/
structure EchoMet.Serves (m : EchoMet) (addr : Addr) (x : BinderObjectOrRef) : Prop where
  addr : m.read.addr = addr
  decode : PayloadReader.CanDecode m.read x
  convert : (ToBinderObjectOrRef.erased x).CanConvert m.push
  drop : ∀ o, x = .object o → (m.drop.decreaseLocal o.id).isSome

/-- The loop over descriptors does not depend on the byte cursor. -/
theorem echoFds_moved (n k : ℕ) (r : PayloadReader) (b : PayloadBuilder) :
    echoFds undef n { r with nextDataIndex := k } b = echoFds undef n r b := by
  cases n with
  | zero => rfl
  | succ n =>
    rw [echoFds, echoFds, PayloadReader.readFd_moved]
    cases r.readFd with
    | none => rfl
    | some p =>
      obtain ⟨res, r'⟩ := p
      cases res <;> rfl

/-- The loop over descriptors pushes what it gets through. -/
theorem echoFds_spec {n : ℕ} {items done : List Item} {r : PayloadReader} {b : PayloadBuilder}
    (h : r.StandsBefore items) (hb : b.Holds done) :
    ∃ b', echoFds undef n r b = some b' ∧ b'.Holds (done ++ Item.askedFds n items) := by
  induction items generalizing n r b done with
  | nil =>
    refine ⟨b, ?_, by simpa [Item.askedFds] using hb⟩
    cases n with
    | zero => rfl
    | succ n => rw [echoFds, h.readFd_nil]; rfl
  | cons item items ih =>
    cases item with
    | bytes bs =>
      obtain ⟨b', hecho, hb'⟩ := ih (n := n) h.skip hb
      rw [echoFds_moved] at hecho
      exact ⟨b', hecho, hb'⟩
    | binderRef x =>
      refine ⟨b, ?_, by cases n <;> simpa [Item.askedFds] using hb⟩
      cases n with
      | zero => rfl
      | succ n => rw [echoFds, h.readFd_binderRef]; rfl
    | fd d cookie owned =>
      cases n with
      | zero => exact ⟨b, rfl, by simpa [Item.askedFds] using hb⟩
      | succ n =>
        obtain ⟨r', hread, hr', -⟩ := h.readFd
        have hpushed := @PayloadBuilder.Holds.pushOwnedFd undef _ _ hb d cookie owned
        obtain ⟨b', hecho, hb'⟩ := ih (n := n) hr' hpushed
        refine ⟨b', ?_, ?_⟩
        · rw [echoFds, hread]
          exact hecho
        · rw [List.append_assoc] at hb'
          exact hb'

/-- The loop over references does not depend on the byte cursor, if it goes round at all. -/
theorem echoRefs_moved (n i k : ℕ) (r : PayloadReader) (b : PayloadBuilder) :
    echoRefs undef kernel met (n + 1) i { r with nextDataIndex := k } b =
      echoRefs undef kernel met (n + 1) i r b := by
  rw [echoRefs, echoRefs, PayloadReader.readBinderRef_moved]
  cases r.readBinderRef kernel (met i).read with
  | none => rfl
  | some p =>
    obtain ⟨res, r', dev'⟩ := p
    cases res <;> rfl

/-- What a loop over references comes to, in front of the items and with some others pushed: it has
pushed what it gets through, and either stopped early or stands in front of the rest. -/
def RefsEcho (n : ℕ) (items done : List Item) :
    Except PayloadBuilder (PayloadReader × PayloadBuilder) → Prop
  | .ok (r, b) => ∃ pushed rest, r.StandsBefore rest ∧ b.Holds (done ++ pushed) ∧
      ∀ fds, Item.asked n fds items = pushed ++ Item.askedFds fds rest
  | .error b => ∀ fds, b.Holds (done ++ Item.asked n fds items)

/-- In a round whose states serve the handle, it is pushed, and the loop goes on. -/
theorem echoRefs_succ (hk : Accepts kernel) {n i : ℕ} {items done : List Item} {r : PayloadReader}
    {b : PayloadBuilder} {x : ToBinderObjectOrRef} (h : r.StandsBefore (.binderRef x :: items))
    (hb : b.Holds done) (hdev : x.handle.device = r.device)
    (hserves : (met i).Serves r.device x.handle) :
    ∃ r' b', echoRefs undef kernel met (n + 1) i r b =
        echoRefs undef kernel met n (i + 1) r' b' ∧
      r'.StandsBefore items ∧ r'.device = r.device ∧ b'.Holds (done ++ [.binderRef x]) := by
  obtain ⟨y, r', dev', hread, hy, hr', hd⟩ :=
    h.readBinderRef hk (by rw [hserves.addr, hdev]) hserves.decode
  -- what was read is counted where the handle is, as it has its id
  have hconvert := ToBinderObjectOrRef.canConvert_of_beq hy hserves.convert
  have hdrop := BinderObjectOrRef.isSome_drop_of_beq hy hserves.drop
  obtain ⟨⟨b', dev₁⟩, hpush⟩ : ∃ p, b.pushBinderRef undef (met i).push (.erased y) = some p :=
    Option.isSome_iff_exists.mp
      (@PayloadBuilder.isSome_push undef _ (.binderRef (.erased y)) b hconvert)
  obtain ⟨dev₂, hdropped⟩ := Option.isSome_iff_exists.mp hdrop
  refine ⟨r', b', ?_, hr', hd, ?_⟩
  · rw [echoRefs, hread]
    show (b.pushBinderRef undef (met i).push (.erased y)).bind _ = _
    rw [hpush]
    show (y.drop (met i).drop).bind _ = _
    rw [hdropped]
    rfl
  · refine hb.pushBinderRef ?_ hpush
    rintro ⟨port, dev₃⟩ hport
    exact BinderObjectOrRef.beq_trans (BinderObjectOrRef.beq_of_clone hport).1 hy

/-- The loop over references pushes what it gets through. -/
theorem echoRefs_spec (hk : Accepts kernel) {n i : ℕ} {items done : List Item} {r : PayloadReader}
    {b : PayloadBuilder} (h : r.StandsBefore items) (hb : b.Holds done)
    (hdev : ∀ x, .binderRef x ∈ items → x.handle.device = r.device)
    (hserves : ∀ j x, .binderRef x ∈ items → (met j).Serves r.device x.handle) :
    ∃ res, echoRefs undef kernel met n i r b = some res ∧ RefsEcho n items done res := by
  induction items generalizing n i r b done with
  | nil =>
    cases n with
    | zero => exact ⟨_, rfl, [], [], h, by rwa [List.append_nil], fun fds => rfl⟩
    | succ n =>
      refine ⟨.error b, ?_, fun fds => by simpa [Item.asked] using hb⟩
      rw [echoRefs, h.readBinderRef_nil]
      rfl
  | cons item items ih =>
    cases n with
    | zero =>
      exact ⟨_, rfl, [], item :: items, h, by rwa [List.append_nil], fun fds => by
        rw [Item.asked, List.nil_append]⟩
    | succ n =>
      have hdev' : ∀ x, .binderRef x ∈ items → x.handle.device = r.device :=
        fun x hx => hdev x (List.mem_cons_of_mem _ hx)
      have hserves' : ∀ j x, .binderRef x ∈ items → (met j).Serves r.device x.handle :=
        fun j x hx => hserves j x (List.mem_cons_of_mem _ hx)
      cases item with
      | bytes bs =>
        obtain ⟨res, hecho, hres⟩ := ih (n := n + 1) (i := i) h.skip hb hdev' hserves'
        rw [echoRefs_moved] at hecho
        exact ⟨res, hecho, hres⟩
      | binderRef x =>
        obtain ⟨r', b', hstep, hr', hd, hb'⟩ := echoRefs_succ (n := n) hk h hb
          (hdev x List.mem_cons_self) (hserves i x List.mem_cons_self)
        rw [← hd] at hdev' hserves'
        obtain ⟨res, hecho, hres⟩ := ih (n := n) (i := i + 1) hr' hb' hdev' hserves'
        refine ⟨res, hstep.trans hecho, ?_⟩
        cases res with
        | ok p =>
          obtain ⟨pushed, rest, hrest, hholds, heq⟩ := hres
          refine ⟨.binderRef x :: pushed, rest, hrest, ?_, ?_⟩
          · simpa using hholds
          · intro fds
            rw [Item.asked, heq]
            rfl
        | error b'' =>
          intro fds
          simpa [Item.asked] using hres fds
      | fd d cookie owned =>
        refine ⟨.error b, ?_, fun fds => by simpa [Item.asked] using hb⟩
        rw [echoRefs, h.readBinderRef_fd]
        rfl

/-- The echo ends and holds the bytes in front of the first object as one block, and behind it the
objects it gets through with the counts at the front of that block.

**Proof sketch.** The distance is asked for at the start of the payload only, where it is right.
Each loop stands in front of the items that are left; bytes between objects are stepped over, since
a read of an object moves both cursors to its end. -/
theorem echoInto_spec (hk : Accepts kernel) {items : List Item} {r : PayloadReader}
    (h : r.StandsBefore items) (hcursor : r.nextDataIndex = 0)
    (hfirst : Item.blockAt 0 items ≠ [] ∨ Item.fromFirst items = [])
    (hdev : ∀ x, .binderRef x ∈ items → x.handle.device = r.device)
    (hserves : ∀ j x, .binderRef x ∈ items → (met j).Serves r.device x.handle) :
    ∃ b', echoInto undef kernel met r PayloadBuilder.new = some b' ∧
      b'.Holds (.bytes (Item.blockAt 0 items) ::
        Item.asked (headerCounts (Item.blockAt 0 items)).1 (headerCounts (Item.blockAt 0 items)).2
          (Item.fromFirst items)) := by
  have hblock := h.block
  have hbytes := h.bytesUntilNextObj (by rwa [hcursor])
  rw [hcursor] at hblock hbytes
  obtain ⟨r', hread, hr', hd⟩ := hblock.readBytes
  have hholds := PayloadBuilder.holds_new.pushBytes (Item.blockAt 0 items)
  rw [List.nil_append] at hholds
  obtain ⟨res, hecho, hres⟩ := @echoRefs_spec undef kernel met hk
    (headerCounts (Item.blockAt 0 items)).1 0 _ _ _ _ hr' hholds
    (fun x hx => by rw [hd]; exact hdev x (Item.mem_fromFirst hx))
    (fun j x hx => by rw [hd]; exact hserves j x (Item.mem_fromFirst hx))
  rw [echoInto, hbytes]
  simp only [Option.bind_eq_bind, Option.bind_some, hread, hecho]
  cases res with
  | error b => exact ⟨b, rfl, hres _⟩
  | ok p =>
    obtain ⟨pushed, rest, hrest, hpushed, heq⟩ := hres
    obtain ⟨b', hfds, hb'⟩ := @echoFds_spec undef (headerCounts (Item.blockAt 0 items)).2 _ _ _ _
      hrest hpushed
    refine ⟨b', hfds, ?_⟩
    rw [heq]
    rw [List.append_assoc] at hb'
    exact hb'

end Loops

/-! ## When an echo is complete -/

namespace Item

/-- The objects are handles and then descriptors, not more than announced; if there are descriptors,
then the number of handles is the announced one. -/
def Announced (refs fds : ℕ) (objs : List Item) : Prop :=
  ∃ (hs : List ToBinderObjectOrRef) (ds : List (Fd × Usize × Bool)),
    objs = hs.map .binderRef ++ ds.map (fun d => .fd d.1 d.2.1 d.2.2) ∧
      hs.length ≤ refs ∧ ds.length ≤ fds ∧ (ds ≠ [] → hs.length = refs)

/-- A loop over descriptors gets through the first objects, not more than it was told of. -/
theorem askedFds_prefix (n : ℕ) (items : List Item) : askedFds n items <+: objects items := by
  induction items generalizing n with
  | nil => cases n <;> exact List.nil_prefix
  | cons item items ih =>
    cases item with
    | bytes bs => exact ih n
    | binderRef x => cases n <;> exact List.nil_prefix
    | fd d cookie owned =>
      cases n with
      | zero => exact List.nil_prefix
      | succ n => exact List.cons_prefix_cons.mpr ⟨rfl, ih n⟩

/-- An echo gets through the first objects of the items. -/
theorem asked_prefix (n m : ℕ) (items : List Item) : asked n m items <+: objects items := by
  induction items generalizing n with
  | nil =>
    cases n with
    | zero => exact askedFds_prefix m []
    | succ n => exact List.nil_prefix
  | cons item items ih =>
    cases n with
    | zero =>
      rw [asked]
      exact askedFds_prefix m _
    | succ n =>
      cases item with
      | bytes bs => exact ih (n + 1)
      | binderRef x => exact List.cons_prefix_cons.mpr ⟨rfl, ih n⟩
      | fd d cookie owned => exact List.nil_prefix

/-- A loop over descriptors gets through descriptors only. -/
theorem askedFds_announced (n : ℕ) (items : List Item) : Announced 0 n (askedFds n items) := by
  induction items generalizing n with
  | nil => cases n <;> exact ⟨[], [], rfl, Nat.zero_le _, Nat.zero_le _, fun _ => rfl⟩
  | cons item items ih =>
    cases item with
    | bytes bs => exact ih n
    | binderRef x => cases n <;> exact ⟨[], [], rfl, Nat.zero_le _, Nat.zero_le _, fun _ => rfl⟩
    | fd d cookie owned =>
      cases n with
      | zero => exact ⟨[], [], rfl, Nat.zero_le _, Nat.zero_le _, fun _ => rfl⟩
      | succ n =>
        obtain ⟨hs, ds, heq, hhs, hds, -⟩ := ih n
        obtain rfl : hs = [] := List.length_eq_zero_iff.mp (Nat.le_zero.mp hhs)
        exact ⟨[], (d, cookie, owned) :: ds, by rw [askedFds, heq]; rfl, hhs,
          Nat.succ_le_succ hds, fun _ => rfl⟩

/-- What an echo gets through was announced. -/
theorem asked_announced (n m : ℕ) (items : List Item) : Announced n m (asked n m items) := by
  induction items generalizing n with
  | nil =>
    cases n with
    | zero => exact askedFds_announced m []
    | succ n => exact ⟨[], [], rfl, Nat.zero_le _, Nat.zero_le _, fun h => absurd rfl h⟩
  | cons item items ih =>
    cases n with
    | zero =>
      rw [asked]
      exact askedFds_announced m _
    | succ n =>
      cases item with
      | bytes bs => exact ih (n + 1)
      | binderRef x =>
        obtain ⟨hs, ds, heq, hhs, hds, hall⟩ := ih n
        exact ⟨x :: hs, ds, by rw [asked, heq]; rfl, Nat.succ_le_succ hhs, hds,
          fun h => congrArg Nat.succ (hall h)⟩
      | fd d cookie owned =>
        exact ⟨[], [], rfl, Nat.zero_le _, Nat.zero_le _, fun h => absurd rfl h⟩

/-- A loop over descriptors gets through all objects, if these are descriptors and announced. -/
theorem askedFds_of_announced {n : ℕ} {items : List Item} {ds : List (Fd × Usize × Bool)}
    (h : objects items = ds.map fun d => .fd d.1 d.2.1 d.2.2) (hlen : ds.length ≤ n) :
    askedFds n items = objects items := by
  induction items generalizing n ds with
  | nil => cases n <;> rfl
  | cons item items ih =>
    cases item with
    | bytes bs => exact ih h hlen
    | binderRef x =>
      cases ds with
      | nil => cases h
      | cons d ds => cases (List.cons.inj h).1
    | fd d cookie owned =>
      cases ds with
      | nil => cases h
      | cons d' ds =>
        cases n with
        | zero => cases hlen
        | succ n => exact congrArg _ (ih (List.cons.inj h).2 (Nat.le_of_succ_le_succ hlen))

/-- An echo gets through all objects that were announced. -/
theorem asked_of_announced {n m : ℕ} {items : List Item} (h : Announced n m (objects items)) :
    asked n m items = objects items := by
  induction items generalizing n with
  | nil =>
    cases n with
    | zero => cases m <;> rfl
    | succ n => rfl
  | cons item items ih =>
    obtain ⟨hs, ds, heq, hhs, hds, hall⟩ := h
    cases n with
    | zero =>
      obtain rfl : hs = [] := List.length_eq_zero_iff.mp (Nat.le_zero.mp hhs)
      rw [asked]
      exact askedFds_of_announced heq hds
    | succ n =>
      cases item with
      | bytes bs => exact ih ⟨hs, ds, heq, hhs, hds, hall⟩
      | binderRef x =>
        cases hs with
        | nil =>
          cases ds with
          | nil => cases heq
          | cons d ds => cases (List.cons.inj heq).1
        | cons x' hs =>
          exact congrArg _ (ih ⟨hs, ds, (List.cons.inj heq).2, Nat.le_of_succ_le_succ hhs, hds,
            fun h => Nat.succ.inj (hall h)⟩)
      | fd d cookie owned =>
        cases hs with
        | nil =>
          cases ds with
          | nil => cases heq
          | cons d ds => cases hall (List.cons_ne_nil d ds)
        | cons x hs => cases (List.cons.inj heq).1

end Item

section Complete

variable {undef : ℕ → UInt32} {kernel : KernelWrite} {met : ℕ → EchoMet}

/-- **What an echo holds.** On every payload, whatever the counts at its front say, the echo ends
and holds the bytes in front of the first object, and behind them the first objects of the payload
in order. It holds all of them exactly if they are the announced handles and then descriptors that
were announced. What is asked is that no object stands at the very start, that the handles are of
the device of the reader, and that the states it is in serve them. -/
theorem echo_complete_iff (hk : Accepts kernel) {items : List Item} {r : PayloadReader}
    (h : r.StandsBefore items) (hcursor : r.nextDataIndex = 0)
    (hfirst : Item.blockAt 0 items ≠ [] ∨ Item.fromFirst items = [])
    (hdev : ∀ x, .binderRef x ∈ items → x.handle.device = r.device)
    (hserves : ∀ j x, .binderRef x ∈ items → (met j).Serves r.device x.handle) :
    ∃ b' objs, echoInto undef kernel met r PayloadBuilder.new = some b' ∧
      b'.Holds (.bytes (Item.blockAt 0 items) :: objs) ∧ objs <+: Item.objects items ∧
      (objs = Item.objects items ↔
        Item.Announced (headerCounts (Item.blockAt 0 items)).1
          (headerCounts (Item.blockAt 0 items)).2 (Item.objects items)) := by
  obtain ⟨b', hecho, hb'⟩ := @echoInto_spec undef kernel met hk _ _ h hcursor hfirst hdev hserves
  rw [← Item.objects_fromFirst items]
  refine ⟨b', _, hecho, hb', Item.asked_prefix _ _ _, ⟨?_, Item.asked_of_announced⟩⟩
  intro hall
  rw [← hall]
  exact Item.asked_announced _ _ _

/-- Three is a descriptor. -/
theorem three_ne_invalidFd : (3 : RawFd) ≠ invalidFd := by decide

/-- A header that announces two references and a descriptor. -/
def lyingItems : List Item :=
  [.bytes (Layout.u32.encode 2 ++ Layout.u32.encode 1),
    .binderRef (.erased (.weakObject ⟨1, ⟨5, 0⟩⟩)), .fd ⟨3, three_ne_invalidFd⟩ 0 false]

/-- The payload with one of each, before the first read. -/
def lyingReader : PayloadReader :=
  ⟨1, .owned (Item.allBytes (fun _ => 0) 0 lyingItems),
    some (.owned (Item.allOffsets 0 lyingItems)), [], 0, 0⟩

/-- Of a payload with one reference and a descriptor that announces two references, only the
reference is echoed. -/
theorem echo_complete_iff_lying :
    ∃ b' objs, echoInto (fun _ => 0) (fun _ _ => none)
        (fun _ => ⟨BinderDevice.new 1, BinderDevice.new 1, BinderDevice.new 1⟩) lyingReader
        PayloadBuilder.new = some b' ∧
      b'.Holds (.bytes (Item.blockAt 0 lyingItems) :: objs) ∧ objs ≠ Item.objects lyingItems := by
  have hstands : lyingReader.StandsBefore lyingItems := by
    refine ⟨⟨[], _, rfl, rfl, Item.allWrote_allBytes _ _ _⟩, ⟨_, [], rfl, rfl, rfl, by simp⟩, ?_⟩
    show (Item.allBytes (fun _ => 0) 0 lyingItems).length < usizeSize
    rw [Item.length_allBytes]
    decide
  obtain ⟨b', objs, hecho, hb', -, hiff⟩ := @echo_complete_iff (fun _ => 0) (fun _ _ => none)
    (fun _ => ⟨BinderDevice.new 1, BinderDevice.new 1, BinderDevice.new 1⟩) (fun _ _ => rfl) _ _
    hstands rfl (.inl (by decide)) (by
      intro x hx
      obtain rfl : x = .erased (.weakObject ⟨1, ⟨5, 0⟩⟩) := by simpa [lyingItems] using hx
      rfl) (by
      intro j x hx
      obtain rfl : x = .erased (.weakObject ⟨1, ⟨5, 0⟩⟩) := by simpa [lyingItems] using hx
      exact ⟨rfl, trivial, trivial, fun o ho => by cases ho⟩)
  refine ⟨b', objs, hecho, hb', fun hall => ?_⟩
  obtain ⟨hs, ds, heq, -, -, hds⟩ := hiff.mp hall
  -- in front of a descriptor two handles are due, and there is one
  rcases hs with _ | ⟨x, _ | ⟨y, hs⟩⟩
  · rcases ds with _ | ⟨d, ds⟩
    · cases heq
    · cases (List.cons.inj heq).1
  · rcases ds with _ | ⟨d, ds⟩
    · cases (List.cons.inj heq).2
    · have hdue : (headerCounts (Item.blockAt 0 lyingItems)).1 = 2 := by decide
      have hone := hds (List.cons_ne_nil d ds)
      rw [hdue] at hone
      cases hone
  · cases (List.cons.inj (List.cons.inj heq).2).1

end Complete

/-! ## Messages -/

/-- The items of a message: the two counts, the payload, the handles and the descriptors. -/
def messageItems (payload : List UInt8) (refs : List ToBinderObjectOrRef)
    (fds : List (Fd × Usize)) : List Item :=
  .bytes (Layout.u32.encode (UInt32.ofNat refs.length)) ::
    .bytes (Layout.u32.encode (UInt32.ofNat fds.length)) :: .bytes payload ::
      (refs.map .binderRef ++ fds.map fun d => .fd d.1 d.2 false)

/-- The two counts are read off the front. -/
theorem headerCounts_append (refs fds : UInt32) (rest : List UInt8) :
    headerCounts (Layout.u32.encode refs ++ (Layout.u32.encode fds ++ rest)) =
      (refs.toNat, fds.toNat) := by
  have hrefs : (Layout.u32.encode refs).length = 4 := Layout.u32.length_encode refs
  have hfds : (Layout.u32.encode fds).length = 4 := Layout.u32.length_encode fds
  rw [headerCounts, if_neg (by simp only [List.length_append]; omega), List.take_left' hrefs,
    List.drop_left' hrefs, List.take_left' hfds, Layout.u32.decode_encode,
    Layout.u32.decode_encode]

/-- The bytes in front of the objects of a message start with the counts, cut to a `u32`. -/
theorem headerCounts_block (payload : List UInt8) (refs : List ToBinderObjectOrRef)
    (fds : List (Fd × Usize)) :
    headerCounts (Item.blockAt 0 (messageItems payload refs fds)) =
      (refs.length % 2 ^ 32, fds.length % 2 ^ 32) := by
  rw [messageItems, Item.blockAt, Item.blockAt, headerCounts_append, UInt32.toNat_ofNat',
    UInt32.toNat_ofNat']

/-- An echo that is told of fewer references than there are stops in front of the next one. -/
theorem asked_of_lt {n m : ℕ} {refs : List ToBinderObjectOrRef} {items : List Item}
    (h : n < refs.length) :
    Item.asked n m (refs.map .binderRef ++ items) = (refs.take n).map .binderRef := by
  induction refs generalizing n with
  | nil => cases h
  | cons x refs ih =>
    cases n with
    | zero => simp [Item.asked, Item.askedFds]
    | succ n => simp [Item.asked, ih (Nat.lt_of_succ_lt_succ h)]

/-- An echo that is told of all references goes on with the descriptors. -/
theorem asked_length {m : ℕ} (refs : List ToBinderObjectOrRef) (items : List Item) :
    Item.asked refs.length m (refs.map .binderRef ++ items) =
      refs.map .binderRef ++ Item.askedFds m items := by
  induction refs with
  | nil => simp [Item.asked]
  | cons x refs ih => simp [Item.asked, ih]

/-- A loop over descriptors takes as many as it is told. -/
theorem askedFds_map (m : ℕ) (fds : List (Fd × Usize)) :
    Item.askedFds m (fds.map fun d => .fd d.1 d.2 false) =
      (fds.take m).map fun d => .fd d.1 d.2 false := by
  induction fds generalizing m with
  | nil => cases m <;> simp [Item.askedFds]
  | cons d fds ih => cases m <;> simp [Item.askedFds, ih]

/-- Behind the first objects of a message there are no bytes. -/
theorem fromFirst_messageItems (payload : List UInt8) (refs : List ToBinderObjectOrRef)
    (fds : List (Fd × Usize)) :
    Item.fromFirst (messageItems payload refs fds) =
      refs.map .binderRef ++ fds.map fun d => .fd d.1 d.2 false := by
  rw [messageItems, Item.fromFirst, Item.fromFirst, Item.fromFirst]
  cases refs with
  | cons x refs => rfl
  | nil => cases fds <;> rfl

/-- With counts that were not cut, an echo gets through all objects of a message. -/
theorem asked_messageItems (payload : List UInt8) {refs : List ToBinderObjectOrRef}
    {fds : List (Fd × Usize)} (hrefs : refs.length < 2 ^ 32) (hfds : fds.length < 2 ^ 32) :
    Item.asked (refs.length % 2 ^ 32) (fds.length % 2 ^ 32)
        (Item.fromFirst (messageItems payload refs fds)) =
      Item.fromFirst (messageItems payload refs fds) := by
  rw [fromFirst_messageItems, Nat.mod_eq_of_lt hrefs, Nat.mod_eq_of_lt hfds, asked_length,
    askedFds_map, List.take_length]

/-- An echo that gets through all objects of a message was told of all of them. -/
theorem lt_of_length_asked {payload : List UInt8} {refs : List ToBinderObjectOrRef}
    {fds : List (Fd × Usize)}
    (h : (Item.asked (refs.length % 2 ^ 32) (fds.length % 2 ^ 32)
      (Item.fromFirst (messageItems payload refs fds))).length = refs.length + fds.length) :
    refs.length < 2 ^ 32 ∧ fds.length < 2 ^ 32 := by
  rw [fromFirst_messageItems] at h
  by_cases hlt : refs.length % 2 ^ 32 < refs.length
  · rw [asked_of_lt hlt, List.length_map, List.length_take] at h
    omega
  · have heq : refs.length % 2 ^ 32 = refs.length := by omega
    rw [heq, asked_length, askedFds_map, List.length_append, List.length_map, List.length_map,
      List.length_take] at h
    omega

/-- An echo gets through objects only. -/
theorem isObject_of_mem_asked {n m : ℕ} {items : List Item} {item : Item}
    (h : item ∈ Item.asked n m items) : item.IsObject := by
  have hmem := (Item.asked_prefix n m items).subset h
  simpa using (List.mem_filter.mp hmem).2

/-- A message has an offset for each handle and each descriptor. -/
theorem length_allOffsets_messageItems (payload : List UInt8) (refs : List ToBinderObjectOrRef)
    (fds : List (Fd × Usize)) :
    (Item.allOffsets 0 (messageItems payload refs fds)).length = refs.length + fds.length := by
  rw [← Item.allOffsets_block, fromFirst_messageItems]
  have hobjs : ∀ item ∈ refs.map Item.binderRef ++ fds.map (fun d => Item.fd d.1 d.2 false),
      item.IsObject := by
    intro item hitem
    simp only [List.mem_append, List.mem_map] at hitem
    rcases hitem with ⟨x, -, rfl⟩ | ⟨d, -, rfl⟩ <;> trivial
  rw [Item.allOffsets, Item.offsetAt, List.nil_append, Item.length_allOffsets hobjs,
    List.length_append, List.length_map, List.length_map]

section Messages

variable {undef : ℕ → UInt32} {kernel : KernelWrite} {met : ℕ → EchoMet}

/-- The echo of a message with counts below `2 ^ 32` holds its items; the echo of another has fewer
objects than the message. -/
theorem echoInto_message (hk : Accepts kernel) {payload : List UInt8}
    {refs : List ToBinderObjectOrRef} {fds : List (Fd × Usize)} {r : PayloadReader}
    (h : r.StandsBefore (messageItems payload refs fds)) (hcursor : r.nextDataIndex = 0)
    (hdev : ∀ x ∈ refs, x.handle.device = r.device)
    (hserves : ∀ j, ∀ x ∈ refs, (met j).Serves r.device x.handle) :
    ∃ b', echoInto undef kernel met r PayloadBuilder.new = some b' ∧
      (refs.length < 2 ^ 32 → fds.length < 2 ^ 32 → b'.Holds (messageItems payload refs fds)) ∧
      (b'.objOffsets.length = refs.length + fds.length →
        refs.length < 2 ^ 32 ∧ fds.length < 2 ^ 32) := by
  have hmem : ∀ x, Item.binderRef x ∈ messageItems payload refs fds → x ∈ refs := by
    intro x hx
    simpa [messageItems] using hx
  have hfirst : Item.blockAt 0 (messageItems payload refs fds) ≠ [] := by
    intro hnil
    have hlen := congrArg List.length hnil
    rw [messageItems, Item.blockAt, List.length_append, Layout.u32.length_encode] at hlen
    simp [Layout.u32] at hlen
  obtain ⟨b', hecho, hb'⟩ := echoInto_spec hk h hcursor (.inl hfirst)
    (fun x hx => hdev x (hmem x hx)) (fun j x hx => hserves j x (hmem x hx))
  rw [headerCounts_block] at hb'
  refine ⟨b', hecho, ?_, ?_⟩
  · intro hrefs hfds
    rw [asked_messageItems payload hrefs hfds] at hb'
    exact hb'.of_block
  · intro hlen
    refine @lt_of_length_asked payload _ _ ?_
    rw [← hlen, hb'.offsets]
    exact (Item.length_allOffsets fun _ => isObject_of_mem_asked).symm

/-- The loop over references holds as many of the object. -/
theorem pushRefs_holds {obj : BinderObject} {devs : ℕ → BinderDevice} {n i : ℕ}
    {b b' : PayloadBuilder} {done : List Item} (hb : b.Holds done)
    (h : pushRefs undef obj devs n i b = some b') :
    b'.Holds (done ++ (List.replicate n (.guard obj)).map .binderRef) := by
  induction n generalizing i b done with
  | zero =>
    cases h
    simpa using hb
  | succ n ih =>
    obtain ⟨⟨b₁, dev₁⟩, hpush, h⟩ := Option.bind_eq_some_iff.mp h
    have hb₁ : b₁.Holds (done ++ [.binderRef (.guard obj)]) := by
      refine hb.pushBinderRef ?_ hpush
      intro p hp
      obtain ⟨q, -, rfl⟩ := Option.map_eq_some_iff.mp hp
      exact (BinderObjectOrRef.beq_iff _ _).mpr ⟨rfl, rfl⟩
    have hb' := ih hb₁ h
    rw [List.append_assoc] at hb'
    exact hb'

/-- Descriptors that are lent again and again are held as often. -/
theorem pushFds_holds {b : PayloadBuilder} {done : List Item} (hb : b.Holds done) (d : Fd)
    (n : ℕ) :
    ((fun b => b.pushFd undef d 0)^[n] b).Holds
      (done ++ (List.replicate n (d, (0 : Usize))).map fun d => .fd d.1 d.2 false) := by
  induction n generalizing b done with
  | zero => simpa using hb
  | succ n ih =>
    have hb' := ih (@PayloadBuilder.Holds.pushFd undef _ _ hb d 0 false)
    rw [List.append_assoc] at hb'
    exact hb'

/-- What `Client::message` builds holds the items of a message. -/
theorem Client.message_holds {devs : ℕ → BinderDevice} {c : Client} {payload : List UInt8}
    {refs fds : ℕ} {b : PayloadBuilder}
    (h : c.message undef devs payload refs fds = some b) :
    b.Holds (messageItems payload (List.replicate refs (.guard c.replyObj))
      (List.replicate fds (c.devnull, 0))) := by
  obtain ⟨b₁, hrefs, h⟩ := Option.bind_eq_some_iff.mp h
  have hfront := ((PayloadBuilder.holds_new.pushBytes (Layout.u32.encode (UInt32.ofNat refs))
    ).pushBytes (Layout.u32.encode (UInt32.ofNat fds))).pushBytes payload
  have hb := @pushFds_holds undef _ _ (pushRefs_holds hfront hrefs) c.devnull fds
  cases h
  rw [messageItems, List.length_replicate, List.length_replicate]
  simpa using hb

/-- What is alike to descriptors are descriptors with their cookies. -/
theorem fds_of_alike {fds : List (Fd × Usize)} {items : List Item}
    (h : List.Forall₂ Item.Alike (fds.map fun d => .fd d.1 d.2 false) items) :
    ∃ fds' : List (Fd × Usize), items = fds'.map (fun d => .fd d.1 d.2 false) ∧
      fds'.map Prod.snd = fds.map Prod.snd := by
  induction fds generalizing items with
  | nil =>
    cases h
    exact ⟨[], rfl, rfl⟩
  | cons d fds ih =>
    obtain ⟨item, rest, halike, hrest, rfl⟩ := List.forall₂_cons_left_iff.mp h
    obtain ⟨fds', rfl, hsnd⟩ := ih hrest
    cases halike with
    | refl => exact ⟨d :: fds', rfl, by rw [List.map_cons, List.map_cons, hsnd]⟩
    | fd _ d' _ _ => exact ⟨(d', d.2) :: fds', rfl, by rw [List.map_cons, List.map_cons, hsnd]⟩

/-- Alike messages differ in the numbers of their descriptors only. -/
theorem messageItems_of_alike {payload : List UInt8} {refs : List ToBinderObjectOrRef}
    {fds : List (Fd × Usize)} {items : List Item}
    (h : List.Forall₂ Item.Alike (messageItems payload refs fds) items) :
    ∃ fds', items = messageItems payload refs fds' ∧ fds'.map Prod.snd = fds.map Prod.snd := by
  obtain ⟨_, _, halike₁, h₁, rfl⟩ := List.forall₂_cons_left_iff.mp h
  obtain ⟨_, _, halike₂, h₂, rfl⟩ := List.forall₂_cons_left_iff.mp h₁
  obtain ⟨_, rest, halike₃, h₃, rfl⟩ := List.forall₂_cons_left_iff.mp h₂
  cases halike₁
  cases halike₂
  cases halike₃
  suffices hobjs : ∃ fds' : List (Fd × Usize),
      rest = refs.map .binderRef ++ fds'.map (fun d => .fd d.1 d.2 false) ∧
        fds'.map Prod.snd = fds.map Prod.snd by
    obtain ⟨fds', rfl, hsnd⟩ := hobjs
    have hlen := congrArg List.length hsnd
    rw [List.length_map, List.length_map] at hlen
    exact ⟨fds', by rw [messageItems, hlen], hsnd⟩
  clear h h₁ h₂
  induction refs generalizing rest with
  | nil => exact fds_of_alike h₃
  | cons x refs ih =>
    obtain ⟨_, rest, halike, hrest, rfl⟩ := List.forall₂_cons_left_iff.mp h₃
    cases halike
    obtain ⟨fds', rfl, hsnd⟩ := ih rest hrest
    exact ⟨fds', rfl, hsnd⟩

/-- Descriptors that all have the cookie of a message. -/
theorem exists_fds {n : ℕ} {fds : List (Fd × Usize)}
    (h : fds.map Prod.snd = List.replicate n 0) :
    ∃ ds : List Fd, ds.length = n ∧ fds = ds.map fun d => (d, 0) := by
  induction fds generalizing n with
  | nil =>
    cases n with
    | zero => exact ⟨[], rfl, rfl⟩
    | succ n => cases h
  | cons d fds ih =>
    cases n with
    | zero => cases h
    | succ n =>
      obtain ⟨hd, hfds⟩ := List.cons.inj h
      obtain ⟨ds, hlen, rfl⟩ := ih hfds
      refine ⟨d.1 :: ds, by rw [List.length_cons, hlen], ?_⟩
      rw [List.map_cons, ← hd]

/-- **Round trip of a message.** A message of a client that is delivered to the service, echoed, and
delivered back to the client gives the client its two counts, its payload, its object as often as it
was pushed, and a descriptor for each one it sent, in this order. For counts from `2 ^ 32` on, which
do not fit the header, the echo ends too, but with fewer objects.

**Proof sketch.** What the client builds holds the items of a message; a delivery changes only the
numbers of its descriptors, so that the service stands in front of a message; its echo holds the
same items, and a second delivery puts the client in front of them. -/
theorem echo_round_trip (hk : Accepts kernel) {c : Client} {devs : ℕ → BinderDevice}
    {payload : List UInt8} {refs fds : ℕ} {b : PayloadBuilder}
    (hb : c.message undef devs payload refs fds = some b) (hfits : b.data.length < usizeSize)
    {φ : Type} {dup : φ → Fd → Option (Fd × φ)} {dev dev' : BinderDevice} {files files' : φ}
    {r : PayloadReader} (hr : PayloadReader.fromBuilder dup undef dev files b =
      some (r, dev', files')) (hobj : c.replyObj.device = dev.addr)
    (hserves : ∀ j, (met j).Serves dev.addr (ToBinderObjectOrRef.guard c.replyObj).handle) :
    ∃ b', echoInto undef kernel met r PayloadBuilder.new = some b' ∧
      (b'.objOffsets = b.objOffsets ↔ refs < 2 ^ 32 ∧ fds < 2 ^ 32) ∧
      (refs < 2 ^ 32 → fds < 2 ^ 32 →
        ∀ {dev₁ dev₁' : BinderDevice} {files₁ files₁' : φ} {r' : PayloadReader},
          dev₁.addr = dev.addr →
          PayloadReader.fromBuilder dup undef dev₁ files₁ b' = some (r', dev₁', files₁') →
          ∃ ds : List Fd, ds.length = fds ∧ r'.ReadsBack kernel
            (messageItems payload (List.replicate refs (.guard c.replyObj))
              (ds.map fun d => (d, 0)))) := by
  have hb₀ := Client.message_holds hb
  obtain ⟨items, halike, hstands, hdev, hcursor⟩ :=
    PayloadReader.standsBefore_of_fromBuilder hb₀ hfits hr
  obtain ⟨fds', rfl, hsnd⟩ := messageItems_of_alike halike
  have hlen : fds'.length = fds := by
    have := congrArg List.length hsnd
    simpa using this
  obtain ⟨b', hecho, hholds, hcounts⟩ := @echoInto_message undef kernel met hk _ _ _ _ hstands
    hcursor (fun x hx => by rw [List.eq_of_mem_replicate hx, hdev]; exact hobj)
    (fun j x hx => by rw [List.eq_of_mem_replicate hx, hdev]; exact hserves j)
  rw [hlen, List.length_replicate] at hholds hcounts
  refine ⟨b', hecho, ⟨?_, ?_⟩, ?_⟩
  · intro hoffs
    refine hcounts ?_
    rw [hoffs, hb₀.offsets, length_allOffsets_messageItems, List.length_replicate,
      List.length_replicate]
  · rintro ⟨hrefs, hfds⟩
    rw [(hholds hrefs hfds).offsets, hb₀.offsets, (Item.allLayout_of_alike halike).1]
  · intro hrefs hfds dev₁ dev₁' files₁ files₁' r' haddr hr'
    have hb' := hholds hrefs hfds
    have hfits' : b'.data.length < usizeSize := by
      rw [hb'.data.length, (Item.allLayout_of_alike halike).2, ← hb₀.data.length]
      exact hfits
    obtain ⟨items', halike', hstands', hdev', -⟩ :=
      PayloadReader.standsBefore_of_fromBuilder hb' hfits' hr'
    obtain ⟨fds'', rfl, hsnd'⟩ := messageItems_of_alike halike'
    obtain ⟨ds, hds, rfl⟩ := @exists_fds fds fds'' (by
      rw [hsnd', hsnd, List.map_replicate])
    refine ⟨ds, hds, hstands'.readsBack hk ?_⟩
    intro x hx
    have hmem : x ∈ List.replicate refs (ToBinderObjectOrRef.guard c.replyObj) := by
      simpa [messageItems] using hx
    rw [List.eq_of_mem_replicate hmem, hdev', haddr]
    exact hobj

/-- The device of `sampleDevice` with its object counted once. -/
def countedDevice : BinderDevice :=
  (PayloadReader.sampleDevice.increaseLocal ⟨1, 0⟩).elim PayloadReader.sampleDevice Prod.snd

/-- A message of three bytes, one reference and one descriptor comes back. -/
theorem echo_round_trip_mixed :
    ∃ b r b', Client.message (fun _ => 0) (fun _ => PayloadReader.sampleDevice)
        ⟨⟨1, ⟨1, 0⟩, ⟨7⟩⟩, ⟨5, by decide⟩⟩ [1, 2, 3] 1 1 = some b ∧
      (PayloadReader.fromBuilder PayloadReader.sampleDup (fun _ => 0) PayloadReader.sampleDevice 11
        b).map Prod.fst = some r ∧
      echoInto (fun _ => 0) (fun _ _ => none)
        (fun _ => ⟨PayloadReader.sampleDevice, PayloadReader.sampleDevice, countedDevice⟩) r
        PayloadBuilder.new = some b' ∧ b'.objOffsets = b.objOffsets := by
  have hdelivered : ((Client.message (fun _ => 0) (fun _ => PayloadReader.sampleDevice)
      ⟨⟨1, ⟨1, 0⟩, ⟨7⟩⟩, ⟨5, by decide⟩⟩ [1, 2, 3] 1 1).bind fun b =>
        PayloadReader.fromBuilder PayloadReader.sampleDup (fun _ => 0) PayloadReader.sampleDevice
          11 b).isSome := by decide +kernel
  obtain ⟨⟨r, dev', files'⟩, hdelivered⟩ := Option.isSome_iff_exists.mp hdelivered
  obtain ⟨b, hb, hr⟩ := Option.bind_eq_some_iff.mp hdelivered
  have hlen : b.data.length = 64 := by
    have := congrArg (Option.map fun b => b.data.length) hb
    exact (Option.some.inj this).symm
  obtain ⟨b', hecho, hiff, -⟩ := @echo_round_trip (fun _ => 0) (fun _ _ => none)
    (fun _ => ⟨PayloadReader.sampleDevice, PayloadReader.sampleDevice, countedDevice⟩)
    (fun _ _ => rfl) _ _ _ _ _ _ hb (by rw [hlen]; decide) _ _ _ _ _ _ _ hr rfl (by
      intro j
      refine ⟨rfl, ⟨rfl, ?_⟩, ?_, ?_⟩
      · show (PayloadReader.sampleDevice.increaseLocal ⟨1, 0⟩).isSome
        decide
      · show (PayloadReader.sampleDevice.increaseLocal ⟨1, 0⟩).isSome
        decide
      · intro o ho
        cases ho
        show (countedDevice.decreaseLocal ⟨1, 0⟩).isSome
        decide)
  refine ⟨b, r, b', hb, by rw [hr]; rfl, hecho, hiff.mpr (by decide)⟩

end Messages

end BinderBinder
