import BinderBinder.Device.Transact
import BinderBinder.Payload.Cursors

set_option relaxedAutoImplicit false
set_option autoImplicit false

/-!
# The end of a handler

A handler ends with the drop of its reader, and a looper waits for it. No handler gets past a
descriptor array or a buffer, and the drop of its reader does not either: a transaction with such an
object never comes to an end, and the records behind it are never dispatched.

## Main definitions

* `PayloadReader.Sticks` — an object that is not read yet stops every reader.
* `Handlers.call` — the call of a handler, as the loop of a looper makes it.

## Main results

* `PayloadReader.dropAlone_of_table_eq_nil` — a reader without objects frees its buffer, no more.
* `PayloadReader.Sticks.run`, `PayloadReader.Sticks.dropAlone_eq_none` — what a reader is stuck at
  stays unread, and its drop never ends.
* `Record.not_passes_of_sticks` — the loop of a looper never goes on behind such a transaction.
-/

namespace BinderBinder

namespace PayloadReader

/-! ## Readers without objects -/

/-- Without an object table nothing is unread. -/
theorem unread_of_table_eq_nil {r : PayloadReader} (h : r.table = []) : r.unread = [] := by
  have hitems : (r.offsets.map PayloadReaderBuffer.items).getD [] = [] := h
  rw [unread, hitems, List.drop_nil]

/-- The drop of a reader without objects frees its buffer. -/
theorem dropAlone_of_table_eq_nil (kernel : KernelWrite) (last : ℕ → Bool × Bool)
    (dev : BinderDevice) {r : PayloadReader} (h : r.table = []) (hheld : r.binderObjects = []) :
    r.dropAlone kernel last dev = r.data.freeOn kernel dev := by
  have hunread := unread_of_table_eq_nil h
  have hround : dropRound kernel ⟨dev, (last 0).1, (last 0).2⟩ ⟨r, [], [], []⟩ = some none :=
    dropRound_of_unread_eq_nil hunread
  rw [dropAlone, hunread, hheld, List.length_nil, dropLoopAlone, List.length_nil, hround]
  simp only [Option.bind_eq_bind, Option.bind_some]
  cases r.data.freeOn kernel dev <;> rfl

/-! ## Readers that are stuck -/

/-- The objects that were not read are of the seven types, and among them is a descriptor array or a
buffer. -/
structure Sticks (r : PayloadReader) : Prop where
  types : ∀ off ∈ r.unread, ∃ ty, r.typeAt off = some ty
  stays : ∃ off ∈ r.unread, ∃ ty, r.typeAt off = some ty ∧ ty.stays = true

/-- Whether a reader is stuck depends on its data and the objects that were not read. -/
theorem Sticks.of_data {r r' : PayloadReader} (h : r.Sticks) (hunread : r'.unread = r.unread)
    (hdata : r'.data = r.data) : r'.Sticks := by
  refine ⟨?_, ?_⟩ <;> rw [hunread, typeAt_of_data hdata]
  · exact h.types
  · exact h.stays

/-- Moving over the first of the unread objects leaves a reader stuck, if it can be moved over. -/
theorem Sticks.of_next {r r' : PayloadReader} {off : ℕ} (h : r.Sticks)
    (hunread : r.unread = off :: r'.unread) (hdata : r'.data = r.data)
    (hmoves : ∀ ty, r.typeAt off = some ty → ty.stays = false) : r'.Sticks := by
  obtain ⟨htypes, off', hoff', ty, hty, hstays⟩ := h
  rw [hunread] at htypes hoff'
  refine ⟨fun o ho => ?_, ?_⟩
  · rw [typeAt_of_data hdata]
    exact htypes o (List.mem_cons_of_mem off ho)
  · rcases List.mem_cons.mp hoff' with rfl | hoff'
    · rw [hmoves ty hty] at hstays
      cases hstays
    · exact ⟨off', hoff', ty, by rw [typeAt_of_data hdata]; exact hty, hstays⟩

/-- No method of a reader gets past the object that it is stuck at. -/
theorem Sticks.of_moved {r r' : PayloadReader} {given : Option (ℕ × ℕ)} (h : r.Sticks)
    (hmoved : Moved r r' given) : r'.Sticks := by
  cases hmoved with
  | stays => exact h
  | bytes hread => exact h.of_data rfl rfl
  | object hoff hsize =>
    refine h.of_next (unread_eq_cons hoff rfl rfl) rfl fun ty hty => ?_
    rw [recordSize, hty] at hsize
    cases ty <;> first | rfl | exact absurd hsize (by decide)

/-- No program of a handler does. -/
theorem Sticks.run {ρ : Type} (kernel : KernelWrite) (prog : ReaderProgram ρ) {r : PayloadReader}
    (h : r.Sticks) (dev : BinderDevice) : (prog.run kernel r dev).2.1.Sticks := by
  induction prog generalizing r dev with
  | ret result => exact h
  | readBytes numBytes next ih =>
    have hcall := h.of_moved (Moved.of_call kernel r (.readBytes numBytes))
    rw [ReaderProgram.run]
    rw [call] at hcall
    cases hread : r.readBytes numBytes with
    | none => exact ih none h dev
    | some p =>
      rw [hread] at hcall
      exact ih (some p.1) hcall dev
  | readBinderRef next ih =>
    have hcall := h.of_moved (Moved.of_call kernel r (.readBinderRef dev))
    rw [ReaderProgram.run]
    rw [call] at hcall
    cases hread : r.readBinderRef kernel dev with
    | none => exact ih none h dev
    | some p =>
      rw [hread] at hcall
      exact ih (some p.1) hcall p.2.2
  | readFd next ih =>
    have hcall := h.of_moved (Moved.of_call kernel r .readFd)
    rw [ReaderProgram.run]
    rw [call] at hcall
    cases hread : r.readFd with
    | none => exact ih none h dev
    | some p =>
      obtain ⟨res, r'⟩ := p
      rw [hread] at hcall
      cases res <;> exact ih _ hcall dev
  | nextObjectType next ih => exact ih _ h dev
  | bytesUntilNextObj next ih => exact ih _ h dev

/-- The loop of the drop does not either.

**Proof sketch.** Induction on the rounds. A round finds an object, so it does not leave the loop;
it moves over that object or stays at it, and the reader is stuck as before. -/
theorem Sticks.dropLoopAlone_eq_none (kernel : KernelWrite) (last : ℕ → Bool × Bool) {fuel : ℕ}
    {s : DropState} (h : s.reader.Sticks) (dev : BinderDevice) :
    dropLoopAlone kernel last fuel s dev = none := by
  induction fuel generalizing s dev with
  | zero => rfl
  | succ fuel ih =>
    rw [dropLoopAlone]
    split
    · rfl
    · next hround =>
      obtain ⟨off, hoff, -⟩ := h.stays
      obtain ⟨first, rest, hunread⟩ := List.exists_cons_of_ne_nil (List.ne_nil_of_mem hoff)
      have hnext : s.reader.nextOffset = some first := by
        rw [nextOffset_eq_head?, hunread, List.head?_cons]
      obtain ⟨ty, hty⟩ := h.types first (by rw [hunread]; exact List.mem_cons_self)
      have hend := nextObjectType_of_dropRound hround
      rw [nextObjectType_of_typeAt hnext hty] at hend
      cases hend
    · next s' dev' hround =>
      obtain ⟨off, ty, hspec⟩ := Round.of_some hround
      refine ih ?_ dev'
      cases hty : ty.stays with
      | true => exact h.of_data (hspec.unread_of_stays hty) hspec.data
      | false =>
        refine h.of_next (hspec.unread hty) hspec.data fun ty' hty' => ?_
        rw [← Option.some.inj (hspec.type.symm.trans hty')]
        exact hty

/-- The drop of such a reader never ends. -/
theorem Sticks.dropAlone_eq_none (kernel : KernelWrite) (last : ℕ → Bool × Bool)
    {r : PayloadReader} (h : r.Sticks) (dev : BinderDevice) :
    r.dropAlone kernel last dev = none := by
  have hstart : (⟨r, [], [], []⟩ : DropState).reader.Sticks := h
  rw [dropAlone, hstart.dropLoopAlone_eq_none kernel last dev]
  rfl

end PayloadReader

/-! ## Handlers -/

/-- The call of a handler by the loop of a looper: its program runs, and its reader is dropped. -/
def Handlers.call (handlers : Handlers) (kernel : KernelWrite) (lastRead : ℕ → Bool × Bool)
    (handler : HandlerRef) (transaction : Transaction) (p : Process) :
    Option (PayloadBuilder × Process) :=
  (handlers.handle kernel lastRead handler transaction p.device).map fun (replyData, device) =>
    (replyData, { p with device })

/-- A handler whose reader is stuck never comes to an end, whatever it does. -/
theorem Handlers.handle_eq_none_of_sticks (handlers : Handlers) (kernel : KernelWrite)
    (lastRead : ℕ → Bool × Bool) (handler : HandlerRef) {transaction : Transaction}
    (h : transaction.payload.Sticks) (dev : BinderDevice) :
    handlers.handle kernel lastRead handler transaction dev = none := by
  have hleft := h.run kernel (handlers handler transaction.code transaction.senderPid
    transaction.senderEuid) dev
  unfold Handlers.handle
  generalize (handlers handler _ _ _).run kernel transaction.payload dev = left at hleft ⊢
  show (left.2.1.dropAlone kernel lastRead left.2.2).map _ = none
  rw [hleft.dropAlone_eq_none]
  rfl

/-- **A transaction that is never through.** The loop of a looper does not go on behind a two-way
transaction with a descriptor array or a buffer, whatever the handlers of the process do with it. -/
theorem Record.not_passes_of_sticks {m : Met} {kernel : KernelWrite} {handlers : Handlers}
    {lastRead : ℕ → Bool × Bool} (hhandle : m.handle = handlers.call kernel lastRead)
    (secCtx : Option Usize) {t : Transmission} (htwoWay : t.header.isOneWay = false)
    (h : (PayloadReader.fromKernelRaw m.found.device.addr t).Sticks) :
    ¬ (Record.transaction secCtx t).Passes m := by
  rintro ⟨handler, -, -, hcall⟩
  obtain ⟨replyData, p, hreturns, -⟩ := hcall htwoWay
  have hpayload : (t.toTransaction m.found).payload.Sticks := h
  rw [hhandle, Handlers.call, handlers.handle_eq_none_of_sticks kernel lastRead handler hpayload]
    at hreturns
  cases hreturns

end BinderBinder
