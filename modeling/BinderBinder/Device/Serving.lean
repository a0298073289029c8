import Mathlib.Data.List.Forall2
import Mathlib.Tactic.FinCases
import BinderBinder.Device.Answers
import BinderBinder.Device.TwoWay

set_option relaxedAutoImplicit false
set_option autoImplicit false

/-!
# Every incoming transaction is answered once

A thread with the readers of the transactions it was handed. A handler can read from its reader,
keep it and drop it at any time; without a handler the arm drops it. The replies and the frees that
the thread writes are recorded in order, so that replies can be matched with what they answer.

## Main definitions

* `Serving`, `Serving.step` — the thread, its readers and what it wrote.
* `Serving.brackets` — the two-way transactions and the replies, as brackets.
* `Serving.AnsweredOnce` — two-way transactions are answered once, the innermost first, one-way
  transactions never, and every buffer is freed once.
* `Serving.RepliesFollow`, `Serving.DropsEnd` — a handler's reply is written, and readers can be
  dropped.

## Main results

* `Serving.exec_thread` — the thread of a run takes a run of its own steps.
* `Serving.Serves.step`, `Serving.Buffers.step` — what every step keeps.
* `Serving.incoming_answered_once` — every transaction that the loop reaches is answered once.
-/

namespace BinderBinder

open Run

/-- A transaction that the loop reached, and whether a handler was found for it. -/
structure Incoming where
  transmission : Transmission
  found : Bool

/-- The reply answers the transaction: with what its handler returned, or empty without one. -/
def Incoming.AnsweredBy (i : Incoming) (reply : BinderTransactionData) : Prop :=
  ∃ w, if i.found then ∃ replyData, reply = (replyTo w i.transmission replyData).header
    else reply = emptyReply w i.transmission

/-- What a thread does about its transactions: it reaches the `k`-th one, it writes a `BC_REPLY`,
and the reader of the `k`-th one frees a buffer. -/
inductive ServeEvent
  | reached (k : ℕ) (t : Transmission)
  | replied (reply : BinderTransactionData)
  | freed (k : ℕ) (buffer : Usize)

/-- A thread, the readers of its transactions that were not dropped, by number, the transactions
that it reached, and what it did about them, in order. -/
structure Serving where
  thread : Thread
  readers : DashMap ℕ PayloadReader
  received : List Incoming
  trace : List ServeEvent

/-- The thread takes a step, with what a drop in its arm meets; or a reader is read from, or
dropped, by whoever holds it. What that does to the process is left to the steps of the others. -/
inductive ServeLabel
  | thread (l : Label) (env : ℕ → DropMet) (fuel : ℕ)
  | call (k : ℕ) (c : ReaderCall)
  | drop (k : ℕ) (env : ℕ → DropMet) (fuel : ℕ)

namespace Serving

/-- A thread that has done nothing yet. -/
def idle (p : Process) : Serving := ⟨.idle p, DashMap.empty, [], []⟩

/-- The buffers that some commands free. -/
def frees (k : ℕ) (sent : List Command) : List ServeEvent :=
  sent.filterMap fun
    | .freeBuffer ptr => some (.freed k ptr)
    | _ => none

section Step

variable (kernelWrite : KernelWrite)

/-- A reader is dropped; `none` is a panic, or a loop that does not end. -/
def dropReader (s : Serving) (k : ℕ) (r : PayloadReader) (env : ℕ → DropMet) (fuel : ℕ) :
    Option Serving :=
  match r.drop kernelWrite env fuel with
  | .finished d =>
    some { s with readers := s.readers.remove k, trace := s.trace ++ frees k d.sent }
  | _ => none

/-- The arm of a transaction: its reader is built first, and dropped if no handler is found. -/
def receive (s : Serving) (t : Transmission) (env : ℕ → DropMet) (fuel : ℕ) : Option Serving :=
  let k := s.received.length
  let reader := PayloadReader.fromKernelRaw s.thread.process.device.addr t
  let found := s.thread.finds t
  let s := { s with
    readers := s.readers.insert k reader
    received := s.received ++ [⟨t, found⟩]
    trace := s.trace ++ [.reached k t] }
  if found then some s else s.dropReader kernelWrite k reader env fuel

/-- What a step of the thread does about a transaction that it reaches. -/
def arrive (s : Serving) (l : Label) (env : ℕ → DropMet) (fuel : ℕ) : Option Serving :=
  match s.thread.reached l with
  | some t => s.receive kernelWrite t env fuel
  | none => some s

/-- One step; `none` says that it is not enabled, or panics. -/
def step (s : Serving) : ServeLabel → Option Serving
  | .thread l env fuel =>
    (s.thread.step kernelWrite l).bind fun thread =>
      (s.arrive kernelWrite l env fuel).map fun s' =>
        { s' with thread, trace := s'.trace ++ (s.thread.replies l).map .replied }
  | .call k c =>
    (s.readers k).map fun r => { s with readers := s.readers.insert k (r.call kernelWrite c).1 }
  | .drop k env fuel => (s.readers k).bind fun r => s.dropReader kernelWrite k r env fuel

/-- The step of the thread. -/
def threadLabel : ServeLabel → Option Label
  | .thread l _ _ => some l
  | _ => none

/-- No step loses the write of a reply. -/
def TakesReplies (s : Serving) : ServeLabel → Prop
  | .thread l _ _ => s.thread.TakesReply l
  | _ => True

end Step

/-! ## What the thread did -/

/-- The `BC_REPLY`s that the thread wrote, in order. -/
def replied (s : Serving) : List BinderTransactionData :=
  s.trace.filterMap fun
    | .replied reply => some reply
    | _ => none

/-- The two-way transactions and the replies of a trace. -/
def bracketsOf (trace : List ServeEvent) : List (Nest.Bracket ℕ BinderTransactionData) :=
  trace.filterMap fun
    | .reached k t => if t.header.isOneWay then none else some (.opens k)
    | .replied reply => some (.closes reply)
    | .freed _ _ => none

/-- The two-way transactions that the thread reached and its replies, as brackets. -/
def brackets (s : Serving) : List (Nest.Bracket ℕ BinderTransactionData) := bracketsOf s.trace

/-- The buffers that the reader of the `k`-th transaction frees in a trace. -/
def freesOf (trace : List ServeEvent) (k : ℕ) : List Usize :=
  trace.filterMap fun
    | .freed k' buffer => if k' = k then some buffer else none
    | _ => none

/-- The numbers of the two-way transactions. -/
def twoWay (received : List Incoming) : List ℕ :=
  received.zipIdx.filterMap fun x =>
    if x.1.transmission.header.isOneWay then none else some x.2

/-! ## Answers -/

/-- What a frame owes it owes to the `k`-th transaction, for which a handler was found. -/
inductive Owed (received : List Incoming) (k : ℕ) : Debt → Prop
  | answer {i : Incoming} (hi : received[k]? = some i) (hfound : i.found = true) :
    Owed received k (.answer i.transmission)
  | write {i : Incoming} {reply : BinderTransactionData} (hi : received[k]? = some i)
    (hfound : i.found = true) (hreply : i.AnsweredBy reply) : Owed received k (.write reply)

/-- The replies are matched with what they answer, and the transactions that are open are those the
frames owe something to, in the same order. -/
structure Serves (word : List (Nest.Bracket ℕ BinderTransactionData)) (received : List Incoming)
    (debts : List Debt) (n : Nest ℕ BinderTransactionData) : Prop where
  read : Nest.read word = some n
  owed : List.Forall₂ (Owed received) n.opened debts
  answers : ∀ m ∈ n.matched, ∃ i, received[m.1]? = some i ∧ i.AnsweredBy m.2
  numbers : Nest.opensOf word = twoWay received

/-- The transactions that were reached keep their numbers. -/
theorem getElem?_append_of_eq_some {received : List Incoming} {k : ℕ} {i : Incoming}
    (h : received[k]? = some i) (more : List Incoming) : (received ++ more)[k]? = some i := by
  obtain ⟨hk, -⟩ := List.getElem?_eq_some_iff.mp h
  rw [List.getElem?_append_left hk]
  exact h

/-- What is owed stays owed when the thread reaches more transactions. -/
theorem Owed.append {received : List Incoming} {k : ℕ} {d : Debt} (h : Owed received k d)
    (more : List Incoming) : Owed (received ++ more) k d := by
  cases h with
  | answer hi hfound => exact .answer (getElem?_append_of_eq_some hi more) hfound
  | write hi hfound hreply => exact .write (getElem?_append_of_eq_some hi more) hfound hreply

/-- One more transaction has the next number. -/
theorem twoWay_concat (received : List Incoming) (i : Incoming) :
    twoWay (received ++ [i]) = twoWay received ++
      if i.transmission.header.isOneWay then [] else [received.length] := by
  rw [twoWay, List.zipIdx_append, List.filterMap_append]
  refine congrArg (twoWay received ++ ·) ?_
  simp only [Nat.zero_add, List.zipIdx_singleton, List.filterMap_cons, List.filterMap_nil]
  split_ifs <;> rfl

/-- Which numbers are those of two-way transactions. -/
theorem mem_twoWay {received : List Incoming} {k : ℕ} : k ∈ twoWay received ↔
    ∃ i, received[k]? = some i ∧ i.transmission.header.isOneWay = false := by
  simp only [twoWay, List.mem_filterMap, Prod.exists, List.mem_zipIdx_iff_getElem?]
  constructor
  · rintro ⟨i, k', hi, hk⟩
    split_ifs at hk with hone
    cases hk
    exact ⟨i, hi, by simpa using hone⟩
  · rintro ⟨i, hi, hone⟩
    exact ⟨i, k, hi, by simp [hone]⟩

/-- Every transaction has a number of its own. -/
theorem nodup_twoWay (received : List Incoming) : (twoWay received).Nodup := by
  induction received using List.reverseRecOn with
  | nil => exact List.nodup_nil
  | append_singleton received i ih =>
    rw [twoWay_concat]
    refine List.nodup_append'.mpr ⟨ih, ?_, ?_⟩
    · split_ifs
      · exact List.nodup_nil
      · exact List.nodup_singleton _
    · intro k hk hlast
      obtain ⟨j, hj, -⟩ := mem_twoWay.mp hk
      obtain ⟨hlt, -⟩ := List.getElem?_eq_some_iff.mp hj
      split_ifs at hlast
      · cases hlast
      · rw [List.mem_singleton.mp hlast] at hlt
        exact Nat.lt_irrefl _ hlt

namespace Serves

variable {word : List (Nest.Bracket ℕ BinderTransactionData)} {received : List Incoming}
  {debts : List Debt} {n : Nest ℕ BinderTransactionData}

/-- Nothing was reached yet. -/
theorem nil : Serves [] [] [] ⟨[], []⟩ :=
  ⟨rfl, .nil, fun _ hm => (by cases hm), rfl⟩

/-- What was answered stays answered. -/
theorem answers_append (h : Serves word received debts n) (more : List Incoming) :
    ∀ m ∈ n.matched, ∃ i, (received ++ more)[m.1]? = some i ∧ i.AnsweredBy m.2 := by
  intro m hm
  obtain ⟨i, hi, hreply⟩ := h.answers m hm
  exact ⟨i, getElem?_append_of_eq_some hi more, hreply⟩

/-- What is owed stays owed. -/
theorem owed_append (h : Serves word received debts n) (more : List Incoming) :
    List.Forall₂ (Owed (received ++ more)) n.opened debts :=
  h.owed.imp fun _ _ howed => howed.append more

/-- A one-way transaction is not answered. -/
theorem oneWay (h : Serves word received debts n) {i : Incoming}
    (hone : i.transmission.header.isOneWay = true) : Serves word (received ++ [i]) debts n where
  read := h.read
  owed := h.owed_append [i]
  answers := h.answers_append [i]
  numbers := by rw [h.numbers, twoWay_concat, if_pos hone, List.append_nil]

/-- A two-way transaction whose handler was found is open. -/
theorem opens (h : Serves word received debts n) {i : Incoming} (hfound : i.found = true)
    (hone : i.transmission.header.isOneWay = false) :
    Serves (word ++ [.opens received.length]) (received ++ [i]) (.answer i.transmission :: debts)
      ⟨received.length :: n.opened, n.matched⟩ where
  read := by
    rw [Nest.read_concat, h.read]
    rfl
  owed := .cons (.answer List.getElem?_concat_length hfound) (h.owed_append [i])
  answers := h.answers_append [i]
  numbers := by
    rw [Nest.opensOf_append, h.numbers, twoWay_concat, hone]
    rfl

/-- A two-way transaction without a handler is answered at once. -/
theorem missing (h : Serves word received debts n) {i : Incoming} {w : World}
    (hfound : i.found = false) (hone : i.transmission.header.isOneWay = false) :
    Serves (word ++ [.opens received.length] ++ [.closes (emptyReply w i.transmission)])
      (received ++ [i]) debts
      ⟨n.opened, n.matched ++ [(received.length, emptyReply w i.transmission)]⟩ where
  read := by
    rw [Nest.read_concat, Nest.read_concat, h.read]
    rfl
  owed := h.owed_append [i]
  answers := by
    intro m hm
    rcases List.mem_append.mp hm with hm | hm
    · exact h.answers_append [i] m hm
    · rw [List.mem_singleton.mp hm]
      exact ⟨i, List.getElem?_concat_length, w, by rw [hfound]; rfl⟩
  numbers := by
    rw [Nest.opensOf_append, Nest.opensOf_append, h.numbers, twoWay_concat, hone]
    exact List.append_nil _

/-- A handler has returned: its reply is owed. -/
theorem handled {t : Transmission} (h : Serves word received (.answer t :: debts) n) (w : World)
    (replyData : PayloadBuilder) :
    Serves word received (.write (replyTo w t replyData).header :: debts) n where
  read := h.read
  owed := by
    obtain ⟨k, ks, howed, hrest, hopened⟩ := List.forall₂_cons_right_iff.mp h.owed
    rw [hopened]
    cases howed with
    | answer hi hfound =>
      refine .cons (.write hi hfound ⟨w, ?_⟩) hrest
      rw [hfound]
      exact ⟨replyData, rfl⟩
  answers := h.answers
  numbers := h.numbers

/-- A reply is written: it answers the innermost of the open transactions. -/
theorem written {reply : BinderTransactionData}
    (h : Serves word received (.write reply :: debts) n) :
    ∃ n', Serves (word ++ [.closes reply]) received debts n' := by
  obtain ⟨k, ks, howed, hrest, hopened⟩ := List.forall₂_cons_right_iff.mp h.owed
  refine ⟨⟨ks, n.matched ++ [(k, reply)]⟩, ?_, hrest, ?_, ?_⟩
  · rw [Nest.read_concat, h.read, Option.bind_some, Nest.step, hopened]
  · intro m hm
    rcases List.mem_append.mp hm with hm | hm
    · exact h.answers m hm
    · rw [List.mem_singleton.mp hm]
      cases howed with
      | write hi _ hreply => exact ⟨_, hi, hreply⟩
  · rw [Nest.opensOf_append, h.numbers]
    exact List.append_nil _

end Serves

/-! ## What the steps write -/

@[simp] theorem bracketsOf_append (trace trace' : List ServeEvent) :
    bracketsOf (trace ++ trace') = bracketsOf trace ++ bracketsOf trace' :=
  List.filterMap_append

@[simp] theorem freesOf_append (trace trace' : List ServeEvent) (k : ℕ) :
    freesOf (trace ++ trace') k = freesOf trace k ++ freesOf trace' k :=
  List.filterMap_append

/-- A reached transaction is a bracket if it is two-way. -/
theorem bracketsOf_reached (k : ℕ) (t : Transmission) : bracketsOf [.reached k t] =
    if t.header.isOneWay then [] else [.opens k] := by
  simp only [bracketsOf, List.filterMap_cons, List.filterMap_nil]
  split_ifs <;> rfl

/-- Replies are brackets. -/
theorem bracketsOf_replied (replies : List BinderTransactionData) :
    bracketsOf (replies.map .replied) = replies.map .closes := by
  induction replies with
  | nil => rfl
  | cons reply replies ih => exact congrArg (Nest.Bracket.closes reply :: ·) ih

/-- Replies free nothing. -/
theorem freesOf_replied (replies : List BinderTransactionData) (k : ℕ) :
    freesOf (replies.map .replied) k = [] := by
  induction replies with
  | nil => rfl
  | cons reply replies ih => exact ih

/-- What was freed is no bracket. -/
theorem bracketsOf_frees (k : ℕ) (sent : List Command) : bracketsOf (frees k sent) = [] := by
  induction sent with
  | nil => rfl
  | cons cmd sent ih => cases cmd <;> exact ih

/-- The replies of the thread are what closes its brackets. -/
theorem replied_eq_closesOf (s : Serving) : s.replied = Nest.closesOf s.brackets := by
  rw [replied, Nest.closesOf, brackets, bracketsOf, List.filterMap_filterMap]
  refine congrArg (fun f => s.trace.filterMap f) (funext fun e => ?_)
  cases e with
  | reached k t =>
    by_cases hone : t.header.isOneWay = true <;> simp [hone]
  | replied reply => rfl
  | freed k buffer => rfl

/-- A drop that is through frees what the buffer of the reader is. -/
theorem frees_of_drop {kernelWrite : KernelWrite} {env : ℕ → DropMet} {fuel : ℕ}
    {r : PayloadReader} {d : DropState} (h : r.drop kernelWrite env fuel = .finished d) (k : ℕ) :
    frees k d.sent = frees k r.data.free := by
  obtain ⟨before, hsent, hfree⟩ := PayloadReader.sent_of_drop h
  have hnone : frees k before = [] := by
    rw [frees, List.filterMap_eq_nil_iff]
    intro cmd hcmd
    have hno := hfree cmd hcmd
    cases cmd <;> first | rfl | cases hno
  rw [hsent, frees, List.filterMap_append]
  exact congrArg (· ++ frees k r.data.free) hnone

section Steps

variable {kernelWrite : KernelWrite} {s s' : Serving}

/-- What the drop of a reader does. -/
theorem dropReader_eq_some {k : ℕ} {r : PayloadReader} {env : ℕ → DropMet} {fuel : ℕ}
    (h : s.dropReader kernelWrite k r env fuel = some s') :
    s' = { s with
      readers := s.readers.remove k
      trace := s.trace ++ frees k r.data.free } := by
  unfold dropReader at h
  split at h
  · next d hdrop =>
    cases h
    rw [frees_of_drop hdrop]
  · cases h

/-- What the arm of a transaction does up to its handler. -/
theorem receive_eq_some {t : Transmission} {env : ℕ → DropMet} {fuel : ℕ}
    (h : s.receive kernelWrite t env fuel = some s') :
    s'.thread = s.thread ∧ s'.received = s.received ++ [⟨t, s.thread.finds t⟩] ∧
      bracketsOf s'.trace = bracketsOf s.trace ++ bracketsOf [.reached s.received.length t] := by
  unfold receive at h
  dsimp only at h
  split_ifs at h with hfound
  · cases h
    exact ⟨rfl, rfl, bracketsOf_append _ _⟩
  · rw [dropReader_eq_some h]
    refine ⟨rfl, rfl, ?_⟩
    rw [bracketsOf_append, bracketsOf_append, bracketsOf_frees, List.append_nil]

/-- A step is one of the thread, or leaves it. -/
theorem thread_of_step {l : ServeLabel} (h : s.step kernelWrite l = some s') :
    exec (Thread.step kernelWrite) s.thread (threadLabel l).toList = some s'.thread := by
  cases l with
  | thread l env fuel =>
    obtain ⟨thread, hthread, h⟩ := Option.bind_eq_some_iff.mp h
    obtain ⟨s₁, -, rfl⟩ := Option.map_eq_some_iff.mp h
    exact exec_cons_eq_some.mpr ⟨thread, hthread, rfl⟩
  | call k c =>
    obtain ⟨r, -, rfl⟩ := Option.map_eq_some_iff.mp h
    rfl
  | drop k env fuel =>
    obtain ⟨r, -, h⟩ := Option.bind_eq_some_iff.mp h
    rw [dropReader_eq_some h]
    rfl

/-- The thread of a run takes a run of its own steps: its readers do not change what it does.

**Proof sketch.** Induction on the run. -/
theorem exec_thread {ls : List ServeLabel} (h : exec (step kernelWrite) s ls = some s') :
    exec (Thread.step kernelWrite) s.thread (ls.filterMap threadLabel) = some s'.thread := by
  induction ls generalizing s with
  | nil =>
    cases h
    rfl
  | cons l ls ih =>
    obtain ⟨s₁, hs₁, hrest⟩ := exec_cons_eq_some.mp h
    have hfirst := thread_of_step hs₁
    have happend : (l :: ls).filterMap threadLabel =
        (threadLabel l).toList ++ ls.filterMap threadLabel := by
      cases hl : threadLabel l with
      | none => rw [List.filterMap_cons_none hl, Option.toList_none, List.nil_append]
      | some l' => rw [List.filterMap_cons_some hl, Option.toList_some, List.singleton_append]
    rw [happend, exec_append, hfirst]
    exact ih hrest

/-- **Step.** Every step that loses no reply keeps the replies matched with what they answer.

**Proof sketch.** A read of a reader and a drop write no reply. A step of the thread is one of the
five that `Thread.Debts` lists: what the frames owe changes with what is open. -/
theorem Serves.step {l : ServeLabel} {n : Nest ℕ BinderTransactionData}
    (hs : Serves s.brackets s.received s.thread.debts n)
    (htakes : s.TakesReplies l) (h : s.step kernelWrite l = some s') :
    ∃ n', Serves s'.brackets s'.received s'.thread.debts n' := by
  cases l with
  | call k c =>
    obtain ⟨r, -, rfl⟩ := Option.map_eq_some_iff.mp h
    exact ⟨n, hs⟩
  | drop k env fuel =>
    obtain ⟨r, -, h⟩ := Option.bind_eq_some_iff.mp h
    rw [dropReader_eq_some h]
    refine ⟨n, ?_⟩
    rwa [brackets, bracketsOf_append, bracketsOf_frees, List.append_nil]
  | thread l env fuel =>
    obtain ⟨thread, hthread, h⟩ := Option.bind_eq_some_iff.mp h
    obtain ⟨s₁, harrive, rfl⟩ := Option.map_eq_some_iff.mp h
    rw [arrive] at harrive
    show ∃ n', Serves (bracketsOf (s₁.trace ++ _)) s₁.received thread.debts n'
    rw [bracketsOf_append, bracketsOf_replied]
    cases Thread.Debts.of_step hthread htakes with
    | quiet hreached hreplies hdebts =>
      rw [hreached] at harrive
      cases harrive
      rw [hreplies, hdebts, List.map_nil, List.append_nil]
      exact ⟨n, hs⟩
    | @handle t hreached hfinds hreplies hdebts =>
      rw [hreached] at harrive
      obtain ⟨-, hreceived, hbrackets⟩ := receive_eq_some harrive
      rw [hreplies, hdebts, List.map_nil, List.append_nil, hbrackets, hreceived, hfinds,
        bracketsOf_reached]
      by_cases hone : t.header.isOneWay = true
      · rw [if_pos hone, if_pos hone, List.append_nil]
        exact ⟨n, hs.oneWay hone⟩
      · rw [if_neg hone, if_neg hone]
        exact ⟨_, hs.opens (i := ⟨t, true⟩) rfl (by simpa using hone)⟩
    | @missing t w hreached hfinds hreplies hdebts =>
      rw [hreached] at harrive
      obtain ⟨-, hreceived, hbrackets⟩ := receive_eq_some harrive
      rw [hreplies, hdebts, hbrackets, hreceived, hfinds, bracketsOf_reached]
      by_cases hone : t.header.isOneWay = true
      · rw [if_pos hone, if_pos hone, List.append_nil, List.map_nil, List.append_nil]
        exact ⟨n, hs.oneWay hone⟩
      · rw [if_neg hone, if_neg hone]
        exact ⟨_, hs.missing (i := ⟨t, false⟩) rfl (by simpa using hone)⟩
    | handled w replyData hreached hreplies hbefore hdebts =>
      rw [hreached] at harrive
      cases harrive
      rw [hbefore] at hs
      rw [hreplies, hdebts, List.map_nil, List.append_nil]
      exact ⟨n, hs.handled w replyData⟩
    | written hreached hreplies hdebts =>
      rw [hreached] at harrive
      cases harrive
      rw [hdebts] at hs
      rw [hreplies]
      exact hs.written

end Steps

/-! ## Buffers -/

/-- Where the buffer of a transaction is: there is none yet, its reader was not dropped, or it was
freed, once. -/
inductive Buffer : Option Incoming → Option PayloadReader → List Usize → Prop
  | unreached : Buffer none none []
  | unread {i : Incoming} {r : PayloadReader} (hfound : i.found = true)
    (hdata : r.data = .kernelBorrowed i.transmission.header.buffer i.transmission.data) :
    Buffer (some i) (some r) []
  | freed {i : Incoming} : Buffer (some i) none [i.transmission.header.buffer]

/-- Every buffer is in one of these places. -/
def Buffers (s : Serving) : Prop :=
  ∀ k, Buffer s.received[k]? (s.readers k) (freesOf s.trace k)

/-- A reader frees its buffer, and no other. -/
theorem freesOf_frees (k k' : ℕ) (ptr : Usize) (items : List UInt8) :
    freesOf (frees k (PayloadReaderBuffer.kernelBorrowed ptr items).free) k' =
      if k = k' then [ptr] else [] := by
  simp only [PayloadReaderBuffer.free, frees, freesOf, List.filterMap_cons, List.filterMap_nil]
  split_ifs <;> rfl

section Buffers

variable {kernelWrite : KernelWrite} {s s' : Serving}

/-- Over the drop of a reader, every buffer is where it was but that of the reader. -/
theorem Buffers.dropReader (hs : s.Buffers) {k : ℕ} {r : PayloadReader} {i : Incoming}
    (hi : s.received[k]? = some i) (hfrees : freesOf s.trace k = [])
    (hdata : r.data = .kernelBorrowed i.transmission.header.buffer i.transmission.data) :
    Buffers { s with
      readers := s.readers.remove k
      trace := s.trace ++ frees k r.data.free } := by
  intro k'
  show Buffer s.received[k']? (s.readers.remove k k') _
  rw [freesOf_append, hdata, freesOf_frees]
  by_cases hk : k' = k
  · subst hk
    rw [DashMap.remove_self, hi, hfrees, if_pos rfl]
    exact .freed
  · rw [DashMap.remove_of_ne _ hk, if_neg (Ne.symm hk), List.append_nil]
    exact hs k'

/-- The buffer of the next transaction is not there yet. -/
theorem Buffers.next (hs : s.Buffers) : freesOf s.trace s.received.length = [] := by
  have hbuffer := hs s.received.length
  rw [List.getElem?_eq_none (Nat.le_refl _)] at hbuffer
  generalize s.readers s.received.length = r at hbuffer
  generalize freesOf s.trace s.received.length = ptrs at hbuffer ⊢
  cases hbuffer
  rfl

/-- The buffer of a transaction whose reader is there was not freed. -/
theorem Buffers.of_reader (hs : s.Buffers) {k : ℕ} {r : PayloadReader}
    (hr : s.readers k = some r) : ∃ i, s.received[k]? = some i ∧ freesOf s.trace k = [] ∧
      i.found = true ∧
        r.data = .kernelBorrowed i.transmission.header.buffer i.transmission.data := by
  have hbuffer := hs k
  rw [hr] at hbuffer
  generalize s.received[k]? = i? at hbuffer ⊢
  generalize freesOf s.trace k = ptrs at hbuffer ⊢
  cases hbuffer with
  | unread hfound hdata => exact ⟨_, rfl, rfl, hfound, hdata⟩

/-- The buffers when a transaction was reached and its reader is there. -/
theorem Buffers.reached (hs : s.Buffers) {i : Incoming} {r : PayloadReader} {k : ℕ}
    (hk : k ≠ s.received.length) {t : Transmission} :
    Buffer (s.received ++ [i])[k]? (s.readers.insert s.received.length r k)
      (freesOf (s.trace ++ [.reached s.received.length t]) k) := by
  have hsame : (s.received ++ [i])[k]? = s.received[k]? := by
    rcases Nat.lt_or_ge k s.received.length with hlt | hge
    · exact List.getElem?_append_left hlt
    · rw [List.getElem?_eq_none hge, List.getElem?_eq_none]
      rw [List.length_append, List.length_singleton]
      omega
  rw [hsame, DashMap.insert_of_ne _ _ hk, freesOf_append]
  exact (List.append_nil (freesOf s.trace k)).symm ▸ hs k

/-- Over the arm of a transaction, its buffer is with its reader, or freed without a handler. -/
theorem Buffers.receive (hs : s.Buffers) {t : Transmission} {env : ℕ → DropMet} {fuel : ℕ}
    (h : s.receive kernelWrite t env fuel = some s') : s'.Buffers := by
  unfold Serving.receive at h
  dsimp only at h
  have hlast : ∀ i : Incoming, (s.received ++ [i])[s.received.length]? = some i :=
    fun i => List.getElem?_concat_length
  have hfrees : freesOf (s.trace ++ [.reached s.received.length t]) s.received.length = [] := by
    rw [freesOf_append, hs.next]
    rfl
  split_ifs at h with hfound
  · cases h
    intro k
    by_cases hk : k = s.received.length
    · subst hk
      show Buffer (s.received ++ [_])[_]? (DashMap.insert _ _ _ _) (freesOf _ _)
      rw [hlast, DashMap.insert_self, hfrees]
      exact .unread hfound rfl
    · exact hs.reached hk
  · rw [dropReader_eq_some h]
    intro k
    show Buffer (s.received ++ [_])[k]? (DashMap.remove (DashMap.insert _ _ _) _ k) (freesOf _ _)
    rw [freesOf_append, PayloadReader.fromKernelRaw, freesOf_frees]
    by_cases hk : k = s.received.length
    · subst hk
      rw [hlast, DashMap.remove_self, hfrees, if_pos rfl]
      exact .freed
    · rw [DashMap.remove_of_ne _ hk, if_neg (Ne.symm hk), List.append_nil]
      exact hs.reached hk

/-- **Step.** Every step keeps each buffer in one of its places: a reader is dropped once, and no
read of it changes its data. -/
theorem Buffers.step (hs : s.Buffers) {l : ServeLabel} (h : s.step kernelWrite l = some s') :
    s'.Buffers := by
  cases l with
  | thread l env fuel =>
    obtain ⟨thread, -, h⟩ := Option.bind_eq_some_iff.mp h
    obtain ⟨s₁, harrive, rfl⟩ := Option.map_eq_some_iff.mp h
    have hs₁ : s₁.Buffers := by
      rw [arrive] at harrive
      split at harrive
      · exact hs.receive harrive
      · cases harrive
        exact hs
    intro k
    show Buffer s₁.received[k]? (s₁.readers k) _
    rw [freesOf_append, freesOf_replied, List.append_nil]
    exact hs₁ k
  | call k c =>
    obtain ⟨r, hr, rfl⟩ := Option.map_eq_some_iff.mp h
    intro k'
    show Buffer s.received[k']? (s.readers.insert k _ k') (freesOf s.trace k')
    by_cases hk : k' = k
    · subst hk
      obtain ⟨i, hi, hfrees, hfound, hdata⟩ := hs.of_reader hr
      rw [DashMap.insert_self, hi, hfrees]
      exact .unread hfound ((PayloadReader.Called.of_call kernelWrite r c).data.trans hdata)
    · rw [DashMap.insert_of_ne _ _ hk]
      exact hs k'
  | drop k env fuel =>
    obtain ⟨r, hr, h⟩ := Option.bind_eq_some_iff.mp h
    obtain ⟨i, hi, hfrees, -, hdata⟩ := hs.of_reader hr
    rw [dropReader_eq_some h]
    exact hs.dropReader hi hfrees hdata

end Buffers

/-! ## Every transaction is answered once -/

/-- Every transaction that the thread reached is answered once. The replies are those of two-way
transactions; such a transaction is open, and its handler runs or its reply is about to be written,
or it has one reply. One-way transactions have none. Between a transaction and its reply, whatever
was reached was answered. The buffer of a transaction is with the reader that its handler was
handed, or was freed once. -/
structure AnsweredOnce (s : Serving) (n : Nest ℕ BinderTransactionData) : Prop where
  read : Nest.read s.brackets = some n
  replies : n.matched.map Prod.snd = s.replied
  answers : ∀ m ∈ n.matched, m.1 ∈ twoWay s.received
  twoWay : ∀ k i, s.received[k]? = some i → i.transmission.header.isOneWay = false →
    k ∈ n.opened ∧ n.partners k = [] ∨
      k ∉ n.opened ∧ ∃ reply, n.partners k = [reply] ∧ i.AnsweredBy reply
  oneWay : ∀ k i, s.received[k]? = some i → i.transmission.header.isOneWay = true →
    k ∉ n.opened ∧ n.partners k = []
  opened : List.Forall₂ (Owed s.received) n.opened s.thread.debts
  nested : ∀ k, ∀ reply ∈ n.partners k, Nest.Spans k reply s.brackets
  freed : ∀ k i, s.received[k]? = some i →
    i.found = true ∧ (s.readers k).isSome ∧ freesOf s.trace k = [] ∨
      s.readers k = none ∧ freesOf s.trace k = [i.transmission.header.buffer]

/-- The unread objects of a reader are intact binder objects, references and descriptors, and those
that are found can be counted. -/
structure OnlyDrainable (env : ℕ → DropMet) (r : PayloadReader) : Prop where
  intact : ∀ off ∈ r.unread, r.Intact off
  drainable : ∀ i off, r.unread[i]? = some off → r.Drainable (env i) off

/-- Readers with such objects can be dropped: those that are there, and those that the arm of a
transaction builds. -/
structure DropsEnd (kernelWrite : KernelWrite) (s : Serving) : Prop where
  unread : ∀ k r env, s.readers k = some r → OnlyDrainable env r →
    ∃ fuel s', s.step kernelWrite (.drop k env fuel) = some s'
  missing : ∀ t env,
    OnlyDrainable env (PayloadReader.fromKernelRaw s.thread.process.device.addr t) →
    ∃ fuel s', s.receive kernelWrite t env fuel = some s'

/-- When the handler of a two-way transaction returns and the objects of its reply can be marked, the
thread writes the reply next. -/
def RepliesFollow (kernelWrite : KernelWrite) (s : Serving) : Prop :=
  ∀ o t rest outer w replyData env fuel, s.thread.frames = ⟨o, .handling t rest⟩ :: outer →
    t.header.isOneWay = false → (sendReply w s.thread.process t replyData).isSome →
    ∃ s₁ s₂, s.step kernelWrite (.thread (.handled w replyData) env fuel) = some s₁ ∧
      s₁.step kernelWrite (.thread (.read [] true) env fuel) = some s₂ ∧
      s₂.replied = s.replied ++ [(replyTo w t replyData).header]

/-- If the replies are matched with what they answer, and every buffer is in its place, then every
transaction is answered once. -/
theorem AnsweredOnce.of_serves {s : Serving} {n : Nest ℕ BinderTransactionData}
    (hs : Serves s.brackets s.received s.thread.debts n) (hbuffers : s.Buffers) :
    s.AnsweredOnce n := by
  have hreads := Nest.Reads.of_read hs.read
  have hnodup : (Nest.opensOf s.brackets).Nodup := hs.numbers ▸ nodup_twoWay s.received
  refine ⟨hs.read, hreads.closes.trans (replied_eq_closesOf s).symm, ?_, ?_, ?_, hs.owed, ?_, ?_⟩
  · intro m hm
    rw [← hs.numbers, ← hreads.opens.mem_iff]
    exact List.mem_append_right _ (List.mem_map_of_mem hm)
  · intro k i hi hone
    have hmem : k ∈ Nest.opensOf s.brackets := hs.numbers ▸ mem_twoWay.mpr ⟨i, hi, hone⟩
    rcases (hreads.partners hnodup).1 hmem with hopen | ⟨hclosed, reply, hreply⟩
    · exact Or.inl hopen
    · refine Or.inr ⟨hclosed, reply, hreply, ?_⟩
      have hpartner : reply ∈ n.partners k := by rw [hreply]; exact List.mem_singleton_self reply
      obtain ⟨j, hj, hanswered⟩ := hs.answers (k, reply) (Nest.mem_partners.mp hpartner)
      rw [hi] at hj
      cases hj
      exact hanswered
  · intro k i hi hone
    refine (hreads.partners hnodup).2 fun hmem => ?_
    rw [hs.numbers] at hmem
    obtain ⟨j, hj, htwo⟩ := mem_twoWay.mp hmem
    rw [hi] at hj
    cases hj
    rw [hone] at htwo
    cases htwo
  · intro k reply hreply
    exact hreads.spans (k, reply) (Nest.mem_partners.mp hreply)
  · intro k i hi
    have hbuffer := hbuffers k
    rw [hi] at hbuffer
    generalize hr : s.readers k = r at hbuffer
    generalize hptrs : freesOf s.trace k = ptrs at hbuffer
    cases hbuffer with
    | unread hfound hdata => exact Or.inl ⟨hfound, rfl, rfl⟩
    | freed => exact Or.inr ⟨rfl, rfl⟩

/-- With a kernel that takes every command, readers with such objects can be dropped. -/
theorem DropsEnd.of_accepts {kernelWrite : KernelWrite} (hk : Accepts kernelWrite) (s : Serving) :
    s.DropsEnd kernelWrite := by
  have hdrop : ∀ (s : Serving) k r env, OnlyDrainable env r →
      ∃ fuel s', s.dropReader kernelWrite k r env fuel = some s' := by
    intro s k r env hr
    obtain ⟨d, -, hd, -⟩ := PayloadReader.exists_drop hk hr.intact hr.drainable
    exact ⟨_, _, by rw [dropReader, hd]⟩
  constructor
  · intro k r env hr hdrains
    obtain ⟨fuel, s', hs'⟩ := hdrop s k r env hdrains
    refine ⟨fuel, s', ?_⟩
    rw [step, hr]
    exact hs'
  · intro t env hdrains
    by_cases hfound : s.thread.finds t = true
    · simp only [receive, hfound, if_true]
      exact ⟨0, _, rfl⟩
    · obtain ⟨fuel, s', hs'⟩ := hdrop { s with
        readers := s.readers.insert s.received.length
          (PayloadReader.fromKernelRaw s.thread.process.device.addr t)
        received := s.received ++ [⟨t, s.thread.finds t⟩]
        trace := s.trace ++ [.reached s.received.length t] } s.received.length _ env hdrains
      refine ⟨fuel, s', ?_⟩
      rw [receive]
      exact (if_neg hfound).trans hs'

/-- The reply of a handler that has returned is what the thread writes next. -/
theorem repliesFollow (kernelWrite : KernelWrite) (s : Serving) : s.RepliesFollow kernelWrite := by
  intro o t rest outer w replyData env fuel hframes hone hsend
  obtain ⟨⟨reply, p⟩, hsend⟩ := Option.isSome_iff_exists.mp hsend
  have hreply : reply = replyTo w t replyData := by
    obtain ⟨device, -, heq⟩ := Option.map_eq_some_iff.mp hsend
    exact (Prod.mk.inj heq).1.symm
  have hhandled : s.thread.step kernelWrite (.handled w replyData) = some
      (Thread.enter { s.thread with process := p, frames := ⟨o, .dispatch rest⟩ :: outer }
        (.reply s.thread.nextId reply replyData)) := by
    simp only [Thread.step, hframes, Thread.handledStep, hone, Bool.false_eq_true, if_false, hsend,
      Option.map_some]
  refine ⟨_, _, by rw [step, hhandled]; rfl, rfl, ?_⟩
  rw [hreply, replied, replied, List.filterMap_append, List.filterMap_append]
  simp [Thread.replies, Thread.enter, Frame.reply?]

/-- In every run in which the kernel takes the replies, every transaction that the loop reaches is
answered once, whatever the registry is and however the transactions nest. A handler that returns is
followed by its reply; and readers whose payloads hold only binder objects and descriptors can be
dropped.

**Proof sketch.** Induction on the run. What the frames owe is what is open, in the same order: a
transaction opens when its handler starts, and a reply is written by the innermost frame, so it
answers the innermost of them. -/
theorem incoming_answered_once (kernelWrite : KernelWrite) (p : Process) (ls : List ServeLabel)
    (s : Serving) (h : exec (step kernelWrite) (idle p) ls = some s)
    (htakes : Along (step kernelWrite) TakesReplies (idle p) ls) :
    (∃ n, s.AnsweredOnce n) ∧ s.RepliesFollow kernelWrite ∧
      (Accepts kernelWrite → s.DropsEnd kernelWrite) := by
  have hinv := exec_invariant_along
    (I := fun s => (∃ n, Serves s.brackets s.received s.thread.debts n) ∧ s.Buffers)
    (fun hI htakes hstep => ⟨hI.1.elim fun n hs => hs.step htakes hstep, hI.2.step hstep⟩)
    ⟨⟨_, Serves.nil⟩, fun _ => .unreached⟩ htakes h
  obtain ⟨⟨n, hs⟩, hbuffers⟩ := hinv
  exact ⟨⟨n, .of_serves hs hbuffers⟩, repliesFollow kernelWrite s, fun hk => .of_accepts hk s⟩

/-- A step of the thread whose arm meets nothing. -/
def quiet (l : Label) : ServeLabel := .thread l PayloadReader.sampleMet 1

/-- A looper hands a transaction to its handler, which starts a call; the call brings a transaction
that is answered before the first one. Then comes one whose target is not registered. -/
def nestedTransactions : List ServeLabel :=
  [quiet .startLooper,
    quiet (.read [⟨.transaction none (Thread.incomingTransaction ⟨1, 0⟩), none⟩] true),
    quiet (.dispatch quietWorld), quiet (.startCall Thread.emptyTransmission),
    quiet (.read [⟨.transaction none (Thread.incomingTransaction ⟨1, 0⟩), none⟩] true),
    quiet (.dispatch quietWorld), .drop 1 PayloadReader.sampleMet 1,
    quiet (.handled quietWorld PayloadBuilder.new), quiet (.read [] true),
    quiet (.dispatch quietWorld), quiet (.dispatch quietWorld),
    quiet (.read [⟨.reply Thread.emptyTransmission, some (.call 1)⟩] true),
    quiet (.dispatch quietWorld),
    .call 0 .readFd, .drop 0 PayloadReader.sampleMet 1,
    quiet (.handled quietWorld PayloadBuilder.new), quiet (.read [] true),
    quiet (.dispatch quietWorld), quiet (.dispatch quietWorld),
    quiet (.read [⟨.transaction none (Thread.incomingTransaction ⟨2, 0⟩), none⟩] true),
    quiet (.dispatch quietWorld)]

/-- All three are answered once, and nothing is owed in the end. -/
theorem incoming_answered_once_nestedTransactions :
    ∃ s, exec (step fun _ _ => none) (idle (processWith ⟨1, 0⟩)) nestedTransactions = some s ∧
      s.received.length = 3 ∧ s.replied.length = 3 ∧ s.thread.debts = [] ∧
      ((∃ n, s.AnsweredOnce n) ∧ s.RepliesFollow (fun _ _ => none) ∧
        (Accepts (fun _ _ => none) → s.DropsEnd fun _ _ => none)) := by
  obtain ⟨s, hs⟩ : ∃ s, exec (step fun _ _ => none) (idle (processWith ⟨1, 0⟩))
      nestedTransactions = some s := ⟨_, rfl⟩
  have hresult := hs
  cases hresult
  refine ⟨_, hs, rfl, rfl, rfl, incoming_answered_once (fun _ _ => none) (processWith ⟨1, 0⟩)
    nestedTransactions _ hs (along_of_forall ?_ _)⟩
  intro l hl
  fin_cases hl <;> exact fun _ => trivial

end Serving

end BinderBinder
