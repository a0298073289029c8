import BinderBinder.Sys

set_option relaxedAutoImplicit false
set_option autoImplicit false

/-!
# Framing of the read stream

The kernel fills a read buffer with records: a return code and the payload whose size the code
states. The loop of `binder_write_read` reads a code, and the arm of that code reads the payload it
expects. The sizes of the arms are those of the codes but for `BR_ATTEMPT_ACQUIRE`, whose arm reads
a struct without the priority and leaves eight bytes behind.

## Main definitions

* `BinderReturn`, `BinderReturn.payload`, `BinderReturn.toU32` — the table of return codes.
* `BinderReturn.readPayload` — the struct each arm of the loop reads.
* `ReturnRecord`, `ReturnRecord.encode` — a record as the kernel lays it out.
* `readLoop` — the loop over the bytes, with arms that may end the call, or panic.
* `reached` — the records up to the first one that ends the call.
* `visited` — the records that get to their arms.

## Main results

* `BinderReturn.ofU32_toU32` — no two return codes are the same.
* `readRecord_encode` — one round reads one record, if its arm reads the right size.
* `readLoop_reads_records_iff` — the loop reads the records exactly if no `BR_ATTEMPT_ACQUIRE` is
  reached and no arm of a reached record panics.
-/

namespace BinderBinder

/-! ## Return codes -/

/-- The payload types of return codes. -/
inductive ReturnPayload
  | none
  | i32
  | uintptr
  | ptrCookie
  | priorityPtrCookie
  | transactionData
  | transactionDataSecCtx
  | frozenStateInfo
  deriving DecidableEq, Repr

/-- `size_of` of a payload type. -/
def ReturnPayload.size : ReturnPayload → ℕ
  | none => 0
  | i32 => Layout.u32.size
  | uintptr => Layout.u64.size
  | ptrCookie => BinderPtrCookie.layout.size
  | priorityPtrCookie => BinderPriorityPtrCookie.layout.size
  | transactionData => BinderTransactionData.layout.size
  | transactionDataSecCtx => BinderTransactionDataSecCtx.layout.size
  | frozenStateInfo => BinderFrozenStateInfo.layout.size

/-- The table `BinderReturn`. -/
inductive BinderReturn
  | error
  | ok
  | transactionSecCtx
  | transaction
  | reply
  | acquireResult
  | deadReply
  | transactionComplete
  | increfs
  | acquire
  | release
  | decrefs
  | attemptAcquire
  | noop
  | spawnLooper
  | finished
  | deadBinder
  | clearDeathNotificationDone
  | failedReply
  | frozenReply
  | onewaySpamSuspect
  | transactionPendingFrozen
  | frozenBinder
  | clearFreezeNotificationDone
  deriving DecidableEq, Repr

namespace BinderReturn

/-- Every return code of the table. -/
def all : List BinderReturn :=
  [error, ok, transactionSecCtx, transaction, reply, acquireResult, deadReply, transactionComplete,
    increfs, acquire, release, decrefs, attemptAcquire, noop, spawnLooper, finished, deadBinder,
    clearDeathNotificationDone, failedReply, frozenReply, onewaySpamSuspect,
    transactionPendingFrozen, frozenBinder, clearFreezeNotificationDone]

/-- The payload type in the table: `T` of `read::<T>`, or none for `none`. -/
def payload : BinderReturn → ReturnPayload
  | error | acquireResult => .i32
  | transactionSecCtx => .transactionDataSecCtx
  | transaction | reply => .transactionData
  | increfs | acquire | release | decrefs => .ptrCookie
  | attemptAcquire => .priorityPtrCookie
  | deadBinder | clearDeathNotificationDone | clearFreezeNotificationDone => .uintptr
  | frozenBinder => .frozenStateInfo
  | ok | deadReply | transactionComplete | noop | spawnLooper | finished | failedReply
  | frozenReply | onewaySpamSuspect | transactionPendingFrozen => .none

/-- The number in the table. -/
def number : BinderReturn → UInt32
  | error => 0
  | ok => 1
  | transactionSecCtx => 2
  | transaction => 2
  | reply => 3
  | acquireResult => 4
  | deadReply => 5
  | transactionComplete => 6
  | increfs => 7
  | acquire => 8
  | release => 9
  | decrefs => 10
  | attemptAcquire => 11
  | noop => 12
  | spawnLooper => 13
  | finished => 14
  | deadBinder => 15
  | clearDeathNotificationDone => 16
  | failedReply => 17
  | frozenReply => 18
  | onewaySpamSuspect => 19
  | transactionPendingFrozen => 20
  | frozenBinder => 21
  | clearFreezeNotificationDone => 22

/-- `read::<T>(b'r', number)`, or `none(b'r', number)` without a payload: the direction bits, the
size, the letter and the number. -/
def toU32 (r : BinderReturn) : UInt32 :=
  let low := ((ascii 'r').toUInt32 <<< 8) ||| r.number
  match r.payload with
  | .none => low
  | p => ((2 : UInt32) <<< 30) ||| (UInt32.ofNat p.size <<< 16) ||| low

/-- The return code with a number, `none` for one that is not in the table. -/
def ofU32 (v : UInt32) : Option BinderReturn := all.find? fun r => r.toU32 == v

/-- No two return codes of the table are the same. -/
@[simp] theorem ofU32_toU32 (r : BinderReturn) : ofU32 r.toU32 = some r := by
  cases r <;> decide +kernel

/-- The struct that the arm of a return code reads with `read_from_slice`. -/
def readPayload : BinderReturn → ReturnPayload
  | attemptAcquire => .ptrCookie
  | r => r.payload

/-- The arms read what the table says, with one exception. -/
theorem readPayload_size {r : BinderReturn} (h : r ≠ attemptAcquire) :
    r.readPayload.size = r.payload.size := by
  cases r <;> first | rfl | exact absurd rfl h

/-- The exception reads too little. -/
theorem readPayload_size_attemptAcquire :
    attemptAcquire.readPayload.size < attemptAcquire.payload.size := by
  decide

end BinderReturn

/-! ## Records in a buffer -/

/-- A record as the kernel writes it: a return code of the table, and as many bytes of payload as
the code states. -/
structure ReturnRecord where
  ret : BinderReturn
  payload : List UInt8
  length_payload : payload.length = ret.payload.size

namespace ReturnRecord

/-- The code, then the payload. -/
def encode (r : ReturnRecord) : List UInt8 := Layout.u32.encode r.ret.toU32 ++ r.payload

/-- Records back to back. -/
def encodeAll (rs : List ReturnRecord) : List UInt8 := rs.flatMap encode

end ReturnRecord

/-- What one round of the loop reads. -/
inductive ReadRecord
  | known (ret : BinderReturn) (payload : List UInt8)
  | unknown (code : UInt32)
  deriving DecidableEq, Repr

/-- The record of the kernel, as the loop should read it. -/
def ReturnRecord.read (r : ReturnRecord) : ReadRecord := .known r.ret r.payload

/-! ## The loop -/

/-- `read_from_slice` of a struct of `n` bytes: its bytes and the rest of the slice; a slice that is
too short is an assertion failure. -/
def readFromSlice (n : ℕ) (slice : List UInt8) : Option (List UInt8 × List UInt8) :=
  if n ≤ slice.length then some (slice.take n, slice.drop n) else none

/-- The reads of one round of the loop: the code, and the payload that its arm reads. -/
def readRecord (slice : List UInt8) : Option (ReadRecord × List UInt8) := do
  let (header, slice) ← readFromSlice Layout.u32.size slice
  let code := Layout.u32.decode header
  match BinderReturn.ofU32 code with
  | some ret =>
    let (payload, slice) ← readFromSlice ret.readPayload.size slice
    return (.known ret payload, slice)
  | none => return (.unknown code, slice)

section Loop

-- what an arm does with a record: the state it leaves, and whether it returns from the call; `none`
-- is a panic, or an arm that does not come to an end
variable {σ : Type} (arm : σ → ReadRecord → Option (σ × Bool))

/-- The loop `while consumed != read_consumed`: the records it reads, the state it ends in, and
whether an arm returned. A round consumes at least a code, so the bytes bound the rounds. -/
def readLoop : ℕ → σ → List UInt8 → Option (List ReadRecord × σ × Bool)
  | _, s, [] => some ([], s, false)
  | 0, _, _ :: _ => none
  | n + 1, s, b :: bs => do
    let (r, slice) ← readRecord (b :: bs)
    let (s, returns) ← arm s r
    if returns then return ([r], s, true)
    let (rs, s, returned) ← readLoop n s slice
    return (r :: rs, s, returned)

/-- The records up to the first one that ends the call, with the state after them and whether there
was such a record; `none` if the arm of one of them panics. -/
def reached (s : σ) : List ReturnRecord → Option (List ReturnRecord × σ × Bool)
  | [] => some ([], s, false)
  | r :: rs => do
    let (s, returns) ← arm s r.read
    if returns then return ([r], s, true)
    let (rs, s, returned) ← reached s rs
    return (r :: rs, s, returned)

/-- The records that get to their arms, each with the state that its arm starts in: those up to the
first one whose arm ends the call or panics. -/
def visited (s : σ) : List ReturnRecord → List (σ × ReturnRecord)
  | [] => []
  | r :: rs =>
    match arm s r.read with
    | some (s', false) => (s, r) :: visited s' rs
    | _ => [(s, r)]

/-- The loop reads exactly the records that are reached, without a panic, and ends like them. -/
def ReadsRecords (s : σ) (rs : List ReturnRecord) : Prop :=
  ∃ x, reached arm s rs = some x ∧
    readLoop arm (ReturnRecord.encodeAll rs).length s (ReturnRecord.encodeAll rs) =
      some (x.1.map ReturnRecord.read, x.2)

end Loop

/-! ## One round -/

/-- Reading as many bytes as come first splits them off. -/
theorem readFromSlice_append {front rest : List UInt8} {n : ℕ} (h : front.length = n) :
    readFromSlice n (front ++ rest) = some (front, rest) := by
  subst h
  rw [readFromSlice, if_pos (by rw [List.length_append]; omega), List.take_left, List.drop_left]

/-- A slice that begins with a return code leaves the payload to the arm of that code. -/
theorem readRecord_code (ret : BinderReturn) (slice : List UInt8) :
    readRecord (Layout.u32.encode ret.toU32 ++ slice) =
      (readFromSlice ret.readPayload.size slice).map fun (payload, slice) =>
        (.known ret payload, slice) := by
  rw [readRecord, readFromSlice_append (Layout.u32.length_encode _)]
  simp only [Option.bind_eq_bind, Option.bind_some, Layout.decode_encode, BinderReturn.ofU32_toU32]
  cases readFromSlice ret.readPayload.size slice <;> rfl

/-- One round reads one record, if its arm reads the right size. -/
theorem readRecord_encode {r : ReturnRecord} (h : r.ret ≠ .attemptAcquire) (rest : List UInt8) :
    readRecord (r.encode ++ rest) = some (r.read, rest) := by
  have hlen : r.payload.length = r.ret.readPayload.size := by
    rw [r.length_payload, BinderReturn.readPayload_size h]
  rw [ReturnRecord.encode, List.append_assoc, readRecord_code, readFromSlice_append hlen]
  rfl

/-- Of a `BR_ATTEMPT_ACQUIRE` one round reads too short a payload. -/
theorem readRecord_attemptAcquire {r : ReturnRecord} (h : r.ret = .attemptAcquire)
    {rest slice : List UInt8} {d : ReadRecord}
    (hread : readRecord (r.encode ++ rest) = some (d, slice)) : d ≠ r.read := by
  rw [ReturnRecord.encode, List.append_assoc, readRecord_code, Option.map_eq_some_iff] at hread
  obtain ⟨⟨payload, slice'⟩, hpayload, heq⟩ := hread
  cases heq
  intro hd
  have hshort : payload.length = r.ret.readPayload.size := by
    unfold readFromSlice at hpayload
    split_ifs at hpayload with hle
    cases hpayload
    rw [List.length_take, Nat.min_eq_left hle]
  have hlen := r.length_payload
  rw [← (ReadRecord.known.inj hd).2, hshort, h] at hlen
  exact absurd hlen (Nat.ne_of_lt BinderReturn.readPayload_size_attemptAcquire)

/-- A record is at least one byte long. -/
theorem exists_encode_eq_cons (r : ReturnRecord) (rest : List UInt8) :
    ∃ b bs, r.encode ++ rest = b :: bs ∧ rest.length ≤ bs.length := by
  have hlen : (r.encode ++ rest).length = 4 + r.payload.length + rest.length := by
    rw [List.length_append, ReturnRecord.encode, List.length_append, Layout.u32.length_encode]
    rfl
  cases hbytes : r.encode ++ rest with
  | nil =>
    rw [hbytes, List.length_nil] at hlen
    omega
  | cons b bs =>
    rw [hbytes, List.length_cons] at hlen
    exact ⟨b, bs, rfl, by omega⟩

/-! ## The whole buffer -/

section Loop

variable {σ : Type} (arm : σ → ReadRecord → Option (σ × Bool))

/-- What the loop reads begins with what its first round reads. -/
theorem readLoop_head {n : ℕ} {s : σ} {b : UInt8} {bs slice : List UInt8} {d : ReadRecord}
    {ds : List ReadRecord} {t : σ × Bool} (hread : readRecord (b :: bs) = some (d, slice))
    (h : readLoop arm (n + 1) s (b :: bs) = some (ds, t)) : ∃ ds', ds = d :: ds' := by
  rw [readLoop, hread] at h
  simp only [Option.bind_eq_bind, Option.bind_some] at h
  obtain ⟨⟨s', returns⟩, -, h⟩ := Option.bind_eq_some_iff.mp h
  dsimp only at h
  split_ifs at h
  · cases h
    exact ⟨[], rfl⟩
  · obtain ⟨⟨ds', t'⟩, -, h⟩ := Option.bind_eq_some_iff.mp h
    cases h
    exact ⟨ds', rfl⟩

/-- The first record is reached. -/
theorem reached_head {s : σ} {r : ReturnRecord} {rs : List ReturnRecord}
    {x : List ReturnRecord × σ × Bool} (h : reached arm s (r :: rs) = some x) :
    ∃ rs', x.1 = r :: rs' := by
  obtain ⟨⟨s', returns⟩, -, h⟩ := Option.bind_eq_some_iff.mp h
  dsimp only at h
  split_ifs at h
  · cases h
    exact ⟨[], rfl⟩
  · obtain ⟨⟨rs', t⟩, -, h⟩ := Option.bind_eq_some_iff.mp h
    cases h
    exact ⟨rs', rfl⟩

/-- The first record gets to its arm. -/
theorem mem_visited_head (s : σ) (r : ReturnRecord) (rs : List ReturnRecord) :
    (s, r) ∈ visited arm s (r :: rs) := by
  rw [visited]
  split <;> exact List.mem_cons_self

/-- The loop on the bytes of records, with enough rounds.

**Proof sketch.** Induction on the records. A round reads the first record, hands it to its arm and
goes on with the rest, as `reached` does; an arm that panics ends both. Where the first record is a
`BR_ATTEMPT_ACQUIRE`, the round reads something else, whatever comes after. -/
theorem readLoop_encodeAll {n : ℕ} (s : σ) (rs : List ReturnRecord)
    (hn : (ReturnRecord.encodeAll rs).length ≤ n) :
    (∃ x, reached arm s rs = some x ∧ readLoop arm n s (ReturnRecord.encodeAll rs) =
        some (x.1.map ReturnRecord.read, x.2)) ↔
      ∀ x ∈ visited arm s rs, x.2.ret ≠ .attemptAcquire ∧ (arm x.1 x.2.read).isSome := by
  induction rs generalizing n s with
  | nil =>
    have hempty : readLoop arm n s (ReturnRecord.encodeAll []) = some ([], s, false) := by
      cases n <;> rfl
    simp [hempty, reached, visited]
  | cons r rs ih =>
    obtain ⟨b, bs, hbytes, hrest⟩ := exists_encode_eq_cons r (ReturnRecord.encodeAll rs)
    have hall : ReturnRecord.encodeAll (r :: rs) = b :: bs := hbytes
    rw [hall] at hn ⊢
    obtain ⟨m, rfl⟩ : ∃ m, n = m + 1 := ⟨n - 1, by rw [List.length_cons] at hn; omega⟩
    have hm : (ReturnRecord.encodeAll rs).length ≤ m := by rw [List.length_cons] at hn; omega
    by_cases hr : r.ret = .attemptAcquire
    · refine ⟨?_, fun hvisited => absurd hr (hvisited (s, r) (mem_visited_head arm s r rs)).1⟩
      rintro ⟨x, hreached, hloop⟩
      -- both lists begin with what the first round read
      obtain ⟨rs', hx⟩ := reached_head arm hreached
      cases hread : readRecord (b :: bs) with
      | none =>
        rw [readLoop, hread] at hloop
        cases hloop
      | some p =>
        obtain ⟨d, slice⟩ := p
        obtain ⟨ds', hds⟩ := readLoop_head arm hread hloop
        rw [hx, List.map_cons] at hds
        exact absurd (List.cons.inj hds).1.symm
          (readRecord_attemptAcquire hr (by rw [hbytes]; exact hread))
    · rw [readLoop, ← hbytes, readRecord_encode hr, reached, visited]
      simp only [Option.bind_eq_bind, Option.bind_some]
      cases harm : arm s r.read with
      | none => simp [harm]
      | some y =>
        obtain ⟨s', returns⟩ := y
        cases returns with
        | true => simp [harm, hr]
        | false =>
          have hfirst : r.ret ≠ .attemptAcquire ∧ (arm s r.read).isSome := ⟨hr, by simp [harm]⟩
          simp only [Option.bind_some, Bool.false_eq_true, if_false]
          rw [List.forall_mem_cons, ← ih s' hm, and_iff_right hfirst]
          constructor
          · rintro ⟨x, hreached, hloop⟩
            obtain ⟨⟨rs', t⟩, hrs', hreached⟩ := Option.bind_eq_some_iff.mp hreached
            obtain ⟨⟨ds, t'⟩, hds, hloop⟩ := Option.bind_eq_some_iff.mp hloop
            cases hreached
            obtain ⟨hrecords, ht⟩ := Prod.mk.inj (Option.some.inj hloop)
            refine ⟨(rs', t), hrs', ?_⟩
            rw [hds]
            exact congrArg some (Prod.ext (List.cons.inj hrecords).2 ht)
          · rintro ⟨⟨rs', t⟩, hrs', hds⟩
            refine ⟨(r :: rs', t), ?_, ?_⟩
            · rw [hrs']
              rfl
            · rw [hds]
              rfl

/-- **Framing of the read stream.** On every sequence of records of the table, and whatever the
arms do, the loop reads exactly the records up to the first one that ends the call, with their
payloads and without a panic, if and only if none of those that get to their arms is a
`BR_ATTEMPT_ACQUIRE`, and none of these arms panics. -/
theorem readLoop_reads_records_iff (s : σ) (rs : List ReturnRecord) :
    ReadsRecords arm s rs ↔
      ∀ x ∈ visited arm s rs, x.2.ret ≠ .attemptAcquire ∧ (arm x.1 x.2.read).isSome :=
  readLoop_encodeAll arm s rs (Nat.le_refl _)

end Loop

/-- A `BR_ATTEMPT_ACQUIRE` whose cookie spells the code of `BR_DEAD_REPLY`. -/
def attemptAcquireRecord : ReturnRecord where
  ret := .attemptAcquire
  payload := List.replicate 16 0 ++ toLE 8 BinderReturn.deadReply.toU32.toNat
  length_payload := by decide

/-- With arms that never return, the loop takes the cookie of this record for a `BR_DEAD_REPLY`. -/
theorem readLoop_takes_cookie_for_code :
    readLoop (fun (_ : Unit) _ => some ((), false)) attemptAcquireRecord.encode.length ()
        attemptAcquireRecord.encode =
      some ([.known .attemptAcquire (List.replicate 16 0), .known .deadReply [], .unknown 0], (),
        false) ∧
    ¬ ReadsRecords (fun (_ : Unit) _ => some ((), false)) () [attemptAcquireRecord] := by
  refine ⟨by decide +kernel, ?_⟩
  rw [ReadsRecords, readLoop_encodeAll _ _ _ (Nat.le_refl _)]
  decide +kernel

end BinderBinder
