import Mathlib.Algebra.Group.Nat.Defs
import Mathlib.Tactic.Common

set_option relaxedAutoImplicit false
set_option autoImplicit false

/-!
# Fixed-width memory layouts

How a value of a plain data type lies in memory: a fixed number of bytes, little-endian. A layout
reads any bytes as a value, as `ptr::read_unaligned` does; what it promises is that a value that
was written is read back.

## Main definitions

* `Layout` — an encoder and a decoder of fixed width that agree.
* `Layout.u32`, `Layout.u64`, `Layout.prod`, `Layout.map`, `Layout.pad` — the building blocks.
* `Layout.readAt`, `Layout.writeAt` — access to a value inside a buffer, `none` out of range.

## Main results

* `Layout.readAt_append` — a value that was appended is read at the old length.
* `Layout.writeAt_append` — a value between two parts of a buffer is overwritten in place.
* `Layout.getElem?_of_writeAt` — overwriting leaves all other bytes alone.
-/

/-! ## Little-endian numbers -/

/-- The `n` low bytes of `v`, lowest first. -/
def toLE : ℕ → ℕ → List UInt8
  | 0, _ => []
  | n + 1, v => UInt8.ofNat (v % 256) :: toLE n (v / 256)

/-- The number the first `n` bytes spell, lowest first; missing bytes count as zero. -/
def ofLE : ℕ → List UInt8 → ℕ
  | 0, _ => 0
  | n + 1, bs => (bs.headD 0).toNat + 256 * ofLE n bs.tail

@[simp] theorem length_toLE (n v : ℕ) : (toLE n v).length = n := by
  induction n generalizing v with
  | zero => rfl
  | succ n ih => simp only [toLE, List.length_cons, ih]

/-- Reading looks at the first `n` bytes only. -/
theorem ofLE_append {n : ℕ} {bs : List UInt8} (rest : List UInt8) (h : n ≤ bs.length) :
    ofLE n (bs ++ rest) = ofLE n bs := by
  induction n generalizing bs with
  | zero => rfl
  | succ n ih =>
    cases bs with
    | nil => simp at h
    | cons b bs =>
      have hbs : n ≤ bs.length := by simpa using h
      simp only [ofLE, List.cons_append, List.headD_cons, List.tail_cons, ih hbs]

/-- A number that fits is read back. -/
theorem ofLE_toLE {n v : ℕ} (rest : List UInt8) (h : v < 256 ^ n) :
    ofLE n (toLE n v ++ rest) = v := by
  induction n generalizing v with
  | zero => simp only [Nat.pow_zero, Nat.lt_one_iff] at h; simp [ofLE, h]
  | succ n ih =>
    have hq : v / 256 < 256 ^ n := Nat.div_lt_of_lt_mul (by rwa [Nat.pow_succ, Nat.mul_comm] at h)
    have hb : (UInt8.ofNat (v % 256)).toNat = v % 256 := by simp
    simp only [toLE, ofLE, List.cons_append, List.headD_cons, List.tail_cons, ih hq, hb]
    omega

/-- The bytes of a number that was read are those that it was read from. -/
theorem toLE_ofLE {n : ℕ} {bs : List UInt8} (h : bs.length = n) : toLE n (ofLE n bs) = bs := by
  induction n generalizing bs with
  | zero => exact (List.length_eq_zero_iff.mp h).symm
  | succ n ih =>
    obtain ⟨b, bs, rfl⟩ := List.exists_cons_of_length_eq_add_one h
    have hb : (b.toNat + 256 * ofLE n bs) % 256 = b.toNat := by
      have hlt := b.toNat_lt
      omega
    have hq : (b.toNat + 256 * ofLE n bs) / 256 = ofLE n bs := by
      have hlt := b.toNat_lt
      omega
    simp only [toLE, ofLE, List.headD_cons, List.tail_cons, hb, hq, UInt8.ofNat_toNat]
    rw [ih (Nat.succ.inj h)]

/-- The number that `n` bytes spell fits. -/
theorem ofLE_lt (n : ℕ) (bs : List UInt8) : ofLE n bs < 256 ^ n := by
  induction n generalizing bs with
  | zero => simp [ofLE]
  | succ n ih =>
    have hb := (bs.headD 0).toNat_lt
    have hq := ih bs.tail
    simp only [ofLE, Nat.pow_succ]
    omega

/-! ## Layouts -/

/-- A fixed-width encoding of the values of `α`. -/
structure Layout (α : Type*) where
  size : ℕ
  encode : α → List UInt8
  decode : List UInt8 → α
  length_encode : ∀ a, (encode a).length = size
  decode_encode : ∀ a, decode (encode a) = a
  decode_append : ∀ bs rest, size ≤ bs.length → decode (bs ++ rest) = decode bs

namespace Layout

variable {α β : Type*}

/-- A `u32`. -/
def u32 : Layout UInt32 where
  size := 4
  encode v := toLE 4 v.toNat
  decode bs := UInt32.ofNat (ofLE 4 bs)
  length_encode _ := length_toLE 4 _
  decode_encode v := by
    have h := ofLE_toLE (n := 4) [] v.toNat_lt
    rw [List.append_nil] at h
    rw [h, UInt32.ofNat_toNat]
  decode_append bs rest h := by rw [ofLE_append rest h]

/-- Four bytes that are read as a `u32` are those of that `u32`. -/
theorem u32_encode_decode {bs : List UInt8} (h : bs.length = 4) : u32.encode (u32.decode bs) = bs := by
  have hlt : ofLE 4 bs < UInt32.size := ofLE_lt 4 bs
  show toLE 4 (UInt32.ofNat (ofLE 4 bs)).toNat = bs
  rw [UInt32.toNat_ofNat_of_lt' hlt, toLE_ofLE h]

/-- A `u64`. -/
def u64 : Layout UInt64 where
  size := 8
  encode v := toLE 8 v.toNat
  decode bs := UInt64.ofNat (ofLE 8 bs)
  length_encode _ := length_toLE 8 _
  decode_encode v := by
    have h := ofLE_toLE (n := 8) [] v.toNat_lt
    rw [List.append_nil] at h
    rw [h, UInt64.ofNat_toNat]
  decode_append bs rest h := by rw [ofLE_append rest h]

/-- `n` bytes of padding, written as zeros and not read. -/
def pad (n : ℕ) : Layout Unit where
  size := n
  encode _ := List.replicate n 0
  decode _ := ()
  length_encode _ := List.length_replicate
  decode_encode _ := rfl
  decode_append _ _ _ := rfl

/-- The encoding of a value fills the layout. -/
theorem size_le (l : Layout α) (a : α) : l.size ≤ (l.encode a).length :=
  Nat.le_of_eq (l.length_encode a).symm

/-- One field after another. -/
def prod (a : Layout α) (b : Layout β) : Layout (α × β) where
  size := a.size + b.size
  encode p := a.encode p.1 ++ b.encode p.2
  decode bs := (a.decode bs, b.decode (bs.drop a.size))
  length_encode p := by rw [List.length_append, a.length_encode, b.length_encode]
  decode_encode p := by
    have hdrop : (a.encode p.1 ++ b.encode p.2).drop a.size = b.encode p.2 :=
      List.drop_left' (a.length_encode p.1)
    rw [a.decode_append _ _ (a.size_le _), a.decode_encode, hdrop, b.decode_encode]
  decode_append bs rest h := by
    have hb : b.size ≤ (bs.drop a.size).length := by rw [List.length_drop]; omega
    rw [a.decode_append bs rest (by omega), List.drop_append_of_le_length (by omega),
      b.decode_append _ rest hb]

/-- The layout of a type whose values `get` takes apart into those of another. -/
def map (l : Layout α) (mk : α → β) (get : β → α) (h : ∀ b, mk (get b) = b) : Layout β where
  size := l.size
  encode b := l.encode (get b)
  decode bs := mk (l.decode bs)
  length_encode b := l.length_encode (get b)
  decode_encode b := by rw [l.decode_encode, h]
  decode_append bs rest hb := by rw [l.decode_append bs rest hb]

/-- A value is read back from its bytes, whatever comes after them. -/
@[simp] theorem decode_encode_append (l : Layout α) (a : α) (rest : List UInt8) :
    l.decode (l.encode a ++ rest) = a := by
  rw [l.decode_append _ _ (l.size_le a), l.decode_encode]

/-- The first field of a value is read from the start of its bytes. -/
theorem decode_fst_append {γ : Type*} (a : Layout α) (b : Layout β) (mk : α × β → γ)
    (get : γ → α × β) (h : ∀ c, mk (get c) = c) (c : γ) (rest : List UInt8) :
    a.decode (((a.prod b).map mk get h).encode c ++ rest) = (get c).1 := by
  show a.decode ((a.encode (get c).1 ++ b.encode (get c).2) ++ rest) = (get c).1
  rw [List.append_assoc, decode_encode_append]

/-! ## Access to a buffer -/

/-- The value at `off`, `none` if the buffer ends before it does. -/
def readAt (l : Layout α) (data : List UInt8) (off : ℕ) : Option α :=
  if off + l.size ≤ data.length then some (l.decode (data.drop off)) else none

/-- Overwrite the bytes at `off`, `none` if the buffer ends before the value does. -/
def writeAt (l : Layout α) (data : List UInt8) (off : ℕ) (a : α) : Option (List UInt8) :=
  if off + l.size ≤ data.length then
    some (data.take off ++ l.encode a ++ data.drop (off + l.size))
  else none

/-- A value between two other parts of a buffer is read at the length of the first part. -/
theorem readAt_append (l : Layout α) (pre post : List UInt8) (a : α) :
    l.readAt (pre ++ (l.encode a ++ post)) pre.length = some a := by
  have hfit : pre.length + l.size ≤ (pre ++ (l.encode a ++ post)).length := by
    simp only [List.length_append, l.length_encode]
    omega
  rw [readAt, if_pos hfit, List.drop_left, decode_encode_append]

/-- Overwriting such a value replaces it and leaves both other parts alone. -/
theorem writeAt_append (l : Layout α) (pre post : List UInt8) (a a' : α) :
    l.writeAt (pre ++ (l.encode a ++ post)) pre.length a' =
      some (pre ++ (l.encode a' ++ post)) := by
  have hfit : pre.length + l.size ≤ (pre ++ (l.encode a ++ post)).length := by
    simp only [List.length_append, l.length_encode]
    omega
  have hdrop : (pre ++ (l.encode a ++ post)).drop (pre.length + l.size) = post := by
    rw [← List.append_assoc]
    exact List.drop_left' (by rw [List.length_append, l.length_encode])
  rw [writeAt, if_pos hfit, List.take_left, hdrop, List.append_assoc]

/-- Overwriting keeps the length of a buffer. -/
theorem length_of_writeAt (l : Layout α) {data data' : List UInt8} {off : ℕ} {a : α}
    (h : l.writeAt data off a = some data') : data'.length = data.length := by
  unfold writeAt at h
  split_ifs at h with hfit
  cases h
  simp only [List.length_append, List.length_take, List.length_drop, l.length_encode]
  omega

/-- Overwriting leaves the bytes in front of the value and behind it alone. -/
theorem getElem?_of_writeAt (l : Layout α) {data data' : List UInt8} {off i : ℕ} {a : α}
    (h : l.writeAt data off a = some data') (hi : i < off ∨ off + l.size ≤ i) :
    data'[i]? = data[i]? := by
  unfold writeAt at h
  split_ifs at h with hfit
  cases h
  have htake : (data.take off).length = off := by
    rw [List.length_take]
    omega
  rw [List.append_assoc]
  rcases hi with hbefore | hbehind
  · rw [List.getElem?_append_left (by omega), List.getElem?_take_of_lt hbefore]
  · rw [List.getElem?_append_right (by omega), htake,
      List.getElem?_append_right (by rw [l.length_encode]; omega), l.length_encode,
      List.getElem?_drop]
    congr 1
    omega

/-- A value behind one that is overwritten is read as before. -/
theorem readAt_of_writeAt (l : Layout α) (l' : Layout β) {data data' : List UInt8}
    {off off' : ℕ} {a : α} (h : l.writeAt data off a = some data') (hoff : off + l.size ≤ off') :
    l'.readAt data' off' = l'.readAt data off' := by
  have hdrop : data'.drop off' = data.drop off' := by
    refine List.ext_getElem? fun i => ?_
    rw [List.getElem?_drop, List.getElem?_drop, l.getElem?_of_writeAt h (Or.inr (by omega))]
  rw [readAt, readAt, l.length_of_writeAt h, hdrop]

end Layout
