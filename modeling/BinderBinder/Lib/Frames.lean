import BinderBinder.Lib.Layout

set_option relaxedAutoImplicit false
set_option autoImplicit false

/-!
# Frames in a stream of bytes

A frame is a code of four bytes and a payload whose length the code states. A stream is cut into
frames from the front, up to the first bytes that are not a frame: too few of them, or a code whose
length is not known. Frames back to back are cut as they were put together, and nothing else is cut
into them.

## Main definitions

* `Frame`, `Frame.encode`, `Frame.encodeAll` — a frame and its bytes.
* `Frame.scan` — the frames at the front of a stream, and the bytes behind them.
* `FrameCodec` — messages that are sent as frames.

## Main results

* `Frame.scan_encodeAll_append` — frames in front of other bytes are cut off.
* `Frame.scan_drop` — a stream whose first frames were taken goes on with the next one.
* `Frame.scan_eq_iff` — what a stream was put together from if it is cut without a rest.
* `FrameCodec.decodeAll_encodeAll` — messages are read back from their bytes.
-/

/-- A code, and the payload behind it. -/
structure Frame where
  code : UInt32
  payload : List UInt8
  deriving DecidableEq, Repr

namespace Frame

/-- The code, then the payload. -/
def encode (f : Frame) : List UInt8 := Layout.u32.encode f.code ++ f.payload

/-- Frames back to back. -/
def encodeAll (fs : List Frame) : List UInt8 := fs.flatMap encode

@[simp] theorem encodeAll_nil : encodeAll [] = [] := rfl

@[simp] theorem encodeAll_cons (f : Frame) (fs : List Frame) :
    encodeAll (f :: fs) = f.encode ++ encodeAll fs := rfl

/-- Frames behind each other. -/
theorem encodeAll_append (fs gs : List Frame) :
    encodeAll (fs ++ gs) = encodeAll fs ++ encodeAll gs :=
  List.flatMap_append

section Scan

-- the length of the payload behind a code, `none` if it is not known
variable (size : UInt32 → Option ℕ)

/-- The payload is as long as the code states. -/
def Fits (f : Frame) : Prop := size f.code = some f.payload.length

/-- The frame at the front of a stream, and the bytes behind it. -/
def next (bs : List UInt8) : Option (Frame × List UInt8) :=
  let code := Layout.u32.decode (bs.take 4)
  let behind := bs.drop 4
  if 4 ≤ bs.length then
    (size code).bind fun n =>
      if n ≤ behind.length then some (⟨code, behind.take n⟩, behind.drop n) else none
  else none

/-- At most `n` frames at the front of a stream, and the bytes behind them. -/
def scanUpTo : ℕ → List UInt8 → List Frame × List UInt8
  | 0, bs => ([], bs)
  | n + 1, bs =>
    match next size bs with
    | none => ([], bs)
    | some (f, rest) => (f :: (scanUpTo n rest).1, (scanUpTo n rest).2)

/-- The frames at the front of a stream, and the bytes behind them. A frame has a code at least, so
the bytes bound the frames. -/
def scan (bs : List UInt8) : List Frame × List UInt8 := scanUpTo size bs.length bs

/-! ## One frame -/

variable {size}

/-- A frame in front of other bytes is cut off. -/
theorem next_encode_append {f : Frame} (h : f.Fits size) (rest : List UInt8) :
    next size (f.encode ++ rest) = some (f, rest) := by
  have hcode : (Layout.u32.encode f.code).length = 4 := Layout.u32.length_encode _
  have hbytes : f.encode ++ rest = Layout.u32.encode f.code ++ (f.payload ++ rest) :=
    List.append_assoc _ _ _
  have htake : (f.encode ++ rest).take 4 = Layout.u32.encode f.code := by
    rw [hbytes, List.take_left' hcode]
  have hdrop : (f.encode ++ rest).drop 4 = f.payload ++ rest := by
    rw [hbytes, List.drop_left' hcode]
  have hlen : 4 ≤ (f.encode ++ rest).length := by
    rw [hbytes, List.length_append, hcode]
    omega
  simp only [next]
  rw [if_pos hlen, htake, hdrop, Layout.decode_encode, h, Option.bind_some,
    if_pos (by rw [List.length_append]; omega), List.take_left, List.drop_left]

/-- The bytes that a frame was cut off from begin with it. -/
theorem eq_append_of_next {bs rest : List UInt8} {f : Frame} (h : next size bs = some (f, rest)) :
    f.Fits size ∧ bs = f.encode ++ rest := by
  simp only [next] at h
  split_ifs at h with hlen
  obtain ⟨n, hn, h⟩ := Option.bind_eq_some_iff.mp h
  split_ifs at h with hpayload
  cases h
  refine ⟨?_, ?_⟩
  · rw [Fits, hn, List.length_take, Nat.min_eq_left hpayload]
  · rw [encode, Layout.u32_encode_decode (List.length_take_of_le hlen), List.append_assoc,
      List.take_append_drop, List.take_append_drop]

/-- A frame takes at least four bytes. -/
theorem four_le_length_encode (f : Frame) : 4 ≤ f.encode.length := by
  have hcode : (Layout.u32.encode f.code).length = 4 := Layout.u32.length_encode _
  rw [encode, List.length_append]
  omega

/-! ## A stream -/

/-- With as many rounds as there are bytes or more, the rounds do not count. -/
theorem scanUpTo_eq_scan {n : ℕ} {bs : List UInt8} (h : bs.length ≤ n) :
    scanUpTo size n bs = scan size bs := by
  suffices hall : ∀ m k bs, bs.length ≤ m → bs.length ≤ k → scanUpTo size m bs = scanUpTo size k bs by
    exact hall n bs.length bs h (Nat.le_refl _)
  intro m
  induction m with
  | zero =>
    intro k bs hm hk
    obtain rfl := List.eq_nil_of_length_eq_zero (Nat.le_zero.mp hm)
    cases k <;> rfl
  | succ m ih =>
    intro k bs hm hk
    cases k with
    | zero =>
      obtain rfl := List.eq_nil_of_length_eq_zero (Nat.le_zero.mp hk)
      rfl
    | succ k =>
      rw [scanUpTo, scanUpTo]
      cases hnext : next size bs with
      | none => rfl
      | some p =>
        obtain ⟨f, rest⟩ := p
        have hlen := congrArg List.length (eq_append_of_next hnext).2
        have hf := f.four_le_length_encode
        rw [List.length_append] at hlen
        simp only [ih k rest (by omega) (by omega)]

/-- A frame in front of other bytes is the first that is cut off. -/
theorem scan_encode_append {f : Frame} (h : f.Fits size) (rest : List UInt8) :
    scan size (f.encode ++ rest) = (f :: (scan size rest).1, (scan size rest).2) := by
  have hf := f.four_le_length_encode
  obtain ⟨n, hn⟩ : ∃ n, (f.encode ++ rest).length = n + 1 :=
    ⟨(f.encode ++ rest).length - 1, by rw [List.length_append]; omega⟩
  have hrest : rest.length ≤ n := by
    rw [List.length_append] at hn
    omega
  rw [scan, hn, scanUpTo, next_encode_append h]
  simp only [scanUpTo_eq_scan hrest]

/-- Frames in front of other bytes are cut off. -/
theorem scan_encodeAll_append {fs : List Frame} (h : ∀ f ∈ fs, f.Fits size) (rest : List UInt8) :
    scan size (encodeAll fs ++ rest) = (fs ++ (scan size rest).1, (scan size rest).2) := by
  induction fs with
  | nil => rfl
  | cons f fs ih =>
    rw [List.forall_mem_cons] at h
    rw [encodeAll_cons, List.append_assoc, scan_encode_append h.1, ih h.2]
    rfl

@[simp] theorem scan_nil : scan size [] = ([], []) := rfl

/-- What was cut off a stream are the frames that it begins with. -/
theorem eq_append_of_scan (bs : List UInt8) :
    (∀ f ∈ (scan size bs).1, f.Fits size) ∧ bs = encodeAll (scan size bs).1 ++ (scan size bs).2 := by
  rw [scan]
  generalize bs.length = n
  induction n generalizing bs with
  | zero => simp [scanUpTo]
  | succ n ih =>
    rw [scanUpTo]
    cases hnext : next size bs with
    | none => simp
    | some p =>
      obtain ⟨f, rest⟩ := p
      obtain ⟨hfits, hbs⟩ := eq_append_of_next hnext
      obtain ⟨hall, hrest⟩ := ih rest
      refine ⟨List.forall_mem_cons.mpr ⟨hfits, hall⟩, ?_⟩
      rw [encodeAll_cons, List.append_assoc, ← hrest, hbs]

/-- A stream is cut into frames without a rest exactly if it was put together from them. -/
theorem scan_eq_iff {bs : List UInt8} {fs : List Frame} :
    scan size bs = (fs, []) ↔ (∀ f ∈ fs, f.Fits size) ∧ bs = encodeAll fs := by
  constructor
  · intro h
    have hspec := @eq_append_of_scan size bs
    rw [h, List.append_nil] at hspec
    exact hspec
  · rintro ⟨hfits, rfl⟩
    have hscan := scan_encodeAll_append hfits []
    rwa [List.append_nil, scan_nil, List.append_nil] at hscan

/-- A stream whose first frames were taken goes on with the next one. -/
theorem scan_drop {fs : List Frame} (h : ∀ f ∈ fs, f.Fits size) (j : ℕ) :
    scan size ((encodeAll fs).drop (encodeAll (fs.take j)).length) = (fs.drop j, []) := by
  rw [scan_eq_iff]
  refine ⟨fun f hf => h f (List.mem_of_mem_drop hf), ?_⟩
  have hbytes : encodeAll fs = encodeAll (fs.take j) ++ encodeAll (fs.drop j) := by
    rw [← encodeAll_append, List.take_append_drop]
  rw [hbytes, List.drop_left]

end Scan

end Frame

/-! ## Messages -/

/-- Messages that are sent as frames and told apart by them. -/
structure FrameCodec (size : UInt32 → Option ℕ) (α : Type*) where
  frame : α → Frame
  ofFrame : Frame → Option α
  fits : ∀ a, (frame a).Fits size
  ofFrame_frame : ∀ a, ofFrame (frame a) = some a

namespace FrameCodec

variable {size : UInt32 → Option ℕ} {α : Type*} (c : FrameCodec size α)

/-- The bytes of messages. -/
def encodeAll (as : List α) : List UInt8 := Frame.encodeAll (as.map c.frame)

/-- The messages that a stream consists of, `none` if it is not one of messages. -/
def decodeAll (bs : List UInt8) : Option (List α) :=
  match Frame.scan size bs with
  | (fs, []) => fs.mapM c.ofFrame
  | (_, _ :: _) => none

@[simp] theorem encodeAll_nil : c.encodeAll [] = [] := rfl

/-- Messages behind each other. -/
theorem encodeAll_append (as bs : List α) :
    c.encodeAll (as ++ bs) = c.encodeAll as ++ c.encodeAll bs := by
  rw [encodeAll, List.map_append, Frame.encodeAll_append]
  rfl

/-- Messages from several sources behind each other. -/
theorem encodeAll_flatMap {β : Type*} (f : β → List α) (xs : List β) :
    c.encodeAll (xs.flatMap f) = xs.flatMap fun x => c.encodeAll (f x) := by
  induction xs with
  | nil => rfl
  | cons x xs ih => rw [List.flatMap_cons, encodeAll_append, ih, List.flatMap_cons]

/-- Messages are read back from their frames. -/
theorem mapM_ofFrame (as : List α) : (as.map c.frame).mapM c.ofFrame = some as := by
  induction as with
  | nil => rfl
  | cons a as ih =>
    rw [List.map_cons, List.mapM_cons, c.ofFrame_frame, ih]
    rfl

/-- Messages are read back from their bytes. -/
theorem decodeAll_encodeAll (as : List α) : c.decodeAll (c.encodeAll as) = some as := by
  have hfits : ∀ f ∈ as.map c.frame, f.Fits size := by
    intro f hf
    obtain ⟨a, -, rfl⟩ := List.mem_map.mp hf
    exact c.fits a
  have hscan : Frame.scan size (c.encodeAll as) = (as.map c.frame, []) :=
    Frame.scan_eq_iff.mpr ⟨hfits, rfl⟩
  rw [decodeAll, hscan]
  exact c.mapM_ofFrame as

end FrameCodec
