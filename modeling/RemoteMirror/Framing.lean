/-
**Frames of the two protocols.**

`write_frame` and `read_frame` in `crates/nrm-protocol/src/lib.rs` carry requests and responses,
`write_runtime_frame` and `read_runtime_frame` in `runtime.rs` the messages of the runtime protocol.
Both put the length of the encoded value, four bytes with the highest first, before it; they differ
in the limit on that length, in the text for a body that ends early, and in the validation that only
runtime messages have.  A `Layout` says these things, and both pairs are its functions.

The encoding itself is done by a library; here it is any pair of functions.  What a frame is read
from is any source of bytes, with the portions and interruptions it likes.

Main definitions:

* `Framing.Layout`, `Framing.Layout.writeFrame`, `Framing.Layout.readFrame`;
* `Framing.writeFrame`, `Framing.readFrame`, `Framing.writeRuntimeFrame`,
  `Framing.readRuntimeFrame`;
* `Framing.Layout.writeFrames`, `Framing.Layout.readFrames` — one frame after the other.

Main results:

* `Framing.Layout.readFrame_frame`, `Framing.Layout.readFrame_cut` — a whole frame, and one that is
  cut off;
* `Framing.Layout.readFrames_take` — what is read of a stream that is cut off anywhere;
* `Framing.frames_read_back` — **both protocols read back what they write**.
-/

import RemoteMirror.ByteSource
import RemoteMirror.RuntimeMessage

namespace RemoteMirror.Framing

open ByteSource Checks
open RemoteMirror.Runtime (RuntimeMessage RuntimeValidationError)

variable {T κ ν ε : Type}

def maxFrameLen : ℕ := 64 * 1024 * 1024

def runtimeMaxFrameLen : ℕ := 256 * 1024

/-- The errors of reads: those of the source, and a file that ends too early. -/
inductive IoError (ε : Type)
  | unexpectedEof (message : String)
  | other (error : ε)
  deriving DecidableEq, Repr

/-- `FrameError` and `RuntimeFrameError`; only the second one has a type of `invalid` values. -/
inductive FrameError (ε κ ν : Type)
  | tooLarge (length : ℕ)
  | invalid (error : ν)
  | io (error : IoError ε)
  | codec (error : κ)
  deriving DecidableEq, Repr

/-- `postcard::to_allocvec` and `postcard::from_bytes` -/
structure Codec (T κ : Type) where
  toAllocvec : T → Except κ (List UInt8)
  fromBytes : List UInt8 → Except κ T

/-- The decoder inverts the encoder. -/
def Codec.Inverts (codec : Codec T κ) : Prop :=
  ∀ value bytes, codec.toAllocvec value = .ok bytes → codec.fromBytes bytes = .ok value

/-- `u32::to_be_bytes` -/
def toBeBytes (n : ℕ) : List UInt8 :=
  [UInt8.ofNat (n / 2 ^ 24), UInt8.ofNat (n / 2 ^ 16), UInt8.ofNat (n / 2 ^ 8), UInt8.ofNat n]

/-- `u32::from_be_bytes` -/
def fromBeBytes (bytes : List UInt8) : ℕ := bytes.foldl (fun n byte => n * 2 ^ 8 + byte.toNat) 0

@[simp] theorem length_toBeBytes (n : ℕ) : (toBeBytes n).length = 4 := rfl

theorem fromBeBytes_toBeBytes {n : ℕ} (h : n < 2 ^ 32) : fromBeBytes (toBeBytes n) = n := by
  simp only [toBeBytes, fromBeBytes, List.foldl_cons, List.foldl_nil, UInt8.toNat_ofNat']
  omega

/-- What the two protocols do not have in common. -/
structure Layout (T κ ν : Type) where
  codec : Codec T κ
  validate : T → Except ν Unit
  limit : ℕ
  /-- the text for a body that is too short -/
  ended : String
  fits : limit < 2 ^ 32

namespace Layout

/-- The bytes that are written for a value, to a writer that does not fail. -/
def writeFrame (layout : Layout T κ ν) (value : T) : Except (FrameError Empty κ ν) (List UInt8) :=
  do
  (layout.validate value).mapError .invalid
  let bytes ← (layout.codec.toAllocvec value).mapError .codec
  rejectIf (layout.limit < bytes.length) (.tooLarge bytes.length)
  .ok (toBeBytes bytes.length ++ bytes)

/-- The value of a body. -/
def decode (layout : Layout T κ ν) (bytes : List UInt8) : Except (FrameError ε κ ν) T := do
  let value ← (layout.codec.fromBytes bytes).mapError .codec
  (layout.validate value).mapError .invalid
  .ok value

/-- Reads one frame: the value, the number of bytes in the vector that was filled for it, and what
is left of the source. -/
def readFrame (layout : Layout T κ ν) (source : Source ε) :
    Except (FrameError ε κ ν) T × ℕ × Source ε :=
  -- `read_exact`
  match source.gather 4 [] with
  | (_, some error, source) => (.error (.io (.other error)), 0, source)
  | (lenBuf, none, source) =>
    if lenBuf.length < 4 then (.error (.io (.unexpectedEof "failed to fill whole buffer")), 0,
        source)
    else if layout.limit < fromBeBytes lenBuf then (.error (.tooLarge (fromBeBytes lenBuf)), 0,
        source)
    else
      -- `take(len).read_to_end`
      match source.gather (fromBeBytes lenBuf) [] with
      | (bytes, some error, source) => (.error (.io (.other error)), bytes.length, source)
      | (bytes, none, source) =>
        if bytes.length ≠ fromBeBytes lenBuf then (.error (.io (.unexpectedEof layout.ended)),
            bytes.length, source)
        else (layout.decode bytes, bytes.length, source)

/-- All frames of a list. -/
def writeFrames (layout : Layout T κ ν) : List T → Except (FrameError Empty κ ν) (List UInt8)
  | [] => .ok []
  | value :: values => do
      let frame ← layout.writeFrame value
      let stream ← layout.writeFrames values
      .ok (frame ++ stream)

/-- Reads `n` frames, or as many as there are before an error, and that error. -/
def readFrames (layout : Layout T κ ν) : ℕ → Source ε → List T × Option (FrameError ε κ ν)
  | 0, _ => ([], none)
  | n + 1, source =>
    match layout.readFrame source with
    | (.error error, _) => ([], some error)
    | (.ok value, _, source) =>
      let (values, error) := layout.readFrames n source
      (value :: values, error)

end Layout

/-- The frames of requests and responses; nothing is validated. -/
def frames (codec : Codec T κ) : Layout T κ Empty where
  codec := codec
  validate _ := .ok ()
  limit := maxFrameLen
  ended := "frame body ended before advertised length"
  fits := by decide

/-- The frames of the runtime protocol. -/
def runtimeFrames (codec : Codec RuntimeMessage κ) :
    Layout RuntimeMessage κ RuntimeValidationError where
  codec := codec
  validate := RuntimeMessage.validate
  limit := runtimeMaxFrameLen
  ended := "runtime frame body ended before advertised length"
  fits := by decide

def writeFrame (codec : Codec T κ) (value : T) : Except (FrameError Empty κ Empty) (List UInt8) :=
  (frames codec).writeFrame value

def readFrame (codec : Codec T κ) (source : Source ε) :
    Except (FrameError ε κ Empty) T × ℕ × Source ε :=
  (frames codec).readFrame source

def writeRuntimeFrame (codec : Codec RuntimeMessage κ) (message : RuntimeMessage) :
    Except (FrameError Empty κ RuntimeValidationError) (List UInt8) :=
  (runtimeFrames codec).writeFrame message

def readRuntimeFrame (codec : Codec RuntimeMessage κ) (source : Source ε) :
    Except (FrameError ε κ RuntimeValidationError) RuntimeMessage × ℕ × Source ε :=
  (runtimeFrames codec).readFrame source

namespace Layout

/-! ### One frame -/

variable {layout : Layout T κ ν} {value : T} {frame : List UInt8} {source : Source ε}

/-- What a frame consists of. -/
theorem writeFrame_eq_ok : layout.writeFrame value = .ok frame ↔
      layout.validate value = .ok () ∧ ∃ bytes, layout.codec.toAllocvec value = .ok bytes ∧
        bytes.length ≤ layout.limit ∧ frame = toBeBytes bytes.length ++ bytes := by
  rw [writeFrame, unit_bind_eq_ok, mapError_eq_ok, bind_eq_ok]
  simp only [unit_bind_eq_ok, mapError_eq_ok, rejectIf_eq_ok, decide_eq_false_iff_not, Nat.not_lt,
    Except.ok.injEq, eq_comm (b := frame)]

theorem decode_bytes (hcodec : layout.codec.Inverts) (hvalid : layout.validate value = .ok ())
    {bytes : List UInt8} (hbytes : layout.codec.toAllocvec value = .ok bytes) :
    layout.decode bytes = (.ok value : Except (FrameError ε κ ν) T) := by
  simp [decode, hcodec value bytes hbytes, hvalid, Except.mapError]

/-- The vector for a body never holds more than the limit, whatever the source says. -/
theorem readFrame_allocated (layout : Layout T κ ν) (source : Source ε) :
    (layout.readFrame source).2.1 ≤ layout.limit := by
  simp only [readFrame]
  obtain ⟨lenBuf, failure, rest⟩ := source.gather 4 []
  cases failure with
  | some error => exact Nat.zero_le _
  | none =>
    simp only
    split
    · exact Nat.zero_le _
    split
    · exact Nat.zero_le _
    · rename_i hfits
      have hbody := (rest.gather_content (fromBeBytes lenBuf)).1
      generalize rest.gather (fromBeBytes lenBuf) [] = result at hbody
      obtain ⟨bytes, failure, rest⟩ := result
      simp only at hbody
      have hlength : bytes.length ≤ layout.limit := by
        rw [hbody, List.length_take]
        omega
      cases failure with
      | some error => exact hlength
      | none =>
        simp only
        split <;> exact hlength

/-- A source that has fewer bytes than a length needs. -/
theorem readFrame_short (layout : Layout T κ ν) (h : source.content.length < 4) :
    ∃ error, (layout.readFrame source).1 = .error (.io error) := by
  obtain ⟨hbytes, -, hfailure⟩ := source.gather_content 4
  simp only [readFrame]
  generalize source.gather 4 [] = result at *
  obtain ⟨lenBuf, failure, rest⟩ := result
  simp only at hbytes hfailure
  cases failure with
  | some error => exact ⟨_, rfl⟩
  | none =>
    have hlength : lenBuf.length < 4 := by
      rw [hbytes, List.length_take]
      omega
    simp only [if_pos hlength]
    exact ⟨_, rfl⟩

/-- A source that has a length, and what is read of the body behind it. -/
theorem readFrame_body {len : ℕ} {body : List UInt8} (hlimit : len ≤ layout.limit)
    (hcontent : source.content = toBeBytes len ++ body) :
    ∃ rest : Source ε, rest.content = body.drop len ∧
      if len ≤ body.length then
        (layout.readFrame source).1 = layout.decode (body.take len) ∧
          (layout.readFrame source).2.2 = rest
      else ∃ error, (layout.readFrame source).1 = .error (.io error) := by
  have hbe : fromBeBytes (toBeBytes len) = len :=
    fromBeBytes_toBeBytes (Nat.lt_of_le_of_lt hlimit layout.fits)
  obtain ⟨hbytes, hrest, hfailure⟩ := source.gather_content 4
  simp only [readFrame]
  generalize source.gather 4 [] = result at *
  obtain ⟨lenBuf, failure, rest⟩ := result
  simp only [hcontent] at hbytes hrest hfailure
  rw [List.take_left' (length_toBeBytes len)] at hbytes
  subst hbytes
  obtain rfl : failure = none := by simpa using hfailure
  have hbody : rest.content = body := hrest.trans (List.drop_left' (length_toBeBytes len))
  simp only [length_toBeBytes, Nat.lt_irrefl, if_false, hbe, if_neg (Nat.not_lt.2 hlimit)]
  obtain ⟨hbytes', hrest', hfailure'⟩ := rest.gather_content len
  generalize rest.gather len [] = result at *
  obtain ⟨bytes, failure, left⟩ := result
  simp only [hbody] at hbytes' hrest' hfailure'
  refine ⟨left, hrest', ?_⟩
  by_cases hlen : len ≤ body.length
  · rw [if_pos hlen] at hfailure' ⊢
    subst hfailure' hbytes'
    simp [hlen]
  · rw [if_neg hlen]
    cases failure with
    | some error => exact ⟨_, rfl⟩
    | none =>
      have hne : bytes.length ≠ len := by
        rw [hbytes', List.length_take]
        omega
      simp only [if_pos hne]
      exact ⟨_, rfl⟩

/-- A whole frame is read back, and what is behind it stays in the source. -/
theorem readFrame_frame (hcodec : layout.codec.Inverts)
    (hframe : layout.writeFrame value = .ok frame) {more : List UInt8}
    (hcontent : source.content = frame ++ more) :
    (layout.readFrame source).1 = .ok value ∧ (layout.readFrame source).2.2.content = more := by
  obtain ⟨hvalid, bytes, hbytes, hlimit, rfl⟩ := writeFrame_eq_ok.1 hframe
  rw [List.append_assoc] at hcontent
  obtain ⟨rest, hrest, hread⟩ := readFrame_body hlimit hcontent
  rw [if_pos (by simp)] at hread
  rw [hread.1, hread.2, hrest, List.take_left, List.drop_left]
  exact ⟨decode_bytes hcodec hvalid hbytes, rfl⟩

variable {k : ℕ}

/-- A frame that is cut off is an error. -/
theorem readFrame_cut (hframe : layout.writeFrame value = .ok frame) (hk : k < frame.length)
    (hcontent : source.content = frame.take k) : ∃ error, (layout.readFrame source).1 =
      .error (.io error) := by
  obtain ⟨-, bytes, -, hlimit, rfl⟩ := writeFrame_eq_ok.1 hframe
  rcases Nat.lt_or_ge k 4 with hshort | hlong
  · refine readFrame_short layout ?_
    rw [hcontent, List.length_take]
    omega
  · obtain ⟨j, rfl⟩ : ∃ j, k = (toBeBytes bytes.length).length + j := ⟨k - 4, by simp; omega⟩
    rw [List.take_length_add_append] at hcontent
    obtain ⟨rest, -, hread⟩ := readFrame_body hlimit hcontent
    rw [List.length_append, length_toBeBytes] at hk
    rwa [if_neg (by rw [List.length_take]; omega)] at hread

/-! ### Streams -/

variable {values : List T} {stream : List UInt8}

theorem writeFrames_cons :
    layout.writeFrames (value :: values) = .ok stream ↔ ∃ frame,
      layout.writeFrame value = .ok frame ∧
      ∃ rest, layout.writeFrames values = .ok rest ∧ stream = frame ++ rest := by
  simp only [writeFrames, bind_eq_ok, Except.ok.injEq, eq_comm (b := stream)]

/-- The values whose frames are complete in the first `k` bytes of the stream. -/
structure Complete (layout : Layout T κ ν) (values : List T) (k : ℕ) (done : List T) : Prop where
  first : done <+: values
  fits : ∃ bytes, layout.writeFrames done = .ok bytes ∧ bytes.length ≤ k
  all : ∀ longer bytes, longer <+: values → layout.writeFrames longer = .ok bytes → bytes.length ≤
    k → longer <+: done

theorem Complete.nil
    (h : ∀ value more, values = value :: more → ∃ frame, layout.writeFrame value = .ok frame ∧
      k < frame.length) :
    layout.Complete values k [] := by
  refine ⟨List.nil_prefix, ⟨[], rfl, Nat.zero_le k⟩, fun longer bytes hlonger hbytes hk => ?_⟩
  cases longer with
  | nil => exact List.prefix_rfl
  | cons value longer =>
    obtain ⟨more, rfl⟩ := hlonger
    obtain ⟨frame, hframe, hlt⟩ := h value (longer ++ more) rfl
    obtain ⟨frame', hframe', rest, -, rfl⟩ := writeFrames_cons.1 hbytes
    cases hframe.symm.trans hframe'
    rw [List.length_append] at hk
    omega

theorem Complete.cons {done : List T} (hframe : layout.writeFrame value = .ok frame)
    (h : layout.Complete values k done) :
    layout.Complete (value :: values) (frame.length + k) (value :: done) := by
  obtain ⟨bytes, hbytes, hk⟩ := h.fits
  refine ⟨List.cons_prefix_cons.2 ⟨rfl, h.first⟩, ⟨frame ++ bytes, ?_, ?_⟩,
    fun longer all hlonger hall hle => ?_⟩
  · exact writeFrames_cons.2 ⟨frame, hframe, bytes, hbytes, rfl⟩
  · rw [List.length_append]
    omega
  · cases longer with
    | nil => exact List.nil_prefix
    | cons value' longer =>
      obtain ⟨rfl, hmore⟩ := List.cons_prefix_cons.1 hlonger
      obtain ⟨frame', hframe', rest, hrest, rfl⟩ := writeFrames_cons.1 hall
      cases hframe.symm.trans hframe'
      rw [List.length_append] at hle
      exact List.cons_prefix_cons.2 ⟨rfl, h.all longer rest hmore hrest (by omega)⟩

/-- An error at the first frame. -/
theorem readFrames_error {error : FrameError ε κ ν} (h : (layout.readFrame source).1 = .error error)
    (n : ℕ) : layout.readFrames n source = ([], if n = 0 then none else some error) := by
  cases n with
  | zero => rfl
  | succ n =>
    simp only [readFrames]
    generalize layout.readFrame source = result at h
    obtain ⟨outcome, allocated, rest⟩ := result
    cases h
    rfl

/-- **What is read of a stream that is cut off anywhere**: the values whose frames are complete, and
an error. -/
theorem readFrames_take (hcodec : layout.codec.Inverts)
    (hstream : layout.writeFrames values = .ok stream) (hcontent : source.content = stream.take k) :
    ∃ done error, layout.Complete values k done ∧
      ∀ n, layout.readFrames n source =
        (done.take n, if n ≤ done.length then none else some (.io error)) := by
  induction values generalizing stream k source with
  | nil =>
    cases hstream
    have hshort : source.content.length < 4 := by simp [hcontent]
    obtain ⟨error, herror⟩ := readFrame_short layout hshort
    refine ⟨[], error, .nil nofun, fun n => ?_⟩
    rw [readFrames_error herror]
    simp
  | cons value values ih =>
    obtain ⟨frame, hframe, rest, hrest, rfl⟩ := writeFrames_cons.1 hstream
    rcases Nat.lt_or_ge k frame.length with hlt | hge
    · -- the first frame is cut off
      rw [List.take_append_of_le_length (Nat.le_of_lt hlt)] at hcontent
      obtain ⟨error, herror⟩ := readFrame_cut hframe hlt hcontent
      refine ⟨[], error, .nil ?_, fun n => ?_⟩
      · rintro value more ⟨⟩
        exact ⟨frame, hframe, hlt⟩
      · rw [readFrames_error herror]
        simp
    · obtain ⟨j, rfl⟩ := Nat.exists_eq_add_of_le hge
      rw [List.take_length_add_append] at hcontent
      obtain ⟨hread, hleft⟩ := readFrame_frame hcodec hframe hcontent
      obtain ⟨done, error, hdone, hmore⟩ := ih hrest hleft
      refine ⟨value :: done, error, hdone.cons hframe, fun n => ?_⟩
      cases n with
      | zero => rfl
      | succ n =>
        simp only [readFrames]
        generalize layout.readFrame source = result at hread hmore
        obtain ⟨outcome, allocated, left⟩ := result
        cases hread
        simp only at hmore
        simp [hmore]

end Layout

/-! ### Both protocols -/

/-- What is written is read back, at every cut of the stream, from every source; and no body that is
longer than the limit is ever held. -/
def Layout.ReadsBack (layout : Layout T κ ν) : Prop :=
  ∀ ε : Type,
    (∀ values stream, layout.writeFrames values = .ok stream →
      (∀ source : Source ε, source.content = stream → layout.readFrames values.length source =
      (values, none)) ∧
      ∀ (k : ℕ) (source : Source ε), source.content = stream.take k →
        ∃ done error, layout.Complete values k done ∧
          ∀ n, layout.readFrames n source =
          (done.take n, if n ≤ done.length then none else some (.io error))) ∧
    ∀ source : Source ε, (layout.readFrame source).2.1 ≤ layout.limit

theorem Layout.readsBack {layout : Layout T κ ν} (hcodec : layout.codec.Inverts) :
    layout.ReadsBack := by
  refine fun ε => ⟨fun values stream hstream => ⟨fun source hcontent => ?_,
    fun k source hcontent => ?_⟩,
    fun source => readFrame_allocated layout source⟩
  · rw [← List.take_length (l := stream)] at hcontent
    obtain ⟨done, error, hdone, hread⟩ := readFrames_take hcodec hstream hcontent
    -- all frames are complete in the whole stream
    obtain rfl : values = done :=
      (hdone.all values stream List.prefix_rfl hstream (Nat.le_refl _)).eq_of_length_le
        hdone.first.length_le
    simpa using hread values.length
  · exact readFrames_take hcodec hstream hcontent

/-- **Both protocols read back what they write.** -/
theorem frames_read_back (codec : Codec T κ) (runtimeCodec : Codec RuntimeMessage κ)
    (hcodec : codec.Inverts)
    (hruntime : runtimeCodec.Inverts) : (frames codec).ReadsBack ∧
      (runtimeFrames runtimeCodec).ReadsBack :=
  ⟨Layout.readsBack hcodec, Layout.readsBack hruntime⟩

/-- A codec for one byte. -/
def byteCodec : Codec UInt8 Unit where
  toAllocvec byte := .ok [byte]
  fromBytes
    | [byte] => .ok byte
    | _ => .error ()

/-- A codec for one message, which it encodes as `postcard` does: the number of the variant, then
the field. -/
def stopCodec : Codec RuntimeMessage Unit where
  toAllocvec message := if message = .watchStop 7 then .ok [23, 7] else .error ()
  fromBytes bytes := if bytes = [23, 7] then .ok (.watchStop 7) else .error ()

theorem frames_read_back_small :
    ((frames byteCodec).ReadsBack ∧ (runtimeFrames stopCodec).ReadsBack) ∧
      (runtimeFrames stopCodec).writeFrames [.watchStop 7, .watchStop 7] =
        .ok [0, 0, 0, 2, 23, 7, 0, 0, 0, 2, 23, 7] := by
  refine ⟨frames_read_back byteCodec stopCodec ?_ ?_, by decide⟩
  · rintro value bytes ⟨⟩
    rfl
  · intro value bytes hbytes
    simp only [stopCodec] at hbytes ⊢
    split at hbytes
    · cases hbytes
      rename_i hvalue
      simp [hvalue]
    · cases hbytes

end RemoteMirror.Framing
