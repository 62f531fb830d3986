import FlashyFactory.Daemon.Activity
import Mathlib.Data.List.DropRight

/-! # Bounded captures

What the readers of `source.rs`, `runtime.rs` and `sandbox.rs` keep of a stream, and what they say about it. -/

namespace FlashyFactory

/-! ## `source.rs` -/

structure BoundedBytes where
  bytes : List UInt8 := []
  truncated : Bool := false
deriving DecidableEq, Repr

attribute [ext] BoundedBytes

/-- One turn of the loop of `read_bounded`. -/
def BoundedBytes.extend (maximum : ℕ) (retainTail : Bool) (b : BoundedBytes) (buffer : List UInt8) : BoundedBytes :=
  if retainTail then
    if maximum ≤ buffer.length then { bytes := buffer.drop (buffer.length - maximum), truncated := true }
    else
      let overflow := b.bytes.length + buffer.length - maximum
      { bytes := b.bytes.drop overflow ++ buffer, truncated := b.truncated || 0 < overflow }
  else
    let remaining := maximum - b.bytes.length
    { bytes := b.bytes ++ buffer.take (min buffer.length remaining)
      truncated := b.truncated || remaining < buffer.length }

/-- `read_bounded`, over what the reads return. -/
def readBounded (maximum : ℕ) (retainTail : Bool) (reads : List (List UInt8)) : BoundedBytes :=
  (reads.takeWhile (· ≠ [])).foldl (BoundedBytes.extend maximum retainTail) {}

/-! ## `runtime.rs` -/

def maxFinalResponseBytes : ℕ := 256 * 1024

namespace GenericRuntime

def appendBounded (maximum : ℕ) (output chunk : List UInt8) : List UInt8 :=
  if maximum ≤ chunk.length then chunk.drop (chunk.length - maximum)
  else output.drop (output.length + chunk.length - maximum) ++ chunk

def readPipeBounded (maximum : ℕ) (reads : List (List UInt8)) : List UInt8 :=
  (reads.takeWhile (· ≠ [])).foldl (appendBounded maximum) []

/-- `final_response_truncated`, of the capture of the standard output. -/
def finalResponseTruncated (stdoutBytes : List UInt8) : Bool := maxFinalResponseBytes ≤ stdoutBytes.length

end GenericRuntime

/-! ## `sandbox.rs` -/

/-- `read_bounded` of `sandbox.rs`. -/
def Sandbox.readBounded (maximum : ℕ) (reads : List (List UInt8)) : List UInt8 :=
  (reads.takeWhile (· ≠ [])).foldl (FlashyFactory.appendBounded maximum) []

/-! ## What is kept -/

theorem takeWhile_nonempty {reads : List (List UInt8)} (h : ∀ chunk ∈ reads, chunk ≠ []) :
    reads.takeWhile (· ≠ []) = reads := by
  rw [List.takeWhile_eq_self_iff]
  exact fun chunk hchunk => by simpa using h chunk hchunk

/-- A reader whose state depends on what it has seen only sees the stream, not the reads. -/
theorem foldl_flatten {σ : Type*} {f : σ → List UInt8 → σ} (view : List UInt8 → σ) (reads : List (List UInt8))
    (seen : List UInt8) (h : ∀ seen, ∀ chunk ∈ reads, f (view seen) chunk = view (seen ++ chunk)) :
    reads.foldl f (view seen) = view (seen ++ reads.flatten) := by
  induction reads generalizing seen with
  | nil => simp
  | cons chunk reads ih =>
    rw [List.foldl_cons, h seen chunk List.mem_cons_self, ih (seen ++ chunk) fun seen chunk hchunk =>
      h seen chunk (List.mem_cons_of_mem _ hchunk), List.flatten_cons, List.append_assoc]

variable {maximum : ℕ} {seen chunk bytes : List UInt8}

theorem length_rtake : (seen.rtake maximum).length = min maximum seen.length := by
  rw [List.rtake, List.length_drop]
  omega

theorem rtake_append_of_le (h : maximum ≤ chunk.length) : (seen ++ chunk).rtake maximum = chunk.rtake maximum := by
  rw [List.rtake, List.rtake, List.length_append, List.drop_append, List.drop_eq_nil_of_le (by omega), List.nil_append]
  congr 1
  omega

theorem rtake_append_of_lt (h : chunk.length < maximum) : (seen ++ chunk).rtake maximum =
    (seen.rtake maximum).drop ((seen.rtake maximum).length + chunk.length - maximum) ++ chunk := by
  rw [length_rtake, List.rtake, List.rtake, List.length_append, List.drop_append_of_le_length (by omega),
    List.drop_drop]
  congr 2
  omega

theorem GenericRuntime.appendBounded_rtake :
    appendBounded maximum (seen.rtake maximum) chunk = (seen ++ chunk).rtake maximum := by
  unfold appendBounded
  split
  · next h => rw [rtake_append_of_le h, List.rtake]
  · next h => rw [rtake_append_of_lt (Nat.lt_of_not_le h)]

theorem BoundedBytes.extend_tail (h : chunk.length < maximum) :
    extend maximum true { bytes := seen.rtake maximum, truncated := maximum < seen.length } chunk =
      { bytes := (seen ++ chunk).rtake maximum, truncated := maximum < (seen ++ chunk).length } := by
  have hlength : (seen.rtake maximum).length = min maximum seen.length := length_rtake
  rw [extend, if_pos rfl, if_neg (Nat.not_le.mpr h), rtake_append_of_lt h]
  refine BoundedBytes.ext rfl (Bool.eq_iff_iff.mpr ?_)
  simp only [Bool.or_eq_true, decide_eq_true_eq, List.length_append]
  omega

theorem BoundedBytes.extend_head :
    extend maximum false { bytes := seen.take maximum, truncated := maximum < seen.length } chunk =
      { bytes := (seen ++ chunk).take maximum, truncated := maximum < (seen ++ chunk).length } := by
  have hlength : (seen.take maximum).length = min maximum seen.length := List.length_take
  rw [extend, if_neg (by decide)]
  refine BoundedBytes.ext ?_ (Bool.eq_iff_iff.mpr ?_)
  · have htake : chunk.take (min chunk.length (maximum - (seen.take maximum).length)) =
        chunk.take (maximum - seen.length) := List.take_eq_take_iff.mpr (by omega)
    rw [List.take_append]
    exact congrArg (seen.take maximum ++ ·) htake
  · simp only [Bool.or_eq_true, decide_eq_true_eq, List.length_append]
    omega

theorem readBounded_tail (c : Chunked bytes) (h : 8192 < maximum) :
    readBounded maximum true c.chunks = { bytes := bytes.rtake maximum, truncated := maximum < bytes.length } := by
  have hfold := foldl_flatten
    (fun seen : List UInt8 => ({ bytes := seen.rtake maximum, truncated := maximum < seen.length } : BoundedBytes))
      c.chunks []
    fun _ chunk hchunk => BoundedBytes.extend_tail ((c.bounded chunk hchunk).trans_lt h)
  rw [c.flatten] at hfold
  rw [readBounded, takeWhile_nonempty c.nonempty]
  simpa using hfold

theorem readBounded_head (c : Chunked bytes) :
    readBounded maximum false c.chunks = { bytes := bytes.take maximum, truncated := maximum < bytes.length } := by
  have hfold := foldl_flatten
    (fun seen : List UInt8 => ({ bytes := seen.take maximum, truncated := maximum < seen.length } : BoundedBytes))
      c.chunks []
    fun _ chunk _ => BoundedBytes.extend_head
  rw [c.flatten] at hfold
  rw [readBounded, takeWhile_nonempty c.nonempty]
  simpa using hfold

theorem readPipeBounded_eq (c : Chunked bytes) :
    GenericRuntime.readPipeBounded maximum c.chunks = bytes.rtake maximum := by
  have hfold := foldl_flatten (fun seen : List UInt8 => seen.rtake maximum) c.chunks []
    fun _ chunk _ => GenericRuntime.appendBounded_rtake
  rw [c.flatten] at hfold
  rw [GenericRuntime.readPipeBounded, takeWhile_nonempty c.nonempty]
  simpa using hfold

theorem sandbox_readBounded_eq (c : Chunked bytes) : Sandbox.readBounded maximum c.chunks = bytes.rtake maximum := by
  have hfold := @foldl_appendBounded maximum c.chunks []
  rw [c.flatten] at hfold
  rw [Sandbox.readBounded, takeWhile_nonempty c.nonempty]
  simpa [appendBounded, List.rtake] using hfold

/-- The captures of a stream, with what is said about them. -/
structure CapturesTruthfully (bytes : List UInt8) (c : Chunked bytes) (maximum : ℕ) : Prop where
  sourceTail : (readBounded maximum true c.chunks).bytes = bytes.rtake maximum
  sourceHead : (readBounded maximum false c.chunks).bytes = bytes.take maximum
  runtime : GenericRuntime.readPipeBounded maximum c.chunks = bytes.rtake maximum
  sandbox : Sandbox.readBounded maximum c.chunks = bytes.rtake maximum
  truncated : ∀ retainTail, (readBounded maximum retainTail c.chunks).truncated = true ↔
    (readBounded maximum retainTail c.chunks).bytes.length < bytes.length
  finalResponse : GenericRuntime.finalResponseTruncated
      (GenericRuntime.readPipeBounded maxFinalResponseBytes c.chunks) = true ↔
    (GenericRuntime.readPipeBounded maxFinalResponseBytes c.chunks).length < bytes.length

theorem finalResponseTruncated_iff (c : Chunked bytes) : GenericRuntime.finalResponseTruncated
    (GenericRuntime.readPipeBounded maxFinalResponseBytes c.chunks) = true ↔
      maxFinalResponseBytes ≤ bytes.length := by
  rw [readPipeBounded_eq, GenericRuntime.finalResponseTruncated, decide_eq_true_eq, length_rtake]
  omega

/-- **Captures keep the right bytes, and are truthful but for a response of exactly the maximum.** -/
theorem capturesTruthfully_iff (c : Chunked bytes) (h : 8192 < maximum) :
    CapturesTruthfully bytes c maximum ↔ bytes.length ≠ maxFinalResponseBytes := by
  have hcaptured : (GenericRuntime.readPipeBounded maxFinalResponseBytes c.chunks).length =
      min maxFinalResponseBytes bytes.length := by rw [readPipeBounded_eq, length_rtake]
  constructor
  · intro htruthful hlength
    have hflag := htruthful.finalResponse
    rw [finalResponseTruncated_iff, hcaptured] at hflag
    omega
  · intro hlength
    refine ⟨?_, ?_, readPipeBounded_eq c, sandbox_readBounded_eq c, ?_, ?_⟩
    · rw [readBounded_tail c h]
    · rw [readBounded_head c]
    · rintro (_ | _)
      · rw [readBounded_head c]
        simp only [decide_eq_true_eq, List.length_take]
        omega
      · rw [readBounded_tail c h]
        simp only [decide_eq_true_eq, length_rtake]
        omega
    · rw [finalResponseTruncated_iff, hcaptured]
      omega

/-- What one read returns when the buffer is full. -/
def fullRead (byte : UInt8) : List UInt8 := List.replicate 8192 byte

@[simp] theorem length_fullRead : (fullRead byte).length = 8192 := List.length_replicate

/-- Two full reads, of which a capture of 10000 bytes drops a part. -/
def twoReads : Chunked (fullRead 1 ++ fullRead 2) where
  chunks := [fullRead 1, fullRead 2]
  nonempty := by simp [← List.length_pos_iff]
  bounded := by simp
  flatten := by simp

theorem capturesTruthfully_twoReads : CapturesTruthfully _ twoReads 10000 ∧
    ∀ retainTail, (readBounded 10000 retainTail twoReads.chunks).truncated = true := by
  have htruthful : CapturesTruthfully _ twoReads 10000 :=
    (capturesTruthfully_iff twoReads (by decide)).mpr (by simp [maxFinalResponseBytes])
  refine ⟨htruthful, fun retainTail => (htruthful.truncated retainTail).mpr ?_⟩
  cases retainTail with
  | true => simp [htruthful.sourceTail, length_rtake]
  | false => simp [htruthful.sourceHead]

/-- A response of exactly the maximum is kept whole and said to be truncated. -/
theorem fullResponse_reported_truncated : ¬ ∀ (bytes : List UInt8) (c : Chunked bytes),
    GenericRuntime.finalResponseTruncated (GenericRuntime.readPipeBounded maxFinalResponseBytes c.chunks) = true ↔
      (GenericRuntime.readPipeBounded maxFinalResponseBytes c.chunks).length < bytes.length := by
  intro h
  have hlength : (List.replicate maxFinalResponseBytes (0 : UInt8)).length = maxFinalResponseBytes :=
    List.length_replicate
  have hflag := h _ (.single (List.replicate maxFinalResponseBytes 0))
  rw [finalResponseTruncated_iff, readPipeBounded_eq, length_rtake, hlength] at hflag
  omega

end FlashyFactory
