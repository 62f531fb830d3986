import FlashyFactory.Daemon.Agent
import FlashyFactory.Lib.LineReader
import Mathlib.Data.List.TakeWhile

/-! # The activity of Codex

The two readers of the activity stream: `read_stdout` for an agent on the host and `capture_json_activity`
for one in a sandbox. -/

namespace FlashyFactory

/-- The decoders of bytes that the readers call. -/
structure Decoders where
  /-- `serde_json::from_slice::<Value>`, where an error is its text -/
  fromSlice : List UInt8 → Except String Json
  /-- `String::from_utf8_lossy` -/
  fromUtf8Lossy : List UInt8 → String

def maxActivityLineBytes : ℕ := 256 * 1024
def maxStreamBytes : ℕ := 256 * 1024
def maxThreadIdBytes : ℕ := 256

/-- `b'\n'` -/
def newline : UInt8 := 10

/-- `b'\r'` -/
def carriageReturn : UInt8 := 13

/-- `u8::is_ascii_whitespace` -/
def isAsciiWhitespace (byte : UInt8) : Bool :=
  byte = 0x20 || byte = 0x09 || byte = 0x0A || byte = 0x0C || byte = 0x0D

variable (D : Decoders)

/-! ## `runtime.rs` -/

/-- `ActivityCapture`, with its count of lines. -/
structure StdoutCapture extends ActivityCapture where
  lines : ℕ := 0
deriving DecidableEq, Repr

/-- `line.strip_suffix(b"\r").unwrap_or(line)` -/
def stripCarriageReturn (line : List UInt8) : List UInt8 :=
  if line.getLast? = some carriageReturn then line.dropLast else line

def threadIdOf (event : Json) : Option String := (event.get? "thread_id").bind Json.asStr?

def captureActivityLine (capture : StdoutCapture) (line : List UInt8) : StdoutCapture :=
  match D.fromSlice (stripCarriageReturn line) with
  | .ok event => match capture.threadId, threadIdOf event with
    | none, some threadId =>
      if threadId.utf8ByteSize ≤ maxThreadIdBytes then { capture with threadId := some threadId }
      else { capture with malformedLine :=
        capture.malformedLine.or (some ("thread ID exceeds " ++ toString maxThreadIdBytes ++ " bytes")) }
    | _, _ => capture
  | .error error => { capture with malformedLine := capture.malformedLine.or (some error) }

def stdoutReader : LineReader UInt8 StdoutCapture where
  newline := newline
  maximum := maxActivityLineBytes
  line capture line := captureActivityLine D { capture with lines := capture.lines + 1 } line
  exceed capture := { capture with
    malformedLine := some ("line exceeds " ++ toString maxActivityLineBytes ++ " bytes") }
  oversized capture _ := { capture with lines := capture.lines + 1 }

def readStdout (chunks : List (List UInt8)) : StdoutCapture := (stdoutReader D).read {} chunks

/-- The outcome of a run on the host that exited: `run` fails where a line is malformed. -/
def hostOutcome (runtime : String) (status : ExitStatus) (finalResponse stderrTail : String)
    (capture : StdoutCapture) : RunOutcome :=
  match capture.malformedLine with
  | some _ => .failed
  | none => (executionOutcome runtime
      ⟨status, .exited, finalResponse, capture.threadId, capture.malformedLine, stderrTail⟩).1

/-! ## `sandbox.rs` -/

/-- `PipeCapture`, with its count of lines. -/
structure JsonCapture extends PipeCapture where
  lines : ℕ := 0
deriving DecidableEq, Repr

def appendBounded (maximum : ℕ) (target chunk : List UInt8) : List UInt8 :=
  (target ++ chunk).drop ((target ++ chunk).length - maximum)

def recordActivityLine (capture : JsonCapture) (line : List UInt8) (oversized : Bool) : JsonCapture :=
  if line.all isAsciiWhitespace && !oversized then capture
  else if oversized then { capture with
    lines := capture.lines + 1
    malformed := capture.malformed.or
      (some ("Codex activity line exceeded " ++ toString maxStreamBytes ++ " bytes")) }
  else match D.fromSlice line with
    | .ok _ => { capture with lines := capture.lines + 1 }
    | .error error => { capture with
        lines := capture.lines + 1
        malformed := capture.malformed.or (some error) }

def jsonReader : LineReader UInt8 JsonCapture where
  newline := newline
  maximum := maxStreamBytes
  line capture line := recordActivityLine D capture line false
  exceed capture := capture
  oversized capture line := recordActivityLine D capture line true

def captureJsonActivity (chunks : List (List UInt8)) : JsonCapture :=
  let bytes := (chunks.takeWhile (· ≠ [])).foldl (appendBounded maxStreamBytes) []
  { (jsonReader D).read {} chunks with text := D.fromUtf8Lossy bytes }

/-- The outcome of a run in a sandbox that exited. -/
def sandboxOutcome (runtime : String) (status : ExitStatus) (finalResponse stderrTail : String)
    (capture : JsonCapture) : RunOutcome :=
  (executionOutcome runtime ⟨status, .exited, finalResponse, none, capture.malformed, stderrTail⟩).1

/-! ## Lines -/

/-- A stream as the reads deliver it. -/
structure Chunked (bytes : List UInt8) where
  chunks : List (List UInt8)
  nonempty : ∀ chunk ∈ chunks, chunk ≠ []
  bounded : ∀ chunk ∈ chunks, chunk.length ≤ 8192
  flatten : chunks.flatten = bytes

/-- Byte by byte. -/
def Chunked.single (bytes : List UInt8) : Chunked bytes where
  chunks := bytes.map fun byte => [byte]
  nonempty := by simp
  bounded := by simp
  flatten := by induction bytes <;> simp_all

/-- Each line is shorter than both bounds. -/
def ShortLines (bytes : List UInt8) : Prop :=
  ∀ line ∈ LineReader.lines newline bytes, line.length < maxActivityLineBytes ∧ line.length < maxStreamBytes

instance (bytes : List UInt8) : Decidable (ShortLines bytes) :=
  inferInstanceAs (Decidable (∀ line ∈ LineReader.lines newline bytes, _ ∧ _))

def ShortThreadIds (bytes : List UInt8) : Prop :=
  ∀ line ∈ LineReader.lines newline bytes, ∀ event threadId,
    D.fromSlice (stripCarriageReturn line) = .ok event →
    threadIdOf event = some threadId → threadId.utf8ByteSize ≤ maxThreadIdBytes

/-- A carriage return after a JSON text is white space. -/
def Decoders.SkipsCarriageReturn : Prop :=
  ∀ line, (D.fromSlice (line ++ [carriageReturn])).isOk = (D.fromSlice line).isOk

variable {D} {bytes line : List UInt8}

theorem isOk_stripCarriageReturn (hskips : D.SkipsCarriageReturn) :
    (D.fromSlice (stripCarriageReturn line)).isOk = (D.fromSlice line).isOk := by
  unfold stripCarriageReturn
  split
  · next hlast =>
    have hline : line.dropLast ++ [carriageReturn] = line := List.dropLast_append_getLast? _ hlast
    rw [← hskips, hline]
  · rfl

/-! ## What the readers count -/

theorem captureActivityLine_counts {capture : StdoutCapture}
    (hthread : ∀ event threadId, D.fromSlice (stripCarriageReturn line) = .ok event →
      threadIdOf event = some threadId → threadId.utf8ByteSize ≤ maxThreadIdBytes) :
    (captureActivityLine D capture line).lines = capture.lines ∧
      (captureActivityLine D capture line).malformedLine.isSome =
        (capture.malformedLine.isSome || !(D.fromSlice (stripCarriageReturn line)).isOk) := by
  unfold captureActivityLine
  cases hevent : D.fromSlice (stripCarriageReturn line) with
  | error error => cases capture.malformedLine <;> simp [Except.isOk, Except.toBool]
  | ok event =>
    have hsame : (capture.malformedLine.isSome || !(Except.ok event : Except String Json).isOk) =
        capture.malformedLine.isSome := by simp [Except.isOk, Except.toBool]
    rw [hsame]
    dsimp only
    split
    · next threadId _ hid =>
      rw [if_pos (hthread event threadId hevent hid)]
      exact ⟨rfl, rfl⟩
    · exact ⟨rfl, rfl⟩

/-- What the host has counted after these lines. -/
theorem stdoutReader_counts {ls : List (List UInt8)} {capture : StdoutCapture}
    (hthreads : ∀ line ∈ ls, ∀ event threadId, D.fromSlice (stripCarriageReturn line) = .ok event →
      threadIdOf event = some threadId → threadId.utf8ByteSize ≤ maxThreadIdBytes) :
    (ls.foldl (stdoutReader D).line capture).lines = capture.lines + ls.length ∧
      (ls.foldl (stdoutReader D).line capture).malformedLine.isSome =
        (capture.malformedLine.isSome || ls.any fun line => !(D.fromSlice (stripCarriageReturn line)).isOk) := by
  induction ls generalizing capture with
  | nil => simp
  | cons line ls ih =>
    obtain ⟨hthread, hthreads⟩ := List.forall_mem_cons.mp hthreads
    have hstep : ((stdoutReader D).line capture line).lines = capture.lines + 1 ∧
        ((stdoutReader D).line capture line).malformedLine.isSome =
          (capture.malformedLine.isSome || !(D.fromSlice (stripCarriageReturn line)).isOk) :=
      captureActivityLine_counts hthread
    obtain ⟨hlines, hmalformed⟩ := ih hthreads
    rw [List.foldl_cons, hlines, hmalformed, hstep.1, hstep.2, List.length_cons, List.any_cons, Bool.or_assoc]
    exact ⟨by omega, rfl⟩

theorem recordActivityLine_blank {capture : JsonCapture} (h : line.all isAsciiWhitespace = true) :
    recordActivityLine D capture line false = capture := by
  simp [recordActivityLine, h]

theorem recordActivityLine_counts {capture : JsonCapture} (h : line.all isAsciiWhitespace = false) :
    (recordActivityLine D capture line false).lines = capture.lines + 1 ∧
      (recordActivityLine D capture line false).malformed.isSome =
        (capture.malformed.isSome || !(D.fromSlice line).isOk) := by
  simp only [recordActivityLine, h, Bool.false_and, Bool.false_eq_true, if_false]
  cases D.fromSlice line with
  | ok event => simp [Except.isOk, Except.toBool]
  | error error => cases capture.malformed <;> simp [Except.isOk, Except.toBool]

/-- What the sandbox has counted after these lines. -/
theorem jsonReader_counts {ls : List (List UInt8)} {capture : JsonCapture} :
    (ls.foldl (jsonReader D).line capture).lines =
        capture.lines + (ls.filter fun line => !line.all isAsciiWhitespace).length ∧
      (ls.foldl (jsonReader D).line capture).malformed.isSome = (capture.malformed.isSome ||
        (ls.filter fun line => !line.all isAsciiWhitespace).any fun line => !(D.fromSlice line).isOk) := by
  induction ls generalizing capture with
  | nil => simp
  | cons line ls ih =>
    rw [List.foldl_cons]
    cases hblank : line.all isAsciiWhitespace with
    | true =>
      have hstep : (jsonReader D).line capture line = capture := recordActivityLine_blank hblank
      rw [hstep, List.filter_cons_of_neg (by simp [hblank])]
      exact ih
    | false =>
      have hstep : ((jsonReader D).line capture line).lines = capture.lines + 1 ∧
          ((jsonReader D).line capture line).malformed.isSome =
            (capture.malformed.isSome || !(D.fromSlice line).isOk) := recordActivityLine_counts hblank
      obtain ⟨hlines, hmalformed⟩ := @ih ((jsonReader D).line capture line)
      rw [List.filter_cons_of_pos (by simp [hblank]), hlines, hmalformed, hstep.1, hstep.2, List.length_cons,
        List.any_cons, Bool.or_assoc]
      exact ⟨by omega, rfl⟩

/-! ## The readers -/

theorem readStdout_eq (hshort : ShortLines bytes) (c : Chunked bytes) :
    readStdout D c.chunks = (LineReader.lines newline bytes).foldl (stdoutReader D).line {} := by
  have hlines : ∀ line ∈ LineReader.lines newline c.chunks.flatten, line.length ≤ maxActivityLineBytes := by
    rw [c.flatten]
    exact fun line hline => (hshort line hline).1.le
  have hread : (stdoutReader D).read {} c.chunks = _ := LineReader.read_eq_foldl_lines c.nonempty hlines
  rwa [c.flatten] at hread

theorem appendBounded_append {maximum : ℕ} {target a b : List UInt8} :
    appendBounded maximum (appendBounded maximum target a) b = appendBounded maximum target (a ++ b) := by
  unfold appendBounded
  rw [← List.append_assoc]
  generalize target ++ a = whole
  have hdrop : whole.drop (whole.length - maximum) ++ b = (whole ++ b).drop (whole.length - maximum) :=
    (List.drop_append_of_le_length (by omega)).symm
  rw [hdrop, List.drop_drop]
  congr 1
  simp only [List.length_drop, List.length_append]
  omega

/-- The bytes that are kept are the last ones of the stream. -/
theorem foldl_appendBounded {maximum : ℕ} {chunks : List (List UInt8)} {target : List UInt8} :
    chunks.foldl (appendBounded maximum) (appendBounded maximum [] target) =
      appendBounded maximum [] (target ++ chunks.flatten) := by
  induction chunks generalizing target with
  | nil => simp
  | cons chunk chunks ih =>
    rw [List.foldl_cons, appendBounded_append, ih, List.flatten_cons, List.append_assoc]

theorem captureJsonActivity_eq (hshort : ShortLines bytes) (c : Chunked bytes) :
    captureJsonActivity D c.chunks =
      { (LineReader.lines newline bytes).foldl (jsonReader D).line {} with
        text := D.fromUtf8Lossy (appendBounded maxStreamBytes [] bytes) } := by
  have hlines : ∀ line ∈ LineReader.lines newline c.chunks.flatten, line.length ≤ maxStreamBytes := by
    rw [c.flatten]
    exact fun line hline => (hshort line hline).2.le
  have hread : (jsonReader D).read {} c.chunks = _ := LineReader.read_eq_foldl_lines c.nonempty hlines
  rw [c.flatten] at hread
  have hall : c.chunks.takeWhile (· ≠ []) = c.chunks :=
    List.takeWhile_eq_self_iff.mpr fun chunk hchunk => by simpa using c.nonempty chunk hchunk
  have htext : c.chunks.foldl (appendBounded maxStreamBytes) [] = appendBounded maxStreamBytes [] bytes := by
    have h := @foldl_appendBounded maxStreamBytes c.chunks []
    rwa [c.flatten] at h
  rw [captureJsonActivity, hread, hall, htext]
  rfl

/-- The two readers report the same of a stream, however it arrives. -/
structure ReadersAgree (D : Decoders) (bytes : List UInt8) : Prop where
  host : ∀ c c' : Chunked bytes, readStdout D c.chunks = readStdout D c'.chunks
  sandbox : ∀ c c' : Chunked bytes, captureJsonActivity D c.chunks = captureJsonActivity D c'.chunks
  lines : ∀ c c' : Chunked bytes, (readStdout D c.chunks).lines = (captureJsonActivity D c'.chunks).lines
  malformed : ∀ c c' : Chunked bytes, (readStdout D c.chunks).malformedLine.isSome =
    (captureJsonActivity D c'.chunks).malformed.isSome
  outcome : ∀ (c c' : Chunked bytes) runtime status finalResponse finalResponse' stderrTail stderrTail',
    hostOutcome runtime status finalResponse stderrTail (readStdout D c.chunks) =
      sandboxOutcome runtime status finalResponse' stderrTail' (captureJsonActivity D c'.chunks)

theorem outcomes_eq {capture : StdoutCapture} {capture' : JsonCapture}
    (h : capture.malformedLine.isSome = capture'.malformed.isSome) :
    hostOutcome runtime status finalResponse stderrTail capture =
      sandboxOutcome runtime status finalResponse' stderrTail' capture' := by
  cases hmalformed : capture.malformedLine with
  | some error =>
    obtain ⟨error', hmalformed'⟩ :=
      Option.isSome_iff_exists.mp (h ▸ hmalformed ▸ rfl : capture'.malformed.isSome = true)
    cases hstatus : status.success <;>
      simp [hostOutcome, sandboxOutcome, executionOutcome, hmalformed, hmalformed', hstatus]
  | none =>
    have hmalformed' : capture'.malformed = none := by simpa [hmalformed] using h.symm
    cases hstatus : status.success <;>
      simp [hostOutcome, sandboxOutcome, executionOutcome, hmalformed, hmalformed', hstatus]

/-- **The readers agree exactly on the streams without a blank line.** -/
theorem readers_agree_iff (hskips : D.SkipsCarriageReturn) (hshort : ShortLines bytes)
    (hthreads : ShortThreadIds D bytes) :
    ReadersAgree D bytes ↔ ∀ line ∈ LineReader.lines newline bytes, ¬ line.all isAsciiWhitespace = true := by
  obtain ⟨hlines, hmalformed⟩ := @stdoutReader_counts D _ {} hthreads
  obtain ⟨hlines', hmalformed'⟩ := @jsonReader_counts D (LineReader.lines newline bytes) {}
  simp only [isOk_stripCarriageReturn hskips] at hmalformed
  constructor
  · intro H
    have hcount := H.lines (.single bytes) (.single bytes)
    rw [readStdout_eq hshort, captureJsonActivity_eq hshort] at hcount
    dsimp only at hcount
    rw [hlines, hlines', Nat.zero_add, Nat.zero_add, eq_comm, List.length_filter_eq_length_iff] at hcount
    simpa using hcount
  · intro hblank
    have hall : (LineReader.lines newline bytes).filter (fun line => !line.all isAsciiWhitespace) =
        LineReader.lines newline bytes := List.filter_eq_self.mpr fun line hline => by simpa using hblank line hline
    rw [hall] at hlines' hmalformed'
    have hsame : ∀ c c' : Chunked bytes, (readStdout D c.chunks).malformedLine.isSome =
        (captureJsonActivity D c'.chunks).malformed.isSome := by
      intro c c'
      rw [readStdout_eq hshort, captureJsonActivity_eq hshort]
      exact hmalformed.trans hmalformed'.symm
    refine ⟨fun c c' => ?_, fun c c' => ?_, fun c c' => ?_, hsame, fun c c' => ?_⟩
    · rw [readStdout_eq hshort, readStdout_eq hshort]
    · rw [captureJsonActivity_eq hshort, captureJsonActivity_eq hshort]
    · rw [readStdout_eq hshort, captureJsonActivity_eq hshort]
      exact hlines.trans hlines'.symm
    · intros
      exact outcomes_eq (hsame c c')

/-! ## Empty objects -/

/-- Decoders that know the text of an empty object only, with carriage returns anywhere. -/
def objectDecoders : Decoders where
  fromSlice line := if line.filter (· ≠ carriageReturn) = [0x7B, 0x7D] then .ok (.object [])
    else .error "expected value at line 1 column 1"
  fromUtf8Lossy bytes := String.ofList (bytes.map fun byte => Char.ofNat byte.toNat)

theorem objectDecoders_skips : objectDecoders.SkipsCarriageReturn := by
  intro line
  simp [objectDecoders, List.filter_append]

theorem objectDecoders_shortThreadIds : ShortThreadIds objectDecoders bytes := by
  intro line _ event threadId hevent hid
  simp only [objectDecoders] at hevent
  split at hevent
  · cases hevent
    simp [threadIdOf, Json.get?] at hid
  · cases hevent

/-- `{}` and, without a line feed, `{}` again. -/
def twoObjects : List UInt8 := [0x7B, 0x7D, newline, 0x7B, 0x7D]

theorem readers_agree_twoObjects : ReadersAgree objectDecoders twoObjects :=
  (readers_agree_iff objectDecoders_skips (by decide) objectDecoders_shortThreadIds).mpr (by decide)

/-- `{}` and an empty line. -/
def objectAndBlank : List UInt8 := [0x7B, 0x7D, newline, newline]

theorem readers_disagree_on_blank : objectDecoders.SkipsCarriageReturn ∧ ShortLines objectAndBlank ∧
    ShortThreadIds objectDecoders objectAndBlank ∧ ¬ ReadersAgree objectDecoders objectAndBlank := by
  refine ⟨objectDecoders_skips, by decide, objectDecoders_shortThreadIds, fun H => ?_⟩
  have houtcome := H.outcome (.single _) (.single _) "codex" (.code 0) "" "" "" ""
  -- the run fails on the host and succeeds in the sandbox
  revert houtcome
  decide

end FlashyFactory
