import Mathlib.Data.Nat.Find
import Mathlib.Order.Basic
import TracedEval.Proofs.Channel

/-!
# Capture and echo

A channel that captures its lines and echoes them to a sink with room for some number of bytes and
for some number of flushes. A line is captured exactly when the sink has taken all of its bytes and
then a flush, so the captured lines never run ahead of the sink, and no line that got through is
missing.

* `ChannelUse` is what is done with a channel, and `Output.use` what comes of it;
* `wholeLines` is how many lines fit into some number of bytes as a whole;
* `Output.Limited` is what is known of such a channel, and `Output.Limited.writeLine` and
  `Output.Limited.takeLines` say what one use does to it;
* `Output.capture_follows_echo`: the lines that are captured, the answers to all writes and the bytes
  that are echoed, for any uses and any limits.
-/

namespace TracedEval

/-! ## Using a channel -/

/-- What is done with a channel: a line is written, or the captured lines are handed over. -/
inductive ChannelUse
  | write (line : String)
  | take

/-- The line that is written, if one is. -/
def ChannelUse.line? : ChannelUse → Option String
  | write line => some line
  | take => none

/-- What has come of using a channel: the answers to the writes, the lines that were handed over each
time, and the channel that is left. -/
structure ChannelUsage where
  answers : List (Option ChannelError)
  taken : List (List String)
  channel : Output

/-- Uses the channel, one use after the other. -/
def Output.use (out : Output) : List ChannelUse → ChannelUsage
  | [] => ⟨[], [], out⟩
  | .write line :: rest =>
    let (out, answer) := out.writeLine line
    let usage := out.use rest
    { usage with answers := answer :: usage.answers }
  | .take :: rest =>
    let (lines, out) := out.takeLines
    let usage := out.use rest
    { usage with taken := lines :: usage.taken }

/-- All lines that have been captured: those that were handed over, and those that are left. -/
def ChannelUsage.captured (usage : ChannelUsage) : List String :=
  usage.taken.flatten ++ usage.channel.lines

/-! ## Lines that fit as a whole -/

/-- The greatest number of leading lines that fit into this many bytes, newlines included. -/
def wholeLines (room : ℕ) (lines : List String) : ℕ :=
  Nat.findGreatest (fun k => (linesBytes (lines.take k)).length ≤ room) lines.length

theorem wholeLines_le (room : ℕ) (lines : List String) : wholeLines room lines ≤ lines.length :=
  Nat.findGreatest_le _

/-- The bytes of leading lines are leading bytes. -/
theorem linesBytes_mono {lines more : List String} (h : lines <+: more) :
    linesBytes lines <+: linesBytes more := by
  obtain ⟨rest, rfl⟩ := h
  rw [linesBytes, linesBytes, List.flatMap_append]
  exact List.prefix_append _ _

/-- The lines that fit do. -/
theorem linesBytes_wholeLines_le (room : ℕ) (lines : List String) :
    (linesBytes (lines.take (wholeLines room lines))).length ≤ room :=
  Nat.findGreatest_spec (P := fun k => (linesBytes (lines.take k)).length ≤ room)
    (Nat.zero_le _) (by simp)

/-- A line is one of them exactly when it fits with all lines before it. -/
theorem lt_wholeLines_iff {room : ℕ} {lines : List String} {i : ℕ} (hi : i < lines.length) :
    i < wholeLines room lines ↔ (linesBytes (lines.take (i + 1))).length ≤ room := by
  constructor
  · intro h
    have hprefix : lines.take (i + 1) <+: lines.take (wholeLines room lines) :=
      List.take_prefix_take_left h
    exact (linesBytes_mono hprefix).length_le.trans (linesBytes_wholeLines_le room lines)
  · intro h
    exact Nat.le_findGreatest (P := fun k => (linesBytes (lines.take k)).length ≤ room) hi h

/-- If the first line fits, then so do those of the others that fit into what is left. -/
theorem wholeLines_cons_of_le {room : ℕ} {line : String} (rest : List String)
    (h : (lineBytes line).length ≤ room) :
    wholeLines room (line :: rest) = wholeLines (room - (lineBytes line).length) rest + 1 := by
  have hlength : (line :: rest).length = rest.length + 1 := rfl
  have hshift : ∀ i, (linesBytes ((line :: rest).take (i + 1))).length ≤ room ↔
      (linesBytes (rest.take i)).length ≤ room - (lineBytes line).length := by
    intro i
    rw [List.take_succ_cons, linesBytes_cons, List.length_append]
    omega
  have hle := wholeLines_le room (line :: rest)
  have hle' := wholeLines_le (room - (lineBytes line).length) rest
  apply Nat.le_antisymm
  · -- the last line that fits after the first one is one of the others that fit
    by_contra hlt
    have hlast : wholeLines (room - (lineBytes line).length) rest + 1 <
        wholeLines room (line :: rest) := by omega
    rw [lt_wholeLines_iff (by omega), hshift, ← lt_wholeLines_iff (by omega)] at hlast
    omega
  · by_cases hnone : wholeLines (room - (lineBytes line).length) rest = 0
    · rw [hnone]
      show 0 < wholeLines room (line :: rest)
      rw [lt_wholeLines_iff (by omega), hshift]
      simp
    · have hlast : wholeLines (room - (lineBytes line).length) rest - 1 <
          wholeLines (room - (lineBytes line).length) rest := by omega
      rw [lt_wholeLines_iff (by omega), ← hshift, ← lt_wholeLines_iff (by omega)] at hlast
      omega

/-- If the first line does not fit, then none does. -/
theorem wholeLines_cons_of_lt {room : ℕ} {line : String} (rest : List String)
    (h : room < (lineBytes line).length) : wholeLines room (line :: rest) = 0 := by
  by_contra hne
  have hfirst : 0 < wholeLines room (line :: rest) := Nat.pos_of_ne_zero hne
  rw [lt_wholeLines_iff (by simp), List.take_succ_cons, linesBytes_cons, List.length_append]
    at hfirst
  omega

/-- Without room no line fits. -/
theorem wholeLines_zero (lines : List String) : wholeLines 0 lines = 0 := by
  cases lines with
  | nil => rfl
  | cons line rest => exact wholeLines_cons_of_lt rest (lineBytes_length_pos line)

/-! ## Channels with limits -/

/-- A line that fits is taken as a whole, and it is up to the flush whether it is refused. -/
theorem Sink.writeLine_of_le {sink : Sink} {room : ℕ} (hroom : sink.room = some room)
    {line : String} (h : (lineBytes line).length ≤ room) :
    sink.writeLine line =
      (sink.took (some (room - (lineBytes line).length)) (lineBytes line)).flush := by
  have hwrite : sink.write (lineBytes line) =
      (sink.took (some (room - (lineBytes line).length)) (lineBytes line), none) := by
    simp only [Sink.write, hroom, if_pos h, Sink.took]
  unfold Sink.writeLine
  rw [← lineBytes, hwrite]

/-- The channel captures its lines and echoes them to a sink that has received these bytes so far,
with room for this many more bytes and for this many more flushes. -/
structure Output.Limited (out : Output) (room flushes : ℕ) (received : List UInt8) : Prop where
  capture : out.capture = true
  echo : ∃ sink, out.echo = some sink ∧ sink.room = some room ∧ sink.flushes = some flushes ∧
    sink.received = received

namespace Output.Limited

variable {out : Output} {room flushes : ℕ} {received : List UInt8}

/-- A line that fits is captured if a flush is left, and then there is one less. -/
theorem writeLine_of_le (h : out.Limited room flushes received) {line : String}
    (hfits : (lineBytes line).length ≤ room) :
    (out.writeLine line).1.Limited (room - (lineBytes line).length) (flushes - 1)
        (received ++ lineBytes line) ∧
      (out.writeLine line).2.isNone = decide (0 < flushes) ∧
      (out.writeLine line).1.lines = if 0 < flushes then out.lines ++ [line] else out.lines := by
  obtain ⟨hcapture, sink, hecho, hroom, hflushes, rfl⟩ := h
  have hline := Sink.writeLine_of_le hroom hfits
  cases flushes with
  | zero =>
    have hflush : sink.writeLine line =
        (sink.took (some (room - (lineBytes line).length)) (lineBytes line), some sink.error) := by
      rw [hline]
      simp only [Sink.flush, Sink.took, hflushes]
    simp only [Output.writeLine, hecho, hflush]
    exact ⟨⟨hcapture, _, rfl, rfl, hflushes, rfl⟩, rfl, rfl⟩
  | succ left =>
    have hflush : sink.writeLine line =
        ({ sink.took (some (room - (lineBytes line).length)) (lineBytes line) with
            flushes := some left }, none) := by
      rw [hline]
      simp only [Sink.flush, Sink.took, hflushes]
    simp only [Output.writeLine, hecho, hflush, Output.keep, hcapture, if_true]
    exact ⟨⟨rfl, _, rfl, rfl, rfl, rfl⟩, by simp, by simp⟩

/-- A line that does not fit is refused; what there is room for is taken all the same. -/
theorem writeLine_of_lt (h : out.Limited room flushes received) {line : String}
    (hcut : room < (lineBytes line).length) :
    (out.writeLine line).1.Limited 0 flushes (received ++ (lineBytes line).take room) ∧
      (out.writeLine line).2.isNone = false ∧ (out.writeLine line).1.lines = out.lines := by
  obtain ⟨hcapture, sink, hecho, hroom, hflushes, rfl⟩ := h
  have hline := Sink.writeLine_cut hroom hcut
  simp only [Output.writeLine, hecho, hline]
  exact ⟨⟨hcapture, _, rfl, rfl, hflushes, rfl⟩, rfl, trivial⟩

theorem takeLines (h : out.Limited room flushes received) :
    out.takeLines.2.Limited room flushes received := ⟨h.capture, h.echo⟩

/-- What comes of using a channel with limits. -/
theorem use (h : out.Limited room flushes received) (uses : List ChannelUse) :
    let lines := uses.filterMap ChannelUse.line?
    let kept := min (wholeLines room lines) flushes
    (out.use uses).answers.map Option.isNone =
        List.replicate kept true ++ List.replicate (lines.length - kept) false ∧
      (out.use uses).captured = out.lines ++ lines.take kept ∧
      ∃ room' flushes', (out.use uses).channel.Limited room' flushes'
        (received ++ (linesBytes lines).take room) := by
  induction uses generalizing out room flushes received with
  | nil =>
    refine ⟨?_, ?_, room, flushes, ?_⟩
    · simp [Output.use, wholeLines]
    · simp [Output.use, ChannelUsage.captured]
    · simpa [Output.use] using h
  | cons first rest ih =>
    cases first with
    | take =>
      obtain ⟨hanswers, hlines, hleft⟩ := ih h.takeLines
      refine ⟨hanswers, ?_, hleft⟩
      have hhanded : (out.use (.take :: rest)).captured =
          out.lines ++ (out.takeLines.2.use rest).captured := by
        simp only [ChannelUsage.captured, Output.use, Output.takeLines, List.flatten_cons,
          List.append_assoc]
      rw [hhanded, hlines]
      rfl
    | write line =>
      have hwritten : (ChannelUse.write line :: rest).filterMap ChannelUse.line? =
          line :: rest.filterMap ChannelUse.line? := rfl
      have hanswered : (out.use (.write line :: rest)).answers.map Option.isNone =
          (out.writeLine line).2.isNone ::
            ((out.writeLine line).1.use rest).answers.map Option.isNone := rfl
      show _ ∧ ((out.writeLine line).1.use rest).captured = _ ∧
        ∃ room' flushes', ((out.writeLine line).1.use rest).channel.Limited room' flushes' _
      rw [hwritten, hanswered, linesBytes_cons]
      by_cases hfits : (lineBytes line).length ≤ room
      · obtain ⟨hlimited, hanswer, hfirst⟩ := h.writeLine_of_le hfits
        obtain ⟨hanswers, hlines, hleft⟩ := ih hlimited
        have hbytes : received ++ (lineBytes line ++ linesBytes
              (rest.filterMap ChannelUse.line?)).take room =
            received ++ lineBytes line ++
              (linesBytes (rest.filterMap ChannelUse.line?)).take
                (room - (lineBytes line).length) := by
          rw [List.take_append, List.take_of_length_le hfits, List.append_assoc]
        rw [wholeLines_cons_of_le _ hfits, hbytes, hanswers, hlines, hanswer, hfirst]
        cases flushes with
        | zero =>
          -- all bytes arrive, but this flush and all later ones fail
          refine ⟨?_, ?_, hleft⟩
          · simp [List.replicate_succ]
          · simp
        | succ left =>
          refine ⟨?_, ?_, hleft⟩
          · simp [Nat.add_min_add_right, List.replicate_succ]
          · simp [Nat.add_min_add_right]
      · -- a part of the line uses up the room, and nothing arrives after it
        have hcut : room < (lineBytes line).length := Nat.not_le.mp hfits
        obtain ⟨hlimited, hanswer, hfirst⟩ := h.writeLine_of_lt hcut
        obtain ⟨hanswers, hlines, hleft⟩ := ih hlimited
        rw [wholeLines_zero] at hanswers hlines
        rw [wholeLines_cons_of_lt _ hcut, List.take_append_of_le_length (by omega),
          hanswers, hlines, hanswer, hfirst]
        refine ⟨?_, ?_, ?_⟩
        · simp [List.replicate_succ]
        · simp
        · simpa using hleft

end Output.Limited

/-- A channel captures its lines, and the sink that it echoes them to has room for `room` bytes and
`flushes` flushes. Then the first lines that fit as a whole and find a flush left are taken, and all
later ones are refused; the captured lines, together with those that were handed over in between,
are exactly the ones that were taken; and the sink has all bytes that there was room for. So a line
is captured exactly when all of it was written and flushed, and what is captured has always been
echoed. -/
theorem Output.capture_follows_echo (room flushes : ℕ) (error : ChannelError) (stalls : Bool)
    (uses : List ChannelUse) :
    let lines := uses.filterMap ChannelUse.line?
    let kept := min (wholeLines room lines) flushes
    let usage := (Output.new (some ⟨some room, some flushes, error, stalls, []⟩) true).use uses
    usage.answers.map Option.isNone =
        List.replicate kept true ++ List.replicate (lines.length - kept) false ∧
      usage.captured = lines.take kept ∧
      (∀ i < lines.length,
        (i < kept ↔ (linesBytes (lines.take (i + 1))).length ≤ room ∧ i < flushes)) ∧
      ∃ sink, usage.channel.echo = some sink ∧
        sink.received = (linesBytes lines).take (min room (linesBytes lines).length) ∧
        linesBytes usage.captured <+: sink.received := by
  intro lines kept usage
  have hstart : (Output.new (some ⟨some room, some flushes, error, stalls, []⟩) true).Limited
      room flushes [] := ⟨rfl, _, rfl, rfl, rfl, rfl⟩
  obtain ⟨hanswers, hcaptured, room', flushes', -, sink, hecho, -, -, hreceived⟩ :=
    hstart.use uses
  have hkept : usage.captured = lines.take kept := hcaptured
  have htaken : sink.received = (linesBytes lines).take (min room (linesBytes lines).length) := by
    rw [hreceived, List.nil_append, ← List.take_take, List.take_length]
  refine ⟨hanswers, hkept, ?_, sink, hecho, htaken, ?_⟩
  · intro i hi
    rw [Nat.lt_min, lt_wholeLines_iff hi]
  · -- the lines that were taken are among those that fit
    have hprefix : lines.take kept <+: lines.take (wholeLines room lines) :=
      List.take_prefix_take_left (Nat.min_le_left _ _)
    have hroom : (linesBytes (lines.take kept)).length ≤ room :=
      (linesBytes_mono hprefix).length_le.trans (linesBytes_wholeLines_le room lines)
    have hbytes : linesBytes (lines.take kept) <+: linesBytes lines :=
      linesBytes_mono (List.take_prefix kept lines)
    rw [hkept, htaken, List.prefix_take_iff]
    exact ⟨hbytes, Nat.le_min.mpr ⟨hroom, hbytes.length_le⟩⟩

end TracedEval
