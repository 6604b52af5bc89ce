import TracedEval.Proofs.Leading
import TracedEval.Proofs.Printing

/-!
# Text reports read back

The text form of a report can be read back, whatever the names and the message are: each line begins
with a position, which ends at its first bracket, and all that stands behind the fixed text after it
is the name or the message. For the lines put together to one text, it takes that no name and no
message contains a newline.

* `Report.ofTextLines?` reads the lines of a report, and `Report.ofDisplay?` reads them from one
  text;
* `Report.text_readable`: both give the report back, and that one text is what a context echoes when
  it reports a failure.
-/

namespace TracedEval

/-! ## Positions -/

theorem Position.toList_text (p : Position) :
    p.text.toList = "[".toList ++ (Nat.toDigits 10 p.row ++
      (":".toList ++ (Nat.toDigits 10 p.col ++ "]".toList))) := by
  have hparts : p.text = "[" ++ toString p.row ++ ":" ++ toString p.col ++ "]" := rfl
  rw [hparts]
  simp

/-- Reads a position in brackets off the front. -/
def Position.leading? (cs : List Char) : Option (Position × List Char) := do
  let cs ← afterLiteral? "[" cs
  let (row, cs) ← leadingNat? cs
  let cs ← afterLiteral? ":" cs
  let (col, cs) ← leadingNat? cs
  let cs ← afterLiteral? "]" cs
  some (⟨row, col⟩, cs)

/-- A position is read back, whatever follows it. -/
theorem Position.leading?_append (p : Position) (rest : List Char) :
    Position.leading? (p.text.toList ++ rest) = some (p, rest) := by
  have hcolon (more : List Char) : NoDigit (":".toList ++ more) := noDigit_cons ':' more |>.mpr rfl
  have hbracket (more : List Char) : NoDigit ("]".toList ++ more) :=
    noDigit_cons ']' more |>.mpr rfl
  rw [Position.toList_text, Position.leading?]
  simp only [List.append_assoc, afterLiteral?_append, Option.bind_eq_bind, Option.bind_some,
    leadingNat?_append p.row (hcolon _), leadingNat?_append p.col (hbracket _)]

namespace Report

/-! ## Lines -/

theorem toList_frameLine (frame : Frame) :
    (frameLine frame).toList =
      "  ".toList ++ (frame.position.text.toList ++ (" > ".toList ++ frame.name.toList)) := by
  have hparts : frameLine frame = "  " ++ frame.position.text ++ " > " ++ frame.name := rfl
  rw [hparts]
  simp only [String.toList_append, List.append_assoc]

/-- The first line of a text report. -/
def failureLine (r : Report) : String := s!"{r.position.text}Runtime Error: {r.message}"

theorem toList_failureLine (r : Report) :
    r.failureLine.toList =
      r.position.text.toList ++ ("Runtime Error: ".toList ++ r.message.toList) := by
  have hparts : r.failureLine = r.position.text ++ "Runtime Error: " ++ r.message := rfl
  rw [hparts]
  simp only [String.toList_append, List.append_assoc]

/-- Reads the line of one call. -/
def ofFrameLine? (line : String) : Option Frame := do
  let cs ← afterLiteral? "  " line.toList
  let (position, cs) ← Position.leading? cs
  let name ← afterLiteral? " > " cs
  some ⟨String.ofList name, position⟩

theorem ofFrameLine?_frameLine (frame : Frame) : ofFrameLine? (frameLine frame) = some frame := by
  rw [ofFrameLine?, toList_frameLine]
  simp only [afterLiteral?_append, Option.bind_eq_bind, Option.bind_some,
    Position.leading?_append, String.ofList_toList]

/-- Reads the lines of a text report. -/
def ofTextLines? : List String → Option Report
  | failure :: "Stack trace:" :: calls => do
    let (position, cs) ← Position.leading? failure.toList
    let message ← afterLiteral? "Runtime Error: " cs
    let stack ← calls.mapM ofFrameLine?
    some ⟨position, String.ofList message, stack⟩
  | _ => none

/-- A text report is read back, call by call. -/
theorem ofTextLines?_textLines (r : Report) : ofTextLines? r.textLines = some r := by
  have hcalls : (r.stack.map frameLine).mapM ofFrameLine? = some r.stack := by
    induction r.stack with
    | nil => rfl
    | cons frame rest ih =>
      rw [List.map_cons, List.mapM_cons, ofFrameLine?_frameLine, ih]
      rfl
  show ofTextLines? (r.failureLine :: "Stack trace:" :: r.stack.map frameLine) = some r
  rw [ofTextLines?, toList_failureLine, hcalls]
  simp only [Position.leading?_append, afterLiteral?_append, Option.bind_eq_bind, Option.bind_some,
    String.ofList_toList]

/-! ## One text -/

/-- Neither the message nor a name contains a newline. -/
structure OneLiners (r : Report) : Prop where
  message : '\n' ∉ r.message.toList
  names : ∀ frame ∈ r.stack, '\n' ∉ frame.name.toList

theorem newline_not_mem_text (p : Position) : '\n' ∉ p.text.toList := by
  have hdigits (n : ℕ) : '\n' ∉ Nat.toDigits 10 n := by
    intro h
    have hdigit := Nat.isDigit_of_mem_toDigits (by decide) (by decide) h
    revert hdigit
    decide
  rw [Position.toList_text]
  simp [hdigits]

theorem OneLiners.textLines {r : Report} (h : r.OneLiners) :
    ∀ line ∈ r.textLines, '\n' ∉ line.toList := by
  intro line hline
  have hcases : line = r.failureLine ∨ line = "Stack trace:" ∨ ∃ frame ∈ r.stack,
      frameLine frame = line := by
    simpa [Report.textLines, failureLine] using hline
  rcases hcases with rfl | rfl | ⟨frame, hframe, rfl⟩
  · rw [toList_failureLine]
    simp [newline_not_mem_text, h.message]
  · decide
  · rw [toList_frameLine]
    simp [newline_not_mem_text, h.names frame hframe]

/-- The lines of a text in which every line is ended by a newline. -/
def endedLines : List Char → List (List Char)
  | [] => []
  | c :: cs =>
    if c = '\n' then [] :: endedLines cs
    else
      match endedLines cs with
      | [] => [[c]]
      | line :: lines => (c :: line) :: lines

theorem endedLines_append {line : List Char} (h : '\n' ∉ line) (rest : List Char) :
    endedLines (line ++ '\n' :: rest) = line :: endedLines rest := by
  induction line with
  | nil => rfl
  | cons c cs ih =>
    have hc : c ≠ '\n' := fun heq => h (heq ▸ List.mem_cons_self)
    have hcs : '\n' ∉ cs := fun hmem => h (List.mem_cons_of_mem c hmem)
    rw [List.cons_append, endedLines, if_neg hc, ih hcs]

theorem endedLines_join {lines : List String} (h : ∀ line ∈ lines, '\n' ∉ line.toList) :
    endedLines (String.join (lines.map (· ++ "\n"))).toList = lines.map String.toList := by
  rw [String.toList_join]
  induction lines with
  | nil => rfl
  | cons line rest ih =>
    have hfirst : (line ++ "\n").toList = line.toList ++ ['\n'] := by simp
    rw [List.map_cons, List.flatMap_cons, hfirst, List.append_assoc, List.singleton_append,
      endedLines_append (h line List.mem_cons_self), List.map_cons,
      ih fun other hother => h other (List.mem_cons_of_mem line hother)]

/-- Reads the text of a report. -/
def ofDisplay? (text : String) : Option Report :=
  ofTextLines? ((endedLines text.toList).map String.ofList)

/-- A text without newlines in its names and its message is read back. -/
theorem OneLiners.ofDisplay?_display {r : Report} (h : r.OneLiners) :
    ofDisplay? r.display = some r := by
  have hlines : (r.textLines.map String.toList).map String.ofList = r.textLines := by
    simp [List.map_map, Function.comp_def]
  rw [ofDisplay?, display, endedLines_join h.textLines, hlines, ofTextLines?_textLines]

/-! ## What is echoed -/

theorem linesBytes_eq_textBytes (lines : List String) :
    linesBytes lines = textBytes (String.join (lines.map (· ++ "\n"))) := by
  have happend (s t : String) : textBytes (s ++ t) = textBytes s ++ textBytes t := by
    simp [textBytes, String.toUTF8]
  induction lines with
  | nil => rfl
  | cons line rest ih =>
    rw [linesBytes_cons, lineBytes, ih, List.map_cons, String.join_cons, happend, happend]

theorem textBytes_injective {s t : String} (h : textBytes s = textBytes t) : s = t := by
  have hbytes : s.toUTF8 = t.toUTF8 := ByteArray.ext (Array.toList_inj.mp h)
  exact String.toByteArray_inj.mp hbytes

end Report

/-- A failure counts as reported when all lines of its report are taken. -/
theorem Context.report_uncaught_iff {ctx : Context} {failure : Failure} :
    (ctx.report failure).1 = .uncaught failure ↔
      (ctx.output.writeLines (ctx.reportLines failure)).2 = none := by
  unfold Context.report Context.reportLines
  dsimp only
  split
  · rename_i hlines
    simp [hlines]
  · rename_i hlines
    simp [hlines]

/-- The lines of a text report give the report back, whatever its message and its names are. If none
of these contains a newline, then the lines put together to one text do so too, and even the bytes of
that text tell the report. They are what a context echoes when it reports a failure and no write to
the sink fails, as none does on a sink without limits. -/
theorem Report.text_readable :
    (∀ r : Report, ofTextLines? (r.lines .text) = some r) ∧
      (∀ r : Report, r.OneLiners → ofDisplay? r.display = some r) ∧
      (∀ r r' : Report, r.OneLiners → r'.OneLiners →
        textBytes r.display = textBytes r'.display → r = r') ∧
      ∀ (ctx : Context) (failure : Failure) (sink : Sink), ctx.traceFormat = .text →
        ctx.output.echo = some sink →
        (ctx.output.Open → (ctx.report failure).1 = .uncaught failure) ∧
        ((ctx.report failure).1 = .uncaught failure →
          ∃ sink', (ctx.report failure).2.output.echo = some sink' ∧
            sink'.received = sink.received ++
              textBytes (Report.ofFailure failure ctx.callStack.frames).display) := by
  refine ⟨ofTextLines?_textLines, fun r h => h.ofDisplay?_display, ?_, ?_⟩
  · intro r r' h h' hbytes
    have hread : some r = some r' := by
      rw [← h.ofDisplay?_display, ← h'.ofDisplay?_display, textBytes_injective hbytes]
    exact Option.some.inj hread
  · intro ctx failure sink hformat hecho
    refine ⟨fun hopen => Context.report_uncaught_iff.mpr (hopen.writeLines _).1, fun hreported => ?_⟩
    have hlines : ctx.reportLines failure =
        (Report.ofFailure failure ctx.callStack.frames).textLines := by
      rw [Context.reportLines, hformat]
      rfl
    have hwritten : ctx.output.writeLines (ctx.reportLines failure) =
        ((ctx.report failure).2.output, none) := by
      rw [Context.report_eq]
      exact Prod.ext rfl (Context.report_uncaught_iff.mp hreported)
    obtain ⟨sink', hecho', hreceived⟩ := (Output.gains_of_writeLines hwritten).received sink hecho
    refine ⟨sink', hecho', ?_⟩
    rw [hreceived, hlines, linesBytes_eq_textBytes, display]

/-- A message and names that look like lines of a report, and a report that is echoed. -/
theorem Report.text_readable_imitations :
    let r : Report := ⟨⟨4, 10⟩, "[1:1]Runtime Error: ] > x",
      [⟨"Stack trace:", ⟨4, 10⟩⟩, ⟨"  [2:1] > ", ⟨0, 7⟩⟩]⟩
    let failure : Failure := ⟨⟨4, 10⟩, .undefinedName "x"⟩
    let ctx := Context.new 8 .text ⟨some .unlimited, false, []⟩
    r.OneLiners ∧ ofTextLines? (r.lines .text) = some r ∧ ofDisplay? r.display = some r ∧
      (∀ r' : Report, r'.OneLiners → textBytes r.display = textBytes r'.display → r = r') ∧
      (ctx.report failure).1 = .uncaught failure ∧
      ∃ sink', (ctx.report failure).2.output.echo = some sink' ∧
        sink'.received =
          textBytes (Report.ofFailure failure ctx.callStack.frames).display := by
  intro r failure ctx
  have hone : r.OneLiners := ⟨by decide, by decide⟩
  have hopen : ctx.output.Open := by
    intro sink hsink
    cases hsink
    exact ⟨rfl, rfl⟩
  obtain ⟨hreport, hechoed⟩ := Report.text_readable.2.2.2 ctx failure .unlimited rfl rfl
  have hreported := hreport hopen
  exact ⟨hone, Report.text_readable.1 r, Report.text_readable.2.1 r hone,
    fun r' h' => Report.text_readable.2.2.1 r r' hone h', hreported, hechoed hreported⟩

end TracedEval
