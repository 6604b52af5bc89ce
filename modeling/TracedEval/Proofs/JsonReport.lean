import TracedEval.Proofs.Json.Grammar
import TracedEval.Report

/-!
# JSON reports read back

The JSON form of a report is a JSON text without controls, so it stays on one line, and the only value
that this text denotes has the row, the column, the message and all frames of the report in it.

* `Report.toJson` is that value, and `Report.textOf_json` that the line denotes it;
* `Report.ofJson?` reads a report from a value, field by field;
* `Report.json_readable` puts these together.
-/

namespace TracedEval

/-! ## Values that stand for reports -/

namespace Json

/-- The member of that name. -/
def field? (name : String) : Json → Option Json
  | object members => (members.find? fun m => m.1 == name).map (·.2)
  | _ => none

/-- The natural number that a value is. -/
def nat? : Json → Option ℕ
  | number q => if q.den = 1 ∧ 0 ≤ q.num then some q.num.toNat else none
  | _ => none

def string? : Json → Option String
  | string s => some s
  | _ => none

def items? : Json → Option (List Json)
  | array items => some items
  | _ => none

theorem nat?_natCast (n : ℕ) : (number n).nat? = some n := by simp [nat?]

end Json

/-- The position in the members `row` and `col`. -/
def Position.ofJson? (v : Json) : Option Position := do
  let row ← (← v.field? "row").nat?
  let col ← (← v.field? "col").nat?
  some ⟨row, col⟩

def Frame.ofJson? (v : Json) : Option Frame := do
  let name ← (← v.field? "name").string?
  let position ← Position.ofJson? v
  some ⟨name, position⟩

def Report.ofJson? (v : Json) : Option Report := do
  let position ← Position.ofJson? v
  let message ← (← v.field? "message").string?
  let stack ← (← (← v.field? "stack").items?).mapM Frame.ofJson?
  some ⟨position, message, stack⟩

def Position.members (p : Position) : List (String × Json) :=
  [("row", .number p.row), ("col", .number p.col)]

def Frame.toJson (frame : Frame) : Json :=
  .object (("name", .string frame.name) :: frame.position.members)

/-- What the JSON form of a report denotes. -/
def Report.toJson (r : Report) : Json :=
  .object (r.position.members ++
    [("message", .string r.message), ("stack", .array (r.stack.map Frame.toJson))])

theorem Frame.ofJson?_toJson (frame : Frame) : Frame.ofJson? frame.toJson = some frame := by
  simp [Frame.ofJson?, Position.ofJson?, Frame.toJson, Position.members, Json.field?, Json.string?,
    Json.nat?_natCast]

theorem Report.ofJson?_toJson (r : Report) : Report.ofJson? r.toJson = some r := by
  have hframes : (r.stack.map Frame.toJson).mapM Frame.ofJson? = some r.stack := by
    induction r.stack with
    | nil => rfl
    | cons frame rest ih =>
      rw [List.map_cons, List.mapM_cons, Frame.ofJson?_toJson, ih]
      rfl
  simp [Report.ofJson?, Position.ofJson?, Report.toJson, Position.members, Json.field?,
    Json.string?, Json.items?, Json.nat?_natCast, hframes]

/-! ## The line denotes the value -/

/-- No character is a control. -/
def NoControl (cs : List Char) : Prop := ∀ c ∈ cs, 0x20 ≤ c.toNat

theorem noControl_nil : NoControl [] := fun c hc => by cases hc

theorem noControl_cons {c : Char} {cs : List Char} :
    NoControl (c :: cs) ↔ 0x20 ≤ c.toNat ∧ NoControl cs := List.forall_mem_cons

theorem noControl_append {cs ds : List Char} :
    NoControl (cs ++ ds) ↔ NoControl cs ∧ NoControl ds := List.forall_mem_append

/-- How a character may be escaped: by a letter, by the number of a control, or not at all. -/
inductive EscapedAs (c : Char) : List Char → Prop
  | letter {l : Char} (escape : letterEscape? l = some c) (visible : 0x20 ≤ l.toNat) :
      EscapedAs c ['\\', l]
  | control {a b : Char} (control : c.toNat < 0x20)
      (digits : hexNumber? ['0', '0', a, b] = some c.toNat)
      (visible : 0x20 ≤ a.toNat ∧ 0x20 ≤ b.toNat) : EscapedAs c ['\\', 'u', '0', '0', a, b]
  | itself (quote : c ≠ '"') (backslash : c ≠ '\\') (visible : 0x20 ≤ c.toNat) : EscapedAs c [c]

theorem escapedAs_escapeJson (c : Char) : EscapedAs c (Report.escapeJson c).toList := by
  have hvisible : ∀ n < 16, 0x20 ≤ n.digitChar.toNat := by decide
  have hlow : ∀ n < 16, hexNumber? ['0', '0', '0', n.digitChar] = some n := by decide
  have hhigh : ∀ n < 16, hexNumber? ['0', '0', '1', n.digitChar] = some (16 + n) := by decide
  unfold Report.escapeJson
  split
  · exact .letter rfl (by decide)
  · exact .letter rfl (by decide)
  · exact .letter rfl (by decide)
  · exact .letter rfl (by decide)
  · exact .letter rfl (by decide)
  · exact .letter rfl (by decide)
  · exact .letter rfl (by decide)
  · rename_i hquote hbackslash _ _ _ _ _
    split
    · -- three zeros and one digit
      rename_i hc
      have hdigits : (Text.hexadecimal c.toNat).toList = [c.toNat.digitChar] := by
        rw [Text.hexadecimal, String.toList_ofList, Nat.toDigits_of_lt_base hc]
      rw [String.toList_append, hdigits]
      exact .control (by omega) (hlow _ hc) ⟨by decide, hvisible _ hc⟩
    · split
      · -- two zeros, a one and another digit
        rename_i hlower hc
        have hdigits : (Text.hexadecimal c.toNat).toList = ['1', (c.toNat % 16).digitChar] := by
          have hone : c.toNat / 16 = 1 := by omega
          rw [Text.hexadecimal, String.toList_ofList,
            Nat.toDigits_of_base_le (by decide) (by omega), hone]
          rfl
        have hlast : c.toNat % 16 < 16 := Nat.mod_lt _ (by decide)
        have hvalue : 16 + c.toNat % 16 = c.toNat := by omega
        rw [String.toList_append, hdigits]
        exact .control hc ((hhigh _ hlast).trans (congrArg some hvalue))
          ⟨by decide, hvisible _ hlast⟩
      · rename_i hcontrol
        have hitself : c.toString.toList = [c] := by simp
        rw [hitself]
        exact .itself hquote hbackslash (by omega)

namespace EscapedAs

variable {c : Char} {text : List Char}

/-- An escaped character is read as the character. -/
theorem stringRest (h : EscapedAs c text) {s cs t : List Char} (rest : StringRest s cs t) :
    StringRest (text ++ s) (c :: cs) t := by
  cases h with
  | letter escape => exact .letter escape rest
  | control hc digits =>
    have hleading : isLeadingSurrogate c.toNat = false := by
      simp only [isLeadingSurrogate, Bool.and_eq_false_iff, decide_eq_false_iff_not]
      omega
    have htrailing : isTrailingSurrogate c.toNat = false := by
      simp only [isTrailingSurrogate, Bool.and_eq_false_iff, decide_eq_false_iff_not]
      omega
    have hread := StringRest.unit digits hleading htrailing rest
    rwa [Char.ofNat_toNat] at hread
  | itself quote backslash visible => exact .plain quote backslash visible rest

theorem noControl (h : EscapedAs c text) : NoControl text := by
  cases h with
  | letter escape visible => simpa [NoControl] using visible
  | control control digits visible => simpa [NoControl] using visible
  | itself quote backslash visible => simpa [NoControl] using visible

end EscapedAs

theorem toList_jsonString (s : String) :
    (Report.jsonString s).toList =
      '"' :: (s.toList.flatMap fun c => (Report.escapeJson c).toList) ++ ['"'] := by
  simp [Report.jsonString, String.toList_join, List.flatMap_map]

theorem stringRest_flatMap (cs t : List Char) :
    StringRest ((cs.flatMap fun c => (Report.escapeJson c).toList) ++ '"' :: t) cs t := by
  induction cs with
  | nil => exact .close t
  | cons c cs ih =>
    rw [List.flatMap_cons, List.append_assoc]
    exact (escapedAs_escapeJson c).stringRest ih

namespace Reads

/-- A value without blanks around it is an element. -/
theorem element_of_value {s t : List Char} {v : Json} (h : Reads s (.value v) t) :
    Reads s (.element v) t := .element (.done s) h (.done t)

theorem jsonString (s : String) (t : List Char) :
    Reads ((Report.jsonString s).toList ++ t) (.element (.string s)) t := by
  have hread := Reads.string (stringRest_flatMap s.toList t)
  rw [String.ofList_toList] at hread
  rw [toList_jsonString, List.cons_append, List.cons_append, List.append_assoc]
  exact hread.element_of_value

theorem nat (n : ℕ) (t : List Char) :
    Reads (Nat.toDigits 10 n ++ t) (.element (.number n)) t :=
  (Reads.number rfl (decimalValue?_toDigits n) (noLeadingZero_toDigits n)).element_of_value

/-- A member with a name that is written as it is. -/
theorem member_of_element (name : String) {s t : List Char} {v : Json}
    (h : Reads s (.element v) t) :
    Reads ((Report.jsonString name).toList ++ ':' :: s) (.member name v) t := by
  have hname := stringRest_flatMap name.toList (':' :: s)
  have hread := Reads.member (.done _) hname (.done _) h
  rw [String.ofList_toList] at hread
  rwa [toList_jsonString, List.cons_append, List.cons_append, List.append_assoc]

end Reads

/-! ## Reports are read -/

namespace Report

theorem toList_positionMembers (p : Position) :
    (positionMembers p).toList = (jsonString "row").toList ++ ':' ::
      (Nat.toDigits 10 p.row ++ ',' :: ((jsonString "col").toList ++ ':' ::
        Nat.toDigits 10 p.col)) := by
  have hparts : positionMembers p =
      "\"row\":" ++ toString p.row ++ ",\"col\":" ++ toString p.col := rfl
  have hrow : (jsonString "row").toList = "\"row\"".toList := by decide
  have hcol : (jsonString "col").toList = "\"col\"".toList := by decide
  rw [hparts, hrow, hcol]
  simp

/-- A position is read as the last two members. -/
theorem reads_lastPosition (p : Position) (t : List Char) :
    Reads ((positionMembers p).toList ++ t) (.members p.members) t := by
  rw [toList_positionMembers]
  simp only [List.append_assoc, List.cons_append]
  exact .moreMembers ((Reads.nat _ _).member_of_element "row")
    (.lastMember ((Reads.nat _ _).member_of_element "col"))

/-- A position is read as two members in front of others. -/
theorem reads_position (p : Position) {s t : List Char} {ms : List (String × Json)}
    (h : Reads s (.members ms) t) :
    Reads ((positionMembers p).toList ++ ',' :: s) (.members (p.members ++ ms)) t := by
  rw [toList_positionMembers]
  simp only [List.append_assoc, List.cons_append]
  exact .moreMembers ((Reads.nat _ _).member_of_element "row")
    (.moreMembers ((Reads.nat _ _).member_of_element "col") h)

theorem toList_frameJson (frame : Frame) :
    (frameJson frame).toList = '\x7b' :: ((jsonString "name").toList ++ ':' ::
      ((jsonString frame.name).toList ++ ',' ::
        ((positionMembers frame.position).toList ++ ['\x7d']))) := by
  have hname : (jsonString "name").toList = "\"name\"".toList := by decide
  rw [frameJson, hname]
  simp

theorem reads_frame (frame : Frame) (t : List Char) :
    Reads ((frameJson frame).toList ++ t) (.element frame.toJson) t := by
  rw [toList_frameJson]
  simp only [List.append_assoc, List.cons_append, List.nil_append]
  have hmembers := Reads.moreMembers ((Reads.jsonString frame.name _).member_of_element "name")
    (reads_lastPosition frame.position ('\x7d' :: t))
  exact (Reads.object hmembers).element_of_value

/-- The frames are read as the elements of an array, one after the other. -/
theorem reads_frames (frames : List Frame) (t : List Char) :
    Reads ('[' :: ((",".intercalate (frames.map frameJson)).toList ++ ']' :: t))
      (.element (.array (frames.map Frame.toJson))) t := by
  cases frames with
  | nil => exact (Reads.noElements (.done _)).element_of_value
  | cons first rest =>
    refine (Reads.array ?_).element_of_value
    induction rest generalizing first with
    | nil => exact .lastElement (reads_frame first (']' :: t))
    | cons second rest ih =>
      have htext : (",".intercalate ((first :: second :: rest).map frameJson)).toList ++ ']' :: t =
          (frameJson first).toList ++ ',' ::
            ((",".intercalate ((second :: rest).map frameJson)).toList ++ ']' :: t) := by
        rw [List.map_cons, List.map_cons, String.intercalate_cons_cons]
        simp
      rw [htext]
      exact .moreElements (reads_frame first _) (ih second)

theorem toList_json (r : Report) :
    r.json.toList = '\x7b' :: ((positionMembers r.position).toList ++ ',' ::
      ((jsonString "message").toList ++ ':' :: ((jsonString r.message).toList ++ ',' ::
        ((jsonString "stack").toList ++ ':' ::
          ('[' :: ((",".intercalate (r.stack.map frameJson)).toList ++ [']', '\x7d'])))))) := by
  have hmessage : (jsonString "message").toList = "\"message\"".toList := by decide
  have hstack : (jsonString "stack").toList = "\"stack\"".toList := by decide
  rw [json, hmessage, hstack]
  simp

/-- The line is a JSON text, and it denotes the report. -/
theorem textOf_json (r : Report) : Json.TextOf r.json.toList r.toJson := by
  have hstack := (reads_frames r.stack ['\x7d']).member_of_element "stack"
  have hmessage := Reads.moreMembers
    ((Reads.jsonString r.message _).member_of_element "message") (.lastMember hstack)
  rw [Json.TextOf, toList_json]
  exact (Reads.object (reads_position r.position hmessage)).element_of_value

/-! ## The line has no controls -/

theorem noControl_digits (n : ℕ) : NoControl (Nat.toDigits 10 n) := by
  intro c hc
  have hdigit := Char.isDigit_iff_toNat.mp ((digits_toDigits n).isDigit c hc)
  have hzero : '0'.toNat = 0x30 := rfl
  omega

theorem noControl_jsonString (s : String) : NoControl (jsonString s).toList := by
  have hchars : NoControl (s.toList.flatMap fun c => (escapeJson c).toList) := by
    intro d hd
    obtain ⟨c, -, hc⟩ := List.mem_flatMap.mp hd
    exact (escapedAs_escapeJson c).noControl d hc
  rw [toList_jsonString]
  simp [noControl_cons, noControl_append, noControl_nil, hchars]

theorem noControl_positionMembers (p : Position) : NoControl (positionMembers p).toList := by
  rw [toList_positionMembers]
  simp [noControl_cons, noControl_append, noControl_digits, noControl_jsonString]

theorem noControl_frames (frames : List Frame) :
    NoControl (",".intercalate (frames.map frameJson)).toList := by
  have hframe (frame : Frame) : NoControl (frameJson frame).toList := by
    rw [toList_frameJson]
    simp [noControl_cons, noControl_append, noControl_nil, noControl_positionMembers,
      noControl_jsonString]
  induction frames with
  | nil => exact noControl_nil
  | cons first rest ih =>
    cases rest with
    | nil => exact hframe first
    | cons second rest =>
      rw [List.map_cons, List.map_cons, String.intercalate_cons_cons, String.toList_append,
        String.toList_append, noControl_append, noControl_append]
      exact ⟨⟨hframe first, by simp [NoControl]⟩, ih⟩

theorem noControl_json (r : Report) : NoControl r.json.toList := by
  rw [toList_json]
  simpa [noControl_cons, noControl_append, noControl_nil, noControl_positionMembers,
    noControl_jsonString] using noControl_frames r.stack

/-- The JSON form of a report is one line without controls. The line is a JSON text, and whatever it
can be read as is a value in which the report is found again: position, message and frames, innermost
first. So the line tells the failure and the frames that were on the call stack in the order they
were pushed, and no two reports have the same line. -/
theorem json_readable :
    (∀ r : Report, ∃ line, r.lines .json = [line] ∧ NoControl line.toList ∧
      Json.TextOf line.toList r.toJson ∧
      ∀ v, Json.TextOf line.toList v → Report.ofJson? v = some r) ∧
    (∀ (failure : Failure) (frames : List Frame) (v : Json),
      Json.TextOf (Report.ofFailure failure frames).json.toList v →
        ∃ r, Report.ofJson? v = some r ∧ r.position = failure.position ∧
          r.message = failure.message ∧ r.stack.reverse = frames) ∧
    ∀ r r' : Report, r.lines .json = r'.lines .json → r = r' := by
  have hread (r : Report) (v : Json) (h : Json.TextOf r.json.toList v) :
      Report.ofJson? v = some r := by
    rw [h.unique (textOf_json r), ofJson?_toJson]
  refine ⟨?_, ?_, ?_⟩
  · intro r
    exact ⟨r.json, rfl, noControl_json r, textOf_json r, hread r⟩
  · intro failure frames v h
    exact ⟨_, hread _ v h, rfl, rfl, List.reverse_reverse frames⟩
  · intro r r' hlines
    have hline : r.json = r'.json := List.head_eq_of_cons_eq hlines
    have hsame := hread r r'.toJson (hline ▸ textOf_json r')
    rw [ofJson?_toJson] at hsame
    exact (Option.some.inj hsame).symm

/-- A report with quotes, a backslash, a newline, another control and a letter beyond ASCII. -/
theorem json_readable_escapes :
    let failure : Failure := ⟨⟨3, 12⟩, .undefinedName "say \"é\"\n"⟩
    let frames : List Frame := [⟨"out\\er", ⟨1, 1⟩⟩, ⟨"\x01", ⟨2, 5⟩⟩]
    let r := Report.ofFailure failure frames
    (∃ line, r.lines .json = [line] ∧ NoControl line.toList ∧
      Json.TextOf line.toList r.toJson ∧
      ∀ v, Json.TextOf line.toList v → Report.ofJson? v = some r) ∧
    (∃ r', Report.ofJson? r.toJson = some r' ∧ r'.position = failure.position ∧
      r'.message = failure.message ∧ r'.stack.reverse = frames) ∧
    ∀ r', r.lines .json = r'.lines .json → r = r' := by
  intro failure frames r
  exact ⟨json_readable.1 r, json_readable.2.1 failure frames r.toJson (textOf_json r),
    json_readable.2.2 r⟩

end Report

end TracedEval
