import TracedEval.Output

/-!
# Lines on a channel

What `Output.writeLines` does, in terms of `linesBytes`, the bytes that the lines make with their
newlines. Lines that are taken are on the channel, whatever its sink is:

* `Output.gains_of_writeLines`: they are captured in their order, and the sink has their bytes.

The rest is about sinks of which the flushes succeed:

* `Output.writeLines_fits`: without a limit, or with room for all of them, all bytes arrive and all
  lines are captured;
* `Output.writeLines_cut`: with room for fewer bytes, exactly these arrive, and the lines that are
  captured are those that arrived as a whole;
* `Output.writeLines_dead`: from then on every further line is refused, and nothing changes any
  more;
* `Output.Open.writeLines`: a channel without any limit never refuses.
-/

namespace TracedEval

/-! ## The bytes of lines -/

/-- The bytes of a line with its newline. -/
def lineBytes (line : String) : List UInt8 := textBytes line ++ textBytes "\n"

/-- The bytes of lines, each with its newline. -/
def linesBytes (lines : List String) : List UInt8 := lines.flatMap lineBytes

@[simp] theorem linesBytes_nil : linesBytes [] = [] := rfl

@[simp] theorem linesBytes_cons (line : String) (rest : List String) :
    linesBytes (line :: rest) = lineBytes line ++ linesBytes rest := List.flatMap_cons

theorem lineBytes_length_pos (line : String) : 0 < (lineBytes line).length := by
  have hnewline : (textBytes "\n").length = 1 := rfl
  rw [lineBytes, List.length_append, hnewline]
  omega

/-! ## Sinks with a limit -/

/-- What a sink says when it takes no more bytes. -/
def Sink.refusal (sink : Sink) : ChannelError :=
  if sink.stalls then .writeZero else sink.error

/-- The sink with room for this many more bytes. -/
def Sink.withRoom (sink : Sink) (room : Option Nat) : Sink := { sink with room := room }

/-- The sink with this room left, after it has received some more bytes. -/
def Sink.took (sink : Sink) (room : Option Nat) (bytes : List UInt8) : Sink :=
  { sink with room := room, received := sink.received ++ bytes }

/-- The channel with its echo going to this sink, after it has captured some more lines. -/
def Output.wrote (out : Output) (sink : Sink) (lines : List String) : Output :=
  { out with echo := some sink, lines := if out.capture then out.lines ++ lines else out.lines }

@[simp] theorem Sink.took_took (sink : Sink) (room room' : Option Nat) (xs ys : List UInt8) :
    (sink.took room xs).took room' ys = sink.took room' (xs ++ ys) := by
  simp only [Sink.took, List.append_assoc]

@[simp] theorem Output.wrote_wrote (out : Output) (sink sink' : Sink) (xs ys : List String) :
    (out.wrote sink xs).wrote sink' ys = out.wrote sink' (xs ++ ys) := by
  cases h : out.capture with
  | true => simp only [Output.wrote, h, if_true, List.append_assoc]
  | false => simp only [Output.wrote, h, Bool.false_eq_true, if_false]

/-- Whether the sink takes this many bytes more. -/
def Sink.HasRoom (sink : Sink) (count : Nat) : Prop := ∀ n, sink.room = some n → count ≤ n

/-- The sink after it has taken these bytes. -/
def Sink.take (sink : Sink) (bytes : List UInt8) : Sink :=
  sink.took (sink.room.map (· - bytes.length)) bytes

theorem Sink.HasRoom.of_take {sink : Sink} {xs : List UInt8} {count : Nat}
    (h : sink.HasRoom (xs.length + count)) : (sink.take xs).HasRoom count := by
  intro n hn
  obtain ⟨m, hm, rfl⟩ := Option.map_eq_some_iff.mp hn
  have hle := h m hm
  omega

theorem Sink.take_take (sink : Sink) (xs ys : List UInt8) :
    (sink.take xs).take ys = sink.take (xs ++ ys) := by
  have hroom : (sink.take xs).room = sink.room.map (· - xs.length) := rfl
  unfold Sink.take at hroom ⊢
  rw [Sink.took_took, hroom, Option.map_map]
  congr 2
  funext n
  show n - xs.length - ys.length = n - (xs ++ ys).length
  rw [List.length_append]
  omega

@[simp] theorem Sink.flushes_take (sink : Sink) (bytes : List UInt8) :
    (sink.take bytes).flushes = sink.flushes := rfl

theorem Sink.take_nil (sink : Sink) : sink.take [] = sink := by
  obtain ⟨room, flushes, error, stalls, received⟩ := sink
  simp only [Sink.take, Sink.took, List.append_nil]
  cases room <;> rfl

/-- A sink with room for the line takes it. -/
theorem Sink.writeLine_fits {sink : Sink} (hflushes : sink.flushes = none) {line : String}
    (h : sink.HasRoom (lineBytes line).length) :
    sink.writeLine line = (sink.take (lineBytes line), none) := by
  have hwrite : sink.write (lineBytes line) = (sink.take (lineBytes line), none) := by
    unfold Sink.write
    cases hroom : sink.room with
    | none => simp only [Sink.take, Sink.took, hroom, Option.map_none]
    | some n => simp only [if_pos (h n hroom), Sink.take, Sink.took, hroom, Option.map_some]
  unfold Sink.writeLine
  rw [← lineBytes, hwrite]
  simp only [Sink.flush, Sink.flushes_take, hflushes]

/-- A sink with less room takes what it can and refuses the line. -/
theorem Sink.writeLine_cut {sink : Sink} {n : Nat} (hroom : sink.room = some n) {line : String}
    (h : n < (lineBytes line).length) :
    sink.writeLine line = (sink.took (some 0) ((lineBytes line).take n), some sink.refusal) := by
  have hwrite : sink.write (lineBytes line) =
      (sink.took (some 0) ((lineBytes line).take n), some sink.refusal) := by
    simp only [Sink.write, hroom, if_neg (Nat.not_le.mpr h), Sink.took, Sink.refusal]
  unfold Sink.writeLine
  rw [← lineBytes, hwrite]

/-! ## Several lines -/

theorem Output.keep_eq (out : Output) (line : String) :
    out.keep line =
      { out with lines := if out.capture then out.lines ++ [line] else out.lines } := by
  unfold Output.keep
  split <;> rfl

theorem Output.writeLines_append (out : Output) (xs ys : List String) :
    out.writeLines (xs ++ ys) =
      match out.writeLines xs with
      | (out, none) => out.writeLines ys
      | (out, some error) => (out, some error) := by
  induction xs generalizing out with
  | nil => rfl
  | cons line rest ih =>
    simp only [List.cons_append, Output.writeLines]
    cases h : out.writeLine line with
    | mk out' refused =>
      cases refused with
      | none => exact ih out'
      | some error => rfl

theorem Output.lines_writeLine (out : Output) (line : String) :
    out.lines <+: (out.writeLine line).1.lines := by
  have hkeep : ∀ out : Output, out.lines <+: (out.keep line).lines := by
    intro out
    rw [Output.keep_eq]
    dsimp only
    split
    · exact List.prefix_append _ _
    · exact List.prefix_refl _
  unfold Output.writeLine
  split
  · exact hkeep out
  · split
    · rename_i sink _
      exact hkeep { out with echo := some sink }
    · exact List.prefix_refl _

/-- What has been captured stays. -/
theorem Output.lines_writeLines (out : Output) (lines : List String) :
    out.lines <+: (out.writeLines lines).1.lines := by
  induction lines generalizing out with
  | nil => exact List.prefix_refl _
  | cons line rest ih =>
    have hfirst := out.lines_writeLine line
    rw [Output.writeLines]
    cases h : out.writeLine line with
    | mk out' refused =>
      rw [h] at hfirst
      cases refused with
      | none => exact hfirst.trans (ih out')
      | some error => exact hfirst

/-- What there is more on a channel after lines that were all taken: all of them are captured, if it
captures, and the sink has received their bytes. -/
structure Output.Gains (out : Output) (lines : List String) (out' : Output) : Prop where
  capture : out'.capture = out.capture
  captured : out'.lines = if out.capture then out.lines ++ lines else out.lines
  received : ∀ sink, out.echo = some sink →
    ∃ sink', out'.echo = some sink' ∧ sink'.received = sink.received ++ linesBytes lines

theorem Output.Gains.refl (out : Output) : out.Gains [] out where
  capture := rfl
  captured := by rw [List.append_nil, ite_self]
  received sink h := ⟨sink, h, (List.append_nil _).symm⟩

theorem Output.Gains.trans {out between out' : Output} {xs ys : List String}
    (h : out.Gains xs between) (h' : between.Gains ys out') : out.Gains (xs ++ ys) out' where
  capture := h'.capture.trans h.capture
  captured := by
    rw [h'.captured, h.capture, h.captured]
    cases out.capture with
    | true => exact List.append_assoc _ _ _
    | false => rfl
  received sink hsink := by
    obtain ⟨sink', hecho, hreceived⟩ := h.received sink hsink
    obtain ⟨sink'', hecho', hreceived'⟩ := h'.received sink' hecho
    refine ⟨sink'', hecho', ?_⟩
    rw [hreceived', hreceived, linesBytes, linesBytes, linesBytes, List.flatMap_append,
      List.append_assoc]

/-- A sink that takes a line has received its bytes. -/
theorem Sink.received_writeLine {sink sink' : Sink} {line : String}
    (h : sink.writeLine line = (sink', none)) :
    sink'.received = sink.received ++ lineBytes line := by
  have hflush : ∀ {sink sink' : Sink}, sink.flush = (sink', none) →
      sink'.received = sink.received := by
    intro sink sink' h
    unfold Sink.flush at h
    split at h <;> cases h <;> rfl
  unfold Sink.writeLine at h
  split at h
  · rename_i written hwrite
    rw [hflush h]
    unfold Sink.write at hwrite
    split at hwrite
    · cases hwrite
      rfl
    · split at hwrite <;> cases hwrite
      rfl
  · cases h

theorem Output.gains_of_writeLine {out out' : Output} {line : String}
    (h : out.writeLine line = (out', none)) : out.Gains [line] out' := by
  unfold Output.writeLine at h
  split at h
  · rename_i hecho
    cases h
    rw [Output.keep_eq]
    refine ⟨rfl, rfl, fun sink hsink => ?_⟩
    rw [hecho] at hsink
    cases hsink
  · rename_i sink hecho
    split at h
    · rename_i sink' hline
      cases h
      rw [Output.keep_eq]
      refine ⟨rfl, rfl, fun first hfirst => ⟨sink', rfl, ?_⟩⟩
      rw [hecho, Option.some.injEq] at hfirst
      rw [← hfirst, Sink.received_writeLine hline, linesBytes_cons, linesBytes_nil,
        List.append_nil]
    · cases h

/-- Lines that are all taken are on the channel. -/
theorem Output.gains_of_writeLines {out out' : Output} {lines : List String}
    (h : out.writeLines lines = (out', none)) : out.Gains lines out' := by
  induction lines generalizing out with
  | nil =>
    cases h
    exact .refl _
  | cons line rest ih =>
    rw [Output.writeLines] at h
    cases hline : out.writeLine line with
    | mk between refused =>
      rw [hline] at h
      cases refused with
      | none => exact (Output.gains_of_writeLine hline).trans (ih h)
      | some error => cases h

/-- A line that is refused is not captured. -/
theorem Output.lines_of_refused {out out' : Output} {line : String} {e : ChannelError}
    (h : out.writeLine line = (out', some e)) : out'.lines = out.lines := by
  unfold Output.writeLine at h
  split at h
  · cases h
  · split at h <;> cases h
    rfl

/-- All of the lines are taken if the first ones are and then the others are. -/
theorem Output.eq_of_writeLines_append {out out' : Output} {xs ys : List String}
    (h : out.writeLines (xs ++ ys) = (out', none)) :
    ∃ between, out.writeLines xs = (between, none) ∧ between.writeLines ys = (out', none) := by
  rw [Output.writeLines_append] at h
  cases hfirst : out.writeLines xs with
  | mk between refused =>
    rw [hfirst] at h
    cases refused with
    | none => exact ⟨between, rfl, h⟩
    | some e => cases h

/-- The line that is refused is one of the first ones, or else it is one of the others. -/
theorem Output.refused_of_writeLines_append {out out' : Output} {e : ChannelError}
    {xs ys : List String} (h : out.writeLines (xs ++ ys) = (out', some e)) :
    out.writeLines xs = (out', some e) ∨
      ∃ between, out.writeLines xs = (between, none) ∧
        between.writeLines ys = (out', some e) := by
  rw [Output.writeLines_append] at h
  cases hfirst : out.writeLines xs with
  | mk between refused =>
    rw [hfirst] at h
    cases refused with
    | none => exact .inr ⟨between, rfl, h⟩
    | some e' =>
      cases h
      exact .inl rfl

theorem Output.wrote_nil (out : Output) (sink : Sink) : out.wrote sink [] = out.setEcho sink := by
  unfold Output.wrote Output.setEcho
  rw [List.append_nil, ite_self]

theorem Output.writeLine_setEcho (out : Output) (sink : Sink) (line : String) :
    (out.setEcho sink).writeLine line =
      match sink.writeLine line with
      | (sink, none) => (out.wrote sink [line], none)
      | (sink, some error) => (out.setEcho sink, some error) := by
  simp only [Output.writeLine, Output.setEcho]
  cases h : sink.writeLine line with
  | mk sink' refused =>
    cases refused with
    | none =>
      simp only [Output.keep, Output.wrote]
      cases out.capture <;> rfl
    | some error => rfl

/-- With room for all of them, all lines are written. -/
theorem Output.writeLines_fits (out : Output) {sink : Sink} (hflushes : sink.flushes = none)
    {lines : List String} (h : sink.HasRoom (linesBytes lines).length) :
    (out.setEcho sink).writeLines lines =
      (out.wrote (sink.take (linesBytes lines)) lines, none) := by
  induction lines generalizing out sink with
  | nil =>
    rw [linesBytes_nil, Sink.take_nil, Output.wrote_nil]
    rfl
  | cons line rest ih =>
    rw [linesBytes_cons, List.length_append] at h
    have hfirst : sink.HasRoom (lineBytes line).length := by
      intro n hn
      have hle := h n hn
      omega
    rw [Output.writeLines, Output.writeLine_setEcho, Sink.writeLine_fits hflushes hfirst]
    show ((out.wrote (sink.take (lineBytes line)) [line]).setEcho
      (sink.take (lineBytes line))).writeLines rest = _
    rw [ih _ (by rwa [Sink.flushes_take]) h.of_take, Output.wrote_wrote, Sink.take_take,
      linesBytes_cons, List.singleton_append]

/-- A sink that takes no more bytes refuses every line, and nothing changes. -/
theorem Output.writeLines_dead (out : Output) {sink : Sink} (hroom : sink.room = some 0)
    {lines : List String} (h : lines ≠ []) :
    (out.setEcho sink).writeLines lines = (out.setEcho sink, some sink.refusal) := by
  obtain ⟨line, rest, rfl⟩ := List.exists_cons_of_ne_nil h
  have hnothing : sink.took (some 0) [] = sink := by
    unfold Sink.took
    rw [← hroom, List.append_nil]
  rw [Output.writeLines, Output.writeLine_setEcho,
    Sink.writeLine_cut hroom (lineBytes_length_pos line), List.take_zero, hnothing]

theorem Output.writeLines_wrote_dead (out : Output) (sink : Sink) (bytes : List UInt8)
    (kept : List String) {more : List String} (h : more ≠ []) :
    (out.wrote (sink.took (some 0) bytes) kept).writeLines more =
      (out.wrote (sink.took (some 0) bytes) kept, some sink.refusal) := by
  have hroom : (sink.took (some 0) bytes).room = some 0 := rfl
  exact Output.writeLines_dead (out.wrote (sink.took (some 0) bytes) kept) hroom h

/-- With room for fewer bytes than the lines make, the first `k` lines arrive as a whole and a part
of the next one, which is refused. -/
theorem Output.writeLines_cut (out : Output) {sink : Sink} (hflushes : sink.flushes = none)
    {n : Nat} (hroom : sink.room = some n) {lines : List String}
    (h : n < (linesBytes lines).length) :
    ∃ k < lines.length, (linesBytes (lines.take k)).length ≤ n ∧
      n < (linesBytes (lines.take (k + 1))).length ∧
      (out.setEcho sink).writeLines lines =
        (out.wrote (sink.took (some 0) ((linesBytes lines).take n)) (lines.take k),
          some sink.refusal) := by
  induction lines generalizing out sink n with
  | nil => exact absurd h (Nat.not_lt_zero n)
  | cons line rest ih =>
    rw [linesBytes_cons, List.length_append] at h
    rw [Output.writeLines, Output.writeLine_setEcho]
    by_cases hfits : (lineBytes line).length ≤ n
    · -- the line arrives, and the cut is among the others
      have hfirst : sink.HasRoom (lineBytes line).length := by
        intro m hm
        rw [hroom] at hm
        cases hm
        exact hfits
      have hrest : (sink.take (lineBytes line)).room = some (n - (lineBytes line).length) := by
        simp only [Sink.take, Sink.took, hroom, Option.map_some]
      obtain ⟨k, hk, hle, hlt, hwritten⟩ := ih (out.wrote (sink.take (lineBytes line)) [line])
        (by rwa [Sink.flushes_take]) hrest (by omega)
      refine ⟨k + 1, Nat.succ_lt_succ hk, ?_, ?_, ?_⟩
      · rw [List.take_succ_cons, linesBytes_cons, List.length_append]
        omega
      · rw [List.take_succ_cons, linesBytes_cons, List.length_append]
        omega
      · rw [Sink.writeLine_fits hflushes hfirst]
        show ((out.wrote (sink.take (lineBytes line)) [line]).setEcho
          (sink.take (lineBytes line))).writeLines rest = _
        rw [hwritten, Output.wrote_wrote, Sink.take, Sink.took_took, linesBytes_cons,
          List.take_append, List.take_of_length_le hfits, List.take_succ_cons,
          List.singleton_append]
        rfl
    · -- the cut is in this line
      have hcut : n < (lineBytes line).length := Nat.not_le.mp hfits
      refine ⟨0, Nat.succ_pos _, Nat.zero_le n, ?_, ?_⟩
      · rw [List.take_succ_cons, linesBytes_cons, List.length_append]
        omega
      · rw [Sink.writeLine_cut hroom hcut, List.take_zero, Output.wrote_nil, linesBytes_cons,
          List.take_append_of_le_length (Nat.le_of_lt hcut)]

/-! ## Channels without a limit -/

/-- The echo, if there is one, goes to a sink that takes everything. -/
def Output.Open (out : Output) : Prop :=
  ∀ sink, out.echo = some sink → sink.room = none ∧ sink.flushes = none

@[simp] theorem Output.echo_keep (out : Output) (line : String) :
    (out.keep line).echo = out.echo := by
  rw [Output.keep_eq]

theorem Output.Open.writeLine {out : Output} (h : out.Open) (line : String) :
    (out.writeLine line).2 = none ∧ (out.writeLine line).1.Open := by
  unfold Output.writeLine
  cases hecho : out.echo with
  | none =>
    refine ⟨rfl, fun sink hsink => ?_⟩
    rw [Output.echo_keep, hecho] at hsink
    cases hsink
  | some sink =>
    obtain ⟨hroom, hflushes⟩ := h sink hecho
    have htaken : sink.HasRoom (lineBytes line).length := by
      intro n hn
      rw [hroom] at hn
      cases hn
    dsimp only
    rw [Sink.writeLine_fits hflushes htaken]
    refine ⟨rfl, fun sink' hsink => ?_⟩
    rw [Output.echo_keep, Option.some.injEq] at hsink
    subst hsink
    exact ⟨by rw [Sink.take, hroom]; rfl, hflushes⟩

theorem Output.Open.writeLines {out : Output} (h : out.Open) (lines : List String) :
    (out.writeLines lines).2 = none ∧ (out.writeLines lines).1.Open := by
  induction lines generalizing out with
  | nil => exact ⟨rfl, h⟩
  | cons line rest ih =>
    obtain ⟨htaken, hopen⟩ := h.writeLine line
    have hline : out.writeLine line = ((out.writeLine line).1, none) := Prod.ext rfl htaken
    rw [Output.writeLines, hline]
    exact ih hopen

end TracedEval
