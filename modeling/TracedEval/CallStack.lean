import TracedEval.Position

/-!
# Call stack

The frames of the tracked calls that are under way. A frame is pushed when its call starts and
popped when the call returns normally; a call that fails leaves its frame behind, so that a report
can name it, and the stack is cleared as a whole afterwards.
-/

namespace TracedEval

/-- A tracked call: the name it was made by and the place it was made at. -/
structure Frame where
  name : String
  position : Position
  deriving DecidableEq, Repr

/-- The frames of the calls under way, the innermost first. -/
structure CallStack where
  active : List Frame
  deriving DecidableEq, Repr

namespace CallStack

/-- No call is under way. -/
def empty : CallStack := ⟨[]⟩

instance : EmptyCollection CallStack := ⟨empty⟩

/-- How many calls are under way. -/
def size (s : CallStack) : Nat := s.active.length

def isEmpty (s : CallStack) : Bool := s.active.isEmpty

/-- The innermost frame. -/
def top? (s : CallStack) : Option Frame := s.active.head?

/-- The frames in the order they were pushed, the outermost first. -/
def frames (s : CallStack) : List Frame := s.active.reverse

/-- A call starts. -/
def enter (frame : Frame) (s : CallStack) : CallStack := ⟨frame :: s.active⟩

/-- The innermost call returns; `none` if no call is under way. -/
def leave? (s : CallStack) : Option CallStack :=
  match s.active with
  | [] => none
  | _ :: outer => some ⟨outer⟩

@[simp] theorem leave?_enter (frame : Frame) (s : CallStack) :
    (s.enter frame).leave? = some s := rfl

@[simp] theorem size_enter (frame : Frame) (s : CallStack) :
    (s.enter frame).size = s.size + 1 := rfl

@[simp] theorem frames_enter (frame : Frame) (s : CallStack) :
    (s.enter frame).frames = s.frames ++ [frame] := by
  simp [frames, enter]

end CallStack

end TracedEval
