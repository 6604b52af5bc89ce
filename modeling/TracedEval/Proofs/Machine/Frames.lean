import TracedEval.Proofs.Bound
import TracedEval.Proofs.Machine.Confined
import TracedEval.Proofs.Machine.Effect

/-!
# The frames of active calls

A failure that is swallowed leaves its frames behind, and the next call to return then pops one of
these instead of its own. Frames and calls thus do not match one to one. What holds in every state
is `Placed`: each call that is under way still has its frame at the index at which it was pushed,
and calls further inside have greater indices. Frames left behind are above the frame of the
innermost call, so that a return takes away nothing that is still needed.

* `Placed.sublist`: the frames of the calls under way are on the call stack, in their order;
* `Placed.length_le`: how many calls there can be between two indices;
* `State.Inv` is the invariant, `State.Inv.step` that steps keep it, and `Reaches.inv` that runs do.

A program that runs inside another one clears the call stack, so none may run inside of a call.
-/

namespace TracedEval
namespace Machine

/-! ## Calls and their frames -/

/-- Each of the calls, the innermost first, has its frame where it was pushed, from `low` upwards,
and those that run a function body are below `limit`. -/
structure Placed (frames : List Frame) (low limit : Nat) (calls : List Invocation) : Prop where
  inPlace : ∀ inv ∈ calls, frames[inv.index]? = some inv.frame
  above : ∀ inv ∈ calls, low ≤ inv.index
  shallow : ∀ inv ∈ calls, inv.inBody = true → inv.index < limit
  increasing : calls.Pairwise fun inner outer => outer.index < inner.index

namespace Placed

variable {frames : List Frame} {low limit : Nat} {inv : Invocation} {calls inner : List Invocation}

theorem nil : Placed frames low limit [] where
  inPlace _ h := absurd h List.not_mem_nil
  above _ h := absurd h List.not_mem_nil
  shallow _ h := absurd h List.not_mem_nil
  increasing := .nil

/-- Calls that have failed are simply not there any more. -/
theorem of_append (h : Placed frames low limit (inner ++ calls)) :
    Placed frames low limit calls where
  inPlace other hmem := h.inPlace other (List.mem_append_right _ hmem)
  above other hmem := h.above other (List.mem_append_right _ hmem)
  shallow other hmem := h.shallow other (List.mem_append_right _ hmem)
  increasing := (List.pairwise_append.mp h.increasing).2.1

theorem index_lt (h : Placed frames low limit calls) (hmem : inv ∈ calls) :
    inv.index < frames.length :=
  (List.getElem?_eq_some_iff.mp (h.inPlace inv hmem)).1

theorem tail (h : Placed frames low limit (inv :: calls)) : Placed frames low limit calls :=
  of_append (show Placed frames low limit ([inv] ++ calls) from h)

theorem index_lt_of_mem (h : Placed frames low limit (inv :: calls)) {other : Invocation}
    (hmem : other ∈ calls) : other.index < inv.index :=
  (List.pairwise_cons.mp h.increasing).1 other hmem

/-- Only the frames of the calls matter. -/
theorem transfer {frames' : List Frame} (h : Placed frames low limit calls)
    (hframes : ∀ inv ∈ calls, frames'[inv.index]? = frames[inv.index]?) :
    Placed frames' low limit calls where
  inPlace inv hmem := (hframes inv hmem).trans (h.inPlace inv hmem)
  above := h.above
  shallow := h.shallow
  increasing := h.increasing

/-- A call is pushed above all frames. -/
theorem push (h : Placed frames low limit calls) (hindex : inv.index = frames.length)
    (hlow : low ≤ frames.length) (hbody : inv.inBody = true → frames.length < limit) :
    Placed (frames ++ [inv.frame]) low limit (inv :: calls) where
  inPlace := by
    rw [List.forall_mem_cons]
    refine ⟨?_, fun other hmem => ?_⟩
    · rw [hindex, List.getElem?_concat_length]
    · rw [List.getElem?_append_left (h.index_lt hmem)]
      exact h.inPlace other hmem
  above := List.forall_mem_cons.mpr ⟨hindex ▸ hlow, h.above⟩
  shallow := List.forall_mem_cons.mpr ⟨fun hrun => hindex ▸ hbody hrun, h.shallow⟩
  increasing := by
    refine List.pairwise_cons.mpr ⟨fun other hmem => ?_, h.increasing⟩
    rw [hindex]
    exact h.index_lt hmem

/-- The innermost call returns. Whichever frame is the topmost, those of the other calls are below
it. -/
theorem pop (h : Placed frames low limit (inv :: calls)) :
    Placed frames.dropLast low limit calls := by
  refine h.tail.transfer fun other hmem => ?_
  have hlast := h.index_lt List.mem_cons_self
  have hlt := h.index_lt_of_mem hmem
  -- the other calls have smaller indices, so that none of their frames is the last
  rw [List.getElem?_dropLast, if_pos (by omega)]

/-- The frames of the calls are on the call stack, the outermost first. -/
theorem sublist (h : Placed frames low limit calls) :
    (calls.reverse.map Invocation.frame).Sublist frames := by
  induction calls generalizing frames with
  | nil => exact List.nil_sublist frames
  | cons inv outer ih =>
    have hlt := h.index_lt List.mem_cons_self
    have hget := (List.getElem?_eq_some_iff.mp (h.inPlace inv List.mem_cons_self)).2
    -- the outer calls have their frames below that of `inv`
    have houter : Placed (frames.take inv.index) low limit outer := by
      refine h.tail.transfer fun other hmem => ?_
      rw [List.getElem?_take_of_lt (h.index_lt_of_mem hmem)]
    have hsplit : frames = frames.take inv.index ++ inv.frame :: frames.drop (inv.index + 1) := by
      rw [← hget, List.getElem_cons_drop, List.take_append_drop]
    rw [List.reverse_cons, List.map_append, hsplit]
    exact (ih houter).append (List.Sublist.cons_cons _ (List.nil_sublist _))

/-- There are no more calls than there are indices for them. -/
theorem length_le (h : Placed frames low limit calls) {high : Nat}
    (hhigh : ∀ inv ∈ calls, inv.index < high) : calls.length ≤ high - low := by
  induction calls generalizing high with
  | nil => exact Nat.zero_le _
  | cons inv outer ih =>
    have hcount := ih h.tail fun other hmem => h.index_lt_of_mem hmem
    have hlow := h.above inv List.mem_cons_self
    have hlt := hhigh inv List.mem_cons_self
    rw [List.length_cons]
    omega

theorem filter (h : Placed frames low limit calls) (p : Invocation → Bool) :
    Placed frames low limit (calls.filter p) where
  inPlace inv hmem := h.inPlace inv (List.mem_filter.mp hmem).1
  above inv hmem := h.above inv (List.mem_filter.mp hmem).1
  shallow inv hmem := h.shallow inv (List.mem_filter.mp hmem).1
  increasing := h.increasing.filter p

end Placed

/-! ## The invariant -/

/-- What holds in every state of an evaluation that begins above `low` frames. -/
structure State.Inv (here inside : Fragment) (low limit : Nat) (s : State) : Prop where
  confined : s.Confined here inside
  placed : Placed s.context.callStack.frames low limit (invocations s.layers)
  low_le : low ≤ s.context.callStack.size
  maxDepth : s.context.maxDepth = limit
  entering : ∀ f values, s.focus = .body f values → s.context.callStack.size ≤ limit

theorem frames_of_leave? {stack stack' : CallStack} (h : stack.leave? = some stack') :
    stack'.frames = stack.frames.dropLast := by
  obtain ⟨active⟩ := stack
  cases active with
  | nil => cases h
  | cons top outer =>
    cases h
    show outer.reverse = (top :: outer).reverse.dropLast
    rw [List.reverse_cons, List.dropLast_concat]

section Inv

variable {here inside : Fragment} {low limit : Nat} {s s' : State}

/-- What a step does to the calls and to the frames keeps them together. -/
theorem Placed.step (hinside : inside.execute = false) (hlow : here.execute = true → low = 0)
    (h : s.Inv here inside low limit) (heffect : Effect s s') :
    Placed s'.context.callStack.frames low limit (invocations s'.layers) ∧
      low ≤ s'.context.callStack.size := by
  have hlength := CallStack.length_frames s.context.callStack
  have hplaced := h.placed
  have hlow_le := h.low_le
  cases heffect with
  | keep calls stack =>
    rw [calls, stack]
    exact ⟨hplaced, hlow_le⟩
  | enter inv calls index stack shallow =>
    rw [h.maxDepth] at shallow
    rw [calls, stack, CallStack.frames_enter, CallStack.size_enter]
    -- the new frame is above all others, those that were left behind included
    refine ⟨hplaced.push ?_ ?_ ?_, by omega⟩
    · rw [index, hlength]
    · rw [hlength]
      exact hlow_le
    · rw [hlength]
      exact shallow
  | leave inv calls stack =>
    rw [calls] at hplaced
    -- the topmost frame need not be that of the call that returns
    have hframes := frames_of_leave? stack
    have hsize := CallStack.length_frames s'.context.callStack
    have habove := hplaced.above inv List.mem_cons_self
    have hlt := hplaced.index_lt List.mem_cons_self
    rw [hframes, List.length_dropLast] at hsize
    rw [hframes]
    exact ⟨hplaced.pop, by omega⟩
  | fail inner calls stack =>
    rw [calls] at hplaced
    rw [stack]
    -- the calls are gone, but not their frames
    exact ⟨hplaced.of_append, hlow_le⟩
  | clear inner handler site k layers calls stack =>
    -- no call is under way below a program
    have hprogram : LayersWithin here inside (.program handler site :: k) :=
      layersWithin_of_append (layers ▸ h.confined.layers)
    have hexecute := hprogram.1.1
    have hnone := invocations_eq_nil hinside hexecute
    rw [fragmentAt, if_pos hnone] at hexecute
    rw [calls, hnone, hlow hexecute]
    exact ⟨.nil, Nat.zero_le _⟩

theorem State.Inv.step (hinside : inside.execute = false) (hlow : here.execute = true → low = 0)
    (h : s.Inv here inside low limit) (hstep : Steps s s') : s'.Inv here inside low limit := by
  have hstepped := hstep.stepped
  obtain ⟨hplaced, hlow_le⟩ := Placed.step hinside hlow h hstepped.effect
  have hmax : s'.context.maxDepth = limit := hstepped.maxDepth.trans h.maxDepth
  refine ⟨h.confined.step hstep, hplaced, hlow_le, hmax, ?_⟩
  intro f values hfocus
  rw [← hmax]
  exact hstepped.entering f values hfocus

/-- What a run keeps. -/
theorem Reaches.inv (hinside : inside.execute = false) (hlow : here.execute = true → low = 0)
    (h : s.Inv here inside low limit) (hreach : Reaches s s') : s'.Inv here inside low limit := by
  induction hreach with
  | refl => exact h
  | tail _ hstep ih => exact ih.step hinside hlow hstep

/-- No call returns on an empty call stack. -/
theorem State.Inv.not_underflow (h : s.Inv here inside low limit) : s.step ≠ .underflow := by
  intro hunderflow
  obtain ⟨hcalls, hleave⟩ := leave?_eq_none_of_underflow hunderflow
  obtain ⟨inv, calls, hcalls⟩ := List.exists_cons_of_ne_nil hcalls
  have hplaced := h.placed
  rw [hcalls] at hplaced
  -- the call that returns has a frame, so the call stack is not empty
  have hlt := hplaced.index_lt List.mem_cons_self
  unfold CallStack.leave? at hleave
  split at hleave
  · rename_i hempty
    rw [CallStack.frames, hempty] at hlt
    exact Nat.not_lt_zero _ hlt
  · cases hleave

theorem inv_start {e : Expr} (he : e.within here inside) {args : List Value}
    (hargs : Value.allWithin inside args) {scope : Scope} (hscope : scope.within inside)
    {ctx : Context} (henv : ctx.environment.within inside) (hlow : low ≤ ctx.callStack.size) :
    (start e args scope ctx).Inv here inside low ctx.maxDepth where
  confined := confined_start he hargs hscope henv
  placed := .nil
  low_le := hlow
  maxDepth := rfl
  entering := by
    intro f values hfocus
    cases hfocus

end Inv
end Machine
end TracedEval
