import TracedEval.Proofs.Shape

/-!
# The ways to call

There are three ways to call something: by the name of a global, by the value itself, and, for a
builtin, directly, which leaves no trace on the call stack. As long as there is room for one more
frame they only differ in what a failure leaves behind, and beyond the depth limit only the direct
call does anything.

* `Resolution.resolve_global` is that a name comes to what its value comes to;
* `Context.track_builtin` is a tracked call of a builtin in terms of what the builtin does to the
  world, and `Context.track_full` a tracked call without room;
* `Context.calls_agree` is the statement about the three.
-/

namespace TracedEval

/-- The call of a global comes to what the call of its value comes to. -/
theorem Resolution.resolve_global {limit size : Nat} {env : Environment} {name : String}
    {value : Value} (h : env.get? name = some value) (pos : Position) (values : List Value) :
    resolve limit size env none name pos values =
      resolve limit size env (some value) name pos values := by
  have hget : env.get name = .ok value := by rw [Environment.get, h]
  simp only [resolve, hget]

/-- What is blamed on a place has failed there. -/
theorem Position.position_of_blame {α : Type} {pos : Position} {result : Except Fault α}
    {failure : Failure} (h : pos.blame result = .error failure) : failure.position = pos := by
  cases result with
  | ok => cases h
  | error => cases h; rfl

/-- With this result and this output, a call that has a frame has returned or failed. A failure
leaves the frame. -/
def Context.finish (ctx : Context) (frame : Frame) (result : Except Failure Value)
    (output : Output) : Outcome Failure Value :=
  match result with
  | .ok value => .ok value { ctx with output := output }
  | .error failure => .error failure ({ ctx with output := output }.entered frame)

namespace Context

variable (run : BodyRunner) (ctx : Context) (name : String) (pos : Position) (values : List Value)

theorem call_of_get? {value : Value} (h : ctx.environment.get? name = some value) :
    ctx.call run name pos values = ctx.callValue run value name pos values := by
  rw [call_eq_track, callValue_eq_track, track, track, Resolution.resolve_global h]

/-- A tracked call of a builtin does what the builtin does. -/
theorem track_builtin (b : Builtin) (room : ctx.callStack.size < ctx.maxDepth) :
    ctx.track run (some (.builtin b)) name pos values =
      ctx.finish ⟨name, pos⟩ (pos.blame (b.call values ctx.output).1)
        (b.call values ctx.output).2 := by
  have hroom : ¬ ctx.maxDepth < (ctx.entered ⟨name, pos⟩).callStack.size := by
    rw [size_entered]
    omega
  rw [track, Resolution.resolve.eq_def, if_neg hroom]
  -- the builtin finds the output that there was before the frame was pushed
  show (Outcome.ofWorld (ctx.entered ⟨name, pos⟩) (b.runOn pos values ctx.world)).bind _ = _
  rw [Builtin.runOn, world]
  cases (b.call values ctx.output).1 <;> rfl

/-- Without room for its frame a tracked call does nothing, whatever is called. -/
theorem track_full (callee : Option Value) (full : ctx.maxDepth ≤ ctx.callStack.size) :
    ctx.track run callee name pos values =
      .error ⟨pos, .depthExceeded ctx.maxDepth⟩ (ctx.entered ⟨name, pos⟩) := by
  have hfull : ctx.maxDepth < (ctx.entered ⟨name, pos⟩).callStack.size := by
    rw [size_entered]
    omega
  rw [track, Resolution.resolve.eq_def, if_pos hfull]
  rfl

/-- The three ways to call agree. A call by name is the call of the value that the name is bound to,
whatever that is. What a builtin called directly answers and writes depends on the world alone, not
on the call stack or the limit, which it leaves as they are, and it fails at the place of the call;
a tracked call of it with room for a frame has the same result and the same effects, but that a
failure leaves the frame. Without room a tracked call fails with its frame left, and has no other
effect, whatever is called and however bodies are run. -/
theorem calls_agree :
    (∀ value, ctx.environment.get? name = some value →
      ctx.call run name pos values = ctx.callValue run value name pos values) ∧
    (∀ b : Builtin, ∃ result output,
      (∀ failure, result = .error failure → failure.position = pos) ∧
      (∀ other : Context, other.world = ctx.world →
        other.builtin b pos values = .ofWorld other (result, { ctx.world with output := output })) ∧
      (ctx.callStack.size < ctx.maxDepth →
        ctx.callValue run (.builtin b) name pos values =
          ctx.finish ⟨name, pos⟩ result output)) ∧
    (ctx.maxDepth ≤ ctx.callStack.size →
      ctx.call run name pos values =
        .error ⟨pos, .depthExceeded ctx.maxDepth⟩ (ctx.entered ⟨name, pos⟩) ∧
      ∀ value, ctx.callValue run value name pos values =
        .error ⟨pos, .depthExceeded ctx.maxDepth⟩ (ctx.entered ⟨name, pos⟩)) := by
  refine ⟨fun value hbound => ctx.call_of_get? run name pos values hbound, ?_, ?_⟩
  · intro b
    refine ⟨pos.blame (b.call values ctx.output).1, (b.call values ctx.output).2, ?_, ?_, ?_⟩
    · intro failure hfailure
      exact Position.position_of_blame hfailure
    · intro other hworld
      rw [builtin_eq_ofWorld, hworld]
      rfl
    · intro room
      rw [callValue_eq_track]
      exact ctx.track_builtin run name pos values b room
  · intro full
    rw [call_eq_track]
    refine ⟨ctx.track_full run name pos values none full, fun value => ?_⟩
    rw [callValue_eq_track]
    exact ctx.track_full run name pos values (some value) full

/-- A builtin that fails at a sink that takes nothing leaves the frame of its tracked call, and with
one more frame on the call stack it is not tried. -/
theorem calls_agree_dead_sink :
    let sink : Sink := { Sink.unlimited with room := some 0 }
    let ctx := Context.new 1 .text (.new (some sink) true)
    let full := ctx.entered ⟨"f", ⟨1, 1⟩⟩
    let refused : Fault := .output ⟨.brokenPipe, "closed"⟩
    ctx.builtin .print ⟨2, 3⟩ [.nil] = .error ⟨⟨2, 3⟩, refused⟩ ctx ∧
    ctx.call (runBody 0) "print" ⟨2, 3⟩ [.nil] =
      .error ⟨⟨2, 3⟩, refused⟩ (ctx.entered ⟨"print", ⟨2, 3⟩⟩) ∧
    full.call (runBody 0) "print" ⟨2, 3⟩ [.nil] =
      .error ⟨⟨2, 3⟩, .depthExceeded 1⟩ (full.entered ⟨"print", ⟨2, 3⟩⟩) := by
  intro sink ctx full refused
  have hdirect : ctx.builtin .print ⟨2, 3⟩ [.nil] = .error ⟨⟨2, 3⟩, refused⟩ ctx := by rfl
  obtain ⟨hbound, hbuiltin, -⟩ := calls_agree (runBody 0) ctx "print" ⟨2, 3⟩ [.nil]
  obtain ⟨-, -, hfull⟩ := calls_agree (runBody 0) full "print" ⟨2, 3⟩ [.nil]
  refine ⟨hdirect, ?_, (hfull (by decide)).1⟩
  obtain ⟨result, output, -, hworld, htracked⟩ := hbuiltin .print
  have hresult := (hworld ctx rfl).symm.trans hdirect
  rw [hbound (.builtin .print) (by rfl), htracked (by decide)]
  cases result with
  | ok value => cases hresult
  | error failure =>
    obtain ⟨rfl, hcontext⟩ := Outcome.error.inj hresult
    have houtput : output = ctx.output := congrArg Context.output hcontext
    rw [houtput]
    rfl

end Context
end TracedEval
