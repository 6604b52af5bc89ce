import TracedEval.Proofs.Bound
import TracedEval.Proofs.Machine.Alongside
import TracedEval.Proofs.Writing

/-!
# Room for calls

The depth limit and the frames that are on the call stack already leave room for so many calls.
Without any of the forms that look beyond their value, an evaluation takes no notice of either, as
long as there is room: with at least as much room the outcome is the same, or else a call was too
deep before.

* `Outcome.Alike` is that two outcomes are the same, but for the frames below;
* `Machine.room_only_matters_for_depth` is the statement about two evaluations of a body.
-/

namespace TracedEval

/-! ## Alike outcomes -/

/-- The contexts differ only in the settings and in the frames that were there before. -/
structure Context.LeftAlike (base₁ base₂ : List Frame) (left₁ left₂ : Context) : Prop where
  world : left₁.world = left₂.world
  frames : ∃ above,
    left₁.callStack.frames = base₁ ++ above ∧ left₂.callStack.frames = base₂ ++ above

/-- The same value or the same failure, in contexts that were left alike. -/
def Outcome.Alike {ε α : Type} (base₁ base₂ : List Frame) : Outcome ε α → Outcome ε α → Prop
  | .ok v₁ left₁, .ok v₂ left₂ => v₁ = v₂ ∧ Context.LeftAlike base₁ base₂ left₁ left₂
  | .error e₁ left₁, .error e₂ left₂ => e₁ = e₂ ∧ Context.LeftAlike base₁ base₂ left₁ left₂
  | _, _ => False

namespace Machine

variable {base₁ base₂ : List Frame} {limit₁ limit₂ : Nat} {s₁ s₂ : State}

theorem leftAlike (h : Alongside s₁ s₂) (h₁ : s₁.Exact base₁ limit₁) (h₂ : s₂.Exact base₂ limit₂) :
    Context.LeftAlike base₁ base₂ s₁.context s₂.context where
  world := h.world
  frames := by
    refine ⟨_, h₁.tight.frames, ?_⟩
    rw [h₂.tight.frames, List.map_reverse, List.map_reverse, calls_of_unplaced h.layers]

theorem alike (h : Alongside s₁ s₂) (h₁ : s₁.Exact base₁ limit₁) (h₂ : s₂.Exact base₂ limit₂)
    {o₁ o₂ : Outcome Failure Value} (ho₁ : s₁.outcome? = some o₁) (ho₂ : s₂.outcome? = some o₂) :
    Outcome.Alike base₁ base₂ o₁ o₂ := by
  have hfocus := h.focus
  rcases eq_of_outcome? ho₁ with ⟨v₁, hv₁, rfl⟩ | ⟨f₁, hf₁, rfl⟩ <;>
    rcases eq_of_outcome? ho₂ with ⟨v₂, hv₂, rfl⟩ | ⟨f₂, hf₂, rfl⟩
  · rw [hv₁, hv₂] at hfocus
    cases hfocus
    exact ⟨rfl, leftAlike h h₁ h₂⟩
  · rw [hv₁, hf₂] at hfocus
    cases hfocus
  · rw [hf₁, hv₂] at hfocus
    cases hfocus
  · rw [hf₁, hf₂] at hfocus
    cases hfocus
    exact ⟨rfl, leftAlike h h₁ h₂⟩

/-- Without programs inside, an evaluation is a run that halts with it. -/
theorem ends_of_within {body : Expr} (hbody : body.within .plain .plain) {args : List Value}
    (hargs : Value.allWithin .plain args) {scope : Scope} (hscope : scope.within .plain)
    {ctx : Context} (henv : ctx.environment.within .plain) {bound : Nat}
    (hbound : ctx.maxDepth ≤ ctx.callStack.size + bound) :
    ∃ events, Ends (start body args scope ctx) events
      (body.eval (runBody bound) args scope ctx) := by
  have hlength := CallStack.length_frames ctx.callStack
  have hends : (body.eval (runBody bound) args scope ctx).Ends ctx.callStack.frames ctx.maxDepth :=
    Expr.eval_ends rfl (by simp [Fragment.plain]) hbody hargs hscope henv (List.prefix_refl _)
      (by omega)
  exact ends_of_meets hends

/-- Two evaluations of a body that neither swallows failures nor runs programs nor reads the depth,
with the same bindings and the same channel, the second one with at least as much room for calls.
Either a call is too deep for the first one, and then the second one writes all that the first one
does before it does anything else; or both come to the same and write the same, and they leave the
same frames above those that were there before. -/
theorem room_only_matters_for_depth {body : Expr} (hbody : body.within .plain .plain)
    {args : List Value} (hargs : Value.allWithin .plain args) {scope : Scope}
    (hscope : scope.within .plain) {ctx₁ ctx₂ : Context}
    (henv : ctx₁.environment.within .plain) (hworld : ctx₁.world = ctx₂.world)
    (hroom : (ctx₁.maxDepth : Int) - ctx₁.callStack.size ≤ ctx₂.maxDepth - ctx₂.callStack.size)
    {bound₁ bound₂ : Nat} (hbound₁ : ctx₁.maxDepth ≤ ctx₁.callStack.size + bound₁)
    (hbound₂ : ctx₂.maxDepth ≤ ctx₂.callStack.size + bound₂) :
    let o₁ := body.eval (runBody bound₁) args scope ctx₁
    let o₂ := body.eval (runBody bound₂) args scope ctx₂
    ∃ events₁ events₂, Ends (start body args scope ctx₁) events₁ o₁ ∧
      Ends (start body args scope ctx₂) events₂ o₂ ∧
      ((∃ pos left₁ left₂, o₁ = .error ⟨pos, .depthExceeded ctx₁.maxDepth⟩ left₁ ∧
          o₂.context? = some left₂ ∧ events₁ <+: events₂ ∧
          left₁.output.lines <+: left₂.output.lines) ∨
        Outcome.Alike ctx₁.callStack.frames ctx₂.callStack.frames o₁ o₂ ∧ events₁ = events₂) := by
  intro o₁ o₂
  have hbindings : ctx₁.environment = ctx₂.environment := congrArg World.environment hworld
  have henv₂ : ctx₂.environment.within .plain := hbindings ▸ henv
  have hstart₁ := exact_start hbody hargs hscope henv
  have hstart₂ := exact_start hbody hargs hscope henv₂
  have hstart : Alongside (start body args scope ctx₁) (start body args scope ctx₂) :=
    ⟨rfl, rfl, hworld⟩
  rw [← CallStack.length_frames, ← CallStack.length_frames] at hroom
  obtain ⟨events₁, final₁, hrun₁, hhalted₁, houtcome₁⟩ :=
    ends_of_within hbody hargs hscope henv hbound₁
  obtain ⟨_, final₂, hrun₂, hhalted₂, houtcome₂⟩ :=
    ends_of_within hbody hargs hscope henv₂ hbound₂
  have hexact₁ := hrun₁.reaches.exact hstart₁
  -- this is where the second run is when the first one is over
  obtain ⟨a₂, hrun, halongside | ⟨⟨pos, hdeep⟩, hsame⟩⟩ :=
    hrun₁.alongside hstart hstart₁ hstart₂ hroom
  · have hexact₂ := hrun.reaches.exact hstart₂
    have hhalted := halongside.halted hexact₂ hhalted₁
    obtain rfl := hrun.reaches.eq_of_halted hrun₂.reaches hhalted hhalted₂
    exact ⟨events₁, events₁, ⟨final₁, hrun₁, hhalted₁, houtcome₁⟩,
      ⟨a₂, hrun, hhalted₂, houtcome₂⟩,
      .inr ⟨alike halongside hexact₁ hexact₂ houtcome₁ houtcome₂, rfl⟩⟩
  · have hrest := hrun.reaches.of_halted hrun₂.reaches hhalted₂
    obtain ⟨more, hmore⟩ := hrest.run
    refine ⟨events₁, events₁ ++ more, ⟨final₁, hrun₁, hhalted₁, houtcome₁⟩,
      ⟨final₂, hrun.trans hmore, hhalted₂, houtcome₂⟩,
      .inl ⟨pos, final₁.context, final₂.context, ?_, context?_of_outcome? houtcome₂,
        List.prefix_append _ _, ?_⟩⟩
    · rcases eq_of_outcome? houtcome₁ with ⟨v, hvalue, -⟩ | ⟨f, hfailure, herror⟩
      · rw [hvalue] at hdeep
        cases hdeep
      · rw [hfailure, hexact₁.maxDepth] at hdeep
        cases hdeep
        exact herror
    · have houtput : final₁.context.output = a₂.context.output := congrArg World.output hsame
      rw [houtput]
      exact hrest.lines_prefix

/-- The call of `print` is too deep where there is room for one call. It is not where there is room
for two, above a frame that was there before. -/
theorem room_only_matters_for_depth_nested :
    let body := Expr.seq
      [.defineFunction "f" 0 (.seq
        [.builtin .print ⟨1, 1⟩ [.literal (.string "a")],
          .call "print" ⟨1, 11⟩ [.literal (.string "b")]]),
        .call "f" ⟨2, 1⟩ []]
    let ctx₁ := Context.new 1 .text (.new none true)
    let ctx₂ := (Context.new 3 .text (.new none true)).entered ⟨"main", ⟨9, 1⟩⟩
    ∃ events₁ events₂ left₁ left₂,
      Ends (start body [] .empty ctx₁) events₁ (.error ⟨⟨1, 11⟩, .depthExceeded 1⟩ left₁) ∧
      Ends (start body [] .empty ctx₂) events₂ (.ok .nil left₂) ∧ events₁ <+: events₂ ∧
      left₁.output.lines = ["a"] ∧ left₂.output.lines = ["a", "b"] := by
  intro body ctx₁ ctx₂
  have hbody : body.within .plain .plain := rfl
  have henv : ctx₁.environment.within .plain := rfl
  have hworld : ctx₁.world = ctx₂.world := rfl
  have hbound₁ : ctx₁.maxDepth ≤ ctx₁.callStack.size + 1 := by decide
  have hbound₂ : ctx₂.maxDepth ≤ ctx₂.callStack.size + 2 := by decide
  obtain ⟨events₁, events₂, hends₁, hends₂, hcase⟩ :=
    room_only_matters_for_depth hbody Value.allWithin_nil Scope.within_empty henv hworld
      (by decide) hbound₁ hbound₂
  refine ⟨events₁, events₂, _, _, hends₁, hends₂, ?_, rfl, rfl⟩
  rcases hcase with ⟨-, -, -, -, -, hprefix, -⟩ | ⟨halike, -⟩
  · exact hprefix
  · exact False.elim halike

end Machine
end TracedEval
