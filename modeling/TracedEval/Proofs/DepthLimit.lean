import TracedEval.Proofs.Machine.Adequacy
import TracedEval.Proofs.Machine.Frames

/-!
# The depth limit

Without programs that run inside others, the depth limit makes every evaluation end, and it bounds
what goes on at once. Swallowed failures leave frames behind, so that the call stack may be longer
than the calls are nested, but never shorter.

* `State.bodies` are the calls of a state that run the body of a function;
* `evaluation_ends` is the statement about every evaluation and every state on its way.
-/

namespace TracedEval
namespace Machine

/-- The calls under way that run the body of a function, the outermost first. -/
def State.bodies (s : State) : List Invocation := s.active.filter (·.inBody)

/-- Nested bodies have their frames below the limit, each at another index. -/
theorem State.Inv.length_bodies_le {here inside : Fragment} {low limit : Nat} {s : State}
    (h : s.Inv here inside low limit) : s.bodies.length ≤ limit - low := by
  have hplaced := h.placed.filter (·.inBody)
  -- all of them have their indices between `low` and `limit`
  have hbelow : ∀ inv ∈ (invocations s.layers).filter (·.inBody), inv.index < limit := by
    intro inv hmem
    obtain ⟨hmem, hbody⟩ := List.mem_filter.mp hmem
    exact h.placed.shallow inv hmem hbody
  have hcount := hplaced.length_le hbelow
  unfold State.bodies State.active
  rwa [List.filter_reverse, List.length_reverse]

/-- Every evaluation without programs inside ends, whatever the depth limit is and whatever is on
the call stack: there is a state that halts to which every state leads, and no bound with room for
the limit is felt. On the way, a function body starts only on a call stack within the limit, and no
more bodies are nested than the limit leaves room for above the frames that were there before. -/
theorem evaluation_ends {body : Expr} (hbody : body.within .flat .flat) {args : List Value}
    (hargs : Value.allWithin .flat args) {scope : Scope} (hscope : scope.within .flat)
    {ctx : Context} (henv : ctx.environment.within .flat) :
    (∃ final, final.step = .halted ∧
      (∀ bound, ctx.maxDepth ≤ ctx.callStack.size + bound →
        final.outcome? = some (body.eval (runBody bound) args scope ctx)) ∧
      ∀ s, Reaches (start body args scope ctx) s → Reaches s final) ∧
    ∀ s, Reaches (start body args scope ctx) s →
      (∀ f values, s.focus = .body f values → s.context.callStack.size ≤ ctx.maxDepth) ∧
      s.bodies.length ≤ ctx.maxDepth - ctx.callStack.size := by
  have hlength := CallStack.length_frames ctx.callStack
  have hends : ∀ bound, ctx.maxDepth ≤ ctx.callStack.size + bound →
      (body.eval (runBody bound) args scope ctx).Ends ctx.callStack.frames ctx.maxDepth :=
    fun bound hbound => Expr.eval_ends rfl (by simp [Fragment.flat]) hbody hargs hscope henv
      (List.prefix_refl _) (by omega)
  refine ⟨?_, ?_⟩
  · -- the least bound that leaves room decides for all of them
    let least := ctx.maxDepth - ctx.callStack.size
    have hleast := hends least (by omega)
    obtain ⟨final, hreach, hhalted, houtcome⟩ := halts_of_meets hleast
    refine ⟨final, hhalted, fun bound hbound => ?_, fun s hs => hs.of_halted hreach hhalted⟩
    have hfinished := Outcome.Meets.ne_exhausted hleast
    have hroom : least ≤ bound := by omega
    rw [houtcome, ← Expr.eval_of_le hroom hfinished]
  · intro s hs
    have hinv : s.Inv .flat .flat ctx.callStack.size ctx.maxDepth :=
      Reaches.inv rfl (by simp [Fragment.flat])
        (inv_start hbody hargs hscope henv (Nat.le_refl _)) hs
    exact ⟨hinv.entering, hinv.length_bodies_le⟩

/-- A function that calls itself twice, the second time because the first has failed. -/
theorem evaluation_ends_recursion :
    let body := Expr.seq
      [.defineFunction "f" 0 (.attempt (.call "f" ⟨1, 1⟩ []) (.call "f" ⟨1, 8⟩ [])),
        .call "f" ⟨2, 1⟩ []]
    let ctx := Context.new 20 .text (.new none true)
    (∃ final, Reaches (start body [] .empty ctx) final ∧ final.step = .halted) ∧
      ∀ s, Reaches (start body [] .empty ctx) s → s.bodies.length ≤ 20 := by
  intro body ctx
  have hbody : body.within .flat .flat := rfl
  have henv : ctx.environment.within .flat := rfl
  obtain ⟨⟨final, hhalted, -, hends⟩, hstates⟩ :=
    evaluation_ends hbody Value.allWithin_nil Scope.within_empty henv
  exact ⟨⟨final, hends _ .refl, hhalted⟩, fun s hs => (hstates s hs).2⟩

end Machine
end TracedEval
