import TracedEval.Proofs.Machine.Adequacy
import TracedEval.Proofs.Machine.Confined
import TracedEval.Proofs.Machine.Effect
import TracedEval.Proofs.Machine.Events

/-!
# Runs side by side

Where no failure is swallowed, no program runs inside another one and the depth is not read, a run
does not look at the call stack, except to see whether a call is too deep. Two runs of the same body
above different frames and under different limits thus go side by side, until a call is too deep for
the first one. If the limit leaves at least as much room to the second one, that does not come
earlier there.

* `Tight`: the call stack is made of the frames that were there before and those of the calls under
  way, and of nothing else;
* `Alongside` is that two states differ only in what is below them, and `Alongside.step` that a step
  of the first is a step of the second;
* `Run.alongside` carries this over to runs, with the events that they write.
-/

namespace TracedEval
namespace Machine

/-! ## Frames and calls -/

/-- No layer handles failures, and above `base` there are the frames of the calls under way and no
others. -/
structure Tight (base : List Frame) (k : List Layer) (stack : CallStack) : Prop where
  letThrough : Open k
  frames : stack.frames = base ++ (invocations k).reverse.map Invocation.frame

namespace Tight

variable {base : List Frame} {k : List Layer} {stack : CallStack} {layer : Layer}
  {inv : Invocation}

theorem push (h : Tight base k stack) (hopen : layer.handles = false)
    (hcall : layer.invocation? = none) : Tight base (layer :: k) stack where
  letThrough := List.forall_mem_cons.mpr ⟨hopen, h.letThrough⟩
  frames := by rw [invocations_cons hcall, h.frames]

theorem pop (h : Tight base (layer :: k) stack) (hcall : layer.invocation? = none) :
    Tight base k stack where
  letThrough := (List.forall_mem_cons.mp h.letThrough).2
  frames := by rw [h.frames, invocations_cons hcall]

theorem enter (h : Tight base k stack) (inv : Invocation) :
    Tight base (.invocation inv :: k) (stack.enter inv.frame) where
  letThrough := List.forall_mem_cons.mpr ⟨rfl, h.letThrough⟩
  frames := by
    rw [CallStack.frames_enter, h.frames, invocations_invocation, List.reverse_cons,
      List.map_append, List.append_assoc]
    rfl

/-- A call that returns pops its own frame. -/
theorem leave (h : Tight base (.invocation inv :: k) stack) :
    ∃ stack', stack.leave? = some stack' ∧ Tight base k stack' := by
  have hframes : stack.frames =
      base ++ (invocations k).reverse.map Invocation.frame ++ [inv.frame] := by
    rw [h.frames, invocations_invocation, List.reverse_cons, List.map_append, List.append_assoc]
    rfl
  obtain ⟨stack', hleave, hbelow⟩ := CallStack.leave?_of_frames hframes
  exact ⟨stack', hleave, (List.forall_mem_cons.mp h.letThrough).2, hbelow⟩

theorem size_eq (h : Tight base k stack) :
    stack.size = base.length + (invocations k).length := by
  rw [← CallStack.length_frames, h.frames, List.length_append, List.length_map,
    List.length_reverse]

end Tight

/-- What holds in every state of a run without any of the forms that look beyond their value. -/
structure State.Exact (base : List Frame) (limit : Nat) (s : State) : Prop where
  confined : s.Confined .plain .plain
  tight : Tight base s.layers s.context.callStack
  maxDepth : s.context.maxDepth = limit

/-! ## Steps of one run -/

section Exact

variable {base : List Frame} {limit : Nat} {k : List Layer} {ctx : Context} {s s' : State}

theorem fragmentAt_self (inside : Fragment) (k : List Layer) :
    fragmentAt inside inside k = inside := ite_self inside

theorem exact_start {e : Expr} (he : e.within .plain .plain) {args : List Value}
    (hargs : Value.allWithin .plain args) {scope : Scope} (hscope : scope.within .plain)
    (henv : ctx.environment.within .plain) :
    (start e args scope ctx).Exact ctx.callStack.frames ctx.maxDepth where
  confined := confined_start he hargs hscope henv
  tight := ⟨fun _ hmem => absurd hmem List.not_mem_nil, (List.append_nil _).symm⟩
  maxDepth := rfl

theorem tight_begin {e : Expr} (he : e.within .plain .plain) (site : Site)
    (h : Tight base k ctx.callStack) :
    Tight base (begin site k ctx e.shape).layers (begin site k ctx e.shape).context.callStack := by
  cases hs : e.shape with
  | task => exact h
  | letIn | cond => exact h.push rfl rfl
  | attempt body handler => exact absurd (Expr.within_attempt hs he).1 Bool.false_ne_true
  | execute body handler => exact absurd (Expr.within_execute hs he).1 Bool.false_ne_true

theorem tight_resume {v : Value} {layer : Layer} (h : Tight base (layer :: k) ctx.callStack)
    (hstep : layer.resume v k ctx = .next s') : Tight base s'.layers s'.context.callStack := by
  have hopen := (List.forall_mem_cons.mp h.letThrough).1
  cases layer with
  | operands | letIn | cond =>
    cases hstep
    exact h.pop rfl
  | attempt | program => cases hopen
  | invocation inv =>
    obtain ⟨stack, hleave, rfl⟩ := resume_invocation_eq_next hstep
    obtain ⟨stack', hleave', htight⟩ := h.leave
    rw [hleave, Option.some.injEq] at hleave'
    exact hleave' ▸ htight

theorem State.Exact.halted (h : s.Exact base limit) {f : Failure} (hfocus : s.focus = .failure f) :
    s.step = .halted := by
  obtain ⟨focus, layers, ctx⟩ := s
  cases hfocus
  have hunwind := unwind_append h.tight.letThrough f ctx []
  rwa [List.append_nil] at hunwind

theorem State.Exact.step (h : s.Exact base limit) (hstep : Steps s s') : s'.Exact base limit := by
  refine ⟨h.confined.step hstep, ?_, hstep.stepped.maxDepth.trans h.maxDepth⟩
  have htight := h.tight
  obtain ⟨focus, layers, ctx⟩ := s
  cases focus with
  | eval e site =>
    have he := h.confined.focus.1
    rw [fragmentAt_self] at he
    cases hstep
    exact tight_begin he site htight
  | operands t done rest site =>
    cases rest with
    | nil =>
      cases hstep
      cases t with
      | compute => exact htight
      | call | apply => exact htight.enter _
    | cons =>
      cases hstep
      exact htight.push rfl rfl
  | body =>
    cases hstep
    exact htight
  | value v =>
    cases layers with
    | nil => cases hstep
    | cons layer k => exact tight_resume htight hstep
  | failure f =>
    -- there is no handler that the failure could go to
    rw [Steps, h.halted rfl] at hstep
    cases hstep

end Exact

/-! ## Two runs -/

/-- The layer without the place of its frame. -/
def Layer.unplaced : Layer → Layer
  | .invocation inv => .invocation { inv with index := 0 }
  | layer => layer

/-- The states do not differ in what is done and what is waiting. -/
structure Alongside (s₁ s₂ : State) : Prop where
  focus : s₁.focus = s₂.focus
  layers : s₁.layers.map Layer.unplaced = s₂.layers.map Layer.unplaced
  world : s₁.context.world = s₂.context.world

/-- A call is too deep. -/
def State.TooDeep (s : State) : Prop :=
  ∃ pos, s.focus = .failure ⟨pos, .depthExceeded s.context.maxDepth⟩

/-- Layers that do not differ are equal, unless they are those of calls. -/
theorem Layer.unplaced_eq {layer₁ layer₂ : Layer} (h : layer₁.unplaced = layer₂.unplaced) :
    layer₁ = layer₂ ∧ layer₁.invocation? = none ∨
      ∃ inv₁ inv₂, layer₁ = .invocation inv₁ ∧ layer₂ = .invocation inv₂ := by
  cases layer₁ with
  | invocation inv₁ =>
    cases layer₂ with
    | invocation inv₂ => exact .inr ⟨inv₁, inv₂, rfl, rfl⟩
    | operands | letIn | cond | attempt | program => cases h
  | operands | letIn | cond | attempt | program =>
    cases layer₂ with
    | invocation => cases h
    | operands | letIn | cond | attempt | program => exact .inl ⟨h, rfl⟩

theorem unplaced_cons {k₁ k₂ : List Layer} (layer : Layer)
    (h : k₁.map Layer.unplaced = k₂.map Layer.unplaced) :
    (layer :: k₁).map Layer.unplaced = (layer :: k₂).map Layer.unplaced :=
  congrArg (layer.unplaced :: ·) h

theorem frame_unplaced (k : List Layer) :
    (invocations (k.map Layer.unplaced)).map Invocation.frame =
      (invocations k).map Invocation.frame := by
  induction k with
  | nil => rfl
  | cons layer k ih =>
    cases layer with
    | invocation inv => exact congrArg (inv.frame :: ·) ih
    | operands | letIn | cond | attempt | program => exact ih

theorem calls_of_unplaced {k₁ k₂ : List Layer}
    (h : k₁.map Layer.unplaced = k₂.map Layer.unplaced) :
    (invocations k₁).map Invocation.frame = (invocations k₂).map Invocation.frame := by
  rw [← frame_unplaced, h, frame_unplaced]

section Alongside

variable {base₁ base₂ : List Frame} {limit₁ limit₂ : Nat} {k₁ k₂ : List Layer}
  {ctx₁ ctx₂ : Context} {s₁ s₂ s₁' : State}

/-- Without reading the depth, an operation does not depend on it. -/
theorem Operation.run_depth {op : Operation} (hop : op.within .plain .plain)
    (depth₁ depth₂ : Nat) (args : List Value) (scope : Scope) (values : List Value) (w : World) :
    op.run depth₁ args scope values w = op.run depth₂ args scope values w := by
  cases op with
  | depth => cases hop
  | _ => rfl

/-- Within the limits a call comes to the same. -/
theorem resolve_eq (henv : ctx₁.environment = ctx₂.environment)
    (h₁ : ctx₁.callStack.size + 1 ≤ ctx₁.maxDepth) (h₂ : ctx₂.callStack.size + 1 ≤ ctx₂.maxDepth)
    (callee : Option Value) (name : String) (pos : Position) (values : List Value) :
    ctx₁.resolve callee name pos values = ctx₂.resolve callee name pos values := by
  unfold Context.resolve Resolution.resolve
  rw [if_neg (Nat.not_lt.mpr h₁), if_neg (Nat.not_lt.mpr h₂), henv]

/-- The next step of `s₂` does the same as the step from `s₁` to `s₁'`, and writes the same. -/
def Mirrors (s₁ s₁' s₂ : State) : Prop :=
  s₁.emits = s₂.emits ∧ ∃ s₂', Steps s₂ s₂' ∧ Alongside s₁' s₂'

theorem alongside_enter (hk : k₁.map Layer.unplaced = k₂.map Layer.unplaced)
    (hworld : ctx₁.world = ctx₂.world) {callee : Option Value} {name : String} {pos : Position}
    {values : List Value}
    (hres : ctx₁.resolve callee name pos values = ctx₂.resolve callee name pos values) :
    Alongside (enter callee name pos values k₁ ctx₁) (enter callee name pos values k₂ ctx₂) := by
  have hfollow : follow pos values ctx₁.world (ctx₁.resolve callee name pos values) =
      follow pos values ctx₂.world (ctx₂.resolve callee name pos values) := by
    rw [hworld, hres]
  refine ⟨congrArg Prod.fst hfollow, ?_, congrArg Prod.snd hfollow⟩
  show Layer.invocation ⟨⟨name, pos⟩, 0, runsBody (ctx₁.resolve callee name pos values)⟩ ::
      k₁.map Layer.unplaced =
    Layer.invocation ⟨⟨name, pos⟩, 0, runsBody (ctx₂.resolve callee name pos values)⟩ ::
      k₂.map Layer.unplaced
  rw [hres, hk]

/-- Where a call is not too deep for the first run, it is not too deep for the second one. -/
theorem room_of_room (h₁ : Tight base₁ k₁ ctx₁.callStack) (h₂ : Tight base₂ k₂ ctx₂.callStack)
    (hcalls : (invocations k₁).map Invocation.frame = (invocations k₂).map Invocation.frame)
    (hroom : (ctx₁.maxDepth : Int) - base₁.length ≤ ctx₂.maxDepth - base₂.length)
    (h : ctx₁.callStack.size + 1 ≤ ctx₁.maxDepth) : ctx₂.callStack.size + 1 ≤ ctx₂.maxDepth := by
  have hlength := congrArg List.length hcalls
  rw [List.length_map, List.length_map] at hlength
  rw [h₁.size_eq] at h
  rw [h₂.size_eq]
  omega

/-- A call is too deep, or else it is one in the second run as well. -/
theorem enter_alongside (h₁ : Tight base₁ k₁ ctx₁.callStack) (h₂ : Tight base₂ k₂ ctx₂.callStack)
    (hk : k₁.map Layer.unplaced = k₂.map Layer.unplaced) (hworld : ctx₁.world = ctx₂.world)
    (hroom : (ctx₁.maxDepth : Int) - base₁.length ≤ ctx₂.maxDepth - base₂.length)
    (callee : Option Value) (name : String) (pos : Position) (values : List Value) :
    ((ctx₁.resolve callee name pos values).events values = [] ∧
        (enter callee name pos values k₁ ctx₁).TooDeep ∧
        (enter callee name pos values k₁ ctx₁).context.world = ctx₂.world) ∨
      ctx₁.resolve callee name pos values = ctx₂.resolve callee name pos values ∧
        Alongside (enter callee name pos values k₁ ctx₁)
          (enter callee name pos values k₂ ctx₂) := by
  by_cases hdeep : ctx₁.maxDepth < ctx₁.callStack.size + 1
  · rw [Context.resolve_of_lt hdeep, enter_of_lt hdeep]
    exact .inl ⟨rfl, ⟨pos, rfl⟩, hworld⟩
  · have hfits : ctx₁.callStack.size + 1 ≤ ctx₁.maxDepth := Nat.not_lt.mp hdeep
    have hres := resolve_eq (congrArg World.environment hworld) hfits
      (room_of_room h₁ h₂ (calls_of_unplaced hk) hroom hfits) callee name pos values
    exact .inr ⟨hres, alongside_enter hk hworld hres⟩

/-- A value gets to layers that do not differ. -/
theorem resume_alongside {v : Value} {layer₁ layer₂ : Layer}
    (h₂ : Tight base₂ (layer₂ :: k₂) ctx₂.callStack) (hlayer : layer₁.unplaced = layer₂.unplaced)
    (hk : k₁.map Layer.unplaced = k₂.map Layer.unplaced) (hworld : ctx₁.world = ctx₂.world)
    (hstep : layer₁.resume v k₁ ctx₁ = .next s₁') :
    ∃ s₂', layer₂.resume v k₂ ctx₂ = .next s₂' ∧ Alongside s₁' s₂' := by
  rcases Layer.unplaced_eq hlayer with ⟨rfl, hcall⟩ | ⟨inv₁, inv₂, rfl, rfl⟩
  · cases layer₁ with
    | operands | letIn | cond | attempt | program =>
      cases hstep
      exact ⟨_, rfl, rfl, hk, hworld⟩
    | invocation => cases hcall
  · obtain ⟨stack₁, -, rfl⟩ := resume_invocation_eq_next hstep
    obtain ⟨stack₂, hleave, -⟩ := h₂.leave
    refine ⟨⟨.value v, k₂, { ctx₂ with callStack := stack₂ }⟩, ?_, rfl, hk, hworld⟩
    rw [Layer.resume, hleave]

/-- One step, if it is not a call that is too deep. -/
theorem Alongside.step (h : Alongside s₁ s₂) (h₁ : s₁.Exact base₁ limit₁)
    (h₂ : s₂.Exact base₂ limit₂) (hroom : (limit₁ : Int) - base₁.length ≤ limit₂ - base₂.length)
    (hstep : Steps s₁ s₁') :
    (s₁.emits = [] ∧ s₁'.TooDeep ∧ s₁'.context.world = s₂.context.world) ∨
      Mirrors s₁ s₁' s₂ := by
  rw [← h₁.maxDepth, ← h₂.maxDepth] at hroom
  have htight₁ := h₁.tight
  have htight₂ := h₂.tight
  have hwithin := h₁.confined.focus
  rw [fragmentAt_self] at hwithin
  obtain ⟨focus, k₁, ctx₁⟩ := s₁
  obtain ⟨_, k₂, ctx₂⟩ := s₂
  obtain ⟨rfl, hk, hworld⟩ := h
  cases focus with
  | eval e site =>
    cases hstep
    refine .inr ⟨rfl, _, rfl, ?_⟩
    cases hs : e.shape with
    | task => exact ⟨rfl, hk, hworld⟩
    | letIn | cond | attempt | execute => exact ⟨rfl, unplaced_cons _ hk, hworld⟩
  | operands t done rest site =>
    cases rest with
    | cons =>
      cases hstep
      exact .inr ⟨rfl, _, rfl, rfl, unplaced_cons _ hk, hworld⟩
    | nil =>
      cases hstep
      cases t with
      | compute op =>
        -- of the call stack an operation could only see the depth
        have hop : op.within .plain .plain := hwithin.1
        have hrun : op.run ctx₁.callStack.size site.args site.scope done ctx₁.world =
            op.run ctx₂.callStack.size site.args site.scope done ctx₂.world := by
          rw [hworld]
          exact Operation.run_depth hop _ _ _ _ _ _
        refine .inr ⟨rfl, _, rfl, ?_, hk, ?_⟩
        · exact congrArg (fun result => Focus.ofResult result.1) hrun
        · exact congrArg Prod.snd hrun
      | call name pos =>
        rcases enter_alongside htight₁ htight₂ hk hworld hroom none name pos done with
          hdeep | ⟨hres, hnext⟩
        · exact .inl hdeep
        · exact .inr ⟨congrArg (Resolution.events done) hres, _, rfl, hnext⟩
      | apply name pos =>
        rcases enter_alongside htight₁ htight₂ hk hworld hroom (some (done.headD .nil)) name pos
          done.tail with hdeep | ⟨hres, hnext⟩
        · exact .inl hdeep
        · exact .inr ⟨congrArg (Resolution.events done.tail) hres, _, rfl, hnext⟩
  | body =>
    cases hstep
    exact .inr ⟨rfl, _, rfl, rfl, hk, hworld⟩
  | value v =>
    cases k₁ with
    | nil => cases hstep
    | cons layer₁ k₁ =>
      obtain ⟨layer₂, k₂, rfl, hlayer, hrest⟩ := List.map_eq_cons_iff.mp hk.symm
      obtain ⟨s₂', hnext, halongside⟩ :=
        resume_alongside htight₂ hlayer.symm hrest.symm hworld hstep
      exact .inr ⟨rfl, s₂', hnext, halongside⟩
  | failure f =>
    rw [Steps, h₁.halted rfl] at hstep
    cases hstep

theorem resume_ne_halted (v : Value) (layer : Layer) (k : List Layer) (ctx : Context) :
    layer.resume v k ctx ≠ .halted := by
  cases layer with
  | operands | letIn | cond | attempt | program => exact Progress.noConfusion
  | invocation inv =>
    intro h
    rw [Layer.resume] at h
    split at h <;> cases h

/-- Where the first run is over, the second one is. -/
theorem Alongside.halted (h : Alongside s₁ s₂) (h₂ : s₂.Exact base₂ limit₂)
    (hhalted : s₁.step = .halted) : s₂.step = .halted := by
  obtain ⟨focus, k₁, ctx₁⟩ := s₁
  obtain ⟨_, k₂, ctx₂⟩ := s₂
  obtain ⟨rfl, hk, -⟩ := h
  cases focus with
  | eval | body => cases hhalted
  | operands t done rest site => cases rest <;> cases hhalted
  | value v =>
    cases k₁ with
    | nil =>
      obtain rfl := List.map_eq_nil_iff.mp hk.symm
      rfl
    | cons layer k₁ => exact absurd hhalted (resume_ne_halted v layer k₁ ctx₁)
  | failure f => exact h₂.halted rfl

end Alongside

/-! ## Runs -/

section Run

variable {base₁ base₂ : List Frame} {limit₁ limit₂ : Nat} {s₁ s₂ a₁ : State}
  {events : List Event}

theorem Reaches.exact {base : List Frame} {limit : Nat} {s a : State} (hreach : Reaches s a)
    (h : s.Exact base limit) : a.Exact base limit := by
  induction hreach with
  | refl => exact h
  | tail _ hstep ih => exact ih.step hstep

/-- Where the second run is when the first one has written these events: at the same place, or where
a call was too deep for the first one. -/
theorem Run.alongside (h : Run s₁ events a₁) (hstart : Alongside s₁ s₂)
    (h₁ : s₁.Exact base₁ limit₁) (h₂ : s₂.Exact base₂ limit₂)
    (hroom : (limit₁ : Int) - base₁.length ≤ limit₂ - base₂.length) :
    ∃ a₂, Run s₂ events a₂ ∧
      (Alongside a₁ a₂ ∨ a₁.TooDeep ∧ a₁.context.world = a₂.context.world) := by
  induction h with
  | refl => exact ⟨s₂, .refl, .inl hstart⟩
  | tail hrun hstep ih =>
    rename_i events a b
    have hexact := hrun.reaches.exact h₁
    obtain ⟨a₂, hrun₂, halongside | ⟨⟨pos, hdeep⟩, -⟩⟩ := ih
    · rcases halongside.step hexact (hrun₂.reaches.exact h₂) hroom hstep with
        ⟨hsilent, htooDeep⟩ | ⟨hemits, b₂, hnext, hb⟩
      · refine ⟨a₂, ?_, .inr htooDeep⟩
        rwa [hsilent, List.append_nil]
      · refine ⟨b₂, ?_, .inl hb⟩
        rw [hemits]
        exact hrun₂.tail hnext
    · -- the first run was over already
      rw [Steps, hexact.halted hdeep] at hstep
      cases hstep

end Run
end Machine
end TracedEval
