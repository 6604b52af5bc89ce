import TracedEval.Proofs.Fragment
import TracedEval.Proofs.Machine.Basic

/-!
# What the machine holds on to

The counterpart of `Expr.eval_within` for the machine: while a body inside of a fragment is
evaluated, everything in every state keeps to it. What a layer may contain depends on where it is.
Below all tracked calls that is what the body that was started may contain, which is `here`; above
the layer of a call it is what functions may contain, which is `inside`.

* `State.Confined` is this property of a state, and `State.Confined.step` that steps keep it.
-/

namespace TracedEval
namespace Machine

/-! ## Confined states -/

variable {here inside : Fragment}

/-- What may be evaluated above these layers. -/
def fragmentAt (here inside : Fragment) (k : List Layer) : Fragment :=
  if invocations k = [] then here else inside

/-- The arguments and the locals keep to a fragment. -/
structure Site.Within (inside : Fragment) (site : Site) : Prop where
  args : Value.allWithin inside site.args
  scope : site.scope.within inside

/-- What a layer holds on to keeps to the fragments. -/
def Layer.Within (here inside : Fragment) : Layer → Prop
  | operands t done rest site =>
    t.within here inside ∧ Value.allWithin inside done ∧
      (∀ e ∈ rest, e.within here inside) ∧ site.Within inside
  | letIn _ body site => body.within here inside ∧ site.Within inside
  | cond branch otherwise site =>
    branch.within here inside ∧ otherwise.within here inside ∧ site.Within inside
  | attempt handler site => handler.within here inside ∧ site.Within inside
  | program handler site =>
    here.execute = true ∧ handler.within here inside ∧ site.Within inside
  | invocation _ => True

/-- All layers do, each for where it is. -/
def LayersWithin (here inside : Fragment) : List Layer → Prop
  | [] => True
  | layer :: k => layer.Within (fragmentAt here inside k) inside ∧ LayersWithin here inside k

/-- What is done next keeps to the fragments. -/
def Focus.Within (here inside : Fragment) : Focus → Prop
  | eval e site => e.within here inside ∧ site.Within inside
  | operands t done rest site =>
    t.within here inside ∧ Value.allWithin inside done ∧
      (∀ e ∈ rest, e.within here inside) ∧ site.Within inside
  | body f values => here = inside ∧ f.within inside ∧ Value.allWithin inside values
  | value v => v.within inside
  | failure _ => True

/-- Everything in the state keeps to the fragments. -/
structure State.Confined (here inside : Fragment) (s : State) : Prop where
  focus : s.focus.Within (fragmentAt here inside s.layers) inside
  layers : LayersWithin here inside s.layers
  environment : s.context.environment.within inside

/-! ## Above which layers -/

theorem fragmentAt_cons {layer : Layer} (h : layer.invocation? = none) (k : List Layer) :
    fragmentAt here inside (layer :: k) = fragmentAt here inside k := by
  unfold fragmentAt
  rw [invocations_cons h]

theorem fragmentAt_invocation (inv : Invocation) (k : List Layer) :
    fragmentAt here inside (.invocation inv :: k) = inside := by
  unfold fragmentAt
  rw [invocations_invocation]
  exact if_neg (List.cons_ne_nil _ _)

/-- A program runs inside another one only where no call is under way. -/
theorem invocations_eq_nil (hinside : inside.execute = false) {k : List Layer}
    (h : (fragmentAt here inside k).execute = true) : invocations k = [] := by
  by_cases hk : invocations k = []
  · exact hk
  · rw [fragmentAt, if_neg hk, hinside] at h
    cases h

theorem layersWithin_of_append {inner k : List Layer}
    (h : LayersWithin here inside (inner ++ k)) : LayersWithin here inside k := by
  induction inner with
  | nil => exact h
  | cons layer rest ih => exact ih h.2

theorem confined_start {e : Expr} (he : e.within here inside) {args : List Value}
    (hargs : Value.allWithin inside args) {scope : Scope} (hscope : scope.within inside)
    {ctx : Context} (henv : ctx.environment.within inside) :
    (start e args scope ctx).Confined here inside :=
  ⟨⟨he, hargs, hscope⟩, trivial, henv⟩

/-! ## Steps -/

section Steps

variable {k : List Layer} {ctx : Context} {site : Site}

/-- All forms but a task put a layer below the part that is evaluated first. -/
theorem confined_push {e : Expr} {layer : Layer} (hcall : layer.invocation? = none)
    (he : e.within (fragmentAt here inside k) inside) (hsite : site.Within inside)
    (hlayer : layer.Within (fragmentAt here inside k) inside) (hk : LayersWithin here inside k)
    (henv : ctx.environment.within inside) :
    State.Confined here inside ⟨.eval e site, layer :: k, ctx⟩ := by
  refine ⟨?_, ⟨hlayer, hk⟩, henv⟩
  rw [fragmentAt_cons hcall]
  exact ⟨he, hsite⟩

theorem confined_begin {e : Expr} (he : e.within (fragmentAt here inside k) inside)
    (hsite : site.Within inside) (hk : LayersWithin here inside k)
    (henv : ctx.environment.within inside) :
    (begin site k ctx e.shape).Confined here inside := by
  cases hs : e.shape with
  | task t operands =>
    obtain ⟨ht, hoperands⟩ := Expr.within_task hs he
    exact ⟨⟨ht, Value.allWithin_nil, hoperands, hsite⟩, hk, henv⟩
  | letIn name bound body =>
    obtain ⟨hbound, hbody⟩ := Expr.within_letIn hs he
    exact confined_push rfl hbound hsite ⟨hbody, hsite⟩ hk henv
  | cond guard branch otherwise =>
    obtain ⟨hguard, hbranch, hotherwise⟩ := Expr.within_cond hs he
    exact confined_push rfl hguard hsite ⟨hbranch, hotherwise, hsite⟩ hk henv
  | attempt body handler =>
    obtain ⟨-, hbody, hhandler⟩ := Expr.within_attempt hs he
    exact confined_push rfl hbody hsite ⟨hhandler, hsite⟩ hk henv
  | execute body handler =>
    obtain ⟨hexecute, hbody, hhandler⟩ := Expr.within_execute hs he
    -- the arguments are not in scope in a program
    have hprogram : Site.Within inside ⟨[], site.scope⟩ := ⟨Value.allWithin_nil, hsite.scope⟩
    exact confined_push rfl hbody hprogram ⟨hexecute, hhandler, hsite⟩ hk henv

theorem within_ofResult {F : Fragment} {result : Except Failure Value}
    (h : ∀ v, result = .ok v → v.within inside) : (Focus.ofResult result).Within F inside := by
  cases result with
  | ok v => exact h v rfl
  | error => trivial

/-- The start of a call, apart from its layer. -/
theorem within_follow {values : List Value} (hvalues : Value.allWithin inside values) {w : World}
    (henv : w.environment.within inside) (pos : Position) {res : Resolution}
    (hres : ∀ f, res = .body f → f.within inside) :
    (follow pos values w res).1.Within inside inside ∧
      (follow pos values w res).2.environment.within inside := by
  cases res with
  | refused failure => exact ⟨trivial, henv⟩
  | builtin b =>
    exact ⟨within_ofResult fun v hv => Builtin.within_call (Position.eq_ok_of_blame hv), henv⟩
  | body f => exact ⟨⟨rfl, hres f rfl, hvalues⟩, henv⟩

theorem confined_enter {callee : Option Value} (hcallee : ∀ value ∈ callee, value.within inside)
    {values : List Value} (hvalues : Value.allWithin inside values)
    (hk : LayersWithin here inside k) (henv : ctx.environment.within inside) (name : String)
    (pos : Position) : (enter callee name pos values k ctx).Confined here inside := by
  have hres : ∀ f, Resolution.resolve ctx.maxDepth (ctx.callStack.size + 1) ctx.environment callee
      name pos values = .body f → f.within inside :=
    fun f hf => Resolution.within_of_resolve henv hcallee hf
  have hfollow := within_follow (w := ctx.world) hvalues henv pos hres
  refine ⟨?_, ⟨trivial, hk⟩, hfollow.2⟩
  rw [enter, fragmentAt_invocation]
  exact hfollow.1

theorem confined_perform {t : Task} (ht : t.within (fragmentAt here inside k) inside)
    {values : List Value} (hvalues : Value.allWithin inside values) (hsite : site.Within inside)
    (hk : LayersWithin here inside k) (henv : ctx.environment.within inside) :
    (perform site values k ctx t).Confined here inside := by
  cases t with
  | compute op =>
    obtain ⟨hvalue, hworld⟩ := Operation.within_run ht hsite.args hsite.scope hvalues
      (w := ctx.world) henv ctx.callStack.size
    exact ⟨within_ofResult hvalue, hk, hworld⟩
  | call name pos => exact confined_enter (by simp) hvalues hk henv name pos
  | apply name pos =>
    exact confined_enter (Value.within_headD hvalues) (Value.allWithin_tail hvalues) hk henv name
      pos

theorem confined_resume {v : Value} (hv : v.within inside) {layer : Layer}
    (hlayer : layer.Within (fragmentAt here inside k) inside) (hk : LayersWithin here inside k)
    (henv : ctx.environment.within inside) {s : State} (h : layer.resume v k ctx = .next s) :
    s.Confined here inside := by
  cases layer with
  | operands t done rest site =>
    obtain ⟨ht, hdone, hrest, hsite⟩ := hlayer
    cases h
    refine ⟨⟨ht, ?_, hrest, hsite⟩, hk, henv⟩
    intro value hmem
    rcases List.mem_append.mp hmem with hmem | hmem
    · exact hdone value hmem
    · rwa [List.mem_singleton.mp hmem]
  | letIn name body site =>
    obtain ⟨hbody, hsite⟩ := hlayer
    cases h
    exact ⟨⟨hbody, hsite.args, Scope.within_bind name hv hsite.scope⟩, hk, henv⟩
  | cond branch otherwise site =>
    obtain ⟨hbranch, hotherwise, hsite⟩ := hlayer
    cases h
    refine ⟨⟨?_, hsite⟩, hk, henv⟩
    by_cases htruthy : v.isTruthy = true
    · rw [if_pos htruthy]
      exact hbranch
    · rw [if_neg htruthy]
      exact hotherwise
  | attempt | program =>
    cases h
    exact ⟨hv, hk, henv⟩
  | invocation inv =>
    obtain ⟨stack, -, rfl⟩ := resume_invocation_eq_next h
    exact ⟨hv, hk, henv⟩

theorem confined_unwind {failure : Failure} {layers : List Layer}
    (hlayers : LayersWithin here inside layers) (henv : ctx.environment.within inside) {s : State}
    (h : unwind failure ctx layers = .next s) : s.Confined here inside := by
  induction layers with
  | nil => cases h
  | cons layer k ih =>
    obtain ⟨hlayer, hk⟩ := hlayers
    cases layer with
    | attempt handler site =>
      cases h
      exact ⟨hlayer, hk, henv⟩
    | program handler site =>
      cases h
      refine ⟨hlayer.2, hk, ?_⟩
      show (ctx.report failure).2.environment.within inside
      rwa [Context.environment_report]
    | operands | letIn | cond | invocation => exact ih hk h

end Steps

/-- A step keeps to the fragments. -/
theorem State.Confined.step {s s' : State} (h : s.Confined here inside) (hstep : Steps s s') :
    s'.Confined here inside := by
  obtain ⟨focus, layers, ctx⟩ := s
  obtain ⟨hfocus, hlayers, henv⟩ := h
  cases focus with
  | eval e site =>
    cases hstep
    exact confined_begin hfocus.1 hfocus.2 hlayers henv
  | operands t done rest site =>
    obtain ⟨ht, hdone, hrest, hsite⟩ := hfocus
    cases rest with
    | nil =>
      cases hstep
      exact confined_perform ht hdone hsite hlayers henv
    | cons first rest =>
      rw [List.forall_mem_cons] at hrest
      cases hstep
      exact confined_push rfl hrest.1 hsite ⟨ht, hdone, hrest.2, hsite⟩ hlayers henv
  | body f values =>
    obtain ⟨hhere, hf, hvalues⟩ := hfocus
    rw [Closure.within_iff] at hf
    cases hstep
    -- a body is only started above the layer of its call
    refine ⟨⟨?_, hvalues, hf.2⟩, hlayers, henv⟩
    rw [hhere]
    exact hf.1
  | value v =>
    cases layers with
    | nil => cases hstep
    | cons layer k => exact confined_resume hfocus hlayers.1 hlayers.2 henv hstep
  | failure f => exact confined_unwind hlayers henv hstep

end Machine
end TracedEval
