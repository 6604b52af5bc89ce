import TracedEval.Proofs.Fragment
import TracedEval.Proofs.Machine.Effect

/-!
# The functions that a run makes

A function value comes from one place only: a function form that was evaluated. This file keeps a
log of the functions that a run makes, in the order in which it makes them, and follows function
values back to it, however they have been passed on: bound and looked up, given as arguments,
captured, or returned.

* `Value.Holds` is what can be got out of a value, and `State.Holds` what a state has at hand;
* `State.makes` is what the next step makes, and `Makes` is `Reaches` with the functions made on the
  way;
* `State.Numbered` ties a state to a log: all functions at hand are in the log, and each has its
  place in the log as its identity. `State.Numbered.step` says that a step keeps to the log with
  what it makes at the end, and `State.Numbered.makes` says so of a run.
-/

namespace TracedEval

/-! ## Values at hand -/

/-- The values in scope. -/
def Scope.values : Scope → List Value
  | .empty => []
  | .bind _ value outer => value :: outer.values

/-- The values that are bound. -/
def Environment.values (env : Environment) : List Value := env.bindings.map Prod.snd

/-- What can be got out of a value: itself, and what the functions in it have captured. -/
inductive Value.Holds : Value → Value → Prop
  | refl (v : Value) : Holds v v
  | captured {f : Closure} {u v : Value} (mem : u ∈ f.scope.values) (holds : Holds u v) :
      Holds (.function f) v

namespace Value

/-- All functions that can be got out of a value are known. -/
def Known (known : List Closure) (v : Value) : Prop := ∀ f, v.Holds (.function f) → f ∈ known

/-- All functions that can be got out of these values are known. -/
def AllKnown (known : List Closure) (values : List Value) : Prop := ∀ v ∈ values, v.Known known

section Known

variable {known more : List Closure} {v : Value} {values : List Value} {f : Closure}

theorem Known.mono (h : v.Known known) (hsub : known ⊆ more) : v.Known more :=
  fun f hf => hsub (h f hf)

theorem AllKnown.mono (h : AllKnown known values) (hsub : known ⊆ more) : AllKnown more values :=
  fun v hv => (h v hv).mono hsub

/-- Nothing can be got out of what is not a function. -/
theorem known_of_ne_function (h : ∀ f, v ≠ .function f) : v.Known known := by
  intro f hf
  cases hf with
  | refl => exact absurd rfl (h f)
  | captured => exact absurd rfl (h _)

theorem known_function (hmem : f ∈ known) (hscope : AllKnown known f.scope.values) :
    (function f).Known known := by
  intro g hg
  cases hg with
  | refl => exact hmem
  | captured hu holds => exact hscope _ hu g holds

theorem Known.scope (h : (function f).Known known) : AllKnown known f.scope.values :=
  fun _ hu g hg => h g (.captured hu hg)

theorem allKnown_nil : AllKnown known [] := fun _ hmem => absurd hmem List.not_mem_nil

theorem AllKnown.append {more : List Value} (h : AllKnown known values)
    (hmore : AllKnown known more) : AllKnown known (values ++ more) :=
  List.forall_mem_append.mpr ⟨h, hmore⟩

theorem AllKnown.cons (hv : v.Known known) (h : AllKnown known values) :
    AllKnown known (v :: values) :=
  List.forall_mem_cons.mpr ⟨hv, h⟩

theorem AllKnown.tail (h : AllKnown known values) : AllKnown known values.tail :=
  fun v hmem => h v (List.mem_of_mem_tail hmem)

/-- What is not there is nil, which is no function. -/
theorem AllKnown.getD_of_mem {found : Option Value} (h : AllKnown known values)
    (hfound : ∀ v, found = some v → v ∈ values) : (found.getD .nil).Known known := by
  cases found with
  | none => exact known_of_ne_function fun _ => Value.noConfusion
  | some v => exact h v (hfound v rfl)

theorem AllKnown.getD (h : AllKnown known values) (i : Nat) : (values.getD i .nil).Known known := by
  rw [List.getD_eq_getElem?_getD]
  exact h.getD_of_mem fun v hv => List.mem_of_getElem? hv

theorem AllKnown.headD (h : AllKnown known values) : (values.headD .nil).Known known := by
  rw [List.headD_eq_head?_getD]
  exact h.getD_of_mem fun v hv => List.mem_of_mem_head? hv

end Known
end Value

theorem Scope.mem_values_of_get? {name : String} {value : Value} :
    ∀ {scope : Scope}, scope.get? name = some value → value ∈ scope.values
  | .empty, h => by cases h
  | .bind bound inner outer, h => by
    rw [Scope.get?] at h
    by_cases hname : bound = name
    · rw [if_pos hname] at h
      cases h
      exact List.mem_cons_self
    · rw [if_neg hname] at h
      exact List.mem_cons_of_mem inner (mem_values_of_get? h)

theorem Environment.mem_values_of_get {env : Environment} {name : String} {value : Value}
    (h : env.get name = .ok value) : value ∈ env.values := by
  unfold Environment.get at h
  split at h
  · rename_i found hget
    cases h
    obtain ⟨before, after, hbindings, -⟩ := List.lookup_eq_some_iff.mp hget
    unfold Environment.values
    rw [hbindings]
    simp
  · cases h

theorem Environment.allKnown_define {known : List Closure} {env : Environment}
    (henv : Value.AllKnown known env.values) {value : Value} (hvalue : value.Known known)
    (name : String) : Value.AllKnown known (env.define name value).values := by
  intro v hv
  obtain ⟨binding, hmem, rfl⟩ := List.mem_map.mp hv
  rcases List.mem_cons.mp hmem with rfl | hmem
  · exact hvalue
  · exact henv _ (List.mem_map_of_mem (List.mem_filter.mp hmem).1)

/-- Contexts start out without functions of their own. -/
theorem Environment.allKnown_initial : Value.AllKnown [] Environment.initial.values := by
  have hbuiltin : ∀ b, (Value.builtin b).Known [] :=
    fun _ => Value.known_of_ne_function fun _ => Value.noConfusion
  have hguard : (Value.boolean true).Known [] :=
    Value.known_of_ne_function fun _ => Value.noConfusion
  have hnil : Value.nil.Known [] := Value.known_of_ne_function fun _ => Value.noConfusion
  refine allKnown_define (allKnown_define ?_ hguard "else") hnil "nil"
  exact allKnown_define (allKnown_define (allKnown_define Value.allKnown_nil (hbuiltin .sum) _)
    (hbuiltin .sub) _) (hbuiltin .print) _

/-! ## Operations -/

/-- The functions that an operation makes. -/
def Operation.makes (scope : Scope) (w : World) : Operation → List Closure
  | .function name arity body => [⟨name, arity, body, scope, w.nextIdentity⟩]
  | _ => []

/-- An operation gives what it got, what was bound, or what it makes. -/
theorem Operation.known_run {op : Operation} {known : List Closure} {scope : Scope} {w : World}
    (hmakes : op.makes scope w ⊆ known) {args : List Value} (hargs : Value.AllKnown known args)
    (hscope : Value.AllKnown known scope.values) {values : List Value}
    (hvalues : Value.AllKnown known values)
    (henv : Value.AllKnown known w.environment.values) (depth : Nat) :
    (∀ value, (op.run depth args scope values w).1 = .ok value → value.Known known) ∧
      Value.AllKnown known (op.run depth args scope values w).2.environment.values := by
  cases op with
  | literal value =>
    refine ⟨fun v hv => ?_, henv⟩
    cases hv
    exact Value.known_of_ne_function value.value_ne_function
  | argument i =>
    refine ⟨fun v hv => ?_, henv⟩
    cases hv
    exact hargs.getD_of_mem fun v hv => List.mem_of_getElem? hv
  | localVar name =>
    refine ⟨fun v hv => ?_, henv⟩
    cases hv
    exact hscope.getD_of_mem fun v hv => Scope.mem_values_of_get? hv
  | global name pos =>
    refine ⟨fun v hv => henv v ?_, henv⟩
    exact Environment.mem_values_of_get (Position.eq_ok_of_blame hv)
  | builtin b pos =>
    refine ⟨fun v hv => ?_, henv⟩
    exact Value.known_of_ne_function (Builtin.ne_function_of_call (Position.eq_ok_of_blame hv))
  | binary op pos =>
    refine ⟨fun v hv => ?_, henv⟩
    exact Value.known_of_ne_function (Operator.ne_function_of_apply (Position.eq_ok_of_blame hv))
  | negate pos =>
    refine ⟨fun v hv => ?_, henv⟩
    exact Value.known_of_ne_function (Value.ne_function_of_negate (Position.eq_ok_of_blame hv))
  | seq =>
    refine ⟨fun v hv => ?_, henv⟩
    cases hv
    exact hvalues.getD_of_mem fun v hv => List.mem_of_getLast? hv
  | raise pos message =>
    refine ⟨fun v hv => ?_, henv⟩
    cases hv
  | function name arity body =>
    refine ⟨fun v hv => ?_, henv⟩
    cases hv
    exact Value.known_function (hmakes List.mem_cons_self) hscope
  | define name =>
    refine ⟨fun v hv => ?_, Environment.allKnown_define henv (hvalues.getD 0) name⟩
    cases hv
    exact Value.known_of_ne_function fun _ => Value.noConfusion
  | depth | display =>
    refine ⟨fun v hv => ?_, henv⟩
    cases hv
    exact Value.known_of_ne_function fun _ => Value.noConfusion

/-- The function that an operation makes gets the next identity. -/
theorem Operation.identities_run (op : Operation) (depth : Nat) (args : List Value) (scope : Scope)
    (values : List Value) (w : World) :
    List.range w.nextIdentity ++ (op.makes scope w).map Closure.identity =
      List.range (op.run depth args scope values w).2.nextIdentity := by
  cases op with
  | function name arity body => exact List.range_succ.symm
  | _ => exact List.append_nil _

namespace Machine

/-! ## States -/

def Site.values (site : Site) : List Value := site.args ++ site.scope.values

/-- The values that a layer has at hand. -/
def Layer.values : Layer → List Value
  | operands _ done _ site => done ++ site.values
  | letIn _ _ site | cond _ _ site | attempt _ site | program _ site => site.values
  | invocation _ => []

def Focus.values : Focus → List Value
  | eval _ site => site.values
  | operands _ done _ site => done ++ site.values
  | body f values => .function f :: values
  | value v => [v]
  | failure _ => []

/-- The values that a state has at hand, now or in what is waiting. -/
def State.values (s : State) : List Value :=
  s.focus.values ++ s.layers.flatMap Layer.values ++ s.context.environment.values

/-- A value that meets others in a state: it is at hand, or captured by one that is. -/
def State.Holds (s : State) (v : Value) : Prop := ∃ u ∈ s.values, u.Holds v

/-- All functions in a state are known. -/
structure State.Known (known : List Closure) (s : State) : Prop where
  focus : Value.AllKnown known s.focus.values
  layers : Value.AllKnown known (s.layers.flatMap Layer.values)
  environment : Value.AllKnown known s.context.environment.values

/-- The functions that the next step makes. -/
def State.makes : State → List Closure
  | ⟨.operands (.compute op) _ [] site, _, ctx⟩ => op.makes site.scope ctx.world
  | _ => []

section Steps

variable {known : List Closure} {k : List Layer} {ctx : Context} {site : Site} {s s' : State}

theorem State.Known.mem (h : s.Known known) {f : Closure} (hf : s.Holds (.function f)) :
    f ∈ known := by
  obtain ⟨u, hu, holds⟩ := hf
  exact ((h.focus.append h.layers).append h.environment) u hu f holds

theorem State.Known.mono {more : List Closure} (h : s.Known known) (hsub : known ⊆ more) :
    s.Known more :=
  ⟨h.focus.mono hsub, h.layers.mono hsub, h.environment.mono hsub⟩

theorem known_begin (hsite : Value.AllKnown known site.values)
    (hk : Value.AllKnown known (k.flatMap Layer.values))
    (henv : Value.AllKnown known ctx.environment.values) (shape : Shape) :
    (begin site k ctx shape).Known known := by
  cases shape with
  | task t operands => exact ⟨hsite, hk, henv⟩
  | letIn | cond | attempt => exact ⟨hsite, hsite.append hk, henv⟩
  | execute body handler =>
    -- the arguments are not in scope in a program
    exact ⟨(List.forall_mem_append.mp hsite).2, hsite.append hk, henv⟩

theorem known_ofResult {result : Except Failure Value}
    (h : ∀ v, result = .ok v → v.Known known) :
    Value.AllKnown known (Focus.ofResult result).values := by
  cases result with
  | ok v => exact .cons (h v rfl) Value.allKnown_nil
  | error => exact Value.allKnown_nil

theorem known_enter {callee : Option Value} (hcallee : ∀ v ∈ callee, v.Known known)
    {values : List Value} (hvalues : Value.AllKnown known values)
    (hk : Value.AllKnown known (k.flatMap Layer.values))
    (henv : Value.AllKnown known ctx.environment.values) (name : String) (pos : Position) :
    (enter callee name pos values k ctx).Known known := by
  unfold enter
  cases hres : Resolution.resolve ctx.maxDepth (ctx.callStack.size + 1) ctx.environment callee name
    pos values with
  | refused failure => exact ⟨Value.allKnown_nil, hk, henv⟩
  | builtin b =>
    refine ⟨known_ofResult fun v hv => ?_, hk, henv⟩
    exact Value.known_of_ne_function (Builtin.ne_function_of_call (Position.eq_ok_of_blame hv))
  | body f =>
    have hf : (Value.function f).Known known := by
      rcases Resolution.callee_of_resolve hres with hoperand | hget
      · exact hcallee _ hoperand
      · exact henv _ (Environment.mem_values_of_get hget)
    exact ⟨.cons hf hvalues, hk, henv⟩

theorem known_perform {t : Task} {values : List Value}
    (hmakes : State.makes ⟨.operands t values [] site, k, ctx⟩ ⊆ known)
    (hvalues : Value.AllKnown known values) (hsite : Value.AllKnown known site.values)
    (hk : Value.AllKnown known (k.flatMap Layer.values))
    (henv : Value.AllKnown known ctx.environment.values) :
    (perform site values k ctx t).Known known := by
  cases t with
  | compute op =>
    obtain ⟨hargs, hscope⟩ := List.forall_mem_append.mp hsite
    obtain ⟨hvalue, hworld⟩ := Operation.known_run (w := ctx.world) hmakes hargs hscope hvalues
      henv ctx.callStack.size
    exact ⟨known_ofResult hvalue, hk, hworld⟩
  | call name pos => exact known_enter (by simp) hvalues hk henv name pos
  | apply name pos =>
    refine known_enter ?_ hvalues.tail hk henv name pos
    intro v hv
    cases hv
    exact hvalues.headD

theorem known_resume {v : Value} (hv : v.Known known) {layer : Layer}
    (hlayer : Value.AllKnown known layer.values)
    (hk : Value.AllKnown known (k.flatMap Layer.values))
    (henv : Value.AllKnown known ctx.environment.values) (h : layer.resume v k ctx = .next s') :
    s'.Known known := by
  have hvalue : Value.AllKnown known [v] := .cons hv Value.allKnown_nil
  cases layer with
  | operands t done rest site =>
    obtain ⟨hdone, hsite⟩ := List.forall_mem_append.mp hlayer
    cases h
    exact ⟨Value.AllKnown.append (Value.AllKnown.append hdone hvalue) hsite, hk, henv⟩
  | letIn name body site =>
    obtain ⟨hargs, hscope⟩ := List.forall_mem_append.mp hlayer
    cases h
    exact ⟨Value.AllKnown.append hargs (.cons hv hscope), hk, henv⟩
  | cond branch otherwise site =>
    cases h
    exact ⟨hlayer, hk, henv⟩
  | attempt | program =>
    cases h
    exact ⟨hvalue, hk, henv⟩
  | invocation inv =>
    obtain ⟨stack, -, rfl⟩ := resume_invocation_eq_next h
    exact ⟨hvalue, hk, henv⟩

theorem known_unwind {failure : Failure} {layers : List Layer}
    (hlayers : Value.AllKnown known (layers.flatMap Layer.values))
    (henv : Value.AllKnown known ctx.environment.values)
    (h : unwind failure ctx layers = .next s') : s'.Known known := by
  obtain ⟨inner, layer, k, handler, site, rfl, hfocus, hk, hcase⟩ := unwind_eq_next h
  rw [List.flatMap_append, List.flatMap_cons] at hlayers
  obtain ⟨-, hlayer, hlayers⟩ :=
    (List.forall_mem_append.mp hlayers).imp_right List.forall_mem_append.mp
  refine ⟨?_, ?_, ?_⟩
  · rw [hfocus]
    rcases hcase with ⟨rfl, -⟩ | ⟨rfl, -⟩ <;> exact hlayer
  · rw [hk]
    exact hlayers
  · rcases hcase with ⟨-, hctx⟩ | ⟨-, hctx⟩
    · rwa [hctx]
    · rwa [hctx, Context.environment_report]

/-- What a state has at hand after a step it had before, or the step has made it. -/
theorem State.Known.step (h : s.Known known) (hmakes : s.makes ⊆ known) (hstep : Steps s s') :
    s'.Known known := by
  obtain ⟨focus, layers, ctx⟩ := s
  obtain ⟨hfocus, hlayers, henv⟩ := h
  cases focus with
  | eval e site =>
    cases hstep
    exact known_begin hfocus hlayers henv e.shape
  | operands t done rest site =>
    obtain ⟨hdone, hsite⟩ := List.forall_mem_append.mp hfocus
    cases rest with
    | nil =>
      cases hstep
      exact known_perform hmakes hdone hsite hlayers henv
    | cons first rest =>
      cases hstep
      exact ⟨hsite, Value.AllKnown.append hfocus hlayers, henv⟩
  | body f values =>
    obtain ⟨hf, hvalues⟩ := List.forall_mem_cons.mp hfocus
    cases hstep
    exact ⟨Value.AllKnown.append hvalues hf.scope, hlayers, henv⟩
  | value v =>
    cases layers with
    | nil => cases hstep
    | cons layer k =>
      obtain ⟨hlayer, hk⟩ := List.forall_mem_append.mp hlayers
      exact known_resume (hfocus v List.mem_cons_self) hlayer hk henv hstep
  | failure f => exact known_unwind hlayers henv hstep

theorem nextIdentity_resume {v : Value} {layer : Layer} (h : layer.resume v k ctx = .next s') :
    s'.context.nextIdentity = ctx.nextIdentity := by
  cases layer with
  | operands | letIn | cond | attempt | program =>
    cases h
    rfl
  | invocation inv =>
    obtain ⟨stack, -, rfl⟩ := resume_invocation_eq_next h
    rfl

theorem nextIdentity_unwind {failure : Failure} {layers : List Layer}
    (h : unwind failure ctx layers = .next s') :
    s'.context.nextIdentity = ctx.nextIdentity := by
  obtain ⟨inner, layer, k, handler, site, -, -, -, hcase⟩ := unwind_eq_next h
  rcases hcase with ⟨-, hctx⟩ | ⟨-, hctx⟩
  · rw [hctx]
  · rw [hctx, Context.report_eq]

theorem nextIdentity_enter (callee : Option Value) (name : String) (pos : Position)
    (values : List Value) :
    (enter callee name pos values k ctx).context.nextIdentity = ctx.nextIdentity := by
  unfold enter
  cases Resolution.resolve ctx.maxDepth (ctx.callStack.size + 1) ctx.environment callee name pos
    values <;> rfl

/-- A step makes at most one function, and that gets the next identity. -/
theorem Steps.identities (hstep : Steps s s') :
    List.range s.context.nextIdentity ++ s.makes.map Closure.identity =
      List.range s'.context.nextIdentity := by
  obtain ⟨focus, layers, ctx⟩ := s
  -- most steps make none, and leave the next identity alone
  have hnone : ∀ {t : State}, t.makes = [] → s'.context.nextIdentity = t.context.nextIdentity →
      List.range t.context.nextIdentity ++ t.makes.map Closure.identity =
        List.range s'.context.nextIdentity := by
    intro t hmakes hnext
    rw [hmakes, hnext]
    exact List.append_nil _
  cases focus with
  | eval e site =>
    refine hnone rfl ?_
    cases hstep
    cases e.shape <;> rfl
  | operands t done rest site =>
    cases rest with
    | nil =>
      cases hstep
      cases t with
      | compute op =>
        exact op.identities_run ctx.callStack.size site.args site.scope done ctx.world
      | call name pos => exact hnone rfl (nextIdentity_enter none name pos done)
      | apply name pos => exact hnone rfl (nextIdentity_enter _ name pos done.tail)
    | cons first rest =>
      have hmakes : State.makes ⟨.operands t done (first :: rest) site, layers, ctx⟩ = [] := by
        cases t <;> rfl
      cases hstep
      exact hnone hmakes rfl
  | body f values =>
    cases hstep
    exact hnone rfl rfl
  | value v =>
    cases layers with
    | nil => cases hstep
    | cons layer k => exact hnone rfl (nextIdentity_resume hstep)
  | failure f => exact hnone rfl (nextIdentity_unwind hstep)

end Steps

/-! ## Runs -/

/-- Any number of steps lead from one state to the other, and these are the functions that they
make. -/
inductive Makes (s : State) : List Closure → State → Prop
  | refl : Makes s [] s
  | tail {made : List Closure} {a b : State} (makes : Makes s made a) (step : Steps a b) :
      Makes s (made ++ a.makes) b

theorem Reaches.makes {s a : State} (h : Reaches s a) : ∃ made, Makes s made a := by
  induction h with
  | refl => exact ⟨[], .refl⟩
  | tail _ hstep ih =>
    obtain ⟨made, hmakes⟩ := ih
    exact ⟨_, hmakes.tail hstep⟩

end Machine

/-- All functions that are bound are in the log, and the functions in the log have the identities
from zero on. -/
structure Context.Numbered (made : List Closure) (ctx : Context) : Prop where
  known : Value.AllKnown made ctx.environment.values
  identities : made.map Closure.identity = List.range ctx.nextIdentity

/-- All functions at hand are in the log, and the functions in the log have the identities from zero
on. -/
structure Machine.State.Numbered (made : List Closure) (s : Machine.State) : Prop where
  known : s.Known made
  identities : made.map Closure.identity = List.range s.context.nextIdentity

section Numbered

/-- A function in the log has its place in the log as its identity. -/
theorem identity_of_getElem? {made : List Closure} {next k : Nat} {f : Closure}
    (h : made.map Closure.identity = List.range next) (hk : made[k]? = some f) :
    f.identity = k := by
  have hidentity : (made.map Closure.identity)[k]? = some f.identity := by
    rw [List.getElem?_map, hk]
    rfl
  rw [h] at hidentity
  obtain ⟨hlt, heq⟩ := List.getElem?_eq_some_iff.mp hidentity
  rw [List.getElem_range] at heq
  exact heq.symm

variable {made more : List Closure} {s s' : Machine.State} {ctx : Context}

theorem Context.numbered_new (maxDepth : Nat) (format : TraceFormat) (output : Output) :
    (Context.new maxDepth format output).Numbered [] :=
  ⟨Environment.allKnown_initial, rfl⟩

theorem Context.Numbered.length (h : ctx.Numbered made) : made.length = ctx.nextIdentity := by
  rw [← List.length_map Closure.identity, h.identities, List.length_range]

/-- The next identity is beyond those that have been given out. -/
theorem Context.Numbered.identity_lt (h : ctx.Numbered made) {f : Closure} (hf : f ∈ made) :
    f.identity < ctx.nextIdentity := by
  rw [← List.mem_range, ← h.identities]
  exact List.mem_map_of_mem hf

theorem Context.Numbered.start (h : ctx.Numbered made) (body : Expr) :
    (Machine.start body [] .empty ctx).Numbered made :=
  ⟨⟨Value.allKnown_nil, Value.allKnown_nil, h.known⟩, h.identities⟩

namespace Machine

theorem State.Numbered.context (h : s.Numbered made) : s.context.Numbered made :=
  ⟨h.known.environment, h.identities⟩

/-- A step puts what it makes at the end of the log. -/
theorem State.Numbered.step (h : s.Numbered made) (hstep : Steps s s') :
    s'.Numbered (made ++ s.makes) where
  known := (h.known.mono (List.subset_append_left made s.makes)).step
    (List.subset_append_right made s.makes) hstep
  identities := by rw [List.map_append, h.identities, hstep.identities]

/-- So does a run. -/
theorem State.Numbered.makes (h : s.Numbered made) (hmakes : Makes s more s') :
    s'.Numbered (made ++ more) := by
  induction hmakes with
  | refl => rwa [List.append_nil]
  | tail _ hstep ih =>
    rw [← List.append_assoc]
    exact ih.step hstep

/-- A function at hand has its identity as its place in the log. -/
theorem State.Numbered.getElem?_identity (h : s.Numbered made) {f : Closure}
    (hf : s.Holds (.function f)) : made[f.identity]? = some f := by
  obtain ⟨k, hk⟩ := List.mem_iff_getElem?.mp (h.known.mem hf)
  rw [identity_of_getElem? h.identities hk]
  exact hk

end Machine
end Numbered
end TracedEval
