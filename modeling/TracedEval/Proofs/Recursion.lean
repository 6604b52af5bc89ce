import TracedEval.Proofs.Calls
import TracedEval.Proofs.Channel
import TracedEval.Proofs.Folding
import TracedEval.Proofs.Number.Order

/-!
# Recursive functions

The bundled recursive functions call themselves on smaller integers, and first of all on the next
smaller one. So the calls that are under way at once are those on `n`, `n - 1` and so on down to
one, and a call on `n` needs `n` frames, however many calls it makes one after the other.

* `Bundle.Recursive` is what is known of the body of such a function, whatever runs the calls in it;
* `Bundle.Recursive.call_ok` is the call with room for its frames, and `Bundle.Recursive.call_error`
  the call without;
* `Bundle.recursive_factorial` and `Bundle.recursive_fibonacci` are the two functions, and
  `Bundle.execute_recursion` is that their program leaves them defined;
* `Bundle.recursion_frames` is the statement about them.
-/

namespace TracedEval

/-! ## Calls of bound functions -/

namespace Environment

variable {env : Environment} {name other : String} {value : Value}

theorem get?_define_self : (env.define name value).get? name = some value := by
  rw [get?, define, List.lookup_cons_self]

theorem lookup_filter_of_ne (h : name ≠ other) (bindings : List (String × Value)) :
    (bindings.filter fun binding => binding.1 != other).lookup name = bindings.lookup name := by
  induction bindings with
  | nil => rfl
  | cons binding rest ih =>
    obtain ⟨bound, v⟩ := binding
    by_cases hbound : bound = other
    · have hne : (name == bound) = false := beq_eq_false_iff_ne.mpr (hbound ▸ h)
      rw [List.filter_cons_of_neg (by simp [hbound]), List.lookup_cons, hne, ih]
    · rw [List.filter_cons_of_pos (by simp [hbound]), List.lookup_cons, List.lookup_cons, ih]

theorem get?_define_of_ne (h : name ≠ other) :
    (env.define other value).get? name = env.get? name := by
  have hne : (name == other) = false := beq_eq_false_iff_ne.mpr h
  rw [get?, define, List.lookup_cons, hne, lookup_filter_of_ne h]
  rfl

/-- The name is bound to a function of one argument that has it as its own name. -/
def Binds (env : Environment) (name : String) (body : Expr) : Prop :=
  ∃ scope identity, env.get? name = some (.function ⟨name, 1, body, scope, identity⟩)

end Environment

namespace Context

/-- With room for its frame, the call of a bound function runs its body. -/
theorem exists_call_eq_body {ctx : Context} {name : String} {body : Expr}
    (hbinds : ctx.environment.Binds name body) (room : ctx.callStack.size < ctx.maxDepth)
    (bound : Nat) (pos : Position) (v : Value) :
    ∃ scope, ctx.call (runBody (bound + 1)) name pos [v] =
      (body.eval (runBody bound) [v] scope (ctx.entered ⟨name, pos⟩)).bind
        fun value ctx => ctx.leave value := by
  obtain ⟨scope, identity, hget⟩ := hbinds
  have hroom : ¬ ctx.maxDepth < (ctx.entered ⟨name, pos⟩).callStack.size := by
    rw [size_entered]
    omega
  have harity : [v].length = (⟨name, 1, body, scope, identity⟩ : Closure).arity := rfl
  refine ⟨scope, ?_⟩
  rw [ctx.call_of_get? _ name pos _ hget, callValue, enter_eq_entered, if_neg hroom,
    Outcome.bind_ok, invoke, if_pos harity]
  rfl

/-- The context with a definition of a function of one argument. -/
def withFunction (ctx : Context) (name : String) (body : Expr) (scope : Scope) : Context :=
  { ctx with nextIdentity := ctx.nextIdentity + 1 }.define name
    (.function ⟨name, 1, body, scope, ctx.nextIdentity⟩)

variable {ctx : Context} {name other : String} {body body' : Expr} {scope : Scope}

theorem binds_withFunction : (ctx.withFunction name body scope).environment.Binds name body :=
  ⟨scope, ctx.nextIdentity, Environment.get?_define_self⟩

theorem binds_withFunction_of_ne (hne : name ≠ other) (h : ctx.environment.Binds name body) :
    (ctx.withFunction other body' scope).environment.Binds name body := by
  obtain ⟨scope', identity, hget⟩ := h
  exact ⟨scope', identity, (Environment.get?_define_of_ne hne).trans hget⟩

end Context

namespace Expr

variable {run : BodyRunner} {args : List Value} {scope : Scope} {ctx ctx' ctx'' : Context}
  {first : Expr} {rest : List Expr} {v : Value} {values : List Value}

theorem evalAll_nil (run : BodyRunner) (args : List Value) (scope : Scope) (ctx : Context) :
    evalAll run args scope ctx [] = .ok [] ctx := rfl

theorem evalAll_cons (hfirst : first.eval run args scope ctx = .ok v ctx')
    (hrest : evalAll run args scope ctx' rest = .ok values ctx'') :
    evalAll run args scope ctx (first :: rest) = .ok (v :: values) ctx'' := by
  rw [evalAll, hfirst, Outcome.bind_ok, hrest, Outcome.bind_ok]

theorem eval_seq (h : evalAll run args scope ctx rest = .ok values ctx') :
    (seq rest).eval run args scope ctx = .ok (values.getLast?.getD .nil) ctx' := by
  rw [eval, h, Outcome.bind_ok]

end Expr

namespace Bundle

/-! ## Descent -/

/-- The context when calls of the function have been entered, one from outside and then this many by
the function itself. -/
def descended (ctx : Context) (name : String) (pos place : Position) (count : ℕ) : Context :=
  { ctx with
    callStack := ⟨List.replicate count ⟨name, place⟩ ++ ⟨name, pos⟩ :: ctx.callStack.active⟩ }

theorem frames_descended (ctx : Context) (name : String) (pos place : Position) (count : ℕ) :
    (descended ctx name pos place count).callStack.frames =
      ctx.callStack.frames ++ ⟨name, pos⟩ :: List.replicate count ⟨name, place⟩ := by
  simp [descended, CallStack.frames]

theorem descended_entered (ctx : Context) (name : String) (pos place : Position) (count : ℕ) :
    descended (ctx.entered ⟨name, pos⟩) name place place count =
      descended ctx name pos place (count + 1) := by
  have hframes : List.replicate count (⟨name, place⟩ : Frame) ++
      ⟨name, place⟩ :: ⟨name, pos⟩ :: ctx.callStack.active =
        List.replicate (count + 1) ⟨name, place⟩ ++ ⟨name, pos⟩ :: ctx.callStack.active := by
    rw [List.replicate_succ', List.append_assoc, List.singleton_append]
  rw [descended, descended, ← hframes]
  rfl

/-- The outcome is a number, in the context that there was before. If the integer is not too great,
it is exactly the value of the function there. -/
def Gives (value : ℕ → ℕ) (exact n : ℕ) (ctx : Context) (o : Outcome Failure Value) : Prop :=
  ∃ z, o = .ok (.number z) ctx ∧ (n ≤ exact → Denotes z (value n))

/-- What the body of a recursive function does, whatever runs the functions that it calls. For zero,
if the function takes it, and for one it gives its value. For all others it calls itself, first on
the next smaller integer, and has a value if it has one for all smaller ones. -/
structure Recursive (name : String) (place : Position) (body : Expr) (least : ℕ) (value : ℕ → ℕ)
    (exact : ℕ) : Prop where
  base (run : BodyRunner) (scope : Scope) (ctx : Context) {x : Float} {n : ℕ} (hleast : least ≤ n)
    (hn : n < 2) (hx : Denotes x n) : Gives value exact n ctx (body.eval run [.number x] scope ctx)
  step (run : BodyRunner) (scope : Scope) (ctx : Context) {x : Float} {n : ℕ} (hn : 2 ≤ n)
    (hmax : n ≤ 2 ^ 53) (hx : Denotes x n)
    (hcalls : ∀ pos y m, least ≤ m → m < n → Denotes y m →
      Gives value exact m ctx (ctx.call run name pos [.number y])) :
    Gives value exact n ctx (body.eval run [.number x] scope ctx)
  descends (run : BodyRunner) (scope : Scope) (ctx : Context) {x : Float} {n : ℕ} (hn : 2 ≤ n)
    (hmax : n ≤ 2 ^ 53) (hx : Denotes x n) :
    ∃ next, body.eval run [.number x] scope ctx =
      (ctx.call run name place [.number (x - 1)]).bind next

namespace Recursive

variable {name : String} {place : Position} {body : Expr} {least exact : ℕ} {value : ℕ → ℕ}
  {ctx : Context} {x : Float} {n room bound : ℕ}

/-- With room for as many frames as the integer says, but for one at least, the call returns. -/
theorem call_ok (h : Recursive name place body least value exact)
    (hbinds : ctx.environment.Binds name body) (hroom : 1 ≤ room)
    (hsize : ctx.callStack.size + room ≤ ctx.maxDepth) (hbound : room ≤ bound) (hleast : least ≤ n)
    (hn : n ≤ room) (hmax : n ≤ 2 ^ 53) (hx : Denotes x n) (pos : Position) :
    Gives value exact n ctx (ctx.call (runBody bound) name pos [.number x]) := by
  -- the calls that the body makes have one frame less to go to, and take smaller integers
  induction room generalizing ctx x n bound pos with
  | zero => omega
  | succ room ih =>
    obtain ⟨bound, rfl⟩ : ∃ b, bound = b + 1 := ⟨bound - 1, by omega⟩
    obtain ⟨scope, hcall⟩ :=
      Context.exists_call_eq_body hbinds (by omega) bound pos (.number x)
    let inner := ctx.entered ⟨name, pos⟩
    have hinner : inner.environment.Binds name body := hbinds
    have hsize' : inner.callStack.size + room ≤ inner.maxDepth := by
      rw [Context.size_entered]
      show _ ≤ ctx.maxDepth
      omega
    have hbody : Gives value exact n inner
        (body.eval (runBody bound) [.number x] scope inner) := by
      rcases Nat.lt_or_ge n 2 with hbase | hstep
      · exact h.base _ _ _ hleast hbase hx
      · refine h.step _ _ _ hstep hmax hx fun pos' y m hleast' hm hy => ?_
        exact ih hinner (by omega) hsize' (by omega) hleast' (by omega) (by omega) hy pos'
    obtain ⟨z, hz, hvalue⟩ := hbody
    refine ⟨z, ?_, hvalue⟩
    rw [hcall, hz]
    rfl

/-- Without that room, the descent ends in a call that is too deep. -/
theorem call_error (h : Recursive name place body least value exact)
    (hbinds : ctx.environment.Binds name body) (hsize : ctx.callStack.size + room = ctx.maxDepth)
    (hbound : room ≤ bound) (hn : room < n) (hmax : n ≤ 2 ^ 53) (hx : Denotes x n)
    (pos : Position) :
    ctx.call (runBody bound) name pos [.number x] =
      .error ⟨if room = 0 then pos else place, .depthExceeded ctx.maxDepth⟩
        (descended ctx name pos place room) := by
  -- only the outermost call may come from another place than the body
  induction room generalizing ctx x n bound pos with
  | zero =>
    rw [Context.call_eq_track, Context.track_full _ _ _ _ _ _ (by omega)]
    rfl
  | succ room ih =>
    obtain ⟨bound, rfl⟩ : ∃ b, bound = b + 1 := ⟨bound - 1, by omega⟩
    obtain ⟨scope, hcall⟩ :=
      Context.exists_call_eq_body hbinds (by omega) bound pos (.number x)
    let inner := ctx.entered ⟨name, pos⟩
    have hinner : inner.environment.Binds name body := hbinds
    have hsize' : inner.callStack.size + room = inner.maxDepth := by
      rw [Context.size_entered]
      show _ = ctx.maxDepth
      omega
    have hone : Denotes 1 (1 : ℕ) := denotes_ofNat (by decide)
    have hx' : Denotes (x - 1) (n - 1 : ℕ) := hx.sub_natCast hone (by omega) hmax
    obtain ⟨next, hbody⟩ := h.descends (runBody bound) scope inner (by omega) hmax hx
    have hdeep : inner.call (runBody bound) name place [.number (x - 1)] = _ :=
      ih hinner hsize' (by omega) (by omega) (by omega) hx' place
    rw [hcall, hbody, hdeep, ite_self, descended_entered, if_neg (Nat.succ_ne_zero room)]
    rfl

/-- As long as its value is a double, the call returns exactly this. -/
theorem call_eq (h : Recursive name place body least value exact)
    (hbinds : ctx.environment.Binds name body) (hroom : 1 ≤ room)
    (hsize : ctx.callStack.size + room ≤ ctx.maxDepth) (hbound : room ≤ bound) (hleast : least ≤ n)
    (hn : n ≤ room) (hmax : n ≤ 2 ^ 53) (hexact : n ≤ exact) (hvalue : value n ≤ 2 ^ 53)
    (hne : value n ≠ 0) (pos : Position) :
    ctx.call (runBody bound) name pos [.number (Float.ofNat n)] =
      .ok (.number (Float.ofNat (value n))) ctx := by
  obtain ⟨z, hcall, hz⟩ := h.call_ok hbinds hroom hsize hbound hleast hn hmax
    (denotes_ofNat hmax) pos
  rw [hcall, (hz hexact).eq_of_ne_zero (denotes_ofNat hvalue) (Nat.cast_ne_zero.mpr hne)]

end Recursive

/-- From an empty call stack, a call of the function on the integer needs as many frames as the
integer says. Without these it leaves one frame more than there may be, the outermost one from the
caller and all others from the place where the function first calls itself. -/
structure NeedsFrames (run : BodyRunner) (ctx : Context) (name : String) (pos place : Position)
    (n : ℕ) : Prop where
  succeeds_iff :
    (∃ v left, ctx.call run name pos [.number (Float.ofNat n)] = .ok v left ∧
      left.callStack = ∅) ↔ n ≤ ctx.maxDepth
  fails (h : ctx.maxDepth < n) :
    ∃ left, ctx.call run name pos [.number (Float.ofNat n)] =
        .error ⟨place, .depthExceeded ctx.maxDepth⟩ left ∧
      left.callStack.frames = ⟨name, pos⟩ :: List.replicate ctx.maxDepth ⟨name, place⟩

theorem Recursive.needsFrames {name : String} {place : Position} {body : Expr} {least exact : ℕ}
    {value : ℕ → ℕ} (h : Recursive name place body least value exact) {ctx : Context}
    (hbinds : ctx.environment.Binds name body) (hstack : ctx.callStack = ∅)
    (hlimit : 1 ≤ ctx.maxDepth) {bound n : ℕ} (hbound : ctx.maxDepth ≤ bound) (hleast : least ≤ n)
    (hmax : n ≤ 2 ^ 53) (pos : Position) :
    NeedsFrames (runBody bound) ctx name pos place n := by
  have hsize : ctx.callStack.size + ctx.maxDepth = ctx.maxDepth := by
    rw [hstack]
    exact Nat.zero_add _
  have herror (hn : ctx.maxDepth < n) := h.call_error hbinds hsize hbound hn hmax
    (denotes_ofNat hmax) pos
  refine ⟨⟨?_, fun hn => ?_⟩, fun hn => ?_⟩
  · rintro ⟨v, left, hcall, -⟩
    by_contra hn
    rw [herror (not_le.mp hn)] at hcall
    cases hcall
  · obtain ⟨z, hcall, -⟩ := h.call_ok hbinds hlimit hsize.le hbound hleast hn hmax
      (denotes_ofNat hmax) pos
    exact ⟨.number z, ctx, hcall, hstack⟩
  · refine ⟨descended ctx name pos place ctx.maxDepth, ?_, ?_⟩
    · rw [herror hn, if_neg (by omega)]
    · rw [frames_descended, hstack]
      rfl

/-! ## The two functions -/

section Bodies

variable (run : BodyRunner) (scope : Scope) (ctx : Context) {x : Float} {n : ℕ}

theorem eval_factorialBody_one (hx : Denotes x (1 : ℕ)) :
    factorialBody.eval run [.number x] scope ctx = .ok (.number 1) ctx := by
  have hone : (x == 1) = true := hx.beq_ofNat (by decide)
  show (if x == 1 then _ else _) = _
  rw [hone]
  rfl

theorem eval_factorialBody (hn : 2 ≤ n) (hx : Denotes x n) :
    factorialBody.eval run [.number x] scope ctx =
      (ctx.call run "factorial" ⟨3, 13⟩ [.number (x - 1)]).bind fun v ctx =>
        match Operator.mul.apply (.number x) v with
        | .ok value => .ok value ctx
        | .error fault => .error ⟨⟨3, 10⟩, fault⟩ ctx := by
  have hone : (x == 1) = false := hx.not_beq_ofNat (by decide) (by omega : n ≠ 1)
  show (if x == 1 then _ else _) = _
  rw [hone]
  rfl

theorem eval_fibonacciBody_zero (hx : Denotes x (0 : ℕ)) :
    fibonacciBody.eval run [.number x] scope ctx = .ok (.number 0) ctx := by
  have hzero : (x == 0) = true := hx.beq_ofNat (by decide)
  show (if x == 0 then _ else _) = _
  rw [hzero]
  rfl

theorem eval_fibonacciBody_one (hx : Denotes x (1 : ℕ)) :
    fibonacciBody.eval run [.number x] scope ctx = .ok (.number 1) ctx := by
  have hzero : (x == 0) = false := hx.not_beq_ofNat (by decide) Nat.one_ne_zero
  have hone : (x == 1) = true := hx.beq_ofNat (by decide)
  show (if x == 0 then _ else if x == 1 then _ else _) = _
  rw [hzero, hone]
  rfl

theorem eval_fibonacciBody (hn : 2 ≤ n) (hx : Denotes x n) :
    fibonacciBody.eval run [.number x] scope ctx =
      (ctx.call run "fibb" ⟨8, 15⟩ [.number (x - 1)]).bind fun v ctx =>
        (ctx.call run "fibb" ⟨8, 31⟩ [.number (x - 2)]).bind fun w ctx =>
          match Operator.add.apply v w with
          | .ok value => .ok value ctx
          | .error fault => .error ⟨⟨8, 12⟩, fault⟩ ctx := by
  have hzero : (x == 0) = false := hx.not_beq_ofNat (by decide) (by omega : n ≠ 0)
  have hone : (x == 1) = false := hx.not_beq_ofNat (by decide) (by omega : n ≠ 1)
  show (if x == 0 then _ else if x == 1 then _ else _) = _
  rw [hzero, hone]
  rfl

end Bodies

theorem factorial_le {n : ℕ} (h : n ≤ 18) : n.factorial ≤ 2 ^ 53 :=
  (Nat.factorial_le h).trans (by decide)

theorem fib_le {n : ℕ} (h : n ≤ 78) : Nat.fib n ≤ 2 ^ 53 := (Nat.fib_mono h).trans (by norm_num)

theorem recursive_factorial : Recursive "factorial" ⟨3, 13⟩ factorialBody 1 Nat.factorial 18 where
  base run scope ctx x n hleast hn hx := by
    obtain rfl : n = 1 := by omega
    exact ⟨1, eval_factorialBody_one run scope ctx hx, fun _ => denotes_ofNat (by decide)⟩
  step run scope ctx x n hn hmax hx hcalls := by
    have hprevious : Denotes (x - 1) (n - 1 : ℕ) :=
      hx.sub_natCast (denotes_ofNat (by decide)) (by omega) hmax
    obtain ⟨z, hcall, hz⟩ := hcalls ⟨3, 13⟩ _ _ (by omega) (by omega) hprevious
    rw [eval_factorialBody run scope ctx hn hx, hcall]
    refine ⟨x * z, rfl, fun hexact => ?_⟩
    have hproduct : n * (n - 1).factorial = n.factorial := Nat.mul_factorial_pred (by omega)
    rw [← hproduct]
    exact hx.mul_natCast (hz (by omega)) (hproduct.le.trans (factorial_le hexact))
  descends run scope ctx x n hn hmax hx := ⟨_, eval_factorialBody run scope ctx hn hx⟩

theorem recursive_fibonacci : Recursive "fibb" ⟨8, 15⟩ fibonacciBody 0 Nat.fib 78 where
  base run scope ctx x n hleast hn hx := by
    obtain rfl | rfl : n = 0 ∨ n = 1 := by omega
    · exact ⟨0, eval_fibonacciBody_zero run scope ctx hx, fun _ => denotes_ofNat (by decide)⟩
    · exact ⟨1, eval_fibonacciBody_one run scope ctx hx, fun _ => denotes_ofNat (by decide)⟩
  step run scope ctx x n hn hmax hx hcalls := by
    have hone : Denotes (x - 1) (n - 1 : ℕ) :=
      hx.sub_natCast (denotes_ofNat (by decide)) (by omega) hmax
    have htwo : Denotes (x - 2) (n - 2 : ℕ) :=
      hx.sub_natCast (denotes_ofNat (by decide)) hn hmax
    obtain ⟨y, hfirst, hy⟩ := hcalls ⟨8, 15⟩ _ _ (Nat.zero_le _) (by omega) hone
    obtain ⟨z, hsecond, hz⟩ := hcalls ⟨8, 31⟩ _ _ (Nat.zero_le _) (by omega) htwo
    rw [eval_fibonacciBody run scope ctx hn hx, hfirst, Outcome.bind_ok, hsecond]
    refine ⟨y + z, rfl, fun hexact => ?_⟩
    have hsum : Nat.fib (n - 1) + Nat.fib (n - 2) = Nat.fib n := by
      obtain ⟨m, rfl⟩ := Nat.exists_eq_add_of_le' hn
      rw [Nat.fib_add_two, Nat.add_comm]
      rfl
    rw [← hsum]
    exact (hy (by omega)).add_natCast (hz (by omega)) (hsum.le.trans (fib_le hexact))
  descends run scope ctx x n hn hmax hx := ⟨_, eval_fibonacciBody run scope ctx hn hx⟩

/-! ## The program -/

/-- What is shown is printed, and the output is all that this changes. -/
theorem exists_shown {e : Expr} {run : BodyRunner} {args : List Value} {scope : Scope}
    {ctx : Context} {v : Value} (hvalue : e.Yields run args scope ctx v) (hopen : ctx.output.Open)
    (pos : Position) :
    ∃ output : Output, output.Open ∧
      (shown pos e).eval run args scope ctx = .ok v { ctx with output := output } := by
  obtain ⟨htaken, hopen'⟩ := hopen.writeLine (printedLine [v])
  have hline : ctx.output.writeLine (printedLine [v]) =
      ((ctx.output.writeLine (printedLine [v])).1, none) := Prod.ext rfl htaken
  have hprint : ctx.builtin .print pos [v] =
      .ok .nil { ctx with output := (ctx.output.writeLine (printedLine [v])).1 } := by
    rw [Context.builtin, Builtin.call, hline]
  refine ⟨_, hopen', ?_⟩
  rw [shown, Expr.eval, hvalue, Outcome.bind_ok]
  show ((ctx.builtin .print pos [v]).bind _).bind _ = _
  rw [hprint]
  rfl

/-- The program of the two functions returns, if it has room for its calls, and leaves their
definitions. -/
theorem execute_recursion {ctx : Context} (hroom : ctx.callStack.size + 10 ≤ ctx.maxDepth)
    (hopen : ctx.output.Open) :
    ∃ left, ctx.execute recursion.body = .ok (.number 55) left ∧ left.callStack = ∅ ∧
      left.maxDepth = ctx.maxDepth ∧ left.environment.Binds "factorial" factorialBody ∧
      left.environment.Binds "fibb" fibonacciBody := by
  let run := runBody ctx.nestingBound
  have hbound : 10 ≤ ctx.nestingBound := by
    rw [Context.nestingBound]
    omega
  let first := ctx.withFunction "factorial" factorialBody .empty
  have hfactorial : first.environment.Binds "factorial" factorialBody := Context.binds_withFunction
  have hshown : (Expr.call "factorial" ⟨4, 1⟩ [.literal (.number 10)]).Yields run [] .empty first
      (.number (Float.ofNat (Nat.factorial 10))) :=
    recursive_factorial.call_eq hfactorial (by decide) hroom hbound (n := 10) (by decide)
      (by decide) (by decide) (by decide) (factorial_le (by decide)) (Nat.factorial_ne_zero 10) _
  obtain ⟨output, hopen', hfirst⟩ := exists_shown hshown hopen ⟨4, 1⟩
  let printed : Context := { first with output := output }
  let second := printed.withFunction "fibb" fibonacciBody .empty
  have hfibonacci : second.environment.Binds "fibb" fibonacciBody := Context.binds_withFunction
  have hshown' : (Expr.call "fibb" ⟨9, 1⟩ [.literal (.number 10)]).Yields run [] .empty second
      (.number (Float.ofNat (Nat.fib 10))) :=
    recursive_fibonacci.call_eq hfibonacci (by decide) hroom hbound (n := 10) (by decide)
      (by decide) (by decide) (by decide) (fib_le (by decide)) (by decide) _
  obtain ⟨output', -, hsecond⟩ := exists_shown hshown' hopen' ⟨9, 1⟩
  refine ⟨{ second with output := output', callStack := ∅ }, ?_, rfl, rfl, ?_, hfibonacci⟩
  · have hdefine : (Expr.defineFunction "factorial" 1 factorialBody).eval run [] .empty ctx =
        .ok .nil first := rfl
    have hdefine' : (Expr.defineFunction "fibb" 1 fibonacciBody).eval run [] .empty printed =
        .ok .nil second := rfl
    have hparts := Expr.evalAll_cons hdefine <| Expr.evalAll_cons hfirst <|
      Expr.evalAll_cons hdefine' <| Expr.evalAll_cons hsecond (Expr.evalAll_nil _ _ _ _)
    have hbody : recursion.body.eval run [] .empty ctx =
        .ok (.number (Float.ofNat (Nat.fib 10))) { second with output := output' } :=
      Expr.eval_seq hparts
    rw [Context.execute, Context.evaluate, hbody]
    rfl
  · exact Context.binds_withFunction_of_ne (by decide) hfactorial

/-! ## Frames -/

/-- From an empty call stack, the recursive functions need as many frames as the integer that they
are called on says. As long as their values are doubles, they return exactly these. -/
theorem recursion_frames {ctx : Context} (hstack : ctx.callStack = ∅) (hlimit : 1 ≤ ctx.maxDepth)
    (hfactorial : ctx.environment.Binds "factorial" factorialBody)
    (hfibonacci : ctx.environment.Binds "fibb" fibonacciBody) {bound n : ℕ}
    (hbound : ctx.maxDepth ≤ bound) (hpos : 1 ≤ n) (hmax : n ≤ 2 ^ 53) (pos : Position) :
    NeedsFrames (runBody bound) ctx "factorial" pos ⟨3, 13⟩ n ∧
      NeedsFrames (runBody bound) ctx "fibb" pos ⟨8, 15⟩ n ∧
      (n ≤ ctx.maxDepth → n ≤ 18 →
        ctx.call (runBody bound) "factorial" pos [.number (Float.ofNat n)] =
          .ok (.number (Float.ofNat n.factorial)) ctx) ∧
      (n ≤ ctx.maxDepth → n ≤ 78 →
        ctx.call (runBody bound) "fibb" pos [.number (Float.ofNat n)] =
          .ok (.number (Float.ofNat (Nat.fib n))) ctx) := by
  have hsize : ctx.callStack.size + ctx.maxDepth ≤ ctx.maxDepth := by
    rw [hstack]
    exact (Nat.zero_add _).le
  refine ⟨recursive_factorial.needsFrames hfactorial hstack hlimit hbound hpos hmax pos,
    recursive_fibonacci.needsFrames hfibonacci hstack hlimit hbound (Nat.zero_le _) hmax pos,
    fun hn hexact => ?_, fun hn hexact => ?_⟩
  · exact recursive_factorial.call_eq hfactorial hlimit hsize hbound hpos hn hmax hexact
      (factorial_le hexact) n.factorial_ne_zero pos
  · exact recursive_fibonacci.call_eq hfibonacci hlimit hsize hbound (Nat.zero_le _) hn hmax hexact
      (fib_le hexact) (Nat.fib_pos.mpr hpos).ne' pos

/-- After the program has run, with room for ten calls. -/
theorem recursion_frames_ten :
    ∃ left, (Context.new 10 .text (.new none true)).execute recursion.body =
        .ok (.number 55) left ∧
      left.call (runBody 10) "factorial" ⟨1, 1⟩ [.number 10] = .ok (.number 3628800) left ∧
      left.call (runBody 10) "fibb" ⟨1, 1⟩ [.number 10] = .ok (.number 55) left ∧
      ∃ deep, left.call (runBody 10) "fibb" ⟨1, 1⟩ [.number 11] =
          .error ⟨⟨8, 15⟩, .depthExceeded 10⟩ deep ∧
        deep.callStack.frames = ⟨"fibb", ⟨1, 1⟩⟩ :: List.replicate 10 ⟨"fibb", ⟨8, 15⟩⟩ := by
  let ctx := Context.new 10 .text (.new none true)
  have hroom : ctx.callStack.size + 10 ≤ ctx.maxDepth := by decide
  have hopen : ctx.output.Open := by rintro sink ⟨⟩
  obtain ⟨left, hleft, hstack, hlimit, hfactorial, hfibonacci⟩ := execute_recursion hroom hopen
  have hten : left.maxDepth = 10 := hlimit
  have hframes {n : ℕ} (hpos : 1 ≤ n) (hmax : n ≤ 2 ^ 53) :=
    recursion_frames hstack (by omega) hfactorial hfibonacci hten.le hpos hmax ⟨1, 1⟩
  obtain ⟨-, -, hfactorialTen, hfibonacciTen⟩ := hframes (n := 10) (by decide) (by decide)
  obtain ⟨-, hfib, -, -⟩ := hframes (n := 11) (by decide) (by decide)
  obtain ⟨deep, hdeep, hleftover⟩ := hfib.fails (by omega)
  rw [hten] at hdeep hleftover
  exact ⟨left, hleft, hfactorialTen (by omega) (by decide), hfibonacciTen (by omega) (by decide),
    deep, hdeep, hleftover⟩

end Bundle

end TracedEval
