import TracedEval.Proofs.Shape

/-!
# Which call a failure belongs to

Three kinds of failure say that a call went wrong before anything of what it calls was run: it was
too deep, it called something that is no function, or it had the wrong number of arguments. Such a
failure has a frame that belongs to it, which is the frame of this very call.

* `Fault.ofCall` is whether a failure is of these kinds, and `Frame.Caused` is that a frame belongs
  to it;
* `Operation.ofCall_run`: nothing that a form does by itself fails in this way;
* `Resolution.caused_of_resolve`: a call that does has its own frame to blame.
-/

namespace TracedEval

/-! ## Refused calls -/

/-- Whether it is a call that went wrong, before anything of what it calls was run. -/
def Fault.ofCall : Fault → Bool
  | .depthExceeded _ | .notCallable _ | .argumentCount .. => true
  | _ => false

/-- The frame is of the call that the failure is about: it was made at the place of the failure, by
the name that the failure gives. -/
def Frame.Caused (frame : Frame) (failure : Failure) : Prop :=
  frame.position = failure.position ∧
    match failure.fault with
    | .notCallable name | .argumentCount name _ _ => frame.name = name
    | _ => True

/-! ## Nothing else refuses calls -/

section OfCall

variable {pos : Position} {values : List Value} {failure : Failure}

theorem eq_error_of_map {ε α β : Type} {f : α → β} {result : Except ε α} {e : ε}
    (h : result.map f = .error e) : result = .error e := by
  cases result with
  | ok => cases h
  | error => cases h; rfl

theorem Builtin.ofCall_numbers {b : Builtin} {fault : Fault} (h : b.numbers values = .error fault) :
    fault.ofCall = false := by
  induction values with
  | nil => cases h
  | cons first rest ih =>
    cases first with
    | number x =>
      exact ih (eq_error_of_map h)
    | nil | boolean | string | function | builtin => cases h; rfl

theorem Position.eq_error_of_blame {α : Type} {result : Except Fault α}
    (h : pos.blame result = .error failure) : result = .error failure.fault := by
  cases result with
  | ok => cases h
  | error => cases h; rfl

theorem Builtin.ofCall_call {b : Builtin} {output : Output} {fault : Fault}
    (h : (b.call values output).1 = .error fault) : fault.ofCall = false := by
  cases b with
  | sum | sub =>
    simp only [Builtin.call] at h
    split at h
    · cases h
      rfl
    · exact Builtin.ofCall_numbers (eq_error_of_map h)
  | print =>
    simp only [Builtin.call] at h
    split at h <;> cases h
    rfl

theorem Environment.ofCall_get {env : Environment} {name : String} {fault : Fault}
    (h : env.get name = .error fault) : fault.ofCall = false := by
  unfold Environment.get at h
  split at h <;> cases h
  rfl

theorem Value.ofCall_negate {x : Value} {fault : Fault} (h : x.negate = .error fault) :
    fault.ofCall = false := by
  unfold Value.negate at h
  split at h <;> cases h
  rfl

theorem Operator.ofCall_apply {op : Operator} {left right : Value} {fault : Fault}
    (h : op.apply left right = .error fault) : fault.ofCall = false := by
  -- equality cannot fail, and the others only fail with a type error
  unfold Operator.apply at h
  split at h
  · cases h
  · cases h
  · split at h
    · cases h
    · split at h
      · cases h
      · cases h; rfl
    · split at h <;> cases h; rfl
    · split at h <;> cases h; rfl
    · cases h; rfl

/-- Only calls are refused as calls. -/
theorem Operation.ofCall_run {op : Operation} {depth : Nat} {args : List Value} {scope : Scope}
    {w : World} (h : (op.run depth args scope values w).1 = .error failure) :
    failure.fault.ofCall = false := by
  cases op with
  | literal | argument | localVar | seq | function | define | depth | display => cases h
  | global name pos => exact Environment.ofCall_get (Position.eq_error_of_blame h)
  | builtin b pos => exact Builtin.ofCall_call (Position.eq_error_of_blame h)
  | binary op pos => exact Operator.ofCall_apply (Position.eq_error_of_blame h)
  | negate pos => exact Value.ofCall_negate (Position.eq_error_of_blame h)
  | raise pos message => cases h; rfl

theorem Resolution.caused_of_ofValue {callee : Value} {name : String}
    (h : ofValue callee name pos values = refused failure) : Frame.Caused ⟨name, pos⟩ failure := by
  unfold ofValue at h
  split at h
  · split at h <;> cases h
    exact ⟨rfl, rfl⟩
  · cases h
  · cases h
    exact ⟨rfl, rfl⟩

/-- A call that is refused is blamed on its own frame. -/
theorem Resolution.caused_of_resolve {limit size : Nat} {env : Environment} {callee : Option Value}
    {name : String} (h : resolve limit size env callee name pos values = refused failure) :
    Frame.Caused ⟨name, pos⟩ failure := by
  rcases resolve_cases limit size env callee name pos values with
    ⟨-, hrefused⟩ | ⟨-, value, -, hcalled⟩ | ⟨-, fault, hget, hrefused⟩
  · rw [hrefused] at h
    cases h
    exact ⟨rfl, trivial⟩
  · rw [hcalled] at h
    exact caused_of_ofValue h
  · rw [hrefused] at h
    cases h
    -- the name is not bound, which is a failure of another kind
    unfold Environment.get at hget
    split at hget <;> cases hget
    exact ⟨rfl, trivial⟩

end OfCall

end TracedEval
