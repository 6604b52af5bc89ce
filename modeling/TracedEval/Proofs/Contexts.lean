import TracedEval.Proofs.Sessions

/-!
# Contexts of one engine

The contexts of a session do not affect each other. Leaving out the steps for the other contexts
changes nothing for one of them: neither its answers, nor what it is left as, nor whether one of its
steps breaks down.

* `Session.owners` are the contexts that steps are for, and `Session.stepsFor` and
  `Session.resultFor` pick out the steps for one of them and what they have come to;
* `Session.alone` is a session with that context and no other, and `Session.step_alone` and
  `Session.alone_of_step` say what a step is to it;
* `Session.run_alone` is the statement for runs.
-/

namespace TracedEval

/-! ## Picking out what is for one context -/

/-- Those of some things that are for context `i`, when it is known which contexts they are for. -/
def picked {α : Type} (i : Nat) (owners : List Nat) (xs : List α) : List α :=
  ((owners.zip xs).filter fun (owner, _) => owner == i).map Prod.snd

section Picked

variable {α : Type} {i owner : Nat} {owners : List Nat} {x : α} {xs : List α}

@[simp] theorem picked_nil (i : Nat) (owners : List Nat) : picked i owners ([] : List α) = [] := by
  rw [picked, List.zip_nil_right]
  rfl

theorem picked_cons_self (i : Nat) (owners : List Nat) (x : α) (xs : List α) :
    picked i (i :: owners) (x :: xs) = x :: picked i owners xs := by
  simp [picked]

theorem picked_cons_of_ne (h : owner ≠ i) (owners : List Nat) (x : α) (xs : List α) :
    picked i (owner :: owners) (x :: xs) = picked i owners xs := by
  simp [picked, h]

end Picked

namespace Session

/-- The contexts that steps are for. -/
def owners (s : Session) : List Step → List Nat
  | [] => []
  | st :: rest => (s.select st.target).current :: (s.select st.target).owners rest

/-- The steps for context `i`, in a session that has no other. -/
def stepsFor (s : Session) (i : Nat) (steps : List Step) : List Step :=
  (picked i (s.owners steps) steps).map fun st => ⟨.current, st.action⟩

/-- The part for context `i` of what steps have come to: its answers, and the breakdown if it was the
one to break down. -/
def resultFor (s : Session) (i : Nat) (steps : List Step)
    (result : List Answer × Option Breakdown) : List Answer × Option Breakdown :=
  (picked i (s.owners steps) result.1,
    if (s.owners steps)[result.1.length]? = some i then result.2 else none)

/-- Which context is chosen does not depend on what is in the contexts. -/
theorem select_congr {s t : Session} (hcurrent : s.current = t.current)
    (hlength : s.slots.length = t.slots.length) (target : Target) :
    (s.select target).current = (t.select target).current ∧
      (s.select target).slots.length = (t.select target).slots.length := by
  cases target with
  | current => exact ⟨hcurrent, hlength⟩
  | fresh =>
    refine ⟨hlength, ?_⟩
    show (s.slots ++ [_]).length = (t.slots ++ [_]).length
    rw [List.length_append, List.length_append, hlength]
    rfl
  | slot index =>
    rw [select, select, hlength]
    split
    · exact ⟨rfl, hlength⟩
    · exact ⟨hcurrent, hlength⟩

theorem owners_congr {s t : Session} (hcurrent : s.current = t.current)
    (hlength : s.slots.length = t.slots.length) (steps : List Step) :
    s.owners steps = t.owners steps := by
  induction steps generalizing s t with
  | nil => rfl
  | cons st rest ih =>
    obtain ⟨hcurrent', hlength'⟩ := select_congr hcurrent hlength st.target
    rw [owners, owners, hcurrent', ih hcurrent' hlength']

/-- Steps after a step are for the same contexts as without it. -/
theorem owners_of_step {s s' : Session} {st : Step} {answer : Answer}
    (h : s.step st = .ok (answer, s')) (rest : List Step) :
    s.owners (st :: rest) = s'.current :: s'.owners rest := by
  obtain ⟨after, -, rfl⟩ := act_of_step h
  have hlength : ((s.select st.target).put after).slots.length =
      (s.select st.target).slots.length := List.length_set
  have hcurrent : ((s.select st.target).put after).current = (s.select st.target).current := rfl
  rw [owners_congr hcurrent hlength]
  rfl

/-! ## One context alone -/

/-- The session that has only context `i`. -/
def alone (s : Session) (i : Nat) : Session := ⟨s.engine, [s.slotAt i], 0⟩

theorem alone_start (e : Engine) (i : Nat) : (start e).alone i = start e := by
  rw [alone, slotAt_start]
  rfl

/-- A step for a context is one of the session that has only this context. -/
theorem step_alone {s : Session} (hs : s.HasCurrent) {i : Nat} {st : Step}
    (hi : (s.select st.target).current = i) :
    (s.alone i).step ⟨.current, st.action⟩ =
      (s.step st).map fun (answer, s') => (answer, s'.alone i) := by
  subst hi
  have haddressed : (s.alone (s.select st.target).current).addressed ⟨.current, st.action⟩ =
      s.addressed st := (addressed_eq_slotAt s st).symm
  rw [step_eq, step_eq, haddressed]
  cases (s.addressed st).act st.action with
  | error breakdown => rfl
  | ok result =>
    obtain ⟨reply, after⟩ := result
    have hafter : ((s.select st.target).put after).alone (s.select st.target).current =
        ⟨s.engine, [after], 0⟩ := by
      rw [alone, slotAt_put_self (hs.select st.target)]
      show (⟨(s.select st.target).engine, [after], 0⟩ : Session) = _
      rw [engine_select]
    show _ = Except.ok (_, ((s.select st.target).put after).alone _)
    rw [hafter]
    rfl

theorem engine_of_step {s s' : Session} {st : Step} {answer : Answer}
    (h : s.step st = .ok (answer, s')) : s'.engine = s.engine := by
  obtain ⟨after, -, rfl⟩ := act_of_step h
  exact engine_select s st.target

/-- A step for another context is none. -/
theorem alone_of_step {s s' : Session} {st : Step} {answer : Answer} {i : Nat}
    (hs : s.HasCurrent) (h : s.step st = .ok (answer, s')) (hi : s'.current ≠ i) :
    s'.alone i = s.alone i := by
  rcases slotAt_of_step hs h i with ⟨hcurrent, -⟩ | ⟨-, hkept⟩
  · exact absurd hcurrent hi
  · rw [alone, alone, engine_of_step h, hkept]

/-! ## Runs -/

theorem current_of_step {s s' : Session} {st : Step} {answer : Answer}
    (h : s.step st = .ok (answer, s')) : s'.current = (s.select st.target).current := by
  obtain ⟨after, -, rfl⟩ := act_of_step h
  rfl

theorem Takes.engine {s s' : Session} {steps : List Step} (h : s.Takes steps s') :
    s'.engine = s.engine := by
  induction h with
  | nil s => rfl
  | cons step _ ih => rw [ih, engine_of_step step]

/-- What a session does to context `i`, the steps for it do to it alone. -/
theorem Takes.alone {s s' : Session} {steps : List Step} (h : s.Takes steps s')
    (hs : s.HasCurrent) (i : Nat) : (s.alone i).Takes (s.stepsFor i steps) (s'.alone i) := by
  induction h with
  | nil s => exact .nil _
  | cons step _ ih =>
    have hnext := ih (hasCurrent_of_step hs step)
    rw [stepsFor, owners_of_step step]
    rename_i s s' s'' st rest answer _
    by_cases hi : s'.current = i
    · subst hi
      have halone : (s.alone s'.current).step ⟨.current, st.action⟩ =
          .ok (answer, s'.alone s'.current) := by
        rw [step_alone hs (current_of_step step).symm, step]
        rfl
      rw [picked_cons_self, List.map_cons]
      exact .cons halone hnext
    · rw [picked_cons_of_ne hi]
      rw [alone_of_step hs step hi] at hnext
      exact hnext

/-- The answers for context `i` are those that its steps get alone, up to the step that breaks down,
if there is one; and if that is for context `i`, it breaks down there as well. -/
theorem run_alone {s : Session} (hs : s.HasCurrent) (i : Nat) (steps : List Step) :
    (s.alone i).run (s.stepsFor i (steps.take ((s.run steps).1.length + 1))) =
      s.resultFor i steps (s.run steps) := by
  induction steps generalizing s with
  | nil => rfl
  | cons st rest ih =>
    cases hstep : s.step st with
    | error breakdown =>
      have hrun : s.run (st :: rest) = ([], some breakdown) := by rw [run, hstep]
      rw [hrun, resultFor, picked_nil]
      show (s.alone i).run (s.stepsFor i [st]) =
        ([], if some (s.select st.target).current = some i then some breakdown else none)
      by_cases hi : (s.select st.target).current = i
      · rw [if_pos (congrArg some hi), stepsFor, owners, hi, picked_cons_self, picked_nil]
        have halone := step_alone hs hi
        rw [hstep] at halone
        show (s.alone i).run [⟨.current, st.action⟩] = _
        rw [run, halone]
        rfl
      · rw [if_neg (fun h => hi (Option.some.inj h)), stepsFor, owners, picked_cons_of_ne hi,
          picked_nil]
        rfl
    | ok result =>
      obtain ⟨answer, s'⟩ := result
      have hrun : s.run (st :: rest) = (answer :: (s'.run rest).1, (s'.run rest).2) := by
        rw [run, hstep]
      have hnext := ih (hasCurrent_of_step hs hstep)
      rw [hrun, resultFor, owners_of_step hstep]
      show (s.alone i).run (s.stepsFor i (st :: rest.take ((s'.run rest).1.length + 1))) =
        (_, if (s'.owners rest)[(s'.run rest).1.length]? = some i then (s'.run rest).2 else none)
      rw [stepsFor, owners_of_step hstep]
      by_cases hi : s'.current = i
      · subst hi
        have halone := step_alone hs (current_of_step hstep).symm
        rw [hstep] at halone
        rw [picked_cons_self, picked_cons_self, List.map_cons, run, halone]
        show ((_ :: (Session.run _ (s'.stepsFor _ _)).1, (Session.run _ (s'.stepsFor _ _)).2) :
          List Answer × Option Breakdown) = _
        rw [hnext]
        rfl
      · rw [picked_cons_of_ne hi, picked_cons_of_ne hi, ← alone_of_step hs hstep hi]
        exact hnext

end Session
end TracedEval
