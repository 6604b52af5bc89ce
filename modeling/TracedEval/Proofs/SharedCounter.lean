import Mathlib.Data.List.Forall2
import TracedEval.Proofs.Contexts
import TracedEval.Proofs.Identity
import TracedEval.Proofs.Renaming

/-!
# One counter for all contexts

Each context counts its functions by itself, so that it is plain that contexts do not get into each
other's way there. Where functions are told apart by something that the contexts share, what one of
them makes does move the identities in the others. This file shows that nothing but the identities is
moved, and puts together what keeps contexts apart.

* `Session.runFrom` is `Session.run` with one counter for the functions of all contexts;
* `Slot.Counted` and `Session.Counted` tie what is counted so to what is counted in each context by
  itself, and `Session.Counted.run` is what that comes to for runs;
* `Session.contexts_apart` is the statement that the contexts of a session do not affect each other.
-/

namespace TracedEval

/-! ## Renumberings -/

/-- The renaming that is the same up to `n`, and goes on at `next` from there. -/
def goingOnAt (ρ : Nat → Nat) (n next k : Nat) : Nat := if k < n then ρ k else next + (k - n)

theorem goingOnAt_self (ρ : Nat → Nat) (n next : Nat) : goingOnAt ρ n next n = next := by
  rw [goingOnAt, if_neg (Nat.lt_irrefl n), Nat.sub_self, Nat.add_zero]

namespace Renumbering

variable {ρ : Nat → Nat} {n : Nat}

theorem add (hρ : Renumbering ρ n) (k : Nat) : ρ (n + k) = ρ n + k := by
  induction k with
  | zero => rfl
  | succ k ih => rw [← Nat.add_assoc, hρ.succ _ (Nat.le_add_right n k), ih, Nat.add_assoc]

theorem mono (hρ : Renumbering ρ n) {m : Nat} (h : n ≤ m) : Renumbering ρ m :=
  ⟨hρ.injective, fun k hk => hρ.succ k (Nat.le_trans h hk)⟩

/-- What has been given out is below what is to come. -/
theorem lt (hρ : Renumbering ρ n) {k : Nat} (hk : k < n) : ρ k < ρ n := by
  by_contra hle
  obtain ⟨j, hj⟩ := Nat.exists_eq_add_of_le (Nat.not_lt.mp hle)
  rw [← hρ.add] at hj
  have := hρ.injective hj
  omega

/-- The identities that are still to be given out can start anywhere further up. -/
theorem goesOn (hρ : Renumbering ρ n) {next : Nat} (h : ρ n ≤ next) :
    Renumbering (goingOnAt ρ n next) n where
  injective := by
    intro a b hab
    unfold goingOnAt at hab
    split at hab <;> split at hab
    · exact hρ.injective hab
    · have := hρ.lt ‹a < n›
      omega
    · have := hρ.lt ‹b < n›
      omega
    · omega
  succ k hk := by
    unfold goingOnAt
    rw [if_neg (Nat.not_lt.mpr hk), if_neg (Nat.not_lt.mpr (Nat.le_succ_of_le hk))]
    omega

end Renumbering

/-! ## Slots -/

/-- The reply with other identities. -/
def Reply.rename (ρ : Nat → Nat) : Reply → Reply
  | .value v => .value (v.rename ρ)
  | .failed failure => .failed failure
  | .ended error => .ended error
  | .reported error => .reported error
  | .taken lines => .taken lines
  | .nothing => .nothing

/-- The answer with other identities. -/
def Answer.rename (ρ : Nat → Nat) (a : Answer) : Answer := { a with reply := a.reply.rename ρ }

/-- The second answer is the first one with other identities, which are not shown. -/
def Answer.Renamed (a b : Answer) : Prop :=
  ∃ ρ : Nat → Nat, Function.Injective ρ ∧ b = a.rename ρ

namespace Slot

/-- The slot with other identities. -/
def rename (ρ : Nat → Nat) (slot : Slot) : Slot := { slot with context := slot.context.rename ρ }

/-- The slot with another identity for the next function. -/
def countFrom (next : Nat) (slot : Slot) : Slot :=
  { slot with context := { slot.context with nextIdentity := next } }

/-- An action does the same with other identities. -/
theorem act_rename {ρ : Nat → Nat} {slot : Slot} (hρ : Renumbering ρ slot.context.nextIdentity)
    (action : Action) :
    (slot.rename ρ).act action =
      (slot.act action).map fun (reply, after) => (reply.rename ρ, after.rename ρ) := by
  cases action with
  | evaluate body =>
    have hrenamed := Context.evaluate_renamed hρ body
    simp only [act, rename]
    cases ho : slot.context.evaluate body with
    | ok value ctx | error failure ctx =>
      rw [ho] at hrenamed
      rw [hrenamed.2]
      rfl
    | underflow | exhausted =>
      rw [ho] at hrenamed
      rw [hrenamed]
      rfl
  | execute program =>
    have hrenamed := Context.execute_renamed hρ program.body
    simp only [act, rename]
    cases ho : slot.context.execute program.body with
    | ok value ctx | error failure ctx =>
      rw [ho] at hrenamed
      rw [hrenamed.2]
      rfl
    | underflow | exhausted =>
      rw [ho] at hrenamed
      rw [hrenamed]
      rfl
  | report =>
    obtain ⟨ctx, pending⟩ := slot
    cases pending with
    | none => rfl
    | some failure =>
      simp only [act, rename, Context.report_rename]
      rfl
  | takeLines | setEcho | nothing => rfl

/-- The two slots differ in nothing but identities, and the second one goes on with `next`. -/
def Counted (next : Nat) (slot slot' : Slot) : Prop :=
  ∃ made ρ, slot.context.Numbered made ∧ Renumbering ρ slot.context.nextIdentity ∧
    ρ slot.context.nextIdentity = next ∧ slot'.countFrom next = slot.rename ρ

theorem counted_ofEngine (e : Engine) (next : Nat) :
    (Slot.ofEngine e).Counted next (.ofEngine e) := by
  refine ⟨[], (next + ·), Context.numbered_new _ _ _, ⟨?_, ?_⟩, rfl, rfl⟩
  · exact fun a b h => Nat.add_left_cancel h
  · exact fun n _ => (Nat.add_assoc next n 1).symm

/-- The counter can be moved on, as no function has got the identities that are left out. -/
theorem Counted.advance {slot slot' : Slot} {next next' : Nat} (h : slot.Counted next slot')
    (hle : next ≤ next') : slot.Counted next' slot' := by
  obtain ⟨made, ρ, hmade, hρ, rfl, heq⟩ := h
  refine ⟨made, goingOnAt ρ slot.context.nextIdentity next', hmade, hρ.goesOn hle,
    goingOnAt_self _ _ _, ?_⟩
  have henv : slot.context.environment.rename ρ =
      slot.context.environment.rename (goingOnAt ρ slot.context.nextIdentity next') :=
    Environment.rename_congr fun v hv g hg =>
      (if_pos (hmade.identity_lt (hmade.known v hv g hg))).symm
  show (slot'.countFrom (ρ slot.context.nextIdentity)).countFrom next' = _
  rw [heq]
  simp only [countFrom, rename, Context.rename, henv, goingOnAt_self]

/-- What an action does to a slot, it does to one that is counted differently. -/
theorem Counted.act {slot slot' after : Slot} {next : Nat} {action : Action} {reply : Reply}
    (h : slot.Counted next slot') (hact : slot.act action = .ok (reply, after)) :
    ∃ ρ after', Function.Injective ρ ∧ next ≤ after'.context.nextIdentity ∧
      (slot'.countFrom next).act action = .ok (reply.rename ρ, after') ∧
      (slot'.countFrom next).answer after' action (reply.rename ρ) =
        (slot.answer after action reply).rename ρ ∧
      after.Counted after'.context.nextIdentity after' := by
  obtain ⟨made, ρ, hmade, hρ, rfl, heq⟩ := h
  obtain ⟨more, -, hafter⟩ := numbered_of_act hmade hact
  have hle : slot.context.nextIdentity ≤ after.context.nextIdentity := by
    rw [← hmade.length, ← hafter.length, List.length_append]
    exact Nat.le_add_right _ _
  refine ⟨ρ, after.rename ρ, hρ.injective, ?_, ?_, ?_, ?_⟩
  · obtain ⟨k, hk⟩ := Nat.exists_eq_add_of_le hle
    show _ ≤ ρ after.context.nextIdentity
    rw [hk, hρ.add]
    exact Nat.le_add_right _ _
  · rw [heq, act_rename hρ, hact]
    rfl
  · rw [heq]
    cases action <;> rfl
  · exact ⟨made ++ more, ρ, hafter, hρ.mono hle, rfl, rfl⟩

end Slot

/-! ## Sessions -/

namespace Session

/-- Takes one step when the next function gets this identity, whichever context the step is for. -/
def stepFrom (s : Session) (next : Nat) (st : Step) : Except Breakdown (Answer × Session) :=
  ((s.select st.target).put ((s.addressed st).countFrom next)).step ⟨.current, st.action⟩

/-- The identity that the next function in the current context gets. -/
def nextIdentity (s : Session) : Nat := (s.slotAt s.current).context.nextIdentity

/-- Takes steps until one breaks down, with one counter for the functions of all contexts. -/
def runFrom (s : Session) (next : Nat) : List Step → List Answer × Option Breakdown
  | [] => ([], none)
  | st :: rest =>
    match s.stepFrom next st with
    | .error breakdown => ([], some breakdown)
    | .ok (answer, s) =>
      let (answers, breakdown) := s.runFrom s.nextIdentity rest
      (answer :: answers, breakdown)

theorem stepFrom_eq {s : Session} (hs : s.HasCurrent) (next : Nat) (st : Step) :
    s.stepFrom next st =
      match ((s.addressed st).countFrom next).act st.action with
      | .error breakdown => .error breakdown
      | .ok (reply, after) =>
        .ok (((s.addressed st).countFrom next).answer after st.action reply,
          (s.select st.target).put after) := by
  have haddressed : ((s.select st.target).put ((s.addressed st).countFrom next)).addressed
      ⟨.current, st.action⟩ = (s.addressed st).countFrom next := by
    rw [addressed_eq_slotAt]
    exact slotAt_put_self (hs.select st.target) _
  have hput : ∀ after, ((s.select st.target).put ((s.addressed st).countFrom next)).put after =
      (s.select st.target).put after := by
    intro after
    unfold put
    rw [List.set_set]
  rw [stepFrom, step_eq, haddressed]
  cases ((s.addressed st).countFrom next).act st.action with
  | error breakdown => rfl
  | ok result => exact congrArg (fun s' => Except.ok (_, s')) (hput result.2)

/-- The two sessions differ in nothing but identities, and the second one goes on with `next`. -/
structure Counted (next : Nat) (s t : Session) : Prop where
  current : s.current = t.current
  length : s.slots.length = t.slots.length
  slots : ∀ i, (s.slotAt i).Counted next (t.slotAt i)

theorem counted_start (e : Engine) (next : Nat) : (start e).Counted next (start e) := by
  refine ⟨rfl, rfl, fun i => ?_⟩
  rw [slotAt_start]
  exact Slot.counted_ofEngine e next

section Counted

variable {next : Nat} {s t : Session}

theorem Counted.hasCurrent (h : s.Counted next t) (hs : s.HasCurrent) : t.HasCurrent := by
  unfold HasCurrent
  rw [← h.current, ← h.length]
  exact hs

theorem Counted.addressed (h : s.Counted next t) (st : Step) :
    (s.addressed st).Counted next (t.addressed st) := by
  rw [addressed_eq_slotAt, addressed_eq_slotAt, (select_congr h.current h.length st.target).1]
  exact h.slots _

/-- A step of one session is a step of the other one. -/
theorem Counted.step (h : s.Counted next t) (hs : s.HasCurrent) {s' : Session} {st : Step}
    {answer : Answer} (hstep : s.step st = .ok (answer, s')) :
    ∃ answer' t', t.stepFrom next st = .ok (answer', t') ∧ answer.Renamed answer' ∧
      s'.Counted t'.nextIdentity t' := by
  obtain ⟨after, hact, rfl⟩ := act_of_step hstep
  obtain ⟨ρ, after', hρ, hle, hact', hanswer, hafter⟩ := (h.addressed st).act hact
  have hown : (s.addressed st).answer after st.action answer.reply = answer := by
    rw [step_eq, hact] at hstep
    exact congrArg Prod.fst (Except.ok.inj hstep)
  rw [hown] at hanswer
  obtain ⟨hcurrent, hlength⟩ := select_congr h.current h.length st.target
  have hselected : (s.select st.target).HasCurrent := hs.select st.target
  have hselected' : (t.select st.target).HasCurrent := (h.hasCurrent hs).select st.target
  have hnext : ((t.select st.target).put after').nextIdentity = after'.context.nextIdentity :=
    congrArg (fun slot : Slot => slot.context.nextIdentity) (slotAt_put_self hselected' after')
  refine ⟨answer.rename ρ, (t.select st.target).put after', ?_, ⟨ρ, hρ, rfl⟩, ?_⟩
  · rw [stepFrom_eq (h.hasCurrent hs), hact', ← hanswer]
  · rw [hnext]
    refine ⟨hcurrent, ?_, fun i => ?_⟩
    · show (List.set _ _ _).length = (List.set _ _ _).length
      rw [List.length_set, List.length_set]
      exact hlength
    · by_cases hi : (s.select st.target).current = i
      · subst hi
        rw [slotAt_put_self hselected, hcurrent, slotAt_put_self hselected']
        exact hafter
      · rw [slotAt_put_of_ne hi, slotAt_put_of_ne (hcurrent ▸ hi), slotAt_select, slotAt_select]
        exact (h.slots i).advance hle

theorem Counted.error (h : s.Counted next t) (hs : s.HasCurrent) {st : Step}
    {breakdown : Breakdown} (hstep : s.step st = .error breakdown) :
    t.stepFrom next st = .error breakdown := by
  obtain ⟨made, ρ, -, hρ, rfl, heq⟩ := h.addressed st
  rw [step_eq] at hstep
  rw [stepFrom_eq (h.hasCurrent hs), heq, Slot.act_rename hρ]
  cases hact : (s.addressed st).act st.action with
  | error breakdown' =>
    rw [hact] at hstep
    cases hstep
    rfl
  | ok result =>
    rw [hact] at hstep
    cases hstep

/-- With one counter for all contexts the answers are the same but for identities. -/
theorem Counted.run (h : s.Counted next t) (hs : s.HasCurrent) (steps : List Step) :
    List.Forall₂ Answer.Renamed (s.run steps).1 (t.runFrom next steps).1 ∧
      (t.runFrom next steps).2 = (s.run steps).2 := by
  induction steps generalizing next s t with
  | nil => exact ⟨.nil, rfl⟩
  | cons st rest ih =>
    cases hstep : s.step st with
    | error breakdown =>
      rw [Session.run, runFrom, hstep, h.error hs hstep]
      exact ⟨.nil, rfl⟩
    | ok result =>
      obtain ⟨answer, s'⟩ := result
      obtain ⟨answer', t', hstep', hanswer, hnext⟩ := h.step hs hstep
      obtain ⟨hanswers, hbreakdown⟩ := ih hnext (hasCurrent_of_step hs hstep)
      rw [Session.run, runFrom, hstep, hstep']
      exact ⟨.cons hanswer hanswers, hbreakdown⟩

end Counted

/-! ## Contexts apart -/

theorem forall₂_picked {α β : Type} {R : α → β → Prop} {xs : List α} {ys : List β}
    (h : List.Forall₂ R xs ys) (i : Nat) (owners : List Nat) :
    List.Forall₂ R (picked i owners xs) (picked i owners ys) := by
  induction h generalizing owners with
  | nil =>
    rw [picked_nil, picked_nil]
    exact .nil
  | cons hxy _ ih =>
    cases owners with
    | nil => exact .nil
    | cons owner owners =>
      by_cases hi : owner = i
      · subst hi
        rw [picked_cons_self, picked_cons_self]
        exact .cons hxy (ih owners)
      · rw [picked_cons_of_ne hi, picked_cons_of_ne hi]
        exact ih owners

theorem put_slotAt_current {s : Session} (hs : s.HasCurrent) : s.put (s.slotAt s.current) = s := by
  have hlt : s.current < s.slots.length := hs
  have hslot : s.slotAt s.current = s.slots[s.current] := by
    unfold slotAt
    rw [List.getElem?_eq_getElem hlt]
    rfl
  unfold put
  rw [hslot, List.set_getElem_self]

/-- With the counter at the identity that is next in the current context, it makes no difference to a
step for this context. -/
theorem stepFrom_nextIdentity {s : Session} (hs : s.HasCurrent) {st : Step}
    (hst : st.target = .current) : s.stepFrom s.nextIdentity st = s.step st := by
  obtain ⟨target, action⟩ := st
  subst hst
  have haddressed : (s.addressed ⟨.current, action⟩).countFrom s.nextIdentity =
      s.slotAt s.current := by
    rw [addressed_eq_slotAt]
    rfl
  rw [stepFrom, haddressed]
  exact congrArg (fun s : Session => s.step ⟨.current, action⟩) (put_slotAt_current hs)

/-- Where one context takes all the steps, it does not matter who counts. -/
theorem runFrom_nextIdentity {s : Session} (hs : s.HasCurrent) {steps : List Step}
    (hsteps : ∀ st ∈ steps, st.target = .current) :
    s.runFrom s.nextIdentity steps = s.run steps := by
  induction steps generalizing s with
  | nil => rfl
  | cons st rest ih =>
    rw [List.forall_mem_cons] at hsteps
    rw [runFrom, run, stepFrom_nextIdentity hs hsteps.1]
    cases hstep : s.step st with
    | error breakdown => rfl
    | ok result =>
      dsimp only
      rw [ih (hasCurrent_of_step hs hstep) hsteps.2]

/-- The parts for context `i` are the same but for identities as well. -/
theorem resultFor_renamed {s : Session} {i : Nat} {steps : List Step}
    {result result' : List Answer × Option Breakdown}
    (hanswers : List.Forall₂ Answer.Renamed result.1 result'.1) (hbreakdown : result'.2 = result.2) :
    List.Forall₂ Answer.Renamed (s.resultFor i steps result).1 (s.resultFor i steps result').1 ∧
      (s.resultFor i steps result).2 = (s.resultFor i steps result').2 := by
  refine ⟨forall₂_picked hanswers i (s.owners steps), ?_⟩
  show (if _ then _ else _) = if _ then _ else _
  rw [hanswers.length_eq, hbreakdown]

theorem target_of_mem_stepsFor {s : Session} {i : Nat} {steps : List Step} {st : Step}
    (h : st ∈ s.stepsFor i steps) : st.target = .current := by
  obtain ⟨st', -, rfl⟩ := List.mem_map.mp h
  rfl

/-- The contexts of a session do not affect each other. What the steps for one of them come to, what
they leave it as, and whether one of them breaks down is all as in the session that has only this
context and takes only these steps. If the contexts share a counter for identities, then no more than
identities are different. -/
theorem contexts_apart (e : Engine) (steps : List Step) (i : Nat) :
    (∀ result, (start e).run steps = result →
      (start e).run ((start e).stepsFor i (steps.take (result.1.length + 1))) =
        (start e).resultFor i steps result) ∧
    (∀ s, (start e).Takes steps s →
      (start e).Takes ((start e).stepsFor i steps) ⟨e, [s.slotAt i], 0⟩) ∧
    ∀ result single, (start e).runFrom 0 steps = result →
      (start e).runFrom 0 ((start e).stepsFor i (steps.take (result.1.length + 1))) = single →
        List.Forall₂ Answer.Renamed single.1 ((start e).resultFor i steps result).1 ∧
          single.2 = ((start e).resultFor i steps result).2 := by
  have hs := hasCurrent_start e
  have hrun := run_alone hs i steps
  rw [alone_start] at hrun
  refine ⟨?_, ?_, ?_⟩
  · rintro _ rfl
    exact hrun
  · intro s hs'
    have halone := hs'.alone hs i
    rw [alone_start, alone, hs'.engine] at halone
    exact halone
  · rintro _ _ rfl rfl
    obtain ⟨hanswers, hbreakdown⟩ := (counted_start e 0).run hs steps
    -- together no more than identities are different, and alone it does not matter who counts
    rw [← hanswers.length_eq]
    have halone : ∀ taken, (start e).runFrom 0 ((start e).stepsFor i taken) =
        (start e).run ((start e).stepsFor i taken) :=
      fun taken => runFrom_nextIdentity hs fun st => target_of_mem_stepsFor
    rw [halone, hrun]
    exact resultFor_renamed hanswers hbreakdown

/-- A function that is made in one context, and another one in a context that is made after that.
Alone, the second one is the first to be counted. -/
theorem contexts_apart_two :
    let e := Engine.ofConfig {}
    let steps : List Step :=
      [⟨.current, .evaluate (.define "f" (.function "f" 0 (.literal .nil)))⟩,
        ⟨.fresh, .evaluate (.function "g" 0 (.global "f" ⟨1, 1⟩))⟩,
        ⟨.slot 0, .evaluate (.global "g" ⟨2, 1⟩)⟩]
    (∃ s, (start e).Takes steps s ∧
      (start e).Takes ((start e).stepsFor 1 steps) ⟨e, [s.slotAt 1], 0⟩) ∧
    List.Forall₂ Answer.Renamed ((start e).runFrom 0 ((start e).stepsFor 1 steps)).1
      ((start e).resultFor 1 steps ((start e).runFrom 0 steps)).1 ∧
    ((start e).runFrom 0 ((start e).stepsFor 1 steps)).1.map Answer.reply =
      [.value (.function ⟨"g", 0, .global "f" ⟨1, 1⟩, .empty, 0⟩)] ∧
    ((start e).resultFor 1 steps ((start e).runFrom 0 steps)).1.map Answer.reply =
      [.value (.function ⟨"g", 0, .global "f" ⟨1, 1⟩, .empty, 1⟩)] := by
  intro e steps
  obtain ⟨-, htakes, hshared⟩ := contexts_apart e steps 1
  have hsteps : ∃ s, (start e).Takes steps s :=
    ⟨_, .cons rfl (.cons rfl (.cons rfl (.nil _)))⟩
  obtain ⟨s, hs⟩ := hsteps
  -- no step breaks down, so that all of them count
  have htaken : steps.take (((start e).runFrom 0 steps).1.length + 1) = steps := rfl
  have hsame := (hshared _ _ rfl rfl).1
  rw [htaken] at hsame
  refine ⟨⟨s, hs, htakes s hs⟩, hsame, ?_, ?_⟩
  · rfl
  · rfl

end Session
end TracedEval
