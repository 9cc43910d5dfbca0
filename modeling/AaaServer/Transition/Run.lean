import Mathlib.Data.List.Induction

namespace transition

/-- The steps of a run, oldest first. Each entry is the state a step started
    from and the action it took. -/
abbrev History (State Action : Type) := List (State × Action)

/-- The runs of a deterministic machine in which every step meets a condition
    on the history so far, the state before the step and the action. A prefix
    of a run is a run, so a property of every run holds in every state that a
    run reaches. -/
inductive Run {State Action : Type} (step : State → Action → State)
    (cond : History State Action → State → Action → Prop) (start : State) :
    History State Action → State → Prop where
  | nil : Run step cond start [] start
  | snoc {history : History State Action} {state : State} (action : Action)
      (hrun : Run step cond start history state) (hcond : cond history state action) :
      Run step cond start (history ++ [(state, action)]) (step state action)

variable {State Action : Type} {step : State → Action → State}
  {cond cond' : History State Action → State → Action → Prop} {start state : State}
  {history : History State Action}

/-- The invariant rule: what holds at the start and is preserved by every step
    that meets the condition holds at the end of every run. -/
theorem Run.invariant (hrun : Run step cond start history state)
    (inv : History State Action → State → Prop) (hstart : inv [] start)
    (hstep : ∀ history state action, inv history state → cond history state action →
      inv (history ++ [(state, action)]) (step state action)) :
    inv history state := by
  induction hrun with
  | nil => exact hstart
  | snoc action _ hcond ih => exact hstep _ _ action ih hcond

/-- A run under a condition is a run under any weaker one. -/
theorem Run.mono (hrun : Run step cond start history state)
    (hweak : ∀ history state action, cond history state action → cond' history state action) :
    Run step cond' start history state := by
  induction hrun with
  | nil => exact .nil
  | snoc action _ hcond ih => exact .snoc action ih (hweak _ _ _ hcond)

/-- Every step of a run has met the condition. -/
theorem Run.cond_of_mem {cond : State → Action → Prop} {entry : State × Action}
    (hrun : Run step (fun _ => cond) start history state) (hmem : entry ∈ history) : cond entry.1 entry.2 := by
  induction hrun with
  | nil => cases hmem
  | snoc action _ hcond ih =>
    rw [List.mem_append, List.mem_singleton] at hmem
    obtain hmem | rfl := hmem
    · exact ih hmem
    · exact hcond

/-- The run that takes the given actions one after the other. -/
def replay (step : State → Action → State) (start : State) (actions : List Action) :
    History State Action × State :=
  actions.foldl (fun run action => (run.1 ++ [(run.2, action)], step run.2 action)) ([], start)

/-- It is a run when every step of it meets the condition. -/
theorem Run.replay {cond : State → Action → Prop} (actions : List Action)
    (hcond : ∀ entry ∈ (replay step start actions).1, cond entry.1 entry.2) :
    Run step (fun _ => cond) start (replay step start actions).1 (replay step start actions).2 := by
  induction actions using List.reverseRecOn with
  | nil => exact .nil
  | append_singleton actions action ih =>
    simp only [transition.replay, List.foldl_append, List.foldl_cons, List.foldl_nil] at hcond ih ⊢
    refine .snoc action (ih fun entry hentry => hcond entry (by simp [hentry])) ?_
    exact hcond (_, action) (List.mem_append_right _ (List.mem_singleton_self _))

/-- The same for a condition on the history. -/
theorem Run.replay_take (actions : List Action)
    (hcond : ∀ (number : Nat) (hnumber : number < actions.length),
      cond (transition.replay step start (actions.take number)).1
        (transition.replay step start (actions.take number)).2 actions[number]) :
    Run step cond start (transition.replay step start actions).1 (transition.replay step start actions).2 := by
  induction actions using List.reverseRecOn with
  | nil => exact .nil
  | append_singleton actions action ih =>
    have hlast := hcond actions.length (by rw [List.length_append]; exact Nat.lt_succ_self _)
    rw [List.take_left, List.getElem_concat_length rfl] at hlast
    have hrun := ih fun number hnumber => by
      have hbefore := hcond number (by rw [List.length_append]; omega)
      rwa [List.take_append_of_le_length (Nat.le_of_lt hnumber), List.getElem_append_left hnumber] at hbefore
    simp only [transition.replay, List.foldl_append, List.foldl_cons, List.foldl_nil] at hrun hlast ⊢
    exact .snoc action hrun hlast

end transition
