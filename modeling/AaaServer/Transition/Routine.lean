import AaaServer.Transition.Run
import Mathlib.Logic.Function.Basic

namespace transition

variable {Table Error : Type}

/-- A routine between its statements. It has ended, perhaps with an error, or it
    goes on with a statement. What comes after the statement depends on what the
    statement has read in the table. -/
inductive Routine (Table Error : Type) where
  | ended (error : Option Error)
  | statement (effect : Table → Table) (next : Table → Routine Table Error)

namespace Routine

/-- The statements of a routine one after the other. -/
def run : Routine Table Error → Table → Table × Option Error
  | ended error, table => (table, error)
  | statement effect next, table => (next table).run (effect table)

/-- The same where some of the statements, by their numbers, fail. Such a
    statement changes nothing and ends the routine. -/
def interrupted (fails : Nat → Bool) (error : Error) : Nat → Routine Table Error → Table → Table × Option Error
  | _, ended error, table => (table, error)
  | number, statement effect next, table =>
    if fails number then (table, some error)
    else interrupted fails error (number + 1) (next table) (effect table)

variable {fails : Nat → Bool} {error : Error} {number : Nat}

theorem interrupted_eq_run (hquiet : ∀ n, fails n = false) (routine : Routine Table Error) (table : Table) :
    routine.interrupted fails error number table = routine.run table := by
  induction routine generalizing number table with
  | ended error => rfl
  | statement effect next ih =>
    rw [interrupted, hquiet, if_neg Bool.false_ne_true, run]
    exact ih table (effect table)

/-- Nothing of a routine is done that begins with a statement that fails. -/
theorem interrupted_first (hfails : fails number) (effect : Table → Table) (next : Table → Routine Table Error)
    (table : Table) : (statement effect next).interrupted fails error number table = (table, some error) :=
  if_pos hfails

end Routine

/-- Executions of one routine that share a table. An execution has nothing to go
    on with before its first statement. -/
structure Executions (Table Error : Type) where
  table : Table
  routine : Nat → Option (Routine Table Error)

namespace Executions

/-- An execution that has not begun or has ended. -/
def Idle : Option (Routine Table Error) → Prop
  | none | some (.ended _) => True
  | some (.statement _ _) => False

instance (routine : Option (Routine Table Error)) : Decidable (Idle routine) :=
  match routine with
  | none | some (.ended _) => .isTrue trivial
  | some (.statement _ _) => .isFalse id

/-- The next statement of an execution. -/
def step (whole : Routine Table Error) (state : Executions Table Error) (execution : Nat) :
    Executions Table Error :=
  match (state.routine execution).getD whole with
  | .ended error => { state with routine := Function.update state.routine execution (some (.ended error)) }
  | .statement effect next =>
    { table := effect state.table
      routine := Function.update state.routine execution (some (next state.table)) }

/-- The execution that has begun last. -/
def latest (history : History (Executions Table Error) Nat) : Option Nat :=
  (history.reverse.find? fun entry => (entry.1.routine entry.2).isNone).map Prod.snd

theorem latest_concat (history : History (Executions Table Error) Nat) (state : Executions Table Error)
    (execution : Nat) : latest (history ++ [(state, execution)]) =
      if (state.routine execution).isNone then some execution else latest history := by
  rw [latest, List.reverse_append, List.reverse_singleton, List.singleton_append, List.find?_cons]
  split <;> rename_i hbegins <;> simp [hbegins, latest]

/-- The step begins an execution, or goes on with the one that has begun last, or
    leaves the table as it is. -/
def Harmless (whole : Routine Table Error) (history : History (Executions Table Error) Nat)
    (state : Executions Table Error) (execution : Nat) : Prop :=
  state.routine execution = none ∨ latest history = some execution ∨
    (state.step whole execution).table = state.table

variable {whole : Routine Table Error} {history : History (Executions Table Error) Nat}
  {state : Executions Table Error} {execution : Nat} {final : Table}

/-- What the latest execution goes on with leads to the final table. -/
structure Leading (final : Table) (history : History (Executions Table Error) Nat)
    (state : Executions Table Error) (execution : Nat) (routine : Routine Table Error) : Prop where
  latest : latest history = some execution
  current : state.routine execution = some routine
  final : (routine.run state.table).1 = final

/-- A step of the latest execution, which may be its first one. -/
theorem step_leading {routine : Routine Table Error}
    (hlatest : latest (history ++ [(state, execution)]) = some execution)
    (hroutine : (state.routine execution).getD whole = routine) (hfinal : (routine.run state.table).1 = final) :
    ∃ rest, Leading final (history ++ [(state, execution)]) (state.step whole execution) execution rest := by
  cases routine with
  | ended error =>
    refine ⟨.ended error, hlatest, ?_, ?_⟩ <;> rw [step, hroutine]
    · exact Function.update_self ..
    · exact hfinal
  | statement effect next =>
    refine ⟨next state.table, hlatest, ?_, ?_⟩ <;> rw [step, hroutine]
    · exact Function.update_self ..
    · exact hfinal

theorem step_other {other : Nat} (hother : other ≠ execution) :
    (state.step whole execution).routine other = state.routine other := by
  rw [step]
  split <;> exact Function.update_of_ne hother _ _

/-- An execution that no step is for has not begun. -/
theorem replay_untouched {schedule : List Nat} (hnever : execution ∉ schedule) {previous : Table} :
    (∀ entry ∈ (replay (step whole) ⟨previous, fun _ => none⟩ schedule).1, entry.1.routine execution = none) ∧
      (replay (step whole) ⟨previous, fun _ => none⟩ schedule).2.routine execution = none := by
  induction schedule using List.reverseRecOn with
  | nil => exact ⟨by simp [replay], rfl⟩
  | append_singleton schedule other ih =>
    rw [List.mem_append, List.mem_singleton, not_or] at hnever
    obtain ⟨hhistory, hstate⟩ := ih hnever.1
    simp only [replay, List.foldl_append, List.foldl_cons, List.foldl_nil] at hhistory hstate ⊢
    refine ⟨fun entry hentry => ?_, ?_⟩
    · rcases List.mem_append.mp hentry with hold | hlast
      · exact hhistory entry hold
      · rw [List.mem_singleton.mp hlast]
        exact hstate
    · rw [step_other hnever.2]
      exact hstate

/-- A routine that starts afresh, and whose earlier executions leave the table alone
    once a later one has begun: when all that began have ended, the table is what a
    single execution leaves. -/
theorem latest_wins {previous : Table}
    (hafresh : ∀ table, (whole.run table).1 = final)
    (hrun : Run (step whole) (Harmless whole) ⟨previous, fun _ => none⟩ history state)
    (hidle : ∀ execution, Idle (state.routine execution)) (hbegun : ∃ execution, state.routine execution ≠ none) :
    state.table = final := by
  have hinv : (∀ execution, state.routine execution = none) ∨
      ∃ execution routine, Leading final history state execution routine := by
    refine hrun.invariant (fun history state => (∀ execution, state.routine execution = none) ∨
      ∃ execution routine, Leading final history state execution routine) (.inl fun _ => rfl) ?_
    intro history state execution hinv hharmless
    have hconcat := latest_concat history state execution
    cases hbegins : state.routine execution with
    | none =>
      rw [hbegins, Option.isNone_none, if_pos rfl] at hconcat
      exact .inr ⟨execution, step_leading hconcat rfl (by rw [hbegins]; exact hafresh _)⟩
    | some going =>
      rw [hbegins, Option.isNone_some, if_neg Bool.false_ne_true] at hconcat
      obtain ⟨leader, routine, hleading⟩ := hinv.resolve_left fun hnone => by
        rw [hnone execution] at hbegins
        cases hbegins
      by_cases hsame : execution = leader
      · subst hsame
        refine .inr ⟨execution, step_leading (hconcat.trans hleading.latest) rfl ?_⟩
        rw [hleading.current]
        exact hleading.final
      · -- An earlier execution leaves the table, and what the leader goes on with, as they are.
        have htable : (state.step whole execution).table = state.table := by
          obtain hnone | hlast | htable := hharmless
          · rw [hbegins] at hnone
            cases hnone
          · exact absurd (Option.some.inj (hlast.symm.trans hleading.latest)) hsame
          · exact htable
        refine .inr ⟨leader, routine, hconcat.trans hleading.latest, ?_, ?_⟩
        · rw [step_other (Ne.symm hsame)]
          exact hleading.current
        · rw [htable]
          exact hleading.final
  rcases hinv with hnone | ⟨execution, routine, hleading⟩
  · obtain ⟨execution, hbegun⟩ := hbegun
    exact absurd (hnone execution) hbegun
  · have hended := hidle execution
    rw [hleading.current] at hended
    cases routine with
    | ended error => exact hleading.final
    | statement effect next => exact hended.elim

end Executions

end transition
