import AaaServer.Statistics.Statements
import AaaServer.Statistics.RollUp

open sql transition

namespace aaa_server

variable {server : StatisticServer} {tables : StatisticTables} {arrange : List Text → List Text}

/-- The requests for statistics that a database serves, each of which calls the
    procedure. -/
abbrev StatisticRequests := Executions (List NodeStatistic) SqlError

/-- Before the first request. -/
def StatisticTables.requests (tables : StatisticTables) : StatisticRequests where
  table := tables.node_statistic
  routine _ := none

/-- Requests agree as long as none of them changes the table once a later one has
    begun, that is has executed its `DELETE`: when all have ended, the table holds
    what a single call leaves. -/
theorem node_statistic_agrees {history : History StatisticRequests Nat} {state : StatisticRequests}
    (hrun : Run (Executions.step (statements.make_node_statistic server tables 11 arrange))
      (Executions.Harmless (statements.make_node_statistic server tables 11 arrange)) tables.requests history state)
    (hended : ∀ request, Executions.Idle (state.routine request))
    (hbegun : ∃ request, state.routine request ≠ none) :
    state.table = ((statements.make_node_statistic server tables 11 arrange).run tables.node_statistic).1 :=
  Executions.latest_wins (fun _ => rfl) hrun hended hbegun

/-- Of two requests that are served, no other one has begun. -/
theorem ended_of_two {whole : StatisticRoutine} {schedule : List Nat} (htwo : ∀ request ∈ schedule, request < 2)
    (hended : ∀ request < 2, Executions.Idle
      ((replay (Executions.step whole) tables.requests schedule).2.routine request)) (request : Nat) :
    Executions.Idle ((replay (Executions.step whole) tables.requests schedule).2.routine request) := by
  by_cases hlow : request < 2
  · exact hended request hlow
  · rw [StatisticTables.requests, (Executions.replay_untouched fun hmem => hlow (htwo request hmem)).2]
    trivial

/-- A department with a realm, and who is online in it. -/
def department : StatisticTables where
  sidebar_tree := [{ id := "physics".toList, type := some 0 }]
  realm := [⟨"@phy".toList, "physics".toList⟩]
  online_user := [
    { radacctid := 1, username := "ann@phy".toList, realm := "@phy".toList, callingstationid := "s1".toList }]

/-- A request for the statistics of the department, in six statements. -/
def department_request : StatisticRoutine :=
  statements.make_node_statistic { col := Collation.ascii_ci, same_collation := true } department 11 id

/-- The second request empties the table when the first one has only to read. -/
def behind_the_first : List Nat := [0, 0, 1] ++ List.replicate 4 0 ++ List.replicate 5 1

theorem department_agrees :
    (replay (Executions.step department_request) department.requests behind_the_first).2.table =
      (department_request.run department.node_statistic).1 := by
  have hharmless : ∀ (number : Nat) (hnumber : number < behind_the_first.length),
      let run := replay (Executions.step department_request) department.requests (behind_the_first.take number)
      Executions.Harmless department_request run.1 run.2 behind_the_first[number] := by
    have hsteps : ∀ number < behind_the_first.length,
        let run := replay (Executions.step department_request) department.requests (behind_the_first.take number)
        let request := (behind_the_first[number]?).getD 0
        (run.2.routine request).isNone = true ∨ Executions.latest run.1 = some request ∨
          (run.2.step department_request request).table = run.2.table := by
      decide +kernel
    intro number hnumber
    have hstep := hsteps number hnumber
    rw [List.getElem?_eq_getElem hnumber] at hstep
    exact hstep.imp_left Option.isNone_iff_eq_none.mp
  have hended : ∀ request < 2, Executions.Idle ((replay (Executions.step department_request) department.requests
      behind_the_first).2.routine request) := by decide +kernel
  have hbegun : ((replay (Executions.step department_request) department.requests behind_the_first).2.routine
      0).isSome := by decide +kernel
  exact @node_statistic_agrees { col := Collation.ascii_ci, same_collation := true } department id _ _
    (Run.replay_take behind_the_first hharmless)
    (@ended_of_two department department_request behind_the_first (by decide) hended)
    ⟨0, Option.isSome_iff_ne_none.mp hbegun⟩

/-- Both requests empty the table before either fills it. -/
def side_by_side : List Nat := [0, 1] ++ List.replicate 5 0 ++ List.replicate 5 1

/-- The figures of two requests that overlap add up. -/
theorem overlapping_requests_add_up :
    let state := (replay (Executions.step department_request) department.requests side_by_side).2
    (∀ request, Executions.Idle (state.routine request)) ∧ state.table = [⟨"physics".toList, 0, 2, 2⟩] ∧
      (department_request.run department.node_statistic).1 = [⟨"physics".toList, 0, 1, 1⟩] :=
  ⟨@ended_of_two department department_request side_by_side (by decide) (by decide +kernel), by decide +kernel,
    by decide +kernel⟩

end aaa_server
