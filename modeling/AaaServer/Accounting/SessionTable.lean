import AaaServer.Accounting.Quota

open sql

namespace aaa_server

/-- The counters of a session. -/
structure Counters where
  input : Nat
  output : Nat
  seconds : Option Int
  deriving DecidableEq

/-- What the counters use of a quota. -/
def Counters.usage : Quota → Counters → Int
  | .bytes, counters => counters.input + counters.output
  | .seconds, counters => counters.seconds.getD 0

/-- What a packet of a session means to the abstract session machine. -/
inductive SessionEvent where
  | start
  | interim_update (counters : Counters)
  | stop (counters : Counters)

/-- The abstract session machine: the sessions that have started and not yet
    stopped, each with its latest counters, and those that have stopped, in the
    order of their Stops. -/
structure SessionTable (ι : Type) where
  active : List (ι × Counters) := []
  stopped : List (ι × Counters) := []
  deriving DecidableEq

variable {ι : Type} [DecidableEq ι]

/-- A session starts once, and then reports until it stops. -/
def SessionTable.next (sessions : SessionTable ι) (i : ι) : SessionEvent → Option (SessionTable ι)
  | .start =>
    if i ∈ sessions.active.map Prod.fst ∨ i ∈ sessions.stopped.map Prod.fst then none
    else some { sessions with active := sessions.active ++ [(i, ⟨0, 0, some 0⟩)] }
  | .interim_update counters =>
    if i ∈ sessions.active.map Prod.fst then some { sessions with
      active := sessions.active.map fun entry => if entry.1 = i then (i, counters) else entry }
    else none
  | .stop counters =>
    if i ∈ sessions.active.map Prod.fst then some {
      active := sessions.active.filter fun entry => entry.1 ≠ i
      stopped := sessions.stopped ++ [(i, counters)] }
    else none

/-- No session is listed twice. -/
def SessionTable.Distinct (sessions : SessionTable ι) : Prop :=
  ((sessions.active ++ sessions.stopped).map Prod.fst).Nodup

theorem SessionTable.distinct_of_next {sessions sessions' : SessionTable ι} {i : ι} {event : SessionEvent}
    (hdistinct : sessions.Distinct) (hnext : sessions.next i event = some sessions') :
    sessions'.Distinct := by
  unfold SessionTable.Distinct at hdistinct ⊢
  cases event with
  | start =>
    simp only [SessionTable.next, Option.ite_none_left_eq_some, not_or, Option.some.injEq] at hnext
    obtain ⟨⟨hactive, hstopped⟩, rfl⟩ := hnext
    have hperm : ((sessions.active ++ [(i, (⟨0, 0, some 0⟩ : Counters))] ++ sessions.stopped).map
        Prod.fst).Perm (i :: (sessions.active ++ sessions.stopped).map Prod.fst) := by
      simp only [List.map_append, List.map_cons, List.map_nil, List.append_assoc]
      exact List.perm_middle
    refine hperm.nodup_iff.mpr (List.nodup_cons.mpr ⟨?_, hdistinct⟩)
    rw [List.map_append, List.mem_append]
    exact fun h => h.elim hactive hstopped
  | interim_update counters =>
    simp only [SessionTable.next, Option.ite_none_right_eq_some, Option.some.injEq] at hnext
    obtain ⟨_, rfl⟩ := hnext
    have hkeys : (sessions.active.map fun entry => if entry.1 = i then (i, counters) else entry).map
        Prod.fst = sessions.active.map Prod.fst := by
      rw [List.map_map]
      refine List.map_congr_left fun entry _ => ?_
      simp only [Function.comp_apply]
      split
      · rename_i h
        exact h.symm
      · rfl
    rw [List.map_append, hkeys, ← List.map_append]
    exact hdistinct
  | stop counters =>
    simp only [SessionTable.next, Option.ite_none_right_eq_some, Option.some.injEq] at hnext
    obtain ⟨hactive, rfl⟩ := hnext
    simp only [List.map_append, List.map_cons, List.map_nil] at hdistinct ⊢
    rw [← List.append_assoc]
    obtain ⟨hnodup, hstopped, hdisjoint⟩ := List.nodup_append.mp hdistinct
    refine List.nodup_append.mpr ⟨?_, by simp, ?_⟩
    · exact hdistinct.sublist ((List.filter_sublist.map _).append_right _)
    · intro a ha b hb heq
      rw [List.mem_singleton] at hb
      rw [heq, hb, List.mem_append] at ha
      rcases ha with hkept | hstopped
      · obtain ⟨entry, hentry, hi⟩ := List.mem_map.mp hkept
        simp [hi] at hentry
      · exact hdisjoint i hactive i hstopped rfl

/-- A balance after a series of usages: each is subtracted if the quota is still positive. -/
def spend (balance : Int) (usages : List Int) : Int :=
  usages.foldl (fun balance usage => if 0 < balance then balance - usage else balance) balance

theorem spend_append_singleton (balance usage : Int) (usages : List Int) :
    spend balance (usages ++ [usage]) = deduct (spend balance usages) (some usage) := by
  rw [spend, List.foldl_append]
  rfl

end aaa_server
