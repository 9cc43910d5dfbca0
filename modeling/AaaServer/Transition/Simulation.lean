import Mathlib.Data.List.Basic

namespace transition

variable {Abstract Concrete Event : Type} {next : Abstract → Event → Option Abstract}
  {step : Concrete → Event → Concrete} {relation : Abstract → Concrete → Prop} {valid : Event → Prop}

/-- The forward simulation rule: when every valid event that the abstract
    machine accepts keeps the two machines related, so does every sequence. -/
theorem simulation (hstep : ∀ abstract concrete event abstract', relation abstract concrete →
      valid event → next abstract event = some abstract' → relation abstract' (step concrete event))
    {events : List Event} {abstract abstract' : Abstract} {concrete : Concrete}
    (hrelated : relation abstract concrete) (hvalid : ∀ event ∈ events, valid event)
    (haccepted : events.foldlM next abstract = some abstract') :
    relation abstract' (events.foldl step concrete) := by
  induction events generalizing abstract concrete with
  | nil =>
    simp only [List.foldlM_nil, Option.pure_def, Option.some.injEq] at haccepted
    rwa [← haccepted]
  | cons event events ih =>
    simp only [List.foldlM_cons, Option.bind_eq_bind, Option.bind_eq_some_iff] at haccepted
    obtain ⟨middle, hfirst, hrest⟩ := haccepted
    refine ih (hstep _ _ _ _ hrelated (hvalid event (by simp)) hfirst) ?_ hrest
    exact fun other hother => hvalid other (by simp [hother])

end transition
