import AaaServer.Unlang.Evaluate

namespace unlang

variable {Request : Type} {A : Actions} {default best : Rcode} {request : Request}
  {was_if if_taken was_if' if_taken' : Bool}

mutual

/-- A policy or group becomes its statements. -/
def Modcallable.inlined : Modcallable Request → List (Modcallable Request)
  | .MOD_SINGLE actions method => [.MOD_SINGLE actions method]
  | .MOD_UPDATE actions map => [.MOD_UPDATE actions map]
  | .MOD_GROUP _ children => inline children
  | .MOD_IF actions cond children => [.MOD_IF actions cond (inline children)]
  | .MOD_ELSIF actions cond children => [.MOD_ELSIF actions cond (inline children)]
  | .MOD_ELSE actions children => [.MOD_ELSE actions (inline children)]
  | .MOD_RETURN => [.MOD_RETURN]

/-- The section without policies and groups. -/
def inline : List (Modcallable Request) → List (Modcallable Request)
  | [] => []
  | c :: siblings => c.inlined ++ inline siblings

end

/-- An `elsif` or `else` may follow. -/
def Modcallable.opens : Modcallable Request → Bool
  | .MOD_IF _ _ _ | .MOD_ELSIF _ _ _ => true
  | _ => false

/-- The statement goes on with the `if` before it. -/
def Modcallable.continues : Modcallable Request → Bool
  | .MOD_ELSIF _ _ _ | .MOD_ELSE _ _ => true
  | _ => false

mutual

/-- Every `elsif` and `else` has its `if` right before it, as
    `do_compile_modgroup` demands. -/
def Modcallable.Placed : Modcallable Request → Prop
  | .MOD_SINGLE _ _ | .MOD_UPDATE _ _ | .MOD_RETURN => True
  | .MOD_GROUP _ children | .MOD_IF _ _ children | .MOD_ELSIF _ _ children | .MOD_ELSE _ children =>
    AllPlaced false children

def AllPlaced : Bool → List (Modcallable Request) → Prop
  | _, [] => True
  | after_if, c :: siblings => (c.continues → after_if) ∧ c.Placed ∧ AllPlaced c.opens siblings

end

mutual

theorem Modcallable.uniforms_inlined : ∀ c : Modcallable Request, c.Uniform A → Uniforms A c.inlined
  | .MOD_SINGLE _ _, huniform | .MOD_UPDATE _ _, huniform => ⟨huniform, trivial⟩
  | .MOD_GROUP _ children, huniform => uniforms_inline children huniform.2
  | .MOD_IF _ _ children, huniform | .MOD_ELSIF _ _ children, huniform =>
    ⟨⟨huniform.1, huniform.2.1, uniforms_inline children huniform.2.2⟩, trivial⟩
  | .MOD_ELSE _ children, huniform => ⟨⟨huniform.1, uniforms_inline children huniform.2⟩, trivial⟩
  | .MOD_RETURN, _ => ⟨trivial, trivial⟩

theorem uniforms_inline : ∀ siblings : List (Modcallable Request), Uniforms A siblings → Uniforms A (inline siblings)
  | [], _ => trivial
  | c :: siblings, huniform => by
    have hone := c.uniforms_inlined huniform.1
    have hsiblings := uniforms_inline siblings huniform.2
    rw [inline]
    generalize c.inlined = first at hone
    induction first with
    | nil => exact hsiblings
    | cons _ _ ih => exact ⟨hone.1, ih hone.2⟩

end

theorem evaluate_singleton (c : Modcallable Request) :
    evaluate A [c] was_if if_taken best request = evaluate_one A c was_if if_taken best request := by
  rw [evaluate]
  cases evaluate_one A c was_if if_taken best request <;> rfl

theorem evaluate_append (first second : List (Modcallable Request)) :
    evaluate A (first ++ second) was_if if_taken best request =
      (evaluate A first was_if if_taken best request).after (evaluate A second) := by
  induction first generalizing was_if if_taken best request with
  | nil => rfl
  | cons c first ih =>
    rw [List.cons_append, evaluate, evaluate]
    cases evaluate_one A c was_if if_taken best request with
    | going => exact ih
    | returned | stopped => rfl

@[simp] theorem Outcome.leave_leave (outcome : Outcome Request) :
    (outcome.leave was_if if_taken).leave was_if' if_taken' = outcome.leave was_if' if_taken' := by
  cases outcome <;> rfl

/-- Outcomes that differ at most in what an `else` after them would see, and not
    even there where one may follow. -/
def Outcome.Same (opens : Bool) (outcome outcome' : Outcome Request) : Prop :=
  outcome.leave false false = outcome'.leave false false ∧ (opens → outcome = outcome')

theorem Outcome.Same.of_eq {opens : Bool} {outcome outcome' : Outcome Request} (heq : outcome = outcome') :
    outcome.Same opens outcome' := ⟨heq ▸ rfl, fun _ => heq⟩

theorem Outcome.leave_eq {outcome outcome' : Outcome Request}
    (heq : outcome.leave false false = outcome'.leave false false) :
    outcome.leave was_if if_taken = outcome'.leave was_if if_taken := by
  rw [← outcome.leave_leave, heq, leave_leave]

/-- The statements after two such outcomes. -/
theorem Outcome.Same.siblings {opens : Bool} {outcome outcome' : Outcome Request}
    {first second : List (Modcallable Request)} (hsame : outcome.Same opens outcome')
    (hsiblings : ∀ was_if if_taken was_if' if_taken' best request,
      (opens → was_if = was_if' ∧ if_taken = if_taken') →
      (evaluate A first was_if if_taken best request).leave false false =
        (evaluate A second was_if' if_taken' best request).leave false false) :
    (outcome.after (evaluate A first)).leave false false = (outcome'.after (evaluate A second)).leave false false := by
  obtain ⟨hleave, heq⟩ := hsame
  cases outcome with
  | going was_if if_taken best request =>
    cases outcome' with
    | going was_if' if_taken' best' request' =>
      simp only [leave, going.injEq, true_and] at hleave
      obtain ⟨rfl, rfl⟩ := hleave
      exact hsiblings _ _ _ _ _ _ fun hopens => by
        simp only [going.injEq, and_true] at heq
        exact heq hopens
    | returned | stopped => simp [leave] at hleave
  | returned best request =>
    cases outcome' with
    | returned => exact hleave
    | going | stopped => simp [leave] at hleave
  | stopped result request =>
    cases outcome' with
    | stopped => exact hleave
    | going | returned => simp [leave] at hleave

mutual

theorem Modcallable.evaluate_inlined : ∀ (c : Modcallable Request) (was_if if_taken was_if' if_taken' : Bool)
    (best : Rcode) (request : Request), c.Placed → (c.continues → was_if = was_if' ∧ if_taken = if_taken') →
    (evaluate_one A c was_if if_taken best request).Same c.opens
      (evaluate A c.inlined was_if' if_taken' best request)
  | .MOD_SINGLE _ _, _, _, _, _, _, _, _, _ | .MOD_UPDATE _ _, _, _, _, _, _, _, _, _ | .MOD_RETURN, _, _, _, _, _, _, _, _ =>
    .of_eq (evaluate_singleton _).symm
  | .MOD_GROUP _ children, _, _, was_if', if_taken', best, request, hplaced, _ => by
    have hchildren := evaluate_inline children false false was_if' if_taken' best request false hplaced nofun
    exact ⟨by rw [evaluate_one, Outcome.leave_leave]; exact hchildren, nofun⟩
  | .MOD_IF _ cond children, _, _, _, _, best, request, hplaced, _ => by
    have hchildren (request : Request) :=
      evaluate_inline children false false false false best request false hplaced nofun
    rw [Modcallable.inlined, evaluate_singleton]
    apply Outcome.Same.of_eq
    rw [evaluate_one, evaluate_one, Outcome.leave_eq (hchildren _)]
  | .MOD_ELSIF _ cond children, _, _, _, _, best, request, hplaced, hflags => by
    have hchildren (request : Request) :=
      evaluate_inline children false false false false best request false hplaced nofun
    obtain ⟨rfl, rfl⟩ := hflags rfl
    rw [Modcallable.inlined, evaluate_singleton]
    apply Outcome.Same.of_eq
    rw [evaluate_one, evaluate_one, Outcome.leave_eq (hchildren _)]
  | .MOD_ELSE _ children, _, _, _, _, best, request, hplaced, hflags => by
    have hchildren (request : Request) :=
      evaluate_inline children false false false false best request false hplaced nofun
    obtain ⟨rfl, rfl⟩ := hflags rfl
    rw [Modcallable.inlined, evaluate_singleton]
    apply Outcome.Same.of_eq
    rw [evaluate_one, evaluate_one, Outcome.leave_eq (hchildren _)]

theorem evaluate_inline : ∀ (siblings : List (Modcallable Request)) (was_if if_taken was_if' if_taken' : Bool)
    (best : Rcode) (request : Request) (after_if : Bool), AllPlaced after_if siblings →
    (after_if → was_if = was_if' ∧ if_taken = if_taken') →
    (evaluate A siblings was_if if_taken best request).leave false false =
      (evaluate A (inline siblings) was_if' if_taken' best request).leave false false
  | [], _, _, _, _, _, _, _, _, _ => rfl
  | c :: siblings, was_if, if_taken, was_if', if_taken', best, request, _, ⟨hcontinues, hone, hsiblings⟩, hflags => by
    have hsame := c.evaluate_inlined was_if if_taken was_if' if_taken' best request hone
      fun h => hflags (hcontinues h)
    rw [evaluate, inline, evaluate_append]
    exact hsame.siblings fun was_if if_taken was_if' if_taken' best request =>
      evaluate_inline siblings was_if if_taken was_if' if_taken' best request c.opens hsiblings

end

end unlang
