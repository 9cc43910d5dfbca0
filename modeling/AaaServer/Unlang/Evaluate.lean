import AaaServer.Unlang.Modcall
import Mathlib.Tactic.Common

namespace unlang

variable {Request : Type} {A : Actions} {default base start best result : Rcode} {entry : StackEntry}
  {locals : Locals} {request : Request} {was_if if_taken : Bool}

/-- The priority of a result, zero for one that ends the section. -/
def Actions.weight (A : Actions) (rcode : Rcode) : Nat :=
  match A.action rcode with
  | .priority value => value
  | .MOD_ACTION_RETURN | .MOD_ACTION_REJECT => 0

theorem Actions.weight_of_priority {rcode : Rcode} {value : Nat} (haction : A.action rcode = .priority value) :
    A.weight rcode = value ∧ 0 < value := by
  refine ⟨?_, A.positive haction⟩
  rw [weight, haction]

theorem Actions.action_of_weight_pos {rcode : Rcode} (hpos : 0 < A.weight rcode) :
    A.action rcode = .priority (A.weight rcode) := by
  unfold weight at hpos ⊢
  cases haction : A.action rcode with
  | priority value => rfl
  | MOD_ACTION_RETURN | MOD_ACTION_REJECT => simp [haction] at hpos

/-- The better of two results. The first one is kept where they are equally good. -/
def Actions.better (A : Actions) (first second : Rcode) : Rcode :=
  if A.weight first < A.weight second then second else first

theorem Actions.better_of_lt {first second : Rcode} (hlt : A.weight first < A.weight second) :
    A.better first second = second := if_pos hlt

theorem Actions.better_of_not_lt {first second : Rcode} (hlt : ¬ A.weight first < A.weight second) :
    A.better first second = first := if_neg hlt

theorem Actions.better_assoc (first second third : Rcode) :
    A.better (A.better first second) third = A.better first (A.better second third) := by
  by_cases hfirst : A.weight first < A.weight second
  · rw [better_of_lt hfirst]
    by_cases hsecond : A.weight second < A.weight third
    · rw [better_of_lt hsecond, better_of_lt (Nat.lt_trans hfirst hsecond)]
    · rw [better_of_not_lt hsecond, better_of_lt hfirst]
  · rw [better_of_not_lt hfirst]
    by_cases hsecond : A.weight second < A.weight third
    · rw [better_of_lt hsecond]
    · rw [better_of_not_lt hsecond, better_of_not_lt hfirst, better_of_not_lt (by omega)]

theorem Actions.better_self_right (first second : Rcode) :
    A.better (A.better first second) second = A.better first second := by
  rw [better_assoc, better_of_not_lt (Nat.lt_irrefl (A.weight second))]

/-- What remains of a section after a statement: the best result so far, the
    result of a `return`, or the one that has ended the section. -/
inductive Outcome (Request : Type) where
  | going (was_if if_taken : Bool) (best : Rcode) (request : Request)
  | returned (best : Rcode) (request : Request)
  | stopped (result : Rcode) (request : Request)

/-- A result is weighed against the best one, or ends the section. -/
def weigh (A : Actions) (result : Rcode) (was_if if_taken : Bool) (best : Rcode) (request : Request) :
    Outcome Request :=
  match A.action result with
  | .MOD_ACTION_RETURN => .stopped result request
  | .MOD_ACTION_REJECT => .stopped .RLM_MODULE_REJECT request
  | .priority _ => .going was_if if_taken (A.better best result) request

/-- The statements after one, where it does not end the section. -/
def Outcome.after (outcome : Outcome Request) (next : Bool → Bool → Rcode → Request → Outcome Request) :
    Outcome Request :=
  match outcome with
  | .going was_if if_taken best request => next was_if if_taken best request
  | .returned best request => .returned best request
  | .stopped result request => .stopped result request

/-- The statements of a nested section count in the section around it. -/
def Outcome.leave (was_if if_taken : Bool) : Outcome Request → Outcome Request
  | .going _ _ best request => .going was_if if_taken best request
  | outcome => outcome

mutual

/-- What a statement means where all statements have the same actions: there is
    one best result, however deep the statements are nested. -/
def evaluate_one (A : Actions) : Modcallable Request → Bool → Bool → Rcode → Request → Outcome Request
  | .MOD_SINGLE _ method, _, _, best, request => weigh A (method request).1 false false best (method request).2
  | .MOD_UPDATE _ map, _, _, best, request => weigh A (map request).1 false false best (map request).2
  | .MOD_GROUP _ children, _, _, best, request => (evaluate A children false false best request).leave false false
  | .MOD_IF _ cond children, _, _, best, request =>
    if (cond best request).1 then (evaluate A children false false best (cond best request).2).leave true true
    else .going true false best (cond best request).2
  | .MOD_ELSIF _ cond children, was_if, if_taken, best, request =>
    if !was_if || if_taken then .going was_if if_taken best request
    else if (cond best request).1 then (evaluate A children false false best (cond best request).2).leave true true
    else .going true false best (cond best request).2
  | .MOD_ELSE _ children, was_if, if_taken, best, request =>
    if !was_if then .going was_if if_taken best request
    else if if_taken then .going false false best request
    else (evaluate A children false false best request).leave false false
  | .MOD_RETURN, _, _, best, request => .returned best request

def evaluate (A : Actions) : List (Modcallable Request) → Bool → Bool → Rcode → Request → Outcome Request
  | [], was_if, if_taken, best, request => .going was_if if_taken best request
  | c :: siblings, was_if, if_taken, best, request =>
    (evaluate_one A c was_if if_taken best request).after (evaluate A siblings)

end

/-- The result of a whole section. -/
def Outcome.outcome : Outcome Request → Rcode × Request
  | .going _ _ best request | .returned best request => (best, request)
  | .stopped result request => (result, request)

mutual

/-- All statements have the same actions, and no condition looks at the result of
    the statement before it. -/
def Modcallable.Uniform (A : Actions) : Modcallable Request → Prop
  | .MOD_SINGLE actions _ | .MOD_UPDATE actions _ => actions = A
  | .MOD_GROUP actions children | .MOD_ELSE actions children => actions = A ∧ Uniforms A children
  | .MOD_IF actions cond children | .MOD_ELSIF actions cond children =>
    actions = A ∧ (∀ rcode rcode' request, cond rcode request = cond rcode' request) ∧ Uniforms A children
  | .MOD_RETURN => True

def Uniforms (A : Actions) : List (Modcallable Request) → Prop
  | [] => True
  | c :: siblings => c.Uniform A ∧ Uniforms A siblings

end

/-- The entry of a section accounts for the best result so far: the section began
    with the result `start` when `base` was the best one. -/
structure StackEntry.Counts (A : Actions) (base start best : Rcode) (entry : StackEntry) : Prop where
  base_start : A.better base start = base
  ranked : entry.priority = A.weight entry.result ∨ entry.priority = 0 ∧ entry.result = start
  pos : 0 < A.weight entry.result
  best_eq : best = A.better base entry.result
  unwind : entry.unwind = false

/-- The state of `modcall_recurse` that stands for an outcome. -/
inductive Agrees (A : Actions) (base start : Rcode) : ModStep Request → Outcome Request → Prop where
  | going {locals : Locals} {entry : StackEntry} {best : Rcode} {request : Request}
      (hentry : entry.Counts A base start best) :
      Agrees A base start (.next_sibling locals entry request) (.going locals.was_if locals.if_taken best request)
  | returned {entry : StackEntry} {best : Rcode} {request : Request} (hentry : entry.Counts A base start best) :
      Agrees A base start (.finish { entry with unwind := true } request) (.returned best request)
  | stopped {entry : StackEntry} {request : Request} (hunwind : entry.unwind = false)
      (hresult : A.action entry.result = .MOD_ACTION_RETURN ∨ entry.result = .RLM_MODULE_REJECT) :
      Agrees A base start (.finish entry request) (.stopped entry.result request)

theorem StackEntry.remember_unwind (entry : StackEntry) (result : Rcode) (priority : Nat) (unwind : Bool) :
    StackEntry.remember { entry with unwind } result priority = { entry.remember result priority with unwind } := by
  unfold StackEntry.remember
  split <;> rfl

/-- What is remembered accounts for one more result. -/
theorem StackEntry.Counts.remember (hentry : entry.Counts A base start best) {value : Nat}
    (haction : A.action result = .priority value) :
    (entry.remember result value).Counts A base start (A.better best result) := by
  obtain ⟨hbase, hranked, hpos, hbest, hunwind⟩ := hentry
  obtain ⟨hweight, hvalue⟩ := A.weight_of_priority haction
  rw [StackEntry.remember]
  by_cases hlt : entry.priority < value
  · rw [if_pos hlt]
    refine ⟨hbase, .inl hweight.symm, hweight ▸ hvalue, ?_, hunwind⟩
    obtain hpriority | ⟨_, hstart⟩ := hranked
    · have hbetter : A.better entry.result result = result := A.better_of_lt (by omega)
      rw [hbest, A.better_assoc, hbetter]
    · rw [hbest, hstart, hbase]
  · rw [if_neg hlt]
    obtain hpriority | ⟨hzero, _⟩ := hranked
    · have hbetter : A.better entry.result result = entry.result := A.better_of_not_lt (by omega)
      refine ⟨hbase, .inl hpriority, hpos, ?_, hunwind⟩
      rw [hbest, A.better_assoc, hbetter]
    · omega

/-- The result of one statement, or of the statements in it. -/
theorem StackEntry.Counts.calculate_result (hentry : entry.Counts A base start best) :
    Agrees A base start (unlang.calculate_result A result locals entry request)
      (weigh A result locals.was_if locals.if_taken best request) := by
  rw [weigh]
  cases haction : A.action result with
  | MOD_ACTION_RETURN =>
    rw [calculate_result_of_return haction]
    exact .stopped hentry.unwind (.inl haction)
  | MOD_ACTION_REJECT =>
    rw [calculate_result_of_reject haction]
    exact .stopped hentry.unwind (.inr rfl)
  | priority value =>
    rw [calculate_result_of_priority haction, if_neg (by rw [hentry.unwind]; exact Bool.false_ne_true)]
    exact .going (hentry.remember haction)

/-- The entry of the statements in a statement. -/
theorem StackEntry.Counts.child (hentry : entry.Counts A base start best) :
    StackEntry.Counts A best entry.result best { result := entry.result } where
  base_start := by rw [hentry.best_eq, A.better_self_right]
  ranked := .inr ⟨rfl, rfl⟩
  pos := hentry.pos
  best_eq := by rw [hentry.best_eq, A.better_self_right]
  unwind := rfl

/-- When the statements in a statement have been done, their result is that of
    the statement. -/
theorem StackEntry.Counts.parent (hentry : entry.Counts A base start best)
    (hreject : A.weight .RLM_MODULE_REJECT = 0) {step : ModStep Request} {outcome : Outcome Request}
    (hchild : Agrees A best entry.result step outcome) :
    Agrees A base start
      (unlang.calculate_result A step.entry.result locals
        { entry with unwind := step.entry.unwind || entry.unwind } step.request)
      (outcome.leave locals.was_if locals.if_taken) := by
  have hkeep : { entry with unwind := false || entry.unwind } = entry := rfl
  cases hchild with
  | @going _ child best' _ hbest =>
    have haction := A.action_of_weight_pos hbest.pos
    simp only [ModStep.entry_next_sibling, ModStep.request_next_sibling, hbest.unwind, hkeep, Outcome.leave]
    rw [calculate_result_of_priority haction, if_neg (by simp [hentry.unwind]), hbest.best_eq]
    exact .going (hentry.remember haction)
  | @returned child best' _ hbest =>
    have haction := A.action_of_weight_pos hbest.pos
    simp only [ModStep.entry_finish, ModStep.request_finish, Outcome.leave, Bool.true_or]
    rw [calculate_result_of_priority haction, if_pos rfl, StackEntry.remember_unwind, hbest.best_eq]
    exact .returned (hentry.remember haction)
  | @stopped child _ hunwind hresult =>
    simp only [ModStep.entry_finish, ModStep.request_finish, hunwind, hkeep, Outcome.leave]
    obtain hreturn | hrejected := hresult
    · rw [calculate_result_of_return hreturn]
      exact .stopped hentry.unwind (.inl hreturn)
    · rw [hrejected]
      cases haction : A.action .RLM_MODULE_REJECT with
      | MOD_ACTION_RETURN =>
        rw [calculate_result_of_return haction]
        exact .stopped hentry.unwind (.inl haction)
      | MOD_ACTION_REJECT =>
        rw [calculate_result_of_reject haction]
        exact .stopped hentry.unwind (.inr rfl)
      | priority value =>
        obtain ⟨hweight, hpos⟩ := A.weight_of_priority haction
        omega

/-- A statement and the statements after it. -/
theorem Agrees.cons {c : Modcallable Request} {siblings : List (Modcallable Request)}
    (hone : Agrees A base start (modcall_one c locals entry request)
      (evaluate_one A c locals.was_if locals.if_taken best request))
    (hsiblings : ∀ (locals : Locals) {best : Rcode} {entry : StackEntry} (request : Request),
      entry.Counts A base start best → Agrees A base start (modcall_recurse siblings locals entry request)
        (evaluate A siblings locals.was_if locals.if_taken best request)) :
    Agrees A base start (modcall_recurse (c :: siblings) locals entry request)
      (evaluate A (c :: siblings) locals.was_if locals.if_taken best request) := by
  rw [modcall_recurse_cons, evaluate]
  generalize modcall_one c locals entry request = step at hone
  generalize evaluate_one A c locals.was_if locals.if_taken best request = outcome at hone
  cases hone with
  | going hentry => exact hsiblings _ _ hentry
  | returned hentry => exact .returned hentry
  | stopped hunwind hresult => exact .stopped hunwind hresult

/-- A statement that is skipped. -/
theorem Agrees.skipped (hentry : entry.Counts A base start best) (hwas : locals.was_if = was_if)
    (htaken : locals.if_taken = if_taken) :
    Agrees A base start (.next_sibling locals entry request) (.going was_if if_taken best request) := by
  subst hwas htaken
  exact .going hentry

/-- A condition and the statements under it. -/
theorem Agrees.condition {condition : Bool × Request} {children : List (Modcallable Request)}
    (hentry : entry.Counts A base start best)
    (hchildren : Agrees A base start
      (modcall_children A children { locals with was_if := true, if_taken := true } entry condition.2)
      ((evaluate A children false false best condition.2).leave true true)) :
    Agrees A base start
      (if condition.1 then modcall_children A children { locals with was_if := true, if_taken := true } entry condition.2
        else .next_sibling { locals with was_if := true, if_taken := false } entry condition.2)
      (if condition.1 then (evaluate A children false false best condition.2).leave true true
        else .going true false best condition.2) := by
  cases condition.1 with
  | true => exact hchildren
  | false => exact .going hentry

mutual

/-- `modcall_recurse` computes what a statement means. -/
theorem modcall_one_agrees (hreject : A.weight .RLM_MODULE_REJECT = 0) :
    ∀ (c : Modcallable Request) (locals : Locals) {base start best : Rcode} {entry : StackEntry} (request : Request),
      c.Uniform A → entry.Counts A base start best →
      Agrees A base start (modcall_one c locals entry request)
        (evaluate_one A c locals.was_if locals.if_taken best request)
  | .MOD_SINGLE actions _, _, _, _, _, _, _, huniform, hentry => by
    rw [show actions = A from huniform]
    exact hentry.calculate_result
  | .MOD_UPDATE actions _, _, _, _, _, _, _, huniform, hentry => by
    rw [show actions = A from huniform]
    exact hentry.calculate_result
  | .MOD_GROUP actions children, _, _, _, _, _, request, huniform, hentry => by
    rw [show actions = A from huniform.1]
    exact modcall_children_agrees hreject children _ request huniform.2 hentry
  | .MOD_IF actions cond children, _, _, _, best, _, request, huniform, hentry => by
    obtain ⟨hactions, hcond, hchildren⟩ := huniform
    rw [modcall_one, evaluate_one, hactions, hcond _ best request]
    exact .condition hentry (modcall_children_agrees hreject children _ _ hchildren hentry)
  | .MOD_ELSIF actions cond children, locals, _, _, best, _, request, huniform, hentry => by
    obtain ⟨hactions, hcond, hchildren⟩ := huniform
    rw [modcall_one, evaluate_one, hactions, hcond _ best request]
    cases hwas : locals.was_if with
    | false => exact .skipped hentry hwas rfl
    | true =>
      cases htaken : locals.if_taken with
      | true => exact .skipped hentry hwas htaken
      | false => exact .condition hentry (modcall_children_agrees hreject children _ _ hchildren hentry)
  | .MOD_ELSE actions children, locals, _, _, _, _, request, huniform, hentry => by
    rw [modcall_one, evaluate_one, huniform.1]
    cases hwas : locals.was_if with
    | false => exact .skipped hentry hwas rfl
    | true =>
      cases htaken : locals.if_taken with
      | true => exact .going hentry
      | false => exact modcall_children_agrees hreject children _ request huniform.2 hentry
  | .MOD_RETURN, _, _, _, _, _, _, _, hentry => .returned hentry

theorem modcall_children_agrees (hreject : A.weight .RLM_MODULE_REJECT = 0) :
    ∀ (children : List (Modcallable Request)) (locals : Locals) {base start best : Rcode} {entry : StackEntry}
      (request : Request), Uniforms A children → entry.Counts A base start best →
      Agrees A base start (modcall_children A children locals entry request)
        ((evaluate A children false false best request).leave locals.was_if locals.if_taken)
  | [], _, _, _, _, _, _, _, hentry => .going hentry
  | child :: children, _, _, _, _, _, request, huniform, hentry => by
    rw [modcall_children_cons]
    have hchild := modcall_one_agrees hreject child {} request huniform.1 hentry.child
    exact hentry.parent hreject (hchild.cons fun locals _ _ request hentry =>
      modcall_recurse_agrees hreject children locals request huniform.2 hentry)

theorem modcall_recurse_agrees (hreject : A.weight .RLM_MODULE_REJECT = 0) :
    ∀ (siblings : List (Modcallable Request)) (locals : Locals) {base start best : Rcode} {entry : StackEntry}
      (request : Request), Uniforms A siblings → entry.Counts A base start best →
      Agrees A base start (modcall_recurse siblings locals entry request)
        (evaluate A siblings locals.was_if locals.if_taken best request)
  | [], _, _, _, _, _, _, _, hentry => .going hentry
  | c :: siblings, locals, _, _, _, _, request, huniform, hentry =>
    (modcall_one_agrees hreject c locals request huniform.1 hentry).cons fun locals _ _ request hentry =>
      modcall_recurse_agrees hreject siblings locals request huniform.2 hentry

end

end unlang
