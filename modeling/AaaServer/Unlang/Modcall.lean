import Mathlib.Data.List.Basic

namespace unlang

variable {Request : Type}

/-- `rlm_rcode_t`, what a module returns. -/
inductive Rcode where
  | RLM_MODULE_REJECT
  | RLM_MODULE_FAIL
  | RLM_MODULE_OK
  | RLM_MODULE_HANDLED
  | RLM_MODULE_INVALID
  | RLM_MODULE_USERLOCK
  | RLM_MODULE_NOTFOUND
  | RLM_MODULE_NOOP
  | RLM_MODULE_UPDATED
  deriving DecidableEq

/-- What a section does with the result of a statement. -/
inductive ModAction where
  | MOD_ACTION_RETURN
  | MOD_ACTION_REJECT
  | priority (value : Nat)
  deriving DecidableEq

/-- The actions of a statement, one for each result. `compile_action` takes no
    priority zero, and the defaults have none. -/
structure Actions where
  action : Rcode → ModAction
  positive : ∀ {rcode value}, action rcode = .priority value → 0 < value

/-- A compiled statement of a section. A policy is a group. A condition sees the
    result of the statement before it, and one that cannot be evaluated is false. -/
inductive Modcallable (Request : Type) where
  | MOD_SINGLE (actions : Actions) (method : Request → Rcode × Request)
  | MOD_UPDATE (actions : Actions) (map : Request → Rcode × Request)
  | MOD_GROUP (actions : Actions) (children : List (Modcallable Request))
  | MOD_IF (actions : Actions) (cond : Rcode → Request → Bool × Request) (children : List (Modcallable Request))
  | MOD_ELSIF (actions : Actions) (cond : Rcode → Request → Bool × Request) (children : List (Modcallable Request))
  | MOD_ELSE (actions : Actions) (children : List (Modcallable Request))
  | MOD_RETURN

/-- `modcall_stack_entry_t`: the best result of a section so far. -/
structure StackEntry where
  result : Rcode
  priority : Nat := 0
  unwind : Bool := false

/-- The local variables of `modcall_recurse`. There is no result before the first
    statement. -/
structure Locals where
  result : Option Rcode := none
  was_if : Bool := false
  if_taken : Bool := false

/-- Where a section is after a statement. -/
inductive ModStep (Request : Type) where
  | next_sibling (locals : Locals) (entry : StackEntry) (request : Request)
  | finish (entry : StackEntry) (request : Request)

def ModStep.entry : ModStep Request → StackEntry
  | .next_sibling _ entry _ | .finish entry _ => entry

def ModStep.request : ModStep Request → Request
  | .next_sibling _ _ request | .finish _ request => request

@[simp] theorem ModStep.entry_next_sibling (locals : Locals) (entry : StackEntry) (request : Request) :
    (ModStep.next_sibling locals entry request).entry = entry := rfl

@[simp] theorem ModStep.entry_finish (entry : StackEntry) (request : Request) :
    (ModStep.finish entry request).entry = entry := rfl

@[simp] theorem ModStep.request_next_sibling (locals : Locals) (entry : StackEntry) (request : Request) :
    (ModStep.next_sibling locals entry request).request = request := rfl

@[simp] theorem ModStep.request_finish (entry : StackEntry) (request : Request) :
    (ModStep.finish entry request).request = request := rfl

/-- A result is remembered with its priority where that is higher than any before. -/
def StackEntry.remember (entry : StackEntry) (result : Rcode) (priority : Nat) : StackEntry :=
  if entry.priority < priority then { entry with result, priority } else entry

/-- The end of `modcall_recurse`: a result may end the section, and otherwise the
    one of the highest priority is remembered. -/
def calculate_result (actions : Actions) (result : Rcode) (locals : Locals) (entry : StackEntry)
    (request : Request) : ModStep Request :=
  match actions.action result with
  | .MOD_ACTION_RETURN => .finish { entry with result } request
  | .MOD_ACTION_REJECT => .finish { entry with result := .RLM_MODULE_REJECT } request
  | .priority priority =>
    if entry.unwind then .finish (entry.remember result priority) request
    else .next_sibling { locals with result := some result } (entry.remember result priority) request

mutual

/-- One statement of a section. -/
def modcall_one : Modcallable Request → Locals → StackEntry → Request → ModStep Request
  | .MOD_SINGLE actions method, locals, entry, request =>
    calculate_result actions (method request).1 { locals with was_if := false, if_taken := false } entry
      (method request).2
  | .MOD_UPDATE actions map, locals, entry, request =>
    calculate_result actions (map request).1 { locals with was_if := false, if_taken := false } entry (map request).2
  | .MOD_GROUP actions children, locals, entry, request =>
    modcall_children actions children { locals with was_if := false, if_taken := false } entry request
  | .MOD_IF actions cond children, locals, entry, request =>
    let condition := cond (locals.result.getD entry.result) request
    if condition.1 then
      modcall_children actions children { locals with was_if := true, if_taken := true } entry condition.2
    else .next_sibling { locals with was_if := true, if_taken := false } entry condition.2
  | .MOD_ELSIF actions cond children, locals, entry, request =>
    if !locals.was_if then .next_sibling locals entry request
    else if locals.if_taken then .next_sibling locals entry request
    else
      let condition := cond (locals.result.getD entry.result) request
      if condition.1 then
        modcall_children actions children { locals with was_if := true, if_taken := true } entry condition.2
      else .next_sibling { locals with was_if := true, if_taken := false } entry condition.2
  | .MOD_ELSE actions children, locals, entry, request =>
    if !locals.was_if then .next_sibling locals entry request
    else if locals.if_taken then .next_sibling { locals with was_if := false, if_taken := false } entry request
    else modcall_children actions children { locals with was_if := false, if_taken := false } entry request
  | .MOD_RETURN, _, entry, request => .finish { entry with unwind := true } request

/-- `do_children`: the children have an entry of their own, which starts with the
    result of this one. A section without children is ignored. -/
def modcall_children (actions : Actions) :
    List (Modcallable Request) → Locals → StackEntry → Request → ModStep Request
  | [], locals, entry, request => .next_sibling locals entry request
  | child :: children, locals, entry, request =>
    let next := match modcall_one child {} { result := entry.result } request with
      | .next_sibling locals entry request => modcall_recurse children locals entry request
      | .finish entry request => .finish entry request
    calculate_result actions next.entry.result locals
      { entry with unwind := next.entry.unwind || entry.unwind } next.request

/-- The statements of a section in order. -/
def modcall_recurse : List (Modcallable Request) → Locals → StackEntry → Request → ModStep Request
  | [], locals, entry, request => .next_sibling locals entry request
  | c :: siblings, locals, entry, request =>
    match modcall_one c locals entry request with
    | .next_sibling locals entry request => modcall_recurse siblings locals entry request
    | .finish entry request => .finish entry request

end

/-- `modcall`: the result of a section that begins with the default result of the
    component. -/
def modcall (default : Rcode) (siblings : List (Modcallable Request)) (request : Request) : Rcode × Request :=
  let step := modcall_recurse siblings {} { result := default } request
  (step.entry.result, step.request)


variable {actions : Actions} {locals : Locals} {entry : StackEntry} {request : Request}

theorem calculate_result_of_return {result : Rcode} (haction : actions.action result = .MOD_ACTION_RETURN) :
    calculate_result actions result locals entry request = .finish { entry with result } request := by
  rw [calculate_result, haction]

theorem calculate_result_of_reject {result : Rcode} (haction : actions.action result = .MOD_ACTION_REJECT) :
    calculate_result actions result locals entry request =
      .finish { entry with result := .RLM_MODULE_REJECT } request := by
  rw [calculate_result, haction]

theorem calculate_result_of_priority {result : Rcode} {value : Nat}
    (haction : actions.action result = .priority value) :
    calculate_result actions result locals entry request =
      if entry.unwind then .finish (entry.remember result value) request
      else .next_sibling { locals with result := some result } (entry.remember result value) request := by
  rw [calculate_result, haction]

theorem modcall_recurse_cons (c : Modcallable Request) (siblings : List (Modcallable Request)) :
    modcall_recurse (c :: siblings) locals entry request =
      match modcall_one c locals entry request with
      | .next_sibling locals entry request => modcall_recurse siblings locals entry request
      | .finish entry request => .finish entry request := rfl

theorem modcall_children_cons (child : Modcallable Request) (children : List (Modcallable Request)) :
    modcall_children actions (child :: children) locals entry request =
      calculate_result actions (modcall_recurse (child :: children) {} { result := entry.result } request).entry.result
        locals { entry with
          unwind := (modcall_recurse (child :: children) {} { result := entry.result } request).entry.unwind ||
            entry.unwind }
        (modcall_recurse (child :: children) {} { result := entry.result } request).request := rfl

end unlang
