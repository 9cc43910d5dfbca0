import AaaServer.Unlang.Inline

namespace unlang

/-- `rlm_components_t`, without the two of CoA. -/
inductive Component where
  | MOD_AUTHENTICATE
  | MOD_AUTHORIZE
  | MOD_PREACCT
  | MOD_ACCOUNTING
  | MOD_SESSION
  | MOD_PRE_PROXY
  | MOD_POST_PROXY
  | MOD_POST_AUTH
  deriving DecidableEq

def default_component_results : Component → Rcode
  | .MOD_AUTHENTICATE => .RLM_MODULE_REJECT
  | .MOD_AUTHORIZE => .RLM_MODULE_NOTFOUND
  | .MOD_SESSION => .RLM_MODULE_FAIL
  | _ => .RLM_MODULE_NOOP

/-- The row `group` of most components: the results that do not end a section. -/
def soft_priority (notfound noop ok updated : Nat) : Rcode → Nat
  | .RLM_MODULE_NOTFOUND => notfound
  | .RLM_MODULE_NOOP => noop
  | .RLM_MODULE_OK => ok
  | .RLM_MODULE_UPDATED => updated
  | _ => 0

/-- The rows `group` of `defaultactions`, with zero for `MOD_ACTION_RETURN`. -/
def default_priority : Component → Rcode → Nat
  | .MOD_AUTHENTICATE, .RLM_MODULE_FAIL | .MOD_AUTHENTICATE, .RLM_MODULE_INVALID
  | .MOD_AUTHENTICATE, .RLM_MODULE_NOOP | .MOD_AUTHENTICATE, .RLM_MODULE_UPDATED => 1
  | .MOD_AUTHENTICATE, _ => 0
  | .MOD_SESSION, .RLM_MODULE_FAIL => 1
  | .MOD_SESSION, _ => 0
  | .MOD_PREACCT, rcode | .MOD_ACCOUNTING, rcode => soft_priority 0 1 2 3 rcode
  | .MOD_AUTHORIZE, rcode | .MOD_PRE_PROXY, rcode | .MOD_POST_PROXY, rcode | .MOD_POST_AUTH, rcode =>
    soft_priority 1 2 3 4 rcode

/-- `defaultactions` of a statement in a group. -/
def defaultactions (component : Component) : Actions where
  action rcode :=
    if default_priority component rcode = 0 then .MOD_ACTION_RETURN else .priority (default_priority component rcode)
  positive := by
    intro rcode value haction
    split at haction
    · cases haction
    · cases haction
      omega

/-- The components whose default result is weaker than every other that does not
    end a section. -/
def Component.ranked : Component → Bool
  | .MOD_AUTHORIZE | .MOD_PREACCT | .MOD_ACCOUNTING | .MOD_SESSION => true
  | _ => false

end unlang
