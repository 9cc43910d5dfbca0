import AaaServer.Sql.Collation
import AaaServer.Transition.Run

open sql transition

namespace aaa_server

/-- What `TokenUtil` signs: the name and the second of the expiry. -/
structure Token where
  userAccount : Text
  expiresAt : Nat

/-- `10*60*60*1000` milliseconds. -/
def EXPIRE_TIME : Nat := 10 * 60 * 60

def sign (now : Nat) (username : Text) : Token where
  userAccount := username
  expiresAt := now + EXPIRE_TIME

def verify (now : Nat) (token : Token) : Bool := now ≤ token.expiresAt

/-- What a controller answers: its `Result`, or the error page of the container. -/
inductive Reply (Data : Type) where
  | result (success : Bool) (code : Int) (message : Text) (data : Data)
  | error_page

/-- The body of a response: that of a controller, or the one that the
    interceptor writes itself. -/
inductive Body (Data : Type) where
  | reply (reply : Reply Data)
  | token_verify_fail

/-- A field of a body that the client compares with a text. -/
inductive Field where
  | number (value : Int)
  | text (value : Text)
  deriving DecidableEq

structure Response (Data : Type) where
  status : Nat
  body : Body Data

/-- The requests of the bridge and the API that answers them. -/
structure Api (Call Database Data : Type) where
  ADMIN_USERNAME : Text
  /-- The status of the response when the interceptor writes into it. -/
  refusal_status : Nat
  /-- The controllers. -/
  handle : Token → Call → Database → (Nat × Reply Data) × Database

/-- Where a call of `request` waits. The flag says that it has logged in again. -/
inductive Phase (Data : Type) where
  | login (retry : Bool)
  | token (token : Token) (retry : Bool)
  | call (token : Token) (retry : Bool)
  | answer (response : Response Data) (retry : Bool)
  | returned (body : Body Data)
  | threw

/-- A call of `request`, with how often it has sent its call, logged in after an
    answer to it, and been refused for its token. -/
structure Request (Call Data : Type) where
  call : Call
  phase : Phase Data
  sent : Nat := 0
  logins : Nat := 0
  refused : Nat := 0

/-- The calls of `request` share a token. The last field lists those that the API
    has let through to its controllers. -/
structure System (Call Database Data : Type) where
  now : Nat
  database : Database
  cachedToken : Option Token := none
  requests : List (Request Call Data) := []
  applied : List Nat := []

/-- Some seconds pass, a handler calls `request`, the API answers what a call of it
    has sent, the answer arrives, or the connection breaks. -/
inductive ClientAction (Call : Type) where
  | tick (seconds : Nat)
  | request (call : Call)
  | serve (index : Nat)
  | receive (index : Nat)
  | fail (index : Nat)

variable {Call Database Data : Type}

namespace Body

/-- `body.code`. -/
def code : Body Data → Option Field
  | .reply (.result _ code _ _) => some (.number code)
  | .reply .error_page => none
  | .token_verify_fail => some (.text "50000".toList)

/-- `body.msg`. -/
def msg : Body Data → Option Field
  | .reply _ => none
  | .token_verify_fail => some (.text "token verify fail".toList)

/-- The API has refused the call for its token. -/
def refused : Body Data → Bool
  | .reply _ => false
  | .token_verify_fail => true

end Body

def Response.authFailed (response : Response Data) : Bool :=
  response.status = 500 ∧ (response.body.code = some (.text "50000".toList) ∨
    response.body.msg = some (.text "token verify fail".toList))

def Request.doRequest (request : Request Call Data) (token : Token) (retry : Bool) : Request Call Data :=
  { request with phase := .call token retry, sent := request.sent + 1 }

/-- `login` and `request` between two awaits, when an answer to the call has come:
    the call of `request`, and whether the token is thrown away. -/
def Request.answered (request : Request Call Data) (response : Response Data) (retry : Bool) :
    Request Call Data × Bool :=
  let request := { request with refused := request.refused + response.body.refused.toNat }
  if response.authFailed then
    if retry then ({ request with phase := .threw }, false)
    else ({ request with phase := .login true, logins := request.logins + 1 }, true)
  else ({ request with phase := .returned response.body }, false)

def System.update (system : System Call Database Data) (index : Nat) (request : Request Call Data) :
    System Call Database Data :=
  { system with requests := system.requests.set index request }

namespace Api

variable (api : Api Call Database Data)

/-- The API on what a call of `request` has sent. The credentials are valid. -/
def serve (system : System Call Database Data) (index : Nat) (request : Request Call Data) :
    System Call Database Data :=
  match request.phase with
  | .login retry =>
    system.update index { request with phase := .token (sign system.now api.ADMIN_USERNAME) retry }
  | .call token retry =>
    if verify system.now token then
      let ((status, reply), database) := api.handle token request.call system.database
      { system.update index { request with phase := .answer ⟨status, .reply reply⟩ retry } with
        database
        applied := system.applied ++ [index] }
    else
      system.update index { request with phase := .answer ⟨api.refusal_status, .token_verify_fail⟩ retry }
  | _ => system

end Api

/-- The client on an answer that arrives. -/
def System.receive (system : System Call Database Data) (index : Nat) (request : Request Call Data) :
    System Call Database Data :=
  match request.phase with
  | .token token retry => { system.update index (request.doRequest token retry) with cachedToken := some token }
  | .answer response retry =>
    let (request, expired) := request.answered response retry
    { system.update index request with cachedToken := if expired then none else system.cachedToken }
  | _ => system

/-- The promise that a call of `request` waits for is rejected. -/
def System.fail (system : System Call Database Data) (index : Nat) (request : Request Call Data) :
    System Call Database Data :=
  match request.phase with
  | .returned _ => system
  | _ => system.update index { request with phase := .threw }

/-- One step. An action on a call that does not exist changes nothing. -/
def Api.step (api : Api Call Database Data) (system : System Call Database Data) :
    ClientAction Call → System Call Database Data
  | .tick seconds => { system with now := system.now + seconds }
  | .request call =>
    let request : Request Call Data := { call, phase := .login false }
    { system with requests := system.requests ++ [match system.cachedToken with
      | some token => request.doRequest token false
      | none => request] }
  | .serve index =>
    match system.requests[index]? with
    | some request => api.serve system index request
    | none => system
  | .receive index =>
    match system.requests[index]? with
    | some request => system.receive index request
    | none => system
  | .fail index =>
    match system.requests[index]? with
    | some request => system.fail index request
    | none => system

/-- The status of a response that nothing has set. -/
def SC_OK : Nat := 200

/-- The interceptor sets no status. -/
def radius_api (ADMIN_USERNAME : Text) (handle : Token → Call → Database → (Nat × Reply Data) × Database) :
    Api Call Database Data where
  ADMIN_USERNAME
  refusal_status := SC_OK
  handle

/-- A call of `request` logs in again when and only when the API has refused its
    call for the token, retries it at most once, and does not return a refusal. -/
structure Request.Protocol (request : Request Call Data) : Prop where
  relogin : 0 < request.logins ↔ 0 < request.refused
  relogin_once : request.logins ≤ 1
  retry_once : request.sent ≤ 2
  result : ∀ body, request.phase = .returned body → body.refused = false

/-- All calls keep to the protocol, and no call is let through twice. -/
structure System.Protocol (system : System Call Database Data) : Prop where
  requests : ∀ request ∈ system.requests, request.Protocol
  applied : system.applied.Nodup

/-- Before the first request. -/
structure System.Start (system : System Call Database Data) : Prop where
  requests : system.requests = []
  applied : system.applied = []

def Phase.unexpired (now : Nat) : Phase Data → Bool
  | .call carried _ => verify now carried
  | _ => true

/-- No call reaches the API after its token has expired. -/
def Unexpired (system : System Call Database Data) : ClientAction Call → Prop
  | .serve index => (system.requests[index]?).all fun request => request.phase.unexpired system.now
  | _ => True

/-- The call of `request` has logged in again and been refused once when it retries,
    else never, and has sent its call that often and `sent` times more. -/
def Request.Counts (request : Request Call Data) (retry : Bool) (sent : Nat) : Prop :=
  request.logins = retry.toNat ∧ request.refused = retry.toNat ∧ request.sent = retry.toNat + sent

/-- What a call of `request` has done so far, by where it waits, with a client that
    notices every refusal. -/
def Request.Noticed (request : Request Call Data) (applied : Prop) : Prop :=
  match request.phase with
  | .login retry | .token _ retry => request.Counts retry 0 ∧ ¬ applied
  | .call _ retry => request.Counts retry 1 ∧ ¬ applied
  | .answer response retry => request.Counts retry 1 ∧ response.authFailed = response.body.refused ∧
    (response.body.refused → ¬ applied)
  | .returned _ | .threw => request.Protocol

/-- The invariant: every call is as `Noticed` says, and no call was let through twice. -/
structure System.Noticed (system : System Call Database Data) : Prop where
  requests : ∀ (index : Nat) (request : Request Call Data), system.requests[index]? = some request →
    request.Noticed (index ∈ system.applied)
  applied : system.applied.Nodup
  known : ∀ index ∈ system.applied, index < system.requests.length

variable {api : Api Call Database Data} {system start : System Call Database Data} {request : Request Call Data}
  {response : Response Data} {retry : Bool} {sent index : Nat} {applied : Prop}
  {history : History (System Call Database Data) (ClientAction Call)}

theorem Request.Counts.protocol (hcounts : request.Counts retry sent) (hsent : sent ≤ 1)
    (hresult : ∀ body, request.phase = .returned body → body.refused = false) : request.Protocol := by
  obtain ⟨hlogins, hrefused, hcalls⟩ := hcounts
  have hretry : retry.toNat ≤ 1 := Bool.toNat_le retry
  exact ⟨by omega, by omega, by omega, hresult⟩

theorem Request.Noticed.protocol (hnoticed : request.Noticed applied) : request.Protocol := by
  cases hphase : request.phase with
  | login retry | token token retry | call token retry | answer response retry =>
    simp only [Request.Noticed, hphase] at hnoticed
    exact hnoticed.1.protocol (by decide) (by simp [hphase])
  | returned body | threw =>
    simpa only [Request.Noticed, hphase] using hnoticed

/-- A controller's answer is never taken for a refusal. -/
theorem Response.authFailed_reply (status : Nat) (reply : Reply Data) :
    Response.authFailed ⟨status, .reply reply⟩ = false := by
  cases reply <;> simp [Response.authFailed, Body.code, Body.msg]

/-- The interceptor's answer is, if it comes with status 500. -/
theorem Response.authFailed_token_verify_fail (status : Nat) :
    Response.authFailed (⟨status, .token_verify_fail⟩ : Response Data) = decide (status = 500) := by
  simp [Response.authFailed, Body.code]

/-- An answer that the client takes for what it is leads to one login, and after
    that to an error. -/
theorem Request.noticed_answered (hcounts : request.Counts retry 1)
    (hanswer : response.authFailed = response.body.refused) (happlied : response.body.refused → ¬ applied) :
    (request.answered response retry).1.Noticed applied := by
  obtain ⟨hlogins, hrefused, hsent⟩ := hcounts
  cases hbody : response.body.refused with
  | false =>
    simp only [Request.answered, hanswer, hbody, Bool.false_eq_true, if_false, Request.Noticed]
    have hretry : retry.toNat ≤ 1 := Bool.toNat_le retry
    refine ⟨?_, ?_, ?_, ?_⟩ <;> simp [*]
  | true =>
    cases retry with
    | false =>
      simp only [Request.answered, hanswer, hbody, if_true, Bool.false_eq_true, if_false, Request.Noticed]
      refine ⟨⟨?_, ?_, ?_⟩, happlied hbody⟩ <;> simp [*]
    | true =>
      simp only [Request.answered, hanswer, hbody, if_true, Request.Noticed]
      refine ⟨?_, ?_, ?_, ?_⟩ <;> simp [*]

/-- One call of `request` goes on, and is let through at most once. -/
theorem System.Noticed.update {after : System Call Database Data} {new : Request Call Data}
    (hsystem : system.Noticed) (hrequest : system.requests[index]? = some request)
    (hrequests : after.requests = system.requests.set index new) (hnew : new.Noticed (index ∈ after.applied))
    (happlied : after.applied = system.applied ∨ after.applied = system.applied ++ [index] ∧ index ∉ system.applied) :
    after.Noticed := by
  obtain ⟨hindex, _⟩ := List.getElem?_eq_some_iff.mp hrequest
  constructor
  · intro other request' hother
    rw [hrequests] at hother
    by_cases heq : index = other
    · subst heq
      rw [List.getElem?_set_self hindex] at hother
      rwa [← Option.some.inj hother]
    · rw [List.getElem?_set_ne heq] at hother
      have hold := hsystem.requests other request' hother
      obtain hsame | ⟨hadded, _⟩ := happlied
      · rwa [hsame]
      · rwa [hadded, List.mem_append, List.mem_singleton, or_iff_left (Ne.symm heq)]
  · obtain hsame | ⟨hadded, hnew⟩ := happlied
    · rw [hsame]
      exact hsystem.applied
    · rw [hadded, ← List.concat_eq_append, List.nodup_concat]
      exact ⟨hnew, hsystem.applied⟩
  · intro other hother
    rw [hrequests, List.length_set]
    obtain hsame | ⟨hadded, _⟩ := happlied
    · exact hsystem.known other (hsame ▸ hother)
    · rw [hadded, List.mem_append, List.mem_singleton] at hother
      obtain hold | rfl := hother
      · exact hsystem.known other hold
      · exact hindex

/-- A call of `request` that begins. -/
theorem System.Noticed.append {new : Request Call Data} (hsystem : system.Noticed) (hnew : new.Noticed False) :
    { system with requests := system.requests ++ [new] }.Noticed := by
  constructor
  · intro index request hrequest
    obtain hindex | hindex := Nat.lt_or_ge index system.requests.length
    · rw [List.getElem?_append_left hindex] at hrequest
      exact hsystem.requests index request hrequest
    · rw [List.getElem?_append_right hindex, List.getElem?_singleton] at hrequest
      have hrequest : new = request := Option.some.inj (Option.ite_none_right_eq_some.mp hrequest).2
      have hunknown : index ∉ system.applied := fun hmem => absurd (hsystem.known index hmem) (by omega)
      rwa [eq_false hunknown, ← hrequest]
  · exact hsystem.applied
  · intro index hindex
    have hlt := hsystem.known index hindex
    rw [List.length_append]
    omega

/-- The API on a request, when it signals refusals by the status that the client
    expects, or need not refuse any. -/
theorem System.Noticed.serve (hsystem : system.Noticed) (hrequest : system.requests[index]? = some request)
    (hrefusal : api.refusal_status = 500 ∨ Unexpired system (.serve index : ClientAction Call)) :
    (api.serve system index request).Noticed := by
  have hnoticed := hsystem.requests index request hrequest
  unfold Api.serve
  cases hphase : request.phase with
  | login retry =>
    simp only [Request.Noticed, hphase] at hnoticed
    exact hsystem.update hrequest rfl hnoticed (.inl rfl)
  | call token retry =>
    simp only [Request.Noticed, hphase] at hnoticed
    obtain ⟨hcounts, hfirst⟩ := hnoticed
    cases hverify : verify system.now token with
    | true =>
      simp only [hverify, if_true]
      refine hsystem.update hrequest rfl ?_ (.inr ⟨rfl, hfirst⟩)
      exact ⟨hcounts, Response.authFailed_reply _ _, by simp [Body.refused]⟩
    | false =>
      simp only [hverify, Bool.false_eq_true, if_false]
      refine hsystem.update hrequest rfl ⟨hcounts, ?_, fun _ => hfirst⟩ (.inl rfl)
      obtain hstatus | hunexpired := hrefusal
      · simp [Response.authFailed_token_verify_fail, hstatus, Body.refused]
      · simp [Unexpired, hrequest, hphase, Phase.unexpired, hverify] at hunexpired
  | token token retry | answer response retry | returned body | threw => exact hsystem

theorem System.Noticed.receive (hsystem : system.Noticed) (hrequest : system.requests[index]? = some request) :
    (system.receive index request).Noticed := by
  have hnoticed := hsystem.requests index request hrequest
  unfold System.receive
  cases hphase : request.phase with
  | token token retry =>
    simp only [Request.Noticed, hphase] at hnoticed
    obtain ⟨⟨hlogins, hrefused, hsent⟩, hfirst⟩ := hnoticed
    refine hsystem.update hrequest rfl ⟨⟨hlogins, hrefused, ?_⟩, hfirst⟩ (.inl rfl)
    rw [Request.doRequest, hsent]
  | answer response retry =>
    simp only [Request.Noticed, hphase] at hnoticed
    obtain ⟨hcounts, hanswer, happlied⟩ := hnoticed
    exact hsystem.update hrequest rfl (Request.noticed_answered hcounts hanswer happlied) (.inl rfl)
  | login retry | call token retry | returned body | threw => exact hsystem

theorem System.Noticed.fail (hsystem : system.Noticed) (hrequest : system.requests[index]? = some request) :
    (system.fail index request).Noticed := by
  have hprotocol := (hsystem.requests index request hrequest).protocol
  unfold System.fail
  split
  · exact hsystem
  · exact hsystem.update hrequest rfl
      ⟨hprotocol.relogin, hprotocol.relogin_once, hprotocol.retry_once, nofun⟩ (.inl rfl)

/-- One step keeps the invariant. -/
theorem noticed_of_step {action : ClientAction Call} (hsystem : system.Noticed)
    (hrefusal : api.refusal_status = 500 ∨ Unexpired system action) : (api.step system action).Noticed := by
  cases action with
  | tick seconds => exact ⟨hsystem.requests, hsystem.applied, hsystem.known⟩
  | request call =>
    refine hsystem.append ?_
    cases system.cachedToken with
    | none => exact ⟨⟨rfl, rfl, rfl⟩, id⟩
    | some token => exact ⟨⟨rfl, rfl, rfl⟩, id⟩
  | serve index =>
    simp only [Api.step]
    split
    · exact hsystem.serve ‹_› hrefusal
    · exact hsystem
  | receive index =>
    simp only [Api.step]
    split
    · exact hsystem.receive ‹_›
    · exact hsystem
  | fail index =>
    simp only [Api.step]
    split
    · exact hsystem.fail ‹_›
    · exact hsystem

/-- The protocol, when refusals have the status that the client expects, or there
    are none. -/
theorem protocol_of_run (hstart : start.Start)
    (hrun : Run api.step (fun _ system action => api.refusal_status = 500 ∨ Unexpired system action)
      start history system) : system.Protocol := by
  have hsystem : system.Noticed := by
    refine hrun.invariant (fun _ system => system.Noticed) ?_
      fun _ _ _ hsystem hrefusal => noticed_of_step hsystem hrefusal
    exact ⟨by simp [hstart.requests], by simp [hstart.applied], by simp [hstart.applied]⟩
  refine ⟨fun request hmem => ?_, hsystem.applied⟩
  obtain ⟨index, hrequest⟩ := List.mem_iff_getElem?.mp hmem
  exact (hsystem.requests index request hrequest).protocol

/-- With the status of the documentation the client would keep to the protocol,
    whenever tokens expire. -/
theorem protocol_of_documented_status (hstatus : api.refusal_status = 500) (hstart : start.Start)
    (hrun : Run api.step (fun _ _ _ => True) start history system) : system.Protocol :=
  protocol_of_run hstart (hrun.mono fun _ _ _ _ => .inl hstatus)

variable {ADMIN_USERNAME : Text} {handle : Token → Call → Database → (Nat × Reply Data) × Database}

/-- A call that is refused ends with the refusal as its result. -/
theorem not_protocol_of_expired {token : Token} (hrequest : system.requests[index]? = some request)
    (hphase : request.phase = .call token retry) (hexpired : verify system.now token = false) :
    ¬ (replay (radius_api ADMIN_USERNAME handle).step system [.serve index, .receive index]).2.Protocol := by
  obtain ⟨hindex, _⟩ := List.getElem?_eq_some_iff.mp hrequest
  let refusal : Request Call Data := { request with phase := .answer ⟨SC_OK, .token_verify_fail⟩ retry }
  have hserve : (radius_api ADMIN_USERNAME handle).step system (.serve index) = system.update index refusal := by
    simp only [Api.step, hrequest, Api.serve, hphase, hexpired, Bool.false_eq_true, if_false]
    rfl
  have hanswer : (system.update index refusal).requests[index]? = some refusal := List.getElem?_set_self hindex
  have hauthFailed : Response.authFailed (⟨SC_OK, .token_verify_fail⟩ : Response Data) = false := by
    simp [Response.authFailed_token_verify_fail, SC_OK]
  let returned : Request Call Data := { request with
    phase := .returned .token_verify_fail
    refused := request.refused + 1 }
  have hreceive : (radius_api ADMIN_USERNAME handle).step (system.update index refusal) (.receive index) =
      (system.update index refusal).update index returned := by
    simp only [Api.step, hanswer, System.receive, refusal, Request.answered, hauthFailed, Bool.false_eq_true, if_false]
    rfl
  have hreturned : returned ∈ ((system.update index refusal).update index returned).requests :=
    List.mem_iff_getElem?.mpr ⟨index, List.getElem?_set_self (by simpa [System.update] using hindex)⟩
  intro hprotocol
  rw [transition.replay, List.foldl_cons, List.foldl_cons, List.foldl_nil, hserve, hreceive] at hprotocol
  cases (hprotocol.requests returned hreturned).result .token_verify_fail rfl

/-- The client keeps to the protocol in every run in which no call reaches the API
    after its token has expired, and not once one does. -/
theorem protocol_of_unexpired (hstart : start.Start)
    (hrun : Run (radius_api ADMIN_USERNAME handle).step (fun _ => Unexpired) start history system) :
    system.Protocol ∧ ∀ index request token retry, system.requests[index]? = some request →
      request.phase = .call token retry → verify system.now token = false →
        ¬ (replay (radius_api ADMIN_USERNAME handle).step system [.serve index, .receive index]).2.Protocol :=
  ⟨protocol_of_run hstart (hrun.mono fun _ _ _ hunexpired => .inr hunexpired),
    fun _ _ _ _ hrequest hphase hexpired => not_protocol_of_expired hrequest hphase hexpired⟩

instance (system : System Call Database Data) : (action : ClientAction Call) → Decidable (Unexpired system action)
  | .serve _ => inferInstanceAs (Decidable (_ = true))
  | .tick _ | .request _ | .receive _ | .fail _ => isTrue trivial

/-- An API whose calls add to a sum. -/
def adding : Token → Nat → Nat → (Nat × Reply Unit) × Nat :=
  fun _ call database => ((SC_OK, .result true 20000 [] ()), database + call)

def morning : System Nat Nat Unit where
  now := 0
  database := 0

/-- Two calls that both log in, and a third one that uses their token. -/
def morning_calls : List (ClientAction Nat) :=
  [.request 1, .request 2, .serve 0, .serve 1, .receive 1, .receive 0, .serve 1, .serve 0, .receive 0, .receive 1,
    .tick 36000, .request 4, .serve 2, .receive 2]

theorem morning_protocol :
    (replay (radius_api [] adding).step morning morning_calls).2.Protocol ∧
      (replay (radius_api [] adding).step morning morning_calls).2.database = 7 :=
  ⟨(protocol_of_unexpired (by exact ⟨rfl, rfl⟩) (Run.replay _ (by decide))).1, by decide⟩

/-- A call, ten hours and a second, and another one. -/
def overnight_calls : List (ClientAction Nat) :=
  [.request 1, .serve 0, .receive 0, .serve 0, .receive 0, .tick 36001, .request 2, .serve 1, .receive 1]

/-- From then on the bridge hands every handler the refusal of the API. -/
theorem not_protocol :
    ¬ ∀ start : System Nat Nat Unit, start.Start → ∀ history system,
      Run (radius_api [] adding).step (fun _ _ _ => True) start history system → system.Protocol := by
  intro hall
  have hrun := hall morning ⟨rfl, rfl⟩ _ _ (Run.replay overnight_calls fun _ _ => trivial)
  have hreturned : (replay (radius_api [] adding).step morning overnight_calls).2.requests[1]? =
      some (Request.mk 2 (.returned .token_verify_fail) 1 0 1) := rfl
  cases (hrun.requests _ (List.mem_of_getElem? hreturned)).result _ rfl

end aaa_server
