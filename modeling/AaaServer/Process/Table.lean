import AaaServer.Process.Moves

namespace freeradius.processing

section Table

open fr_state_action_t rad_master_state_t rad_child_state_t

/-- The state of the process. `requests` are those that are not freed, and the request
    hash `pl` is made of those marked as in it. -/
structure Tables where
  now : Nat := 0
  request_num_counter : Nat := 0
  requests : List REQUEST := []
  log : List Event := []

/-- The request hash. -/
def Tables.pl (tables : Tables) : List REQUEST :=
  tables.requests.filter (·.in_request_hash)

/-- A function of the state machine runs on the request with a number. -/
def Tables.touch (tables : Tables) (number : Nat) (f : REQUEST → Effect) : Tables :=
  { tables with
    requests := tables.requests.filterMap fun request =>
      if request.number = number then (f request).request else some request
    log := tables.log ++ tables.requests.flatMap fun request =>
      if request.number = number then (f request).events else [] }

/-- A packet arrives. -/
def Tables.hear (tables : Tables) (packet : Datagram) : Tables :=
  { tables with log := tables.log ++ [.receive tables.now packet] }

variable (config : main_config_t)

/-- `request_setup`. The reply has no code yet. -/
def request_setup (number now : Nat) (packet : Datagram) : REQUEST :=
  { number := number, packet := packet, timestamp := now }

/-- The end of `request_receive`, from the check of `max_requests` on. -/
def request_insert (packet : Datagram) (enqueued : Bool) (encoded : Option (List UInt8)) (tables : Tables) :
    Tables :=
  if config.max_requests ≠ 0 ∧ config.max_requests < tables.pl.length then tables
  else
    let request := { request_setup tables.request_num_counter tables.now packet with in_request_hash := true }
    let effect := request_queue_or_run config ⟨true, tables.now, encoded⟩ .request_running enqueued request
    { tables with
      request_num_counter := tables.request_num_counter + 1
      requests := tables.requests ++ effect.request.toList
      log := tables.log ++ .accept tables.now request :: effect.events }

/-- `request_receive` -/
def request_receive (packet : Datagram) (enqueued : Bool) (encoded : Option (List UInt8)) (tables : Tables) :
    Tables :=
  let turn : Turn := ⟨true, tables.now, encoded⟩
  let tables := tables.hear packet
  match tables.requests.find? fun request => request.in_request_hash && request.packet.key = packet.key with
  | some request =>
    if packet.repeats request.packet then
      tables.touch request.number (request_process config turn false FR_ACTION_DUP)
    else
      request_insert config packet enqueued encoded
        (tables.touch request.number (request_done turn FR_ACTION_CONFLICT))
  | none => request_insert config packet enqueued encoded tables

/-- What happens to the process: time passes, a packet arrives, the timer of a request
    runs out, or a child thread takes its next step. -/
inductive Action where
  | tick (elapsed : Nat)
  | receive (packet : Datagram) (enqueued : Bool) (encoded : Option (List UInt8))
  | timer (number : Nat) (encoded : Option (List UInt8))
  | dequeue (number : Nat)
  | run (number : Nat) (decoded : Bool)
  | handle (number : Nat) (result : Handled)
  | finish (number : Nat) (post_auth : PostAuth)
  | reply (number : Nat) (encoded : Option (List UInt8))
  | send (number : Nat) (encoded : Option (List UInt8))

/-- The function that an action runs on a request. -/
def Action.function (now : Nat) : Action → Option (Nat × (REQUEST → Effect))
  | .timer number encoded => some (number, request_timer config ⟨true, now, encoded⟩)
  | .dequeue number => some (number, request_child .queued fun request => ⟨some (request_dequeue request), []⟩)
  | .run number decoded =>
    some (number, request_child .dequeued (request_process config ⟨false, now, none⟩ decoded FR_ACTION_RUN))
  | .handle number result => some (number, request_child .decoded (request_handle ⟨false, now, none⟩ result))
  | .finish number post_auth => some (number, request_child .handled (request_finish ⟨false, now, none⟩ post_auth))
  | .reply number encoded =>
    some (number, request_child .finished (request_finish_reply config ⟨false, now, encoded⟩))
  | .send number encoded => some (number, request_child .sending (request_finish_send config ⟨false, now, encoded⟩))
  | _ => none

/-- One step of the process. -/
def Tables.step (tables : Tables) (action : Action) : Tables :=
  match action with
  | .tick elapsed => { tables with now := tables.now + elapsed }
  | .receive packet enqueued encoded => request_receive config packet enqueued encoded tables
  | action =>
    match action.function config tables.now with
    | some (number, f) => tables.touch number f
    | none => tables

variable {config} {tables : Tables} {action : Action} {number : Nat} {f : REQUEST → Effect} {request : REQUEST}

/-- Every action of a timer or of a child thread is a move of its request. -/
theorem Action.function_moves (hfunction : action.function config tables.now = some (number, f))
    (request : REQUEST) : Moves config tables.now request (f request) := by
  cases action with
  | tick => cases hfunction
  | receive => cases hfunction
  | timer _ encoded =>
    cases hfunction
    exact @request_timer_moves config ⟨true, tables.now, encoded⟩ request rfl
  | dequeue =>
    cases hfunction
    exact request_child_moves request_dequeue_moves
  | run _ decoded =>
    cases hfunction
    exact request_child_moves (@request_process_moves config ⟨false, tables.now, none⟩ decoded request rfl)
  | handle _ result =>
    cases hfunction
    exact request_child_moves (.handled result.code result.response_packet_type)
  | finish _ post_auth =>
    cases hfunction
    exact request_child_moves (@request_finish_moves config ⟨false, tables.now, none⟩ request post_auth rfl)
  | reply _ encoded =>
    cases hfunction
    exact request_child_moves (@request_finish_reply_moves config ⟨false, tables.now, encoded⟩ request rfl)
  | send _ encoded =>
    cases hfunction
    exact request_child_moves (@request_finish_send_moves config ⟨false, tables.now, encoded⟩ request rfl)

/-- What one step does to the tables. -/
inductive Next (config : main_config_t) (tables : Tables) : Action → Tables → Prop where
  | ticked (elapsed : Nat) : Next config tables (.tick elapsed) { tables with now := tables.now + elapsed }
  | moved {action : Action} {f : REQUEST → Effect} (number : Nat)
      (hmoves : ∀ request, Moves config tables.now request (f request)) :
      Next config tables action (tables.touch number f)
  | repeated {packet : Datagram} {enqueued : Bool} {encoded : Option (List UInt8)} {f : REQUEST → Effect}
      {request : REQUEST} (hmem : request ∈ tables.requests) (hhash : request.in_request_hash = true)
      (hkey : request.packet.key = packet.key) (hrepeats : packet.repeats request.packet = true)
      (hmoves : ∀ request, Repeats request tables.now (f request)) :
      Next config tables (.receive packet enqueued encoded) ((tables.hear packet).touch request.number f)
  | accepted {packet : Datagram} {enqueued : Bool} {encoded : Option (List UInt8)}
      (hnone : ∀ request ∈ tables.requests, request.in_request_hash = true → request.packet.key ≠ packet.key) :
      Next config tables (.receive packet enqueued encoded)
        (request_insert config packet enqueued encoded (tables.hear packet))
  | superseded {packet : Datagram} {enqueued : Bool} {encoded : Option (List UInt8)} {f : REQUEST → Effect}
      {request : REQUEST} (hmem : request ∈ tables.requests) (hhash : request.in_request_hash = true)
      (hkey : request.packet.key = packet.key) (hother : packet.repeats request.packet = false)
      (hleaves : ∀ request, ∃ left, Leaves request left ∧ f request = ⟨left, []⟩) :
      Next config tables (.receive packet enqueued encoded)
        (request_insert config packet enqueued encoded ((tables.hear packet).touch request.number f))

theorem Tables.step_next (tables : Tables) (action : Action) :
    Next config tables action (tables.step config action) := by
  have hmoved : ∀ number f, action.function config tables.now = some (number, f) →
      Next config tables action (tables.touch number f) := by
    intro number f hfunction
    exact .moved number (Action.function_moves hfunction)
  cases action with
  | tick elapsed => exact .ticked elapsed
  | receive packet enqueued encoded =>
    unfold Tables.step request_receive
    dsimp only
    cases hfind : (tables.hear packet).requests.find? fun request =>
        request.in_request_hash && request.packet.key = packet.key with
    | none =>
      refine .accepted fun request hmem hhash hkey => ?_
      have hnot := List.find?_eq_none.mp hfind request hmem
      simp [hhash, hkey] at hnot
    | some request =>
      have hmem : request ∈ tables.requests := List.mem_of_find?_eq_some hfind
      have hfound := List.find?_some hfind
      rw [Bool.and_eq_true, decide_eq_true_iff] at hfound
      dsimp only
      cases hrepeats : packet.repeats request.packet with
      | true =>
        exact .repeated hmem hfound.1 hfound.2 hrepeats fun request =>
          @request_process_repeats config ⟨true, tables.now, encoded⟩ false request rfl
      | false => exact .superseded hmem hfound.1 hfound.2 hrepeats fun _ => request_done_leaves rfl (by decide)
  | timer => exact hmoved _ _ rfl
  | dequeue => exact hmoved _ _ rfl
  | run => exact hmoved _ _ rfl
  | handle => exact hmoved _ _ rfl
  | finish => exact hmoved _ _ rfl
  | reply => exact hmoved _ _ rfl
  | send => exact hmoved _ _ rfl

end Table

end freeradius.processing
