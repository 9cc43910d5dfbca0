import AaaServer.Wire.Signed

namespace freeradius.processing

section Process

def USEC : Nat := 1000000

/-- What an `int` holds after a sum. -/
def int (n : Int) : Int := n.bmod (2 ^ 32)

/-- `fr_state_action_t`, without the actions of proxying and CoA. -/
inductive fr_state_action_t where
  | FR_ACTION_RUN
  | FR_ACTION_DONE
  | FR_ACTION_DUP
  | FR_ACTION_TIMER
  | FR_ACTION_CANCELLED
  | FR_ACTION_CONFLICT
  | FR_ACTION_MAX_TIME
  | FR_ACTION_INTERNAL_FAILURE
  | FR_ACTION_CLEANUP_DELAY
  deriving DecidableEq

inductive rad_master_state_t where
  | REQUEST_ACTIVE
  | REQUEST_STOP_PROCESSING
  deriving DecidableEq

inductive rad_child_state_t where
  | REQUEST_QUEUED
  | REQUEST_RUNNING
  | REQUEST_RESPONSE_DELAY
  | REQUEST_CLEANUP_DELAY
  | REQUEST_DONE
  deriving DecidableEq

/-- The states of the request that `request->process` points to. -/
inductive fr_request_process_t where
  | request_running
  | request_response_delay
  | request_cleanup_delay
  | request_done
  deriving DecidableEq

/-- Where a child thread is in a request. A thread stops where it reads what the
    master thread writes: the master runs between two steps of it. -/
inductive Thread where
  | idle
  | queued
  | dequeued
  | decoded
  | handled
  | finished
  | sending
  deriving DecidableEq

open fr_state_action_t rad_master_state_t rad_child_state_t

/-- `action >= FR_ACTION_CANCELLED` -/
def fr_state_action_t.cancels : fr_state_action_t → Bool
  | FR_ACTION_RUN | FR_ACTION_DONE | FR_ACTION_DUP | FR_ACTION_TIMER => false
  | _ => true

/-- `child_state <= REQUEST_RUNNING` -/
def rad_child_state_t.unfinished : rad_child_state_t → Bool
  | REQUEST_QUEUED | REQUEST_RUNNING => true
  | _ => false

/-- The fields of `main_config_t` that the state machine reads. `max_request_time` and
    `cleanup_delay` are in seconds, the others in microseconds. -/
structure main_config_t where
  max_requests : Nat
  max_request_time : Nat
  cleanup_delay : Nat
  reject_delay : Nat
  init_delay : Nat

/-- A packet with the addresses it came from and went to. -/
structure Datagram extends RADIUS_PACKET where
  sockfd : Nat
  src_ipaddr : List UInt8
  src_port : Nat
  dst_ipaddr : List UInt8
  dst_port : Nat
  deriving DecidableEq

/-- Two packets with one key are equal to `fr_packet_cmp`. -/
def Datagram.key (packet : Datagram) : UInt8 × Nat × Nat × List UInt8 × List UInt8 × Nat :=
  (packet.id, packet.sockfd, packet.src_port, packet.src_ipaddr, packet.dst_ipaddr, packet.dst_port)

/-- Same length and authentication vector: must be a duplicate. -/
def Datagram.repeats (packet earlier : Datagram) : Bool :=
  earlier.data.length = packet.data.length && earlier.vector = packet.vector

/-- The reply of a request. Its `data` is there once it is encoded. -/
structure Reply where
  code : Nat := 0
  timestamp : Nat := 0
  data : Option (List UInt8) := none
  FreeRADIUS_Response_Delay : Option Nat := none
  FreeRADIUS_Response_Delay_USec : Option Nat := none
  deriving DecidableEq

/-- `REQUEST`. `timestamp` is when its packet arrived and `ev` when its timer runs out.
    `delay`, in seconds once the reply is sent and in microseconds before, is an `int`
    that doubles with each reply that is sent again, and then wraps around. -/
structure REQUEST where
  number : Nat
  packet : Datagram
  timestamp : Nat
  reply : Reply := {}
  response_packet_type : Option Nat := none
  master_state : rad_master_state_t := REQUEST_ACTIVE
  child_state : rad_child_state_t := REQUEST_RUNNING
  process : fr_request_process_t := .request_running
  in_request_hash : Bool := false
  delay : Int := 0
  response_delay : Nat := 0
  ev : Option Nat := none
  thread : Thread := .idle
  deriving DecidableEq

/-- What the server does to the outside: a packet arrives, becomes a request, the request
    is handled, and its reply is sent. -/
inductive Event where
  | receive (now : Nat) (packet : Datagram)
  | accept (now : Nat) (request : REQUEST)
  | handle (now : Nat) (request : REQUEST)
  | send (now : Nat) (request : REQUEST)
  deriving DecidableEq

/-- A function of the state machine leaves the request, or frees it. -/
structure Effect where
  request : Option REQUEST
  events : List Event := []

/-- The turn of a thread: who it is, when it runs, and what encoding the reply gives it,
    which fails when the reply does not fit. -/
structure Turn where
  master : Bool
  now : Nat
  encoded : Option (List UInt8) := none

variable (config : main_config_t) (turn : Turn)

/-- `rad_encode` and `rad_sign`, of a reply that is not encoded already. -/
def Reply.encode (encoded : Option (List UInt8)) (reply : Reply) : Reply :=
  if reply.data.isSome then reply else { reply with data := encoded }

/-- `client_socket_encode` -/
def client_socket_encode (request : REQUEST) : REQUEST :=
  if request.reply.code = 0 then request
  else { request with reply := request.reply.encode turn.encoded }

/-- `common_socket_send` and `rad_send`. A reply that does not encode is not sent. -/
def common_socket_send (request : REQUEST) : REQUEST × List Event :=
  if request.reply.code = 0 then (request, [])
  else
    let request := { request with reply := request.reply.encode turn.encoded }
    (request, if request.reply.data.isSome then [.send turn.now request] else [])

/-- `FINAL_STATE`: the child thread lets go of the request. -/
def FINAL_STATE (state : rad_child_state_t) (request : REQUEST) : REQUEST :=
  { request with child_state := state, thread := .idle }

/-- `STATE_MACHINE_TIMER`, which always asks for `FR_ACTION_TIMER`. -/
def STATE_MACHINE_TIMER (when : Nat) (request : REQUEST) : REQUEST :=
  { request with ev := some when }

/-- The end of `request_done`: the request leaves the request hash. If the child is
    still running, wait for it to be finished. -/
def request_remove (request : REQUEST) : Effect :=
  let request := { request with in_request_hash := false }
  if request.child_state.unfinished then
    let delay : Int := if request.delay < USEC / 3 then USEC / 3 else request.delay
    let when := (turn.now + delay : Int).toNat
    let delay := int (delay + delay / 2)
    let delay : Int := if 10 * USEC < delay then 10 * USEC else delay
    ⟨some (STATE_MACHINE_TIMER when { request with delay := delay }), []⟩
  else ⟨none, []⟩

/-- `request_done` -/
def request_done (original : fr_state_action_t) (request : REQUEST) : Effect :=
  let request := { request with process := .request_done }
  if !turn.master then ⟨some (FINAL_STATE REQUEST_DONE request), []⟩
  else
    let request := { request with master_state := REQUEST_STOP_PROCESSING }
    let action := if original.cancels then FR_ACTION_DONE else original
    match action with
    | FR_ACTION_DUP =>
      if request.reply.code ≠ 0 then
        let sent := common_socket_send turn request
        ⟨some sent.1, sent.2⟩
      else request_remove turn request
    | FR_ACTION_DONE =>
      if request.child_state.unfinished then request_remove turn request
      else request_remove turn { request with child_state := REQUEST_DONE }
    | _ => request_remove turn request

/-- `request_cleanup_delay_init` -/
def request_cleanup_delay_init (request : REQUEST) : Effect :=
  if request.packet.dst_port = 0 then request_done turn FR_ACTION_DONE request
  else if request.packet.code = PW_CODE_ACCOUNTING_REQUEST then request_done turn FR_ACTION_DONE request
  else if config.cleanup_delay = 0 then request_done turn FR_ACTION_DONE request
  else
    let request := { request with delay := config.cleanup_delay }
    let when := (request.reply.timestamp + request.delay * USEC : Int).toNat
    if turn.now < when then
      let request := { request with process := .request_cleanup_delay }
      if !turn.master then ⟨some (FINAL_STATE REQUEST_CLEANUP_DELAY request), []⟩
      else ⟨some (STATE_MACHINE_TIMER when { request with child_state := REQUEST_CLEANUP_DELAY }), []⟩
    else request_done turn FR_ACTION_DONE request

/-- `request_max_time` -/
def request_max_time (request : REQUEST) : Effect :=
  if request.child_state = REQUEST_DONE then request_done turn FR_ACTION_DONE request
  else if request.timestamp + config.max_request_time * USEC ≤ turn.now then
    request_done turn FR_ACTION_MAX_TIME request
  else
    let when := (turn.now + request.delay : Int).toNat
    ⟨some (STATE_MACHINE_TIMER when { request with delay := int (request.delay + request.delay / 2) }), []⟩

/-- `request_cleanup_delay` -/
def request_cleanup_delay (action : fr_state_action_t) (request : REQUEST) : Effect :=
  if request.master_state = REQUEST_STOP_PROCESSING then request_done turn FR_ACTION_CANCELLED request
  else
    match action with
    | FR_ACTION_DUP =>
      let sent := common_socket_send turn request
      let request := { sent.1 with delay := int (sent.1.delay + sent.1.delay) }
      let when := (request.reply.timestamp + request.delay * USEC : Int).toNat
      ⟨some (STATE_MACHINE_TIMER when request), sent.2⟩
    | FR_ACTION_TIMER =>
      let when := request.reply.timestamp + config.cleanup_delay * USEC
      if turn.now < when then ⟨some (STATE_MACHINE_TIMER when request), []⟩
      else request_done turn FR_ACTION_CLEANUP_DELAY request
    | _ => ⟨some request, []⟩

/-- `request_response_delay` -/
def request_response_delay (action : fr_state_action_t) (request : REQUEST) : Effect :=
  if request.master_state = REQUEST_STOP_PROCESSING then request_done turn FR_ACTION_CANCELLED request
  else
    match action with
    | FR_ACTION_TIMER =>
      let when := request.reply.timestamp + request.response_delay
      if turn.now < when then ⟨some (STATE_MACHINE_TIMER when request), []⟩
      else
        let sent := common_socket_send turn (client_socket_encode turn request)
        let effect := request_cleanup_delay_init config turn sent.1
        ⟨effect.request, sent.2 ++ effect.events⟩
    | _ => ⟨some request, []⟩

/-- `request_pre_handler`. `decoded` says if the decoder of the listener takes the packet. -/
def request_pre_handler (decoded : Bool) (request : REQUEST) : Bool :=
  if request.master_state = REQUEST_STOP_PROCESSING then false
  else if request.packet.dst_port = 0 then true
  else decoded

/-- `request_running`, as far as the call of the handler. -/
def request_running (decoded : Bool) (action : fr_state_action_t) (request : REQUEST) : Effect :=
  if request.master_state = REQUEST_STOP_PROCESSING then request_done turn FR_ACTION_CANCELLED request
  else
    match action with
    | FR_ACTION_TIMER => request_max_time config turn request
    | FR_ACTION_RUN =>
      if request_pre_handler decoded request then ⟨some { request with thread := .decoded }, []⟩
      else ⟨some (FINAL_STATE REQUEST_DONE request), []⟩
    | _ => ⟨some request, []⟩

/-- The function that `request->process` points to. -/
def call_process (decoded : Bool) (action : fr_state_action_t) :
    fr_request_process_t → REQUEST → Effect
  | .request_running => request_running config turn decoded action
  | .request_response_delay => request_response_delay config turn action
  | .request_cleanup_delay => request_cleanup_delay config turn action
  | .request_done => request_done turn action

/-- `request->process(request, action)` -/
def request_process (decoded : Bool) (action : fr_state_action_t) (request : REQUEST) : Effect :=
  call_process config turn decoded action request.process request

/-- `request_dequeue` and the start of `request_handler_thread`. -/
def request_dequeue (request : REQUEST) : REQUEST :=
  if request.master_state = REQUEST_STOP_PROCESSING then FINAL_STATE REQUEST_DONE request
  else { request with child_state := REQUEST_RUNNING, thread := .dequeued }

/-- What the handler of a request leaves in it. -/
structure Handled where
  code : Nat
  response_packet_type : Option Nat := none

/-- What the post-auth section leaves in a request. -/
structure PostAuth extends Handled where
  FreeRADIUS_Response_Delay : Option Nat := none
  FreeRADIUS_Response_Delay_USec : Option Nat := none

/-- `request->handle(request)` -/
def request_handle (result : Handled) (request : REQUEST) : Effect :=
  ⟨some { request with
    reply := { request.reply with code := result.code }
    response_packet_type := result.response_packet_type
    thread := .handled }, [.handle turn.now request]⟩

/-- The code that `request_finish` gives the reply before post-auth. -/
def response_code (request : REQUEST) : Nat :=
  match request.response_packet_type with
  | some type => if type = 256 then 0 else type
  | none =>
    if request.packet.code = PW_CODE_ACCESS_REQUEST ∧ request.reply.code = 0 then PW_CODE_ACCESS_REJECT.toNat
    else request.reply.code

/-- `request_finish`, as far as post-auth. -/
def request_finish (post_auth : PostAuth) (request : REQUEST) : Effect :=
  if request.master_state = REQUEST_STOP_PROCESSING then request_done turn FR_ACTION_CANCELLED request
  else
    let request := { request with reply := { request.reply with code := response_code request }, thread := .finished }
    if request.packet.code = PW_CODE_ACCESS_REQUEST then
      ⟨some { request with
        reply := { request.reply with
          code := if post_auth.response_packet_type = some 256 then 0 else post_auth.code
          FreeRADIUS_Response_Delay := post_auth.FreeRADIUS_Response_Delay
          FreeRADIUS_Response_Delay_USec := post_auth.FreeRADIUS_Response_Delay_USec }
        response_packet_type := post_auth.response_packet_type }, []⟩
    else ⟨some request, []⟩

/-- How long `request_finish` delays a reply. -/
def reject_wait (request : REQUEST) : Nat :=
  if request.packet.code = PW_CODE_ACCESS_REQUEST ∧ request.reply.code = PW_CODE_ACCESS_REJECT.toNat ∧
      USEC ≤ config.reject_delay then
    match request.reply.FreeRADIUS_Response_Delay with
    | some delay => if delay ≤ 10 then delay * USEC else 10 * USEC
    | none =>
      match request.reply.FreeRADIUS_Response_Delay_USec with
      | some delay => if delay ≤ 10 * USEC then delay else 10 * USEC
      | none => config.reject_delay
  else 0

/-- `request_finish` after post-auth, as far as the reply is not sent by the child. -/
def request_finish_reply (request : REQUEST) : Effect :=
  let request := { request with reply := { request.reply with timestamp := turn.now } }
  if request.packet.dst_port = 0 then ⟨some (FINAL_STATE REQUEST_DONE request), []⟩
  else if request.reply.code = 0 then request_cleanup_delay_init config turn request
  else if !request.in_request_hash then request_cleanup_delay_init config turn request
  else
    let request := { request with response_delay := reject_wait config request }
    if request.response_delay = 0 then ⟨some { request with thread := .sending }, []⟩
    else
      let request := { client_socket_encode turn request with process := .request_response_delay }
      ⟨some (FINAL_STATE REQUEST_RESPONSE_DELAY request), []⟩

/-- The end of `request_finish`: the child sends the reply. -/
def request_finish_send (request : REQUEST) : Effect :=
  let sent := common_socket_send turn (client_socket_encode turn request)
  let effect := request_cleanup_delay_init config turn sent.1
  ⟨effect.request, sent.2 ++ effect.events⟩

/-- `request_queue_or_run`, in the master thread. `enqueued` says if the queue of the
    thread pool takes the request; `request_enqueue`, as it is built with stdatomic, sets
    `REQUEST_QUEUED` before it asks the queue. -/
def request_queue_or_run (process : fr_request_process_t) (enqueued : Bool) (request : REQUEST) : Effect :=
  if request.master_state = REQUEST_STOP_PROCESSING then request_done turn FR_ACTION_CANCELLED request
  else
    let delay := if USEC < config.init_delay then USEC else config.init_delay
    let when := turn.now + delay
    let request := { request with process := process, delay := delay + delay / 2 }
    let request := { STATE_MACHINE_TIMER when request with child_state := REQUEST_QUEUED }
    if enqueued then ⟨some { request with thread := .queued }, []⟩
    else request_done turn FR_ACTION_INTERNAL_FAILURE request

/-- `request_timer`, once the timer of the request has run out. -/
def request_timer (request : REQUEST) : Effect :=
  match request.ev with
  | some when =>
    if when ≤ turn.now then request_process config turn false FR_ACTION_TIMER { request with ev := none }
    else ⟨some request, []⟩
  | none => ⟨some request, []⟩

/-- A step of the child thread that is at a point of the request. -/
def request_child (thread : Thread) (step : REQUEST → Effect) (request : REQUEST) : Effect :=
  if request.thread = thread then step request else ⟨some request, []⟩

end Process

end freeradius.processing
