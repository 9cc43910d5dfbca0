import AaaServer.Process.Request

namespace freeradius.processing

section Moves

open fr_state_action_t rad_master_state_t rad_child_state_t

/-- A reply goes out as it was encoded first, or there is none. -/
inductive Sends (now : Nat) (request : REQUEST) : REQUEST → List Event → Prop where
  | sent (data : List UInt8) (hcode : request.reply.code ≠ 0)
      (hkept : request.reply.data.isSome → request.reply.data = some data) :
      Sends now request { request with reply := { request.reply with data := some data } }
        [.send now { request with reply := { request.reply with data := some data } }]
  | unsent (hreply : request.reply.code = 0 ∨ request.reply.data = none) : Sends now request request []

/-- A request that is not kept for duplicates of its packet once it has its reply. -/
def Final (config : main_config_t) (now : Nat) (request : REQUEST) : Prop :=
  request.packet.dst_port = 0 ∨ request.packet.code = PW_CODE_ACCOUNTING_REQUEST ∨ config.cleanup_delay = 0 ∨
    request.reply.timestamp + config.cleanup_delay * USEC ≤ now

/-- The child thread lets go of a request that has its reply. -/
inductive Settles (config : main_config_t) (now : Nat) (request : REQUEST) : REQUEST → Prop where
  | done (delay : Int) (hfinal : Final config now request) :
      Settles config now request
        (FINAL_STATE REQUEST_DONE { request with process := .request_done, delay := delay })
  | cleanup (hnow : now < request.reply.timestamp + config.cleanup_delay * USEC) :
      Settles config now request
        (FINAL_STATE REQUEST_CLEANUP_DELAY
          { request with process := .request_cleanup_delay, delay := config.cleanup_delay })

/-- A request leaves the request hash. The master thread frees it, or waits for the
    child thread that has it. -/
inductive Leaves (request : REQUEST) : Option REQUEST → Prop where
  | freed (hfinished : request.child_state.unfinished = false) : Leaves request none
  | waited (delay : Int) (when : Nat) (hunfinished : request.child_state.unfinished = true) :
      Leaves request (some { request with
        process := .request_done
        master_state := REQUEST_STOP_PROCESSING
        in_request_hash := false
        delay := delay
        ev := some when })

/-- Why the timer of a request takes it from the request hash. -/
inductive Due (config : main_config_t) (now : Nat) (request : REQUEST) : Prop where
  | stopped (hstop : request.master_state = REQUEST_STOP_PROCESSING)
  | done (hprocess : request.process = .request_done)
  | dropped (hprocess : request.process = .request_running) (hchild : request.child_state = REQUEST_DONE)
  | max_time (hprocess : request.process = .request_running)
      (hnow : request.timestamp + config.max_request_time * USEC ≤ now)
  | cleanup (hprocess : request.process = .request_cleanup_delay)
      (hnow : request.reply.timestamp + config.cleanup_delay * USEC ≤ now)

/-- What a duplicate of its packet does to a request. -/
inductive Repeats (request : REQUEST) (now : Nat) : Effect → Prop where
  | ignored (hprocess : request.process = .request_running ∨ request.process = .request_response_delay) :
      Repeats request now ⟨some request, []⟩
  | left {left : Option REQUEST} (hleaves : Leaves request left)
      (hdue : request.master_state = REQUEST_STOP_PROCESSING ∧ request.process ≠ .request_done ∨
        request.process = .request_done ∧ request.reply.code = 0) :
      Repeats request now ⟨left, []⟩
  | resent {sent : REQUEST} {events : List Event} (hprocess : request.process = .request_cleanup_delay)
      (hactive : request.master_state = REQUEST_ACTIVE) (hsends : Sends now request sent events) :
      Repeats request now ⟨some { sent with
        delay := int (sent.delay + sent.delay)
        ev := some (sent.reply.timestamp + int (sent.delay + sent.delay) * USEC : Int).toNat }, events⟩
  | resent_done {sent : REQUEST} {events : List Event} (hprocess : request.process = .request_done)
      (hcode : request.reply.code ≠ 0)
      (hsends : Sends now { request with
        process := .request_done, master_state := REQUEST_STOP_PROCESSING } sent events) :
      Repeats request now ⟨some sent, events⟩

/-- What the timer of a request and the child thread that has it do to it: the life of
    a request. -/
inductive Moves (config : main_config_t) (now : Nat) (request : REQUEST) : Effect → Prop where
  | kept : Moves config now request ⟨some request, []⟩
  | left {left : Option REQUEST} (hdue : Due config now request) (hleaves : Leaves request left) :
      Moves config now request ⟨left, []⟩
  | waited (hprocess : request.process = .request_running) (hactive : request.master_state = REQUEST_ACTIVE)
      (hnow : now < request.timestamp + config.max_request_time * USEC)
      (hlate : ∃ when, request.ev = some when ∧ when ≤ now) :
      Moves config now request ⟨some { request with
        delay := int (request.delay + request.delay / 2)
        ev := some (now + request.delay : Int).toNat }, []⟩
  | rested (when : Nat) (hactive : request.master_state = REQUEST_ACTIVE)
      (hprocess : request.process = .request_response_delay ∨ request.process = .request_cleanup_delay) :
      Moves config now request ⟨some { request with ev := some when }, []⟩
  | replied_late {sent : REQUEST} {events : List Event} (hprocess : request.process = .request_response_delay)
      (hactive : request.master_state = REQUEST_ACTIVE)
      (hdelay : request.reply.timestamp + request.response_delay ≤ now)
      (hsends : Sends now { request with ev := none } sent events)
      (hnow : now < sent.reply.timestamp + config.cleanup_delay * USEC) :
      Moves config now request ⟨some { sent with
        process := .request_cleanup_delay
        child_state := REQUEST_CLEANUP_DELAY
        delay := config.cleanup_delay
        ev := some (sent.reply.timestamp + config.cleanup_delay * USEC) }, events⟩
  | replied_last {sent : REQUEST} {events : List Event} {left : Option REQUEST} (delay : Int)
      (hprocess : request.process = .request_response_delay)
      (hactive : request.master_state = REQUEST_ACTIVE)
      (hdelay : request.reply.timestamp + request.response_delay ≤ now)
      (hsends : Sends now { request with ev := none } sent events)
      (hfinal : Final config now sent)
      (hleaves : Leaves { sent with delay := delay } left) :
      Moves config now request ⟨left, events⟩
  | dequeued (hthread : request.thread = .queued) (hactive : request.master_state = REQUEST_ACTIVE) :
      Moves config now request ⟨some { request with child_state := REQUEST_RUNNING, thread := .dequeued }, []⟩
  | dropped (process : fr_request_process_t) (hthread : request.thread ≠ .idle)
      (hprocess : process = request.process ∨ process = .request_done ∧
        (request.master_state = REQUEST_STOP_PROCESSING ∨ request.process = .request_done))
      (hdropped : request.master_state = REQUEST_STOP_PROCESSING ∨ request.thread = .dequeued) :
      Moves config now request ⟨some (FINAL_STATE REQUEST_DONE { request with process := process }), []⟩
  | decoded (hthread : request.thread = .dequeued) (hactive : request.master_state = REQUEST_ACTIVE)
      (hprocess : request.process = .request_running) :
      Moves config now request ⟨some { request with thread := .decoded }, []⟩
  | handled (code : Nat) (type : Option Nat) (hthread : request.thread = .decoded) :
      Moves config now request ⟨some { request with
        reply := { request.reply with code := code }
        response_packet_type := type
        thread := .handled }, [.handle now request]⟩
  | finished (reply : Reply) (type : Option Nat) (hthread : request.thread = .handled)
      (hactive : request.master_state = REQUEST_ACTIVE) :
      Moves config now request ⟨some { request with
        reply := reply
        response_packet_type := type
        thread := .finished }, []⟩
  | faked (hthread : request.thread = .finished) (hfake : request.packet.dst_port = 0) :
      Moves config now request ⟨some (FINAL_STATE REQUEST_DONE
        { request with reply := { request.reply with timestamp := now } }), []⟩
  | quieted {settled : REQUEST} (hthread : request.thread = .finished)
      (hquiet : request.reply.code = 0 ∨ request.in_request_hash = false)
      (hsettles : Settles config now { request with reply := { request.reply with timestamp := now } } settled) :
      Moves config now request ⟨some settled, []⟩
  | readied (hthread : request.thread = .finished) (hhash : request.in_request_hash = true)
      (hwait : reject_wait config request = 0) :
      Moves config now request ⟨some { request with
        reply := { request.reply with timestamp := now }
        response_delay := reject_wait config request
        thread := .sending }, []⟩
  | delayed (data : Option (List UInt8)) (hthread : request.thread = .finished)
      (hhash : request.in_request_hash = true) :
      Moves config now request ⟨some (FINAL_STATE REQUEST_RESPONSE_DELAY { request with
        reply := { request.reply with timestamp := now, data := data }
        response_delay := reject_wait config request
        process := .request_response_delay }), []⟩
  | answered {sent settled : REQUEST} {events : List Event} (hthread : request.thread = .sending)
      (hsends : Sends now request sent events) (hsettles : Settles config now sent settled) :
      Moves config now request ⟨some settled, events⟩

end Moves

section Functions

open fr_state_action_t rad_master_state_t rad_child_state_t

variable {config : main_config_t} {turn : Turn} {now : Nat} {encoded : Option (List UInt8)} {decoded : Bool}
  {action : fr_state_action_t} {request : REQUEST}

theorem common_socket_send_sends :
    Sends turn.now request (common_socket_send turn request).1 (common_socket_send turn request).2 := by
  unfold common_socket_send Reply.encode
  by_cases hcode : request.reply.code = 0
  · rw [if_pos hcode]
    exact .unsent (.inl hcode)
  rw [if_neg hcode]
  cases hdata : request.reply.data with
  | some data =>
    have hsent := @Sends.sent turn.now request data hcode fun _ => hdata
    have hsame : ({ request with reply := { request.reply with data := some data } } : REQUEST) = request := by
      rw [← hdata]
    rw [hsame] at hsent
    simpa [hdata] using hsent
  | none =>
    cases hencoded : turn.encoded with
    | some data =>
      have hsent := @Sends.sent turn.now request data hcode (by simp [hdata])
      simpa using hsent
    | none =>
      have hunsent := @Sends.unsent turn.now request (.inr hdata)
      have hsame : ({ request with reply := { request.reply with data := none } } : REQUEST) = request := by
        rw [← hdata]
      simpa [hsame] using hunsent

@[simp]
theorem Reply.encode_encode (reply : Reply) : (reply.encode encoded).encode encoded = reply.encode encoded := by
  obtain ⟨code, timestamp, data, delay, delay_usec⟩ := reply
  cases data with
  | some data => rfl
  | none => cases encoded <;> rfl

@[simp]
theorem Reply.encode_code (reply : Reply) : (reply.encode encoded).code = reply.code := by
  unfold Reply.encode
  split <;> rfl

theorem Reply.encode_timestamp (reply : Reply) (timestamp : Nat) :
    ({ reply with timestamp := timestamp } : Reply).encode encoded =
      { reply with timestamp := timestamp, data := (reply.encode encoded).data } := by
  obtain ⟨code, _, data, delay, delay_usec⟩ := reply
  cases data <;> rfl

/-- Encoding a reply that is then sent changes nothing. -/
theorem common_socket_send_encode :
    common_socket_send turn (client_socket_encode turn request) = common_socket_send turn request := by
  unfold client_socket_encode
  by_cases hcode : request.reply.code = 0
  · rw [if_pos hcode]
  rw [if_neg hcode]
  simp only [common_socket_send, Reply.encode_code, Reply.encode_encode, if_neg hcode]

theorem request_remove_leaves :
    ∃ left, Leaves request left ∧ request_remove turn { request with
      process := .request_done, master_state := REQUEST_STOP_PROCESSING } = ⟨left, []⟩ := by
  unfold request_remove
  cases hchild : request.child_state.unfinished with
  | false => exact ⟨none, .freed hchild, by simp [hchild]⟩
  | true => exact ⟨_, .waited _ _ hchild, by simp only [hchild]; rfl⟩

/-- The master thread takes a request from the request hash, for any reason but a
    duplicate. -/
theorem request_done_leaves (hmaster : turn.master = true) (haction : action ≠ FR_ACTION_DUP) :
    ∃ left, Leaves request left ∧ request_done turn action request = ⟨left, []⟩ := by
  obtain ⟨left, hleaves, hremove⟩ := @request_remove_leaves turn request
  have hdone : (if request.child_state.unfinished then
      request_remove turn { request with process := .request_done, master_state := REQUEST_STOP_PROCESSING }
    else request_remove turn { request with
      process := .request_done, master_state := REQUEST_STOP_PROCESSING, child_state := REQUEST_DONE }) =
      ⟨left, []⟩ := by
    split
    · exact hremove
    · rename_i hfinished
      cases hleaves with
      | freed hchild => rfl
      | waited _ _ hunfinished => exact absurd hunfinished hfinished
  refine ⟨left, hleaves, ?_⟩
  unfold request_done
  rw [hmaster]
  cases action with
  | FR_ACTION_DUP => exact absurd rfl haction
  | FR_ACTION_RUN => exact hremove
  | FR_ACTION_TIMER => exact hremove
  | _ => exact hdone

/-- The child thread does not touch the tables. -/
theorem request_done_child (hchild : turn.master = false) :
    request_done turn action request =
      ⟨some (FINAL_STATE REQUEST_DONE { request with process := .request_done }), []⟩ := by
  unfold request_done
  rw [hchild]
  rfl

theorem request_cleanup_delay_init_cases :
    (∃ delay, Final config turn.now request ∧ request_cleanup_delay_init config turn request =
      request_done turn FR_ACTION_DONE { request with delay := delay }) ∨
    (turn.now < request.reply.timestamp + config.cleanup_delay * USEC ∧
      request_cleanup_delay_init config turn request =
        if !turn.master then ⟨some (FINAL_STATE REQUEST_CLEANUP_DELAY
          { request with process := .request_cleanup_delay, delay := config.cleanup_delay }), []⟩
        else ⟨some { request with
          process := .request_cleanup_delay
          child_state := REQUEST_CLEANUP_DELAY
          delay := config.cleanup_delay
          ev := some (request.reply.timestamp + config.cleanup_delay * USEC) }, []⟩) := by
  unfold request_cleanup_delay_init
  by_cases hport : request.packet.dst_port = 0
  · exact .inl ⟨request.delay, .inl hport, if_pos hport⟩
  rw [if_neg hport]
  by_cases hcode : request.packet.code = PW_CODE_ACCOUNTING_REQUEST
  · exact .inl ⟨request.delay, .inr (.inl hcode), if_pos hcode⟩
  rw [if_neg hcode]
  by_cases hdelay : config.cleanup_delay = 0
  · exact .inl ⟨request.delay, .inr (.inr (.inl hdelay)), if_pos hdelay⟩
  rw [if_neg hdelay]
  by_cases hnow : turn.now < request.reply.timestamp + config.cleanup_delay * USEC
  · exact .inr ⟨hnow, if_pos hnow⟩
  · exact .inl ⟨config.cleanup_delay, .inr (.inr (.inr (Nat.not_lt.mp hnow))), if_neg hnow⟩

theorem request_cleanup_delay_init_settles (hchild : turn.master = false) :
    ∃ settled, Settles config turn.now request settled ∧
      request_cleanup_delay_init config turn request = ⟨some settled, []⟩ := by
  obtain ⟨delay, hfinal, hinit⟩ | ⟨hnow, hinit⟩ := @request_cleanup_delay_init_cases config turn request
  · exact ⟨_, .done delay hfinal, by rw [hinit, request_done_child hchild]⟩
  · exact ⟨_, .cleanup hnow, by rw [hinit, hchild]; rfl⟩

theorem active_of_ne (hstop : request.master_state ≠ REQUEST_STOP_PROCESSING) :
    request.master_state = REQUEST_ACTIVE := by
  cases hstate : request.master_state with
  | REQUEST_ACTIVE => rfl
  | REQUEST_STOP_PROCESSING => exact absurd hstate hstop

/-- A request with a timer leaves as it does without. -/
theorem Leaves.of_ev {left : Option REQUEST} {ev : Option Nat} (hleaves : Leaves { request with ev := ev } left) :
    Leaves request left := by
  cases hleaves with
  | freed hfinished => exact .freed hfinished
  | waited delay when hunfinished => exact .waited delay when hunfinished

theorem request_done_moves (hmaster : turn.master = true) (haction : action ≠ FR_ACTION_DUP)
    (hdue : Due config turn.now request) :
    Moves config turn.now request (request_done turn action { request with ev := none }) := by
  obtain ⟨left, hleaves, hdone⟩ := @request_done_leaves turn action { request with ev := none } hmaster haction
  rw [hdone]
  exact .left hdue hleaves.of_ev

theorem request_done_repeats (hmaster : turn.master = true) (hprocess : request.process = .request_done) :
    Repeats request turn.now (request_done turn FR_ACTION_DUP request) := by
  by_cases hcode : request.reply.code = 0
  · obtain ⟨left, hleaves, hremove⟩ := @request_remove_leaves turn request
    have hdone : request_done turn FR_ACTION_DUP request = ⟨left, []⟩ := by
      rw [← hremove]
      simp [request_done, hmaster, hcode, fr_state_action_t.cancels]
    rw [hdone]
    exact .left hleaves (.inr ⟨hprocess, hcode⟩)
  · have hdone : request_done turn FR_ACTION_DUP request =
        ⟨some (common_socket_send turn { request with
            process := .request_done, master_state := REQUEST_STOP_PROCESSING }).1,
          (common_socket_send turn { request with
            process := .request_done, master_state := REQUEST_STOP_PROCESSING }).2⟩ := by
      simp [request_done, hmaster, hcode, fr_state_action_t.cancels]
    rw [hdone]
    exact .resent_done hprocess hcode common_socket_send_sends

theorem request_running_moves (hmaster : turn.master = true) (hprocess : request.process = .request_running)
    (hlate : ∃ when, request.ev = some when ∧ when ≤ turn.now) :
    Moves config turn.now request
      (request_running config turn decoded FR_ACTION_TIMER { request with ev := none }) := by
  unfold request_running
  by_cases hstop : request.master_state = REQUEST_STOP_PROCESSING
  · rw [if_pos hstop]
    exact request_done_moves hmaster (by decide) (.stopped hstop)
  rw [if_neg hstop]
  unfold request_max_time
  by_cases hchild : request.child_state = REQUEST_DONE
  · rw [if_pos hchild]
    exact request_done_moves hmaster (by decide) (.dropped hprocess hchild)
  rw [if_neg hchild]
  by_cases hnow : request.timestamp + config.max_request_time * USEC ≤ turn.now
  · rw [if_pos hnow]
    exact request_done_moves hmaster (by decide) (.max_time hprocess hnow)
  · rw [if_neg hnow]
    exact .waited hprocess (active_of_ne hstop) (Nat.not_le.mp hnow) hlate

theorem request_response_delay_moves (hmaster : turn.master = true)
    (hprocess : request.process = .request_response_delay) :
    Moves config turn.now request
      (request_response_delay config turn FR_ACTION_TIMER { request with ev := none }) := by
  unfold request_response_delay
  by_cases hstop : request.master_state = REQUEST_STOP_PROCESSING
  · rw [if_pos hstop]
    exact request_done_moves hmaster (by decide) (.stopped hstop)
  rw [if_neg hstop]
  by_cases hnow : turn.now < request.reply.timestamp + request.response_delay
  · simp only [if_pos hnow]
    exact .rested _ (active_of_ne hstop) (.inl hprocess)
  simp only [if_neg hnow, common_socket_send_encode]
  rw [Nat.not_lt] at hnow
  have hsends := @common_socket_send_sends turn { request with ev := none }
  obtain ⟨delay, hfinal, hinit⟩ | ⟨hkept, hinit⟩ := @request_cleanup_delay_init_cases config turn
    (common_socket_send turn { request with ev := none }).1
  · obtain ⟨left, hleaves, hdone⟩ := @request_done_leaves turn FR_ACTION_DONE
      { (common_socket_send turn { request with ev := none }).1 with delay := delay } hmaster (by decide)
    rw [hinit, hdone, List.append_nil]
    exact .replied_last delay hprocess (active_of_ne hstop) hnow hsends hfinal hleaves
  · rw [hinit, hmaster]
    have hmove := Moves.replied_late hprocess (active_of_ne hstop) hnow hsends hkept
    simpa using hmove

theorem request_cleanup_delay_moves (hmaster : turn.master = true)
    (hprocess : request.process = .request_cleanup_delay) :
    Moves config turn.now request
      (request_cleanup_delay config turn FR_ACTION_TIMER { request with ev := none }) := by
  unfold request_cleanup_delay
  by_cases hstop : request.master_state = REQUEST_STOP_PROCESSING
  · rw [if_pos hstop]
    exact request_done_moves hmaster (by decide) (.stopped hstop)
  rw [if_neg hstop]
  by_cases hnow : turn.now < request.reply.timestamp + config.cleanup_delay * USEC
  · simp only [if_pos hnow]
    exact .rested _ (active_of_ne hstop) (.inr hprocess)
  · simp only [if_neg hnow]
    exact request_done_moves hmaster (by decide) (.cleanup hprocess (Nat.not_lt.mp hnow))

theorem request_timer_moves (hmaster : turn.master = true) :
    Moves config turn.now request (request_timer config turn request) := by
  unfold request_timer
  split
  · rename_i when hev
    by_cases hwhen : when ≤ turn.now
    · rw [if_pos hwhen]
      have hcall : ∀ process, request.process = process → Moves config turn.now request
          (call_process config turn false FR_ACTION_TIMER process { request with ev := none }) := by
        intro process hprocess
        rw [call_process.eq_def]
        cases process with
        | request_running => exact request_running_moves hmaster hprocess ⟨when, hev, hwhen⟩
        | request_response_delay => exact request_response_delay_moves hmaster hprocess
        | request_cleanup_delay => exact request_cleanup_delay_moves hmaster hprocess
        | request_done => exact request_done_moves hmaster (by decide) (.done hprocess)
      exact hcall _ rfl
    · rw [if_neg hwhen]
      exact .kept
  · exact .kept

/-- What the master thread does when a duplicate of its packet arrives. -/
theorem request_process_repeats (hmaster : turn.master = true) :
    Repeats request turn.now (request_process config turn decoded FR_ACTION_DUP request) := by
  have hstopped : request.process ≠ .request_done → request.master_state = REQUEST_STOP_PROCESSING →
      Repeats request turn.now (request_done turn FR_ACTION_CANCELLED request) := by
    intro hprocess hstop
    obtain ⟨left, hleaves, hdone⟩ := @request_done_leaves turn FR_ACTION_CANCELLED request hmaster (by decide)
    rw [hdone]
    exact .left hleaves (.inl ⟨hstop, hprocess⟩)
  have hcall : ∀ process, request.process = process →
      Repeats request turn.now (call_process config turn decoded FR_ACTION_DUP process request) := by
    intro process hprocess
    by_cases hstop : request.master_state = REQUEST_STOP_PROCESSING
    · cases process with
      | request_running =>
        simp only [call_process, request_running, if_pos hstop]
        exact hstopped (by simp [hprocess]) hstop
      | request_response_delay =>
        simp only [call_process, request_response_delay, if_pos hstop]
        exact hstopped (by simp [hprocess]) hstop
      | request_cleanup_delay =>
        simp only [call_process, request_cleanup_delay, if_pos hstop]
        exact hstopped (by simp [hprocess]) hstop
      | request_done => exact request_done_repeats hmaster hprocess
    · have hactive := active_of_ne hstop
      cases process with
      | request_running =>
        simp only [call_process, request_running, if_neg hstop]
        exact .ignored (.inl hprocess)
      | request_response_delay =>
        simp only [call_process, request_response_delay, if_neg hstop]
        exact .ignored (.inr hprocess)
      | request_cleanup_delay =>
        simp only [call_process, request_cleanup_delay, if_neg hstop]
        exact .resent hprocess hactive common_socket_send_sends
      | request_done => exact request_done_repeats hmaster hprocess
  exact hcall _ rfl

variable {thread : Thread} {step : REQUEST → Effect}

theorem request_child_moves
    (hstep : request.thread = thread → Moves config now request (step request)) :
    Moves config now request (request_child thread step request) := by
  unfold request_child
  by_cases hthread : request.thread = thread
  · rw [if_pos hthread]
    exact hstep hthread
  · rw [if_neg hthread]
    exact .kept

theorem request_dequeue_moves (hthread : request.thread = .queued) :
    Moves config now request ⟨some (request_dequeue request), []⟩ := by
  unfold request_dequeue
  by_cases hstop : request.master_state = REQUEST_STOP_PROCESSING
  · rw [if_pos hstop]
    exact .dropped request.process (by simp [hthread]) (.inl rfl) (.inl hstop)
  · rw [if_neg hstop]
    exact .dequeued hthread (active_of_ne hstop)

/-- `request->process(request, FR_ACTION_RUN)`, in the child thread. -/
theorem request_process_moves (hchild : turn.master = false) (hthread : request.thread = .dequeued) :
    Moves config turn.now request (request_process config turn decoded FR_ACTION_RUN request) := by
  have hbusy : request.thread ≠ .idle := by simp [hthread]
  have hdone : ∀ action, request.master_state = REQUEST_STOP_PROCESSING ∨ request.process = .request_done →
      Moves config turn.now request (request_done turn action request) := by
    intro action hwhy
    rw [request_done_child hchild]
    exact .dropped .request_done hbusy (.inr ⟨rfl, hwhy⟩) (.inr hthread)
  have hcall : ∀ process, request.process = process →
      Moves config turn.now request (call_process config turn decoded FR_ACTION_RUN process request) := by
    intro process hprocess
    rw [call_process.eq_def]
    by_cases hstop : request.master_state = REQUEST_STOP_PROCESSING
    · cases process with
      | request_running => simpa only [request_running, if_pos hstop] using hdone _ (.inl hstop)
      | request_response_delay => simpa only [request_response_delay, if_pos hstop] using hdone _ (.inl hstop)
      | request_cleanup_delay => simpa only [request_cleanup_delay, if_pos hstop] using hdone _ (.inl hstop)
      | request_done => exact hdone _ (.inr hprocess)
    · cases process with
      | request_running =>
        simp only [request_running, if_neg hstop]
        split
        · exact .decoded hthread (active_of_ne hstop) hprocess
        · exact .dropped request.process hbusy (.inl rfl) (.inr hthread)
      | request_response_delay =>
        simp only [request_response_delay, if_neg hstop]
        exact .kept
      | request_cleanup_delay =>
        simp only [request_cleanup_delay, if_neg hstop]
        exact .kept
      | request_done => exact hdone _ (.inr hprocess)
  exact hcall _ rfl

theorem request_finish_moves {post_auth : PostAuth} (hchild : turn.master = false)
    (hthread : request.thread = .handled) :
    Moves config turn.now request (request_finish turn post_auth request) := by
  unfold request_finish
  by_cases hstop : request.master_state = REQUEST_STOP_PROCESSING
  · rw [if_pos hstop, request_done_child hchild]
    exact .dropped .request_done (by simp [hthread]) (.inr ⟨rfl, .inl hstop⟩) (.inl hstop)
  · rw [if_neg hstop]
    dsimp only
    split
    · exact .finished _ _ hthread (active_of_ne hstop)
    · exact .finished _ request.response_packet_type hthread (active_of_ne hstop)

theorem request_finish_reply_moves (hchild : turn.master = false) (hthread : request.thread = .finished) :
    Moves config turn.now request (request_finish_reply config turn request) := by
  have hquiet : request.reply.code = 0 ∨ request.in_request_hash = false →
      Moves config turn.now request (request_cleanup_delay_init config turn
        { request with reply := { request.reply with timestamp := turn.now } }) := by
    intro hquiet
    obtain ⟨settled, hsettles, hinit⟩ := @request_cleanup_delay_init_settles config turn
      { request with reply := { request.reply with timestamp := turn.now } } hchild
    rw [hinit]
    exact .quieted hthread hquiet hsettles
  unfold request_finish_reply
  dsimp only
  by_cases hport : request.packet.dst_port = 0
  · rw [if_pos hport]
    exact .faked hthread hport
  rw [if_neg hport]
  by_cases hcode : request.reply.code = 0
  · rw [if_pos hcode]
    exact hquiet (.inl hcode)
  rw [if_neg hcode]
  by_cases hhash : request.in_request_hash = false
  · rw [if_pos (by simp [hhash])]
    exact hquiet (.inr hhash)
  rw [if_neg (by simpa using hhash)]
  rw [Bool.not_eq_false] at hhash
  by_cases hwait : reject_wait config request = 0
  · refine (congrArg (Moves config turn.now request) (if_pos hwait)).mpr ?_
    exact .readied hthread hhash hwait
  · refine (congrArg (Moves config turn.now request) (if_neg hwait)).mpr ?_
    rw [client_socket_encode, if_neg hcode]
    dsimp only
    rw [Reply.encode_timestamp]
    exact .delayed (request.reply.encode turn.encoded).data hthread hhash

theorem request_finish_send_moves (hchild : turn.master = false) (hthread : request.thread = .sending) :
    Moves config turn.now request (request_finish_send config turn request) := by
  obtain ⟨settled, hsettles, hinit⟩ := @request_cleanup_delay_init_settles config turn
    (common_socket_send turn request).1 hchild
  rw [request_finish_send, common_socket_send_encode]
  simp only [hinit, List.append_nil]
  exact .answered hthread common_socket_send_sends hsettles

end Functions

end freeradius.processing
