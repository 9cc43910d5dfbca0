import AaaServer.Process.Sound

namespace freeradius.processing

section Freed

open fr_state_action_t rad_master_state_t rad_child_state_t

variable {config : main_config_t} {turn : Turn} {now : Nat} {request request' : REQUEST} {effect : Effect}
  {action : fr_state_action_t}

/-- The thread pool has refused the request: no thread has it, and its child state waits
    for one. -/
def Refused (request : REQUEST) : Prop :=
  request.thread = .idle ∧ request.child_state.unfinished = true

/-- A new request is refused exactly when the queue does not take it. -/
theorem refused_iff_not_enqueued {number : Nat} {packet : Datagram} {enqueued : Bool} {encoded : Option (List UInt8)}
    (hqueued : (request_queue_or_run config ⟨true, now, encoded⟩ .request_running enqueued
      { request_setup number now packet with in_request_hash := true }).request = some request) :
    Refused request ↔ enqueued = false := by
  unfold request_queue_or_run at hqueued
  rw [if_neg (fun hstop => by cases hstop)] at hqueued
  cases enqueued with
  | true =>
    cases hqueued
    exact iff_of_false (fun hrefused => by cases hrefused.1) (by decide)
  | false =>
    cases hqueued
    exact iff_of_true ⟨rfl, rfl⟩ rfl

theorem Settles.not_refused {settled : REQUEST} (hsettles : Settles config now request settled) :
    ¬ Refused settled := by
  cases hsettles with
  | done => exact fun hrefused => by cases hrefused.2
  | cleanup => exact fun hrefused => by cases hrefused.2

theorem Leaves.refused {left : Option REQUEST} (hleaves : Leaves request left) (hleft : left = some request') :
    (Refused request' ↔ Refused request) ∧ request'.in_request_hash = false := by
  cases hleaves with
  | freed => cases hleft
  | waited =>
    cases hleft
    exact ⟨Iff.rfl, rfl⟩

/-- No step of a thread or a timer makes a request a refused one. -/
theorem Moves.refused (hmoves : Moves config now request effect) (hleft : effect.request = some request')
    (hrefused : Refused request') : Refused request := by
  cases hmoves with
  | kept =>
    cases hleft
    exact hrefused
  | left _ hleaves => exact (hleaves.refused hleft).1.mp hrefused
  | waited =>
    cases hleft
    exact hrefused
  | rested =>
    cases hleft
    exact hrefused
  | replied_late =>
    cases hleft
    cases hrefused.2
  | replied_last _ _ _ _ hsends _ hleaves =>
    obtain ⟨data, rfl⟩ := hsends.encodes
    exact (hleaves.refused hleft).1.mp hrefused
  | quieted _ _ hsettles =>
    cases hleft
    exact absurd hrefused hsettles.not_refused
  | answered _ _ hsettles =>
    cases hleft
    exact absurd hrefused hsettles.not_refused
  | dropped =>
    cases hleft
    cases hrefused.2
  | faked =>
    cases hleft
    cases hrefused.2
  | delayed =>
    cases hleft
    cases hrefused.2
  | _ =>
    cases hleft
    cases hrefused.1

theorem Repeats.refused (hrepeats : Repeats request now effect) (hleft : effect.request = some request')
    (hrefused : Refused request') : Refused request := by
  cases hrepeats with
  | ignored =>
    cases hleft
    exact hrefused
  | left hleaves => exact (hleaves.refused hleft).1.mp hrefused
  | resent _ _ hsends =>
    cases hleft
    obtain ⟨data, rfl⟩ := hsends.encodes
    exact hrefused
  | resent_done _ _ hsends =>
    cases hleft
    obtain ⟨data, rfl⟩ := hsends.encodes
    exact hrefused

/-- Its timer waits for the thread, again and again. -/
theorem Moves.keeps_refused (hmoves : Moves config now request effect) (hgood : Good config now request)
    (hrefused : Refused request) (hhash : request.in_request_hash = false) :
    ∃ request', effect.request = some request' ∧ Refused request' := by
  have hstop := hgood.halted hhash
  cases hmoves with
  | kept => exact ⟨request, rfl, hrefused⟩
  | left _ hleaves =>
    obtain ⟨request', hleft⟩ := hleaves.keeps hrefused.2
    exact ⟨request', hleft, (hleaves.refused hleft).1.mpr hrefused⟩
  | waited _ hactive => cases hactive.symm.trans hstop
  | rested _ hactive => cases hactive.symm.trans hstop
  | replied_late _ hactive => cases hactive.symm.trans hstop
  | replied_last _ _ hactive => cases hactive.symm.trans hstop
  | dropped _ hthread => exact absurd hrefused.1 hthread
  | dequeued hthread => cases hthread.symm.trans hrefused.1
  | decoded hthread => cases hthread.symm.trans hrefused.1
  | handled _ _ hthread => cases hthread.symm.trans hrefused.1
  | finished _ _ hthread => cases hthread.symm.trans hrefused.1
  | faked hthread => cases hthread.symm.trans hrefused.1
  | quieted hthread => cases hthread.symm.trans hrefused.1
  | readied hthread => cases hthread.symm.trans hrefused.1
  | delayed _ hthread => cases hthread.symm.trans hrefused.1
  | answered hthread => cases hthread.symm.trans hrefused.1

/-- The master thread frees a request whose child has finished. -/
theorem request_done_frees (hmaster : turn.master = true) (haction : action ≠ FR_ACTION_DUP)
    (hfinished : request.child_state.unfinished = false) : request_done turn action request = ⟨none, []⟩ := by
  obtain ⟨left, hleaves, hdone⟩ := @request_done_leaves turn action request hmaster haction
  rw [hdone]
  cases hleaves with
  | freed => rfl
  | waited _ _ hunfinished => cases hfinished.symm.trans hunfinished

theorem request_cleanup_delay_init_frees (hmaster : turn.master = true)
    (hfinished : request.child_state.unfinished = false)
    (hnow : request.reply.timestamp + config.cleanup_delay * USEC ≤ turn.now) :
    (request_cleanup_delay_init config turn request).request = none := by
  obtain ⟨delay, -, hinit⟩ | ⟨hearly, -⟩ := @request_cleanup_delay_init_cases config turn request
  · rw [hinit, @request_done_frees turn { request with delay := delay } FR_ACTION_DONE hmaster (by decide) hfinished]
  · exact absurd hnow (Nat.not_le.mpr hearly)

/-- A timer that runs out late enough frees the request, unless a child thread has it. -/
theorem request_timer_frees {when : Nat} (hmaster : turn.master = true) (hev : request.ev = some when)
    (hfinished : request.child_state.unfinished = false) (hwhen : when ≤ turn.now)
    (hmax : request.timestamp + config.max_request_time * USEC ≤ turn.now)
    (hdelay : request.reply.timestamp + request.response_delay ≤ turn.now)
    (hcleanup : request.reply.timestamp + config.cleanup_delay * USEC ≤ turn.now) :
    (request_timer config turn request).request = none := by
  have hdone : ∀ action, action ≠ FR_ACTION_DUP →
      (request_done turn action { request with ev := none }).request = none := by
    intro action haction
    rw [@request_done_frees turn { request with ev := none } action hmaster haction hfinished]
  have hcall : ∀ process, (call_process config turn false FR_ACTION_TIMER process
      { request with ev := none }).request = none := by
    intro process
    rw [call_process.eq_def]
    by_cases hstop : request.master_state = REQUEST_STOP_PROCESSING
    · cases process with
      | request_running => simpa only [request_running, if_pos hstop] using hdone _ (by decide)
      | request_response_delay => simpa only [request_response_delay, if_pos hstop] using hdone _ (by decide)
      | request_cleanup_delay => simpa only [request_cleanup_delay, if_pos hstop] using hdone _ (by decide)
      | request_done => exact hdone _ (by decide)
    · cases process with
      | request_running =>
        simp only [request_running, if_neg hstop, request_max_time, if_pos hmax]
        split
        · exact hdone _ (by decide)
        · exact hdone _ (by decide)
      | request_response_delay =>
        simp only [request_response_delay, if_neg hstop, if_neg (Nat.not_lt.mpr hdelay), common_socket_send_encode]
        have hsends := @common_socket_send_sends turn { request with ev := none }
        obtain ⟨data, hsent⟩ := hsends.encodes
        refine request_cleanup_delay_init_frees hmaster ?_ ?_
        · rw [hsent]
          exact hfinished
        · rw [hsent]
          exact hcleanup
      | request_cleanup_delay =>
        simp only [request_cleanup_delay, if_neg hstop, if_neg (Nat.not_lt.mpr hcleanup)]
        exact hdone _ (by decide)
      | request_done => exact hdone _ (by decide)
  rw [request_timer, hev]
  dsimp only
  rw [if_pos hwhen]
  exact hcall _

/-- How many steps a child thread has left at most. -/
def Thread.steps : Thread → Nat
  | .idle => 0
  | .sending => 1
  | .finished => 2
  | .handled => 3
  | .decoded => 4
  | .dequeued => 5
  | .queued => 6

/-- The next step of a child thread, or the timer of a request that no thread has. -/
def Thread.next (number : Nat) : Thread → Action
  | .idle => .timer number none
  | .sending => .send number none
  | .finished => .reply number none
  | .handled => .finish number { code := 0 }
  | .decoded => .handle number { code := 0 }
  | .dequeued => .run number true
  | .queued => .dequeue number

/-- A step of a child thread keeps the request, and brings the thread further. -/
def Advances (request : REQUEST) (effect : Effect) : Prop :=
  ∃ request', effect.request = some request' ∧ request'.thread.steps < request.thread.steps

theorem Advances.to {thread : Thread} (next : Thread) (hleft : effect.request = some request')
    (hnext : request'.thread = next) (hthread : request.thread = thread) (hless : next.steps < thread.steps) :
    Advances request effect :=
  ⟨request', hleft, by rw [hnext, hthread]; exact hless⟩

theorem request_dequeue_advances (hthread : request.thread = .queued) :
    Advances request ⟨some (request_dequeue request), []⟩ := by
  rw [request_dequeue]
  split
  · exact .to .idle rfl rfl hthread (by decide)
  · exact .to .dequeued rfl rfl hthread (by decide)

theorem request_process_advances (hchild : turn.master = false) (hthread : request.thread = .dequeued)
    (hgood : Good config now request) :
    Advances request (request_process config turn true FR_ACTION_RUN request) := by
  have hdone : ∀ action, Advances request (request_done turn action request) := by
    intro action
    rw [request_done_child hchild]
    exact .to .idle rfl rfl hthread (by decide)
  rw [request_process, call_process.eq_def]
  by_cases hstop : request.master_state = REQUEST_STOP_PROCESSING
  · cases request.process with
    | request_running => simpa only [request_running, if_pos hstop] using hdone _
    | request_response_delay => simpa only [request_response_delay, if_pos hstop] using hdone _
    | request_cleanup_delay => simpa only [request_cleanup_delay, if_pos hstop] using hdone _
    | request_done => exact hdone _
  · have hhash : request.in_request_hash = true := by
      by_contra hhash
      exact hstop (hgood.halted (eq_false_of_ne_true hhash))
    rw [(hgood.running (by simp [hthread]) hhash).1]
    simp only [request_running, if_neg hstop]
    split
    · exact .to .decoded rfl rfl hthread (by decide)
    · exact .to .idle rfl rfl hthread (by decide)

theorem request_finish_advances {post_auth : PostAuth} (hchild : turn.master = false)
    (hthread : request.thread = .handled) : Advances request (request_finish turn post_auth request) := by
  rw [request_finish]
  by_cases hstop : request.master_state = REQUEST_STOP_PROCESSING
  · rw [if_pos hstop, request_done_child hchild]
    exact .to .idle rfl rfl hthread (by decide)
  · rw [if_neg hstop]
    dsimp only
    split
    · exact .to .finished rfl rfl hthread (by decide)
    · exact .to .finished rfl rfl hthread (by decide)

theorem request_finish_reply_advances (hchild : turn.master = false) (hthread : request.thread = .finished) :
    Advances request (request_finish_reply config turn request) := by
  obtain ⟨settled, hsettles, hinit⟩ := @request_cleanup_delay_init_settles config turn
    { request with reply := { request.reply with timestamp := turn.now } } hchild
  rw [request_finish_reply]
  dsimp only
  rw [hinit]
  split
  · exact .to .idle rfl rfl hthread (by decide)
  split
  · exact .to .idle rfl hsettles.idle hthread (by decide)
  split
  · exact .to .idle rfl hsettles.idle hthread (by decide)
  split
  · exact .to .sending rfl rfl hthread (by decide)
  · exact .to .idle rfl rfl hthread (by decide)

theorem request_finish_send_advances (hchild : turn.master = false) (hthread : request.thread = .sending) :
    Advances request (request_finish_send config turn request) := by
  obtain ⟨settled, hsettles, hinit⟩ := @request_cleanup_delay_init_settles config turn
    (common_socket_send turn request).1 hchild
  rw [request_finish_send, common_socket_send_encode, hinit]
  exact .to .idle rfl hsettles.idle hthread (by decide)

/-- A child thread is not stopped by anything that it finds in its request. -/
theorem Thread.next_advances {tables : Tables} (hgood : Good config tables.now request)
    (hbusy : request.thread ≠ .idle) :
    ∃ f, (request.thread.next request.number).function config tables.now = some (request.number, f) ∧
      Advances request (f request) := by
  cases hthread : request.thread with
  | idle => exact absurd hthread hbusy
  | queued =>
    refine ⟨_, rfl, ?_⟩
    rw [request_child, if_pos hthread]
    exact request_dequeue_advances hthread
  | dequeued =>
    refine ⟨_, rfl, ?_⟩
    rw [request_child, if_pos hthread]
    exact request_process_advances rfl hthread hgood
  | decoded =>
    refine ⟨_, rfl, ?_⟩
    rw [request_child, if_pos hthread]
    exact .to .handled rfl rfl hthread (by decide)
  | handled =>
    refine ⟨_, rfl, ?_⟩
    rw [request_child, if_pos hthread]
    exact request_finish_advances rfl hthread
  | finished =>
    refine ⟨_, rfl, ?_⟩
    rw [request_child, if_pos hthread]
    exact request_finish_reply_advances rfl hthread
  | sending =>
    refine ⟨_, rfl, ?_⟩
    rw [request_child, if_pos hthread]
    exact request_finish_send_advances rfl hthread

end Freed

section Frees

variable {config : main_config_t} {tables after : Tables} {request request' : REQUEST} {number : Nat}
  {f : REQUEST → Effect} {action : Action} {packet : Datagram} {enqueued : Bool} {encoded : Option (List UInt8)}

/-- A request that the thread pool has refused is not in the request hash. -/
def Hidden (tables : Tables) : Prop :=
  ∀ request ∈ tables.requests, Refused request → request.in_request_hash = false

theorem Hidden.touch (hhidden : Hidden tables)
    (hsame : ∀ request request', (f request).request = some request' → Same request request')
    (hrefused : ∀ request request', (f request).request = some request' → Refused request' → Refused request) :
    Hidden (tables.touch number f) := by
  intro request' hmem hrefused'
  obtain ⟨request, hrequest, htouch⟩ := Tables.mem_touch.mp hmem
  split at htouch
  · have hold := hhidden request hrequest (hrefused _ _ htouch hrefused')
    by_contra hhash
    have hhash := (hsame _ _ htouch).hash (eq_true_of_ne_false hhash)
    cases hold.symm.trans hhash
  · cases htouch
    exact hhidden _ hrequest hrefused'

theorem Hidden.insert (hhidden : Hidden tables) :
    Hidden (request_insert config packet enqueued encoded tables) := by
  unfold request_insert
  split
  · exact hhidden
  obtain ⟨queued, hqueued, -, -, -, -, hthread, -⟩ :=
    @request_queue_or_run_cases config enqueued encoded tables.request_num_counter tables.now packet
  dsimp only
  rw [hqueued]
  intro request hmem hrefused
  rw [Option.toList_some, List.mem_append, List.mem_singleton] at hmem
  obtain hmem | rfl := hmem
  · exact hhidden request hmem hrefused
  · obtain ⟨hthread, -⟩ | ⟨-, hhash⟩ := hthread
    · cases hthread.symm.trans hrefused.1
    · exact hhash

theorem Hidden.next (hhidden : Hidden tables) (hnext : Next config tables action after) : Hidden after := by
  have hhear : ∀ packet, Hidden (tables.hear packet) := fun _ => hhidden
  cases hnext with
  | ticked => exact hhidden
  | moved number hmoves =>
    exact hhidden.touch (fun request _ => (hmoves request).same) (fun request _ => (hmoves request).refused)
  | repeated _ _ _ _ hmoves =>
    exact (hhear _).touch (fun request _ => (hmoves request).same) (fun request _ => (hmoves request).refused)
  | accepted => exact (hhear _).insert
  | superseded _ _ _ _ hleaves =>
    refine Hidden.insert ((hhear _).touch ?_ ?_)
    · exact fun _ _ htouch => (Leaves.same_of hleaves htouch).same rfl
    · exact fun _ _ htouch => ((Leaves.same_of hleaves htouch).refused rfl).1.mp

/-- No step frees a request that the thread pool has refused. -/
theorem Next.keeps_refused (hnext : Next config tables action after) (hsound : Sound config tables)
    (hhidden : Hidden tables) (hmem : request ∈ tables.requests) (hrefused : Refused request) :
    ∃ request' ∈ after.requests, request'.number = request.number ∧ Refused request' := by
  have hhash := hhidden request hmem hrefused
  -- A packet finds another request in the hash.
  have hother : ∀ found ∈ tables.requests, found.in_request_hash = true → request.number ≠ found.number := by
    intro found hfound hfoundhash hnumber
    obtain rfl := hsound.unique hfound hmem hnumber
    cases hhash.symm.trans hfoundhash
  cases hnext with
  | ticked => exact ⟨request, hmem, rfl, hrefused⟩
  | @moved _ f number hmoves =>
    by_cases hnumber : request.number = number
    · obtain ⟨request', hleft, hrefused'⟩ := (hmoves request).keeps_refused (hsound.good request hmem) hrefused hhash
      exact ⟨request', Tables.mem_touch.mpr ⟨request, hmem, by rw [if_pos hnumber, hleft]⟩,
        ((hmoves request).same hleft).number, hrefused'⟩
    · exact ⟨request, Tables.mem_touch.mpr ⟨request, hmem, by rw [if_neg hnumber]⟩, rfl, hrefused⟩
  | repeated hfound hfoundhash =>
    have hnumber := hother _ hfound hfoundhash
    exact ⟨request, Tables.mem_touch.mpr ⟨request, hmem, by rw [if_neg hnumber]⟩, rfl, hrefused⟩
  | accepted => exact ⟨request, mem_request_insert hmem, rfl, hrefused⟩
  | superseded hfound hfoundhash =>
    have hnumber := hother _ hfound hfoundhash
    exact ⟨request, mem_request_insert (Tables.mem_touch.mpr ⟨request, hmem, by rw [if_neg hnumber]⟩), rfl, hrefused⟩

theorem keeps_refused_run (actions : List Action) (hsound : Sound config tables) (hhidden : Hidden tables)
    (hmem : request ∈ tables.requests) (hrefused : Refused request) :
    ∃ request' ∈ (actions.foldl (Tables.step config) tables).requests, request'.number = request.number := by
  induction actions generalizing tables request with
  | nil => exact ⟨request, hmem, rfl⟩
  | cons action actions ih =>
    have hnext := @Tables.step_next config tables action
    obtain ⟨request', hmem', hnumber, hrefused'⟩ := hnext.keeps_refused hsound hhidden hmem hrefused
    obtain ⟨last, hlast, hnumber'⟩ := ih (hsound.next hnext) (hhidden.next hnext) hmem' hrefused'
    exact ⟨last, hlast, hnumber'.trans hnumber⟩

theorem Hidden.run {history : transition.History Tables Action}
    (hrun : transition.Run (Tables.step config) (fun _ _ _ => True) {} history tables) : Hidden tables := by
  refine hrun.invariant (fun _ tables => Hidden tables) ?_ ?_
  · exact fun _ hmem => absurd hmem List.not_mem_nil
  · intro _ tables action hhidden _
    exact hhidden.next (@Tables.step_next config tables action)

theorem Tables.step_function (hfunction : action.function config tables.now = some (number, f)) :
    tables.step config action = tables.touch number f := by
  cases action with
  | tick => cases hfunction
  | receive => cases hfunction
  | _ =>
    cases hfunction
    rfl

theorem late_enough (now when₁ when₂ when₃ when₄ : Nat) :
    ∃ elapsed, when₁ ≤ now + elapsed ∧ when₂ ≤ now + elapsed ∧ when₃ ≤ now + elapsed ∧ when₄ ≤ now + elapsed :=
  ⟨when₁ + when₂ + when₃ + when₄, by omega, by omega, by omega, by omega⟩

/-- The steps of its thread, and then its timer, free a request. -/
theorem Sound.frees (hsound : Sound config tables) (hmem : request ∈ tables.requests)
    (haccepted : ¬ Refused request) :
    ∃ actions : List Action, (∀ packet enqueued encoded, Action.receive packet enqueued encoded ∉ actions) ∧
      ∀ other ∈ (actions.foldl (Tables.step config) tables).requests, other.number ≠ request.number := by
  have hgood := hsound.good request hmem
  induction hsteps : request.thread.steps using Nat.strongRecOn generalizing tables request with
  | ind steps ih =>
    by_cases hidle : request.thread = .idle
    · have hfinished : request.child_state.unfinished = false :=
        eq_false_of_ne_true fun hunfinished => haccepted ⟨hidle, hunfinished⟩
      obtain ⟨when, hev⟩ := hgood.armed
      obtain ⟨elapsed, hwhen, hmax, hdelay, hcleanup⟩ := late_enough tables.now when
        (request.timestamp + config.max_request_time * USEC) (request.reply.timestamp + request.response_delay)
        (request.reply.timestamp + config.cleanup_delay * USEC)
      have hfrees : (request_timer config ⟨true, tables.now + elapsed, none⟩ request).request = none :=
        request_timer_frees rfl hev hfinished hwhen hmax hdelay hcleanup
      refine ⟨[.tick elapsed, .timer request.number none], by simp, ?_⟩
      intro other hother hnumber
      obtain ⟨old, hold, htouch⟩ := Tables.mem_touch.mp hother
      split at htouch
      · rename_i hsame
        obtain rfl := hsound.unique hmem hold hsame
        cases hfrees.symm.trans htouch
      · rename_i hother
        cases htouch
        exact hother hnumber
    · obtain ⟨f, hfunction, request', hleft, hless⟩ := Thread.next_advances hgood hidle
      have hmoves := Action.function_moves hfunction request
      have hnumber := (hmoves.same hleft).number
      have hmem' : request' ∈ (tables.touch request.number f).requests :=
        Tables.mem_touch.mpr ⟨request, hmem, by rw [if_pos rfl, hleft]⟩
      have hsound' : Sound config (tables.touch request.number f) := by
        rw [← Tables.step_function hfunction]
        exact hsound.next (tables.step_next _)
      obtain ⟨actions, hreceive, hfreed⟩ := ih _ (hsteps ▸ hless) hsound' hmem'
        (fun hrefused => haccepted (hmoves.refused hleft hrefused)) (hsound'.good request' hmem') rfl
      refine ⟨request.thread.next request.number :: actions, ?_, ?_⟩
      · intro packet enqueued encoded hreceived
        rw [List.mem_cons] at hreceived
        obtain hnext | hreceived := hreceived
        · rw [← hnext] at hfunction
          cases hfunction
        · exact hreceive packet enqueued encoded hreceived
      · rw [hnumber] at hfreed
        rw [List.foldl_cons, Tables.step_function hfunction]
        exact hfreed

/-- The steps of its child thread and its timer can free every request, whatever has
    come to it before, but for the requests that found the queue of the thread pool full.
    These left the hash, and stay for ever: `request_enqueue` has made them
    `REQUEST_QUEUED`, and `request_done` waits for a thread that does not have them. -/
theorem request_freed_unless_refused {history : transition.History Tables Action}
    (hrun : transition.Run (Tables.step config) (fun _ _ _ => True) {} history tables)
    (hmem : request ∈ tables.requests) :
    (¬ Refused request →
      ∃ actions : List Action, (∀ packet enqueued encoded, Action.receive packet enqueued encoded ∉ actions) ∧
        ∀ other ∈ (actions.foldl (Tables.step config) tables).requests, other.number ≠ request.number) ∧
    (Refused request → request.in_request_hash = false ∧
      ∀ actions : List Action,
        ∃ other ∈ (actions.foldl (Tables.step config) tables).requests, other.number = request.number) := by
  have hsound := Sound.run hrun
  have hhidden := Hidden.run hrun
  refine ⟨hsound.frees hmem, fun hrefused => ⟨hhidden request hmem hrefused, fun actions => ?_⟩⟩
  exact keeps_refused_run actions hsound hhidden hmem hrefused

/-- The wrong login finds the queue full. -/
def refused_login_actions : List Action := [.receive wrong_login false none]

def refused_login_run : transition.History Tables Action × Tables :=
  transition.replay (Tables.step raddb_config) {} refused_login_actions

def refused_login : REQUEST where
  number := 0
  packet := wrong_login
  timestamp := 0
  master_state := .REQUEST_STOP_PROCESSING
  child_state := .REQUEST_QUEUED
  process := .request_done
  delay := 1499998
  ev := some 999999

theorem refused_login_kept :
    refused_login.in_request_hash = false ∧
      ∀ actions : List Action, ∃ other ∈ (actions.foldl (Tables.step raddb_config) refused_login_run.2).requests,
        other.number = 0 :=
  (@request_freed_unless_refused raddb_config refused_login_run.2 refused_login refused_login_run.1
    (transition.Run.replay refused_login_actions fun _ _ => trivial) (by decide)).2 ⟨rfl, rfl⟩

end Frees

end freeradius.processing
