import AaaServer.Process.Table
import AaaServer.Transition.Run
import Mathlib.Data.List.Nodup

namespace freeradius.processing

section Good

open fr_state_action_t rad_master_state_t rad_child_state_t

variable {config : main_config_t} {now later : Nat} {request request' sent settled : REQUEST} {effect : Effect}
  {left : Option REQUEST} {events : List Event}

/-- What holds of each request between two steps. The master thread has taken it from
    the hash when it is stopped, its timer runs, and a child thread that has it finds it
    as it left it. -/
structure Good (config : main_config_t) (now : Nat) (request : REQUEST) : Prop where
  armed : ∃ when, request.ev = some when
  halted : request.in_request_hash = false → request.master_state = REQUEST_STOP_PROCESSING
  busy : request.thread ≠ .idle → request.child_state.unfinished = true
  running : request.thread ≠ .idle → request.in_request_hash = true →
    request.process = .request_running ∧ request.master_state = REQUEST_ACTIVE
  stopped : request.master_state = REQUEST_STOP_PROCESSING → request.in_request_hash = true →
    request.process = .request_done
  delayed : request.process = .request_response_delay →
    request.thread = .idle ∧ request.response_delay = reject_wait config request
  ready : request.thread = .sending →
    reject_wait config request = 0 ∧ request.reply.timestamp ≤ now
  replied : request.thread = .idle →
    request.process = .request_cleanup_delay ∨ request.process = .request_done → request.reply.code ≠ 0 →
    request.in_request_hash = true → request.reply.timestamp + reject_wait config request ≤ now

theorem Good.mono (hgood : Good config now request) (hnow : now ≤ later) : Good config later request where
  armed := hgood.armed
  halted := hgood.halted
  busy := hgood.busy
  running := hgood.running
  stopped := hgood.stopped
  delayed := hgood.delayed
  ready hthread := ⟨(hgood.ready hthread).1, Nat.le_trans (hgood.ready hthread).2 hnow⟩
  replied hidle hprocess hcode hhash := Nat.le_trans (hgood.replied hidle hprocess hcode hhash) hnow

/-- An active request is in the hash. -/
theorem Good.hashed (hgood : Good config now request) (hactive : request.master_state = REQUEST_ACTIVE) :
    request.in_request_hash = true := by
  cases hhash : request.in_request_hash with
  | true => rfl
  | false =>
    have hstop := hgood.halted hhash
    rw [hactive] at hstop
    cases hstop

/-- A request that has its reply is in no thread's hands. -/
theorem Good.idle (hgood : Good config now request) (hhash : request.in_request_hash = true)
    (hprocess : request.process ≠ .request_running) : request.thread = .idle := by
  by_contra hthread
  exact hprocess (hgood.running hthread hhash).1

theorem Leaves.good (hleaves : Leaves request left)
    (hready : request.thread = .sending → reject_wait config request = 0 ∧ request.reply.timestamp ≤ now)
    (hleft : left = some request') : Good config now request' := by
  cases hleaves with
  | freed => cases hleft
  | waited delay when hunfinished =>
    cases hleft
    exact {
      armed := ⟨when, rfl⟩
      halted := fun _ => rfl
      busy := fun _ => hunfinished
      running := fun _ hhash => by cases hhash
      stopped := fun _ hhash => by cases hhash
      delayed := fun hprocess => by cases hprocess
      ready := hready
      replied := fun _ _ _ hhash => by cases hhash }

/-- To send a reply encodes it, and changes nothing else. -/
theorem Sends.encodes (hsends : Sends now request sent events) :
    ∃ data, sent = { request with reply := { request.reply with data := data } } := by
  cases hsends with
  | sent data => exact ⟨some data, rfl⟩
  | unsent => exact ⟨request.reply.data, rfl⟩

/-- A request that a child thread lets go of, with its reply sent or none to send. -/
theorem Settles.good (hsettles : Settles config now request settled) (harmed : ∃ when, request.ev = some when)
    (hhalted : request.in_request_hash = false → request.master_state = REQUEST_STOP_PROCESSING)
    (hactive : request.in_request_hash = true → request.master_state = REQUEST_ACTIVE)
    (hwaited : request.reply.code ≠ 0 → request.in_request_hash = true →
      request.reply.timestamp + reject_wait config request ≤ now) :
    Good config now settled := by
  cases hsettles with
  | done delay hfinal => exact {
      armed := harmed
      halted := hhalted
      busy := fun hbusy => absurd rfl hbusy
      running := fun hbusy => absurd rfl hbusy
      stopped := fun _ _ => rfl
      delayed := fun hprocess => by cases hprocess
      ready := fun hthread => by cases hthread
      replied := fun _ _ => hwaited }
  | cleanup hnow => exact {
      armed := harmed
      halted := hhalted
      busy := fun hbusy => absurd rfl hbusy
      running := fun hbusy => absurd rfl hbusy
      stopped := by
        intro hstop hhash
        have hnot := (hactive hhash).symm.trans hstop
        cases hnot
      delayed := fun hprocess => by cases hprocess
      ready := fun hthread => by cases hthread
      replied := fun _ _ => hwaited }

/-- A step of a thread that keeps the request and its reply. -/
theorem Good.advance {thread : Thread} {child : rad_child_state_t} (hgood : Good config now request)
    (hbusy : request.thread ≠ .idle) (hchild : child.unfinished = true) (hthread : thread ≠ .idle)
    (hsending : thread ≠ .sending) :
    Good config now { request with child_state := child, thread := thread } where
  armed := hgood.armed
  halted := hgood.halted
  busy _ := hchild
  running _ := hgood.running hbusy
  stopped := hgood.stopped
  delayed hprocess := absurd (hgood.delayed hprocess).1 hbusy
  ready hsend := absurd hsend hsending
  replied hidle := absurd hidle hthread

theorem Good.reword {reply : Reply} {type : Option Nat} (hgood : Good config now request)
    (hbusy : request.thread ≠ .idle) (hsending : request.thread ≠ .sending) :
    Good config now { request with reply := reply, response_packet_type := type } where
  armed := hgood.armed
  halted := hgood.halted
  busy := hgood.busy
  running := hgood.running
  stopped := hgood.stopped
  delayed hprocess := absurd (hgood.delayed hprocess).1 hbusy
  ready hsend := absurd hsend hsending
  replied hidle := absurd hidle hbusy

theorem Good.encode {data : Option (List UInt8)} (hgood : Good config now request) :
    Good config now { request with reply := { request.reply with data := data } } where
  armed := hgood.armed
  halted := hgood.halted
  busy := hgood.busy
  running := hgood.running
  stopped := hgood.stopped
  delayed := hgood.delayed
  ready := hgood.ready
  replied := hgood.replied

theorem Good.rearm {delay : Int} {ev : Option Nat} (hgood : Good config now request) (hev : ∃ when, ev = some when) :
    Good config now { request with delay := delay, ev := ev } where
  armed := hev
  halted := hgood.halted
  busy := hgood.busy
  running := hgood.running
  stopped := hgood.stopped
  delayed := hgood.delayed
  ready := hgood.ready
  replied := hgood.replied

/-- A child thread lets go of a request that it does not answer. -/
theorem Good.drop {process : fr_request_process_t} {reply : Reply} (hgood : Good config now request)
    (hbusy : request.thread ≠ .idle)
    (hprocess : process = request.process ∨ process = .request_done ∧
      (request.master_state = REQUEST_STOP_PROCESSING ∨ request.process = .request_done)) :
    Good config now (FINAL_STATE REQUEST_DONE { request with process := process, reply := reply }) where
  armed := hgood.armed
  halted := hgood.halted
  busy hthread := absurd rfl hthread
  running hthread := absurd rfl hthread
  stopped hstop hhash := by
    have hnot := (hgood.running hbusy hhash).2.symm.trans hstop
    cases hnot
  delayed hdelay := by
    obtain rfl | ⟨rfl, -⟩ := hprocess
    · exact absurd (hgood.delayed hdelay).1 hbusy
    · cases hdelay
  ready hsend := by cases hsend
  replied _ hdone _ hhash := by
    obtain ⟨hrunning, hactive⟩ := hgood.running hbusy hhash
    obtain rfl | ⟨rfl, hstop | hover⟩ := hprocess
    · obtain hdone | hdone := hdone
      · cases hrunning.symm.trans hdone
      · cases hrunning.symm.trans hdone
    · cases hactive.symm.trans hstop
    · cases hrunning.symm.trans hover

/-- Every move keeps a request good. -/
theorem Moves.good (hmoves : Moves config now request effect) (hgood : Good config now request)
    (hleft : effect.request = some request') : Good config now request' := by
  cases hmoves with
  | kept =>
    cases hleft
    exact hgood
  | left _ hleaves => exact hleaves.good hgood.ready hleft
  | waited =>
    cases hleft
    exact hgood.rearm ⟨_, rfl⟩
  | rested when =>
    cases hleft
    exact hgood.rearm ⟨when, rfl⟩
  | replied_late hprocess hactive hdelay hsends hnow =>
    cases hleft
    obtain ⟨data, rfl⟩ := hsends.encodes
    obtain ⟨hidle, hwait⟩ := hgood.delayed hprocess
    rw [hwait] at hdelay
    exact {
      armed := ⟨_, rfl⟩
      halted := hgood.halted
      busy := fun hthread => absurd hidle hthread
      running := fun hthread => absurd hidle hthread
      stopped := fun hstop => by cases hactive.symm.trans hstop
      delayed := fun hdelayed => by cases hdelayed
      ready := fun hthread => by cases hidle.symm.trans hthread
      replied := fun _ _ _ _ => hdelay }
  | replied_last delay hprocess hactive hdelay hsends hfinal hleaves =>
    obtain ⟨data, rfl⟩ := hsends.encodes
    have hidle := (hgood.delayed hprocess).1
    exact hleaves.good (fun hthread => by cases hidle.symm.trans hthread) hleft
  | dequeued hthread hactive =>
    cases hleft
    exact hgood.advance (by simp [hthread]) rfl (by decide) (by decide)
  | dropped process hthread hprocess hdropped =>
    cases hleft
    exact hgood.drop hthread hprocess
  | decoded hthread hactive hprocess =>
    cases hleft
    have hbusy : request.thread ≠ .idle := by simp [hthread]
    exact hgood.advance hbusy (hgood.busy hbusy) (by decide) (by decide)
  | handled code type hthread =>
    cases hleft
    have hbusy : request.thread ≠ .idle := by simp [hthread]
    have hreworded := @Good.reword config now request { request.reply with code := code } type hgood hbusy
      (by simp [hthread])
    exact hreworded.advance hbusy (hgood.busy hbusy) (by decide) (by decide)
  | finished reply type hthread hactive =>
    cases hleft
    have hbusy : request.thread ≠ .idle := by simp [hthread]
    have hreworded := @Good.reword config now request reply type hgood hbusy (by simp [hthread])
    exact hreworded.advance hbusy (hgood.busy hbusy) (by decide) (by decide)
  | faked hthread hfake =>
    cases hleft
    exact hgood.drop (by simp [hthread]) (.inl rfl)
  | quieted hthread hquiet hsettles =>
    cases hleft
    have hbusy : request.thread ≠ .idle := by simp [hthread]
    refine hsettles.good hgood.armed hgood.halted (fun hhash => (hgood.running hbusy hhash).2) ?_
    intro hcode hhash
    obtain hquiet | hquiet := hquiet
    · exact absurd hquiet hcode
    · cases hquiet.symm.trans hhash
  | readied hthread hhash hwait =>
    cases hleft
    have hbusy : request.thread ≠ .idle := by simp [hthread]
    exact {
      armed := hgood.armed
      halted := hgood.halted
      busy := fun _ => hgood.busy hbusy
      running := fun _ => hgood.running hbusy
      stopped := hgood.stopped
      delayed := fun hdelayed => absurd (hgood.delayed hdelayed).1 hbusy
      ready := fun _ => ⟨hwait, Nat.le_refl _⟩
      replied := fun hidle => by cases hidle }
  | delayed data hthread hhash =>
    cases hleft
    have hbusy : request.thread ≠ .idle := by simp [hthread]
    exact {
      armed := hgood.armed
      halted := hgood.halted
      busy := fun hidle => absurd rfl hidle
      running := fun hidle => absurd rfl hidle
      stopped := fun hstop hhash => by cases (hgood.running hbusy hhash).2.symm.trans hstop
      delayed := fun _ => ⟨rfl, rfl⟩
      ready := fun hsend => by cases hsend
      replied := fun _ hdone => by
        obtain hdone | hdone := hdone
        · cases hdone
        · cases hdone }
  | answered hthread hsends hsettles =>
    cases hleft
    obtain ⟨data, rfl⟩ := hsends.encodes
    have hbusy : request.thread ≠ .idle := by simp [hthread]
    obtain ⟨hwait, hnow⟩ := hgood.ready hthread
    refine hsettles.good hgood.armed hgood.halted (fun hhash => (hgood.running hbusy hhash).2) ?_
    intro _ _
    show request.reply.timestamp + reject_wait config request ≤ now
    rw [hwait]
    exact hnow

/-- So does a duplicate of the packet of a request in the hash. -/
theorem Repeats.good (hrepeats : Repeats request now effect) (hgood : Good config now request)
    (hleft : effect.request = some request') : Good config now request' := by
  cases hrepeats with
  | ignored =>
    cases hleft
    exact hgood
  | left hleaves => exact hleaves.good hgood.ready hleft
  | resent hprocess hactive hsends =>
    cases hleft
    obtain ⟨data, rfl⟩ := hsends.encodes
    exact hgood.encode.rearm ⟨_, rfl⟩
  | resent_done hprocess hcode hsends =>
    cases hleft
    obtain ⟨data, rfl⟩ := hsends.encodes
    exact {
      armed := hgood.armed
      halted := fun _ => rfl
      busy := hgood.busy
      running := fun hbusy hhash => by cases hprocess.symm.trans (hgood.running hbusy hhash).1
      stopped := fun _ _ => rfl
      delayed := fun hdelayed => by cases hdelayed
      ready := hgood.ready
      replied := fun hidle _ => hgood.replied hidle (.inr hprocess) }

/-- What no step changes of a request. It never comes back to the hash. -/
structure Same (request request' : REQUEST) : Prop where
  number : request'.number = request.number
  packet : request'.packet = request.packet
  timestamp : request'.timestamp = request.timestamp
  hash : request'.in_request_hash = true → request.in_request_hash = true

theorem Same.refl (request : REQUEST) : Same request request :=
  ⟨rfl, rfl, rfl, id⟩

theorem Leaves.same (hleaves : Leaves request left) (hleft : left = some request') : Same request request' := by
  cases hleaves with
  | freed => cases hleft
  | waited =>
    cases hleft
    exact ⟨rfl, rfl, rfl, fun hhash => by cases hhash⟩

theorem Settles.idle (hsettles : Settles config now request settled) : settled.thread = .idle := by
  cases hsettles with
  | done => rfl
  | cleanup => rfl

theorem Settles.same (hsettles : Settles config now request settled) : Same request settled := by
  cases hsettles with
  | done => exact ⟨rfl, rfl, rfl, id⟩
  | cleanup => exact ⟨rfl, rfl, rfl, id⟩

theorem Moves.same (hmoves : Moves config now request effect) (hleft : effect.request = some request') :
    Same request request' := by
  cases hmoves with
  | left _ hleaves => exact hleaves.same hleft
  | replied_late hprocess hactive hdelay hsends =>
    cases hleft
    obtain ⟨data, rfl⟩ := hsends.encodes
    exact ⟨rfl, rfl, rfl, id⟩
  | replied_last delay hprocess hactive hdelay hsends hfinal hleaves =>
    obtain ⟨data, rfl⟩ := hsends.encodes
    have hsame := hleaves.same hleft
    exact ⟨hsame.number, hsame.packet, hsame.timestamp, hsame.hash⟩
  | quieted hthread hquiet hsettles =>
    cases hleft
    have hsame := hsettles.same
    exact ⟨hsame.number, hsame.packet, hsame.timestamp, hsame.hash⟩
  | answered hthread hsends hsettles =>
    cases hleft
    obtain ⟨data, rfl⟩ := hsends.encodes
    have hsame := hsettles.same
    exact ⟨hsame.number, hsame.packet, hsame.timestamp, hsame.hash⟩
  | _ =>
    cases hleft
    exact ⟨rfl, rfl, rfl, id⟩

theorem Repeats.same (hrepeats : Repeats request now effect) (hleft : effect.request = some request') :
    Same request request' := by
  cases hrepeats with
  | ignored =>
    cases hleft
    exact Same.refl request
  | left hleaves => exact hleaves.same hleft
  | resent hprocess hactive hsends =>
    cases hleft
    obtain ⟨data, rfl⟩ := hsends.encodes
    exact ⟨rfl, rfl, rfl, id⟩
  | resent_done hprocess hcode hsends =>
    cases hleft
    obtain ⟨data, rfl⟩ := hsends.encodes
    exact ⟨rfl, rfl, rfl, id⟩

/-- The master thread does not free a request that a child thread has. -/
theorem Leaves.keeps (hleaves : Leaves request left) (hbusy : request.child_state.unfinished = true) :
    ∃ request', left = some request' := by
  cases hleaves with
  | freed hfinished => cases hbusy.symm.trans hfinished
  | waited => exact ⟨_, rfl⟩

theorem Moves.keeps (hmoves : Moves config now request effect) (hgood : Good config now request)
    (hbusy : request.thread ≠ .idle) : ∃ request', effect.request = some request' := by
  cases hmoves with
  | left _ hleaves => exact hleaves.keeps (hgood.busy hbusy)
  | replied_last _ hprocess => exact absurd (hgood.delayed hprocess).1 hbusy
  | _ => exact ⟨_, rfl⟩

theorem Repeats.keeps (hrepeats : Repeats request now effect) (hgood : Good config now request)
    (hbusy : request.thread ≠ .idle) : ∃ request', effect.request = some request' := by
  cases hrepeats with
  | left hleaves => exact hleaves.keeps (hgood.busy hbusy)
  | _ => exact ⟨_, rfl⟩

end Good

section Sound

open fr_state_action_t rad_master_state_t rad_child_state_t

variable {config : main_config_t} {tables : Tables} {number : Nat} {f : REQUEST → Effect} {request request' : REQUEST}
  {packet : Datagram} {enqueued : Bool} {encoded : Option (List UInt8)} {action : Action}

theorem Tables.mem_touch : request' ∈ (tables.touch number f).requests ↔
    ∃ request ∈ tables.requests,
      (if request.number = number then (f request).request else some request) = some request' := by
  simp only [Tables.touch, List.mem_filterMap]

theorem touched_numbers (hnumber : ∀ request request', (f request).request = some request' →
      request'.number = request.number) (requests : List REQUEST) :
    ((requests.filterMap fun request =>
      if request.number = number then (f request).request else some request).map (·.number)).Sublist
      (requests.map (·.number)) := by
  induction requests with
  | nil => exact .slnil
  | cons request requests ih =>
    rw [List.filterMap_cons]
    cases htouch : (if request.number = number then (f request).request else some request) with
    | none => exact ih.cons _
    | some request' =>
      have hsame : request'.number = request.number := by
        split at htouch
        · exact hnumber request request' htouch
        · cases htouch
          rfl
      simp only [List.map_cons, hsame]
      exact ih.cons_cons _

theorem touched_length (hhash : ∀ request request', (f request).request = some request' →
      request'.in_request_hash = true → request.in_request_hash = true) (requests : List REQUEST) :
    ((requests.filterMap fun request =>
      if request.number = number then (f request).request else some request).filter (·.in_request_hash)).length ≤
      (requests.filter (·.in_request_hash)).length := by
  induction requests with
  | nil => exact Nat.le_refl _
  | cons request requests ih =>
    rw [List.filterMap_cons]
    cases htouch : (if request.number = number then (f request).request else some request) with
    | none =>
      refine Nat.le_trans ih ?_
      rw [List.filter_cons]
      split
      · exact Nat.le_succ _
      · exact Nat.le_refl _
    | some request' =>
      have hsame : request'.in_request_hash = true → request.in_request_hash = true := by
        intro hhash'
        split at htouch
        · exact hhash request request' htouch hhash'
        · cases htouch
          exact hhash'
      simp only [List.filter_cons]
      by_cases hhash' : request'.in_request_hash = true
      · rw [if_pos hhash', if_pos (hsame hhash')]
        exact Nat.succ_le_succ ih
      · rw [if_neg hhash']
        split
        · exact Nat.le_succ_of_le ih
        · exact ih

/-- The invariant of the request hash. -/
structure Sound (config : main_config_t) (tables : Tables) : Prop where
  numbers : (tables.requests.map (·.number)).Nodup
  counted : ∀ request ∈ tables.requests, request.number < tables.request_num_counter
  good : ∀ request ∈ tables.requests, Good config tables.now request
  keys : ∀ request ∈ tables.requests, ∀ request' ∈ tables.requests, request.in_request_hash = true →
    request'.in_request_hash = true → request.packet.key = request'.packet.key → request.number = request'.number
  few : config.max_requests ≠ 0 → tables.pl.length ≤ config.max_requests + 1

theorem Sound.unique (hsound : Sound config tables) (hmem : request ∈ tables.requests)
    (hmem' : request' ∈ tables.requests) (hnumber : request'.number = request.number) : request' = request :=
  List.inj_on_of_nodup_map hsound.numbers hmem' hmem hnumber

theorem Sound.touch (hsound : Sound config tables)
    (hsame : ∀ request request', (f request).request = some request' → Same request request')
    (hgood : ∀ request request', Good config tables.now request → (f request).request = some request' →
      Good config tables.now request') :
    Sound config (tables.touch number f) := by
  have hfrom : ∀ request' ∈ (tables.touch number f).requests,
      ∃ request ∈ tables.requests, Same request request' ∧ Good config tables.now request' := by
    intro request' hmem
    obtain ⟨request, hrequest, htouch⟩ := Tables.mem_touch.mp hmem
    refine ⟨request, hrequest, ?_⟩
    split at htouch
    · exact ⟨hsame _ _ htouch, hgood _ _ (hsound.good request hrequest) htouch⟩
    · cases htouch
      exact ⟨.refl _, hsound.good _ hrequest⟩
  exact {
    numbers := hsound.numbers.sublist (touched_numbers (fun _ _ htouch => (hsame _ _ htouch).number) _)
    counted := by
      intro request' hmem
      obtain ⟨request, hrequest, hsame, -⟩ := hfrom request' hmem
      rw [hsame.number]
      exact hsound.counted request hrequest
    good := fun request' hmem => by
      obtain ⟨_, _, _, hgood⟩ := hfrom request' hmem
      exact hgood
    keys := by
      intro request₁ hmem₁ request₂ hmem₂ hhash₁ hhash₂ hkey
      obtain ⟨request, hrequest, hsame, -⟩ := hfrom request₁ hmem₁
      obtain ⟨request', hrequest', hsame', -⟩ := hfrom request₂ hmem₂
      rw [hsame.packet, hsame'.packet] at hkey
      rw [hsame.number, hsame'.number]
      exact hsound.keys request hrequest request' hrequest' (hsame.hash hhash₁) (hsame'.hash hhash₂) hkey
    few := fun hmax => Nat.le_trans (touched_length (fun _ _ htouch => (hsame _ _ htouch).hash) _)
      (hsound.few hmax) }

theorem Sound.hear (hsound : Sound config tables) : Sound config (tables.hear packet) :=
  ⟨hsound.numbers, hsound.counted, hsound.good, hsound.keys, hsound.few⟩

/-- A new request goes to the child threads, or waits to be freed when the queue is full. -/
theorem request_queue_or_run_cases (number now : Nat) (packet : Datagram) :
    ∃ queued : REQUEST,
      request_queue_or_run config ⟨true, now, encoded⟩ .request_running enqueued
        { request_setup number now packet with in_request_hash := true } = ⟨some queued, []⟩ ∧
      queued.number = number ∧ queued.packet = packet ∧ queued.timestamp = now ∧ queued.reply = {} ∧
      (queued.thread = .queued ∧ queued.in_request_hash = true ∨
        queued.thread = .idle ∧ queued.in_request_hash = false) ∧
      Good config now queued := by
  unfold request_queue_or_run
  rw [if_neg (fun hstop => by cases hstop)]
  dsimp only
  cases enqueued with
  | true =>
    refine ⟨_, if_pos rfl, rfl, rfl, rfl, rfl, .inl ⟨rfl, rfl⟩, ?_⟩
    exact {
      armed := ⟨_, rfl⟩
      halted := fun hhash => by cases hhash
      busy := fun _ => rfl
      running := fun _ _ => ⟨rfl, rfl⟩
      stopped := fun hstop => by cases hstop
      delayed := fun hdelayed => by cases hdelayed
      ready := fun hsend => by cases hsend
      replied := fun hidle => by cases hidle }
  | false =>
    rw [if_neg (by decide)]
    obtain ⟨left, hleaves, hdone⟩ := @request_done_leaves ⟨true, now, encoded⟩ FR_ACTION_INTERNAL_FAILURE
      { STATE_MACHINE_TIMER (now + if USEC < config.init_delay then USEC else config.init_delay)
        { request_setup number now packet with
          in_request_hash := true
          process := .request_running
          delay := (if USEC < config.init_delay then USEC else config.init_delay) +
            (if USEC < config.init_delay then USEC else config.init_delay) / 2 } with
        child_state := REQUEST_QUEUED } rfl (by decide)
    cases hleaves with
    | freed hfinished => cases hfinished
    | waited delay when hunfinished =>
      have hwaited := @Leaves.waited _ delay when hunfinished
      exact ⟨_, hdone, rfl, rfl, rfl, rfl, .inr ⟨rfl, rfl⟩, hwaited.good (fun hsend => by cases hsend) rfl⟩

theorem Sound.insert (hsound : Sound config tables)
    (hnone : ∀ request ∈ tables.requests, request.in_request_hash = true → request.packet.key ≠ packet.key) :
    Sound config (request_insert config packet enqueued encoded tables) := by
  unfold request_insert
  split
  · exact hsound
  rename_i hroom
  obtain ⟨queued, hqueued, hnumber, hpacket, -, -, -, hgood⟩ :=
    @request_queue_or_run_cases config enqueued encoded tables.request_num_counter tables.now packet
  dsimp only
  rw [hqueued]
  exact {
    numbers := by
      rw [Option.toList_some, List.map_append, List.map_singleton, List.nodup_append]
      refine ⟨hsound.numbers, List.pairwise_singleton _ _, ?_⟩
      intro old hold new hnew
      rw [List.mem_singleton, hnumber] at hnew
      obtain ⟨request, hrequest, rfl⟩ := List.mem_map.mp hold
      exact hnew ▸ Nat.ne_of_lt (hsound.counted request hrequest)
    counted := by
      intro request hmem
      rw [Option.toList_some, List.mem_append, List.mem_singleton] at hmem
      obtain hmem | rfl := hmem
      · exact Nat.lt_succ_of_lt (hsound.counted request hmem)
      · exact hnumber ▸ Nat.lt_succ_self _
    good := by
      intro request hmem
      rw [Option.toList_some, List.mem_append, List.mem_singleton] at hmem
      obtain hmem | rfl := hmem
      · exact hsound.good request hmem
      · exact hgood
    keys := by
      intro request₁ hmem₁ request₂ hmem₂ hhash₁ hhash₂ hkey
      rw [Option.toList_some, List.mem_append, List.mem_singleton] at hmem₁ hmem₂
      obtain hmem₁ | rfl := hmem₁
      · obtain hmem₂ | rfl := hmem₂
        · exact hsound.keys request₁ hmem₁ request₂ hmem₂ hhash₁ hhash₂ hkey
        · exact absurd (hkey.trans (by rw [hpacket])) (hnone request₁ hmem₁ hhash₁)
      · obtain hmem₂ | rfl := hmem₂
        · exact absurd (hkey.symm.trans (by rw [hpacket])) (hnone request₂ hmem₂ hhash₂)
        · rfl
    few := by
      intro hmax
      rw [not_and, Nat.not_lt] at hroom
      have hold := hroom hmax
      simp only [Tables.pl, List.filter_append, List.length_append] at hold ⊢
      have hnew := List.length_filter_le (fun request : REQUEST => request.in_request_hash) [queued]
      rw [List.length_singleton] at hnew
      exact Nat.add_le_add hold hnew }

/-- After a conflicting packet no request in the hash has its address and id. -/
theorem Sound.none_superseded (hsound : Sound config tables) (hmem : request ∈ tables.requests)
    (hhash : request.in_request_hash = true)
    (hleaves : ∀ request, ∃ left, Leaves request left ∧ f request = ⟨left, []⟩) :
    ∀ new ∈ (tables.touch request.number f).requests, new.in_request_hash = true →
      new.packet.key ≠ request.packet.key := by
  intro new hnew hnewhash hnewkey
  obtain ⟨old, hold, htouch⟩ := Tables.mem_touch.mp hnew
  split at htouch
  · obtain ⟨left, hleft, heffect⟩ := hleaves old
    rw [heffect] at htouch
    cases htouch
    cases hleft with
    | waited => cases hnewhash
  · rename_i hnumber
    cases htouch
    exact hnumber (hsound.keys _ hold request hmem hnewhash hhash hnewkey)

theorem Leaves.same_of (hleaves : ∀ request, ∃ left, Leaves request left ∧ f request = ⟨left, []⟩)
    (htouch : (f request).request = some request') : Leaves request (some request') := by
  obtain ⟨left, hleft, heffect⟩ := hleaves request
  rw [heffect] at htouch
  exact htouch ▸ hleft

theorem Sound.next {after : Tables} (hsound : Sound config tables) (hnext : Next config tables action after) :
    Sound config after := by
  cases hnext with
  | ticked elapsed => exact {
      numbers := hsound.numbers
      counted := hsound.counted
      good := fun request hmem => (hsound.good request hmem).mono (Nat.le_add_right _ _)
      keys := hsound.keys
      few := hsound.few }
  | moved number hmoves =>
    exact hsound.touch (fun request _ => (hmoves request).same) (fun request _ hgood => (hmoves request).good hgood)
  | repeated _ _ _ _ hmoves =>
    exact hsound.hear.touch (fun request _ => (hmoves request).same)
      (fun request _ hgood => (hmoves request).good hgood)
  | accepted hnone => exact hsound.hear.insert hnone
  | @superseded packet enqueued encoded f request hmem hhash hkey hother hleaves =>
    have htouched : Sound config ((tables.hear packet).touch request.number f) :=
      hsound.hear.touch (fun old new htouch => (Leaves.same_of hleaves htouch).same rfl)
        (fun old new hgood htouch => (Leaves.same_of hleaves htouch).good hgood.ready rfl)
    have hheard : Sound config (tables.hear packet) := hsound.hear
    exact htouched.insert (hkey ▸ hheard.none_superseded hmem hhash hleaves)

/-- Every state that the process reaches is sound. -/
theorem Sound.run {history : transition.History Tables Action}
    (hrun : transition.Run (Tables.step config) (fun _ _ _ => True) {} history tables) : Sound config tables := by
  refine hrun.invariant (fun _ tables => Sound config tables) ?_ ?_
  · exact {
      numbers := List.nodup_nil
      counted := fun _ hmem => absurd hmem List.not_mem_nil
      good := fun _ hmem => absurd hmem List.not_mem_nil
      keys := fun _ hmem => absurd hmem List.not_mem_nil
      few := fun _ => Nat.zero_le _ }
  · intro _ tables action hsound _
    exact hsound.next (tables.step_next action)

theorem Tables.touch_keeps (hmem : request ∈ tables.requests)
    (hsame : ∀ request', (f request).request = some request' → Same request request')
    (hkeeps : ∃ request', (f request).request = some request') :
    ∃ request' ∈ (tables.touch number f).requests, request'.number = request.number := by
  by_cases hnumber : request.number = number
  · obtain ⟨request', htouch⟩ := hkeeps
    exact ⟨request', Tables.mem_touch.mpr ⟨request, hmem, by rw [if_pos hnumber, htouch]⟩, (hsame _ htouch).number⟩
  · exact ⟨request, Tables.mem_touch.mpr ⟨request, hmem, by rw [if_neg hnumber]⟩, rfl⟩

theorem mem_request_insert (hmem : request ∈ tables.requests) :
    request ∈ (request_insert config packet enqueued encoded tables).requests := by
  unfold request_insert
  split
  · exact hmem
  · exact List.mem_append_left _ hmem

/-- No step frees a request that a child thread has. -/
theorem Next.keeps {after : Tables} (hnext : Next config tables action after) (hsound : Sound config tables)
    (hmem : request ∈ tables.requests) (hbusy : request.thread ≠ .idle) :
    ∃ request' ∈ after.requests, request'.number = request.number := by
  have hgood := hsound.good request hmem
  cases hnext with
  | ticked => exact ⟨request, hmem, rfl⟩
  | moved number hmoves =>
    exact Tables.touch_keeps hmem (fun _ => (hmoves request).same) ((hmoves request).keeps hgood hbusy)
  | @repeated packet _ _ f _ _ _ _ _ hmoves =>
    exact @Tables.touch_keeps (tables.hear packet) _ f request hmem (fun _ => (hmoves request).same)
      ((hmoves request).keeps hgood hbusy)
  | accepted => exact ⟨request, mem_request_insert hmem, rfl⟩
  | @superseded packet _ _ f _ _ _ _ _ hleaves =>
    obtain ⟨left, hleft, heffect⟩ := hleaves request
    have hkeeps := hleft.keeps (hgood.busy hbusy)
    obtain ⟨request', hmem', hnumber⟩ := @Tables.touch_keeps (tables.hear packet) _ f request hmem
      (fun request' htouch => hleft.same (by rw [heffect] at htouch; exact htouch)) (by rw [heffect]; exact hkeeps)
    exact ⟨request', mem_request_insert hmem', hnumber⟩

/-- The request hash has one request for each address and id, and at most one more than
    `max_requests`. The timer of each request runs, so that none is forgotten, and a
    request that a child thread has is there until the thread lets go of it. -/
theorem request_hash_kept {history : transition.History Tables Action}
    (hrun : transition.Run (Tables.step config) (fun _ _ _ => True) {} history tables) :
    (tables.pl.map (·.packet.key)).Nodup ∧
      (config.max_requests ≠ 0 → tables.pl.length ≤ config.max_requests + 1) ∧
      (∀ request ∈ tables.requests, ∃ when, request.ev = some when) ∧
      ∀ action, ∀ request ∈ tables.requests, request.thread ≠ .idle →
        ∃ request' ∈ (tables.step config action).requests, request'.number = request.number := by
  have hsound := Sound.run hrun
  refine ⟨?_, hsound.few, fun request hmem => (hsound.good request hmem).armed, ?_⟩
  · have hrequests : tables.pl.Nodup := (List.Nodup.of_map _ hsound.numbers).filter _
    refine hrequests.map_on ?_
    intro request hmem request' hmem' hkey
    rw [Tables.pl, List.mem_filter] at hmem hmem'
    have hnumber := hsound.keys request hmem.1 request' hmem'.1 hmem.2 hmem'.2 hkey
    exact hsound.unique hmem'.1 hmem.1 hnumber
  · intro action request hmem hbusy
    exact (tables.step_next action).keeps hsound hmem hbusy

/-- The times of `radiusd.conf`, and the first delay of `main_config_init`. -/
def raddb_config : main_config_t where
  max_requests := 16384
  max_request_time := 30
  cleanup_delay := 5
  reject_delay := USEC
  init_delay := 2 * (USEC / 3)

/-- A login with a wrong password. -/
def wrong_login : Datagram where
  code := PW_CODE_ACCESS_REQUEST
  id := 7
  vector := List.replicate 16 9
  data := List.replicate 20 1
  sockfd := 5
  src_ipaddr := [10, 0, 0, 1]
  src_port := 40000
  dst_ipaddr := [10, 0, 0, 2]
  dst_port := 1812

/-- The login is rejected, and arrives again once the delayed reply is out. -/
def wrong_login_actions : List Action := [
  .receive wrong_login true none, .dequeue 0, .run 0 true, .handle 0 { code := 3 }, .finish 0 { code := 3 },
  .reply 0 (some [3, 7]), .tick USEC, .timer 0 none, .receive wrong_login true none]

def wrong_login_run : transition.History Tables Action × Tables :=
  transition.replay (Tables.step raddb_config) {} wrong_login_actions

/-- The same login while its handler runs. -/
def handled_login_run : transition.History Tables Action × Tables :=
  transition.replay (Tables.step raddb_config) {} (wrong_login_actions.take 4)

theorem wrong_login_kept :
    (∃ request ∈ handled_login_run.2.requests, request.thread = .handled) ∧
      (handled_login_run.2.pl.map (·.packet.key)).Nodup ∧
      (raddb_config.max_requests ≠ 0 → handled_login_run.2.pl.length ≤ raddb_config.max_requests + 1) ∧
      (∀ request ∈ handled_login_run.2.requests, ∃ when, request.ev = some when) ∧
      ∀ action, ∀ request ∈ handled_login_run.2.requests, request.thread ≠ .idle →
        ∃ request' ∈ (handled_login_run.2.step raddb_config action).requests, request'.number = request.number :=
  ⟨by decide, request_hash_kept (transition.Run.replay (wrong_login_actions.take 4) fun _ _ => trivial)⟩

end Sound

end freeradius.processing
