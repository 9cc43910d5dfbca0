import AaaServer.Process.Replies

namespace freeradius.processing

section Timed

open fr_state_action_t rad_master_state_t rad_child_state_t

variable {config : main_config_t} {now later : Nat} {request request' sent settled : REQUEST} {effect : Effect}
  {left : Option REQUEST} {events : List Event}

/-- The times of a request between two steps. A request that is done with its timer
    still running, and one that no thread has any more, is past its time in the hash. -/
structure Timed (config : main_config_t) (now : Nat) (request : REQUEST) : Prop where
  arrived : request.timestamp ≤ now
  ready : request.thread = .sending → request.timestamp ≤ request.reply.timestamp
  replied : request.in_request_hash = true → request.thread = .idle → request.process ≠ .request_running →
    request.timestamp ≤ request.reply.timestamp
  final : request.in_request_hash = true → request.process = .request_done → Final config now request

theorem Timed.mono (htimed : Timed config now request) (hnow : now ≤ later) : Timed config later request where
  arrived := Nat.le_trans htimed.arrived hnow
  ready := htimed.ready
  replied := htimed.replied
  final hhash hprocess := by
    obtain hport | hcode | hdelay | hlate := htimed.final hhash hprocess
    · exact .inl hport
    · exact .inr (.inl hcode)
    · exact .inr (.inr (.inl hdelay))
    · exact .inr (.inr (.inr (Nat.le_trans hlate hnow)))

/-- A new request, queued or not. -/
theorem Good.timed_new (hgood : Good config now request) (harrived : request.timestamp = now)
    (hthread : request.thread = .queued ∧ request.in_request_hash = true ∨
      request.thread = .idle ∧ request.in_request_hash = false) : Timed config now request := by
  obtain ⟨hqueue, hhash⟩ | ⟨hidle, hhash⟩ := hthread
  · have hrunning := (hgood.running (by simp [hqueue]) hhash).1
    exact {
      arrived := Nat.le_of_eq harrived
      ready := fun hsend => by cases hqueue.symm.trans hsend
      replied := fun _ hidle => by cases hqueue.symm.trans hidle
      final := fun _ hdone => by cases hrunning.symm.trans hdone }
  · exact {
      arrived := Nat.le_of_eq harrived
      ready := fun hsend => by cases hidle.symm.trans hsend
      replied := fun hhash' => by cases hhash.symm.trans hhash'
      final := fun hhash' => by cases hhash.symm.trans hhash' }

theorem Leaves.timed (hleaves : Leaves request left) (harrived : request.timestamp ≤ now)
    (hready : request.thread = .sending → request.timestamp ≤ request.reply.timestamp)
    (hleft : left = some request') : Timed config now request' := by
  cases hleaves with
  | freed => cases hleft
  | waited =>
    cases hleft
    exact ⟨harrived, hready, (fun hhash => by cases hhash), (fun hhash => by cases hhash)⟩

theorem Settles.timed (hsettles : Settles config now request settled) (harrived : request.timestamp ≤ now)
    (hreplied : request.timestamp ≤ request.reply.timestamp) : Timed config now settled := by
  cases hsettles with
  | done delay hfinal =>
    exact ⟨harrived, (fun hthread => by cases hthread), fun _ _ _ => hreplied, fun _ _ => hfinal⟩
  | cleanup hnow =>
    exact ⟨harrived, (fun hthread => by cases hthread), fun _ _ _ => hreplied, (fun _ hdone => by cases hdone)⟩

theorem Timed.drop {process : fr_request_process_t} {reply : Reply} (htimed : Timed config now request)
    (hgood : Good config now request) (hbusy : request.thread ≠ .idle)
    (hprocess : process = request.process ∨ process = .request_done ∧
      (request.master_state = REQUEST_STOP_PROCESSING ∨ request.process = .request_done)) :
    Timed config now (FINAL_STATE REQUEST_DONE { request with process := process, reply := reply }) := by
  have hrunning : request.in_request_hash = true → process = .request_running := by
    intro hhash
    obtain ⟨hrunning, hactive⟩ := hgood.running hbusy hhash
    obtain rfl | ⟨-, hstop | hdone⟩ := hprocess
    · exact hrunning
    · cases hactive.symm.trans hstop
    · cases hrunning.symm.trans hdone
  exact {
    arrived := htimed.arrived
    ready := fun hthread => by cases hthread
    replied := fun hhash _ hnot => absurd (hrunning hhash) hnot
    final := fun hhash hdone => by cases (hrunning hhash).symm.trans hdone }

/-- A step of a child thread that keeps the request. -/
theorem Timed.busy (htimed : Timed config now request) (hgood : Good config now request)
    (hbusy : request.thread ≠ .idle) (hsame : Same request request') (hbusy' : request'.thread ≠ .idle)
    (hprocess : request'.process = request.process)
    (hready : request'.thread = .sending → request'.timestamp ≤ request'.reply.timestamp) :
    Timed config now request' where
  arrived := hsame.timestamp ▸ htimed.arrived
  ready := hready
  replied _ hidle := absurd hidle hbusy'
  final hhash hdone := by
    have hrunning := (hgood.running hbusy (hsame.hash hhash)).1
    cases hrunning.symm.trans (hprocess.symm.trans hdone)

theorem Moves.timed (hmoves : Moves config now request effect) (htimed : Timed config now request)
    (hgood : Good config now request) (hleft : effect.request = some request') : Timed config now request' := by
  have hsame := hmoves.same hleft
  cases hmoves with
  | kept =>
    cases hleft
    exact htimed
  | left _ hleaves => exact hleaves.timed htimed.arrived htimed.ready hleft
  | waited =>
    cases hleft
    exact ⟨htimed.arrived, htimed.ready, htimed.replied, htimed.final⟩
  | rested =>
    cases hleft
    exact ⟨htimed.arrived, htimed.ready, htimed.replied, htimed.final⟩
  | replied_late hprocess hactive hdelay hsends hnow =>
    cases hleft
    obtain ⟨data, rfl⟩ := hsends.encodes
    have hidle := (hgood.delayed hprocess).1
    have hreplied := htimed.replied (hgood.hashed hactive) hidle (by simp [hprocess])
    exact ⟨htimed.arrived, fun _ => hreplied, fun _ _ _ => hreplied, (fun _ hdone => by cases hdone)⟩
  | replied_last delay hprocess hactive hdelay hsends hfinal hleaves =>
    obtain ⟨data, rfl⟩ := hsends.encodes
    have hidle := (hgood.delayed hprocess).1
    exact hleaves.timed htimed.arrived (fun hthread => by cases hidle.symm.trans hthread) hleft
  | dequeued hthread =>
    cases hleft
    exact htimed.busy hgood (by simp [hthread]) hsame (fun hidle => by cases hidle) rfl (fun hsend => by cases hsend)
  | dropped process hthread hprocess =>
    cases hleft
    exact htimed.drop hgood hthread hprocess
  | decoded hthread =>
    cases hleft
    exact htimed.busy hgood (by simp [hthread]) hsame (fun hidle => by cases hidle) rfl (fun hsend => by cases hsend)
  | handled code type hthread =>
    cases hleft
    exact htimed.busy hgood (by simp [hthread]) hsame (fun hidle => by cases hidle) rfl (fun hsend => by cases hsend)
  | finished reply type hthread =>
    cases hleft
    exact htimed.busy hgood (by simp [hthread]) hsame (fun hidle => by cases hidle) rfl (fun hsend => by cases hsend)
  | faked hthread =>
    cases hleft
    exact htimed.drop hgood (by simp [hthread]) (.inl rfl)
  | quieted hthread hquiet hsettles =>
    cases hleft
    exact hsettles.timed htimed.arrived htimed.arrived
  | readied hthread =>
    cases hleft
    exact htimed.busy hgood (by simp [hthread]) hsame (fun hidle => by cases hidle) rfl (fun _ => htimed.arrived)
  | delayed data hthread =>
    cases hleft
    exact {
      arrived := htimed.arrived
      ready := fun hsend => by cases hsend
      replied := fun _ _ _ => htimed.arrived
      final := fun _ hdone => by cases hdone }
  | answered hthread hsends hsettles =>
    cases hleft
    obtain ⟨data, rfl⟩ := hsends.encodes
    exact hsettles.timed htimed.arrived (htimed.ready hthread)

theorem Repeats.timed (hrepeats : Repeats request now effect) (htimed : Timed config now request)
    (hleft : effect.request = some request') : Timed config now request' := by
  cases hrepeats with
  | ignored =>
    cases hleft
    exact htimed
  | left hleaves => exact hleaves.timed htimed.arrived htimed.ready hleft
  | resent hprocess hactive hsends =>
    cases hleft
    obtain ⟨data, rfl⟩ := hsends.encodes
    exact ⟨htimed.arrived, htimed.ready, htimed.replied, htimed.final⟩
  | resent_done hprocess hcode hsends =>
    cases hleft
    obtain ⟨data, rfl⟩ := hsends.encodes
    exact {
      arrived := htimed.arrived
      ready := htimed.ready
      replied := fun hhash hidle _ => htimed.replied hhash hidle (by simp [hprocess])
      final := fun hhash _ => htimed.final hhash hprocess }

/-- A packet whose request is kept for duplicates: it came from a real client, and is not
    an Accounting-Request. -/
def Cached (packet : Datagram) : Prop :=
  packet.dst_port ≠ 0 ∧ packet.code ≠ PW_CODE_ACCOUNTING_REQUEST

/-- How long a request is in the hash at least. -/
def window (config : main_config_t) : Nat :=
  min config.cleanup_delay config.max_request_time * USEC

theorem Final.late (hfinal : Final config now request) (hcached : Cached request.packet)
    (harrived : request.timestamp ≤ now) (hreplied : request.timestamp ≤ request.reply.timestamp) :
    request.timestamp + window config ≤ now := by
  obtain hport | hcode | hdelay | hlate := hfinal
  · exact absurd hport hcached.1
  · exact absurd hcode hcached.2
  · rw [window, hdelay, Nat.zero_min, Nat.zero_mul, Nat.add_zero]
    exact harrived
  · have hwindow : window config ≤ config.cleanup_delay * USEC := Nat.mul_le_mul_right _ (Nat.min_le_left _ _)
    omega

/-- A request in the hash stays there, unless it was never handled or its window is over. -/
theorem Moves.stays (hmoves : Moves config now request effect) (htimed : Timed config now request)
    (hgood : Good config now request) (hcached : Cached request.packet) (hhash : request.in_request_hash = true)
    (hhandled : ¬ (request.process = .request_running ∧ request.thread = .idle)) :
    (∃ request', effect.request = some request' ∧ request'.in_request_hash = true) ∨
      request.timestamp + window config ≤ now := by
  cases hmoves with
  | left hdue hleaves =>
    refine .inr ?_
    have hdone : request.process = .request_done → request.timestamp + window config ≤ now := by
      intro hprocess
      have hidle := hgood.idle hhash (by simp [hprocess])
      exact (htimed.final hhash hprocess).late hcached htimed.arrived
        (htimed.replied hhash hidle (by simp [hprocess]))
    cases hdue with
    | stopped hstop => exact hdone (hgood.stopped hstop hhash)
    | done hprocess => exact hdone hprocess
    | dropped hprocess hchild =>
      refine absurd ⟨hprocess, ?_⟩ hhandled
      by_contra hbusy
      have hunfinished := hgood.busy hbusy
      rw [hchild] at hunfinished
      cases hunfinished
    | max_time hprocess hnow =>
      have hwindow : window config ≤ config.max_request_time * USEC := Nat.mul_le_mul_right _ (Nat.min_le_right _ _)
      omega
    | cleanup hprocess hnow =>
      have hidle := hgood.idle hhash (by simp [hprocess])
      have hfinal : Final config now request := .inr (.inr (.inr hnow))
      exact hfinal.late hcached htimed.arrived (htimed.replied hhash hidle (by simp [hprocess]))
  | replied_last delay hprocess hactive hdelay hsends hfinal =>
    obtain ⟨data, rfl⟩ := hsends.encodes
    have hidle := (hgood.delayed hprocess).1
    have hfinal' : Final config now request := hfinal
    exact .inr (hfinal'.late hcached htimed.arrived (htimed.replied hhash hidle (by simp [hprocess])))
  | replied_late hprocess hactive hdelay hsends =>
    obtain ⟨data, rfl⟩ := hsends.encodes
    exact .inl ⟨_, rfl, hhash⟩
  | quieted hthread hquiet hsettles =>
    cases hsettles with
    | done => exact .inl ⟨_, rfl, hhash⟩
    | cleanup => exact .inl ⟨_, rfl, hhash⟩
  | answered hthread hsends hsettles =>
    obtain ⟨data, rfl⟩ := hsends.encodes
    cases hsettles with
    | done => exact .inl ⟨_, rfl, hhash⟩
    | cleanup => exact .inl ⟨_, rfl, hhash⟩
  | _ => exact .inl ⟨_, rfl, hhash⟩

/-- A request that no thread has, and that still runs, was dropped before its handler saw
    it. -/
theorem Moves.undecoded (hmoves : Moves config now request effect) (hgood : Good config now request)
    (hleft : effect.request = some request') (hhash : request'.in_request_hash = true)
    (hidle : request'.thread = .idle) (hrunning : request'.process = .request_running) :
    Waiting request ∨ request.packet.dst_port = 0 ∨
      request.thread = .idle ∧ request.process = .request_running := by
  cases hmoves with
  | kept =>
    cases hleft
    exact .inr (.inr ⟨hidle, hrunning⟩)
  | left _ hleaves =>
    cases hleaves with
    | freed => cases hleft
    | waited =>
      cases hleft
      cases hhash
  | waited =>
    cases hleft
    exact .inr (.inr ⟨hidle, hrunning⟩)
  | rested =>
    cases hleft
    exact .inr (.inr ⟨hidle, hrunning⟩)
  | replied_late =>
    cases hleft
    cases hrunning
  | replied_last _ _ _ _ _ _ hleaves =>
    cases hleaves with
    | freed => cases hleft
    | waited =>
      cases hleft
      cases hhash
  | dropped process hthread hprocess hdropped =>
    cases hleft
    obtain hstop | hthread := hdropped
    · cases (hgood.running hthread hhash).2.symm.trans hstop
    · exact .inl (.inr (.inl hthread))
  | faked _ hfake => exact .inr (.inl hfake)
  | quieted _ _ hsettles =>
    cases hleft
    cases hsettles with
    | done => cases hrunning
    | cleanup => cases hrunning
  | answered _ _ hsettles =>
    cases hleft
    cases hsettles with
    | done => cases hrunning
    | cleanup => cases hrunning
  | delayed =>
    cases hleft
    cases hrunning
  | _ =>
    cases hleft
    cases hidle

/-- A request in the hash that its handler may still see stays one, or its window is over. -/
theorem Moves.live (hmoves : Moves config now request effect) (htimed : Timed config now request)
    (hgood : Good config now request) (hcached : Cached request.packet) (hhash : request.in_request_hash = true)
    (hhandled : ¬ (request.process = .request_running ∧ request.thread = .idle)) :
    (∃ request', effect.request = some request' ∧ request'.in_request_hash = true ∧
        (request'.process = .request_running → request'.thread = .idle → Waiting request)) ∨
      request.timestamp + window config ≤ now := by
  obtain ⟨request', hleft, hhash'⟩ | hlate := hmoves.stays htimed hgood hcached hhash hhandled
  · refine .inl ⟨request', hleft, hhash', fun hrunning hidle => ?_⟩
    obtain hwaiting | hport | ⟨hidle', hrunning'⟩ := hmoves.undecoded hgood hleft hhash' hidle hrunning
    · exact hwaiting
    · exact absurd hport hcached.1
    · exact absurd ⟨hrunning', hidle'⟩ hhandled
  · exact .inr hlate

theorem Reports.waiting (hreports : Reports config now request effect) (hleft : effect.request = some request')
    (hwaiting : Waiting request') : Waiting request := by
  cases hreports with
  | silent hquiet => exact (hquiet request' hleft).waiting hwaiting
  | handled hthread => exact .inr (.inr hthread)
  | sent _ _ _ _ _ _ _ hanswered => exact absurd hwaiting (not_waiting (hanswered request' hleft).1.1)

/-- The event of a handler is about the request that it sees. -/
theorem Reports.handles {at' : Nat} (hreports : Reports config now request effect)
    (hevent : .handle at' sent ∈ effect.events) :
    sent = request ∧ Waiting request ∧ ∃ request', effect.request = some request' ∧ request'.thread = .handled := by
  cases hreports with
  | silent => cases hevent
  | handled hthread hhandled =>
    rw [List.mem_singleton] at hevent
    cases hevent
    exact ⟨rfl, .inr (.inr hthread), _, rfl, hhandled⟩
  | sent =>
    rw [List.mem_singleton] at hevent
    cases hevent

theorem Repeats.stays (hrepeats : Repeats request now effect) (htimed : Timed config now request)
    (hgood : Good config now request) (hcached : Cached request.packet) (hhash : request.in_request_hash = true)
    (hhandled : ¬ (request.process = .request_running ∧ request.thread = .idle)) :
    (∃ request', effect.request = some request' ∧ request'.in_request_hash = true ∧
        (request'.process = .request_running → request'.thread = .idle → Waiting request)) ∨
      request.timestamp + window config ≤ now := by
  cases hrepeats with
  | ignored => exact .inl ⟨_, rfl, hhash, fun hrunning hidle => absurd ⟨hrunning, hidle⟩ hhandled⟩
  | left hleaves hdue =>
    have hprocess : request.process = .request_done := by
      obtain ⟨hstop, -⟩ | ⟨hprocess, -⟩ := hdue
      · exact hgood.stopped hstop hhash
      · exact hprocess
    have hidle := hgood.idle hhash (by simp [hprocess])
    exact .inr ((htimed.final hhash hprocess).late hcached htimed.arrived
      (htimed.replied hhash hidle (by simp [hprocess])))
  | resent hprocess hactive hsends =>
    obtain ⟨data, rfl⟩ := hsends.encodes
    exact .inl ⟨_, rfl, hhash, fun hrunning => by cases hprocess.symm.trans hrunning⟩
  | resent_done hprocess hcode hsends =>
    obtain ⟨data, rfl⟩ := hsends.encodes
    exact .inl ⟨_, rfl, hhash, fun hrunning => by cases hrunning⟩

end Timed

section Held

variable {config : main_config_t} {tables after : Tables} {f : REQUEST → Effect} {request request' copy : REQUEST}
  {packet : Datagram} {enqueued : Bool} {encoded : Option (List UInt8)} {action : Action} {log events : List Event}
  {last later : Nat}

/-- What a request keeps from its arrival on. -/
def REQUEST.origin (request : REQUEST) : Nat × Datagram × Nat :=
  (request.number, request.packet, request.timestamp)

theorem REQUEST.origin_inj : request'.origin = request.origin ↔
    request'.number = request.number ∧ request'.packet = request.packet ∧ request'.timestamp = request.timestamp := by
  simp only [REQUEST.origin, Prod.mk.injEq]

theorem Same.origin (hsame : Same request request') : request'.origin = request.origin :=
  REQUEST.origin_inj.mpr ⟨hsame.number, hsame.packet, hsame.timestamp⟩

/-- The window of a request is over: another packet with its address and id has come
    since, or its time has passed. -/
def Over (config : main_config_t) (log : List Event) (request : REQUEST) (last : Nat) : Prop :=
  (∃ now other, .receive now other ∈ log ∧ request.timestamp ≤ now ∧ now ≤ last ∧
      other.key = request.packet.key ∧ other.repeats request.packet = false) ∨
    request.timestamp + window config ≤ last

theorem Over.mono (hover : Over config log request last) (hlast : last ≤ later) :
    Over config (log ++ events) request later := by
  obtain ⟨now, other, hevent, hfirst, hnow, hother⟩ | hlate := hover
  · exact .inl ⟨now, other, List.mem_append_left _ hevent, hfirst, Nat.le_trans hnow hlast, hother⟩
  · exact .inr (Nat.le_trans hlate hlast)

theorem Over.of_origin (hover : Over config log request last) (horigin : request'.origin = request.origin) :
    Over config log request' last := by
  obtain ⟨-, hpacket, htimestamp⟩ := REQUEST.origin_inj.mp horigin
  rw [Over, hpacket, htimestamp]
  exact hover

/-- A request that its handler has seen, or may still see. -/
def Handed (tables : Tables) (request : REQUEST) : Prop :=
  request ∈ tables.requests ∧ Waiting request ∨ ∃ now, .handle now request ∈ tables.log

/-- A request is in the hash, and was not dropped before its handler saw it. -/
def Live (tables : Tables) (request : REQUEST) : Prop :=
  ∃ current ∈ tables.requests, current.origin = request.origin ∧ current.in_request_hash = true ∧
    ¬ (current.process = .request_running ∧ current.thread = .idle)

/-- The invariant of the duplicate detection. -/
structure Held (config : main_config_t) (tables : Tables) : Prop where
  timed : ∀ request ∈ tables.requests, Timed config tables.now request
  live : ∀ request, Handed tables request → Cached request.packet →
    Live tables request ∨ Over config tables.log request tables.now
  pairs : ∀ request copy, Handed tables request → Handed tables copy → request.number < copy.number →
    copy.packet.key = request.packet.key → Cached request.packet → Over config tables.log request copy.timestamp

theorem Logged.not_handled (hlogged : Logged config tables) (hmem : request ∈ tables.requests)
    (hwaiting : Waiting request) (hnumber : request'.number = request.number) :
    .handle last request' ∉ tables.log := by
  intro hevent
  have hnone := List.countP_eq_zero.mp (hlogged.waiting request hmem hwaiting) _ hevent
  rw [Event.handles, decide_eq_true_eq] at hnone
  exact hnone hnumber

theorem Handed.counted (hhanded : Handed tables request) (hsound : Sound config tables)
    (hlogged : Logged config tables) : request.number < tables.request_num_counter := by
  obtain ⟨hmem, -⟩ | ⟨now, hevent⟩ := hhanded
  · exact hsound.counted request hmem
  · by_contra hcounter
    have hnone := List.countP_eq_zero.mp (hlogged.fresh request.number (Nat.not_lt.mp hcounter)) _ hevent
    rw [Event.handles, decide_eq_true_eq] at hnone
    exact hnone rfl

/-- Time passes, and packets arrive. -/
theorem Held.idle (hheld : Held config tables) (hrequests : after.requests = tables.requests)
    (hnow : tables.now ≤ after.now) (hlog : after.log = tables.log ++ events)
    (hevents : ∀ now request, .handle now request ∉ events) : Held config after := by
  have hhanded : ∀ request, Handed after request → Handed tables request := by
    rintro request (⟨hmem, hwaiting⟩ | ⟨now, hevent⟩)
    · exact .inl ⟨hrequests ▸ hmem, hwaiting⟩
    · rw [hlog, List.mem_append] at hevent
      exact .inr ⟨now, hevent.resolve_right (hevents now request)⟩
  exact {
    timed := by
      rw [hrequests]
      exact fun request hmem => (hheld.timed request hmem).mono hnow
    live := by
      intro request hrequest hcached
      rw [Live, hrequests, hlog]
      exact (hheld.live request (hhanded request hrequest) hcached).imp_right (·.mono hnow)
    pairs := by
      intro request copy hrequest hcopy hless hkey hcached
      rw [hlog]
      exact (hheld.pairs request copy (hhanded request hrequest) (hhanded copy hcopy) hless hkey hcached).mono
        (Nat.le_refl _) }

section Touch

variable {new : REQUEST} (hsound : Sound config tables) (hlogged : Logged config tables)
  (hmem : request ∈ tables.requests)
  (hreports : Reports config tables.now request (f request))
include hsound hmem hreports

theorem Handed.touched (hsame : ∀ request', (f request).request = some request' → Same request request')
    (hhanded : Handed (tables.touch request.number f) new) :
    ∃ old, Handed tables old ∧ new.origin = old.origin := by
  obtain ⟨hnew, hwaiting⟩ | ⟨now, hevent⟩ := hhanded
  · obtain htouch | ⟨hold, -⟩ := hsound.mem_touch hmem hnew
    · exact ⟨request, .inl ⟨hmem, hreports.waiting htouch hwaiting⟩, (hsame new htouch).origin⟩
    · exact ⟨new, .inl ⟨hold, hwaiting⟩, rfl⟩
  · rw [hsound.touch_log hmem, List.mem_append] at hevent
    obtain hold | hnew := hevent
    · exact ⟨new, .inr ⟨now, hold⟩, rfl⟩
    · obtain ⟨rfl, hwaiting, -⟩ := hreports.handles hnew
      exact ⟨_, .inl ⟨hmem, hwaiting⟩, rfl⟩

include hlogged

/-- A request that leaves its thread before its handler has seen it is not handled later. -/
theorem not_handed_dropped (hleft : (f request).request = some request') (hidle : request'.thread = .idle)
    (hwaiting : Waiting request) (hnumber : new.number = request.number) :
    ¬ Handed (tables.touch request.number f) new := by
  rintro (⟨hnew, hnewwaiting⟩ | ⟨now, hevent⟩)
  · obtain htouch | ⟨-, hother⟩ := hsound.mem_touch hmem hnew
    · cases hleft.symm.trans htouch
      exact not_waiting hidle hnewwaiting
    · exact hother hnumber
  · rw [hsound.touch_log hmem, List.mem_append] at hevent
    obtain hold | hnew := hevent
    · exact hlogged.not_handled hmem hwaiting hnumber hold
    · obtain ⟨-, -, handled, hhandled, hthread⟩ := hreports.handles hnew
      cases hleft.symm.trans hhandled
      cases hidle.symm.trans hthread

theorem Held.touch (hheld : Held config tables)
    (hsame : ∀ request', (f request).request = some request' → Same request request')
    (htimed : ∀ request', (f request).request = some request' → Timed config tables.now request')
    (hstays : Cached request.packet → request.in_request_hash = true →
      ¬ (request.process = .request_running ∧ request.thread = .idle) →
      (∃ request', (f request).request = some request' ∧ request'.in_request_hash = true ∧
          (request'.process = .request_running → request'.thread = .idle → Waiting request)) ∨
        Over config tables.log request tables.now) :
    Held config (tables.touch request.number f) := by
  have hlog : (tables.touch request.number f).log = tables.log ++ (f request).events := hsound.touch_log hmem
  exact {
    timed := by
      intro new hnew
      obtain htouch | ⟨hold, -⟩ := hsound.mem_touch hmem hnew
      · exact htimed new htouch
      · exact hheld.timed new hold
    live := by
      intro new hnew hcached
      obtain ⟨old, hold, horigin⟩ := hnew.touched hsound hmem hreports hsame
      obtain ⟨hnumber, hpacket, -⟩ := REQUEST.origin_inj.mp horigin
      rw [hlog]
      obtain ⟨current, hcurrent, hcurrentorigin, hhash, hhandled⟩ | hover := hheld.live old hold (hpacket ▸ hcached)
      · have hcurrentnew := hcurrentorigin.trans horigin.symm
        by_cases hsamenumber : current.number = request.number
        · obtain rfl := hsound.unique hmem hcurrent hsamenumber
          obtain ⟨hnewnumber, hnewpacket, -⟩ := REQUEST.origin_inj.mp hcurrentnew
          obtain ⟨request', hleft, hhash', hdrop⟩ | hover := hstays (hnewpacket ▸ hcached) hhash hhandled
          · refine .inl ⟨request', Tables.mem_touch.mpr ⟨current, hmem, by rw [if_pos rfl, hleft]⟩,
              (hsame request' hleft).origin.trans hcurrentnew, hhash', ?_⟩
            rintro ⟨hrunning, hidle⟩
            exact not_handed_dropped hsound hlogged hmem hreports hleft hidle (hdrop hrunning hidle)
              hnewnumber.symm hnew
          · exact .inr ((hover.of_origin hcurrentnew.symm).mono (Nat.le_refl _))
        · exact .inl ⟨current, Tables.mem_touch.mpr ⟨current, hcurrent, by rw [if_neg hsamenumber]⟩,
            hcurrentnew, hhash, hhandled⟩
      · exact .inr ((hover.of_origin horigin).mono (Nat.le_refl _))
    pairs := by
      intro first second hfirst hsecond hless hkey hcached
      obtain ⟨old, hold, horigin⟩ := hfirst.touched hsound hmem hreports hsame
      obtain ⟨old', hold', horigin'⟩ := hsecond.touched hsound hmem hreports hsame
      obtain ⟨hnumber, hpacket, -⟩ := REQUEST.origin_inj.mp horigin
      obtain ⟨hnumber', hpacket', htimestamp'⟩ := REQUEST.origin_inj.mp horigin'
      rw [hnumber, hnumber'] at hless
      rw [hpacket, hpacket'] at hkey
      rw [hlog, htimestamp']
      have hover := hheld.pairs old old' hold hold' hless hkey (hpacket ▸ hcached)
      exact (hover.of_origin horigin).mono (Nat.le_refl _) }

end Touch

/-- A new request is the only one in the hash with its address and id. -/
theorem Held.insert (hheld : Held config tables) (hsound : Sound config tables) (hlogged : Logged config tables)
    (hnone : ∀ request ∈ tables.requests, request.in_request_hash = true → request.packet.key ≠ packet.key) :
    Held config (request_insert config packet enqueued encoded tables) := by
  unfold request_insert
  split
  · exact hheld
  obtain ⟨queued, hqueued, hnumber, hpacket, htimestamp, -, hthread, hgood⟩ :=
    @request_queue_or_run_cases config enqueued encoded tables.request_num_counter tables.now packet
  dsimp only
  rw [hqueued]
  generalize ({ request_setup tables.request_num_counter tables.now packet with in_request_hash := true } :
    REQUEST) = accepted
  have hcases : ∀ request ∈ tables.requests ++ (some queued).toList,
      request ∈ tables.requests ∨ request = queued := by
    intro request hmem
    rw [Option.toList_some, List.mem_append, List.mem_singleton] at hmem
    exact hmem
  have hqueuedmem : queued ∈ tables.requests ++ (some queued).toList :=
    List.mem_append_right _ (List.mem_singleton_self _)
  have hhanded : ∀ request, (request ∈ tables.requests ++ (some queued).toList ∧ Waiting request ∨
      ∃ now, .handle now request ∈ tables.log ++ [Event.accept tables.now accepted]) →
      Handed tables request ∨ request = queued ∧ queued.thread = .queued ∧ queued.in_request_hash = true := by
    rintro request (⟨hmem, hwaiting⟩ | ⟨now, hevent⟩)
    · obtain hmem | rfl := hcases request hmem
      · exact .inl (.inl ⟨hmem, hwaiting⟩)
      · obtain hqueue | ⟨hidle, -⟩ := hthread
        · exact .inr ⟨rfl, hqueue⟩
        · exact absurd hwaiting (not_waiting hidle)
    · rw [List.mem_append, List.mem_singleton] at hevent
      obtain hevent | hevent := hevent
      · exact .inl (.inr ⟨now, hevent⟩)
      · cases hevent
  exact {
    timed := by
      intro request hmem
      obtain hmem | rfl := hcases request hmem
      · exact hheld.timed request hmem
      · exact hgood.timed_new htimestamp hthread
    live := by
      intro request hrequest hcached
      obtain hold | ⟨rfl, hqueue, hhash⟩ := hhanded request hrequest
      · refine (hheld.live request hold hcached).imp ?_ (·.mono (Nat.le_refl _))
        rintro ⟨current, hcurrent, hlive⟩
        exact ⟨current, List.mem_append_left _ hcurrent, hlive⟩
      · exact .inl ⟨request, hqueuedmem, rfl, hhash, fun hidle => by cases hqueue.symm.trans hidle.2⟩
    pairs := by
      intro first second hfirst hsecond hless hkey hcached
      obtain hold | ⟨rfl, -⟩ := hhanded first hfirst
      · obtain hold' | ⟨rfl, -⟩ := hhanded second hsecond
        · exact (hheld.pairs first second hold hold' hless hkey hcached).mono (Nat.le_refl _)
        · obtain ⟨current, hcurrent, horigin, hhash, -⟩ | hover := hheld.live first hold hcached
          · have hsamepacket := (REQUEST.origin_inj.mp horigin).2.1
            exact absurd (by rw [hsamepacket, ← hkey, hpacket]) (hnone current hcurrent hhash)
          · exact hover.mono (Nat.le_of_eq htimestamp.symm)
      · obtain hold' | ⟨rfl, -⟩ := hhanded second hsecond
        · rw [hnumber] at hless
          exact absurd (hold'.counted hsound hlogged) (Nat.not_lt.mpr (Nat.le_of_lt hless))
        · exact absurd hless (Nat.lt_irrefl _) }

theorem Held.next (hheld : Held config tables) (hsound : Sound config tables) (hlogged : Logged config tables)
    (hnext : Next config tables action after) : Held config after := by
  have hhear : ∀ packet, Held config (tables.hear packet) := by
    intro packet
    refine hheld.idle rfl (Nat.le_refl _) rfl ?_
    intro now request hevent
    rw [List.mem_singleton] at hevent
    cases hevent
  cases hnext with
  | ticked => exact hheld.idle rfl (Nat.le_add_right _ _) (List.append_nil _).symm fun _ _ => List.not_mem_nil
  | @moved _ f number hmoves =>
    by_cases hnone : ∀ request ∈ tables.requests, request.number ≠ number
    · rw [Tables.touch_none hnone]
      exact hheld
    simp only [not_forall, not_not] at hnone
    obtain ⟨request, hmem, rfl⟩ := hnone
    have hgood := hsound.good request hmem
    have htimed := hheld.timed request hmem
    exact hheld.touch hsound hlogged hmem ((hmoves request).reports hgood) (fun _ => (hmoves request).same)
      (fun _ => (hmoves request).timed htimed hgood)
      fun hcached hhash hhandled => ((hmoves request).live htimed hgood hcached hhash hhandled).imp_right .inr
  | @repeated packet _ _ f request hmem hhash hkey hrepeats hmoves =>
    have hgood := hsound.good request hmem
    have htimed := hheld.timed request hmem
    exact (hhear packet).touch hsound.hear hlogged.hear hmem ((hmoves request).reports hgood hhash)
      (fun _ => (hmoves request).same) (fun _ => (hmoves request).timed htimed)
      fun hcached _ hhandled => ((hmoves request).stays htimed hgood hcached hhash hhandled).imp_right .inr
  | accepted hnone => exact (hhear _).insert hsound.hear hlogged.hear hnone
  | @superseded packet _ _ f request hmem hhash hkey hother hleaves =>
    obtain ⟨left, hleft, heffect⟩ := hleaves request
    have hgood := hsound.good request hmem
    have htimed := hheld.timed request hmem
    have hheard : Sound config (tables.hear packet) := hsound.hear
    have hsame : ∀ old new, (f old).request = some new → Same old new :=
      fun old new htouch => (Leaves.same_of hleaves htouch).same rfl
    have hsound' : Sound config ((tables.hear packet).touch request.number f) :=
      hheard.touch hsame fun old new hgood htouch => (Leaves.same_of hleaves htouch).good hgood.ready rfl
    have hquiet : Reports config (tables.hear packet).now request (f request) := by
      rw [heffect]
      exact .silent fun _ => hleft.quiet
    have hlogged' := hlogged.hear.touch_silent hheard hmem hsame heffect fun _ => hleft.quiet
    refine Held.insert ?_ hsound' hlogged' (hkey ▸ hheard.none_superseded hmem hhash hleaves)
    refine (hhear packet).touch hheard hlogged.hear hmem hquiet (hsame request) ?_ ?_
    · intro new htouch
      exact (Leaves.same_of hleaves htouch).timed htimed.arrived htimed.ready rfl
    · intro _ _ _
      exact .inr (.inl ⟨tables.now, packet, List.mem_append_right _ (List.mem_singleton_self _), htimed.arrived,
        Nat.le_refl _, hkey.symm, hother⟩)

theorem Held.run {history : transition.History Tables Action}
    (hrun : transition.Run (Tables.step config) (fun _ _ _ => True) {} history tables) : Held config tables := by
  have hall := hrun.invariant
    (fun _ tables => Sound config tables ∧ Logged config tables ∧ Held config tables) ?_ ?_
  · exact hall.2.2
  · refine ⟨Sound.run .nil, Logged.run .nil, ?_⟩
    have hnone : ∀ request, ¬ Handed {} request := by
      rintro request (⟨hmem, -⟩ | ⟨_, hevent⟩)
      · exact List.not_mem_nil hmem
      · exact List.not_mem_nil hevent
    exact {
      timed := fun _ hmem => absurd hmem List.not_mem_nil
      live := fun request hrequest => absurd hrequest (hnone request)
      pairs := fun request _ hrequest => absurd hrequest (hnone request) }
  · intro _ tables action hinv _
    have hnext := @Tables.step_next config tables action
    exact ⟨hinv.1.next hnext, hinv.2.1.next hinv.1 hnext, hinv.2.2.next hinv.1 hinv.2.1 hnext⟩

/-- While its window lasts no copy of a packet is handled again, in whatever order the
    threads, the timers and the packets come: of two requests with one address and id that
    are both handled, the second one came after the window of the first, or after a packet
    that put an end to it. -/
theorem retransmission_not_handled {history : transition.History Tables Action} {now now' : Nat}
    (hrun : transition.Run (Tables.step config) (fun _ _ _ => True) {} history tables)
    (hfirst : .handle now request ∈ tables.log) (hsecond : .handle now' copy ∈ tables.log)
    (hless : request.number < copy.number) (hkey : copy.packet.key = request.packet.key)
    (hport : request.packet.dst_port ≠ 0) (hcode : request.packet.code ≠ PW_CODE_ACCOUNTING_REQUEST) :
    (∃ when other, .receive when other ∈ tables.log ∧ request.timestamp ≤ when ∧ when ≤ copy.timestamp ∧
        other.key = request.packet.key ∧ other.repeats request.packet = false) ∨
      request.timestamp + min config.cleanup_delay config.max_request_time * USEC ≤ copy.timestamp :=
  (Held.run hrun).pairs request copy (.inr ⟨now, hfirst⟩) (.inr ⟨now', hsecond⟩) hless hkey ⟨hport, hcode⟩

/-- The wrong login, and the same packet again once its window is over. -/
def late_login_actions : List Action :=
  wrong_login_actions ++ [
    .tick (10 * USEC), .timer 0 none, .receive wrong_login true none, .dequeue 1, .run 1 true,
    .handle 1 { code := 3 }]

def late_login_run : transition.History Tables Action × Tables :=
  transition.replay (Tables.step raddb_config) {} late_login_actions

/-- The request that its handler sees: the first, and the second. -/
def late_login_request (number now : Nat) : REQUEST where
  number := number
  packet := wrong_login
  timestamp := now
  child_state := .REQUEST_RUNNING
  in_request_hash := true
  delay := 999999
  ev := some (now + 666666)
  thread := .decoded

theorem late_login_handled :
    (∃ when other, .receive when other ∈ late_login_run.2.log ∧ 0 ≤ when ∧ when ≤ 11 * USEC ∧
        other.key = wrong_login.key ∧ other.repeats wrong_login = false) ∨
      0 + min raddb_config.cleanup_delay raddb_config.max_request_time * USEC ≤ 11 * USEC :=
  @retransmission_not_handled raddb_config late_login_run.2 (late_login_request 0 0)
    (late_login_request 1 (11 * USEC)) late_login_run.1 0 (11 * USEC)
    (transition.Run.replay late_login_actions fun _ _ => trivial) (by decide) (by decide) (by decide) rfl
    (by decide) (by decide)

end Held

end freeradius.processing
