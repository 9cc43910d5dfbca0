import AaaServer.Process.Sound

namespace freeradius.processing

section Reports

open fr_state_action_t rad_master_state_t rad_child_state_t

variable {config : main_config_t} {now : Nat} {request request' sent settled : REQUEST} {effect : Effect}
  {left : Option REQUEST} {events : List Event}

/-- A request that has its reply. -/
def Answered (request : REQUEST) : Prop :=
  request.thread = .idle ∧ (request.process = .request_cleanup_delay ∨ request.process = .request_done)

/-- A request that its handler has not seen yet. -/
def Waiting (request : REQUEST) : Prop :=
  request.thread = .queued ∨ request.thread = .dequeued ∨ request.thread = .decoded

/-- A request that its handler has seen. -/
def Worked (request : REQUEST) : Prop :=
  request.thread = .handled ∨ request.thread = .finished ∨ request.thread = .sending ∨ request.reply.code ≠ 0

/-- A step that logs nothing brings no request back to where it was before. -/
structure Quiet (request request' : REQUEST) : Prop where
  answered : Answered request → Answered request' ∧ request'.reply = request.reply
  waiting : Waiting request' → Waiting request
  worked : Worked request' → Worked request

theorem Quiet.refl (request : REQUEST) : Quiet request request :=
  ⟨fun hanswered => ⟨hanswered, rfl⟩, id, id⟩

/-- What a step says in the log of the request that it is about. -/
inductive Reports (config : main_config_t) (now : Nat) (request : REQUEST) : Effect → Prop where
  | silent {left : Option REQUEST} (hquiet : ∀ request', left = some request' → Quiet request request') :
      Reports config now request ⟨left, []⟩
  | handled {request' : REQUEST} (hthread : request.thread = .decoded) (hhandled : request'.thread = .handled) :
      Reports config now request ⟨some request', [.handle now request]⟩
  | sent {sent : REQUEST} {left : Option REQUEST} (hnumber : sent.number = request.number)
      (hpacket : sent.packet = request.packet) (hcode : sent.reply.code ≠ 0) (hdata : sent.reply.data.isSome)
      (hwaited : sent.reply.timestamp + reject_wait config sent ≤ now) (hworked : Worked request)
      (hkept : Answered request → request.reply.data.isSome → sent.reply = request.reply)
      (hleft : ∀ request', left = some request' → Answered request' ∧ request'.reply = sent.reply) :
      Reports config now request ⟨left, [.send now sent]⟩

theorem Leaves.quiet (hleaves : Leaves request left) (hleft : left = some request') : Quiet request request' := by
  cases hleaves with
  | freed => cases hleft
  | waited =>
    cases hleft
    exact ⟨fun hanswered => ⟨⟨hanswered.1, .inr rfl⟩, rfl⟩, id, id⟩

theorem Leaves.answered (hleaves : Leaves request left) (hidle : request.thread = .idle)
    (hleft : left = some request') : Answered request' ∧ request'.reply = request.reply := by
  cases hleaves with
  | freed => cases hleft
  | waited =>
    cases hleft
    exact ⟨⟨hidle, .inr rfl⟩, rfl⟩

theorem Settles.answered (hsettles : Settles config now request settled) :
    Answered settled ∧ settled.reply = request.reply := by
  cases hsettles with
  | done => exact ⟨⟨rfl, .inr rfl⟩, rfl⟩
  | cleanup => exact ⟨⟨rfl, .inl rfl⟩, rfl⟩

/-- A thread that is not idle has no reply out yet. -/
theorem Quiet.of_busy (hbusy : request.thread ≠ .idle) (hwaiting : Waiting request' → Waiting request)
    (hworked : Worked request' → Worked request) : Quiet request request' :=
  ⟨fun hanswered => absurd hanswered.1 hbusy, hwaiting, hworked⟩

theorem not_waiting (hthread : request.thread = .idle) : ¬ Waiting request := by
  rintro (hnot | hnot | hnot) <;> cases hthread.symm.trans hnot

/-- A child thread that lets go of a request leaves the reply as it was. -/
theorem Worked.of_idle (hworked : Worked request') (hidle : request'.thread = .idle)
    (hcode : request'.reply.code = request.reply.code) : Worked request := by
  obtain hnot | hnot | hnot | hnot := hworked
  · cases hidle.symm.trans hnot
  · cases hidle.symm.trans hnot
  · cases hidle.symm.trans hnot
  · exact .inr (.inr (.inr (hcode ▸ hnot)))

theorem Sends.reports {ev : Option Nat} (hsends : Sends now { request with ev := ev } sent events)
    (hworked : request.reply.code ≠ 0 → Worked request)
    (hwaited : request.reply.timestamp + reject_wait config request ≤ now)
    (hleft : ∀ request', left = some request' → Answered request' ∧ request'.reply = sent.reply)
    (hquiet : ∀ request', left = some request' → Answered request' → request'.reply = request.reply →
      Quiet request request') :
    Reports config now request ⟨left, events⟩ := by
  cases hsends with
  | sent data hcode hkept =>
    refine .sent rfl rfl hcode rfl hwaited (hworked hcode) ?_ hleft
    intro _ hdata
    have hsame := hkept hdata
    rw [← hsame]
  | unsent =>
    refine .silent fun request' hsome => ?_
    obtain ⟨hanswered, hreply⟩ := hleft request' hsome
    exact hquiet request' hsome hanswered hreply

theorem Quiet.of_answered (hnot : ¬ Answered request) (hanswered : Answered request')
    (hworked : Worked request' → Worked request) : Quiet request request' :=
  ⟨fun hanswered => absurd hanswered hnot, fun hwaiting => absurd hwaiting (not_waiting hanswered.1), hworked⟩

theorem not_answered (hprocess : request.process = .request_response_delay) : ¬ Answered request := by
  rintro ⟨-, hnot | hnot⟩ <;> cases hprocess.symm.trans hnot

theorem Sends.thread (hsends : Sends now request sent events) : sent.thread = request.thread := by
  obtain ⟨data, rfl⟩ := hsends.encodes
  rfl

/-- What a move says in the log. -/
theorem Moves.reports (hmoves : Moves config now request effect) (hgood : Good config now request) :
    Reports config now request effect := by
  cases hmoves with
  | kept =>
    refine .silent fun request' hleft => ?_
    cases hleft
    exact .refl request
  | left _ hleaves => exact .silent fun _ hleft => hleaves.quiet hleft
  | waited =>
    refine .silent fun request' hleft => ?_
    cases hleft
    exact ⟨fun hanswered => ⟨hanswered, rfl⟩, id, id⟩
  | rested =>
    refine .silent fun request' hleft => ?_
    cases hleft
    exact ⟨fun hanswered => ⟨hanswered, rfl⟩, id, id⟩
  | @replied_late sent events hprocess hactive hdelay hsends hnow =>
    obtain ⟨hidle, hwait⟩ := hgood.delayed hprocess
    have hsent : sent.thread = .idle := hsends.thread.trans hidle
    refine hsends.reports (fun hcode => .inr (.inr (.inr hcode))) (hwait ▸ hdelay) ?_ ?_
    · intro request' hleft
      cases hleft
      exact ⟨⟨hsent, .inl rfl⟩, rfl⟩
    · intro request' _ hanswered hreply
      exact .of_answered (not_answered hprocess) hanswered fun hworked => hworked.of_idle hanswered.1 (by rw [hreply])
  | @replied_last sent events left delay hprocess hactive hdelay hsends hfinal hleaves =>
    obtain ⟨hidle, hwait⟩ := hgood.delayed hprocess
    have hsent : sent.thread = .idle := hsends.thread.trans hidle
    refine hsends.reports (fun hcode => .inr (.inr (.inr hcode))) (hwait ▸ hdelay) ?_ ?_
    · intro request' hleft
      exact hleaves.answered hsent hleft
    · intro request' _ hanswered hreply
      exact .of_answered (not_answered hprocess) hanswered fun hworked => hworked.of_idle hanswered.1 (by rw [hreply])
  | dequeued hthread =>
    refine .silent fun request' hleft => ?_
    cases hleft
    refine .of_busy (by simp [hthread]) (fun _ => .inl hthread) ?_
    rintro (hnot | hnot | hnot | hcode)
    · cases hnot
    · cases hnot
    · cases hnot
    · exact .inr (.inr (.inr hcode))
  | dropped process hthread =>
    refine .silent fun request' hleft => ?_
    cases hleft
    exact .of_busy hthread (fun hwaiting => absurd hwaiting (not_waiting rfl))
      (fun hworked => hworked.of_idle rfl rfl)
  | decoded hthread =>
    refine .silent fun request' hleft => ?_
    cases hleft
    refine .of_busy (by simp [hthread]) (fun _ => .inr (.inl hthread)) ?_
    rintro (hnot | hnot | hnot | hcode)
    · cases hnot
    · cases hnot
    · cases hnot
    · exact .inr (.inr (.inr hcode))
  | handled code type hthread => exact .handled hthread rfl
  | finished reply type hthread =>
    refine .silent fun request' hleft => ?_
    cases hleft
    refine .of_busy (by simp [hthread]) ?_ fun _ => .inl hthread
    rintro (hnot | hnot | hnot) <;> cases hnot
  | faked hthread =>
    refine .silent fun request' hleft => ?_
    cases hleft
    exact .of_busy (by simp [hthread]) (fun hwaiting => absurd hwaiting (not_waiting rfl))
      fun _ => .inr (.inl hthread)
  | quieted hthread hquiet hsettles =>
    refine .silent fun request' hleft => ?_
    cases hleft
    exact .of_busy (by simp [hthread]) (fun hwaiting => absurd hwaiting (not_waiting hsettles.idle))
      fun _ => .inr (.inl hthread)
  | readied hthread =>
    refine .silent fun request' hleft => ?_
    cases hleft
    refine .of_busy (by simp [hthread]) ?_ fun _ => .inr (.inl hthread)
    rintro (hnot | hnot | hnot) <;> cases hnot
  | delayed data hthread =>
    refine .silent fun request' hleft => ?_
    cases hleft
    exact .of_busy (by simp [hthread]) (fun hwaiting => absurd hwaiting (not_waiting rfl))
      fun _ => .inr (.inl hthread)
  | answered hthread hsends hsettles =>
    obtain ⟨hwait, hnow⟩ := hgood.ready hthread
    have hnot : ¬ Answered request := by
      rintro ⟨hidle, -⟩
      cases hidle.symm.trans hthread
    refine hsends.reports (fun _ => .inr (.inr (.inl hthread))) (by rw [hwait]; exact hnow) ?_ ?_
    · intro request' hleft
      cases hleft
      exact hsettles.answered
    · intro request' _ hanswered _
      exact .of_answered hnot hanswered fun _ => .inr (.inr (.inl hthread))

/-- A move sends the first reply only. -/
theorem Moves.unanswered (hmoves : Moves config now request effect) {at' : Nat}
    (hmem : .send at' sent ∈ effect.events) : ¬ Answered request := by
  cases hmoves with
  | replied_late hprocess => exact not_answered hprocess
  | replied_last _ hprocess => exact not_answered hprocess
  | handled _ _ hthread =>
    rw [List.mem_singleton] at hmem
    cases hmem
  | answered hthread =>
    rintro ⟨hidle, -⟩
    cases hidle.symm.trans hthread
  | _ => cases hmem

/-- What a duplicate of the packet of a request in the hash says in the log. -/
theorem Repeats.reports (hrepeats : Repeats request now effect) (hgood : Good config now request)
    (hhash : request.in_request_hash = true) : Reports config now request effect := by
  cases hrepeats with
  | ignored =>
    refine .silent fun request' hleft => ?_
    cases hleft
    exact .refl request
  | left hleaves => exact .silent fun _ hleft => hleaves.quiet hleft
  | resent hprocess hactive hsends =>
    have hidle := hgood.idle hhash (by simp [hprocess])
    have hanswered : Answered request := ⟨hidle, .inl hprocess⟩
    cases hsends with
    | sent data hcode hkept =>
      refine .sent rfl rfl hcode rfl (hgood.replied hidle (.inl hprocess) hcode hhash)
        (.inr (.inr (.inr hcode))) ?_ ?_
      · intro _ hdata
        have hsame := hkept hdata
        rw [← hsame]
      · intro request' hleft
        cases hleft
        exact ⟨hanswered, rfl⟩
    | unsent =>
      refine .silent fun request' hleft => ?_
      cases hleft
      exact ⟨fun _ => ⟨hanswered, rfl⟩, id, id⟩
  | resent_done hprocess hcode hsends =>
    have hidle := hgood.idle hhash (by simp [hprocess])
    cases hsends with
    | sent data _ hkept =>
      refine .sent rfl rfl hcode rfl (hgood.replied hidle (.inr hprocess) hcode hhash)
        (.inr (.inr (.inr hcode))) ?_ ?_
      · intro _ hdata
        have hsame := hkept hdata
        rw [← hsame]
      · intro request' hleft
        cases hleft
        exact ⟨⟨hidle, .inr rfl⟩, rfl⟩
    | unsent =>
      refine .silent fun request' hleft => ?_
      cases hleft
      exact ⟨fun _ => ⟨⟨hidle, .inr rfl⟩, rfl⟩, id, id⟩

end Reports

section Log

variable {config : main_config_t} {tables : Tables} {number : Nat} {f : REQUEST → Effect} {request request' : REQUEST}
  {packet : Datagram} {enqueued : Bool} {encoded : Option (List UInt8)} {action : Action} {event : Event}

/-- The event sends the reply of the request with a number. -/
def Event.sends (number : Nat) : Event → Bool
  | .send _ request => request.number = number
  | _ => false

/-- The event calls the handler of the request with a number. -/
def Event.handles (number : Nat) : Event → Bool
  | .handle _ request => request.number = number
  | _ => false

/-- The event is the arrival of a packet, the first time or again. -/
def Event.copies (packet : Datagram) : Event → Bool
  | .receive _ copy => copy.key = packet.key && copy.repeats packet
  | _ => false

theorem flatMap_unique {requests : List REQUEST} (hnumbers : (requests.map (·.number)).Nodup)
    (hmem : request ∈ requests) :
    (requests.flatMap fun other => if other.number = request.number then (f other).events else []) =
      (f request).events := by
  induction requests with
  | nil => cases hmem
  | cons first requests ih =>
    rw [List.map_cons, List.nodup_cons] at hnumbers
    rw [List.flatMap_cons]
    rw [List.mem_cons] at hmem
    obtain rfl | hmem := hmem
    · have hnone : (requests.flatMap fun other =>
          if other.number = request.number then (f other).events else []) = [] := by
        rw [List.flatMap_eq_nil_iff]
        intro other hother
        refine if_neg fun hnumber => hnumbers.1 ?_
        exact hnumber ▸ List.mem_map_of_mem hother
      rw [hnone, if_pos rfl, List.append_nil]
    · have hother : first.number ≠ request.number := by
        intro hnumber
        exact hnumbers.1 (hnumber ▸ List.mem_map_of_mem hmem)
      rw [if_neg hother, List.nil_append]
      exact ih hnumbers.2 hmem

/-- A request that is touched says what the function on it says. -/
theorem Sound.touch_log (hsound : Sound config tables) (hmem : request ∈ tables.requests) :
    (tables.touch request.number f).log = tables.log ++ (f request).events := by
  rw [Tables.touch, flatMap_unique hsound.numbers hmem]

theorem Tables.touch_none (hnone : ∀ request ∈ tables.requests, request.number ≠ number) :
    tables.touch number f = tables := by
  have hrequests : (tables.requests.filterMap fun request =>
      if request.number = number then (f request).request else some request) = tables.requests := by
    rw [List.filterMap_congr (g := some) fun request hmem => if_neg (hnone request hmem), List.filterMap_some]
  have hlog : (tables.requests.flatMap fun request =>
      if request.number = number then (f request).events else []) = [] := by
    rw [List.flatMap_eq_nil_iff]
    exact fun request hmem => if_neg (hnone request hmem)
  rw [Tables.touch, hrequests, hlog, List.append_nil]

/-- The invariant of the log. -/
structure Logged (config : main_config_t) (tables : Tables) : Prop where
  sent : ∀ now request, .send now request ∈ tables.log →
    request.number < tables.request_num_counter ∧ request.reply.code ≠ 0 ∧ request.reply.data.isSome ∧
      request.reply.timestamp + reject_wait config request ≤ now ∧
      tables.log.countP (Event.sends request.number) ≤ tables.log.countP (Event.copies request.packet) ∧
      tables.log.countP (Event.handles request.number) = 1
  kept : ∀ now request, .send now request ∈ tables.log → ∀ request' ∈ tables.requests,
    request'.number = request.number →
      Answered request' ∧ request'.reply = request.reply ∧ request'.packet = request.packet
  agree : ∀ now request now' request', .send now request ∈ tables.log → .send now' request' ∈ tables.log →
    request'.number = request.number → request'.reply = request.reply ∧ request'.packet = request.packet
  received : ∀ request ∈ tables.requests, 1 ≤ tables.log.countP (Event.copies request.packet)
  waiting : ∀ request ∈ tables.requests, Waiting request →
    tables.log.countP (Event.handles request.number) = 0
  worked : ∀ request ∈ tables.requests, Worked request →
    tables.log.countP (Event.handles request.number) = 1
  once : ∀ number, tables.log.countP (Event.handles number) ≤ 1
  fresh : ∀ number, tables.request_num_counter ≤ number → tables.log.countP (Event.handles number) = 0

/-- A request after a touch is the one touched, or was there before. -/
theorem Sound.mem_touch (hsound : Sound config tables) (hmem : request ∈ tables.requests)
    (hmem' : request' ∈ (tables.touch request.number f).requests) :
    (f request).request = some request' ∨ request' ∈ tables.requests ∧ request'.number ≠ request.number := by
  obtain ⟨old, hold, htouch⟩ := Tables.mem_touch.mp hmem'
  split at htouch
  · rename_i hnumber
    rw [hsound.unique hmem hold hnumber] at htouch
    exact .inl htouch
  · rename_i hnumber
    cases htouch
    exact .inr ⟨hold, hnumber⟩

theorem Event.copies_self (packet : Datagram) (now : Nat) : Event.copies packet (.receive now packet) = true := by
  simp [Event.copies, Datagram.repeats]

section Touch

variable {left : Option REQUEST} {sent : REQUEST} (hsound : Sound config tables) (hlogged : Logged config tables)
  (hmem : request ∈ tables.requests)
  (hsame : ∀ request request', (f request).request = some request' → Same request request')
include hsound hlogged hmem hsame

theorem Logged.touch_silent (heffect : f request = ⟨left, []⟩)
    (hquiet : ∀ request', left = some request' → Quiet request request') :
    Logged config (tables.touch request.number f) := by
  have hlog : (tables.touch request.number f).log = tables.log := by
    rw [hsound.touch_log hmem, heffect, List.append_nil]
  have hfrom : ∀ request' ∈ (tables.touch request.number f).requests,
      ∃ old ∈ tables.requests, Same old request' ∧ Quiet old request' := by
    intro request' hmem'
    obtain htouch | ⟨hold, -⟩ := hsound.mem_touch hmem hmem'
    · have hleft := htouch
      rw [heffect] at hleft
      exact ⟨request, hmem, hsame _ _ htouch, hquiet request' hleft⟩
    · exact ⟨request', hold, .refl _, .refl _⟩
  exact {
    sent := by
      rw [hlog]
      exact hlogged.sent
    kept := by
      rw [hlog]
      intro now sent hsent request' hmem' hnumber
      obtain ⟨old, hold, hsame, hquiet⟩ := hfrom request' hmem'
      obtain ⟨hanswered, hreply, hpacket⟩ := hlogged.kept now sent hsent old hold (hsame.number.symm.trans hnumber)
      obtain ⟨hanswered', hreply'⟩ := hquiet.answered hanswered
      exact ⟨hanswered', hreply'.trans hreply, hsame.packet.trans hpacket⟩
    agree := by
      rw [hlog]
      exact hlogged.agree
    received := by
      rw [hlog]
      intro request' hmem'
      obtain ⟨old, hold, hsame, -⟩ := hfrom request' hmem'
      rw [hsame.packet]
      exact hlogged.received old hold
    waiting := by
      rw [hlog]
      intro request' hmem' hwaiting
      obtain ⟨old, hold, hsame, hquiet⟩ := hfrom request' hmem'
      rw [hsame.number]
      exact hlogged.waiting old hold (hquiet.waiting hwaiting)
    worked := by
      rw [hlog]
      intro request' hmem' hworked
      obtain ⟨old, hold, hsame, hquiet⟩ := hfrom request' hmem'
      rw [hsame.number]
      exact hlogged.worked old hold (hquiet.worked hworked)
    once := by
      rw [hlog]
      exact hlogged.once
    fresh := by
      rw [hlog]
      exact hlogged.fresh }

theorem Logged.touch_handled {handled : REQUEST}
    (heffect : f request = ⟨some handled, [.handle tables.now request]⟩) (hthread : request.thread = .decoded)
    (hhandled : handled.thread = .handled) : Logged config (tables.touch request.number f) := by
  have hlog : (tables.touch request.number f).log = tables.log ++ [.handle tables.now request] := by
    rw [hsound.touch_log hmem, heffect]
  have hsends : ∀ number, (tables.touch request.number f).log.countP (Event.sends number) =
      tables.log.countP (Event.sends number) := by
    intro number
    rw [hlog, List.countP_append]
    rfl
  have hcopies : ∀ packet, (tables.touch request.number f).log.countP (Event.copies packet) =
      tables.log.countP (Event.copies packet) := by
    intro packet
    rw [hlog, List.countP_append]
    rfl
  have hhandles : ∀ number, (tables.touch request.number f).log.countP (Event.handles number) =
      tables.log.countP (Event.handles number) + if request.number = number then 1 else 0 := by
    intro number
    rw [hlog, List.countP_append, List.countP_singleton]
    simp only [Event.handles, decide_eq_true_eq]
  have hother : ∀ number, request.number ≠ number →
      (tables.touch request.number f).log.countP (Event.handles number) =
        tables.log.countP (Event.handles number) := by
    intro number hnumber
    rw [hhandles, if_neg hnumber, Nat.add_zero]
  have hzero : tables.log.countP (Event.handles request.number) = 0 :=
    hlogged.waiting request hmem (.inr (.inr hthread))
  have hunsent : ∀ now sent, .send now sent ∈ tables.log → request.number ≠ sent.number := by
    intro now sent hsent hnumber
    have hidle := (hlogged.kept now sent hsent request hmem hnumber).1.1
    cases hidle.symm.trans hthread
  have hold : ∀ now sent, .send now sent ∈ (tables.touch request.number f).log → .send now sent ∈ tables.log := by
    intro now sent hsent
    rw [hlog, List.mem_append, List.mem_singleton] at hsent
    obtain hsent | hsent := hsent
    · exact hsent
    · cases hsent
  exact {
    sent := by
      intro now sent hsent
      have hsent := hold now sent hsent
      rw [hsends, hcopies, hother _ (hunsent now sent hsent)]
      exact hlogged.sent now sent hsent
    kept := by
      intro now sent hsent request' hmem' hnumber
      have hsent := hold now sent hsent
      obtain htouch | ⟨hrequest', -⟩ := hsound.mem_touch hmem hmem'
      · exact absurd ((hsame _ _ htouch).number.symm.trans hnumber) (hunsent now sent hsent)
      · exact hlogged.kept now sent hsent request' hrequest' hnumber
    agree := fun now sent now' sent' hsent hsent' =>
      hlogged.agree now sent now' sent' (hold now sent hsent) (hold now' sent' hsent')
    received := by
      intro request' hmem'
      rw [hcopies]
      obtain htouch | ⟨hrequest', -⟩ := hsound.mem_touch hmem hmem'
      · rw [(hsame _ _ htouch).packet]
        exact hlogged.received request hmem
      · exact hlogged.received request' hrequest'
    waiting := by
      intro request' hmem' hwaiting
      obtain htouch | ⟨hrequest', hnumber⟩ := hsound.mem_touch hmem hmem'
      · rw [heffect] at htouch
        cases htouch
        rcases hwaiting with hnot | hnot | hnot <;> cases hhandled.symm.trans hnot
      · rw [hother _ hnumber.symm]
        exact hlogged.waiting request' hrequest' hwaiting
    worked := by
      intro request' hmem' hworked
      obtain htouch | ⟨hrequest', hnumber⟩ := hsound.mem_touch hmem hmem'
      · rw [(hsame _ _ htouch).number, hhandles, if_pos rfl, hzero]
      · rw [hother _ hnumber.symm]
        exact hlogged.worked request' hrequest' hworked
    once := by
      intro number
      by_cases hnumber : request.number = number
      · refine Nat.le_of_eq ?_
        rw [← hnumber, hhandles, if_pos rfl, hzero]
      · rw [hother _ hnumber]
        exact hlogged.once number
    fresh := by
      intro number hnumber
      have hcounted := hsound.counted request hmem
      rw [hother _ (Nat.ne_of_lt (Nat.lt_of_lt_of_le hcounted hnumber))]
      exact hlogged.fresh number hnumber }

theorem Logged.touch_sent (heffect : f request = ⟨left, [.send tables.now sent]⟩)
    (hnumber : sent.number = request.number) (hpacket : sent.packet = request.packet)
    (hcode : sent.reply.code ≠ 0) (hdata : sent.reply.data.isSome)
    (hwaited : sent.reply.timestamp + reject_wait config sent ≤ tables.now) (hworked : Worked request)
    (hkept : Answered request → request.reply.data.isSome → sent.reply = request.reply)
    (hleft : ∀ request', left = some request' → Answered request' ∧ request'.reply = sent.reply)
    (hslack : tables.log.countP (Event.sends request.number) < tables.log.countP (Event.copies request.packet)) :
    Logged config (tables.touch request.number f) := by
  have hlog : (tables.touch request.number f).log = tables.log ++ [.send tables.now sent] := by
    rw [hsound.touch_log hmem, heffect]
  have hsends : ∀ number, (tables.touch request.number f).log.countP (Event.sends number) =
      tables.log.countP (Event.sends number) + if request.number = number then 1 else 0 := by
    intro number
    rw [hlog, List.countP_append, List.countP_singleton]
    simp only [Event.sends, hnumber, decide_eq_true_eq]
  have hcopies : ∀ packet, (tables.touch request.number f).log.countP (Event.copies packet) =
      tables.log.countP (Event.copies packet) := by
    intro packet
    rw [hlog, List.countP_append]
    rfl
  have hhandles : ∀ number, (tables.touch request.number f).log.countP (Event.handles number) =
      tables.log.countP (Event.handles number) := by
    intro number
    rw [hlog, List.countP_append]
    rfl
  have hcases : ∀ now reply, .send now reply ∈ (tables.touch request.number f).log →
      .send now reply ∈ tables.log ∨ now = tables.now ∧ reply = sent := by
    intro now reply hreply
    rw [hlog, List.mem_append, List.mem_singleton] at hreply
    obtain hreply | hreply := hreply
    · exact .inl hreply
    · cases hreply
      exact .inr ⟨rfl, rfl⟩
  -- An earlier reply under this number is the one that is sent now.
  have hagree : ∀ now reply, .send now reply ∈ tables.log → reply.number = request.number →
      sent.reply = reply.reply ∧ request.packet = reply.packet := by
    intro now reply hreply hsame
    obtain ⟨hanswered, hequal, hpackets⟩ := hlogged.kept now reply hreply request hmem hsame.symm
    have hsome := (hlogged.sent now reply hreply).2.2.1
    rw [← hequal] at hsome
    exact ⟨(hkept hanswered hsome).trans hequal, hpackets⟩
  exact {
    sent := by
      intro now reply hreply
      obtain hreply | ⟨rfl, rfl⟩ := hcases now reply hreply
      · obtain ⟨hcounted, hcode, hdata, hwaited, hbound, hhandled⟩ := hlogged.sent now reply hreply
        refine ⟨hcounted, hcode, hdata, hwaited, ?_, by rw [hhandles, hhandled]⟩
        rw [hsends, hcopies]
        by_cases hsame : request.number = reply.number
        · rw [if_pos hsame, ← hsame, ← (hagree now reply hreply hsame.symm).2]
          exact hslack
        · rw [if_neg hsame]
          exact hbound
      · refine ⟨?_, hcode, hdata, hwaited, ?_, ?_⟩
        · exact hnumber ▸ hsound.counted request hmem
        · rw [hsends, hcopies, hnumber, hpacket, if_pos rfl]
          exact hslack
        · rw [hhandles, hnumber]
          exact hlogged.worked request hmem hworked
    kept := by
      intro now reply hreply request' hmem' hsame'
      obtain htouch | ⟨hrequest', hother⟩ := hsound.mem_touch hmem hmem'
      · have hsame := hsame _ _ htouch
        rw [heffect] at htouch
        obtain ⟨hanswered, hequal⟩ := hleft request' htouch
        obtain hreply | ⟨rfl, rfl⟩ := hcases now reply hreply
        · obtain ⟨hreplies, hpackets⟩ := hagree now reply hreply (hsame'.symm.trans hsame.number)
          exact ⟨hanswered, hequal.trans hreplies, hsame.packet.trans hpackets⟩
        · exact ⟨hanswered, hequal, hsame.packet.trans hpacket.symm⟩
      · obtain hreply | ⟨rfl, rfl⟩ := hcases now reply hreply
        · exact hlogged.kept now reply hreply request' hrequest' hsame'
        · exact absurd (hsame'.trans hnumber) hother
    agree := by
      intro now reply now' reply' hreply hreply' hsame'
      obtain hreply | ⟨rfl, rfl⟩ := hcases now reply hreply
      · obtain hreply' | ⟨rfl, rfl⟩ := hcases now' reply' hreply'
        · exact hlogged.agree now reply now' reply' hreply hreply' hsame'
        · obtain ⟨hreplies, hpackets⟩ := hagree now reply hreply (hsame'.symm.trans hnumber)
          exact ⟨hreplies, hpacket.trans hpackets⟩
      · obtain hreply' | ⟨rfl, rfl⟩ := hcases now' reply' hreply'
        · obtain ⟨hreplies, hpackets⟩ := hagree now' reply' hreply' (hsame'.trans hnumber)
          exact ⟨hreplies.symm, hpackets.symm.trans hpacket.symm⟩
        · exact ⟨rfl, rfl⟩
    received := by
      intro request' hmem'
      rw [hcopies]
      obtain htouch | ⟨hrequest', -⟩ := hsound.mem_touch hmem hmem'
      · rw [(hsame _ _ htouch).packet]
        exact hlogged.received request hmem
      · exact hlogged.received request' hrequest'
    waiting := by
      intro request' hmem' hwaiting
      rw [hhandles]
      obtain htouch | ⟨hrequest', -⟩ := hsound.mem_touch hmem hmem'
      · rw [heffect] at htouch
        exact absurd hwaiting (not_waiting (hleft request' htouch).1.1)
      · exact hlogged.waiting request' hrequest' hwaiting
    worked := by
      intro request' hmem' hworked'
      rw [hhandles]
      obtain htouch | ⟨hrequest', -⟩ := hsound.mem_touch hmem hmem'
      · rw [(hsame _ _ htouch).number]
        exact hlogged.worked request hmem hworked
      · exact hlogged.worked request' hrequest' hworked'
    once := by
      intro number
      rw [hhandles]
      exact hlogged.once number
    fresh := by
      intro number hnumber
      rw [hhandles]
      exact hlogged.fresh number hnumber }

theorem Logged.touch (hreports : Reports config tables.now request (f request))
    (hslack : ∀ now sent, .send now sent ∈ (f request).events →
      tables.log.countP (Event.sends request.number) < tables.log.countP (Event.copies request.packet)) :
    Logged config (tables.touch request.number f) := by
  generalize heffect : f request = effect at hreports hslack
  cases hreports with
  | silent hquiet => exact hlogged.touch_silent hsound hmem hsame heffect hquiet
  | handled hthread hhandled => exact hlogged.touch_handled hsound hmem hsame heffect hthread hhandled
  | sent hnumber hpacket hcode hdata hwaited hworked hkept hleft =>
    exact hlogged.touch_sent hsound hmem hsame heffect hnumber hpacket hcode hdata hwaited hworked hkept hleft
      (hslack _ _ (List.mem_singleton_self _))

end Touch

/-- A request that has no reply out has none in the log. -/
theorem Logged.none_sent (hlogged : Logged config tables) (hmem : request ∈ tables.requests)
    (hnot : ¬ Answered request) : tables.log.countP (Event.sends request.number) = 0 := by
  rw [List.countP_eq_zero]
  intro event hevent
  cases event with
  | send now sent =>
    rw [Event.sends, decide_eq_true_eq]
    intro hnumber
    exact hnot (hlogged.kept now sent hevent request hmem hnumber.symm).1
  | _ => exact Bool.false_ne_true

/-- The replies under the number of a request answer as many copies of its packet. -/
theorem Logged.sends_le (hlogged : Logged config tables) (hmem : request ∈ tables.requests) :
    tables.log.countP (Event.sends request.number) ≤ tables.log.countP (Event.copies request.packet) := by
  by_cases hnone : tables.log.countP (Event.sends request.number) = 0
  · rw [hnone]
    exact Nat.zero_le _
  · obtain ⟨event, hevent, hsends⟩ := List.countP_pos_iff.mp (Nat.pos_of_ne_zero hnone)
    cases event with
    | send now sent =>
      rw [Event.sends, decide_eq_true_eq] at hsends
      obtain ⟨-, -, hpacket⟩ := hlogged.kept now sent hevent request hmem hsends.symm
      rw [hpacket, ← hsends]
      exact (hlogged.sent now sent hevent).2.2.2.2.1
    | receive => cases hsends
    | accept => cases hsends
    | handle => cases hsends

theorem Logged.hear (hlogged : Logged config tables) : Logged config (tables.hear packet) := by
  have hsends : ∀ number, (tables.hear packet).log.countP (Event.sends number) =
      tables.log.countP (Event.sends number) := by
    intro number
    rw [Tables.hear, List.countP_append]
    rfl
  have hhandles : ∀ number, (tables.hear packet).log.countP (Event.handles number) =
      tables.log.countP (Event.handles number) := by
    intro number
    rw [Tables.hear, List.countP_append]
    rfl
  have hcopies : ∀ copied, tables.log.countP (Event.copies copied) ≤
      (tables.hear packet).log.countP (Event.copies copied) := by
    intro copied
    rw [Tables.hear, List.countP_append]
    exact Nat.le_add_right _ _
  have hold : ∀ now sent, .send now sent ∈ (tables.hear packet).log → .send now sent ∈ tables.log := by
    intro now sent hsent
    rw [Tables.hear, List.mem_append, List.mem_singleton] at hsent
    obtain hsent | hsent := hsent
    · exact hsent
    · cases hsent
  exact {
    sent := by
      intro now sent hsent
      obtain ⟨hcounted, hcode, hdata, hwaited, hbound, hhandled⟩ := hlogged.sent now sent (hold now sent hsent)
      refine ⟨hcounted, hcode, hdata, hwaited, ?_, by rw [hhandles, hhandled]⟩
      rw [hsends]
      exact Nat.le_trans hbound (hcopies _)
    kept := fun now sent hsent => hlogged.kept now sent (hold now sent hsent)
    agree := fun now sent now' sent' hsent hsent' =>
      hlogged.agree now sent now' sent' (hold now sent hsent) (hold now' sent' hsent')
    received := fun request hmem => Nat.le_trans (hlogged.received request hmem) (hcopies _)
    waiting := fun request hmem hwaiting => (hhandles _).trans (hlogged.waiting request hmem hwaiting)
    worked := fun request hmem hworked => (hhandles _).trans (hlogged.worked request hmem hworked)
    once := fun number => hhandles number ▸ hlogged.once number
    fresh := fun number hnumber => (hhandles number).trans (hlogged.fresh number hnumber) }

theorem heard (tables : Tables) (packet : Datagram) :
    1 ≤ (tables.hear packet).log.countP (Event.copies packet) := by
  simp only [Tables.hear, List.countP_append, List.countP_singleton, Event.copies_self]
  exact Nat.le_add_left _ _

theorem not_worked (hthread : request.thread = .queued ∨ request.thread = .idle) (hcode : request.reply.code = 0) :
    ¬ Worked request := by
  rintro (hnot | hnot | hnot | hnot)
  · obtain hthread | hthread := hthread <;> cases hthread.symm.trans hnot
  · obtain hthread | hthread := hthread <;> cases hthread.symm.trans hnot
  · obtain hthread | hthread := hthread <;> cases hthread.symm.trans hnot
  · exact hnot hcode

theorem Logged.insert (hlogged : Logged config tables)
    (hheard : 1 ≤ tables.log.countP (Event.copies packet)) :
    Logged config (request_insert config packet enqueued encoded tables) := by
  unfold request_insert
  split
  · exact hlogged
  obtain ⟨queued, hqueued, hnumber, hpacket, -, hreply, hthread, -⟩ :=
    @request_queue_or_run_cases config enqueued encoded tables.request_num_counter tables.now packet
  dsimp only
  rw [hqueued]
  generalize ({ request_setup tables.request_num_counter tables.now packet with in_request_hash := true } :
    REQUEST) = accepted
  have hsends : ∀ number, (tables.log ++ [Event.accept tables.now accepted]).countP (Event.sends number) =
      tables.log.countP (Event.sends number) := by
    intro number
    rw [List.countP_append]
    rfl
  have hhandles : ∀ number, (tables.log ++ [Event.accept tables.now accepted]).countP (Event.handles number) =
      tables.log.countP (Event.handles number) := by
    intro number
    rw [List.countP_append]
    rfl
  have hcopies : ∀ copied, (tables.log ++ [Event.accept tables.now accepted]).countP (Event.copies copied) =
      tables.log.countP (Event.copies copied) := by
    intro copied
    rw [List.countP_append]
    rfl
  have hold : ∀ now sent, .send now sent ∈ tables.log ++ [Event.accept tables.now accepted] →
      .send now sent ∈ tables.log := by
    intro now sent hsent
    rw [List.mem_append, List.mem_singleton] at hsent
    obtain hsent | hsent := hsent
    · exact hsent
    · cases hsent
  have hcases : ∀ request ∈ tables.requests ++ (some queued).toList,
      request ∈ tables.requests ∨ request = queued := by
    intro request hmem
    rw [Option.toList_some, List.mem_append, List.mem_singleton] at hmem
    exact hmem
  have hfresh := hlogged.fresh tables.request_num_counter (Nat.le_refl _)
  exact {
    sent := by
      intro now sent hsent
      obtain ⟨hcounted, hrest⟩ := hlogged.sent now sent (hold now sent hsent)
      rw [hsends, hcopies, hhandles]
      exact ⟨Nat.lt_succ_of_lt hcounted, hrest⟩
    kept := by
      intro now sent hsent request hmem hsame
      obtain hmem | rfl := hcases request hmem
      · exact hlogged.kept now sent (hold now sent hsent) request hmem hsame
      · have hcounted := (hlogged.sent now sent (hold now sent hsent)).1
        rw [← hsame, hnumber] at hcounted
        exact absurd hcounted (Nat.lt_irrefl _)
    agree := fun now sent now' sent' hsent hsent' =>
      hlogged.agree now sent now' sent' (hold now sent hsent) (hold now' sent' hsent')
    received := by
      intro request hmem
      rw [hcopies]
      obtain hmem | rfl := hcases request hmem
      · exact hlogged.received request hmem
      · exact hpacket ▸ hheard
    waiting := by
      intro request hmem hwaiting
      rw [hhandles]
      obtain hmem | rfl := hcases request hmem
      · exact hlogged.waiting request hmem hwaiting
      · exact hnumber ▸ hfresh
    worked := by
      intro request hmem hworked
      rw [hhandles]
      obtain hmem | rfl := hcases request hmem
      · exact hlogged.worked request hmem hworked
      · exact absurd hworked (not_worked (hthread.imp And.left And.left) (by rw [hreply]))
    once := fun number => (hhandles number).symm ▸ hlogged.once number
    fresh := fun number hcounter => (hhandles number).trans (hlogged.fresh number (Nat.le_of_succ_le hcounter)) }

/-- Every step keeps the invariant of the log. -/
theorem Logged.next {after : Tables} (hlogged : Logged config tables) (hsound : Sound config tables)
    (hnext : Next config tables action after) : Logged config after := by
  cases hnext with
  | ticked => exact ⟨hlogged.sent, hlogged.kept, hlogged.agree, hlogged.received, hlogged.waiting, hlogged.worked,
      hlogged.once, hlogged.fresh⟩
  | @moved _ f number hmoves =>
    by_cases hnone : ∀ request ∈ tables.requests, request.number ≠ number
    · rw [Tables.touch_none hnone]
      exact hlogged
    simp only [not_forall, not_not] at hnone
    obtain ⟨request, hmem, rfl⟩ := hnone
    refine hlogged.touch hsound hmem (fun old _ => (hmoves old).same)
      ((hmoves request).reports (hsound.good request hmem)) ?_
    intro now sent hsent
    rw [hlogged.none_sent hmem ((hmoves request).unanswered hsent)]
    exact hlogged.received request hmem
  | @repeated packet _ _ f request hmem hhash hkey hrepeats hmoves =>
    refine hlogged.hear.touch hsound.hear hmem (fun old _ => (hmoves old).same)
      ((hmoves request).reports (hsound.good request hmem) hhash) ?_
    intro _ _ _
    -- The copy that has just arrived is one more than were answered before.
    have hcopy : Event.copies request.packet (.receive tables.now packet) = true := by
      simp only [Event.copies, hkey, hrepeats, decide_true, Bool.and_self]
    have hbound := hlogged.sends_le hmem
    simp only [Tables.hear, List.countP_append, List.countP_singleton, hcopy]
    exact Nat.lt_succ_of_le hbound
  | accepted => exact hlogged.hear.insert (heard tables _)
  | @superseded packet _ _ f request hmem hhash hkey hother hleaves =>
    obtain ⟨left, hleft, heffect⟩ := hleaves request
    have hsame : ∀ old new, (f old).request = some new → Same old new :=
      fun old new htouch => (Leaves.same_of hleaves htouch).same rfl
    have hheard : Sound config (tables.hear packet) := hsound.hear
    have htouched := hlogged.hear.touch_silent hheard hmem hsame heffect fun _ => hleft.quiet
    refine htouched.insert ?_
    rw [hsound.hear.touch_log hmem, heffect, List.append_nil]
    exact heard tables packet

/-- The log of every state that the process reaches. -/
theorem Logged.run {history : transition.History Tables Action}
    (hrun : transition.Run (Tables.step config) (fun _ _ _ => True) {} history tables) : Logged config tables := by
  have hboth := hrun.invariant (fun _ tables => Sound config tables ∧ Logged config tables) ?_ ?_
  · exact hboth.2
  · refine ⟨Sound.run .nil, ?_⟩
    exact {
      sent := fun _ _ hmem => absurd hmem List.not_mem_nil
      kept := fun _ _ hmem => absurd hmem List.not_mem_nil
      agree := fun _ _ _ _ hmem => absurd hmem List.not_mem_nil
      received := fun _ hmem => absurd hmem List.not_mem_nil
      waiting := fun _ hmem => absurd hmem List.not_mem_nil
      worked := fun _ hmem => absurd hmem List.not_mem_nil
      once := fun _ => Nat.zero_le _
      fresh := fun _ _ => rfl }
  · intro _ tables action hinv _
    have hnext := @Tables.step_next config tables action
    exact ⟨hinv.1.next hnext, hinv.2.next hinv.1 hnext⟩

variable {history : transition.History Tables Action} {now now' : Nat}

/-- All replies to one request are the same, octet for octet, and each of them answers a
    copy of its packet that has arrived. The handler has run once for all of them, in
    whatever order the threads, the timers and the packets come. -/
theorem replies_repeated
    (hrun : transition.Run (Tables.step config) (fun _ _ _ => True) {} history tables)
    (hsent : .send now request ∈ tables.log) (hsent' : .send now' request' ∈ tables.log)
    (hnumber : request'.number = request.number) :
    request'.reply = request.reply ∧ request'.packet = request.packet ∧
      tables.log.countP (Event.sends request.number) ≤ tables.log.countP (Event.copies request.packet) ∧
      tables.log.countP (Event.handles request.number) = 1 := by
  have hlogged := Logged.run hrun
  obtain ⟨hreply, hpacket⟩ := hlogged.agree now request now' request' hsent hsent' hnumber
  obtain ⟨-, -, -, -, hbound, hhandled⟩ := hlogged.sent now request hsent
  exact ⟨hreply, hpacket, hbound, hhandled⟩

/-- What is sent when the timer of the wrong login runs out. -/
def wrong_login_reply : REQUEST where
  number := 0
  packet := wrong_login
  timestamp := 0
  reply := { code := 3, data := some [3, 7] }
  child_state := .REQUEST_RESPONSE_DELAY
  process := .request_response_delay
  in_request_hash := true
  delay := 999999
  response_delay := USEC

/-- And when it arrives again. -/
def wrong_login_repeat : REQUEST :=
  { wrong_login_reply with
    child_state := .REQUEST_CLEANUP_DELAY
    process := .request_cleanup_delay
    delay := 5
    ev := some (5 * USEC) }

theorem wrong_login_repeated :
    wrong_login_repeat.reply = wrong_login_reply.reply ∧ wrong_login_repeat.packet = wrong_login_reply.packet ∧
      wrong_login_run.2.log.countP (Event.sends 0) ≤ wrong_login_run.2.log.countP (Event.copies wrong_login) ∧
      wrong_login_run.2.log.countP (Event.handles 0) = 1 :=
  @replies_repeated raddb_config wrong_login_run.2 wrong_login_reply wrong_login_repeat wrong_login_run.1 USEC USEC
    (transition.Run.replay wrong_login_actions fun _ _ => trivial) (by decide) (by decide) rfl

/-- No thread and no duplicate gets a reject out before its delay is over: the delay of
    the configuration, or the one that the reply asks for, of ten seconds at most. -/
theorem rejects_delayed
    (hrun : transition.Run (Tables.step config) (fun _ _ _ => True) {} history tables)
    (hsent : .send now request ∈ tables.log) (hpacket : request.packet.code = PW_CODE_ACCESS_REQUEST)
    (hcode : request.reply.code = PW_CODE_ACCESS_REJECT.toNat) (hdelay : USEC ≤ config.reject_delay) :
    (request.reply.FreeRADIUS_Response_Delay = none → request.reply.FreeRADIUS_Response_Delay_USec = none →
      request.reply.timestamp + config.reject_delay ≤ now) ∧
    (∀ delay, request.reply.FreeRADIUS_Response_Delay = some delay →
      request.reply.timestamp + min delay 10 * USEC ≤ now) ∧
    ∀ delay, request.reply.FreeRADIUS_Response_Delay = none →
      request.reply.FreeRADIUS_Response_Delay_USec = some delay →
      request.reply.timestamp + min delay (10 * USEC) ≤ now := by
  have hwaited := ((Logged.run hrun).sent now request hsent).2.2.2.1
  rw [reject_wait, if_pos ⟨hpacket, hcode, hdelay⟩] at hwaited
  refine ⟨?_, ?_, ?_⟩
  · intro hnone hnone'
    rw [hnone, hnone'] at hwaited
    exact hwaited
  · intro delay hsome
    simp only [hsome] at hwaited
    split at hwaited
    · rename_i hle
      rw [Nat.min_eq_left hle]
      exact hwaited
    · rename_i hlt
      rw [Nat.min_eq_right (Nat.le_of_lt (Nat.not_le.mp hlt))]
      exact hwaited
  · intro delay hnone hsome
    simp only [hnone, hsome] at hwaited
    split at hwaited
    · rename_i hle
      rw [Nat.min_eq_left hle]
      exact hwaited
    · rename_i hlt
      rw [Nat.min_eq_right (Nat.le_of_lt (Nat.not_le.mp hlt))]
      exact hwaited

theorem wrong_login_delayed :
    PW_CODE_ACCESS_REJECT.toNat = 3 ∧ USEC ≤ raddb_config.reject_delay ∧
      wrong_login_repeat.reply.timestamp + raddb_config.reject_delay ≤ USEC := by
  have hdelayed := @rejects_delayed raddb_config wrong_login_run.2 wrong_login_repeat wrong_login_run.1 USEC
    (transition.Run.replay wrong_login_actions fun _ _ => trivial) (by decide) rfl rfl (Nat.le_refl _)
  exact ⟨rfl, Nat.le_refl _, hdelayed.1 rfl rfl⟩

end Log

end freeradius.processing
