import AaaServer.Bridge.Soap

open sql xml

namespace aaa_server

/-- The functions of the handlers table. -/
inductive BossMethod where
  | IsExist
  | ForceOffline
  | CheckPassword
  | SearchCustomerStatus
  | Register
  | IpoeRegister
  | EraseCustomer
  | IpoeEraseCustomer
  | ChangeUserInfo
  | ChangeUserPassword
  | EnableAccount
  deriving DecidableEq

/-- The handlers table: its own keys. -/
def handlers : List (Text × BossMethod) := [
  ("IsExist".toList, .IsExist),
  ("ForceOffline".toList, .ForceOffline),
  ("CheckPassword".toList, .CheckPassword),
  ("SearchCustomerStatus".toList, .SearchCustomerStatus),
  ("Register".toList, .Register),
  ("IpoeRegister".toList, .IpoeRegister),
  ("EraseCustomer".toList, .EraseCustomer),
  ("IpoeEraseCustomer".toList, .IpoeEraseCustomer),
  ("ChangeUserInfo".toList, .ChangeUserInfo),
  ("ChangeUserPassword".toList, .ChangeUserPassword),
  ("EnableAccount".toList, .EnableAccount)]

/-- The functions that every object inherits. -/
inductive Inherited where
  | constructor
  | toString
  | toLocaleString
  | valueOf
  | hasOwnProperty
  | isPrototypeOf
  | propertyIsEnumerable
  | defineGetter
  | defineSetter
  | lookupGetter
  | lookupSetter
  deriving DecidableEq

/-- The keys of `Object.prototype` that stand for functions. -/
def object_prototype : List (Text × Inherited) := [
  ("constructor".toList, .constructor),
  ("toString".toList, .toString),
  ("toLocaleString".toList, .toLocaleString),
  ("valueOf".toList, .valueOf),
  ("hasOwnProperty".toList, .hasOwnProperty),
  ("isPrototypeOf".toList, .isPrototypeOf),
  ("propertyIsEnumerable".toList, .propertyIsEnumerable),
  ("__defineGetter__".toList, .defineGetter),
  ("__defineSetter__".toList, .defineSetter),
  ("__lookupGetter__".toList, .lookupGetter),
  ("__lookupSetter__".toList, .lookupSetter)]

/-- A value of `handlers[method]` that is not `undefined`: a function, or the
    prototype itself. -/
inductive Handler where
  | own (method : BossMethod)
  | inherited (function : Inherited)
  | prototype
  deriving DecidableEq

/-- `handlers[method]`. -/
def handler_of (method : Text) : Option Handler :=
  ((handlers.lookup method).map .own).or
    (((object_prototype.lookup method).map .inherited).or
      (if method = "__proto__".toList then some .prototype else none))

/-- The value of a return code. -/
def BOSS.value : BOSS → Int
  | .SUCCESS => 0
  | .OFFLINE => 1
  | .ONLINE => 3
  | .ACCOUNT_NOT_EXIST => -2
  | .ACCOUNT_EXISTS => -6
  | .UNKNOWN => -9
  | .PARAM_EMPTY => -13
  | .PARAM_INVALID => -16
  | .FORCE_OFFLINE_FAIL => -17
  | .PASSWORD_ERROR => -18

/-- `String(returnCode)` of a return code. -/
def BOSS.text (code : BOSS) : Text := (toString code.value).toList

/-- What an inherited function returns for the parameters, without an object that it
    is called on. `Object` returns the parameters themselves, and most throw. -/
def Inherited.call (params : List (Text × Text)) : Inherited → Option JsValue
  | .constructor => some (.object (params.map fun (key, value) => (key, .string value)))
  | .toString => some (.string "[object Undefined]".toList)
  | _ => none

/-- What the server sends: a document with its status, the error page of the
    framework, or nothing after an exception that nobody catches. -/
inductive Sent where
  | xml (status : Nat) (document : Text)
  | error_page (status : Nat)
  | nothing

def buildSoapResponse (methodName code : Text) : Text :=
  "<?xml version=\"1.0\" encoding=\"UTF-8\"?>\n<soap:Envelope xmlns:soap=\"".toList ++ SOAP_NS ++
    "\">\n  <soap:Body>\n    <".toList ++ methodName ++ "Response xmlns=\"".toList ++ BOSS_NS ++
    "\">\n      <".toList ++
    methodName ++ "Result>".toList ++ escapeXml code ++ "</".toList ++ methodName ++ "Result>\n    </".toList ++
    methodName ++ "Response>\n  </soap:Body>\n</soap:Envelope>".toList

def buildSoapFault (message : Text) : Text :=
  "<?xml version=\"1.0\" encoding=\"UTF-8\"?>\n<soap:Envelope xmlns:soap=\"".toList ++ SOAP_NS ++
    "\">\n  <soap:Body>\n    <soap:Fault>\n      <faultcode>Client</faultcode>\n      <faultstring>".toList ++
    escapeXml message ++ "</faultstring>\n    </soap:Fault>\n  </soap:Body>\n</soap:Envelope>".toList

def fault (message : Text) : Sent := .xml 400 (buildSoapFault message)

/-- Why the content encoding of a body cannot be undone: it is not one that is known,
    or the content is not what it says. -/
inductive EncodingError where
  | unsupported
  | corrupt

/-- The body of a request: its media type, and its bytes, unless the content encoding
    cannot be undone. -/
structure HttpBody where
  media_type : Text
  bytes : Except EncodingError (List UInt8)

/-- `limit: '1mb'`. -/
def limit : Nat := 1048576

/-- What `express.raw` makes of a body: an error with its status, no buffer, or the
    buffer. -/
def express_raw (body : HttpBody) : Except Nat (Option (List UInt8)) :=
  if body.media_type ∉ ["text/xml".toList, "application/xml".toList, "application/soap+xml".toList] then .ok none
  else match body.bytes with
    | .error .unsupported => .error 415
    | .error .corrupt => .error 400
    | .ok bytes => if limit < bytes.length then .error 413 else .ok (some bytes)

section Dispatch

-- The parser, the decoder of buffers, and what the handlers come to, unless they throw.
variable (parser : XMLParser) (utf8 : List UInt8 → Text) (run : BossMethod → List (Text × Text) → Option BOSS)

/-- `handler(params)`, unless it throws. -/
def Handler.call (params : List (Text × Text)) : Handler → Option JsValue
  | .own method => (run method params).map fun code => .number code.text
  | .inherited function => function.call params
  | .prototype => none

/-- The answer with what the handler has returned. `String` is outside of the `try`. -/
def respond (method : Text) (returnCode : JsValue) : Sent :=
  if returnCode.printable then .xml 200 (buildSoapResponse method returnCode.js_string) else .nothing

/-- The end point, on both of its paths: the function that it invokes, and what it
    answers. -/
def soap_endpoint (body : HttpBody) : Option (Text × Handler) × Sent :=
  match express_raw body with
  | .error status => (none, .error_page status)
  | .ok none => (none, fault "Missing or invalid SOAP body".toList)
  | .ok (some bytes) =>
    if utf8 bytes = [] then (none, fault "Missing or invalid SOAP body".toList)
    else match parseSoapRequest parser (utf8 bytes) with
      | .error message => (none, fault ("Invalid SOAP: ".toList ++ message))
      | .ok (method, params) => match handler_of method with
        | none => (none, fault ("Unknown method: ".toList ++ method))
        | some handler =>
          let invoked := if handler = .prototype then none else some (method, handler)
          match handler.call run params with
          | some returnCode => (invoked, respond method returnCode)
          | none => (invoked, respond method (.number BOSS.UNKNOWN.text))

end Dispatch

/-- A closed dispatch: the answer is a fault or a return code, and a function is invoked
    under a key of the handlers table only. -/
structure Closed (result : Option (Text × Handler) × Sent) : Prop where
  answer : (∃ message, result.2 = fault message) ∨
    ∃ (method : Text) (code : BOSS), result.2 = .xml 200 (buildSoapResponse method code.text)
  invoked : ∀ method function, result.1 = some (method, function) → method ∈ handlers.map Prod.fst

/-- A body that is dispatched as it should be: its type is another one, or its content
    can be decoded and is not too long; and when it names a method, the name is not that
    of an inherited function. -/
structure Dispatchable (parser : XMLParser) (utf8 : List UInt8 → Text) (body : HttpBody) : Prop where
  readable : body.media_type ∉ ["text/xml".toList, "application/xml".toList, "application/soap+xml".toList] ∨
    ∃ bytes, body.bytes = .ok bytes ∧ bytes.length ≤ limit
  own : ∀ bytes method params, express_raw body = .ok (some bytes) → utf8 bytes ≠ [] →
    parseSoapRequest parser (utf8 bytes) = .ok (method, params) → method ∉ object_prototype.map Prod.fst

variable {parser : XMLParser} {utf8 : List UInt8 → Text} {run : BossMethod → List (Text × Text) → Option BOSS}
  {body : HttpBody} {method message : Text}

theorem closed_fault (message : Text) : Closed (none, fault message) :=
  ⟨.inl ⟨message, rfl⟩, fun _ _ hinvoked => by cases hinvoked⟩

/-- A return code is sent as it is. -/
theorem closed_respond (invoked : Option (Text × Handler)) (code : BOSS)
    (hinvoked : ∀ name function, invoked = some (name, function) → name ∈ handlers.map Prod.fst) :
    Closed (invoked, respond method (.number code.text)) :=
  ⟨.inr ⟨method, code, rfl⟩, hinvoked⟩

theorem mem_of_lookup {Value : Type} {table : List (Text × Value)} {value : Value}
    (hlookup : table.lookup method = some value) : method ∈ table.map Prod.fst := by
  induction table with
  | nil => cases hlookup
  | cons entry table ih =>
    obtain ⟨key, other⟩ := entry
    rw [List.lookup_cons] at hlookup
    by_cases hkey : method = key
    · rw [hkey]
      exact List.mem_cons_self
    · rw [beq_false_of_ne hkey] at hlookup
      exact List.mem_cons_of_mem _ (ih hlookup)

theorem lookup_of_mem {Value : Type} {table : List (Text × Value)} (hmem : method ∈ table.map Prod.fst) :
    ∃ value, table.lookup method = some value := by
  induction table with
  | nil => cases hmem
  | cons entry table ih =>
    obtain ⟨key, value⟩ := entry
    rw [List.lookup_cons]
    by_cases hkey : method = key
    · rw [hkey, BEq.rfl]
      exact ⟨value, rfl⟩
    · rw [beq_false_of_ne hkey]
      exact ih ((List.mem_cons.mp hmem).resolve_left hkey)

/-- No key of the handlers table is one of the prototype. -/
theorem handlers_own : ∀ key ∈ object_prototype.map Prod.fst, key ∉ handlers.map Prod.fst := by
  decide

theorem express_raw_ok_iff : (∃ raw, express_raw body = .ok raw) ↔
    body.media_type ∉ ["text/xml".toList, "application/xml".toList, "application/soap+xml".toList] ∨
      ∃ bytes, body.bytes = .ok bytes ∧ bytes.length ≤ limit := by
  unfold express_raw
  by_cases htype : body.media_type ∉ ["text/xml".toList, "application/xml".toList, "application/soap+xml".toList]
  · rw [if_pos htype]
    exact iff_of_true ⟨none, rfl⟩ (.inl htype)
  · rw [if_neg htype]
    cases body.bytes with
    | error error =>
      refine iff_of_false (fun ⟨raw, hraw⟩ => by cases error <;> cases hraw) ?_
      rintro (hother | ⟨bytes, hbytes, _⟩)
      · exact htype hother
      · cases hbytes
    | ok bytes =>
      simp only [Except.ok.injEq, exists_eq_left', htype, false_or]
      split
      · next hlong => exact iff_of_false (fun ⟨raw, hraw⟩ => by cases hraw) (Nat.not_le.mpr hlong)
      · next hshort => exact iff_of_true ⟨some bytes, rfl⟩ (Nat.not_lt.mp hshort)

/-- An inherited function is what is found under its name. -/
theorem handler_of_inherited (hmethod : method ∈ object_prototype.map Prod.fst) :
    ∃ function, handler_of method = some (.inherited function) := by
  obtain ⟨function, hfunction⟩ := lookup_of_mem hmethod
  have hown : handlers.lookup method = none := by
    cases hlookup : handlers.lookup method with
    | none => rfl
    | some own => exact absurd (mem_of_lookup hlookup) (handlers_own method hmethod)
  rw [handler_of, hown, hfunction]
  exact ⟨function, rfl⟩

/-- Under any other name there is a function of the table, the prototype or nothing. -/
theorem handler_of_cases (hmethod : method ∉ object_prototype.map Prod.fst) :
    (∃ own, handler_of method = some (.own own) ∧ method ∈ handlers.map Prod.fst) ∨
      handler_of method = some .prototype ∨ handler_of method = none := by
  have hinherited : object_prototype.lookup method = none := by
    cases hlookup : object_prototype.lookup method with
    | none => rfl
    | some function => exact absurd (mem_of_lookup hlookup) hmethod
  rw [handler_of, hinherited]
  cases hlookup : handlers.lookup method with
  | some own => exact .inl ⟨own, rfl, mem_of_lookup hlookup⟩
  | none =>
    by_cases hproto : method = "__proto__".toList
    · rw [if_pos hproto]
      exact .inr (.inl rfl)
    · rw [if_neg hproto]
      exact .inr (.inr rfl)

/-- A request under the name of an inherited function invokes it. -/
theorem not_closed_of_inherited {bytes : List UInt8} {params : List (Text × Text)}
    (hraw : express_raw body = .ok (some bytes)) (hempty : utf8 bytes ≠ [])
    (hparse : parseSoapRequest parser (utf8 bytes) = .ok (method, params))
    (hmethod : method ∈ object_prototype.map Prod.fst) : ¬ Closed (soap_endpoint parser utf8 run body) := by
  obtain ⟨function, hhandler⟩ := handler_of_inherited hmethod
  rintro ⟨_, hinvoked⟩
  refine handlers_own method hmethod (hinvoked method (.inherited function) ?_)
  unfold soap_endpoint
  simp only [hraw, if_neg hempty, hparse, hhandler]
  split <;> rfl

/-- When the dispatch of a body is closed. -/
theorem dispatch_closed_iff (parser : XMLParser) (utf8 : List UInt8 → Text)
    (run : BossMethod → List (Text × Text) → Option BOSS) (body : HttpBody) :
    Closed (soap_endpoint parser utf8 run body) ↔ Dispatchable parser utf8 body := by
  have hreadable := @express_raw_ok_iff body
  unfold soap_endpoint
  cases hraw : express_raw body with
  | error status =>
    simp only
    constructor
    · rintro ⟨⟨message, hanswer⟩ | ⟨method, code, hanswer⟩, _⟩ <;> cases hanswer
    · rintro ⟨hread, _⟩
      obtain ⟨raw, hok⟩ := hreadable.mpr hread
      rw [hraw] at hok
      cases hok
  | ok raw =>
    have hread := hreadable.mp ⟨raw, hraw⟩
    cases raw with
    | none => exact iff_of_true (closed_fault _) ⟨hread, fun _ _ _ hbytes => by simp [hraw] at hbytes⟩
    | some bytes =>
      simp only
      by_cases hempty : utf8 bytes = []
      · rw [if_pos hempty]
        refine iff_of_true (closed_fault _) ⟨hread, fun bytes' _ _ hbytes hne => ?_⟩
        rw [hraw] at hbytes
        obtain rfl := Option.some.inj (Except.ok.inj hbytes)
        exact absurd hempty hne
      · rw [if_neg hempty]
        cases hparse : parseSoapRequest parser (utf8 bytes) with
        | error message =>
          refine iff_of_true (closed_fault _) ⟨hread, fun bytes' _ _ hbytes _ hok => ?_⟩
          rw [hraw] at hbytes
          obtain rfl := Option.some.inj (Except.ok.inj hbytes)
          rw [hparse] at hok
          cases hok
        | ok request =>
          obtain ⟨method, params⟩ := request
          have hdispatchable : Dispatchable parser utf8 body ↔ method ∉ object_prototype.map Prod.fst := by
            constructor
            · exact fun h => h.own bytes method params hraw hempty hparse
            · refine fun hmethod => ⟨hread, fun bytes' method' params' hbytes _ hok => ?_⟩
              rw [hraw] at hbytes
              obtain rfl := Option.some.inj (Except.ok.inj hbytes)
              rw [hparse] at hok
              obtain ⟨rfl, rfl⟩ := Prod.mk.inj (Except.ok.inj hok)
              exact hmethod
          rw [hdispatchable]
          by_cases hmethod : method ∈ object_prototype.map Prod.fst
          · refine iff_of_false ?_ (not_not.mpr hmethod)
            have hnot := @not_closed_of_inherited parser utf8 run body method bytes params hraw hempty hparse hmethod
            unfold soap_endpoint at hnot
            simpa only [hraw, if_neg hempty, hparse] using hnot
          · refine iff_of_true ?_ hmethod
            obtain ⟨own, hhandler, hown⟩ | hhandler | hhandler := handler_of_cases hmethod
            · have hinvoked : ∀ name function, (if Handler.own own = .prototype then none else
                  some (method, Handler.own own)) = some (name, function) → name ∈ handlers.map Prod.fst := by
                intro name function heq
                rw [if_neg (by simp)] at heq
                rwa [← (Prod.mk.inj (Option.some.inj heq)).1]
              simp only [hhandler, Handler.call]
              cases run own params with
              | none => exact closed_respond _ .UNKNOWN hinvoked
              | some code => exact closed_respond _ code hinvoked
            · simp only [hhandler, Handler.call]
              exact closed_respond _ .UNKNOWN fun name function heq => by simp at heq
            · simp only [hhandler]
              exact closed_fault _

/-- The body of a document. -/
def xml_body (document : Text) : HttpBody where
  media_type := "text/xml".toList
  bytes := .ok (document.map fun c => UInt8.ofNat c.toNat)

/-- A request for the method `constructor` invokes a function that is not one of the
    table. -/
theorem not_dispatch_closed :
    ¬ Closed (soap_endpoint (document_parsing (envelope "constructor".toList []))
      (fun bytes => bytes.map fun byte => Char.ofNat byte.toNat) (fun _ _ => none)
      (xml_body (buildSoapRequest "constructor".toList []))) := by
  have hbytes : ((buildSoapRequest "constructor".toList []).map fun c => UInt8.ofNat c.toNat).map
      (fun byte => Char.ofNat byte.toNat) = buildSoapRequest "constructor".toList [] := by decide +kernel
  have hraw : express_raw (xml_body (buildSoapRequest "constructor".toList [])) =
      .ok (some ((buildSoapRequest "constructor".toList []).map fun c => UInt8.ofNat c.toNat)) := by
    have hlength : (buildSoapRequest "constructor".toList []).length ≤ limit := by decide +kernel
    unfold express_raw xml_body
    rw [if_neg (by decide)]
    simp only [List.length_map, if_neg (Nat.not_lt.mpr hlength)]
  have hreads := document_parsing_reads (envelope "constructor".toList [])
  have hblank : ∀ text : Text, (∀ c ∈ text, c ∈ ['\n', ' ']) → decide (trim (line_feeds text) = []) :=
    fun text htext => decide_eq_true (trim_line_feeds_blank htext)
  rw [XMLParser.Reads, envelope_source (by simp), envelope_value (by simp) (by simp) hblank] at hreads
  have hparse := parse_envelope (by decide) (by simp [prefixed, is_attribute]) (by simp) (by simp) hreads
  have hempty : ((buildSoapRequest "constructor".toList []).map fun c => UInt8.ofNat c.toNat).map
      (fun byte => Char.ofNat byte.toNat) ≠ [] := by
    rw [hbytes]
    exact List.cons_ne_nil _ _
  rw [← hbytes] at hparse
  exact not_closed_of_inherited hraw hempty hparse (by decide)

end aaa_server
