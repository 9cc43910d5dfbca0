import AaaServer.Docker.DockerService
import Mathlib.Data.Bool.AllAny

open sql java

namespace aaa_server

/-- What the code relies on of a service: the version, the Spec, its template and
    the counter are there. -/
structure ServiceJson (service : JsonObject) (index force : Int) (spec template : JsonObject) : Prop where
  versioned : ∃ version, service.getAsJsonObject "Version" = some version ∧ version.get "Index" = some (.integer index)
  specified : service.getAsJsonObject "Spec" = some spec
  templated : spec.getAsJsonObject "TaskTemplate" = some template
  counted : template.get "ForceUpdate" = some (.integer force)

/-- The Spec with another counter. -/
def forced (spec template : JsonObject) (force : Int) : Json :=
  .object (spec.add "TaskTemplate" (.object (template.add "ForceUpdate" (.integer force))))

/-- The daemon answers the first request with a head and the service, as an object
    on one line. -/
structure Answers (gson : Gson) (daemon : List UInt8 → Text) (service : JsonObject) (head json : Text) : Prop where
  answer : daemon (getBytes HTTP_GET_REQUEST) = head ++ ('{' :: json ++ ['\n'])
  brace : '{' ∉ head
  line : '\r' ∉ json ∧ '\n' ∉ json
  parses : gson.parseString ('{' :: json ++ ['\n']) = some (.object service)

/-- The requests of a restart: the second one is complete, its length is that of its
    body in bytes, and its body is the Spec with the counter one higher. -/
def Restarted (gson : Gson) (spec template : JsonObject) (force : Int) (sent : List (List UInt8)) : Prop :=
  ∃ version, sent = [getBytes HTTP_GET_REQUEST,
    getBytes (HTTP_POST_REQUEST_TEMPLATE version (getBytes (gson.toString (forced spec template (force + 1)))).length
      (gson.toString (forced spec template (force + 1))))]

/-- The Spec to send leaves the counter in the range of an `int`, is ASCII, and fits
    the buffer together with the head of the request. -/
structure Sendable (gson : Gson) (spec template : JsonObject) (index force : Int) : Prop where
  range : -2 ^ 31 ≤ force + 1 ∧ force + 1 < 2 ^ 31
  ascii : ∀ c ∈ gson.toString (forced spec template (force + 1)), c.toNat < 0x80
  fits : (HTTP_POST_REQUEST_TEMPLATE (int32 index) (gson.toString (forced spec template (force + 1))).length
    (gson.toString (forced spec template (force + 1)))).length ≤ CAPACITY

variable {gson : Gson} {daemon : List UInt8 → Text} {service spec template : JsonObject} {index force : Int}
  {head json : Text}

theorem int32_add_one (n : Int) : int32 (int32 n + 1) = int32 (n + 1) := by
  rw [int32, int32, int32, Int.bmod_add_bmod]

theorem int32_eq_iff (n : Int) : int32 n = n ↔ -2 ^ 31 ≤ n ∧ n < 2 ^ 31 := by
  rw [int32, Int.bmod_def]
  omega

/-- The text of a request gives away its parts. -/
theorem request_injective {version version' length length' : Int} {payload payload' : Text}
    (hrequest : HTTP_POST_REQUEST_TEMPLATE version length payload =
      HTTP_POST_REQUEST_TEMPLATE version' length' payload') :
    version = version' ∧ length = length' ∧ payload = payload' := by
  unfold HTTP_POST_REQUEST_TEMPLATE at hrequest
  obtain ⟨hversion, hrest⟩ := append_cons_inj (not_mem_format_d (by decide) (by decide))
    (not_mem_format_d (by decide) (by decide)) (List.append_cancel_left hrequest)
  obtain ⟨hlength, hrest⟩ := append_cons_inj (not_mem_format_d (by decide) (by decide))
    (not_mem_format_d (by decide) (by decide)) (List.append_cancel_left hrest)
  exact ⟨format_d_injective hversion, format_d_injective hlength, List.append_cancel_left hrest⟩

/-- A request with an ASCII body has as many bytes as characters. -/
theorem length_request {version length : Int} {payload : Text} (hascii : ∀ c ∈ payload, c.toNat < 0x80) :
    (getBytes (HTTP_POST_REQUEST_TEMPLATE version length payload)).length =
      (HTTP_POST_REQUEST_TEMPLATE version length payload).length := by
  have hrequest : ∀ c ∈ HTTP_POST_REQUEST_TEMPLATE version length payload, c.toNat < 0x80 := by
    unfold HTTP_POST_REQUEST_TEMPLATE
    simp only [List.forall_mem_append]
    exact ⟨List.all_iff_forall_prop.mp (by decide), ascii_format_d, List.all_iff_forall_prop.mp (by decide),
      ascii_format_d, List.all_iff_forall_prop.mp (by decide), hascii⟩
  rw [← (length_getBytes _).2.mpr hrequest, length_of_ascii hrequest]

/-- The object of the answer is read as it was sent. -/
theorem Answers.parsed (hanswers : Answers gson daemon service head json) :
    parseResponseBody gson (read_lines (daemon (getBytes HTTP_GET_REQUEST))) = some service := by
  have hbody : (head ++ ('{' :: json ++ ['\n'])).dropWhile (· ≠ '{') = '{' :: json ++ ['\n'] := by
    rw [List.dropWhile_append_of_pos, List.cons_append, List.dropWhile_cons_of_neg (by simp)]
    intro c hc
    exact decide_eq_true fun heq => hanswers.brace (heq ▸ hc)
  have hline : read_lines ('{' :: json ++ ['\n']) = '{' :: json ++ ['\n'] :=
    read_lines_line (fun h => hanswers.line.1 ((List.mem_cons.mp h).resolve_left (by decide)))
      fun h => hanswers.line.2 ((List.mem_cons.mp h).resolve_left (by decide))
  rw [parseResponseBody, hanswers.answer, dropWhile_read_lines (by decide) (by decide), hbody, hline]
  simp only [List.cons_append]
  rw [← List.cons_append, hanswers.parses]

/-- What is sent to update a service. -/
theorem updateService_eq (hservice : ServiceJson service index force spec template) :
    updateService gson daemon service =
      (sendUnixSocketRequest daemon (HTTP_POST_REQUEST_TEMPLATE (int32 index)
        (java.length (gson.toString (forced spec template (int32 (force + 1)))))
          (gson.toString (forced spec template (int32 (force + 1)))))).map Prod.fst := by
  obtain ⟨⟨version, hversion, hindex⟩, hspec, htemplate, hforce⟩ := hservice
  simp only [updateService, hversion, hindex, hspec, htemplate, hforce, Gson.getAsInt, int32_add_one, forced,
    Option.bind_eq_bind, Option.bind_some]
  cases sendUnixSocketRequest daemon _ <;> rfl

/-- What a restart sends. -/
theorem restartDockerService_eq (hanswers : Answers gson daemon service head json)
    (hservice : ServiceJson service index force spec template) :
    restartDockerService gson daemon = getBytes HTTP_GET_REQUEST ::
      ((sendUnixSocketRequest daemon (HTTP_POST_REQUEST_TEMPLATE (int32 index)
        (java.length (gson.toString (forced spec template (int32 (force + 1)))))
          (gson.toString (forced spec template (int32 (force + 1)))))).map Prod.fst).toList := by
  have hget : sendUnixSocketRequest daemon HTTP_GET_REQUEST =
      some (getBytes HTTP_GET_REQUEST, read_lines (daemon (getBytes HTTP_GET_REQUEST))) := by
    rw [sendUnixSocketRequest, if_pos (by decide)]
  rw [restartDockerService, hget]
  simp only
  rw [hanswers.parsed, Option.bind_some, updateService_eq hservice]

theorem sendable_of_restarted (hanswers : Answers gson daemon service head json)
    (hservice : ServiceJson service index force spec template)
    (hprint : ∀ a b, gson.toString (forced spec template a) = gson.toString (forced spec template b) → a = b)
    (hrestarted : Restarted gson spec template force (restartDockerService gson daemon)) :
    Sendable gson spec template index force := by
  rw [restartDockerService_eq hanswers hservice] at hrestarted
  obtain ⟨version, hsent⟩ := hrestarted
  have hpost := (List.cons.inj hsent).2
  unfold sendUnixSocketRequest at hpost
  simp only at hpost
  split at hpost
  · next hfits =>
    have hrequest := getBytes_injective (List.cons.inj hpost).1
    obtain ⟨hversion, hlength, hpayload⟩ := request_injective hrequest
    have hforce := hprint _ _ hpayload
    rw [hforce] at hlength hfits
    have hascii := (length_getBytes _).2.mp (Int.ofNat.inj hlength)
    refine ⟨(int32_eq_iff _).mp hforce, hascii, ?_⟩
    rwa [length_request hascii, length_of_ascii hascii] at hfits
  · cases hpost

/-- When a restart is framed as it should be. -/
theorem restarted_iff (hanswers : Answers gson daemon service head json)
    (hservice : ServiceJson service index force spec template)
    (hprint : ∀ a b, gson.toString (forced spec template a) = gson.toString (forced spec template b) → a = b) :
    Restarted gson spec template force (restartDockerService gson daemon) ↔
      Sendable gson spec template index force := by
  constructor
  · exact sendable_of_restarted hanswers hservice hprint
  · rintro ⟨hrange, hascii, hfits⟩
    rw [restartDockerService_eq hanswers hservice]
    refine ⟨int32 index, ?_⟩
    have hlength := (length_getBytes _).2.mpr hascii
    rw [← length_request hascii] at hfits
    rw [(int32_eq_iff _).mpr hrange, ← hlength, length_of_ascii hascii, sendUnixSocketRequest, if_pos hfits]
    rfl

/-- How the writer of Gson replaces a character of a string. -/
def json_char (c : Char) : Text :=
  if c = '"' ∨ c = '\\' then ['\\', c]
  else if c = '\t' then ['\\', 't']
  else if c = '\n' then ['\\', 'n']
  else if c = '\r' then ['\\', 'r']
  else if c.toNat = 0x08 then ['\\', 'b']
  else if c.toNat = 0x0c then ['\\', 'f']
  else if c.toNat < 0x20 ∨ c.toNat = 0x2028 ∨ c.toNat = 0x2029 then
    ['\\', 'u', Nat.digitChar (c.toNat / 0x1000), Nat.digitChar (c.toNat / 0x100 % 0x10),
      Nat.digitChar (c.toNat / 0x10 % 0x10), Nat.digitChar (c.toNat % 0x10)]
  else [c]

def json_string (value : Text) : Text := '"' :: (value.flatMap json_char ++ ['"'])

mutual

/-- How Gson prints a value. -/
def Json.print : Json → Text
  | .null => "null".toList
  | .boolean value => (toString value).toList
  | .integer value => format_d value
  | .decimal literal => literal
  | .string value => json_string value
  | .array items => '[' :: (Json.print_items items ++ [']'])
  | .object members => '{' :: (Json.print_members members ++ ['}'])

def Json.print_items : List Json → Text
  | [] => []
  | [item] => item.print
  | item :: items => item.print ++ ',' :: Json.print_items items

def Json.print_members : List (Text × Json) → Text
  | [] => []
  | [(name, value)] => json_string name ++ ':' :: value.print
  | (name, value) :: members => json_string name ++ ':' :: (value.print ++ ',' :: Json.print_members members)

end

section Samples

def radius_template (force : Int) : JsonObject := [("ForceUpdate".toList, .integer force)]

def radius_spec (name : String) (force : Int) : JsonObject :=
  [("Name".toList, .string name.toList), ("TaskTemplate".toList, .object (radius_template force))]

def radius_service (name : String) (force : Int) : JsonObject :=
  [("Version".toList, .object [("Index".toList, .integer 7)]), ("Spec".toList, .object (radius_spec name force))]

def radius_head : Text := "HTTP/1.0 200 OK\r\nContent-Type: application/json\r\n\r\n".toList

def radius_json (name : String) (force : Int) : Text := (Json.object (radius_service name force)).print ++ ['\n']

def radius_gson (name : String) (force : Int) : Gson where
  parseString text := if text = radius_json name force then some (.object (radius_service name force)) else none
  toString := Json.print
  intValue _ := 0
  parseInt _ := none

def radius_daemon (name : String) (force : Int) (_ : List UInt8) : Text := radius_head ++ radius_json name force

theorem radius_service_json (name : String) (force : Int) :
    ServiceJson (radius_service name force) 7 force (radius_spec name force) (radius_template force) :=
  ⟨⟨_, rfl, rfl⟩, rfl, rfl, rfl⟩

theorem radius_print (name : String) (force a b : Int)
    (hprint : (forced (radius_spec name force) (radius_template force) a).print =
      (forced (radius_spec name force) (radius_template force) b).print) : a = b := by
  have hforced (n : Int) : (forced (radius_spec name force) (radius_template force) n).print =
      '{' :: ((json_string "Name".toList ++ ':' :: (json_string name.toList ++ ',' ::
        (json_string "TaskTemplate".toList ++ ':' :: '{' :: ((json_string "ForceUpdate".toList ++ ':' ::
          format_d n) ++ ['}'])))) ++ ['}']) := rfl
  rw [hforced, hforced] at hprint
  simpa using format_d_injective (by simpa using hprint)

/-- The service is restarted. -/
theorem radius_restarted : Restarted (radius_gson "radius" 2) (radius_spec "radius" 2) (radius_template 2) 2
    (restartDockerService (radius_gson "radius" 2) (radius_daemon "radius" 2)) := by
  have hanswers : Answers (radius_gson "radius" 2) (radius_daemon "radius" 2) (radius_service "radius" 2) radius_head
      ((Json.object (radius_service "radius" 2)).print).tail := ⟨rfl, by decide, by decide, rfl⟩
  refine (restarted_iff hanswers (radius_service_json "radius" 2) (radius_print "radius" 2)).mpr ⟨by decide, ?_, ?_⟩
  · exact List.all_iff_forall_prop.mp (by decide)
  · decide +kernel

/-- A name that is not ASCII has more bytes than the length says, and the counter
    does not pass the largest `int`. -/
theorem not_restarted :
    ¬ Restarted (radius_gson "认证" 2) (radius_spec "认证" 2) (radius_template 2) 2
      (restartDockerService (radius_gson "认证" 2) (radius_daemon "认证" 2)) ∧
    ¬ Restarted (radius_gson "radius" 2147483647) (radius_spec "radius" 2147483647)
      (radius_template 2147483647) 2147483647
      (restartDockerService (radius_gson "radius" 2147483647) (radius_daemon "radius" 2147483647)) := by
  constructor
  · intro hrestarted
    have hanswers : Answers (radius_gson "认证" 2) (radius_daemon "认证" 2) (radius_service "认证" 2) radius_head
        ((Json.object (radius_service "认证" 2)).print).tail := ⟨rfl, by decide, by decide, rfl⟩
    have hsendable := sendable_of_restarted hanswers (radius_service_json "认证" 2) (radius_print "认证" 2) hrestarted
    exact absurd (hsendable.ascii '认' (by decide)) (by decide)
  · intro hrestarted
    have hanswers : Answers (radius_gson "radius" 2147483647) (radius_daemon "radius" 2147483647)
        (radius_service "radius" 2147483647) radius_head
        ((Json.object (radius_service "radius" 2147483647)).print).tail := ⟨rfl, by decide, by decide, rfl⟩
    have hsendable := sendable_of_restarted hanswers (radius_service_json "radius" 2147483647)
      (radius_print "radius" 2147483647) hrestarted
    exact absurd hsendable.range.2 (by decide)

end Samples

end aaa_server
