import AaaServer.Docker.Encoding

open sql java

namespace aaa_server

/-- A JSON value. A number with a fraction or an exponent is kept as it is written. -/
inductive Json where
  | null
  | boolean (value : Bool)
  | integer (value : Int)
  | decimal (literal : Text)
  | string (value : Text)
  | array (items : List Json)
  | object (members : List (Text × Json))

/-- The package Gson: it parses and prints, and it reads an `int` out of a number
    with a fraction or an exponent, and out of a string. -/
structure Gson where
  parseString : Text → Option Json
  toString : Json → Text
  intValue : Text → Int
  parseInt : Text → Option Int

/-- The members of a `JsonObject`, in the order of insertion. -/
abbrev JsonObject := List (Text × Json)

def JsonObject.get (members : JsonObject) (name : String) : Option Json :=
  (members.find? (·.1 = name.toList)).map Prod.snd

/-- The member that must be an object: a cast fails on any other value, and what is
    called on a missing one throws as well. -/
def JsonObject.getAsJsonObject (members : JsonObject) (name : String) : Option JsonObject :=
  match members.get name with
  | some (.object members) => some members
  | _ => none

/-- `add`, which replaces a member where it stands. -/
def JsonObject.add (members : JsonObject) (name : String) (value : Json) : JsonObject :=
  if members.any (·.1 = name.toList) then
    members.map fun member => if member.1 = name.toList then (member.1, value) else member
  else members ++ [(name.toList, value)]

/-- `getAsInt`. An array of one element stands for the element. -/
def Gson.getAsInt (gson : Gson) : Json → Option Int
  | .integer value => some (int32 value)
  | .decimal literal => some (gson.intValue literal)
  | .string value => gson.parseInt value
  | .array [item] => gson.getAsInt item
  | _ => none

def HTTP_GET_REQUEST : Text := "GET /services/myradius_radius HTTP/1.0\r\n\r\n".toList

def HTTP_POST_REQUEST_TEMPLATE (version length : Int) (payload : Text) : Text :=
  "POST /services/myradius_radius/update?version=".toList ++ (format_d version ++
    (" HTTP/1.0\r\nContent-Type: application/json\r\nContent-Length: ".toList ++ (format_d length ++
      ("\r\n\r\n".toList ++ payload))))

/-- The capacity of the buffer. -/
def CAPACITY : Nat := 4096

section Restart

-- What the daemon answers to the bytes of a request.
variable (gson : Gson) (daemon : List UInt8 → Text)

/-- One request over a connection of its own: the bytes that are sent, and the text
    of the answer. A request that does not fit the buffer is not sent at all. -/
def sendUnixSocketRequest (httpRequest : Text) : Option (List UInt8 × Text) :=
  let bytes := getBytes httpRequest
  if bytes.length ≤ CAPACITY then some (bytes, read_lines (daemon bytes)) else none

def parseResponseBody (serviceData : Text) : Option JsonObject :=
  match serviceData.dropWhile (· ≠ '{') with
  | [] => none
  | body => match gson.parseString body with
    | some (.object members) => some members
    | _ => none

/-- The request for the update, if it is sent. -/
def updateService (jsonServiceData : JsonObject) : Option (List UInt8) := do
  let version ← jsonServiceData.getAsJsonObject "Version"
  let serviceVersion ← gson.getAsInt (← version.get "Index")
  let serviceSpec ← jsonServiceData.getAsJsonObject "Spec"
  let taskTemplate ← serviceSpec.getAsJsonObject "TaskTemplate"
  let currentForceUpdate ← gson.getAsInt (← taskTemplate.get "ForceUpdate")
  let newForceUpdate := int32 (currentForceUpdate + 1)
  let payload := gson.toString (.object (serviceSpec.add "TaskTemplate"
    (.object (taskTemplate.add "ForceUpdate" (.integer newForceUpdate)))))
  let (sent, _) ← sendUnixSocketRequest daemon
    (HTTP_POST_REQUEST_TEMPLATE serviceVersion (java.length payload) payload)
  return sent

/-- The requests that are sent. Every exception ends the method. -/
def restartDockerService : List (List UInt8) :=
  match sendUnixSocketRequest daemon HTTP_GET_REQUEST with
  | none => []
  | some (sent, serviceData) =>
    sent :: ((parseResponseBody gson serviceData).bind (updateService gson daemon)).toList

end Restart

end aaa_server
