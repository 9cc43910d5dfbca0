import AaaServer.Bridge.Handlers
import AaaServer.Sql.Inet
import AaaServer.Xml.Document
import AaaServer.Xml.Escape

open sql xml

namespace aaa_server

/-- A method of the BOSS interface with the names of its parameters. -/
structure ApiMethod where
  name : String
  params : List String

/-- The methods of the test client, which are those of the handlers table. -/
def apiMethods : List ApiMethod := [
  { name := "IsExist", params := ["AreaGroupID", "Account"] },
  { name := "ForceOffline", params := ["AreaGroupID", "Account"] },
  { name := "CheckPassword", params := ["AreaGroupID", "Account", "Password"] },
  { name := "SearchCustomerStatus", params := ["AreaGroupID", "Account"] },
  { name := "Register", params := ["AreaGroupID", "Account", "UserName", "Password", "Operator", "TollGroupID",
    "AdminGroupID", "BWGroupID", "UpLoadBandWidth", "DownLoadBandWidth", "LoginOptionID", "Prepay", "Bail", "IP",
    "MAC", "VLANID", "Switch", "CertificateSort", "CertificateCode", "Address", "Telephone", "PostCode", "Email",
    "Contactor", "BankName", "BankAccount", "Remarks", "ByBatch", "WorkFlow", "Service", "EndTime"] },
  { name := "IpoeRegister", params := ["AreaGroupID", "MacList", "Password", "Operator", "Remarks"] },
  { name := "EraseCustomer", params := ["AreaGroupID", "Account", "Operator", "Remarks", "Refundment", "byBatch",
    "WorkFlow"] },
  { name := "IpoeEraseCustomer", params := ["AreaGroupID", "Mac", "Operator", "Remarks"] },
  { name := "ChangeUserInfo", params := ["AreaGroupID", "Account", "UserName", "IP", "MAC", "AdminGroupID", "ClassID",
    "BWGroupID", "UpLoadBandwidth", "DownLoadBandWidth", "LoginOptionID", "Operator", "Remarks", "BySystem", "ByBatch",
    "Service", "EndTime"] },
  { name := "ChangeUserPassword", params := ["AreaGroupID", "Account", "Password", "Operator", "Remarks", "bySystem",
    "byBatch"] },
  { name := "EnableAccount", params := ["AreaGroupID", "Account", "Operator", "Remarks", "Enable", "bySystem",
    "byBatch", "Day"] }]

def SOAP_NS : Text := "http://schemas.xmlsoap.org/soap/envelope/".toList

def BOSS_NS : Text := "http://service.whjf.hsoft.com".toList

def escapeXml (text : Text) : Text :=
  replace_char .apos (replace_char .quot (replace_char .gt (replace_char .lt (replace_char .amp text))))

/-- A line of `paramsXml`. -/
def param_line (param : Text × Text) : Text :=
  if param.2 = [] then []
  else "        <".toList ++ param.1 ++ ">".toList ++ escapeXml param.2 ++ "</".toList ++ param.1 ++ ">\n".toList

def paramsXml (params : List (Text × Text)) : Text := params.flatMap param_line

def buildSoapRequest (methodName : Text) (params : List (Text × Text)) : Text :=
  ("<?xml version=\"1.0\" encoding=\"UTF-8\"?>\n<soap:Envelope xmlns:soap=\"".toList ++ SOAP_NS ++
    "\">\n    <soap:Body>\n        <".toList ++ methodName ++ " xmlns=\"".toList ++ BOSS_NS ++ "\">\n".toList ++
    paramsXml params ++ "        </".toList ++ methodName ++ ">\n    </soap:Body>\n</soap:Envelope>".toList)

/-- A character that occurs in the texts that look numeric: decimal numbers with
    or without a sign, a point and an exponent, and hexadecimal ones. -/
def numeric_char (c : Char) : Bool :=
  c.isDigit ∨ c ∈ ['+', '-', '.', 'x', 'X', 'a', 'b', 'c', 'd', 'e', 'f', 'A', 'B', 'C', 'D', 'E', 'F']

/-- The parser of the package, with `parseTagValue` and `trimValues`. It takes texts
    that look numeric for numbers, and such a number is given as the text that
    `String` makes of it. -/
structure XMLParser where
  parse : Text → Except Text JsValue
  toNumber : Text → Option Text
  numeric : ∀ {text number}, toNumber text = some number → ∀ c ∈ text, numeric_char c
  number_text : ∀ {text number}, toNumber text = some number → ∀ c ∈ number, c.isAlphanum ∨ c ∈ ['+', '-', '.']

/-- The line ends of a document are read as line feeds. -/
def line_feeds : Text → Text
  | '\r' :: '\n' :: text => '\n' :: line_feeds text
  | '\r' :: text => '\n' :: line_feeds text
  | c :: text => c :: line_feeds text
  | [] => []

/-- The ampersand comes last. -/
def replaceEntitiesValue (text : Text) : Text :=
  decode .amp (decode .quot (decode .lt (decode .gt (decode .apos text))))

namespace XMLParser

variable (parser : XMLParser)

def parseValue (text : Text) : JsValue :=
  if text = ['t', 'r', 'u', 'e'] then .boolean true
  else if text = ['f', 'a', 'l', 's', 'e'] then .boolean false
  else match parser.toNumber text with
    | some number => .number number
    | none => .string text

/-- What the parser makes of the text of a tag. -/
def tag_value (raw : Text) : JsValue := parser.parseValue (replaceEntitiesValue (trim (line_feeds raw)))

/-- The text of an attribute, which `parseAttributeValue` leaves a text. -/
def attribute_value (raw : Text) : Text := replaceEntitiesValue (trim (line_feeds raw))

/-- The parser reads the document as it is documented to: elements as objects with
    their attributes under `attributeNamePrefix`, texts as tag values. -/
def Reads (document : Document) : Prop :=
  parser.parse document.source =
    .ok (document.value parser.tag_value attribute_value fun raw => trim (line_feeds raw) = [])

end XMLParser

/-- `value[key] || value[key']`. -/
def either_field (value : JsValue) (key key' : Text) : Option JsValue :=
  ((value.get key).filter JsValue.truthy).or ((value.get key').filter JsValue.truthy)

def is_attribute (key : Text) : Bool := "@_".toList.isPrefixOf key

/-- The text of a parameter. -/
def param_text : JsValue → Text
  | .object [] => []
  | value => value.js_string

def parseSoapRequest (parser : XMLParser) (xmlBody : Text) : Except Text (Text × List (Text × Text)) := do
  let doc ← parser.parse xmlBody
  let some envelope := either_field doc "soap:Envelope".toList "Envelope".toList
    | throw "Invalid SOAP: no Envelope".toList
  let some body := either_field envelope "soap:Body".toList "Body".toList
    | throw "Invalid SOAP: no Body".toList
  let some methodName := (body.entries.map Prod.fst).find? fun key => !is_attribute key
    | throw "Invalid SOAP: no method in Body".toList
  let methodNode := (body.get methodName).filter fun value => value.truthy && value.is_object
  let fields := ((methodNode.map JsValue.entries).getD []).filter fun field => !is_attribute field.1
  if fields.any fun field => !field.2.printable then
    throw "Cannot convert object to primitive value".toList
  return (methodName, fields.map fun (key, value) => (key, param_text value))

/-- The element of a parameter, on a line of its own. -/
def param_content (param : Text × Text) : List Node :=
  [.text "\n        ".toList, .element param.1 [] [.text (escapeXml param.2)]]

def params_content (params : List (Text × Text)) : List Node :=
  params.flatMap param_content ++ [.text "\n        ".toList]

/-- The document that the client writes. -/
def envelope (methodName : Text) (params : List (Text × Text)) : Document where
  declaration := [("version".toList, "1.0".toList), ("encoding".toList, "UTF-8".toList)]
  space := "\n".toList
  root := .element "soap:Envelope".toList [("xmlns:soap".toList, SOAP_NS)] [
    .text "\n    ".toList,
    .element "soap:Body".toList [] [
      .text "\n        ".toList,
      .element methodName [("xmlns".toList, BOSS_NS)] (params_content params),
      .text "\n    ".toList],
    .text "\n".toList]

variable {parser : XMLParser} {methodName value raw : Text} {params : List (Text × Text)}

theorem content_source_append (content content' : List Node) :
    content_source (content ++ content') = content_source content ++ content_source content' := by
  induction content with
  | nil => rfl
  | cons node content ih => simp only [List.cons_append, content_source, ih, List.append_assoc]

/-- The line of a parameter is its element with the line feed behind it. -/
theorem param_content_source {param : Text × Text} (hvalue : param.2 ≠ []) :
    content_source (param_content param) ++ ['\n'] = '\n' :: param_line param := by
  simp only [param_content, param_line, if_neg hvalue, content_source, Node.source, String.reduceToList,
    List.flatMap_nil, List.append_assoc, List.cons_append, List.nil_append, List.append_nil]

theorem params_content_source (hvalues : ∀ param ∈ params, param.2 ≠ []) :
    content_source (params_content params) = '\n' :: paramsXml params ++ "        ".toList := by
  induction params with
  | nil =>
    simp only [params_content, paramsXml, content_source, Node.source, String.reduceToList, List.flatMap_nil,
      List.nil_append, List.append_nil, List.cons_append]
  | cons param params ih =>
    have ih := ih fun param hparam => hvalues param (List.mem_cons_of_mem _ hparam)
    have hline := param_content_source (hvalues param List.mem_cons_self)
    rw [params_content, List.flatMap_cons, List.append_assoc, content_source_append, ← params_content, ih,
      List.cons_append, ← List.singleton_append, ← List.append_assoc, hline, paramsXml, paramsXml, List.flatMap_cons]
    simp only [List.cons_append, List.append_assoc]

theorem envelope_source (hvalues : ∀ param ∈ params, param.2 ≠ []) :
    (envelope methodName params).source = buildSoapRequest methodName params := by
  unfold envelope Document.source buildSoapRequest
  simp only [Node.source, content_source, attribute_source, params_content_source hvalues, String.reduceToList,
    List.append_assoc, List.cons_append, List.nil_append, List.flatMap_cons, List.flatMap_nil, List.append_nil]

/-- The replacements one after the other escape all five characters. -/
theorem escapeXml_eq (text : Text) : escapeXml text = encode [.apos, .quot, .gt, .lt, .amp] text := by
  rw [escapeXml, ← encode_nil text, replace_char_encode (.inr rfl), encode_nil,
    replace_char_encode (.inl (by decide)), replace_char_encode (.inl (by decide)),
    replace_char_encode (.inl (by decide)), replace_char_encode (.inl (by decide))]

/-- The parser reads back what the client escapes. -/
theorem replaceEntitiesValue_escapeXml (text : Text) : replaceEntitiesValue (escapeXml text) = text := by
  rw [escapeXml_eq, replaceEntitiesValue, decode_encode (by decide) (by decide),
    encode_congr (show ∀ entity, entity ∈ [Entity.quot, .gt, .lt, .amp] ↔ entity ∈ [Entity.gt, .quot, .lt, .amp] by
      intro entity; cases entity <;> decide),
    decode_encode (by decide) (by decide),
    encode_congr (show ∀ entity, entity ∈ [Entity.quot, .lt, .amp] ↔ entity ∈ [Entity.lt, .quot, .amp] by
      intro entity; cases entity <;> decide),
    decode_encode (by decide) (by decide), decode_encode (by decide) (by decide),
    decode_encode (by decide) (by decide), encode_nil]

/-- A text that neither begins nor ends with white space is not trimmed. -/
theorem trim_eq_self (hhead : ∀ c ∈ value.head?, ¬ js_whitespace c) (hlast : ∀ c ∈ value.getLast?, ¬ js_whitespace c) :
    trim value = value := by
  have hdrop : value.dropWhile js_whitespace = value := by
    cases value with
    | nil => rfl
    | cons c value => exact List.dropWhile_cons_of_neg (hhead c rfl)
  rw [trim, hdrop]
  refine List.rdropWhile_eq_self_iff.mpr fun hne => ?_
  exact hlast _ (List.getLast?_eq_getLast_of_ne_nil hne)

theorem trim_edges (htrim : trim value = value) :
    (∀ c ∈ value.head?, ¬ js_whitespace c) ∧ ∀ c ∈ value.getLast?, ¬ js_whitespace c := by
  have hprefix : trim value <+: value.dropWhile js_whitespace := List.rdropWhile_prefix _ _
  have hsuffix : value.dropWhile js_whitespace <:+ value := List.dropWhile_suffix _
  have hlength : (value.dropWhile js_whitespace).length = value.length := by
    have hle := hprefix.length_le
    rw [htrim] at hle
    exact Nat.le_antisymm hsuffix.length_le hle
  have hdrop : value.dropWhile js_whitespace = value := hsuffix.eq_of_length hlength
  constructor
  · intro c hc
    have hnot := List.head?_dropWhile_not js_whitespace value
    rw [hdrop, Option.mem_def.mp hc] at hnot
    simpa using hnot
  · intro c hc
    rw [trim, hdrop, List.rdropWhile_eq_self_iff] at htrim
    obtain ⟨hne, rfl⟩ := List.mem_getLast?_eq_getLast hc
    exact htrim hne

theorem line_feeds_eq_self (hvalue : '\r' ∉ value) : line_feeds value = value := by
  fun_induction line_feeds value <;> simp_all

theorem not_mem_line_feeds (value : Text) : '\r' ∉ line_feeds value := by
  fun_induction line_feeds value with
  | case1 text ih => simpa using ih
  | case2 text hfeed ih => simpa using ih
  | case3 c text hfeed hreturn ih => simpa [eq_comm] using ⟨hreturn, ih⟩
  | case4 => simp

/-- Other characters stay. -/
theorem mem_line_feeds {c : Char} (hc : c ≠ '\r') (hmem : c ∈ value) : c ∈ line_feeds value := by
  fun_induction line_feeds value with
  | case1 text ih =>
    simp only [List.mem_cons, hc, false_or] at hmem ⊢
    exact hmem.imp_right ih
  | case2 text hfeed ih =>
    simp only [List.mem_cons, hc, false_or] at hmem ⊢
    exact .inr (ih hmem)
  | case3 first text hfeed hreturn ih =>
    rw [List.mem_cons] at hmem ⊢
    exact hmem.imp_right ih
  | case4 => exact hmem

/-- An escaped text begins and ends with no white space either. -/
theorem trim_escapeXml (htrim : trim value = value) : trim (escapeXml value) = escapeXml value := by
  obtain ⟨hhead, hlast⟩ := trim_edges htrim
  rw [escapeXml_eq]
  refine trim_eq_self (fun c hc => ?_) fun c hc => ?_
  · obtain rfl | hc := head?_encode hc
    · decide
    · exact hhead c hc
  · obtain rfl | hc := getLast?_encode hc
    · decide
    · exact hlast c hc

theorem trim_ne_nil {c : Char} (hmem : c ∈ value) (hc : ¬ js_whitespace c) : trim value ≠ [] := by
  intro hnil
  rw [trim, List.rdropWhile_eq_nil_iff] at hnil
  have hnot := List.head?_dropWhile_not js_whitespace value
  cases hdrop : value.dropWhile js_whitespace with
  | nil => exact hc (List.dropWhile_eq_nil_iff.mp hdrop c hmem)
  | cons first rest =>
    rw [hdrop] at hnot hnil
    simp [hnil first List.mem_cons_self] at hnot

theorem trim_line_feeds_blank (hvalue : ∀ c ∈ value, c ∈ ['\n', ' ']) : trim (line_feeds value) = [] := by
  have hreturn : '\r' ∉ value := fun hmem => absurd (hvalue _ hmem) (by decide)
  have hblank : ∀ c ∈ value, js_whitespace c := by
    intro c hc
    have hc := hvalue c hc
    simp only [List.mem_cons, List.not_mem_nil, or_false] at hc
    obtain rfl | rfl := hc <;> decide
  rw [line_feeds_eq_self hreturn, trim, List.dropWhile_eq_nil_iff.mpr hblank, List.rdropWhile_nil]

theorem escapeXml_ne_nil (hne : value ≠ []) : escapeXml value ≠ [] := by
  intro hnil
  have hback := replaceEntitiesValue_escapeXml value
  rw [hnil] at hback
  exact hne hback.symm

theorem not_blank_escapeXml (hne : value ≠ []) (htrim : trim value = value) :
    trim (line_feeds (escapeXml value)) ≠ [] := by
  obtain ⟨c, rest, hc⟩ := List.exists_cons_of_ne_nil (escapeXml_ne_nil hne)
  have hhead := (trim_edges (trim_escapeXml htrim)).1 c (by rw [hc]; rfl)
  have hreturn : c ≠ '\r' := by
    rintro rfl
    exact hhead (by decide)
  exact trim_ne_nil (mem_line_feeds hreturn (hc ▸ List.mem_cons_self)) hhead

theorem not_mem_escapeXml (hvalue : '\r' ∉ value) : '\r' ∉ escapeXml value := by
  rw [escapeXml_eq]
  intro hmem
  obtain hmem | ⟨entity, hreference⟩ := mem_encode hmem
  · exact hvalue hmem
  · revert hreference
    cases entity <;> decide

/-- A carriage return does not come through the parser. -/
theorem not_mem_read (raw : Text) : '\r' ∉ replaceEntitiesValue (trim (line_feeds raw)) := by
  have hdecode (entity : Entity) {text : Text} (htext : '\r' ∉ text) : '\r' ∉ decode entity text := by
    intro hmem
    obtain hchar | hmem := mem_replace_from hmem
    · revert hchar
      cases entity <;> decide
    · exact htext hmem
  have htrim : '\r' ∉ trim (line_feeds raw) := fun hmem =>
    not_mem_line_feeds raw ((List.dropWhile_suffix _).subset ((List.rdropWhile_prefix _ _).subset hmem))
  exact hdecode _ (hdecode _ (hdecode _ (hdecode _ (hdecode _ htrim))))

theorem toNumber_of_letter {text : Text} {c : Char} (hmem : c ∈ text) (hc : numeric_char c = false) :
    parser.toNumber text = none := by
  cases hnumber : parser.toNumber text with
  | none => rfl
  | some number => simp [parser.numeric hnumber c hmem] at hc

/-- A parameter comes back as the number that the parser takes it for, or as it is. -/
theorem param_text_parseValue (text : Text) :
    param_text (parser.parseValue text) = (parser.toNumber text).getD text := by
  unfold XMLParser.parseValue
  by_cases htrue : text = ['t', 'r', 'u', 'e']
  · have hletter : 't' ∈ text := by simp [htrue]
    rw [if_pos htrue, toNumber_of_letter hletter (by decide), Option.getD_none, htrue]
    rfl
  · rw [if_neg htrue]
    by_cases hfalse : text = ['f', 'a', 'l', 's', 'e']
    · have hletter : 'l' ∈ text := by simp [hfalse]
      rw [if_pos hfalse, toNumber_of_letter hletter (by decide), Option.getD_none, hfalse]
      rfl
    · rw [if_neg hfalse]
      cases parser.toNumber text <;> rfl

theorem printable_tag_value (raw : Text) : (parser.tag_value raw).printable := by
  rw [XMLParser.tag_value]
  unfold XMLParser.parseValue
  split
  · rfl
  · split
    · rfl
    · split <;> rfl

/-- A value makes the way to the handler and stays the same when it has no carriage
    return and is no number, or is written as `String` writes it. -/
theorem tag_value_eq_iff (htrim : trim value = value) :
    param_text (parser.tag_value (escapeXml value)) = value ↔
      '\r' ∉ value ∧ ∀ number, parser.toNumber value = some number → number = value := by
  have hread (hreturn : '\r' ∉ value) : replaceEntitiesValue (trim (line_feeds (escapeXml value))) = value := by
    rw [line_feeds_eq_self (not_mem_escapeXml hreturn), trim_escapeXml htrim, replaceEntitiesValue_escapeXml]
  have hclean := not_mem_read (escapeXml value)
  rw [XMLParser.tag_value, param_text_parseValue]
  generalize replaceEntitiesValue (trim (line_feeds (escapeXml value))) = text at hread hclean
  constructor
  · intro hsame
    have hreturn : '\r' ∉ value := by
      rw [← hsame]
      cases hnumber : parser.toNumber text with
      | none => exact hclean
      | some number => exact fun hmem => absurd (parser.number_text hnumber _ hmem) (by decide)
    refine ⟨hreturn, fun number hnumber => ?_⟩
    rwa [hread hreturn, hnumber] at hsame
  · rintro ⟨hreturn, hnumber⟩
    rw [hread hreturn]
    cases hvalue : parser.toNumber value with
    | none => rfl
    | some number => exact hnumber number hvalue

section

variable {decode : Text → Text} {blank : Text → Bool} {tag : Text → JsValue}

/-- The parameters as the parser reads them. -/
theorem children_params_content (hvalues : ∀ param ∈ params, blank (escapeXml param.2) = false) :
    children tag decode blank (params_content params) = params.map fun param => (param.1, tag (escapeXml param.2)) := by
  induction params with
  | nil => rfl
  | cons param params ih =>
    have hleaf : (Node.element param.1 [] [.text (escapeXml param.2)]).value tag decode blank =
        tag (escapeXml param.2) :=
      leaf_value _ (hvalues param List.mem_cons_self)
    rw [params_content, List.flatMap_cons, List.append_assoc, children_append, ← params_content,
      ih fun param hparam => hvalues param (List.mem_cons_of_mem _ hparam), List.map_cons]
    simp [param_content, children, Node.name?, hleaf]

/-- Between the parameters stands white space only. -/
theorem blank_params_content (hblank : blank "\n        ".toList) :
    ∀ raw ∈ (params_content params).filterMap Node.raw?, blank raw := by
  intro raw hraw
  obtain ⟨node, hnode, hraw⟩ := List.mem_filterMap.mp hraw
  obtain hnode | hnode := List.mem_append.mp hnode
  · obtain ⟨param, _, hnode⟩ := List.mem_flatMap.mp hnode
    obtain rfl | hnode := List.mem_cons.mp hnode
    · rwa [← Option.some.inj hraw]
    · rw [List.mem_singleton.mp hnode] at hraw
      cases hraw
  · rw [List.mem_singleton.mp hnode] at hraw
    rwa [← Option.some.inj hraw]

/-- An element with one child and white space around it. -/
theorem wrapped_value (name child : Text) {attributes attributes' : List (Text × Text)} {content : List Node}
    {before after : Text} (hbefore : blank before) (hafter : blank after) :
    (Node.element name attributes [.text before, .element child attributes' content, .text after]).value
        tag decode blank =
      .object ((child, (Node.element child attributes' content).value tag decode blank) ::
        prefixed decode attributes) := by
  have hchildren : children tag decode blank [.text before, .element child attributes' content, .text after] =
      [(child, (Node.element child attributes' content).value tag decode blank)] := rfl
  rw [object_value _ (by simp [hchildren]) (by simp [Node.raw?, hbefore, hafter]) (.inl (by simp [hchildren])),
    hchildren, List.singleton_append]

/-- The object that the parser makes of the request. -/
theorem envelope_value (hnodup : (params.map Prod.fst).Nodup)
    (hvalues : ∀ param ∈ params, blank (escapeXml param.2) = false)
    (hblank : ∀ text, (∀ c ∈ text, c ∈ ['\n', ' ']) → blank text) :
    (envelope methodName params).value tag decode blank = .object [
      ("?xml".toList, .object (prefixed decode (envelope methodName params).declaration)),
      ("soap:Envelope".toList, .object (("soap:Body".toList, .object [
          (methodName, .object (params.map (fun param => (param.1, tag (escapeXml param.2))) ++
            prefixed decode [("xmlns".toList, BOSS_NS)]))]) ::
        prefixed decode [("xmlns:soap".toList, SOAP_NS)]))] := by
  have hparams : children tag decode blank (params_content params) =
    params.map fun param => (param.1, tag (escapeXml param.2)) := children_params_content hvalues
  have hmethod : (Node.element methodName [("xmlns".toList, BOSS_NS)] (params_content params)).value tag decode blank =
      .object (params.map (fun param => (param.1, tag (escapeXml param.2))) ++
        prefixed decode [("xmlns".toList, BOSS_NS)]) := by
    rw [object_value _ (by simpa [hparams, Function.comp_def] using hnodup)
      (blank_params_content (hblank _ (by simp))) (.inr (by simp)), hparams]
  have hroot (name : Text) (node : Node) (hname : node.name? = some name) :
      children tag decode blank [node] = [(name, node.value tag decode blank)] := by
    simp [children, hname]
  rw [Document.value, hroot "soap:Envelope".toList _ rfl]
  unfold envelope
  rw [wrapped_value _ _ (hblank _ (by simp)) (hblank _ (by simp)),
    wrapped_value _ _ (hblank _ (by simp)) (hblank _ (by simp)), hmethod]
  rfl

end

/-- What `parseSoapRequest` makes of such an object. -/
theorem parse_envelope {xmlBody : Text} {declaration namespaces attributes : List (Text × JsValue)}
    {fields : List (Text × JsValue)} (hmethod : is_attribute methodName = false)
    (hattributes : ∀ field ∈ attributes, is_attribute field.1)
    (hfields : ∀ field ∈ fields, is_attribute field.1 = false) (hprintable : ∀ field ∈ fields, field.2.printable)
    (hparse : parser.parse xmlBody = .ok (.object [("?xml".toList, .object declaration),
      ("soap:Envelope".toList, .object (("soap:Body".toList, .object [(methodName, .object (fields ++ attributes))]) ::
        namespaces))])) :
    parseSoapRequest parser xmlBody = .ok (methodName, fields.map fun field => (field.1, param_text field.2)) := by
  have hfilter : (fields ++ attributes).filter (fun field => !is_attribute field.1) = fields := by
    rw [List.filter_append, List.filter_eq_self.mpr (by simpa using hfields),
      List.filter_eq_nil_iff.mpr (by simpa using hattributes), List.append_nil]
  have henvelope (fields : List (Text × JsValue)) :
      either_field (.object [("?xml".toList, .object declaration), ("soap:Envelope".toList, .object fields)])
        "soap:Envelope".toList "Envelope".toList = some (.object fields) := by
    simp [either_field, JsValue.get, JsValue.entries, List.lookup_cons, JsValue.truthy]
  have hbody (fields : List (Text × JsValue)) :
      either_field (.object (("soap:Body".toList, .object fields) :: namespaces)) "soap:Body".toList "Body".toList =
        some (.object fields) := by
    simp [either_field, JsValue.get, JsValue.entries, JsValue.truthy]
  have hkey (node : JsValue) : ((JsValue.object [(methodName, node)]).entries.map Prod.fst).find?
      (fun key => !is_attribute key) = some methodName := by
    simp [JsValue.entries, hmethod]
  have hnode (fields : List (Text × JsValue)) : ((JsValue.object [(methodName, .object fields)]).get methodName).filter
      (fun value => value.truthy && value.is_object) = some (.object fields) := by
    rw [JsValue.get, JsValue.entries, List.lookup_cons_self]
    rfl
  unfold parseSoapRequest
  rw [hparse]
  simp only [bind, Except.bind, henvelope, hbody, hkey, hnode, Option.map_some, Option.getD_some]
  simp only [JsValue.entries, hfilter]
  rw [if_neg (by simpa using hprintable)]
  rfl

/-- No name of a method or of a parameter looks like an attribute. -/
theorem apiMethods_names : ∀ method ∈ apiMethods, ∀ name ∈ method.name :: method.params,
    is_attribute name.toList = false := by
  decide

/-- The parameters of a request to the method, with its names. -/
def ApiMethod.Accepts (method : ApiMethod) (params : List (Text × Text)) : Prop :=
  (params.map Prod.fst).Nodup ∧ ∀ param ∈ params, param.1 ∈ method.params.map String.toList ∧
    param.2 ≠ [] ∧ trim param.2 = param.2

/-- What the handler gets of a request: its method, and its parameters as the parser
    reads them. -/
theorem parse_buildSoapRequest {method : ApiMethod} (hmethod : method ∈ apiMethods) (haccepts : method.Accepts params)
    (hreads : parser.Reads (envelope method.name.toList params)) :
    parseSoapRequest parser (buildSoapRequest method.name.toList params) = .ok (method.name.toList,
      params.map fun param => (param.1, param_text (parser.tag_value (escapeXml param.2)))) := by
  obtain ⟨hnodup, hparams⟩ := haccepts
  have hnames := apiMethods_names method hmethod
  have hfields : ∀ field ∈ params.map fun param => (param.1, parser.tag_value (escapeXml param.2)),
      is_attribute field.1 = false := by
    intro field hfield
    obtain ⟨param, hparam, rfl⟩ := List.mem_map.mp hfield
    obtain ⟨name, hname, heq⟩ := List.mem_map.mp (hparams param hparam).1
    rw [← heq]
    exact hnames name (List.mem_cons_of_mem _ hname)
  have hvalues : ∀ param ∈ params, decide (trim (line_feeds (escapeXml param.2)) = []) = false := by
    intro param hparam
    exact decide_eq_false (not_blank_escapeXml (hparams param hparam).2.1 (hparams param hparam).2.2)
  have hblank : ∀ text : Text, (∀ c ∈ text, c ∈ ['\n', ' ']) → decide (trim (line_feeds text) = []) :=
    fun text htext => decide_eq_true (trim_line_feeds_blank htext)
  rw [XMLParser.Reads, envelope_source fun param hparam => (hparams param hparam).2.1,
    envelope_value hnodup hvalues hblank] at hreads
  have hprintable : ∀ field ∈ params.map fun param => (param.1, parser.tag_value (escapeXml param.2)),
      field.2.printable := by
    intro field hfield
    obtain ⟨param, _, rfl⟩ := List.mem_map.mp hfield
    simp only [printable_tag_value]
  rw [parse_envelope (hnames _ List.mem_cons_self) (by simp [prefixed, is_attribute]) hfields hprintable hreads,
    List.map_map, Function.comp_def]

/-- A request comes back as its method and parameters exactly when none of the values
    has a carriage return, and each that the parser takes for a number is the text
    that `String` makes of the number. -/
theorem soap_round_trip_iff {method : ApiMethod} (hmethod : method ∈ apiMethods) (haccepts : method.Accepts params)
    (hreads : parser.Reads (envelope method.name.toList params)) :
    parseSoapRequest parser (buildSoapRequest method.name.toList params) = .ok (method.name.toList, params) ↔
      ∀ param ∈ params, '\r' ∉ param.2 ∧ ∀ number, parser.toNumber param.2 = some number → number = param.2 := by
  rw [parse_buildSoapRequest hmethod haccepts hreads, Except.ok.injEq, Prod.mk.injEq, and_iff_right rfl]
  nth_rewrite 2 [← List.map_id params]
  rw [List.map_inj_left]
  refine forall₂_congr fun param hparam => ?_
  rw [← tag_value_eq_iff (haccepts.2 param hparam).2.2]
  simp [Prod.ext_iff]

/-- How the parser takes short texts of digits. -/
def short_number (text : Text) : Option Text :=
  if text ≠ [] ∧ text.all Char.isDigit ∧ text.length ≤ 15 then some (decimal (digits text)) else none

/-- A parser with a way to parse. -/
def short_parsing (parse : Text → Except Text JsValue) : XMLParser where
  parse := parse
  toNumber := short_number
  numeric hnumber c hc := by
    obtain ⟨⟨_, hdigits, _⟩, _⟩ := Option.ite_none_right_eq_some.mp hnumber
    simp [numeric_char, List.all_eq_true.mp hdigits c hc]
  number_text hnumber c hc := by
    obtain ⟨_, hnumber⟩ := Option.ite_none_right_eq_some.mp hnumber
    rw [← Option.some.inj hnumber] at hc
    simp [Char.isAlphanum, (decimal_digits _).2 c hc]

/-- One that reads a document. -/
def document_parsing (document : Document) : XMLParser := short_parsing fun text =>
  if text = document.source then
    .ok (document.value (short_parsing .error).tag_value XMLParser.attribute_value fun raw =>
      trim (line_feeds raw) = [])
  else .error []

theorem document_parsing_reads (document : Document) : (document_parsing document).Reads document := by
  unfold XMLParser.Reads document_parsing
  exact if_pos rfl

def check_password : ApiMethod := { name := "CheckPassword", params := ["AreaGroupID", "Account", "Password"] }

/-- A request with a password. -/
def password_request (password : Text) : List (Text × Text) :=
  [("Account".toList, ['<', 'a', '&', 'b', '>']), ("Password".toList, password)]

theorem accepts_password_request {password : Text} (hne : password ≠ []) (htrim : trim password = password) :
    check_password.Accepts (password_request password) := by
  refine ⟨by simp [password_request], fun param hparam => ?_⟩
  simp only [password_request, List.mem_cons, List.not_mem_nil, or_false] at hparam
  obtain rfl | rfl := hparam
  · exact ⟨by simp [check_password], by simp, by decide⟩
  · exact ⟨by simp [check_password], hne, htrim⟩

/-- A password that looks like no number. -/
def letters_request : List (Text × Text) := password_request ['7', '0', '&', 'x']

theorem letters_round_trip :
    parseSoapRequest (document_parsing (envelope check_password.name.toList letters_request))
      (buildSoapRequest check_password.name.toList letters_request) =
        .ok (check_password.name.toList, letters_request) :=
  (soap_round_trip_iff (by simp [apiMethods, check_password]) (accepts_password_request (by simp) (by decide))
    (document_parsing_reads _)).mpr (by
      intro param hparam
      simp only [password_request, List.mem_cons, List.not_mem_nil, or_false] at hparam
      obtain rfl | rfl := hparam <;> exact ⟨by simp, by simp [document_parsing, short_parsing, short_number]⟩)

/-- The password 007 arrives as 7. -/
theorem not_soap_round_trip :
    ¬ ∀ (parser : XMLParser) (method : ApiMethod) (params : List (Text × Text)), method ∈ apiMethods →
      method.Accepts params → parser.Reads (envelope method.name.toList params) →
        parseSoapRequest parser (buildSoapRequest method.name.toList params) = .ok (method.name.toList, params) := by
  intro hall
  have hmethod : check_password ∈ apiMethods := by simp [apiMethods, check_password]
  have haccepts : check_password.Accepts (password_request ['0', '0', '7']) :=
    accepts_password_request (by simp) (by decide)
  have hsame := hall _ _ _ hmethod haccepts (document_parsing_reads _)
  rw [parse_buildSoapRequest hmethod haccepts (document_parsing_reads _), Except.ok.injEq, Prod.mk.injEq] at hsame
  have hpassword := (Prod.mk.inj (List.cons.inj (List.cons.inj hsame.2).2).1).2
  obtain ⟨_, hnumber⟩ := (tag_value_eq_iff (by decide)).mp hpassword
  exact absurd (hnumber ['7'] (by decide)) (by decide)

end aaa_server
