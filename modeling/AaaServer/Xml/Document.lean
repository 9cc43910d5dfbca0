import AaaServer.Sql.Collation
import Mathlib.Data.List.Basic

namespace xml

/-- The values of a script that reads documents. A number is kept as the text
    that it is printed as, an object as its fields in their order. -/
inductive JsValue where
  | string (text : List Char)
  | number (text : List Char)
  | boolean (value : Bool)
  | object (fields : List (List Char × JsValue))
  | array (items : List JsValue)

/-- The content of a document: raw text, and elements. -/
inductive Node where
  | text (raw : List Char)
  | element (name : List Char) (attributes : List (List Char × List Char)) (content : List Node)

/-- A document: the attributes of its declaration, what stands between it and the
    root, and the root. -/
structure Document where
  declaration : List (List Char × List Char)
  space : List Char
  root : Node

namespace JsValue

mutual

/-- `String(value)`. -/
def js_string : JsValue → List Char
  | .string text => text
  | .number text => text
  | .boolean value => if value then ['t', 'r', 'u', 'e'] else ['f', 'a', 'l', 's', 'e']
  | .object _ => "[object Object]".toList
  | .array items => js_join items

def js_join : List JsValue → List Char
  | [] => []
  | [item] => item.js_string
  | item :: items => item.js_string ++ ',' :: js_join items

end

mutual

/-- `String(value)` does not throw: no object in it has a `toString` of its own, which
    is never a function in a parsed document. -/
def printable : JsValue → Bool
  | .object fields => fields.all (·.1 ≠ "toString".toList)
  | .array items => all_printable items
  | _ => true

def all_printable : List JsValue → Bool
  | [] => true
  | item :: items => item.printable && all_printable items

end

/-- `if (value)`. -/
def truthy : JsValue → Bool
  | .string text => text ≠ []
  | .number text => text ≠ "0".toList ∧ text ≠ "NaN".toList
  | .boolean value => value
  | .object _ | .array _ => true

/-- `typeof value === 'object'`. -/
def is_object : JsValue → Bool
  | .object _ | .array _ => true
  | _ => false

/-- `Object.entries(value)`. -/
def entries : JsValue → List (List Char × JsValue)
  | .object fields => fields
  | .array items => items.mapIdx fun index item => (Nat.toDigits 10 index, item)
  | .string text => text.mapIdx fun index c => (Nat.toDigits 10 index, .string [c])
  | .number _ | .boolean _ => []

/-- `value[key]`. -/
def get (value : JsValue) (key : List Char) : Option JsValue := value.entries.lookup key

end JsValue

/-- ` name="value"`. -/
def attribute_source (attr : List Char × List Char) : List Char :=
  ' ' :: attr.1 ++ "=\"".toList ++ attr.2 ++ "\"".toList

mutual

/-- The text of a node. -/
def Node.source : Node → List Char
  | .text raw => raw
  | .element name attributes content =>
    '<' :: name ++ attributes.flatMap attribute_source ++ '>' :: content_source content ++
      "</".toList ++ name ++ ">".toList

def content_source : List Node → List Char
  | [] => []
  | node :: content => node.source ++ content_source content

end

def Document.source (document : Document) : List Char :=
  "<?xml".toList ++ document.declaration.flatMap attribute_source ++ "?>".toList ++ document.space ++
    document.root.source

/-- Another child of an object. Children of one name make an array. -/
def add_field (fields : List (List Char × JsValue)) (field : List Char × JsValue) : List (List Char × JsValue) :=
  if field.1 ∈ fields.map Prod.fst then
    fields.map fun old => if old.1 = field.1 then
      (old.1, match old.2 with
        | .array items => .array (items ++ [field.2])
        | value => .array [value, field.2])
    else old
  else fields ++ [field]

/-- The value of the texts of an element, of which blank ones do not count. -/
def text_value (value : List Char → JsValue) (blank : List Char → Bool) (texts : List (List Char)) : Option JsValue :=
  match texts.filter fun raw => !blank raw with
  | [] => none
  | [raw] => some (value raw)
  | texts => some (.string (texts.flatMap fun raw => (value raw).js_string))

/-- The value of an element: its children, its text and its attributes, or only
    the text. -/
def element_value (children : List (List Char × JsValue)) (text : Option JsValue)
    (attributes : List (List Char × JsValue)) : JsValue :=
  match children.foldl add_field [], attributes, text with
  | [], [], some value => value
  | [], [], none => .string []
  | children, attributes, text =>
    .object (children ++ (text.map fun value => ("#text".toList, value)).toList ++ attributes)

def Node.raw? : Node → Option (List Char)
  | .text raw => some raw
  | .element .. => none

def Node.name? : Node → Option (List Char)
  | .text _ => none
  | .element name .. => some name

/-- The attributes under the prefix. -/
def prefixed (decode : List Char → List Char) (attributes : List (List Char × List Char)) :
    List (List Char × JsValue) :=
  attributes.map fun attr => ("@_".toList ++ attr.1, .string (decode attr.2))

mutual

/-- What a document is read as: an element as the object of what it holds, with
    its attributes under a prefix, and a text as `value` says. -/
def Node.value (value : List Char → JsValue) (decode : List Char → List Char) (blank : List Char → Bool) :
    Node → JsValue
  | .text raw => value raw
  | .element _ attributes content =>
    element_value (children value decode blank content) (text_value value blank (content.filterMap Node.raw?))
      (prefixed decode attributes)

def children (value : List Char → JsValue) (decode : List Char → List Char) (blank : List Char → Bool) :
    List Node → List (List Char × JsValue)
  | [] => []
  | node :: content =>
    (node.name?.map fun name => (name, node.value value decode blank)).toList ++ children value decode blank content

end

def Document.value (value : List Char → JsValue) (decode : List Char → List Char) (blank : List Char → Bool)
    (document : Document) : JsValue :=
  .object (("?xml".toList, .object (prefixed decode document.declaration)) ::
    children value decode blank [document.root])

variable {fields fields' : List (List Char × JsValue)} {value : List Char → JsValue} {decode : List Char → List Char}
  {blank : List Char → Bool} {texts : List (List Char)} {raw : List Char}

/-- Children of different names stay as they are. -/
theorem foldl_add_field (hnodup : ((fields ++ fields').map Prod.fst).Nodup) :
    fields'.foldl add_field fields = fields ++ fields' := by
  induction fields' generalizing fields with
  | nil => simp
  | cons child fields' ih =>
    have hnew : child.1 ∉ fields.map Prod.fst := by
      intro hmem
      rw [List.map_append, List.map_cons] at hnodup
      exact (List.nodup_append.mp hnodup).2.2 _ hmem _ List.mem_cons_self rfl
    rw [List.foldl_cons, add_field, if_neg hnew, ih (by simpa using hnodup), List.append_assoc,
      List.singleton_append]

theorem children_append (content content' : List Node) :
    children value decode blank (content ++ content') =
      children value decode blank content ++ children value decode blank content' := by
  induction content with
  | nil => rfl
  | cons node content ih => rw [List.cons_append, children, children, ih, List.append_assoc]

theorem text_value_blank (hblank : ∀ raw ∈ texts, blank raw) : text_value value blank texts = none := by
  have hfilter : texts.filter (fun raw => !blank raw) = [] := List.filter_eq_nil_iff.mpr (by simpa using hblank)
  simp only [text_value, hfilter]

/-- An element that holds only a text is read as the value of the text. -/
theorem leaf_value (name : List Char) (hraw : blank raw = false) :
    (Node.element name [] [.text raw]).value value decode blank = value raw := by
  simp [Node.value, children, Node.name?, Node.raw?, element_value, text_value, prefixed, hraw]

theorem element_value_object {attributes : List (List Char × JsValue)} (hnodup : (fields.map Prod.fst).Nodup)
    (hfields : fields ≠ [] ∨ attributes ≠ []) :
    element_value fields none attributes = .object (fields ++ attributes) := by
  have hchildren : fields.foldl add_field [] = fields := foldl_add_field (by simpa using hnodup)
  unfold element_value
  rw [hchildren]
  cases fields with
  | cons field fields => simp
  | nil =>
    cases attributes with
    | cons attr attributes => simp
    | nil => simp at hfields

/-- One that has attributes, or children of different names, and only blank text is
    read as an object. -/
theorem object_value (name : List Char) {attributes : List (List Char × List Char)} {content : List Node}
    (hnodup : ((children value decode blank content).map Prod.fst).Nodup)
    (hblank : ∀ raw ∈ content.filterMap Node.raw?, blank raw)
    (hfields : children value decode blank content ≠ [] ∨ attributes ≠ []) :
    (Node.element name attributes content).value value decode blank =
      .object (children value decode blank content ++ prefixed decode attributes) := by
  rw [Node.value, text_value_blank hblank]
  refine element_value_object hnodup (hfields.imp_right fun hattributes => ?_)
  simpa [prefixed] using hattributes

end xml
