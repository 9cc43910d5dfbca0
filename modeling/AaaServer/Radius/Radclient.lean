import AaaServer.Radius.Shell
import AaaServer.Sql.Inet

open sql shell

namespace aaa_server

/-- The texts of `fr_tokens`. -/
def fr_tokens : List Text :=
  ["=~", "!~", "\x7b", "\x7d", "(", ")", ",", "++", "+=", "-=", ":=", "=*", "!*", "==", "^=", "=", "!=", ">=", ">",
    "<=", "<", "#", ";"].map String.toList

/-- The first token that a text begins with. -/
def token_match (text : Text) : Option Text := fr_tokens.find? (·.isPrefixOf text)

/-- The function `isspace` of C. -/
def isspace (c : Char) : Bool := c ∈ [' ', '\t', '\n', '\x0b', '\x0c', '\r']

/-- What `getthing` returns, with the text that it has copied. -/
inductive FrToken where
  | T_EOL
  | T_OP (name : Text)
  | T_BARE_WORD (word : Text)
  | T_QUOTED_STRING (quote : Char) (word : Text)

/-- The loop of `getthing` without a quote: the word, and what is left. -/
def bare_word : Text → Text × Text
  | [] => ([], [])
  | c :: text =>
    if isspace c ∨ (token_match (c :: text)).isSome ∨ c = ',' then ([], c :: text)
    else (c :: (bare_word text).1, (bare_word text).2)

/-- The loop of `getthing` after a quote, none when the string is not terminated. -/
def quoted_string (quote : Char) : Text → Option (Text × Text)
  | [] => none
  | ['\\'] => none
  | '\\' :: c :: text =>
    (quoted_string quote text).map fun (word, rest) => ((if c = quote then [c] else ['\\', c]) ++ word, rest)
  | c :: text =>
    if c = quote then some ([], text) else (quoted_string quote text).map fun (word, rest) => (c :: word, rest)

/-- The quotes that `getthing` knows. -/
def quotes : Text := ['\x27', '\x22', '\x60']

/-- The function `gettoken`. -/
def gettoken (text : Text) : Option (FrToken × Text) :=
  match text.dropWhile isspace with
  | [] => some (.T_EOL, [])
  | c :: text =>
    match token_match (c :: text) with
    | some name => some (.T_OP name, ((c :: text).drop name.length).dropWhile isspace)
    | none =>
      if c ∈ quotes then
        (quoted_string c text).map fun (word, rest) => (.T_QUOTED_STRING c word, rest.dropWhile isspace)
      else some (.T_BARE_WORD (bare_word (c :: text)).1, (bare_word (c :: text)).2.dropWhile isspace)

/-- The byte that three digits after a backslash stand for. -/
def octal (digits : Text) : Option Char :=
  if digits.all Char.isDigit then
    match digits.takeWhile (· < '8') with
    | [] => none
    | octets => some (Char.ofNat (octets.foldl (fun value c => value * 8 + digit_value c) 0 % 256))
  else none

/-- The text of a string attribute, in `value_data_from_str`. -/
def unescape : Text → Option Text
  | [] => some []
  | ['\\'] => none
  | '\\' :: 'r' :: text => (unescape text).map ('\r' :: ·)
  | '\\' :: 'n' :: text => (unescape text).map ('\n' :: ·)
  | '\\' :: 't' :: text => (unescape text).map ('\t' :: ·)
  | '\\' :: '\\' :: text => (unescape text).map ('\\' :: ·)
  | '\\' :: '\x22' :: text => (unescape text).map ('\x22' :: ·)
  | '\\' :: a :: b :: c :: text =>
    match octal [a, b, c] with
    | some x => (unescape text).map (x :: ·)
    | none => (unescape (a :: b :: c :: text)).map ('\\' :: ·)
  | c :: text => (unescape text).map (c :: ·)

/-- A string in double quotes that has an expansion is not unescaped. -/
def string_value (quote : Option Char) (word : Text) : Option Text :=
  if quote = some '\x22' ∧ ['%', '\x7b'].isPrefixOf (word.dropWhile (· ≠ '%')) then some word else unescape word

/-- An attribute of a request. -/
inductive Attribute where
  | User_Name (value : Text)
  | Framed_IP_Address (value : Nat)
  | Acct_Session_Id (value : Text)
  | other (name value : Text)

/-- The parts of `radclient` that read a list of attributes after a comma, an
    address, and a host with its port. -/
structure Radclient where
  pairs : Text → Option (List Attribute)
  fr_pton4 : Text → Option Nat
  fr_pton_port : Text → Option (Nat × Nat)
  fr_pton4_text : ∀ address : Ipv4, fr_pton4 address.text = some address.number
  fr_pton_port_text : ∀ address : Ipv4, fr_pton_port (address.text ++ ":3799".toList) = some (address.number, 3799)

/-- The values in the lines of `temp.coa`, each behind its attribute and ` = `. -/
structure TempCoa where
  UserName : Text
  framedipaddress : Text
  acctsessionid : Text

/-- The value that a token is, with its quote. -/
def FrToken.value : FrToken → Option (Option Char × Text)
  | .T_BARE_WORD word => some (none, word)
  | .T_QUOTED_STRING quote word => some (some quote, word)
  | _ => none

/-- What is on a line after a value: nothing, a comment, or a comma and more. -/
def Radclient.others (client : Radclient) : FrToken × Text → Option (List Attribute)
  | (.T_EOL, _) | (.T_OP ['#'], _) => some []
  | (.T_OP [','], rest) => if rest = [] then some [] else client.pairs rest
  | _ => none

/-- The function `fr_pair_list_afrom_str` on a line, from its value on. The function
    `make` is `fr_pair_make` for the attribute of the line. -/
def Radclient.line (client : Radclient) (make : Option Char → Text → Option Attribute) (value : Text) :
    Option (List Attribute) := do
  let (token, rest) ← gettoken value
  let (quote, word) ← token.value
  let others ← client.others (← gettoken rest)
  let pair ← make quote word
  return pair :: others

/-- The function `fr_pair_list_afrom_file`. -/
def Radclient.attributes (client : Radclient) (file : TempCoa) : Option (List Attribute) := do
  let user ← client.line (fun quote word => (string_value quote word).map .User_Name) file.UserName
  let framed ← client.line (fun _ word => (client.fr_pton4 word).map .Framed_IP_Address) file.framedipaddress
  let session ← client.line (fun quote word => (string_value quote word).map .Acct_Session_Id) file.acctsessionid
  return user ++ framed ++ session

/-- The letters of the options, and whether they take an argument. -/
def radclient_options (c : Char) : Option Bool :=
  if c ∈ "cdDfnprStP".toList then some true
  else if c ∈ "46Fhqsvx".toList then some false
  else none

/-- The function `atoi`. -/
def atoi (text : Text) : Int :=
  match text.dropWhile isspace with
  | '-' :: digits => -leading_number digits
  | '+' :: digits => leading_number digits
  | digits => leading_number digits

/-- The program goes on after an option. It stops for its help and its version; there
    are no files but the request for it to read, and no servers under IPv6. -/
def goes_on : Char × Text → Bool
  | ('c', argument) => (argument.head?.any Char.isDigit) ∧ 1 ≤ atoi argument
  | ('n', argument) | ('p', argument) => 0 < atoi argument
  | ('r', argument) => (argument.head?.any Char.isDigit) ∧ atoi argument ≠ 0 ∧ atoi argument ≤ 1000
  | ('t', argument) => argument.head?.any Char.isDigit
  | ('P', argument) => argument = "tcp".toList ∨ argument = "udp".toList
  | (c, _) => c ∈ "4Fqsx".toList

/-- A disconnect request, with the address and the port it goes to. -/
structure Disconnect where
  server : Nat × Nat
  attributes : List Attribute
  secret : Text

/-- The function `main`, with the attributes on its input: the request that it sends,
    if it is a disconnect. -/
def Radclient.main (client : Radclient) (arguments : List Text) (file : TempCoa) : Option Disconnect := do
  let found ← getopt radclient_options none arguments
  if ¬ found.options.all goes_on then none
  else
    match found.operands with
    | server :: command :: secret :: _ =>
      if command ≠ "disconnect".toList then none
      else
        let server ← client.fr_pton_port server
        let attributes ← client.attributes file
        return { server, attributes, secret }
    | _ => none

/-- A text that the program takes for the value as it stands: one bare word without
    an escape in it. -/
def Literal (text : Text) : Prop := gettoken text = some (.T_BARE_WORD text, []) ∧ unescape text = some text

/-- The characters that mean something to the shell or to the lexer. -/
def special : Text := " \t\n\x0b\x0c\r\x00!\"#'()*+,;<=>?[\\\x60\x7b\x7d".toList

/-- A text without such characters. -/
def Portable (text : Text) : Prop := text ≠ [] ∧ ∀ c ∈ text, c ∉ special

instance (text : Text) : Decidable (Portable text) :=
  decidable_of_iff (text ≠ [] ∧ text.all (· ∉ special)) (and_congr_right fun _ => List.all_iff_forall_prop)

section Lexer

variable {text word rest value : Text} {quote : Option Char} {token : FrToken}

theorem bare_word_append (text : Text) : (bare_word text).1 ++ (bare_word text).2 = text := by
  induction text with
  | nil => rfl
  | cons c text ih =>
    rw [bare_word]
    split
    · rfl
    · exact congrArg (c :: ·) ih

theorem quoted_string_shorter {quote : Char} (hquoted : quoted_string quote text = some (word, rest)) :
    word.length < text.length := by
  fun_induction quoted_string quote text generalizing word rest with
  | case1 => cases hquoted
  | case2 => cases hquoted
  | case3 c text ih =>
    obtain ⟨⟨word', rest'⟩, htail, heq⟩ := Option.map_eq_some_iff.mp hquoted
    obtain ⟨rfl, rfl⟩ := Prod.mk.inj heq
    have hlength := ih htail
    have hescape : (if c = quote then [c] else ['\\', c]).length ≤ 2 := by
      split_ifs
      · exact Nat.le_succ 1
      · exact Nat.le_refl 2
    rw [List.length_append, List.length_cons, List.length_cons]
    omega
  | case4 text =>
    cases hquoted
    exact Nat.succ_pos _
  | case5 c text _ _ _ ih =>
    obtain ⟨⟨word', rest'⟩, htail, heq⟩ := Option.map_eq_some_iff.mp hquoted
    obtain ⟨rfl, rfl⟩ := Prod.mk.inj heq
    exact Nat.succ_lt_succ (ih htail)

/-- A value is a part of its text. It is the whole text for a bare word only. -/
theorem gettoken_value (htoken : gettoken text = some (token, rest)) (hvalue : token.value = some (quote, word)) :
    word.length < text.length ∨ quote = none ∧ word = text ∧ gettoken text = some (.T_BARE_WORD text, []) := by
  have hspace : text.dropWhile isspace <:+ text := List.dropWhile_suffix _
  have hdrop := hspace.length_le
  have hgettoken := htoken
  rw [gettoken] at htoken
  cases htext : text.dropWhile isspace with
  | nil =>
    rw [htext] at htoken
    cases htoken
    cases hvalue
  | cons c text' =>
    rw [htext] at htoken hdrop hspace
    simp only at htoken
    split at htoken
    · cases htoken
      cases hvalue
    · split at htoken
      · obtain ⟨⟨word', rest'⟩, hquoted, heq⟩ := Option.map_eq_some_iff.mp htoken
        obtain ⟨rfl, rfl⟩ := Prod.mk.inj heq
        cases hvalue
        have hshorter := quoted_string_shorter hquoted
        rw [List.length_cons] at hdrop
        exact .inl (show word'.length < text.length by omega)
      · cases htoken
        cases hvalue
        have happend := congrArg List.length (bare_word_append (c :: text'))
        rw [List.length_append] at happend
        by_cases hlength : (bare_word (c :: text')).1.length < text.length
        · exact .inl hlength
        · right
          have hrest : (bare_word (c :: text')).2 = [] := List.length_eq_zero_iff.mp (by omega)
          have hall := bare_word_append (c :: text')
          rw [hrest, List.append_nil] at hall
          have heq : c :: text' = text := hspace.eq_of_length (by rw [hrest, List.length_nil] at happend; omega)
          rw [hall, heq] at hgettoken ⊢
          exact ⟨rfl, rfl, by rw [hgettoken, ← heq, hrest]; rfl⟩

/-- An escape makes a text shorter. -/
theorem unescape_or_shorter (hvalue : unescape text = some value) : value = text ∨ value.length < text.length := by
  fun_induction unescape text generalizing value with
  | case1 =>
    cases hvalue
    exact .inl rfl
  | case2 => cases hvalue
  | case3 text ih | case4 text ih | case5 text ih | case6 text ih | case7 text ih =>
    obtain ⟨value, htail, rfl⟩ := Option.map_eq_some_iff.mp hvalue
    right
    obtain rfl | hlength := ih htail
    · exact Nat.lt_succ_self _
    · exact Nat.lt_succ_of_lt (Nat.succ_lt_succ hlength)
  | case8 a b c text _ _ _ _ _ x _ ih =>
    obtain ⟨value, htail, rfl⟩ := Option.map_eq_some_iff.mp hvalue
    right
    simp only [List.length_cons]
    obtain rfl | hlength := ih htail
    · omega
    · omega
  | case9 a b c text _ _ _ _ _ _ ih | case10 c text _ _ _ _ _ _ _ ih =>
    obtain ⟨value, htail, rfl⟩ := Option.map_eq_some_iff.mp hvalue
    obtain rfl | hlength := ih htail
    · exact .inl rfl
    · exact .inr (Nat.succ_lt_succ hlength)

theorem string_value_or_shorter (hvalue : string_value quote word = some value) :
    value.length < word.length ∨ value = word ∧ (quote = none → unescape word = some word) := by
  unfold string_value at hvalue
  split_ifs at hvalue with hxlat
  · cases hvalue
    exact .inr ⟨rfl, fun hquote => absurd (hxlat.1.symm.trans hquote) nofun⟩
  · obtain rfl | hlength := unescape_or_shorter hvalue
    · exact .inr ⟨rfl, fun _ => hvalue⟩
    · exact .inl hlength

theorem unescape_of_not_mem (hslash : '\\' ∉ text) : unescape text = some text := by
  induction text with
  | nil => rfl
  | cons c text ih =>
    rw [List.mem_cons, not_or] at hslash
    obtain ⟨hc, hslash⟩ := hslash
    have hne : c ≠ '\\' := Ne.symm hc
    rw [unescape, ih hslash, Option.map_some]
    · exact fun heq => absurd heq hne
    · exact fun _ heq => absurd heq hne
    · exact fun _ heq => absurd heq hne
    · exact fun _ heq => absurd heq hne
    · exact fun _ heq => absurd heq hne
    · exact fun _ heq => absurd heq hne
    · exact fun _ _ _ _ heq => absurd heq hne

theorem isspace_of_not_special {c : Char} (hc : c ∉ special) : isspace c = false := by
  have hspaces : ∀ c ∈ [' ', '\t', '\n', '\x0b', '\x0c', '\r'], c ∈ special := List.all_iff_forall_prop.mp (by decide)
  rw [isspace, decide_eq_false_iff_not]
  exact fun hspace => hc (hspaces c hspace)

/-- No token is without a special character. -/
theorem token_match_of_not_special (htext : ∀ c ∈ text, c ∉ special) : token_match text = none := by
  have htokens : ∀ name ∈ fr_tokens, name.any (· ∈ special) = true := by decide
  rw [token_match, List.find?_eq_none]
  intro name hname hmatch
  obtain ⟨c, hc, hspecial⟩ := List.any_eq_true.mp (htokens name hname)
  rw [List.isPrefixOf_iff_prefix] at hmatch
  exact htext c (hmatch.subset hc) (of_decide_eq_true hspecial)

theorem bare_word_of_not_special (htext : ∀ c ∈ text, c ∉ special) : bare_word text = (text, []) := by
  induction text with
  | nil => rfl
  | cons c text ih =>
    have htoken := token_match_of_not_special htext
    rw [List.forall_mem_cons] at htext
    obtain ⟨hc, htext⟩ := htext
    have hcomma : c ≠ ',' := by
      rintro rfl
      exact hc (by decide)
    rw [bare_word, ih htext, htoken, isspace_of_not_special hc, if_neg]
    simpa using hcomma

theorem Portable.literal (hportable : Portable text) : Literal text := by
  obtain ⟨hne, htext⟩ := hportable
  constructor
  · obtain ⟨c, text, rfl⟩ := List.exists_cons_of_ne_nil hne
    have hc : c ∉ special := htext c List.mem_cons_self
    have hquotes : ∀ c ∈ quotes, c ∈ special := List.all_iff_forall_prop.mp (by decide)
    have hspace : (c :: text).dropWhile isspace = c :: text :=
      List.dropWhile_cons_of_neg (by rw [isspace_of_not_special hc]; exact Bool.false_ne_true)
    rw [gettoken, hspace]
    simp only [token_match_of_not_special htext, if_neg (fun hquote => hc (hquotes c hquote)),
      bare_word_of_not_special htext, List.dropWhile_nil]
  · exact unescape_of_not_mem fun hslash => htext _ hslash (by decide)

theorem Portable.is_word (hportable : Portable text) : Word text := by
  have hblank (c : Char) (hc : c ∉ special) : blank c = false := by
    rw [blank, decide_eq_false_iff_not]
    rintro (rfl | rfl | rfl)
    · exact hc (by decide)
    · exact hc (by decide)
    · exact hc (by decide)
  exact ⟨hportable.1, fun c hc => hblank c (hportable.2 c hc)⟩

theorem portable_address (address : Ipv4) : Portable address.text := by
  constructor
  · unfold Ipv4.text
    exact fun hnil => (decimal_digits address.a).1 (List.append_eq_nil_iff.mp hnil).1
  · intro c hc hspecial
    have hdigits : ∀ c ∈ special, ¬(c.isDigit ∨ c = '.') := List.all_iff_forall_prop.mp (by decide)
    exact hdigits c hspecial (Ipv4.mem_text hc)

end Lexer

section Main

variable {client : Radclient} {make : Option Char → Text → Option Attribute} {value : Text}
  {attributes : List Attribute} {pair : Attribute} {secrets : List Text} {file : TempCoa}
  {request : Disconnect}

/-- A line has an attribute for its own value. -/
theorem line_head (hline : client.line make value = some attributes) :
    ∃ quote word pair others, make quote word = some pair ∧ attributes = pair :: others ∧
      (word.length < value.length ∨
        quote = none ∧ word = value ∧ gettoken value = some (.T_BARE_WORD value, [])) := by
  simp only [Radclient.line, Option.bind_eq_bind, Option.bind_eq_some_iff, Option.pure_def, Option.some_inj] at hline
  obtain ⟨⟨token, rest⟩, htoken, ⟨quote, word⟩, hvalue, next, hnext, others, hothers, pair, hpair, rfl⟩ := hline
  exact ⟨quote, word, pair, others, hpair, rfl, gettoken_value htoken hvalue⟩

theorem line_literal (htoken : gettoken value = some (.T_BARE_WORD value, [])) (hpair : make none value = some pair) :
    client.line make value = some [pair] := by
  simp only [Radclient.line, htoken, FrToken.value, Option.bind_eq_bind, Option.bind_some, hpair]
  rfl

theorem line_string_literal {make : Text → Attribute} (hliteral : Literal value) :
    client.line (fun quote word => (string_value quote word).map make) value = some [make value] := by
  apply line_literal hliteral.1
  rw [string_value, if_neg (fun h => nomatch h.1), hliteral.2, Option.map_some]

/-- What the program makes of a value: the whole of a literal one, and a shorter text
    of another. -/
def Reads (value text : Text) : Prop := Literal value ∧ text = value ∨ ¬ Literal value ∧ text.length < value.length

theorem line_string {make : Text → Attribute} (hmake : Function.Injective make)
    (hline : client.line (fun quote word => (string_value quote word).map make) value = some attributes) :
    ∃ text others, attributes = make text :: others ∧ Reads value text := by
  obtain ⟨quote, word, pair, others, hpair, rfl, hword⟩ := line_head hline
  obtain ⟨text, htext, rfl⟩ := Option.map_eq_some_iff.mp hpair
  refine ⟨text, others, rfl, ?_⟩
  by_cases hliteral : Literal value
  · rw [line_string_literal hliteral, Option.some_inj, List.cons.injEq] at hline
    exact .inl ⟨hliteral, hmake hline.1.symm⟩
  · refine .inr ⟨hliteral, ?_⟩
    obtain hlength | ⟨rfl, hunescape⟩ := string_value_or_shorter htext
    · obtain hshorter | ⟨-, rfl, -⟩ := hword
      · omega
      · exact hlength
    · obtain hshorter | ⟨rfl, rfl, htoken⟩ := hword
      · exact hshorter
      · exact absurd ⟨htoken, hunescape rfl⟩ hliteral

/-- Every line makes an attribute at least. -/
theorem length_attributes (hattributes : client.attributes file = some attributes) : 3 ≤ attributes.length := by
  simp only [Radclient.attributes, Option.bind_eq_bind, Option.bind_eq_some_iff, Option.pure_def, Option.some_inj]
    at hattributes
  obtain ⟨users, husers, frameds, hframeds, sessions, hsessions, rfl⟩ := hattributes
  obtain ⟨-, -, user, others, -, rfl, -⟩ := line_head husers
  obtain ⟨-, -, framed, others', -, rfl, -⟩ := line_head hframeds
  obtain ⟨-, -, session, others'', -, rfl, -⟩ := line_head hsessions
  simp only [List.length_append, List.length_cons]
  omega

/-- A request with the three attributes only has read them from the values. -/
theorem reads_of_attributes {UserName framedipaddress acctsessionid user session : Text} {framed : Nat}
    (hattributes : client.attributes { UserName, framedipaddress, acctsessionid } =
      some [.User_Name user, .Framed_IP_Address framed, .Acct_Session_Id session]) :
    Reads UserName user ∧ Reads acctsessionid session := by
  simp only [Radclient.attributes, Option.bind_eq_bind, Option.bind_eq_some_iff, Option.pure_def, Option.some_inj]
    at hattributes
  obtain ⟨users, husers, frameds, hframeds, sessions, hsessions, heq⟩ := hattributes
  obtain ⟨user', others, rfl, huser⟩ := line_string (fun _ _ => Attribute.User_Name.inj) husers
  obtain ⟨-, -, pair, others', -, rfl, -⟩ := line_head hframeds
  obtain ⟨session', others'', rfl, hsession⟩ := line_string (fun _ _ => Attribute.Acct_Session_Id.inj) hsessions
  have hlength := congrArg List.length heq
  simp only [List.length_append, List.length_cons, List.length_nil] at hlength
  obtain rfl : others = [] := List.length_eq_zero_iff.mp (by omega)
  obtain rfl : others' = [] := List.length_eq_zero_iff.mp (by omega)
  obtain rfl : others'' = [] := List.length_eq_zero_iff.mp (by omega)
  simp only [List.cons_append, List.nil_append, List.cons.injEq, Attribute.User_Name.injEq,
    Attribute.Acct_Session_Id.injEq, and_true] at heq
  obtain ⟨rfl, -, rfl⟩ := heq
  exact ⟨huser, hsession⟩

theorem attributes_literal {user session : Text} (address : Ipv4) (huser : Literal user)
    (hsession : Literal session) :
    client.attributes ⟨user, address.text, session⟩ =
      some [.User_Name user, .Framed_IP_Address address.number, .Acct_Session_Id session] := by
  have hframed : client.line (fun _ word => (client.fr_pton4 word).map .Framed_IP_Address) address.text =
      some [.Framed_IP_Address address.number] := by
    apply line_literal (portable_address address).literal.1
    rw [client.fr_pton4_text, Option.map_some]
  rw [Radclient.attributes, line_string_literal huser, hframed, line_string_literal hsession]
  rfl

/-- The options that the script gives after the secret. -/
def trailing_options : List Text := ["-x", "-r", "1"].map String.toList

theorem getopt_request {server : Text} (hserver : Operand server) (arguments : List Text) :
    getopt radclient_options none (server :: "disconnect".toList :: arguments) =
      (getopt radclient_options none arguments).map fun found =>
        { found with operands := server :: "disconnect".toList :: found.operands } := by
  rw [getopt_operand hserver, getopt_operand (by decide), Option.map_map]
  rfl

/-- A single argument that becomes the secret is no option. -/
theorem operand_of_getopt {secret : Text} {found : CommandLine} {rest : List Text}
    (hfound : getopt radclient_options none (secret :: trailing_options) = some found)
    (hsecret : found.operands = secret :: rest) : Operand secret := by
  by_contra hoperand
  have hcontinue (pending : Option Char) (found : CommandLine)
      (hfound : getopt radclient_options pending trailing_options = some found) : found.operands = [] := by
    cases pending with
    | none =>
      cases hfound
      rfl
    | some c =>
      cases hfound
      rfl
  obtain ⟨hdash, hhead⟩ : secret ≠ ['-'] ∧ secret.head? = some '-' := by
    rw [Operand, not_or, not_not] at hoperand
    exact hoperand
  obtain ⟨c, text, rfl⟩ : ∃ c text, secret = '-' :: c :: text := by
    obtain ⟨text, rfl⟩ := List.head?_eq_some_iff.mp hhead
    cases text with
    | nil => exact absurd rfl hdash
    | cons c text => exact ⟨c, text, rfl⟩
  by_cases hdashes : c = '-' ∧ text = []
  · obtain ⟨rfl, rfl⟩ := hdashes
    cases hfound
    cases hsecret
  · rw [getopt] at hfound
    · split at hfound
      · cases hfound
      · obtain ⟨found', hfound', rfl⟩ := Option.map_eq_some_iff.mp hfound
        have hnil := hcontinue _ found' hfound'
        rw [hnil] at hsecret
        cases hsecret
    · exact fun hc htext => hdashes ⟨hc, htext⟩

theorem attributes_of_main {arguments : List Text} (hmain : client.main arguments file = some request) :
    client.attributes file = some request.attributes := by
  simp only [Radclient.main, Option.bind_eq_bind, Option.bind_eq_some_iff] at hmain
  obtain ⟨found, -, hmain⟩ := hmain
  split at hmain
  · cases hmain
  · split at hmain
    · split at hmain
      · cases hmain
      · simp only [Option.bind_eq_some_iff, Option.pure_def, Option.some_inj] at hmain
        obtain ⟨address, -, attributes, hattributes, rfl⟩ := hmain
        exact hattributes
    · cases hmain

/-- What a request that is sent is made of. -/
theorem main_eq_some {server : Text} (hserver : Operand server)
    (hmain : client.main (server :: "disconnect".toList :: (secrets ++ trailing_options)) file = some request) :
    client.fr_pton_port server = some request.server ∧ client.attributes file = some request.attributes ∧
      ∃ found rest, getopt radclient_options none (secrets ++ trailing_options) = some found ∧
        found.operands = request.secret :: rest := by
  simp only [Radclient.main, Option.bind_eq_bind, Option.bind_eq_some_iff, getopt_request hserver,
    Option.map_eq_some_iff] at hmain
  obtain ⟨-, ⟨found, hfound, rfl⟩, hmain⟩ := hmain
  split at hmain
  · cases hmain
  · cases hoperands : found.operands with
    | nil =>
      rw [hoperands] at hmain
      cases hmain
    | cons secret rest =>
      simp only [hoperands, ne_eq, not_true_eq_false, if_false, Option.bind_eq_some_iff, Option.pure_def,
        Option.some_inj] at hmain
      obtain ⟨address, haddress, attributes, hattributes, rfl⟩ := hmain
      exact ⟨haddress, hattributes, found, rest, hfound, hoperands⟩

theorem main_operand {server secret : Text} {address : Nat × Nat} (hserver : Operand server)
    (hsecret : Operand secret) (haddress : client.fr_pton_port server = some address)
    (hattributes : client.attributes file = some attributes) :
    client.main (server :: "disconnect".toList :: secret :: trailing_options) file =
      some { server := address, attributes, secret } := by
  have htrailing : getopt radclient_options none trailing_options =
      some { options := [('x', []), ('r', ['1'])], operands := [] } := rfl
  rw [Radclient.main, getopt_request hserver, getopt_operand hsecret, htrailing]
  simp only [Option.map_some, Option.bind_eq_bind, Option.bind_some, haddress, hattributes]
  rfl

end Main

end aaa_server
