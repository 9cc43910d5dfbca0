import AaaServer.Radius.Nas
import AaaServer.Radius.Radclient
import AaaServer.Schema.AcctRow

open sql shell

namespace aaa_server

/-- The directory in which the script is started: what a word becomes in pathname
    expansion. The names in it have no character that the shell knows. -/
structure Directory where
  expand : Text → List Text
  expand_plain : ∀ word, (∀ c ∈ word, c ∉ "*?[".toList) → expand word = [word]
  expand_names : ∀ word, expand word = [word] ∨ ∀ name ∈ expand word, Portable name

/-- What a pass of the script meets: the directory, the program `radclient`, the table
    `nas`, and what mysql prints for a statement that an address with a quote or a
    backslash has changed. -/
structure Coa where
  directory : Directory
  client : Radclient
  order : OrderByDesc
  collation : Collation
  nas : List Nas
  statement : Text → Text

/-- The rows of `QuerySQL`. -/
def QuerySQL (online_user : List AcctRow) : List (List Text) :=
  (online_user.filter (·.kickme ≠ 0)).map fun row =>
    [decimal row.radacctid, row.username ++ row.realm, row.acctsessionid, row.framedipaddress, row.nasipaddress]

/-- An expansion without quotes: it is cut into words, and each may stand for names
    in the directory. -/
def Coa.expansion (coa : Coa) (text : Text) : List Text := (words text).flatMap coa.directory.expand

/-- The result of `echo $line|awk '{print $column}'`. -/
def Coa.awk (coa : Coa) (column : Nat) (line : Text) : Text :=
  (words (echo (coa.expansion line)))[column - 1]?.getD []

/-- The result of the statement `SELECT get_coa_secret( '${nasipaddress}') `. -/
def Coa.select_coa_secret (coa : Coa) (nasipaddress : Text) : Text :=
  if '\x27' ∈ nasipaddress ∨ '\\' ∈ nasipaddress then coa.statement nasipaddress
  else
    match get_coa_secret coa.order coa.collation coa.nas nasipaddress with
    | none => "NULL".toList
    | some secret => printed secret

/-- The body of the inner loop. In `temp.coa` the quoted beginning of a line has
    blanks, so the names of the directory do not match it. -/
def Coa.disconnect (coa : Coa) (line : Text) : Option Disconnect :=
  let UserName := coa.awk 2 line
  let acctsessionid := coa.awk 3 line
  let framedipaddress := coa.awk 4 line
  let nasipaddress := coa.awk 5 line
  let secret := coa.select_coa_secret nasipaddress
  coa.client.main
    (coa.expansion (nasipaddress ++ ":3799".toList) ++ "disconnect".toList ::
      (coa.expansion secret ++ trailing_options))
    { UserName, framedipaddress, acctsessionid }

/-- One pass of the outer loop: the requests that it sends. -/
def Coa.pass (coa : Coa) (online_user : List AcctRow) : List Disconnect :=
  (while_read [] ((QuerySQL online_user).flatMap printed_row)).filterMap coa.disconnect

/-- The address of a session as an attribute, none for an empty column. -/
def CarriesAddress (framedipaddress : Text) (attributes : List Attribute) : Prop :=
  framedipaddress = [] ∧ attributes = [] ∨
    ∃ address : Ipv4, framedipaddress = address.text ∧ attributes = [.Framed_IP_Address address.number]

/-- The request is the one for this row. -/
structure Coa.RequestOf (coa : Coa) (row : AcctRow) (request : Disconnect) : Prop where
  server : ∃ address : Ipv4, row.nasipaddress = address.text ∧ request.server = (address.number, 3799)
  attributes : ∃ framed, CarriesAddress row.framedipaddress framed ∧
    request.attributes = .User_Name (row.username ++ row.realm) :: framed ++ [.Acct_Session_Id row.acctsessionid]
  secret : get_coa_secret coa.order coa.collation coa.nas row.nasipaddress = some request.secret

/-- A pass sends one request for each row with `kickme` set, and no others. -/
def Coa.Dispatched (coa : Coa) (online_user : List AcctRow) : Prop :=
  List.Forall₂ coa.RequestOf (online_user.filter (·.kickme ≠ 0)) (coa.pass online_user)

/-- A column that goes through the script as it is: one word without NUL that stands
    for itself in the directory and for `radclient`. -/
structure Coa.Kept (coa : Coa) (text : Text) : Prop where
  word : Word text
  null : '\x00' ∉ text
  expand : coa.directory.expand text = [text]
  literal : Literal text

/-- A secret that reaches `radclient` as its third argument. -/
structure Coa.KeptSecret (coa : Coa) (secret : Text) : Prop where
  word : Word secret
  printed : '\x00' ∉ secret ∧ '\\' ∉ secret
  expand : coa.directory.expand secret = [secret]
  operand : Operand secret

/-- The row is one that the script can serve. -/
structure Coa.Sendable (coa : Coa) (row : AcctRow) : Prop where
  user : coa.Kept (row.username ++ row.realm)
  session : coa.Kept row.acctsessionid
  framed : ∃ address : Ipv4, row.framedipaddress = address.text
  nas : ∃ address : Ipv4, row.nasipaddress = address.text
  secret : ∃ secret, get_coa_secret coa.order coa.collation coa.nas row.nasipaddress = some secret ∧
    coa.KeptSecret secret

/-- Each row of a table has its own entry in what a pass makes of it when each makes one. -/
theorem forall₂_filterMap_iff {Row Sent : Type} {rel : Row → Sent → Prop} {send : Row → Option Sent}
    {rows : List Row} :
    List.Forall₂ rel rows (rows.filterMap send) ↔ ∀ row ∈ rows, ∃ sent, send row = some sent ∧ rel row sent := by
  induction rows with
  | nil => exact ⟨fun _ => nofun, fun _ => .nil⟩
  | cons row rows ih =>
    rw [List.forall_mem_cons, ← ih]
    cases hsend : send row with
    | none =>
      rw [List.filterMap_cons_none hsend]
      constructor
      · intro hall
        have hlength := hall.length_eq
        have hle := List.length_filterMap_le send rows
        rw [List.length_cons] at hlength
        omega
      · rintro ⟨⟨sent, hnone, -⟩, -⟩
        cases hnone
    | some sent =>
      rw [List.filterMap_cons_some hsend, List.forall₂_cons]
      constructor
      · rintro ⟨hrel, hall⟩
        exact ⟨⟨sent, rfl, hrel⟩, hall⟩
      · rintro ⟨⟨sent', hsome, hrel⟩, hall⟩
        rw [Option.some_inj] at hsome
        exact ⟨hsome ▸ hrel, hall⟩

section Expansion

variable {coa : Coa} {text word value : Text} {line : Text}

theorem Portable.expand (coa : Coa) (hportable : Portable text) : coa.directory.expand text = [text] := by
  have hpatterns : ∀ c ∈ "*?[".toList, c ∈ special := List.all_iff_forall_prop.mp (by decide)
  exact coa.directory.expand_plain text fun c hc hpattern => hportable.2 c hc (hpatterns c hpattern)

theorem Portable.kept (coa : Coa) (hportable : Portable text) : coa.Kept text where
  word := hportable.is_word
  null := fun hnull => hportable.2 _ hnull (by decide)
  expand := hportable.expand coa
  literal := hportable.literal

theorem expansion_word (hword : Word text) (hexpand : coa.directory.expand text = [text]) :
    coa.expansion text = [text] := by
  rw [Coa.expansion, hword.words_eq, List.flatMap_singleton, hexpand]

theorem word_of_mem_expansion (hmem : word ∈ coa.expansion text) : Word word := by
  obtain ⟨word', hword', hmem⟩ := List.mem_flatMap.mp hmem
  obtain hexpand | hnames := coa.directory.expand_names word'
  · rw [hexpand, List.mem_singleton] at hmem
    exact hmem ▸ word_of_mem_words hword'
  · exact (hnames word hmem).is_word

/-- The fields of awk are the words of the expansion. -/
theorem awk_eq (coa : Coa) (column : Nat) (line : Text) :
    coa.awk column line = (coa.expansion line)[column - 1]?.getD [] := by
  rw [Coa.awk, words_echo fun _ => word_of_mem_expansion]

/-- What becomes of a column of a row between the database and awk. -/
def Coa.cut (coa : Coa) (value : Text) : List Text := coa.expansion (value.map unescaped)

theorem expansion_read_row (values : List Text) : coa.expansion (read_row values) = values.flatMap coa.cut := by
  rw [Coa.expansion, words_read_row, List.flatMap_assoc]
  rfl

theorem Coa.Kept.cut_eq (hkept : coa.Kept value) : coa.cut value = [value] := by
  rw [Coa.cut, hkept.word.map_unescaped.mpr hkept.null, expansion_word hkept.word hkept.expand]

/-- A column that `radclient` reads out of one of its own words is kept, and is its
    only word. -/
theorem kept_of_reads (hmem : word ∈ coa.cut value) (hreads : Reads word value) : coa.Kept value := by
  obtain ⟨word', hword', hmem⟩ := List.mem_flatMap.mp hmem
  obtain hexpand | hnames := coa.directory.expand_names word'
  · rw [hexpand, List.mem_singleton] at hmem
    subst hmem
    have hlength := (infix_of_mem_words hword').length_le
    rw [List.length_map] at hlength
    obtain ⟨hliteral, rfl⟩ | ⟨-, hshorter⟩ := hreads
    · have hword := word_of_mem_words hword'
      obtain ⟨hmap, -⟩ := words_eq_of_length_le hword' (List.length_map _).le
      exact ⟨hword, hword.map_unescaped.mp hmap, hexpand, hliteral⟩
    · omega
  · have hportable := hnames word hmem
    obtain ⟨-, rfl⟩ | ⟨hnot, -⟩ := hreads
    · exact hportable.kept coa
    · exact absurd hportable.literal hnot

/-- A secret that is among the arguments made of it is the only one. -/
theorem secret_of_mem_expansion (hmem : value ∈ coa.expansion (printed value)) :
    Word value ∧ printed value = value ∧ coa.directory.expand value = [value] := by
  obtain ⟨word', hword', hmem⟩ := List.mem_flatMap.mp hmem
  obtain hexpand | hnames := coa.directory.expand_names word'
  · rw [hexpand, List.mem_singleton] at hmem
    subst hmem
    exact ⟨word_of_mem_words hword', printed_of_mem_words hword', hexpand⟩
  · have hportable := hnames value hmem
    have hprinted : '\x00' ∉ value ∧ '\\' ∉ value :=
      ⟨fun hnull => hportable.2 _ hnull (by decide), fun hslash => hportable.2 _ hslash (by decide)⟩
    exact ⟨hportable.is_word, hportable.is_word.printed_eq_iff.mpr hprinted, hportable.expand coa⟩

end Expansion

section Dispatch

variable {coa : Coa} {row : AcctRow} {request : Disconnect}

/-- The line that the script reads for a row. -/
def AcctRow.line (row : AcctRow) : Text :=
  read_row [decimal row.radacctid, row.username ++ row.realm, row.acctsessionid, row.framedipaddress,
    row.nasipaddress]

theorem pass_eq (coa : Coa) (online_user : List AcctRow) :
    coa.pass online_user = (online_user.filter (·.kickme ≠ 0)).filterMap fun row => coa.disconnect row.line := by
  rw [Coa.pass, while_read_rows, QuerySQL, List.map_map, List.filterMap_map]
  rfl

theorem portable_decimal (number : Nat) : Portable (decimal number) := by
  obtain ⟨hne, hdigits⟩ := decimal_digits number
  have hspecial : ∀ c ∈ special, ¬ c.isDigit := List.all_iff_forall_prop.mp (by decide)
  exact ⟨hne, fun c hc hspecial' => hspecial c hspecial' (hdigits c hc)⟩

/-- The words of a line: the number of the row, and those of the other columns. -/
theorem expansion_line (coa : Coa) (row : AcctRow) :
    coa.expansion row.line = decimal row.radacctid :: (coa.cut (row.username ++ row.realm) ++
      (coa.cut row.acctsessionid ++ (coa.cut row.framedipaddress ++ coa.cut row.nasipaddress))) := by
  have hid : coa.cut (decimal row.radacctid) = [decimal row.radacctid] :=
    ((portable_decimal row.radacctid).kept coa).cut_eq
  simp only [AcctRow.line, expansion_read_row, List.flatMap_cons, List.flatMap_nil, List.append_nil, hid,
    List.singleton_append]

theorem cut_address (coa : Coa) (address : Ipv4) : coa.cut address.text = [address.text] :=
  ((portable_address address).kept coa).cut_eq

/-- With two addresses at the end of the line, the second and the third field are the
    name and the session only when both are kept. -/
theorem kept_of_fields {framed nas : Ipv4} (hframed : row.framedipaddress = framed.text)
    (hnas : row.nasipaddress = nas.text) (huser : Reads (coa.awk 2 row.line) (row.username ++ row.realm))
    (hsession : Reads (coa.awk 3 row.line) row.acctsessionid) :
    coa.Kept (row.username ++ row.realm) ∧ coa.Kept row.acctsessionid := by
  have hreads {text : Text} (htext : Reads framed.text text) : text = framed.text := by
    obtain ⟨-, heq⟩ | ⟨hnot, -⟩ := htext
    · exact heq
    · exact absurd (portable_address framed).literal hnot
  rw [awk_eq, expansion_line, hframed, hnas, cut_address, cut_address] at huser hsession
  cases hcut : coa.cut (row.username ++ row.realm) with
  | cons word rest =>
    rw [hcut] at huser hsession
    have hkept : coa.Kept (row.username ++ row.realm) :=
      kept_of_reads (by rw [hcut]; exact List.mem_cons_self) huser
    obtain rfl : rest = [] := by
      rw [hkept.cut_eq, List.cons.injEq] at hcut
      exact hcut.2.symm
    cases hcut' : coa.cut row.acctsessionid with
    | cons word' rest' =>
      rw [hcut'] at hsession
      exact ⟨hkept, kept_of_reads (by rw [hcut']; exact List.mem_cons_self) hsession⟩
    | nil =>
      rw [hcut'] at hsession
      rw [hreads hsession, cut_address] at hcut'
      cases hcut'
  | nil =>
    rw [hcut] at huser hsession
    cases hcut' : coa.cut row.acctsessionid with
    | nil =>
      rw [hcut'] at huser
      rw [hreads huser, cut_address] at hcut
      cases hcut
    | cons word rest =>
      rw [hcut'] at huser hsession
      cases rest with
      | nil =>
        rw [hreads hsession, cut_address, List.cons.injEq] at hcut'
        rw [← hcut'.1] at huser
        rw [hreads huser, cut_address] at hcut
        cases hcut
      | cons word' rest =>
        have hkept : coa.Kept row.acctsessionid :=
          kept_of_reads (by rw [hcut']; exact List.mem_cons_of_mem _ List.mem_cons_self) hsession
        rw [hkept.cut_eq] at hcut'
        cases hcut'

/-- The name of the server with its port. -/
def server_name (address : Ipv4) : Text := address.text ++ ":3799".toList

theorem portable_server (address : Ipv4) : Portable (server_name address) := by
  have hport : ∀ c ∈ ":3799".toList, c ∉ special := List.all_iff_forall_prop.mp (by decide)
  obtain ⟨hne, htext⟩ := portable_address address
  refine ⟨fun hnil => hne (List.append_eq_nil_iff.mp hnil).1, ?_⟩
  intro c hc
  obtain hc | hc := List.mem_append.mp hc
  · exact htext c hc
  · exact hport c hc

theorem operand_server (address : Ipv4) : Operand (server_name address) := by
  right
  rw [server_name, List.head?_append_of_ne_nil _ (portable_address address).1]
  intro hhead
  obtain hdigit | hdot := Ipv4.mem_text (List.mem_of_mem_head? hhead)
  · cases hdigit
  · cases hdot

/-- The call of `radclient` when the fields are the columns of the row. -/
theorem disconnect_eq {framed nas : Ipv4} (huser : coa.Kept (row.username ++ row.realm))
    (hsession : coa.Kept row.acctsessionid) (hframed : row.framedipaddress = framed.text)
    (hnas : row.nasipaddress = nas.text) :
    coa.disconnect row.line =
      coa.client.main (server_name nas :: "disconnect".toList ::
          (coa.expansion (coa.select_coa_secret nas.text) ++ trailing_options))
        ⟨row.username ++ row.realm, framed.text, row.acctsessionid⟩ := by
  have hserver : coa.expansion (server_name nas) = [server_name nas] :=
    expansion_word (portable_server nas).is_word ((portable_server nas).expand coa)
  have hline : coa.expansion row.line =
      [decimal row.radacctid, row.username ++ row.realm, row.acctsessionid, framed.text, nas.text] := by
    rw [expansion_line, huser.cut_eq, hsession.cut_eq, hframed, hnas, cut_address, cut_address]
    rfl
  simp only [Coa.disconnect, awk_eq, hline]
  exact congrArg (fun arguments => coa.client.main (arguments ++ _) _) hserver

theorem select_coa_secret_eq {nas : Ipv4} {secret : Text}
    (hsecret : get_coa_secret coa.order coa.collation coa.nas nas.text = some secret) :
    coa.select_coa_secret nas.text = printed secret := by
  have hplain : ¬('\x27' ∈ nas.text ∨ '\\' ∈ nas.text) := by
    rintro (hquote | hslash)
    · exact (portable_address nas).2 _ hquote (by decide)
    · exact (portable_address nas).2 _ hslash (by decide)
  rw [Coa.select_coa_secret, if_neg hplain, hsecret]

/-- The secret that `radclient` takes is the one for the server only when it is kept. -/
theorem keptSecret_of_getopt {secret : Text} {found : CommandLine} {rest : List Text}
    (hfound : getopt radclient_options none (coa.expansion (printed secret) ++ trailing_options) = some found)
    (hsecret : found.operands = secret :: rest) : coa.KeptSecret secret := by
  have htrailing : ∀ argument ∈ trailing_options, Portable argument := by decide
  have hmem : secret ∈ coa.expansion (printed secret) ++ trailing_options :=
    operands_subset hfound (by rw [hsecret]; exact List.mem_cons_self)
  obtain ⟨hword, hprinted, hexpand⟩ :
      Word secret ∧ printed secret = secret ∧ coa.directory.expand secret = [secret] := by
    obtain hmem | hmem := List.mem_append.mp hmem
    · exact secret_of_mem_expansion hmem
    · have hportable := htrailing secret hmem
      have hplain : '\x00' ∉ secret ∧ '\\' ∉ secret :=
        ⟨fun hnull => hportable.2 _ hnull (by decide), fun hslash => hportable.2 _ hslash (by decide)⟩
      exact ⟨hportable.is_word, hportable.is_word.printed_eq_iff.mpr hplain, hportable.expand coa⟩
  rw [hprinted, expansion_word hword hexpand, List.singleton_append] at hfound
  exact ⟨hword, hword.printed_eq_iff.mp hprinted, hexpand, operand_of_getopt hfound hsecret⟩

/-- A row gets its request exactly when the script can serve it. -/
theorem requestOf_iff : (∃ request, coa.disconnect row.line = some request ∧ coa.RequestOf row request) ↔
    coa.Sendable row := by
  constructor
  · rintro ⟨request, hrequest, ⟨nas, hnas, hserver⟩, ⟨frameds, hframeds, hpairs⟩, hsecret⟩
    have hattributes : coa.client.attributes ⟨coa.awk 2 row.line, coa.awk 4 row.line, coa.awk 3 row.line⟩ =
        some request.attributes := attributes_of_main hrequest
    obtain ⟨-, rfl⟩ | ⟨framed, hframed, rfl⟩ := hframeds
    · have hlength := length_attributes hattributes
      rw [hpairs] at hlength
      exact absurd hlength (by simp)
    · rw [hpairs, List.cons_append, List.singleton_append] at hattributes
      obtain ⟨huser, hsession⟩ := reads_of_attributes hattributes
      obtain ⟨huser, hsession⟩ := kept_of_fields hframed hnas huser hsession
      rw [hnas] at hsecret
      rw [disconnect_eq huser hsession hframed hnas, select_coa_secret_eq hsecret] at hrequest
      obtain ⟨-, -, found, rest, hfound, hoperands⟩ := main_eq_some (operand_server nas) hrequest
      exact ⟨huser, hsession, ⟨framed, hframed⟩, ⟨nas, hnas⟩, request.secret, by rw [hnas]; exact hsecret,
        keptSecret_of_getopt hfound hoperands⟩
  · rintro ⟨huser, hsession, ⟨framed, hframed⟩, ⟨nas, hnas⟩, secret, hsecret, hkept⟩
    have hpairs : coa.client.attributes ⟨row.username ++ row.realm, framed.text, row.acctsessionid⟩ = some _ :=
      attributes_literal framed huser.literal hsession.literal
    have hport : coa.client.fr_pton_port (server_name nas) = some (nas.number, 3799) :=
      coa.client.fr_pton_port_text nas
    have hmain := main_operand (operand_server nas) hkept.operand hport hpairs
    have hprinted := hkept.word.printed_eq_iff.mpr hkept.printed
    have hsecret' := hsecret
    rw [hnas] at hsecret'
    refine ⟨⟨(nas.number, 3799), _, secret⟩, ?_, ⟨nas, hnas, rfl⟩, ⟨_, .inr ⟨framed, hframed, rfl⟩, rfl⟩, hsecret⟩
    rw [disconnect_eq huser hsession hframed hnas, select_coa_secret_eq hsecret', hprinted,
      expansion_word hkept.word hkept.expand, List.singleton_append, hmain]
    rfl

/-- A pass of the script sends each marked session its own disconnect, and nothing
    else, exactly when each of these rows is one that the script can serve: its name
    and its session are words that the shell and `radclient` leave alone, its two
    addresses are there, and so is a secret of one word that is no option. -/
theorem dispatched_iff (coa : Coa) (online_user : List AcctRow) :
    coa.Dispatched online_user ↔ ∀ row ∈ online_user, row.kickme ≠ 0 → coa.Sendable row := by
  rw [Coa.Dispatched, pass_eq, forall₂_filterMap_iff]
  simp only [requestOf_iff, List.mem_filter, decide_eq_true_eq, and_imp]

end Dispatch

/-- A directory without a name that any word matches. -/
def empty_directory : Directory where
  expand word := [word]
  expand_plain _ _ := rfl
  expand_names _ := .inl rfl

/-- A client that knows addresses in dotted notation only. -/
def dotted_client : Radclient where
  pairs _ := none
  fr_pton4 := inet_aton
  fr_pton_port text := do
    let number ← inet_aton (text.takeWhile (· ≠ ':'))
    return (number, leading_number ((text.dropWhile (· ≠ ':')).drop 1))
  fr_pton4_text := Ipv4.inet_aton_text
  fr_pton_port_text address := by
    have hname : ∀ c ∈ address.text, decide (c ≠ ':') = true := by
      intro c hc
      rw [decide_eq_true_eq]
      rintro rfl
      obtain hdigit | hdot := Ipv4.mem_text hc
      · cases hdigit
      · cases hdot
    rw [List.takeWhile_append_of_pos hname, List.dropWhile_append_of_pos hname]
    change (inet_aton (address.text ++ [])).bind _ = _
    rw [List.append_nil, Ipv4.inet_aton_text]
    rfl

/-- One secret for all servers. -/
def bras_coa : Coa where
  directory := empty_directory
  client := dotted_client
  order := .stable
  collation := .ascii_ci
  nas := [⟨['*'], "Radius@3799".toList, 0⟩]
  statement _ := []

/-- A session that is to be disconnected. -/
def marked_session : AcctRow :=
  { radacctid := 7, username := "test".toList, realm := "@test".toList, acctsessionid := "113356".toList,
    framedipaddress := "10.140.10.120".toList, nasipaddress := "10.140.0.1".toList, kickme := 1 }

theorem bras_secret : get_coa_secret bras_coa.order bras_coa.collation bras_coa.nas marked_session.nasipaddress =
    some "Radius@3799".toList := by
  have hsort : bras_coa.order.sort (·.1) [((0 : Int), "Radius@3799".toList)] = [(0, "Radius@3799".toList)] :=
    List.perm_singleton.mp (bras_coa.order.perm _ _)
  have hloop : read_loop bras_coa.collation marked_session.nasipaddress Nas.coa bras_coa.nas none [] =
      (some "Radius@3799".toList, [(0, "Radius@3799".toList)]) := by rfl
  rw [get_coa_secret, hloop]
  simp only [OrderByDesc.first, hsort, List.head?_cons]

theorem bras_dispatched : bras_coa.Dispatched [marked_session] := by
  apply (dispatched_iff bras_coa [marked_session]).mpr
  intro row hrow _
  obtain rfl := List.mem_singleton.mp hrow
  exact {
    user := Portable.kept bras_coa (by decide)
    session := Portable.kept bras_coa (by decide)
    framed := ⟨⟨10, 140, 10, 120⟩, by decide⟩
    nas := ⟨⟨10, 140, 0, 1⟩, by decide⟩
    secret := ⟨"Radius@3799".toList, bras_secret, Portable.is_word (by decide), by decide, rfl, by decide⟩ }

/-- For a session without an address, the address of its server is taken for the
    one of the session, and there is no server left to send a request to. -/
theorem not_bras_dispatched : ¬ bras_coa.Dispatched [{ marked_session with framedipaddress := [] }] := by
  intro hdispatched
  rw [Coa.Dispatched, pass_eq, forall₂_filterMap_iff] at hdispatched
  obtain ⟨address, haddress⟩ := (requestOf_iff.mp (hdispatched _ List.mem_cons_self)).framed
  exact (portable_address address).1 haddress.symm

end aaa_server
