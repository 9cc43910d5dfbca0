import AaaServer.Schema.AccountInfo
import AaaServer.Radius.Nas
import AaaServer.Radius.VendorAttr

open sql

namespace aaa_server

/-- A number as a text. -/
def int_text (value : Int) : Text :=
  if value < 0 then '-' :: decimal value.natAbs else decimal value.natAbs

/-- A rate of the attribute `Class`, NULL for one that needs more than eight
    characters. -/
def class_digits (limit : Int) : Option Text :=
  let text := int_text (limit * 1024)
  if text.length > 8 ∨ limit = 0 then none else some (lpad text 8 '0')

def get_radius_class_attr (ulimit dlimit : Int) : Option Text := do
  let ustr ← class_digits ulimit
  let dstr ← class_digits dlimit
  return ustr ++ ustr ++ dstr ++ dstr

/-- The attribute of a reply item with its value. The operator of all is `:=`. -/
inductive ReplyItem where
  | Session_Timeout (value : Int)
  | Acct_Interim_Interval (value : Int)
  | Class (value : Text)
  | Attr_26 (value : Text)
  deriving DecidableEq

/-- A row of `view_radreply`. -/
structure RadreplyRow where
  id : Nat
  UserName : Text
  item : ReplyItem
  deriving DecidableEq

/-- One branch of the view: a row for every account whose value the branch does
    not leave out. -/
def reply_branch (id : Nat) (item : AccountInfo → Option ReplyItem) (account_info : List AccountInfo) :
    List RadreplyRow :=
  account_info.filterMap fun account => (item account).map (⟨id, account.UserName, ·⟩)

/-- What the branches of the view are made from, by their ids. -/
def reply_items : List (Nat × (AccountInfo → Option ReplyItem)) := [
  (1000, fun account => if account.max_session_timeout ≠ 0 then some (.Session_Timeout account.max_session_timeout)
    else none),
  (1001, fun account => if account.update_interval ≠ 0 then some (.Acct_Interim_Interval account.update_interval)
    else none),
  (1002, fun account => (get_radius_class_attr account.inbound_car account.outbound_car).map .Class),
  (1003, fun account => (get_radius_hw_attr account.inbound_car account.outbound_car).map .Attr_26),
  (1004, fun account => (get_radius_zte_attr account.inbound_car account.outbound_car).map .Attr_26),
  (1005, fun account => (get_radius_class_attr account.outbound_car account.inbound_car).map .Class),
  (1006, fun account => (get_radius_hw_attr account.outbound_car account.inbound_car).map .Attr_26),
  (1007, fun account => (get_radius_zte_attr account.outbound_car account.inbound_car).map .Attr_26)]

def view_radreply (account_info : List AccountInfo) : List RadreplyRow :=
  reply_items.flatMap fun branch => reply_branch branch.1 branch.2 account_info

/-- The condition on the id of a row, for the result of `get_reversal`. -/
def reply_condition (reversal : Option Int) (id : Nat) : Truth :=
  Truth.or
    (Truth.and (truth_of reversal).not (some (id ∈ [1000, 1001, 1002, 1003, 1004])))
    (Truth.and (truth_of reversal) (some (id ∈ [1000, 1001, 1005, 1006, 1007])))

/-- `authorize_reply_query`: the name is compared byte by byte. -/
def authorize_reply_query (order : OrderByDesc) (col : Collation) (account_info : List AccountInfo) (nas : List Nas)
    (sql_user_name nas_ip_address : Text) : List RadreplyRow :=
  let reversal := get_reversal order col nas nas_ip_address
  let rows := (view_radreply account_info).filter fun row =>
    row.UserName = sql_user_name ∧ reply_condition reversal row.id = some true
  rows.mergeSort fun a b => a.id ≤ b.id

/-- The ids of the one direction or of the other. -/
def direction_ids (reversal : Bool) : List Nat :=
  if reversal then [1000, 1001, 1005, 1006, 1007] else [1000, 1001, 1002, 1003, 1004]

/-- The items of an account in a direction. -/
def AccountInfo.reply (account : AccountInfo) (reversal : Bool) : List RadreplyRow :=
  (reply_items.filter fun branch => branch.1 ∈ direction_ids reversal).filterMap fun branch =>
    (branch.2 account).map (⟨branch.1, account.UserName, ·⟩)

section Query

variable {order : OrderByDesc} {col : Collation} {account_info : List AccountInfo} {account : AccountInfo}
  {nas : List Nas} {nas_ip_address : Text}

/-- The condition is true of the rows of one direction when the lookup has a
    result, and of no row when it is NULL. -/
theorem reply_condition_eq_true_iff {reversal : Option Int} {id : Nat} :
    reply_condition reversal id = some true ↔ ∃ value ∈ reversal, id ∈ direction_ids (value ≠ 0) := by
  unfold reply_condition
  generalize hforward : decide (id ∈ [1000, 1001, 1002, 1003, 1004]) = forward
  generalize hbackward : decide (id ∈ [1000, 1001, 1005, 1006, 1007]) = backward
  cases reversal with
  | none =>
    simp only [Option.not_mem_none, false_and, exists_false, iff_false]
    cases forward <;> cases backward <;> decide
  | some value =>
    simp only [Option.mem_some_iff, exists_eq_left', truth_of, Option.map_some]
    by_cases hvalue : value = 0
    · have hids : direction_ids (value ≠ 0) = [1000, 1001, 1002, 1003, 1004] := by
        rw [hvalue]
        rfl
      rw [hids, ← decide_eq_true_iff (p := id ∈ [1000, 1001, 1002, 1003, 1004]), hforward, hvalue]
      cases forward <;> cases backward <;> decide
    · have hids : direction_ids (value ≠ 0) = [1000, 1001, 1005, 1006, 1007] := by
        rw [direction_ids, if_pos (decide_eq_true hvalue)]
      rw [hids, ← decide_eq_true_iff (p := id ∈ [1000, 1001, 1005, 1006, 1007]), hbackward, decide_eq_true hvalue]
      cases forward <;> cases backward <;> decide

/-- A name belongs to one account. -/
theorem filter_UserName (hindex : UserNameIndexed col account_info) (haccount : account ∈ account_info) :
    account_info.filter (fun other => other.UserName = account.UserName) = [account] := by
  have hinj := List.inj_on_of_nodup_map hindex
  have hcongr : account_info.filter (fun other => other.UserName = account.UserName) =
      account_info.filter (fun other => other = account) := by
    apply List.filter_congr
    intro other hother
    simp only [decide_eq_decide]
    constructor
    · exact fun heq => hinj hother haccount (congrArg col.key heq)
    · exact fun heq => congrArg _ heq
  rw [hcongr, List.filter_eq, List.count_eq_one_of_mem hindex.of_map haccount]
  rfl

/-- Of a branch of the view, the query keeps the rows of the accounts with the
    name, or none. -/
theorem filter_reply_branch (id : Nat) (item : AccountInfo → Option ReplyItem) (name : Text) (reversal : Option Int) :
    ((reply_branch id item account_info).filter fun row =>
      row.UserName = name ∧ reply_condition reversal row.id = some true) =
      if reply_condition reversal id = some true then
        reply_branch id item (account_info.filter fun account => account.UserName = name) else [] := by
  rw [reply_branch, List.filter_filterMap]
  split
  · rename_i hcondition
    rw [reply_branch, List.filterMap_filter]
    refine List.filterMap_congr fun account _ => ?_
    by_cases hname : account.UserName = name
    · cases item account <;> simp [hname, hcondition]
    · cases item account <;> simp [hname]
  · rename_i hcondition
    refine List.filterMap_eq_nil_iff.mpr fun account _ => ?_
    cases item account <;> simp [hcondition]

private theorem flatMap_reply_branch (p : Nat → Prop) [DecidablePred p]
    (branches : List (Nat × (AccountInfo → Option ReplyItem))) :
    (branches.flatMap fun branch => if p branch.1 then reply_branch branch.1 branch.2 [account] else []) =
      (branches.filter fun branch => p branch.1).filterMap fun branch =>
        (branch.2 account).map (⟨branch.1, account.UserName, ·⟩) := by
  induction branches with
  | nil => rfl
  | cons branch branches ih =>
    rw [List.flatMap_cons, ih]
    by_cases hkept : p branch.1
    · have hcons : (branch :: branches).filter (fun branch => p branch.1) =
          branch :: branches.filter fun branch => p branch.1 := List.filter_cons_of_pos (decide_eq_true hkept)
      rw [if_pos hkept, hcons, List.filterMap_cons, reply_branch, List.filterMap_cons]
      cases branch.2 account <;> rfl
    · have hcons : (branch :: branches).filter (fun branch => p branch.1) =
          branches.filter fun branch => p branch.1 := List.filter_cons_of_neg (by simpa using hkept)
      rw [if_neg hkept, hcons, List.nil_append]

/-- The items are in the order of their ids. -/
theorem AccountInfo.reply_sorted (reversal : Bool) :
    (account.reply reversal).Pairwise fun a b => decide (a.id ≤ b.id) = true := by
  have hsorted : reply_items.Pairwise fun a b => a.1 ≤ b.1 := by
    simp [reply_items]
  refine List.Pairwise.filterMap _ ?_ (hsorted.filter _)
  intro branch branch' hle row hrow row' hrow'
  obtain ⟨item, _, rfl⟩ := Option.map_eq_some_iff.mp hrow
  obtain ⟨item', _, rfl⟩ := Option.map_eq_some_iff.mp hrow'
  exact decide_eq_true hle

/-- Where the lookup has a result, the reply has the items of one direction, and
    where it is NULL, nothing. -/
theorem authorize_reply_eq (hindex : UserNameIndexed col account_info) (haccount : account ∈ account_info) :
    authorize_reply_query order col account_info nas account.UserName nas_ip_address =
      (get_reversal order col nas nas_ip_address).elim [] fun value => account.reply (value ≠ 0) := by
  generalize hreversal : get_reversal order col nas nas_ip_address = reversal
  have hrows : ((view_radreply account_info).filter fun row =>
      row.UserName = account.UserName ∧ reply_condition reversal row.id = some true) =
      (reversal.elim [] fun value => account.reply (value ≠ 0)) := by
    simp only [view_radreply, List.filter_flatMap]
    simp only [filter_reply_branch, filter_UserName hindex haccount]
    rw [flatMap_reply_branch (fun id => reply_condition reversal id = some true)]
    cases reversal with
    | none =>
      have hnone (id : Nat) : ¬ reply_condition none id = some true := by
        rw [reply_condition_eq_true_iff]
        rintro ⟨_, hmem, _⟩
        cases hmem
      simp only [hnone, decide_false, List.filter_false, List.filterMap_nil]
      rfl
    | some value =>
      simp only [reply_condition_eq_true_iff, Option.mem_some_iff, exists_eq_left']
      rfl
  simp only [authorize_reply_query, hreversal, hrows]
  apply List.mergeSort_of_pairwise
  cases reversal with
  | none => exact .nil
  | some value => exact account.reply_sorted _

/-- The account with its limits the other way round. -/
def AccountInfo.swapped (account : AccountInfo) : AccountInfo :=
  { account with inbound_car := account.outbound_car, outbound_car := account.inbound_car }

/-- The branches of a direction. -/
theorem filter_reply_items (reversal : Bool) :
    (reply_items.filter fun branch => branch.1 ∈ direction_ids reversal) =
      if reversal then reply_items.take 2 ++ reply_items.drop 5 else reply_items.take 5 := by
  cases reversal <;> simp [reply_items, direction_ids]

/-- The items of a direction are those of the other direction for the limits the
    other way round. -/
theorem AccountInfo.items_reply_swapped (account : AccountInfo) :
    (account.reply true).map (·.item) = (account.swapped.reply false).map (·.item) := by
  have hitems (account : AccountInfo) (reversal : Bool) : (account.reply reversal).map (·.item) =
      (reply_items.filter fun branch => branch.1 ∈ direction_ids reversal).filterMap fun branch =>
        branch.2 account := by
    rw [AccountInfo.reply, List.map_filterMap]
    refine List.filterMap_congr fun branch _ => ?_
    cases branch.2 account <;> rfl
  rw [hitems, hitems, filter_reply_items, filter_reply_items]
  rfl

/-- The encoders of the rate limits, with the ids of their two directions. -/
def rate_attrs : List ((Int → Int → Option Text) × Nat × Nat) :=
  [(get_radius_class_attr, 1002, 1005), (get_radius_hw_attr, 1003, 1006), (get_radius_zte_attr, 1004, 1007)]

theorem get_radius_class_attr_eq_none_comm {u d : Int} :
    get_radius_class_attr u d = none ↔ get_radius_class_attr d u = none := by
  unfold get_radius_class_attr
  cases class_digits u <;> cases class_digits d <;> simp

/-- An encoder has a value for both directions or for none, and for none when an
    account has no limit in a direction. -/
theorem rate_attrs_spec : ∀ attr ∈ rate_attrs, ∀ u d : Int,
    (attr.1 u d = none ↔ attr.1 d u = none) ∧ (u = 0 ∨ d = 0 → attr.1 u d = none) := by
  intro attr hattr u d
  simp only [rate_attrs, List.mem_cons, List.not_mem_nil, or_false] at hattr
  obtain rfl | rfl | rfl := hattr
  · refine ⟨get_radius_class_attr_eq_none_comm, ?_⟩
    have hzero : class_digits 0 = none := rfl
    rintro (rfl | rfl)
    · show (class_digits 0 >>= fun _ => _) = none
      rw [hzero]
      rfl
    · show (class_digits u >>= fun _ => class_digits 0 >>= fun _ => _) = none
      rw [hzero]
      cases class_digits u <;> rfl
  · simp only [get_radius_hw_attr_eq_none_iff]
    exact ⟨Or.comm, id⟩
  · simp only [get_radius_zte_attr_eq_none_iff]
    exact ⟨Or.comm, id⟩

/-- Of the two directions of a rate limit that the encoder has a value for, the
    reply has one. -/
theorem AccountInfo.one_direction (reversal : Bool) : ∀ attr ∈ rate_attrs,
    attr.1 account.inbound_car account.outbound_car ≠ none →
      ((account.reply reversal).filter fun row => row.id = attr.2.1 ∨ row.id = attr.2.2).length = 1 := by
  intro attr hattr hvalue
  have hother := (rate_attrs_spec attr hattr account.inbound_car account.outbound_car).1.not.mp hvalue
  obtain ⟨forward, hforward⟩ := Option.ne_none_iff_exists'.mp hvalue
  obtain ⟨backward, hbackward⟩ := Option.ne_none_iff_exists'.mp hother
  have hbranch (branch : Nat × (AccountInfo → Option ReplyItem)) :
      (((branch.2 account).map (RadreplyRow.mk branch.1 account.UserName ·)).filter fun row =>
        row.id = attr.2.1 ∨ row.id = attr.2.2) =
      if branch.1 = attr.2.1 ∨ branch.1 = attr.2.2 then
        (branch.2 account).map (RadreplyRow.mk branch.1 account.UserName ·) else none := by
    split
    · rename_i hid
      cases branch.2 account <;> simp [hid]
    · rename_i hid
      cases branch.2 account <;> simp [not_or.mp hid]
  simp only [AccountInfo.reply, filter_reply_items, List.filter_filterMap, hbranch]
  simp only [rate_attrs, List.mem_cons, List.not_mem_nil, or_false] at hattr
  obtain rfl | rfl | rfl := hattr <;> cases reversal <;>
    simp only at hforward hbackward <;>
    simp [reply_items, hforward, hbackward]

/-- The intervals of an account are in its reply, in both directions. -/
theorem AccountInfo.intervals_mem_reply (reversal : Bool) :
    (account.max_session_timeout ≠ 0 →
      .Session_Timeout account.max_session_timeout ∈ (account.reply reversal).map (·.item)) ∧
    (account.update_interval ≠ 0 →
      .Acct_Interim_Interval account.update_interval ∈ (account.reply reversal).map (·.item)) := by
  have hmem {branch : Nat × (AccountInfo → Option ReplyItem)} {item : ReplyItem} (hbranch : branch ∈ reply_items)
      (hid : branch.1 ∈ direction_ids reversal) (hitem : branch.2 account = some item) :
      item ∈ (account.reply reversal).map (·.item) :=
    List.mem_map.mpr ⟨⟨branch.1, account.UserName, item⟩,
      List.mem_filterMap.mpr ⟨branch, List.mem_filter.mpr ⟨hbranch, decide_eq_true hid⟩, by rw [hitem]; rfl⟩, rfl⟩
  constructor
  · intro htimeout
    refine hmem List.mem_cons_self ?_ (if_pos htimeout)
    cases reversal <;> decide
  · intro hinterval
    refine hmem (List.mem_cons_of_mem _ List.mem_cons_self) ?_ (if_pos hinterval)
    cases reversal <;> decide

/-- What a request is to be answered with: the intervals of the account, each of
    its rate limits in one direction, and for an NAS with `reversal` set what an
    NAS without it gets for the limits the other way round. -/
structure CompleteReply (order : OrderByDesc) (col : Collation) (account_info : List AccountInfo)
    (account : AccountInfo) (nas : List Nas) (nas_ip_address : Text) : Prop where
  session_timeout : account.max_session_timeout ≠ 0 →
    .Session_Timeout account.max_session_timeout ∈
      (authorize_reply_query order col account_info nas account.UserName nas_ip_address).map (·.item)
  interim_interval : account.update_interval ≠ 0 →
    .Acct_Interim_Interval account.update_interval ∈
      (authorize_reply_query order col account_info nas account.UserName nas_ip_address).map (·.item)
  one_direction : ∀ attr ∈ rate_attrs, attr.1 account.inbound_car account.outbound_car ≠ none →
    ((authorize_reply_query order col account_info nas account.UserName nas_ip_address).filter fun row =>
      row.id = attr.2.1 ∨ row.id = attr.2.2).length = 1
  symmetric : ∀ (account_info' : List AccountInfo) (nas' : List Nas) (nas_ip_address' : Text) (reversal : Int),
    UserNameIndexed col account_info' → account.swapped ∈ account_info' →
    get_reversal order col nas nas_ip_address = some reversal → reversal ≠ 0 →
    get_reversal order col nas' nas_ip_address' = some 0 →
    (authorize_reply_query order col account_info nas account.UserName nas_ip_address).map (·.item) =
      (authorize_reply_query order col account_info' nas' account.UserName nas_ip_address').map (·.item)

/-- A reply with an item comes from a lookup with a result. -/
theorem reversal_of_reply (hindex : UserNameIndexed col account_info) (haccount : account ∈ account_info)
    (hne : authorize_reply_query order col account_info nas account.UserName nas_ip_address ≠ []) :
    ∃ value, get_reversal order col nas nas_ip_address = some value := by
  rw [authorize_reply_eq hindex haccount] at hne
  cases hreversal : get_reversal order col nas nas_ip_address with
  | none =>
    rw [hreversal] at hne
    exact absurd rfl hne
  | some value => exact ⟨value, rfl⟩

/-- A request is answered completely exactly when a row of `nas` covers its NAS,
    or when the account has nothing to answer with. -/
theorem complete_reply_iff (hindex : UserNameIndexed col account_info) (haccount : account ∈ account_info) :
    CompleteReply order col account_info account nas nas_ip_address ↔
      (account.max_session_timeout = 0 ∧ account.update_interval = 0 ∧
        (account.inbound_car = 0 ∨ account.outbound_car = 0)) ∨
      ∃ row ∈ nas, row.covers col nas_ip_address := by
  rw [← get_reversal_isSome_iff order]
  constructor
  · intro hcomplete
    by_cases htimeout : account.max_session_timeout = 0
    · by_cases hinterval : account.update_interval = 0
      · by_cases hlimits : account.inbound_car = 0 ∨ account.outbound_car = 0
        · exact .inl ⟨htimeout, hinterval, hlimits⟩
        · have hlength := hcomplete.one_direction (get_radius_hw_attr, 1003, 1006) (by simp [rate_attrs])
            (get_radius_hw_attr_eq_none_iff.not.mpr hlimits)
          refine .inr (reversal_of_reply hindex haccount ?_)
          intro hreply
          rw [hreply] at hlength
          cases hlength
      · have hitem := hcomplete.interim_interval hinterval
        refine .inr (reversal_of_reply hindex haccount ?_)
        intro hreply
        rw [hreply] at hitem
        cases hitem
    · have hitem := hcomplete.session_timeout htimeout
      refine .inr (reversal_of_reply hindex haccount ?_)
      intro hreply
      rw [hreply] at hitem
      cases hitem
  · intro hcondition
    have hsymmetric : ∀ (account_info' : List AccountInfo) (nas' : List Nas) (nas_ip_address' : Text) (reversal : Int),
        UserNameIndexed col account_info' → account.swapped ∈ account_info' →
        get_reversal order col nas nas_ip_address = some reversal → reversal ≠ 0 →
        get_reversal order col nas' nas_ip_address' = some 0 →
        (authorize_reply_query order col account_info nas account.UserName nas_ip_address).map (·.item) =
          (authorize_reply_query order col account_info' nas' account.UserName nas_ip_address').map (·.item) := by
      intro account_info' nas' nas_ip_address' reversal hindex' haccount' hreversal hset hreversal'
      rw [authorize_reply_eq hindex haccount, hreversal, Option.elim_some, decide_eq_true hset,
        account.items_reply_swapped]
      exact congrArg (List.map (·.item))
        ((authorize_reply_eq hindex' haccount').trans (by rw [hreversal'])).symm
    obtain ⟨htimeout, hinterval, hlimits⟩ | ⟨value, hreversal⟩ := hcondition
    · refine ⟨fun h => absurd htimeout h, fun h => absurd hinterval h, ?_, hsymmetric⟩
      intro attr hattr hvalue
      exact absurd ((rate_attrs_spec attr hattr _ _).2 hlimits) hvalue
    · have hreply : authorize_reply_query order col account_info nas account.UserName nas_ip_address =
          account.reply (value ≠ 0) := by
        rw [authorize_reply_eq hindex haccount, hreversal]
        rfl
      refine ⟨?_, ?_, ?_, hsymmetric⟩ <;> rw [hreply]
      · exact (AccountInfo.intervals_mem_reply _).1
      · exact (AccountInfo.intervals_mem_reply _).2
      · exact fun attr hattr hvalue => AccountInfo.one_direction _ attr hattr hvalue

end Query

/-- An account with an interval for its accounting. -/
def grace : AccountInfo :=
  { id := "1".toList, user_name := "grace".toList, realm := "@lan".toList, valid_date := none, modify_date := 0,
    update_interval := 600 }

theorem grace_complete_reply :
    CompleteReply .stable .ascii_ci [grace] grace [⟨"*".toList, [], 0⟩] "10.0.0.1".toList :=
  (complete_reply_iff (by decide) List.mem_cons_self).mpr
    (.inr ⟨_, List.mem_cons_self, 0, by decide⟩)

/-- From an NAS outside 192.168.0.0/16, the only row, its interval is not in the
    reply. -/
theorem grace_not_complete_reply :
    ¬ CompleteReply .stable .ascii_ci [grace] grace (lan_entries.map NasEntry.row) (Ipv4.mk 10 0 0 1).text := by
  intro hcomplete
  have hitem := hcomplete.interim_interval (by decide)
  have hreversal : get_reversal .stable .ascii_ci (lan_entries.map NasEntry.row) (Ipv4.mk 10 0 0 1).text = none :=
    (lookup_of_no_match .stable (by decide) (by decide)).1
  rw [authorize_reply_eq (by decide) List.mem_cons_self, hreversal] at hitem
  cases hitem

end aaa_server
