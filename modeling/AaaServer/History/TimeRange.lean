import AaaServer.Accounting.Radpostauth

open sql

namespace aaa_server

/-- The Java class of this name: a date and time of a clock, and by how many
    seconds the clock is ahead of UTC. -/
structure ZonedDateTime where
  dateTime : Int
  offset : Int
  deriving DecidableEq

/-- The moment, in seconds like a `Datetime`, by a clock at UTC. -/
def ZonedDateTime.instant (zdt : ZonedDateTime) : Int := zdt.dateTime - zdt.offset

/-- `default-time-zone = '+8:00'`. -/
def DEFAULT_TIME_ZONE : Int := 8 * 3600

/-- The moment of a stored value. -/
def stored_instant (datetime : Int) : Int := datetime - DEFAULT_TIME_ZONE

/-- The parameters of `GET /OfflineUser` besides the time range. -/
structure OfflineUserQuery where
  userName : Text := []
  realm : Text := []
  framedIpAddress : Text := []
  callingStationId : Text := []

/-- The parameters of `GET /radpostauth` besides the time range. -/
structure RadpostauthQuery where
  userName : Text := []
  realm : Text := []
  reply : Text := []
  callingStationId : Text := []
  nasIdentifier : Text := []

section Controllers

variable (col : Collation) (parse : Text → Option ZonedDateTime)

/-- `wrapper.eq(..)` for a parameter that does not filter when it is empty. -/
def eq_unless_empty (column param : Text) : Bool := param = [] ∨ col.key column = col.key param

/-- The date and time that the text in the format `yyyy-MM-dd HH:mm:ss` names, for
    what `ZonedDateTime.parse` makes of the parameter. The zone is left out. -/
def toMySqlDateTimeString (isoDateTime : Text) : Option Datetime := (parse isoDateTime).map ZonedDateTime.dateTime

/-- The two bounds: `some none` when a parameter is empty and nothing is filtered,
    `none` when a parameter cannot be read and the request fails. -/
def time_range (dateFrom dateTo : Text) : Option (Option (Datetime × Datetime)) :=
  if dateFrom = [] ∨ dateTo = [] then some none
  else do
    let mysqlDateFrom ← toMySqlDateTimeString parse dateFrom
    let mysqlDateTo ← toMySqlDateTimeString parse dateTo
    return some (mysqlDateFrom, mysqlDateTo)

/-- `column >= bound`, which is not true of a NULL. -/
def ge_bound (column : Option Datetime) (bound : Datetime) : Bool := column.any (bound ≤ ·)

def le_bound (column : Option Datetime) (bound : Datetime) : Bool := column.any (· ≤ bound)

def OfflineUserQuery.selects (query : OfflineUserQuery) (row : AcctRow) : Bool :=
  eq_unless_empty col row.username query.userName ∧ col.key row.realm = col.key query.realm ∧
    eq_unless_empty col row.framedipaddress query.framedIpAddress ∧
    eq_unless_empty col row.callingstationid query.callingStationId

def RadpostauthQuery.selects (query : RadpostauthQuery) (row : RadpostauthRow) : Bool :=
  eq_unless_empty col row.username query.userName ∧ col.key row.realm = col.key query.realm ∧
    eq_unless_empty col row.reply query.reply ∧ eq_unless_empty col row.callingstationid query.callingStationId ∧
    eq_unless_empty col row.nasidentifier query.nasIdentifier

/-- The three cases of an overlap. -/
def overlaps (acctstarttime acctstoptime : Option Datetime) (dateFrom dateTo : Datetime) : Bool :=
  ge_bound acctstarttime dateFrom && le_bound acctstarttime dateTo ||
    ge_bound acctstoptime dateFrom && le_bound acctstoptime dateTo ||
    le_bound acctstarttime dateFrom && ge_bound acctstoptime dateTo

/-- The rows that `GET /OfflineUser` pages through. -/
def getOfflineUser (query : OfflineUserQuery) (dateFrom dateTo : Text) (offline_user : List AcctRow) :
    Option (List AcctRow) := do
  let range ← time_range parse dateFrom dateTo
  return offline_user.filter fun row =>
    query.selects col row && range.all fun (mysqlDateFrom, mysqlDateTo) =>
      overlaps row.acctstarttime row.acctstoptime mysqlDateFrom mysqlDateTo

/-- The rows that `GET /radpostauth` pages through. -/
def getRadpostauth (query : RadpostauthQuery) (dateFrom dateTo : Text) (radpostauth : List RadpostauthRow) :
    Option (List RadpostauthRow) := do
  let range ← time_range parse dateFrom dateTo
  return radpostauth.filter fun row =>
    query.selects col row && range.all fun (mysqlDateFrom, mysqlDateTo) =>
      decide (mysqlDateFrom ≤ row.authdate) && decide (row.authdate ≤ mysqlDateTo)

/-- The row has a session that was on at a moment of the range. -/
def AcctRow.within (row : AcctRow) (zdt zdt' : ZonedDateTime) : Bool :=
  ∃ start ∈ row.acctstarttime, ∃ stop ∈ row.acctstoptime,
    stored_instant start ≤ zdt'.instant ∧ zdt.instant ≤ stored_instant stop

/-- The row has a session that does not end before it starts. -/
def AcctRow.Interval (row : AcctRow) : Prop := ∃ start ∈ row.acctstarttime, ∃ stop ∈ row.acctstoptime, start ≤ stop

/-- With the two texts, both requests select by the time that the texts name. -/
structure HistoryExact (dateFrom dateTo : Text) (zdt zdt' : ZonedDateTime) : Prop where
  offline_user : ∀ (query : OfflineUserQuery) (rows : List AcctRow), (∀ row ∈ rows, row.Interval) →
    getOfflineUser col parse query dateFrom dateTo rows =
      some (rows.filter fun row => query.selects col row && row.within zdt zdt')
  radpostauth : ∀ (query : RadpostauthQuery) (rows : List RadpostauthRow),
    getRadpostauth col parse query dateFrom dateTo rows = some (rows.filter fun row =>
      query.selects col row && decide (zdt.instant ≤ stored_instant row.authdate) &&
        decide (stored_instant row.authdate ≤ zdt'.instant))

end Controllers

variable {col : Collation} {parse : Text → Option ZonedDateTime} {dateFrom dateTo : Text} {zdt zdt' : ZonedDateTime}

/-- The case analysis: the three cases are those in which neither of the intervals
    ends before the other one starts. -/
theorem overlaps_iff {start stop first last : Int} (hinterval : start ≤ stop) (hrange : first ≤ last) :
    overlaps (some start) (some stop) first last ↔ start ≤ last ∧ first ≤ stop := by
  simp only [overlaps, ge_bound, le_bound, Option.any_some, Bool.or_eq_true, Bool.and_eq_true, decide_eq_true_eq]
  constructor
  · rintro ((⟨hfirst, hlast⟩ | ⟨hfirst, hlast⟩) | ⟨hfirst, hlast⟩)
    · exact ⟨hlast, Int.le_trans hfirst hinterval⟩
    · exact ⟨Int.le_trans hinterval hlast, hfirst⟩
    · exact ⟨Int.le_trans hfirst hrange, Int.le_trans hrange hlast⟩
  · rintro ⟨hlast, hfirst⟩
    obtain hstart | hstart := Int.le_total first start
    · exact .inl (.inl ⟨hstart, hlast⟩)
    · obtain hstop | hstop := Int.le_total stop last
      · exact .inl (.inr ⟨hfirst, hstop⟩)
      · exact .inr ⟨hstart, hstop⟩

theorem time_range_eq (hfrom : dateFrom ≠ []) (hto : dateTo ≠ []) (hparse : parse dateFrom = some zdt)
    (hparse' : parse dateTo = some zdt') :
    time_range parse dateFrom dateTo = some (some (zdt.dateTime, zdt'.dateTime)) := by
  simp [time_range, hfrom, hto, toMySqlDateTimeString, hparse, hparse']

/-- The rows of `radpostauth` are selected by the clock of the texts. -/
theorem getRadpostauth_eq (hfrom : dateFrom ≠ []) (hto : dateTo ≠ []) (hparse : parse dateFrom = some zdt)
    (hparse' : parse dateTo = some zdt') (query : RadpostauthQuery) (rows : List RadpostauthRow) :
    getRadpostauth col parse query dateFrom dateTo rows = some (rows.filter fun row => query.selects col row &&
      (decide (zdt.dateTime ≤ row.authdate) && decide (row.authdate ≤ zdt'.dateTime))) := by
  rw [getRadpostauth, time_range_eq hfrom hto hparse hparse']
  rfl

theorem getOfflineUser_eq (hfrom : dateFrom ≠ []) (hto : dateTo ≠ []) (hparse : parse dateFrom = some zdt)
    (hparse' : parse dateTo = some zdt') (query : OfflineUserQuery) (rows : List AcctRow) :
    getOfflineUser col parse query dateFrom dateTo rows = some (rows.filter fun row => query.selects col row &&
      overlaps row.acctstarttime row.acctstoptime zdt.dateTime zdt'.dateTime) := by
  rw [getOfflineUser, time_range_eq hfrom hto hparse hparse']
  rfl

/-- What the texts have to name for the authentications of a moment to be found. -/
theorem authdate_of_exact (hexact : HistoryExact col parse dateFrom dateTo zdt zdt') (hfrom : dateFrom ≠ [])
    (hto : dateTo ≠ []) (hparse : parse dateFrom = some zdt) (hparse' : parse dateTo = some zdt')
    (authdate : Int) :
    zdt.dateTime ≤ authdate ∧ authdate ≤ zdt'.dateTime ↔
      zdt.instant ≤ stored_instant authdate ∧ stored_instant authdate ≤ zdt'.instant := by
  have hrow := hexact.radpostauth {} [{ authdate }]
  rw [getRadpostauth_eq hfrom hto hparse hparse'] at hrow
  have hselects : RadpostauthQuery.selects col {} { authdate } = true := by
    simp [RadpostauthQuery.selects, eq_unless_empty]
  have hmem : ({ authdate } : RadpostauthRow) ∈ [({ authdate } : RadpostauthRow)].filter (fun row =>
        RadpostauthQuery.selects col {} row && (decide (zdt.dateTime ≤ row.authdate) &&
          decide (row.authdate ≤ zdt'.dateTime))) ↔
      ({ authdate } : RadpostauthRow) ∈ [({ authdate } : RadpostauthRow)].filter (fun row =>
        RadpostauthQuery.selects col {} row && decide (zdt.instant ≤ stored_instant row.authdate) &&
          decide (stored_instant row.authdate ≤ zdt'.instant)) := by
    rw [Option.some.inj hrow]
  simpa [hselects] using hmem

/-- Both requests select by the time that the texts name exactly when the texts have
    the offset of the database. -/
theorem history_exact_iff (hfrom : dateFrom ≠ []) (hto : dateTo ≠ []) (hparse : parse dateFrom = some zdt)
    (hparse' : parse dateTo = some zdt') (hrange : zdt.instant ≤ zdt'.instant) :
    HistoryExact col parse dateFrom dateTo zdt zdt' ↔
      zdt.offset = DEFAULT_TIME_ZONE ∧ zdt'.offset = DEFAULT_TIME_ZONE := by
  constructor
  · intro hexact
    have hauthdate := authdate_of_exact hexact hfrom hto hparse hparse'
    have hfirst := hauthdate (zdt.instant + DEFAULT_TIME_ZONE)
    have hlast := hauthdate (zdt'.instant + DEFAULT_TIME_ZONE)
    have hclock := hauthdate zdt.dateTime
    have hclock' := hauthdate zdt'.dateTime
    simp only [ZonedDateTime.instant, stored_instant] at hfirst hlast hclock hclock' hrange
    omega
  · rintro ⟨hoffset, hoffset'⟩
    have hstored (datetime : Int) : zdt.instant ≤ stored_instant datetime ↔ zdt.dateTime ≤ datetime := by
      simp only [ZonedDateTime.instant, stored_instant, hoffset]
      omega
    have hstored' (datetime : Int) : stored_instant datetime ≤ zdt'.instant ↔ datetime ≤ zdt'.dateTime := by
      simp only [ZonedDateTime.instant, stored_instant, hoffset']
      omega
    have hclocks : zdt.dateTime ≤ zdt'.dateTime := by
      simp only [ZonedDateTime.instant, hoffset, hoffset'] at hrange
      omega
    constructor
    · intro query rows hrows
      rw [getOfflineUser_eq hfrom hto hparse hparse']
      refine congrArg some (List.filter_congr fun row hrow => ?_)
      obtain ⟨start, hstart, stop, hstop, hinterval⟩ := hrows row hrow
      rw [Option.mem_def] at hstart hstop
      congr 1
      rw [Bool.eq_iff_iff, hstart, hstop, overlaps_iff hinterval hclocks]
      simp [AcctRow.within, hstart, hstop, hstored, hstored']
    · intro query rows
      rw [getRadpostauth_eq hfrom hto hparse hparse']
      simp only [hstored, hstored', Bool.and_assoc]

/-- New year at midnight, with the offset of the database and at UTC. -/
def shanghai_new_year : Text := "2024-01-01T00:00:00+08:00".toList

def shanghai_new_year_utc : Text := "2023-12-31T16:00:00Z".toList

def parse_new_year (text : Text) : Option ZonedDateTime :=
  if text = shanghai_new_year then some ⟨739251 * 86400, 8 * 3600⟩
  else if text = shanghai_new_year_utc then some ⟨739250 * 86400 + 16 * 3600, 0⟩
  else none

theorem new_year_exact :
    HistoryExact .ascii_ci parse_new_year shanghai_new_year shanghai_new_year
      ⟨739251 * 86400, 8 * 3600⟩ ⟨739251 * 86400, 8 * 3600⟩ :=
  (history_exact_iff (by decide) (by decide) (by decide) (by decide) (by decide)).mpr ⟨rfl, rfl⟩

/-- At UTC the request misses what happened in that second. -/
theorem not_history_exact :
    ¬ ∀ (col : Collation) (parse : Text → Option ZonedDateTime) (dateFrom dateTo : Text) (zdt zdt' : ZonedDateTime),
      dateFrom ≠ [] → dateTo ≠ [] → parse dateFrom = some zdt → parse dateTo = some zdt' →
        zdt.instant ≤ zdt'.instant → HistoryExact col parse dateFrom dateTo zdt zdt' := by
  intro hall
  have hparse : parse_new_year shanghai_new_year_utc = some ⟨739250 * 86400 + 16 * 3600, 0⟩ := by decide
  have hexact := hall .ascii_ci parse_new_year shanghai_new_year_utc shanghai_new_year_utc _ _
    (by decide) (by decide) hparse hparse (by decide)
  have hauthdate := authdate_of_exact hexact (by decide) (by decide) hparse hparse (739251 * 86400)
  exact absurd (hauthdate.mpr (by decide)) (by decide)

end aaa_server
