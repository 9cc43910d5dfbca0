import AaaServer.Migration.Loop

open sql python

namespace aaa_server

variable {Table : Type} {decimal : Char → Option Nat} {upsert : Fetched → AccountInfo → Table → Table}

/-- A row that is converted: none of its three texts is infinite. -/
def Fetched.Converts (decimal : Char → Option Nat) (item : Fetched) : Prop :=
  ¬ Infinite decimal item.row.SIMULTANEOUS ∧ ¬ Infinite decimal item.row.TIMEOUT ∧
    ¬ Infinite decimal item.row.INTERVAL

instance (decimal : Char → Option Nat) (item : Fetched) : Decidable (item.Converts decimal) :=
  inferInstanceAs (Decidable (¬ (_ = true) ∧ ¬ (_ = true) ∧ ¬ (_ = true)))

/-- The rows that do not fail themselves, in the batches whose commit does not. -/
def unhindered (decimal : Char → Option Nat) : List (List Fetched) → (Nat → Commit) → List Fetched
  | [], _ => []
  | batch :: rest, commits =>
    (if commits 0 = .done then batch.filter fun item => item.Converts decimal ∧ item.attempt = .written else []) ++
      unhindered decimal rest fun n => commits (n + 1)

/-- The books of a run: it reaches the end of the source, its counts add up to the
    rows read, the rows it counts as migrated are those that are durable, and no
    row is missing because another one has failed. -/
structure Bookkept (decimal : Char → Option Nat) (source : List Fetched) (commits : Nat → Commit)
    (result : Progress Table × Bool) : Prop where
  finished : result.2 = true
  total : result.1.total_ok + result.1.total_err = source.length
  durable : result.1.total_ok = result.1.migrated.length
  isolated : result.1.migrated = unhindered decimal (batches source) commits

/-- A batch that a run takes in order: its rows are converted, it is committed, and
    no upsert takes one that has been written before it back with it. -/
structure InOrder (decimal : Char → Option Nat) (commit : Commit) (batch : List Fetched) : Prop where
  converts : ∀ item ∈ batch, item.Converts decimal
  committed : commit = .done
  unbroken : batch.Pairwise fun item later => item.attempt = .written → later.attempt ≠ .rolled_back

section Fetch

variable {A : Type}

theorem fetch_flatten {fuel : Nat} {rows : List A} (hfuel : rows.length ≤ fuel) : (fetch fuel rows).flatten = rows := by
  induction fuel generalizing rows with
  | zero =>
    rw [List.length_eq_zero_iff.mp (Nat.le_zero.mp hfuel)]
    rfl
  | succ fuel ih =>
    cases rows with
    | nil => rfl
    | cons row rows =>
      have hrest : ((row :: rows).drop BATCH_SIZE).length ≤ fuel := by
        rw [List.length_drop]
        simp only [List.length_cons, BATCH_SIZE] at hfuel ⊢
        omega
      rw [fetch, List.flatten_cons, ih hrest, List.take_append_drop]

/-- The batches are the rows of the source, in order. -/
theorem batches_flatten (rows : List A) : (batches rows).flatten = rows :=
  fetch_flatten (Nat.le_refl _)

theorem fetch_ne_nil {fuel : Nat} {rows batch : List A} (hmem : batch ∈ fetch fuel rows) : batch ≠ [] := by
  induction fuel generalizing rows with
  | zero => cases hmem
  | succ fuel ih =>
    cases rows with
    | nil => cases hmem
    | cons row rows =>
      rw [fetch, List.mem_cons] at hmem
      obtain rfl | hmem := hmem
      · exact List.cons_ne_nil row _
      · exact ih hmem

end Fetch

/-- A batch is converted when each of its rows is, and its records come in its order. -/
theorem convert_batch_cases (batch : List Fetched) :
    (∃ records, convert_batch decimal batch = .ok records ∧ records.map Prod.fst = batch ∧
      ∀ item ∈ batch, item.Converts decimal) ∨
    (∃ e, convert_batch decimal batch = .error e) ∧ ¬ ∀ item ∈ batch, item.Converts decimal := by
  induction batch with
  | nil => exact .inl ⟨[], rfl, rfl, by simp⟩
  | cons item batch ih =>
    cases hrow : row_to_account_info decimal item.id item.now item.row with
    | error e =>
      refine .inr ⟨⟨e, ?_⟩, fun hall => ?_⟩
      · rw [convert_batch, List.mapM_cons, hrow]
        rfl
      · obtain ⟨rec, hrec⟩ := row_to_account_info_ok_iff.mpr (hall item List.mem_cons_self)
        rw [hrow] at hrec
        cases hrec
    | ok rec =>
      have hitem : item.Converts decimal := row_to_account_info_ok_iff.mp ⟨rec, hrow⟩
      obtain ⟨records, hrecords, hfst, hall⟩ | ⟨⟨e, herror⟩, hnot⟩ := ih
      · refine .inl ⟨(item, rec) :: records, ?_, ?_, List.forall_mem_cons.mpr ⟨hitem, hall⟩⟩
        · rw [convert_batch] at hrecords
          rw [convert_batch, List.mapM_cons, hrow, hrecords]
          rfl
        · rw [List.map_cons, hfst]
      · refine .inr ⟨⟨e, ?_⟩, fun hall => hnot (List.forall_mem_cons.mp hall).2⟩
        rw [convert_batch] at herror
        rw [convert_batch, List.mapM_cons, hrow, herror]
        rfl

/-- The rows of a batch that its transaction still holds at the end. -/
def kept (written : List Fetched) : List Fetched → List Fetched
  | [] => written
  | item :: rest => match item.attempt with
    | .written => kept (written ++ [item]) rest
    | .refused => kept written rest
    | .rolled_back => kept [] rest

theorem write_row_counts {before : Table} {item : Fetched} {rec : AccountInfo} {pending : Pending Table} :
    let result := write_row upsert before item rec pending
    result.total_ok = pending.total_ok + (if item.attempt = .written then 1 else 0) ∧
      result.total_ok + result.total_err = pending.total_ok + pending.total_err + 1 ∧
      ∀ rest, kept result.written rest = kept pending.written (item :: rest) := by
  simp only [write_row, kept]
  cases item.attempt with
  | written => exact ⟨rfl, by simp only; omega, fun _ => rfl⟩
  | refused => exact ⟨rfl, by simp only; omega, fun _ => rfl⟩
  | rolled_back => exact ⟨rfl, by simp only; omega, fun _ => rfl⟩

/-- What the loop over the records does to the counts. -/
theorem write_rows_counts {before : Table} {records : List (Fetched × AccountInfo)} {pending : Pending Table} :
    let result := write_rows upsert before records pending
    result.total_ok = pending.total_ok + (records.map Prod.fst).countP (·.attempt = .written) ∧
      result.total_ok + result.total_err = pending.total_ok + pending.total_err + records.length ∧
      result.written = kept pending.written (records.map Prod.fst) := by
  induction records generalizing pending with
  | nil => exact ⟨rfl, rfl, rfl⟩
  | cons record records ih =>
    obtain ⟨item, rec⟩ := record
    obtain ⟨hok, htotal, hwritten⟩ := @ih (write_row upsert before item rec pending)
    obtain ⟨hok', htotal', hwritten'⟩ := @write_row_counts Table upsert before item rec pending
    simp only [write_rows, List.map_cons, List.countP_cons, List.length_cons, decide_eq_true_eq]
    refine ⟨?_, ?_, ?_⟩
    · rw [hok, hok']
      omega
    · rw [htotal, htotal']
      omega
    · rw [hwritten, hwritten']

/-- The transaction holds at most what has been written, and it holds all of it
    when no upsert takes one before it back. -/
theorem length_kept (written batch : List Fetched) :
    (kept written batch).length ≤ written.length + batch.countP (·.attempt = .written) ∧
    ((kept written batch).length = written.length + batch.countP (·.attempt = .written) ↔
      (written ≠ [] → ∀ item ∈ batch, item.attempt ≠ .rolled_back) ∧
        batch.Pairwise fun item later => item.attempt = .written → later.attempt ≠ .rolled_back) := by
  induction batch generalizing written with
  | nil => simp [kept]
  | cons item batch ih =>
    rw [kept, List.countP_cons, List.pairwise_cons, List.forall_mem_cons]
    cases hattempt : item.attempt with
    | written =>
      obtain ⟨hle, heq⟩ := ih (written ++ [item])
      rw [List.length_append, List.length_singleton] at hle heq
      simp only [decide_true, if_true]
      refine ⟨by omega, ?_⟩
      rw [show written.length + (batch.countP (·.attempt = .written) + 1) =
        written.length + 1 + batch.countP (·.attempt = .written) by omega, heq]
      simp only [ne_eq, List.append_eq_nil_iff, List.cons_ne_self, and_false, not_false_eq_true, true_implies,
        reduceCtorEq, true_and]
      constructor
      · rintro ⟨hall, hpairs⟩
        exact ⟨fun _ => hall, hall, hpairs⟩
      · rintro ⟨_, hall, hpairs⟩
        exact ⟨hall, hpairs⟩
    | refused =>
      obtain ⟨hle, heq⟩ := ih written
      simp only [reduceCtorEq, decide_false, Bool.false_eq_true, if_false, Nat.add_zero]
      refine ⟨hle, heq.trans ?_⟩
      simp
    | rolled_back =>
      obtain ⟨hle, heq⟩ := ih []
      simp only [reduceCtorEq, decide_false, Bool.false_eq_true, if_false, Nat.add_zero]
      rw [List.length_nil, Nat.zero_add] at hle heq
      refine ⟨by omega, ?_⟩
      by_cases hnil : written = []
      · rw [hnil, List.length_nil, Nat.zero_add, heq]
        simp
      · have hpos : 0 < written.length := List.length_pos_iff.mpr hnil
        constructor
        · intro hlength
          omega
        · rintro ⟨hall, _⟩
          exact absurd rfl (hall hnil).1

/-- And then it is all that has been written. -/
theorem kept_eq_filter {written batch : List Fetched}
    (hwritten : written ≠ [] → ∀ item ∈ batch, item.attempt ≠ .rolled_back)
    (hpairs : batch.Pairwise fun item later => item.attempt = .written → later.attempt ≠ .rolled_back) :
    kept written batch = written ++ batch.filter (·.attempt = .written) := by
  induction batch generalizing written with
  | nil => simp [kept]
  | cons item batch ih =>
    rw [List.pairwise_cons] at hpairs
    rw [kept, List.filter_cons]
    cases hattempt : item.attempt with
    | written =>
      rw [ih (fun _ => fun later hlater => hpairs.1 later hlater hattempt) hpairs.2]
      simp
    | refused =>
      rw [ih (fun hne later hlater => hwritten hne later (List.mem_cons_of_mem item hlater)) hpairs.2]
      simp
    | rolled_back =>
      have hnil : written = [] := by
        by_contra hne
        exact hwritten hne item List.mem_cons_self hattempt
      rw [ih (fun hne => absurd rfl hne) hpairs.2, hnil]
      simp

/-- A round of the loop: the run ends, or the commit fails and the rows are counted
    twice, or the batch is committed. -/
theorem run_batch_cases {commit : Commit} {batch : List Fetched} {progress : Progress Table} :
    let result := run_batch decimal upsert commit batch progress
    (result.2 = false ∧ ¬ InOrder decimal commit batch) ∨
    (result.2 = true ∧ commit = .failed ∧ result.1.migrated = progress.migrated ∧
      progress.total_ok ≤ result.1.total_ok ∧ result.1.total_ok + result.1.total_err =
        progress.total_ok + progress.total_err + batch.length + batch.length) ∨
    (result.2 = true ∧ commit = .done ∧ (∀ item ∈ batch, item.Converts decimal) ∧
      result.1.migrated = progress.migrated ++ kept [] batch ∧
      result.1.total_ok = progress.total_ok + batch.countP (·.attempt = .written) ∧
      result.1.total_ok + result.1.total_err = progress.total_ok + progress.total_err + batch.length) := by
  intro result
  obtain ⟨records, hrecords, hfst, hall⟩ | ⟨⟨e, herror⟩, hnot⟩ := @convert_batch_cases decimal batch
  · obtain ⟨hok, htotal, hwritten⟩ := @write_rows_counts Table upsert progress.table records {
      table := progress.table, total_ok := progress.total_ok, total_err := progress.total_err }
    have hlength : records.length = batch.length := by rw [← hfst, List.length_map]
    rw [hfst] at hok hwritten
    rw [hlength] at htotal
    have hresult : result = run_batch decimal upsert commit batch progress := rfl
    simp only [run_batch, hrecords] at hresult
    cases commit with
    | done =>
      refine .inr (.inr ⟨?_, rfl, hall, ?_, ?_, ?_⟩)
      · rw [hresult]
      · rw [hresult, hwritten]
      · rw [hresult, hok]
      · rw [hresult]
        exact htotal
    | failed =>
      refine .inr (.inl ⟨?_, rfl, ?_, ?_, ?_⟩)
      · rw [hresult]
      · rw [hresult]
      · rw [hresult, hok]
        exact Nat.le_add_right _ _
      · rw [hresult]
        exact (Nat.add_assoc _ _ _).symm.trans (congrArg (· + batch.length) htotal)
    | broken durable =>
      refine .inl ⟨by rw [hresult], fun horder => ?_⟩
      cases horder.committed
  · refine .inl ⟨?_, fun horder => hnot horder.converts⟩
    show (run_batch decimal upsert commit batch progress).2 = false
    rw [run_batch, herror]

/-- A condition on each batch and its commit. -/
def EachBatch (p : Commit → List Fetched → Prop) (batches : List (List Fetched)) (commits : Nat → Commit) : Prop :=
  ∀ n batch, batches[n]? = some batch → p (commits n) batch

theorem eachBatch_cons {p : Commit → List Fetched → Prop} {batch : List Fetched} {rest : List (List Fetched)}
    {commits : Nat → Commit} : EachBatch p (batch :: rest) commits ↔
      p (commits 0) batch ∧ EachBatch p rest fun n => commits (n + 1) := by
  constructor
  · intro heach
    exact ⟨heach 0 batch rfl, fun n other hother => heach (n + 1) other hother⟩
  · rintro ⟨hfirst, hrest⟩ n other hother
    cases n with
    | zero =>
      rw [← Option.some.inj hother]
      exact hfirst
    | succ n => exact hrest n other hother

/-- The counts of a run that reaches the end are never too small. -/
theorem run_batches_bounds {rest : List (List Fetched)} {commits : Nat → Commit} {progress : Progress Table}
    (hfinished : (run_batches decimal upsert rest commits progress).2 = true) :
    let result := (run_batches decimal upsert rest commits progress).1
    progress.total_ok + progress.total_err + rest.flatten.length ≤ result.total_ok + result.total_err ∧
      progress.total_ok + result.migrated.length ≤ result.total_ok + progress.migrated.length := by
  induction rest generalizing commits progress with
  | nil => exact ⟨Nat.le_refl _, Nat.le_refl _⟩
  | cons batch rest ih =>
    rw [run_batches] at hfinished ⊢
    rw [List.flatten_cons, List.length_append]
    have hcases := @run_batch_cases Table decimal upsert (commits 0) batch progress
    cases hbatch : run_batch decimal upsert (commits 0) batch progress with
    | mk progress' goes_on =>
      rw [hbatch] at hfinished hcases
      obtain ⟨hfalse, _⟩ | ⟨htrue, _, hmigrated, hle, htotal⟩ | ⟨htrue, _, _, hmigrated, hok, htotal⟩ := hcases
      · simp only at hfalse
        subst hfalse
        cases hfinished
      · simp only at htrue hmigrated hle htotal
        subst htrue
        obtain ⟨hsum, hdurable⟩ := ih hfinished
        rw [hmigrated] at hdurable
        simp only at hsum hdurable ⊢
        omega
      · simp only at htrue hmigrated hok htotal
        subst htrue
        obtain ⟨hsum, hdurable⟩ := ih hfinished
        have hkept := (length_kept [] batch).1
        rw [hmigrated, List.length_append] at hdurable
        rw [List.length_nil] at hkept
        simp only at hsum hdurable ⊢
        omega

/-- A run keeps its books exactly when it takes every batch in order. -/
theorem run_batches_iff {rest : List (List Fetched)} {commits : Nat → Commit} {progress : Progress Table}
    (hne : ∀ batch ∈ rest, batch ≠ []) :
    let result := run_batches decimal upsert rest commits progress
    (result.2 = true ∧
      result.1.total_ok + result.1.total_err = progress.total_ok + progress.total_err + rest.flatten.length ∧
      progress.total_ok + result.1.migrated.length = result.1.total_ok + progress.migrated.length ↔
        EachBatch (InOrder decimal) rest commits) ∧
    (EachBatch (InOrder decimal) rest commits →
      result.1.migrated = progress.migrated ++ unhindered decimal rest commits) := by
  induction rest generalizing commits progress with
  | nil =>
    refine ⟨⟨fun _ n batch hbatch => ?_, fun _ => ⟨rfl, rfl, rfl⟩⟩, fun _ => (List.append_nil _).symm⟩
    cases hbatch
  | cons batch rest ih =>
    have hne' := (List.forall_mem_cons.mp hne).2
    have hpos : 0 < batch.length := List.length_pos_iff.mpr (hne batch List.mem_cons_self)
    rw [run_batches, List.flatten_cons, List.length_append, eachBatch_cons]
    have hcases := @run_batch_cases Table decimal upsert (commits 0) batch progress
    cases hbatch : run_batch decimal upsert (commits 0) batch progress with
    | mk progress' goes_on =>
      rw [hbatch] at hcases
      obtain ⟨hfalse, hnot⟩ | ⟨htrue, hcommit, hmigrated, hle, htotal⟩ |
        ⟨htrue, hcommit, hall, hmigrated, hok, htotal⟩ := hcases
      · simp only at hfalse
        subst hfalse
        exact ⟨⟨fun h => absurd h.1 Bool.false_ne_true, fun h => absurd h.1 hnot⟩, fun h => absurd h.1 hnot⟩
      · have hnot : ¬ InOrder decimal (commits 0) batch := by
          intro horder
          rw [horder.committed] at hcommit
          cases hcommit
        simp only at htrue hmigrated hle htotal
        subst htrue
        refine ⟨⟨?_, fun h => absurd h.1 hnot⟩, fun h => absurd h.1 hnot⟩
        rintro ⟨hfinished, hsum, _⟩
        have hbound := (run_batches_bounds hfinished).1
        simp only at hbound hsum
        omega
      · simp only at htrue hmigrated hok htotal
        subst htrue
        obtain ⟨hkept, hkept_iff⟩ := length_kept [] batch
        rw [List.length_nil, Nat.zero_add] at hkept hkept_iff
        obtain ⟨hiff, hrows⟩ := @ih (fun n => commits (n + 1)) progress' hne'
        have hlength : progress'.migrated.length = progress.migrated.length + (kept [] batch).length := by
          rw [hmigrated, List.length_append]
        constructor
        · constructor
          · rintro ⟨hfinished, hsum, hdurable⟩
            obtain ⟨hbound, hbound'⟩ := run_batches_bounds hfinished
            simp only at hsum hdurable hbound hbound'
            have hall_kept : (kept [] batch).length = batch.countP (·.attempt = .written) := by omega
            refine ⟨⟨hall, hcommit, (hkept_iff.mp hall_kept).2⟩, hiff.mp ⟨hfinished, ?_, ?_⟩⟩
            · omega
            · omega
          · rintro ⟨hfirst, hrest⟩
            obtain ⟨hfinished, hsum, hdurable⟩ := hiff.mpr hrest
            have hall_kept := hkept_iff.mpr ⟨fun hnil => absurd rfl hnil, hfirst.unbroken⟩
            refine ⟨hfinished, ?_, ?_⟩
            · simp only at hsum ⊢
              omega
            · simp only at hdurable ⊢
              omega
        · rintro ⟨hfirst, hrest⟩
          have hfilter : (batch.filter fun item => item.Converts decimal ∧ item.attempt = .written) =
              batch.filter (·.attempt = .written) := by
            apply List.filter_congr
            intro item hitem
            simp [hall item hitem]
          have hbatch_kept := kept_eq_filter (fun hnil => absurd rfl hnil) hfirst.unbroken
          simp only
          rw [hrows hrest, hmigrated, unhindered, if_pos hcommit, hfilter, hbatch_kept, List.nil_append,
            List.append_assoc]

/-- When the books of a run are right: every row is converted, every batch is
    committed, and no upsert is rolled back together with one before it. -/
theorem bookkept_iff (decimal : Char → Option Nat) (upsert : Fetched → AccountInfo → Table → Table)
    (source : List Fetched) (commits : Nat → Commit) (table : Table) :
    Bookkept decimal source commits (run_migration decimal upsert source commits table) ↔
      ∀ n batch, (batches source)[n]? = some batch → InOrder decimal (commits n) batch := by
  obtain ⟨hiff, hrows⟩ := @run_batches_iff Table decimal upsert (batches source) commits { table }
    fun batch hmem => fetch_ne_nil hmem
  simp only [batches_flatten, Nat.zero_add, List.length_nil, Nat.add_zero, List.nil_append] at hiff hrows
  constructor
  · rintro ⟨hfinished, htotal, hdurable, _⟩
    exact hiff.mp ⟨hfinished, htotal, hdurable.symm⟩
  · intro horder
    obtain ⟨hfinished, htotal, hdurable⟩ := hiff.mpr horder
    exact ⟨hfinished, htotal, hdurable.symm, hrows horder⟩

def ascii_decimal (c : Char) : Option Nat := if c.isDigit then some (c.toNat - '0'.toNat) else none

/-- A customer in service, with one session at a time. -/
def frank : Fetched where
  row := { STATUS := ['0'], REVEAL_USERNAME := some "frank".toList, AGENT_CODE := some "cu".toList }
  id := "f1".toList
  now := 0
  served_at := 0
  attempt := .written

/-- A customer whose number of sessions reads `inf`. -/
def unlimited : Fetched where
  row := { STATUS := ['0'], REVEAL_USERNAME := some "heidi".toList, SIMULTANEOUS := some "inf".toList }
  id := "h1".toList
  now := 0
  served_at := 0
  attempt := .written

/-- A row that reads `inf` ends the run, and the row before it is not migrated either.
    A commit that fails leaves its row counted both ways. -/
theorem not_bookkept :
    ¬ Bookkept ascii_decimal [frank, unlimited] (fun _ => .done)
      (run_migration ascii_decimal (fun _ _ table => table) [frank, unlimited] (fun _ => .done) ()) ∧
    ¬ Bookkept ascii_decimal [frank] (fun _ => .failed)
      (run_migration ascii_decimal (fun _ _ table => table) [frank] (fun _ => .failed) ()) := by
  constructor
  · intro hkept
    have hfinished : (run_migration ascii_decimal (fun _ _ table => table) [frank, unlimited] (fun _ => .done) ()).2 =
        false := rfl
    rw [hkept.finished] at hfinished
    cases hfinished
  · intro hkept
    have htotal : (run_migration ascii_decimal (fun _ _ table => table) [frank] (fun _ => .failed) ()).1.total_ok +
        (run_migration ascii_decimal (fun _ _ table => table) [frank] (fun _ => .failed) ()).1.total_err = 2 := rfl
    rw [hkept.total] at htotal
    cases htotal

end aaa_server
