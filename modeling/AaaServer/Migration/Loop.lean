import AaaServer.Migration.Userst

open sql python

namespace aaa_server

def BATCH_SIZE : Nat := 5000

/-- What comes of an upsert: it is written, it fails alone, or the server rolls
    its whole transaction back, as after a deadlock. -/
inductive Attempt where
  | written
  | refused
  | rolled_back
  deriving DecidableEq

/-- What comes of a commit. After one that fails, `rollback` succeeds; when the
    connection is broken it raises, whether or not the server has committed. -/
inductive Commit where
  | done
  | failed
  | broken (durable : Bool)
  deriving DecidableEq

/-- A row of the source, with what the run meets at it: the identifier, the time
    here and at the server, and what comes of its upsert. -/
structure Fetched where
  row : Userst
  id : Text
  now : Datetime
  served_at : Datetime
  attempt : Attempt

/-- The counts of a run and the table that is committed. The rows whose upsert is
    durable are a history variable. -/
structure Progress (Table : Type) where
  table : Table
  total_ok : Nat := 0
  total_err : Nat := 0
  migrated : List Fetched := []

/-- A batch that is not committed yet: the counts, the table as its transaction
    sees it, and the rows that it has written. -/
structure Pending (Table : Type) where
  table : Table
  total_ok : Nat
  total_err : Nat
  written : List Fetched := []

/-- `fetchmany` until there are no more rows. -/
def fetch {A : Type} : Nat → List A → List (List A)
  | fuel + 1, row :: rows => (row :: rows).take BATCH_SIZE :: fetch fuel ((row :: rows).drop BATCH_SIZE)
  | _, _ => []

def batches {A : Type} (rows : List A) : List (List A) := fetch rows.length rows

section Run

-- The digits of Unicode, and what an upsert that is written makes of the table.
variable {Table : Type} (decimal : Char → Option Nat) (upsert : Fetched → AccountInfo → Table → Table)

/-- The records of a batch. Nothing catches the exception of a row that cannot be
    converted. -/
def convert_batch (batch : List Fetched) : Except IntError (List (Fetched × AccountInfo)) :=
  batch.mapM fun item => do
    let rec ← row_to_account_info decimal item.id item.now item.row
    return (item, rec)

/-- The upsert of one record, in a transaction that has started with the table
    `before`. -/
def write_row (before : Table) (item : Fetched) (rec : AccountInfo) (pending : Pending Table) : Pending Table :=
  match item.attempt with
  | .written => { pending with
      table := upsert item rec pending.table
      total_ok := pending.total_ok + 1
      written := pending.written ++ [item] }
  | .refused => { pending with total_err := pending.total_err + 1 }
  | .rolled_back => { pending with
      table := before
      total_err := pending.total_err + 1
      written := [] }

/-- The loop over the records of a batch. -/
def write_rows (before : Table) : List (Fetched × AccountInfo) → Pending Table → Pending Table
  | [], pending => pending
  | (item, rec) :: records, pending => write_rows before records (write_row upsert before item rec pending)

/-- One round of the loop over the batches, and whether the run goes on. -/
def run_batch (commit : Commit) (batch : List Fetched) (progress : Progress Table) : Progress Table × Bool :=
  match convert_batch decimal batch with
  | .error _ => (progress, false)
  | .ok records =>
    let pending := write_rows upsert progress.table records {
      table := progress.table, total_ok := progress.total_ok, total_err := progress.total_err }
    let committed : Progress Table := {
      table := pending.table
      total_ok := pending.total_ok
      total_err := pending.total_err
      migrated := progress.migrated ++ pending.written }
    let rolled_back : Progress Table := { progress with
      total_ok := pending.total_ok
      total_err := pending.total_err }
    match commit with
    | .done => (committed, true)
    | .failed => ({ rolled_back with total_err := pending.total_err + batch.length }, true)
    | .broken durable => (if durable then committed else rolled_back, false)

/-- The loop of `run_migration`, with the fate of the commit of each batch, and
    whether it reaches the end of the source. -/
def run_batches : List (List Fetched) → (Nat → Commit) → Progress Table → Progress Table × Bool
  | [], _, progress => (progress, true)
  | batch :: rest, commits, progress =>
    match run_batch decimal upsert (commits 0) batch progress with
    | (progress, true) => run_batches rest (fun n => commits (n + 1)) progress
    | (progress, false) => (progress, false)

def run_migration (source : List Fetched) (commits : Nat → Commit) (table : Table) : Progress Table × Bool :=
  run_batches decimal upsert (batches source) commits { table }

end Run

end aaa_server
