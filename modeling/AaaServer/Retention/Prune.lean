import AaaServer.Sql.Functions
import AaaServer.Statistics.Procedures

open sql

namespace aaa_server

/-- A row of `radpostauth`. -/
structure PostAuthRow where
  id : Nat
  username : Text := []
  realm : Text := []
  deriving DecidableEq

/-- The tables that are pruned, and the tree that they depend on. -/
structure PruneTables where
  sidebar_tree : List SidebarTreeRow := []
  realm : List RealmRow := []
  account_info : List AccountInfo := []
  admin : List AdminRow := []
  offline_user : List AcctRow := []
  radpostauth : List PostAuthRow := []

/-- `SELECT id FROM sidebar_tree`. -/
def PruneTables.ids (tables : PruneTables) : List (Option Text) := tables.sidebar_tree.map fun node => some node.id

/-- `SELECT realm FROM realm`. -/
def PruneTables.realms (tables : PruneTables) : List (Option Text) := tables.realm.map fun row => row.realm

def delete_realm (col : Collation) (tables : PruneTables) : PruneTables :=
  { tables with realm := delete_not_in col (fun row => some row.node_id) tables.ids tables.realm }

def delete_account_info (col : Collation) (tables : PruneTables) : PruneTables :=
  { tables with account_info := delete_not_in col (fun row => some row.realm) tables.realms tables.account_info }

def delete_admin (col : Collation) (tables : PruneTables) : PruneTables :=
  { tables with admin := delete_not_in col (fun row => row.nodeid) tables.ids tables.admin }

def delete_offline_user (col : Collation) (tables : PruneTables) : PruneTables :=
  { tables with offline_user := delete_not_in col (fun row => some row.realm) tables.realms tables.offline_user }

def delete_radpostauth (col : Collation) (tables : PruneTables) : PruneTables :=
  { tables with radpostauth := delete_not_in col (fun row => some row.realm) tables.realms tables.radpostauth }

/-- The procedure `database_Prune`. -/
def database_Prune (col : Collation) (tables : PruneTables) : PruneTables :=
  let tables := delete_realm col tables
  let tables := delete_account_info col tables
  let tables := delete_admin col tables
  let tables := delete_offline_user col tables
  delete_radpostauth col tables

/-- The deletions of `event_of_minute`. -/
def event_of_minute_deletes (col : Collation) (tables : PruneTables) : PruneTables :=
  delete_admin col (delete_realm col tables)

/-- The deletion of `event_of_day`. -/
def event_of_day_deletes (col : Collation) (tables : PruneTables) : PruneTables :=
  delete_account_info col tables

/-- Nodes, administrators and accounts are pruned exactly: the realms and the
    administrators left are those of a node of the tree, the accounts left those
    of a realm that is left. -/
structure EventsPruned (col : Collation) (before after : PruneTables) : Prop where
  sidebar_tree : after.sidebar_tree = before.sidebar_tree
  realm : after.realm = before.realm.filter fun row => referenced col (some row.node_id) before.ids
  admin : after.admin = before.admin.filter fun row => referenced col row.nodeid before.ids
  account_info : after.account_info =
    before.account_info.filter fun row => referenced col (some row.realm) after.realms

/-- And so are the finished sessions and the log of the authentications. -/
structure DatabasePruned (col : Collation) (before after : PruneTables) : Prop extends
    EventsPruned col before after where
  offline_user : after.offline_user =
    before.offline_user.filter fun row => referenced col (some row.realm) after.realms
  radpostauth : after.radpostauth =
    before.radpostauth.filter fun row => referenced col (some row.realm) after.realms

/-- No administrator is without a node, or there is no node at all. -/
def AdminsPlaced (tables : PruneTables) : Prop :=
  tables.sidebar_tree = [] ∨ ∀ row ∈ tables.admin, row.nodeid ≠ none

/-- The realms of the nodes of the tree. -/
def PruneTables.surviving_realms (col : Collation) (tables : PruneTables) : List (Option Text) :=
  (tables.realm.filter fun row => referenced col (some row.node_id) tables.ids).map fun row => row.realm

section Deletions

variable {col : Collation} {tables : PruneTables}

/-- Neither `node_id` nor `id` is ever NULL. -/
theorem delete_realm_eq : (delete_realm col tables).realm =
    tables.realm.filter fun row => referenced col (some row.node_id) tables.ids := by
  refine delete_not_in_eq_filter_iff.mpr (.inr (.inl ⟨?_, nofun⟩))
  simp [PruneTables.ids]

theorem realms_delete_realm : (delete_realm col tables).realms = tables.surviving_realms col := by
  rw [PruneTables.realms, delete_realm_eq]
  rfl

theorem delete_admin_eq_iff : (delete_admin col tables).admin =
    (tables.admin.filter fun row => referenced col row.nodeid tables.ids) ↔ AdminsPlaced tables := by
  show delete_not_in col _ _ _ = _ ↔ _
  rw [delete_not_in_eq_filter_iff]
  have hids : none ∉ tables.ids := by simp [PruneTables.ids]
  have hnil : tables.ids = [] ↔ tables.sidebar_tree = [] := List.map_eq_nil_iff
  rw [hnil, AdminsPlaced]
  constructor
  · rintro (hempty | hplaced | hreferenced)
    · exact .inl hempty
    · exact .inr hplaced.2
    · refine .inr fun row hrow hnull => ?_
      have href := hreferenced row hrow
      rw [hnull] at href
      simp [referenced] at href
  · rintro (hempty | hplaced)
    · exact .inl hempty
    · exact .inr (.inl ⟨hids, hplaced⟩)

/-- A column that is not nullable is pruned exactly when the realms have no NULL,
    or when there is nothing to delete. -/
theorem delete_by_realm_eq_iff {Row : Type} {realm : Row → Text} {rows : List Row} {realms : List (Option Text)} :
    delete_not_in col (fun row => some (realm row)) realms rows =
        rows.filter (fun row => referenced col (some (realm row)) realms) ↔
      none ∉ realms ∨ ∀ row ∈ rows, referenced col (some (realm row)) realms := by
  rw [delete_not_in_eq_filter_iff]
  constructor
  · rintro (rfl | hnull | hreferenced)
    · exact .inl List.not_mem_nil
    · exact .inl hnull.1
    · exact .inr hreferenced
  · rintro (hnull | hreferenced)
    · exact .inr (.inl ⟨hnull, nofun⟩)
    · exact .inr (.inr hreferenced)

end Deletions

/-- Pruning is exact precisely when every administrator has a node, if there are
    nodes, and when no realm of a node is NULL, if there is a row to be deleted
    for its realm. -/
theorem prune_exact_iff (col : Collation) (tables : PruneTables) :
    (DatabasePruned col tables (database_Prune col tables) ↔
      AdminsPlaced tables ∧ (none ∉ tables.surviving_realms col ∨
        (∀ row ∈ tables.account_info, referenced col (some row.realm) (tables.surviving_realms col)) ∧
        (∀ row ∈ tables.offline_user, referenced col (some row.realm) (tables.surviving_realms col)) ∧
        ∀ row ∈ tables.radpostauth, referenced col (some row.realm) (tables.surviving_realms col))) ∧
    (EventsPruned col tables (event_of_day_deletes col (event_of_minute_deletes col tables)) ↔
      AdminsPlaced tables ∧ (none ∉ tables.surviving_realms col ∨
        ∀ row ∈ tables.account_info, referenced col (some row.realm) (tables.surviving_realms col))) := by
  have hrealms : (delete_realm col tables).realms = tables.surviving_realms col := realms_delete_realm
  constructor
  · have hafter : (database_Prune col tables).realms = tables.surviving_realms col := hrealms
    constructor
    · intro hpruned
      refine ⟨delete_admin_eq_iff.mp hpruned.admin, ?_⟩
      have haccount := hpruned.account_info
      have hoffline := hpruned.offline_user
      have hpostauth := hpruned.radpostauth
      rw [hafter] at haccount hoffline hpostauth
      rw [← hrealms] at haccount hoffline hpostauth ⊢
      rw [or_and_left, or_and_left]
      exact ⟨delete_by_realm_eq_iff.mp haccount, delete_by_realm_eq_iff.mp hoffline,
        delete_by_realm_eq_iff.mp hpostauth⟩
    · rintro ⟨hplaced, hnamed⟩
      rw [← hrealms, or_and_left, or_and_left] at hnamed
      obtain ⟨haccount, hoffline, hpostauth⟩ := hnamed
      exact {
        sidebar_tree := rfl
        realm := delete_realm_eq
        admin := delete_admin_eq_iff.mpr hplaced
        account_info := delete_by_realm_eq_iff.mpr haccount
        offline_user := delete_by_realm_eq_iff.mpr hoffline
        radpostauth := delete_by_realm_eq_iff.mpr hpostauth }
  · have hafter : (event_of_day_deletes col (event_of_minute_deletes col tables)).realms =
        tables.surviving_realms col := hrealms
    constructor
    · intro hpruned
      refine ⟨delete_admin_eq_iff.mp hpruned.admin, ?_⟩
      have haccount := hpruned.account_info
      rw [hafter] at haccount
      rw [← hrealms] at haccount ⊢
      exact delete_by_realm_eq_iff.mp haccount
    · rintro ⟨hplaced, hnamed⟩
      rw [← hrealms] at hnamed
      exact {
        sidebar_tree := rfl
        realm := delete_realm_eq
        admin := delete_admin_eq_iff.mpr hplaced
        account_info := delete_by_realm_eq_iff.mpr hnamed }

/-- An account of a realm that is not there. -/
def stray_account : AccountInfo :=
  { id := "1".toList, user_name := "dave".toList, realm := "@gone".toList, valid_date := none, modify_date := 0 }

/-- A realm that is NULL keeps an account of a realm that is not there. -/
theorem null_realm_keeps_account :
    ¬ ∀ (col : Collation) (tables : PruneTables),
      DatabasePruned col tables (database_Prune col tables) ∧
        EventsPruned col tables (event_of_day_deletes col (event_of_minute_deletes col tables)) := by
  intro hpruned
  have haccount := (hpruned .ascii_ci {
    sidebar_tree := [{ id := "n1".toList }]
    realm := [⟨none, "n1".toList⟩]
    account_info := [stray_account] }).1.account_info
  exact absurd haccount (by decide)

end aaa_server
