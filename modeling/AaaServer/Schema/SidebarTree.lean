import AaaServer.Sql.Collation

open sql

namespace aaa_server

/-- A row of `sidebar_tree`. -/
structure SidebarTreeRow where
  id : Text
  label : Option Text := none
  pid : Option Text := none
  type : Option Int := none
  owner : Option Text := none
  deriving DecidableEq

/-- What pruning reads of a row of `admin`. -/
structure AdminRow where
  name : Text
  nodeid : Option Text := none
  deriving DecidableEq

end aaa_server
