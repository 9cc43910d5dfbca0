import AaaServer.Accounting.Isolation
import AaaServer.Accounting.Final
import AaaServer.Accounting.Refinement
import AaaServer.Accounting.Names
import AaaServer.Accounting.SimultaneousUse
import AaaServer.Accounting.Exhaustion
import AaaServer.SidebarTree.Replace
import AaaServer.Bridge.Surgical
import AaaServer.Bridge.ForceOffline
import AaaServer.Statistics.RollUp
import AaaServer.Accounting.Strangers
import AaaServer.Retention.Daily
import AaaServer.Retention.Monthly
import AaaServer.Frontend.Kick
import AaaServer.SidebarTree.Acyclic
import AaaServer.Frontend.TreeSync
import AaaServer.Frontend.TreeEdits
import AaaServer.Radius.Reply
import AaaServer.Retention.Prune
import AaaServer.Accounting.Reaping
import AaaServer.Accounting.Batch
import AaaServer.Maxscale.SetSql
import AaaServer.Bridge.RadiusClient
import AaaServer.Bridge.Soap
import AaaServer.Migration.Float
import AaaServer.Migration.Userst
import AaaServer.Migration.Loop
import AaaServer.Migration.Bookkeeping
import AaaServer.Migration.Upsert
import AaaServer.Migration.KeySafety
import AaaServer.Migration.Repeatable
import AaaServer.Bridge.Register
import AaaServer.Bridge.Rewrite
import AaaServer.Bridge.ReturnCode
import AaaServer.Radius.ClassAttr
import AaaServer.History.TimeRange
import AaaServer.Accounting.NameSplit
import AaaServer.Accounting.FinishedTimes
import AaaServer.Frontend.RoundTrip
import AaaServer.Statistics.AllOrNothing
import AaaServer.Statistics.Concurrent
import AaaServer.SidebarTree.Subtree
import AaaServer.Docker.Encoding
import AaaServer.Docker.DockerService
import AaaServer.Docker.Restart
import AaaServer.Bridge.Dispatch
import AaaServer.Bridge.Retry
import AaaServer.Bridge.Keeps
import AaaServer.Radius.Shell
import AaaServer.Radius.Radclient
import AaaServer.Radius.Coa
import AaaServer.Unlang.Inline
import AaaServer.Login.Log
import AaaServer.Backup.UpdateDatabase
import AaaServer.Login.Occupancy
import AaaServer.Wire.Delivery
import AaaServer.Wire.Md5
import AaaServer.Wire.PacketOk
import AaaServer.Wire.Password
import AaaServer.Process.Window
import AaaServer.Process.Freed
