import Morfeusz.Handover
import Morfeusz.LoadBalance
import Morfeusz.Shutdown
import Morfeusz.Completion
import Morfeusz.Wakeups
import Morfeusz.Discovery
import Morfeusz.Departures
import Morfeusz.Common.DbcExact
import Morfeusz.Common.LatinNames
import Morfeusz.Common.MTRand
import Morfeusz.Common.PackGuid
import Morfeusz.Database.ConnectionString
import Morfeusz.Database.Cursors
import Morfeusz.Database.Statements
import Morfeusz.Database.Transactions
import Morfeusz.Main.Healing
import Morfeusz.Main.ServiceManager
import Morfeusz.Proxyd.Accounting
import Morfeusz.Proxyd.Appearance
import Morfeusz.Proxyd.Authentication
import Morfeusz.Proxyd.BindingOrder
import Morfeusz.Proxyd.ClientView
import Morfeusz.Proxyd.Guids
import Morfeusz.Proxyd.NameVariants
import Morfeusz.Proxyd.Output
import Morfeusz.Proxyd.RawBuf
import Morfeusz.Proxyd.Reassembly
import Morfeusz.Proxyd.Seeds
import Morfeusz.Proxyd.ServerPkt
import Morfeusz.Proxyd.StartPositions
import Morfeusz.Realmd.AccountUse
import Morfeusz.Realmd.Conflicts
import Morfeusz.Realmd.Forward
import Morfeusz.Realmd.Framing
import Morfeusz.Realmd.HonestLogon
import Morfeusz.Realmd.Lockout
import Morfeusz.Realmd.LoginIdentity
import Morfeusz.Realmd.Output
import Morfeusz.Realmd.RealmList
import Morfeusz.Realmd.RealmLocks
import Morfeusz.Realmd.Reconnect
import Morfeusz.Realmd.Registry
import Morfeusz.Realmd.VerifierWrites
import Morfeusz.Realmdb.Acceptance
import Morfeusz.Realmdb.Bans
import Morfeusz.Realmdb.Failures
import Morfeusz.Realmdb.KeyArrival
