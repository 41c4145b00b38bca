import Akamu.Crdt.Accumulator
import Akamu.Db.Refinement
import Akamu.Db.DirectPath
import Akamu.Issuance.CaaMethods
import Akamu.Replication.EabKeys
import Akamu.Replication.Mirror
import Akamu.Replication.Convergence
import Akamu.Replication.Pull
import Akamu.Orders.Finalization
import Akamu.Orders.StarRenewal
import Akamu.Accounts.Deactivation
import Akamu.Accounts.KeyCache
import Akamu.Orders.Integrity
import Akamu.Orders.Expiry
import Akamu.Replication.Envelopes
import Akamu.Replication.Operators
import Akamu.Admin.ProxyCert
import Akamu.Admin.Sessions
import Akamu.Mtc.Landmark
import Akamu.Mtc.OwnLog
import Akamu.Mtc.Embedding
import Akamu.Mtc.Coverage
import Akamu.Validation.Outbound
import Akamu.Validation.Replay
import Akamu.Replication.FanOut
import Akamu.Issuance.CaFlag
import Akamu.Accounts.UniqueKeys
import Akamu.Jose.Spki
import Akamu.Crdt.Generations
import Akamu.Crdt.OwnWrites
import Akamu.Replication.Tombstones
import Akamu.Db.SubdomainAncestor
import Akamu.Routes.RespondChallenge
import Akamu.Routes.RenewalInfo
import Akamu.Mtc.Inclusion
import Akamu.Mtc.IntervalCover
import Akamu.Jose.Ecdsa
import Akamu.Revocation.CrlNumber
import Akamu.Audit.Query
import Akamu.Replication.DerElements
