/-
What a client talks to: a single server, a cluster or a replicated set. Operations are those of the kind at hand; single
servers cannot be addressed by name.

`Connection.forEndpoint`, `Cluster.forEndpoints` and `Replication.forEndpoints` build them from endpoints, with the
commands for password and database as setup commands.
-/
import RespClient.Catalogue
import RespClient.Cluster
import RespClient.Replication

namespace RespClient

/-! ## Building -/

/-- The commands that an endpoint's password and database call for. -/
def setupCommands (catalogue : Catalogue) (e : Endpoint) : Except ClientError (List Command) := do
  let auth ← e.password.toList.mapM fun p => catalogue.create "AUTH" [Bytes.ofText p]
  let select ← e.database.toList.mapM fun n => catalogue.create "SELECT" [Bytes.decimal n.toNat]
  return auth ++ select

/-- A connection to an endpoint, not yet open. -/
def Connection.forEndpoint (catalogue : Catalogue) (e : Endpoint) : Except ClientError Connection :=
  (setupCommands catalogue e).map fun setup => { endpoint := e, setup }

/-- A cluster of one or more endpoints. -/
def Cluster.forEndpoints (catalogue : Catalogue) (es : List Endpoint) : Except ClientError Cluster := do
  let conns ← es.mapM (Connection.forEndpoint catalogue)
  if conns.isEmpty then .error (.invalidParameters .noClusterNode) else .ok (conns.foldl Cluster.add {})

/-- A replicated set of endpoints. -/
def Replication.forEndpoints (catalogue : Catalogue) (es : List Endpoint) : Except ClientError Replication := do
  let conns ← es.mapM (Connection.forEndpoint catalogue)
  return conns.foldl Replication.add {}

/-! ## Operations -/

/-- A single server, a cluster or a replicated set. -/
inductive Topology where
  | single (conn : Connection)
  | cluster (cluster : Cluster)
  | replication (set : Replication)

namespace Topology

def connect : Topology → Network → Outcome Topology Unit
  | .single c, net => (c.connect net).within .single
  | .cluster c, net => (c.connect net).within .cluster
  | .replication r, net => (r.connect net).within .replication

def disconnect : Topology → Topology
  | .single c => .single c.disconnect
  | .cluster c => .cluster c.disconnect
  | .replication r => .replication r.disconnect

def isConnected : Topology → Bool
  | .single c => c.isConnected
  | .cluster c => c.isConnected
  | .replication r => r.isConnected

def write (command : Command) : Topology → Network → Outcome Topology Unit
  | .single c, net => (c.write command net).within .single
  | .cluster c, net => (c.write command net).within .cluster
  | .replication r, net => (r.write command net).within .replication

def read (command : Command) : Topology → Network → Outcome Topology Reply
  | .single c, net => (c.read net).within .single
  | .cluster c, net => (c.read command net).within .cluster
  | .replication r, net => (r.read command net).within .replication

def execute (command : Command) : Topology → Network → Outcome Topology Reply
  | .single c, net => (c.execute command net).within .single
  | .cluster c, net => (c.execute command net).within .cluster
  | .replication r, net => (r.execute command net).within .replication

/-- Runs a command on the member that a name stands for. -/
def executeOn (name : String) (command : Command) : Topology → Network → Outcome Topology Reply
  | .single c, net => ⟨.error (.notSupported (.addressing name)), .single c, net⟩
  | .cluster c, net => (c.executeOn name command net).within .cluster
  | .replication r, net => (r.executeOn name command net).within .replication

end Topology

end RespClient
