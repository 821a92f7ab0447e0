/-
What can go wrong, by cause. `message` is the one place where the wording of each error stands, and `causes` lists what
lies beneath it, outermost first.

- `Fault`: the transport under a connection failed.
- `DecodeError`: the octets of a stream do not form a frame, or ended too early.
- `ParameterFault`: an endpoint's parameters are wrong or incomplete.
- `ClientError`: what a caller sees. Communication and protocol errors make the connection unusable (`resets`).
-/
import RespClient.Reply

namespace RespClient

/-! ## Transport -/

/-- A failure of the transport, with the number of the system's error if there is one. -/
structure Fault where
  text : String
  code : Option Nat
  deriving DecidableEq

namespace Fault

def noSuchFile : Fault := ⟨"No such file or directory (os error 2)", some 2⟩
def timedOut : Fault := ⟨"Resource temporarily unavailable (os error 11)", some 11⟩
def notDirectory : Fault := ⟨"Not a directory (os error 20)", some 20⟩
def brokenPipe : Fault := ⟨"Broken pipe (os error 32)", some 32⟩
def unreachable : Fault := ⟨"Network is unreachable (os error 101)", some 101⟩
def refused : Fault := ⟨"Connection refused (os error 111)", some 111⟩
def zeroTimeout : Fault := ⟨"cannot set a 0 duration timeout", none⟩
def nulInPath : Fault := ⟨"paths must not contain interior null bytes", none⟩
def nulInHost : Fault := ⟨"file name contained an unexpected NUL byte", none⟩
def longPath : Fault := ⟨"path must be shorter than SUN_LEN", none⟩
def endOfFile : Fault := ⟨"unexpected end of file", none⟩

end Fault

/-! ## Frames -/

/-- Why a frame could not be read. -/
inductive DecodeError where
  /-- the transport failed, or ended inside a payload -/
  | transport (fault : Fault)
  /-- the stream ended before the end of a line -/
  | connectionClosed
  | unknownPrefix (mark : UInt8)
  | invalidInteger
  | invalidLength (length : Int)
  | missingTerminator
  | invalidRequest
  deriving DecidableEq

def DecodeError.message : DecodeError → String
  | .transport fault => "io error: " ++ fault.text
  | .connectionClosed => "connection closed by the server"
  | .unknownPrefix mark => "unknown prefix: '" ++ String.singleton (Char.ofNat mark.toNat) ++ "'"
  | .invalidInteger => "invalid integer payload"
  | .invalidLength length => "invalid frame length: " ++ toString length
  | .missingTerminator => "missing frame terminator"
  | .invalidRequest => "request is not an array of bulk strings"

/-! ## Parameters -/

/-- What is wrong with an endpoint's parameters. -/
inductive ParameterFault where
  | unsupportedScheme (name : String)
  | invalidUri (uri : String)
  | invalidValue (value name : String)
  | pathMissing
  | hostMissing
  | noEndpoint
  | noClusterNode
  deriving DecidableEq

def ParameterFault.message : ParameterFault → String
  | .unsupportedScheme name => s!"unsupported scheme '{name}'"
  | .invalidUri uri => s!"invalid URI: {uri}"
  | .invalidValue value name => s!"invalid value '{value}' for '{name}'"
  | .pathMissing => "unix connections require a socket path"
  | .hostMissing => "tcp connections require a host"
  | .noEndpoint => "at least one connection is required"
  | .noClusterNode => "a cluster needs at least one node"

/-! ## Errors of a client -/

/-- What a connection was doing when its transport failed. -/
inductive CommunicationFault where
  | opening (fault : Fault)
  | writing (fault : Fault)
  | reading (fault : Fault)
  /-- the peer ended the stream before the end of a line -/
  | lineEnded
  | notOpen
  deriving DecidableEq

namespace CommunicationFault

def message : CommunicationFault → String
  | .opening fault => fault.text
  | .writing _ => "Error while writing bytes to the server"
  | .reading _ => "Error while reading bytes from the server"
  | .lineEnded => "Error while reading line from the server"
  | .notOpen => "connection is not open"

def fault? : CommunicationFault → Option Fault
  | .opening fault | .writing fault | .reading fault => some fault
  | .lineEnded | .notOpen => none

end CommunicationFault

/-- What a topology cannot do. -/
inductive Unsupported where
  /-- the command has no routing key -/
  | overCluster (id : String)
  | inReplication (id : String)
  | addressing (id : String)
  deriving DecidableEq

def Unsupported.message : Unsupported → String
  | .overCluster id => s!"Cannot use '{id}' over clusters of connections"
  | .inReplication id => s!"The command {id} is not allowed in replication mode"
  | .addressing id => s!"cannot address connection '{id}' on a single connection"

/-- How a topology is set up wrongly. -/
inductive Misconfiguration where
  | emptyCluster
  | unknownNode (id : String)
  | unknownConnection (id : String)
  | unknownAlias (id : String)
  | membersMissing
  deriving DecidableEq

def Misconfiguration.message : Misconfiguration → String
  | .emptyCluster => "cluster has no connections"
  | .unknownNode id => s!"unknown cluster node '{id}'"
  | .unknownConnection id => s!"unknown connection '{id}'"
  | .unknownAlias id => s!"unknown connection alias '{id}'"
  | .membersMissing => "replication needs a master and at least one slave"

/-- An error of a client; `connection` is the identity of the endpoint concerned. -/
inductive ClientError where
  | communication (connection : String) (cause : CommunicationFault)
  | protocol (connection : String) (cause : DecodeError)
  | server (reply : ErrorReply)
  | notSupported (cause : Unsupported)
  | configuration (cause : Misconfiguration)
  | alreadyConnected (connection : String)
  | unknownCommand (id : String)
  | invalidParameters (cause : ParameterFault)
  | unexpectedResponse (id : String)
  deriving DecidableEq

namespace ClientError

/-- The error of a connection whose reader failed: a transport that failed or ended is a communication error, octets that
form no frame are a protocol error. -/
def ofDecode (connection : String) : DecodeError → ClientError
  | .transport fault => .communication connection (.reading fault)
  | .connectionClosed => .communication connection .lineEnded
  | e => .protocol connection e

/-- The connection that raised the error cannot be used further. -/
def resets : ClientError → Bool
  | .communication .. | .protocol .. => true
  | _ => false

def message : ClientError → String
  | .communication connection cause => s!"{cause.message} [{connection}]"
  | .protocol connection cause => s!"{cause.message} [{connection}]"
  | .server reply => reply.message
  | .notSupported cause => cause.message
  | .configuration cause => cause.message
  | .alreadyConnected connection => s!"connection already established [{connection}]"
  | .unknownCommand id => s!"command '{id}' is not registered in the server profile"
  | .invalidParameters cause => s!"invalid connection parameters: {cause.message}"
  | .unexpectedResponse id => s!"unexpected response to {id}"

/-- What lies beneath the error. -/
def causes : ClientError → List String
  | .communication _ cause => cause.fault?.toList.map Fault.text
  | .protocol _ cause => [cause.message]
  | _ => []

end ClientError

end RespClient
