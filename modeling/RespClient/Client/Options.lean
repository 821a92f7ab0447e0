/-
The switches of a client, and reading them from a configuration document: an object with an entry for each option, or a
list of the options in order. Unknown entries are ignored; an option must have its own type and not be given twice.
-/
import RespClient.Document

namespace RespClient

/-- How a client behaves. -/
structure Options where
  /-- error replies become errors instead of values -/
  exceptions : Bool := true
  /-- the namespace of all keys -/
  keyPrefix : Option String := none
  /-- several endpoints form a replicated set instead of a cluster -/
  replication : Bool := false
  /-- a command is sent once more when its connection was lost -/
  retry : Bool := false
  deriving DecidableEq

namespace Options

/-- The options in the order of a list, by name. -/
def names : List String := ["exceptions", "prefix", "replication", "retry_on_connection_loss"]

/-- The options with the named one read from a document. -/
def put? (o : Options) (name : String) (d : Document) : Option Options :=
  match name, d with
  | "exceptions", .bool b => some { o with exceptions := b }
  | "prefix", .text s => some { o with keyPrefix := some s }
  | "prefix", .null => some { o with keyPrefix := none }
  | "replication", .bool b => some { o with replication := b }
  | "retry_on_connection_loss", .bool b => some { o with retry := b }
  | _, _ => none

/-- The options of a document. -/
def ofDocument? (d : Document) : Option Options :=
  let put (o : Options) (entry : String × Document) : Option Options := o.put? entry.1 entry.2
  match d with
  | .object entries =>
    let known := entries.filter fun (name, _) => names.contains name
    if (known.map (·.1)).eraseDups.length = known.length then known.foldlM put {} else none
  | .list items => if items.length ≤ names.length then (names.zip items).foldlM put {} else none
  | _ => none

end Options

end RespClient
