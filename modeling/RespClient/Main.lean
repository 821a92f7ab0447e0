/-
The command line of the benchmark workload, run against a recording: whatever comes on standard input is what every
server answers on each of its connections. Completed phases go to standard output, the report of an error to standard
error.
-/
import RespClient.Workload

namespace RespClient.Workload

/-- The address of an endpoint. -/
def addressOf (e : Endpoint) : Address :=
  match e.scheme with
  | .tcp => .host e.host e.port
  | .unix => .socket (.ofText (e.path.getD ""))

/-- A network in which each endpoint of the plan answers with the recording. -/
def recorded (args : List String) (octets : Bytes) : Network :=
  match Plan.ofArguments args with
  | .error _ => ⟨[]⟩
  | .ok plan =>
    ⟨plan.endpoints.map fun e => (addressOf e, { coming := [], later := .accepted { octets } })⟩

end RespClient.Workload

open RespClient

def main (args : List String) : IO UInt32 := do
  let text ← (← IO.getStdin).readToEnd
  let report := Workload.run args (Workload.recorded args (Bytes.ofText text))
  for phase in report.phases do
    IO.println (Workload.phaseLine phase)
  match report.failure with
  | none => return 0
  | some failure =>
    IO.eprint failure.report
    return 1
