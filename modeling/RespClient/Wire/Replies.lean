/-
Reply frames: a line, and after it the payload or the items that it announces. Each reply consumes at least its line, so
a declared count never makes the reader run longer than its input.
-/
import RespClient.Wire.Header
import RespClient.Wire.Reading

namespace RespClient.Wire

mutual

/-- One reply. -/
def readReply (ending : Ending) (s : Bytes) : Reading s.length Reply :=
  match line ending s with
  | .failure e rest => .failure e rest
  | .value body rest h =>
    match Header.ofLine body with
    | .error e => .failure e rest
    | .ok (.whole r) => .value r rest h
    | .ok (.payload n) =>
      match payload ending n rest with
      | .failure e rest => .failure e rest
      | .value data rest h' => .value (.bulk data) rest (shorter_trans h h')
    | .ok (.items n) =>
      match readItems ending n rest with
      | .failure e rest => .failure e rest
      | .value rs rest h' => .value (.array rs) rest (shorter_of_le h h')
  termination_by (s.length, 0)

/-- So many replies, one after the other. -/
def readItems (ending : Ending) (count : Nat) (s : Bytes) : Reading (s.length + 1) (List Reply) :=
  match count with
  | 0 => .value [] s (length_lt s)
  | count + 1 =>
    match readReply ending s with
    | .failure e rest => .failure e rest
    | .value r rest h =>
      match readItems ending count rest with
      | .failure e rest => .failure e rest
      | .value rs rest h' => .value (r :: rs) rest (le_of_le h h')
  termination_by (s.length, 1)

end

/-- The reply at the head of a stream, or why there is none, and the octets left. -/
def reply (ending : Ending) (s : Bytes) : Except DecodeError Reply × Bytes := (readReply ending s).toPair

end RespClient.Wire
