/-
Declared counts cannot outrun the input. A header of an array may declare up to `2 ^ 63 - 1` items, and arrays may be nested
to any depth; still the reader is entered once for each three octets that it consumes and once more at most, and the reply
that it gives is no larger than the octets that it was read from.

- `Counted`, `countReply`: the reader with the number of times that it is entered; `reading_countReply`: it is the reader;
  `countReply_headers`: what it counts for nested headers without items.
- `size_le_of_frame`: the size of a reply against the length of its frame, by the frame's derivation.
- `accounted_countReply`: a reply is read in as many calls as it has nodes; the calls of a run that fails were paid for with
  three octets each, the last one apart. By the reader's own recursion.
- `consumption_law`: what the octets consumed bound.
-/
import RespClient.Proofs.Truncation

namespace RespClient

/-! ## The size of a reply -/

namespace Reply

mutual

/-- The replies in a reply, itself included: arrays and leaves. -/
def nodes : Reply → Nat
  | .array items => 1 + nodesOfItems items
  | _ => 1

def nodesOfItems : List Reply → Nat
  | [] => 0
  | r :: rs => nodes r + nodesOfItems rs

end

mutual

/-- The number of octets in the payloads of a reply. -/
def octets : Reply → Nat
  | .array items => octetsOfItems items
  | .bulk payload => payload.length
  | _ => 0

def octetsOfItems : List Reply → Nat
  | [] => 0
  | r :: rs => octets r + octetsOfItems rs

end

end Reply

namespace Wire

open Reply (nodesOfItems octetsOfItems)
open Reader (of Ends ends_payload)

mutual

/-- A frame has three octets for each node of its reply, and the payloads besides. -/
theorem size_le_of_frame {w : Bytes} {r : Reply} (h : Frame w r) : 3 * r.nodes + r.octets ≤ w.length := by
  cases h with
  | array text w rs _ hframes =>
    have hitems : 3 * nodesOfItems rs + octetsOfItems rs ≤ w.length := size_le_of_frames hframes
    simp only [Reply.nodes, Reply.octets, terminator, List.length_append, List.length_cons, List.length_nil]
    omega
  | _ =>
    simp only [Reply.nodes, Reply.octets, terminator, List.length_append, List.length_cons, List.length_nil]
    omega

theorem size_le_of_frames {w : Bytes} {rs : List Reply} (h : Frames w rs) :
    3 * nodesOfItems rs + octetsOfItems rs ≤ w.length := by
  cases h with
  | nil => simp [nodesOfItems, octetsOfItems]
  | cons w v r rs hframe hframes =>
    have hfirst : 3 * r.nodes + r.octets ≤ w.length := size_le_of_frame hframe
    have hmore : 3 * nodesOfItems rs + octetsOfItems rs ≤ v.length := size_le_of_frames hframes
    simp only [nodesOfItems, octetsOfItems, List.length_append]
    omega

end

/-- What is left after a reply is shorter by its size. -/
theorem size_le_of_reply {ending : Ending} {s rest : Bytes} {r : Reply} (h : reply ending s = (.ok r, rest)) :
    3 * r.nodes + r.octets + rest.length ≤ s.length := by
  obtain ⟨w, rfl, hframe⟩ := frame_of_readReply h
  have hsize : 3 * r.nodes + r.octets ≤ w.length := size_le_of_frame hframe
  rw [List.length_append]
  omega

/-! ## The reader with its calls counted -/

/-- A reader's answer, and how many times the reader of replies was entered for it. -/
structure Counted (limit : Nat) (α : Type) where
  calls : Nat
  reading : Reading limit α

mutual

/-- One reply. -/
def countReply (ending : Ending) (s : Bytes) : Counted s.length Reply :=
  match line ending s with
  | .failure e rest => ⟨1, .failure e rest⟩
  | .value body rest h =>
    match Header.ofLine body with
    | .error e => ⟨1, .failure e rest⟩
    | .ok (.whole r) => ⟨1, .value r rest h⟩
    | .ok (.payload n) =>
      match payload ending n rest with
      | .failure e rest => ⟨1, .failure e rest⟩
      | .value data rest h' => ⟨1, .value (.bulk data) rest (shorter_trans h h')⟩
    | .ok (.items n) =>
      match countItems ending n rest with
      | ⟨calls, .failure e rest⟩ => ⟨1 + calls, .failure e rest⟩
      | ⟨calls, .value rs rest h'⟩ => ⟨1 + calls, .value (.array rs) rest (shorter_of_le h h')⟩
  termination_by (s.length, 0)

/-- So many replies, one after the other. -/
def countItems (ending : Ending) (count : Nat) (s : Bytes) : Counted (s.length + 1) (List Reply) :=
  match count with
  | 0 => ⟨0, .value [] s (length_lt s)⟩
  | count + 1 =>
    match countReply ending s with
    | ⟨calls, .failure e rest⟩ => ⟨calls, .failure e rest⟩
    | ⟨calls, .value r rest h⟩ =>
      match countItems ending count rest with
      | ⟨more, .failure e rest⟩ => ⟨calls + more, .failure e rest⟩
      | ⟨more, .value rs rest h'⟩ => ⟨calls + more, .value (r :: rs) rest (le_of_le h h')⟩
  termination_by (s.length, 1)

end

mutual

/-- Counting changes nothing. -/
theorem reading_countReply (ending : Ending) (s : Bytes) : (countReply ending s).reading = readReply ending s := by
  rw [countReply, readReply]
  cases line ending s with
  | failure e rest => rfl
  | value body rest h =>
    simp only
    cases Header.ofLine body with
    | error e => rfl
    | ok head =>
      cases head with
      | whole r => rfl
      | payload n =>
        simp only
        cases payload ending n rest <;> rfl
      | items n =>
        simp only [← reading_countItems ending n rest]
        rcases countItems ending n rest with ⟨calls, _ | _⟩ <;> rfl
  termination_by (s.length, 0)

theorem reading_countItems (ending : Ending) (count : Nat) (s : Bytes) :
    (countItems ending count s).reading = readItems ending count s := by
  cases count with
  | zero => rw [countItems, readItems]
  | succ count =>
    rw [countItems, readItems, ← reading_countReply ending s]
    rcases countReply ending s with ⟨calls, ⟨r, rest, h⟩ | ⟨e, rest⟩⟩
    · simp only [← reading_countItems ending count rest]
      rcases countItems ending count rest with ⟨more, _ | _⟩ <;> rfl
    · rfl
  termination_by (s.length, 1)

end

/-- Headers that declare items, one in the other to any depth, and nothing in the last: each is one call, whatever it
declares, and one more call finds the end. -/
theorem countReply_headers {text : Bytes} {n : Nat} (hn : Numeral.integer? text = some ((n + 1 : Nat) : Int))
    (depth : Nat) : countReply .closed (List.replicate depth (arrayMark :: text ++ terminator)).flatten =
      ⟨depth + 1, .failure .connectionClosed []⟩ := by
  induction depth with
  | zero =>
    rw [countReply]
    rfl
  | succ depth ih =>
    set inner := (List.replicate depth (arrayMark :: text ++ terminator)).flatten with hinner
    have hlf : lineFeed ∉ arrayMark :: text := lineFeed_not_mem_marked (by decide) hn
    obtain ⟨h, hline⟩ := Reading.eq_value_of_toPair (line_eq_iff.2 ⟨by simp [hinner, List.replicate_succ], hlf⟩ :
      (line .closed (List.replicate (depth + 1) (arrayMark :: text ++ terminator)).flatten).toPair = (_, inner))
    have hhead : Header.ofLine (arrayMark :: text) = .ok (.items (n + 1)) := Header.ofLine_of_announces (.items text _ hn)
    rw [countReply]
    simp only [hline, hhead]
    rw [countItems, ih]
    simp only [Nat.add_comm]

/-- A thousand arrays of the greatest count that can be declared. -/
example : (countReply .closed
    (List.replicate 1000 (arrayMark :: Bytes.decimal 9223372036854775807 ++ terminator)).flatten).calls = 1001 := by
  have htext : Numeral.integer? (Bytes.decimal 9223372036854775807) = some ((9223372036854775806 + 1 : Nat) : Int) :=
    Numeral.integer?_decimal (by decide)
  rw [countReply_headers htext]

/-! ## What pays for the calls -/

/-- No reader leaves more than there was. -/
theorem Reader.Ends.length_le {α : Type} {f : Reader α} {ending : Ending} {s : Bytes} (h : Ends f ending s) :
    (f ending s).2.length ≤ s.length := by
  cases h with
  | settled w rest res split _ stable =>
    subst split
    rw [stable, List.length_append]
    exact Nat.le_add_left _ _
  | starved h => rcases h with h | h <;> rw [h] <;> exact Nat.zero_le _

section

variable {ending : Ending} {s rest : Bytes} {e : DecodeError}

theorem length_le_of_line (h : line ending s = .failure e rest) : rest.length ≤ s.length := by
  have hends := (Reader.ends_line : Ends (of line) ending s).length_le
  simpa only [of, h, Reading.toPair_failure] using hends

theorem length_le_of_payload {n : Nat} (h : payload ending n s = .failure e rest) : rest.length ≤ s.length := by
  have hends := (ends_payload n : Ends (of fun ending => payload ending n) ending s).length_le
  simpa only [of, h, Reading.toPair_failure] using hends

/-- A line that is not refused has its mark and its end. -/
theorem length_of_line {body : Bytes} {h : rest.length < s.length} (hline : line ending s = .value body rest h) :
    s.length = body.length + 2 + rest.length := by
  obtain ⟨hs, -⟩ : s = body ++ terminator ++ rest ∧ lineFeed ∉ body := line_eq_iff.1 (by rw [hline]; rfl)
  rw [hs, List.length_append, List.length_append]
  rfl

end

/-- A line announces no whole reply but a leaf. -/
theorem nodes_of_ofLine {body : Bytes} {r : Reply} (h : Header.ofLine body = .ok (.whole r)) : r.nodes = 1 := by
  cases Header.announces_of_ofLine h <;> rfl

/-- The calls of a run: as many as what it gives has nodes; or, if it fails, one for each three octets consumed and one
more at most. -/
def Counted.Accounted {limit : Nat} {α : Type} (size : α → Nat) (s : Bytes) (c : Counted limit α) : Prop :=
  match c.reading with
  | .value a _ _ => c.calls = size a
  | .failure _ rest => 3 * c.calls + rest.length ≤ s.length + 3

namespace Counted

variable {limit calls : Nat} {α : Type} {size : α → Nat} {s rest : Bytes}

theorem accounted_value {a : α} {h : rest.length < limit} :
    (⟨calls, .value a rest h⟩ : Counted limit α).Accounted size s ↔ calls = size a := Iff.rfl

theorem accounted_failure {e : DecodeError} : (⟨calls, .failure e rest⟩ : Counted limit α).Accounted size s ↔
    3 * calls + rest.length ≤ s.length + 3 := Iff.rfl

end Counted

open Counted (accounted_value accounted_failure)

mutual

theorem accounted_countReply (ending : Ending) (s : Bytes) : (countReply ending s).Accounted Reply.nodes s := by
  rw [countReply]
  cases hline : line ending s with
  | failure e rest =>
    have hrest : rest.length ≤ s.length := length_le_of_line hline
    exact accounted_failure.2 (by omega)
  | value body mid hmid =>
    simp only
    cases hbody : Header.ofLine body with
    | error e => exact accounted_failure.2 (by omega)
    | ok head =>
      have hline : s.length = body.length + 2 + mid.length := length_of_line hline
      have hmark : 1 ≤ body.length := by
        cases body with
        | nil => cases hbody
        | cons => simp
      cases head with
      | whole r => exact accounted_value.2 (nodes_of_ofLine hbody).symm
      | payload n =>
        simp only
        cases hdata : payload ending n mid with
        | failure e rest =>
          have hrest : rest.length ≤ mid.length := length_le_of_payload hdata
          exact accounted_failure.2 (by omega)
        | value data rest hrest => exact accounted_value.2 rfl
      | items n =>
        have hitems := accounted_countItems ending n mid
        simp only
        rcases hcount : countItems ending n mid with ⟨calls, ⟨rs, rest, hrest⟩ | ⟨e, rest⟩⟩
        · rw [hcount, accounted_value] at hitems
          exact accounted_value.2 (by rw [hitems, Reply.nodes])
        · -- the line of this call pays for it, as three octets of its items do for each of theirs
          rw [hcount, accounted_failure] at hitems
          exact accounted_failure.2 (by omega)
  termination_by (s.length, 0)

theorem accounted_countItems (ending : Ending) (count : Nat) (s : Bytes) :
    (countItems ending count s).Accounted nodesOfItems s := by
  cases count with
  | zero =>
    rw [countItems]
    exact accounted_value.2 rfl
  | succ count =>
    rw [countItems]
    have hfirst := accounted_countReply ending s
    have hreading := reading_countReply ending s
    rcases hcount : countReply ending s with ⟨calls, ⟨r, mid, hmid⟩ | ⟨e, rest⟩⟩
    · rw [hcount, accounted_value] at hfirst
      rw [hcount] at hreading
      have hpaid : 3 * r.nodes + r.octets + mid.length ≤ s.length :=
        size_le_of_reply (congrArg Reading.toPair hreading.symm)
      have hmore := accounted_countItems ending count mid
      simp only
      rcases hcountMore : countItems ending count mid with ⟨more, ⟨rs, rest, hrest⟩ | ⟨e, rest⟩⟩
      · rw [hcountMore, accounted_value] at hmore
        exact accounted_value.2 (by rw [hfirst, hmore, nodesOfItems])
      · rw [hcountMore, accounted_failure] at hmore
        exact accounted_failure.2 (by omega)
    · rw [hcount, accounted_failure] at hfirst
      exact accounted_failure.2 hfirst
  termination_by (s.length, 1)

end

section

variable {ending : Ending} {s rest : Bytes}

/-- A reply is read in as many calls as it has nodes. -/
theorem calls_eq_nodes {r : Reply} (h : reply ending s = (.ok r, rest)) : (countReply ending s).calls = r.nodes := by
  obtain ⟨hs, hread⟩ := Reading.eq_value_of_toPair h
  have hcount := accounted_countReply ending s
  rwa [Counted.Accounted, reading_countReply, hread] at hcount

/-- However a run ends, three octets were consumed for each call but one. -/
theorem calls_le (ending : Ending) (s : Bytes) :
    3 * (countReply ending s).calls + (reply ending s).2.length ≤ s.length + 3 := by
  cases hread : readReply ending s with
  | value r rest h =>
    have hanswer : reply ending s = (.ok r, rest) := congrArg Reading.toPair hread
    have hsize : 3 * r.nodes + r.octets + rest.length ≤ s.length := size_le_of_reply hanswer
    rw [calls_eq_nodes hanswer, hanswer]
    simp only
    omega
  | failure e rest =>
    have hcount := accounted_countReply ending s
    rw [Counted.Accounted, reading_countReply, hread] at hcount
    rw [reply, hread]
    exact hcount

end

/-- **Declared counts cannot outrun the input.** Whatever the octets, the reader consumes some `n` of them and is entered
`n / 3 + 1` times at most. A reply is read in as many calls as it has nodes, and `n` is at least three octets for each node
and its payloads besides. -/
theorem consumption_law (ending : Ending) (s : Bytes) :
    (countReply ending s).reading = readReply ending s ∧
    ∃ n, n ≤ s.length ∧ (reply ending s).2 = s.drop n ∧ (countReply ending s).calls ≤ n / 3 + 1 ∧
      ∀ r, (reply ending s).1 = .ok r → (countReply ending s).calls = r.nodes ∧ 3 * r.nodes + r.octets ≤ n := by
  obtain ⟨n, hn, hrest⟩ := dependable_reply.consumes ending s
  have hleft : (reply ending s).2.length = s.length - n := by rw [hrest, List.length_drop]
  have hcalls := calls_le ending s
  refine ⟨reading_countReply ending s, n, hn, hrest, by omega, ?_⟩
  intro r hr
  have hanswer : reply ending s = (.ok r, s.drop n) := Prod.ext hr hrest
  have hsize := size_le_of_reply hanswer
  rw [List.length_drop] at hsize
  exact ⟨calls_eq_nodes hanswer, by omega⟩

/-- Three nodes and a payload of two octets are read in three calls. -/
theorem consumption_law_nestedFrame :
    reply .closed nestedFrame = (.ok (.array [.bulk terminator, .integer 0]), []) ∧
    (countReply .closed nestedFrame).calls = 3 := by
  have hread : reply .closed (nestedFrame ++ []) = _ := readReply_of_frame frame_nestedFrame []
  rw [List.append_nil] at hread
  obtain ⟨-, n, -, -, -, hsize⟩ := consumption_law .closed nestedFrame
  exact ⟨hread, (hsize (.array [.bulk terminator, .integer 0]) (by rw [hread])).1⟩

end Wire

end RespClient
