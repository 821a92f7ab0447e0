/-
Commands whose arguments say how many keys follow: which arguments are the keys, and what a namespace makes of them.

- `positions_counted`: the keys are those counted, wherever other arguments look like keys.
- `apply_counted`: a namespace goes before each key, once, and before nothing else.
-/
import RespClient.Proofs.Framing
import RespClient.Proofs.Namespaces

namespace RespClient

/-- A count that was written is read back. -/
theorem Numeral.unsigned?_decimal {n : Nat} (h : n < UInt64.size) : unsigned? (Bytes.decimal n) = some n := by
  unfold unsigned?
  split
  · next rest heq =>
    have hplus : (43 : UInt8) ∈ Bytes.decimal n := by
      rw [heq]
      exact List.mem_cons_self
    exact absurd (Bytes.isDigit_of_mem_decimal hplus) (by decide)
  · exact digits?_decimal h

variable {before keys after : List Bytes}

/-- The keys counted stand behind their number. -/
theorem KeyLayout.positions_counted (hkeys : keys.length < UInt64.size) :
    (KeyLayout.counted before.length false).positions (before ++ Bytes.decimal keys.length :: (keys ++ after)) =
      List.range' (before.length + 1) keys.length := by
  have hdeclared : declared before.length (before ++ Bytes.decimal keys.length :: (keys ++ after)) = keys.length := by
    unfold declared
    rw [List.getElem?_append_right (Nat.le_refl _), Nat.sub_self, List.getElem?_cons_zero, Option.bind_some,
      Numeral.unsigned?_decimal hkeys, Option.getD_some]
  have hlength : (before ++ Bytes.decimal keys.length :: (keys ++ after)).length =
      before.length + 1 + keys.length + after.length := by
    simp only [List.length_append, List.length_cons]
    omega
  simp only [positions, hdeclared, hlength, Bool.false_and, Bool.false_eq_true, ↓reduceIte, List.nil_append]
  congr 1
  omega

/-- The arguments at the places of a segment are that segment. -/
theorem filterMap_segment (before keys after : List Bytes) :
    (List.range' before.length keys.length).filterMap ((before ++ (keys ++ after))[·]?) = keys := by
  induction keys generalizing before with
  | nil => rfl
  | cons key keys ih =>
    have hhead : (before ++ (key :: keys ++ after))[before.length]? = some key := by simp
    have htail := ih (before ++ [key])
    rw [List.length_append, List.length_singleton, List.append_assoc] at htail
    rw [List.length_cons, List.range'_succ, List.filterMap_cons, hhead]
    exact congrArg (key :: ·) htail

/-- A namespace before the keys of a segment. -/
theorem KeyPrefix.extend_segment (p : KeyPrefix) (before keys after : List Bytes) :
    p.extend (List.range' before.length keys.length) (before ++ (keys ++ after)) =
      before ++ (keys.map (p.octets ++ ·) ++ after) := by
  induction keys generalizing before with
  | nil => rfl
  | cons key keys ih =>
    have hhead : (before ++ (key :: keys ++ after)).modify before.length (p.octets ++ ·) =
        before ++ [p.octets ++ key] ++ (keys ++ after) := by
      have hlt : before.length < (before ++ (key :: keys ++ after)).length := by simp
      rw [List.modify_eq_set_get _ hlt]
      simp
    have htail := ih (before ++ [p.octets ++ key])
    rw [List.length_append, List.length_singleton] at htail
    rw [List.length_cons, List.range'_succ]
    unfold extend at htail ⊢
    rw [List.foldl_cons, hhead, htail]
    simp

/-- **A namespace goes before each key counted, and before nothing else.** -/
theorem KeyPrefix.apply_counted (p : KeyPrefix) {c : Command} (before : List Bytes)
    (hlayout : c.spec.keys = .counted before.length false)
    (hargs : c.arguments = before ++ Bytes.decimal keys.length :: (keys ++ after)) (hkeys : keys.length < UInt64.size) :
    p.apply c = c.setArguments (before ++ Bytes.decimal keys.length :: (keys.map (p.octets ++ ·) ++ after)) := by
  have hpositions : c.spec.keys.positions c.arguments = List.range' (before.length + 1) keys.length := by
    rw [hlayout, hargs, KeyLayout.positions_counted hkeys]
  have hextend := p.extend_segment (before ++ [Bytes.decimal keys.length]) keys after
  simp only [List.length_append, List.length_singleton, List.append_assoc, List.singleton_append] at hextend
  rw [apply_eq, hpositions, hargs, hextend]

/-- The keys of a command are those counted. -/
theorem Command.keys_counted {c : Command} (before : List Bytes)
    (hlayout : c.spec.keys = .counted before.length false)
    (hargs : c.arguments = before ++ Bytes.decimal keys.length :: (keys ++ after)) (hkeys : keys.length < UInt64.size) :
    c.keys = keys := by
  have hsegment := filterMap_segment (before ++ [Bytes.decimal keys.length]) keys after
  simp only [List.length_append, List.length_singleton, List.append_assoc, List.singleton_append] at hsegment
  unfold Command.keys
  rw [hlayout, hargs, KeyLayout.positions_counted hkeys, hsegment]

end RespClient
