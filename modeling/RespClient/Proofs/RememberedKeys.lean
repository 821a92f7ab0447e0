/-
Commands that remember their routing keys. A program keeps commands and does with them what it likes, in any order: build,
copy, ask for the routing key, route, give new arguments, put into a namespace, turn into the invocation of a script.

- `Command.Use.Makes`: what a use leaves of a command, argument by argument.
- `Command.Memo.Fresh`: what is remembered is the routing key of the arguments that the command has now.
- `Command.Memo.fresh_use`, `Command.Memo.command_use`: every use keeps that, and does with the command what it does with one
  that remembers nothing.
- `Shelf.fresh_run`, `Shelf.commands_run`: so does every run.
- `Shelf.getElem?_run`: a command is what was done with it, whatever was done with its copies.
- `Shelf.memory_law`: remembering is never noticed.
-/
import Mathlib.Data.List.Induction
import RespClient.Cluster
import RespClient.Proofs.Namespaces

namespace RespClient

/-! ## One command -/

/-- What can be done with a command. -/
inductive Command.Use where
  /-- the routing key is asked for -/
  | ask
  /-- a cluster is asked where the command goes -/
  | locate (cluster : Cluster)
  | setArguments (arguments : List Bytes)
  | enter (p : KeyPrefix)
  | withScript (body : Bytes)

namespace Command

/-- A use of a command that remembers nothing. -/
def use (c : Command) : Use → Command
  | .ask | .locate _ => c
  | .setArguments arguments => c.setArguments arguments
  | .enter p => p.apply c
  | .withScript body => c.withScript body

/-- What a use leaves of a command. Only new arguments and namespaces touch the arguments, and a namespace those at the places
of keys; the specification stays in any case. -/
def Use.Makes (c c' : Command) : Use → Prop
  | .ask | .locate _ => c' = c
  | .setArguments arguments => c'.spec = c.spec ∧ c'.script = c.script ∧ c'.arguments = arguments
  | .enter p => c'.spec = c.spec ∧ c'.script = c.script ∧ ∀ i, c'.arguments[i]? =
      if i ∈ c.spec.keys.positions c.arguments then c.arguments[i]?.map (p.octets ++ ·) else c.arguments[i]?
  | .withScript body => c'.spec = c.spec ∧ c'.script = some body ∧ c'.arguments = c.arguments

theorem makes_use (c : Command) (u : Use) : u.Makes c (c.use u) := by
  cases u with
  | ask | locate _ => rfl
  | setArguments arguments => exact ⟨rfl, rfl, rfl⟩
  | enter p =>
    rw [use, KeyPrefix.apply_eq]
    exact ⟨rfl, rfl, KeyPrefix.getElem?_extend p (KeyPrefix.positions_nodup c) c.arguments⟩
  | withScript body => exact ⟨rfl, rfl, rfl⟩

namespace Memo

/-- A command that was just built. -/
def built (spec : CommandSpec) (arguments : List Bytes) : Memo := { command := { spec, arguments } }

/-- A use of a command that remembers its routing key. -/
def use (m : Memo) : Use → Memo
  | .ask => m.routingKey.2
  | .locate cluster => (cluster.locateMemo m).2
  | .setArguments arguments => m.setArguments arguments
  | .enter p => p.applyMemo m
  | .withScript body => m.withScript body

/-- What is remembered is the routing key of the command as it is. -/
def Fresh (m : Memo) : Prop := ∀ key, m.slot = some key → key = m.command.routingKey

variable {m : Memo} {spec : CommandSpec} {arguments : List Bytes}

theorem fresh_built : (built spec arguments).Fresh := by
  intro key hkey
  contradiction

theorem routingKey_eq (h : m.Fresh) : m.routingKey.1 = m.command.routingKey := by
  unfold routingKey
  cases hslot : m.slot with
  | none => rfl
  | some key => exact h key hslot

/-- Asking changes nothing of the command. -/
theorem command_routingKey (m : Memo) : m.routingKey.2.command = m.command := by
  unfold routingKey
  cases m.slot <;> rfl

theorem fresh_routingKey (h : m.Fresh) : m.routingKey.2.Fresh := by
  unfold routingKey
  cases hslot : m.slot with
  | none =>
    intro key hkey
    exact (Option.some.inj hkey).symm
  | some key => exact h

theorem fresh_setArguments (m : Memo) (arguments : List Bytes) : (m.setArguments arguments).Fresh := by
  intro key hkey
  contradiction

/-- A namespace that changes the arguments empties the slot, and one that does not leaves what was right. -/
theorem fresh_applyMemo (h : m.Fresh) (p : KeyPrefix) : (p.applyMemo m).Fresh := by
  unfold KeyPrefix.applyMemo
  cases p.arguments? m.command with
  | none => exact h
  | some arguments => exact fresh_setArguments m arguments

theorem command_applyMemo (m : Memo) (p : KeyPrefix) : (p.applyMemo m).command = p.apply m.command := by
  unfold KeyPrefix.applyMemo KeyPrefix.apply
  cases p.arguments? m.command <;> rfl

/-- **No use makes the memory stale.** -/
theorem fresh_use (h : m.Fresh) (u : Use) : (m.use u).Fresh := by
  cases u with
  | ask | locate _ => exact fresh_routingKey h
  | setArguments arguments => exact fresh_setArguments m arguments
  | enter p => exact fresh_applyMemo h p
  | withScript body => exact h

/-- A use does the same with the command, memory or not. -/
theorem command_use (m : Memo) (u : Use) : (m.use u).command = m.command.use u := by
  cases u with
  | ask | locate _ => exact command_routingKey m
  | setArguments arguments => rfl
  | enter p => exact command_applyMemo m p
  | withScript body => rfl

end Memo

end Command

/-! ## Many commands -/

/-- The commands of a program, each at its place. -/
abbrev Shelf := List Command.Memo

namespace Shelf

/-- What a program can do. -/
inductive Op where
  | build (spec : CommandSpec) (arguments : List Bytes)
  | copy (i : Nat)
  | use (i : Nat) (u : Command.Use)

def step (s : Shelf) : Op → Shelf
  | .build spec arguments => s ++ [.built spec arguments]
  | .copy i => s ++ s[i]?.toList
  | .use i u => s.modify i (·.use u)

def run (ops : List Op) : Shelf := ops.foldl step []

/-- The same without memory. -/
def plainStep (s : List Command) : Op → List Command
  | .build spec arguments => s ++ [{ spec, arguments }]
  | .copy i => s ++ s[i]?.toList
  | .use i u => s.modify i (·.use u)

def plainRun (ops : List Op) : List Command := ops.foldl plainStep []

/-- The operation uses the command at the place. -/
def Op.isAt (i : Nat) : Op → Bool
  | .use j _ => j == i
  | .build .. | .copy _ => false

theorem run_snoc (ops : List Op) (op : Op) : run (ops ++ [op]) = step (run ops) op := by
  unfold run
  rw [List.foldl_append, List.foldl_cons, List.foldl_nil]

variable {s t : Shelf} {i : Nat}

theorem fresh_step (h : ∀ m ∈ s, m.Fresh) (op : Op) : ∀ m ∈ step s op, m.Fresh := by
  intro m hm
  cases op with
  | build spec arguments =>
    rcases List.mem_append.1 hm with hm | hm
    · exact h m hm
    · rw [List.mem_singleton.1 hm]
      exact Command.Memo.fresh_built
  | copy i =>
    rcases List.mem_append.1 hm with hm | hm
    · exact h m hm
    · exact h m (List.mem_of_getElem? (Option.mem_toList.1 hm))
  | use i u =>
    obtain ⟨j, hj⟩ := List.mem_iff_getElem?.1 hm
    simp only [step, List.getElem?_modify] at hj
    obtain ⟨old, hold, rfl⟩ := Option.map_eq_some_iff.1 hj
    have hfresh := h old (List.mem_of_getElem? hold)
    split_ifs
    · exact Command.Memo.fresh_use hfresh u
    · exact hfresh

theorem fresh_run (ops : List Op) : ∀ m ∈ run ops, m.Fresh := by
  induction ops using List.reverseRecOn with
  | nil => exact List.forall_mem_nil _
  | append_singleton ops op ih =>
    rw [run_snoc]
    exact fresh_step ih op

theorem commands_step (s : Shelf) (op : Op) : (step s op).map (·.command) = plainStep (s.map (·.command)) op := by
  cases op with
  | build spec arguments => simp [step, plainStep, Command.Memo.built]
  | copy i =>
    simp only [step, plainStep, List.map_append, List.getElem?_map]
    cases s[i]? <;> rfl
  | use i u =>
    refine List.ext_getElem? fun j => ?_
    simp only [step, plainStep, List.getElem?_map, List.getElem?_modify]
    cases s[j]? with
    | none => rfl
    | some m =>
      simp only [Option.map_some]
      split_ifs
      · exact congrArg some (Command.Memo.command_use m u)
      · rfl

theorem commands_run (ops : List Op) : (run ops).map (·.command) = plainRun ops := by
  induction ops using List.reverseRecOn with
  | nil => rfl
  | append_singleton ops op ih =>
    rw [run_snoc, commands_step, ih, plainRun, plainRun, List.foldl_append]
    rfl

/-! ## What is done with the others -/

theorem lt_length_step (hi : i < s.length) (op : Op) : i < (step s op).length := by
  cases op with
  | build | copy =>
    simp only [step, List.length_append]
    omega
  | use j u => simpa [step] using hi

/-- What is not done with a command leaves it alone. -/
theorem getElem?_step_of_not_isAt (hi : i < s.length) {op : Op} (hop : op.isAt i = false) : (step s op)[i]? = s[i]? := by
  cases op with
  | build | copy => exact List.getElem?_append_left hi
  | use j u =>
    have hne : j ≠ i := by simpa [Op.isAt] using hop
    simp [step, hne]

/-- What is done with a command depends on nothing else. -/
theorem getElem?_step_congr (hs : i < s.length) (ht : i < t.length) (h : s[i]? = t[i]?) (op : Op) :
    (step s op)[i]? = (step t op)[i]? := by
  cases op with
  | build | copy => rw [step, step, List.getElem?_append_left hs, List.getElem?_append_left ht, h]
  | use j u => simp only [step, List.getElem?_modify, h]

/-- **A command is what was done with it.** The induction is on the operations; both runs have the same at the place. -/
theorem getElem?_foldl_step (ops : List Op) (hs : i < s.length) (ht : i < t.length) (h : s[i]? = t[i]?) :
    (ops.foldl step s)[i]? = ((ops.filter (·.isAt i)).foldl step t)[i]? := by
  induction ops generalizing s t with
  | nil => exact h
  | cons op ops ih =>
    cases hop : op.isAt i with
    | true =>
      rw [List.filter_cons_of_pos hop]
      exact ih (lt_length_step hs op) (lt_length_step ht op) (getElem?_step_congr hs ht h op)
    | false =>
      rw [List.filter_cons_of_neg (by simp [hop])]
      exact ih (lt_length_step hs op) ht ((getElem?_step_of_not_isAt hs hop).trans h)

/-- What a use leaves at its place. -/
theorem getElem?_run_use (ops : List Op) {m : Command.Memo} (hm : (run ops)[i]? = some m) (u : Command.Use) :
    ∃ m', (run (ops ++ [.use i u]))[i]? = some m' ∧ u.Makes m.command m'.command := by
  refine ⟨m.use u, ?_, ?_⟩
  · rw [run_snoc, step, List.getElem?_modify_eq, hm]
    rfl
  · rw [Command.Memo.command_use]
    exact m.command.makes_use u

theorem getElem?_run (ops later : List Op) (hi : i < (run ops).length) :
    (run (ops ++ later))[i]? = (run (ops ++ later.filter (·.isAt i)))[i]? := by
  unfold run at hi ⊢
  rw [List.foldl_append, List.foldl_append]
  exact getElem?_foldl_step later hi hi rfl

/-! ## The law -/

/-- What a program sees of its commands after some operations. -/
structure Remembers (ops : List Op) : Prop where
  fresh : ∀ m ∈ run ops, ∀ key, m.slot = some key → key = m.command.routingKey
  answer : ∀ m ∈ run ops, m.routingKey.1 = (Command.Memo.built m.command.spec m.command.arguments).routingKey.1
  located : ∀ m ∈ run ops, ∀ cluster : Cluster, (cluster.locateMemo m).1 =
    (cluster.locateMemo (.built m.command.spec m.command.arguments)).1
  commands : (run ops).map (·.command) = plainRun ops
  built : ∀ spec arguments, run (ops ++ [.build spec arguments]) = run ops ++ [{ command := { spec, arguments }, slot := none }]
  used : ∀ i m, (run ops)[i]? = some m → ∀ u, ∃ m', (run (ops ++ [.use i u]))[i]? = some m' ∧
    u.Makes m.command m'.command
  copies : ∀ i m, (run ops)[i]? = some m → run (ops ++ [.copy i]) = run ops ++ [m]
  apart : ∀ (later : List Op) (i : Nat), i < (run ops).length →
    (run (ops ++ later))[i]? = (run (ops ++ later.filter (·.isAt i)))[i]?

/-- **The law of memory.** Whatever is done with commands, in any order, what one of them remembers is right: it is routed as if
it were built anew with its arguments, which are those it was given, in the namespaces it was put into. A copy remembers the
same, and nothing that is done with one reaches the other. -/
theorem memory_law (ops : List Op) : Remembers ops where
  fresh := fresh_run ops
  answer m hm := Command.Memo.routingKey_eq (fresh_run ops m hm)
  located m hm cluster := by
    have hkey := Command.Memo.routingKey_eq (fresh_run ops m hm)
    exact congrArg (cluster.locateKey m.command.id) hkey
  commands := commands_run ops
  built spec arguments := run_snoc ops (.build spec arguments)
  used _ _ hm u := getElem?_run_use ops hm u
  copies i m hm := by
    rw [run_snoc, step, hm]
    rfl
  apart later _ hi := getElem?_run ops later hi

/-- A command that was copied after it had been asked, and put into a namespace then: the copy still has the old key. -/
example :
    (run [.build (.named "GET" .first .read) [Bytes.ofText "foo"], .use 0 .ask, .copy 0,
      .use 0 (.enter ⟨Bytes.ofText "app:"⟩)]).map (fun m => (m.slot, m.routingKey.1)) =
      [(none, some (Bytes.ofText "app:foo")), (some (some (Bytes.ofText "foo")), some (Bytes.ofText "foo"))] := by
  decide +kernel

end Shelf

end RespClient
