/-
Invoking a stored script. The server may have forgotten it; then its body is evaluated instead, with the keys as they were
sent before, so with each in the client's namespace once, and at the same member.

- `stored`, `afresh`: the two commands, which differ in their ids and in their first arguments only.
- `invocation_eq`: invoking builds the one, and the fallback the other (`create_afresh`).
- `topology_dispatch_cluster`, `topology_dispatch_replication`: what later commands are routed by survives dispatching.
- `fallback_law`: how an invocation goes, for any client on any network.
-/
import Mathlib
import RespClient.Client.TypedCommands
import RespClient.Proofs.CountedKeys
import RespClient.Proofs.Dispatch

namespace RespClient

/-! ## In the catalogue -/

namespace Catalogue

theorem create_of_find? {catalogue : Catalogue} {id : String} {spec : CommandSpec} (h : catalogue.find? id = some spec)
    (arguments : List Bytes) : catalogue.create id arguments = .ok { spec, arguments } := by
  rw [create, h]

theorem standard_invoking : standard.find? "EVALSHA" = some (.named "EVALSHA" (.counted 1 false) .write) := by
  decide +kernel

theorem standard_evaluating : standard.find? "EVAL" = some (.named "EVAL" (.counted 1 false) .write) := by
  decide +kernel

end Catalogue

namespace Client

/-! ## The commands -/

/-- A key as the server knows it: in the client's namespace. -/
def spell (c : Client) (key : Bytes) : Bytes := Bytes.ofText (c.options.keyPrefix.getD "") ++ key

/-- The invocation of a stored script. -/
def stored (script : Script.Stored) (keys args : List Bytes) (c : Client) : Command where
  spec := .named "EVALSHA" (.counted 1 false) .write
  arguments := Bytes.ofText script.digest :: Bytes.decimal keys.length :: (keys.map c.spell ++ args)
  script := some script.body

/-- The evaluation of its body. -/
def afresh (script : Script.Stored) (keys args : List Bytes) (c : Client) : Command where
  spec := .named "EVAL" (.counted 1 false) .write
  arguments := script.body :: Bytes.decimal keys.length :: (keys.map c.spell ++ args)

variable {c : Client} {script : Script.Stored} {keys args : List Bytes}

/-- The namespace, if there is one, is what keys are spelled with. -/
theorem keyPrefix?_cases (c : Client) : c.keyPrefix? = none ∧ (∀ key, c.spell key = key) ∨
    ∃ p : KeyPrefix, c.keyPrefix? = some p ∧ ∀ key, c.spell key = p.octets ++ key := by
  unfold keyPrefix? spell
  split
  · next h => exact .inl ⟨rfl, fun key => by rw [h]; rfl⟩
  · next h => exact .inl ⟨rfl, fun key => by rw [h]; rfl⟩
  · next s _ h => exact .inr ⟨⟨Bytes.ofText s⟩, rfl, fun key => by rw [h]; rfl⟩

/-- **Invoking builds one command,** in which each key is spelled once and no other argument is. -/
theorem invocation_eq (hc : c.catalogue = .standard) (hkeys : keys.length < UInt64.size) :
    c.invocation script keys args = .ok (c.stored script keys args) := by
  unfold invocation create
  rw [hc, Catalogue.create_of_find? Catalogue.standard_invoking]
  rcases c.keyPrefix?_cases with ⟨hp, hspell⟩ | ⟨p, hp, hspell⟩
  · have hmap : keys.map c.spell = keys := List.map_id'' hspell keys
    simp only [hp, Except.map, stored, hmap]
    rfl
  · have hmap : keys.map c.spell = keys.map (p.octets ++ ·) := List.map_congr_left fun key _ => hspell key
    simp only [hp, Except.map, stored, hmap]
    rw [p.apply_counted [Bytes.ofText script.digest] rfl rfl hkeys]
    rfl

theorem create_afresh (hc : c.catalogue = .standard) :
    c.catalogue.create "EVAL" (script.body :: (c.stored script keys args).arguments.drop 1) =
      .ok (c.afresh script keys args) := by
  rw [hc, Catalogue.create_of_find? Catalogue.standard_evaluating]
  rfl

/-- The keys of either command are those given, spelled, whatever the other arguments are. -/
theorem keys_of_spelled {command : Command} {first : Bytes} (hlayout : command.spec.keys = .counted 1 false)
    (hargs : command.arguments = first :: Bytes.decimal keys.length :: (keys.map c.spell ++ args))
    (hkeys : keys.length < UInt64.size) : command.keys = keys.map c.spell := by
  have hlength : (keys.map c.spell).length = keys.length := List.length_map ..
  rw [← hlength] at hargs hkeys
  exact Command.keys_counted [first] hlayout hargs hkeys

theorem keys_stored (hkeys : keys.length < UInt64.size) : (c.stored script keys args).keys = keys.map c.spell :=
  keys_of_spelled rfl rfl hkeys

theorem keys_afresh (hkeys : keys.length < UInt64.size) : (c.afresh script keys args).keys = keys.map c.spell :=
  keys_of_spelled rfl rfl hkeys

theorem routingKey_afresh (hkeys : keys.length < UInt64.size) :
    (c.afresh script keys args).routingKey = (c.stored script keys args).routingKey := by
  unfold Command.routingKey
  rw [keys_afresh hkeys, keys_stored hkeys]

/-! ## Where they go -/

variable {target : Option String} {command : Command} {net : Network}

/-- A member is still there after a command was dispatched, and leads to the same server. -/
theorem member?_dispatch {p : Place} {m : Connection} (hp : (c.topology.route target command).1 = .ok p)
    (hm : c.topology.member? p = some m) (net : Network) :
    ∃ m', (c.dispatch target command net).state.topology.member? p = some m' ∧ m'.endpoint = m.endpoint := by
  have hsame := c.topology.member?_route target command p
  rcases c.dispatch_cases target command net with ⟨e, -, h⟩ | ⟨p', m₀, hp', hm₀, h⟩
  · rw [h]
    exact ⟨m, hsame.trans hm, rfl⟩
  · obtain rfl := Except.ok.inj (hp.symm.trans hp')
    obtain rfl := Option.some.inj (hm.symm.trans hm₀)
    rw [h]
    exact ⟨_, Topology.member?_setMember (hsame.trans hm) _, (m.dispatch_conducts _ command net).endpoint⟩

/-- Ring and roster of a cluster stay as they are. -/
theorem topology_dispatch_cluster {cluster : Cluster} (hkind : c.topology = .cluster cluster)
    (target : Option String) (command : Command) (net : Network) :
    ∃ cluster', (c.dispatch target command net).state.topology = .cluster cluster' ∧
      cluster'.ring = cluster.ring ∧ cluster'.roster = cluster.roster := by
  have hroute : (c.topology.route target command).2 = .cluster cluster := by
    rcases c.topology.route_cases target command with h | ⟨r, current, turn, h, -⟩
    · exact h.trans hkind
    · rw [hkind] at h
      cases h
  rcases c.dispatch_cases target command net with ⟨e, -, h⟩ | ⟨p, m, -, hm, h⟩
  · rw [h, hroute]
    exact ⟨cluster, rfl, rfl, rfl⟩
  · rw [hkind] at hm
    rcases Topology.member?_cases hm with ⟨hother, -⟩ | ⟨cluster', i, hsame, rfl, rfl⟩ | ⟨r, ρ, hother, -⟩
    · cases hother
    · obtain rfl := Topology.cluster.inj hsame
      rw [h, hroute]
      refine ⟨_, Topology.setMember_node cluster i _, rfl, ?_⟩
      exact cluster.roster_set i (Connection.dispatch_conducts _ command _ net).endpoint
    · cases hother

/-- A replicated set stays complete, and its rules stay as they are. -/
theorem topology_dispatch_replication {r : Replication} (hkind : c.topology = .replication r)
    (target : Option String) (command : Command) (net : Network) :
    ∃ r', (c.dispatch target command net).state.topology = .replication r' ∧
      r'.rules = r.rules ∧ r'.isComplete = r.isComplete := by
  obtain ⟨r₁, hroute, hrules, hcomplete⟩ : ∃ r₁, (c.topology.route target command).2 = .replication r₁ ∧
      r₁.rules = r.rules ∧ r₁.isComplete = r.isComplete := by
    rcases c.topology.route_cases target command with h | ⟨r₀, current, turn, hsame, h⟩
    · exact ⟨r, h.trans hkind, rfl, rfl⟩
    · obtain rfl := Topology.replication.inj (hkind.symm.trans hsame)
      exact ⟨_, h, rfl, rfl⟩
  rcases c.dispatch_cases target command net with ⟨e, -, h⟩ | ⟨p, m, -, hm, h⟩
  · rw [h, hroute]
    exact ⟨r₁, rfl, hrules, hcomplete⟩
  · rw [← c.topology.member?_route target command, hroute] at hm
    rcases Topology.member?_cases hm with ⟨hother, -⟩ | ⟨cluster, i, hother, -⟩ | ⟨r₂, ρ, hsame, rfl, hρ⟩
    · cases hother
    · cases hother
    · obtain rfl := Topology.replication.inj hsame
      rw [h, hroute]
      refine ⟨_, rfl, ?_, (Replication.isComplete_setMember hρ _).trans hcomplete⟩
      cases ρ <;> exact hrules

/-- After the first command was dispatched, the second one goes to the same place, where the same server is. -/
def GoesWith (c : Client) (net : Network) (first second : Command) (p : Place) : Prop :=
  ((c.dispatch none first net).state.topology.route none second).1 = .ok p ∧
  ∃ m m', c.topology.member? p = some m ∧ (c.dispatch none first net).state.topology.member? p = some m' ∧
    m'.endpoint = m.endpoint

variable {first second : Command} {p : Place}

theorem goesWith_cluster {cluster : Cluster} (hkind : c.topology = .cluster cluster)
    (hkey : second.routingKey = first.routingKey) (hp : (c.topology.route none first).1 = .ok p) :
    c.GoesWith net first second p := by
  obtain ⟨cluster', hkind', hring, hroster⟩ := topology_dispatch_cluster hkind none first net
  have hp₀ := hp
  rw [hkind] at hp
  cases hlocate : cluster.locate first with
  | error e =>
    simp only [Topology.route, hlocate] at hp
    cases hp
  | ok i =>
    simp only [Topology.route, hlocate] at hp
    obtain rfl : .node i = p := Except.ok.inj hp
    have hm : c.topology.member? (.node i) = some (cluster.member i).2 := by
      rw [hkind]
      exact Topology.member?_node cluster i
    obtain ⟨m', hm', hend⟩ := member?_dispatch hp₀ hm net
    refine ⟨?_, _, m', hm, hm', hend⟩
    rw [hkind']
    simp only [Topology.route, Cluster.locate_congr hroster hring, Cluster.locate_of_routingKey hkey hlocate]
    rfl

theorem goesWith_replication {r : Replication} (hkind : c.topology = .replication r)
    (hfirst : r.reads first = .ok false) (hsecond : r.reads second = .ok false)
    (hp : (c.topology.route none first).1 = .ok p) : p = .role .master ∧ c.GoesWith net first second p := by
  obtain ⟨r', hkind', hrules, hcomplete⟩ := topology_dispatch_replication hkind none first net
  have hp₀ := hp
  rw [hkind] at hp
  rcases r.choose_cases first with ⟨e, he⟩ | ⟨ρ, turn, hρ, hc, -⟩
  · simp only [Topology.route, he] at hp
    cases hp
  · simp only [Topology.route, Replication.choose_of_write hc hfirst] at hp
    obtain rfl : .role .master = p := Except.ok.inj hp
    obtain ⟨m, hm⟩ := Option.isSome_iff_exists.1 (Replication.isComplete_iff.1 hc).1
    have hmember : c.topology.member? (.role .master) = some m := by
      rw [hkind]
      exact hm
    obtain ⟨m', hm', hend⟩ := member?_dispatch hp₀ hmember net
    refine ⟨rfl, ?_, m, m', hmember, hm', hend⟩
    have hreads : r'.reads second = .ok false := by
      rw [← hsecond]
      simp only [Replication.reads, hrules]
    rw [hkind']
    simp only [Topology.route, Replication.choose_of_write (hcomplete.trans hc) hreads]
    rfl

/-! ## How an invocation goes -/

/-- A command is executed, and if the server has forgotten the script it names, another one instead; `o` is the outcome. -/
structure FallsBack (c : Client) (net : Network) (first second : Command) (o : Outcome Client Value) : Prop where
  /-- the first command is what is sent first, and nothing else -/
  sent : ∃ tries, c.Dispatches net none first tries
  failed : ∀ e, (c.dispatch none first net).result = .error e →
    o = ⟨.error e, (c.dispatch none first net).state, (c.dispatch none first net).network⟩
  /-- any other reply than that the script is not stored is presented -/
  found : ∀ reply, (c.dispatch none first net).result = .ok reply →
    (∀ e, reply = .error e → e.category ≠ some "NOSCRIPT") →
    o = ⟨c.present first reply, (c.dispatch none first net).state, (c.dispatch none first net).network⟩
  /-- else the second command is dispatched in the same way, and the outcome is what comes of it -/
  forgotten : ∀ e, (c.dispatch none first net).result = .ok (.error e) → e.category = some "NOSCRIPT" →
    (∃ evals, (c.dispatch none first net).state.Dispatches (c.dispatch none first net).network none second evals) ∧
    o = ((c.dispatch none first net).state.dispatch none second (c.dispatch none first net).network).refine
      (c.present second)
  cluster : ∀ cluster p, c.topology = .cluster cluster → (c.topology.route none first).1 = .ok p →
    c.GoesWith net first second p
  replication : ∀ r p, c.topology = .replication r → r.rules.lookup first.id = none → r.rules.lookup second.id = none →
    (c.topology.route none first).1 = .ok p → p = .role .master ∧ c.GoesWith net first second p

/-- **The fallback law.** A stored script is invoked with its digest, the number of keys, the keys, each spelled once, and the
arguments as they are. If the server has forgotten it, its body is evaluated with all of that as it was, and the outcome is
that of the evaluation. Both commands have the same keys; in a cluster they go to the same member, and in a replicated set
without rules for them to the master. -/
theorem fallback_law (hc : c.catalogue = .standard) (hkeys : keys.length < UInt64.size) (args : List Bytes)
    (script : Script.Stored) (net : Network) :
    c.invocation script keys args = .ok (c.stored script keys args) ∧
    (c.stored script keys args).keys = keys.map c.spell ∧
    (c.afresh script keys args).keys = keys.map c.spell ∧
    (c.afresh script keys args).routingKey = (c.stored script keys args).routingKey ∧
    c.FallsBack net (c.stored script keys args) (c.afresh script keys args) (c.evalScript script keys args net) := by
  have hrun : c.evalScript script keys args net = c.run none (c.stored script keys args) net := by
    unfold evalScript
    rw [invocation_eq hc hkeys]
    rfl
  refine ⟨invocation_eq hc hkeys, keys_stored hkeys, keys_afresh hkeys, routingKey_afresh hkeys, ?_⟩
  rw [hrun]
  refine ⟨c.exists_dispatches none _ net, fun e he => run_of_error he, ?_, ?_, ?_, ?_⟩
  · intro reply hreply hfound
    refine run_of_kept hreply (fallback?_eq_none_iff.2 fun e he hcat => ?_)
    exact absurd hcat (hfound e he)
  · intro e he hcat
    have hfallback : fallback? (c.stored script keys args) (.error e) =
        some (script.body :: (c.stored script keys args).arguments.drop 1) :=
      fallback?_eq_some_iff.2 ⟨e, script.body, rfl, hcat, rfl, rfl⟩
    exact ⟨exists_dispatches _ none _ _, run_of_evaluated he hfallback (create_afresh hc)⟩
  · intro cluster p hkind hp
    exact goesWith_cluster hkind (routingKey_afresh hkeys) hp
  · intro r p hkind hfirst hsecond hp
    have hreads : ∀ command : Command, command.spec.access = .write → r.rules.lookup command.id = none →
        r.reads command = .ok false := by
      intro command haccess hrule
      simp only [Replication.reads, hrule, haccess]
    exact goesWith_replication hkind (hreads _ rfl hfirst) (hreads _ rfl hsecond) hp

/-- A server has forgotten a script, which is invoked with two equal keys and an argument that looks like them. -/
theorem fallback_law_forgotten :
    let a : Address := .host "h" 1
    let net : Network := ⟨[(a, { coming := [.accepted { octets := Bytes.ofText "-NOSCRIPT gone\r\n:7\r\n" }] })]⟩
    let c : Client :=
      { topology := .single { endpoint := { host := "h", port := 1 } }, options := { keyPrefix := some "ns:" } }
    let script : Script.Stored := { body := Bytes.ofText "return 7", digest := "d1" }
    let keys : List Bytes := [Bytes.ofText "a", Bytes.ofText "a"]
    let args : List Bytes := [Bytes.ofText "a"]
    let o := c.evalScript script keys args net
    c.catalogue = .standard ∧ keys.length < UInt64.size ∧
    (c.afresh script keys args).keys = [Bytes.ofText "ns:a", Bytes.ofText "ns:a"] ∧
    c.FallsBack net (c.stored script keys args) (c.afresh script keys args) o ∧
    o.result = .ok (.int 7) ∧
    o.network.log a = [(c.stored script keys args).frame ++ (c.afresh script keys args).frame] := by
  intro a net c script keys args o
  have hc : c.catalogue = .standard := rfl
  have hkeys : keys.length < UInt64.size := by decide
  obtain ⟨-, -, hafresh, -, hfalls⟩ := fallback_law hc hkeys args script net
  have hfirst : (c.dispatch none (c.stored script keys args) net).result = .ok (.error ⟨"NOSCRIPT gone"⟩) := by cbv
  obtain ⟨-, ho⟩ := hfalls.forgotten ⟨"NOSCRIPT gone"⟩ hfirst (by decide)
  refine ⟨hc, hkeys, hafresh.trans (by decide), hfalls, ?_, ?_⟩
  · rw [show o = _ from ho]
    cbv
  · rw [show o = _ from ho]
    cbv

end Client

end RespClient
