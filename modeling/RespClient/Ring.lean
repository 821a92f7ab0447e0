/-
A ring of weighted nodes. Each node owns points on the circle of 32-bit numbers, as many as its weight asks for; a key
belongs to the node of the first point at or after the key's hash, going round to the least point after the last.
Points are the hashes of `<node>:<i>`, so a node's points depend on its own name and weight only, and equal points are
ordered by node.

A point on the ring knows its node by its place among the nodes, so the points are laid out anew whenever the nodes
change. The hash is a part of the ring; `Crc32.checksum` is the usual one.

The number of points comes from a product that is taken in a 64-bit word, and a product that does not fit there stops the
program. `add?` and `remove?` are the operations as a program runs them; `add` and `remove` are the rings that they give.
-/
import RespClient.Crc32

namespace RespClient

/-- Nodes with their weights in order of insertion, and their points in order round the circle. -/
structure Ring where
  hash : Bytes → UInt32
  /-- points of a node of weight 100 -/
  replicas : Nat
  nodes : List (String × Nat)
  /-- each point with the place of its node -/
  points : List (UInt32 × Fin nodes.length)

namespace Ring

def defaultReplicas : Nat := 128

def defaultWeight : Nat := 100

/-- A ring without nodes. -/
def empty (replicas : Nat := defaultReplicas) (hash : Bytes → UInt32 := Crc32.checksum) : Ring :=
  { hash, replicas := max replicas 1, nodes := [], points := [] }

/-- How many points a weight gives. -/
def share (r : Ring) (weight : Nat) : Nat := r.replicas * weight / defaultWeight

/-- The `i`-th point of a node. -/
def point (r : Ring) (node : String) (i : Nat) : UInt32 := r.hash (Bytes.ofText s!"{node}:{i}")

/-- The name of the node at a place. -/
def nameAt (nodes : List (String × Nat)) (place : Fin nodes.length) : String := nodes[place].1

/-- The points of the node at a place. -/
def pointsAt (r : Ring) (nodes : List (String × Nat)) (place : Fin nodes.length) : List (UInt32 × Fin nodes.length) :=
  (List.range (r.share nodes[place].2)).map fun i => (r.point (nameAt nodes place) i, place)

/-- The order round the circle: by number, equal numbers by node. -/
def before (nodes : List (String × Nat)) (a b : UInt32 × Fin nodes.length) : Bool :=
  a.1 < b.1 || (a.1 == b.1 && nameAt nodes a.2 ≤ nameAt nodes b.2)

/-- The ring over the given nodes. -/
def withNodes (r : Ring) (nodes : List (String × Nat)) : Ring :=
  { r with nodes, points := ((List.finRange nodes.length).flatMap (r.pointsAt nodes)).mergeSort (before nodes) }

def contains (r : Ring) (node : String) : Bool := r.nodes.any (·.1 == node)

/-- The nodes after one joined or changed its weight in place. -/
def joined (r : Ring) (node : String) (weight : Option Nat) : List (String × Nat) :=
  let w := weight.getD defaultWeight
  if r.contains node then r.nodes.map fun n => if n.1 == node then (node, w) else n else r.nodes ++ [(node, w)]

/-- A node joins, or changes its weight in place. -/
def add (r : Ring) (node : String) (weight : Option Nat := none) : Ring := r.withNodes (r.joined node weight)

/-- A node leaves. -/
def remove (r : Ring) (node : String) : Ring :=
  if r.contains node then r.withNodes (r.nodes.filter (·.1 != node)) else r

/-- The ring over the given nodes, if the product of every weight fits a word. -/
def withNodes? (r : Ring) (nodes : List (String × Nat)) : Option Ring :=
  if nodes.all fun n => r.replicas * n.2 < UInt64.size then some (r.withNodes nodes) else none

/-- A node joins, unless that stops the program. -/
def add? (r : Ring) (node : String) (weight : Option Nat := none) : Option Ring := r.withNodes? (r.joined node weight)

/-- A node leaves, unless that stops the program. -/
def remove? (r : Ring) (node : String) : Option Ring :=
  if r.contains node then r.withNodes? (r.nodes.filter (·.1 != node)) else some r

/-- No node has a point. -/
def isEmpty (r : Ring) : Bool := r.points.isEmpty

/-- The node that owns a place on the circle. -/
def owner (r : Ring) (h : UInt32) : Option String :=
  match r.points.find? (h ≤ ·.1) with
  | some p => some (nameAt r.nodes p.2)
  | none => r.points.head?.map (nameAt r.nodes ·.2)

/-- The node that owns a key. -/
def ownerOf (r : Ring) (key : Bytes) : Option String := r.owner (r.hash key)

end Ring

end RespClient
