/-
What an operation leaves behind: its result, the state it ran on and the network. A failed operation leaves all three
as well, so what an error changes can be stated.
-/
import RespClient.Network

namespace RespClient

/-- The result of an operation on a state of type `σ`, and what it left. -/
structure Outcome (σ α : Type) where
  result : Except ClientError α
  state : σ
  network : Network

namespace Outcome

variable {σ τ α β : Type}

/-- Goes on from a success with what the operation left. -/
def andThen (o : Outcome σ α) (next : α → σ → Network → Outcome σ β) : Outcome σ β :=
  match o.result with
  | .ok a => next a o.state o.network
  | .error e => ⟨.error e, o.state, o.network⟩

/-- The same result on the state around the one it ran on. -/
def within (o : Outcome σ α) (put : σ → τ) : Outcome τ α := ⟨o.result, put o.state, o.network⟩

/-- Turns a successful result into another one, or into an error. -/
def refine (o : Outcome σ α) (f : α → Except ClientError β) : Outcome σ β := ⟨o.result.bind f, o.state, o.network⟩

/-- Going on inside a state is going on around it. -/
theorem within_andThen {put : σ → τ} {next : α → τ → Network → Outcome τ β} {inner : α → σ → Network → Outcome σ β}
    (h : ∀ a s net, next a (put s) net = (inner a s net).within put) (o : Outcome σ α) :
    (o.within put).andThen next = (o.andThen inner).within put := by
  unfold andThen within
  cases o.result with
  | error e => rfl
  | ok a => exact h a o.state o.network

/-- Nothing is lost inside another state, as long as the state itself is not. -/
theorem within_injective {put : σ → τ} (hput : ∀ s s', put s = put s' → s = s') {o o' : Outcome σ α}
    (h : o.within put = o'.within put) : o = o' := by
  obtain ⟨result, state, network⟩ := o
  obtain ⟨result', state', network'⟩ := o'
  obtain ⟨rfl, hstate, rfl⟩ := Outcome.mk.inj h
  rw [hput state state' hstate]

end Outcome

end RespClient
