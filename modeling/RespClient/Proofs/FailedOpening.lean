/-
Openings that come to nothing: the connection is afterwards what it was before, its room for frames apart.

- `Alike`: the same server, the same setup commands and the same channel.
- `alike_of_connect_error`, `alike_of_ensure_error`: an opening that failed; the connection is closed as before.
- `alike_of_connect_disconnect`: an opening that was taken back.
- `channel?_connect`, `peer?_connect`: what opening leaves alone: the channels there are, and all other peers.
-/
import RespClient.Proofs.OpenState
import RespClient.Proofs.Conduct

namespace RespClient.Connection

variable {c d : Connection} {net : Network} {e : ClientError}

/-- The same connection, with other room for frames perhaps. -/
def Alike (c d : Connection) : Prop := ∃ buffer, d = { c with buffer }

namespace Alike

theorem refl (c : Connection) : c.Alike c := ⟨c.buffer, rfl⟩

/-- The buffer is all that a connection has besides. -/
theorem of_parts (hend : d.endpoint = c.endpoint) (hset : d.setup = c.setup) (hch : d.channel = c.channel) :
    c.Alike d := by
  obtain ⟨endpoint, setup, channel, buffer⟩ := d
  obtain rfl : endpoint = c.endpoint := hend
  obtain rfl : setup = c.setup := hset
  obtain rfl : channel = c.channel := hch
  exact ⟨buffer, rfl⟩

theorem endpoint (h : c.Alike d) : d.endpoint = c.endpoint := by
  obtain ⟨buffer, rfl⟩ := h
  rfl

theorem setup (h : c.Alike d) : d.setup = c.setup := by
  obtain ⟨buffer, rfl⟩ := h
  rfl

theorem isConnected (h : c.Alike d) : d.isConnected = c.isConnected := by
  obtain ⟨buffer, rfl⟩ := h
  rfl

end Alike

theorem channel_of_closed (hc : c.isConnected = false) : c.channel = none := by simpa [isConnected] using hc

/-! ## Openings that fail or are taken back -/

theorem alike_of_connect_error (hc : c.isConnected = false) (h : (c.connect net).result = .error e) :
    c.Alike (c.connect net).state := by
  have hends := connect_ends hc net
  have hclosed : (c.connect net).state.isConnected = false := by
    rw [hends.isOpen, h]
    rfl
  refine .of_parts hends.endpoint (c.connect_conducts net).setup ?_
  rw [channel_of_closed hclosed, channel_of_closed hc]

theorem alike_of_connect_disconnect (hc : c.isConnected = false) : c.Alike (c.connect net).state.disconnect :=
  .of_parts (connect_ends hc net).endpoint (c.connect_conducts net).setup (channel_of_closed hc).symm

/-- Where opening is needed and fails, the connection was closed. -/
theorem alike_of_ensure_error (h : (c.ensure net).result = .error e) : c.Alike (c.ensure net).state := by
  unfold ensure at h ⊢
  cases hc : c.isConnected with
  | true => simp [hc] at h
  | false =>
    simp only [hc, Bool.false_eq_true, ↓reduceIte] at h ⊢
    exact alike_of_connect_error hc h

/-! ## What opening leaves alone -/

/-- A closed connection opens a channel of its own, if any. -/
theorem channel?_connect (hc : c.isConnected = false) {id : ChannelId} (hid : (net.channel? id).isSome) :
    (c.connect net).network.channel? id = net.channel? id := by
  refine (c.connect_conducts net).others id ?_ hid
  rw [channel_of_closed hc]
  exact nofun

/-- Only the peer at the endpoint notices. -/
theorem peer?_connect (hc : c.isConnected = false) {a : Address} (ha : a ≠ c.endpoint.address) :
    (c.connect net).network.peer? a = net.peer? a := by
  obtain ⟨-, -, ⟨-, -, -, -, hsame | ⟨-, hatt⟩⟩ | ⟨_, _, _, _, -, hopened⟩⟩ := c.connect_cases net (channel_of_closed hc)
  · rw [hsame]
  · exact hatt.elsewhere a ha
  · exact hopened.attempted.elsewhere a ha

end RespClient.Connection
