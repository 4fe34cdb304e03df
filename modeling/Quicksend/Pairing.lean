import Quicksend.Proto

/-!
# The paired screen (`pairing.js`)

The state of one client while it is paired, and what the listeners of its
sockets, its timers and its buttons do to it. Leaving the screen is final
here: what follows is another session.
-/

namespace Quicksend

/-- Which way files go at this end; it starts out from the pairing role and
changes only by role swaps. -/
inductive TransferRole where
  | sender
  | receiver
  deriving DecidableEq

/-- The other of the two transfer roles: what a side becomes when a swap is agreed
on. -/
def TransferRole.flip : TransferRole → TransferRole
  | .sender => .receiver
  | .receiver => .sender

@[simp] theorem TransferRole.flip_flip (t : TransferRole) : t.flip.flip = t := by cases t <;> rfl

/-- Flipping one of two roles makes equal ones differ and different ones equal. -/
theorem TransferRole.flip_ne_iff (s t : TransferRole) : s.flip ≠ t ↔ s = t := by
  cases s <;> cases t <;> decide

theorem TransferRole.ne_flip_iff (s t : TransferRole) : s ≠ t.flip ↔ s = t := by
  cases s <;> cases t <;> decide

namespace Pairing

/-- `RECONNECT_MAX_ATTEMPTS`: the attempt whose failure shows the error screen
instead of starting a timer. -/
def RECONNECT_MAX_ATTEMPTS : Nat := 15

/-- What the two clients tell each other about roles. -/
inductive Signal where
  | roleSwapRequest
  | roleSwapResponse (accepted : Bool)
  deriving DecidableEq

/-- What the relay itself tells a client of a paired session, as far as its
listeners look at it. -/
inductive Notice where
  | reconnected
  | peerReconnected
  | peerDisconnected
  | sessionEnded (reason : String)
  | error (code : String)
  deriving DecidableEq

/-- What arrives on a client's socket: a notice of the relay, or a signal of the
other side passed on. -/
inductive Down where
  | notice (n : Notice)
  | signal (s : Signal)
  deriving DecidableEq

/-- What a client puts on its socket: the `reconnect` that opens an attempt, or a
signal for the other side. -/
inductive Up where
  | reconnect
  | signal (s : Signal)
  deriving DecidableEq

/-- What a paired page knows of its session: role, epoch, transfer role and
socket, a swap it waits for, and the timers that run. -/
structure Client where
  /-- `currentState.screen` is `"paired"`. -/
  paired : Bool
  role : Role
  epoch : Nat
  transferRole : TransferRole
  activeSocket : Option ConnId
  swapAwaitingResponse : Bool
  /-- The running 8-second timers of swap requests. -/
  swapTimers : Nat
  /-- The attempts that a running 3-second timer will make. -/
  retries : List Nat
  deriving DecidableEq

/-- What a listener did: the client after it, the answer on its socket,
whether the screen was rendered again, and the socket that was closed. -/
structure Reaction where
  client : Client
  reply : Option Signal
  rendered : Bool
  closes : Option ConnId
  deriving DecidableEq

namespace Client

/-- `finalizePaired`: the session is paired on this socket, in epoch 0, with the
host receiving and the guest sending. -/
def finalizePaired (role : Role) (socket : ConnId) : Client where
  paired := true
  role := role
  epoch := 0
  transferRole := if role = .host then .receiver else .sender
  activeSocket := some socket
  swapAwaitingResponse := false
  swapTimers := 0
  retries := []

/-- Nothing to send, to draw or to close; the client may have changed what it
knows. -/
def stay (c : Client) : Reaction :=
  { client := c, reply := none, rendered := false, closes := none }

/-- `render` on the paired screen: a swap negotiation is dropped. -/
def renderPaired (c : Client) : Reaction :=
  { client := { c with swapAwaitingResponse := false }, reply := none, rendered := true
    closes := none }

/-- `setState` away from the paired screen: the client is unpaired, and its active
socket is to be closed. -/
def setState (c : Client) : Reaction :=
  { client := { c with paired := false, activeSocket := none }, reply := none, rendered := false
    closes := c.activeSocket }

/-- `flipTransferRole()`: turn the transfer role around and draw the paired screen
anew for it. -/
def flipTransferRole (c : Client) : Reaction :=
  { c with transferRole := c.transferRole.flip }.renderPaired

/-- A click on the swap button, with `activeTransferHandle.isActive()`. Without
a socket the send throws, and no timer is set. -/
def requestRoleSwap (c : Client) (busy : Bool) : Client × Option (ConnId × Signal) :=
  if busy || c.swapAwaitingResponse then (c, none)
  else match c.activeSocket with
    | none => ({ c with swapAwaitingResponse := true }, none)
    | some socket =>
        ({ c with swapAwaitingResponse := true, swapTimers := c.swapTimers + 1 },
          some (socket, .roleSwapRequest))

/-- The end of an 8-second timer: it does not know which request it was for. -/
def swapTimeout (c : Client) : Client :=
  { c with swapAwaitingResponse := false, swapTimers := c.swapTimers - 1 }

/-- The message listener of `wirePairedSocket`: notices of the other side's return
or the session's end, and role swaps. -/
def onPairedMessage (c : Client) (busy : Bool) (m : Down) : Reaction :=
  match m with
  | .notice (.sessionEnded _) => c.setState
  | .notice .peerReconnected => { c with epoch := c.epoch + 1 }.renderPaired
  | .signal .roleSwapRequest =>
      if busy || c.swapAwaitingResponse then
        { c.stay with reply := some (.roleSwapResponse false) }
      else { c.flipTransferRole with reply := some (.roleSwapResponse true) }
  | .signal (.roleSwapResponse accepted) =>
      if !c.swapAwaitingResponse then c.stay
      else if accepted then { c with swapAwaitingResponse := false }.flipTransferRole
      else { c with swapAwaitingResponse := false }.stay
  | .notice .peerDisconnected | .notice .reconnected | .notice (.error _) => c.stay

/-- The message listener of `attemptReconnect`: `reconnected` makes the socket the
active one, and any error is final. -/
def onAttemptMessage (c : Client) (socket : ConnId) (m : Down) : Reaction :=
  match m with
  | .notice .reconnected =>
      { c with activeSocket := some socket, epoch := c.epoch + 1 }.renderPaired
  | .notice (.error _) => c.setState
  | .notice .peerReconnected | .notice .peerDisconnected | .notice (.sessionEnded _) | .signal _ =>
      c.stay

/-- The close listener of `wirePairedSocket`: the attempt it begins at once. -/
def onPairedClose (c : Client) (socket : ConnId) : Client × Option Nat :=
  if !c.paired || c.activeSocket ≠ some socket then (c, none)
  else ({ c with activeSocket := none }, some 1)

/-- The close listener of `attemptReconnect`: the next attempt is put on a timer,
or the limit ends the session. -/
def onAttemptClose (c : Client) (socket : ConnId) (attempt : Nat) : Reaction :=
  if !c.paired || c.activeSocket = some socket then c.stay
  else if attempt ≥ RECONNECT_MAX_ATTEMPTS then c.setState
  else { c with retries := c.retries ++ [attempt + 1] }.stay

end Client

end Pairing

end Quicksend
