import Quicksend.Receiver.Steps
import Quicksend.SendFile.Emits

/-!
# One `sendFile` call, the relay and one receiver

The sender, the receiver and the two legs of each direction. The relay
forwards each direction in order, and may at any moment stop the file as
too large: it then tells both sides and drops the chunk frames it still
gets. Either side may cancel, either socket may close, and every promise
settles when and how it likes.
-/

namespace Quicksend

/-- The receiver's end of the same session: the same epoch key. -/
def SendArgs.receiver (a : SendArgs) : ReceiverArgs where
  w := a.w
  codec := a.codec
  epochKey := a.epochKey

namespace Delivery

/-- A `sendFile` call, an attached receiver and the four legs between them and the
relay, with what the receiver did. -/
structure State where
  snd : SendFile.State
  rcv : Receiver.State
  /-- From the sender to the relay, and from there to the receiver. -/
  sndUp : List Message
  rcvDown : List Message
  /-- From the receiver to the relay, and from there to the sender. -/
  rcvUp : List Message
  sndDown : List Message
  /-- The relay has blocked the file. -/
  blocked : Bool
  /-- What the receiver called and sent. -/
  log : List Receiver.Action

/-- The call has just begun, the receiver has just been attached, and nothing is
on its way. -/
def init : State :=
  { snd := SendFile.init, rcv := Receiver.init, sndUp := [], rcvDown := [], rcvUp := [],
    sndDown := [], blocked := false, log := [] }

/-- `sender` and `receiver` are events of the two ends other than a message;
`toSender` and `toReceiver` dispatch the next message that has arrived,
`relaySender` and `relayReceiver` let the relay handle the next one of a side. -/
inductive Event where
  | sender (e : SendFile.Event)
  | receiver (e : Receiver.Event)
  | toSender
  | toReceiver
  | relaySender
  | relayReceiver
  | sizeAbort
  deriving DecidableEq

/-- The messages among the receiver's actions: what it puts on its socket, and not
what it calls. -/
def sends (out : List Receiver.Action) : List Message :=
  out.filterMap fun act =>
    match act with
    | .send m => some m
    | _ => none

/-- A chunk frame, the kind of message that a relay that has blocked the file
drops. -/
def isBinary : Message → Bool
  | .binary _ => true
  | .text _ => false

section
variable (a : SendArgs)

/-- Let the call take a step, with `rest` left of what is on its way to it; what
it sends joins the leg to the relay. -/
def stepSender (x : State) (e : SendFile.Event) (rest : List Message) : Option State :=
  (SendFile.step a x.snd e).map fun r =>
    { x with snd := r.1, sndUp := x.sndUp ++ r.2, sndDown := rest }

/-- Let the receiver take a step, with `rest` left of what is on its way to it;
what it sends and calls is kept. -/
def stepReceiver (x : State) (e : Receiver.Event) (rest : List Message) : Option State :=
  (Receiver.step a.receiver x.rcv e).map fun r =>
    { x with rcv := r.1, rcvUp := x.rcvUp ++ sends r.2, rcvDown := rest, log := x.log ++ r.2 }

/-- One event: a step of a side that does not come from a message, a message
arriving at a side, or the relay passing one on or blocking the file. -/
def step (x : State) : Event → Option State
  | .sender (.message _) => none
  | .sender e => stepSender a x e x.sndDown
  | .receiver (.message _) | .receiver .detach => none
  | .receiver e => stepReceiver a x e x.rcvDown
  | .toSender =>
      match x.sndDown with
      | .text env :: rest => stepSender a x (.message env) rest
      | .binary _ :: rest => some { x with sndDown := rest }
      | [] => none
  | .toReceiver =>
      match x.rcvDown with
      | m :: rest => stepReceiver a x (.message m) rest
      | [] => none
  | .relaySender =>
      match x.sndUp with
      | m :: rest =>
          if x.blocked && isBinary m then some { x with sndUp := rest }
          else some { x with sndUp := rest, rcvDown := x.rcvDown ++ [m] }
      | [] => none
  | .relayReceiver =>
      match x.rcvUp with
      | m :: rest => some { x with rcvUp := rest, sndDown := x.sndDown ++ [m] }
      | [] => none
  | .sizeAbort =>
      some { x with
        blocked := true
        rcvDown := x.rcvDown ++ [sizeLimitAbortMessage a.fileId.hex]
        sndDown := x.sndDown ++ [sizeLimitAbortMessage a.fileId.hex] }

end

/-! ## What it means that a file was delivered -/

/-- The `onChunk` calls for a file, and those of them that resolved: index,
last flag and plaintext. -/
def chunkCalls (fileId : JSString) (log : List Receiver.Action) : List (Nat × Bool × Bytes) :=
  log.filterMap fun act =>
    match act with
    | .onChunk id index isLast plaintext => if id = fileId then some (index, isLast, plaintext) else none
    | _ => none

/-- The chunks of this file whose `onChunk` promise resolved, with index, last
flag and plaintext, in order. -/
def chunksResolved (fileId : JSString) (log : List Receiver.Action) : List (Nat × Bool × Bytes) :=
  log.filterMap fun act =>
    match act with
    | .chunkResolved id index isLast plaintext =>
        if id = fileId then some (index, isLast, plaintext) else none
    | _ => none

/-- The first `k` chunks of the file as they should resolve: index, last flag and
plaintext of each. -/
def firstChunks (a : SendArgs) (k : Nat) : List (Nat × Bool × Bytes) :=
  (List.range k).map fun i => (i, decide (i = a.file.totalChunks - 1), a.file.chunk i)

/-- Every `onChunk` call for the file resolved, the calls carried its bytes in
order, and it was completed and not aborted. -/
structure Delivered (a : SendArgs) (log : List Receiver.Action) : Prop where
  resolved : chunksResolved a.fileId.hex log = chunkCalls a.fileId.hex log
  chunks : chunkCalls a.fileId.hex log = firstChunks a a.file.totalChunks
  whole : ((chunkCalls a.fileId.hex log).map fun c => c.2.2).flatten = a.file.bytes
  complete : .onFileComplete a.fileId.hex ∈ log
  notAborted : ∀ reason, .onAborted a.fileId.hex reason ∉ log

end Delivery

end Quicksend
