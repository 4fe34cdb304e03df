import Quicksend.Receiver.Integrity

/-!
# The receiving screen (`renderReceiverTransfer`, `createFileSink`)

The handlers that `renderReceiverTransfer` gives to `attachReceiver`: rows
with their sinks, and the map from file ids to rows. The receiver's machine
runs with these handlers; a step adds the promises that only they settle, the
creation of a sink, a write, and the closing of a sink.
-/

namespace Quicksend

/-- The two kinds of sinks of `createFileSink`: a file of the File System
Access API, or a buffer that is downloaded when it is closed. -/
inductive SinkMode where
  | fsa
  | blob
  deriving DecidableEq

/-- A sink: what has been written to it, and whether it was aborted. -/
structure Sink where
  mode : SinkMode
  parts : List Bytes
  aborted : Bool
  deriving DecidableEq

/-- The sink that `createFileSink` resolves with, before any write: no part kept
yet and nothing given up. -/
def Sink.create (mode : SinkMode) : Sink := { mode := mode, parts := [], aborted := false }

/-- A write that is fulfilled; one that was under way when the sink was
aborted leaves nothing behind. -/
def Sink.write (s : Sink) (chunk : Bytes) : Sink :=
  if s.aborted then s else { s with parts := s.parts ++ [chunk] }

/-- `sink.abort()`: the parts written so far are dropped, and the sink can never
again be closed into a file. -/
def Sink.abort (s : Sink) : Sink := { s with parts := [], aborted := true }

/-- A closed file that was aborted rejects; a buffer is always downloaded. -/
def Sink.canClose (s : Sink) : Bool :=
  match s.mode with
  | .fsa => !s.aborted
  | .blob => true

/-- Only the File System Access API can fail. -/
def Sink.canFail (s : Sink) : Bool :=
  match s.mode with
  | .fsa => true
  | .blob => false

namespace ReceiverTransfer

open Receiver (Action Fits Fails)

/-- The texts that a row's `statusEl` can show, from none at all to the outcome of
the file. -/
inductive RowStatus where
  | empty
  | transferLargeFileWarning
  | transferSavedToDisk
  | transferDownloaded
  | transferTooLarge
  | transferCanceled
  | transferError
  deriving DecidableEq

/-- The statuses that tell the user a file is there: written to the chosen folder,
or handed over as a download. -/
def RowStatus.isSaved : RowStatus → Bool
  | .transferSavedToDisk | .transferDownloaded => true
  | _ => false

/-- `abortStatusText(reason)`: the relay's own reason for its size limit has a
text of its own, every other cancellation the general one. -/
def abortStatusText (reason : Option JSString) : RowStatus :=
  if reason = some FileAbortReasonSizeLimit then .transferTooLarge else .transferCanceled

/-- The size above which a file that has to be held in memory is announced with a
warning. -/
def BLOB_FALLBACK_WARN_BYTES : Nat := 200 * 1024 * 1024

/-- What `rows` keeps for one incoming file: its sink, the bytes that arrived,
whether it is over, and the text the user reads. -/
structure Row where
  fileId : JSString
  size : Nat
  sink : Sink
  received : Nat
  done : Bool
  status : RowStatus
  /-- `onFileComplete` awaits `row.sink.close()`. -/
  closing : Bool
  deriving DecidableEq

/-- The variables of `renderReceiverTransfer`. Rows are never dropped; `rows`
says which one a file id stands for. -/
structure Ui where
  receiving : Bool
  heap : List Row
  rows : JSString → Option Nat
  /-- `onFileStart` awaits `createFileSink`. -/
  starting : Option (JSString × FileMeta)
  /-- The row to whose sink `onChunk` is writing. -/
  writing : Option Nat

/-- The receiver's screen before its first message: no row, nothing being received
and no sink being opened. -/
def Ui.init : Ui :=
  { receiving := false, heap := [], rows := fun _ => none, starting := none, writing := none }

/-- The row a file id stands for, with its place. -/
def Ui.lookup (ui : Ui) (fileId : JSString) : Option (Nat × Row) :=
  (ui.rows fileId).bind fun r => (ui.heap[r]?).map fun row => (r, row)

/-- Change row `r` of the heap by `f`; the map from file ids to rows and the other
rows stay as they are. -/
def Ui.update (ui : Ui) (r : Nat) (f : Row → Row) : Ui := { ui with heap := ui.heap.modify r f }

/-- `onChunk` up to its `await`: the row's sink is written to, unless the row is
unknown or done. -/
def onChunk (ui : Ui) (fileId : JSString) : Ui :=
  match ui.lookup fileId with
  | some (r, row) => { ui with writing := if row.done then none else some r }
  | none => { ui with writing := none }

/-- `onFileComplete` up to its `await`: receiving is over, and the row is done
while its sink is being closed. -/
def onFileComplete (ui : Ui) (fileId : JSString) : Ui :=
  let ui := { ui with receiving := false }
  match ui.lookup fileId with
  | some (r, _) => ui.update r fun row => { row with done := true, closing := true }
  | none => ui

/-- `onAborted(fileId, reason)`: receiving is over, and a row known under that id
is done, with its sink aborted and its text set. -/
def onAborted (ui : Ui) (fileId : JSString) (reason : Option JSString) : Ui :=
  let ui := { ui with receiving := false }
  match ui.lookup fileId with
  | some (r, _) => ui.update r fun row =>
      { row with done := true, status := abortStatusText reason, sink := row.sink.abort }
  | none => ui

/-- `onError`: every row that `rows` still holds and that is not done. -/
def onError (ui : Ui) : Ui :=
  { ui with
    receiving := false
    heap := ui.heap.mapIdx fun r row =>
      if ui.rows row.fileId = some r ∧ row.done = false then
        { row with done := true, status := .transferError, sink := row.sink.abort }
      else row }

/-- What the screen does when the receiver acts. -/
def handle (ui : Ui) : Action → Ui
  | .onFileStart fileId info => { ui with receiving := true, starting := some (fileId, info) }
  | .onChunk fileId _ _ _ => onChunk ui fileId
  | .onFileComplete fileId => onFileComplete ui fileId
  | .onAborted fileId reason => onAborted ui fileId reason
  | .onError _ => onError ui
  | .chunkResolved _ _ _ _ | .send _ => ui

/-- `onFileStart` from `createFileSink` on: the row is entered in `rows`. -/
def onSinkReady (ui : Ui) (fileId : JSString) (info : FileMeta) (mode : SinkMode) : Ui :=
  { ui with
    starting := none
    heap := ui.heap ++ [{
      fileId := fileId
      size := info.size
      sink := Sink.create mode
      received := 0
      done := false
      status := if mode = .blob ∧ info.size > BLOB_FALLBACK_WARN_BYTES then
          .transferLargeFileWarning else .empty
      closing := false }]
    rows := Function.update ui.rows fileId (some ui.heap.length) }

/-- `onChunk` when the write is fulfilled: the sink has the bytes, and the row
counts them as received. -/
def onWritten (ui : Ui) (r : Nat) (plaintext : Bytes) : Ui :=
  { ui.update r fun row =>
      { row with sink := row.sink.write plaintext, received := row.received + plaintext.length } with
    writing := none }

/-- `onFileComplete` when `row.sink.close()` is fulfilled: the text says where the
file was saved to. -/
def onClosed (row : Row) : Row :=
  { row with
    closing := false
    status := if row.sink.mode = .fsa then .transferSavedToDisk else .transferDownloaded }

/-- The receiver of `attachReceiver` with the screen it calls back, and the record
of everything it called and sent. -/
structure State where
  rcv : Receiver.State
  ui : Ui
  /-- What the receiver called and sent. -/
  log : List Action

/-- A receiver just attached to its socket: nothing queued or running, no row on
the screen, and nothing recorded. -/
def init : State := { rcv := Receiver.init, ui := Ui.init, log := [] }

/-- `settle` settles a derivation, a decryption or what `onChunk` returned;
`sinkReady` is the end of `createFileSink`, `sinkClosed` that of the closing of
a row's sink. -/
inductive Event where
  | message (m : Message)
  | start
  | settle (err : Option String)
  | sinkReady (mode : SinkMode)
  | sinkClosed (r : Nat) (err : Option String)
  | close
  | abortCurrent
  | detach
  deriving DecidableEq

section
variable (a : ReceiverArgs)

/-- Let the receiver take one step, and hand each callback it makes to the screen,
in the order they were made. -/
def stepReceiver (x : State) (e : Receiver.Event) : Option (State × List Action) :=
  (Receiver.step a x.rcv e).map fun r =>
    ({ rcv := r.1, ui := r.2.foldl handle x.ui, log := x.log ++ r.2 }, r.2)

/-- What `onChunk` returned settles: nothing was to be written, or a write ends. -/
def stepWrite (x : State) (plaintext : Bytes) (err : Option String) :
    Option (State × List Action) :=
  match x.ui.writing with
  | none => if err = none then stepReceiver a x (.resume none) else none
  | some r =>
      match x.ui.heap[r]?, err with
      | none, _ => none
      | some _, none =>
          stepReceiver a { x with ui := onWritten x.ui r plaintext } (.resume none)
      | some row, some e =>
          if row.sink.canFail then
            stepReceiver a { x with ui := { x.ui with writing := none } } (.resume (some e))
          else none

/-- One event of the receiving page: a frame that arrived, the next queued one
taken up, a callback's promise settling, or a sink made ready. -/
def step (x : State) (e : Event) : Option (State × List Action) :=
  match e with
  | .message m => stepReceiver a x (.message m)
  | .start => stepReceiver a x .start
  | .settle err =>
      match x.rcv.running with
      | some (.metaStart _ _ _) | none => none
      | some (.chunkWrite _ _ _ plaintext) => stepWrite a x plaintext err
      | some _ => stepReceiver a x (.resume err)
  | .sinkReady mode =>
      match x.rcv.running, x.ui.starting with
      | some (.metaStart _ _ _), some (fileId, info) =>
          stepReceiver a { x with ui := onSinkReady x.ui fileId info mode } (.resume none)
      | _, _ => none
  | .sinkClosed r err =>
      match x.ui.heap[r]?, err with
      | some row, none =>
          if row.closing && row.sink.canClose then some ({ x with ui := x.ui.update r onClosed }, [])
          else none
      | some row, some _ =>
          if row.closing && row.sink.canFail then
            some ({ x with ui := x.ui.update r fun row => { row with closing := false } }, [])
          else none
      | none, _ => none
  | .close => stepReceiver a x .close
  | .abortCurrent => stepReceiver a x .abortCurrent
  | .detach => stepReceiver a x .detach

/-- The step without its output, as a transition system. -/
def next (x : State) (e : Event) : Option State := (step a x e).map Prod.fst

end

end ReceiverTransfer

end Quicksend
