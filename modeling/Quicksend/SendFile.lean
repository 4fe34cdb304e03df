import Quicksend.Wire
import Quicksend.Lib.Transition

/-!
# `sendFile` as a machine (`transfer.js`)

One call of `sendFile` is a state machine: a program counter that names
the `await` it is suspended at, the local variables the event callbacks
share with the loop, and the two facts about its surroundings the
callbacks report only once (the socket's close event, the abort signal).
A step is one event: a settled promise of the call's own, or a socket or
signal event dispatched to it. The code between two suspension points runs
within the step, as it does within one turn of the event loop; what it
puts on the socket is the step's output.
-/

namespace Quicksend

/-- A JavaScript `File`; its size is a safe integer. -/
structure File where
  name : JSString
  type : JSString
  bytes : Bytes
  size_lt : bytes.length < 2 ^ 53

/-- `file.size`: how many bytes the picked file has; it fixes the number of chunks
before the first one is read. -/
def File.size (f : File) : Nat := f.bytes.length

/-- `file.slice(start, stop).arrayBuffer()`: the bytes from `start` up to `stop`,
or to the end of the file. -/
def File.slice (f : File) (start stop : Nat) : Bytes := (f.bytes.drop start).take (stop - start)

/-- `Math.max(1, Math.ceil(file.size / CHUNK_SIZE))`; the division is exact
in a double, the divisor being a power of two. -/
def File.totalChunks (f : File) : Nat := max 1 ((f.size + (CHUNK_SIZE - 1)) / CHUNK_SIZE)

/-- The plaintext of chunk `index`: the bytes between two multiples of the chunk
size, the last chunk the rest. -/
def File.chunk (f : File) (index : Nat) : Bytes :=
  f.slice (index * CHUNK_SIZE) (min (index * CHUNK_SIZE + CHUNK_SIZE) f.size)

/-- What the first, encrypted chunk tells the receiver about the file: its name,
its size and its MIME type. -/
structure FileMeta where
  name : JSString
  size : Nat
  mime : JSString
  deriving DecidableEq

/-- `JSON.stringify` and `JSON.parse` of a file's metadata, with the text
encoding around them; `decode` is `none` where they throw. Nothing in this
development depends on what the bytes look like. -/
structure MetaCodec where
  encode : FileMeta → Bytes
  decode : Bytes → Option FileMeta

/-- `"application/octet-stream"`, the type that a file without one of its own is
announced with. -/
def OCTET_STREAM : JSString := "application/octet-stream".toList.map fun c => UInt16.ofNat c.toNat

/-- The object `sendFile` encrypts as a file's metadata. -/
def File.toMeta (f : File) : FileMeta :=
  { name := f.name, size := f.size, mime := if f.type = [] then OCTET_STREAM else f.type }

/-- The arguments of one `sendFile` call, and the id it draws. -/
structure SendArgs where
  w : WebCrypto
  codec : MetaCodec
  epochKey : Bytes
  file : File
  fileId : FileId

namespace SendFile

/-- The variable `aborted`: who cancelled, and the reason that came along. -/
structure Aborted where
  remote : Bool
  reason : Option JSString
  deriving DecidableEq

/-- What `sendFile` throws: the `AbortError` of a canceled transfer with the
reason it was given, or any other error. -/
inductive Failure where
  | abortError (reason : Option JSString)
  | error (message : String)
  deriving DecidableEq

/-- How the promise of a `sendFile` call settles: it resolves without a value, or
it rejects with what was thrown. -/
inductive Outcome where
  | resolved
  | rejected (err : Failure)
  deriving DecidableEq

/-- The suspension points of `sendFile`. `windowWait` and `ackWait` are the
two places where it has pushed an entry on `ackWaiters`. -/
inductive Pc where
  | derivingKey
  | encryptingMeta
  | windowWait (index : Nat)
  | readingSlice (index : Nat)
  | encryptingChunk (index : Nat) (plaintext : Bytes)
  | ackWait
  | settled (outcome : Outcome)
  deriving DecidableEq

/-- The variables of one `sendFile` call and the await it is suspended at: the
file's key, the acknowledgements, and what its listeners noted. -/
structure State where
  pc : Pc
  fileKey : Bytes
  ackedUpTo : Int
  connectionLost : Bool
  aborted : Option Aborted
  /-- The socket's close event has been dispatched. -/
  socketClosed : Bool
  /-- The abort signal has fired. -/
  signalFired : Bool
  deriving DecidableEq

/-- At the call: nothing has happened, and the key derivation is pending. -/
def init : State :=
  { pc := .derivingKey, fileKey := [], ackedUpTo := -1, connectionLost := false, aborted := none,
    socketClosed := false, signalFired := false }

/-- What can happen to a suspended call. The first four settle the promise
it awaits (`some` message: it rejects); the others are dispatched events. -/
inductive Event where
  | keyDerived (err : Option String)
  | metaEncrypted (err : Option String)
  | sliceRead (err : Option String)
  | chunkEncrypted (err : Option String)
  | message (env : Envelope)
  | close
  | signalAbort
  deriving DecidableEq

/-- The call is suspended on an entry of `ackWaiters`. -/
def State.waiting (s : State) : Bool :=
  match s.pc with
  | .windowWait _ | .ackWait => true
  | _ => false

/-- The listeners are installed: from the end of the metadata encryption to
the `finally` block. -/
def State.listening (s : State) : Bool :=
  match s.pc with
  | .derivingKey | .encryptingMeta | .settled _ => false
  | _ => true

/-- The promise has resolved or rejected; the listeners are off the socket by
then, and the call takes no further step. -/
def State.isSettled (s : State) : Bool :=
  match s.pc with
  | .settled _ => true
  | _ => false

/-- `socket.send`: silently dropped once the socket is closed. -/
def State.put (s : State) (m : Message) : List Message :=
  if s.socketClosed then [] else [m]

section
variable (a : SendArgs)

/-- The `catch` and `finally` blocks: a failure that neither is a cancel nor
comes from the lost connection is reported to the receiver. -/
def throwErr (s : State) (err : Failure) : State × List Message :=
  ({ s with pc := .settled (.rejected err) },
    match err with
    | .abortError _ => []
    | .error _ => if s.connectionLost then [] else s.put (fileAbortMessage a.fileId.hex))

/-- From the end of the `for` loop on: the test of the second wait loop, and
behind it the two ways out. -/
def afterLoop (s : State) : State × List Message :=
  match s.aborted with
  | none =>
      if s.ackedUpTo < (a.file.totalChunks : Int) - 1 then ({ s with pc := .ackWait }, [])
      else ({ s with pc := .settled .resolved }, [])
  | some ab =>
      let notice := if ab.remote then [] else s.put (fileAbortMessage a.fileId.hex)
      let thrown := throwErr a s (.abortError (ab.reason.filter (· ≠ [])))
      (thrown.1, notice ++ thrown.2)

/-- `if (aborted) break;`, then the read of the slice. -/
def afterWindow (s : State) (index : Nat) : State × List Message :=
  if s.aborted.isSome then afterLoop a s
  else ({ s with pc := .readingSlice index }, [])

/-- The test of the window loop: wait while as many chunks as the window holds are
unacknowledged. -/
def windowTest (s : State) (index : Nat) : State × List Message :=
  if (index : Int) - 1 - s.ackedUpTo ≥ WINDOW_SIZE then ({ s with pc := .windowWait index }, [])
  else afterWindow a s index

/-- The test of the `for` loop: the next chunk has to get into the window, or the
loop is over. -/
def forTest (s : State) (index : Nat) : State × List Message :=
  if index < a.file.totalChunks then windowTest a s index else afterLoop a s

/-- The rest of the window loop's body, after its `await`. -/
def resumeWindow (s : State) (index : Nat) : State × List Message :=
  if s.connectionLost then throwErr a s (.error "connection_lost")
  else if s.aborted.isSome then afterWindow a s index
  else windowTest a s index

/-- The rest of the second wait loop's body, after its `await`. -/
def resumeAcks (s : State) : State × List Message :=
  if s.connectionLost then throwErr a s (.error "connection_lost")
  else afterLoop a s

/-- `wakeWaiters()`: a call that waits for the window or for the last
acknowledgement looks at its condition again; any other await is left alone. -/
def wakeWaiters (s : State) : State × List Message :=
  match s.pc with
  | .windowWait index => resumeWindow a s index
  | .ackWait => resumeAcks a s
  | _ => (s, [])

/-- The call's message listener: an acknowledgement or an abort of this very file
is noted and wakes the waiters, everything else is passed over. -/
def onMessage (s : State) (env : Envelope) : State × List Message :=
  match env with
  | .chunkAck (some p) =>
      if p.fileId = some a.fileId.hex then wakeWaiters a { s with ackedUpTo := p.ackedUpTo }
      else (s, [])
  | .fileAbort (some p) =>
      if p.fileId = some a.fileId.hex then
        wakeWaiters a { s with aborted := some ⟨true, p.reason⟩ }
      else (s, [])
  | _ => (s, [])

/-- The call's close listener: the connection is noted as lost, and a call that
waits for acknowledgements wakes up and throws. -/
def onClose (s : State) : State × List Message :=
  wakeWaiters a { s with connectionLost := true }

/-- The abort signal's listener, for the sender's own Cancel: the transfer is
noted as aborted from this side, without a reason. -/
def onSignalAbort (s : State) : State × List Message :=
  wakeWaiters a { s with aborted := some ⟨false, none⟩ }

/-- `deriveFileKey` settles: the file's key is kept and the metadata is encrypted,
or the call rejects. -/
def onKeyDerived (s : State) (err : Option String) : State × List Message :=
  match settle err (deriveFileKey a.w a.epochKey a.fileId.bytes) with
  | .ok key => ({ s with fileKey := key, pc := .encryptingMeta }, [])
  | .error e => ({ s with pc := .settled (.rejected (.error e)) }, [])

/-- The metadata encryption settles: `file_meta` goes out, the listeners are
installed, the loop is entered. -/
def onMetaEncrypted (s : State) (err : Option String) : State × List Message :=
  match settle err (encryptChunk a.w s.fileKey a.fileId.bytes METADATA_CHUNK_INDEX true
      (a.codec.encode a.file.toMeta)) with
  | .ok ciphertext =>
      let loop := forTest a s 0
      (loop.1, s.put (fileMetaMessage a.fileId.hex (toHex ciphertext)) ++ loop.2)
  | .error e => ({ s with pc := .settled (.rejected (.error e)) }, [])

/-- The read of a slice settles: its bytes are encrypted as a chunk, or the call
throws the error. -/
def onSliceRead (s : State) (index : Nat) (err : Option String) : State × List Message :=
  match err with
  | none => ({ s with pc := .encryptingChunk index (a.file.chunk index) }, [])
  | some e => throwErr a s (.error e)

/-- The encryption of a chunk settles: the frame goes out and the loop goes on. -/
def onChunkEncrypted (s : State) (index : Nat) (plaintext : Bytes) (err : Option String) :
    State × List Message :=
  let isLast := index = a.file.totalChunks - 1
  match settle err (encryptChunk a.w s.fileKey a.fileId.bytes index isLast plaintext) with
  | .ok ciphertext =>
      let loop := forTest a s (index + 1)
      (loop.1, s.put (.binary (buildChunkFrame a.fileId index isLast ciphertext)) ++ loop.2)
  | .error e => throwErr a s (.error e)

/-- One event, with what it puts on the socket. -/
def step (s : State) (e : Event) : Option (State × List Message) :=
  match e, s.pc with
  | .keyDerived err, .derivingKey => some (onKeyDerived a s err)
  | .metaEncrypted err, .encryptingMeta => some (onMetaEncrypted a s err)
  | .sliceRead err, .readingSlice index => some (onSliceRead a s index err)
  | .chunkEncrypted err, .encryptingChunk index plaintext =>
      some (onChunkEncrypted a s index plaintext err)
  | .message env, _ =>
      if s.socketClosed then none
      else if s.listening then some (onMessage a s env) else some (s, [])
  | .close, _ =>
      if s.socketClosed then none
      else
        let s := { s with socketClosed := true }
        if s.listening then some (onClose a s) else some (s, [])
  | .signalAbort, _ =>
      if s.signalFired then none
      else
        let s := { s with signalFired := true }
        if s.listening then some (onSignalAbort a s) else some (s, [])
  | _, _ => none

/-- The machine without its output, as a transition system. -/
def next (s : State) (e : Event) : Option State := (step a s e).map Prod.fst

end

/-! ## A file to evaluate with -/

/-- The key of an all-zero id under the label cipher. -/
def tinyKey : Bytes := List.replicate 32 0

/-- A one-byte file with an all-zero id, under the label cipher. -/
def tinyArgs : SendArgs where
  w := labelCrypto
  codec := ⟨fun _ => [1], fun _ => some ⟨[], 1, OCTET_STREAM⟩⟩
  epochKey := List.replicate 32 0
  file := ⟨[], [], [7], by decide⟩
  fileId := ⟨List.replicate 16 0, by decide⟩

/-- A file id that is not the one of the one-byte transfer. -/
def tinyOtherId : FileId := ⟨List.replicate 16 1, by decide⟩

/-- The ciphertexts of the `sendFile` call of the one-byte transfer, by index,
last flag and plaintext. -/
def tinyCiphertext (i : Nat) (last : Bool) (plaintext : Bytes) : Bytes :=
  labelCrypto.aesGcmEncrypt tinyKey (chunkNonce i) (chunkAAD tinyArgs.fileId.bytes i last) plaintext

/-- The metadata message of the one-byte transfer, whose cipher appends the nonce
and the associated data in clear. -/
def tinyMetaMessage : Message :=
  fileMetaMessage tinyArgs.fileId.hex (toHex (tinyCiphertext METADATA_CHUNK_INDEX true [1]))

/-- The only chunk frame of the one-byte transfer: index 0, flagged as the last,
with byte 7 as its plaintext. -/
def tinyChunkMessage : Message :=
  .binary (buildChunkFrame tinyArgs.fileId 0 true (tinyCiphertext 0 true [7]))

end SendFile

end Quicksend
