import Quicksend.SendFile

/-!
# `attachReceiver` as a machine (`transfer.js`)

The listeners only queue: each message becomes a step of `processingChain`,
which runs the steps one at a time. The state keeps `current`, the queued
steps and the promise the running step awaits; an event dispatches to a
listener, starts the next step of the chain, or settles that promise. What
the receiver calls and sends is the output.
-/

namespace Quicksend

/-- What `attachReceiver` is called with, besides socket and handlers. -/
structure ReceiverArgs where
  w : WebCrypto
  codec : MetaCodec
  epochKey : Bytes

namespace Receiver

/-- The file being received: its id, its key and the index that its next chunk
must have. -/
structure Current where
  fileIdHex : JSString
  fileKey : Bytes
  expectedIndex : Nat
  deriving DecidableEq

/-- The promise a running chain step awaits: a key derivation, a decryption,
or what a handler returned. -/
inductive Task where
  | metaKey (fileIdHex : JSString) (ciphertext : Option JSString)
  | metaDecrypt (fileIdHex : JSString) (fileKey ciphertext : Bytes)
  | metaStart (fileIdHex : JSString) (fileKey ciphertext : Bytes)
  | chunkDecrypt (fileKey : Bytes) (frame : ChunkFrame)
  | chunkWrite (fileKey : Bytes) (frame : ChunkFrame) (index : Nat) (plaintext : Bytes)
  deriving DecidableEq

/-- The variables of `attachReceiver`: the current file, the queue of frames with
the step that runs, and whether it still listens. -/
structure State where
  current : Option Current
  /-- The steps of `processingChain` that have not started. -/
  chain : List Message
  running : Option Task
  attached : Bool
  socketClosed : Bool
  deriving DecidableEq

/-- A receiver just attached to its socket: no file, an empty queue and nothing
running. -/
def init : State :=
  { current := none, chain := [], running := none, attached := true, socketClosed := false }

/-- Calls of the handlers, the fulfilment of what `onChunk` returned, and
what is put on the socket. -/
inductive Action where
  | onFileStart (fileId : JSString) (info : FileMeta)
  | onChunk (fileId : JSString) (index : Nat) (isLast : Bool) (plaintext : Bytes)
  | chunkResolved (fileId : JSString) (index : Nat) (isLast : Bool) (plaintext : Bytes)
  | onFileComplete (fileId : JSString)
  | onAborted (fileId : JSString) (reason : Option JSString)
  | onError (message : String)
  | send (m : Message)
  deriving DecidableEq

/-- `start` begins the next step of the chain; `resume` settles the promise
the running one awaits (`some` message: it rejects). -/
inductive Event where
  | message (m : Message)
  | start
  | resume (err : Option String)
  | close
  | abortCurrent
  | detach
  deriving DecidableEq

/-- `sendEnvelope`: silently dropped once the socket is closed. -/
def State.put (s : State) (m : Message) : List Action :=
  if s.socketClosed then [] else [.send m]

/-- `onMessage`: only these three kinds become a step of the chain. -/
def onMessage (s : State) (m : Message) : State :=
  match m with
  | .text (.fileMeta _) | .text (.fileAbort _) | .binary _ => { s with chain := s.chain ++ [m] }
  | .text (.chunkAck _) | .text .other => s

/-- `handleFileMeta` up to its first `await`: the key of the announced file is
being derived; a payload without an id is a TypeError. -/
def handleFileMeta (s : State) (payload : Option FileMetaPayload) : State × List Action :=
  match payload with
  | some ⟨some fileId, ciphertext⟩ => ({ s with running := some (.metaKey fileId ciphertext) }, [])
  | _ => (s, [.onError "TypeError"])

/-- `handleChunkFrame` up to its first `await`: the frame must be the next one of
the current file, or it is reported. -/
def handleChunkFrame (s : State) (buffer : Bytes) : State × List Action :=
  match parseChunkFrame buffer, s.current with
  | none, _ | _, none => (s, [])
  | some frame, some current =>
      if toHex frame.fileId.bytes ≠ current.fileIdHex ∨ frame.index ≠ current.expectedIndex then
        (s, [.onError "file chunk out of order or for the wrong file"])
      else ({ s with running := some (.chunkDecrypt current.fileKey frame) }, [])

/-- `handleFileAbort`: an abort of the current file drops the file and tells the
page; any other is passed over. -/
def handleFileAbort (s : State) (payload : Option FileAbortPayload) : State × List Action :=
  match s.current, payload with
  | none, _ => (s, [])
  | some _, none => (s, [.onError "TypeError"])
  | some current, some payload =>
      if payload.fileId ≠ some current.fileIdHex then (s, [])
      else ({ s with current := none }, [.onAborted current.fileIdHex payload.reason])

/-- A step of the processing chain begins, with the message that was queued for
it. -/
def startStep (s : State) (m : Message) : State × List Action :=
  match m with
  | .text (.fileMeta payload) => handleFileMeta s payload
  | .text (.fileAbort payload) => handleFileAbort s payload
  | .binary buffer => handleChunkFrame s buffer
  | .text (.chunkAck _) | .text .other => (s, [])

section
variable (a : ReceiverArgs)

/-- `handleFileMeta` from the file key on: the encrypted metadata is read from
hexadecimal and decrypted. -/
def onMetaKey (s : State) (fileIdHex : JSString) (ciphertext : Option JSString)
    (err : Option String) : State × List Action :=
  match settle err (deriveFileKey a.w a.epochKey (fromHex fileIdHex)), ciphertext with
  | .ok fileKey, some ciphertext =>
      ({ s with running := some (.metaDecrypt fileIdHex fileKey (fromHex ciphertext)) }, [])
  | .ok _, none => ({ s with running := none }, [.onError "TypeError"])
  | .error e, _ => ({ s with running := none }, [.onError e])

/-- `handleFileMeta` from the decryption on: the metadata is parsed, the file
becomes the current one, and the page is told. -/
def onMetaDecrypt (s : State) (fileIdHex : JSString) (fileKey ciphertext : Bytes)
    (err : Option String) : State × List Action :=
  match settle err (decryptChunk a.w fileKey (fromHex fileIdHex) METADATA_CHUNK_INDEX true
      ciphertext) with
  | .ok plaintext =>
      match a.codec.decode plaintext with
      | some info =>
          ({ s with
              current := some { fileIdHex := fileIdHex, fileKey := fileKey, expectedIndex := 0 }
              running := some (.metaStart fileIdHex fileKey ciphertext) },
            [.onFileStart fileIdHex info])
      | none => ({ s with running := none }, [.onError "SyntaxError"])
  | .error e => ({ s with running := none }, [.onError e])

/-- `handleFileMeta` when what `onFileStart` returned settles: the step is over,
and a rejection is reported. -/
def onMetaStart (s : State) (err : Option String) : State × List Action :=
  match err with
  | none => ({ s with running := none }, [])
  | some e => ({ s with running := none }, [.onError e])

/-- `handleChunkFrame` from the decryption on. A file that was abandoned
meanwhile leaves `current` null, and reading its `expectedIndex` throws. -/
def onChunkDecrypt (s : State) (fileKey : Bytes) (frame : ChunkFrame) (err : Option String) :
    State × List Action :=
  match settle err (decryptChunk a.w fileKey frame.fileId.bytes frame.index frame.isLast
      frame.ciphertext), s.current with
  | .ok plaintext, some current =>
      ({ s with running := some (.chunkWrite fileKey frame current.expectedIndex plaintext) },
        [.onChunk (toHex frame.fileId.bytes) current.expectedIndex frame.isLast plaintext])
  | .ok _, none => ({ s with running := none }, [.onError "TypeError"])
  | .error e, _ => ({ s with running := none }, [.onError e])

/-- `handleChunkFrame` when what `onChunk` returned settles: the ack goes out
before `current` is looked at again. -/
def onChunkWrite (s : State) (frame : ChunkFrame) (index : Nat) (plaintext : Bytes)
    (err : Option String) : State × List Action :=
  let fileIdHex := toHex frame.fileId.bytes
  match err with
  | some e => ({ s with running := none }, [.onError e])
  | none =>
      let acked := .chunkResolved fileIdHex index frame.isLast plaintext
        :: s.put (chunkAckMessage fileIdHex index)
      match s.current with
      | none => ({ s with running := none }, acked ++ [.onError "TypeError"])
      | some current =>
          if frame.isLast then
            ({ s with running := none, current := none }, acked ++ [.onFileComplete fileIdHex])
          else
            ({ s with
                running := none
                current := some { current with expectedIndex := current.expectedIndex + 1 } },
              acked)

/-- The promise that the running step awaits settles, and the step goes on to its
next `await` or to its end. -/
def resumeStep (s : State) (task : Task) (err : Option String) : State × List Action :=
  match task with
  | .metaKey fileIdHex ciphertext => onMetaKey a s fileIdHex ciphertext err
  | .metaDecrypt fileIdHex fileKey ciphertext =>
      onMetaDecrypt a s fileIdHex fileKey ciphertext err
  | .metaStart _ _ _ => onMetaStart s err
  | .chunkDecrypt fileKey frame => onChunkDecrypt a s fileKey frame err
  | .chunkWrite _ frame index plaintext => onChunkWrite s frame index plaintext err

/-- The close listener: a file in progress is dropped, and the page is told that
the connection was lost. -/
def onClose (s : State) : State × List Action :=
  match s.current with
  | some _ => ({ s with current := none }, [.onError "connection_lost"])
  | none => (s, [])

/-- `abortCurrent()`, for the receiver's own Cancel: the sender and the page are
told, and the file is dropped. -/
def abortCurrent (s : State) : State × List Action :=
  match s.current with
  | some current =>
      ({ s with current := none },
        s.put (fileAbortMessage current.fileIdHex) ++ [.onAborted current.fileIdHex none])
  | none => (s, [])

/-- One event, with what the receiver calls and sends. -/
def step (s : State) (e : Event) : Option (State × List Action) :=
  match e with
  | .message m =>
      if s.socketClosed then none
      else if s.attached then some (onMessage s m, []) else some (s, [])
  | .start =>
      match s.running, s.chain with
      | none, m :: chain => some (startStep { s with chain := chain } m)
      | _, _ => none
  | .resume err =>
      match s.running with
      | some task => some (resumeStep a s task err)
      | none => none
  | .close =>
      if s.socketClosed then none
      else
        let s := { s with socketClosed := true }
        if s.attached then some (onClose s) else some (s, [])
  | .abortCurrent => some (abortCurrent s)
  | .detach => some ({ s with attached := false }, [])

end

end Receiver

end Quicksend
