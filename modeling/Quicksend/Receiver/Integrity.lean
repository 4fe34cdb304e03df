import Quicksend.Receiver.Steps
import Quicksend.SendFile.Emits

/-!
# Stream integrity against an arbitrary relay

The relay may deliver any messages in any order. All that is assumed of a
decryption that succeeds is that an honest `encryptChunk` made the
ciphertext with the same key, nonce and associated data. Whenever
`onFileComplete` is called, the chunks resolved since the last
`onFileStart` are then those of one honest file, all of them and in order.
-/

namespace Quicksend

/-- The files that honest `sendFile` calls encrypt, under the random id each
of them draws, with the epoch key of the call. -/
abbrev HonestFiles := FileId → Option (Bytes × File)

/-- An honest `encryptChunk` made this ciphertext with this key, nonce and
associated data. -/
def Sealed (w : WebCrypto) (codec : MetaCodec) (sent : HonestFiles)
    (key nonce aad ciphertext : Bytes) : Prop :=
  ∃ id epochKey f i last p, sent id = some (epochKey, f) ∧
    deriveFileKey w epochKey id.bytes = .ok key ∧ HonestCall codec f i last p ∧
    chunkNonce i = nonce ∧ chunkAAD id.bytes i last = aad ∧
    encryptChunk w key id.bytes i last p = .ok ciphertext

/-- AES-GCM opens this ciphertext only if it was made with these parameters. -/
def Unforged (w : WebCrypto) (codec : MetaCodec) (sent : HonestFiles)
    (key nonce aad ciphertext : Bytes) : Prop :=
  ∀ plaintext, w.aesGcmDecrypt key nonce aad ciphertext = some plaintext →
    Sealed w codec sent key nonce aad ciphertext

/-- What `decryptChunk` opens under an id and an index was encrypted under
this id and index, and is what it was then. -/
theorem Unforged.opened {w : WebCrypto} {codec : MetaCodec} {sent : HonestFiles}
    {key ciphertext plaintext : Bytes} {id : FileId} {i : Nat} {last : Bool}
    (hu : Unforged w codec sent key (chunkNonce i) (chunkAAD id.bytes i last) ciphertext)
    (hi : i < 2 ^ 64) (h : decryptChunk w key id.bytes i last ciphertext = .ok plaintext) :
    ∃ epochKey f, sent id = some (epochKey, f) ∧ HonestCall codec f i last plaintext ∧
      encryptChunk w key id.bytes i last plaintext = .ok ciphertext := by
  obtain ⟨id', epochKey, f, j, last', p, hsent, -, hcall, -, haad, henc⟩ :=
    hu plaintext (decryptChunk_eq_ok h)
  obtain ⟨rfl, rfl, rfl⟩ := chunkAAD_inj hcall.index_lt hi haad
  obtain rfl : p = plaintext := Except.ok.inj ((decryptChunk_encryptChunk henc).symm.trans h)
  exact ⟨epochKey, f, hsent, hcall, henc⟩

namespace Receiver

variable {a : ReceiverArgs} {sent : HonestFiles}

/-- The receiver with the log of what it did. -/
def observe (a : ReceiverArgs) (x : State × List Action) (e : Event) :
    Option (State × List Action) :=
  (step a x.1 e).map fun r => (r.1, x.2 ++ r.2)

/-- A decryption that is about to settle opens no forgery. -/
def Authentic (a : ReceiverArgs) (sent : HonestFiles) (x : State × List Action) : Event → Prop
  | .resume none =>
      match x.1.running with
      | some (.metaDecrypt fileIdHex key ciphertext) =>
          Unforged a.w a.codec sent key (chunkNonce METADATA_CHUNK_INDEX)
            (chunkAAD (fromHex fileIdHex) METADATA_CHUNK_INDEX true) ciphertext
      | some (.chunkDecrypt key frame) =>
          Unforged a.w a.codec sent key (chunkNonce frame.index)
            (chunkAAD frame.fileId.bytes frame.index frame.isLast) frame.ciphertext
      | _ => True
  | _ => True

/-! ## The log -/

/-- The chunks of the current file that resolved, brought up to date: a file that
starts begins with none. -/
def noteResolved (acc : List Action) (act : Action) : List Action :=
  match act with
  | .onFileStart _ _ => []
  | .chunkResolved _ _ _ _ => acc ++ [act]
  | _ => acc

/-- The `onChunk` calls that resolved since the last `onFileStart`. -/
def resolvedSince (log : List Action) : List Action := log.foldl noteResolved []

/-- The first `k` chunks of a file, as resolved calls. -/
def chunksUpTo (id : FileId) (f : File) (k : Nat) : List Action :=
  (List.range k).map fun i =>
    .chunkResolved (toHex id.bytes) i (i = f.totalChunks - 1) (f.chunk i)

/-- `onFileComplete` for `fileId` fits what the log says so far. -/
def CompletesHonest (sent : HonestFiles) (log : List Action) (fileId : JSString) : Prop :=
  ∃ id epochKey f, fileId = toHex id.bytes ∧ sent id = some (epochKey, f) ∧
    resolvedSince log = chunksUpTo id f f.totalChunks

/-- The chunk frame that was accepted is data chunk `index` of the honest file
of its id. -/
def DataAccepted (a : ReceiverArgs) (sent : HonestFiles) (key : Bytes) (frame : ChunkFrame)
    (index : Nat) (plaintext : Bytes) : Prop :=
  ∃ epochKey f, sent frame.fileId = some (epochKey, f) ∧ index < f.totalChunks ∧
    frame.isLast = decide (index = f.totalChunks - 1) ∧ plaintext = f.chunk index ∧
    encryptChunk a.w key frame.fileId.bytes index frame.isLast plaintext = .ok frame.ciphertext

/-- The metadata that was accepted is the metadata of the honest file of its id. -/
def MetadataAccepted (a : ReceiverArgs) (sent : HonestFiles) (fileIdHex : JSString)
    (key ciphertext : Bytes) : Prop :=
  ∃ id epochKey f, fromHex fileIdHex = id.bytes ∧ sent id = some (epochKey, f) ∧
    encryptChunk a.w key id.bytes METADATA_CHUNK_INDEX true (a.codec.encode f.toMeta)
      = .ok ciphertext

/-- Every `onFileComplete` in the log completes an honest file; and what is
being handled was encrypted as what it is handled as, never metadata as a
chunk or a chunk as metadata. -/
structure Integrity (a : ReceiverArgs) (sent : HonestFiles) (x : State × List Action) : Prop where
  complete : ∀ log fileId rest, x.2 = log ++ .onFileComplete fileId :: rest →
    CompletesHonest sent log fileId
  data : ∀ key frame index plaintext,
    x.1.running = some (.chunkWrite key frame index plaintext) →
      index ≠ METADATA_CHUNK_INDEX ∧ DataAccepted a sent key frame index plaintext
  metadata : ∀ fileIdHex key ciphertext,
    x.1.running = some (.metaStart fileIdHex key ciphertext) →
      MetadataAccepted a sent fileIdHex key ciphertext

theorem resolvedSince_append (log out : List Action) :
    resolvedSince (log ++ out) = out.foldl noteResolved (resolvedSince log) :=
  List.foldl_append

/-- The action neither starts a file nor resolves a chunk nor completes one, so it
says nothing about what a file contains. -/
def Action.isPlain : Action → Bool
  | .onFileStart _ _ | .chunkResolved _ _ _ _ | .onFileComplete _ => false
  | _ => true

theorem foldl_noteResolved_plain {acc out : List Action} (h : ∀ act ∈ out, act.isPlain = true) :
    out.foldl noteResolved acc = acc := by
  induction out generalizing acc with
  | nil => rfl
  | cons act out ih =>
      have hact : noteResolved acc act = acc := by
        have := h act (by simp)
        cases act <;> first | rfl | cases this
      rw [List.foldl_cons, hact]
      exact ih fun act' h' => h act' (by simp [h'])

theorem State.put_plain {s : State} {m : Message} : ∀ act ∈ s.put m, act.isPlain = true := by
  intro act h
  unfold State.put at h
  split at h
  · cases h
  · rw [List.mem_singleton.mp h]
    rfl

/-- Every completion in the log completes an honest file. -/
def LogOk (sent : HonestFiles) (log : List Action) : Prop :=
  ∀ pre fileId rest, log = pre ++ .onFileComplete fileId :: rest → CompletesHonest sent pre fileId

theorem LogOk.snoc {log : List Action} (h : LogOk sent log) {act : Action}
    (hact : ∀ fileId, act = .onFileComplete fileId → CompletesHonest sent log fileId) :
    LogOk sent (log ++ [act]) := by
  intro pre fileId rest heq
  rcases List.eq_nil_or_concat rest with rfl | ⟨rest, last, rfl⟩
  · obtain ⟨rfl, hlast⟩ := List.append_inj' heq rfl
    exact hact fileId (List.singleton_inj.mp hlast)
  · rw [List.concat_eq_append, ← List.cons_append, ← List.append_assoc] at heq
    obtain ⟨rfl, -⟩ := List.append_inj' heq rfl
    exact h pre fileId rest rfl

theorem LogOk.append {log out : List Action} (h : LogOk sent log)
    (hout : ∀ fileId, .onFileComplete fileId ∉ out) : LogOk sent (log ++ out) := by
  induction out generalizing log with
  | nil => simpa using h
  | cons act out ih =>
      rw [← List.singleton_append, ← List.append_assoc]
      refine ih (h.snoc fun fileId hact => absurd ?_ (hout fileId)) fun fileId hmem =>
        hout fileId (List.mem_cons_of_mem _ hmem)
      rw [hact]
      exact List.mem_cons_self

theorem not_complete_of_plain {out : List Action} (h : ∀ act ∈ out, act.isPlain = true)
    (fileId : JSString) : .onFileComplete fileId ∉ out := fun hmem => by
  cases h _ hmem

/-! ## The invariant -/

/-- `current` has come as far as the chunks resolved since the file began. -/
def Progressed (sent : HonestFiles) (log : List Action) (c : Current) : Prop :=
  ∀ id : FileId, c.fileIdHex = toHex id.bytes →
    ∃ epochKey f, sent id = some (epochKey, f) ∧ c.expectedIndex < f.totalChunks ∧
      resolvedSince log = chunksUpTo id f c.expectedIndex

/-- What has been decrypted by the running step, metadata or chunk, belongs to a
file that was really sent. -/
def TaskHonest (a : ReceiverArgs) (sent : HonestFiles) : Task → Prop
  | .metaStart fileIdHex key ciphertext => MetadataAccepted a sent fileIdHex key ciphertext
  | .chunkWrite key frame index plaintext =>
      index ≠ METADATA_CHUNK_INDEX ∧ DataAccepted a sent key frame index plaintext
  | _ => True

/-- What every step keeps when decryption is authentic: a coherent receiver whose
record, running step and progress all come from files that were sent. -/
structure Tracks (a : ReceiverArgs) (sent : HonestFiles) (x : State × List Action) : Prop where
  coherent : Coherent a x.1
  logOk : LogOk sent x.2
  task : ∀ task, x.1.running = some task → TaskHonest a sent task
  progress : ∀ c, x.1.current = some c → Progressed sent x.2 c

theorem Tracks.init : Tracks a sent (Receiver.init, []) where
  coherent := .init a
  logOk pre fileId rest h := by simp at h
  task _ h := by cases h
  progress _ h := by cases h

theorem Tracks.integrity {x : State × List Action} (h : Tracks a sent x) :
    Integrity a sent x where
  complete := h.logOk
  data _ _ _ _ hrun := h.task _ hrun
  metadata _ _ _ hrun := h.task _ hrun

/-- Plain actions change nothing that the invariant says of the log. -/
theorem Progressed.plain {log out : List Action} {c : Current} (h : Progressed sent log c)
    (hout : ∀ act ∈ out, act.isPlain = true) : Progressed sent (log ++ out) c := by
  intro id hid
  rw [resolvedSince_append, foldl_noteResolved_plain hout]
  exact h id hid

/-- A step that reports or sends something, and no more. -/
theorem Tracks.plain {s t : State} {log out : List Action} (h : Tracks a sent (s, log))
    (ht : Coherent a t) (hout : ∀ act ∈ out, act.isPlain = true)
    (htask : ∀ task, t.running = some task → TaskHonest a sent task)
    (hcur : ∀ c, t.current = some c → s.current = some c) : Tracks a sent (t, log ++ out) where
  coherent := ht
  logOk := h.logOk.append (not_complete_of_plain hout)
  task := htask
  progress c hc := (h.progress c (hcur c hc)).plain hout

/-- The accepted metadata is honest, and so is the file that starts with it. -/
theorem metaOpened_honest {fileIdHex : JSString} {key ciphertext plaintext : Bytes}
    (hkey : deriveFileKey a.w a.epochKey (fromHex fileIdHex) = .ok key)
    (hu : Unforged a.w a.codec sent key (chunkNonce METADATA_CHUNK_INDEX)
      (chunkAAD (fromHex fileIdHex) METADATA_CHUNK_INDEX true) ciphertext)
    (hopens : decryptChunk a.w key (fromHex fileIdHex) METADATA_CHUNK_INDEX true ciphertext
      = .ok plaintext) :
    ∃ id epochKey f, fromHex fileIdHex = id.bytes ∧ sent id = some (epochKey, f) ∧
      encryptChunk a.w key id.bytes METADATA_CHUNK_INDEX true (a.codec.encode f.toMeta)
        = .ok ciphertext := by
  let id : FileId := ⟨fromHex fileIdHex, (deriveFileKey_eq_ok hkey).2.1⟩
  obtain ⟨epochKey, f, hsent, hcall, henc⟩ :=
    @Unforged.opened _ _ _ _ _ _ id _ _ hu METADATA_CHUNK_INDEX_lt hopens
  rw [hcall.of_index_eq] at henc
  exact ⟨id, epochKey, f, rfl, hsent, henc⟩

/-- The accepted chunk is the one `current` expects. -/
theorem chunkOpened_honest {key plaintext : Bytes} {frame : ChunkFrame} {c : Current}
    {log : List Action} (hlt : frame.index < 2 ^ 64) (hat : c.AtFrame key frame)
    (hprog : Progressed sent log c)
    (hu : Unforged a.w a.codec sent key (chunkNonce frame.index)
      (chunkAAD frame.fileId.bytes frame.index frame.isLast) frame.ciphertext)
    (hopens : decryptChunk a.w key frame.fileId.bytes frame.index frame.isLast frame.ciphertext
      = .ok plaintext) :
    c.expectedIndex ≠ METADATA_CHUNK_INDEX ∧
      DataAccepted a sent key frame c.expectedIndex plaintext := by
  obtain ⟨epochKey, f, hsent, hcall, henc⟩ := hu.opened hlt hopens
  obtain ⟨epochKey', f', hsent', hindex, -⟩ := hprog frame.fileId hat.1
  obtain ⟨rfl, rfl⟩ := Prod.mk.inj (Option.some.inj (hsent.symm.trans hsent'))
  rw [hat.2.1] at hindex ⊢
  obtain ⟨hlast, hp⟩ := hcall.of_index_lt hindex
  exact ⟨(hindex.trans f.totalChunks_lt).ne, epochKey, f, hsent, hindex, hlast, hp, henc⟩

/-- A chunk that resolves takes the log one chunk further. -/
theorem chunk_progress {key plaintext : Bytes} {frame : ChunkFrame} {index : Nat} {c : Current}
    {log rest : List Action} {epochKey : Bytes} {f : File} (hat : c.AtFrame key frame)
    (hindex : index = frame.index) (hprog : Progressed sent log c)
    (hsent : sent frame.fileId = some (epochKey, f))
    (hlast : frame.isLast = decide (index = f.totalChunks - 1)) (hp : plaintext = f.chunk index)
    (hrest : ∀ act ∈ rest, act.isPlain = true) :
    resolvedSince (log ++ (.chunkResolved (toHex frame.fileId.bytes) index frame.isLast plaintext
      :: rest)) = chunksUpTo frame.fileId f (c.expectedIndex + 1) := by
  obtain ⟨epochKey', f', hsent', -, hres⟩ := hprog frame.fileId hat.1
  obtain ⟨rfl, rfl⟩ := Prod.mk.inj (Option.some.inj (hsent.symm.trans hsent'))
  obtain rfl : index = c.expectedIndex := hindex.trans hat.2.1.symm
  rw [resolvedSince_append, List.foldl_cons, foldl_noteResolved_plain hrest, noteResolved, hres,
    chunksUpTo, chunksUpTo, List.range_succ, List.map_append, hlast, hp]
  rfl

theorem tracks_step (x : State × List Action) (e : Event) (y : State × List Action)
    (hx : Tracks a sent x) (hauth : Authentic a sent x e) (h : observe a x e = some y) :
    Tracks a sent y := by
  obtain ⟨s, log⟩ := x
  obtain ⟨⟨t, out⟩, hstep, rfl⟩ := Option.map_eq_some_iff.mp h
  have hst : Steps a s e t out := step_spec hstep
  have hcoh := hst.coherent hx.coherent
  cases hst with
  | queued | ignored | dropped | closedIdle | abortedIdle | detached =>
      exact hx.plain hcoh (by simp) hx.task fun c hc => hc
  | refused => exact hx.plain hcoh (by simp [Action.isPlain]) hx.task fun c hc => hc
  | peerAborted | closed => exact hx.plain hcoh (by simp [Action.isPlain]) hx.task (by simp)
  | aborted c hcur =>
      refine hx.plain hcoh (fun act hact => ?_) hx.task (by simp)
      rcases List.mem_append.mp hact with hact | hact
      · exact State.put_plain act hact
      · rw [List.mem_singleton.mp hact]
        rfl
  | metaBegun | chunkBegun | metaKeyed =>
      refine hx.plain hcoh (by simp) (fun task ht => ?_) fun c hc => hc
      rw [← Option.some.inj ht]
      trivial
  | failed => exact hx.plain hcoh (by simp [Action.isPlain]) (by simp) fun c hc => hc
  | metaDone => exact hx.plain hcoh (by simp) (by simp) fun c hc => hc
  | metaOpened fileIdHex key ciphertext plaintext info hrun hopens hinfo =>
      have hkey : TaskOk a s.current (.metaDecrypt fileIdHex key ciphertext) :=
        hx.coherent.task _ hrun
      simp only [Authentic, hrun] at hauth
      -- what opens was sealed by an honest sender, under the metadata's own index
      obtain ⟨id, epochKey, f, hid, hsent, henc⟩ := metaOpened_honest hkey hauth hopens
      refine ⟨hcoh, hx.logOk.append (by simp), fun task ht => ?_, fun c hc id' hid' => ?_⟩
      · rw [← Option.some.inj ht]
        exact ⟨id, epochKey, f, hid, hsent, henc⟩
      · -- nothing has resolved yet, and the id is the honest file's
        obtain rfl := Option.some.inj hc
        have hid' : fileIdHex = toHex id'.bytes := hid'
        obtain rfl : id' = id := FileId.ext (by rw [← hid, hid', fromHex_toHex])
        exact ⟨epochKey, f, hsent, f.totalChunks_pos, by rw [resolvedSince_append]; rfl⟩
  | chunkOpened key frame c plaintext hrun hcur hopens =>
      obtain ⟨-, hlt, hat⟩ : TaskOk a s.current (.chunkDecrypt key frame) := hx.coherent.task _ hrun
      simp only [Authentic, hrun] at hauth
      refine hx.plain hcoh (by simp [Action.isPlain]) (fun task ht => ?_) fun c hc => hc
      rw [← Option.some.inj ht]
      -- what opens was sealed under this id and this index: it is the chunk that is due
      exact chunkOpened_honest hlt (hat c hcur) (hx.progress c hcur) hauth hopens
  -- the file was given up while the chunk was written: no progress is left to keep
  | chunkOrphaned key frame index plaintext hrun hcur =>
      refine ⟨hcoh, hx.logOk.append fun fileId hmem => ?_, by simp, fun c hc => ?_⟩
      · simp only [List.cons_append, List.mem_cons, reduceCtorEq, List.mem_append, List.not_mem_nil,
          or_self, or_false, false_or] at hmem
        exact not_complete_of_plain State.put_plain fileId hmem
      · rw [hcur] at hc
        cases hc
  | chunkLast key frame index plaintext c hrun hcur hlast =>
      obtain ⟨-, -, -, hindex, hat⟩ : TaskOk a s.current (.chunkWrite key frame index plaintext) :=
        hx.coherent.task _ hrun
      obtain ⟨-, epochKey, f, hsent, hlt, hlast', hp, -⟩ :
        TaskHonest a sent (.chunkWrite key frame index plaintext) := hx.task _ hrun
      have hprog := chunk_progress (hat c hcur) hindex (hx.progress c hcur) hsent hlast' hp
        (State.put_plain (s := s) (m := chunkAckMessage (toHex frame.fileId.bytes) index))
      refine ⟨hcoh, ?_, by simp, by simp⟩
      rw [← List.append_assoc]
      refine LogOk.snoc (hx.logOk.append fun fileId hmem => ?_) fun fileId hid => ?_
      · rcases List.mem_cons.mp hmem with hmem | hmem
        · cases hmem
        · exact not_complete_of_plain State.put_plain fileId hmem
      · obtain rfl := Action.onFileComplete.inj hid
        -- the frame said it was the last, and the honest sender says so of the last chunk only
        have hn : c.expectedIndex + 1 = f.totalChunks := by
          have := (hat c hcur).2.1
          rw [hlast] at hlast'
          have := of_decide_eq_true hlast'.symm
          have := f.totalChunks_pos
          omega
        exact ⟨frame.fileId, epochKey, f, rfl, hsent, by rw [hprog, hn]⟩
  | chunkMore key frame index plaintext c hrun hcur hlast =>
      obtain ⟨-, -, -, hindex, hat⟩ : TaskOk a s.current (.chunkWrite key frame index plaintext) :=
        hx.coherent.task _ hrun
      obtain ⟨-, epochKey, f, hsent, hlt, hlast', hp, -⟩ :
        TaskHonest a sent (.chunkWrite key frame index plaintext) := hx.task _ hrun
      have hprog := chunk_progress (hat c hcur) hindex (hx.progress c hcur) hsent hlast' hp
        (State.put_plain (s := s) (m := chunkAckMessage (toHex frame.fileId.bytes) index))
      refine ⟨hcoh, hx.logOk.append fun fileId hmem => ?_, by simp, fun c' hc' id hid => ?_⟩
      · rcases List.mem_cons.mp hmem with hmem | hmem
        · cases hmem
        · exact not_complete_of_plain State.put_plain fileId hmem
      · obtain rfl := Option.some.inj hc'
        obtain rfl : id = frame.fileId := FileId.ext (toHex_inj (hid.symm.trans (hat c hcur).1))
        refine ⟨epochKey, f, hsent, ?_, hprog⟩
        have := (hat c hcur).2.1
        rw [hlast] at hlast'
        have := of_decide_eq_false hlast'.symm
        change c.expectedIndex + 1 < _
        omega

/-- Whatever the relay delivers, as long as AES-GCM opens no forgery, every
completed file is one honest file's chunks, each once and in order, and
metadata and data are never taken for one another. -/
theorem integrity_of_authentic (a : ReceiverArgs) (sent : HonestFiles) (es : List Event)
    (x : State × List Action)
    (hauth : Transition.Guarded (observe a) (Authentic a sent) (init, []) es)
    (hr : Transition.run (observe a) (init, []) es = some x) : Integrity a sent x :=
  (hauth.invariant tracks_step .init hr).integrity

/-! ## A one-byte file, delivered as it was sent -/

/-- A receiver with the epoch key of `tinyArgs`. -/
def tinyReceiver : ReceiverArgs where
  w := labelCrypto
  codec := SendFile.tinyArgs.codec
  epochKey := SendFile.tinyArgs.epochKey

/-- The one-byte file as the only file that anybody ever sent, under its own epoch
key. -/
def tinySent : HonestFiles := fun id =>
  if id = SendFile.tinyArgs.fileId then some (SendFile.tinyArgs.epochKey, SendFile.tinyArgs.file)
  else none

/-- The events by which the receiver takes in the metadata and the only chunk of
the one-byte file. -/
def tinyEvents : List Event :=
  [.message SendFile.tinyMetaMessage, .start, .resume none, .resume none, .resume none,
    .message SendFile.tinyChunkMessage, .start, .resume none, .resume none]

/-- In this run the receiver decrypts nothing but the two ciphertexts of the
one-byte transfer. -/
def TinyDecrypts (x : State × List Action) : Event → Prop
  | .resume none =>
      match x.1.running with
      | some (.metaDecrypt fileIdHex key ciphertext) =>
          fileIdHex = SendFile.tinyArgs.fileId.hex ∧ key = SendFile.tinyKey ∧
            ciphertext = SendFile.tinyCiphertext METADATA_CHUNK_INDEX true [1]
      | some (.chunkDecrypt key frame) =>
          key = SendFile.tinyKey ∧
            frame = ⟨SendFile.tinyArgs.fileId, 0, true, SendFile.tinyCiphertext 0 true [7]⟩
      | _ => True
  | _ => True

instance (x : State × List Action) (e : Event) : Decidable (TinyDecrypts x e) := by
  unfold TinyDecrypts
  split
  · split <;> infer_instance
  · infer_instance

theorem TinyDecrypts.authentic {x : State × List Action} {e : Event} (h : TinyDecrypts x e) :
    Authentic tinyReceiver tinySent x e := by
  unfold Authentic
  split
  next =>
    split
    next fileIdHex key ciphertext hrun =>
      simp only [TinyDecrypts, hrun] at h
      obtain ⟨rfl, rfl, rfl⟩ := h
      exact fun _ _ => ⟨SendFile.tinyArgs.fileId, _, SendFile.tinyArgs.file, _, _, _, rfl,
        by decide, .metadata, rfl, rfl, rfl⟩
    next key frame hrun =>
      simp only [TinyDecrypts, hrun] at h
      obtain ⟨rfl, rfl⟩ := h
      exact fun _ _ => ⟨SendFile.tinyArgs.fileId, _, SendFile.tinyArgs.file, _, _, _, rfl,
        by decide, .chunk 0 (by decide), rfl, by decide +kernel, by decide +kernel⟩
    next => trivial
  next => trivial

theorem integrity_of_authentic_tiny : ∃ x,
    Transition.run (observe tinyReceiver) (init, []) tinyEvents = some x ∧
      .onFileComplete SendFile.tinyArgs.fileId.hex ∈ x.2 ∧ Integrity tinyReceiver tinySent x := by
  have hg : Transition.Guarded (observe tinyReceiver) TinyDecrypts (init, []) tinyEvents := by
    decide +kernel
  have hrun : (Transition.run (observe tinyReceiver) (init, []) tinyEvents).any
      (fun x => decide (.onFileComplete SendFile.tinyArgs.fileId.hex ∈ x.2)) = true := by
    decide +kernel
  obtain ⟨x, hr, hmem⟩ := (Option.any_eq_true _ _).mp hrun
  exact ⟨x, hr, of_decide_eq_true hmem, integrity_of_authentic tinyReceiver tinySent tinyEvents x
    (hg.mono fun _ _ => TinyDecrypts.authentic) hr⟩

end Receiver

end Quicksend
