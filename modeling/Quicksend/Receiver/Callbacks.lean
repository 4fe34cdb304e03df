import Quicksend.Receiver.Integrity
import Quicksend.SendFile.Window

/-!
# The callbacks of `attachReceiver`

An honest stream of files arrives while the user cancels and the socket closes.
No handler fails. The handlers are called in the order that their contract
promises, unless a cancel or the close comes while a chunk is being handled, or
the close cuts a file off that has not started.
-/

namespace Quicksend

open SendFile (canonicalFrame fileKeyOf)

/-- The `sendFile` call at the other end, with the same cipher, codec and epoch
key as this receiver. -/
def ReceiverArgs.sending (a : ReceiverArgs) (id : FileId) (f : File) : SendArgs where
  w := a.w
  codec := a.codec
  epochKey := a.epochKey
  file := f
  fileId := id

namespace Receiver.Callbacks

/-! ## Honest streams -/

/-- A file of the stream: the index of the chunk that comes next, and whether
its `file_abort` has come. -/
structure Transfer where
  id : FileId
  file : File
  next : Nat
  aborted : Bool

/-- The last message of the file has come. -/
def Transfer.Ended (t : Transfer) : Prop := t.next = t.file.totalChunks ∨ t.aborted = true

instance (t : Transfer) : Decidable t.Ended := inferInstanceAs (Decidable (_ ∨ _))

/-- A chunk of this file may come: not all have come, and no abort has. -/
def Transfer.Going (t : Transfer) : Prop := t.next < t.file.totalChunks ∧ t.aborted = false

instance (t : Transfer) : Decidable t.Going := inferInstanceAs (Decidable (_ ∧ _))

theorem Transfer.Going.not_ended {t : Transfer} (h : t.Going) : ¬ t.Ended := by
  rintro (hnext | haborted)
  · exact absurd h.1 (by omega)
  · simp [h.2] at haborted

/-- A place in the stream: the ids that were drawn, and the file. -/
structure Place where
  used : List FileId
  now : Option Transfer

/-- What a sender puts on the stream next: a new file, the chunk that is due, or
the end of the current file by a `file_abort`. -/
inductive Item where
  | file (id : FileId) (f : File)
  | chunk
  | fileAbort (reason : Option JSString)

section
variable (a : ReceiverArgs)

/-- The ciphertext in the `file_meta` that a `sendFile` call for this file sends. -/
def metaCiphertext (id : FileId) (f : File) : Bytes :=
  a.w.aesGcmEncrypt (fileKeyOf (a.sending id f)) (chunkNonce METADATA_CHUNK_INDEX)
    (chunkAAD id.bytes METADATA_CHUNK_INDEX true) (a.codec.encode f.toMeta)

/-- The message that item is at this place of the stream: the real metadata, the
chunk frame that `sendFile` would send, or the abort. -/
def message (p : Place) : Item → Message
  | .file id f => fileMetaMessage id.hex (toHex (metaCiphertext a id f))
  | .chunk =>
      match p.now with
      | some t => .binary (canonicalFrame (a.sending t.id t.file) t.next)
      | none => .text .other
  | .fileAbort reason => .text (.fileAbort (some ⟨p.now.map (·.id.hex), reason⟩))

/-- The sender is done with its file: all of it went out, it gave up, or this
side has cancelled it. -/
def Left (log : List Action) (p : Place) : Prop :=
  ∀ t ∈ p.now, t.Ended ∨ .send (fileAbortMessage t.id.hex) ∈ log

instance (log : List Action) (p : Place) : Decidable (Left log p) :=
  inferInstanceAs (Decidable (∀ t ∈ p.now, _))

/-- What comes after this place, when `log` is what the receiver has done. -/
def advance (log : List Action) (p : Place) : Item → Option Place
  | .file id f =>
      if id ∉ p.used ∧ Left log p then
        some { used := id :: p.used, now := some ⟨id, f, 0, false⟩ }
      else none
  | .chunk =>
      match p.now with
      | some t =>
          if t.Going then some { p with now := some { t with next := t.next + 1 } } else none
      | none => none
  | .fileAbort _ => p.now.map fun t => { p with now := some { t with aborted := true } }

/-- The receiver with the place that its incoming stream has reached and the
record of everything it called and sent. -/
structure State where
  place : Place
  rcv : Receiver.State
  log : List Action

/-- A receiver just attached, at the beginning of a stream: no file has been sent
and nothing has been recorded. -/
def init : State := { place := ⟨[], none⟩, rcv := Receiver.init, log := [] }

/-- An item of the stream arrives, a queued step begins or goes on, the socket
closes, or the user cancels. -/
inductive Event where
  | arrives (i : Item)
  | start
  | resume
  | close
  | abortCurrent

/-- The receiver takes this event, and what it calls and sends is put at the end
of the record. -/
def receive (x : State) (place : Place) (e : Receiver.Event) : Option State :=
  (Receiver.step a x.rcv e).map fun r => { place := place, rcv := r.1, log := x.log ++ r.2 }

/-- One event of the receiving side; an item arrives only where an honest stream
may go on with it. -/
def step (x : State) : Event → Option State
  | .arrives i =>
      (advance x.log x.place i).bind fun place =>
        receive a x place (.message (message a x.place i))
  | .start => receive a x x.place .start
  | .resume => receive a x x.place (.resume none)
  | .close => receive a x x.place .close
  | .abortCurrent => receive a x x.place .abortCurrent

end

/-! ## The contract -/

/-- The file that has started and not ended, after a call of a handler. -/
def handler : Option JSString → Action → Option (Option JSString)
  | none, .onFileStart id _ => some (some id)
  | some id, .onChunk id' _ _ _ => if id' = id then some (some id) else none
  | some id, .onFileComplete id' => if id' = id then some none else none
  | some id, .onAborted id' _ => if id' = id then some none else none
  | some _, .onError _ => some none
  | started, .chunkResolved _ _ _ _ | started, .send _ => some started
  | _, _ => none

/-- The ids that `onFileStart` was called with, in the order of the calls. -/
def startedFiles (log : List Action) : List JSString :=
  log.filterMap fun
    | .onFileStart id _ => some id
    | _ => none

/-- The messages that `onError` was called with, in the order of the calls. -/
def errors (log : List Action) : List String :=
  log.filterMap fun
    | .onError message => some message
    | _ => none

/-- These come in an order in which no file is acked after its `file_abort`. -/
def AckFirst (act act' : Action) : Prop :=
  ∀ id i, act = .send (fileAbortMessage id) → act' ≠ .send (chunkAckMessage id i)

/-- The calls are those of one file after another, each started once, and none
is left started once nothing more can come of it; only the close is an error. -/
structure Contract (x : State) : Prop where
  inOrder : ∃ started, Transition.run handler none x.log = some started
  once : (startedFiles x.log).Nodup
  quiet : errors x.log = [] ∨ x.rcv.socketClosed = true ∧ errors x.log = ["connection_lost"]
  acks : x.log.Pairwise AckFirst
  ended : x.rcv.running = none → x.rcv.chain = [] →
    (x.rcv.socketClosed = true ∨ ∃ t ∈ x.place.now, t.Ended) →
      Transition.run handler none x.log = some none

/-- A chunk of the current file is being handled. -/
def midChunk (s : Receiver.State) : Bool :=
  s.current.isSome &&
    match s.running with
    | some (.chunkDecrypt _ _) | some (.chunkWrite _ _ _ _) => true
    | _ => false

/-- Neither a cancel nor the close interrupts the handling of a chunk, and when
the socket closes, the last file has started, or all of it has come. -/
def Timely (x : State) : Event → Prop
  | .abortCurrent => midChunk x.rcv = false
  | .close => midChunk x.rcv = false ∧
      ∀ t ∈ x.place.now, t.id.hex ∈ startedFiles x.log ∨ t.Ended
  | _ => True

instance (x : State) (e : Event) : Decidable (Timely x e) :=
  match e with
  | .abortCurrent => inferInstanceAs (Decidable (_ = _))
  | .close => inferInstanceAs (Decidable (_ ∧ _))
  | .arrives _ | .start | .resume => isTrue trivial

/-! ## What is on its way -/

variable {a : ReceiverArgs} {log : List Action} {p q r : Place} {msgs : List Message}

/-- These messages lead from the one place of the stream to the other. -/
inductive Ahead (a : ReceiverArgs) (log : List Action) : Place → List Message → Place → Prop where
  | nil (p : Place) : Ahead a log p [] p
  | cons {p q r : Place} {msgs : List Message} (i : Item) (h : advance log p i = some q)
      (rest : Ahead a log q msgs r) : Ahead a log p (message a p i :: msgs) r

theorem advance_mono {log' : List Action} (hsub : log ⊆ log') {i : Item}
    (h : advance log p i = some q) : advance log' p i = some q := by
  cases i with
  | file id f =>
      rw [advance] at h ⊢
      split at h
      next hleft =>
        rw [if_pos ⟨hleft.1, fun t ht => (hleft.2 t ht).imp_right fun hm => hsub hm⟩]
        exact h
      next => cases h
  | chunk | fileAbort => exact h

theorem Ahead.mono {log' : List Action} (h : Ahead a log p msgs q) (hsub : log ⊆ log') :
    Ahead a log' p msgs q := by
  induction h with
  | nil p => exact .nil p
  | cons i hi _ ih => exact .cons i (advance_mono hsub hi) ih

theorem Ahead.snoc (h : Ahead a log p msgs q) {i : Item} (hi : advance log q i = some r) :
    Ahead a log p (msgs ++ [message a q i]) r := by
  induction h with
  | nil p => exact .cons i hi (.nil r)
  | cons j hj _ ih => exact .cons j hj (ih hi)

/-! ## The log -/

variable {started started' : Option JSString} {closed : Bool} {act : Action} {id : JSString}

/-- What the contract of the handlers says of a record: calls in order, each file
once, and no error but that of the close. -/
structure Ordered (log : List Action) (started : Option JSString) (closed : Bool) : Prop where
  inOrder : Transition.run handler none log = some started
  once : (startedFiles log).Nodup
  quiet : errors log = [] ∨ closed = true ∧ errors log = ["connection_lost"]
  acks : log.Pairwise AckFirst
  begun : ∀ id, .send (fileAbortMessage id) ∈ log → id ∈ startedFiles log

/-- The record so far keeps to the contract, and a file being received was started
and never given up. -/
structure Logged (log : List Action) (started : Option JSString) (closed : Bool) : Prop
    extends Ordered log started closed where
  current : ∀ id ∈ started, id ∈ startedFiles log ∧ .send (fileAbortMessage id) ∉ log

theorem startedFiles_append (log out : List Action) :
    startedFiles (log ++ out) = startedFiles log ++ startedFiles out := List.filterMap_append

theorem errors_append (log out : List Action) : errors (log ++ out) = errors log ++ errors out :=
  List.filterMap_append

theorem mem_of_mem_snoc {act' : Action} (hmem : act' ∈ log ++ [act]) (hne : act' ≠ act) :
    act' ∈ log :=
  (List.mem_append.mp hmem).resolve_right fun hlast => hne (List.mem_singleton.mp hlast)

theorem pairwise_snoc (h : log.Pairwise AckFirst)
    (hack : ∀ id i, act = .send (chunkAckMessage id i) → .send (fileAbortMessage id) ∉ log) :
    (log ++ [act]).Pairwise AckFirst := by
  refine List.pairwise_append.mpr ⟨h, List.pairwise_singleton _ _, fun act' hmem _ hlast => ?_⟩
  rw [List.mem_singleton.mp hlast]
  intro id i habort hact
  exact hack id i hact (habort ▸ hmem)

/-- Something happens that neither starts a file nor is an error. -/
theorem Ordered.snoc (h : Ordered log started closed) (hact : handler started act = some started')
    (hstart : startedFiles [act] = []) (herror : errors [act] = [])
    (hack : ∀ id i, act = .send (chunkAckMessage id i) → .send (fileAbortMessage id) ∉ log)
    (habort : ∀ id, act = .send (fileAbortMessage id) → id ∈ startedFiles log) :
    Ordered (log ++ [act]) started' closed where
  inOrder := Transition.run_concat h.inOrder hact
  once := by
    rw [startedFiles_append, hstart, List.append_nil]
    exact h.once
  quiet := by
    rw [errors_append, herror, List.append_nil]
    exact h.quiet
  acks := pairwise_snoc h.acks hack
  begun id hmem := by
    rw [startedFiles_append, hstart, List.append_nil]
    rcases List.mem_append.mp hmem with hmem | hlast
    · exact h.begun id hmem
    · exact habort id (List.mem_singleton.mp hlast).symm

/-- A file that goes on is the same file, and not cancelled. -/
theorem Logged.snoc (h : Logged log started closed) (hnew : Ordered (log ++ [act]) started' closed)
    (hkept : started' = started ∨ started' = none) (hsend : ∀ id, act ≠ .send (fileAbortMessage id)) :
    Logged (log ++ [act]) started' closed := by
  refine { hnew with current := fun id hid => ?_ }
  rcases hkept with rfl | rfl
  · obtain ⟨hstart, habort⟩ := h.current id hid
    rw [startedFiles_append]
    exact ⟨List.mem_append_left _ hstart,
      fun hmem => habort (mem_of_mem_snoc hmem fun heq => hsend id heq.symm)⟩
  · cases hid

/-- A handler other than the first and `onError` is called, or a chunk resolves. -/
theorem Logged.call (h : Logged log started closed) (hact : handler started act = some started')
    (hkept : started' = started ∨ started' = none) (hstart : startedFiles [act] = [])
    (herror : errors [act] = []) (hsend : ∀ m, act ≠ .send m) :
    Logged (log ++ [act]) started' closed :=
  h.snoc (h.toOrdered.snoc hact hstart herror (fun _ _ heq => absurd heq (hsend _))
    fun _ heq => absurd heq (hsend _)) hkept fun _ => hsend _

theorem Logged.ack (h : Logged log (some id) closed) (i : Int) :
    Logged (log ++ [.send (chunkAckMessage id i)]) (some id) closed := by
  refine h.snoc (h.toOrdered.snoc rfl rfl rfl (fun id' i' hack => ?_) fun id' habort => ?_) (.inl rfl)
    fun id' => ?_
  · obtain ⟨rfl, -⟩ : id = id' ∧ i = i' := by simpa [chunkAckMessage] using hack
    exact (h.current id rfl).2
  all_goals simp [chunkAckMessage, fileAbortMessage] at *

/-- The user cancels the file. -/
theorem Logged.cancel (h : Logged log (some id) closed) {out : List Action}
    (hout : out = [] ∨ out = [.send (fileAbortMessage id)]) :
    Logged (log ++ (out ++ [.onAborted id none])) none closed := by
  have hcall : handler (some id) (.onAborted id none) = some none := if_pos rfl
  rcases hout with rfl | rfl
  · exact h.call hcall (.inr rfl) rfl rfl (by simp)
  · have hsent : Ordered (log ++ [.send (fileAbortMessage id)]) (some id) closed := by
      refine h.toOrdered.snoc rfl rfl rfl (fun id' i' hack => ?_) fun id' habort => ?_
      · simp [chunkAckMessage, fileAbortMessage] at hack
      · obtain rfl : id = id' := by simpa [fileAbortMessage] using habort
        exact (h.current id rfl).1
    rw [← List.append_assoc]
    exact { hsent.snoc hcall rfl rfl (fun _ _ heq => by cases heq) (fun _ heq => by cases heq) with
      current := fun _ hid => by cases hid }

theorem Logged.fileStart (h : Logged log none closed) (hid : id ∉ startedFiles log)
    (info : FileMeta) : Logged (log ++ [.onFileStart id info]) (some id) closed where
  inOrder := Transition.run_concat h.inOrder rfl
  once := by
    rw [startedFiles_append]
    exact h.once.append (List.nodup_singleton _) (List.disjoint_singleton.mpr hid)
  quiet := by
    rw [errors_append]
    exact (List.append_nil (errors log)).symm ▸ h.quiet
  acks := pairwise_snoc h.acks fun _ _ hack => by cases hack
  begun id' hmem := by
    rw [startedFiles_append]
    exact List.mem_append_left _ (h.begun id' (mem_of_mem_snoc hmem (by simp)))
  current id' hid' := by
    obtain rfl := Option.mem_some.mp hid'
    rw [startedFiles_append]
    exact ⟨List.mem_append_right _ (List.mem_singleton.mpr rfl),
      fun hmem => hid (h.begun id (mem_of_mem_snoc hmem (by simp)))⟩

theorem Logged.close (h : Logged log started false) : Logged log started true :=
  { h with quiet := .inl (h.quiet.resolve_right fun hq => by cases hq.1) }

/-- The close is the one error. -/
theorem Logged.lost (h : Logged log (some id) false) :
    Logged (log ++ [.onError "connection_lost"]) none true where
  inOrder := Transition.run_concat h.inOrder rfl
  once := by
    rw [startedFiles_append]
    exact (List.append_nil (startedFiles log)).symm ▸ h.once
  quiet := by
    have hquiet : errors log = [] := h.quiet.resolve_right fun hq => by cases hq.1
    rw [errors_append, hquiet]
    exact .inr ⟨rfl, rfl⟩
  acks := pairwise_snoc h.acks fun _ _ hack => by cases hack
  begun id' hmem := by
    rw [startedFiles_append]
    exact List.mem_append_left _ (h.begun id' (mem_of_mem_snoc hmem (by simp)))
  current _ hid := by cases hid

/-! ## What is being handled -/

/-- What the receiver holds of this file while it receives it: the file's key and
the index of the chunk it expects. -/
def Transfer.current (a : ReceiverArgs) (t : Transfer) : Current :=
  ⟨t.id.hex, fileKeyOf (a.sending t.id t.file), t.next⟩

/-- The chunk before the next one, which is expected and opens. -/
def ChunkOf (a : ReceiverArgs) (t : Transfer) (current : Option Current) (key : Bytes)
    (frame : ChunkFrame) : Prop :=
  ∃ i, t.next = i + 1 ∧ i < t.file.totalChunks ∧ frame.fileId = t.id ∧
    frame.isLast = decide (i = t.file.totalChunks - 1) ∧
    current = some ({ t with next := i }.current a) ∧
    ∃ plaintext, decryptChunk a.w key frame.fileId.bytes frame.index frame.isLast frame.ciphertext
      = .ok plaintext

/-- The running step against the file of the message it handles. -/
def Handling (a : ReceiverArgs) (log : List Action) (t : Transfer) (current : Option Current) :
    Task → Prop
  | .metaKey id ciphertext => current = none ∧ t.next = 0 ∧ id = t.id.hex ∧
      ciphertext = some (toHex (metaCiphertext a t.id t.file)) ∧ id ∉ startedFiles log
  | .metaDecrypt id key ciphertext => current = none ∧ t.next = 0 ∧ id = t.id.hex ∧
      key = fileKeyOf (a.sending t.id t.file) ∧ ciphertext = metaCiphertext a t.id t.file ∧
      id ∉ startedFiles log
  | .metaStart _ _ _ => t.next = 0 ∧ ∀ c ∈ current, c = t.current a
  | .chunkDecrypt key frame | .chunkWrite key frame _ _ => ChunkOf a t current key frame

/-- The receiver against the place of the message it has taken last. -/
def Working (a : ReceiverArgs) (log : List Action) (p : Place) (s : Receiver.State) : Prop :=
  match s.running with
  | none => ∀ c ∈ s.current, ∃ t ∈ p.now, t.Going ∧ c = t.current a
  | some task => ∃ t ∈ p.now, t.aborted = false ∧ Handling a log t s.current task

/-- The invariant of the calm runs: how the place of the stream, the receiver's
state and the record of its calls hang together. -/
structure Inv (a : ReceiverArgs) (x : State) (p : Place) : Prop where
  attached : x.rcv.attached = true
  ahead : Ahead a x.log p x.rcv.chain x.place
  logged : Logged x.log (x.rcv.current.map (·.fileIdHex)) x.rcv.socketClosed
  known : ∀ id ∈ startedFiles x.log, ∃ u ∈ p.used, id = u.hex
  drawn : ∀ t ∈ p.now, t.id ∈ p.used
  working : Working a x.log p x.rcv
  cut : x.rcv.socketClosed = true → ∀ t ∈ x.place.now, t.Ended ∨
    t.id.hex ∈ startedFiles x.log ∧ ∀ c ∈ x.rcv.current, c.fileIdHex ≠ t.id.hex

theorem Inv.init (a : ReceiverArgs) : Inv a init ⟨[], none⟩ where
  attached := rfl
  ahead := .nil _
  logged := ⟨⟨rfl, .nil, .inl rfl, .nil, fun _ hmem => by cases hmem⟩, fun _ hid => by cases hid⟩
  known _ hmem := by cases hmem
  drawn _ ht := by cases ht
  working _ hc := by cases hc
  cut hclosed := by cases hclosed

theorem Inv.contract {x : State} (h : Inv a x p) : Contract x where
  inOrder := ⟨_, h.logged.inOrder⟩
  once := h.logged.once
  quiet := h.logged.quiet
  acks := h.logged.acks
  ended hrun hchain hend := by
    rw [h.logged.inOrder]
    have hahead := h.ahead
    rw [hchain] at hahead
    obtain rfl : p = x.place := by cases hahead; rfl
    have hworking := h.working
    rw [Working, hrun] at hworking
    cases hcur : x.rcv.current with
    | none => rfl
    | some c =>
        -- the file that is started would go on
        obtain ⟨t, ht, hgoing, rfl⟩ := hworking c hcur
        rcases hend with hclosed | ⟨t', ht', hended⟩
        · rcases h.cut hclosed t ht with hended | ⟨-, hne⟩
          · exact absurd hended hgoing.not_ended
          · exact absurd rfl (hne _ hcur)
        · obtain rfl := Option.mem_unique ht ht'
          exact absurd hended hgoing.not_ended

/-! ## The steps -/

variable {x y : State}

theorem receive_eq_some {place : Place} {e : Receiver.Event} (h : receive a x place e = some y) :
    ∃ s out, Receiver.step a x.rcv e = some (s, out) ∧ y = ⟨place, s, x.log ++ out⟩ := by
  obtain ⟨⟨s, out⟩, hs, rfl⟩ := Option.map_eq_some_iff.mp h
  exact ⟨s, out, hs, rfl⟩

theorem onMessage_message {i : Item} (h : advance log p i = some q) (s : Receiver.State) :
    onMessage s (message a p i) = { s with chain := s.chain ++ [message a p i] } := by
  cases i with
  | file | fileAbort => rfl
  | chunk =>
      rw [advance] at h
      split at h
      next t ht => simp [message, ht, onMessage]
      next => cases h

theorem Inv.arrives (h : Inv a x p) {i : Item} (hstep : step a x (.arrives i) = some y) :
    Inv a y p := by
  obtain ⟨q, hq, hr⟩ := Option.bind_eq_some_iff.mp hstep
  obtain ⟨s, out, hs, rfl⟩ := receive_eq_some hr
  rw [Receiver.step] at hs
  split at hs
  next => cases hs
  next hopen =>
    rw [if_pos h.attached, onMessage_message hq] at hs
    obtain ⟨rfl, rfl⟩ := Prod.mk.inj (Option.some.inj hs)
    rw [List.append_nil]
    exact ⟨h.attached, h.ahead.snoc hq, h.logged, h.known, h.drawn, h.working,
      fun hclosed => absurd hclosed hopen⟩

theorem Working.append {s : Receiver.State} {out : List Action} (h : Working a log p s)
    (hout : startedFiles out = []) : Working a (log ++ out) p s := by
  unfold Working at h ⊢
  split
  next hrun => rwa [hrun] at h
  next task hrun =>
    rw [hrun] at h
    obtain ⟨t, ht, hab, hh⟩ := h
    refine ⟨t, ht, hab, ?_⟩
    cases task with
    | metaKey | metaDecrypt =>
        simp only [Handling, startedFiles_append, hout, List.append_nil] at hh ⊢
        exact hh
    | metaStart | chunkDecrypt | chunkWrite => exact hh

/-- A step that starts no file and leaves none behind. -/
theorem Inv.next (h : Inv a x p) {s : Receiver.State} {out : List Action}
    (hattached : s.attached = x.rcv.attached) (hclosed : s.socketClosed = x.rcv.socketClosed)
    (hahead : Ahead a x.log q s.chain x.place) (hused : p.used ⊆ q.used)
    (hdrawn : ∀ t ∈ q.now, t.id ∈ q.used) (hworking : Working a x.log q s)
    (hlogged : Logged (x.log ++ out) (s.current.map (·.fileIdHex)) x.rcv.socketClosed)
    (hstart : startedFiles out = [])
    (hcur : ∀ c ∈ s.current, ∃ c' ∈ x.rcv.current, c.fileIdHex = c'.fileIdHex) :
    Inv a ⟨x.place, s, x.log ++ out⟩ q where
  attached := hattached.trans h.attached
  ahead := hahead.mono (List.subset_append_left _ _)
  logged := hclosed ▸ hlogged
  known id hid := by
    rw [startedFiles_append, hstart, List.append_nil] at hid
    obtain ⟨u, hu, rfl⟩ := h.known id hid
    exact ⟨u, hused hu, rfl⟩
  drawn := hdrawn
  working := hworking.append hstart
  cut hc t ht := by
    rw [startedFiles_append, hstart, List.append_nil]
    refine (h.cut (hclosed ▸ hc) t ht).imp_right fun ⟨hmem, hne⟩ => ⟨hmem, fun c hcc => ?_⟩
    obtain ⟨c', hc', heq⟩ := hcur c hcc
    exact heq ▸ hne c' hc'

theorem advance_file {id : FileId} {f : File} (h : advance log p (.file id f) = some q) :
    id ∉ p.used ∧ Left log p ∧ q = ⟨id :: p.used, some ⟨id, f, 0, false⟩⟩ := by
  rw [advance] at h
  split at h
  next hleft => exact ⟨hleft.1, hleft.2, (Option.some.inj h).symm⟩
  next => cases h

theorem advance_chunk (h : advance log p .chunk = some q) :
    ∃ t ∈ p.now, t.Going ∧ q = { p with now := some { t with next := t.next + 1 } } := by
  rw [advance] at h
  split at h
  next t ht =>
    split at h
    next hgoing => exact ⟨t, ht, hgoing, (Option.some.inj h).symm⟩
    next => cases h
  next => cases h

theorem advance_fileAbort {reason : Option JSString} (h : advance log p (.fileAbort reason) = some q) :
    ∃ t ∈ p.now, q = { p with now := some { t with aborted := true } } := by
  obtain ⟨t, ht, rfl⟩ := Option.map_eq_some_iff.mp h
  exact ⟨t, ht, rfl⟩

section
variable {s : Receiver.State} {c : Current} {m : Message}

theorem step_start {rest : List Message} (hrun : s.running = none) (hchain : s.chain = m :: rest) :
    Receiver.step a s .start = some (startStep { s with chain := rest } m) := by
  rw [Receiver.step, hrun, hchain]

theorem startStep_stray (hcur : s.current = none) (buffer : Bytes) :
    startStep s (.binary buffer) = (s, []) := by
  simp only [startStep, handleChunkFrame, hcur]
  split <;> first | rfl | simp_all

theorem startStep_chunk {buffer : Bytes} {frame : ChunkFrame} (hcur : s.current = some c)
    (hparse : parseChunkFrame buffer = some frame) (hid : toHex frame.fileId.bytes = c.fileIdHex)
    (hindex : frame.index = c.expectedIndex) :
    startStep s (.binary buffer) =
      ({ s with running := some (.chunkDecrypt c.fileKey frame) }, []) := by
  rw [startStep, handleChunkFrame, hparse, hcur]
  exact if_neg fun h => h.elim (· hid) (· hindex)

theorem startStep_lateAbort (hcur : s.current = none) (payload : Option FileAbortPayload) :
    startStep s (.text (.fileAbort payload)) = (s, []) := by
  simp only [startStep, handleFileAbort, hcur]

theorem startStep_fileAbort (hcur : s.current = some c) (reason : Option JSString) :
    startStep s (.text (.fileAbort (some ⟨some c.fileIdHex, reason⟩))) =
      ({ s with current := none }, [.onAborted c.fileIdHex reason]) := by
  simp only [startStep, handleFileAbort, hcur]
  exact if_neg fun h => h rfl

end

/-- While nothing runs, the file that has started is the one of the stream. -/
theorem Inv.idle (h : Inv a x p) (hrun : x.rcv.running = none) {c : Current}
    (hc : x.rcv.current = some c) : ∃ t ∈ p.now, t.Going ∧ c = t.current a := by
  have hworking := h.working
  rw [Working, hrun] at hworking
  exact hworking c hc

theorem Working.of_none {s : Receiver.State} (hrun : s.running = none) (hcur : s.current = none) :
    Working a log p s := by
  rw [Working, hrun]
  intro c hc
  simp [hcur] at hc

/-- A `file_meta` comes when no file is started. -/
theorem Inv.takeFile (h : Inv a x p) (hrun : x.rcv.running = none) {id : FileId} {f : File}
    {rest : List Message} (hchain : x.rcv.chain = message a p (.file id f) :: rest)
    (hq : advance x.log p (.file id f) = some q) (hrest : Ahead a x.log q rest x.place)
    (hstep : step a x .start = some y) : Inv a y q := by
  obtain ⟨s, out, hs, rfl⟩ := receive_eq_some hstep
  obtain ⟨hid, hleft, rfl⟩ := advance_file hq
  have hcur : x.rcv.current = none := by
    by_contra hsome
    obtain ⟨c, hc⟩ := Option.ne_none_iff_exists'.mp hsome
    obtain ⟨t, ht, hgoing, rfl⟩ := h.idle hrun hc
    have hkept := (h.logged.current t.id.hex (by rw [hc]; rfl)).2
    exact (hleft t ht).elim hgoing.not_ended hkept
  rw [step_start hrun hchain] at hs
  obtain ⟨rfl, rfl⟩ := Prod.mk.inj (Option.some.inj hs)
  refine h.next rfl rfl hrest (List.subset_cons_self _ _) (fun t ht => ?_)
    ⟨⟨id, f, 0, false⟩, rfl, rfl, ?_⟩ ?_ rfl fun c hc => ⟨c, hc, rfl⟩
  · obtain rfl := Option.mem_some.mp ht
    exact List.mem_cons_self
  · refine ⟨hcur, rfl, rfl, rfl, fun hmem => ?_⟩
    obtain ⟨u, hu, heq⟩ := h.known _ hmem
    exact hid (FileId.hex_inj heq ▸ hu)
  · rw [List.append_nil]
    exact h.logged

/-- A chunk that comes is the one expected, when its file is started. -/
theorem Inv.takeChunk (h : Inv a x p) (hrun : x.rcv.running = none)
    {rest : List Message} (hchain : x.rcv.chain = message a p .chunk :: rest)
    (hq : advance x.log p .chunk = some q) (hrest : Ahead a x.log q rest x.place)
    (hstep : step a x .start = some y) : Inv a y q := by
  obtain ⟨s, out, hs, rfl⟩ := receive_eq_some hstep
  obtain ⟨t, ht, hgoing, rfl⟩ := advance_chunk hq
  obtain ⟨ciphertext, hparse, hopens⟩ :=
    SendFile.canonicalFrame_opens (a.sending t.id t.file) hgoing.1
  have hdrawn : ∀ t' ∈ some { t with next := t.next + 1 }, t'.id ∈ p.used := by
    intro t' ht'
    obtain rfl := Option.mem_some.mp ht'
    exact h.drawn t ht
  have hlogged : Logged (x.log ++ []) (x.rcv.current.map (·.fileIdHex)) x.rcv.socketClosed := by
    rw [List.append_nil]
    exact h.logged
  have hmessage : message a p .chunk = .binary (canonicalFrame (a.sending t.id t.file) t.next) := by
    rw [message, Option.mem_def.mp ht]
  rw [hmessage] at hchain
  cases hcur : x.rcv.current with
  | none =>
      rw [step_start hrun hchain, startStep_stray (by exact hcur)] at hs
      obtain ⟨rfl, rfl⟩ := Prod.mk.inj (Option.some.inj hs)
      exact h.next rfl rfl hrest (List.Subset.refl _) hdrawn (.of_none hrun hcur) hlogged rfl
        fun c hc => ⟨c, hc, rfl⟩
  | some c =>
      obtain ⟨t', ht', -, rfl⟩ := h.idle hrun hcur
      obtain rfl := Option.mem_unique ht ht'
      rw [step_start hrun hchain, startStep_chunk (by exact hcur) hparse rfl rfl] at hs
      obtain ⟨rfl, rfl⟩ := Prod.mk.inj (Option.some.inj hs)
      refine h.next rfl rfl hrest (List.Subset.refl _) hdrawn ⟨_, rfl, hgoing.2, ?_⟩ hlogged rfl
        fun c hc => ⟨c, hc, rfl⟩
      exact ⟨t.next, rfl, hgoing.1, rfl, rfl, hcur, _, hopens⟩

/-- A `file_abort` ends the file that is started. -/
theorem Inv.takeAbort (h : Inv a x p) (hrun : x.rcv.running = none) {reason : Option JSString}
    {rest : List Message} (hchain : x.rcv.chain = message a p (.fileAbort reason) :: rest)
    (hq : advance x.log p (.fileAbort reason) = some q) (hrest : Ahead a x.log q rest x.place)
    (hstep : step a x .start = some y) : Inv a y q := by
  obtain ⟨s, out, hs, rfl⟩ := receive_eq_some hstep
  obtain ⟨t, ht, rfl⟩ := advance_fileAbort hq
  have hdrawn : ∀ t' ∈ some { t with aborted := true }, t'.id ∈ p.used := by
    intro t' ht'
    obtain rfl := Option.mem_some.mp ht'
    exact h.drawn t ht
  rw [message, Option.mem_def.mp ht, Option.map_some] at hchain
  cases hcur : x.rcv.current with
  | none =>
      rw [step_start hrun hchain, startStep_lateAbort (by exact hcur)] at hs
      obtain ⟨rfl, rfl⟩ := Prod.mk.inj (Option.some.inj hs)
      refine h.next rfl rfl hrest (List.Subset.refl _) hdrawn (.of_none hrun hcur) ?_ rfl
        fun c hc => ⟨c, hc, rfl⟩
      rw [List.append_nil]
      exact h.logged
  | some c =>
      obtain ⟨t', ht', -, rfl⟩ := h.idle hrun hcur
      obtain rfl := Option.mem_unique ht ht'
      have habort := startStep_fileAbort (s := { x.rcv with chain := rest }) hcur reason
      rw [step_start hrun hchain, show t.id.hex = (t.current a).fileIdHex from rfl, habort] at hs
      obtain ⟨rfl, rfl⟩ := Prod.mk.inj (Option.some.inj hs)
      refine h.next rfl rfl hrest (List.Subset.refl _) hdrawn (.of_none hrun rfl) ?_ rfl
        fun c hc => by cases hc
      have hlogged := h.logged
      rw [hcur] at hlogged
      exact hlogged.call (if_pos rfl) (.inr rfl) rfl rfl (by simp)

theorem Inv.start (h : Inv a x p) (hstep : step a x .start = some y) : ∃ q, Inv a y q := by
  have hs := hstep
  obtain ⟨s, out, hs, -⟩ := receive_eq_some hs
  rw [Receiver.step] at hs
  split at hs
  next m rest hrun hchain =>
    have hahead := h.ahead
    rw [hchain] at hahead
    cases hahead with
    | cons i hq hrest =>
        cases i with
        | file => exact ⟨_, h.takeFile hrun hchain hq hrest hstep⟩
        | chunk => exact ⟨_, h.takeChunk hrun hchain hq hrest hstep⟩
        | fileAbort => exact ⟨_, h.takeAbort hrun hchain hq hrest hstep⟩
  next => cases hs

/-! ## What the awaits settle with -/

theorem step_resume {s : Receiver.State} {task : Task} (hrun : s.running = some task)
    (err : Option String) : Receiver.step a s (.resume err) = some (resumeStep a s task err) := by
  rw [Receiver.step, hrun]

/-- The running step has the file of the stream at hand. -/
theorem Inv.handling (h : Inv a x p) {task : Task} (hrun : x.rcv.running = some task) :
    ∃ t ∈ p.now, t.aborted = false ∧ Handling a x.log t x.rcv.current task := by
  have hworking := h.working
  rw [Working, hrun] at hworking
  exact hworking

/-- An await of a step goes on, or its end, with `current` at most further on. -/
theorem Inv.resumed (h : Inv a x p) {task : Option Task} {current : Option Current}
    {out : List Action}
    (hworking : Working a x.log p { x.rcv with running := task, current := current })
    (hlogged : Logged (x.log ++ out) (current.map (·.fileIdHex)) x.rcv.socketClosed)
    (hstart : startedFiles out = [])
    (hcur : ∀ c ∈ current, ∃ c' ∈ x.rcv.current, c.fileIdHex = c'.fileIdHex) :
    Inv a ⟨x.place, { x.rcv with running := task, current := current }, x.log ++ out⟩ p :=
  h.next rfl rfl h.ahead (List.Subset.refl _) h.drawn hworking hlogged hstart hcur

theorem Inv.resumeMetaKey (h : Inv a x p) (hkey : a.epochKey.length = 32) {id : JSString}
    {ciphertext : Option JSString} (hrun : x.rcv.running = some (.metaKey id ciphertext))
    (hstep : step a x .resume = some y) : Inv a y p := by
  obtain ⟨s, out, hs, rfl⟩ := receive_eq_some hstep
  obtain ⟨t, ht, hab, hcur, hnext, rfl, rfl, hnew⟩ := h.handling hrun
  have hderive : deriveFileKey a.w a.epochKey (fromHex t.id.hex) =
      .ok (fileKeyOf (a.sending t.id t.file)) := by
    rw [FileId.hex, fromHex_toHex]
    exact deriveFileKey_ok a.w hkey t.id
  simp only [step_resume hrun, resumeStep, onMetaKey, settle, hderive, fromHex_toHex] at hs
  obtain ⟨rfl, rfl⟩ := Prod.mk.inj (Option.some.inj hs)
  refine h.resumed ⟨t, ht, hab, hcur, hnext, rfl, rfl, rfl, hnew⟩ ?_ rfl fun c hc => ⟨c, hc, rfl⟩
  rw [List.append_nil]
  exact h.logged

/-- The file starts. -/
theorem Inv.resumeMetaDecrypt (h : Inv a x p)
    (hcodec : ∀ f : File, (a.codec.decode (a.codec.encode f.toMeta)).isSome) {id : JSString}
    {key ciphertext : Bytes} (hrun : x.rcv.running = some (.metaDecrypt id key ciphertext))
    (hstep : step a x .resume = some y) : Inv a y p := by
  obtain ⟨s, out, hs, rfl⟩ := receive_eq_some hstep
  obtain ⟨t, ht, hab, hcur, hnext, rfl, rfl, rfl, hnew⟩ := h.handling hrun
  obtain ⟨info, hinfo⟩ := Option.isSome_iff_exists.mp (hcodec t.file)
  have hopens : decryptChunk a.w (fileKeyOf (a.sending t.id t.file)) (fromHex t.id.hex)
      METADATA_CHUNK_INDEX true (metaCiphertext a t.id t.file) =
        .ok (a.codec.encode t.file.toMeta) := by
    rw [FileId.hex, fromHex_toHex]
    exact decryptChunk_encryptChunk
      (encryptChunk_ok a.w (SendFile.fileKeyOf_length (a.sending t.id t.file)) t.id _ _ _)
  simp only [step_resume hrun, resumeStep, onMetaDecrypt, settle, hopens, hinfo] at hs
  obtain ⟨rfl, rfl⟩ := Prod.mk.inj (Option.some.inj hs)
  have hlogged := h.logged
  rw [hcur] at hlogged
  refine ⟨h.attached, h.ahead.mono (List.subset_append_left _ _), hlogged.fileStart hnew info,
    fun id hid => ?_, h.drawn, ⟨t, ht, hab, hnext, fun c hc => ?_⟩, fun hclosed t' ht' => ?_⟩
  · rw [startedFiles_append] at hid
    rcases List.mem_append.mp hid with hid | hid
    · exact h.known id hid
    · exact ⟨t.id, h.drawn t ht, List.mem_singleton.mp hid⟩
  · rw [← Option.mem_some.mp hc, Transfer.current, hnext]
  · refine (h.cut hclosed t' ht').imp_right fun hkept => ?_
    rw [startedFiles_append]
    refine ⟨List.mem_append_left _ hkept.1, fun c hc heq => ?_⟩
    obtain rfl := Option.mem_some.mp hc
    have heq : t.id.hex = t'.id.hex := heq
    exact hnew (heq ▸ hkept.1)

theorem Inv.resumeMetaStart (h : Inv a x p) {id : JSString} {key ciphertext : Bytes}
    (hrun : x.rcv.running = some (.metaStart id key ciphertext))
    (hstep : step a x .resume = some y) : Inv a y p := by
  obtain ⟨s, out, hs, rfl⟩ := receive_eq_some hstep
  obtain ⟨t, ht, hab, hnext, hcur⟩ := h.handling hrun
  rw [step_resume hrun] at hs
  obtain ⟨rfl, rfl⟩ := Prod.mk.inj (Option.some.inj hs)
  refine h.resumed (fun c hc => ⟨t, ht, ⟨?_, hab⟩, hcur c hc⟩) ?_ rfl fun c hc => ⟨c, hc, rfl⟩
  · rw [hnext]
    exact t.file.totalChunks_pos
  · rw [List.append_nil]
    exact h.logged

theorem onChunkDecrypt_opened {s : Receiver.State} {c : Current} {key plaintext : Bytes}
    {frame : ChunkFrame} (hcur : s.current = some c)
    (hopens : decryptChunk a.w key frame.fileId.bytes frame.index frame.isLast frame.ciphertext
      = .ok plaintext) :
    onChunkDecrypt a s key frame none =
      ({ s with running := some (.chunkWrite key frame c.expectedIndex plaintext) },
        [.onChunk (toHex frame.fileId.bytes) c.expectedIndex frame.isLast plaintext]) := by
  simp only [onChunkDecrypt, settle, hopens, hcur]

theorem Inv.resumeChunkDecrypt (h : Inv a x p) {key : Bytes} {frame : ChunkFrame}
    (hrun : x.rcv.running = some (.chunkDecrypt key frame)) (hstep : step a x .resume = some y) :
    Inv a y p := by
  obtain ⟨s, out, hs, rfl⟩ := receive_eq_some hstep
  obtain ⟨t, ht, hab, i, hnext, hi, hid, hlast, hcur, plaintext, hopens⟩ := h.handling hrun
  rw [step_resume hrun, resumeStep, onChunkDecrypt_opened hcur hopens] at hs
  obtain ⟨rfl, rfl⟩ := Prod.mk.inj (Option.some.inj hs)
  have hlogged := h.logged
  rw [hcur] at hlogged
  refine h.resumed ⟨t, ht, hab, i, hnext, hi, hid, hlast, hcur, plaintext, hopens⟩ ?_ rfl
    fun c hc => ⟨c, hc, rfl⟩
  rw [hcur]
  exact hlogged.call (if_pos (by rw [hid]; rfl)) (.inl rfl) rfl rfl (by simp)

/-- The ack of a chunk that has resolved. -/
theorem Logged.acked {s : Receiver.State} {frame : ChunkFrame} {t : Transfer}
    (h : Logged log (some t.id.hex) closed) (hid : frame.fileId = t.id) (index : Nat)
    (plaintext : Bytes) :
    Logged (log ++ (.chunkResolved (toHex frame.fileId.bytes) index frame.isLast plaintext ::
      s.put (chunkAckMessage (toHex frame.fileId.bytes) index))) (some t.id.hex) closed := by
  have hresolved : Logged (log ++ [.chunkResolved (toHex frame.fileId.bytes) index frame.isLast
      plaintext]) (some t.id.hex) closed := h.call rfl (.inl rfl) rfl rfl (by simp)
  rw [List.append_cons, Receiver.State.put]
  split
  · rw [List.append_nil]
    exact hresolved
  · rw [hid] at hresolved ⊢
    exact hresolved.ack index

theorem startedFiles_acked {s : Receiver.State} {id : JSString} {index : Nat} {isLast : Bool}
    {plaintext : Bytes} {m : Message} :
    startedFiles (.chunkResolved id index isLast plaintext :: s.put m) = [] := by
  rw [Receiver.State.put]
  split <;> rfl

theorem Inv.resumeChunkWrite (h : Inv a x p) {key plaintext : Bytes} {frame : ChunkFrame}
    {index : Nat} (hrun : x.rcv.running = some (.chunkWrite key frame index plaintext))
    (hstep : step a x .resume = some y) : Inv a y p := by
  obtain ⟨s, out, hs, rfl⟩ := receive_eq_some hstep
  obtain ⟨t, ht, hab, i, hnext, hi, hid, hlast, hcur, -⟩ := h.handling hrun
  have hlogged := h.logged
  rw [hcur] at hlogged
  have hacked := hlogged.acked (s := x.rcv) (t := t) hid index plaintext
  rw [step_resume hrun, resumeStep, onChunkWrite] at hs
  simp only [hcur] at hs
  split at hs
  next hl =>
    obtain ⟨rfl, rfl⟩ := Prod.mk.inj (Option.some.inj hs)
    refine h.resumed (.of_none rfl rfl) ?_ ?_ fun c hc => by cases hc
    · rw [← List.append_assoc]
      exact hacked.call (if_pos (by rw [hid]; rfl)) (.inr rfl) rfl rfl (by simp)
    · rw [startedFiles_append, startedFiles_acked]
      rfl
  next hl =>
    obtain ⟨rfl, rfl⟩ := Prod.mk.inj (Option.some.inj hs)
    have hmore : i ≠ t.file.totalChunks - 1 := by
      rw [Bool.not_eq_true, hlast] at hl
      exact of_decide_eq_false hl
    refine h.resumed (fun c hc => ⟨t, ht, ⟨by omega, hab⟩, ?_⟩) hacked startedFiles_acked
      fun c hc => ⟨_, hcur, ?_⟩
    · rw [← Option.mem_some.mp hc, Transfer.current, Transfer.current, hnext]
    · rw [← Option.mem_some.mp hc]

theorem Inv.resume (h : Inv a x p) (hkey : a.epochKey.length = 32)
    (hcodec : ∀ f : File, (a.codec.decode (a.codec.encode f.toMeta)).isSome)
    (hstep : step a x .resume = some y) : Inv a y p := by
  cases hrun : x.rcv.running with
  | none =>
      obtain ⟨s, out, hs, -⟩ := receive_eq_some hstep
      rw [Receiver.step, hrun] at hs
      cases hs
  | some task =>
      cases task with
      | metaKey => exact h.resumeMetaKey hkey hrun hstep
      | metaDecrypt => exact h.resumeMetaDecrypt hcodec hrun hstep
      | metaStart => exact h.resumeMetaStart hrun hstep
      | chunkDecrypt => exact h.resumeChunkDecrypt hrun hstep
      | chunkWrite => exact h.resumeChunkWrite hrun hstep

/-! ## Cancels and the close -/

/-- While no chunk is being handled, the file may be dropped. -/
theorem Working.drop {s s' : Receiver.State} (h : Working a log p s) (hmid : midChunk s = false)
    (hrun : s'.running = s.running) (hcur : s'.current = none) : Working a log p s' := by
  unfold Working at h ⊢
  rw [hrun, hcur]
  cases hrun : s.running with
  | none => exact fun c hc => by cases hc
  | some task =>
      rw [hrun] at h
      obtain ⟨t, ht, hab, hh⟩ := h
      refine ⟨t, ht, hab, ?_⟩
      cases task with
      | metaKey | metaDecrypt => exact ⟨rfl, hh.2⟩
      | metaStart => exact ⟨hh.1, fun c hc => by cases hc⟩
      | chunkDecrypt | chunkWrite =>
          obtain ⟨i, -, -, -, -, hcur, -⟩ := hh
          simp [midChunk, hrun, hcur] at hmid

theorem Inv.abortCurrent (h : Inv a x p) (htimely : Timely x .abortCurrent)
    (hstep : step a x .abortCurrent = some y) : Inv a y p := by
  obtain ⟨s, out, hs, rfl⟩ := receive_eq_some hstep
  have hlogged := h.logged
  cases hcur : x.rcv.current with
  | none =>
      simp only [Receiver.step, Receiver.abortCurrent, hcur] at hs
      obtain ⟨rfl, rfl⟩ := Prod.mk.inj (Option.some.inj hs)
      rw [List.append_nil]
      exact h
  | some c =>
      simp only [Receiver.step, Receiver.abortCurrent, hcur] at hs
      obtain ⟨rfl, rfl⟩ := Prod.mk.inj (Option.some.inj hs)
      rw [hcur] at hlogged
      have hput : x.rcv.put (fileAbortMessage c.fileIdHex) = [] ∨
          x.rcv.put (fileAbortMessage c.fileIdHex) = [.send (fileAbortMessage c.fileIdHex)] := by
        rw [Receiver.State.put]
        split
        · exact .inl rfl
        · exact .inr rfl
      refine h.resumed (h.working.drop htimely rfl rfl) (hlogged.cancel hput) ?_
        fun c hc => by cases hc
      rcases hput with hput | hput <;> rw [hput] <;> rfl

theorem Inv.close (h : Inv a x p) (htimely : Timely x .close) (hstep : step a x .close = some y) :
    Inv a y p := by
  obtain ⟨s, out, hs, rfl⟩ := receive_eq_some hstep
  obtain ⟨hmid, hlast⟩ := htimely
  have hlogged := h.logged
  rw [Receiver.step] at hs
  split at hs
  next => cases hs
  next hopen =>
    rw [Bool.not_eq_true] at hopen
    rw [hopen] at hlogged
    dsimp only at hs
    rw [if_pos h.attached] at hs
    have hworking : Working a x.log p { x.rcv with socketClosed := true, current := none } :=
      h.working.drop hmid rfl rfl
    cases hcur : x.rcv.current with
    | none =>
        rw [hcur] at hlogged
        simp only [onClose, hcur] at hs
        obtain ⟨rfl, rfl⟩ := Prod.mk.inj (Option.some.inj hs)
        rw [List.append_nil]
        refine ⟨h.attached, h.ahead, hlogged.close, h.known, h.drawn, hworking,
          fun _ t ht => (hlast t ht).symm.imp_right fun hmem => ?_⟩
        exact ⟨hmem, fun c hc => by cases hc⟩
    | some c =>
        rw [hcur] at hlogged
        simp only [onClose, hcur] at hs
        obtain ⟨rfl, rfl⟩ := Prod.mk.inj (Option.some.inj hs)
        have hsame : startedFiles (x.log ++ [.onError "connection_lost"]) = startedFiles x.log := by
          rw [startedFiles_append]
          exact List.append_nil _
        refine ⟨h.attached, h.ahead.mono (List.subset_append_left _ _), hlogged.lost,
          hsame.symm ▸ h.known, h.drawn, hworking.append rfl,
          fun _ t ht => (hlast t ht).symm.imp_right fun hmem => ?_⟩
        exact ⟨hsame.symm ▸ hmem, fun c hc => by cases hc⟩

theorem inv_step (hkey : a.epochKey.length = 32)
    (hcodec : ∀ f : File, (a.codec.decode (a.codec.encode f.toMeta)).isSome)
    (x : State) (e : Event) (y : State) (hx : ∃ p, Inv a x p) (htimely : Timely x e)
    (hstep : step a x e = some y) : ∃ p, Inv a y p := by
  obtain ⟨p, h⟩ := hx
  cases e with
  | arrives i => exact ⟨p, h.arrives hstep⟩
  | start => exact h.start hstep
  | resume => exact ⟨p, h.resume hkey hcodec hstep⟩
  | close => exact ⟨p, h.close htimely hstep⟩
  | abortCurrent => exact ⟨p, h.abortCurrent htimely hstep⟩

/-- **The contract of the handlers.** Every honest stream, cancelled and cut off
in time, is told to the handlers file by file. -/
theorem contract_of_timely (a : ReceiverArgs) (hkey : a.epochKey.length = 32)
    (hcodec : ∀ f : File, (a.codec.decode (a.codec.encode f.toMeta)).isSome) (es : List Event)
    (x : State) (htimely : Transition.Guarded (step a) Timely init es)
    (hrun : Transition.run (step a) init es = some x) : Contract x := by
  obtain ⟨p, h⟩ := htimely.invariant (inv_step hkey hcodec) ⟨_, Inv.init a⟩ hrun
  exact h.contract

/-- One file comes whole; the next is cancelled when its first call is done, and
then the socket closes. -/
def timelyEvents : List Event :=
  [.arrives (.file SendFile.tinyArgs.fileId SendFile.tinyArgs.file), .start, .resume, .resume,
    .resume, .arrives .chunk, .start, .resume, .resume,
    .arrives (.file SendFile.tinyOtherId SendFile.tinyArgs.file), .start, .resume,
    .resume, .resume, .abortCurrent, .arrives .chunk, .close, .start]

theorem contract_of_timely_tiny : ∃ x,
    Transition.run (step tinyReceiver) init timelyEvents = some x ∧
      (startedFiles x.log).length = 2 ∧ Contract x := by
  have hg : Transition.Guarded (step tinyReceiver) Timely init timelyEvents := by decide +kernel
  have hrun : (Transition.run (step tinyReceiver) init timelyEvents).any
      (fun x => (startedFiles x.log).length = 2) = true := by decide +kernel
  obtain ⟨x, hx, h⟩ := (Option.any_eq_true _ _).mp hrun
  exact ⟨x, hx, of_decide_eq_true h,
    contract_of_timely tinyReceiver (by decide) (fun _ => rfl) timelyEvents x hg hx⟩

/-- The run in which the user cancels while `onChunk` is awaited, and the write
then ends. -/
def interruptedEvents : List Event :=
  [.arrives (.file SendFile.tinyArgs.fileId SendFile.tinyArgs.file), .start, .resume, .resume,
    .resume, .arrives .chunk, .start, .resume, .abortCurrent, .resume]

/-- The socket closes while the key of a file is derived, of which no more comes. -/
def cutOffEvents : List Event :=
  [.arrives (.file SendFile.tinyArgs.fileId SendFile.tinyArgs.file), .start, .close, .resume,
    .resume, .resume]

/-- The cancelled file is acked, and an error is reported; and a file starts
after the close, and never ends. -/
theorem contract_broken :
    (∃ x, Transition.run (step tinyReceiver) init interruptedEvents = some x ∧
      [.send (fileAbortMessage SendFile.tinyArgs.fileId.hex),
        .send (chunkAckMessage SendFile.tinyArgs.fileId.hex 0)].Sublist x.log ∧
      errors x.log = ["TypeError"] ∧ ¬ Contract x) ∧
    ∃ x, Transition.run (step tinyReceiver) init cutOffEvents = some x ∧
      x.rcv.socketClosed = true ∧ x.rcv.running = none ∧ x.rcv.chain = [] ∧
      Transition.run handler none x.log = some (some SendFile.tinyArgs.fileId.hex) ∧
      ¬ Contract x := by
  have hinterrupted : (Transition.run (step tinyReceiver) init interruptedEvents).any (fun x =>
      [.send (fileAbortMessage SendFile.tinyArgs.fileId.hex),
        .send (chunkAckMessage SendFile.tinyArgs.fileId.hex 0)].Sublist x.log ∧
      errors x.log = ["TypeError"]) = true := by decide +kernel
  have hcutOff : (Transition.run (step tinyReceiver) init cutOffEvents).any (fun x =>
      x.rcv.socketClosed = true ∧ x.rcv.running = none ∧ x.rcv.chain = [] ∧
      Transition.run handler none x.log = some (some SendFile.tinyArgs.fileId.hex)) = true := by
    decide +kernel
  constructor
  · obtain ⟨x, hx, h⟩ := (Option.any_eq_true _ _).mp hinterrupted
    obtain ⟨hacked, herrors⟩ := of_decide_eq_true h
    refine ⟨x, hx, hacked, herrors, fun hcontract => ?_⟩
    have hquiet := hcontract.quiet
    rw [herrors] at hquiet
    simp at hquiet
  · obtain ⟨x, hx, h⟩ := (Option.any_eq_true _ _).mp hcutOff
    obtain ⟨hclosed, hrun, hchain, hstarted⟩ := of_decide_eq_true h
    refine ⟨x, hx, hclosed, hrun, hchain, hstarted, fun hcontract => ?_⟩
    have hended := hcontract.ended hrun hchain (.inl hclosed)
    simp [hstarted] at hended

end Receiver.Callbacks

end Quicksend
