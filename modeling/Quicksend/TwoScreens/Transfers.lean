import Quicksend.TwoScreens
import Quicksend.PairedScreen.Receivers
import Quicksend.PairedScreen.InFlight

/-!
# The files between two screens

A file is under way from its `file_meta` until it is complete, or somebody has aborted
it. As long as no connection drops, a `sendFile` call that has settled has no file under
way: it resolves after the last ack, and else it, the receiver or the relay has sent a
`file_abort`.
-/

namespace Quicksend.TwoScreens

open PairedScreen (ReceiverMove CallMove CallRan PutBy)

/-- This client has sent the `file_meta` of a file. -/
def Begun (x : TwoScreens) (role : Role) (fileId : JSString) : Prop :=
  ∃ ciphertext, (some role, fileMetaMessage fileId ciphertext) ∈ x.log

/-- A client or the relay has sent a `file_abort` for a file. -/
def Aborted (x : TwoScreens) (fileId : JSString) : Prop :=
  ∃ source reason, (source, .text (.fileAbort (some ⟨some fileId, reason⟩))) ∈ x.log

/-- A file from this client is complete, or was aborted. -/
def Ended (x : TwoScreens) (role : Role) (fileId : JSString) : Prop :=
  (x.screens role.other).completed fileId = true ∨ x.Aborted fileId

/-! ## One screen acts -/

/-- A step in which one screen takes an event: its output joins its leg and the
log, and the other screen is left alone. -/
structure Acts (w : WebCrypto) (codec : MetaCodec) (x y : TwoScreens) (role : Role)
    (e : PairedScreen.Event) (out : List Output) : Prop where
  step : (x.screens role).step w codec e = some (y.screens role, out)
  other : y.screens role.other = x.screens role.other
  up : y.up = Function.update x.up role (x.up role ++ out.map Output.payload)
  down : y.down = x.down
  log : y.log = x.log ++ (out.filterMap Output.message?).map fun m => (some role, m)

variable {w : WebCrypto} {codec : MetaCodec} {x y : TwoScreens} {role : Role}
  {e : PairedScreen.Event} {out : List Output} {fileId : JSString}

theorem act_spec (h : x.act w codec role e = some y) : ∃ out, Acts w codec x y role e out := by
  obtain ⟨⟨s, out⟩, hs, rfl⟩ := Option.map_eq_some_iff.mp h
  refine ⟨out, ?_, ?_, rfl, rfl, rfl⟩
  · dsimp only
    rw [Function.update_self]
    exact hs
  · dsimp only
    rw [Function.update_of_ne (Role.other_ne role)]

theorem message?_eq_some {o : Output} {m : Message} : o.message? = some m ↔ o.payload = .message m := by
  rw [Output.message?]
  cases o.payload with
  | signal s => simp
  | message m' => simp

theorem Acts.mem_log (h : Acts w codec x y role e out) {source : Option Role} {m : Message} :
    (source, m) ∈ y.log ↔
      (source, m) ∈ x.log ∨ source = some role ∧ ∃ o ∈ out, o.payload = .message m := by
  rw [h.log, List.mem_append]
  refine or_congr_right ?_
  simp only [List.mem_map, List.mem_filterMap, message?_eq_some]
  constructor
  · rintro ⟨m', ⟨o, ho, hp⟩, heq⟩
    obtain ⟨rfl, rfl⟩ := Prod.mk.inj heq
    exact ⟨rfl, o, ho, hp⟩
  · rintro ⟨rfl, o, ho, hp⟩
    exact ⟨m, ⟨o, ho, hp⟩, rfl⟩

theorem Acts.log_mono (h : Acts w codec x y role e out) {s : Option Role × Message}
    (hs : s ∈ x.log) : s ∈ y.log := h.mem_log.mpr (.inl hs)

theorem Aborted.mono (h : x.Aborted fileId) (hlog : ∀ s ∈ x.log, s ∈ y.log) : y.Aborted fileId := by
  obtain ⟨source, reason, hm⟩ := h
  exact ⟨source, reason, hlog _ hm⟩

theorem completed_iff {s : PairedScreen} :
    s.completed fileId = true ↔
      ∃ i ui, s.receiver? i = some ui ∧ .onFileComplete fileId ∈ ui.log := by
  rw [PairedScreen.completed, List.any_eq_true]
  constructor
  · rintro ⟨r, hr, hdone⟩
    obtain ⟨i, hi⟩ := List.mem_iff_getElem?.mp hr
    split at hdone
    next ui hh =>
      exact ⟨i, ui, PairedScreen.receiver?_of_handle hi hh, by simpa using hdone⟩
    next => cases hdone
    next => cases hdone
  · rintro ⟨i, ui, hui, hdone⟩
    obtain ⟨r, hr, hrui⟩ := Option.bind_eq_some_iff.mp hui
    obtain ⟨h, hh, hhui⟩ := Option.bind_eq_some_iff.mp hrui
    refine ⟨r, List.mem_of_getElem? hr, ?_⟩
    cases h with
    | sender d b => cases hhui
    | receiver ui' =>
        obtain rfl := Option.some.inj hhui
        rw [hh]
        simpa using hdone

theorem completed_of_step {s t : PairedScreen} (h : s.step w codec e = some (t, out))
    (hdone : s.completed fileId = true) : t.completed fileId = true := by
  obtain ⟨i, ui, hui, hdone⟩ := completed_iff.mp hdone
  refine completed_iff.mpr ?_
  cases PairedScreen.receiverMove_of_step h i with
  | still hsame => exact ⟨i, ui, hsame.trans hui, hdone⟩
  | detached ui' hx hy =>
      obtain rfl := Option.some.inj (hui.symm.trans hx)
      exact ⟨i, _, hy, hdone⟩
  | attached socket hx hy =>
      rw [hui] at hx
      cases hx
  | ran a ui₀ ui' e' acts hx hy hstep hevent =>
      obtain rfl := Option.some.inj (hui.symm.trans hx)
      refine ⟨i, ui', hy, ?_⟩
      rw [(ReceiverTransfer.acted_of_step hstep).log]
      exact List.mem_append_left _ hdone

theorem Acts.ended (h : Acts w codec x y role e out) {sender : Role}
    (hend : x.Ended sender fileId) : y.Ended sender fileId := by
  refine hend.imp (fun hdone => ?_) (fun hab => hab.mono fun s hs => h.log_mono hs)
  rcases Role.eq_or_eq_other role sender.other with hr | hr
  · rw [hr] at hdone ⊢
    exact completed_of_step h.step hdone
  · rw [hr, h.other]
    rwa [hr] at hdone

/-! ## The calls -/

/-- A message that is on its way from this client, or from the relay beside it. -/
def Sent (x : TwoScreens) (role : Role) (m : Message) : Prop :=
  (some role, m) ∈ x.log ∨ ∃ fileId : FileId, m = sizeLimitAbortMessage fileId.hex ∧ (none, m) ∈ x.log

/-- A call and what is on the record about its file. -/
structure CallOk (x : TwoScreens) (role : Role) (call : SendCall) : Prop where
  well : SendFile.WellFormed call.args call.state
  connected : call.state.socketClosed = false ∧ call.state.connectionLost = false
  acked : call.state.ackedUpTo = -1 ∨
    (some role.other, chunkAckMessage call.args.fileId.hex call.state.ackedUpTo) ∈ x.log
  cancelled : ∀ reason, call.state.aborted = some ⟨true, reason⟩ → x.Aborted call.args.fileId.hex
  unsent : call.state.pc = .derivingKey ∨ call.state.pc = .encryptingMeta →
    ¬ x.Begun role call.args.fileId.hex
  settled : call.state.isSettled = true → x.Begun role call.args.fileId.hex →
    x.Ended role call.args.fileId.hex

/-- The last ack of a call has come: then its file has ended. -/
def LastAck (x : TwoScreens) (role : Role) (a : SendArgs) : Prop :=
  ∀ n : Int, (some role.other, chunkAckMessage a.fileId.hex n) ∈ x.log →
    (a.file.totalChunks : Int) - 1 ≤ n → x.Ended role a.fileId.hex

/-- What a step that is not about a call leaves of it. -/
theorem CallOk.mono {call : SendCall} (h : CallOk x role call) (hlog : ∀ s ∈ x.log, s ∈ y.log)
    (hended : x.Ended role call.args.fileId.hex → y.Ended role call.args.fileId.hex)
    (hbegun : y.Begun role call.args.fileId.hex → x.Begun role call.args.fileId.hex) :
    CallOk y role call where
  well := h.well
  connected := h.connected
  acked := h.acked.imp_right (hlog _)
  cancelled reason hab := (h.cancelled reason hab).mono hlog
  unsent hpc hb := h.unsent hpc (hbegun hb)
  settled hs hb := hended (h.settled hs (hbegun hb))

theorem ended_of_aborted (h : x.Aborted fileId) : x.Ended role fileId := .inr h

theorem aborted_of_put (h : (some role, fileAbortMessage fileId) ∈ x.log) : x.Aborted fileId :=
  ⟨some role, none, h⟩

section
open SendFile (Lands Woken Steps WellFormed noted)

variable {a : SendArgs} {s t : SendFile.State} {e' : SendFile.Event} {ms : List Message}

/-- What the loop of a call knows about the end of its file. -/
structure Known (x : TwoScreens) (role : Role) (a : SendArgs) (s : SendFile.State) : Prop where
  connected : s.socketClosed = false ∧ s.connectionLost = false
  acked : s.ackedUpTo = -1 ∨
    (some role.other, chunkAckMessage a.fileId.hex s.ackedUpTo) ∈ x.log
  cancelled : ∀ reason, s.aborted = some ⟨true, reason⟩ → x.Aborted a.fileId.hex

/-- Where the loop comes to rest it knows the same; and if that is the end, the file
has ended. -/
theorem Known.lands {i : Nat} (hs : Known y role a s) (h : Lands a s i t ms)
    (hput : ∀ m ∈ ms, (some role, m) ∈ y.log) (hlast : LastAck y role a) :
    Known y role a t ∧ (t.pc ≠ .derivingKey ∧ t.pc ≠ .encryptingMeta) ∧
      (t.isSettled = true → y.Ended role a.fileId.hex) := by
  cases h with
  | window | reading | acks =>
      exact ⟨⟨hs.connected, hs.acked, hs.cancelled⟩, by simp, by simp [SendFile.State.isSettled]⟩
  | resolved hi hab hacked =>
      refine ⟨⟨hs.connected, hs.acked, hs.cancelled⟩, by simp, fun _ => ?_⟩
      have hpos := a.file.totalChunks_pos
      exact hlast _ (hs.acked.resolve_left (by omega)) hacked
  | aborted ab hab =>
      refine ⟨⟨hs.connected, hs.acked, hs.cancelled⟩, by simp, fun _ => ended_of_aborted ?_⟩
      obtain ⟨remote, reason⟩ := ab
      cases remote with
      | true => exact hs.cancelled reason hab
      | false => exact aborted_of_put (hput _ (by simp [SendFile.State.put, hs.connected.1]))

theorem Known.woken (hs : Known y role a s) (h : Woken a s t ms)
    (hput : ∀ m ∈ ms, (some role, m) ∈ y.log) (hlast : LastAck y role a)
    (hl : s.listening = true) :
    Known y role a t ∧ (t.pc ≠ .derivingKey ∧ t.pc ≠ .encryptingMeta) ∧
      (t.isSettled = true → y.Ended role a.fileId.hex) := by
  cases h with
  | asleep =>
      refine ⟨hs, ⟨?_, ?_⟩, fun hset => ?_⟩
      · intro hpc
        simp [SendFile.State.listening, hpc] at hl
      · intro hpc
        simp [SendFile.State.listening, hpc] at hl
      · rw [SendFile.not_settled_of_listening hl] at hset
        cases hset
  | lost _ hlost =>
      rw [hs.connected.2] at hlost
      cases hlost
  | window _ _ _ _ _ h | acks _ _ _ _ h => exact hs.lands h hput hlast

/-- What a call has heard is on the record. -/
theorem Known.noted (hs : Known y role a s) (hc : SendFile.concerns a e') (hclose : e' ≠ .close)
    (hheard : ∀ env, e' = .message env → y.Sent role.other (.text env)) :
    Known y role a (noted s e') := by
  unfold SendFile.noted
  split
  case h_1 p =>
    refine ⟨hs.connected, .inr ?_, hs.cancelled⟩
    obtain ⟨fileId', n⟩ := p
    have hid : fileId' = some a.fileId.hex := hc
    subst hid
    rcases hheard _ rfl with h | ⟨fileId, h, -⟩
    · exact h
    · cases h
  case h_2 p =>
    refine ⟨hs.connected, hs.acked, fun _ _ => ?_⟩
    obtain ⟨fileId', reason⟩ := p
    have hid : fileId' = some a.fileId.hex := hc
    subst hid
    rcases hheard _ rfl with h | ⟨fileId, -, h⟩
    · exact ⟨_, reason, h⟩
    · exact ⟨_, reason, h⟩
  case h_3 => exact absurd rfl hclose
  case h_4 => exact ⟨hs.connected, hs.acked, by simp⟩
  case h_5 => exact hs

/-- A call takes a step: what it sends and what it hears is on the record. -/
theorem CallOk.ran {call : SendCall} (h : CallOk x role call)
    (hstep : Steps call.args call.state e' t ms) (hlog : ∀ s ∈ x.log, s ∈ y.log)
    (hended : x.Ended role call.args.fileId.hex → y.Ended role call.args.fileId.hex)
    (hbegun : y.Begun role call.args.fileId.hex →
      x.Begun role call.args.fileId.hex ∨ ∃ m ∈ ms, m.IsFileMeta)
    (hput : ∀ m ∈ ms, (some role, m) ∈ y.log) (hlast : LastAck y role call.args)
    (hclose : e' ≠ .close)
    (hheard : ∀ env, e' = .message env → y.Sent role.other (.text env)) :
    CallOk y role { call with state := t } := by
  have hknown : Known y role call.args call.state :=
    ⟨h.connected, h.acked.imp_right (hlog _), fun reason hab => (h.cancelled reason hab).mono hlog⟩
  have silent (hms : ms = []) (hb : y.Begun role call.args.fileId.hex) :
      x.Begun role call.args.fileId.hex := by
    rcases hbegun hb with hb | ⟨m, hm, -⟩
    · exact hb
    · rw [hms] at hm
      cases hm
  have ofKnown {t : SendFile.State} (hw : WellFormed call.args t) (hk : Known y role call.args t)
      (hunsent : t.pc = .derivingKey ∨ t.pc = .encryptingMeta →
        ¬ y.Begun role call.args.fileId.hex)
      (hset : t.isSettled = true → y.Begun role call.args.fileId.hex →
        y.Ended role call.args.fileId.hex) :
      CallOk y role { call with state := t } :=
    ⟨hw, hk.connected, hk.acked, hk.cancelled, hunsent, hset⟩
  have ofLoop {t : SendFile.State} (hw : WellFormed call.args t)
      (hk : Known y role call.args t ∧ (t.pc ≠ .derivingKey ∧ t.pc ≠ .encryptingMeta) ∧
        (t.isSettled = true → y.Ended role call.args.fileId.hex)) :
      CallOk y role { call with state := t } :=
    ofKnown hw hk.1 (fun hpc => (hpc.elim hk.2.1.1 hk.2.1.2).elim) fun hset _ => hk.2.2 hset
  have hw := hstep.wellFormed h.well
  cases hstep with
  | keyDerived hpc key hk =>
      refine ofKnown hw ⟨hknown.connected, hknown.acked, hknown.cancelled⟩ (fun _ hb => ?_)
        (by simp [SendFile.State.isSettled])
      exact h.unsent (.inl hpc) (silent rfl hb)
  | keyFailed hpc err msg =>
      refine ofKnown hw ⟨hknown.connected, hknown.acked, hknown.cancelled⟩ (by simp) fun _ hb => ?_
      exact absurd (silent rfl hb) (h.unsent (.inl hpc))
  -- it has failed before its file began, so nothing is to be ended
  | metaFailed hpc err msg =>
      refine ofKnown hw ⟨hknown.connected, hknown.acked, hknown.cancelled⟩ (by simp) fun _ hb => ?_
      exact absurd (silent rfl hb) (h.unsent (.inr hpc))
  | metaSent hpc c hc t out hlands =>
      refine ofLoop hw (hknown.lands hlands (fun m hm => hput m ?_) hlast)
      exact List.mem_append_right _ hm
  | sliceRead i hpc =>
      exact ofKnown hw ⟨hknown.connected, hknown.acked, hknown.cancelled⟩ (by simp)
        (by simp [SendFile.State.isSettled])
  | chunkSent i p hpc c hc t out hlands =>
      refine ofLoop hw (hknown.lands hlands (fun m hm => hput m ?_) hlast)
      exact List.mem_append_right _ hm
  | failed _ msg hpc =>
      -- it has failed later: the abort that it sends ends the file
      refine ofKnown hw ⟨hknown.connected, hknown.acked, hknown.cancelled⟩ (by simp [SendFile.throwErr])
        fun _ _ => ended_of_aborted ?_
      refine aborted_of_put (hput _ ?_)
      simp [SendFile.throwErr, hknown.connected.2, SendFile.State.put, hknown.connected.1]
  | heard _ hl hc _ _ t out hwoken =>
      exact ofLoop hw ((hknown.noted hc hclose hheard).woken hwoken hput hlast
        (by rw [SendFile.noted_listening, hl]))
  | ignored env hopen hno =>
      refine h.mono hlog hended (silent rfl)
  | closedUnheard => exact absurd rfl hclose
  | abortUnheard hl hfired =>
      exact ofKnown hw ⟨hknown.connected, hknown.acked, hknown.cancelled⟩
        (fun hpc hb => h.unsent hpc (silent rfl hb)) fun hset hb =>
          hended (h.settled hset (silent rfl hb))

end

/-! ## The receivers -/

/-- A chunk frame that the other client has sent. -/
def FrameSent (x : TwoScreens) (role : Role) (frame : ChunkFrame) : Prop :=
  ∃ data, (some role.other, .binary data) ∈ x.log ∧ parseChunkFrame data = some frame

/-- The running step of the chain of a receiver, and what became of its file. -/
def TaskOk (x : TwoScreens) (role : Role) (current : Option Receiver.Current) :
    Receiver.Task → Prop
  | .chunkDecrypt _ frame => x.FrameSent role frame ∧ ∀ c, current = some c →
      c.fileIdHex = frame.fileId.hex ∧ c.expectedIndex = frame.index
  | .chunkWrite _ frame index _ => x.FrameSent role frame ∧ index = frame.index ∧
      (∀ c, current = some c → c.fileIdHex = frame.fileId.hex) ∧
      (current = none → x.Aborted frame.fileId.hex)
  | .metaKey _ _ | .metaDecrypt _ _ _ | .metaStart _ _ _ => True

/-- The receiver of this screen holds only chunk frames that the other side or the
relay really sent it. -/
structure ReceiverOk (x : TwoScreens) (role : Role) (s : Receiver.State) : Prop where
  connected : s.socketClosed = false
  chain : ∀ data, .binary data ∈ s.chain → (some role.other, .binary data) ∈ x.log
  task : ∀ task, s.running = some task → TaskOk x role s.current task

theorem TaskOk.mono {current : Option Receiver.Current} {task : Receiver.Task}
    (h : TaskOk x role current task) (hlog : ∀ s ∈ x.log, s ∈ y.log) :
    TaskOk y role current task := by
  have sent {frame : ChunkFrame} (h : x.FrameSent role frame) : y.FrameSent role frame := by
    obtain ⟨data, hdata, hparse⟩ := h
    exact ⟨data, hlog _ hdata, hparse⟩
  cases task with
  | metaKey | metaDecrypt | metaStart => trivial
  | chunkDecrypt => exact ⟨sent h.1, h.2⟩
  | chunkWrite => exact ⟨sent h.1, h.2.1, h.2.2.1, fun hnone => (h.2.2.2 hnone).mono hlog⟩

theorem ReceiverOk.mono {s : Receiver.State} (h : ReceiverOk x role s)
    (hlog : ∀ s ∈ x.log, s ∈ y.log) : ReceiverOk y role s where
  connected := h.connected
  chain data hd := hlog _ (h.chain data hd)
  task task ht := (h.task task ht).mono hlog

section
open Receiver (Steps Action)

variable {a : ReceiverArgs} {s t : Receiver.State} {e' : Receiver.Event} {acts : List Action}

/-- The file of a chunk's step was aborted when `current` is gone. -/
theorem TaskOk.drop {c : Receiver.Current} {task : Receiver.Task}
    (h : TaskOk x role (some c) task) (hab : x.Aborted c.fileIdHex) : TaskOk x role none task := by
  cases task with
  | metaKey | metaDecrypt | metaStart => trivial
  | chunkDecrypt => exact ⟨h.1, by simp⟩
  | chunkWrite =>
      refine ⟨h.1, h.2.1, by simp, fun _ => ?_⟩
      rw [← h.2.2.1 c rfl]
      exact hab

theorem ReceiverOk.ran (h : ReceiverOk x role s) (hstep : Steps a s e' t acts)
    (hlog : ∀ s ∈ x.log, s ∈ y.log) (hput : ∀ m, .send m ∈ acts → (some role, m) ∈ y.log)
    (hclose : e' ≠ .close)
    (hheard : ∀ m, e' = .message m → y.Sent role.other m) : ReceiverOk y role t := by
  obtain ⟨hopen, hchain, htask⟩ := h.mono hlog
  have started {m : Message} {chain : List Message} (hc : s.chain = m :: chain) :
      ∀ data, .binary data ∈ chain → (some role.other, .binary data) ∈ y.log :=
    fun data hd => hchain data (by rw [hc]; exact List.mem_cons_of_mem _ hd)
  cases hstep with
  | queued m _ hm =>
      refine ⟨hopen, fun data hd => ?_, htask⟩
      rcases List.mem_append.mp hd with hd | hd
      · exact hchain data hd
      · obtain rfl := List.mem_singleton.mp hd
        rcases hheard _ rfl with h | ⟨fileId, h, -⟩
        · exact h
        · cases h
  | ignored => exact ⟨hopen, hchain, htask⟩
  | metaBegun fileIdHex ciphertext chain hrun hc =>
      refine ⟨hopen, started hc, fun task ht => ?_⟩
      obtain rfl := Option.some.inj ht
      trivial
  | chunkBegun buffer frame c chain hrun hc hparse hcur hid hindex =>
      refine ⟨hopen, started hc, fun task ht => ?_⟩
      obtain rfl := Option.some.inj ht
      -- the frame was sent by the other client, and is the one that is due
      refine ⟨⟨buffer, hchain buffer (by rw [hc]; exact List.mem_cons_self), hparse⟩, fun c' hc' => ?_⟩
      obtain rfl := Option.some.inj (hcur.symm.trans hc')
      exact ⟨hid.symm, hindex.symm⟩
  | peerAborted c p chain hrun hc hcur hid =>
      refine ⟨hopen, started hc, fun task ht => ?_⟩
      rw [show s.running = some task from ht] at hrun
      cases hrun
  | dropped m chain hrun hc => exact ⟨hopen, started hc, htask⟩
  | refused m chain err hrun hc hfit => exact ⟨hopen, started hc, htask⟩
  | failed | metaDone => exact ⟨hopen, hchain, by simp⟩
  | metaKeyed | metaOpened =>
      refine ⟨hopen, hchain, fun task ht => ?_⟩
      obtain rfl := Option.some.inj ht
      trivial
  | chunkOpened fileKey frame c plaintext hrun hcur hopens =>
      refine ⟨hopen, hchain, fun task ht => ?_⟩
      obtain rfl := Option.some.inj ht
      obtain ⟨hsent, hat⟩ : TaskOk y role s.current (.chunkDecrypt fileKey frame) := htask _ hrun
      obtain ⟨-, hindex⟩ := hat c hcur
      refine ⟨hsent, hindex, fun c' hc' => (hat c' hc').1, fun hnone => ?_⟩
      rw [show s.current = none from hnone] at hcur
      cases hcur
  | chunkOrphaned | chunkLast | chunkMore => exact ⟨hopen, hchain, by simp⟩
  | closed | closedIdle => exact absurd rfl hclose
  | aborted c hcur =>
      refine ⟨hopen, hchain, fun task ht => ?_⟩
      have hok := htask task ht
      rw [hcur] at hok
      -- a write under way goes on, of a file that its receiver has aborted
      exact hok.drop (aborted_of_put (hput _ (by simp [Receiver.State.put, h.connected])))
  | abortedIdle => exact ⟨hopen, hchain, htask⟩
  | detached => exact ⟨hopen, hchain, htask⟩

/-- What a receiver sends: the ack of a frame it was sent, whose file has ended with
the last one, or a `file_abort`. -/
theorem ReceiverOk.sends (h : ReceiverOk x role s) (hstep : Steps a s e' t acts) {m : Message}
    (hm : .send m ∈ acts) :
    (∃ frame : ChunkFrame, m = chunkAckMessage frame.fileId.hex frame.index ∧
      x.FrameSent role frame ∧ (frame.isLast = true →
        .onFileComplete frame.fileId.hex ∈ acts ∨ x.Aborted frame.fileId.hex)) ∨
      ∃ id, m = fileAbortMessage id := by
  have of_put {m' : Message} (hmem : Action.send m ∈ s.put m') : m = m' := by
    unfold Receiver.State.put at hmem
    split at hmem
    next => cases hmem
    next => exact Action.send.inj (List.mem_singleton.mp hmem)
  cases hstep with
  | chunkOrphaned fileKey frame index plaintext hrun hcur =>
      obtain ⟨hsent, rfl, -, hab⟩ :
        TaskOk x role s.current (.chunkWrite fileKey frame index plaintext) := h.task _ hrun
      refine .inl ⟨frame, ?_, hsent, fun _ => .inr (hab hcur)⟩
      refine of_put ?_
      simpa [FileId.hex] using hm
  | chunkLast fileKey frame index plaintext c hrun hcur hlast =>
      obtain ⟨hsent, rfl, -⟩ :
        TaskOk x role s.current (.chunkWrite fileKey frame index plaintext) := h.task _ hrun
      refine .inl ⟨frame, ?_, hsent, fun _ => .inl (List.mem_append_right _ (List.mem_singleton.mpr rfl))⟩
      refine of_put ?_
      simpa [FileId.hex] using hm
  | chunkMore fileKey frame index plaintext c hrun hcur hlast =>
      obtain ⟨hsent, rfl, -⟩ :
        TaskOk x role s.current (.chunkWrite fileKey frame index plaintext) := h.task _ hrun
      refine .inl ⟨frame, ?_, hsent, fun hl => ?_⟩
      · refine of_put ?_
        simpa [FileId.hex] using hm
      · rw [hl] at hlast
        cases hlast
  | aborted c hcur =>
      refine .inr ⟨c.fileIdHex, of_put ?_⟩
      simpa using hm
  | _ => simp at hm

end

/-! ## The record -/

/-- What is on the record, and where it is from. -/
structure Attributed (x : TwoScreens) : Prop where
  frames : ∀ role data frame, (some role, .binary data) ∈ x.log →
    parseChunkFrame data = some frame → ∃ call ∈ (x.screens role).calls,
      call.args.fileId = frame.fileId ∧
        (call.args.file.totalChunks ≤ frame.index + 1 → frame.isLast = true)
  acks : ∀ role fileId (n : Int), (some role, chunkAckMessage fileId n) ∈ x.log →
    ∃ frame, x.FrameSent role frame ∧ frame.fileId.hex = fileId ∧ n = frame.index ∧
      (frame.isLast = true → x.Ended role.other fileId)
  begun : ∀ role fileId, x.Begun role fileId →
    ∃ call ∈ (x.screens role).calls, call.args.fileId.hex = fileId
  unique : ∀ role (j k : Nat) (cj ck : SendCall), (x.screens role).calls[j]? = some cj →
    (x.screens role).calls[k]? = some ck → cj.args.fileId = ck.args.fileId → j = k

/-- What every step keeps of the log: the sockets stay up, and all that travels,
is called for or is being received was sent by somebody on record. -/
structure Recorded (x : TwoScreens) : Prop where
  sockets : ∀ role, (x.screens role).shut = [] ∧ (x.screens role).closed = []
  travels : ∀ role m, .message m ∈ x.up role ++ x.down role.other → x.Sent role m
  attributed : Attributed x
  calls : ∀ role (k : Nat) (call : SendCall), (x.screens role).calls[k]? = some call →
    CallOk x role call
  receivers : ∀ role (i : Nat) (ui : ReceiverTransfer.State),
    (x.screens role).receiver? i = some ui → ReceiverOk x role ui.rcv

theorem Attributed.lastAck (hx : Attributed x) {k : Nat} {call : SendCall}
    (hk : (x.screens role).calls[k]? = some call) : LastAck x role call.args := by
  intro n hack hn
  obtain ⟨frame, ⟨data, hdata, hparse⟩, hid, rfl, hlast⟩ := hx.acks _ _ _ hack
  rw [Role.other_other] at hdata hlast
  obtain ⟨call', hmem, hid', hwhole⟩ := hx.frames role data frame hdata hparse
  obtain ⟨k', hk'⟩ := List.mem_iff_getElem?.mp hmem
  have hsame : call'.args.fileId = call.args.fileId := FileId.hex_inj (by rw [hid']; exact hid)
  obtain rfl := hx.unique role k' k call' call hk' hk hsame
  obtain rfl := Option.some.inj (hk.symm.trans hk')
  exact hlast (hwhole (by omega))

/-- What may happen to a screen here: no socket closes, nobody leaves, what arrives has
been sent, and a new call has an id of its own. -/
structure Allowed (x : TwoScreens) (role : Role) (e : PairedScreen.Event) : Prop where
  closes : ∀ socket, e ≠ .closes socket
  stays : (x.screens role).leavesScreen e = false
  heard : ∀ socket m, e = .arrives socket m → x.Sent role.other m
  fresh : ∀ fileId, e.draws = some fileId →
    ∀ call ∈ (x.screens role).calls, call.args.fileId ≠ fileId

/-- The transfer message of an output is from a call, or from a receiver. -/
theorem Recorded.message_cases (hx : Recorded x) (h : Acts w codec x y role e out) {o : Output}
    {m : Message} (ho : o ∈ out) (hp : o.payload = .message m) :
    (∃ (k : Nat) (call : SendCall), (x.screens role).calls[k]? = some call ∧ o.call = some k ∧
      SendFile.Emits call.args m) ∨
      (∃ frame : ChunkFrame, m = chunkAckMessage frame.fileId.hex frame.index ∧
        x.FrameSent role frame ∧ (frame.isLast = true → y.Ended role.other frame.fileId.hex)) ∨
        ∃ id, m = fileAbortMessage id := by
  cases PairedScreen.putBy_of_step h.step ho with
  | asked _ _ hp' | answered _ _ _ _ hp' =>
      rw [hp] at hp'
      cases hp'
  | sender k call e' t ms m' hk hcall hstep hm hp' =>
      obtain rfl := Payload.message.inj (hp.symm.trans hp')
      have hw := (hx.calls role k call hk).well
      exact .inl ⟨k, call, hk, hcall, (SendFile.step_spec hw hstep).emits hw m hm⟩
  | receiver i a ui ui' e' acts m' he hui hui' hstep hm hp' =>
      obtain rfl := Payload.message.inj (hp.symm.trans hp')
      obtain ⟨hlog, hrcv⟩ := ReceiverTransfer.acted_of_step hstep
      rcases hrcv with ⟨e'', hsteps, -⟩ | ⟨-, rfl⟩
      · rcases (hx.receivers role i ui hui).sends hsteps hm with
          ⟨frame, hack, hsent, hlast⟩ | hab
        · refine .inr (.inl ⟨frame, hack, hsent, fun hl => ?_⟩)
          rcases hlast hl with hdone | hab
          · refine .inl ?_
            rw [Role.other_other]
            exact completed_iff.mpr ⟨i, ui', hui', by rw [hlog]; exact List.mem_append_right _ hdone⟩
          · exact .inr (hab.mono fun s hs => h.log_mono hs)
        · exact .inr (.inr hab)
      · cases hm

theorem FrameSent.mono {frame : ChunkFrame} (h : x.FrameSent role frame)
    (hlog : ∀ s ∈ x.log, s ∈ y.log) : y.FrameSent role frame := by
  obtain ⟨data, hdata, hparse⟩ := h
  exact ⟨data, hlog _ hdata, hparse⟩

/-- The call that was there still is. -/
theorem Acts.call_kept (h : Acts w codec x y role e out) {r : Role} {call : SendCall}
    (hc : call ∈ (x.screens r).calls) :
    ∃ call' ∈ (y.screens r).calls, call'.args = call.args := by
  rcases Role.eq_or_eq_other role r with rfl | rfl
  · obtain ⟨k, hk⟩ := List.mem_iff_getElem?.mp hc
    obtain ⟨call', hk', hargs⟩ := (PairedScreen.move_of_step h.step).args_kept hk
    exact ⟨call', List.mem_of_getElem? hk', hargs⟩
  · exact ⟨call, by rw [h.other]; exact hc, rfl⟩

theorem Attributed.act (hx : Recorded x) (h : Acts w codec x y role e out)
    (he : x.Allowed role e) : Attributed y := by
  obtain ⟨hframes, hacks, hbegun, hunique⟩ := hx.attributed
  have hmono {s} (hs : s ∈ x.log) : s ∈ y.log := h.log_mono hs
  constructor
  case frames =>
    intro r data frame hdata hparse
    rcases h.mem_log.mp hdata with hdata | ⟨hr, o, ho, hp⟩
    · obtain ⟨call, hc, hid, hwhole⟩ := hframes r data frame hdata hparse
      obtain ⟨call', hc', hargs⟩ := h.call_kept hc
      exact ⟨call', hc', by rw [hargs]; exact hid, by rw [hargs]; exact hwhole⟩
    · obtain rfl := Option.some.inj hr
      rcases hx.message_cases h ho hp with ⟨k, call, hk, -, hemits⟩ | ⟨_, hm, -⟩ | ⟨_, hm⟩
      · obtain ⟨call', hc', hargs⟩ := h.call_kept (List.mem_of_getElem? hk)
        refine ⟨call', hc', ?_⟩
        rw [hargs]
        cases hemits with
        | chunk i hi ciphertext =>
            have hlt : i < 2 ^ 64 :=
              lt_trans hi (lt_trans call.args.file.totalChunks_lt METADATA_CHUNK_INDEX_lt)
            -- a frame that a call sends reads back as its own, and only its last is marked
            rw [parseChunkFrame_buildChunkFrame hlt] at hparse
            obtain rfl := Option.some.inj hparse
            refine ⟨rfl, fun hwhole => decide_eq_true ?_⟩
            change call.args.file.totalChunks ≤ i + 1 at hwhole
            omega
      · cases hm
      · cases hm
  case acks =>
    intro r fileId n hack
    rcases h.mem_log.mp hack with hack | ⟨hr, o, ho, hp⟩
    · obtain ⟨frame, hsent, hid, hn, hlast⟩ := hacks r fileId n hack
      exact ⟨frame, hsent.mono fun s => hmono, hid, hn, fun hl => h.ended (hlast hl)⟩
    · obtain rfl := Option.some.inj hr
      rcases hx.message_cases h ho hp with ⟨k, call, -, -, hemits⟩ | ⟨frame, hm, hsent, hlast⟩ | ⟨_, hm⟩
      · cases hemits
      · obtain ⟨rfl, rfl⟩ : fileId = frame.fileId.hex ∧ n = frame.index := by
          simpa [chunkAckMessage] using hm
        -- an ack goes out for a frame that was sent, whose file has ended with its last
        exact ⟨frame, hsent.mono fun s => hmono, rfl, rfl, hlast⟩
      · cases hm
  case begun =>
    rintro r fileId ⟨ciphertext, hmeta⟩
    rcases h.mem_log.mp hmeta with hmeta | ⟨hr, o, ho, hp⟩
    · obtain ⟨call, hc, hid⟩ := hbegun r fileId ⟨ciphertext, hmeta⟩
      obtain ⟨call', hc', hargs⟩ := h.call_kept hc
      exact ⟨call', hc', by rw [hargs]; exact hid⟩
    · obtain rfl := Option.some.inj hr
      rcases hx.message_cases h ho hp with ⟨k, call, hk, -, hemits⟩ | ⟨_, hm, -⟩ | ⟨_, hm⟩
      · obtain ⟨call', hc', hargs⟩ := h.call_kept (List.mem_of_getElem? hk)
        refine ⟨call', hc', ?_⟩
        rw [hargs]
        generalize hm : fileMetaMessage fileId ciphertext = m at hemits
        cases hemits with
        | fileMeta c =>
            simp only [fileMetaMessage, Message.text.injEq, Envelope.fileMeta.injEq,
              Option.some.injEq, FileMetaPayload.mk.injEq] at hm
            exact hm.1.symm
        | chunk | fileAbort => cases hm
      · cases hm
      · cases hm
  case unique =>
    intro r j k cj ck hj hk hid
    rcases Role.eq_or_eq_other role r with rfl | rfl
    · have hmove := PairedScreen.move_of_step h.step
      rcases PairedScreen.drawn_of_step h.step with hlen | ⟨call, hc, hdraws⟩
      · have back {i : Nat} {c : SendCall} (hi : (y.screens r).calls[i]? = some c) :
            ∃ c', (x.screens r).calls[i]? = some c' ∧ c'.args = c.args := by
          have hlt : i < (x.screens r).calls.length := by
            rw [← hlen]
            exact (List.getElem?_eq_some_iff.mp hi).1
          obtain ⟨c'', hi', hargs⟩ := hmove.args_kept (List.getElem?_eq_getElem hlt)
          obtain rfl := Option.some.inj (hi.symm.trans hi')
          exact ⟨_, List.getElem?_eq_getElem hlt, hargs.symm⟩
        obtain ⟨cj', hj', hargsj⟩ := back hj
        obtain ⟨ck', hk', hargsk⟩ := back hk
        exact hunique r j k cj' ck' hj' hk' (by rw [hargsj, hargsk]; exact hid)
      · -- the id of a new call is none that was drawn before
        have hnew := he.fresh _ hdraws
        rw [hc] at hj hk
        rcases Tally.getElem?_concat_eq_some hj with hj' | ⟨rfl, rfl⟩
        · rcases Tally.getElem?_concat_eq_some hk with hk' | ⟨rfl, rfl⟩
          · exact hunique r j k cj ck hj' hk' hid
          · exact absurd hid (hnew cj (List.mem_of_getElem? hj'))
        · rcases Tally.getElem?_concat_eq_some hk with hk' | ⟨rfl, rfl⟩
          · exact absurd hid.symm (hnew ck (List.mem_of_getElem? hk'))
          · rfl
    · rw [h.other] at hj hk
      exact hunique _ j k cj ck hj hk hid

/-- A `file_meta` that is new on the record is from the call whose id it has. -/
theorem Recorded.begun_by (hx : Recorded x) (h : Acts w codec x y role e out)
    {k : Nat} {call : SendCall} (hk : (x.screens role).calls[k]? = some call)
    (hb : y.Begun role call.args.fileId.hex) :
    x.Begun role call.args.fileId.hex ∨
      ∃ o ∈ out, o.call = some k ∧ ∃ m, o.payload = .message m ∧ m.IsFileMeta := by
  obtain ⟨ciphertext, hmeta⟩ := hb
  rcases h.mem_log.mp hmeta with hmeta | ⟨-, o, ho, hp⟩
  · exact .inl ⟨ciphertext, hmeta⟩
  · rcases hx.message_cases h ho hp with ⟨k', call', hk', hcall, hemits⟩ | ⟨_, hm, -⟩ | ⟨_, hm⟩
    · refine .inr ⟨o, ho, ?_, _, hp, _, rfl⟩
      generalize hm : fileMetaMessage call.args.fileId.hex ciphertext = m at hemits
      cases hemits with
      | fileMeta c =>
          simp only [fileMetaMessage, Message.text.injEq, Envelope.fileMeta.injEq,
            Option.some.injEq, FileMetaPayload.mk.injEq] at hm
          rw [hx.attributed.unique role k k' call call' hk hk' (FileId.hex_inj hm.1)]
          exact hcall
      | chunk | fileAbort => cases hm
    · cases hm
    · cases hm

theorem Recorded.calls_act (hx : Recorded x) (h : Acts w codec x y role e out)
    (he : x.Allowed role e) (hy : Attributed y) {k : Nat} {call' : SendCall}
    (hk' : (y.screens role).calls[k]? = some call') : CallOk y role call' := by
  have hmono : ∀ s ∈ x.log, s ∈ y.log := fun s hs => h.log_mono hs
  have kept {call : SendCall} (hk : (x.screens role).calls[k]? = some call)
      (hno : ∀ o ∈ out, o.call ≠ some k) : CallOk y role call := by
    refine (hx.calls role k call hk).mono hmono h.ended fun hb => ?_
    rcases hx.begun_by h hk hb with hb | ⟨o, ho, hcall, -⟩
    · exact hb
    · exact absurd hcall (hno o ho)
  have hmove := PairedScreen.move_of_step h.step
  cases hmove with
  | kept hc hout =>
      rw [hc] at hk'
      refine kept hk' fun o ho hcall => ?_
      rw [hout o ho] at hcall
      cases hcall
  | stopped _ _ _ _ hc hout =>
      rw [hc] at hk'
      refine kept hk' fun o ho => ?_
      rw [hout] at ho
      cases ho
  | started i o call files hlen hi hlive hfree hrender hsocket hstate hc hout hb =>
      rw [hc] at hk'
      rcases Tally.getElem?_concat_eq_some hk' with hk | ⟨rfl, rfl⟩
      · refine kept hk fun o ho => ?_
        rw [hout] at ho
        cases ho
      · -- nothing is on the record for an id that is new
        have hnew : ¬ y.Begun role call'.args.fileId.hex := by
          intro hbegun
          obtain ⟨c, hmem, hid⟩ := hy.begun role _ hbegun
          obtain ⟨j, hj⟩ := List.mem_iff_getElem?.mp hmem
          have hlast : (y.screens role).calls[(x.screens role).calls.length]? = some call' := by
            rw [hc, List.getElem?_concat_length]
          obtain rfl := hy.unique role _ _ c call' hj hlast (FileId.hex_inj hid)
          obtain ⟨ciphertext, hmeta⟩ := hbegun
          rcases h.mem_log.mp hmeta with hmeta | ⟨-, o', ho', -⟩
          · obtain ⟨c', hc', hid'⟩ := hx.attributed.begun role _ ⟨ciphertext, hmeta⟩
            obtain ⟨j', hj'⟩ := List.mem_iff_getElem?.mp hc'
            have hlt := (List.getElem?_eq_some_iff.mp hj').1
            have hj'' : (y.screens role).calls[j']? = some c' := by
              rw [hc, List.getElem?_append_left hlt]
              exact hj'
            have := hy.unique role _ _ c' call' hj'' hlast (FileId.hex_inj hid')
            omega
          · rw [hout] at ho'
            cases ho'
        have hclosed : (x.screens role).closed.contains o.session.socket = false := by
          rw [(hx.sockets role).2]
          rfl
        rw [hclosed] at hstate
        constructor
        case well => rw [hstate]; exact ⟨trivial, .inl rfl⟩
        case connected => rw [hstate]; exact ⟨rfl, rfl⟩
        case acked => rw [hstate]; exact .inl rfl
        case cancelled =>
          rw [hstate]
          intro reason hab
          cases hab
        case unsent => exact fun _ => hnew
        case settled => exact fun _ hbegun => absurd hbegun hnew
  | ran hlen hcalls hout hb =>
      have hlt : k < (x.screens role).calls.length := by
        rw [← hlen]
        exact (List.getElem?_eq_some_iff.mp hk').1
      have hk := List.getElem?_eq_getElem hlt
      obtain ⟨call'', hk'', hran⟩ := hcalls k _ hk
      obtain rfl := Option.some.inj (hk'.symm.trans hk'')
      cases hran with
      | still hno => exact kept hk hno
      | ran e' s ms hstep hown hput hmsg hclose hevent =>
          -- in the session no socket is shut, so what a call sends is on the record
          have hshut : (y.screens role).shut = [] := by
            rw [(PairedScreen.sockets_of_step he.closes he.stays h.step).1]
            exact (hx.sockets role).1
          have hok := hx.calls role k _ hk
          have hlast : LastAck y role (x.screens role).calls[k].args := by
            have := hy.lastAck hk'
            exact this
          refine hok.ran (SendFile.step_spec hok.well hstep) hmono h.ended (fun hbegun => ?_)
            (fun m hm => ?_) hlast (fun hc => ?_) fun env henv => ?_
          · rcases hx.begun_by h hk hbegun with hbegun | ⟨o, ho, hcall, m, hp, hmeta⟩
            · exact .inl hbegun
            · obtain ⟨-, m', hm', rfl⟩ := hown o ho hcall
              obtain rfl := Payload.message.inj hp
              exact .inr ⟨_, hm', hmeta⟩
          · refine h.mem_log.mpr (.inr ⟨rfl, _, hput ?_ m hm, rfl⟩)
            rw [hshut]
            exact List.not_mem_nil
          · have := hclose hc
            rw [hshut] at this
            cases this
          · rcases he.heard _ _ (hmsg env henv) with hsent | ⟨id, heq, hsent⟩
            · exact .inl (hmono _ hsent)
            · exact .inr ⟨id, heq, hmono _ hsent⟩

theorem Recorded.receivers_act (hx : Recorded x) (h : Acts w codec x y role e out)
    (he : x.Allowed role e) {i : Nat} {ui' : ReceiverTransfer.State}
    (hui' : (y.screens role).receiver? i = some ui') : ReceiverOk y role ui'.rcv := by
  have hmono : ∀ s ∈ x.log, s ∈ y.log := fun s hs => h.log_mono hs
  cases PairedScreen.receiverMove_of_step h.step i with
  | still hsame => exact (hx.receivers role i ui' (hsame.symm.trans hui')).mono hmono
  | detached ui hui hy =>
      obtain rfl := Option.some.inj (hui'.symm.trans hy)
      obtain ⟨hopen, hchain, htask⟩ := (hx.receivers role i ui hui).mono hmono
      exact ⟨hopen, hchain, htask⟩
  | attached socket hui hy =>
      obtain rfl := Option.some.inj (hui'.symm.trans hy)
      refine ⟨?_, (fun data hd => by cases hd), (fun task ht => by cases ht)⟩
      rw [(hx.sockets role).2]
      rfl
  | ran a ui ui'' e' acts hui hy hstep hmsg hclose hput =>
      obtain rfl := Option.some.inj (hui'.symm.trans hy)
      have hok := hx.receivers role i ui hui
      rcases (ReceiverTransfer.acted_of_step hstep).rcv with ⟨e'', hsteps, hof⟩ | ⟨hsame, -⟩
      · refine hok.ran hsteps hmono (fun m hm => ?_) ?_ fun m hm => ?_
        · exact h.mem_log.mpr (.inr ⟨rfl, hput (hx.sockets role).1 m hm⟩)
        · rintro rfl
          -- within the session no close event is dispatched
          obtain ⟨socket, hc⟩ := hclose hof
          exact he.closes socket hc
        · subst hm
          obtain ⟨socket, ha⟩ := hmsg m hof
          rcases he.heard _ _ ha with hsent | ⟨id, heq, hsent⟩
          · exact .inl (hmono _ hsent)
          · exact .inr ⟨id, heq, hmono _ hsent⟩
      · rw [hsame]
        exact hok.mono hmono

theorem Sent.mono {m : Message} (h : x.Sent role m) (hlog : ∀ s ∈ x.log, s ∈ y.log) :
    y.Sent role m :=
  h.imp (hlog _) fun ⟨id, heq, hm⟩ => ⟨id, heq, hlog _ hm⟩

/-- A screen acts: the record is kept. -/
theorem Recorded.act (hx : Recorded x) (h : Acts w codec x y role e out)
    (he : x.Allowed role e) : Recorded y := by
  have hmono : ∀ s ∈ x.log, s ∈ y.log := fun s hs => h.log_mono hs
  have hy := Attributed.act hx h he
  constructor
  case sockets =>
    intro r
    rcases Role.eq_or_eq_other role r with rfl | rfl
    · obtain ⟨hs, hc⟩ := PairedScreen.sockets_of_step he.closes he.stays h.step
      rw [hs, hc]
      exact hx.sockets r
    · rw [h.other]
      exact hx.sockets _
  case travels =>
    intro r m hm
    rw [h.down, h.up, List.mem_append, Function.update_apply] at hm
    have old (hm : .message m ∈ x.up r ++ x.down r.other) : y.Sent r m :=
      (hx.travels r m hm).mono hmono
    rcases hm with hm | hm
    · split at hm
      next hr =>
        subst hr
        rcases List.mem_append.mp hm with hm | hm
        · exact old (List.mem_append_left _ hm)
        · obtain ⟨o, ho, hp⟩ := List.mem_map.mp hm
          exact .inl (h.mem_log.mpr (.inr ⟨rfl, o, ho, hp⟩))
      next => exact old (List.mem_append_left _ hm)
    · exact old (List.mem_append_right _ hm)
  case attributed => exact hy
  case calls =>
    intro r k call hk
    rcases Role.eq_or_eq_other role r with rfl | rfl
    · exact hx.calls_act h he hy hk
    · rw [h.other] at hk
      refine (hx.calls _ k call hk).mono hmono h.ended ?_
      rintro ⟨ciphertext, hmeta⟩
      -- the other client has sent nothing in this step
      rcases h.mem_log.mp hmeta with hmeta | ⟨hr, -⟩
      · exact ⟨ciphertext, hmeta⟩
      · exact absurd (Option.some.inj hr) (Role.other_ne role)
  case receivers =>
    intro r i ui hui
    rcases Role.eq_or_eq_other role r with rfl | rfl
    · exact hx.receivers_act h he hui
    · rw [h.other] at hui
      exact (hx.receivers _ i ui hui).mono hmono

/-- Messages move on, or are lost, and the relay may add a notice. -/
theorem Recorded.carried (hx : Recorded x) (hscreens : y.screens = x.screens)
    (hlog : ∀ s ∈ x.log, s ∈ y.log)
    (hnew : ∀ s ∈ y.log, s ∈ x.log ∨ ∃ id : FileId, s = (none, sizeLimitAbortMessage id.hex))
    (htravels : ∀ role m, .message m ∈ y.up role ++ y.down role.other → y.Sent role m) :
    Recorded y := by
  have old {r : Role} {m : Message} (hm : (some r, m) ∈ y.log) : (some r, m) ∈ x.log := by
    rcases hnew _ hm with hm | ⟨id, heq⟩
    · exact hm
    · cases heq
  have hended {r : Role} {id : JSString} (h : x.Ended r id) : y.Ended r id :=
    h.imp (by rw [hscreens]; exact fun h => h) (fun h => h.mono hlog)
  obtain ⟨hframes, hacks, hbegun, hunique⟩ := hx.attributed
  refine ⟨by rw [hscreens]; exact hx.sockets, htravels, ⟨?_, ?_, ?_, ?_⟩, ?_, ?_⟩
  · rw [hscreens]
    exact fun r data frame hdata => hframes r data frame (old hdata)
  · intro r id n hack
    obtain ⟨frame, hsent, hid, hn, hlast⟩ := hacks r id n (old hack)
    exact ⟨frame, hsent.mono hlog, hid, hn, fun hl => hended (hlast hl)⟩
  · rw [hscreens]
    rintro r id ⟨ciphertext, hmeta⟩
    exact hbegun r id ⟨ciphertext, old hmeta⟩
  · rw [hscreens]
    exact hunique
  · rw [hscreens]
    intro r k call hk
    refine (hx.calls r k call hk).mono hlog hended ?_
    rintro ⟨ciphertext, hmeta⟩
    exact ⟨ciphertext, old hmeta⟩
  · rw [hscreens]
    exact fun r i ui hui => (hx.receivers r i ui hui).mono hlog

/-- When no call of a client is pending, each file it has begun has ended. -/
theorem Recorded.ended_of_idle (hx : Recorded x) (hidle : (x.screens role).Idle)
    (hbegun : x.Begun role fileId) : x.Ended role fileId := by
  obtain ⟨call, hc, rfl⟩ := hx.attributed.begun role fileId hbegun
  obtain ⟨k, hk⟩ := List.mem_iff_getElem?.mp hc
  have hset : call.state.isSettled = true := by
    have := hidle call hc
    simpa [SendCall.pending] using this
  exact (hx.calls role k call hk).settled hset hbegun

end Quicksend.TwoScreens
