import Quicksend.Delivery.Delivered
import Quicksend.Lib.Consecutive

/-!
# A transfer that goes on

While nothing has gone wrong, both ways between sender and receiver hold
exactly what one end has sent and the other not yet taken: chunk frames
one way, acknowledgements the other, neither with a gap.
-/

namespace Quicksend.Delivery

open Receiver (Action Current Task)
open SendFile (Pc)

variable {a : SendArgs}

/-- A report that the receiver no longer expects the file. -/
def isGivingUp : Action → Bool
  | .onError _ | .onAborted _ _ => true
  | _ => false

/-- Somewhere in this record the receiver told its page of an abort or an error. -/
def GivenUp (log : List Action) : Prop := ∃ act ∈ log, isGivingUp act = true

/-- The chunk frames that a call at `pc` has sent. -/
def sentCount (a : SendArgs) : Pc → Nat
  | .derivingKey | .encryptingMeta => 0
  | .windowWait i | .readingSlice i | .encryptingChunk i _ => i
  | .ackWait | .settled _ => a.file.totalChunks

/-- The message announces this very file, whatever it says about it under the
cipher. -/
def IsMeta (a : SendArgs) (m : Message) : Prop :=
  ∃ ciphertext, m = fileMetaMessage a.fileId.hex ciphertext

/-- The message is a chunk frame that parses, is made as `sendFile` makes it, and
has index `i`. -/
def IsChunk (a : SendArgs) (i : Nat) (m : Message) : Prop :=
  ∃ buffer frame, m = .binary buffer ∧ parseChunkFrame buffer = some frame ∧
    HonestFrame a frame ∧ frame.index = i

/-- The message acknowledges the chunks of this file up to `i`. -/
def IsAck (a : SendArgs) (i : Nat) (m : Message) : Prop := m = chunkAckMessage a.fileId.hex i

/-- The metadata is ahead of the receiver, is being opened, or has been. -/
inductive Phase where
  | unopened
  | opening
  | opened

/-- What is on its way to a receiver that has taken `k` chunk frames. -/
inductive Ahead (a : SendArgs) (pc : Pc) : Phase → Nat → List Message → Prop where
  | fresh (hun : unsent pc = true) : Ahead a pc .unopened 0 []
  | sent (m : Message) (l : List Message) (hun : unsent pc = false) (hm : IsMeta a m)
      (hl : Consecutive (IsChunk a) 0 (sentCount a pc) l) : Ahead a pc .unopened 0 (m :: l)
  | taken (ph : Phase) (k : Nat) (l : List Message) (hun : unsent pc = false)
      (hph : ph ≠ .unopened) (hl : Consecutive (IsChunk a) k (sentCount a pc) l) : Ahead a pc ph k l

/-- The promise of a step that opens the metadata. -/
def isOpening : Task → Bool
  | .metaKey _ _ | .metaDecrypt _ _ _ => true
  | _ => false

/-- The task has handed a file to `onFileStart` and waits for its promise. -/
def isStarting : Task → Bool
  | .metaStart _ _ _ => true
  | _ => false

/-- The task is about a chunk: it is being decrypted, or `onChunk` is being
awaited. -/
def isChunkTask : Task → Bool
  | .chunkDecrypt _ _ | .chunkWrite _ _ _ _ => true
  | _ => false

/-- The receiver has taken `k` chunk frames and acknowledged `r` chunks. -/
inductive Stage (a : SendArgs) (s : Receiver.State) (log : List Action) : Phase → Nat → Nat → Prop
    where
  | unopened (hcur : s.current = none) (hrun : s.running = none) (hlog : ¬ GivenUp log) :
      Stage a s log .unopened 0 0
  | opening (task : Task) (hcur : s.current = none) (hrun : s.running = some task)
      (htask : isOpening task = true) (hlog : ¬ GivenUp log) : Stage a s log .opening 0 0
  | between (c : Current) (hcur : s.current = some c)
      (hrun : ∀ task, s.running = some task → isStarting task = true) :
      Stage a s log .opened c.expectedIndex c.expectedIndex
  | within (c : Current) (task : Task) (hcur : s.current = some c) (hrun : s.running = some task)
      (htask : isChunkTask task = true) :
      Stage a s log .opened (c.expectedIndex + 1) c.expectedIndex
  | ended (hcur : s.current = none) (hrun : s.running = none) :
      Stage a s log .opened a.file.totalChunks a.file.totalChunks

/-- The call has neither settled nor been cancelled, nor lost its connection. -/
structure Undisturbed (s : SendFile.State) : Prop where
  going : s.isSettled = false
  aborted : s.aborted = none
  connected : s.connectionLost = false
  unclosed : s.socketClosed = false

/-- What holds while nothing has gone wrong: the stage of the receiver, the frames
ahead of it, the acknowledgements behind it, and a sender nothing has disturbed. -/
structure Flow (a : SendArgs) (x : State) (ph : Phase) (k r : Nat) : Prop where
  stage : Stage a x.rcv x.log ph k r
  ahead : Ahead a x.snd.pc ph k x.stream
  acks : ∃ j : Nat, Consecutive (IsAck a) j r x.path ∧ x.snd.ackedUpTo = (j : Int) - 1
  sender : Undisturbed x.snd
  unblocked : x.blocked = false
  attached : x.rcv.attached = true
  unclosed : x.rcv.socketClosed = false

theorem Flow.init (a : SendArgs) : Flow a Delivery.init .unopened 0 0 where
  stage := .unopened rfl rfl fun h => by
    obtain ⟨act, hact, -⟩ := h
    cases hact
  ahead := .fresh rfl
  acks := ⟨0, .nil 0, rfl⟩
  sender := ⟨rfl, rfl, rfl, rfl⟩
  unblocked := rfl
  attached := rfl
  unclosed := rfl

/-! ## What is ahead -/

theorem Ahead.same {pc pc' : Pc} {ph : Phase} {k : Nat} {l : List Message} (h : Ahead a pc ph k l)
    (hun : unsent pc' = unsent pc) (hsent : sentCount a pc' = sentCount a pc) :
    Ahead a pc' ph k l := by
  cases h with
  | fresh h => exact .fresh (hun.trans h)
  | sent m l h hm hl => exact .sent m l (hun.trans h) hm (hsent ▸ hl)
  | taken ph k l h hph hl => exact .taken ph k l (hun.trans h) hph (hsent ▸ hl)

/-- One more frame is sent. -/
theorem Ahead.snoc {pc pc' : Pc} {ph : Phase} {k : Nat} {l : List Message} {m : Message}
    (h : Ahead a pc ph k l) (hun : unsent pc = false) (hun' : unsent pc' = false)
    (hsent : sentCount a pc' = sentCount a pc + 1) (hm : IsChunk a (sentCount a pc) m) :
    Ahead a pc' ph k (l ++ [m]) := by
  cases h with
  | fresh h => simp [hun] at h
  | sent m' l _ hm' hl => exact .sent m' (l ++ [m]) hun' hm' (hsent ▸ hl.snoc hm)
  | taken ph k l _ hph hl => exact .taken ph k (l ++ [m]) hun' hph (hsent ▸ hl.snoc hm)

theorem Ahead.mem {pc : Pc} {ph : Phase} {k : Nat} {l : List Message} {m : Message}
    (h : Ahead a pc ph k l) (hm : m ∈ l) : IsMeta a m ∨ ∃ i, IsChunk a i m := by
  cases h with
  | fresh => cases hm
  | sent m' l _ hm' hl =>
      rcases List.mem_cons.mp hm with rfl | hm
      · exact .inl hm'
      · obtain ⟨i, -, -, hi⟩ := hl.mem hm
        exact .inr ⟨i, hi⟩
  | taken ph k l _ _ hl =>
      obtain ⟨i, -, -, hi⟩ := hl.mem hm
      exact .inr ⟨i, hi⟩

theorem Ahead.unsent_of_pos {pc : Pc} {ph : Phase} {k : Nat} {l : List Message}
    (h : Ahead a pc ph k l) (hk : 0 < k) : unsent pc = false := by
  cases h with
  | fresh => cases hk
  | sent _ _ hun | taken _ _ _ hun => exact hun

theorem Ahead.isChainStep {pc : Pc} {ph : Phase} {k : Nat} {l : List Message} {m : Message}
    (h : Ahead a pc ph k l) (hm : m ∈ l) : Receiver.isChainStep m = true := by
  rcases h.mem hm with ⟨ciphertext, rfl⟩ | ⟨i, buffer, frame, rfl, -⟩ <;> rfl

theorem sentCount_le {s : SendFile.State} (h : SendFile.WellFormed a s) :
    sentCount a s.pc ≤ a.file.totalChunks := by
  have hindex := h.index
  cases hpc : s.pc <;> rw [hpc] at hindex
  case windowWait i => exact Nat.le_of_lt hindex
  case readingSlice i => exact Nat.le_of_lt hindex
  case encryptingChunk i p => exact Nat.le_of_lt hindex.1
  all_goals simp [sentCount]

theorem Stage.congr {s t : Receiver.State} {log : List Action} {ph : Phase} {k r : Nat}
    (h : Stage a s log ph k r) (hcur : t.current = s.current) (hrun : t.running = s.running) :
    Stage a t log ph k r := by
  cases h with
  | unopened hc hr hlog => exact .unopened (hcur.trans hc) (hrun.trans hr) hlog
  | opening task hc hr htask hlog =>
      exact .opening task (hcur.trans hc) (hrun.trans hr) htask hlog
  | between c hc hr => exact .between c (hcur.trans hc) (hrun ▸ hr)
  | within c task hc hr htask => exact .within c task (hcur.trans hc) (hrun.trans hr) htask
  | ended hc hr => exact .ended (hcur.trans hc) (hrun.trans hr)

theorem Stage.acked_le {s : Receiver.State} {log : List Action} {ph : Phase} {k r : Nat}
    (h : Stage a s log ph k r) : r ≤ k := by
  cases h <;> omega

/-! ## The steps of the sender -/

/-- Where the loop of a call comes to rest that has not been cancelled. -/
theorem lands_undisturbed {s t : SendFile.State} {i : Nat} {out : List Message}
    (h : SendFile.Lands a s i t out) (hs : s.aborted = none) :
    out = [] ∧ t = { s with pc := t.pc } ∧
      (t.pc = .settled .resolved ∨
        t.isSettled = false ∧ unsent t.pc = false ∧
          (i ≤ a.file.totalChunks → sentCount a t.pc = i)) := by
  cases h with
  | window | reading => exact ⟨rfl, rfl, .inr ⟨rfl, rfl, fun _ => rfl⟩⟩
  | acks hi => exact ⟨rfl, rfl, .inr ⟨rfl, rfl, fun hle => Nat.le_antisymm hi hle⟩⟩
  | resolved => exact ⟨rfl, rfl, .inl rfl⟩
  | aborted ab hab => simp [hs] at hab

/-- A step of the sender that keeps what is ahead in line with it. -/
theorem Flow.resend {x : State} {ph : Phase} {k r : Nat} (h : Flow a x ph k r)
    {t : SendFile.State} {out : List Message} (ht : Undisturbed t)
    (hacked : t.ackedUpTo = x.snd.ackedUpTo) (hahead : Ahead a t.pc ph k (x.stream ++ out)) :
    Flow a { x with snd := t, sndUp := x.sndUp ++ out } ph k r where
  stage := h.stage
  ahead := by
    rw [State.stream, List.append_assoc] at hahead
    rw [State.stream, List.append_assoc]
    simpa only [List.append_assoc] using hahead
  acks := by
    obtain ⟨j, hj, hack⟩ := h.acks
    exact ⟨j, hj, hacked.trans hack⟩
  sender := ht
  unblocked := h.unblocked
  attached := h.attached
  unclosed := h.unclosed

theorem Undisturbed.put {s : SendFile.State} (h : Undisturbed s) (m : Message) : s.put m = [m] := by
  rw [SendFile.State.put, if_neg (by simp [h.unclosed])]

theorem Undisturbed.at {s : SendFile.State} (h : Undisturbed s) {pc : Pc}
    (hpc : ({ s with pc := pc } : SendFile.State).isSettled = false) :
    Undisturbed { s with pc := pc } :=
  ⟨hpc, h.aborted, h.connected, h.unclosed⟩

theorem unsent_of_settled {s : SendFile.State} (h : s.isSettled = true) : unsent s.pc = false := by
  cases hpc : s.pc <;> simp [SendFile.State.isSettled, unsent, hpc] at h ⊢

theorem unsent_of_listening {s : SendFile.State} (h : s.listening = true) :
    unsent s.pc = false := by
  cases hpc : s.pc <;> simp [SendFile.State.listening, unsent, hpc] at h ⊢

/-- An event of the sender's own: the transfer goes on, or the call has
settled or been cancelled. -/
theorem Flow.own {x : State} {ph : Phase} {k r : Nat} (h : Flow a x ph k r) (hx : Inv a x)
    {t : SendFile.State} {e : SendFile.Event} {out : List Message}
    (hst : SendFile.Steps a x.snd e t out) (he : ∀ env, e ≠ .message env) (hclose : e ≠ .close) :
    Flow a { x with snd := t, sndUp := x.sndUp ++ out } ph k r ∨
      unsent t.pc = false ∧ (t.isSettled = true ∨ t.aborted.isSome = true) := by
  have hs := h.sender
  cases hst with
  | keyDerived hpc key hk =>
      refine .inl (h.resend ⟨rfl, hs.aborted, hs.connected, hs.unclosed⟩ rfl ?_)
      rw [List.append_nil]
      exact h.ahead.same (by rw [hpc]; rfl) (by rw [hpc]; rfl)
  -- a promise that is rejected settles the call
  | keyFailed | metaFailed | failed => exact .inr ⟨rfl, .inl rfl⟩
  | metaSent hpc ciphertext hc _ out hl =>
      -- the loop runs on: it resolves the call, or comes to rest with the message ahead
      obtain ⟨rfl, ht, hres | ⟨hns, hun, hsent⟩⟩ := lands_undisturbed hl hs.aborted
      · have hset : t.isSettled = true := by simp [SendFile.State.isSettled, hres]
        exact .inr ⟨unsent_of_settled hset, .inl hset⟩
      · rw [ht] at hns
        refine .inl (h.resend (ht ▸ hs.at hns) (by rw [ht]) ?_)
        have hahead := h.ahead
        rw [hpc] at hahead
        generalize x.stream = l at hahead ⊢
        rw [hs.put, List.append_nil]
        cases hahead with
        | fresh =>
            exact .sent _ [] hun ⟨_, rfl⟩ (by rw [hsent (Nat.zero_le _)]; exact .nil 0)
        | sent _ _ hno | taken _ _ _ hno => cases hno
  | sliceRead i hpc =>
      refine .inl (h.resend ⟨rfl, hs.aborted, hs.connected, hs.unclosed⟩ rfl ?_)
      rw [List.append_nil]
      exact h.ahead.same (by rw [hpc]; rfl) (by rw [hpc]; rfl)
  | chunkSent i p hpc ciphertext hc _ out hl =>
      obtain ⟨rfl, ht, hres | ⟨hns, hun, hsent⟩⟩ := lands_undisturbed hl hs.aborted
      · have hset : t.isSettled = true := by simp [SendFile.State.isSettled, hres]
        exact .inr ⟨unsent_of_settled hset, .inl hset⟩
      · rw [ht] at hns
        refine .inl (h.resend (ht ▸ hs.at hns) (by rw [ht]) ?_)
        obtain ⟨hi, rfl⟩ : i < a.file.totalChunks ∧ p = a.file.chunk i := by
          have hindex := hx.sender.index
          rwa [hpc] at hindex
        have hk := hx.sender.keyed_of_listening (by simp [SendFile.State.listening, hpc])
        have hlt : i < 2 ^ 64 := hi.trans (a.file.totalChunks_lt.trans METADATA_CHUNK_INDEX_lt)
        have hsent' : sentCount a x.snd.pc = i := by rw [hpc]; rfl
        rw [hs.put, List.append_nil]
        -- the frame is the next of the segment on its way
        refine h.ahead.snoc (by rw [hpc]; rfl) hun ((hsent hi).trans (by rw [hsent'])) ?_
        rw [hsent']
        exact ⟨_, _, rfl, parseChunkFrame_buildChunkFrame hlt _ _,
          ⟨rfl, hi, rfl, .chunk i hi, _, hk, hc⟩, rfl⟩
  | heard e hl hc _ _ _ _ hw =>
      have hun : unsent t.pc = false := by
        by_contra hun
        have := (woken_future hw).1 (by simpa using hun)
        rw [SendFile.noted_pc] at this
        simp [unsent_of_listening hl] at this
      -- of what wakes the call, its own is only the user's abort
      have hab := woken_aborted hw
      cases e with
      | signalAbort => exact .inr ⟨hun, .inr (by rw [hab]; rfl)⟩
      | message env => exact absurd rfl (he env)
      | close => exact absurd rfl hclose
      | keyDerived | metaEncrypted | sliceRead | chunkEncrypted => exact hc.elim
  | ignored env => exact absurd rfl (he env)
  | closedUnheard => exact absurd rfl hclose
  | abortUnheard =>
      refine .inl (h.resend ⟨hs.going, hs.aborted, hs.connected, hs.unclosed⟩ rfl ?_)
      rw [List.append_nil]
      exact h.ahead

/-- A message from the relay is the next acknowledgement. -/
theorem Flow.toSender {x : State} {ph : Phase} {k r : Nat} (h : Flow a x ph k r) (hx : Inv a x)
    {t : SendFile.State} {env : Envelope} {out rest : List Message}
    (hdown : x.sndDown = .text env :: rest)
    (hst : SendFile.Steps a x.snd (.message env) t out) :
    out = [] ∧ (Flow a { x with snd := t, sndUp := x.sndUp ++ out, sndDown := rest } ph k r ∨
      t.pc = .settled .resolved) := by
  have hs := h.sender
  obtain ⟨j, hj, hacked⟩ := h.acks
  rw [State.path, hdown] at hj
  -- acks arrive in order, so this one is `j`
  obtain ⟨henv, hrest⟩ := hj.head
  obtain rfl := Message.text.inj henv
  have hun : unsent x.snd.pc = false := by
    have hlt := hrest.le
    have hle := h.stage.acked_le
    exact h.ahead.unsent_of_pos (by omega)
  have hflow (t : SendFile.State) (ht : t.isSettled = false) (hun' : unsent t.pc = false)
      (hsent : sentCount a t.pc = sentCount a x.snd.pc)
      (heq : t = { x.snd with ackedUpTo := (j : Int), pc := t.pc }) :
      Flow a { x with snd := t, sndUp := x.sndUp ++ [], sndDown := rest } ph k r := by
    refine ⟨h.stage, ?_, ⟨j + 1, hrest, ?_⟩, ?_, h.unblocked, h.attached, h.unclosed⟩
    · rw [List.append_nil]
      exact h.ahead.same (hun'.trans hun.symm) hsent
    · rw [heq]
      push_cast
      omega
    · rw [heq] at ht ⊢
      exact ⟨ht, hs.aborted, hs.connected, hs.unclosed⟩
  cases hst with
  | failed _ _ _ he => exact absurd rfl (he _)
  | ignored _ _ hl =>
      have hl : x.snd.listening = false := hl.resolve_right (not_not.mpr rfl)
      rcases unsent_or_settled hl with h' | h'
      · simp [hun] at h'
      · simp [hs.going] at h'
  | heard _ hl _ _ _ _ _ hw =>
      cases hw with
      | asleep => exact ⟨rfl, .inl (hflow _ hs.going hun rfl rfl)⟩
      -- nothing was lost and nobody has aborted, so waking goes on with the loop
      | lost _ hlost => exact absurd hlost (by simp [SendFile.noted, hs.connected])
      | window i hpc _ _ _ hl =>
          obtain ⟨rfl, ht, hres | ⟨hns, hun', hsent⟩⟩ := lands_undisturbed hl hs.aborted
          · exact ⟨rfl, .inr hres⟩
          · rw [SendFile.noted_pc] at hpc
            have hi : i < a.file.totalChunks := by
              have hindex := hx.sender.index
              rwa [hpc] at hindex
            refine ⟨rfl, .inl (hflow t hns hun' ?_ ht)⟩
            rw [hsent (Nat.le_of_lt hi), hpc]
            rfl
      | acks hpc _ _ _ hl =>
          obtain ⟨rfl, ht, hres | ⟨hns, hun', hsent⟩⟩ := lands_undisturbed hl hs.aborted
          · exact ⟨rfl, .inr hres⟩
          · rw [SendFile.noted_pc] at hpc
            refine ⟨rfl, .inl (hflow t hns hun' ?_ ht)⟩
            rw [hsent (Nat.le_refl _), hpc]
            rfl

/-! ## The relay -/

theorem Flow.relaySender {x : State} {ph : Phase} {k r : Nat} (h : Flow a x ph k r) {m : Message}
    {rest : List Message} (hup : x.sndUp = m :: rest) :
    Flow a { x with sndUp := rest, rcvDown := x.rcvDown ++ [m] } ph k r := by
  have hsame : State.stream { x with sndUp := rest, rcvDown := x.rcvDown ++ [m] } = x.stream := by
    simp [State.stream, hup]
  exact ⟨h.stage, hsame ▸ h.ahead, h.acks, h.sender, h.unblocked, h.attached, h.unclosed⟩

theorem Flow.relayReceiver {x : State} {ph : Phase} {k r : Nat} (h : Flow a x ph k r)
    {m : Message} {rest : List Message} (hup : x.rcvUp = m :: rest) :
    Flow a { x with rcvUp := rest, sndDown := x.sndDown ++ [m] } ph k r := by
  have hsame : State.path { x with rcvUp := rest, sndDown := x.sndDown ++ [m] } = x.path := by
    simp [State.path, hup]
  exact ⟨h.stage, h.ahead, hsame ▸ h.acks, h.sender, h.unblocked, h.attached, h.unclosed⟩

/-! ## The steps of the receiver -/

/-- A step of the receiver that keeps what is ahead in line with it. -/
theorem Flow.react {x : State} {ph ph' : Phase} {k r k' r' : Nat} (h : Flow a x ph k r)
    {t : Receiver.State} {out : List Action} {rest : List Message}
    (hstage : Stage a t (x.log ++ out) ph' k' r')
    (hahead : Ahead a x.snd.pc ph' k' (t.chain ++ rest ++ x.sndUp))
    (hacks : sends out = [] ∧ r' = r ∨ ∃ m, sends out = [m] ∧ IsAck a r m ∧ r' = r + 1)
    (hatt : t.attached = x.rcv.attached) (hclosed : t.socketClosed = x.rcv.socketClosed) :
    Flow a { x with rcv := t, rcvUp := x.rcvUp ++ sends out, rcvDown := rest, log := x.log ++ out }
      ph' k' r' where
  stage := hstage
  ahead := hahead
  acks := by
    obtain ⟨j, hj, hacked⟩ := h.acks
    refine ⟨j, ?_, hacked⟩
    rw [State.path, ← List.append_assoc]
    rcases hacks with ⟨hout, rfl⟩ | ⟨m, hout, hm, rfl⟩
    · rw [hout, List.append_nil]
      exact hj
    · rw [hout]
      exact hj.snoc hm
  sender := h.sender
  unblocked := h.unblocked
  attached := hatt.trans h.attached
  unclosed := hclosed.trans h.unclosed

/-- A message from the relay becomes a step of the chain. -/
theorem Flow.toReceiver {x : State} {ph : Phase} {k r : Nat} (h : Flow a x ph k r) {m : Message}
    {rest : List Message} (hdown : x.rcvDown = m :: rest) {t : Receiver.State} {out : List Action}
    (hst : Receiver.Steps a.receiver x.rcv (.message m) t out) :
    t = { x.rcv with chain := x.rcv.chain ++ [m] } ∧
      Flow a
        { x with rcv := t, rcvUp := x.rcvUp ++ sends out, rcvDown := rest, log := x.log ++ out }
        ph k r := by
  have hmem : m ∈ x.stream := by
    rw [State.stream, hdown]
    simp
  cases hst with
  | queued =>
      refine ⟨rfl, h.react ?_ ?_ (.inl ⟨rfl, rfl⟩) rfl rfl⟩
      · rw [List.append_nil]
        exact h.stage.congr rfl rfl
      · have hahead := h.ahead
        rw [State.stream, hdown] at hahead
        simpa using hahead
  | ignored _ _ hno =>
      have := hno h.attached
      simp [h.ahead.isChainStep hmem] at this

theorem receiver_start {s : Receiver.State} {m : Message} {chain : List Message}
    (hrun : s.running = none) (hchain : s.chain = m :: chain) :
    Receiver.step a.receiver s .start = some (Receiver.startStep { s with chain := chain } m) := by
  simp only [Receiver.step, hrun, hchain]

/-- What the running step still has to do. -/
def taskWork (s : Receiver.State) : Nat :=
  match s.running with
  | some (.metaKey _ _) | some (.chunkDecrypt _ _) => 4
  | some (.metaDecrypt _ _ _) | some (.chunkWrite _ _ _ _) => 3
  | some (.metaStart _ _ _) => 1
  | none => 0

/-- The next step of the chain takes what comes next from the stream. -/
theorem Flow.start {x : State} {ph : Phase} {k r : Nat} (h : Flow a x ph k r) (hx : Inv a x)
    {m : Message} {chain : List Message} (hrun : x.rcv.running = none)
    (hchain : x.rcv.chain = m :: chain) {t : Receiver.State} {out : List Action}
    (hstep : Receiver.startStep { x.rcv with chain := chain } m = (t, out)) :
    t.chain = chain ∧ sends out = [] ∧ taskWork t = 4 ∧
      ∃ ph' k', (ph = .opened → ph' = .opened) ∧
        Flow a { x with rcv := t, rcvUp := x.rcvUp ++ sends out, log := x.log ++ out } ph' k' r := by
  have hstream : x.stream = m :: (chain ++ x.rcvDown ++ x.sndUp) := by
    rw [State.stream, hchain]
    rfl
  have hahead := h.ahead
  rw [hstream] at hahead
  have hstage := h.stage
  cases hstage with
  -- nothing taken yet: the metadata comes first
  | unopened hcur _ hlog =>
      cases hahead with
      | sent _ _ hun hm hl =>
          obtain ⟨ciphertext, rfl⟩ := hm
          obtain ⟨rfl, rfl⟩ := Prod.mk.inj hstep
          refine ⟨rfl, rfl, rfl, .opening, 0, (by simp), ?_⟩
          refine h.react ?_ (.taken _ 0 _ hun (by simp) hl) (.inl ⟨rfl, rfl⟩) rfl rfl
          rw [List.append_nil]
          exact .opening _ hcur rfl rfl hlog
      | taken _ _ _ _ hph => exact absurd rfl hph
  | opening task _ hrun' => simp [hrun] at hrun'
  -- between two chunks: what comes next is the frame that is expected
  | between c hcur _ =>
      cases hahead with
      | taken _ _ _ hun hph hl =>
          obtain ⟨⟨buffer, frame, rfl, hparse, hf, hindex⟩, hrest⟩ := hl.head
          have hid : toHex frame.fileId.bytes = c.fileIdHex := by
            rw [(hx.progress.receiving c hcur).file, hf.1]
            rfl
          simp only [Receiver.startStep, Receiver.handleChunkFrame, hparse, hcur, hid, hindex,
            ne_eq, not_true_eq_false, or_self, if_false] at hstep
          obtain ⟨rfl, rfl⟩ := Prod.mk.inj hstep
          refine ⟨rfl, rfl, rfl, .opened, c.expectedIndex + 1, fun _ => rfl, ?_⟩
          exact h.react (.within c _ rfl rfl rfl) (.taken _ _ _ hun hph hrest) (.inl ⟨rfl, rfl⟩) rfl
            rfl
  | within c task _ hrun' => simp [hrun] at hrun'
  -- after the last chunk nothing more can come
  | ended hcur _ =>
      cases hahead with
      | taken _ _ _ _ _ hl =>
          have hlt := hl.head.2.le
          have hle := sentCount_le hx.sender
          omega

/-! ### What the running step says of the stage -/

theorem Stage.of_opening {s : Receiver.State} {log : List Action} {ph : Phase} {k r : Nat}
    {task : Task} (h : Stage a s log ph k r) (hrun : s.running = some task)
    (htask : isOpening task = true) :
    ph = .opening ∧ k = 0 ∧ r = 0 ∧ s.current = none ∧ ¬ GivenUp log := by
  cases h with
  | unopened _ hrun' | ended _ hrun' => simp [hrun] at hrun'
  | opening _ hcur _ _ hlog => exact ⟨rfl, rfl, rfl, hcur, hlog⟩
  | between _ _ hrun' =>
      have hs := hrun' task hrun
      cases task <;> simp [isOpening, isStarting] at htask hs
  | within _ task' _ hrun' hchunk =>
      obtain rfl := Option.some.inj (hrun.symm.trans hrun')
      cases task <;> simp [isOpening, isChunkTask] at htask hchunk

theorem Stage.of_starting {s : Receiver.State} {log : List Action} {ph : Phase} {k r : Nat}
    {task : Task} (h : Stage a s log ph k r) (hrun : s.running = some task)
    (htask : isStarting task = true) :
    ∃ c, s.current = some c ∧ ph = .opened ∧ k = c.expectedIndex ∧ r = c.expectedIndex := by
  cases h with
  | unopened _ hrun' | ended _ hrun' => simp [hrun] at hrun'
  | opening _ _ hrun' hopening | within _ _ _ hrun' hopening =>
      obtain rfl := Option.some.inj (hrun.symm.trans hrun')
      cases task <;> simp [isOpening, isStarting, isChunkTask] at htask hopening
  | between c hcur _ => exact ⟨c, hcur, rfl, rfl, rfl⟩

theorem Stage.of_chunk {s : Receiver.State} {log : List Action} {ph : Phase} {k r : Nat}
    {task : Task} (h : Stage a s log ph k r) (hrun : s.running = some task)
    (htask : isChunkTask task = true) :
    ∃ c, s.current = some c ∧ ph = .opened ∧ k = c.expectedIndex + 1 ∧ r = c.expectedIndex := by
  cases h with
  | unopened _ hrun' | ended _ hrun' => simp [hrun] at hrun'
  | opening _ _ hrun' hopening =>
      obtain rfl := Option.some.inj (hrun.symm.trans hrun')
      cases task <;> simp [isOpening, isChunkTask] at htask hopening
  | between _ _ hrun' =>
      have hs := hrun' task hrun
      cases task <;> simp [isStarting, isChunkTask] at htask hs
  | within c _ hcur _ _ => exact ⟨c, hcur, rfl, rfl, rfl⟩

theorem Ahead.opened {pc : Pc} {ph : Phase} {k : Nat} {l : List Message} (h : Ahead a pc ph k l)
    (hph : ph ≠ .unopened) : Ahead a pc .opened k l := by
  cases h with
  | fresh | sent => exact absurd rfl hph
  | taken _ _ _ hun _ hl => exact .taken _ _ _ hun (by simp) hl

theorem sends_written (s : Receiver.State) (m : Message) (act : Action) (hopen : s.socketClosed = false)
    (hact : sends [act] = []) : sends (act :: s.put m) = [m] := by
  rw [← List.singleton_append, sends_append, hact, sends_put, hopen]
  rfl

/-- The promise of the running step settles, and unless it was `onFileStart`'s
the step goes on. -/
theorem Flow.resume {x : State} {ph : Phase} {k r : Nat} (h : Flow a x ph k r) (hx : Inv a x)
    {err : Option String} {t : Receiver.State} {out : List Action}
    (hst : Receiver.Steps a.receiver x.rcv (.resume err) t out)
    (hok : ∀ task, x.rcv.running = some task → Receiver.Fails a.receiver x.rcv err task →
      isStarting task = true) :
    t.chain = x.rcv.chain ∧ taskWork t + 2 * (sends out).length < taskWork x.rcv ∧
      ∃ ph' k' r', (ph = .opened → ph' = .opened) ∧
        Flow a { x with rcv := t, rcvUp := x.rcvUp ++ sends out, log := x.log ++ out } ph' k' r' := by
  cases hst with
  | failed task _ e hrun hfail =>
      -- `onFileStart` may fail: the file is on record already
      have hs := hok task hrun hfail
      obtain ⟨c, hcur, rfl, rfl, rfl⟩ := h.stage.of_starting hrun hs
      refine ⟨rfl, ?_, .opened, c.expectedIndex, c.expectedIndex, fun _ => rfl, ?_⟩
      · cases task with
        | metaStart => simp [taskWork, hrun, sends]
        | metaKey | metaDecrypt | chunkDecrypt | chunkWrite => cases hs
      · exact h.react (.between c hcur (by simp)) h.ahead (.inl ⟨rfl, rfl⟩) rfl rfl
  | metaKeyed fileIdHex ciphertext key hrun =>
      obtain ⟨rfl, rfl, rfl, hcur, hlog⟩ := h.stage.of_opening hrun rfl
      refine ⟨rfl, by simp [taskWork, hrun, sends], .opening, 0, 0, id, ?_⟩
      refine h.react (.opening _ hcur rfl rfl ?_) h.ahead (.inl ⟨rfl, rfl⟩) rfl rfl
      rwa [List.append_nil]
  | metaOpened fileIdHex key ciphertext plaintext info hrun =>
      obtain ⟨rfl, rfl, rfl, -, -⟩ := h.stage.of_opening hrun rfl
      refine ⟨rfl, by simp [taskWork, hrun, sends], .opened, 0, 0, fun _ => rfl, ?_⟩
      refine h.react (.between ⟨fileIdHex, key, 0⟩ rfl ?_) (h.ahead.opened (by simp))
        (.inl ⟨rfl, rfl⟩) rfl rfl
      rintro task htask
      obtain rfl := Option.some.inj htask
      rfl
  | metaDone fileIdHex key ciphertext hrun =>
      obtain ⟨c, hcur, rfl, rfl, rfl⟩ := h.stage.of_starting hrun rfl
      refine ⟨rfl, by simp [taskWork, hrun, sends], .opened, c.expectedIndex, c.expectedIndex,
        id, ?_⟩
      exact h.react (.between c hcur (by simp)) h.ahead (.inl ⟨rfl, rfl⟩) rfl rfl
  | chunkOpened key frame c plaintext hrun hcur =>
      obtain ⟨c', hcur', rfl, rfl, rfl⟩ := h.stage.of_chunk hrun rfl
      refine ⟨rfl, by simp [taskWork, hrun, sends], .opened, c'.expectedIndex + 1,
        c'.expectedIndex, id, ?_⟩
      exact h.react (.within c' _ hcur' rfl rfl) h.ahead (.inl ⟨rfl, rfl⟩) rfl rfl
  | chunkOrphaned key frame index plaintext hrun hcur =>
      -- nobody has given the file up, so its record is still there
      obtain ⟨c, hcur', -⟩ := h.stage.of_chunk hrun rfl
      simp [hcur] at hcur'
  | chunkLast key frame index plaintext c hrun hcur hlast =>
      obtain ⟨hid, rfl, hlast', -⟩ := hx.progress.written hrun hcur
      obtain ⟨c', hcur', rfl, rfl, rfl⟩ := h.stage.of_chunk hrun rfl
      obtain rfl := Option.some.inj (hcur.symm.trans hcur')
      -- the sender marked the last chunk, and it is acked like the others
      have hn : c.expectedIndex + 1 = a.file.totalChunks := by
        have := a.file.totalChunks_pos
        rw [hlast] at hlast'
        have := of_decide_eq_true hlast'.symm
        omega
      have hout := sends_written x.rcv (chunkAckMessage (toHex frame.fileId.bytes) c.expectedIndex)
        (.chunkResolved (toHex frame.fileId.bytes) c.expectedIndex frame.isLast plaintext)
        h.unclosed rfl
      have hout' : sends (.chunkResolved (toHex frame.fileId.bytes) c.expectedIndex frame.isLast
          plaintext :: x.rcv.put (chunkAckMessage (toHex frame.fileId.bytes) c.expectedIndex)
          ++ [.onFileComplete (toHex frame.fileId.bytes)])
          = [chunkAckMessage (toHex frame.fileId.bytes) c.expectedIndex] := by
        rw [sends_append, hout]
        rfl
      refine ⟨rfl, ?_, .opened, a.file.totalChunks, a.file.totalChunks, id, ?_⟩
      · rw [hout']
        simp [taskWork, hrun]
      · refine h.react (.ended rfl rfl) (hn ▸ h.ahead) (.inr ⟨_, hout', ?_, hn.symm⟩) rfl rfl
        rw [IsAck, hid]
        rfl
  | chunkMore key frame index plaintext c hrun hcur hlast =>
      obtain ⟨hid, rfl, hlast', -⟩ := hx.progress.written hrun hcur
      obtain ⟨c', hcur', rfl, rfl, rfl⟩ := h.stage.of_chunk hrun rfl
      obtain rfl := Option.some.inj (hcur.symm.trans hcur')
      have hout := sends_written x.rcv (chunkAckMessage (toHex frame.fileId.bytes) c.expectedIndex)
        (.chunkResolved (toHex frame.fileId.bytes) c.expectedIndex frame.isLast plaintext)
        h.unclosed rfl
      refine ⟨rfl, ?_, .opened, c.expectedIndex + 1, c.expectedIndex + 1, id, ?_⟩
      · rw [hout]
        simp [taskWork, hrun]
      · refine h.react (.between { c with expectedIndex := c.expectedIndex + 1 } rfl (by simp))
          h.ahead (.inr ⟨_, hout, ?_, rfl⟩) rfl rfl
        rw [IsAck, hid]
        rfl

end Quicksend.Delivery
