import Quicksend.Delivery.Progress

/-!
# Delivered means delivered

The way back from the receiver: an acknowledgement of the last chunk that no
`file_abort` precedes is on its way only if the file has been delivered,
because a receiver that cancels tells the sender before the chunk it is
writing is acknowledged.
-/

namespace Quicksend.Delivery

open Receiver (Action Current Task)

variable {a : SendArgs}

/-- All that is on its way to the receiver or queued by it, what it will take up
first in front. -/
def State.stream (x : State) : List Message := x.rcv.chain ++ x.rcvDown ++ x.sndUp

/-- What is on its way to the sender, in the order it will be dispatched. -/
def State.path (x : State) : List Message := x.sndDown ++ x.rcvUp

/-- A `file_abort`, of whatever file and for whatever reason. -/
def isAbort : Message → Bool
  | .text (.fileAbort _) => true
  | _ => false

/-- A `chunk_ack`, of whatever file and up to whatever chunk. -/
def isAck : Message → Bool
  | .text (.chunkAck _) => true
  | _ => false

/-- The acknowledgement that `sendFile` waits for before it resolves: that of the
last chunk. -/
def finalAck (a : SendArgs) : Message :=
  chunkAckMessage a.fileId.hex ((a.file.totalChunks : Int) - 1)

/-- The last chunk's acknowledgement comes before any abort. -/
def finalFirst (a : SendArgs) : List Message → Bool
  | [] => false
  | m :: l => !isAbort m && (m == finalAck a || finalFirst a l)

theorem finalFirst_append (a : SendArgs) (l l' : List Message) :
    finalFirst a (l ++ l') = (finalFirst a l || (!l.any isAbort && finalFirst a l')) := by
  induction l with
  | nil => rfl
  | cons m l ih =>
      rw [List.cons_append, finalFirst, finalFirst, List.any_cons, ih]
      cases isAbort m <;> cases m == finalAck a <;> simp

/-- A message on the way to the sender: an abort of the file, or the
acknowledgement of a chunk. -/
def FromReceiver (a : SendArgs) (m : Message) : Prop :=
  AbortOf a m ∨ ∃ k : Nat, k < a.file.totalChunks ∧ m = chunkAckMessage a.fileId.hex k

/-- The sender is done, cancelled, or will be told so before anything else. -/
def Cancelled (s : SendFile.State) (path : List Message) : Prop :=
  s.isSettled = true ∨ s.aborted.isSome = true ∨ path.any isAbort = true

/-- The sender has resolved, or may resolve on what is on its way. -/
def Resolving (a : SendArgs) (s : SendFile.State) (path : List Message) : Prop :=
  s.pc = .settled .resolved ∨
    s.isSettled = false ∧ s.aborted = none ∧
      ((a.file.totalChunks : Int) - 1 ≤ s.ackedUpTo ∨ finalFirst a path = true)

/-- The chunk's step that is suspended, if one is. -/
def writing (s : Receiver.State) : Bool :=
  match s.running with
  | some (.chunkDecrypt _ _) | some (.chunkWrite _ _ _ _) => true
  | _ => false

/-- The file is delivered: the receiver holds it no more, runs nothing, and its
metadata will not come again. -/
structure Finished (a : SendArgs) (pc : SendFile.Pc) (stream : List Message) (s : Receiver.State)
    (log : List Action) : Prop where
  delivered : Delivered a log
  current : s.current = none
  running : s.running = none
  taken : ¬ MetaAhead pc stream

/-- The invariant of the whole system: the sender, the stream ahead of the
receiver, the receiver's progress, and what is on its way back. -/
structure Inv (a : SendArgs) (x : State) : Prop where
  sender : SendFile.WellFormed a x.snd
  stream : StreamOk a x.snd.pc x.stream
  progress : Progress a (FrameAhead x.snd.pc x.stream) (MetaAhead x.snd.pc x.stream) x.rcv x.log
  path : ∀ m ∈ x.path, FromReceiver a m
  early : unsent x.snd.pc = true → x.snd.ackedUpTo = -1 ∧ x.path.any isAck = false
  /-- A file given up during a chunk's step: the sender hears of it before
  that chunk's acknowledgement, if the socket still carries it. -/
  givenUp : x.rcv.current = none → writing x.rcv = true →
    x.rcv.socketClosed = true ∨ Cancelled x.snd x.path
  finished : Resolving a x.snd x.path → Finished a x.snd.pc x.stream x.rcv x.log

theorem Inv.init (a : SendArgs) : Inv a Delivery.init where
  sender := .init a
  stream := .nil a _
  progress := .init _ _
  path _ h := by cases h
  early _ := ⟨rfl, rfl⟩
  givenUp _ h := by cases h
  finished h := by
    rcases h with h | ⟨-, -, h | h⟩
    · cases h
    · have := a.file.totalChunks_pos
      simp only [Delivery.init, SendFile.init] at h
      omega
    · cases h

/-! ## The sender hears what is on its way -/

theorem lands_resolving {s t : SendFile.State} {i : Nat} {out path : List Message}
    (h : SendFile.Lands a s i t out) (hns : s.isSettled = false) (hr : Resolving a t path) :
    Resolving a s path := by
  cases h with
  | window | reading | acks =>
      rcases hr with hr | hr
      · cases hr
      · exact .inr ⟨hns, hr.2⟩
  | resolved _ hab hacked => exact .inr ⟨hns, hab, .inl hacked⟩
  | aborted =>
      rcases hr with hr | hr
      · cases hr
      · exact absurd hr.1 (by simp [SendFile.State.isSettled])

theorem Resolving.not_settled {s : SendFile.State} {err : SendFile.Failure} {path : List Message} :
    ¬ Resolving a { s with pc := .settled (.rejected err) } path := by
  rintro (h | h)
  · cases h
  · exact absurd h.1 (by simp [SendFile.State.isSettled])

/-- A step of the sender gives it no reason to resolve besides what it hears. -/
theorem steps_resolving {s t : SendFile.State} {e : SendFile.Event} {out path : List Message}
    (h : SendFile.Steps a s e t out) (hr : Resolving a t path) :
    Resolving a (SendFile.noted s e) path ∨
      Resolving a s path ∧ (s.listening = false ∨ ¬ SendFile.concerns a e) := by
  cases h with
  | keyDerived hpc =>
      refine .inl (.inr ?_)
      rcases hr with hr | hr
      · cases hr
      · exact ⟨by simp [SendFile.State.isSettled, hpc, SendFile.noted], hr.2⟩
  | keyFailed | metaFailed | failed => exact absurd hr Resolving.not_settled
  | metaSent hpc _ _ _ _ h =>
      exact .inl (lands_resolving h (by simp [SendFile.State.isSettled, hpc]) hr)
  | chunkSent i p hpc _ _ _ _ h =>
      exact .inl (lands_resolving h (by simp [SendFile.State.isSettled, hpc]) hr)
  | sliceRead i hpc =>
      refine .inl (.inr ?_)
      rcases hr with hr | hr
      · cases hr
      · exact ⟨by simp [SendFile.State.isSettled, hpc, SendFile.noted], hr.2⟩
  | heard e hl _ _ _ _ _ h =>
      have hns : (SendFile.noted s e).isSettled = false := by
        cases hpc : s.pc <;>
          simp [SendFile.State.listening, SendFile.State.isSettled, hpc] at hl ⊢
      refine .inl ?_
      cases h with
      | asleep => exact hr
      | lost => exact absurd hr Resolving.not_settled
      | window _ _ _ _ _ h | acks _ _ _ _ h => exact lands_resolving h hns hr
  | ignored env _ h => exact .inr ⟨hr, h⟩
  | closedUnheard hl | abortUnheard hl => exact .inr ⟨hr, .inl hl⟩

/-- An event other than a message gives it no reason at all. -/
theorem own_resolving {s t : SendFile.State} {e : SendFile.Event} {out path : List Message}
    (h : SendFile.Steps a s e t out) (he : ∀ env, e ≠ .message env) (hr : Resolving a t path) :
    Resolving a s path := by
  rcases steps_resolving h hr with hr | hr
  · cases e with
    | message env => exact absurd rfl (he env)
    | signalAbort =>
        rcases hr with hr | hr
        · exact .inl hr
        · exact absurd hr.2.1 (by simp [SendFile.noted])
    | keyDerived | metaEncrypted | sliceRead | chunkEncrypted | close => exact hr
  · exact hr.1

theorem finalFirst_of_no_ack {path : List Message} (h : path.any isAck = false) :
    finalFirst a path = false := by
  induction path with
  | nil => rfl
  | cons m path ih =>
      rw [List.any_cons, Bool.or_eq_false_iff] at h
      have hm : (m == finalAck a) = false := by
        refine beq_eq_false_iff_ne.mpr fun hm => ?_
        rw [hm] at h
        cases h.1
      rw [finalFirst, hm, ih h.2]
      simp

theorem FromReceiver.concerns {env : Envelope} (h : FromReceiver a (.text env)) :
    SendFile.concerns a (.message env) := by
  rcases h with ⟨reason, h⟩ | ⟨k, -, h⟩ <;>
    · obtain rfl := Message.text.inj h
      rfl

/-- A call that does not listen has not begun or is over. -/
theorem unsent_or_settled {s : SendFile.State} (h : s.listening = false) :
    unsent s.pc = true ∨ s.isSettled = true := by
  cases hpc : s.pc <;> simp [SendFile.State.listening, SendFile.State.isSettled, unsent, hpc] at h ⊢

/-- A message from the receiver makes the sender resolve only if it was going to. -/
theorem message_resolving {s t : SendFile.State} {env : Envelope} {out path : List Message}
    (h : SendFile.Steps a s (.message env) t out) (hfrom : FromReceiver a (.text env))
    (hearly : unsent s.pc = true → s.ackedUpTo = -1 ∧ path.any isAck = false)
    (hr : Resolving a t path) : Resolving a s (.text env :: path) := by
  rcases steps_resolving h hr with hr | ⟨hr, hl⟩
  · rcases hfrom with ⟨reason, henv⟩ | ⟨k, hk, henv⟩
    · obtain rfl := Message.text.inj henv
      rcases hr with hr | hr
      · exact .inl hr
      · exact absurd hr.2.1 (by simp [SendFile.noted])
    · obtain rfl := Message.text.inj henv
      rcases hr with hr | ⟨hns, hab, hacked | hfinal⟩
      · exact .inl hr
      · have hacked : (a.file.totalChunks : Int) - 1 ≤ k := hacked
        have hk' : (k : Int) = (a.file.totalChunks : Int) - 1 := by omega
        exact .inr ⟨hns, hab, .inr (by simp [finalFirst, isAbort, finalAck, chunkAckMessage, hk'])⟩
      · exact .inr ⟨hns, hab, .inr (by simp [finalFirst, isAbort, hfinal])⟩
  · have hl := hl.resolve_right (not_not.mpr hfrom.concerns)
    rcases hr with hr | ⟨hns, -, hr⟩
    · exact .inl hr
    · rcases unsent_or_settled hl with hun | hset
      · obtain ⟨hacked, hno⟩ := hearly hun
        rw [hacked, finalFirst_of_no_ack hno] at hr
        have := a.file.totalChunks_pos
        rcases hr with hr | hr
        · omega
        · cases hr
      · simp [hns] at hset

/-! ## What the sender's steps keep -/

theorem woken_aborted {s t : SendFile.State} {out : List Message} (h : SendFile.Woken a s t out) :
    t.aborted = s.aborted := by
  cases h with
  | asleep | lost => rfl
  | window _ _ _ _ _ h | acks _ _ _ _ h => cases h <;> rfl

/-- A cancel is not forgotten, and neither is one that is heard. -/
theorem steps_stopped {s t : SendFile.State} {e : SendFile.Event} {out : List Message}
    (h : SendFile.Steps a s e t out)
    (hs : s.isSettled = true ∨ s.aborted.isSome = true ∨
      s.listening = true ∧ SendFile.concerns a e ∧ (SendFile.noted s e).aborted.isSome = true) :
    t.isSettled = true ∨ t.aborted.isSome = true := by
  have not_yet (hns : s.isSettled = false) (hunc : (SendFile.noted s e).aborted = s.aborted) :
      s.aborted.isSome = true := by
    rcases hs with h | h | h
    · simp [hns] at h
    · exact h
    · rw [← hunc]
      exact h.2.2
  cases h with
  | keyDerived hpc => exact .inr (not_yet (by simp [SendFile.State.isSettled, hpc]) rfl)
  | keyFailed | metaFailed | failed => exact .inl rfl
  | metaSent hpc _ _ _ _ h =>
      have := not_yet (by simp [SendFile.State.isSettled, hpc]) rfl
      refine .inr ?_
      cases h <;> exact this
  | sliceRead i hpc => exact .inr (not_yet (by simp [SendFile.State.isSettled, hpc]) rfl)
  | chunkSent i p hpc _ _ _ _ h =>
      have := not_yet (by simp [SendFile.State.isSettled, hpc]) rfl
      refine .inr ?_
      cases h <;> exact this
  | heard e hl hc _ _ _ _ h =>
      refine .inr ?_
      rw [woken_aborted h]
      rcases hs with hs | hs | hs
      · cases hpc : s.pc <;> simp [SendFile.State.listening, SendFile.State.isSettled, hpc] at hl hs
      · unfold SendFile.noted
        split <;> first | rfl | exact hs
      · exact hs.2.2
  | ignored env _ h =>
      rcases hs with hs | hs | ⟨hl, hc, -⟩
      · exact .inl hs
      · exact .inr hs
      · exact absurd hc (h.resolve_left (by simp [hl]))
  | closedUnheard hl | abortUnheard hl =>
      rcases hs with hs | hs | ⟨hl', -⟩
      · exact .inl hs
      · exact .inr hs
      · simp [hl'] at hl

/-- A call that has not begun has heard nothing. -/
theorem steps_unsent {s t : SendFile.State} {e : SendFile.Event} {out : List Message}
    (h : SendFile.Steps a s e t out) (hun : unsent t.pc = true) :
    unsent s.pc = true ∧ t.ackedUpTo = s.ackedUpTo := by
  cases h with
  | keyDerived hpc => exact ⟨by rw [hpc]; rfl, rfl⟩
  | keyFailed | metaFailed | failed | sliceRead => cases hun
  | metaSent _ _ _ _ _ h | chunkSent _ _ _ _ _ _ _ h => simp [(lands_future h).1] at hun
  | heard e hl _ _ _ _ _ h =>
      have hs := (woken_future h).1 hun
      rw [SendFile.noted_pc] at hs
      cases hpc : s.pc <;> simp [SendFile.State.listening, unsent, hpc] at hl hs
  | ignored | closedUnheard | abortUnheard => exact ⟨hun, rfl⟩

/-! ## The steps of the system -/

theorem Finished.ahead {pc pc' : SendFile.Pc} {stream stream' : List Message} {s : Receiver.State}
    {log : List Action} (h : Finished a pc stream s log)
    (hm : MetaAhead pc' stream' → MetaAhead pc stream) : Finished a pc' stream' s log :=
  ⟨h.delivered, h.current, h.running, fun h' => h.taken (hm h')⟩

/-- A step of the sender, after which `rest` is on its way from the relay. -/
theorem Inv.sender_step {x : State} {t : SendFile.State} {e : SendFile.Event}
    {out rest : List Message} (hx : Inv a x) (hst : SendFile.Steps a x.snd e t out)
    (hsub : ∀ m ∈ rest, m ∈ x.sndDown)
    (hres : Resolving a t (rest ++ x.rcvUp) → Resolving a x.snd x.path)
    (hcan : unsent x.snd.pc = false → Cancelled x.snd x.path → Cancelled t (rest ++ x.rcvUp)) :
    Inv a { x with snd := t, sndUp := x.sndUp ++ out, sndDown := rest } := by
  have hcont := hx.stream.sender hx.sender hst
  have hpath : ∀ m ∈ rest ++ x.rcvUp, m ∈ x.path := fun m hm =>
    (List.mem_append.mp hm).elim (fun h => List.mem_append_left _ (hsub m h))
      fun h => List.mem_append_right _ h
  have hstream : ({ x with snd := t, sndUp := x.sndUp ++ out, sndDown := rest } : State).stream
      = x.stream ++ out := (List.append_assoc _ _ _).symm
  refine ⟨hst.wellFormed hx.sender, ?_, ?_, fun m hm => hx.path m (hpath m hm), fun hun => ?_,
    fun hcur hw => ?_, fun hr => ?_⟩
  · rw [hstream]
    exact hcont.stream
  · rw [hstream]
    exact hx.progress.mono hcont.frames hcont.metas
  · obtain ⟨hun', hacked⟩ := steps_unsent hst hun
    obtain ⟨hacked', hno⟩ := hx.early hun'
    refine ⟨hacked.trans hacked', ?_⟩
    rw [List.any_eq_false] at hno ⊢
    exact fun m hm => hno m (hpath m hm)
  · refine (hx.givenUp hcur hw).imp_right (hcan ?_)
    -- a chunk's step is running, so the metadata has been sent
    by_contra hun
    have hfresh := hx.progress.fresh (.inr (by simpa using hun))
    have hw : writing x.rcv = true := hw
    simp [writing, hfresh.2.1] at hw
  · rw [hstream]
    exact (hx.finished (hres hr)).ahead hcont.metas

theorem Cancelled.mono {s : SendFile.State} {path path' : List Message} (h : Cancelled s path)
    (hp : path.any isAbort = true → path'.any isAbort = true) : Cancelled s path' :=
  h.imp_right (·.imp_right hp)

theorem Cancelled.own {s t : SendFile.State} {e : SendFile.Event} {out path : List Message}
    (h : Cancelled s path) (hst : SendFile.Steps a s e t out) : Cancelled t path := by
  rcases h with h | h | h
  · exact (steps_stopped hst (.inl h)).imp_right .inl
  · exact (steps_stopped hst (.inr (.inl h))).imp_right .inl
  · exact .inr (.inr h)

theorem Cancelled.heard {s t : SendFile.State} {env : Envelope} {out path : List Message}
    (h : Cancelled s (.text env :: path)) (hst : SendFile.Steps a s (.message env) t out)
    (hfrom : FromReceiver a (.text env)) (hun : unsent s.pc = false) : Cancelled t path := by
  rcases h with h | h | h
  · exact (steps_stopped hst (.inl h)).imp_right .inl
  · exact (steps_stopped hst (.inr (.inl h))).imp_right .inl
  · rw [List.any_cons, Bool.or_eq_true] at h
    rcases h with h | h
    · -- the abort itself: it is heard, or the call is over
      cases hl : s.listening with
      | false =>
          have hset := (unsent_or_settled hl).resolve_left (by simp [hun])
          exact (steps_stopped hst (.inl hset)).imp_right .inl
      | true =>
          refine (steps_stopped hst (.inr (.inr ⟨hl, hfrom.concerns, ?_⟩))).imp_right .inl
          rcases hfrom with ⟨reason, henv⟩ | ⟨k, -, henv⟩
          · obtain rfl := Message.text.inj henv
            rfl
          · obtain rfl := Message.text.inj henv
            cases h
    · exact .inr (.inr h)

/-- An event of the sender's own. -/
theorem Inv.own {x : State} {t : SendFile.State} {e : SendFile.Event} {out : List Message}
    (hx : Inv a x) (hst : SendFile.Steps a x.snd e t out) (he : ∀ env, e ≠ .message env) :
    Inv a { x with snd := t, sndUp := x.sndUp ++ out } :=
  hx.sender_step hst (fun _ h => h) (own_resolving hst he) fun _ hcan => hcan.own hst

/-- A message from the relay is dispatched to the sender. -/
theorem Inv.toSender {x : State} {t : SendFile.State} {env : Envelope} {out rest : List Message}
    (hx : Inv a x) (hst : SendFile.Steps a x.snd (.message env) t out)
    (hdown : x.sndDown = .text env :: rest) :
    Inv a { x with snd := t, sndUp := x.sndUp ++ out, sndDown := rest } := by
  have hpath : x.path = .text env :: (rest ++ x.rcvUp) := by rw [State.path, hdown]; rfl
  have hfrom : FromReceiver a (.text env) := hx.path _ (by rw [hpath]; exact List.mem_cons_self)
  refine hx.sender_step hst (fun m hm => ?_) (fun hr => ?_) fun hun hcan => ?_
  · rw [hdown]
    exact List.mem_cons_of_mem _ hm
  · rw [hpath]
    refine message_resolving hst hfrom (fun hun => ⟨(hx.early hun).1, ?_⟩) hr
    have hno := (hx.early hun).2
    rw [hpath, List.any_cons, Bool.or_eq_false_iff] at hno
    exact hno.2
  · rw [hpath] at hcan
    exact hcan.heard hst hfrom hun

/-! ## What the receiver sends -/

theorem sends_append (out out' : List Action) : sends (out ++ out') = sends out ++ sends out' :=
  List.filterMap_append

theorem sends_put (s : Receiver.State) (m : Message) :
    sends (s.put m) = if s.socketClosed then [] else [m] := by
  unfold Receiver.State.put
  split <;> rfl

/-- What a chunk's step sends when its write ends, and what a cancel sends. -/
theorem Progress.sends_from {frames : Nat → Prop} {fileMeta : Prop} {s t : Receiver.State}
    {log out : List Action} {e : Receiver.Event} (h : Progress a frames fileMeta s log)
    (hst : Receiver.Steps a.receiver s e t out) : ∀ m ∈ sends out, FromReceiver a m := by
  have acks {key plaintext : Bytes} {frame : ChunkFrame} {index : Nat}
      (hrun : s.running = some (.chunkWrite key frame index plaintext)) :
      FromReceiver a (chunkAckMessage (toHex frame.fileId.bytes) index) := by
    obtain ⟨hid, hlt, -⟩ : HonestFrame a frame := h.task _ hrun
    obtain ⟨-, -, -, rfl, -⟩ : Receiver.TaskOk a.receiver s.current
      (.chunkWrite key frame index plaintext) := h.coherent.task _ hrun
    exact .inr ⟨frame.index, hlt, by rw [hid]; rfl⟩
  intro m hm
  cases hst with
  | chunkOrphaned key frame index plaintext hrun | chunkLast key frame index plaintext c hrun =>
      rw [sends_append] at hm
      change m ∈ sends (s.put _) ++ [] at hm
      rw [List.append_nil, sends_put] at hm
      split at hm
      · cases hm
      · exact List.mem_singleton.mp hm ▸ acks hrun
  | chunkMore key frame index plaintext c hrun =>
      change m ∈ sends (s.put _) at hm
      rw [sends_put] at hm
      split at hm
      · cases hm
      · exact List.mem_singleton.mp hm ▸ acks hrun
  | aborted c hcur =>
      rw [sends_append] at hm
      change m ∈ sends (s.put _) ++ [] at hm
      rw [List.append_nil, sends_put] at hm
      split at hm
      · cases hm
      · refine List.mem_singleton.mp hm ▸ .inl ⟨none, ?_⟩
        rw [(h.receiving c hcur).file]
        rfl
  | _ => cases hm

/-- Only the end of a chunk's write sends an acknowledgement. -/
theorem no_ack_of_idle {s t : Receiver.State} {out : List Action} {e : Receiver.Event}
    (hst : Receiver.Steps a.receiver s e t out) (hrun : s.running = none) :
    (sends out).any isAck = false := by
  cases hst with
  | chunkOrphaned _ _ _ _ h | chunkLast _ _ _ _ _ h | chunkMore _ _ _ _ _ h => simp [hrun] at h
  | aborted c hcur =>
      rw [sends_append, sends_put]
      split <;> rfl
  | _ => rfl

/-! ## What the receiver's steps keep -/

/-- A delivered file stays delivered, whatever arrives. -/
theorem Finished.step {pc : SendFile.Pc} {stream : List Message} {s t : Receiver.State}
    {log out : List Action} {e : Receiver.Event} (h : Finished a pc stream s log)
    (hst : Receiver.Steps a.receiver s e t out) (hchain : ∀ m ∈ s.chain, m ∈ stream) :
    Finished a pc stream t (log ++ out) := by
  have report (hout : Quiet out) : Delivered a (log ++ out) := by
    obtain ⟨hres, hchunks, hwhole, hcomplete, hab⟩ := h.delivered
    have hcalls : chunkCalls a.fileId.hex (log ++ out) = chunkCalls a.fileId.hex log := by
      rw [chunkCalls_append, hout.chunkCalls, List.append_nil]
    refine ⟨?_, hcalls ▸ hchunks, hcalls ▸ hwhole, List.mem_append_left _ hcomplete,
      fun reason hmem => ?_⟩
    · rw [hcalls, chunksResolved_append, hout.chunksResolved, List.append_nil, hres]
    · exact (List.mem_append.mp hmem).elim (hab reason) (hout.not_mem rfl)
  have hcur := h.current
  have hrun := h.running
  cases hst with
  | queued | ignored | dropped | closedIdle | abortedIdle | detached =>
      exact ⟨report quiet_nil, hcur, hrun, h.taken⟩
  | refused => exact ⟨report (quiet_error _), hcur, hrun, h.taken⟩
  | metaBegun fileIdHex ciphertext chain _ hch =>
      exact absurd (.inl ⟨_, hchain _ (by rw [hch]; exact List.mem_cons_self), rfl⟩) h.taken
  | chunkBegun _ _ c _ _ _ _ h' | peerAborted c _ _ _ _ h' | closed c _ _ h' | aborted c h' =>
      simp [hcur] at h'
  | failed _ _ _ h' | metaKeyed _ _ _ h' | metaOpened _ _ _ _ _ h' | metaDone _ _ _ h'
  | chunkOpened _ _ _ _ h' | chunkOrphaned _ _ _ _ h' | chunkLast _ _ _ _ _ h'
  | chunkMore _ _ _ _ _ h' => simp [hrun] at h'

/-- A file given up during a chunk's step: its abort is out, or the socket is closed. -/
theorem Inv.givenUp_step {x : State} {t : Receiver.State} {e : Receiver.Event} {out : List Action}
    (hx : Inv a x) (hst : Receiver.Steps a.receiver x.rcv e t out) (hcur : t.current = none)
    (hw : writing t = true) :
    t.socketClosed = true ∨ Cancelled x.snd (x.path ++ sends out) := by
  have before (hcur : x.rcv.current = none) (hw : writing x.rcv = true) :
      x.rcv.socketClosed = true ∨ Cancelled x.snd (x.path ++ sends out) :=
    (hx.givenUp hcur hw).imp_right fun h => h.mono fun hab => by simp [hab]
  cases hst with
  | queued | ignored | dropped | refused | abortedIdle | detached => exact before hcur hw
  | closedIdle | closed => exact .inl rfl
  | aborted c h =>
      cases hclosed : x.rcv.socketClosed with
      | true => exact .inl rfl
      | false =>
          refine .inr (.inr (.inr ?_))
          rw [sends_append, sends_put, hclosed, List.any_append, List.any_append]
          simp [isAbort, fileAbortMessage]
  | peerAborted _ _ _ hrun => simp [writing, hrun] at hw
  | chunkBegun _ _ _ _ _ _ _ h | chunkOpened _ _ _ _ _ h => simp [h] at hcur
  | metaBegun | metaKeyed | metaOpened | metaDone | failed | chunkOrphaned | chunkLast
  | chunkMore => cases hw

theorem resolving_append {s : SendFile.State} {path out : List Message}
    (h : Resolving a s (path ++ out)) :
    Resolving a s path ∨ ¬ Cancelled s path ∧ finalFirst a out = true := by
  rcases h with h | ⟨hns, hab, h | h⟩
  · exact .inl (.inl h)
  · exact .inl (.inr ⟨hns, hab, .inl h⟩)
  · rw [finalFirst_append, Bool.or_eq_true, Bool.and_eq_true] at h
    rcases h with h | ⟨hno, h⟩
    · exact .inl (.inr ⟨hns, hab, .inr h⟩)
    · refine .inr ⟨?_, h⟩
      rintro (hc | hc | hc)
      · simp [hns] at hc
      · simp [hab] at hc
      · simp [hc] at hno

theorem finalFirst_ack {fileId : JSString} {k : Nat}
    (h : finalFirst a [chunkAckMessage fileId k] = true) :
    (k : Int) = (a.file.totalChunks : Int) - 1 := by
  simp [finalFirst, isAbort, finalAck, chunkAckMessage] at h
  exact h.2

/-- An acknowledgement that would let the sender resolve comes with the delivery. -/
theorem Inv.finished_step {x : State} {t : Receiver.State} {e : Receiver.Event} {out : List Action}
    (hx : Inv a x) (hst : Receiver.Steps a.receiver x.rcv e t out)
    (hcan : ¬ Cancelled x.snd x.path) (hfinal : finalFirst a (sends out) = true) :
    Finished a x.snd.pc x.stream t (x.log ++ out) := by
  cases hst with
  | chunkOrphaned key frame index plaintext hrun hcur =>
      have hclosed := (hx.givenUp hcur (by simp [writing, hrun])).resolve_right hcan
      rw [sends_append] at hfinal
      change finalFirst a (sends (x.rcv.put _) ++ []) = true at hfinal
      simp [sends_put, hclosed, finalFirst] at hfinal
  | chunkLast key frame index plaintext c hrun hcur hlast =>
      exact ⟨hx.progress.delivered hrun hcur hlast _, rfl, rfl,
        hx.progress.taken_of_running hrun⟩
  | chunkMore key frame index plaintext c hrun hcur hlast =>
      obtain ⟨-, rfl, hlast', -⟩ := hx.progress.written hrun hcur
      change finalFirst a (sends (x.rcv.put _)) = true at hfinal
      rw [sends_put] at hfinal
      split at hfinal
      · cases hfinal
      · have := finalFirst_ack hfinal
        have := a.file.totalChunks_pos
        rw [hlast] at hlast'
        have := of_decide_eq_false hlast'.symm
        omega
  | aborted c hcur =>
      rw [sends_append] at hfinal
      change finalFirst a (sends (x.rcv.put _) ++ []) = true at hfinal
      rw [List.append_nil, sends_put] at hfinal
      split at hfinal <;> cases hfinal
  | _ => cases hfinal

/-- A step of the receiver, after which `rest` is on its way from the relay. -/
theorem Inv.receiver_step {x : State} {t : Receiver.State} {e : Receiver.Event}
    {out : List Action} {rest : List Message} (hx : Inv a x)
    (hst : Receiver.Steps a.receiver x.rcv e t out)
    (hsub : (t.chain ++ rest ++ x.sndUp).Sublist x.stream)
    (hprog : Progress a (FrameAhead x.snd.pc (t.chain ++ rest ++ x.sndUp))
      (MetaAhead x.snd.pc (t.chain ++ rest ++ x.sndUp)) t (x.log ++ out)) :
    Inv a { x with rcv := t, rcvUp := x.rcvUp ++ sends out, rcvDown := rest, log := x.log ++ out } := by
  have hpath : x.sndDown ++ (x.rcvUp ++ sends out) = x.path ++ sends out :=
    (List.append_assoc _ _ _).symm
  have hchain : ∀ m ∈ x.rcv.chain, m ∈ x.stream := fun m hm =>
    List.mem_append_left _ (List.mem_append_left _ hm)
  refine ⟨hx.sender, hx.stream.sublist hsub, hprog, fun m hm => ?_, fun hun => ?_,
    fun hcur hw => ?_, fun hr => ?_⟩
  · change m ∈ x.sndDown ++ (x.rcvUp ++ sends out) at hm
    rw [hpath] at hm
    exact (List.mem_append.mp hm).elim (hx.path m) (hx.progress.sends_from hst m)
  · obtain ⟨hacked, hno⟩ := hx.early hun
    refine ⟨hacked, ?_⟩
    change (x.sndDown ++ (x.rcvUp ++ sends out)).any isAck = false
    rw [hpath, List.any_append, hno, no_ack_of_idle hst (hx.progress.fresh (.inr hun)).2.1]
    rfl
  · change t.socketClosed = true ∨ Cancelled x.snd (x.sndDown ++ (x.rcvUp ++ sends out))
    rw [hpath]
    exact hx.givenUp_step hst hcur hw
  · change Resolving a x.snd (x.sndDown ++ (x.rcvUp ++ sends out)) at hr
    rw [hpath] at hr
    have hfin : Finished a x.snd.pc x.stream t (x.log ++ out) :=
      (resolving_append hr).elim (fun hr => (hx.finished hr).step hst hchain)
        fun h => hx.finished_step hst h.1 h.2
    exact hfin.ahead fun hm => hm.sublist hsub

/-- A step of the chain begins. -/
theorem Inv.start {x : State} {t : Receiver.State} {out : List Action} (hx : Inv a x)
    (hst : Receiver.Steps a.receiver x.rcv .start t out) :
    Inv a { x with rcv := t, rcvUp := x.rcvUp ++ sends out, log := x.log ++ out } := by
  have hchain : t.chain.Sublist x.rcv.chain := by
    cases hst with
    | metaBegun _ _ chain _ h | chunkBegun _ _ _ chain _ h | peerAborted _ _ chain _ h
    | dropped _ chain _ h | refused _ chain _ _ h =>
        rw [h]
        exact List.sublist_cons_self _ _
  have hprog := hx.progress
  have hstream := hx.stream
  simp only [State.stream, List.append_assoc] at hprog hstream
  refine hx.receiver_step hst ((hchain.append_right _).append_right _) ?_
  simpa only [List.append_assoc] using hprog.start hstream hst

/-- Any other event of the receiver. -/
theorem Inv.other {x : State} {t : Receiver.State} {e : Receiver.Event} {out : List Action}
    {rest : List Message} (hx : Inv a x) (hst : Receiver.Steps a.receiver x.rcv e t out)
    (he : e ≠ .start) (hsub : (t.chain ++ rest ++ x.sndUp).Sublist x.stream) :
    Inv a { x with rcv := t, rcvUp := x.rcvUp ++ sends out, rcvDown := rest, log := x.log ++ out } :=
  hx.receiver_step hst hsub
    ((hx.progress.step hst he).mono (fun _ hi => hi.sublist hsub) fun hm => hm.sublist hsub)

/-- Only messages and the start of a step change the chain. -/
theorem chain_eq {s t : Receiver.State} {e : Receiver.Event} {out : List Action}
    (hst : Receiver.Steps a.receiver s e t out) (hm : ∀ m, e ≠ .message m) (he : e ≠ .start) :
    t.chain = s.chain := by
  cases hst with
  | queued m | ignored m => exact absurd rfl (hm m)
  | metaBegun | chunkBegun | peerAborted | dropped | refused => exact absurd rfl he
  | _ => rfl

theorem Inv.restream {x y : State} (hx : Inv a x) (hsnd : y.snd = x.snd) (hrcv : y.rcv = x.rcv)
    (hlog : y.log = x.log) (hstream : StreamOk a x.snd.pc y.stream)
    (hframes : ∀ i, FrameAhead x.snd.pc y.stream i → FrameAhead x.snd.pc x.stream i)
    (hmeta : MetaAhead x.snd.pc y.stream → MetaAhead x.snd.pc x.stream)
    (hfrom : ∀ m ∈ y.path, FromReceiver a m)
    (hack : x.path.any isAck = false → y.path.any isAck = false)
    (habort : x.path.any isAbort = true → y.path.any isAbort = true)
    (hfinal : finalFirst a y.path = true → finalFirst a x.path = true) : Inv a y where
  sender := hsnd ▸ hx.sender
  stream := hsnd ▸ hstream
  progress := by
    rw [hsnd, hrcv, hlog]
    exact hx.progress.mono hframes hmeta
  path := hfrom
  early hun := by
    rw [hsnd] at hun ⊢
    exact ⟨(hx.early hun).1, hack (hx.early hun).2⟩
  givenUp hcur hw := by
    rw [hrcv] at hcur hw ⊢
    rw [hsnd]
    exact (hx.givenUp hcur hw).imp_right fun h => h.mono habort
  finished hr := by
    rw [hsnd] at hr ⊢
    rw [hrcv, hlog]
    exact (hx.finished (hr.imp_right fun h => ⟨h.1, h.2.1, h.2.2.imp_right hfinal⟩)).ahead hmeta

/-- The relay forwards or drops a message of the sender. -/
theorem Inv.relaySender {x : State} {m : Message} {rest : List Message} (hx : Inv a x)
    (hup : x.sndUp = m :: rest) :
    Inv a { x with sndUp := rest } ∧ Inv a { x with sndUp := rest, rcvDown := x.rcvDown ++ [m] } := by
  have hsub : (x.rcv.chain ++ x.rcvDown ++ rest).Sublist x.stream := by
    rw [State.stream, hup]
    exact (List.sublist_cons_self m rest).append_left _
  have hsame : State.stream { x with sndUp := rest, rcvDown := x.rcvDown ++ [m] } = x.stream := by
    simp [State.stream, hup]
  refine ⟨hx.restream rfl rfl rfl (hx.stream.sublist hsub) (fun _ hi => hi.sublist hsub)
    (fun hm => hm.sublist hsub) hx.path id id id, ?_⟩
  refine hx.restream rfl rfl rfl ?_ (fun i hi => ?_) (fun hm => ?_) hx.path id id id
  · exact hsame ▸ hx.stream
  · exact hsame ▸ hi
  · exact hsame ▸ hm

theorem Inv.relayReceiver {x : State} {m : Message} {rest : List Message} (hx : Inv a x)
    (hup : x.rcvUp = m :: rest) :
    Inv a { x with rcvUp := rest, sndDown := x.sndDown ++ [m] } := by
  have hsame : State.path { x with rcvUp := rest, sndDown := x.sndDown ++ [m] } = x.path := by
    simp [State.path, hup]
  refine hx.restream rfl rfl rfl hx.stream (fun _ h => h) id (fun m' hm' => ?_) (fun h => ?_)
    (fun h => ?_) fun h => ?_
  · exact hx.path m' (hsame ▸ hm')
  · exact hsame ▸ h
  · exact hsame ▸ h
  · exact hsame ▸ h

/-- The relay blocks the file: its notice goes to both sides, behind what is
already on its way to them. -/
def stopped (a : SendArgs) (x : State) : State :=
  { x with
    blocked := true
    rcvDown := x.rcvDown ++ [sizeLimitAbortMessage a.fileId.hex]
    sndDown := x.sndDown ++ [sizeLimitAbortMessage a.fileId.hex] }

/-- The relay stops the file: the sender hears of it before anything the
relay has yet to forward. -/
theorem Inv.sizeAbort {x : State} (hx : Inv a x) : Inv a (stopped a x) := by
  have hab : AbortOf a (sizeLimitAbortMessage a.fileId.hex) := ⟨_, rfl⟩
  have hstream : (stopped a x).stream
      = x.rcv.chain ++ x.rcvDown ++ sizeLimitAbortMessage a.fileId.hex :: x.sndUp := by
    simp [stopped, State.stream]
  have hpath : (stopped a x).path
      = x.sndDown ++ sizeLimitAbortMessage a.fileId.hex :: x.rcvUp := by
    simp [stopped, State.path]
  refine hx.restream rfl rfl rfl ?_ (fun i hi => ?_) (fun hm => ?_) (fun m hm => ?_) (fun h => ?_)
    (fun h => ?_) fun h => ?_
  · exact hstream ▸ hx.stream.insert_abort hab
  · exact FrameAhead.of_insert hab (hstream ▸ hi)
  · exact MetaAhead.of_insert hab (hstream ▸ hm)
  · rw [hpath] at hm
    rcases List.mem_append.mp hm with hm | hm
    · exact hx.path m (List.mem_append_left _ hm)
    · rcases List.mem_cons.mp hm with rfl | hm
      · exact .inl hab
      · exact hx.path m (List.mem_append_right _ hm)
  · rw [hpath]
    rw [State.path, List.any_append] at h
    simpa [isAck, sizeLimitAbortMessage] using h
  · rw [hpath]
    simp [isAbort, sizeLimitAbortMessage]
  · -- what the relay has yet to forward comes too late
    rw [hpath, finalFirst_append] at h
    rw [State.path, finalFirst_append, Bool.or_eq_true]
    exact .inl (by simpa [finalFirst, isAbort, sizeLimitAbortMessage] using h)

theorem stepSender_spec {x y : State} {e : SendFile.Event} {rest : List Message}
    (hx : Inv a x) (h : stepSender a x e rest = some y) :
    ∃ t out, SendFile.Steps a x.snd e t out ∧
      y = { x with snd := t, sndUp := x.sndUp ++ out, sndDown := rest } := by
  obtain ⟨⟨t, out⟩, hstep, rfl⟩ := Option.map_eq_some_iff.mp h
  exact ⟨t, out, SendFile.step_spec hx.sender hstep, rfl⟩

theorem stepReceiver_spec {x y : State} {e : Receiver.Event} {rest : List Message}
    (h : stepReceiver a x e rest = some y) :
    ∃ t out, Receiver.Steps a.receiver x.rcv e t out ∧
      y = { x with
        rcv := t
        rcvUp := x.rcvUp ++ sends out
        rcvDown := rest
        log := x.log ++ out } := by
  obtain ⟨⟨t, out⟩, hstep, rfl⟩ := Option.map_eq_some_iff.mp h
  exact ⟨t, out, Receiver.step_spec hstep, rfl⟩

theorem receiver_own {x y : State} {e : Receiver.Event} (hx : Inv a x)
    (he : ∀ m, e ≠ .message m) (h : stepReceiver a x e x.rcvDown = some y) : Inv a y := by
  obtain ⟨t, out, hst, rfl⟩ := stepReceiver_spec h
  by_cases hs : e = .start
  · obtain rfl := hs
    exact hx.start hst
  · refine hx.other hst hs ?_
    rw [chain_eq hst he hs]
    exact List.Sublist.refl _

/-- A message from the relay is dispatched to the receiver. -/
theorem Inv.toReceiver {x y : State} {m : Message} {rest : List Message} (hx : Inv a x)
    (hdown : x.rcvDown = m :: rest) (h : stepReceiver a x (.message m) rest = some y) : Inv a y := by
  obtain ⟨t, out, hst, rfl⟩ := stepReceiver_spec h
  refine hx.other hst (by simp) ?_
  rw [State.stream, hdown]
  cases hst with
  | queued => simp
  | ignored =>
      exact ((List.sublist_cons_self m rest).append_left _).append_right _

theorem inv_step (x : State) (e : Event) (y : State) (hx : Inv a x) (h : step a x e = some y) :
    Inv a y := by
  cases e with
  | sender e =>
      cases e with
      | message => cases h
      | keyDerived | metaEncrypted | sliceRead | chunkEncrypted | close | signalAbort =>
          obtain ⟨t, out, hst, rfl⟩ := stepSender_spec hx h
          exact hx.own hst (by simp)
  | receiver e =>
      cases e with
      | message | detach => cases h
      | start | resume | close | abortCurrent => exact receiver_own hx (by simp) h
  | toSender =>
      rw [step] at h
      split at h
      next env rest hdown =>
        obtain ⟨t, out, hst, rfl⟩ := stepSender_spec hx h
        exact hx.toSender hst hdown
      next data rest hdown =>
        -- nothing binary is ever on its way to the sender
        have hfrom := hx.path (.binary data) (by rw [State.path, hdown]; exact List.mem_cons_self)
        rcases hfrom with ⟨_, h⟩ | ⟨_, _, h⟩ <;> cases h
      next => cases h
  | toReceiver =>
      rw [step] at h
      split at h
      next m rest hdown => exact hx.toReceiver hdown h
      next => cases h
  | relaySender =>
      rw [step] at h
      split at h
      next m rest hup =>
        split at h
        next =>
          obtain rfl := Option.some.inj h
          exact (hx.relaySender hup).1
        next =>
          obtain rfl := Option.some.inj h
          exact (hx.relaySender hup).2
      next => cases h
  | relayReceiver =>
      rw [step] at h
      split at h
      next m rest hup =>
        obtain rfl := Option.some.inj h
        exact hx.relayReceiver hup
      next => cases h
  | sizeAbort =>
      obtain rfl := Option.some.inj h
      exact hx.sizeAbort

/-- If `sendFile` resolves, the file has been delivered. -/
theorem delivered_of_resolved (a : SendArgs) (es : List Event) (x : State)
    (hr : Transition.run (step a) init es = some x) (hres : x.snd.pc = .settled .resolved) :
    Delivered a x.log :=
  ((Transition.invariant inv_step (.init a) hr).finished (.inl hres)).delivered

/-! ## A one-byte file, sent without incident -/

/-- The run that sends, relays, saves and acknowledges the one-byte file, up to
the sender's taking of the acknowledgement. -/
def tinyEvents : List Event :=
  [.sender (.keyDerived none), .sender (.metaEncrypted none), .sender (.sliceRead none),
    .sender (.chunkEncrypted none), .relaySender, .relaySender, .toReceiver, .toReceiver,
    .receiver .start, .receiver (.resume none), .receiver (.resume none), .receiver (.resume none),
    .receiver .start, .receiver (.resume none), .receiver (.resume none), .relayReceiver, .toSender]

theorem delivered_of_resolved_tiny : ∃ x,
    Transition.run (step SendFile.tinyArgs) init tinyEvents = some x ∧
      Delivered SendFile.tinyArgs x.log := by
  have hrun : (Transition.run (step SendFile.tinyArgs) init tinyEvents).any
      (fun x => decide (x.snd.pc = .settled .resolved)) = true := by
    decide +kernel
  obtain ⟨x, hr, hres⟩ := (Option.any_eq_true _ _).mp hrun
  exact ⟨x, hr,
    delivered_of_resolved SendFile.tinyArgs tinyEvents x hr (of_decide_eq_true hres)⟩

end Quicksend.Delivery
