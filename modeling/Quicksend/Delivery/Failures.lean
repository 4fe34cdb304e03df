import Quicksend.Delivery.Flow
import Quicksend.SendFile.Wakeups

/-!
# Whether a failure of the receiver reaches the sender

`sendFile` tells the receiver when it fails; `attachReceiver` reports its
own failures with `onError` and tells nobody. Where it is `onFileStart`
that failed the chunks go on being received. Where it is a later promise
the chunk in hand is lost, every later one is out of order, and the sender
waits for acknowledgements until the user gives up.
-/

namespace Quicksend.Delivery

open Receiver (Action Current Task)
open SendFile (Pc)

variable {a : SendArgs}

/-- Nothing fails, and nobody cancels or closes: a promise is fulfilled, a
step of the chain begins, a message is relayed or dispatched. -/
def goesOn : Event → Bool
  | .sender (.keyDerived none) | .sender (.metaEncrypted none) | .sender (.sliceRead none)
  | .sender (.chunkEncrypted none) | .receiver .start | .receiver (.resume none)
  | .toSender | .toReceiver | .relaySender | .relayReceiver => true
  | _ => false

/-- State `y` can be reached from `x` by events of parties that only go on,
without a cancel or a failure. -/
def Reaches (a : SendArgs) (x y : State) : Prop :=
  ∃ es, (∀ e ∈ es, goesOn e = true) ∧ Transition.run (step a) x es = some y

/-- The remaining chunks can still complete the file. -/
def Completes (a : SendArgs) (x : State) : Prop :=
  ∃ y, Reaches a x y ∧ y.snd.pc = .settled .resolved ∧ Delivered a y.log

/-- A `file_abort` has been sent to the sender. -/
def AbortSent (a : SendArgs) (x : State) : Prop :=
  (∃ reason, x.snd.aborted = some ⟨true, reason⟩) ∨ ∃ m ∈ x.path, AbortOf a m

/-- The receiver has given the file up, and the sender waits for what no
message in flight and no future step will bring. -/
def Forsaken (a : SendArgs) (x : State) : Prop :=
  GivenUp x.log ∧ x.snd.waiting = true ∧ ∀ y, Reaches a x y → y.snd = x.snd

/-- The call is neither over nor cancelled by its own user. -/
def InFlight (s : SendFile.State) : Prop :=
  s.isSettled = false ∧ ∀ reason, s.aborted ≠ some ⟨false, reason⟩

/-- The chunk whose encryption the event ends, if it is such an event and
succeeds. -/
def encrypted (s : SendFile.State) : SendFile.Event → Option Nat
  | .chunkEncrypted none =>
      match s.pc with
      | .encryptingChunk i _ => some i
      | _ => none
  | _ => none

/-- A call that was cancelled while it encrypted a chunk has room in the
window for the next one, so that it does not wait again. -/
def Roomy (a : SendArgs) (s : SendFile.State) (e : SendFile.Event) : Prop :=
  ∀ i ∈ encrypted s e, s.aborted.isSome = true → i + 1 < a.file.totalChunks →
    (i : Int) - s.ackedUpTo < WINDOW_SIZE

/-- The sockets stay open, the relay stops no file it has not seen, and

* the running step of the receiver fails only where it is `onFileStart` that
  failed, or the sender is done or will hear of its cancellation;
* the sender does not wait again once it is cancelled. -/
def Excused (a : SendArgs) (x : State) : Event → Prop
  | .receiver (.resume err) =>
      ∀ task ∈ x.rcv.running, Receiver.Fails a.receiver x.rcv err task →
        isStarting task = true ∨ Cancelled x.snd x.path
  | .receiver .close => False
  | .sender e => e ≠ .close ∧ Roomy a x.snd e
  | .sizeAbort => unsent x.snd.pc = false
  | _ => True

instance (s : SendFile.State) (path : List Message) : Decidable (Cancelled s path) :=
  inferInstanceAs (Decidable (_ ∨ _ ∨ _))

instance (a : SendArgs) (s : SendFile.State) (e : SendFile.Event) : Decidable (Roomy a s e) :=
  inferInstanceAs (Decidable (∀ i ∈ encrypted s e, _))

instance (a : SendArgs) (x : State) : DecidablePred (Excused a x)
  | .receiver (.resume _) => inferInstanceAs (Decidable (∀ task ∈ x.rcv.running, _ → _ ∨ _))
  | .receiver .close => isFalse id
  | .receiver (.message _) | .receiver .start | .receiver .abortCurrent | .receiver .detach =>
      isTrue trivial
  | .sender _ => inferInstanceAs (Decidable (_ ∧ _))
  | .sizeAbort => inferInstanceAs (Decidable (_ = _))
  | .toSender | .toReceiver | .relaySender | .relayReceiver => isTrue trivial

/-! ## When the sender waits -/

/-- A call waits only for what is missing, and not once it is cancelled. -/
structure Poised (a : SendArgs) (s : SendFile.State) : Prop where
  window : ∀ i, s.pc = .windowWait i → (i : Int) - 1 - s.ackedUpTo ≥ WINDOW_SIZE
  acks : s.pc = .ackWait → s.ackedUpTo < (a.file.totalChunks : Int) - 1
  uncancelled : s.waiting = true → s.aborted = none
  unheard : unsent s.pc = true → s.aborted = none
  unclosed : s.socketClosed = false

theorem Poised.init (a : SendArgs) : Poised a SendFile.init where
  window _ h := by cases h
  acks h := by cases h
  uncancelled _ := rfl
  unheard _ := rfl
  unclosed := rfl

/-- A call that does not wait. -/
theorem Poised.busy {s : SendFile.State} (hw : s.waiting = false)
    (hun : unsent s.pc = true → s.aborted = none) (hopen : s.socketClosed = false) :
    Poised a s where
  window i h := by simp [SendFile.State.waiting, h] at hw
  acks h := by simp [SendFile.State.waiting, h] at hw
  uncancelled h := by simp [hw] at h
  unheard := hun
  unclosed := hopen

theorem lands_poised {s t : SendFile.State} {i : Nat} {out : List Message}
    (h : SendFile.Lands a s i t out) (hopen : s.socketClosed = false)
    (hroom : s.aborted.isSome = true → t.pc ≠ .windowWait i) : Poised a t := by
  cases h with
  | window _ hfull =>
      have hab : s.aborted = none := by
        by_contra hne
        exact hroom (Option.isSome_iff_ne_none.mpr hne) rfl
      refine ⟨fun j hj => ?_, (by simp), fun _ => hab, fun _ => hab, hopen⟩
      obtain rfl := Pc.windowWait.inj hj
      exact hfull
  | reading _ hab => exact .busy rfl (fun _ => hab) hopen
  | acks _ hab hacked =>
      exact ⟨(by simp), fun _ => hacked, fun _ => hab, fun _ => hab, hopen⟩
  | resolved _ hab => exact .busy rfl (fun _ => hab) hopen
  | aborted => exact .busy rfl (fun h => by cases h) hopen

theorem Poised.step {s t : SendFile.State} {e : SendFile.Event} {out : List Message}
    (h : Poised a s) (hst : SendFile.Steps a s e t out) (hr : Roomy a s e)
    (he : e ≠ .close) : Poised a t := by
  cases hst with
  | keyDerived hpc =>
      exact .busy rfl (fun _ => h.unheard (by rw [hpc]; rfl)) h.unclosed
  | keyFailed | metaFailed | failed => exact .busy rfl (fun h => by cases h) h.unclosed
  | metaSent hpc _ _ _ _ hl =>
      have hab := h.unheard (by rw [hpc]; rfl)
      exact lands_poised hl h.unclosed (by simp [hab])
  | sliceRead => exact .busy rfl (fun h => by cases h) h.unclosed
  | chunkSent i p hpc _ _ _ _ hl =>
      refine lands_poised hl h.unclosed fun hab hw => ?_
      cases hl with
      | window hi hfull =>
          have := hr i (by simp [encrypted, hpc]) hab hi
          push_cast at hfull
          omega
      | _ => cases hw
  | heard e hl _ _ _ _ _ hw =>
      have hopen : (SendFile.noted s e).socketClosed = false := by
        unfold SendFile.noted
        split <;> first | exact h.unclosed | exact absurd rfl he
      cases hw with
      | asleep hw =>
          refine .busy hw (fun hun => ?_) hopen
          rw [SendFile.noted_pc] at hun
          simp [unsent_of_listening hl] at hun
      | lost => exact .busy rfl (fun h => by cases h) hopen
      | window i _ _ _ _ hl hab => exact lands_poised hl hopen hab
      | acks _ _ _ _ hl =>
          refine lands_poised hl hopen fun _ hpc => ?_
          cases hl with
          | window hi => exact absurd hi (lt_irrefl _)
          | _ => cases hpc
  | ignored => exact h
  | closedUnheard => exact absurd rfl he
  | abortUnheard => exact ⟨h.window, h.acks, h.uncancelled, h.unheard, h.unclosed⟩

/-! ## Every step keeps the transfer going, or the sender hears of its end -/

/-- The sender is done or will hear of its cancellation, or the transfer goes on. -/
def Answered (a : SendArgs) (x : State) : Prop :=
  unsent x.snd.pc = false ∧ Cancelled x.snd x.path ∨ ∃ ph k r, Flow a x ph k r

theorem Cancelled.append {s : SendFile.State} {path out : List Message} (h : Cancelled s path) :
    Cancelled s (path ++ out) :=
  h.mono fun hab => by rw [List.any_append, hab, Bool.true_or]

theorem unsent_step {s t : SendFile.State} {e : SendFile.Event} {out : List Message}
    (h : SendFile.Steps a s e t out) (hun : unsent s.pc = false) : unsent t.pc = false := by
  by_contra hun'
  have := (steps_unsent h (by simpa using hun')).1
  simp [hun] at this

/-- A sender that is done, or will hear of its cancellation, stays so. -/
theorem cancelled_step {x y : State} {e : Event} (hx : Inv a x) (hun : unsent x.snd.pc = false)
    (hcan : Cancelled x.snd x.path) (h : step a x e = some y) :
    unsent y.snd.pc = false ∧ Cancelled y.snd y.path := by
  have received {e : Receiver.Event} {rest : List Message}
      (h : stepReceiver a x e rest = some y) :
      unsent y.snd.pc = false ∧ Cancelled y.snd y.path := by
    obtain ⟨t, out, -, rfl⟩ := stepReceiver_spec h
    refine ⟨hun, ?_⟩
    rw [State.path, ← List.append_assoc]
    -- what the receiver sends goes behind the abort
    exact hcan.append
  cases e with
  | sender e =>
      cases e with
      | message => cases h
      | keyDerived | metaEncrypted | sliceRead | chunkEncrypted | close | signalAbort =>
          obtain ⟨t, out, hst, rfl⟩ := stepSender_spec hx h
          exact ⟨unsent_step hst hun, hcan.own hst⟩
  | receiver e =>
      cases e with
      | message | detach => cases h
      | start | resume | close | abortCurrent => exact received h
  | toSender =>
      rw [step] at h
      split at h
      next env rest hdown =>
        obtain ⟨t, out, hst, rfl⟩ := stepSender_spec hx h
        rw [State.path, hdown] at hcan
        have hfrom : FromReceiver a (.text env) :=
          hx.path _ (by rw [State.path, hdown]; exact List.mem_cons_self)
        -- hearing the abort marks the call as cancelled
        exact ⟨unsent_step hst hun, hcan.heard hst hfrom hun⟩
      next data rest hdown =>
        obtain rfl := Option.some.inj h
        refine ⟨hun, hcan.mono fun hab => ?_⟩
        rw [State.path, hdown] at hab
        exact hab
      next => cases h
  | toReceiver =>
      rw [step] at h
      split at h
      next m rest hdown => exact received h
      next => cases h
  | relaySender =>
      rw [step] at h
      split at h
      next m rest hup =>
        split at h
        next =>
          obtain rfl := Option.some.inj h
          exact ⟨hun, hcan⟩
        next =>
          obtain rfl := Option.some.inj h
          exact ⟨hun, hcan⟩
      next => cases h
  | relayReceiver =>
      rw [step] at h
      split at h
      next m rest hup =>
        obtain rfl := Option.some.inj h
        refine ⟨hun, hcan.mono fun hab => ?_⟩
        simpa [State.path, hup] using hab
      next => cases h
  | sizeAbort =>
      obtain rfl := Option.some.inj h
      refine ⟨hun, .inr (.inr ?_)⟩
      -- the relay's notice is an abort itself
      simp [State.path, isAbort, sizeLimitAbortMessage]

/-- While the transfer goes on nobody has cancelled. -/
theorem Flow.not_cancelled {x : State} {ph : Phase} {k r : Nat} (h : Flow a x ph k r) :
    ¬ Cancelled x.snd x.path := by
  obtain ⟨j, hj, -⟩ := h.acks
  rintro (hc | hc | hc)
  · simp [h.sender.going] at hc
  · simp [h.sender.aborted] at hc
  · obtain ⟨m, hm, hab⟩ := List.any_eq_true.mp hc
    obtain ⟨i, -, -, rfl⟩ := hj.mem hm
    cases hab

/-- The user of the receiving page cancels. -/
theorem Flow.abortCurrent {x : State} {ph : Phase} {k r : Nat} (h : Flow a x ph k r)
    (hx : Inv a x) {t : Receiver.State} {out : List Action}
    (hst : Receiver.Steps a.receiver x.rcv .abortCurrent t out) :
    Answered a
      { x with rcv := t, rcvUp := x.rcvUp ++ sends out, log := x.log ++ out } := by
  cases hst with
  | aborted c hcur =>
      refine .inl ⟨?_, .inr (.inr ?_)⟩
      · by_contra hun
        have := (hx.progress.fresh (.inr (by simpa using hun))).1
        simp [hcur] at this
      · rw [State.path, sends_append, sends_put, h.unclosed]
        simp [isAbort, fileAbortMessage]
  | abortedIdle hcur =>
      refine .inr ⟨ph, k, r, h.react ?_ h.ahead (.inl ⟨rfl, rfl⟩) rfl rfl⟩
      rw [List.append_nil]
      exact h.stage

/-- **The step lemma.** -/
theorem Flow.step {x y : State} {e : Event} {ph : Phase} {k r : Nat} (h : Flow a x ph k r)
    (hx : Inv a x) (hg : Excused a x e) (hstep : step a x e = some y) : Answered a y := by
  cases e with
  | sender e =>
      have own (he : ∀ env, e ≠ .message env) (hclose : e ≠ .close)
          (hstep : stepSender a x e x.sndDown = some y) : Answered a y := by
        obtain ⟨t, out, hst, rfl⟩ := stepSender_spec hx hstep
        exact (h.own hx hst he hclose).elim (fun h => .inr ⟨ph, k, r, h⟩)
          fun ⟨hun, hend⟩ => .inl ⟨hun, hend.imp_right .inl⟩
      cases e with
      | message => cases hstep
      | close => exact absurd rfl hg.1
      | keyDerived | metaEncrypted | sliceRead | chunkEncrypted | signalAbort =>
          exact own (by simp) (by simp) hstep
  | receiver e =>
      cases e with
      | message | detach => cases hstep
      | close => exact hg.elim
      | abortCurrent =>
          obtain ⟨t, out, hst, rfl⟩ := stepReceiver_spec hstep
          exact h.abortCurrent hx hst
      | start =>
          obtain ⟨⟨t, out⟩, hstart, rfl⟩ := Option.map_eq_some_iff.mp hstep
          rw [Receiver.step] at hstart
          split at hstart
          next m chain hrun hchain =>
            obtain ⟨-, -, -, ph', k', -, hflow⟩ := h.start hx hrun hchain (Option.some.inj hstart)
            exact .inr ⟨ph', k', r, hflow⟩
          next => cases hstart
      | resume err =>
          obtain ⟨t, out, hst, rfl⟩ := stepReceiver_spec hstep
          obtain ⟨-, -, ph', k', r', -, hflow⟩ := h.resume hx hst fun task hrun hfail => by
            -- an excused failure while nobody has cancelled is that of `onFileStart`
            exact (hg task hrun hfail).resolve_right h.not_cancelled
          exact .inr ⟨ph', k', r', hflow⟩
  | toSender =>
      rw [Delivery.step] at hstep
      split at hstep
      next env rest hdown =>
        obtain ⟨t, out, hst, rfl⟩ := stepSender_spec hx hstep
        obtain ⟨-, hflow | hres⟩ := h.toSender hx hdown hst
        · exact .inr ⟨ph, k, r, hflow⟩
        · have hset : t.isSettled = true := by rw [SendFile.State.isSettled, hres]
          exact .inl ⟨unsent_of_settled hset, .inl hset⟩
      next data rest hdown =>
        have hfrom := hx.path (.binary data) (by rw [State.path, hdown]; exact List.mem_cons_self)
        -- the receiver sends no binary frame
        rcases hfrom with ⟨_, h⟩ | ⟨_, _, h⟩ <;> cases h
      next => cases hstep
  | toReceiver =>
      rw [Delivery.step] at hstep
      split at hstep
      next m rest hdown =>
        obtain ⟨t, out, hst, rfl⟩ := stepReceiver_spec hstep
        exact .inr ⟨ph, k, r, (h.toReceiver hdown hst).2⟩
      next => cases hstep
  | relaySender =>
      rw [Delivery.step] at hstep
      split at hstep
      next m rest hup =>
        rw [if_neg (by simp [h.unblocked])] at hstep
        obtain rfl := Option.some.inj hstep
        exact .inr ⟨ph, k, r, h.relaySender hup⟩
      next => cases hstep
  | relayReceiver =>
      rw [Delivery.step] at hstep
      split at hstep
      next m rest hup =>
        obtain rfl := Option.some.inj hstep
        exact .inr ⟨ph, k, r, h.relayReceiver hup⟩
      next => cases hstep
  | sizeAbort =>
      obtain rfl := Option.some.inj hstep
      -- the relay stops a file of which it has seen a frame
      refine .inl ⟨hg, .inr (.inr ?_)⟩
      simp [State.path, isAbort, sizeLimitAbortMessage]

/-! ## A transfer that goes on ends -/

/-- The work of the sender in hand and to come; a chunk is worth more than
the frame and the acknowledgement it ends up as. -/
def senderWork (a : SendArgs) : Pc → Nat
  | .windowWait i | .readingSlice i => 9 * (a.file.totalChunks - i)
  | .encryptingChunk i _ => 9 * (a.file.totalChunks - i) - 1
  | _ => 0

/-- A bound on the steps left once the metadata has been opened. -/
def work (a : SendArgs) (x : State) : Nat :=
  senderWork a x.snd.pc + 7 * x.sndUp.length + 6 * x.rcvDown.length + 5 * x.rcv.chain.length
    + taskWork x.rcv + 2 * x.rcvUp.length + x.sndDown.length

theorem lands_work {s t : SendFile.State} {i : Nat} {out : List Message}
    (h : SendFile.Lands a s i t out) :
    senderWork a t.pc ≤ 9 * (a.file.totalChunks - i) := by
  cases h <;> simp [senderWork]

theorem heard_work {s t : SendFile.State} {env : Envelope} {out : List Message}
    (h : SendFile.Steps a s (.message env) t out) : senderWork a t.pc ≤ senderWork a s.pc := by
  cases h with
  | failed _ _ _ he => exact absurd rfl (he _)
  | ignored => exact Nat.le_refl _
  | heard _ _ _ _ _ _ _ hw =>
      cases hw with
      | asleep => rw [SendFile.noted_pc]
      | lost => exact Nat.zero_le _
      | window i hpc _ _ _ hl =>
          rw [SendFile.noted_pc] at hpc
          rw [hpc]
          exact lands_work hl
      | acks _ _ _ _ hl =>
          have := lands_work hl
          omega

/-- One step further, to less work or to the end. -/
def Advances (a : SendArgs) (x : State) : Prop :=
  ∃ e y, goesOn e = true ∧ step a x e = some y ∧ work a y < work a x ∧
    ((∃ k r, Flow a y .opened k r) ∨ y.snd.pc = .settled .resolved)

/-- An honest frame opens. -/
theorem honest_opens {key : Bytes} {frame : ChunkFrame} (hf : HonestFrame a frame)
    (hkey : deriveFileKey a.w a.epochKey frame.fileId.bytes = .ok key) :
    decryptChunk a.w key frame.fileId.bytes frame.index frame.isLast frame.ciphertext
      = .ok (a.file.chunk frame.index) := by
  obtain ⟨hid, -, -, -, key', hkey', henc⟩ := hf
  rw [hid] at hkey ⊢
  obtain rfl := Except.ok.inj (hkey.symm.trans hkey')
  exact decryptChunk_encryptChunk henc

/-- The running step goes on when its promise is fulfilled. -/
theorem Flow.fulfilled {x : State} {k r : Nat} (h : Flow a x .opened k r) (hx : Inv a x)
    (task : Task) (hrun : x.rcv.running = some task)
    (hfail : Receiver.Fails a.receiver x.rcv none task) : isStarting task = true := by
  cases task with
  | metaKey | metaDecrypt => cases (h.stage.of_opening hrun rfl).1
  | metaStart => rfl
  | chunkDecrypt key frame =>
      obtain ⟨c, hcur, -⟩ := h.stage.of_chunk hrun rfl
      have hf : HonestFrame a frame := hx.progress.task _ hrun
      obtain ⟨hkey, -⟩ : Receiver.TaskOk a.receiver x.rcv.current (.chunkDecrypt key frame) :=
        hx.progress.coherent.task _ hrun
      have hopens : decryptChunk a.receiver.w key frame.fileId.bytes frame.index frame.isLast
        frame.ciphertext = .ok (a.file.chunk frame.index) := honest_opens hf hkey
      simp [Receiver.Fails, settle, hopens, hcur] at hfail
  | chunkWrite => exact absurd rfl hfail

theorem Flow.advance_receiver {x : State} {k r : Nat} (h : Flow a x .opened k r) (hx : Inv a x)
    (hbusy : x.rcv.running ≠ none ∨ x.rcv.chain ≠ []) : Advances a x := by
  cases hrun : x.rcv.running with
  | some task =>
      have hstep : Receiver.step a.receiver x.rcv (.resume none)
          = some (Receiver.resumeStep a.receiver x.rcv task none) := by
        simp only [Receiver.step, hrun]
      obtain ⟨t, out⟩ := Receiver.resumeStep a.receiver x.rcv task none
      obtain ⟨hchain, hwork, ph', k', r', hph, hflow⟩ :=
        h.resume hx (Receiver.step_spec hstep) (h.fulfilled hx)
      obtain rfl := hph rfl
      refine ⟨.receiver (.resume none), _, rfl, ?_, ?_, .inl ⟨k', r', hflow⟩⟩
      · rw [Delivery.step, stepReceiver, hstep]
        · rfl
        all_goals simp
      · simp only [work, hchain, List.length_append]
        omega
  | none =>
      obtain ⟨m, chain, hchain⟩ := List.exists_cons_of_ne_nil (hbusy.resolve_left (by simp [hrun]))
      have hstep := receiver_start (a := a) hrun hchain
      obtain ⟨⟨t, out⟩, hstart⟩ :
        ∃ r, Receiver.startStep { x.rcv with chain := chain } m = r := ⟨_, rfl⟩
      obtain ⟨hchain', hout, hwork, ph', k', hph, hflow⟩ := h.start hx hrun hchain hstart
      obtain rfl := hph rfl
      refine ⟨.receiver .start, _, rfl, ?_, ?_, .inl ⟨k', r, hflow⟩⟩
      · rw [Delivery.step, stepReceiver, hstep, hstart]
        · rfl
        all_goals simp
      · have hidle : taskWork x.rcv = 0 := by simp [taskWork, hrun]
        simp only [work, hchain', hchain, hwork, hidle, hout, List.length_append,
          List.length_cons, List.length_nil]
        omega

theorem Flow.advance_relay {x : State} {k r : Nat} (h : Flow a x .opened k r)
    (hbusy : x.rcvDown ≠ [] ∨ x.sndUp ≠ [] ∨ x.rcvUp ≠ []) : Advances a x := by
  rcases hbusy with hbusy | hbusy | hbusy
  · obtain ⟨m, rest, hdown⟩ := List.exists_cons_of_ne_nil hbusy
    have hstep : Receiver.step a.receiver x.rcv (.message m)
        = some (Receiver.onMessage x.rcv m, []) := by
      simp [Receiver.step, h.unclosed, h.attached]
    obtain ⟨ht, hflow⟩ := h.toReceiver hdown (Receiver.step_spec hstep)
    refine ⟨.toReceiver, _, rfl, ?_, ?_, .inl ⟨k, r, hflow⟩⟩
    · rw [Delivery.step, hdown]
      change stepReceiver a x (.message m) rest = _
      rw [stepReceiver, hstep]
      rfl
    · rw [ht]
      simp only [work, hdown, taskWork, sends, List.filterMap_nil, List.append_nil,
        List.length_append, List.length_cons, List.length_nil]
      omega
  · obtain ⟨m, rest, hup⟩ := List.exists_cons_of_ne_nil hbusy
    refine ⟨.relaySender, _, rfl, ?_, ?_, .inl ⟨k, r, h.relaySender hup⟩⟩
    · rw [Delivery.step, hup]
      exact if_neg (by simp [h.unblocked])
    · simp only [work, hup, List.length_append, List.length_cons, List.length_nil]
      omega
  · obtain ⟨m, rest, hup⟩ := List.exists_cons_of_ne_nil hbusy
    refine ⟨.relayReceiver, _, rfl, ?_, ?_, .inl ⟨k, r, h.relayReceiver hup⟩⟩
    · rw [Delivery.step, hup]
    · simp only [work, hup, List.length_append, List.length_cons, List.length_nil]
      omega

theorem Flow.advance_heard {x : State} {k r : Nat} (h : Flow a x .opened k r) (hx : Inv a x)
    (hbusy : x.sndDown ≠ []) : Advances a x := by
  obtain ⟨m, rest, hdown⟩ := List.exists_cons_of_ne_nil hbusy
  obtain ⟨j, hj, -⟩ := h.acks
  rw [State.path, hdown] at hj
  obtain ⟨rfl, -⟩ := hj.head
  obtain ⟨⟨t, out⟩, hstep⟩ : ∃ r, SendFile.step a x.snd
      (.message (.chunkAck (some ⟨some a.fileId.hex, (j : Int)⟩))) = some r := by
    simp only [SendFile.step, h.sender.unclosed]
    cases x.snd.listening <;> exact ⟨_, rfl⟩
  have hst := SendFile.step_spec hx.sender hstep
  obtain ⟨rfl, hend⟩ := h.toSender hx hdown hst
  refine ⟨.toSender, { x with snd := t, sndUp := x.sndUp ++ [], sndDown := rest }, rfl, ?_, ?_,
    hend.imp_left fun hflow => ⟨k, r, hflow⟩⟩
  · rw [Delivery.step, hdown]
    change stepSender a x (.message (.chunkAck _)) rest = _
    rw [stepSender, hstep]
    rfl
  · have := heard_work hst
    simp only [work, hdown, List.append_nil, List.length_cons]
    omega

/-- Nothing is on its way: the sender does not wait, since it has heard of
every chunk it has sent. -/
theorem Flow.advance_sender {x : State} {k r : Nat} (h : Flow a x .opened k r) (hx : Inv a x)
    (hp : Poised a x.snd) (hrun : x.rcv.running = none) (hstream : x.stream = [])
    (hpath : x.path = []) : Advances a x := by
  have hs := h.sender
  -- nothing is ahead: the receiver has taken all that was sent
  obtain ⟨hun, hsent⟩ : unsent x.snd.pc = false ∧ k = sentCount a x.snd.pc := by
    have hahead := h.ahead
    rw [hstream] at hahead
    cases hahead with
    | taken _ _ _ hun _ hl => exact ⟨hun, hl.of_nil⟩
  -- its chain rests: it has acked all that it took
  obtain ⟨hkr, hlt⟩ : k = r ∧ (r < a.file.totalChunks ∨ r = a.file.totalChunks) := by
    have hstage := h.stage
    cases hstage with
    | between c hcur _ => exact ⟨rfl, .inl (hx.progress.receiving c hcur).inRange⟩
    | within _ _ _ hrun' => simp [hrun] at hrun'
    | ended => exact ⟨rfl, .inr rfl⟩
  -- no ack is on its way: the sender knows
  have hacked : x.snd.ackedUpTo = (r : Int) - 1 := by
    obtain ⟨j, hj, hacked⟩ := h.acks
    rw [hpath] at hj
    rw [hacked, hj.of_nil]
  have own {e : SendFile.Event} {t : SendFile.State} {out : List Message}
      (hst : SendFile.Steps a x.snd e t out) (he : ∀ env, e ≠ .message env) (hclose : e ≠ .close)
      (hns : t.isSettled = false) (hab : t.aborted = none) :
      Flow a { x with snd := t, sndUp := x.sndUp ++ out } .opened k r :=
    (h.own hx hst he hclose).resolve_right fun hend => by simp [hns, hab] at hend
  cases hpc : x.snd.pc with
  | derivingKey | encryptingMeta => simp [hpc, unsent] at hun
  | windowWait i =>
      -- so the window is not full, and no ack is missing
      have hfull := hp.window i hpc
      rw [hpc] at hsent
      simp only [sentCount] at hsent
      simp only [WINDOW_SIZE] at hfull
      omega
  | ackWait =>
      have hmissing := hp.acks hpc
      rw [hpc] at hsent
      simp only [sentCount] at hsent
      omega
  | settled o => simpa [SendFile.State.isSettled, hpc] using hs.going
  | readingSlice i =>
      have hi : i < a.file.totalChunks := by
        have hindex := hx.sender.index
        rwa [hpc] at hindex
      have hst : SendFile.Steps a x.snd (.sliceRead none)
          { x.snd with pc := .encryptingChunk i (a.file.chunk i) } [] := .sliceRead i hpc
      refine ⟨.sender (.sliceRead none), _, rfl, ?_, ?_,
        .inl ⟨k, r, own hst (by simp) (by simp) rfl hs.aborted⟩⟩
      · simp [Delivery.step, stepSender, SendFile.step, hpc, SendFile.onSliceRead]
      · simp only [work, hpc, senderWork, List.append_nil]
        omega
  | encryptingChunk i p =>
      have hi : i < a.file.totalChunks := by
        have hindex := hx.sender.index
        rw [hpc] at hindex
        exact hindex.1
      have hkey := hx.sender.keyed_of_listening (by simp [SendFile.State.listening, hpc])
      have hlen : x.snd.fileKey.length = 32 := by
        rw [(deriveFileKey_eq_ok hkey).2.2, a.w.hkdf_length]
      obtain ⟨ciphertext, hc⟩ : ∃ ciphertext, encryptChunk a.w x.snd.fileKey a.fileId.bytes i
          (i = a.file.totalChunks - 1) p = .ok ciphertext :=
        ⟨_, encryptChunk_ok a.w hlen a.fileId i (i = a.file.totalChunks - 1) p⟩
      obtain ⟨⟨t, out⟩, hloop⟩ : ∃ r, SendFile.forTest a x.snd (i + 1) = r := ⟨_, rfl⟩
      have hl : SendFile.Lands a x.snd (i + 1) t out := by
        have hl := SendFile.forTest_lands a x.snd (i + 1)
        rwa [hloop] at hl
      have hst := SendFile.Steps.chunkSent i p hpc ciphertext hc t out hl
      have hwork := lands_work hl
      obtain ⟨hout, ht, hend⟩ := lands_undisturbed hl hs.aborted
      refine ⟨.sender (.chunkEncrypted none),
        { x with
          snd := t
          sndUp := x.sndUp ++ (x.snd.put (.binary (buildChunkFrame a.fileId i
            (i = a.file.totalChunks - 1) ciphertext)) ++ out) }, rfl, ?_, ?_, ?_⟩
      · simp only [Delivery.step, stepSender, SendFile.step, hpc, SendFile.onChunkEncrypted,
          settle, hc, hloop, Option.map_some]
      · have hbefore : senderWork a (.encryptingChunk i p) = 9 * (a.file.totalChunks - i) - 1 := rfl
        simp only [work, hpc, hbefore, hs.put, hout, List.append_nil, List.length_append,
          List.length_cons, List.length_nil]
        omega
      · rcases hend with hres | ⟨hns, -⟩
        · exact .inr hres
        · refine .inl ⟨k, r, own hst (by simp) (by simp) hns ?_⟩
          rw [ht]
          exact hs.aborted

/-- **Progress**: a transfer that goes on has a next step, or has ended well. -/
theorem Flow.advances {x : State} {k r : Nat} (h : Flow a x .opened k r) (hx : Inv a x)
    (hp : Poised a x.snd) : Advances a x := by
  by_cases hrcv : x.rcv.running ≠ none ∨ x.rcv.chain ≠ []
  · exact h.advance_receiver hx hrcv
  · by_cases hrelay : x.rcvDown ≠ [] ∨ x.sndUp ≠ [] ∨ x.rcvUp ≠ []
    · exact h.advance_relay hrelay
    · by_cases hdown : x.sndDown ≠ []
      · exact h.advance_heard hx hdown
      · simp only [not_or, not_not] at hrcv hrelay hdown
        refine h.advance_sender hx hp hrcv.1 ?_ ?_
        · rw [State.stream, hrcv.2, hrelay.1, hrelay.2.1]
          rfl
        · rw [State.path, hdown, hrelay.2.2]
          rfl

/-! ## Runs -/

/-- The invariant of the runs in which somebody may fail: whatever happened, what
is on its way lets the sender end. -/
structure Sound (a : SendArgs) (x : State) : Prop where
  inv : Inv a x
  poised : Poised a x.snd
  answered : Answered a x

theorem Sound.init (a : SendArgs) : Sound a Delivery.init where
  inv := .init a
  poised := .init a
  answered := .inr ⟨.unopened, 0, 0, .init a⟩

theorem poised_step {x y : State} {e : Event} (hx : Inv a x) (hp : Poised a x.snd)
    (hg : Excused a x e) (h : step a x e = some y) : Poised a y.snd := by
  cases e with
  | sender e =>
      cases e with
      | message => cases h
      | close => exact absurd rfl hg.1
      | keyDerived | metaEncrypted | sliceRead | chunkEncrypted | signalAbort =>
          obtain ⟨t, out, hst, rfl⟩ := stepSender_spec hx h
          exact hp.step hst hg.2 hg.1
  | toSender =>
      rw [step] at h
      split at h
      next env rest hdown =>
        obtain ⟨t, out, hst, rfl⟩ := stepSender_spec hx h
        exact hp.step hst (fun i hi => by cases hi) (by simp)
      next =>
        obtain rfl := Option.some.inj h
        exact hp
      next => cases h
  | receiver e =>
      cases e with
      | message | detach => cases h
      | start | resume | close | abortCurrent =>
          obtain ⟨t, out, -, rfl⟩ := stepReceiver_spec h
          exact hp
  | toReceiver =>
      rw [step] at h
      split at h
      next =>
        obtain ⟨t, out, -, rfl⟩ := stepReceiver_spec h
        exact hp
      next => cases h
  | relaySender =>
      rw [step] at h
      split at h
      next => split at h <;> (obtain rfl := Option.some.inj h; exact hp)
      next => cases h
  | relayReceiver =>
      rw [step] at h
      split at h
      next =>
        obtain rfl := Option.some.inj h
        exact hp
      next => cases h
  | sizeAbort =>
      obtain rfl := Option.some.inj h
      exact hp

theorem sound_step (x : State) (e : Event) (y : State) (hx : Sound a x) (hg : Excused a x e)
    (h : step a x e = some y) : Sound a y where
  inv := inv_step x e y hx.inv h
  poised := poised_step hx.inv hx.poised hg h
  answered := by
    rcases hx.answered with ⟨hun, hcan⟩ | ⟨ph, k, r, hflow⟩
    · exact .inl (cancelled_step hx.inv hun hcan h)
    · exact hflow.step hx.inv hg h

theorem Reaches.cons {x y z : State} {e : Event} (he : goesOn e = true) (h : step a x e = some y)
    (hr : Reaches a y z) : Reaches a x z := by
  obtain ⟨es, hes, hrun⟩ := hr
  refine ⟨e :: es, fun e' he' => ?_, (Transition.run_cons h es).trans hrun⟩
  rcases List.mem_cons.mp he' with rfl | he'
  · exact he
  · exact hes e' he'

/-- A step of a transfer that goes on is excused. -/
theorem Flow.excused {x : State} {k r : Nat} (h : Flow a x .opened k r) (hx : Inv a x) {e : Event}
    (he : goesOn e = true) : Excused a x e := by
  have roomy (e : SendFile.Event) : Roomy a x.snd e := fun i _ hab => by
    simp [h.sender.aborted] at hab
  unfold goesOn at he
  split at he
  case h_6 => exact fun task hrun hfail => .inl (h.fulfilled hx task hrun hfail)
  case h_11 => cases he
  all_goals first | trivial | exact ⟨by simp, roomy _⟩

/-- An opened transfer can be completed. -/
theorem Flow.reaches {x : State} {k r : Nat} (h : Flow a x .opened k r) (hx : Sound a x) :
    ∃ y, Reaches a x y ∧ y.snd.pc = .settled .resolved := by
  induction hw : work a x using Nat.strong_induction_on generalizing x k r with
  | _ w ih =>
      obtain ⟨e, y, he, hstep, hless, hflow | hres⟩ := h.advances hx.inv hx.poised
      · obtain ⟨k', r', hflow⟩ := hflow
        have hy := sound_step x e y hx (h.excused hx.inv he) hstep
        obtain ⟨z, hz, hend⟩ := ih (work a y) (hw ▸ hless) hflow hy rfl
        exact ⟨z, hz.cons he hstep, hend⟩
      · exact ⟨y, ⟨[e], by simpa using he, Transition.run_cons hstep []⟩, hres⟩

/-- A transfer that goes on although the receiver has given up is opened. -/
theorem Flow.opened_of_givenUp {x : State} {ph : Phase} {k r : Nat} (h : Flow a x ph k r)
    (hlog : GivenUp x.log) : ph = .opened := by
  have hstage := h.stage
  cases hstage with
  | unopened _ _ hno | opening _ _ _ _ hno => exact absurd hlog hno
  | between | within | ended => rfl

/-- An abort on its way reaches a sender that waits. -/
theorem not_deaf {x : State} (hx : Inv a x) (hp : Poised a x.snd) (hw : x.snd.waiting = true)
    (hab : x.path.any isAbort = true) (hdeaf : ∀ y, Reaches a x y → y.snd = x.snd) : False := by
  induction hn : 2 * x.rcvUp.length + x.sndDown.length using Nat.strong_induction_on
    generalizing x with
  | _ n ih =>
      -- a step after which the abort is still on its way, and nearer
      have nearer (e : Event) (y : State) (he : goesOn e = true) (hg : Excused a x e)
          (hstep : step a x e = some y) (hab : y.path.any isAbort = true)
          (hless : 2 * y.rcvUp.length + y.sndDown.length < n) : False := by
        have hsame : y.snd = x.snd := hdeaf y ⟨[e], by simpa using he, Transition.run_cons hstep []⟩
        exact ih _ hless (inv_step x e y hx hstep) (poised_step hx hp hg hstep) (by rw [hsame, hw])
          hab (fun z hz => (hdeaf z (hz.cons he hstep)).trans hsame.symm) rfl
      have hl := SendFile.listening_of_waiting hw
      cases hdown : x.sndDown with
      | nil =>
          cases hup : x.rcvUp with
          | nil => simp [State.path, hdown, hup] at hab
          | cons m rest =>
              -- the abort is relayed, or what lies before it is heard
              have hstep : step a x .relayReceiver
                  = some { x with rcvUp := rest, sndDown := x.sndDown ++ [m] } := by
                rw [step, hup]
              refine nearer .relayReceiver _ rfl trivial hstep (by simpa [State.path, hup] using hab) ?_
              simp [hup, hdown] at hn ⊢
              omega
      | cons m rest =>
          have hpath : x.path = m :: (rest ++ x.rcvUp) := by
            rw [State.path, hdown]
            rfl
          have hfrom := hx.path m (by rw [hpath]; exact List.mem_cons_self)
          obtain ⟨env, rfl⟩ : ∃ env, m = .text env := by
            rcases hfrom with ⟨reason, rfl⟩ | ⟨i, -, rfl⟩ <;> exact ⟨_, rfl⟩
          obtain ⟨⟨t, out⟩, hsend⟩ : ∃ r, SendFile.step a x.snd (.message env) = some r := by
            simp only [SendFile.step, hp.unclosed, hl]
            exact ⟨_, rfl⟩
          have hstep : step a x .toSender
              = some { x with snd := t, sndUp := x.sndUp ++ out, sndDown := rest } := by
            rw [step, hdown]
            change stepSender a x (.message env) rest = _
            rw [stepSender, hsend]
            rfl
          rw [hpath, List.any_cons, Bool.or_eq_true] at hab
          rcases hab with habort | hab
          · -- the abort is heard, and marks the call
            have hsame : t = x.snd :=
              hdeaf _ ⟨[.toSender], by simp [goesOn], Transition.run_cons hstep []⟩
            have hst := SendFile.step_spec hx.sender hsend
            have hnoted : (SendFile.noted x.snd (.message env)).aborted.isSome = true := by
              rcases hfrom with ⟨reason, henv⟩ | ⟨i, -, henv⟩
              · obtain rfl := Message.text.inj henv
                rfl
              · obtain rfl := Message.text.inj henv
                cases habort
            have hstopped := steps_stopped hst (.inr (.inr ⟨hl, hfrom.concerns, hnoted⟩))
            rw [hsame, hp.uncancelled hw, SendFile.not_settled_of_listening hl] at hstopped
            simp at hstopped
          · refine nearer .toSender _ rfl trivial hstep hab ?_
            simp only [hdown, List.length_cons] at hn
            change 2 * x.rcvUp.length + rest.length < n
            omega

/-- Unless a later step of it fails than the start of the file, every failure
of the receiver reaches the sender or leaves the file to be completed. -/
theorem sender_not_forsaken (a : SendArgs) (es : List Event) (x : State)
    (hg : Transition.Guarded (step a) (Excused a) init es)
    (hr : Transition.run (step a) init es = some x) :
    ((∃ msg, .onError msg ∈ x.log) → InFlight x.snd → AbortSent a x ∨ Completes a x) ∧
      ¬ Forsaken a x := by
  have hx := hg.invariant sound_step (.init a) hr
  refine ⟨fun ⟨msg, hmsg⟩ ⟨hns, hown⟩ => ?_, fun ⟨hlog, hw, hdeaf⟩ => ?_⟩
  · rcases hx.answered with ⟨-, hset | hab | hab⟩ | ⟨ph, k, r, hflow⟩
    · simp [hns] at hset
    · obtain ⟨⟨remote, reason⟩, hab⟩ := Option.isSome_iff_exists.mp hab
      cases remote with
      | false => exact absurd hab (hown reason)
      | true => exact .inl (.inl ⟨reason, hab⟩)
    · obtain ⟨m, hm, habort⟩ := List.any_eq_true.mp hab
      rcases hx.inv.path m hm with hm' | ⟨i, -, rfl⟩
      · exact .inl (.inr ⟨m, hm, hm'⟩)
      · cases habort
    · obtain rfl := hflow.opened_of_givenUp ⟨_, hmsg, rfl⟩
      obtain ⟨y, hy, hres⟩ := hflow.reaches hx
      refine .inr ⟨y, hy, hres, ?_⟩
      obtain ⟨es', -, hrun⟩ := hy
      refine delivered_of_resolved a (es ++ es') y ?_ hres
      rw [Transition.run_append, hr]
      exact hrun
  · rcases hx.answered with ⟨-, hset | hab | hab⟩ | ⟨ph, k, r, hflow⟩
    · simp [SendFile.not_settled_of_listening (SendFile.listening_of_waiting hw)] at hset
    · simp [hx.poised.uncancelled hw] at hab
    · exact not_deaf hx.inv hx.poised hw hab hdeaf
    · obtain rfl := hflow.opened_of_givenUp hlog
      obtain ⟨y, hy, hres⟩ := hflow.reaches hx
      rw [hdeaf y hy] at hres
      simp [SendFile.State.waiting, hres] at hw

/-! ## A one-byte file whose only chunk cannot be written -/

/-- The events of the one-byte transfer up to the promise of `onFileStart`, with
the only chunk already queued. -/
def tinyStart : List Event :=
  [.sender (.keyDerived none), .sender (.metaEncrypted none), .sender (.sliceRead none),
    .sender (.chunkEncrypted none), .relaySender, .relaySender, .toReceiver, .toReceiver,
    .receiver .start, .receiver (.resume none), .receiver (.resume none)]

/-- The run in which writing the only chunk fails, as it does on a full disk. -/
def brokenDisk : List Event :=
  tinyStart ++ [.receiver (.resume none), .receiver .start, .receiver (.resume none),
    .receiver (.resume (some "QuotaExceededError"))]

/-- Nothing is left to happen, and the sender waits for the last acknowledgement. -/
def isIdle (x : State) : Bool :=
  x.snd.pc = .ackWait && x.sndUp = [] && x.rcvDown = [] && x.rcvUp = [] && x.sndDown = [] &&
    x.rcv.chain = [] && x.rcv.running = none

theorem reaches_of_idle {x y : State} (h : isIdle x = true) (hr : Reaches a x y) : y = x := by
  obtain ⟨es, hes, hrun⟩ := hr
  cases es with
  | nil => exact (Option.some.inj hrun).symm
  | cons e es =>
      obtain ⟨z, hz, -⟩ := Transition.run_cons_inv hrun
      have he := hes e List.mem_cons_self
      simp only [isIdle, Bool.and_eq_true, decide_eq_true_eq] at h
      obtain ⟨⟨⟨⟨⟨⟨hpc, hup⟩, hdown⟩, hup'⟩, hdown'⟩, hchain⟩, hrunning⟩ := h
      unfold goesOn at he
      split at he <;>
        simp [step, stepSender, stepReceiver, SendFile.step, Receiver.step, hpc, hup, hdown, hup',
          hdown', hchain, hrunning] at hz he

/-- The write of a chunk is refused: the receiver reports it, and the sender
waits for good. -/
theorem failure_unheard : ∃ x,
    Transition.run (step SendFile.tinyArgs) init brokenDisk = some x ∧
      (∃ msg, .onError msg ∈ x.log) ∧ InFlight x.snd ∧
      ¬ AbortSent SendFile.tinyArgs x ∧ ¬ Completes SendFile.tinyArgs x ∧
      Forsaken SendFile.tinyArgs x := by
  have hrun : (Transition.run (step SendFile.tinyArgs) init brokenDisk).any
      (fun x => isIdle x && decide (.onError "QuotaExceededError" ∈ x.log)
        && decide (x.snd.aborted = none)) = true := by
    decide +kernel
  obtain ⟨x, hr, hx⟩ := (Option.any_eq_true _ _).mp hrun
  simp only [Bool.and_eq_true, decide_eq_true_eq] at hx
  obtain ⟨⟨hidle, hlog⟩, hab⟩ := hx
  have hidle' := hidle
  simp only [isIdle, Bool.and_eq_true, decide_eq_true_eq] at hidle'
  obtain ⟨⟨⟨⟨⟨⟨hpc, -⟩, -⟩, hup⟩, hdown⟩, -⟩, -⟩ := hidle'
  refine ⟨x, hr, ⟨_, hlog⟩, ⟨?_, by simp [hab]⟩, ?_, ?_, ⟨_, hlog, rfl⟩, ?_, fun y hy => ?_⟩
  · simp [SendFile.State.isSettled, hpc]
  · rintro (⟨reason, h⟩ | ⟨m, hm, -⟩)
    · simp [hab] at h
    · simp [State.path, hup, hdown] at hm
  · rintro ⟨y, hy, hres, -⟩
    rw [reaches_of_idle hidle hy, hpc] at hres
    cases hres
  · simp [SendFile.State.waiting, hpc]
  · rw [reaches_of_idle hidle hy]

/-- `onFileStart` fails instead, and the chunk is still received. -/
theorem sender_not_forsaken_tiny : ∃ x,
    Transition.run (step SendFile.tinyArgs) init
        (tinyStart ++ [.receiver (.resume (some "NotAllowedError"))]) = some x ∧
      (∃ msg, .onError msg ∈ x.log) ∧
      (AbortSent SendFile.tinyArgs x ∨ Completes SendFile.tinyArgs x) := by
  have hrun : (Transition.run (step SendFile.tinyArgs) init
      (tinyStart ++ [.receiver (.resume (some "NotAllowedError"))])).any
      (fun x => decide (.onError "NotAllowedError" ∈ x.log) && !x.snd.isSettled
        && decide (x.snd.aborted = none)) = true := by
    decide +kernel
  obtain ⟨x, hr, hx⟩ := (Option.any_eq_true _ _).mp hrun
  simp only [Bool.and_eq_true, decide_eq_true_eq, Bool.not_eq_true'] at hx
  obtain ⟨⟨hlog, hns⟩, hab⟩ := hx
  refine ⟨x, hr, ⟨_, hlog⟩, ?_⟩
  exact (sender_not_forsaken SendFile.tinyArgs _ x (by decide +kernel) hr).1 ⟨_, hlog⟩
    ⟨hns, by simp [hab]⟩

end Quicksend.Delivery
