import Quicksend.Lib.Simulation
import Quicksend.Delivery.Announced
import Quicksend.Server.Texts

/-!
# The same system in bytes

The two ends of a transfer write texts and the relay looks into each of them
before it passes it on. Reading the texts gives the messages that were meant,
and the relay takes none of them for one of its own: the system of bytes makes
the same runs as the system of messages.
-/

namespace Quicksend

/-- A frame on a socket: whether it is binary, and its bytes. -/
abbrev Wire := Bool × Bytes

/-- The frame that carries a message. A `file_abort` with a reason is the relay's,
marshalled there; what is `none` here is written by nobody. -/
def Message.onWire (rfc3339 : Time → String) : Message → Option Wire
  | .binary data => some (true, data)
  | .text (.fileMeta (some ⟨some fileId, some ciphertext⟩)) =>
      some (false, fileMetaText fileId ciphertext)
  | .text (.chunkAck (some ⟨some fileId, .ofNat ackedUpTo⟩)) =>
      some (false, chunkAckText fileId ackedUpTo)
  | .text (.fileAbort (some ⟨some fileId, none⟩)) => some (false, fileAbortText fileId)
  | .text (.fileAbort (some ⟨some fileId, some reason⟩)) =>
      some (false, (Control.fileAbort fileId reason).marshal rfc3339)
  | .text _ => none

/-- The message that a listener makes of a frame. -/
def readFrame (w : Wire) : Option Message :=
  if w.1 then some (.binary w.2) else (readEnvelope w.2).map .text

/-- What the two ends of a transfer put on their sockets. -/
inductive Written : Message → Prop where
  | fileMeta (fileId ciphertext : JSString) : Written (fileMetaMessage fileId ciphertext)
  | chunkAck (fileId : JSString) (ackedUpTo : Nat) : Written (chunkAckMessage fileId ackedUpTo)
  | fileAbort (fileId : JSString) : Written (fileAbortMessage fileId)
  | binary (data : Bytes) : Written (.binary data)

/-- What may arrive: also the relay's own `file_abort`. -/
def Arriving (m : Message) : Prop :=
  Written m ∨ ∃ fileId : FileId, m = sizeLimitAbortMessage fileId.hex

/-- The metadata as the two ends write and read it. -/
def jsonCodec : MetaCodec where
  encode := FileMeta.text
  decode := readMeta

/-! ## The wire of one message -/

/-- The relay has nothing to do with a text of these types but to pass it on. -/
theorem readIncoming_sendText {type : String} {payload : JSValue}
    (hdepth : Server.depth payload < Server.maxNestingDepth) (hend : type ≠ "end_session")
    (htoken : type ≠ "reconnect_token") :
    Server.readIncoming false (sendText type payload) = .other false (sendText type payload) := by
  rw [Server.readIncoming, if_neg Bool.false_ne_true, Server.controlType,
    Server.unmarshalEnvelope_sendText type hdepth, Option.map_some, Option.getD_some, if_neg hend,
    if_neg htoken]

theorem readFrame_text {data : Bytes} {env : Envelope} (h : readEnvelope data = some env) :
    readFrame (false, data) = some (.text env) := by
  rw [readFrame, if_neg Bool.false_ne_true, h, Option.map_some]

/-- What is known of a frame that one end of a transfer sends. -/
structure Relayed (rfc3339 : Time → String) (m : Message) (w : Wire) : Prop where
  carries : m.onWire rfc3339 = some w
  read : readFrame w = some m
  relayed : Server.readIncoming w.1 w.2 = .other w.1 w.2
  binary : w.1 = Delivery.isBinary m

theorem Written.relayed (rfc3339 : Time → String) {m : Message} (h : Written m) :
    ∃ w, Relayed rfc3339 m w := by
  cases h with
  | fileMeta fileId ciphertext =>
      refine ⟨(false, fileMetaText fileId ciphertext), rfl,
        readFrame_text (readEnvelope_fileMetaText fileId ciphertext), ?_, rfl⟩
      exact readIncoming_sendText (Server.depth_object_lt (by simp [Server.depth])) (by decide)
        (by decide)
  | chunkAck fileId ackedUpTo =>
      refine ⟨(false, chunkAckText fileId ackedUpTo), rfl,
        readFrame_text (readEnvelope_chunkAckText fileId ackedUpTo), ?_, rfl⟩
      exact readIncoming_sendText (Server.depth_object_lt (by simp [Server.depth])) (by decide)
        (by decide)
  | fileAbort fileId =>
      refine ⟨(false, fileAbortText fileId), rfl,
        readFrame_text (readEnvelope_fileAbortText fileId), ?_, rfl⟩
      exact readIncoming_sendText (Server.depth_object_lt (by simp [Server.depth])) (by decide)
        (by decide)
  | binary data => exact ⟨(true, data), rfl, rfl, rfl, rfl⟩

theorem readFrame_sizeLimit (rfc3339 : Time → String) (fileId : FileId) :
    readFrame (false, (Control.fileAbort fileId.hex FileAbortReasonSizeLimit).marshal rfc3339) =
      some (sizeLimitAbortMessage fileId.hex) :=
  readFrame_text (Control.readEnvelope_sizeLimit rfc3339 fileId)

theorem Arriving.framed (rfc3339 : Time → String) {m : Message} (h : Arriving m) :
    ∃ w, m.onWire rfc3339 = some w ∧ readFrame w = some m := by
  obtain h | ⟨fileId, rfl⟩ := h
  · obtain ⟨w, hw⟩ := h.relayed rfc3339
    exact ⟨w, hw.carries, hw.read⟩
  · exact ⟨_, rfl, readFrame_sizeLimit rfc3339 fileId⟩

namespace Delivery

/-! ## The system of bytes -/

/-- A state of the system, with bytes on its way. -/
structure Wired where
  snd : SendFile.State
  rcv : Receiver.State
  sndUp : List Wire
  rcvDown : List Wire
  rcvUp : List Wire
  sndDown : List Wire
  blocked : Bool
  log : List Receiver.Action

namespace Wired

/-- The call has just begun, the receiver has just been attached, and no leg has a
byte on it. -/
def init : Wired :=
  { snd := SendFile.init, rcv := Receiver.init, sndUp := [], rcvDown := [], rcvUp := [],
    sndDown := [], blocked := false, log := [] }

section
variable (rfc3339 : Time → String) (a : SendArgs)

/-- Let the call take a step, and put the bytes of what it sends on the leg to the
relay. -/
def stepSender (x : Wired) (e : SendFile.Event) (rest : List Wire) : Option Wired :=
  (SendFile.step a x.snd e).map fun r =>
    { x with
      snd := r.1, sndUp := x.sndUp ++ r.2.filterMap (Message.onWire rfc3339), sndDown := rest }

/-- Let the receiver take a step, and put the bytes of what it sends on its leg to
the relay. -/
def stepReceiver (x : Wired) (e : Receiver.Event) (rest : List Wire) : Option Wired :=
  (Receiver.step a.receiver x.rcv e).map fun r =>
    { x with
      rcv := r.1, rcvUp := x.rcvUp ++ (sends r.2).filterMap (Message.onWire rfc3339)
      rcvDown := rest, log := x.log ++ r.2 }

/-- The relay does something else with a text that is one of its own. -/
def step (x : Wired) : Event → Option Wired
  | .sender (.message _) => none
  | .sender e => stepSender rfc3339 a x e x.sndDown
  | .receiver (.message _) | .receiver .detach => none
  | .receiver e => stepReceiver rfc3339 a x e x.rcvDown
  | .toSender =>
      match x.sndDown with
      | w :: rest =>
          match readFrame w with
          | some (.text env) => stepSender rfc3339 a x (.message env) rest
          | some (.binary _) => some { x with sndDown := rest }
          | none => none
      | [] => none
  | .toReceiver =>
      match x.rcvDown with
      | w :: rest =>
          match readFrame w with
          | some m => stepReceiver rfc3339 a x (.message m) rest
          | none => none
      | [] => none
  | .relaySender =>
      match x.sndUp with
      | w :: rest =>
          match Server.readIncoming w.1 w.2 with
          | .other binary data =>
              if x.blocked && binary then some { x with sndUp := rest }
              else some { x with sndUp := rest, rcvDown := x.rcvDown ++ [(binary, data)] }
          | .endSession | .reconnectToken _ => none
      | [] => none
  | .relayReceiver =>
      match x.rcvUp with
      | w :: rest =>
          match Server.readIncoming w.1 w.2 with
          | .other binary data =>
              some { x with rcvUp := rest, sndDown := x.sndDown ++ [(binary, data)] }
          | .endSession | .reconnectToken _ => none
      | [] => none
  | .sizeAbort =>
      let notice := (false,
        (Control.fileAbort a.fileId.hex FileAbortReasonSizeLimit).marshal rfc3339)
      some { x with
        blocked := true, rcvDown := x.rcvDown ++ [notice], sndDown := x.sndDown ++ [notice] }

end

end Wired

variable (rfc3339 : Time → String) {a : SendArgs}

/-- The state whose messages are carried by frames. -/
def State.wired (x : State) : Wired where
  snd := x.snd
  rcv := x.rcv
  sndUp := x.sndUp.filterMap (Message.onWire rfc3339)
  rcvDown := x.rcvDown.filterMap (Message.onWire rfc3339)
  rcvUp := x.rcvUp.filterMap (Message.onWire rfc3339)
  sndDown := x.sndDown.filterMap (Message.onWire rfc3339)
  blocked := x.blocked
  log := x.log

/-! ## Only what has a frame is on its way -/

/-- What is on its way to the sender. -/
structure Answers (x : State) : Prop where
  rcvUp : ∀ m ∈ x.rcvUp, Written m
  sndDown : ∀ m ∈ x.sndDown, Arriving m

theorem Answers.init : Answers Delivery.init where
  rcvUp _ h := by cases h
  sndDown _ h := by cases h

theorem written_emits {m : Message} (h : SendFile.Emits a m) : Written m := by
  cases h with
  | fileMeta ciphertext => exact .fileMeta _ _
  | chunk i hi ciphertext => exact .binary _
  | fileAbort => exact .fileAbort _

theorem FromSender.arriving {m : Message} (h : FromSender a m) : Arriving m :=
  h.imp written_emits fun h => ⟨a.fileId, h⟩

theorem written_put {s : Receiver.State} {m m' : Message} (h : Written m)
    (hm : m' ∈ sends (s.put m)) : Written m' := by
  rw [sends_put] at hm
  split at hm
  · cases hm
  · exact List.mem_singleton.mp hm ▸ h

theorem written_sends {s t : Receiver.State} {out : List Receiver.Action} {e : Receiver.Event}
    (hst : Receiver.Steps a.receiver s e t out) : ∀ m ∈ sends out, Written m := by
  intro m hm
  cases hst with
  | chunkOrphaned key frame index plaintext hrun | chunkLast key frame index plaintext c hrun =>
      rw [sends_append] at hm
      change m ∈ sends (s.put _) ++ [] at hm
      rw [List.append_nil] at hm
      exact written_put (.chunkAck _ index) hm
  | chunkMore key frame index plaintext c hrun =>
      change m ∈ sends (s.put _) at hm
      exact written_put (.chunkAck _ index) hm
  | aborted c hcur =>
      rw [sends_append] at hm
      change m ∈ sends (s.put _) ++ [] at hm
      rw [List.append_nil] at hm
      exact written_put (.fileAbort _) hm
  | _ => cases hm

theorem Answers.receiver {x y : State} {e : Receiver.Event} {rest : List Message}
    (h : Answers x) (hs : Delivery.stepReceiver a x e rest = some y) : Answers y := by
  obtain ⟨t, out, hst, rfl⟩ := stepReceiver_spec hs
  exact ⟨fun m hm => (List.mem_append.mp hm).elim (h.rcvUp m) (written_sends hst m), h.sndDown⟩

theorem Answers.sender {x y : State} {e : SendFile.Event} {rest : List Message} (h : Answers x)
    (hrest : ∀ m ∈ rest, Arriving m) (hs : Delivery.stepSender a x e rest = some y) :
    Answers y := by
  obtain ⟨r, -, rfl⟩ := Option.map_eq_some_iff.mp hs
  exact ⟨h.rcvUp, hrest⟩

theorem answers_step {x y : State} {e : Event} (h : Answers x)
    (hs : Delivery.step a x e = some y) : Answers y := by
  have hdown := h.sndDown
  have hup := h.rcvUp
  cases e with
  | sender e =>
      cases e with
      | message => cases hs
      | keyDerived | metaEncrypted | sliceRead | chunkEncrypted | close | signalAbort =>
          exact h.sender hdown hs
  | receiver e =>
      cases e with
      | message | detach => cases hs
      | start | resume | close | abortCurrent => exact h.receiver hs
  | toSender =>
      rw [Delivery.step] at hs
      split at hs
      next env rest heq =>
        rw [heq] at hdown
        exact h.sender (fun m hm => hdown m (by simp [hm])) hs
      next data rest heq =>
        rw [heq] at hdown
        obtain rfl := Option.some.inj hs
        exact ⟨hup, fun m hm => hdown m (by simp [hm])⟩
      next => cases hs
  | toReceiver =>
      rw [Delivery.step] at hs
      split at hs
      next => exact h.receiver hs
      next => cases hs
  | relaySender =>
      rw [Delivery.step] at hs
      split at hs
      next =>
        split at hs
        all_goals
          obtain rfl := Option.some.inj hs
          exact ⟨hup, hdown⟩
      next => cases hs
  | relayReceiver =>
      rw [Delivery.step] at hs
      split at hs
      next m rest heq =>
        rw [heq] at hup
        obtain rfl := Option.some.inj hs
        refine ⟨fun m hm => hup m (by simp [hm]), fun m' hm' => ?_⟩
        obtain hm' | hm' := List.mem_append.mp hm'
        · exact hdown m' hm'
        · rw [List.mem_singleton.mp hm']
          exact .inl (hup m (by simp))
      next => cases hs
  | sizeAbort =>
      obtain rfl := Option.some.inj hs
      refine ⟨hup, fun m hm => ?_⟩
      obtain hm | hm := List.mem_append.mp hm
      · exact hdown m hm
      · exact .inr ⟨a.fileId, List.mem_singleton.mp hm⟩

/-! ## The same runs -/

variable (x : State)

theorem wired_stepSender (e : SendFile.Event) (rest : List Message) :
    Wired.stepSender rfc3339 a (x.wired rfc3339) e (rest.filterMap (Message.onWire rfc3339)) =
      (Delivery.stepSender a x e rest).map (State.wired rfc3339) := by
  rw [Wired.stepSender, Delivery.stepSender, Option.map_map]
  refine congrArg (fun f => Option.map f (SendFile.step a x.snd e)) (funext fun r => ?_)
  simp only [Function.comp_apply, State.wired, List.filterMap_append]

theorem wired_stepReceiver (e : Receiver.Event) (rest : List Message) :
    Wired.stepReceiver rfc3339 a (x.wired rfc3339) e (rest.filterMap (Message.onWire rfc3339)) =
      (Delivery.stepReceiver a x e rest).map (State.wired rfc3339) := by
  rw [Wired.stepReceiver, Delivery.stepReceiver, Option.map_map]
  refine congrArg (fun f => Option.map f (Receiver.step a.receiver x.rcv e)) (funext fun r => ?_)
  simp only [Function.comp_apply, State.wired, List.filterMap_append]

/-- The relay passes on what it could not take for its own. -/
theorem wired_relaySender (h : Announced a x) :
    Wired.step rfc3339 a (x.wired rfc3339) .relaySender =
      (Delivery.step a x .relaySender).map (State.wired rfc3339) := by
  have hup := h.sndUp
  rw [Delivery.step, Wired.step]
  cases hm : x.sndUp with
  | nil => simp only [State.wired, hm, List.filterMap_nil, Option.map_none]
  | cons m rest =>
      rw [hm] at hup
      obtain ⟨w, hw⟩ := (written_emits (hup m (by simp))).relayed rfc3339
      simp only [State.wired, hm, List.filterMap_cons_some hw.carries, hw.relayed, ← hw.binary]
      split
      · rfl
      · simp only [State.wired, Option.map_some, List.filterMap_append,
          List.filterMap_cons_some hw.carries, List.filterMap_nil]

theorem wired_relayReceiver (h : Answers x) :
    Wired.step rfc3339 a (x.wired rfc3339) .relayReceiver =
      (Delivery.step a x .relayReceiver).map (State.wired rfc3339) := by
  have hup := h.rcvUp
  rw [Delivery.step, Wired.step]
  cases hm : x.rcvUp with
  | nil => simp only [State.wired, hm, List.filterMap_nil, Option.map_none]
  | cons m rest =>
      rw [hm] at hup
      obtain ⟨w, hw⟩ := (hup m (by simp)).relayed rfc3339
      simp only [State.wired, hm, List.filterMap_cons_some hw.carries, hw.relayed, Option.map_some,
        List.filterMap_append, List.filterMap_nil]

theorem wired_toSender (h : Answers x) :
    Wired.step rfc3339 a (x.wired rfc3339) .toSender =
      (Delivery.step a x .toSender).map (State.wired rfc3339) := by
  have hdown := h.sndDown
  rw [Delivery.step, Wired.step]
  cases hm : x.sndDown with
  | nil => simp only [State.wired, hm, List.filterMap_nil, Option.map_none]
  | cons m rest =>
      rw [hm] at hdown
      obtain ⟨w, hcarries, hread⟩ := (hdown m (by simp)).framed rfc3339
      have hleg : (x.wired rfc3339).sndDown = w :: rest.filterMap (Message.onWire rfc3339) := by
        rw [State.wired, hm, List.filterMap_cons_some hcarries]
      cases m with
      | text env =>
          simp only [hleg, hread]
          exact wired_stepSender rfc3339 x (.message env) rest
      | binary data =>
          simp only [hleg, hread]
          rfl

theorem wired_toReceiver (h : Announced a x) :
    Wired.step rfc3339 a (x.wired rfc3339) .toReceiver =
      (Delivery.step a x .toReceiver).map (State.wired rfc3339) := by
  have hdown := h.rcvDown
  rw [Delivery.step, Wired.step]
  cases hm : x.rcvDown with
  | nil => simp only [State.wired, hm, List.filterMap_nil, Option.map_none]
  | cons m rest =>
      rw [hm] at hdown
      obtain ⟨w, hcarries, hread⟩ := (hdown m (by simp)).arriving.framed rfc3339
      have hleg : (x.wired rfc3339).rcvDown = w :: rest.filterMap (Message.onWire rfc3339) := by
        rw [State.wired, hm, List.filterMap_cons_some hcarries]
      simp only [hleg, hread]
      exact wired_stepReceiver rfc3339 x (.message m) rest

theorem wired_step (h : Announced a x) (h' : Answers x) (e : Event) :
    Wired.step rfc3339 a (x.wired rfc3339) e =
      (Delivery.step a x e).map (State.wired rfc3339) := by
  cases e with
  | sender e =>
      cases e with
      | message => rfl
      | keyDerived | metaEncrypted | sliceRead | chunkEncrypted | close | signalAbort =>
          exact wired_stepSender rfc3339 x _ x.sndDown
  | receiver e =>
      cases e with
      | message | detach => rfl
      | start | resume | close | abortCurrent => exact wired_stepReceiver rfc3339 x _ x.rcvDown
  | toSender => exact wired_toSender rfc3339 x h'
  | toReceiver => exact wired_toReceiver rfc3339 x h
  | relaySender => exact wired_relaySender rfc3339 x h
  | relayReceiver => exact wired_relayReceiver rfc3339 x h'
  | sizeAbort =>
      simp only [Wired.step, Delivery.step, State.wired, Option.map_some, List.filterMap_append]
      rfl

theorem wired_invariant_step (x : State) (e : Event) (y : State)
    (hx : Inv a x ∧ Announced a x ∧ Answers x) (hs : step a x e = some y) :
    Inv a y ∧ Announced a y ∧ Answers y :=
  ⟨inv_step x e y hx.1 hs, announced_step hx.2.1 hx.1 hs, answers_step hx.2.2 hs⟩

theorem wired_invariant {x : State} {es : List Event}
    (hr : Transition.run (step a) init es = some x) : Inv a x ∧ Announced a x ∧ Answers x :=
  Transition.invariant wired_invariant_step ⟨.init a, .init a, .init⟩ hr

theorem run_wired (a : SendArgs) (es : List Event) :
    Transition.run (Wired.step rfc3339 a) Wired.init es =
      (Transition.run (step a) init es).map (State.wired rfc3339) := by
  have hrun : Transition.run (Wired.step rfc3339 a) (init.wired rfc3339) (es.map id) =
      (Transition.run (step a) init es).map (State.wired rfc3339) :=
    Transition.run_map_of_invariant wired_invariant_step
      (fun x e hx => wired_step rfc3339 x hx.2.1 hx.2.2 e) ⟨.init a, .init a, .init⟩ es
  rwa [List.map_id] at hrun

/-- Frames on their way are read as the messages that they carry. -/
theorem read_legs {l : List Message} (h : ∀ m ∈ l, Arriving m) :
    (l.filterMap (Message.onWire rfc3339)).map readFrame = l.map some := by
  induction l with
  | nil => rfl
  | cons m l ih =>
      obtain ⟨w, hcarries, hread⟩ := (h m (by simp)).framed rfc3339
      rw [List.filterMap_cons_some hcarries, List.map_cons, List.map_cons, hread,
        ih fun m hm => h m (by simp [hm])]

/-- **The system of bytes makes the runs of the system of messages**: the relay
takes no text for a control message, and what is on its way is read, frame by
frame, as the messages that were meant. -/
theorem bytes_make_messages (a : SendArgs) (es : List Event) :
    Transition.run (Wired.step rfc3339 a) Wired.init es =
      (Transition.run (step a) init es).map (State.wired rfc3339) ∧
    ∀ x, Transition.run (step a) init es = some x →
      (x.wired rfc3339).sndUp.map readFrame = x.sndUp.map some ∧
        (x.wired rfc3339).rcvDown.map readFrame = x.rcvDown.map some ∧
        (x.wired rfc3339).rcvUp.map readFrame = x.rcvUp.map some ∧
        (x.wired rfc3339).sndDown.map readFrame = x.sndDown.map some := by
  refine ⟨run_wired rfc3339 a es, fun x hx => ?_⟩
  obtain ⟨-, hann, hans⟩ := wired_invariant hx
  exact ⟨read_legs rfc3339 fun m hm => .inl (written_emits (hann.sndUp m hm)),
    read_legs rfc3339 fun m hm => (hann.rcvDown m hm).arriving,
    read_legs rfc3339 fun m hm => .inl (hans.rcvUp m hm), read_legs rfc3339 hans.sndDown⟩

/-- With the label cipher and the metadata as it is written. -/
def tinyWired : SendArgs := { SendFile.tinyArgs with codec := jsonCodec }

theorem bytes_make_messages_tiny : ∃ x,
    Transition.run (step tinyWired) init tinyEvents = some x ∧
      Transition.run (Wired.step (fun _ => "") tinyWired) Wired.init tinyEvents =
        some (x.wired fun _ => "") := by
  have hrun : (Transition.run (step tinyWired) init tinyEvents).isSome = true := by
    decide +kernel
  obtain ⟨x, hx⟩ := Option.isSome_iff_exists.mp hrun
  exact ⟨x, hx, by rw [(bytes_make_messages _ tinyWired tinyEvents).1, hx]; rfl⟩

/-! ## The file arrives under its name -/

/-- **What arrives is the file, under its name**: in any run of the system of
bytes the receiver announces no other file, and announces it with its name,
size and type before it is complete; and when `sendFile` resolves, exactly its
bytes have been written. -/
theorem file_arrives (a : SendArgs) (hcodec : a.codec = jsonCodec) {es : List Event} {y : Wired}
    (hr : Transition.run (Wired.step rfc3339 a) Wired.init es = some y) :
    (∀ id info, .onFileStart id info ∈ y.log → id = a.fileId.hex ∧ info = a.file.toMeta) ∧
      (∀ id, .onFileComplete id ∈ y.log → .onFileStart id a.file.toMeta ∈ y.log) ∧
      (y.snd.pc = .settled .resolved → Delivered a y.log) := by
  rw [run_wired] at hr
  obtain ⟨x, hx, rfl⟩ := Option.map_eq_some_iff.mp hr
  obtain ⟨hinv, hann, -⟩ := wired_invariant hx
  have hinfo : ∀ id info, .onFileStart id info ∈ x.log → id = a.fileId.hex ∧ info = a.file.toMeta := by
    intro id info hmem
    obtain ⟨hid, hdecode⟩ := hann.receiver.info id info hmem
    rw [hcodec] at hdecode
    exact ⟨hid, Option.some.inj (hdecode.symm.trans (readMeta_text a.file.toMeta))⟩
  refine ⟨hinfo, fun id hmem => ?_, fun hres => (hinv.finished (.inl hres)).delivered⟩
  obtain ⟨info, hstart⟩ := hann.receiver.complete id hmem
  exact (hinfo id info hstart).2 ▸ hstart

theorem file_arrives_tiny : ∃ y : Wired,
    y.snd.pc = .settled .resolved ∧ Delivered tinyWired y.log := by
  have hrun : (Transition.run (step tinyWired) init tinyEvents).any
      (fun x => decide (x.snd.pc = .settled .resolved)) = true := by
    decide +kernel
  obtain ⟨x, hx, hres⟩ := (Option.any_eq_true _ _).mp hrun
  have hy : Transition.run (Wired.step (fun _ => "") tinyWired) Wired.init tinyEvents =
      some (x.wired fun _ => "") := by
    rw [run_wired, hx]
    rfl
  exact ⟨_, of_decide_eq_true hres,
    (file_arrives _ tinyWired rfl hy).2.2 (of_decide_eq_true hres)⟩

end Delivery

end Quicksend
