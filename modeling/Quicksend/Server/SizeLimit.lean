import Quicksend.SendFile.Window
import Quicksend.Server.Frames
import Quicksend.Server.Accounting
import Mathlib.Data.List.Intervals

/-!
# The size limit at the relay

One `sendFile` call, the relay, and a connected peer that acks every chunk
frame; nobody cancels. The relay counts the frames of the file as they are on
the wire, so each chunk counts 42 bytes more than it has: 26 of the header and
16 of the tag.
-/

namespace Quicksend

open SendFile (canonicalFrame firstFrames canonicalFrames chunkFrames fileKeyOf)

/-! ## The bytes on the wire -/

/-- AES-GCM appends a tag of 16 bytes, so a ciphertext is that much longer than
its plaintext. -/
def WebCrypto.Tagged (w : WebCrypto) : Prop :=
  ∀ key iv aad plaintext, (w.aesGcmEncrypt key iv aad plaintext).length = plaintext.length + 16

theorem buildChunkFrame_length (fileId : FileId) (index : Nat) (isLast : Bool) (ciphertext : Bytes) :
    (buildChunkFrame fileId index isLast ciphertext).length = 26 + ciphertext.length := by
  simp only [buildChunkFrame, List.length_cons, List.length_append, fileId.length_eq,
    beBytes_length]
  omega

/-- The bytes of the first `k` frames together, which is what the relay has
counted after them. -/
def wireBytes (a : SendArgs) (k : Nat) : Nat := ((firstFrames a k).map List.length).sum

theorem wireBytes_succ (a : SendArgs) (k : Nat) :
    wireBytes a (k + 1) = wireBytes a k + (canonicalFrame a k).length := by
  rw [wireBytes, SendFile.firstFrames_succ, List.map_append, List.sum_append, wireBytes]
  rfl

theorem wireBytes_mono (a : SendArgs) {k n : Nat} (h : k ≤ n) : wireBytes a k ≤ wireBytes a n := by
  induction h with
  | refl => exact le_rfl
  | step _ ih => exact ih.trans (by rw [wireBytes_succ]; exact Nat.le_add_right _ _)

theorem wireBytes_eq {a : SendArgs} (hw : a.w.Tagged) (k : Nat) :
    wireBytes a k = (a.file.bytes.take (k * CHUNK_SIZE)).length + 42 * k := by
  induction k with
  | zero => simp [wireBytes, firstFrames]
  | succ k ih =>
      have hframe : (canonicalFrame a k).length = 42 + (a.file.chunk k).length := by
        rw [canonicalFrame, buildChunkFrame_length, hw]
        omega
      have htake : a.file.bytes.take ((k + 1) * CHUNK_SIZE) =
          a.file.bytes.take (k * CHUNK_SIZE) ++ a.file.chunk k := by
        rw [Nat.succ_mul, List.take_add, a.file.chunk_eq]
      rw [wireBytes_succ, ih, hframe, htake, List.length_append]
      omega

/-- The whole file: its size, and 42 bytes for each chunk. -/
theorem wireBytes_file {a : SendArgs} (hw : a.w.Tagged) :
    wireBytes a a.file.totalChunks = a.file.size + 42 * a.file.totalChunks := by
  rw [wireBytes_eq hw, List.take_of_length_le a.file.size_le]
  rfl

namespace Server.SizeLimit

/-- The call, the text of an envelope, the sender's place in its session, and the
two connections. -/
structure Link where
  args : SendArgs
  stringify : Envelope → Bytes
  slot : Slot
  conn : Role → ConnId

/-- The slot of the other side, which the sender's frames are forwarded to. -/
def Link.peer (l : Link) : Slot := { l.slot with role := l.slot.role.other }

/-- The call, the hub, the four legs between sender, relay and peer, and what the
relay has done to connections. -/
structure State where
  snd : SendFile.State
  hub : Hub
  /-- From the sender to the relay, and from there to the peer. -/
  up : List Message
  down : List Message
  /-- From the peer to the relay, and from there to the sender. -/
  acks : List Message
  back : List Message
  /-- What the relay has done to connections. -/
  effects : List Effect

/-- The call has just begun, all four legs are empty, and the relay has sent and
closed nothing. -/
def init (hub : Hub) : State :=
  { snd := SendFile.init, hub := hub, up := [], down := [], acks := [], back := [], effects := [] }

/-- `work`: what the call awaits succeeds. `relaySender` and `relayPeer`: the
relay handles the next message of a side. `peer` and `deliver`: the next message
arrives at the peer, and at the call. -/
inductive Event where
  | work
  | relaySender (now : Time)
  | peer
  | relayPeer (now : Time)
  | deliver
  deriving DecidableEq

/-- The event that settles what the call awaits. -/
def workEvent : SendFile.Pc → Option SendFile.Event
  | .derivingKey => some (.keyDerived none)
  | .encryptingMeta => some (.metaEncrypted none)
  | .readingSlice _ => some (.sliceRead none)
  | .encryptingChunk _ _ => some (.chunkEncrypted none)
  | .windowWait _ | .ackWait | .settled _ => none

/-- What the end of a connection reads of a frame. The relay copies texts, so that
one which it passes on is what was written, `env`. -/
def arrived (env : Envelope) : Frame → Message
  | .relayed true data => .binary data
  | .relayed false _ => .text env
  | .control (.fileAbort fileID reason) => .text (.fileAbort (some ⟨some fileID, some reason⟩))
  | .control _ => .text .other

/-- What arrives on a connection when the relay carries these effects out, as the
transfer code reads it. -/
def inbox (env : Envelope) (conn : ConnId) (effects : List Effect) : List Message :=
  effects.filterMap fun
    | .send c frame => if c = conn then some (arrived env frame) else none
    | .close _ _ => none

/-- The binary frames that were relayed to a connection. -/
def relayedTo (conn : ConnId) (effects : List Effect) : List Bytes :=
  effects.filterMap fun
    | .send c (.relayed true data) => if c = conn then some data else none
    | _ => none

/-- The peer acknowledges every chunk frame that it can parse, and nothing else. -/
def ackOf : Message → List Message
  | .binary data =>
      match parseChunkFrame data with
      | some frame => [chunkAckMessage (toHex frame.fileId.bytes) frame.index]
      | none => []
  | .text _ => []

section
variable (l : Link)

/-- Let the call take a step; what it sends joins the leg to the relay. -/
def sender (x : State) (e : SendFile.Event) : Option State :=
  (SendFile.step l.args x.snd e).map fun r => { x with snd := r.1, up := x.up ++ r.2 }

/-- The relay has handled a message, with this hub and these effects. -/
def State.handled (x : State) (env : Envelope) (r : Hub × List Effect) : State :=
  { x with
    hub := r.1
    down := x.down ++ inbox env (l.conn l.peer.role) r.2
    back := x.back ++ inbox env (l.conn l.slot.role) r.2
    effects := x.effects ++ r.2 }

/-- The relay's handler for a slot reads a message. -/
def relay (x : State) (slot : Slot) (m : Message) (now : Time) : State :=
  match m with
  | .binary data => x.handled l .other (x.hub.Relay slot true data now)
  | .text env => x.handled l env (x.hub.Relay slot false (l.stringify env) now)

/-- The call goes on, or the first message of one of the four legs is taken: by
the relay, the peer or the call. -/
def step (x : State) : Event → Option State
  | .work => (workEvent x.snd.pc).bind (sender l x)
  | .relaySender now =>
      match x.up with
      | m :: rest => some (relay l { x with up := rest } l.slot m now)
      | [] => none
  | .peer =>
      match x.down with
      | m :: rest => some { x with down := rest, acks := x.acks ++ ackOf m }
      | [] => none
  | .relayPeer now =>
      match x.acks with
      | m :: rest => some (relay l { x with acks := rest } l.peer m now)
      | [] => none
  | .deliver =>
      match x.back with
      | .text env :: rest => sender l { x with back := rest } (.message env)
      | .binary _ :: rest => some { x with back := rest }
      | [] => none

/-- The relay's notice about this file has gone to the end with this role. -/
def NoticeTo (x : State) (role : Role) : Prop :=
  sendEnvelope (l.conn role) (.fileAbort l.args.fileId.hex FileAbortReasonSizeLimit) ∈ x.effects

instance (x : State) (role : Role) : Decidable (NoticeTo l x role) :=
  inferInstanceAs (Decidable (_ ∈ _))

/-- The chunk frames that went on to the peer. -/
def forwarded (x : State) : List Bytes :=
  relayedTo (l.conn l.peer.role) x.effects

/-- The session as the call finds it: both ends connected, and the file new. -/
structure Ready (hub : Hub) (s : Session) : Prop where
  session : hub.heap[l.slot.ref]? = some s
  conns : ∀ role, s.connOf role = some (l.conn role)
  distinct : l.conn .host ≠ l.conn .guest
  fresh : ∀ c, s.currentFile = some c → c.fileID ≠ l.args.fileId

end

/-! ## What the relay does with a message -/

/-- The bytes counted for a file so far. -/
def counted (s : Session) (id : FileId) : Nat :=
  match s.currentFile with
  | some c => if c.fileID = id then c.bytesSoFar else 0
  | none => 0

/-- The relay has blocked this file: it counts frames under this id, and they are
over the limit. -/
def blockedFor (s : Session) (id : FileId) : Bool :=
  match s.currentFile with
  | some c => c.fileID = id && c.blocked
  | none => false

/-- The next frame of a file that is not blocked. -/
theorem recordChunkBytes_open (maxSize : Int) {s : Session} {frame : Bytes} {id : FileId}
    {isLast : Bool} (hheader : Session.chunkHeader frame = some (id, isLast))
    (hopen : blockedFor s id = false) :
    ∃ t, s.recordChunkBytes frame maxSize =
        (t, some id, false, decide (maxSize < (counted s id + frame.length : Nat))) ∧
      ((counted s id + frame.length : Nat) ≤ maxSize → isLast = false →
        blockedFor t id = false ∧ counted t id = counted s id + frame.length) := by
  -- the count of a file that is not the current one starts afresh
  have hcurrent : ∃ c : CurrentFileState, c.fileID = id ∧ c.blocked = false ∧
      c.bytesSoFar = counted s id ∧ s.recordChunkBytes frame maxSize =
        if ((c.bytesSoFar + frame.length : Nat) : Int) > maxSize then
          ({ s with currentFile := some { c with
              bytesSoFar := c.bytesSoFar + frame.length, blocked := true } }, some id, false, true)
        else if isLast then ({ s with currentFile := none }, some id, false, false)
        else ({ s with currentFile := some { c with
            bytesSoFar := c.bytesSoFar + frame.length } }, some id, false, false) := by
    rw [Session.recordChunkBytes, hheader]
    dsimp only
    rw [blockedFor] at hopen
    rw [counted]
    cases hfile : s.currentFile with
    | none => exact ⟨⟨id, false, 0⟩, rfl, rfl, rfl, rfl⟩
    | some c =>
        rw [hfile] at hopen
        by_cases hid : c.fileID = id
        · have hblocked : c.blocked = false := by simpa [hid] using hopen
          refine ⟨c, hid, hblocked, (if_pos hid).symm, ?_⟩
          simp only [hid, if_true, hblocked, Bool.false_eq_true, if_false]
        · refine ⟨⟨id, false, 0⟩, rfl, rfl, (if_neg hid).symm, ?_⟩
          simp only [hid, if_false, Bool.false_eq_true]
  obtain ⟨c, hid, hblocked, hbytes, hrecord⟩ := hcurrent
  rw [hrecord, hbytes]
  by_cases hover : ((counted s id + frame.length : Nat) : Int) > maxSize
  · rw [if_pos hover, decide_eq_true hover]
    exact ⟨_, rfl, fun hle => absurd hover (not_lt.mpr hle)⟩
  · rw [if_neg hover, decide_eq_false hover]
    cases isLast with
    | true => exact ⟨_, rfl, fun _ h => by cases h⟩
    | false =>
        refine ⟨_, rfl, fun _ _ => ⟨?_, ?_⟩⟩
        · simp [blockedFor, hblocked]
        · simp [counted, hid]

variable {l : Link} {x y : State} {s : Session}

/-- Both ends are connected to this session, by the connections that the link
names. -/
structure Wired (l : Link) (hub : Hub) (s : Session) : Prop where
  session : hub.heap[l.slot.ref]? = some s
  conns : ∀ role, s.connOf role = some (l.conn role)

theorem Wired.set {hub : Hub} (h : Wired l hub s) {t : Session}
    (ht : t.connAndIP = s.connAndIP) : Wired l (hub.setSession l.slot.ref t) t where
  session := by
    obtain ⟨hlt, -⟩ := List.getElem?_eq_some_iff.mp h.session
    exact List.getElem?_set_self hlt
  conns role := by
    rw [← h.conns role, Session.connOf, Session.connOf, ht]

/-- The notices of `abortOversizedFile` when both ends are connected, the host's
first. -/
def notices (l : Link) (id : FileId) : List Effect :=
  [Role.host, Role.guest].map fun role =>
    sendEnvelope (l.conn role) (.fileAbort id.hex FileAbortReasonSizeLimit)

theorem abortOversizedFile_eq (hconns : ∀ role, s.connOf role = some (l.conn role)) (id : FileId) :
    Hub.abortOversizedFile s id = notices l id := by
  simp only [Hub.abortOversizedFile, notices, hconns, Option.map_some, List.filterMap_cons,
    List.filterMap_nil, List.map_cons, List.map_nil]

theorem Relay_text {hub : Hub} (h : Wired l hub s) (slot : Slot) (hslot : slot.ref = l.slot.ref)
    (data : Bytes) (now : Time) :
    hub.Relay slot false data now = (hub.setSession l.slot.ref (s.touch now),
      [.send (l.conn slot.role.other) (.relayed false data)]) := by
  rw [Hub.Relay_text slot (by rw [hslot]; exact h.session), hslot, h.conns]
  rfl

/-- A binary frame is counted, and dropped or relayed, the latter perhaps with
the notices. -/
theorem Relay_binary {hub : Hub} (h : Wired l hub s) (data : Bytes) (now : Time) {t : Session}
    {id : Option FileId} {drop sendAbort : Bool}
    (hrecord : (s.touch now).recordChunkBytes data hub.cfg.MaxFileSize = (t, id, drop, sendAbort)) :
    t.connAndIP = s.connAndIP ∧
      hub.Relay l.slot true data now = (hub.setSession l.slot.ref t,
        if drop then [] else .send (l.conn l.peer.role) (.relayed true data) ::
          match id with
          | some id => if sendAbort then notices l id else []
          | none => []) := by
  have ht : t.connAndIP = s.connAndIP := by
    have hspec := ((s.touch now).recordChunkBytes_spec data hub.cfg.MaxFileSize).2
    rwa [hrecord] at hspec
  have hconns (role : Role) : t.connOf role = some (l.conn role) := by
    rw [← h.conns role, Session.connOf, Session.connOf, ht]
  refine ⟨ht, ?_⟩
  rw [Hub.Relay_binary l.slot h.session hrecord, hconns]
  cases id with
  | none => rfl
  | some id =>
      dsimp only
      rw [abortOversizedFile_eq hconns]
      rfl

theorem conn_inj (hne : l.conn .host ≠ l.conn .guest) {role role' : Role} :
    l.conn role = l.conn role' ↔ role = role' := by
  refine ⟨fun h => ?_, congrArg l.conn⟩
  cases role <;> cases role' <;> first | rfl | exact absurd h hne | exact absurd h.symm hne

theorem inbox_send (env : Envelope) (c c' : ConnId) (frame : Frame) (es : List Effect) :
    inbox env c (.send c' frame :: es) =
      (if c' = c then [arrived env frame] else []) ++ inbox env c es := by
  rw [inbox, List.filterMap_cons]
  split <;> simp_all [inbox]

theorem inbox_notices (hne : l.conn .host ≠ l.conn .guest) (env : Envelope) (role : Role)
    (id : FileId) : inbox env (l.conn role) (notices l id) = [sizeLimitAbortMessage id.hex] := by
  rw [notices, List.map_cons, List.map_cons, sendEnvelope, sendEnvelope, inbox_send, inbox_send]
  simp only [conn_inj hne]
  cases role <;> rfl

/-- What arrives of a message that goes to one end. -/
theorem inbox_to (hne : l.conn .host ≠ l.conn .guest) (env : Envelope) (role role' : Role)
    (frame : Frame) : inbox env (l.conn role) [.send (l.conn role') frame] =
      if role' = role then [arrived env frame] else [] := by
  rw [inbox_send]
  simp only [conn_inj hne]
  exact List.append_nil _

theorem relayedTo_append (c : ConnId) (es es' : List Effect) :
    relayedTo c (es ++ es') = relayedTo c es ++ relayedTo c es' :=
  List.filterMap_append

theorem relayedTo_text (c c' : ConnId) (data : Bytes) :
    relayedTo c [.send c' (.relayed false data)] = [] := rfl

theorem relayedTo_binary (c : ConnId) (data : Bytes) :
    relayedTo c [.send c (.relayed true data)] = [data] := by
  simp [relayedTo]

theorem Link.peer_ne (l : Link) : l.peer.role ≠ l.slot.role := Role.other_ne _

/-- The relay passes a text of the sender on. -/
theorem relay_text_sender (h : Wired l x.hub s) (hne : l.conn .host ≠ l.conn .guest)
    (env : Envelope) (now : Time) :
    relay l x l.slot (.text env) now = { x with
      hub := x.hub.setSession l.slot.ref (s.touch now)
      down := x.down ++ [.text env]
      effects := x.effects ++
        [.send (l.conn l.peer.role) (.relayed false (l.stringify env))] } := by
  have hpeer := inbox_to hne env l.peer.role l.peer.role (.relayed false (l.stringify env))
  have hself := inbox_to hne env l.slot.role l.peer.role (.relayed false (l.stringify env))
  rw [if_pos rfl, arrived] at hpeer
  rw [if_neg l.peer_ne] at hself
  have hother : l.slot.role.other = l.peer.role := rfl
  simp only [relay, State.handled, Relay_text h l.slot rfl, hother, hpeer, hself, List.append_nil]

/-- And a text of the peer. -/
theorem relay_text_peer (h : Wired l x.hub s) (hne : l.conn .host ≠ l.conn .guest)
    (env : Envelope) (now : Time) :
    relay l x l.peer (.text env) now = { x with
      hub := x.hub.setSession l.slot.ref (s.touch now)
      back := x.back ++ [.text env]
      effects := x.effects ++
        [.send (l.conn l.slot.role) (.relayed false (l.stringify env))] } := by
  have hpeer := inbox_to hne env l.peer.role l.slot.role (.relayed false (l.stringify env))
  have hself := inbox_to hne env l.slot.role l.slot.role (.relayed false (l.stringify env))
  rw [if_neg l.peer_ne.symm] at hpeer
  rw [if_pos rfl, arrived] at hself
  have hother : l.peer.role.other = l.slot.role := Role.other_other _
  simp only [relay, State.handled, Relay_text h l.peer rfl, hother, hpeer, hself, List.append_nil]

/-- The relay counts a frame of the sender, and passes it on unless the file is
blocked; when it is the frame that exceeds the limit, both ends get the notice. -/
theorem relay_binary_sender (h : Wired l x.hub s) (hne : l.conn .host ≠ l.conn .guest)
    (data : Bytes) (now : Time) {t : Session} {id : FileId} {drop sendAbort : Bool}
    (hrecord : (s.touch now).recordChunkBytes data x.hub.cfg.MaxFileSize =
      (t, some id, drop, sendAbort)) :
    Wired l (x.hub.setSession l.slot.ref t) t ∧
      relay l x l.slot (.binary data) now =
        if drop then { x with hub := x.hub.setSession l.slot.ref t }
        else { x with
          hub := x.hub.setSession l.slot.ref t
          down := x.down ++ .binary data ::
            if sendAbort then [sizeLimitAbortMessage id.hex] else []
          back := x.back ++ if sendAbort then [sizeLimitAbortMessage id.hex] else []
          effects := x.effects ++ .send (l.conn l.peer.role) (.relayed true data) ::
            if sendAbort then notices l id else [] } := by
  obtain ⟨ht, hrelay⟩ := Relay_binary h data now hrecord
  refine ⟨h.set ht, ?_⟩
  have hpeer := inbox_to hne .other l.peer.role l.peer.role (.relayed true data)
  have hself := inbox_to hne .other l.slot.role l.peer.role (.relayed true data)
  rw [if_pos rfl] at hpeer
  rw [if_neg l.peer_ne] at hself
  simp only [relay, State.handled, hrelay]
  cases drop with
  | true =>
      rw [if_pos rfl, if_pos rfl]
      simp only [inbox, List.filterMap_nil, List.append_nil]
  | false =>
      rw [if_neg Bool.false_ne_true, if_neg Bool.false_ne_true]
      cases sendAbort with
      | false =>
          simp only [Bool.false_eq_true, if_false, hpeer, hself, arrived, List.append_nil]
      | true =>
          have hboth : inbox .other (l.conn l.peer.role)
              (.send (l.conn l.peer.role) (.relayed true data) :: notices l id) =
                [.binary data, sizeLimitAbortMessage id.hex] := by
            rw [inbox_send, if_pos rfl, inbox_notices hne]
            rfl
          have honly : inbox .other (l.conn l.slot.role)
              (.send (l.conn l.peer.role) (.relayed true data) :: notices l id) =
                [sizeLimitAbortMessage id.hex] := by
            rw [inbox_send, if_neg ((conn_inj hne).not.mpr l.peer_ne), inbox_notices hne]
            rfl
          simp only [if_true, hboth, honly]

/-- A binary message that is no chunk frame is passed on. -/
theorem relay_plain_sender (h : Wired l x.hub s) (hne : l.conn .host ≠ l.conn .guest)
    {data : Bytes} (hplain : Session.chunkHeader data = none) (now : Time) :
    relay l x l.slot (.binary data) now = { x with
      hub := x.hub.setSession l.slot.ref (s.touch now)
      down := x.down ++ [.binary data]
      effects := x.effects ++ [.send (l.conn l.peer.role) (.relayed true data)] } := by
  have hrecord : (s.touch now).recordChunkBytes data x.hub.cfg.MaxFileSize =
      (s.touch now, none, false, false) := by
    rw [Session.recordChunkBytes, hplain]
  have hpeer := inbox_to hne .other l.peer.role l.peer.role (.relayed true data)
  have hself := inbox_to hne .other l.slot.role l.peer.role (.relayed true data)
  rw [if_pos rfl, arrived] at hpeer
  rw [if_neg l.peer_ne] at hself
  simp only [relay, State.handled, (Relay_binary h data now hrecord).2, Bool.false_eq_true, if_false, hpeer, hself,
    List.append_nil]

/-- Whatever the sender's message is, the session stays, and what arrives of it
is at most the message and the notices. -/
theorem relay_sender (h : Wired l x.hub s) (hne : l.conn .host ≠ l.conn .guest) (m : Message)
    (now : Time) : ∃ t hub down back effects,
    Wired l hub t ∧ hub.cfg = x.hub.cfg ∧ down.length ≤ 2 ∧ back.length ≤ 1 ∧
      relay l x l.slot m now = { x with
        hub := hub
        down := x.down ++ down
        back := x.back ++ back
        effects := x.effects ++ effects } := by
  cases m with
  | text env =>
      refine ⟨_, _, [.text env], [],
        [.send (l.conn l.peer.role) (.relayed false (l.stringify env))],
        h.set (t := s.touch now) rfl, rfl, by simp, by simp, ?_⟩
      rw [relay_text_sender h hne, List.append_nil]
  | binary data =>
      cases hheader : Session.chunkHeader data with
      | none =>
          refine ⟨_, _, [.binary data], [], [.send (l.conn l.peer.role) (.relayed true data)],
            h.set (t := s.touch now) rfl, rfl, by simp, by simp, ?_⟩
          rw [relay_plain_sender h hne hheader, List.append_nil]
      | some header =>
          cases hrecord : (s.touch now).recordChunkBytes data x.hub.cfg.MaxFileSize with
          | mk t rest =>
              have hid := (s.touch now).recordChunkBytes_chunk hheader x.hub.cfg.MaxFileSize
              obtain ⟨id, drop, sendAbort⟩ := rest
              rw [hrecord] at hid
              obtain rfl : id = some header.1 := hid
              obtain ⟨hwired, hrelay⟩ := relay_binary_sender h hne data now hrecord
              rw [hrelay]
              cases drop with
              | true =>
                  refine ⟨t, _, [], [], [], hwired, rfl, by simp, by simp, ?_⟩
                  rw [if_pos rfl, List.append_nil, List.append_nil, List.append_nil]
              | false =>
                  rw [if_neg Bool.false_ne_true]
                  refine ⟨t, _, .binary data :: if sendAbort then [sizeLimitAbortMessage header.1.hex] else [],
                    if sendAbort then [sizeLimitAbortMessage header.1.hex] else [],
                    .send (l.conn l.peer.role) (.relayed true data) ::
                      if sendAbort then notices l header.1 else [], hwired, rfl, ?_, ?_, rfl⟩
                  · cases sendAbort <;> simp
                  · cases sendAbort <;> simp

/-! ## The call while nobody cancels -/

open SendFile (Lands RestsAt Woken WellFormed)

/-- A call that waits has a reason to, and one that has settled has resolved. -/
def Waits (a : SendArgs) (ackedUpTo : Int) : SendFile.Pc → Prop
  | .windowWait i => WINDOW_SIZE ≤ (i : Int) - 1 - ackedUpTo
  | .ackWait => ackedUpTo < (a.file.totalChunks : Int) - 1
  | .settled o => o = .resolved
  | _ => True

/-- Nothing has stopped the call: no abort, no lost connection, and no close of
its socket. -/
structure Going (s : SendFile.State) : Prop where
  aborted : s.aborted = none
  lost : s.connectionLost = false
  closed : s.socketClosed = false

/-- The call has sent `i` chunks, and `acked` is the number that was acked. -/
structure Resting (a : SendArgs) (i acked : Nat) (s : SendFile.State) : Prop where
  going : Going s
  acks : s.ackedUpTo = (acked : Int) - 1
  place : RestsAt a i s.ackedUpTo s.pc
  waits : Waits a s.ackedUpTo s.pc

variable {a : SendArgs} {i acked : Nat}

theorem lands_resting {s t : SendFile.State} {out : List Message} (h : Lands a s i t out)
    (hs : Going s) (hacks : s.ackedUpTo = (acked : Int) - 1) (hi : i ≤ a.file.totalChunks) :
    out = [] ∧ Resting a i acked t := by
  have hplace := h.restsAt hi
  have hgoing : Going t := by cases h <;> exact ⟨hs.aborted, hs.lost, hs.closed⟩
  have hacks' : t.ackedUpTo = (acked : Int) - 1 := h.same.1.trans hacks
  cases h with
  | window _ hfull => exact ⟨rfl, hgoing, hacks', hplace, hfull⟩
  | reading | resolved => exact ⟨rfl, hgoing, hacks', hplace, by trivial⟩
  | acks _ _ hacked => exact ⟨rfl, hgoing, hacks', hplace, hacked⟩
  | aborted ab hab => simp [hs.aborted] at hab

/-- What the call awaits succeeds: its next frame goes out, or it comes closer to that. -/
theorem work_resting {s : SendFile.State} (hkey : a.epochKey.length = 32) (hs : WellFormed a s)
    (h : Resting a i acked s) {e : SendFile.Event} (he : workEvent s.pc = some e) :
    ∃ r, SendFile.step a s e = some r ∧
      ((chunkFrames r.2 = [] ∧ Resting a i acked r.1) ∨
        i < a.file.totalChunks ∧ chunkFrames r.2 = [canonicalFrame a i] ∧
          Resting a (i + 1) acked r.1) := by
  have hkeyed (h : s.pc ≠ .derivingKey) (h' : s.isSettled = false) : s.fileKey = fileKeyOf a :=
    hs.fileKey_eq h h'
  have hput (m : Message) : s.put m = [m] := by
    rw [SendFile.State.put, h.going.closed, if_neg Bool.false_ne_true]
  cases hpc : s.pc with
  | derivingKey =>
      rw [hpc] at he
      obtain rfl := Option.some.inj he
      have hplace := h.place
      rw [hpc] at hplace
      refine ⟨({ s with fileKey := fileKeyOf a, pc := .encryptingMeta }, []), ?_, .inl ⟨rfl, ?_⟩⟩
      · simp only [SendFile.step, hpc, SendFile.onKeyDerived, settle, deriveFileKey_ok a.w hkey]
        rfl
      · exact ⟨⟨h.going.aborted, h.going.lost, h.going.closed⟩, h.acks, hplace, by trivial⟩
  | encryptingMeta =>
      rw [hpc] at he
      obtain rfl := Option.some.inj he
      have hlen : s.fileKey.length = 32 := by
        rw [hkeyed (by simp [hpc]) (by simp [SendFile.State.isSettled, hpc])]
        exact SendFile.fileKeyOf_length a
      have hplace := h.place
      rw [hpc] at hplace
      -- no frame has gone out before the metadata has
      obtain rfl : i = 0 := hplace
      have hlands := SendFile.forTest_lands a s 0
      rcases htest : SendFile.forTest a s 0 with ⟨t, out⟩
      rw [htest] at hlands
      obtain ⟨rfl, hrest⟩ := lands_resting hlands h.going h.acks (Nat.zero_le _)
      let ciphertext := a.w.aesGcmEncrypt s.fileKey (chunkNonce METADATA_CHUNK_INDEX)
        (chunkAAD a.fileId.bytes METADATA_CHUNK_INDEX true) (a.codec.encode a.file.toMeta)
      have hstep : SendFile.step a s (.metaEncrypted none) =
          some (t, s.put (fileMetaMessage a.fileId.hex (toHex ciphertext)) ++ []) := by
        simp only [SendFile.step, hpc, SendFile.onMetaEncrypted, settle, encryptChunk_ok a.w hlen,
          htest]
        rfl
      refine ⟨_, hstep, .inl ⟨?_, hrest⟩⟩
      rw [hput]
      rfl
  | readingSlice j =>
      rw [hpc] at he
      obtain rfl := Option.some.inj he
      have hplace := h.place
      rw [hpc] at hplace
      refine ⟨({ s with pc := .encryptingChunk j (a.file.chunk j) }, []), ?_, .inl ⟨rfl, ?_⟩⟩
      · simp only [SendFile.step, hpc, SendFile.onSliceRead]
      · exact ⟨⟨h.going.aborted, h.going.lost, h.going.closed⟩, h.acks, hplace, by trivial⟩
  | encryptingChunk j p =>
      rw [hpc] at he
      obtain rfl := Option.some.inj he
      have hkeyed := hkeyed (by simp [hpc]) (by simp [SendFile.State.isSettled, hpc])
      have hplace := h.place
      have hindex := hs.index
      rw [hpc] at hplace hindex
      obtain ⟨rfl, -⟩ := hplace
      obtain ⟨hi, rfl⟩ := hindex
      have hlands := SendFile.forTest_lands a s (i + 1)
      rcases htest : SendFile.forTest a s (i + 1) with ⟨t, out⟩
      rw [htest] at hlands
      obtain ⟨rfl, hrest⟩ := lands_resting hlands h.going h.acks hi
      have hstep : SendFile.step a s (.chunkEncrypted none) =
          some (t, s.put (.binary (canonicalFrame a i)) ++ []) := by
        simp only [SendFile.step, hpc, SendFile.onChunkEncrypted, settle, hkeyed,
          encryptChunk_ok a.w (SendFile.fileKeyOf_length a), htest]
        rfl
      -- this is the one point at which a frame goes out
      refine ⟨_, hstep, .inr ⟨hi, ?_, hrest⟩⟩
      rw [hput]
      rfl
  -- it awaits an ack, which is no work of its own
  | windowWait | ackWait | settled =>
      rw [hpc] at he
      cases he

theorem woken_resting {s t : SendFile.State} {out : List Message} (h : Woken a s t out)
    (hs : Going s) (hacks : s.ackedUpTo = (acked : Int) - 1) (hplace : RestsAt a i s.ackedUpTo s.pc)
    (hwaits : s.waiting = false → Waits a s.ackedUpTo s.pc) (hi : i ≤ a.file.totalChunks) :
    out = [] ∧ Resting a i acked t := by
  cases h with
  | asleep hw => exact ⟨rfl, hs, hacks, hplace, hwaits hw⟩
  | lost _ hlost => simp [hs.lost] at hlost
  | window j hpc _ _ _ h =>
      rw [hpc] at hplace
      obtain rfl : i = j := hplace
      exact lands_resting h hs hacks hi
  | acks hpc _ _ _ h =>
      rw [hpc] at hplace
      obtain rfl : i = a.file.totalChunks := hplace
      exact lands_resting h hs hacks hi

/-- The next ack arrives. -/
theorem ack_resting {s : SendFile.State} (hs : WellFormed a s) (h : Resting a i acked s)
    (hacked : acked < i) (hi : i ≤ a.file.totalChunks) :
    ∃ r, SendFile.step a s (.message (.chunkAck (some ⟨some a.fileId.hex, acked⟩))) = some r ∧
      r.2 = [] ∧ Resting a i (acked + 1) r.1 := by
  have hplace := h.place
  have hwaits := h.waits
  have hacks := h.acks
  have hclosed := h.going.closed
  -- a call that has sent a chunk listens until its last chunk is acked
  have hl : s.listening = true := by
    cases hpc : s.pc with
    | derivingKey | encryptingMeta =>
        rw [hpc] at hplace
        obtain rfl : i = 0 := hplace
        exact absurd hacked (Nat.not_lt_zero _)
    | settled o =>
        rw [hpc] at hplace hwaits
        have hlast : (a.file.totalChunks : Int) - 1 ≤ s.ackedUpTo := hplace hwaits
        omega
    | _ => simp [SendFile.State.listening, hpc]
  refine ⟨SendFile.wakeWaiters a { s with ackedUpTo := acked }, ?_, ?_⟩
  · change (if s.socketClosed = true then none
      else if s.listening = true then some (SendFile.onMessage a s _) else some (s, [])) = _
    rw [if_neg (by simp [hclosed]), if_pos hl]
    simp only [SendFile.onMessage, if_true]
  · refine woken_resting (SendFile.wakeWaiters_woken ⟨hs.index, hs.keyed⟩)
      ⟨h.going.aborted, h.going.lost, hclosed⟩ ?_ (hplace.mono ?_) (fun hw => ?_) hi
    · change (acked : Int) = _
      omega
    · rw [hacks]
      change (acked : Int) - 1 ≤ acked
      omega
    · cases hpc : s.pc with
      | windowWait | ackWait => simp [SendFile.State.waiting, hpc] at hw
      | settled => simp [SendFile.State.listening, hpc] at hl
      | _ => trivial

/-! ## The work of a run -/

/-- The steps that a call still causes, its messages' included. -/
def weight (n : Nat) : SendFile.Pc → Nat
  | .derivingKey => 10 * n + 18
  | .encryptingMeta => 10 * n + 17
  | .windowWait i | .readingSlice i => 10 * (n - i) + 8
  | .encryptingChunk i _ => 10 * (n - i) + 7
  | .ackWait => 8
  | .settled _ => 0

/-- Whether the event settles what the call awaits. -/
def settles : SendFile.Event → Nat
  | .message _ | .close | .signalAbort => 0
  | _ => 1

theorem put_length_le (s : SendFile.State) (m : Message) : (s.put m).length ≤ 1 := by
  rw [SendFile.State.put]
  split <;> simp

theorem lands_weight {s t : SendFile.State} {out : List Message} (h : Lands a s i t out) :
    weight a.file.totalChunks t.pc + 8 * out.length ≤ 10 * (a.file.totalChunks - i) + 8 := by
  cases h with
  | window | reading | acks | resolved => simp [weight]
  | aborted ab =>
      have hput := put_length_le s (fileAbortMessage a.fileId.hex)
      split
      · simp [weight]
      · simp only [weight]
        omega

theorem woken_weight {s t : SendFile.State} {out : List Message} (h : Woken a s t out) :
    weight a.file.totalChunks t.pc + 8 * out.length ≤ weight a.file.totalChunks s.pc := by
  cases h with
  | asleep => simp
  | lost => simp [weight]
  | window j hpc _ _ _ h =>
      rw [hpc]
      exact lands_weight h
  | acks hpc _ _ _ h =>
      have hle := lands_weight h
      rw [hpc]
      simpa [weight] using hle

theorem steps_weight {s t : SendFile.State} {e : SendFile.Event} {out : List Message}
    (h : SendFile.Steps a s e t out) (hs : WellFormed a s) :
    weight a.file.totalChunks t.pc + 8 * out.length + settles e ≤
      weight a.file.totalChunks s.pc := by
  have hindex := hs.index
  cases h with
  | keyDerived hpc | keyFailed hpc | metaFailed hpc => simp [hpc, weight, settles]
  -- sending weighs less than the call had left to do, by eight for each message
  | metaSent hpc ciphertext _ _ _ h =>
      have hle := lands_weight h
      have hput := put_length_le s (fileMetaMessage a.fileId.hex (toHex ciphertext))
      rw [hpc, List.length_append]
      change _ + 1 ≤ 10 * a.file.totalChunks + 17
      omega
  | sliceRead j hpc => simp [hpc, weight, settles]
  | chunkSent j p hpc ciphertext _ _ _ h =>
      rw [hpc] at hindex
      have hlt : j < a.file.totalChunks := hindex.1
      have hle := lands_weight h
      have hput := put_length_le s
        (.binary (buildChunkFrame a.fileId j (j = a.file.totalChunks - 1) ciphertext))
      rw [hpc, List.length_append]
      change _ + 1 ≤ 10 * (a.file.totalChunks - j) + 7
      omega
  | failed e msg hpc =>
      have hout : (SendFile.throwErr a s (.error msg)).2.length ≤ 1 := by
        simp only [SendFile.throwErr]
        split
        · simp
        · exact put_length_le s _
      have hsettles : settles e ≤ 1 := by cases e <;> simp [settles]
      -- only a call that awaits work of its own can fail
      cases hs : s.pc with
      | readingSlice j =>
          rw [hs] at hindex
          have hlt : j < a.file.totalChunks := hindex
          simp only [SendFile.throwErr, weight] at hout ⊢
          omega
      | encryptingChunk j p =>
          rw [hs] at hindex
          have hlt : j < a.file.totalChunks := hindex.1
          simp only [SendFile.throwErr, weight] at hout ⊢
          omega
      | _ => simp [SendFile.State.listening, SendFile.State.waiting, hs] at hpc
  | heard e _ hc _ _ _ _ h =>
      have hzero : settles e = 0 := by cases e <;> first | rfl | exact hc.elim
      have hle := woken_weight h
      rwa [SendFile.noted_pc, ← Nat.add_zero (_ + _), ← hzero] at hle
  | ignored | closedUnheard | abortUnheard => simp [settles]

/-- What every step makes smaller: the weight of what the call has still to do,
and of each message by the legs it has before it. -/
def measure (l : Link) (x : State) : Nat :=
  weight l.args.file.totalChunks x.snd.pc + 8 * x.up.length + 3 * x.down.length +
    2 * x.acks.length + x.back.length

/-- What holds wherever the run is, whether the file is still within the limit or
not. -/
structure Base (l : Link) (cfg : Config) (x : State) : Prop where
  wellFormed : WellFormed l.args x.snd
  wired : ∃ s, Wired l x.hub s
  config : x.hub.cfg = cfg
  acks : ∀ m ∈ x.acks, m.frame? = none

theorem ackOf_text (m : Message) : ∀ k ∈ ackOf m, k.frame? = none := by
  intro k hk
  unfold ackOf at hk
  split at hk
  · split at hk
    · rw [List.mem_singleton.mp hk]
      rfl
    · cases hk
  · cases hk

theorem ackOf_length (m : Message) : (ackOf m).length ≤ 1 := by
  unfold ackOf
  split
  · split <;> simp
  · simp

theorem sender_base {cfg : Config} (hx : Base l cfg x) {e : SendFile.Event}
    (h : sender l x e = some y) : Base l cfg y ∧ y.back = x.back ∧
      measure l y + settles e ≤ measure l x := by
  obtain ⟨⟨t, out⟩, hr, rfl⟩ := Option.map_eq_some_iff.mp h
  have hst := SendFile.step_spec hx.wellFormed hr
  have hle := steps_weight hst hx.wellFormed
  refine ⟨⟨hst.wellFormed hx.wellFormed, hx.wired, hx.config, hx.acks⟩, rfl, ?_⟩
  simp only [measure, List.length_append]
  omega

/-- Every step uses work up. -/
theorem step_base {cfg : Config} (hne : l.conn .host ≠ l.conn .guest) (hx : Base l cfg x)
    {e : Event} (h : step l x e = some y) : Base l cfg y ∧ measure l y + 1 ≤ measure l x := by
  obtain ⟨s, hwired⟩ := hx.wired
  cases e with
  | work =>
      obtain ⟨e, he, h⟩ := Option.bind_eq_some_iff.mp h
      obtain ⟨hy, -, hle⟩ := sender_base hx h
      have hsettles : settles e = 1 := by
        cases hpc : x.snd.pc <;> rw [hpc] at he <;> cases he <;> rfl
      exact ⟨hy, hsettles ▸ hle⟩
  | relaySender now =>
      rw [step] at h
      split at h
      next m rest hup =>
        obtain rfl := Option.some.inj h
        obtain ⟨t, hub, down, back, effects, ht, hcfg, hdown, hback, hrelay⟩ :=
          relay_sender (x := { x with up := rest }) hwired hne m now
        rw [hrelay]
        refine ⟨⟨hx.wellFormed, ⟨t, ht⟩, hcfg.trans hx.config, hx.acks⟩, ?_⟩
        -- one message fewer on its way to the relay; what it leads to weighs less
        simp only [measure, hup, List.length_append, List.length_cons]
        omega
      next => cases h
  | peer =>
      rw [step] at h
      split at h
      next m rest hdown =>
        obtain rfl := Option.some.inj h
        -- the peer answers a frame with one ack at most
        have hle := ackOf_length m
        refine ⟨⟨hx.wellFormed, hx.wired, hx.config, fun k hk => ?_⟩, ?_⟩
        · exact (List.mem_append.mp hk).elim (hx.acks k) (ackOf_text m k)
        · simp only [measure, hdown, List.length_append, List.length_cons]
          omega
      next => cases h
  | relayPeer now =>
      rw [step] at h
      split at h
      next m rest hacks =>
        obtain rfl := Option.some.inj h
        -- an ack is a text message, which the relay copies
        have htext := hx.acks m (by rw [hacks]; exact .head _)
        cases m with
        | binary data => cases htext
        | text env =>
            rw [relay_text_peer (x := { x with acks := rest }) hwired hne]
            refine ⟨⟨hx.wellFormed, ⟨_, hwired.set rfl⟩, hx.config, fun k hk => ?_⟩, ?_⟩
            · exact hx.acks k (by rw [hacks]; exact .tail _ hk)
            · simp only [measure, hacks, List.length_append, List.length_cons, List.length_nil]
              omega
      next => cases h
  | deliver =>
      rw [step] at h
      split at h
      next env rest hback =>
        obtain ⟨hy, -, hle⟩ := sender_base (x := { x with back := rest })
          ⟨hx.wellFormed, hx.wired, hx.config, hx.acks⟩ h
        refine ⟨hy, ?_⟩
        simp only [measure, settles, hback, List.length_cons] at hle ⊢
        omega
      next data rest hback =>
        obtain rfl := Option.some.inj h
        refine ⟨⟨hx.wellFormed, hx.wired, hx.config, hx.acks⟩, ?_⟩
        simp only [measure, hback, List.length_cons]
        omega
      next => cases h

/-! ## Within the limit -/

/-- The `chunk_ack` that the peer answers chunk `i` with. -/
def ackMessage (a : SendArgs) (i : Nat) : Message := chunkAckMessage a.fileId.hex i

/-- Of the frames, `i` have been sent, `r` relayed and `d` acked by the peer, and
of the acks `q` have been relayed and `b` have arrived. The file is within the
limit so far, and there has been no notice. -/
structure Clean (l : Link) (cfg : Config) (b q d r i : Nat) (x : State) : Prop where
  up : chunkFrames x.up = (List.Ico r i).map (canonicalFrame l.args)
  down : chunkFrames x.down = (List.Ico d r).map (canonicalFrame l.args)
  acks : x.acks = (List.Ico q d).map (ackMessage l.args)
  back : x.back = (List.Ico b q).map (ackMessage l.args)
  order : b ≤ q ∧ q ≤ d ∧ d ≤ r ∧ r ≤ i ∧ i ≤ l.args.file.totalChunks
  snd : Resting l.args i b x.snd
  file : ∃ s, Wired l x.hub s ∧ (r < l.args.file.totalChunks →
    blockedFor s l.args.fileId = false ∧ counted s l.args.fileId = wireBytes l.args r)
  within : r = 0 ∨ (wireBytes l.args r : Int) ≤ cfg.MaxFileSize
  forwarded : forwarded l x = firstFrames l.args r
  quiet : ∀ role, ¬ NoticeTo l x role

/-- The file is over the limit, and both ends have been told. -/
def Over (l : Link) (cfg : Config) (x : State) : Prop :=
  (∀ role, NoticeTo l x role) ∧
    cfg.MaxFileSize < (wireBytes l.args l.args.file.totalChunks : Int)

/-- The first of a segment, and the rest. -/
theorem map_Ico_eq_cons {α : Type} {f : Nat → α} {lo hi : Nat} {m : α} {rest : List α}
    (h : m :: rest = (List.Ico lo hi).map f) :
    lo < hi ∧ m = f lo ∧ rest = (List.Ico (lo + 1) hi).map f := by
  have hlt : lo < hi := by
    by_contra hle
    rw [List.Ico.eq_nil_of_le (not_lt.mp hle)] at h
    cases h
  rw [List.Ico.eq_cons hlt, List.map_cons] at h
  obtain ⟨hm, hrest⟩ := List.cons.inj h
  exact ⟨hlt, hm, hrest⟩

theorem map_Ico_concat {α : Type} (f : Nat → α) {lo hi : Nat} (h : lo ≤ hi) :
    (List.Ico lo hi).map f ++ [f hi] = (List.Ico lo (hi + 1)).map f := by
  rw [List.Ico.succ_top h, List.map_append, List.map_singleton]

/-- A message that is passed on is no notice. -/
theorem noticeTo_relayed {effects : List Effect} (hx : x.effects = effects) {c : ConnId}
    {binary : Bool} {data : Bytes} {role : Role}
    (hy : y.effects = effects ++ [.send c (.relayed binary data)]) :
    NoticeTo l y role ↔ NoticeTo l x role := by
  rw [NoticeTo, NoticeTo, hx, hy, List.mem_append, List.mem_singleton]
  exact or_iff_left (by simp [sendEnvelope])

variable {cfg : Config} {b q d r : Nat}

theorem Clean.work (h : Clean l cfg b q d r i x) (hx : Base l cfg x)
    (hkey : l.args.epochKey.length = 32) (hstep : step l x .work = some y) :
    ∃ i', Clean l cfg b q d r i' y := by
  obtain ⟨e, he, hsend⟩ := Option.bind_eq_some_iff.mp hstep
  obtain ⟨⟨t, out⟩, hr, hcases⟩ := work_resting hkey hx.wellFormed h.snd he
  obtain ⟨r', hr', rfl⟩ := Option.map_eq_some_iff.mp hsend
  obtain rfl := Option.some.inj (hr.symm.trans hr')
  obtain ⟨hbq, hqd, hdr, hri, hin⟩ := h.order
  rcases hcases with ⟨hout, hrest⟩ | ⟨hlt, hout, hrest⟩
  · -- the call has come closer to its next frame, or has sent it
    refine ⟨i, ?_, h.down, h.acks, h.back, h.order, hrest, h.file, h.within, h.forwarded, h.quiet⟩
    rw [SendFile.chunkFrames_append, hout, List.append_nil, h.up]
  · refine ⟨i + 1, ?_, h.down, h.acks, h.back, ⟨hbq, hqd, hdr, by omega, hlt⟩, hrest, h.file,
      h.within, h.forwarded, h.quiet⟩
    rw [SendFile.chunkFrames_append, hout, h.up, map_Ico_concat _ hri]

theorem Clean.peer (h : Clean l cfg b q d r i x) (hstep : step l x .peer = some y) :
    ∃ d', Clean l cfg b q d' r i y := by
  obtain ⟨hbq, hqd, hdr, hri, hin⟩ := h.order
  have hdown := h.down
  rw [step] at hstep
  split at hstep
  next m rest hmsgs =>
    obtain rfl := Option.some.inj hstep
    rw [hmsgs] at hdown
    cases m with
    | text env =>
        refine ⟨d, h.up, hdown, ?_, h.back, h.order, h.snd, h.file, h.within, h.forwarded, h.quiet⟩
        exact (List.append_nil _).trans h.acks
    | binary data =>
        obtain ⟨hlt, rfl, hrest⟩ := map_Ico_eq_cons hdown
        obtain ⟨ciphertext, hparse, -⟩ :=
          SendFile.canonicalFrame_opens l.args (show d < l.args.file.totalChunks by omega)
        have hack : ackOf (.binary (canonicalFrame l.args d)) = [ackMessage l.args d] := by
          rw [ackOf, hparse]
          rfl
        refine ⟨d + 1, h.up, hrest, ?_, h.back, ⟨hbq, by omega, hlt, hri, hin⟩, h.snd, h.file,
          h.within, h.forwarded, h.quiet⟩
        dsimp only
        rw [hack, h.acks, map_Ico_concat _ hqd]
  next => cases hstep

theorem Clean.relayPeer (h : Clean l cfg b q d r i x) (hne : l.conn .host ≠ l.conn .guest)
    {now : Time} (hstep : step l x (.relayPeer now) = some y) : ∃ q', Clean l cfg b q' d r i y := by
  obtain ⟨hbq, hqd, hdr, hri, hin⟩ := h.order
  have hacks := h.acks
  rw [step] at hstep
  split at hstep
  next m rest hmsgs =>
    obtain rfl := Option.some.inj hstep
    rw [hmsgs] at hacks
    obtain ⟨hlt, rfl, hrest⟩ := map_Ico_eq_cons hacks
    obtain ⟨s, hwired, hcount⟩ := h.file
    have hforwarded := h.forwarded
    rw [ackMessage, chunkAckMessage, relay_text_peer (x := { x with acks := rest }) hwired hne]
    refine ⟨q + 1, h.up, h.down, hrest, ?_, ⟨by omega, hlt, hdr, hri, hin⟩, h.snd,
      ⟨_, hwired.set (t := s.touch now) rfl, hcount⟩, h.within, ?_, fun role hnotice => ?_⟩
    · dsimp only
      rw [h.back]
      exact map_Ico_concat (ackMessage l.args) hbq
    · rw [SizeLimit.forwarded] at hforwarded ⊢
      rw [relayedTo_append, relayedTo_text, List.append_nil]
      exact hforwarded
    · exact h.quiet role ((noticeTo_relayed (x := x) rfl rfl).mp hnotice)
  next => cases hstep

theorem Clean.deliver (h : Clean l cfg b q d r i x) (hx : Base l cfg x)
    (hstep : step l x .deliver = some y) : ∃ b', Clean l cfg b' q d r i y := by
  obtain ⟨hbq, hqd, hdr, hri, hin⟩ := h.order
  have hback := h.back
  rw [step] at hstep
  split at hstep
  next env rest hmsgs =>
    rw [hmsgs] at hback
    obtain ⟨hlt, hm, hrest⟩ := map_Ico_eq_cons hback
    obtain rfl : env = .chunkAck (some ⟨some l.args.fileId.hex, b⟩) := Message.text.inj hm
    obtain ⟨⟨t, out⟩, hr, hout, hresting⟩ := ack_resting hx.wellFormed h.snd (by omega) hin
    obtain ⟨r', hr', rfl⟩ := Option.map_eq_some_iff.mp hstep
    obtain rfl := Option.some.inj (hr.symm.trans hr')
    obtain rfl : out = [] := hout
    refine ⟨b + 1, ?_, h.down, h.acks, hrest, ⟨hlt, hqd, hdr, hri, hin⟩, hresting, h.file,
      h.within, h.forwarded, h.quiet⟩
    dsimp only
    rw [List.append_nil, h.up]
  next data rest hmsgs =>
    rw [hmsgs] at hback
    obtain ⟨-, hm, -⟩ := map_Ico_eq_cons hback
    cases hm
  next => cases hstep

theorem chunkHeader_canonicalFrame {i : Nat} (hi : i < a.file.totalChunks) :
    Session.chunkHeader (canonicalFrame a i) = some (a.fileId, decide (i = a.file.totalChunks - 1)) := by
  obtain ⟨ciphertext, hparse, -⟩ := SendFile.canonicalFrame_opens a hi
  rw [chunkHeader_eq, hparse]
  rfl

/-- The frame that is relayed keeps the file within the limit, or is the one
that exceeds it. -/
theorem Clean.relaySender (h : Clean l cfg b q d r i x) (hx : Base l cfg x)
    (hne : l.conn .host ≠ l.conn .guest) {now : Time}
    (hstep : step l x (.relaySender now) = some y) :
    (∃ r', Clean l cfg b q d r' i y) ∨ Over l cfg y := by
  obtain ⟨hbq, hqd, hdr, hri, hin⟩ := h.order
  have hup := h.up
  have hforwarded := h.forwarded
  obtain ⟨s, hwired, hcount⟩ := h.file
  rw [step] at hstep
  split at hstep
  next m rest hmsgs =>
    obtain rfl := Option.some.inj hstep
    rw [hmsgs] at hup
    cases m with
    -- the metadata goes on as it is, and no frame is counted
    | text env =>
        rw [relay_text_sender (x := { x with up := rest }) hwired hne]
        refine .inl ⟨r, hup, ?_, h.acks, h.back, h.order, h.snd,
          ⟨_, hwired.set (t := s.touch now) rfl, hcount⟩, h.within, ?_, fun role hnotice => ?_⟩
        · dsimp only
          rw [SendFile.chunkFrames_append, h.down]
          exact List.append_nil _
        · rw [SizeLimit.forwarded] at hforwarded ⊢
          rw [relayedTo_append, relayedTo_text, List.append_nil]
          exact hforwarded
        · exact h.quiet role ((noticeTo_relayed (x := x) rfl rfl).mp hnotice)
    | binary data =>
        obtain ⟨hlt, rfl, hrest⟩ := map_Ico_eq_cons hup
        have hrn : r < l.args.file.totalChunks := by omega
        obtain ⟨hopen, hcounted⟩ := hcount hrn
        -- the file is the one that is counted, and the frame is added to it before the check
        obtain ⟨t, hrecord, hgoes⟩ := recordChunkBytes_open x.hub.cfg.MaxFileSize
          (s := s.touch now) (chunkHeader_canonicalFrame hrn) hopen
        rw [show counted (s.touch now) l.args.fileId = _ from hcounted, ← wireBytes_succ,
          hx.config] at hrecord hgoes
        rw [← hx.config] at hrecord
        obtain ⟨hwired', hrelay⟩ :=
          relay_binary_sender (x := { x with up := rest }) hwired hne _ now hrecord
        rw [hrelay, if_neg Bool.false_ne_true, hx.config]
        -- with this frame the file is over the limit, or it is not
        by_cases hover : cfg.MaxFileSize < (wireBytes l.args (r + 1) : Nat)
        · refine .inr ⟨fun role => ?_, ?_⟩
          · rw [NoticeTo, decide_eq_true hover, if_pos rfl]
            refine List.mem_append_right _ (List.mem_cons_of_mem _ (List.mem_map.mpr ⟨role, ?_, rfl⟩))
            cases role <;> simp
          · have hmono := wireBytes_mono l.args (show r + 1 ≤ l.args.file.totalChunks from hrn)
            omega
        · have hquiet : decide (cfg.MaxFileSize < (wireBytes l.args (r + 1) : Nat)) = false :=
            decide_eq_false hover
          rw [hquiet]
          simp only [Bool.false_eq_true, if_false, List.append_nil]
          refine .inl ⟨r + 1, hrest, ?_, h.acks, h.back, ⟨hbq, hqd, by omega, hlt, hin⟩, h.snd,
            ⟨t, hwired', fun hmore => ?_⟩, .inr (not_lt.mp hover), ?_, fun role hnotice => ?_⟩
          · dsimp only
            rw [SendFile.chunkFrames_append, h.down]
            exact map_Ico_concat (canonicalFrame l.args) hdr
          · obtain ⟨hopen', hcounted'⟩ := hgoes (not_lt.mp hover) (decide_eq_false (by omega))
            exact ⟨hopen', hcounted'⟩
          · rw [SizeLimit.forwarded] at hforwarded ⊢
            rw [relayedTo_append, relayedTo_binary, hforwarded, SendFile.firstFrames_succ]
          · exact h.quiet role ((noticeTo_relayed (x := x) rfl rfl).mp hnotice)
  next => cases hstep

/-- What the relay has done to connections stays done. -/
theorem step_effects {e : Event} (h : step l x e = some y) : x.effects <+: y.effects := by
  have hsender {x y : State} {e : SendFile.Event} (h : sender l x e = some y) :
      y.effects = x.effects := by
    obtain ⟨r, -, rfl⟩ := Option.map_eq_some_iff.mp h
    rfl
  have hrelay (x : State) (slot : Slot) (m : Message) (now : Time) :
      x.effects <+: (relay l x slot m now).effects := by
    cases m <;> exact List.prefix_append _ _
  cases e with
  | work =>
      obtain ⟨e, -, h⟩ := Option.bind_eq_some_iff.mp h
      rw [hsender h]
  | relaySender now =>
      rw [step] at h
      split at h
      next m rest _ => exact Option.some.inj h ▸ hrelay { x with up := rest } l.slot m now
      next => cases h
  | peer =>
      rw [step] at h
      split at h
      next => exact Option.some.inj h ▸ List.prefix_rfl
      next => cases h
  | relayPeer now =>
      rw [step] at h
      split at h
      next m rest _ => exact Option.some.inj h ▸ hrelay { x with acks := rest } l.peer m now
      next => cases h
  | deliver =>
      rw [step] at h
      split at h
      next => rw [hsender h]
      next => exact Option.some.inj h ▸ List.prefix_rfl
      next => cases h

/-- The invariant of a run: the file is within the limit so far, or the relay has
stopped it. -/
def Inv (l : Link) (cfg : Config) (x : State) : Prop :=
  Base l cfg x ∧ ((∃ b q d r i, Clean l cfg b q d r i x) ∨ Over l cfg x)

theorem step_inv (hne : l.conn .host ≠ l.conn .guest) (hkey : l.args.epochKey.length = 32)
    (hx : Inv l cfg x) {e : Event} (h : step l x e = some y) :
    Inv l cfg y ∧ measure l y + 1 ≤ measure l x := by
  obtain ⟨hbase, hinv⟩ := hx
  obtain ⟨hbase', hle⟩ := step_base hne hbase h
  refine ⟨⟨hbase', ?_⟩, hle⟩
  rcases hinv with ⟨b, q, d, r, i, hclean⟩ | hover
  · cases e with
    | work =>
        obtain ⟨i', hclean'⟩ := hclean.work hbase hkey h
        exact .inl ⟨b, q, d, r, i', hclean'⟩
    | relaySender now =>
        rcases hclean.relaySender hbase hne h with ⟨r', hclean'⟩ | hover
        · exact .inl ⟨b, q, d, r', i, hclean'⟩
        · exact .inr hover
    | peer =>
        obtain ⟨d', hclean'⟩ := hclean.peer h
        exact .inl ⟨b, q, d', r, i, hclean'⟩
    | relayPeer now =>
        obtain ⟨q', hclean'⟩ := hclean.relayPeer hne h
        exact .inl ⟨b, q', d, r, i, hclean'⟩
    | deliver =>
        obtain ⟨b', hclean'⟩ := hclean.deliver hbase h
        exact .inl ⟨b', q, d, r, i, hclean'⟩
  · exact .inr ⟨fun role => (step_effects h).subset (hover.1 role), hover.2⟩

theorem Ready.inv {hub : Hub} (h : Ready l hub s) : Inv l hub.cfg (init hub) := by
  have hwired : Wired l hub s := ⟨h.session, h.conns⟩
  have hcount : blockedFor s l.args.fileId = false ∧ counted s l.args.fileId = 0 := by
    rw [blockedFor, counted]
    cases hfile : s.currentFile with
    | none => exact ⟨rfl, rfl⟩
    | some c =>
        have hid := h.fresh c hfile
        exact ⟨by simp [hid], by simp [hid]⟩
  refine ⟨⟨.init _, ⟨s, hwired⟩, rfl, fun _ hm => by cases hm⟩, .inl ⟨0, 0, 0, 0, 0, ?_⟩⟩
  exact ⟨rfl, rfl, rfl, rfl, ⟨le_rfl, le_rfl, le_rfl, le_rfl, Nat.zero_le _⟩,
    ⟨⟨rfl, rfl, rfl⟩, rfl, rfl, trivial⟩, ⟨s, hwired, fun _ => hcount⟩, .inl rfl, rfl,
    fun _ hm => by cases hm⟩

theorem run_inv {hub : Hub} (h : Ready l hub s) (hkey : l.args.epochKey.length = 32)
    {es : List Event} (hrun : Transition.run (step l) (init hub) es = some x) :
    Inv l hub.cfg x ∧ measure l x + es.length ≤ 10 * l.args.file.totalChunks + 18 := by
  have hkept (y : State) (e : Event) (z : State) (hy : Inv l hub.cfg y) (_ : True)
      (hstep : step l y e = some z) : Inv l hub.cfg z ∧ measure l z + 1 ≤ measure l y :=
    step_inv h.distinct hkey hy hstep
  have hrule : Inv l hub.cfg x ∧ measure l x + es.countP (fun _ => true) ≤ measure l (init hub) :=
    Transition.Guarded.measure hkept (.of_forall (fun _ _ => trivial) _ es) h.inv hrun
  rw [List.countP_eq_length.mpr fun _ _ => rfl] at hrule
  exact hrule

/-- A run within the limit that cannot go on has sent the file. -/
theorem Clean.finished (h : Clean l cfg b q d r i x) (hx : Base l cfg x)
    (hkey : l.args.epochKey.length = 32) (hstuck : Transition.Stuck (step l) x) :
    r = l.args.file.totalChunks ∧ x.snd.pc = .settled .resolved := by
  obtain ⟨hbq, hqd, hdr, hri, hin⟩ := h.order
  -- nothing is on its way
  have hup : x.up = [] := by
    have hnone := hstuck (.relaySender 0)
    rw [step] at hnone
    split at hnone
    next => cases hnone
    next hup => exact hup
  have hdown : x.down = [] := by
    have hnone := hstuck .peer
    rw [step] at hnone
    split at hnone
    next => cases hnone
    next hdown => exact hdown
  have hacks : x.acks = [] := by
    have hnone := hstuck (.relayPeer 0)
    rw [step] at hnone
    split at hnone
    next => cases hnone
    next hacks => exact hacks
  have hempty {α : Type} {f : Nat → α} {lo hi : Nat} (h : [] = (List.Ico lo hi).map f) : hi ≤ lo :=
    List.Ico.eq_empty_iff.mp (List.map_eq_nil_iff.mp h.symm)
  have hir : i ≤ r := hempty (by rw [← h.up, hup]; rfl)
  have hrd : r ≤ d := hempty (by rw [← h.down, hdown]; rfl)
  have hdq : d ≤ q := hempty (by rw [← h.acks, hacks])
  have hqb : q ≤ b := by
    by_contra hlt
    have hback := h.back
    rw [List.Ico.eq_cons (not_le.mp hlt), List.map_cons] at hback
    obtain ⟨w, hw, -⟩ := ack_resting hx.wellFormed h.snd (show b < i by omega) hin
    have hnone := hstuck .deliver
    rw [step, hback] at hnone
    change (SendFile.step l.args x.snd _).map _ = none at hnone
    rw [Option.map_eq_none_iff, hw] at hnone
    cases hnone
  have hacked := h.snd.acks
  have hplace := h.snd.place
  have hwaits := h.snd.waits
  -- and the call has nothing to do
  have hidle : workEvent x.snd.pc = none := by
    by_contra hsome
    obtain ⟨e, he⟩ := Option.ne_none_iff_exists'.mp hsome
    obtain ⟨w, hw, -⟩ := work_resting hkey hx.wellFormed h.snd he
    have hnone := hstuck .work
    rw [step, he, Option.bind_some, sender, Option.map_eq_none_iff, hw] at hnone
    cases hnone
  cases hpc : x.snd.pc with
  | derivingKey | encryptingMeta | readingSlice | encryptingChunk =>
      rw [hpc] at hidle
      cases hidle
  | windowWait j =>
      rw [hpc] at hplace hwaits
      obtain rfl : i = j := hplace
      have hfull : WINDOW_SIZE ≤ (i : Int) - 1 - x.snd.ackedUpTo := hwaits
      have hsize : WINDOW_SIZE = 8 := rfl
      omega
  | ackWait =>
      rw [hpc] at hplace hwaits
      obtain rfl : i = l.args.file.totalChunks := hplace
      have hmissing : x.snd.ackedUpTo < (l.args.file.totalChunks : Int) - 1 := hwaits
      omega
  | settled o =>
      rw [hpc] at hplace hwaits
      obtain rfl : o = .resolved := hwaits
      have hlast : (l.args.file.totalChunks : Int) - 1 ≤ x.snd.ackedUpTo := hplace rfl
      exact ⟨by omega, rfl⟩

/-- **The size limit is a limit on frames.** The relay sends the notice for the
file exactly when the file's size and 42 bytes for each chunk exceed
`MaxFileSize`; otherwise every frame goes on to the peer and the call resolves.
A run is over after a bounded number of steps. -/
theorem notice_iff_over {hub : Hub} {es : List Event} (hkey : l.args.epochKey.length = 32)
    (htag : l.args.w.Tagged) (hready : Ready l hub s)
    (hrun : Transition.run (step l) (init hub) es = some x) :
    es.length ≤ 10 * l.args.file.totalChunks + 18 ∧
      (∀ role, NoticeTo l x role →
        hub.cfg.MaxFileSize < l.args.file.size + 42 * l.args.file.totalChunks) ∧
      (Transition.Stuck (step l) x →
        (∀ role, NoticeTo l x role ↔
          hub.cfg.MaxFileSize < l.args.file.size + 42 * l.args.file.totalChunks) ∧
        (l.args.file.size + 42 * l.args.file.totalChunks ≤ hub.cfg.MaxFileSize →
          forwarded l x = canonicalFrames l.args ∧ x.snd.pc = .settled .resolved)) := by
  obtain ⟨⟨hbase, hinv⟩, hle⟩ := run_inv hready hkey hrun
  have htotal : (wireBytes l.args l.args.file.totalChunks : Int) =
      l.args.file.size + 42 * l.args.file.totalChunks := by
    rw [wireBytes_file htag]
    norm_cast
  have hpos := l.args.file.totalChunks_pos
  rcases hinv with ⟨b, q, d, r, i, hclean⟩ | ⟨hall, hover⟩
  · refine ⟨by omega, fun role h => absurd h (hclean.quiet role), fun hstuck => ?_⟩
    obtain ⟨rfl, hpc⟩ := hclean.finished hbase hkey hstuck
    have hwithin := hclean.within.resolve_left (by omega)
    refine ⟨fun role => iff_of_false (hclean.quiet role) (by omega), fun _ => ⟨?_, hpc⟩⟩
    exact hclean.forwarded
  · rw [htotal] at hover
    refine ⟨by omega, fun _ _ => hover, fun _ => ⟨fun role => iff_of_true (hall role) hover, ?_⟩⟩
    exact fun hle => absurd hover (not_lt.mpr hle)

/-! ## A file of one byte -/

/-- A cipher that only appends a tag, so that sizes come out as those of AES-GCM. -/
def tagCrypto : WebCrypto where
  hkdf _ salt _ := (salt ++ List.replicate 32 1).take 32
  hkdf_length _ _ _ := by simp
  aesGcmEncrypt _ _ _ plaintext := plaintext ++ List.replicate 16 0
  aesGcmDecrypt _ _ _ ciphertext := some (ciphertext.take (ciphertext.length - 16))
  decrypt_encrypt _ _ _ plaintext := by simp

/-- The link to evaluate with: the guest of the first session sends a file of one
byte. -/
def byteLink : Link where
  args := { SendFile.tinyArgs with w := tagCrypto }
  stringify _ := []
  slot := ⟨0, .guest⟩
  conn
    | .host => 0
    | .guest => 1

/-- A host and its guest at a relay with this limit. -/
def byteHub (maxFileSize : Int) : Hub :=
  let hub := ((Hub.new { Relay.smallConfig with MaxFileSize := maxFileSize }).CreateSession "a" 0 0
    (.ok "s")).1
  (hub.JoinSession "s" "b" 1 0).1

theorem byteHub_ready (maxFileSize : Int) : ∃ s, Ready byteLink (byteHub maxFileSize) s :=
  ⟨_, rfl, fun role => by cases role <;> rfl, by decide, fun _ h => by cases h⟩

theorem tagCrypto_tagged : tagCrypto.Tagged := fun _ _ _ _ => by simp [tagCrypto]

/-- The run of that link with everything in turn: each frame is relayed,
acknowledged and delivered. -/
def byteEvents : List Event :=
  [.work, .work, .relaySender 1, .peer, .work, .work, .relaySender 2, .peer, .relayPeer 3, .deliver]

/-- A frame of one byte has 43. -/
theorem notice_within_limit : ∃ s x, Ready byteLink (byteHub 42) s ∧
    Transition.run (step byteLink) (init (byteHub 42)) byteEvents = some x ∧
    byteLink.args.file.size ≤ (byteHub 42).cfg.MaxFileSize ∧ ∀ role, NoticeTo byteLink x role := by
  obtain ⟨s, hready⟩ := byteHub_ready 42
  have hrun : (Transition.run (step byteLink) (init (byteHub 42)) byteEvents).any
      (fun x => ∀ role, NoticeTo byteLink x role) = true := by decide +kernel
  obtain ⟨x, hx, h⟩ := (Option.any_eq_true _ _).mp hrun
  exact ⟨s, x, hready, hx, by decide, of_decide_eq_true h⟩

theorem stuck_of_idle (hup : x.up = []) (hdown : x.down = []) (hacks : x.acks = [])
    (hback : x.back = []) (hwork : workEvent x.snd.pc = none) : Transition.Stuck (step l) x := by
  intro e
  cases e <;> simp [step, hup, hdown, hacks, hback, hwork]

theorem notice_iff_over_byte : ∃ x,
    Transition.run (step byteLink) (init (byteHub 43)) byteEvents = some x ∧
      (∀ role, ¬ NoticeTo byteLink x role) ∧ forwarded byteLink x = canonicalFrames byteLink.args ∧
      x.snd.pc = .settled .resolved := by
  obtain ⟨s, hready⟩ := byteHub_ready 43
  have hrun : (Transition.run (step byteLink) (init (byteHub 43)) byteEvents).any (fun x =>
      x.up.isEmpty ∧ x.down.isEmpty ∧ x.acks.isEmpty ∧ x.back.isEmpty ∧
        workEvent x.snd.pc = none) = true := by decide +kernel
  obtain ⟨x, hx, h⟩ := (Option.any_eq_true _ _).mp hrun
  simp only [List.isEmpty_iff, decide_eq_true_eq] at h
  obtain ⟨hup, hdown, hacks, hback, hwork⟩ := h
  have hsize : (byteLink.args.file.size : Int) + 42 * byteLink.args.file.totalChunks = 43 := by decide
  obtain ⟨-, -, hstuck⟩ := notice_iff_over (by decide) tagCrypto_tagged hready hx
  obtain ⟨hnotice, hsent⟩ := hstuck (stuck_of_idle hup hdown hacks hback hwork)
  rw [hsize] at hnotice hsent
  exact ⟨x, hx, fun role hr => absurd ((hnotice role).mp hr) (by decide), hsent (by decide)⟩

end Server.SizeLimit

end Quicksend
