import Quicksend.Proto

/-!
# A session of the relay (`session.go`)

Two slots, each with the peer that last took it. The methods are the
critical sections of the session's mutex; one that fails returns `none` and
leaves the session as it is. The zero time of `disconnectedAt` is `none`.
-/

namespace Quicksend.Server

/-- A side of a session: its latest connection and address, since when it is gone
(if it is), and the token it may come back with. -/
structure Peer where
  conn : ConnId
  ip : String
  disconnectedAt : Option Time
  reconnectToken : Bytes
  deriving DecidableEq

/-- `Peer.connected` of a peer that is not nil. -/
def Peer.connected (p : Peer) : Bool := p.disconnectedAt.isNone

/-- An active `currentFileState`: the file whose bytes are counted, how many there
were, and whether it is blocked. -/
structure CurrentFileState where
  fileID : FileId
  blocked : Bool
  bytesSoFar : Nat
  deriving DecidableEq

/-- A session of the relay: its id, when it was last used, its two peer slots, and
the file whose bytes are being counted. -/
structure Session where
  ID : String
  lastActivity : Time
  peers : Role → Option Peer
  currentFile : Option CurrentFileState

/-- What `snapshot` says of one slot, for a reaper that decides without the lock. -/
structure SlotSnapshot where
  conn : Option ConnId
  ip : String
  disconnectedSince : Option Time

/-- The live connection of the slot, with its address. -/
def SlotSnapshot.live (slot : SlotSnapshot) : Option (ConnId × String) :=
  slot.conn.map fun conn => (conn, slot.ip)

/-- What the reaper reads of a session under the session's lock, and decides by
once it has let go of it. -/
structure Snapshot where
  idle : Time
  slots : Role → SlotSnapshot

/-- The bytes in front of a chunk frame's ciphertext: type, file id, chunk index
and last flag; the relay reads no further. -/
def chunkFrameHeaderLen : Nat := 26

/-- The type byte of a chunk frame, the only binary frame whose bytes the relay
counts. -/
def chunkFrameTypeFile : UInt8 := 0x01

namespace Session

/-- `newSession`: both slots are free, no file is being counted, and the session
counts as used now. -/
def new (id : String) (now : Time) : Session :=
  { ID := id, lastActivity := now, peers := fun _ => none, currentFile := none }

/-- `touch`: the session was used now, which puts off the time at which the reaper
ends it as inactive. -/
def touch (s : Session) (now : Time) : Session := { s with lastActivity := now }

/-- The slot is occupied by a peer whose connection is up, and not by one that
dropped and may come back. -/
def connected (s : Session) (role : Role) : Bool := (s.peers role).any Peer.connected

/-- A slot is taken unless a connected peer has it. -/
def attach (s : Session) (role : Role) (conn : ConnId) (ip : String) (now : Time) :
    Option Session :=
  if s.connected role then none
  else some { s with
    peers := Function.update s.peers role
      (some { conn := conn, ip := ip, disconnectedAt := none, reconnectToken := [] })
    lastActivity := now }

/-- `connAndIP`: the live connection of a slot, with its address. -/
def connAndIP (s : Session) (role : Role) : Option (ConnId × String) :=
  match s.peers role with
  | some p => if p.connected then some (p.conn, p.ip) else none
  | none => none

/-- The connection that frames for this role are written to; a slot that is free
or dropped has none. -/
def connOf (s : Session) (role : Role) : Option ConnId := (s.connAndIP role).map Prod.fst

/-- The new session, the other peer's live connection, and the address of the
peer that dropped. -/
def markDisconnected (s : Session) (role : Role) (now : Time) :
    Session × Option ConnId × String :=
  match s.peers role with
  | some p =>
      ({ s with peers := Function.update s.peers role (some { p with disconnectedAt := some now }) },
        s.connOf role.other, p.ip)
  | none => (s, s.connOf role.other, "")

/-- `setReconnectToken`: remember the token just issued to the slot's occupant; on
a free slot it does nothing. -/
def setReconnectToken (s : Session) (role : Role) (token : Bytes) : Session :=
  match s.peers role with
  | some p =>
      { s with peers := Function.update s.peers role (some { p with reconnectToken := token }) }
  | none => s

/-- `reattach`: a dropped peer with this very token gets its slot back on a new
connection; `hmac.Equal` is equality. -/
def reattach (s : Session) (role : Role) (token : Bytes) (conn : ConnId) (ip : String)
    (now : Time) : Option Session :=
  match s.peers role with
  | none => none
  | some p =>
      if p.connected then none
      else if p.reconnectToken = [] ∨ p.reconnectToken ≠ token then none
      else some { s with
        peers := Function.update s.peers role
          (some { p with conn := conn, ip := ip, disconnectedAt := none })
        lastActivity := now }

/-- What a snapshot tells of one slot: its connection while it is up, its address,
and since when it has been down. -/
def slotSnapshot : Option Peer → SlotSnapshot
  | none => { conn := none, ip := "", disconnectedSince := none }
  | some p =>
      { conn := if p.connected then some p.conn else none
        ip := p.ip
        disconnectedSince := p.disconnectedAt }

/-- `snapshot`: how long the session has been idle at `now`, and what there is to
say of each of its slots. -/
def snapshot (s : Session) (now : Time) : Snapshot :=
  { idle := now - s.lastActivity, slots := fun role => slotSnapshot (s.peers role) }

/-- The id of a chunk frame and its last flag. -/
def chunkHeader (frame : Bytes) : Option (FileId × Bool) :=
  if h : frame.length < chunkFrameHeaderLen ∨ frame.head? ≠ some chunkFrameTypeFile then none
  else some
    (⟨(frame.drop 2).take 16, by
      simp only [chunkFrameHeaderLen] at h
      simp only [List.length_take, List.length_drop]
      omega⟩, (frame.getD 1 0).toNat % 2 = 1)

/-- `recordChunkBytes`: besides the session, the id of a chunk frame, `drop`
and `sendAbort`. -/
def recordChunkBytes (s : Session) (frame : Bytes) (maxSize : Int) :
    Session × Option FileId × Bool × Bool :=
  match chunkHeader frame with
  | none => (s, none, false, false)
  | some (fileID, isLast) =>
      let current := match s.currentFile with
        | some c => if c.fileID = fileID then c else { fileID := fileID, blocked := false, bytesSoFar := 0 }
        | none => { fileID := fileID, blocked := false, bytesSoFar := 0 }
      if current.blocked then ({ s with currentFile := some current }, some fileID, true, false)
      else
        let current := { current with bytesSoFar := current.bytesSoFar + frame.length }
        if (current.bytesSoFar : Int) > maxSize then
          ({ s with currentFile := some { current with blocked := true } }, some fileID, false, true)
        else if isLast then ({ s with currentFile := none }, some fileID, false, false)
        else ({ s with currentFile := some current }, some fileID, false, false)

/-! ## What the methods do to the slots -/

variable {s t : Session} {role : Role} {conn : ConnId} {ip : String} {now : Time}

theorem connAndIP_eq_some : s.connAndIP role = some (conn, ip) ↔
    ∃ p, s.peers role = some p ∧ p.connected = true ∧ p.conn = conn ∧ p.ip = ip := by
  rw [connAndIP]
  cases hp : s.peers role with
  | none => simp
  | some p => simp

theorem connAndIP_eq_none : s.connAndIP role = none ↔ s.connected role = false := by
  rw [connAndIP, connected]
  cases s.peers role with
  | none => simp
  | some p => simp

@[simp] theorem connAndIP_new (id : String) (now : Time) (role : Role) :
    (new id now).connAndIP role = none := rfl

@[simp] theorem connAndIP_touch : (s.touch now).connAndIP = s.connAndIP := rfl

/-- Filling a slot with a connected peer. -/
theorem connAndIP_update (p : Peer) (hp : t.peers = Function.update s.peers role (some p))
    (hc : p.connected = true) :
    t.connAndIP = Function.update s.connAndIP role (some (p.conn, p.ip)) := by
  funext r
  by_cases hr : r = role
  · rw [connAndIP, hp, hr, Function.update_self, Function.update_self]
    exact if_pos hc
  · rw [connAndIP, hp, Function.update_of_ne hr, Function.update_of_ne hr]
    rfl

theorem attach_spec (h : s.attach role conn ip now = some t) :
    s.connAndIP role = none ∧ t.ID = s.ID ∧
      t.connAndIP = Function.update s.connAndIP role (some (conn, ip)) := by
  unfold attach at h
  split at h
  next => cases h
  next hfree =>
    obtain rfl := Option.some.inj h
    refine ⟨connAndIP_eq_none.mpr (by simpa using hfree), rfl, ?_⟩
    exact connAndIP_update ⟨conn, ip, none, []⟩ rfl rfl

theorem reattach_spec {token : Bytes} (h : s.reattach role token conn ip now = some t) :
    s.connAndIP role = none ∧ t.ID = s.ID ∧
      t.connAndIP = Function.update s.connAndIP role (some (conn, ip)) := by
  unfold reattach at h
  split at h
  next => cases h
  next p hp =>
    split at h
    next => cases h
    next hfree =>
      split at h
      next => cases h
      next =>
        obtain rfl := Option.some.inj h
        refine ⟨connAndIP_eq_none.mpr ?_, rfl, ?_⟩
        · rw [connected, hp]
          simpa using hfree
        · exact connAndIP_update { p with conn := conn, ip := ip, disconnectedAt := none } rfl rfl

theorem markDisconnected_spec (h : s.connAndIP role = some (conn, ip)) (now : Time) :
    (s.markDisconnected role now).1.ID = s.ID ∧
      (s.markDisconnected role now).1.connAndIP = Function.update s.connAndIP role none ∧
      (s.markDisconnected role now).2.2 = ip := by
  obtain ⟨p, hp, -, -, hip⟩ := connAndIP_eq_some.mp h
  rw [markDisconnected, hp]
  refine ⟨rfl, ?_, hip⟩
  funext r
  by_cases hr : r = role
  · rw [hr, Function.update_self, connAndIP]
    dsimp only
    rw [Function.update_self]
    rfl
  · rw [Function.update_of_ne hr, connAndIP]
    dsimp only
    rw [Function.update_of_ne hr]
    rfl

theorem markDisconnected_other (s : Session) (role : Role) (now : Time) :
    (s.markDisconnected role now).2.1 = s.connOf role.other := by
  unfold markDisconnected
  split <;> rfl

theorem setReconnectToken_spec (s : Session) (role : Role) (token : Bytes) :
    (s.setReconnectToken role token).ID = s.ID ∧
      (s.setReconnectToken role token).connAndIP = s.connAndIP := by
  unfold setReconnectToken
  split
  next p hp =>
    refine ⟨rfl, ?_⟩
    funext r
    by_cases hr : r = role
    · rw [hr, connAndIP, connAndIP, hp]
      dsimp only
      rw [Function.update_self]
      rfl
    · rw [connAndIP]
      dsimp only
      rw [Function.update_of_ne hr]
      rfl
  next => exact ⟨rfl, rfl⟩

/-- Recording a frame touches nothing but the file state. -/
theorem recordChunkBytes_fst (s : Session) (frame : Bytes) (maxSize : Int) :
    ∃ current, (s.recordChunkBytes frame maxSize).1 = { s with currentFile := current } := by
  unfold recordChunkBytes
  split
  next => exact ⟨s.currentFile, rfl⟩
  next fileID isLast _ =>
    dsimp only
    generalize (match s.currentFile with
      | some c => if c.fileID = fileID then c else
          { fileID := fileID, blocked := false, bytesSoFar := 0 }
      | none => { fileID := fileID, blocked := false, bytesSoFar := 0 } : CurrentFileState) = current
    by_cases hblocked : current.blocked = true
    · rw [if_pos hblocked]
      exact ⟨_, rfl⟩
    · rw [if_neg hblocked]
      by_cases hover : ((current.bytesSoFar + frame.length : Nat) : Int) > maxSize
      · rw [if_pos hover]
        exact ⟨_, rfl⟩
      · rw [if_neg hover]
        cases isLast <;> exact ⟨_, rfl⟩

/-- Whatever comes of it, a chunk frame is counted for its file. -/
theorem recordChunkBytes_chunk (s : Session) {frame : Bytes} {fileID : FileId} {isLast : Bool}
    (h : chunkHeader frame = some (fileID, isLast)) (maxSize : Int) :
    (s.recordChunkBytes frame maxSize).2.1 = some fileID := by
  rw [recordChunkBytes, h]
  dsimp only
  generalize (match s.currentFile with
    | some c => if c.fileID = fileID then c else
        { fileID := fileID, blocked := false, bytesSoFar := 0 }
    | none => { fileID := fileID, blocked := false, bytesSoFar := 0 } : CurrentFileState) = current
  by_cases hblocked : current.blocked = true
  · rw [if_pos hblocked]
  · rw [if_neg hblocked]
    by_cases hover : ((current.bytesSoFar + frame.length : Nat) : Int) > maxSize
    · rw [if_pos hover]
    · rw [if_neg hover]
      cases isLast <;> rfl

theorem recordChunkBytes_spec (s : Session) (frame : Bytes) (maxSize : Int) :
    (s.recordChunkBytes frame maxSize).1.ID = s.ID ∧
      (s.recordChunkBytes frame maxSize).1.connAndIP = s.connAndIP := by
  obtain ⟨current, h⟩ := recordChunkBytes_fst s frame maxSize
  rw [h]
  exact ⟨rfl, rfl⟩

theorem live_snapshot (s : Session) (now : Time) (role : Role) :
    ((s.snapshot now).slots role).live = s.connAndIP role := by
  change (slotSnapshot (s.peers role)).live = s.connAndIP role
  rw [connAndIP]
  cases s.peers role with
  | none => rfl
  | some p =>
      simp only [slotSnapshot, SlotSnapshot.live]
      split <;> rfl

end Session

end Quicksend.Server
