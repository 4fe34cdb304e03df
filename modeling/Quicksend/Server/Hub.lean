import Quicksend.Server.Session
import Mathlib.Data.List.AList

/-!
# The hub (`hub.go`)

The sessions, the slots taken by each address, the pairing codes and the
guess budgets. A `Session` is an object of the heap, so a handler keeps its
session when the map has forgotten it. Each function returns the new hub and
what it does to connections, in order; the clock and the random source are
arguments.
-/

namespace Quicksend.Server

/-- The limits of `config.go`, as the hub is created with them. -/
structure Config where
  MaxFileSize : Int
  MaxSessionsPerIP : Int
  SessionInactivityTimeout : Time
  ReconnectGracePeriod : Time
  PairingCodeTTL : Time
  MaxPairingAttempts : Int

/-- What `Hub.codes` holds for a pairing code: the session that it leads to, and
when it stops leading there. -/
structure CodeEntry where
  sessionID : String
  expiresAt : Time
  deriving DecidableEq

/-- How many guesses of an address have been let through in its window, and when
the window started. -/
structure GuessBudget where
  count : Nat
  windowStart : Time
  deriving DecidableEq

/-- The `Hub` behind its mutex. A session keeps its place in `heap` when it is
taken out of the map, as handlers that hold it still reach it; a counter or a
table entry that is missing in Go is 0 or `none` here. -/
structure Hub where
  cfg : Config
  heap : List Session
  /-- Session ids to places in the heap. -/
  sessions : AList fun _ : String => Nat
  ipCounts : String → Nat
  codes : String → Option CodeEntry
  guesses : String → Option GuessBudget

/-- What a handler holds once it has begun: its session and its role. -/
structure Slot where
  ref : Nat
  role : Role
  deriving DecidableEq

namespace Hub

/-- `NewHub`: no session, no code, and nothing counted for any address. -/
def new (cfg : Config) : Hub :=
  { cfg := cfg, heap := [], sessions := ∅, ipCounts := fun _ => 0, codes := fun _ => none
    guesses := fun _ => none }

/-- `h.ipCounts[ip] >= h.cfg.MaxSessionsPerIP`: the address has as many connected
peers as it may have. -/
def full (h : Hub) (ip : String) : Bool := (h.ipCounts ip : Int) ≥ h.cfg.MaxSessionsPerIP

/-- `h.ipCounts[ip]++`: one more connected peer is counted for the address. -/
def take (h : Hub) (ip : String) : Hub :=
  { h with ipCounts := Function.update h.ipCounts ip (h.ipCounts ip + 1) }

/-- `if h.ipCounts[ip] > 0 { h.ipCounts[ip]-- }`: one less, and never less than
none. -/
def release (h : Hub) (ip : String) : Hub :=
  { h with ipCounts := Function.update h.ipCounts ip (h.ipCounts ip - 1) }

/-- The session of a reference is replaced by what one of its methods made of it. -/
def setSession (h : Hub) (ref : Nat) (s : Session) : Hub := { h with heap := h.heap.set ref s }

/-- `removeByID`: the session is taken out of the map. Its codes and its place in
the heap stay. -/
def removeByID (h : Hub) (id : String) : Hub := { h with sessions := h.sessions.erase id }

/-- The session and the host's slot that `CreateSession` and
`CreateCodeSession` make. -/
def addSession (h : Hub) (id ip : String) (conn : ConnId) (now : Time) : Hub × Slot :=
  let s := Session.new id now
  let s := (s.attach .host conn ip now).getD s
  ({ h with heap := h.heap ++ [s], sessions := h.sessions.insert id h.heap.length }.take ip,
    { ref := h.heap.length, role := .host })

/-- What an operation that begins a session returns: the hub, the slot it got or
an error, and what was sent meanwhile. -/
abbrev Begun := Hub × Except BeginError Slot × List Effect

/-- `CreateSession`: a new session with this connection as its host, where `id` is
what `newSessionID` returns. -/
def CreateSession (h : Hub) (ip : String) (conn : ConnId) (now : Time) (id : Except String String) :
    Begun :=
  if h.full ip then (h, .error .tooManySessions, [])
  else match id with
    | .error err => (h, .error (.generateSessionID err), [])
    | .ok id =>
        let (h, slot) := h.addSession id ip conn now
        (h, .ok slot, [sendEnvelope conn (.sessionCreated id)])

/-- `attachGuest`: the connection becomes the guest of a session whose host is
connected, and both sides are told. -/
def attachGuest (h : Hub) (ref : Nat) (ip : String) (conn : ConnId) (now : Time) : Begun :=
  match h.heap[ref]? with
  | none => (h, .error .sessionNotFound, [])
  | some s =>
      match s.connOf .host with
      | none => (h, .error .sessionNotFound, [])
      | some hostConn =>
          match s.attach .guest conn ip now with
          | none => (h, .error .sessionFull, [])
          | some s =>
              ((h.setSession ref s).take ip, .ok { ref := ref, role := .guest },
                [sendEnvelope hostConn (.paired s.ID), sendEnvelope conn (.paired s.ID)])

/-- `JoinSession`: the session is looked up, the limit of the address is checked,
and the connection is attached as guest. -/
def JoinSession (h : Hub) (id ip : String) (conn : ConnId) (now : Time) : Begun :=
  match h.sessions.lookup id with
  | none => (h, .error .sessionNotFound, [])
  | some ref =>
      if h.full ip then (h, .error .tooManySessions, []) else h.attachGuest ref ip conn now

/-- `fmt.Sprintf("%06d", n)`: six decimal digits, filled up with zeros in front. -/
def formatCode (n : Nat) : String :=
  let s := toString n
  "".pushn '0' (6 - s.length) ++ s

/-- The loop of `newUniqueCodeLocked` over what `rand.Int` returns. -/
def newUniqueCode (h : Hub) : List (Except String (Fin 1000000)) → Except BeginError String
  | [] => .error .noUnusedCode
  | .error err :: _ => .error (.generatePairingCode err)
  | .ok n :: draws =>
      if (h.codes (formatCode n)).isNone then .ok (formatCode n) else h.newUniqueCode draws

/-- `CreateCodeSession`: as `CreateSession`, but with a code that is not in use,
which is put in the table and told to the host. A code that cannot be drawn is
found out before the session is made. -/
def CreateCodeSession (h : Hub) (ip : String) (conn : ConnId) (now : Time)
    (id : Except String String) (draws : Fin 20 → Except String (Fin 1000000)) : Begun :=
  if h.full ip then (h, .error .tooManySessions, [])
  else match id with
    | .error err => (h, .error (.generateSessionID err), [])
    | .ok id =>
        match h.newUniqueCode (List.ofFn draws) with
        | .error err => (h, .error err, [])
        | .ok code =>
            let expiresAt := now + h.cfg.PairingCodeTTL
            let (h, slot) := h.addSession id ip conn now
            ({ h with codes := Function.update h.codes code (some ⟨id, expiresAt⟩) }, .ok slot,
              [sendEnvelope conn (.codeSessionCreated code expiresAt)])

/-- The budget of this window: what is recorded for the address, or a fresh one
when that is too old. -/
def guessBudget (h : Hub) (ip : String) (now : Time) : GuessBudget :=
  match h.guesses ip with
  | none => { count := 0, windowStart := now }
  | some b =>
      if now - b.windowStart ≥ h.cfg.PairingCodeTTL then { count := 0, windowStart := now } else b

/-- `checkAndRecordGuessLocked`: whether the address may guess once more, and the
guess recorded if it may. -/
def checkAndRecordGuess (h : Hub) (ip : String) (now : Time) : Hub × Bool :=
  let b := h.guessBudget ip now
  if (b.count : Int) ≥ h.cfg.MaxPairingAttempts then
    ({ h with guesses := Function.update h.guesses ip (some b) }, false)
  else
    ({ h with guesses := Function.update h.guesses ip (some { b with count := b.count + 1 }) }, true)

/-- `JoinByCode` up to `attachGuest`: the session the code is for. -/
def resolveCode (h : Hub) (code ip : String) (now : Time) : Hub × Except BeginError Nat :=
  let (h, allowed) := h.checkAndRecordGuess ip now
  if !allowed then (h, .error .tooManyAttempts)
  else
    let entry := h.codes code
    let h := { h with codes := Function.update h.codes code none }
    match entry with
    | none => (h, .error .invalidCode)
    | some entry =>
        if now > entry.expiresAt then (h, .error .invalidCode)
        else if h.full ip then (h, .error .tooManySessions)
        else match h.sessions.lookup entry.sessionID with
          | none => (h, .error .sessionNotFound)
          | some ref => (h, .ok ref)

/-- `JoinByCode`: the guess is counted and its code resolved, and where that leads
to a session the connection is attached to it as guest. -/
def JoinByCode (h : Hub) (code ip : String) (conn : ConnId) (now : Time) : Begun :=
  match h.resolveCode code ip now with
  | (h, .error err) => (h, .error err, [])
  | (h, .ok ref) => h.attachGuest ref ip conn now

/-- `RegisterReconnectToken`: the handler of a slot leaves the token with which
the slot can be resumed. -/
def RegisterReconnectToken (h : Hub) (slot : Slot) (token : Bytes) : Hub :=
  match h.heap[slot.ref]? with
  | none => h
  | some s => h.setSession slot.ref (s.setReconnectToken slot.role token)

/-- `Reconnect`: a dropped slot goes to who presents its token, the peer hears of
it before the client does, and whatever does not fit is one error. -/
def Reconnect (h : Hub) (sessionID : String) (role : Role) (token : Bytes) (ip : String)
    (conn : ConnId) (now : Time) : Begun :=
  match h.sessions.lookup sessionID with
  | none => (h, .error .invalidReconnectToken, [])
  | some ref =>
      if h.full ip then (h, .error .tooManySessions, [])
      else match (h.heap[ref]?).bind (·.reattach role token conn ip now) with
        | none => (h, .error .invalidReconnectToken, [])
        | some s =>
            ((h.setSession ref s).take ip, .ok { ref := ref, role := role },
              ((s.connOf role.other).map (sendEnvelope · .peerReconnected)).toList
                ++ [sendEnvelope conn .reconnected])

/-- `abortOversizedFile`: the notice goes to each side of the session that is
connected. -/
def abortOversizedFile (s : Session) (fileID : FileId) : List Effect :=
  [Role.host, Role.guest].filterMap fun role =>
    (s.connOf role).map (sendEnvelope · (.fileAbort fileID.hex FileAbortReasonSizeLimit))

/-- `Relay`; the abort of an oversized file is deferred. -/
def Relay (h : Hub) (slot : Slot) (binary : Bool) (data : Bytes) (now : Time) : Hub × List Effect :=
  match h.heap[slot.ref]? with
  | none => (h, [])
  | some s =>
      let s := s.touch now
      let (s, fileID, drop, sendAbort) :=
        if binary then s.recordChunkBytes data h.cfg.MaxFileSize else (s, none, false, false)
      let h := h.setSession slot.ref s
      if drop then (h, [])
      else
        let relayed := match s.connOf slot.role.other with
          | none => []
          | some other => [Effect.send other (.relayed binary data)]
        let aborts := match fileID with
          | some fileID => if sendAbort then abortOversizedFile s fileID else []
          | none => []
        (h, relayed ++ aborts)

/-- `closeAndRelease`: the address gets its session back before the connection is
closed for the reason given. -/
def closeAndRelease (h : Hub) (conn : ConnId) (ip reason : String) : Hub × List Effect :=
  (h.release ip, [.close conn reason])

/-- A live peer is told why, closed and released. -/
def notifyAndClose (h : Hub) (peer : Option (ConnId × String)) (reason : String) :
    Hub × List Effect :=
  match peer with
  | none => (h, [])
  | some (conn, ip) =>
      let (h, effects) := h.closeAndRelease conn ip reason
      (h, sendEnvelope conn (.sessionEnded reason) :: effects)

/-- `EndSession`: the other peer is told and closed, and the session is taken out
of the map. The slot of the caller stays marked. -/
def EndSession (h : Hub) (slot : Slot) : Hub × List Effect :=
  match h.heap[slot.ref]? with
  | none => (h, [])
  | some s =>
      let (h, effects) := h.notifyAndClose (s.connAndIP slot.role.other) ReasonEndedByPeer
      (h.removeByID s.ID, effects)

/-- `HandleDisconnect`: the slot is free to be resumed, its address gets its
session back, and the other peer is told if it is there. -/
def HandleDisconnect (h : Hub) (slot : Slot) (now : Time) : Hub × List Effect :=
  match h.heap[slot.ref]? with
  | none => (h, [])
  | some s =>
      let (s, other, ip) := s.markDisconnected slot.role now
      ((h.setSession slot.ref s).release ip, (other.map (sendEnvelope · .peerDisconnected)).toList)

/-- `graceExpired`: the slot has been without a connection for the whole grace
period. -/
def graceExpired (h : Hub) (slot : SlotSnapshot) (now : Time) : Bool :=
  slot.disconnectedSince.any fun since => now - since ≥ h.cfg.ReconnectGracePeriod

/-- Why `reapSession` would end a session now: it has been idle too long, or a
peer has been gone too long. -/
def reapReason (h : Hub) (snap : Snapshot) (now : Time) : Option String :=
  if snap.idle ≥ h.cfg.SessionInactivityTimeout then some ReasonInactivityTimeout
  else if h.graceExpired (snap.slots .host) now || h.graceExpired (snap.slots .guest) now then
    some ReasonPeerTimeout
  else none

/-- `reapSession`: a session that is dead by its snapshot is ended for both peers
and taken out of the map. -/
def reapSession (h : Hub) (s : Session) (now : Time) : Hub × List Effect :=
  let snap := s.snapshot now
  match h.reapReason snap now with
  | none => (h, [])
  | some reason =>
      let (h, host) := h.notifyAndClose (snap.slots .host).live reason
      let (h, guest) := h.notifyAndClose (snap.slots .guest).live reason
      (h.removeByID s.ID, host ++ guest)

/-- The first half of `ReapOnce`: expired codes and guess budgets go. -/
def sweep (h : Hub) (now : Time) : Hub :=
  { h with
    codes := fun code => (h.codes code).filter fun entry => ¬ now > entry.expiresAt
    guesses := fun ip => (h.guesses ip).filter fun b =>
      ¬ now - b.windowStart ≥ h.cfg.PairingCodeTTL }

/-- The second half, over the ids in the order in which the map gave them. -/
def reapAll (h : Hub) (now : Time) : List String → Hub × List Effect
  | [] => (h, [])
  | id :: ids =>
      match (h.sessions.lookup id).bind fun ref => h.heap[ref]? with
      | none => h.reapAll now ids
      | some s =>
          let (h, effects) := h.reapSession s now
          let (h, effects') := h.reapAll now ids
          (h, effects ++ effects')

/-- `ReapOnce`: the sweep of codes and budgets, then one look at every session, in
the order in which the map is ranged over. -/
def ReapOnce (h : Hub) (now : Time) (ids : List String) : Hub × List Effect :=
  (h.sweep now).reapAll now ids

/-! ## One message of a handler whose session is there -/

variable {h : Hub} {s t : Session} {data : Bytes} {now : Time}

/-- `Relay` of a binary frame, from what `recordChunkBytes` says of it. -/
theorem Relay_binary (slot : Slot) {fileID : Option FileId} {drop sendAbort : Bool}
    (hs : h.heap[slot.ref]? = some s)
    (hrecord : (s.touch now).recordChunkBytes data h.cfg.MaxFileSize =
      (t, fileID, drop, sendAbort)) :
    h.Relay slot true data now = (h.setSession slot.ref t, if drop then [] else
      ((t.connOf slot.role.other).map (Effect.send · (.relayed true data))).toList ++
        match fileID with
        | some fileID => if sendAbort then abortOversizedFile t fileID else []
        | none => []) := by
  rw [Relay, hs]
  dsimp only
  rw [if_pos rfl, hrecord]
  dsimp only
  cases drop <;> cases t.connOf slot.role.other <;> rfl

theorem Relay_text (slot : Slot) (hs : h.heap[slot.ref]? = some s) :
    h.Relay slot false data now = (h.setSession slot.ref (s.touch now),
      ((s.connOf slot.role.other).map (Effect.send · (.relayed false data))).toList) := by
  have hsame : (s.touch now).connOf slot.role.other = s.connOf slot.role.other := rfl
  rw [Relay, hs]
  dsimp only
  rw [if_neg Bool.false_ne_true]
  dsimp only
  rw [if_neg Bool.false_ne_true, hsame, List.append_nil]
  cases s.connOf slot.role.other <;> rfl

end Hub

end Quicksend.Server
