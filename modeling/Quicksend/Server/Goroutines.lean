import Quicksend.Server.Handler

/-!
# The handlers of the relay, interleaved

One goroutine for each connection and one for the reaper. A step is one
critical section, of the hub's mutex or of a session's, or one write: between
any two of them the other goroutines run.
-/

namespace Quicksend.Server

/-- What a goroutine does next. `tell` looks a connection up before it writes;
`record` is `recordChunkBytes` of a frame from the slot, and what `Relay` does
after it. -/
inductive Action where
  | take (ip : String)
  | release (ip : String)
  | remove (id : String)
  | send (conn : ConnId) (frame : Frame)
  | close (conn : ConnId) (reason : String)
  | tell (slot : Slot) (frame : Frame)
  | record (slot : Slot) (data : Bytes)
  deriving DecidableEq

/-- The peer slot across from this one: the same session, the other of its two
roles. -/
def Slot.other (slot : Slot) : Slot := { slot with role := slot.role.other }

/-- How far a handler has come. `joining` and `attaching` are inside
`attachGuest`, before and after the host's connection is looked up; `resuming`
is inside `Reconnect`. -/
inductive Pc where
  | fresh
  | joining (ref : Nat)
  | attaching (ref : Nat) (hostConn : ConnId)
  | resuming (slot : Slot) (token : Bytes)
  | serving (slot : Slot)
  | ended (slot : Slot)
  | left (slot : Slot)
  | refused
  deriving DecidableEq

/-- One connection of the relay and the goroutine that serves it: where it stands,
what it has still to do, and what went out on it. -/
structure Thread where
  ip : String
  /-- The first message, once read. -/
  first : Option First
  pc : Pc
  todo : List Action
  /-- What was written on the connection, in order. -/
  sent : List Frame
  closed : Bool
  deriving DecidableEq

/-- Where `ReapOnce` is: the ids still to be looked up, and the session found. -/
inductive ReaperPc where
  | idle
  | scanning (now : Time) (ids : List String)
  | found (now : Time) (ids : List String) (ref : Nat)
  deriving DecidableEq

/-- The whole relay at one instant: the hub behind its lock, a thread for each
connection, and the reaper with the writes it owes. -/
structure Goroutines where
  hub : Hub
  threads : List Thread
  reaper : ReaperPc
  reaperTodo : List Action

/-- `accept` is a new connection, `begin` its first message, `attach` the next
critical section on its way to a slot, `act` what it has to do next. -/
inductive Step where
  | accept (ip : String)
  | begin (c : ConnId) (first : First) (now : Time) (draws : Draws)
  | attach (c : ConnId) (now : Time)
  | act (c : ConnId)
  | frame (c : ConnId) (msg : Incoming) (now : Time)
  | drop (c : ConnId)
  | readError (c : ConnId) (now : Time)
  | reap (now : Time) (ids : List String)
  | look
  | snap
  | reapAct

/-- No session is ended and nothing is reaped. -/
def Step.keepsSessions : Step → Prop
  | .frame _ .endSession _ | .reap _ _ | .look | .snap | .reapAct => False
  | _ => True

instance (e : Step) : Decidable e.keepsSessions := by
  unfold Step.keepsSessions
  split <;> infer_instance

namespace Thread

/-- The goroutine of a connection just upgraded: it waits for a first message, and
nothing was written to it. -/
def accept (ip : String) : Thread :=
  { ip := ip, first := none, pc := .fresh, todo := [], sent := [], closed := false }

/-- `Conn.WriteJSON` or `WriteMessage`: the frame joins what was written on this
connection, behind the earlier ones. -/
def write (frame : Frame) (t : Thread) : Thread := { t with sent := t.sent ++ [frame] }

/-- The connection is closed; what was written on it before stays on record, and
its goroutine runs on to its end. -/
def shut (t : Thread) : Thread := { t with closed := true }

/-- The writes and closes that the goroutine has still to make, outside the lock,
before it can go on. -/
def setTodo (todo : List Action) (t : Thread) : Thread := { t with todo := todo }

/-- The goroutine goes on at `pc` and owes the writes and closes of `todo`, as the
critical section left them. -/
def goto (pc : Pc) (todo : List Action) (t : Thread) : Thread := { t with pc := pc, todo := todo }

end Thread

/-- The session of a reference, as its methods see it. -/
def Hub.connAt (h : Hub) (slot : Slot) : Option ConnId :=
  (h.heap[slot.ref]?).bind (·.connOf slot.role)

/-- `JoinSession` up to `attachGuest`: the session is looked up and the address's
limit tested, under the hub's lock. -/
def Hub.findSession (h : Hub) (id ip : String) : Except BeginError Nat :=
  match h.sessions.lookup id with
  | none => .error .sessionNotFound
  | some ref => if h.full ip then .error .tooManySessions else .ok ref

/-- `Reconnect` up to `reattach`: the session is looked up and the address's limit
tested, under the hub's lock. -/
def Hub.findResumable (h : Hub) (sessionID ip : String) : Except BeginError Nat :=
  match h.sessions.lookup sessionID with
  | none => .error .invalidReconnectToken
  | some ref => if h.full ip then .error .tooManySessions else .ok ref

/-- What a hub operation asked for, as something the calling goroutine does once
it has let go of the lock. -/
def Action.ofEffect : Effect → Action
  | .send conn frame => .send conn frame
  | .close conn reason => .close conn reason

/-- `sendError`, and the deferred close: what a goroutine does whose first message
was refused. -/
def refuse (conn : ConnId) (first : First) (err : BeginError) : Pc × List Action :=
  (.refused, [.send conn (.control (.error (errCode err) (refusal first err))),
    .close conn "connection closed"])

/-- The first critical section of `beginSession`: what the hub does with a first
message before it lets go of its lock. -/
def enter (h : Hub) (first : First) (ip : String) (conn : ConnId) (now : Time) (draws : Draws) :
    Hub × Pc × List Action :=
  match first with
  | .createSession => created (h.CreateSession ip conn now draws.id)
  | .createCodeSession => created (h.CreateCodeSession ip conn now draws.id draws.codes)
  | .join (some sessionID) => (h, found (h.findSession sessionID ip) .joining)
  | .joinByCode (some code) =>
      let (h, ref) := h.resolveCode code ip now
      (h, found ref .joining)
  | .reconnect (some payload) =>
      match parseRole payload.role, decodeString payload.tokenHex with
      | some role, some token =>
          (h, found (h.findResumable payload.sessionID ip) fun ref => .resuming ⟨ref, role⟩ token)
      | _, _ => (h, refuse conn first .invalidMessage)
  | .binary | .malformed | .join none | .joinByCode none | .reconnect none | .other =>
      (h, refuse conn first .invalidMessage)
where
  created : Hub.Begun → Hub × Pc × List Action
    | (h, .ok slot, effects) => (h, .serving slot, effects.map Action.ofEffect)
    | (h, .error err, _) => (h, refuse conn first err)
  found (ref : Except BeginError Nat) (next : Nat → Pc) : Pc × List Action :=
    match ref with
    | .ok ref => (next ref, [])
    | .error err => refuse conn first err

/-- The next critical section of `attachGuest` or `Reconnect`. -/
def attachNext (h : Hub) (pc : Pc) (first : First) (ip : String) (conn : ConnId) (now : Time) :
    Option (Hub × Pc × List Action) :=
  match pc with
  | .joining ref =>
      match h.connAt ⟨ref, .host⟩ with
      | none => some (h, refuse conn first .sessionNotFound)
      | some hostConn => some (h, .attaching ref hostConn, [])
  | .attaching ref hostConn =>
      match h.heap[ref]? with
      | none => none
      | some s =>
          match s.attach .guest conn ip now with
          | none => some (h, refuse conn first .sessionFull)
          | some t =>
              some (h.setSession ref t, .serving ⟨ref, .guest⟩,
                [.take ip, .send hostConn (.control (.paired t.ID)),
                  .send conn (.control (.paired t.ID))])
  | .resuming slot token =>
      match h.heap[slot.ref]? with
      | none => none
      | some s =>
          match s.reattach slot.role token conn ip now with
          | none => some (h, refuse conn first .invalidReconnectToken)
          | some t =>
              some (h.setSession slot.ref t, .serving slot,
                [.take ip, .tell slot.other (.control .peerReconnected),
                  .send conn (.control .reconnected)])
  | .fresh | .serving _ | .ended _ | .left _ | .refused => none

namespace Goroutines

/-- The relay as `NewHub` leaves it: no session, no connection, and a reaper that
waits for its first tick. -/
def init (cfg : Config) : Goroutines :=
  { hub := Hub.new cfg, threads := [], reaper := .idle, reaperTodo := [] }

/-- Change the thread of connection `c` by `f`; every other thread, the hub and
the reaper stay as they are. -/
def modify (x : Goroutines) (c : ConnId) (f : Thread → Thread) : Goroutines :=
  { x with threads := x.threads.modify c f }

/-- The relay with hub `h`, as a goroutine leaves it when it lets go of the lock;
no thread moves. -/
def setHub (x : Goroutines) (h : Hub) : Goroutines := { x with hub := h }

/-- What is recorded of a frame: the session after it, and what is left to do. -/
def recorded (h : Hub) (slot : Slot) (data : Bytes) : Hub × List Action :=
  match h.heap[slot.ref]? with
  | none => (h, [])
  | some s =>
      let (s, fileID, drop, sendAbort) := s.recordChunkBytes data h.cfg.MaxFileSize
      let aborts := match fileID with
        | some fileID =>
            if sendAbort then
              [Role.host, Role.guest].map fun role => Action.tell ⟨slot.ref, role⟩
                (.control (.fileAbort fileID.hex FileAbortReasonSizeLimit))
            else []
        | none => []
      (h.setSession slot.ref s,
        if drop then [] else .tell slot.other (.relayed true data) :: aborts)

/-- One action, and what it leads to before the goroutine goes on. -/
def perform (x : Goroutines) (a : Action) : Goroutines × List Action :=
  match a with
  | .take ip => (x.setHub (x.hub.take ip), [])
  | .release ip => (x.setHub (x.hub.release ip), [])
  | .remove id => (x.setHub (x.hub.removeByID id), [])
  | .send conn frame => (x.modify conn (Thread.write frame), [])
  | .close conn _ => (x.modify conn Thread.shut, [])
  | .tell slot frame => (x, ((x.hub.connAt slot).map (Action.send · frame)).toList)
  | .record slot data =>
      let (h, more) := recorded x.hub slot data
      (x.setHub h, more)

/-- What ends a live peer, for the reason given. -/
def notifyAndClose (peer : Option (ConnId × String)) (reason : String) : List Action :=
  match peer with
  | none => []
  | some (conn, ip) =>
      [.send conn (.control (.sessionEnded reason)), .close conn reason, .release ip]

/-- The first critical section of what a handler does with a message, how it
goes on, and what is left to do. -/
def receive (h : Hub) (c : ConnId) (slot : Slot) (s : Session) (msg : Incoming) (now : Time) :
    Hub × Pc × List Action :=
  match msg with
  | .endSession =>
      (h, .ended slot, notifyAndClose (s.connAndIP slot.role.other) ReasonEndedByPeer ++
        [.remove s.ID, .close c "connection closed"])
  | .reconnectToken tokenHex => (Relay.handleReconnectToken h slot tokenHex, .serving slot, [])
  | .other binary data =>
      (h.setSession slot.ref (s.touch now), .serving slot,
        -- a text frame is no part of a file and goes on without a record
        if binary then [.record slot data] else [.tell slot.other (.relayed false data)])

/-- What `reapSession` does after its snapshot: notices and closes to both sides,
and the removal, if there is a reason. -/
def reapActions (h : Hub) (s : Session) (now : Time) : List Action :=
  let snap := s.snapshot now
  match h.reapReason snap now with
  | none => []
  | some reason =>
      notifyAndClose (snap.slots .host).live reason ++
        notifyAndClose (snap.slots .guest).live reason ++ [.remove s.ID]

/-- One step of one goroutine: a critical section of the hub as a whole, or a
single write or close outside of it. Any order of such steps is a run. -/
def step (x : Goroutines) (e : Step) : Option Goroutines :=
  match e with
  | .accept ip => some { x with threads := x.threads ++ [Thread.accept ip] }
  | .begin c first now draws =>
      match x.threads[c]? with
      | some t =>
          if t.pc = .fresh then
            let (h, pc, todo) := enter x.hub first t.ip c now draws
            some ((x.setHub h).modify c fun t => { t.goto pc todo with first := some first })
          else none
      | none => none
  | .attach c now =>
      match x.threads[c]? with
      | some t =>
          match t.first.bind (attachNext x.hub t.pc · t.ip c now) with
          | some (h, pc, todo) => some ((x.setHub h).modify c (Thread.goto pc todo))
          | none => none
      | none => none
  | .act c =>
      match x.threads[c]? with
      | some t =>
          match t.todo with
          | a :: todo =>
              let (x, more) := x.perform a
              -- what an action leads to comes before the rest
              some (x.modify c (Thread.setTodo (more ++ todo)))
          | [] => none
      | none => none
  | .frame c msg now =>
      match x.threads[c]? with
      | some t =>
          match t.pc, t.todo with
          -- the handler reads again when what the last frame led to is done
          | .serving slot, [] =>
              match x.hub.heap[slot.ref]? with
              | some s =>
                  let (h, pc, todo) := receive x.hub c slot s msg now
                  some ((x.setHub h).modify c (Thread.goto pc todo))
              | none => none
          | _, _ => none
      | none => none
  | .drop c => if c < x.threads.length then some (x.modify c Thread.shut) else none
  | .readError c now =>
      match x.threads[c]? with
      | some t =>
          match t.pc, t.todo with
          | .serving slot, [] =>
              match x.hub.heap[slot.ref]? with
              | some s =>
                  let (s, other, ip) := s.markDisconnected slot.role now
                  some ((x.setHub (x.hub.setSession slot.ref s)).modify c (Thread.goto (.left slot)
                    (.release ip :: ((other.map fun o => Action.send o (.control .peerDisconnected)).toList
                      ++ [.close c "connection closed"]))))
              | none => none
          | _, _ => none
      | none => none
  | .reap now ids =>
      -- the ids come in the order in which the map is ranged over, which is any
      if x.reaper = .idle ∧ x.reaperTodo = [] ∧ ids.Perm x.hub.sessions.keys then
        some { x with hub := x.hub.sweep now, reaper := .scanning now ids }
      else none
  | .look =>
      if x.reaperTodo = [] then
        match x.reaper with
        | .scanning _ [] => some { x with reaper := .idle }
        | .scanning now (id :: ids) =>
            match x.hub.sessions.lookup id with
            | some ref => some { x with reaper := .found now ids ref }
            -- the session was taken out since the ids were listed
            | none => some { x with reaper := .scanning now ids }
        | .idle | .found _ _ _ => none
      else none
  | .snap =>
      match x.reaper with
      | .found now ids ref =>
          match x.hub.heap[ref]? with
          | some s =>
              some { x with
                reaper := .scanning now ids
                reaperTodo := reapActions x.hub s now }
          | none => none
      | .idle | .scanning _ _ => none
  | .reapAct =>
      match x.reaperTodo with
      | a :: todo =>
          let (x, more) := x.perform a
          some { x with reaperTodo := more ++ todo }
      | [] => none

end Goroutines

end Quicksend.Server
