import Quicksend.Server.Pipe

/-!
# The keepalive of two paired connections (`conn.go`, `handler.go`)

Each connection has a mutex that every write takes, a read loop that relays
to the other one, and a ping loop that keeps the mutex from the ping until
the read loop of its own connection comes across the pong. The pong queues
behind what the client has sent before it. A ping runs into its timeout only
where nothing else is left to happen.
-/

namespace Quicksend.Server.Keepalive

/-- What a client has sent and the relay has yet to read: messages, and pongs
among them. -/
inductive Up where
  | pong
  | msg (m : Incoming)
  deriving DecidableEq

/-- What a client has yet to receive: frames of the relay, and pings among them. -/
inductive Down where
  | ping
  | frame (f : Frame)
  deriving DecidableEq

/-- Who has locked the mutex of a connection: its ping loop, or a read loop
that writes to it. -/
inductive Holder where
  | pinger
  | reader (role : Role)
  deriving DecidableEq

/-- `pingLoop`: between two ticks, blocked on the mutex, in `raw.Ping`, or
returned after it has closed the connection. -/
inductive Pinger where
  | idle
  | locking
  | waiting
  | closed
  deriving DecidableEq

/-- A connection. `job` are the writes that its read loop still has to make
for the frame in hand, each to the connection of a role. -/
structure Link where
  up : List Up
  down : List Down
  mu : Option Holder
  pinger : Pinger
  job : List (Role × Frame)
  deriving DecidableEq

/-- The relay and the connections of both sides, each with what is on its way, who
holds its write lock and where its ping loop is. -/
structure State where
  relay : Relay
  link : Role → Link

/-- The session of the pair, and its connections. -/
structure Pair where
  ref : Nat
  conn : Role → ConnId

/-- Nothing is under way on either connection, no write lock is held and both ping
loops wait for their ticker. -/
def init (relay : Relay) : State :=
  { relay := relay, link := fun _ => { up := [], down := [], mu := none, pinger := .idle, job := [] } }

/-- `sends` and `hears` are steps of a client, the others of the relay:
`reads`, `locks` and `writes` of a read loop, the rest of a ping loop. -/
inductive Event where
  | sends (role : Role) (m : Incoming)
  | hears (role : Role)
  | reads (role : Role) (now : Time)
  | locks (role : Role)
  | writes (role : Role)
  | ticks (role : Role)
  | pings (role : Role)
  | expires (role : Role)
  deriving DecidableEq

/-- Put `l` in the place of the connection of role `r`; the relay and the other
connection stay as they are. -/
def State.put (x : State) (r : Role) (l : Link) : State :=
  { x with link := Function.update x.link r l }

namespace Pair

variable (p : Pair)

/-- The end of the pair that a connection is. -/
def roleOf (conn : ConnId) : Option Role :=
  if conn = p.conn .host then some .host
  else if conn = p.conn .guest then some .guest
  else none

/-- The frames that a hub operation asks to be written, each with the end of the
pair that it goes to. -/
def writesOf (effects : List Effect) : List (Role × Frame) :=
  effects.filterMap fun effect =>
    match effect with
    | .send conn frame => (p.roleOf conn).map fun role => (role, frame)
    | .close _ _ => none

end Pair

section
variable (p : Pair)

/-- Every event but the end of a timeout. The session is not ended. -/
def move (x : State) : Event → Option State
  | .sends r m =>
      let l := x.link r
      if m = .endSession then none else some (x.put r { l with up := l.up ++ [.msg m] })
  | .hears r =>
      let l := x.link r
      match l.down with
      | .ping :: down => some (x.put r { l with down := down, up := l.up ++ [.pong] })
      | .frame _ :: down => some (x.put r { l with down := down })
      | [] => none
  | .reads r now =>
      let l := x.link r
      -- the read loop reads again when its writes are made
      if l.job ≠ [] ∨ l.pinger = .closed then none
      else match l.up with
      | .pong :: up =>
          -- reading the pong lets the ping return, which unlocks the mutex
          if l.pinger = .waiting then some (x.put r { l with up := up, pinger := .idle, mu := none })
          else some (x.put r { l with up := up })
      | .msg m :: up =>
          let (relay, effects) := x.relay.read (p.conn r) ⟨p.ref, r⟩ m now
          some { x.put r { l with up := up, job := p.writesOf effects } with relay := relay }
      | [] => none
  | .locks r =>
      match (x.link r).job with
      | (t, _) :: _ =>
          let l := x.link t
          -- the mutex is that of the connection written to
          if l.mu = none then some (x.put t { l with mu := some (.reader r) }) else none
      | [] => none
  | .writes r =>
      let l := x.link r
      match l.job with
      | (t, f) :: job =>
          if (x.link t).mu = some (.reader r) then
            let y := x.put r { l with job := job }
            let m := y.link t
            some (y.put t { m with mu := none, down := m.down ++ [.frame f] })
          else none
      | [] => none
  | .ticks r =>
      let l := x.link r
      if l.pinger = .idle then some (x.put r { l with pinger := .locking }) else none
  | .pings r =>
      let l := x.link r
      if l.pinger = .locking ∧ l.mu = none then
        some (x.put r { l with pinger := .waiting, mu := some .pinger, down := l.down ++ [.ping] })
      else none
  | .expires _ => none

/-- What the relay or a client does without a reason from outside. -/
def moves (r : Role) : List Event := [.hears r, .reads r 0, .locks r, .writes r, .pings r]

/-- Nobody can go on: no loop and no client of the pair has a step to take. -/
def stalled (x : State) : Bool :=
  (moves .host ++ moves .guest).all fun e => (move p x e).isNone

/-- A step of a client, a read loop or a ping loop. A ping gives up only where
nothing else can happen any more. -/
def step (x : State) (e : Event) : Option State :=
  match e with
  | .expires r =>
      let l := x.link r
      -- a timeout runs out only once nothing else can happen
      if (l.pinger = .locking ∨ l.pinger = .waiting) ∧ stalled p x then
        some (x.put r { l with pinger := .closed, mu := if l.pinger = .waiting then none else l.mu })
      else none
  | e => move p x e

end

/-! ## The circular wait -/

/-- The ping is out, and its read loop is blocked on the mutex that the ping
of the other connection holds. -/
def Blocked (x : State) (r : Role) : Prop :=
  (x.link r).pinger = .waiting ∧ (x.link r.other).mu = some .pinger ∧
    ((x.link r).job.head?.map Prod.fst) = some r.other

/-- Each of the two pings waits for the other to return. -/
def CircularWait (x : State) : Prop := ∀ r, Blocked x r

/-- A frame for which the read loop needs a mutex. -/
def carries : Up → Bool
  | .msg (.other _ _) => true
  | _ => false

/-- Before the next pong no message comes whose handling writes to the other side. -/
def clearUp : List Up → Bool
  | [] => true
  | .pong :: _ => true
  | .msg m :: up => !carries (.msg m) && clearUp up

/-- The read loop gets to the pong without a mutex. -/
def Link.clear (l : Link) : Bool := l.job.isEmpty && clearUp l.up

/-- The relay stops a file at this frame, and tells both clients. -/
def stopsFile (p : Pair) (x : State) (u : Up) (now : Time) : Bool :=
  match u, x.relay.hub.heap[p.ref]? with
  | .msg (.other true data), some s =>
      ((s.touch now).recordChunkBytes data x.relay.hub.cfg.MaxFileSize).2.2.2
  | _, _ => false

/-- While both pings are out, one of the two read loops gets to its pong
without a mutex; and no read loop has to write to its own client while the
ping of that client is out. -/
def Careful (p : Pair) (x : State) : Event → Prop
  | .pings r =>
      ((x.link r.other).pinger = .waiting → (x.link r).clear = true ∨ (x.link r.other).clear = true) ∧
        ∀ j ∈ (x.link r).job, j.1 ≠ r
  | .sends r m =>
      carries (.msg m) = true → .pong ∉ (x.link r).up → (x.link r).pinger = .waiting →
        (x.link r.other).pinger = .waiting → (x.link r.other).clear = true
  | .reads r now =>
      (x.link r).pinger = .waiting → ∀ u ∈ (x.link r).up.head?, stopsFile p x u now = false
  | _ => True

instance (x : State) (r : Role) : Decidable (Blocked x r) :=
  inferInstanceAs (Decidable (_ ∧ _ ∧ _))

instance (p : Pair) (x : State) : DecidablePred (Careful p x)
  | .pings r => inferInstanceAs (Decidable ((_ → _ ∨ _) ∧ ∀ j ∈ (x.link r).job, _))
  | .sends _ _ => inferInstanceAs (Decidable (_ → _ → _ → _ → _))
  | .reads r _ => inferInstanceAs (Decidable (_ → ∀ u ∈ (x.link r).up.head?, _))
  | .hears _ | .locks _ | .writes _ | .ticks _ | .expires _ => isTrue trivial

/-! ## What a read loop has to write -/

variable {p : Pair}

theorem roleOf_conn {relay : Relay} (h : Piped.Connected relay p.ref p.conn) (r : Role) :
    p.roleOf (p.conn r) = some r := by
  cases r with
  | host => exact if_pos rfl
  | guest =>
      have hne : p.conn .guest ≠ p.conn .host := fun heq => Role.noConfusion (h.conn_inj.mp heq)
      rw [Pair.roleOf, if_neg hne, if_pos rfl]

/-- Unless a file is stopped, a frame is written to the other client alone. -/
theorem writesOf_read {x : State} (h : Piped.Connected x.relay p.ref p.conn) {r : Role}
    {m : Incoming} {now : Time} (hm : m ≠ .endSession) (hstop : stopsFile p x (.msg m) now = false) :
    ∀ j ∈ p.writesOf (x.relay.read (p.conn r) ⟨p.ref, r⟩ m now).2, j.1 = r.other := by
  obtain ⟨s, hs, hslots⟩ := h.slots
  have hcopy (binary : Bool) (data : Bytes) :
      p.writesOf [.send (p.conn r.other) (.relayed binary data)]
        = [(r.other, .relayed binary data)] := by
    simp [Pair.writesOf, roleOf_conn h]
  cases m with
  | endSession => exact absurd rfl hm
  | reconnectToken => exact fun j hj => by cases hj
  | other binary data =>
      change ∀ j ∈ p.writesOf (x.relay.hub.Relay ⟨p.ref, r⟩ binary data now).2, _
      cases binary with
      | false =>
          rw [Hub.Relay_text ⟨p.ref, r⟩ hs, hslots r.other]
          change ∀ j ∈ p.writesOf [.send (p.conn r.other) (.relayed false data)], _
          rw [hcopy]
          simp
      | true =>
          simp only [stopsFile, hs] at hstop
          have hsame := (Session.recordChunkBytes_spec (s.touch now) data x.relay.hub.cfg.MaxFileSize).2
          cases hrecord : (s.touch now).recordChunkBytes data x.relay.hub.cfg.MaxFileSize with
          | mk t rest =>
              obtain ⟨fileID, drop, sendAbort⟩ := rest
              rw [hrecord] at hstop hsame
              obtain rfl : sendAbort = false := hstop
              have hother : t.connOf r.other = some (p.conn r.other) := by
                rw [Session.connOf, hsame]
                exact hslots r.other
              rw [Hub.Relay_binary ⟨p.ref, r⟩ hs hrecord, hother]
              cases drop with
              | true => exact fun j hj => by cases hj
              | false =>
                  cases fileID <;>
                    · change ∀ j ∈ p.writesOf [.send (p.conn r.other) (.relayed true data)], _
                      rw [hcopy]
                      simp

theorem clearUp_append {up : List Up} {u : Up} (h : clearUp up = true)
    (hu : .pong ∈ up ∨ carries u = false) : clearUp (up ++ [u]) = true := by
  induction up with
  | nil =>
      have hu := hu.resolve_left (by simp)
      cases u with
      | pong => rfl
      | msg m => simp [clearUp, hu]
  | cons v up ih =>
      cases v with
      | pong => rfl
      | msg m =>
          rw [clearUp, Bool.and_eq_true] at h
          rw [List.cons_append, clearUp, h.1, ih h.2 (hu.imp_left fun hmem => by simpa using hmem)]
          rfl

/-! ## The invariant -/

/-- A ping frame on its way to the client, which the client answers by itself with
a pong. -/
def isPing : Down → Bool
  | .ping => true
  | .frame _ => false

/-- A pong on its way to the relay, which the read loop takes in while it waits
for a message. -/
def isPong : Up → Bool
  | .pong => true
  | .msg _ => false

/-- One connection: a ping that is out is on its way, or its pong is. -/
structure LinkOk (r : Role) (l : Link) : Prop where
  lasting : .msg .endSession ∉ l.up
  token : l.down.countP isPing + l.up.countP isPong = if l.pinger = .waiting then 1 else 0
  pinging : l.mu = some .pinger ↔ l.pinger = .waiting
  own : l.pinger = .waiting → ∀ j ∈ l.job, j.1 ≠ r
  alive : l.pinger ≠ .closed

/-- What every step keeps: the pair stays connected, each connection is in order,
a lock is held by the loop that writes under it, and no circle of waiting pings. -/
structure Inv (p : Pair) (x : State) : Prop where
  connected : Piped.Connected x.relay p.ref p.conn
  link : ∀ r, LinkOk r (x.link r)
  writing : ∀ r t, (x.link t).mu = some (.reader r) → ((x.link r).job.head?.map Prod.fst) = some t
  clear : (∀ r, (x.link r).pinger = .waiting) → ∃ r, (x.link r).clear = true

theorem Inv.init {relay : Relay} (h : Piped.Connected relay p.ref p.conn) :
    Inv p (Keepalive.init relay) where
  connected := h
  link _ := ⟨(by cases ·), rfl, by simp [Keepalive.init], (by cases ·), (by cases ·)⟩
  writing r t ht := by cases ht
  clear h := by cases h .host

@[simp] theorem put_self (x : State) (r : Role) (l : Link) : (x.put r l).link r = l := by
  simp [State.put]

theorem put_ne (x : State) {r q : Role} (l : Link) (h : q ≠ r) : (x.put r l).link q = x.link q := by
  simp [State.put, h]

@[simp] theorem put_relay (x : State) (r : Role) (l : Link) : (x.put r l).relay = x.relay := rfl

/-- A step that changes one connection, and its read loop's writes at most. -/
theorem Inv.put {x y : State} (hx : Inv p x) {r : Role} {l : Link} (hy : y.link = (x.put r l).link)
    (hconn : Piped.Connected y.relay p.ref p.conn) (hl : LinkOk r l)
    (hjob : l.job = (x.link r).job ∨ (x.link r).job = [])
    (hmu : l.mu = (x.link r).mu ∨ ∀ q, l.mu ≠ some (.reader q))
    (hclear : l.pinger = .waiting → (x.link r.other).pinger = .waiting →
      l.clear = true ∨ (x.link r.other).clear = true) : Inv p y := by
  have other (q : Role) (hq : q ≠ r) : y.link q = x.link q := by rw [hy, put_ne x l hq]
  have self : y.link r = l := by rw [hy, put_self]
  refine ⟨hconn, fun q => ?_, fun q t ht => ?_, fun hw => ?_⟩
  · by_cases hq : q = r
    · rw [hq, self]
      exact hl
    · rw [other q hq]
      exact hx.link q
  · -- a lock held by a reader was held before
    have ht' : (x.link t).mu = some (.reader q) := by
      by_cases htr : t = r
      · rw [htr, self] at ht
        rw [htr]
        rcases hmu with hmu | hmu
        · rw [← hmu, ht]
        · exact absurd ht (hmu q)
      · rwa [other t htr] at ht
    have hhead := hx.writing q t ht'
    by_cases hq : q = r
    · rw [hq] at hhead
      rw [hq, self]
      rcases hjob with hjob | hjob
      · rwa [hjob]
      · simp [hjob] at hhead
    · rwa [other q hq]
  · have hself := hw r
    have hother := hw r.other
    rw [self] at hself
    rw [other _ (Role.other_ne r)] at hother
    rcases hclear hself hother with h | h
    · exact ⟨r, by rw [self]; exact h⟩
    · exact ⟨r.other, by rw [other _ (Role.other_ne r)]; exact h⟩

/-- Both pings are out: one of the read loops is clear. -/
theorem Inv.clear_of_waiting {x : State} (hx : Inv p x) {r : Role}
    (h : (x.link r).pinger = .waiting) (h' : (x.link r.other).pinger = .waiting) :
    (x.link r).clear = true ∨ (x.link r.other).clear = true := by
  obtain ⟨q, hq⟩ := hx.clear fun q => by
    rcases Role.eq_or_eq_other r q with rfl | rfl
    · exact h
    · exact h'
  rcases Role.eq_or_eq_other r q with rfl | rfl
  · exact .inl hq
  · exact .inr hq

/-! ## The steps -/

theorem countP_concat {α : Type} (q : α → Bool) (l : List α) (a : α) :
    (l ++ [a]).countP q = l.countP q + if q a then 1 else 0 := by
  rw [List.countP_append, List.countP_singleton]

theorem Inv.sends {x : State} (hx : Inv p x) {r : Role} {m : Incoming} (hm : m ≠ .endSession)
    (hg : Careful p x (.sends r m)) :
    Inv p (x.put r { x.link r with up := (x.link r).up ++ [.msg m] }) := by
  have hl := hx.link r
  refine hx.put rfl hx.connected ⟨?_, ?_, hl.pinging, hl.own, hl.alive⟩ (.inl rfl) (.inl rfl)
    fun hw hw' => ?_
  · simpa [hl.lasting] using fun h => hm h.symm
  · rw [countP_concat]
    exact hl.token
  · rcases hx.clear_of_waiting hw hw' with hclear | hclear
    · -- a message behind the pong, or one that needs no mutex, leaves the read loop clear
      by_cases hu : .pong ∈ (x.link r).up ∨ carries (.msg m) = false
      · refine .inl ?_
        rw [Link.clear, Bool.and_eq_true] at hclear ⊢
        exact ⟨hclear.1, clearUp_append hclear.2 hu⟩
      · rw [not_or] at hu
        exact .inr (hg (by simpa using hu.2) hu.1 hw hw')
    · exact .inr hclear

theorem Inv.hears_ping {x : State} (hx : Inv p x) {r : Role} {down : List Down}
    (hdown : (x.link r).down = .ping :: down) :
    Inv p (x.put r { x.link r with down := down, up := (x.link r).up ++ [.pong] }) := by
  have hl := hx.link r
  refine hx.put rfl hx.connected ⟨?_, ?_, hl.pinging, hl.own, hl.alive⟩ (.inl rfl) (.inl rfl)
    fun hw hw' => ?_
  · simpa using hl.lasting
  · have htoken := hl.token
    rw [hdown, List.countP_cons] at htoken
    rw [countP_concat, ← htoken]
    change down.countP isPing + (_ + 1) = down.countP isPing + 1 + _
    omega
  · refine (hx.clear_of_waiting hw hw').imp_left fun hclear => ?_
    rw [Link.clear, Bool.and_eq_true] at hclear ⊢
    exact ⟨hclear.1, clearUp_append hclear.2 (.inr rfl)⟩

theorem Inv.hears_frame {x : State} (hx : Inv p x) {r : Role} {f : Frame} {down : List Down}
    (hdown : (x.link r).down = .frame f :: down) :
    Inv p (x.put r { x.link r with down := down }) := by
  have hl := hx.link r
  refine hx.put rfl hx.connected ⟨hl.lasting, ?_, hl.pinging, hl.own, hl.alive⟩ (.inl rfl) (.inl rfl)
    fun hw hw' => hx.clear_of_waiting hw hw'
  have htoken := hl.token
  rw [hdown, List.countP_cons] at htoken
  exact htoken

/-- The pong is read, and the ping returns. -/
theorem Inv.reads_pong {x : State} (hx : Inv p x) {r : Role} {up : List Up}
    (hup : (x.link r).up = .pong :: up) :
    (x.link r).pinger = .waiting ∧
      Inv p (x.put r { x.link r with up := up, pinger := .idle, mu := none }) := by
  have hl := hx.link r
  have htoken := hl.token
  rw [hup, List.countP_cons] at htoken
  change _ + (_ + 1) = _ at htoken
  by_cases hw : (x.link r).pinger = .waiting
  · rw [if_pos hw] at htoken
    refine ⟨hw, hx.put rfl hx.connected ⟨?_, ?_, ?_, (by cases ·), (by cases ·)⟩ (.inl rfl)
      (.inr fun q => by simp) (by cases ·)⟩
    · have hlasting := hl.lasting
      rw [hup] at hlasting
      exact fun h => hlasting (List.mem_cons_of_mem _ h)
    · change (x.link r).down.countP isPing + up.countP isPong = 0
      omega
    · exact ⟨(by cases ·), (by cases ·)⟩
  · rw [if_neg hw] at htoken
    -- a pong without a ping that is out
    omega

theorem Inv.reads_msg {x : State} (hx : Inv p x) {r : Role} {m : Incoming} {up : List Up}
    {now : Time} (hup : (x.link r).up = .msg m :: up) (hjob : (x.link r).job = [])
    (hg : Careful p x (.reads r now)) :
    Inv p { x.put r { x.link r with
        up := up, job := p.writesOf (x.relay.read (p.conn r) ⟨p.ref, r⟩ m now).2 } with
      relay := (x.relay.read (p.conn r) ⟨p.ref, r⟩ m now).1 } := by
  have hl := hx.link r
  have hlasting := hl.lasting
  have htoken := hl.token
  rw [hup] at hlasting htoken
  have hm : m ≠ .endSession := by
    rintro rfl
    exact hlasting List.mem_cons_self
  refine hx.put rfl (hx.connected.read r hm now) ⟨?_, ?_, hl.pinging, fun hw j hj => ?_, hl.alive⟩
    (.inr hjob) (.inl rfl) fun hw hw' => ?_
  · exact fun h => hlasting (List.mem_cons_of_mem _ h)
  · rwa [List.countP_cons] at htoken
  · -- no file is stopped here, so the relay writes to the other client alone
    have hstop := hg hw (.msg m) (by rw [hup]; rfl)
    rw [writesOf_read hx.connected hm hstop j hj]
    exact Role.other_ne r
  · refine (hx.clear_of_waiting hw hw').imp_left fun hclear => ?_
    rw [Link.clear, hup, clearUp, Bool.and_eq_true, Bool.and_eq_true] at hclear
    rw [Link.clear, Bool.and_eq_true]
    refine ⟨?_, hclear.2.2⟩
    cases m with
    | endSession => exact absurd rfl hm
    | reconnectToken => rfl
    | other => cases hclear.2.1

theorem Inv.locks {x : State} (hx : Inv p x) {r t : Role} {f : Frame} {job : List (Role × Frame)}
    (hjob : (x.link r).job = (t, f) :: job) (hfree : (x.link t).mu = none) :
    Inv p (x.put t { x.link t with mu := some (.reader r) }) := by
  have hl := hx.link t
  -- a mutex that is free is not held by a ping
  have hno : (x.link t).pinger ≠ .waiting := fun hw => by
    rw [hl.pinging.mpr hw] at hfree
    cases hfree
  have self (q : Role) : ((x.put t { x.link t with mu := some (.reader r) }).link q).job
      = (x.link q).job := by
    by_cases hq : q = t
    · rw [hq, put_self]
    · rw [put_ne x _ hq]
  have pinger (q : Role) : ((x.put t { x.link t with mu := some (.reader r) }).link q).pinger
      = (x.link q).pinger := by
    by_cases hq : q = t
    · rw [hq, put_self]
    · rw [put_ne x _ hq]
  refine ⟨hx.connected, fun q => ?_, fun q t' ht' => ?_, fun hw => ?_⟩
  · by_cases hq : q = t
    · rw [hq, put_self]
      exact ⟨hl.lasting, hl.token, ⟨(by simp), fun h => absurd h hno⟩, hl.own, hl.alive⟩
    · rw [put_ne x _ hq]
      exact hx.link q
  · rw [self]
    by_cases ht : t' = t
    · rw [ht, put_self] at ht'
      obtain rfl : r = q := by simpa using ht'
      rw [hjob, ht]
      rfl
    · rw [put_ne x _ ht] at ht'
      exact hx.writing q t' ht'
  · exact absurd ((pinger t).symm.trans (hw t)) hno

theorem Inv.writes {x : State} (hx : Inv p x) {r t : Role} {f : Frame} {job : List (Role × Frame)}
    (hjob : (x.link r).job = (t, f) :: job) (hheld : (x.link t).mu = some (.reader r)) :
    Inv p ((x.put r { x.link r with job := job }).put t
      { (x.put r { x.link r with job := job }).link t with
        mu := none
        down := ((x.put r { x.link r with job := job }).link t).down ++ [.frame f] }) := by
  -- the reader holds the mutex, so the ping does not
  have hno : (x.link t).pinger ≠ .waiting := fun hw => by
    rw [(hx.link t).pinging.mpr hw] at hheld
    cases hheld
  generalize hy : x.put r { x.link r with job := job } = y
  have hrest (q : Role) : y.link q = { x.link q with job := (y.link q).job } ∧
      ∀ j ∈ (y.link q).job, j ∈ (x.link q).job := by
    by_cases hq : q = r
    · rw [← hy, hq, put_self, hjob]
      exact ⟨rfl, fun j hj => List.mem_cons_of_mem _ hj⟩
    · rw [← hy, put_ne x _ hq]
      exact ⟨rfl, fun j hj => hj⟩
  have hlink (q : Role) : LinkOk q (y.link q) := by
    obtain ⟨heq, hmem⟩ := hrest q
    have hl := hx.link q
    rw [heq]
    exact ⟨hl.lasting, hl.token, hl.pinging, fun hw j hj => hl.own hw j (hmem j hj), hl.alive⟩
  have hno' : (y.link t).pinger ≠ .waiting := by
    rw [(hrest t).1]
    exact hno
  refine ⟨?_, fun q => ?_, fun q t' ht' => ?_, fun hw => ?_⟩
  · rw [put_relay, ← hy]
    exact hx.connected
  · by_cases hq : q = t
    · have hl := hlink t
      rw [hq, put_self]
      refine ⟨hl.lasting, ?_, ⟨(by cases ·), fun h => absurd h hno'⟩, hl.own, hl.alive⟩
      rw [countP_concat]
      exact hl.token
    · rw [put_ne y _ hq]
      exact hlink q
  · by_cases ht : t' = t
    · rw [ht, put_self] at ht'
      cases ht'
    · rw [put_ne y _ ht, (hrest t').1] at ht'
      have hhead := hx.writing q t' ht'
      -- another lock is another reader's: `r` locks for the first of its writes only
      have hqr : q ≠ r := by
        rintro rfl
        rw [hjob] at hhead
        exact ht (Option.some.inj hhead).symm
      have hsame : (y.link q).job = (x.link q).job := by rw [← hy, put_ne x _ hqr]
      by_cases hq : q = t
      · rw [hq, put_self]
        rw [hq] at hhead hsame
        rwa [← hsame] at hhead
      · rw [put_ne y _ hq, hsame]
        exact hhead
  · have := hw t
    rw [put_self] at this
    exact absurd this hno'

theorem Inv.ticks {x : State} (hx : Inv p x) {r : Role} (hidle : (x.link r).pinger = .idle) :
    Inv p (x.put r { x.link r with pinger := .locking }) := by
  have hl := hx.link r
  have hno : (x.link r).mu ≠ some .pinger := fun h => by
    rw [hl.pinging.mp h] at hidle
    cases hidle
  refine hx.put rfl hx.connected
    ⟨hl.lasting, ?_, ⟨fun h => absurd h hno, (by cases ·)⟩, (by cases ·), (by cases ·)⟩ (.inl rfl)
    (.inl rfl) (by cases ·)
  have htoken := hl.token
  rw [hidle] at htoken
  exact htoken

theorem Inv.pings {x : State} (hx : Inv p x) {r : Role} (hlocking : (x.link r).pinger = .locking)
    (hg : Careful p x (.pings r)) :
    Inv p (x.put r { x.link r with
      pinger := .waiting, mu := some .pinger, down := (x.link r).down ++ [.ping] }) := by
  have hl := hx.link r
  refine hx.put rfl hx.connected ⟨hl.lasting, ?_, ⟨fun _ => rfl, fun _ => rfl⟩, fun _ => hg.2,
    (by cases ·)⟩ (.inl rfl) (.inr fun q => by simp) fun _ hw => hg.1 hw
  have htoken := hl.token
  rw [hlocking, if_neg (by simp)] at htoken
  rw [countP_concat, if_pos rfl]
  change (x.link r).down.countP isPing + 1 + (x.link r).up.countP isPong = 1
  omega

/-! ## No timeout runs out -/

/-- What it means that nobody can go on. -/
theorem stalled_spec {x : State} (h : stalled p x = true) (r : Role) :
    move p x (.hears r) = none ∧ move p x (.reads r 0) = none ∧ move p x (.locks r) = none ∧
      move p x (.writes r) = none ∧ move p x (.pings r) = none := by
  have hall (e : Event) (he : e ∈ moves r) : move p x e = none := by
    have := List.all_eq_true.mp h e (by cases r <;> simp [he])
    simpa using this
  exact ⟨hall _ (by simp [moves]), hall _ (by simp [moves]), hall _ (by simp [moves]),
    hall _ (by simp [moves]), hall _ (by simp [moves])⟩

/-- Nobody can go on: a mutex that is locked is locked by a ping. -/
theorem Inv.held {x : State} (hx : Inv p x) (h : stalled p x = true) {t : Role}
    (hmu : (x.link t).mu ≠ none) : (x.link t).pinger = .waiting := by
  obtain ⟨holder, hholder⟩ := Option.ne_none_iff_exists'.mp hmu
  cases holder with
  | pinger => exact (hx.link t).pinging.mp hholder
  | reader q =>
      -- the reader that holds it can write
      have hwrites := (stalled_spec h q).2.2.2.1
      have hhead := hx.writing q t hholder
      cases hjob : (x.link q).job with
      | nil => simp [hjob] at hhead
      | cons j job =>
          rw [hjob] at hhead
          obtain rfl : j.1 = t := Option.some.inj hhead
          simp [move, hjob, hholder] at hwrites

/-- Nobody can go on while a ping is out: the read loop is blocked on the
ping of the other connection. -/
theorem Inv.blocked {x : State} (hx : Inv p x) (h : stalled p x = true) {r : Role}
    (hw : (x.link r).pinger = .waiting) :
    (x.link r).clear = false ∧ (x.link r.other).pinger = .waiting := by
  obtain ⟨hhears, hreads, hlocks, -, -⟩ := stalled_spec h r
  have hl := hx.link r
  -- the client has heard everything, the ping with it
  have hdown : (x.link r).down = [] := by
    cases hdown : (x.link r).down with
    | nil => rfl
    | cons d down => cases d <;> simp [move, hdown] at hhears
  -- so the pong is on its way, and only writes keep the loop from reading it
  have hjob : (x.link r).job ≠ [] := by
    intro hjob
    cases hup : (x.link r).up with
    | nil =>
        have htoken := hl.token
        simp [hdown, hup, hw] at htoken
    | cons u up => cases u <;> simp [move, hjob, hup, hw] at hreads
  obtain ⟨⟨t, f⟩, job, hjob⟩ := List.exists_cons_of_ne_nil hjob
  have hmu : (x.link t).mu ≠ none := fun hfree => by simp [move, hjob, hfree] at hlocks
  -- which are to the other connection
  have ht : t ≠ r := hl.own hw (t, f) (by rw [hjob]; exact List.mem_cons_self)
  obtain rfl := (Role.eq_or_eq_other r t).resolve_left ht
  exact ⟨by simp [Link.clear, hjob], hx.held h hmu⟩

theorem Inv.not_stalled {x : State} (hx : Inv p x) {r : Role}
    (hr : (x.link r).pinger = .locking ∨ (x.link r).pinger = .waiting) : stalled p x = false := by
  by_contra h
  have h : stalled p x = true := by simpa using h
  have hw : (x.link r).pinger = .waiting := by
    refine hr.resolve_left fun hlocking => ?_
    have hpings := (stalled_spec h r).2.2.2.2
    have hmu : (x.link r).mu ≠ none := fun hfree => by simp [move, hlocking, hfree] at hpings
    rw [hx.held h hmu] at hlocking
    cases hlocking
  obtain ⟨hnot, hw'⟩ := hx.blocked h hw
  -- both would be blocked, but one of them is clear
  rcases hx.clear_of_waiting hw hw' with hclear | hclear
  · simp [hnot] at hclear
  · simp [(hx.blocked h hw').1] at hclear

/-- No read loop that is clear is part of a circular wait. -/
theorem Inv.not_circular {x : State} (hx : Inv p x) : ¬ CircularWait x := fun h => by
  obtain ⟨r, hr⟩ := hx.clear fun r => (h r).1
  have hhead := (h r).2.2
  rw [Link.clear, Bool.and_eq_true, List.isEmpty_iff] at hr
  simp [hr.1] at hhead

theorem Inv.step {x y : State} {e : Event} (hx : Inv p x) (hg : Careful p x e)
    (h : step p x e = some y) : Inv p y := by
  cases e with
  | sends r m =>
      simp only [Keepalive.step, move] at h
      split at h
      next => cases h
      next hm =>
        obtain rfl := Option.some.inj h
        exact hx.sends hm hg
  | hears r =>
      simp only [Keepalive.step, move] at h
      split at h
      next down hdown =>
        obtain rfl := Option.some.inj h
        exact hx.hears_ping hdown
      next f down hdown =>
        obtain rfl := Option.some.inj h
        exact hx.hears_frame hdown
      next => cases h
  | reads r now =>
      simp only [Keepalive.step, move] at h
      split at h
      next => cases h
      next hidle =>
        rw [not_or, not_not] at hidle
        split at h
        next up hup =>
          obtain ⟨hw, hy⟩ := hx.reads_pong hup
          rw [if_pos hw] at h
          obtain rfl := Option.some.inj h
          exact hy
        next m up hup =>
          obtain rfl := Option.some.inj h
          exact hx.reads_msg hup hidle.1 hg
        next => cases h
  | locks r =>
      simp only [Keepalive.step, move] at h
      split at h
      next t f job hjob =>
        split at h
        next hfree =>
          obtain rfl := Option.some.inj h
          exact hx.locks hjob hfree
        next => cases h
      next => cases h
  | writes r =>
      simp only [Keepalive.step, move] at h
      split at h
      next t f job hjob =>
        split at h
        next hheld =>
          obtain rfl := Option.some.inj h
          exact hx.writes hjob hheld
        next => cases h
      next => cases h
  | ticks r =>
      simp only [Keepalive.step, move] at h
      split at h
      next hidle =>
        obtain rfl := Option.some.inj h
        exact hx.ticks hidle
      next => cases h
  | pings r =>
      simp only [Keepalive.step, move] at h
      split at h
      next hlocking =>
        obtain rfl := Option.some.inj h
        exact hx.pings hlocking.1 hg
      next => cases h
  | expires r =>
      simp only [Keepalive.step] at h
      split at h
      next hends => simp [hx.not_stalled hends.1] at hends
      next => cases h

/-- In a run of careful steps the two pings never wait for each other, no
ping runs into its timeout and no connection is closed for it. -/
theorem pings_answered (p : Pair) (relay : Relay) (hconn : Piped.Connected relay p.ref p.conn)
    (es : List Event) (x : State)
    (hg : Transition.Guarded (step p) (Careful p) (init relay) es)
    (hr : Transition.run (step p) (init relay) es = some x) :
    ¬ CircularWait x ∧ ∀ r, step p x (.expires r) = none ∧ (x.link r).pinger ≠ .closed := by
  have hx : Inv p x := hg.invariant (fun _ _ _ hx hg h => Inv.step hx hg h) (.init hconn) hr
  refine ⟨hx.not_circular, fun r => ⟨?_, (hx.link r).alive⟩⟩
  by_contra hne
  obtain ⟨y, hy⟩ := Option.ne_none_iff_exists'.mp hne
  simp only [Keepalive.step] at hy
  split at hy
  next hends => simp [hx.not_stalled hends.1] at hends
  next => cases hy

/-! ## Both clients send a message before they hear the ping -/

/-- A relay after a session was created and joined: its host is connection 0 and
its guest connection 1. -/
def pairedRelay : Relay :=
  (Transition.run Relay.next (Relay.init Relay.smallConfig) Piped.paired).getD
    (Relay.init Relay.smallConfig)

/-- The only session of the small relay, with the two connections that were paired
in it. -/
def tinyPair : Pair := { ref := 0, conn := Piped.connOf }

theorem connected_pairedRelay : Piped.Connected pairedRelay tinyPair.ref tinyPair.conn := by
  refine ⟨?_, _, rfl, ?_⟩ <;> intro role <;> cases role <;> rfl

/-- Both clients send a message, and both ping loops send their ping before either
message has been read. -/
def crossing : List Event :=
  [.sends .host (.other false [1]), .sends .guest (.other false [2]), .ticks .host, .ticks .guest,
    .pings .host, .pings .guest, .hears .host, .hears .guest, .reads .host 0, .reads .guest 0]

/-- The clients answer at once; the relay reads neither pong, and the ping
of the host runs into its timeout. -/
theorem pings_wait_for_each_other : ∃ x y,
    Transition.run (step tinyPair) (init pairedRelay) crossing = some x ∧ CircularWait x ∧
      step tinyPair x (.expires .host) = some y ∧ (y.link .host).pinger = .closed := by
  have hrun : (Transition.run (step tinyPair) (init pairedRelay) crossing).any (fun x =>
      decide (Blocked x .host) && decide (Blocked x .guest) &&
        (step tinyPair x (.expires .host)).any fun y => (y.link .host).pinger = .closed) = true := by
    decide +kernel
  obtain ⟨x, hr, hx⟩ := (Option.any_eq_true _ _).mp hrun
  simp only [Bool.and_eq_true, decide_eq_true_eq] at hx
  obtain ⟨⟨hhost, hguest⟩, hexpires⟩ := hx
  obtain ⟨y, hy, hclosed⟩ := (Option.any_eq_true _ _).mp hexpires
  exact ⟨x, y, hr, fun r => by cases r <;> assumption, hy, of_decide_eq_true hclosed⟩

/-- The same two pings and messages, the guest's message before the pings. -/
theorem pings_answered_tiny : ∃ x,
    Transition.run (step tinyPair) (init pairedRelay)
      [.sends .guest (.other false [2]), .reads .guest 0, .locks .guest, .writes .guest,
        .sends .host (.other false [1]), .ticks .host, .ticks .guest, .pings .host, .pings .guest,
        .hears .host, .hears .guest, .reads .host 0] = some x ∧
      ¬ CircularWait x ∧ ∀ r, step tinyPair x (.expires r) = none ∧ (x.link r).pinger ≠ .closed := by
  have hrun : (Transition.run (step tinyPair) (init pairedRelay)
      [.sends .guest (.other false [2]), .reads .guest 0, .locks .guest, .writes .guest,
        .sends .host (.other false [1]), .ticks .host, .ticks .guest, .pings .host, .pings .guest,
        .hears .host, .hears .guest, .reads .host 0]).isSome = true := by
    decide +kernel
  obtain ⟨x, hr⟩ := Option.isSome_iff_exists.mp hrun
  exact ⟨x, hr, pings_answered tinyPair pairedRelay connected_pairedRelay _ x (by decide +kernel) hr⟩

end Quicksend.Server.Keepalive
