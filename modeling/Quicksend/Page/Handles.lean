import Quicksend.Lib.Handles
import Quicksend.Lib.Simulation
import Quicksend.Page.Once

/-!
# The exchanges of a page in one module (`wasm/pake`, `pake.js`)

`wasm/pake` keeps the states of all exchanges of a page in one table, and
`pake.js` knows each by its handle; the module is loaded once, for all of
them. A page whose exchanges keep their own states, as `Page` has them,
cannot be told from it.
-/

namespace Quicksend

namespace Wasm

/-! ## `wasm/pake` -/

/-- The error of every function of the module that is called with a handle that it
has not given out, or has released. -/
def errUnknownHandle : String := "unknown pake handle"

section
variable (lib : PakePackage)

/-- `jsInit`: a new state of the package goes in the table under the next handle.
Only the initiator has bytes to send then. -/
def jsInit (w : Handles lib.Pake) (password : JSString) (role : Nat) (seed : Bytes) :
    Except String (Handles lib.Pake × Nat × Bytes) := do
  let p ← lib.initCurve password role seed
  return (w.new p, (w.new p).nextID, if role = 0 then lib.bytes p else [])

/-- `jsUpdate`: look the handle up and let `Update` change its entry in place; an
unknown handle is an error. -/
def jsUpdate (w : Handles lib.Pake) (handle : Nat) (message : Bytes) :
    Except String (Handles lib.Pake × Bytes) :=
  match w.get handle with
  | none => .error errUnknownHandle
  | some p => do
      let p ← lib.update p message
      return (w.set handle p, if lib.role p = 1 then lib.bytes p else [])

/-- `jsSessionKey` and `pake.sessionKey`: the key crosses as hex. -/
def jsSessionKey (w : Handles lib.Pake) (handle : Nat) : Except String Bytes :=
  match w.get handle with
  | none => .error errUnknownHandle
  | some p => do
      let key ← lib.sessionKey p
      return fromHex (toHex key)

/-- `jsFree`: the entry of the handle is deleted, and deleting one that is not
there is no error. -/
def jsFree (w : Handles lib.Pake) (handle : Nat) : Handles lib.Pake := w.free handle

end

/-! ## `pake.js` -/

/-- `readyPromise`: not made yet, pending, or settled for good. -/
inductive Ready where
  | unasked
  | loading
  | loaded
  | failed (e : String)
  deriving DecidableEq

/-- `ensureLoaded`: the first call begins the loading, and every later one gets
the same promise, settled or not. -/
def Ready.ensureLoaded : Ready → Ready
  | .unasked => .loading
  | ready => ready

/-- What `await ensureLoaded()` comes to, once it does: `some e` is a failure. -/
def Ready.outcome : Ready → Option (Option String)
  | .unasked | .loading => none
  | .loaded => some none
  | .failed e => some (some e)

/-! ## `runPakeExchange`, with its handle -/

/-- The suspension points of `runPakeExchange` after `pake.init` has returned a
handle. -/
inductive Stage where
  | awaitingMsg
  | updating (message : Bytes)
  | derivingKey
  | tagging (keyBytes : Bytes)
  | awaitingConfirm (keyBytes : Bytes)
  | verifying (keyBytes peerTag : Bytes)
  | freeing (keyBytes : Bytes) (ok : Bool)

/-- Where a call of `runPakeExchange` stands. From the end of `pake.init` on it
has a handle, which it gives to every operation. -/
inductive Place where
  | initializing
  | holding (handle : Nat) (stage : Stage)
  | settled (outcome : Except String Bytes)

/-- A running call of `runPakeExchange`, with the arguments it was given and what
its `then` remembers. -/
structure Call where
  socket : ConnId
  sessionId : Option String
  role : Role
  code : JSString
  seed : Bytes
  place : Place

/-- The operations that call the module and so await its loading. -/
def Place.callsModule : Place → Bool
  | .initializing | .holding _ (.updating _) | .holding _ .derivingKey
  | .holding _ (.freeing _ _) => true
  | .holding _ _ | .settled _ => false

/-- What the call depends on; only its own side of the code and of the randomness
is ever read. -/
def Call.args (b : Browser) (c : Call) : PakeArgs :=
  { lib := b.lib, hmac := b.hmac, code := fun _ => c.code, seed := fun _ => c.seed }

/-- Where the awaited operation takes a call, what it leaves in the table, and
what the call sends then. -/
def resume (b : Browser) (w : Handles b.lib.Pake) (c : Call) :
    Option (Except String (Handles b.lib.Pake × Place × List PakeMessage)) :=
  match c.place with
  | .initializing => some do
      let init ← jsInit b.lib w c.code c.role.pakeRole c.seed
      return (init.1, .holding init.2.1 .awaitingMsg,
        if c.role.pakeRole = 0 then [.pakeMsg init.2.2] else [])
  | .holding handle (.updating message) => some do
      let update ← jsUpdate b.lib w handle message
      return (update.1, .holding handle .derivingKey,
        if c.role.pakeRole = 1 then [.pakeMsg update.2] else [])
  | .holding handle .derivingKey => some do
      let keyBytes ← jsSessionKey b.lib w handle
      return (w, .holding handle (.tagging keyBytes), [])
  | .holding handle (.tagging keyBytes) =>
      some (.ok (w, .holding handle (.awaitingConfirm keyBytes),
        [.pakeConfirm (toHex (Pake.computeConfirmTag (c.args b) keyBytes))]))
  | .holding handle (.verifying keyBytes peerTag) =>
      some (.ok (w, .holding handle
        (.freeing keyBytes (Pake.verifyConfirmTag (c.args b) keyBytes peerTag)), []))
  | .holding handle (.freeing keyBytes ok) =>
      some (.ok (jsFree b.lib w handle,
        .settled (if ok then .ok keyBytes else .error "code_mismatch"), []))
  | .holding _ .awaitingMsg | .holding _ (.awaitingConfirm _) | .settled _ => none

/-- A message is dispatched on the socket: the exchange takes it where it listens
for its type, and misses it elsewhere. -/
def hear : Place → PakeMessage → Place
  | .holding handle .awaitingMsg, .pakeMsg message => .holding handle (.updating message)
  | .holding handle (.awaitingConfirm keyBytes), .pakeConfirm tagHex =>
      .holding handle (.verifying keyBytes (fromHex tagHex))
  | place, _ => place

/-- The module that all exchanges of the page share, its table with their states,
and the exchanges themselves. -/
structure State (lib : PakePackage) where
  wasm : Handles lib.Pake
  ready : Ready
  calls : List Call
  /-- What the calls have sent, and on which sockets. -/
  sent : List (ConnId × PakeMessage)

/-- Nothing has been asked of the module, which is loaded when the first exchange
begins. -/
def init (lib : PakePackage) : State lib where
  wasm := .empty
  ready := .unasked
  calls := []
  sent := []

/-- An operation of call `i` has come to an end. -/
def State.land {lib : PakePackage} (x : State lib) (i : Nat) (c : ConnId) :
    Except String (Handles lib.Pake × Place × List PakeMessage) → State lib
  | .ok (wasm, place, out) =>
      { x with
        wasm := wasm
        calls := x.calls.modify i fun call => { call with place := place }
        sent := x.sent ++ out.map (Prod.mk c) }
  | .error e =>
      { x with calls := x.calls.modify i fun call => { call with place := .settled (.error e) } }

/-- `loads`: the loading ends, with a failure when `err` is a message.
`starts`: `runPakeExchange` is called. `hears`: a message is dispatched on a
socket. `settles`: the operation that call `i` awaits settles. -/
inductive Event where
  | loads (err : Option String)
  | starts (c : ConnId) (sessionId : Option String) (role : Role) (code : JSString) (seed : Bytes)
  | hears (c : ConnId) (m : PakeMessage)
  | settles (i : Nat) (err : Option String)

/-- The event is one of the exchanges, and not of the module's loading. -/
def Event.isExchange : Event → Bool
  | .loads _ => false
  | .starts .. | .hears .. | .settles .. => true

section
variable (b : Browser)

/-- A call settles as the module's loading did, Web Crypto's promises by themselves. -/
def settlesWith (x : State b.lib) (place : Place) (err : Option String) : Bool :=
  !place.callsModule || x.ready.outcome == some err

/-- One event. It is `none` where no operation is awaited, or where the operation
cannot have come to this end. -/
def step (x : State b.lib) : Event → Option (State b.lib)
  | .loads err =>
      if x.ready = .loading then
        some { x with ready := match err with
          | none => .loaded
          | some e => .failed e }
      else none
  | .starts c sessionId role code seed =>
      some { x with
        ready := x.ready.ensureLoaded
        calls := x.calls ++ [⟨c, sessionId, role, code, seed, .initializing⟩] }
  | .hears c m =>
      some { x with calls := x.calls.map fun call =>
        if call.socket = c then { call with place := hear call.place m } else call }
  | .settles i err =>
      match x.calls[i]? with
      | none => none
      | some call =>
          match resume b x.wasm call with
          | none => none
          | some res =>
              if settlesWith b x call.place err then some (x.land i call.socket (settle err res))
              else none

/-! ## Exchanges that keep their own states -/

/-- The exchanges of a page as `Page` has them. -/
structure Apart (lib : PakePackage) where
  exchanges : List (Exchange lib)
  sent : List (ConnId × PakeMessage)

/-- No exchange has begun, and nothing has been sent. -/
def Apart.init (lib : PakePackage) : Apart lib := ⟨[], []⟩

/-- An operation of exchange `i` has come to an end: the exchange goes on, and
sends what it has to, or has failed. -/
def Apart.land {lib : PakePackage} (y : Apart lib) (i : Nat) (c : ConnId) :
    Except String (Pake.Pc lib × List PakeMessage) → Apart lib
  | .ok (pc, out) =>
      { y with
        exchanges := y.exchanges.modify i fun e => { e with pc := pc }
        sent := y.sent ++ out.map (Prod.mk c) }
  | .error err =>
      { y with exchanges := y.exchanges.modify i fun e => { e with pc := .settled (.error err) } }

/-- The same event for exchanges that keep their own states. None of them awaits
the loading of anything. -/
def Apart.step (y : Apart b.lib) : Event → Option (Apart b.lib)
  | .loads _ => some y
  | .starts c sessionId role code seed =>
      some { y with exchanges := y.exchanges ++ [⟨c, sessionId, role, code, seed, .initializing⟩] }
  | .hears c m =>
      some { y with exchanges := y.exchanges.map fun e =>
        if e.socket = c then { e with pc := Pake.hear e.pc m } else e }
  | .settles i err =>
      match y.exchanges[i]? with
      | none => none
      | some e =>
          match Pake.resume (e.args b) e.role e.pc with
          | none => none
          | some res => some (y.land i e.socket (settle err res))

end

/-! ## A call and its exchange -/

section
variable {lib : PakePackage}

/-- The suspension point of `Pake`, which carries the state of the package where
the call has only a handle. -/
def Stage.pc (p : lib.Pake) : Stage → Pake.Pc lib
  | .awaitingMsg => .awaitingMsg p
  | .updating message => .updating p message
  | .derivingKey => .derivingKey p
  | .tagging keyBytes => .tagging keyBytes
  | .awaitingConfirm keyBytes => .awaitingConfirm keyBytes
  | .verifying keyBytes peerTag => .verifying keyBytes peerTag
  | .freeing keyBytes ok => .freeing keyBytes ok

/-- A place with what the table has under its handle, if there is anything. -/
def Place.pc (w : Handles lib.Pake) : Place → Option (Pake.Pc lib)
  | .initializing => some .initializing
  | .holding handle stage => (w.get handle).map stage.pc
  | .settled outcome => some (.settled outcome)

/-- The exchange that a call is, once its handle is replaced by what the table has
under it. -/
def Call.exchange (w : Handles lib.Pake) (c : Call) : Option (Exchange lib) :=
  (c.place.pc w).map fun pc => ⟨c.socket, c.sessionId, c.role, c.code, c.seed, pc⟩

/-- The handle that a call holds, from the end of `pake.init` until it settles. -/
def Place.handle : Place → Option Nat
  | .holding handle _ => some handle
  | .initializing | .settled _ => none

/-- The call has an entry in the table, or has failed and may have left one. -/
def Place.mayHold : Place → Bool
  | .holding _ _ | .settled (.error _) => true
  | .initializing | .settled (.ok _) => false

/-- What an operation does to the table: nothing, or it makes, changes or
releases the entry of its own call. -/
inductive Touches (w : Handles lib.Pake) : Place → Handles lib.Pake → Place → Prop where
  | nothing (handle : Nat) (stage stage' : Stage) :
      Touches w (.holding handle stage) w (.holding handle stage')
  | makes (p : lib.Pake) :
      Touches w .initializing (w.new p) (.holding (w.new p).nextID .awaitingMsg)
  | changes (handle : Nat) (stage stage' : Stage) (p : lib.Pake) :
      Touches w (.holding handle stage) (w.set handle p) (.holding handle stage')
  | releases (handle : Nat) (stage : Stage) (outcome : Except String Bytes) :
      Touches w (.holding handle stage) (w.free handle) (.settled outcome)

variable {w w' : Handles lib.Pake} {place place' : Place}

/-- The other entries stay what they are. -/
theorem Touches.get (h : Touches w place w' place') {k : Nat} {p : lib.Pake}
    (hk : w.get k = some p) (hne : place.handle ≠ some k) : w'.get k = some p := by
  cases h with
  | nothing => exact hk
  | makes => rw [Handles.get_new (Handles.le_of_get hk), hk]
  | changes handle => rw [Handles.get_set_ne fun heq => hne (by rw [heq]; rfl), hk]
  | releases handle => rw [Handles.get_free_ne fun heq => hne (by rw [heq]; rfl), hk]

/-- A handle is the one the call had, or a new one. -/
theorem Touches.handle (h : Touches w place w' place') {k : Nat}
    (hk : place'.handle = some k) : place.handle = some k ∨ w.nextID < k := by
  cases h with
  | nothing | changes => exact .inl hk
  | makes =>
      obtain rfl := Option.some.inj hk
      exact .inr (Nat.lt_succ_self _)
  | releases => cases hk

theorem Touches.size (h : Touches w place w' place') {pc : Pake.Pc lib}
    (hpc : place.pc w = some pc) :
    w'.size + (if place.mayHold then 1 else 0) ≤ w.size + if place'.mayHold then 1 else 0 := by
  cases h with
  | nothing => exact Nat.le_refl _
  | makes => simp [Handles.size_new, Place.mayHold]
  | changes => simp [Handles.size_set, Place.mayHold]
  | releases handle stage outcome =>
      obtain ⟨p, hp, -⟩ := Option.map_eq_some_iff.mp hpc
      have hsize := Handles.size_free hp
      simp only [Place.mayHold, if_true]
      omega

theorem Place.pc_congr {place : Place}
    (h : ∀ k, place.handle = some k → w'.get k = w.get k) : place.pc w' = place.pc w := by
  cases place with
  | initializing | settled => rfl
  | holding handle stage => rw [Place.pc, Place.pc, h handle rfl]

/-- A handle in use has an entry. -/
theorem Place.get_handle {pc : Pake.Pc lib} (hpc : place.pc w = some pc) {k : Nat}
    (hk : place.handle = some k) : ∃ p, w.get k = some p := by
  cases place with
  | initializing | settled => cases hk
  | holding handle stage =>
      obtain rfl := Option.some.inj hk
      obtain ⟨p, hp, -⟩ := Option.map_eq_some_iff.mp hpc
      exact ⟨p, hp⟩

theorem hear_pc {pc : Pake.Pc lib} (h : place.pc w = some pc) (m : PakeMessage) :
    (hear place m).pc w = some (Pake.hear pc m) := by
  cases place with
  | initializing =>
      obtain rfl := Option.some.inj h
      rfl
  | settled outcome =>
      obtain rfl := Option.some.inj h
      rfl
  | holding handle stage =>
      obtain ⟨p, hp, rfl⟩ := Option.map_eq_some_iff.mp h
      have hpc (stage : Stage) : (Place.holding handle stage).pc w = some (stage.pc p) := by
        rw [Place.pc, hp]
        rfl
      cases stage <;> cases m <;> exact hpc _

theorem hear_handle (place : Place) (m : PakeMessage) : (hear place m).handle = place.handle := by
  unfold hear
  split <;> rfl

theorem hear_mayHold (place : Place) (m : PakeMessage) : (hear place m).mayHold = place.mayHold := by
  unfold hear
  split <;> rfl

end

/-! ## One step -/

section
open Tally

variable {b : Browser} {w : Handles b.lib.Pake}

/-- What an operation comes to, in the table and apart from it. -/
inductive Settling (w : Handles b.lib.Pake) (place : Place) :
    Except String (Handles b.lib.Pake × Place × List PakeMessage) →
      Except String (Pake.Pc b.lib × List PakeMessage) → Prop where
  | ok {w' : Handles b.lib.Pake} {place' : Place} {pc' : Pake.Pc b.lib} (out : List PakeMessage)
      (h : Touches w place w' place') (hpc : place'.pc w' = some pc') :
      Settling w place (.ok (w', place', out)) (.ok (pc', out))
  | error (e : String) : Settling w place (.error e) (.error e)

theorem Settling.settle {place : Place}
    {res : Except String (Handles b.lib.Pake × Place × List PakeMessage)}
    {res' : Except String (Pake.Pc b.lib × List PakeMessage)} (h : Settling w place res res')
    (err : Option String) : Settling w place (settle err res) (settle err res') := by
  cases err with
  | none => exact h
  | some e => exact .error e

/-- **An operation finds its own entry**, and does what it does to a state that
the exchange keeps for itself. -/
theorem resume_settling {c : Call} {pc : Pake.Pc b.lib} (hpc : c.place.pc w = some pc) :
    Option.Rel (Settling w c.place) (resume b w c) (Pake.resume (c.args b) c.role pc) := by
  unfold resume
  generalize c.place = place at hpc ⊢
  cases place with
  | settled outcome =>
      obtain rfl := Option.some.inj hpc
      exact .none
  | initializing =>
      obtain rfl := Option.some.inj hpc
      refine .some ?_
      simp only [jsInit, Pake.jsInit, Call.args]
      cases b.lib.initCurve c.code c.role.pakeRole c.seed with
      | error e => exact .error e
      | ok p => exact .ok _ (.makes p) (by rw [Place.pc, Handles.nextID_new, Handles.get_new_self]; rfl)
  | holding handle stage =>
      obtain ⟨p, hp, rfl⟩ := Option.map_eq_some_iff.mp hpc
      have stays (stage : Stage) : (Place.holding handle stage).pc w = some (stage.pc p) := by
        rw [Place.pc, hp]
        rfl
      cases stage with
      | awaitingMsg | awaitingConfirm => exact .none
      | updating message =>
          refine .some ?_
          simp only [jsUpdate, Pake.jsUpdate, Call.args, hp]
          cases b.lib.update p message with
          | error e => exact .error e
          | ok p' =>
              exact .ok _ (.changes handle _ _ p') (by rw [Place.pc, Handles.get_set_self hp]; rfl)
      | derivingKey =>
          refine .some ?_
          simp only [jsSessionKey, Pake.jsSessionKey, Call.args, hp]
          cases b.lib.sessionKey p with
          | error e => exact .error e
          | ok key => exact .ok _ (.nothing handle _ _) (stays _)
      | tagging | verifying => exact .some (.ok _ (.nothing handle _ _) (stays _))
      | freeing keyBytes ok => exact .some (.ok _ (.releases handle _ _) rfl)

/-- The page with the table stands for the exchanges of `y`. -/
structure Refines (x : State b.lib) (y : Apart b.lib) : Prop where
  exchanges : x.calls.map (Call.exchange x.wasm) = y.exchanges.map some
  sent : y.sent = x.sent
  apart : ∀ (i j : Nat) (c d : Call) (k : Nat), x.calls[i]? = some c → x.calls[j]? = some d →
    c.place.handle = some k → d.place.handle = some k → i = j
  held : x.wasm.size ≤ x.calls.countP (·.place.mayHold)

theorem Refines.init (b : Browser) : Refines (Wasm.init b.lib) (Apart.init b.lib) where
  exchanges := rfl
  sent := rfl
  apart i _ c _ _ hc := by cases hc
  held := Nat.le_refl _

variable {x x' : State b.lib} {y : Apart b.lib}

theorem Refines.exchange (h : Refines x y) (i : Nat) :
    (x.calls[i]?).map (Call.exchange x.wasm) = (y.exchanges[i]?).map some := by
  rw [← List.getElem?_map, h.exchanges, List.getElem?_map]

/-- The exchange of a call, and that it keeps apart from what the others do. -/
theorem Refines.of_call (h : Refines x y) {i : Nat} {c : Call} (hc : x.calls[i]? = some c) :
    ∃ pc, c.place.pc x.wasm = some pc ∧
      y.exchanges[i]? = some ⟨c.socket, c.sessionId, c.role, c.code, c.seed, pc⟩ := by
  have hi := h.exchange i
  rw [hc] at hi
  obtain ⟨e, he, hce⟩ := Option.map_eq_some_iff.mp hi.symm
  obtain ⟨pc, hpc, hpe⟩ := Option.map_eq_some_iff.mp hce.symm
  exact ⟨pc, hpc, by rw [he, hpe]⟩

/-- A call whose place is another, with the table that its operation left. -/
theorem Refines.move (h : Refines x y) {i : Nat} {c : Call} (hc : x.calls[i]? = some c)
    {w' : Handles b.lib.Pake} {place' : Place} {pc' : Pake.Pc b.lib}
    (hget : ∀ k p, x.wasm.get k = some p → c.place.handle ≠ some k → w'.get k = some p)
    (hhandle : ∀ k, place'.handle = some k → c.place.handle = some k ∨ x.wasm.nextID < k)
    (hsize : w'.size + (if c.place.mayHold then 1 else 0)
      ≤ x.wasm.size + if place'.mayHold then 1 else 0)
    (hpc : place'.pc w' = some pc') (out : List (ConnId × PakeMessage)) :
    Refines
      { x with
        wasm := w'
        calls := x.calls.modify i fun call => { call with place := place' }
        sent := x.sent ++ out }
      { y with
        exchanges := y.exchanges.modify i fun e => { e with pc := pc' }
        sent := y.sent ++ out } where
  exchanges := by
    refine List.ext_getElem? fun j => ?_
    rw [List.getElem?_map, List.getElem?_map]
    by_cases hij : i = j
    · subst hij
      obtain ⟨pc, -, he⟩ := h.of_call hc
      rw [getElem?_modify_self hc, getElem?_modify_self he, Option.map_some, Option.map_some]
      simp only [Call.exchange, hpc, Option.map_some]
    · rw [getElem?_modify_ne hij, getElem?_modify_ne hij, ← h.exchange j]
      cases hd : x.calls[j]? with
      | none => rfl
      | some d =>
          obtain ⟨pc, hpc, -⟩ := h.of_call hd
          rw [Option.map_some, Option.map_some, Call.exchange, Call.exchange,
            Place.pc_congr fun k hk => ?_]
          obtain ⟨p, hp⟩ := Place.get_handle hpc hk
          rw [hp, hget k p hp fun hck => hij (h.apart i j c d k hc hd hck hk)]
  sent := by rw [h.sent]
  apart j j' d d' k hd hd' hk hk' := by
    -- a handle that is new is no other call's
    have old {j : Nat} {d : Call} (hd : x.calls[j]? = some d) (hk : d.place.handle = some k) :
        k ≤ x.wasm.nextID := by
      obtain ⟨pc, hpc, -⟩ := h.of_call hd
      obtain ⟨p, hp⟩ := Place.get_handle hpc hk
      exact Handles.le_of_get hp
    have own {j : Nat} {d : Call} (hd : x.calls[j]? = some d) (hk : d.place.handle = some k)
        (hk' : place'.handle = some k) : i = j := by
      rcases hhandle k hk' with hck | hnew
      · exact h.apart i j c d k hc hd hck hk
      · exact absurd (old hd hk) (Nat.not_le_of_lt hnew)
    obtain ⟨d₀, hd₀, rfl⟩ := getElem?_modify_eq_some hd
    obtain ⟨d₁, hd₁, rfl⟩ := getElem?_modify_eq_some hd'
    split at hk <;> split at hk'
    next hi hj => exact hi.symm.trans hj
    next hi hj => exact absurd (own hd₁ hk' hk) hj
    next hi hj => exact absurd (own hd₀ hk hk') hi
    next => exact h.apart j j' d₀ d₁ k hd₀ hd₁ hk hk'
  held := by
    have hcount := countP_modify (fun c : Call => c.place.mayHold)
      (fun call => { call with place := place' }) hc
    have hheld := h.held
    simp only at hcount hheld ⊢
    omega

theorem Refines.land (h : Refines x y) {i : Nat} {c : Call} (hc : x.calls[i]? = some c)
    {pc : Pake.Pc b.lib} (hpc : c.place.pc x.wasm = some pc)
    {res : Except String (Handles b.lib.Pake × Place × List PakeMessage)}
    {res' : Except String (Pake.Pc b.lib × List PakeMessage)}
    (hres : Settling x.wasm c.place res res') :
    Refines (x.land i c.socket res) (y.land i c.socket res') := by
  cases hres with
  | ok out ht hpc' =>
      exact h.move hc (fun _ _ => ht.get) (fun _ => ht.handle) (ht.size hpc) hpc' _
  | error e =>
      -- the table is left as it is, with the entry that the call may have had
      have hget (k : Nat) (p : b.lib.Pake) (hk : x.wasm.get k = some p)
          (_ : c.place.handle ≠ some k) : x.wasm.get k = some p := hk
      have hsize : x.wasm.size + (if c.place.mayHold then 1 else 0) ≤
          x.wasm.size + if (Place.settled (.error e)).mayHold then 1 else 0 :=
        Nat.add_le_add_left (by cases c.place.mayHold <;> simp [Place.mayHold]) _
      have hmove := h.move hc hget (fun _ hk => by cases hk) hsize rfl []
      simp only [List.append_nil] at hmove
      exact hmove

/-- **The step lemma.** -/
theorem Refines.step (h : Refines x y) {e : Event} (hs : step b x e = some x') :
    ∃ y', Apart.step b y e = some y' ∧ Refines x' y' := by
  cases e with
  | loads err =>
      simp only [Wasm.step] at hs
      split at hs
      next =>
        obtain rfl := Option.some.inj hs
        exact ⟨y, rfl, h.exchanges, h.sent, h.apart, h.held⟩
      next => cases hs
  | starts c sessionId role code seed =>
      obtain rfl := Option.some.inj hs
      refine ⟨_, rfl, ?_, h.sent, fun i j d d' k hd hd' hk hk' => ?_, ?_⟩
      · rw [List.map_append, List.map_append, h.exchanges]
        rfl
      · -- the new call has no handle yet
        rcases getElem?_concat_eq_some hd with hd | ⟨-, rfl⟩
        · rcases getElem?_concat_eq_some hd' with hd' | ⟨-, rfl⟩
          · exact h.apart i j d d' k hd hd' hk hk'
          · cases hk'
        · cases hk
      · rw [List.countP_append]
        exact Nat.le_add_right_of_le h.held
  | hears c m =>
      obtain rfl := Option.some.inj hs
      refine ⟨_, rfl, ?_, h.sent, fun i j d d' k hd hd' hk hk' => ?_, ?_⟩
      · refine List.ext_getElem? fun i => ?_
        simp only [List.getElem?_map]
        have hi := h.exchange i
        cases hd : x.calls[i]? with
        | none =>
            rw [hd] at hi
            rw [Option.map_eq_none_iff.mp hi.symm]
            rfl
        | some d =>
            obtain ⟨pc, hpc, he⟩ := h.of_call hd
            rw [he]
            simp only [Option.map_some]
            split
            · simp only [Call.exchange, hear_pc hpc, Option.map_some]
            · simp only [Call.exchange, hpc, Option.map_some]
      · rw [List.getElem?_map] at hd hd'
        obtain ⟨d₀, hd₀, rfl⟩ := Option.map_eq_some_iff.mp hd
        obtain ⟨d₁, hd₁, rfl⟩ := Option.map_eq_some_iff.mp hd'
        have kept (d : Call) : (if d.socket = c then { d with place := hear d.place m } else d).place.handle
            = d.place.handle := by
          split
          · exact hear_handle _ _
          · rfl
        rw [kept] at hk hk'
        exact h.apart i j d₀ d₁ k hd₀ hd₁ hk hk'
      · rw [List.countP_map]
        refine h.held.trans (Nat.le_of_eq (List.countP_congr fun d _ => ?_))
        simp only [Function.comp]
        split
        · rw [hear_mayHold]
        · rfl
  | settles i err =>
      cases hc : x.calls[i]? with
      | none => simp [Wasm.step, hc] at hs
      | some c =>
          obtain ⟨pc, hpc, he⟩ := h.of_call hc
          have hres : Option.Rel (Settling x.wasm c.place) (resume b x.wasm c)
              (Pake.resume (Exchange.args b ⟨c.socket, c.sessionId, c.role, c.code, c.seed, pc⟩)
                c.role pc) := resume_settling hpc
          simp only [Wasm.step, hc] at hs
          simp only [Apart.step, he]
          generalize resume b x.wasm c = o at hs hres
          generalize Pake.resume
            (Exchange.args b ⟨c.socket, c.sessionId, c.role, c.code, c.seed, pc⟩) c.role pc = o'
            at hres ⊢
          cases hres with
          | none => cases hs
          | some hres =>
              simp only at hs
              split at hs
              next =>
                obtain rfl := Option.some.inj hs
                exact ⟨_, rfl, h.land hc hpc (hres.settle err)⟩
              next => cases hs

/-! ## Whole runs -/

/-- Before the module is there no call has got anywhere; when its loading has
failed they all fail with it. -/
def Unloaded (x : State b.lib) : Prop :=
  x.ready ≠ .loaded → x.sent = [] ∧ ∀ c ∈ x.calls, c.place = .initializing ∨
    ∃ e, x.ready = .failed e ∧ c.place = .settled (.error e)

theorem State.land_ready (x : State b.lib) (i : Nat) (c : ConnId)
    (r : Except String (Handles b.lib.Pake × Place × List PakeMessage)) :
    (x.land i c r).ready = x.ready := by
  cases r <;> rfl

/-- Without the module an operation can only fail, and as the loading did. -/
theorem failed_of_settles (h : Unloaded x) (hready : x.ready ≠ .loaded) {c : Call}
    (hc : c ∈ x.calls) {err : Option String}
    {res : Except String (Handles b.lib.Pake × Place × List PakeMessage)}
    (hres : resume b x.wasm c = some res) (hsettles : settlesWith b x c.place err = true) :
    ∃ e, x.ready = .failed e ∧ some e = err := by
  have hplace : c.place = .initializing := by
    obtain hplace | ⟨e, -, hplace⟩ := (h hready).2 c hc
    · exact hplace
    · simp [resume, hplace] at hres
  rw [settlesWith, hplace] at hsettles
  cases hr : x.ready with
  | loaded => exact absurd hr hready
  | unasked | loading => simp [hr, Ready.outcome, Place.callsModule] at hsettles
  | failed e =>
      exact ⟨e, rfl, by simpa [hr, Ready.outcome, Place.callsModule] using hsettles⟩

theorem unloaded_step (h : Unloaded x) {e : Event} (hs : step b x e = some x') : Unloaded x' := by
  cases e with
  | loads err =>
      simp only [Wasm.step] at hs
      split at hs
      next hready =>
        obtain rfl := Option.some.inj hs
        intro _
        obtain ⟨hsent, hcalls⟩ := h (by rw [hready]; simp)
        refine ⟨hsent, fun c hc => .inl ((hcalls c hc).resolve_right ?_)⟩
        rintro ⟨e, hfailed, -⟩
        simp [hready] at hfailed
      next => cases hs
  | starts c sessionId role code seed =>
      obtain rfl := Option.some.inj hs
      intro hready
      obtain ⟨hsent, hcalls⟩ := h fun hloaded => hready (by rw [hloaded]; rfl)
      refine ⟨hsent, fun d hd => ?_⟩
      rcases List.mem_append.mp hd with hd | hd
      · refine (hcalls d hd).imp_right fun ⟨e, hfailed, hplace⟩ => ⟨e, ?_, hplace⟩
        rw [hfailed]
        rfl
      · exact .inl (by rw [List.mem_singleton.mp hd])
  | hears c m =>
      obtain rfl := Option.some.inj hs
      intro hready
      obtain ⟨hsent, hcalls⟩ := h hready
      refine ⟨hsent, fun d hd => ?_⟩
      obtain ⟨d', hd', rfl⟩ := List.mem_map.mp hd
      rcases hcalls d' hd' with hplace | ⟨e, hfailed, hplace⟩
      · refine .inl ?_
        split <;> simp only [hplace, hear]
      · refine .inr ⟨e, hfailed, ?_⟩
        split <;> simp only [hplace, hear]
  | settles i err =>
      cases hc : x.calls[i]? with
      | none => simp [Wasm.step, hc] at hs
      | some c =>
          simp only [Wasm.step, hc] at hs
          cases hres : resume b x.wasm c with
          | none => simp [hres] at hs
          | some res =>
              simp only [hres] at hs
              split at hs
              case isFalse => cases hs
              next hsettles =>
                obtain rfl := Option.some.inj hs
                intro hready
                rw [State.land_ready] at hready
                obtain ⟨e, hr, rfl⟩ :=
                  failed_of_settles h hready (List.mem_of_getElem? hc) hres hsettles
                obtain ⟨hsent, hcalls⟩ := h hready
                refine ⟨hsent, fun d hd => ?_⟩
                obtain ⟨j, hj⟩ := List.mem_iff_getElem?.mp hd
                obtain ⟨d', hd', rfl⟩ := getElem?_modify_eq_some hj
                split
                · exact .inr ⟨e, hr, rfl⟩
                · exact hcalls d' (List.mem_of_getElem? hd')

/-- Calls and exchanges that have seen the same correspond. -/
theorem refines_run {es : List Event} {x : State b.lib}
    (hr : Transition.run (step b) (init b.lib) es = some x) :
    ∃ y, Transition.run (Apart.step b) (Apart.init b.lib) es = some y ∧ Refines x y := by
  have hstep (x : State b.lib) (e : Event) (x' : State b.lib) (y : Apart b.lib) (h : Refines x y)
      (hs : step b x e = some x') := h.step hs
  exact Transition.run_forward hstep (Refines.init b) hr

/-- The exchanges do not notice the loading. -/
theorem run_withoutLoads (y : Apart b.lib) (es : List Event) :
    Transition.run (Apart.step b) y (es.filter Event.isExchange) =
      Transition.run (Apart.step b) y es := by
  induction es generalizing y with
  | nil => rfl
  | cons e es ih =>
      cases e with
      | loads err => exact ih y
      | starts | hears | settles =>
          rw [List.filter_cons_of_pos rfl]
          simp only [Transition.run, ih]

end

end Wasm

/-! ## The exchanges of a page -/

namespace Page

variable {b : Browser} {x y : Page b.lib} {c : ConnId} {m : Received} {draw : Bytes}

/-- What an event of the page does to its exchanges. A flow with a code begins
one when it is paired; a message of the exchange reaches those of its socket; an
operation that one awaits comes to an end. -/
def exchangeEvent (x : Page b.lib) : Event → Option Wasm.Event
  | .message c (.paired sessionId) draw _ => (x.sockets[c]?).bind fun s =>
      match s.opener with
      | .receiverCode =>
          some (.starts c sessionId .host (utf16 (x.currentState.code.getD "<undefined>")) draw)
      | .joinByCode code => some (.starts c sessionId .guest (utf16 code) draw)
      | .receiver | .join _ | .reconnect .. => none
  | .message c (.pake m) _ _ => some (.hears c m)
  | .pakeResumes i err => some (.settles i err)
  | _ => none

/-- A step of the page, with what it did to the exchanges put on the log. -/
def traced (b : Browser) (x : Page b.lib × List Wasm.Event) (e : Event) :
    Option (Page b.lib × List Wasm.Event) :=
  (step b x.1 e).map fun y => (y, x.2 ++ (x.1.exchangeEvent e).toList)

/-- The exchanges go from `x` to `y` as they do when they keep their own states. -/
def Moves (x y : Page b.lib) (es : List Wasm.Event) : Prop :=
  ∀ sent, ∃ z, Transition.run (Wasm.Apart.step b) ⟨x.exchanges, sent⟩ es = some z ∧
    z.exchanges = y.exchanges

theorem Moves.of_eq (h : y.exchanges = x.exchanges) : Moves x y [] :=
  fun sent => ⟨⟨x.exchanges, sent⟩, rfl, h.symm⟩

theorem Moves.of_step {e : Wasm.Event}
    (h : ∀ sent, ∃ z, Wasm.Apart.step b ⟨x.exchanges, sent⟩ e = some z ∧
      z.exchanges = y.exchanges) : Moves x y [e] := fun sent => by
  obtain ⟨z, hz, heq⟩ := h sent
  exact ⟨z, Transition.run_cons hz [], heq⟩

theorem finalizePaired_exchanges (x : Page b.lib) (c : ConnId) (sessionId : Option String)
    (sessionKey : Option Bytes) (role : Role) :
    (x.finalizePaired b c sessionId sessionKey role).exchanges = x.exchanges :=
  (keeps_render _).exchanges

/-- Only `paired` begins an exchange. -/
theorem onOpenerMessage_exchanges (hpaired : ∀ sessionId, m ≠ .paired sessionId) (x : Page b.lib)
    (c : ConnId) (o : Opener) (draw : Bytes) :
    (x.onOpenerMessage b c o m draw).exchanges = x.exchanges := by
  by_cases hreconnected : m = .reconnected
  · subst hreconnected
    cases o with
    | reconnect => exact (keeps_render _).exchanges
    | _ => rfl
  · exact (keeps_onOpenerMessage hpaired hreconnected x c o draw).exchanges

theorem moves_paired {s : Socket} (hs : x.sockets[c]? = some s) (sessionId : Option String)
    (draw : Bytes) (busy : Bool) :
    Moves x ((x.modifySocket c (Socket.hear (.paired sessionId))).onMessage b c s
      (.paired sessionId) draw busy)
      (x.exchangeEvent (.message c (.paired sessionId) draw busy)).toList := by
  unfold onMessage
  dsimp only
  rw [onPairedMessage_paired, exchangeEvent, hs, Option.bind_some]
  cases s.opener with
  | receiver | join => exact .of_eq (finalizePaired_exchanges _ _ _ _ _)
  | reconnect => exact .of_eq rfl
  | receiverCode | joinByCode =>
      refine .of_step fun sent => ⟨_, rfl, ?_⟩
      have hadvance : ((x.modifySocket c (Socket.hear (.paired sessionId))).advance
          { screen := .verifying }).exchanges = x.exchanges := (keeps_advance _ _).exchanges
      exact congrArg (· ++ _) hadvance.symm

theorem moves_message {s : Socket} (hs : x.sockets[c]? = some s) (m : Received) (draw : Bytes)
    (busy : Bool) :
    Moves x ((x.modifySocket c (Socket.hear m)).onMessage b c s m draw busy)
      (x.exchangeEvent (.message c m draw busy)).toList := by
  have hother (hpaired : ∀ sessionId, m ≠ .paired sessionId) :
      (onPairedMessage c m s.wired busy ((x.modifySocket c (Socket.hear m)).onOpenerMessage b c
        s.opener m draw)).exchanges = x.exchanges :=
    (keeps_onPairedMessage c m s.wired busy _).exchanges.trans
      (onOpenerMessage_exchanges hpaired _ c s.opener draw)
  cases m with
  | paired sessionId => exact moves_paired hs sessionId draw busy
  | pake m =>
      refine .of_step fun sent => ⟨_, rfl, ?_⟩
      exact congrArg (List.map _) (hother nofun).symm
  | sessionCreated | codeSessionCreated | reconnected | error | peerDisconnected
  | peerReconnected | roleSwapRequest | roleSwapResponse | sessionEnded =>
      exact .of_eq (hother nofun)

theorem moves_resumeExchange {i : Nat} {e : Exchange b.lib} {err : Option String}
    (he : x.exchanges[i]? = some e) (hy : x.resumeExchange b i e err = some y) :
    Moves x y [.settles i err] := by
  unfold resumeExchange at hy
  split at hy
  next => cases hy
  next res hres =>
    have hstep (sent : List (ConnId × PakeMessage)) :
        Wasm.Apart.step b ⟨x.exchanges, sent⟩ (.settles i err) =
          some (Wasm.Apart.land ⟨x.exchanges, sent⟩ i e.socket (settle err res)) := by
      simp only [Wasm.Apart.step, he, hres]
    refine .of_step fun sent => ⟨_, hstep sent, ?_⟩
    have hland {r : Except String (Pake.Pc b.lib × List PakeMessage)} (hr : settle err res = r) :
        (Wasm.Apart.land ⟨x.exchanges, sent⟩ i e.socket (settle err res)).exchanges =
          (Wasm.Apart.land ⟨x.exchanges, sent⟩ i e.socket r).exchanges :=
      congrArg (fun r => (Wasm.Apart.land ⟨x.exchanges, sent⟩ i e.socket r).exchanges) hr
    split at hy
    next pc out hsettle =>
      have hout := (keeps_foldl_sendEnvelope e.socket Sent.pake out (x.setExchange b i pc)).exchanges
      refine (hland hsettle).trans ?_
      dsimp only at hy
      split at hy
      next key =>
        obtain rfl := Option.some.inj hy
        exact ((finalizePaired_exchanges _ _ _ _ _).trans hout).symm
      next =>
        obtain rfl := Option.some.inj hy
        exact ((keeps_showError _ _).exchanges.trans hout).symm
      next =>
        obtain rfl := Option.some.inj hy
        exact hout.symm
    next err' hsettle =>
      obtain rfl := Option.some.inj hy
      refine (hland hsettle).trans ?_
      exact (keeps_showError (x.setExchange b i (.settled (.error err'))) _).exchanges.symm

/-- **The step lemma**: the page moves its exchanges, and nothing else does. -/
theorem moves_step {e : Event} (hstep : step b x e = some y) :
    Moves x y (x.exchangeEvent e).toList := by
  cases e with
  | message c m draw busy =>
      cases hs : x.sockets[c]? with
      | none => simp [step, hs] at hstep
      | some s =>
          obtain ⟨-, rfl⟩ := step_message hs hstep
          exact moves_message hs m draw busy
  | pakeResumes i err =>
      unfold step at hstep
      dsimp only at hstep
      split at hstep
      next e he => exact moves_resumeExchange he hstep
      next => cases hstep
  | click | cameraDenied | cameraReady | scanned | opens | closes | relayReads | relayDrops
  | tokenDerived | retry | swapTimer => exact .of_eq (keeps_step rfl hstep).exchanges

/-- Over a run. -/
theorem traced_apart {start : CurrentState} {es : List Event} {fs : List Wasm.Event}
    (hr : Transition.run (traced b) (init start, []) es = some (x, fs)) :
    ∃ z, Transition.run (Wasm.Apart.step b) (Wasm.Apart.init b.lib) fs = some z ∧
      z.exchanges = x.exchanges := by
  refine Transition.invariant (I := fun y : Page b.lib × List Wasm.Event =>
    ∃ z, Transition.run (Wasm.Apart.step b) (Wasm.Apart.init b.lib) y.2 = some z ∧
      z.exchanges = y.1.exchanges) ?_ ⟨_, rfl, rfl⟩ hr
  rintro ⟨x, fs⟩ e w ⟨z, hz, heq⟩ hstep
  obtain ⟨y, hy, rfl⟩ := Option.map_eq_some_iff.mp hstep
  obtain ⟨z', hz', heq'⟩ := moves_step hy z.sent
  refine ⟨z', ?_, heq'⟩
  rw [Transition.run_append, hz, Option.bind_some]
  rw [← heq] at hz'
  exact hz'

end Page

namespace Wasm

/-- **The exchanges of a page do not meet in the module**: whatever their number
and the order of their steps, each behaves as if its state were its own, and
so no call gets `errUnknownHandle` for its own handle. What is left in the
table is at most one entry for each exchange under way or failed. Where the
module could not be loaded, none gets anywhere. A page that has seen the same
has the same exchanges, so that what is shown of a page whose exchanges keep
their own states holds of one that keeps them in the module. -/
theorem kept_apart (b : Browser) {es : List Event} {x : State b.lib}
    (hr : Transition.run (step b) (init b.lib) es = some x) :
    (∃ y, Transition.run (Apart.step b) (Apart.init b.lib) es = some y ∧ y.sent = x.sent ∧
      x.calls.map (Call.exchange x.wasm) = y.exchanges.map some) ∧
    x.wasm.size ≤ x.calls.countP (·.place.mayHold) ∧
    (x.ready ≠ .loaded → x.sent = [] ∧ ∀ c ∈ x.calls, c.place = .initializing ∨
      ∃ e, x.ready = .failed e ∧ c.place = .settled (.error e)) ∧
    ∀ (start : CurrentState) (es' : List Page.Event) (p : Page b.lib),
      Transition.run (Page.traced b) (Page.init start, []) es' =
        some (p, es.filter Event.isExchange) →
      x.calls.map (Call.exchange x.wasm) = p.exchanges.map some := by
  obtain ⟨y, hy, h⟩ := refines_run hr
  have hunloaded : Unloaded x :=
    Transition.invariant (fun _ _ _ h hs => unloaded_step h hs)
      (fun _ => ⟨rfl, fun _ hc => by cases hc⟩) hr
  refine ⟨⟨y, hy, h.sent, h.exchanges⟩, h.held, hunloaded, fun start es' p hp => ?_⟩
  obtain ⟨z, hz, heq⟩ := Page.traced_apart hp
  rw [run_withoutLoads, hy] at hz
  obtain rfl := Option.some.inj hz
  rw [h.exchanges, heq]

/-! ## An exchange that is loaded for -/

/-- A code is entered, the relay answers, and the exchange hears the other side. -/
def verifying : List Page.Event :=
  [.click (.enterCode "123456"), .opens 0, .message 0 (.paired (some "s")) [7] false,
    .pakeResumes 0 none, .message 0 (.pake (.pakeMsg [9])) [] false, .pakeResumes 0 none,
    .pakeResumes 0 none]

/-- The same in the module, which is loaded behind the call. -/
def verifyingCall : List Event :=
  [.starts 0 (some "s") .guest (utf16 "123456") [7], .loads none, .settles 0 none,
    .hears 0 (.pakeMsg [9]), .settles 0 none, .settles 0 none]

theorem kept_apart_verifying : ∃ x p,
    Transition.run (step Page.labelBrowser) (init Page.labelBrowser.lib) verifyingCall = some x ∧
      Transition.run (Page.traced Page.labelBrowser) (Page.init { screen := .codeSenderEntry }, [])
        verifying = some (p, verifyingCall.filter Event.isExchange) ∧
      p.exchanges.length = 1 ∧ x.calls.map (Call.exchange x.wasm) = p.exchanges.map some ∧
      x.wasm.size ≤ x.calls.countP (·.place.mayHold) := by
  have hx : Transition.run (step Page.labelBrowser) (init Page.labelBrowser.lib) verifyingCall =
    some _ := rfl
  have hp : Transition.run (Page.traced Page.labelBrowser)
    (Page.init { screen := .codeSenderEntry }, []) verifying =
      some (_, verifyingCall.filter Event.isExchange) := rfl
  obtain ⟨-, hsize, -, hpage⟩ := kept_apart Page.labelBrowser hx
  exact ⟨_, _, hx, hp, rfl, hpage _ verifying _ hp, hsize⟩

end Wasm

end Quicksend
