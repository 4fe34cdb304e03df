import Quicksend.Wire
import Quicksend.Lib.Transition
import Mathlib.Logic.Function.Basic

/-!
# The code exchange (`runPakeExchange`, `pake.js`, `wasm/pake`)

Two clients run the exchange over a relay that forwards in order and loses
nothing. The SPAKE2 package is a parameter; around it stands what
`wasm/pake` and `pake.js` add. A step settles the promise that one side
awaits, or dispatches to a side the next message sent to it: the message
resumes the side if its `waitForType` listener for that type is installed,
and vanishes otherwise.
-/

namespace Quicksend

/-- `schollz/pake/v3`: one end of an exchange, made from the password, the
role and the randomness it draws. -/
structure PakePackage where
  Pake : Type
  initCurve (pw : JSString) (role : Nat) (seed : Bytes) : Except String Pake
  bytes : Pake → Bytes
  update : Pake → Bytes → Except String Pake
  sessionKey : Pake → Except String Bytes
  role : Pake → Nat

/-- The role that the package knows a side by: 0 is the initiator, which is the
host. -/
def Role.pakeRole : Role → Nat
  | .host => 0
  | .guest => 1

/-- Two ends made of one password which have handed each other their bytes,
before (`opening`) and after (`closing`) they took them: they have one key. -/
structure PakePackage.Agreement (lib : PakePackage) (pw : JSString) (seed : Role → Bytes)
    (opening closing : Role → lib.Pake) (key : Bytes) : Prop where
  initCurve (r : Role) : lib.initCurve pw r.pakeRole (seed r) = .ok (opening r)
  update_guest : lib.update (opening .guest) (lib.bytes (opening .host)) = .ok (closing .guest)
  update_host : lib.update (opening .host) (lib.bytes (closing .guest)) = .ok (closing .host)
  role (r : Role) : lib.role (closing r) = r.pakeRole
  sessionKey (r : Role) : lib.sessionKey (closing r) = .ok key

/-- What the package promises of honest exchanges with one password. -/
def PakePackage.Agrees (lib : PakePackage) : Prop :=
  ∀ pw seed, ∃ opening closing key, lib.Agreement pw seed opening closing key

/-- What one run of the exchange depends on: the package, HMAC-SHA256, and
what each side enters and draws. -/
structure PakeArgs where
  lib : PakePackage
  hmac (key message : Bytes) : Bytes
  code : Role → JSString
  seed : Role → Bytes

/-- The two messages of the exchange: the public element of a side, and the tag by
which it confirms its key. -/
inductive PakeMessage where
  | pakeMsg (message : Bytes)
  | pakeConfirm (tagHex : JSString)
  deriving DecidableEq

/-- The type of a message: `pake_confirm`, else `pake_msg`. -/
def PakeMessage.isConfirm : PakeMessage → Bool
  | .pakeMsg _ => false
  | .pakeConfirm _ => true

namespace Pake

/-! ## `wasm/pake` and `pake.js` -/

section
variable (lib : PakePackage)

/-- `jsInit`: begin an exchange; only the side that speaks first, role 0, has a
message to send at once. -/
def jsInit (password : JSString) (role : Nat) (seed : Bytes) : Except String (lib.Pake × Bytes) := do
  let p ← lib.initCurve password role seed
  return (p, if role = 0 then lib.bytes p else [])

/-- `jsUpdate`: take the other side's message in; the side of role 1 now has its
answer to send. -/
def jsUpdate (p : lib.Pake) (message : Bytes) : Except String (lib.Pake × Bytes) := do
  let p ← lib.update p message
  return (p, if lib.role p = 1 then lib.bytes p else [])

/-- `jsSessionKey` and `pake.sessionKey`: the key crosses as hex. -/
def jsSessionKey (p : lib.Pake) : Except String Bytes := do
  let key ← lib.sessionKey p
  return fromHex (toHex key)

end

/-- The text whose HMAC under the session key is the confirmation tag of either
side. -/
def CONFIRM_INFO : Bytes := ascii "quicksend-pake-confirm"

/-- `computeConfirmTag`: the HMAC of a fixed text under the session key, the same
on both sides when the keys are. -/
def computeConfirmTag (a : PakeArgs) (sessionKeyBytes : Bytes) : Bytes :=
  a.hmac sessionKeyBytes CONFIRM_INFO

/-- `bytesEqual`: the lengths first, then every byte, with the differences
gathered instead of a stop at the first one. -/
def bytesEqual (a b : Bytes) : Bool :=
  if a.length ≠ b.length then false
  else (List.zip a b).foldl (fun diff xy => diff ||| (xy.1 ^^^ xy.2)) 0 == 0

/-- `verifyConfirmTag`: compute the tag that one's own key gives and compare it
with the tag that was received. -/
def verifyConfirmTag (a : PakeArgs) (sessionKeyBytes receivedTag : Bytes) : Bool :=
  bytesEqual (computeConfirmTag a sessionKeyBytes) receivedTag

/-! ## `runPakeExchange` -/

/-- The suspension points. In `awaitingMsg` and `awaitingConfirm` a
`waitForType` listener is installed; the others await an operation. -/
inductive Pc (lib : PakePackage) where
  | initializing
  | awaitingMsg (p : lib.Pake)
  | updating (p : lib.Pake) (message : Bytes)
  | derivingKey (p : lib.Pake)
  | tagging (keyBytes : Bytes)
  | awaitingConfirm (keyBytes : Bytes)
  | verifying (keyBytes peerTag : Bytes)
  | freeing (keyBytes : Bytes) (ok : Bool)
  | settled (outcome : Except String Bytes)

/-- Where the awaited operation takes side `r`, and what `r` sends then;
`none` when it awaits no operation. -/
def resume (a : PakeArgs) (r : Role) :
    Pc a.lib → Option (Except String (Pc a.lib × List PakeMessage))
  | .initializing => some do
      let init ← jsInit a.lib (a.code r) r.pakeRole (a.seed r)
      return (.awaitingMsg init.1, if r.pakeRole = 0 then [.pakeMsg init.2] else [])
  | .updating p message => some do
      let update ← jsUpdate a.lib p message
      return (.derivingKey update.1, if r.pakeRole = 1 then [.pakeMsg update.2] else [])
  | .derivingKey p => some do
      let keyBytes ← jsSessionKey a.lib p
      return (.tagging keyBytes, [])
  | .tagging keyBytes =>
      some (.ok (.awaitingConfirm keyBytes,
        [.pakeConfirm (toHex (computeConfirmTag a keyBytes))]))
  | .verifying keyBytes peerTag =>
      some (.ok (.freeing keyBytes (verifyConfirmTag a keyBytes peerTag), []))
  | .freeing keyBytes ok =>
      some (.ok (.settled (if ok then .ok keyBytes else .error "code_mismatch"), []))
  | .awaitingMsg _ | .awaitingConfirm _ | .settled _ => none

/-- A message is dispatched on the socket: it is taken by the listener that waits
for its type, and lost where none does. -/
def hear {lib : PakePackage} : Pc lib → PakeMessage → Pc lib
  | .awaitingMsg p, .pakeMsg message => .updating p message
  | .awaitingConfirm keyBytes, .pakeConfirm tagHex => .verifying keyBytes (fromHex tagHex)
  | pc, _ => pc

/-- Each side's place, all it has sent so far, and how many of the other
side's messages have been dispatched to it. -/
structure State (lib : PakePackage) where
  pc : Role → Pc lib
  sent : Role → List PakeMessage
  seen : Role → Nat

/-- Both sides are about to call `init` of the module; nothing has been sent and
nothing has been dispatched. -/
def init (lib : PakePackage) : State lib where
  pc _ := .initializing
  sent _ := []
  seen _ := 0

/-- `settle r err`: the operation that `r` awaits settles, as a failure when
`err` is a message. `dispatch r`: the next message sent to `r` is dispatched. -/
inductive Event where
  | settle (r : Role) (err : Option String)
  | dispatch (r : Role)
  deriving DecidableEq

/-- One step of a side: the promise it awaits settles, or its listener gets the
next message that the other side sent. -/
def step (a : PakeArgs) (s : State a.lib) : Event → Option (State a.lib)
  | .settle r err =>
      match resume a r (s.pc r) with
      | none => none
      | some res =>
          match settle err res with
          | .ok (pc, out) =>
              some { s with
                pc := Function.update s.pc r pc
                sent := Function.update s.sent r (s.sent r ++ out) }
          | .error e => some { s with pc := Function.update s.pc r (.settled (.error e)) }
  | .dispatch r =>
      match (s.sent r.other)[s.seen r]? with
      | none => none
      | some m =>
          some { s with
            pc := Function.update s.pc r (hear (s.pc r) m)
            seen := Function.update s.seen r (s.seen r + 1) }

/-! ## A package to evaluate with -/

/-- An instance of the labelling package: its password, its role, its own message,
and the key once it has one. -/
structure LabelPake where
  pw : JSString
  role : Nat
  seed : Bytes
  key : Option Bytes

/-- A package whose key spells out the password and what was exchanged. -/
def labelPake : PakePackage where
  Pake := LabelPake
  initCurve pw role seed := .ok ⟨pw, role, seed, none⟩
  bytes p := p.seed
  update p message := .ok { p with
    key := some (p.pw.map UInt16.toUInt8
      ++ if p.role = 0 then p.seed ++ message else message ++ p.seed) }
  sessionKey p :=
    match p.key with
    | some key => .ok key
    | none => .error "session key not generated"
  role p := p.role

theorem labelPake_agrees : labelPake.Agrees := by
  intro pw seed
  let key := pw.map UInt16.toUInt8 ++ (seed .host ++ seed .guest)
  exact ⟨fun r => ⟨pw, r.pakeRole, seed r, none⟩, fun r => ⟨pw, r.pakeRole, seed r, some key⟩, key,
    fun _ => rfl, rfl, rfl, fun _ => rfl, fun _ => rfl⟩

end Pake

end Quicksend
