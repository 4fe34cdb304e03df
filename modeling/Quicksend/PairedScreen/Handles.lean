import Quicksend.PairedScreen.Steps
import Quicksend.Paired.Steps
import Quicksend.ReceiverTransfer.Saved

/-!
# The live handle of the paired screen

A render is seen here from outside: its session, whether its promise is still
awaited, and whether its handle is live, that is, not detached. What goes on
behind a handle does not change that, so every step is a render, a way off the
screen, one of the three things that can happen to a promise, or nothing.
-/

namespace Quicksend

open Pairing (Client Reaction Signal Notice Down)
open Paired (SameRoles onPairedClose_sameRoles)
open Transition (run Guarded)

/-- A render from outside: the session it was built with, whether its promise is
awaited, and whether its handle is live. -/
structure Outline where
  session : PairedSession
  awaited : Bool
  /-- Of the handle, when there is one. -/
  live : Option Bool
  deriving DecidableEq

namespace Outline

/-- A render that just began: its promise is awaited, and there is no handle to be
live. -/
def start (session : PairedSession) : Outline :=
  { session := session, awaited := true, live := none }

/-- The handle is live no more, if there is one; all else of the render is as it
was. -/
def detach (o : Outline) : Outline := { o with live := o.live.map fun _ => false }

/-- The promise has been taken note of, and is not awaited any more; the handle
stays as it is. -/
def adopt (o : Outline) : Outline := { o with awaited := false }

theorem detach_live (o : Outline) : o.detach.live ≠ some true := by
  cases h : o.live <;> simp [detach, h]

end Outline

/-- The handle has not been detached: it may still begin a file or take one in. -/
def Handle.isLive (h : Handle) : Bool := !h.isDetached

@[simp] theorem Handle.isLive_detach (h : Handle) : h.detach.isLive = false := by cases h <;> rfl

/-- A render with all that goes on behind its handle left out. -/
def Render.outline (r : Render) : Outline :=
  { session := r.session, awaited := r.awaited, live := r.handle.map Handle.isLive }

namespace PairedScreen

variable {w : WebCrypto} {codec : MetaCodec} {x y : PairedScreen} {e : Event} {out : List Output}

/-- The renders of the screen from outside, in the order in which they began. -/
def outlines (x : PairedScreen) : List Outline := x.renders.map Render.outline

/-- The listener or button of this event renders the paired screen. -/
def startsRender (x : PairedScreen) : Event → Bool
  | .pairs _ _ _ | .reconnected _ => true
  | .hears m => (x.client.onPairedMessage x.isActive m).rendered
  | _ => false

/-- The event takes the page off the paired screen, by a way out of its own or by
what it hears. -/
def leavesScreen (x : PairedScreen) : Event → Bool
  | .leaves => true
  | .hears m => !(x.client.onPairedMessage x.isActive m).client.paired
  | _ => false

/-- The outlines after `detachActiveTransfer`: that of the active handle is live
no more. -/
def detached (x : PairedScreen) : List Outline :=
  match x.activeTransferHandle with
  | some i => x.outlines.modify i Outline.detach
  | none => x.outlines

/-- What one step does to the renders and the session. -/
inductive Shift (x y : PairedScreen) (e : Event) : Prop where
  | rendered (he : x.startsRender e = true) (session : PairedSession)
      (hs : y.getPairedSession = some session)
      (ho : y.outlines = x.detached ++ [Outline.start session])
      (ha : y.activeTransferHandle = none)
  | left (he : x.leavesScreen e = true) (hp : y.client.paired = false)
      (ho : y.outlines = x.detached) (ha : y.activeTransferHandle = none)
      (hs : ∀ c, x.client.activeSocket = some c → c ∈ y.shut)
  | built (hc : y.client = x.client) (i : Nat) (o : Outline) (hi : x.outlines[i]? = some o)
      (hw : o.awaited = true) (hl : o.live = none)
      (ho : y.outlines = x.outlines.set i { o with live := some true })
      (ha : y.activeTransferHandle = x.activeTransferHandle)
  | failed (hc : y.client = x.client) (i : Nat) (o : Outline) (hi : x.outlines[i]? = some o)
      (hw : o.awaited = true) (hl : o.live = none)
      (ho : y.outlines = x.outlines.set i { o with awaited := false })
      (ha : y.activeTransferHandle = x.activeTransferHandle)
  | adopted (hc : y.client = x.client) (i : Nat) (o : Outline) (hi : x.outlines[i]? = some o)
      (hw : o.awaited = true) (hl : o.live.isSome = true)
      (ho : y.outlines = x.outlines.modify i Outline.adopt) (ha : y.activeTransferHandle = some i)
  | still (hc : SameRoles x.client y.client) (ho : y.outlines = x.outlines)
      (ha : y.activeTransferHandle = x.activeTransferHandle)

/-! ## What the functions of the page leave alone -/

theorem outlines_getElem? (x : PairedScreen) (i : Nat) :
    x.outlines[i]? = x.renders[i]?.map Render.outline := List.getElem?_map

/-- A change of one render that is not seen from outside. -/
theorem map_outline_modify {renders : List Render} {i : Nat} {f : Render → Render}
    (h : ∀ r, renders[i]? = some r → (f r).outline = r.outline) :
    (renders.modify i f).map Render.outline = renders.map Render.outline := by
  refine List.ext_getElem? fun j => ?_
  rw [List.getElem?_map, List.getElem?_map, List.getElem?_modify]
  by_cases hij : i = j
  · subst hij
    cases hr : renders[i]? with
    | none => rfl
    | some r => simp [h r hr]
  · simp [hij]

/-- A change of one render, and the same change seen from outside. -/
theorem map_outline_modify_comm {renders : List Render} {i : Nat} {f : Render → Render}
    {g : Outline → Outline} (h : ∀ r, (f r).outline = g r.outline) :
    (renders.modify i f).map Render.outline = (renders.map Render.outline).modify i g := by
  refine List.ext_getElem? fun j => ?_
  rw [List.getElem?_map, List.getElem?_modify, List.getElem?_modify, List.getElem?_map]
  cases renders[j]? with
  | none => rfl
  | some r => by_cases hij : i = j <;> simp [hij, h]

theorem handle_of_render {i : Nat} {r : Render} {h : Option Handle} (hr : x.renders[i]? = some r)
    (hh : r.handle = h) : x.handle i = h := by
  rw [handle, hr, Option.bind_some, hh]

theorem outlines_setHandle {i : Nat} {h : Handle}
    (hh : ∀ h₀, x.handle i = some h₀ → h₀.isLive = h.isLive) (hs : (x.handle i).isSome = true) :
    (x.setHandle i h).outlines = x.outlines := by
  refine map_outline_modify fun r hr => ?_
  rw [handle, hr, Option.bind_some] at hs hh
  obtain ⟨h₀, h₀r⟩ := Option.isSome_iff_exists.mp hs
  simp [Render.outline, h₀r, hh h₀ h₀r]

theorem outlines_detachActiveTransfer (x : PairedScreen) :
    x.detachActiveTransfer.outlines = x.detached := by
  cases ha : x.activeTransferHandle with
  | none => simp only [detachActiveTransfer, detached, ha]
  | some i =>
      simp only [detachActiveTransfer, detached, ha]
      refine map_outline_modify_comm fun r => ?_
      cases hr : r.handle <;> simp [Render.outline, Outline.detach, hr]

@[simp] theorem client_detachActiveTransfer (x : PairedScreen) :
    x.detachActiveTransfer.client = x.client := by
  rw [detachActiveTransfer]
  split <;> rfl

@[simp] theorem sessionKey_detachActiveTransfer (x : PairedScreen) :
    x.detachActiveTransfer.sessionKey = x.sessionKey := by
  rw [detachActiveTransfer]
  split <;> rfl

@[simp] theorem active_detachActiveTransfer (x : PairedScreen) :
    x.detachActiveTransfer.activeTransferHandle = none := by
  rw [detachActiveTransfer]
  split
  next => rfl
  next h => exact h

@[simp] theorem getPairedSession_detachActiveTransfer (x : PairedScreen) :
    x.detachActiveTransfer.getPairedSession = x.getPairedSession := by
  rw [getPairedSession, getPairedSession, client_detachActiveTransfer,
    sessionKey_detachActiveTransfer]

theorem renderPaired_eq {session : PairedSession} (hs : x.getPairedSession = some session) :
    x.renderPaired = { x.detachActiveTransfer with
      renders := x.detachActiveTransfer.renders ++ [Render.start session] } := by
  simp only [renderPaired, getPairedSession_detachActiveTransfer, hs]

/-- A listener has rendered the paired screen. -/
theorem react_rendered (x : PairedScreen) {r : Reaction} {socket : ConnId} (hr : r.rendered = true)
    (hp : r.client.paired = true) (hs : r.client.activeSocket = some socket) :
    ∃ session, (x.react r).getPairedSession = some session ∧
      (x.react r).outlines = x.detached ++ [Outline.start session] ∧
      (x.react r).activeTransferHandle = none := by
  let x' : PairedScreen := { x with client := r.client }
  obtain ⟨session, hsession⟩ : ∃ session, x'.getPairedSession = some session := by
    simp only [getPairedSession, x', hp, hs, if_true, Option.map_some]
    exact ⟨_, rfl⟩
  have hreact : x.react r = x'.renderPaired := by simp only [react, hr, if_true, x']
  rw [hreact, renderPaired_eq hsession]
  refine ⟨session, ?_, ?_, active_detachActiveTransfer x'⟩
  · exact (getPairedSession_detachActiveTransfer x').trans hsession
  · simp only [outlines, List.map_append]
    exact congrArg (· ++ [Outline.start session]) (outlines_detachActiveTransfer x')

/-- The page has left the paired screen. -/
theorem react_left (x : PairedScreen) :
    (x.react x.client.setState).client.paired = false ∧
      (x.react x.client.setState).outlines = x.detached ∧
      (x.react x.client.setState).activeTransferHandle = none ∧
      ∀ c, x.client.activeSocket = some c → c ∈ (x.react x.client.setState).shut := by
  let x' : PairedScreen := { x with client := x.client.setState.client }
  have hreact : x.react x.client.setState = x'.cleanupActive x.client.activeSocket := by
    simp [react, Client.setState, x']
  rw [hreact]
  refine ⟨?_, outlines_detachActiveTransfer x', active_detachActiveTransfer x', fun c hc => ?_⟩
  · show x'.detachActiveTransfer.client.paired = false
    rw [client_detachActiveTransfer]
    rfl
  · exact List.mem_append_right _ (by rw [hc]; simp)

/-- A listener has done something else. -/
theorem react_stayed (x : PairedScreen) {r : Reaction} (hr : r.rendered = false)
    (hp : r.client.paired = true) : x.react r = { x with client := r.client } := by
  simp [react, hr, hp]

/-- What the listener of a paired socket can do. -/
inductive Reacts (c : Client) (r : Reaction) : Prop where
  | rendered (hr : r.rendered = true) (hp : r.client.paired = true)
      (hs : r.client.activeSocket = c.activeSocket)
  | stayed (hr : r.rendered = false) (hp : r.client.paired = true) (hc : SameRoles c r.client)
      (hs : r.client.activeSocket = c.activeSocket)
  | left (hr : r = c.setState)

theorem onPairedMessage_reacts (c : Client) (busy : Bool) (m : Down) (hp : c.paired = true) :
    Reacts c (c.onPairedMessage busy m) := by
  match m with
  | .notice (.sessionEnded _) => exact .left rfl
  | .notice .peerReconnected => exact .rendered rfl hp rfl
  | .notice .peerDisconnected | .notice .reconnected | .notice (.error _) =>
      exact .stayed rfl hp (.refl c) rfl
  | .signal .roleSwapRequest =>
      rw [Client.onPairedMessage]
      split
      next => exact .stayed rfl hp (.refl c) rfl
      next => exact .rendered rfl hp rfl
  | .signal (.roleSwapResponse accepted) =>
      rw [Client.onPairedMessage]
      split
      next => exact .stayed rfl hp (.refl c) rfl
      next =>
        cases accepted with
        | true => exact .rendered rfl hp rfl
        | false => exact .stayed rfl hp ⟨rfl, rfl, rfl, .inl rfl⟩ rfl

theorem requestRoleSwap_sameRoles (c : Client) (busy : Bool) :
    SameRoles c (c.requestRoleSwap busy).1 := by
  rw [Client.requestRoleSwap]
  split
  next => exact .refl c
  next =>
    split
    next => exact ⟨rfl, rfl, rfl, .inl rfl⟩
    next => exact ⟨rfl, rfl, rfl, .inl rfl⟩

/-! ## What goes on behind the handles -/

theorem outlines_sendFile {i : Nat} {r : Render} {file : File} {files : List File} {fileId : FileId}
    (hh : ∀ h, x.handle i = some h → h.isLive = true) (hs : (x.handle i).isSome = true) :
    (x.sendFile w codec i r file files fileId).outlines = x.outlines :=
  outlines_setHandle hh hs

theorem outlines_sendFiles (w : WebCrypto) (codec : MetaCodec) (x : PairedScreen) (i : Nat)
    (files : List File) (fileId : FileId) :
    (x.sendFiles w codec i files fileId).outlines = x.outlines := by
  unfold sendFiles
  split
  next r file files hr =>
    split
    next hh =>
      have hi : x.handle i = some (.sender false none) := handle_of_render hr hh
      refine outlines_sendFile (fun h h' => ?_) (by rw [hi]; rfl)
      rw [hi] at h'
      rw [← Option.some.inj h']
      rfl
    next => rfl
  next => rfl

theorem outlines_onStaleFiles (w : WebCrypto) (codec : MetaCodec) (x : PairedScreen)
    (files : List File) (fileId : FileId) :
    (x.onStaleFiles w codec files fileId).outlines = x.outlines := by
  unfold onStaleFiles
  split
  next =>
    split
    next => exact outlines_sendFiles w codec x _ files fileId
    next => rfl
  next => rfl

theorem outlines_continueBatch {i : Nat} {r : Render} {detached : Bool} {batch : Option Batch}
    (hi : x.handle i = some (.sender detached batch)) (files : List File) (fileId : FileId) :
    (x.continueBatch w codec i r detached files fileId).outlines = x.outlines := by
  have hsome : (x.handle i).isSome = true := by rw [hi]; rfl
  have hstop : (x.setHandle i (.sender detached none)).outlines = x.outlines := by
    refine outlines_setHandle (fun h h' => ?_) hsome
    rw [hi] at h'
    rw [← Option.some.inj h']
    rfl
  unfold continueBatch
  split
  next file files =>
    split
    next => exact hstop
    next hd =>
      refine outlines_sendFile (fun h h' => ?_) hsome
      rw [hi] at h'
      rw [← Option.some.inj h', Handle.isLive, Handle.isDetached]
      simpa using hd
  next => exact hstop

/-- The receiver behind a receiving screen takes a step of its own, or none. -/
def ReceiverActs (a : ReceiverArgs) (s : ReceiverTransfer.State) (e : ReceiverTransfer.Event)
    (t : ReceiverTransfer.State) (out : List Receiver.Action) : Prop :=
  (∃ e', Receiver.Steps a s.rcv e' t.rcv out ∧ (e' = .detach → e = .detach)) ∨
    (t.rcv = s.rcv ∧ out = [])

theorem receiverActs_of_stepReceiver {a : ReceiverArgs} {s s' t : ReceiverTransfer.State}
    {e : ReceiverTransfer.Event} {e' : Receiver.Event} {out : List Receiver.Action}
    (h : ReceiverTransfer.stepReceiver a s' e' = some (t, out)) (hs : s'.rcv = s.rcv)
    (he : e' = .detach → e = .detach) : ReceiverActs a s e t out := by
  obtain ⟨r, hstep, rfl⟩ := ReceiverTransfer.stepReceiver_spec h
  exact .inl ⟨e', hs ▸ hstep, he⟩

theorem receiverActs_of_stepWrite {a : ReceiverArgs} {s t : ReceiverTransfer.State}
    {plaintext : Bytes} {err : Option String} {e : ReceiverTransfer.Event}
    {out : List Receiver.Action} (h : ReceiverTransfer.stepWrite a s plaintext err = some (t, out)) :
    ReceiverActs a s e t out := by
  unfold ReceiverTransfer.stepWrite at h
  split at h
  next =>
    split at h
    next => exact receiverActs_of_stepReceiver h rfl (by simp)
    next => cases h
  next =>
    split at h
    next => cases h
    next => exact receiverActs_of_stepReceiver h rfl (by simp)
    next =>
      split at h
      next => exact receiverActs_of_stepReceiver h rfl (by simp)
      next => cases h

theorem receiverActs_of_step {a : ReceiverArgs} {s t : ReceiverTransfer.State}
    {e : ReceiverTransfer.Event} {out : List Receiver.Action}
    (h : ReceiverTransfer.step a s e = some (t, out)) : ReceiverActs a s e t out := by
  unfold ReceiverTransfer.step at h
  split at h
  next => exact receiverActs_of_stepReceiver h rfl (by simp)
  next => exact receiverActs_of_stepReceiver h rfl (by simp)
  next =>
    split at h
    next => cases h
    next => cases h
    next => exact receiverActs_of_stepWrite h
    next => exact receiverActs_of_stepReceiver h rfl (by simp)
  next =>
    split at h
    next => exact receiverActs_of_stepReceiver h rfl (by simp)
    next => cases h
  next =>
    split at h
    next =>
      split at h
      next =>
        obtain ⟨rfl, rfl⟩ := Prod.mk.inj (Option.some.inj h)
        exact .inr ⟨rfl, rfl⟩
      next => cases h
    next =>
      split at h
      next =>
        obtain ⟨rfl, rfl⟩ := Prod.mk.inj (Option.some.inj h)
        exact .inr ⟨rfl, rfl⟩
      next => cases h
    next => cases h
  next => exact receiverActs_of_stepReceiver h rfl (by simp)
  next => exact receiverActs_of_stepReceiver h rfl (by simp)
  next => exact receiverActs_of_stepReceiver h rfl fun _ => rfl

/-- A receiver's listeners stay attached until they are detached. -/
theorem attached_of_step {a : ReceiverArgs} {s t : ReceiverTransfer.State}
    {e : ReceiverTransfer.Event} {out : List Receiver.Action} (he : e ≠ .detach)
    (h : ReceiverTransfer.step a s e = some (t, out)) : t.rcv.attached = s.rcv.attached := by
  have kept {r : Receiver.State} {e' : Receiver.Event} (hstep : Receiver.Steps a s.rcv e' r out)
      (he' : e' ≠ .detach) : r.attached = s.rcv.attached := by
    cases hstep
    case detached => exact absurd rfl he'
    all_goals rfl
  obtain ⟨e', hstep, he'⟩ | ⟨hsame, -⟩ := receiverActs_of_step h
  · exact kept hstep fun h => he (he' h)
  · rw [hsame]

theorem outline_dispatch (w : WebCrypto) (codec : MetaCodec) (socket : ConnId)
    {e : ReceiverTransfer.Event} (he : e ≠ .detach) (r : Render) :
    (r.dispatch w codec socket e).outline = r.outline := by
  unfold Render.dispatch
  split
  next ui hr =>
    split
    next =>
      split
      next t out hstep =>
        have hatt := attached_of_step he hstep
        simp [Render.outline, hr, Handle.isLive, Handle.isDetached, hatt]
      next => rfl
    next => rfl
  next => rfl
  next => rfl

theorem map_outline_dispatch (w : WebCrypto) (codec : MetaCodec) (socket : ConnId)
    {e : ReceiverTransfer.Event} (he : e ≠ .detach) (renders : List Render) :
    (renders.map (Render.dispatch w codec socket e)).map Render.outline
      = renders.map Render.outline := by
  rw [List.map_map]
  exact List.map_congr_left fun r _ => outline_dispatch w codec socket he r

/-! ## One step -/

theorem Shift.same (hc : y.client = x.client) (ho : y.outlines = x.outlines)
    (ha : y.activeTransferHandle = x.activeTransferHandle) : Shift x y e :=
  .still (hc ▸ .refl _) ho ha

/-- Two screens with the same client, sockets and active handle. -/
structure SamePage (x y : PairedScreen) : Prop where
  client : y.client = x.client
  active : y.activeTransferHandle = x.activeTransferHandle
  shut : y.shut = x.shut
  closed : y.closed = x.closed

theorem SamePage.refl (x : PairedScreen) : SamePage x x := ⟨rfl, rfl, rfl, rfl⟩

theorem sendFiles_same (w : WebCrypto) (codec : MetaCodec) (x : PairedScreen) (i : Nat)
    (files : List File) (fileId : FileId) : SamePage x (x.sendFiles w codec i files fileId) := by
  unfold sendFiles
  split
  next =>
    split
    next => exact ⟨rfl, rfl, rfl, rfl⟩
    next => exact .refl x
  next => exact .refl x

theorem flushPending_same (w : WebCrypto) (codec : MetaCodec) (x : PairedScreen) (i : Nat)
    (fileId : FileId) :
    SamePage x (x.flushPending w codec i fileId) ∧
      (x.flushPending w codec i fileId).outlines = x.outlines := by
  unfold flushPending
  split
  next files _ =>
    split
    next =>
      obtain ⟨hc, ha, hs, hd⟩ := sendFiles_same w codec { x with pendingSendFiles := none } i files
        fileId
      exact ⟨⟨hc, ha, hs, hd⟩, outlines_sendFiles _ _ _ _ _ _⟩
    next => exact ⟨.refl x, rfl⟩
  next => exact ⟨.refl x, rfl⟩

theorem onStaleFiles_same (w : WebCrypto) (codec : MetaCodec) (x : PairedScreen)
    (files : List File) (fileId : FileId) : SamePage x (x.onStaleFiles w codec files fileId) := by
  unfold onStaleFiles
  split
  next =>
    split
    next => exact sendFiles_same w codec x _ files fileId
    next => exact ⟨rfl, rfl, rfl, rfl⟩
  next => exact ⟨rfl, rfl, rfl, rfl⟩

theorem continueBatch_same (w : WebCrypto) (codec : MetaCodec) (x : PairedScreen) (i : Nat)
    (r : Render) (detached : Bool) (files : List File) (fileId : FileId) :
    SamePage x (x.continueBatch w codec i r detached files fileId) := by
  unfold continueBatch
  split
  next =>
    split
    next => exact ⟨rfl, rfl, rfl, rfl⟩
    next => exact ⟨rfl, rfl, rfl, rfl⟩
  next => exact ⟨rfl, rfl, rfl, rfl⟩

/-- The events of what goes on behind the handles: messages, picked files, batches
and sinks. -/
def Event.isTransfers : Event → Bool
  | .arrives _ _ | .picks _ _ _ | .continues _ _ | .sendFile _ _ | .receiver _ _ => true
  | _ => false

theorem same_of_transfers (he : e.isTransfers = true) (h : Steps w codec x e y out) :
    SamePage x y ∧ y.outlines = x.outlines := by
  cases h with
  | text socket env =>
      exact ⟨⟨rfl, rfl, rfl, rfl⟩, map_outline_dispatch w codec socket (by simp) x.renders⟩
  | binary socket data =>
      exact ⟨⟨rfl, rfl, rfl, rfl⟩, map_outline_dispatch w codec socket (by simp) x.renders⟩
  | pickedStale i files fileId =>
      exact ⟨onStaleFiles_same w codec x files fileId, outlines_onStaleFiles w codec x files fileId⟩
  | picked i files fileId =>
      exact ⟨sendFiles_same w codec x i files fileId, outlines_sendFiles w codec x i files fileId⟩
  | continued i fileId r detached b hr hh =>
      have hi : x.handle i = some (.sender detached (some b)) := handle_of_render hr hh
      exact ⟨continueBatch_same w codec x i r detached b.files fileId,
        outlines_continueBatch hi b.files fileId⟩
  | sent => exact ⟨⟨rfl, rfl, rfl, rfl⟩, rfl⟩
  | received i e r ui t acts hr hh _ _ hdetach hstep =>
      have hi : x.handle i = some (.receiver ui) := handle_of_render hr hh
      refine ⟨⟨rfl, rfl, rfl, rfl⟩, outlines_setHandle (fun h h' => ?_) (by rw [hi]; rfl)⟩
      rw [hi] at h'
      have hatt := attached_of_step hdetach hstep
      rw [← Option.some.inj h', Handle.isLive, Handle.isLive, Handle.isDetached, Handle.isDetached,
        hatt]
  | _ => cases he

theorem outline_of_render {i : Nat} {r : Render} (hr : x.renders[i]? = some r) :
    x.outlines[i]? = some r.outline := by
  rw [outlines_getElem?, hr, Option.map_some]

theorem build_isLive (x : PairedScreen) (r : Render) : (x.build r).isLive = true := by
  rw [build]
  split <;> rfl

theorem outlines_setRender (x : PairedScreen) (i : Nat) (r : Render) :
    (x.setRender i r).outlines = x.outlines.set i r.outline := by
  rw [outlines, setRender, List.map_set]
  rfl

/-- **The step inversion**, as far as the renders go. -/
theorem shift_of_step (h : step w codec x e = some (y, out)) : Shift x y e := by
  have hsteps := step_spec h
  cases hsteps with
  | paired role socket sessionKey =>
      obtain ⟨session, hsession, ho, ha⟩ :=
        react_rendered { x with sessionKey := sessionKey } (r := Client.renderPaired
          { Client.finalizePaired role socket with swapTimers := x.client.swapTimers })
          rfl rfl (show _ = some socket from rfl)
      exact .rendered rfl session hsession ho ha
  | reconnected socket hp =>
      obtain ⟨session, hsession, ho, ha⟩ :=
        react_rendered x (r := x.client.onAttemptMessage socket (.notice .reconnected))
          rfl hp (show _ = some socket from rfl)
      exact .rendered rfl session hsession ho ha
  | heard socket m hsocket hp =>
      cases onPairedMessage_reacts x.client x.isActive m hp with
      | rendered hr hp' hs =>
          obtain ⟨session, hsession, ho, ha⟩ := react_rendered x hr hp' (hs.trans hsocket)
          exact .rendered hr session hsession ho ha
      | stayed hr hp' hc _ =>
          rw [react_stayed x hr hp']
          exact .still hc rfl rfl
      | left hr =>
          rw [hr]
          obtain ⟨hleft, ho, ha, hs⟩ := react_left x
          exact .left (by rw [leavesScreen, hr]; rfl) hleft ho ha hs
  | closed socket =>
      exact .still (onPairedClose_sameRoles x.client socket).1
        (map_outline_dispatch w codec socket (by simp) x.renders) rfl
  | left =>
      obtain ⟨hleft, ho, ha, hs⟩ := react_left x
      exact .left rfl hleft ho ha hs
  | clicked => exact .still (requestRoleSwap_sameRoles x.client x.isActive) rfl rfl
  | timedOut => exact .still ⟨rfl, rfl, rfl, .inl rfl⟩ rfl rfl
  | derived i err r key hr hw hnone =>
      refine .built rfl i _ (outline_of_render hr) hw (by simp [Render.outline, hnone]) ?_ rfl
      rw [outlines_setRender]
      simp [Render.outline, build_isLive]
  | failed i err r hr hw hnone =>
      exact .failed rfl i _ (outline_of_render hr) hw (by simp [Render.outline, hnone])
        (outlines_setRender x i _) rfl
  | adopted i fileId r hr hw hsome =>
      have ho : (x.adopt i).outlines = x.outlines.modify i Outline.adopt :=
        map_outline_modify_comm fun r => rfl
      obtain ⟨hsame, hf⟩ := flushPending_same w codec (x.adopt i) i fileId
      exact .adopted hsame.client i _ (outline_of_render hr) hw (by simp [Render.outline, hsome])
        (hf.trans ho) hsame.active
  | text | binary | pickedStale | picked | continued | sent | received =>
      obtain ⟨hsame, ho⟩ := same_of_transfers rfl (step_spec h)
      exact .same hsame.client ho hsame.active

end PairedScreen

end Quicksend
