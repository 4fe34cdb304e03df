import Quicksend.PairedScreen

/-!
# The steps of the paired screen

Each way that a step can go, with what it found. The lemmas about steps go through
these cases and do not unfold `step`.
-/

namespace Quicksend.PairedScreen

open Pairing (Client Down)

variable {w : WebCrypto} {codec : MetaCodec} {x y : PairedScreen} {e : Event} {out : List Output}

/-- All that a step of the screen can do, one constructor for each kind of event
with its guards, so that no proof has to unfold `step`. -/
inductive Steps (w : WebCrypto) (codec : MetaCodec) (x : PairedScreen) :
    Event → PairedScreen → List Output → Prop where
  | paired (role : Role) (socket : ConnId) (sessionKey : Bytes) :
      Steps w codec x (.pairs role socket sessionKey)
        ({ x with sessionKey := sessionKey }.react (Client.renderPaired
          { Client.finalizePaired role socket with swapTimers := x.client.swapTimers })) []
  | reconnected (socket : ConnId) (hp : x.client.paired = true) :
      Steps w codec x (.reconnected socket)
        (x.react (x.client.onAttemptMessage socket (.notice .reconnected))) []
  | heard (socket : ConnId) (m : Down) (hs : x.client.activeSocket = some socket)
      (hp : x.client.paired = true) :
      Steps w codec x (.hears m) (x.react (x.client.onPairedMessage x.isActive m))
        ((x.client.onPairedMessage x.isActive m).reply.toList.map fun s => ⟨socket, none, .signal s⟩)
  | text (socket : ConnId) (env : Envelope) :
      Steps w codec x (.arrives socket (.text env)) (x.onMessage w codec socket (.text env)).1
        (x.onMessage w codec socket (.text env)).2
  | binary (socket : ConnId) (data : Bytes) :
      Steps w codec x (.arrives socket (.binary data))
        { x with
          renders := x.renders.map (Render.dispatch w codec socket (.message (.binary data))) } []
  | closed (socket : ConnId) :
      Steps w codec x (.closes socket) (x.onClose w codec socket).1 (x.onClose w codec socket).2
  | left : Steps w codec x .leaves (x.react x.client.setState) []
  | clicked :
      Steps w codec x .swapClick { x with client := (x.client.requestRoleSwap x.isActive).1 }
        (((x.client.requestRoleSwap x.isActive).2.toList.filter fun r => x.isOpen r.1).map
          fun r => ⟨r.1, none, .signal r.2⟩)
  | timedOut : Steps w codec x .swapTimer { x with client := x.client.swapTimeout } []
  | derived (i : Nat) (err : Option String) (r : Render) (key : Bytes)
      (hr : x.renders[i]? = some r) (hw : r.awaited = true) (hnone : r.handle = none) :
      Steps w codec x (.derived i err)
        (x.setRender i { r with epochKey := key, handle := some (x.build r) }) []
  | failed (i : Nat) (err : Option String) (r : Render) (hr : x.renders[i]? = some r)
      (hw : r.awaited = true) (hnone : r.handle = none) :
      Steps w codec x (.derived i err) (x.setRender i { r with awaited := false }) []
  | adopted (i : Nat) (fileId : FileId) (r : Render) (hr : x.renders[i]? = some r)
      (hw : r.awaited = true) (hsome : r.handle.isSome = true) :
      Steps w codec x (.adopts i fileId) ((x.adopt i).flushPending w codec i fileId) []
  | pickedStale (i : Nat) (files : List File) (fileId : FileId) (r : Render) (detached : Bool)
      (b : Option Batch) (hr : x.renders[i]? = some r) (hh : r.handle = some (.sender detached b))
      (hgone : (detached || !x.isOpen r.session.socket) = true) :
      Steps w codec x (.picks i files fileId) (x.onStaleFiles w codec files fileId) []
  | picked (i : Nat) (files : List File) (fileId : FileId) (r : Render) (detached : Bool)
      (b : Option Batch) (hr : x.renders[i]? = some r) (hh : r.handle = some (.sender detached b))
      (hopen : (detached || !x.isOpen r.session.socket) = false) :
      Steps w codec x (.picks i files fileId) (x.sendFiles w codec i files fileId) []
  | continued (i : Nat) (fileId : FileId) (r : Render) (detached : Bool) (b : Batch)
      (hr : x.renders[i]? = some r) (hh : r.handle = some (.sender detached (some b)))
      (hdone : (x.calls[b.call]?).any SendCall.pending = false) :
      Steps w codec x (.continues i fileId) (x.continueBatch w codec i r detached b.files fileId) []
  | sent (k : Nat) (e : SendFile.Event) (call : SendCall) (s : SendFile.State) (ms : List Message)
      (hk : x.calls[k]? = some call) (hmsg : ∀ env, e ≠ .message env) (hclose : e ≠ .close)
      (hstep : SendFile.step call.args call.state e = some (s, ms)) :
      Steps w codec x (.sendFile k e) { x with calls := x.calls.set k { call with state := s } }
        (x.put call.socket (some k) ms)
  | received (i : Nat) (e : ReceiverTransfer.Event) (r : Render) (ui t : ReceiverTransfer.State)
      (acts : List Receiver.Action) (hr : x.renders[i]? = some r)
      (hh : r.handle = some (.receiver ui)) (hmsg : ∀ m, e ≠ .message m) (hclose : e ≠ .close)
      (hdetach : e ≠ .detach)
      (hstep : ReceiverTransfer.step { w := w, codec := codec, epochKey := r.epochKey } ui e
        = some (t, acts)) :
      Steps w codec x (.receiver i e) (x.setHandle i (.receiver t))
        (x.receiverOutput r.session.socket acts)

/-- **The step inversion.** -/
theorem step_spec (h : step w codec x e = some (y, out)) : Steps w codec x e y out := by
  cases e with
  | pairs role socket sessionKey =>
      simp only [step] at h
      split at h
      next => cases h
      next =>
        obtain ⟨rfl, rfl⟩ := Prod.mk.inj (Option.some.inj h)
        exact .paired role socket sessionKey
  | reconnected socket =>
      simp only [step] at h
      split at h
      next => cases h
      next hopen =>
        obtain ⟨rfl, rfl⟩ := Prod.mk.inj (Option.some.inj h)
        simp only [Bool.or_eq_true, Bool.not_eq_true', not_or, Bool.not_eq_false] at hopen
        exact .reconnected socket hopen.1
  | hears m =>
      simp only [step] at h
      split at h
      next socket hs =>
        split at h
        next => cases h
        next hopen =>
          obtain ⟨rfl, rfl⟩ := Prod.mk.inj (Option.some.inj h)
          simp only [Bool.or_eq_true, Bool.not_eq_true', not_or, Bool.not_eq_false] at hopen
          exact .heard socket m hs hopen.1
      next => cases h
  | arrives socket m =>
      simp only [step] at h
      split at h
      next =>
        cases m with
        | text env =>
            obtain ⟨rfl, rfl⟩ := Prod.mk.inj (Option.some.inj h)
            exact .text socket env
        | binary data =>
            obtain ⟨rfl, rfl⟩ := Prod.mk.inj (Option.some.inj h)
            exact .binary socket data
      next => cases h
  | closes socket =>
      simp only [step] at h
      split at h
      next => cases h
      next =>
        obtain ⟨rfl, rfl⟩ := Prod.mk.inj (Option.some.inj h)
        exact .closed socket
  | leaves =>
      simp only [step] at h
      split at h
      next =>
        obtain ⟨rfl, rfl⟩ := Prod.mk.inj (Option.some.inj h)
        exact .left
      next => cases h
  | swapClick =>
      simp only [step] at h
      split at h
      next =>
        obtain ⟨rfl, rfl⟩ := Prod.mk.inj (Option.some.inj h)
        exact .clicked
      next => cases h
  | swapTimer =>
      simp only [step] at h
      split at h
      next =>
        obtain ⟨rfl, rfl⟩ := Prod.mk.inj (Option.some.inj h)
        exact .timedOut
      next => cases h
  | derived i err =>
      simp only [step] at h
      split at h
      next r hr =>
        split at h
        next hw =>
          simp only [Bool.and_eq_true, Option.isNone_iff_eq_none] at hw
          split at h
          next key _ =>
            obtain ⟨rfl, rfl⟩ := Prod.mk.inj (Option.some.inj h)
            exact .derived i err r key hr hw.1 hw.2
          next =>
            obtain ⟨rfl, rfl⟩ := Prod.mk.inj (Option.some.inj h)
            exact .failed i err r hr hw.1 hw.2
        next => cases h
      next => cases h
  | adopts i fileId =>
      simp only [step] at h
      split at h
      next r hr =>
        split at h
        next hw =>
          simp only [Bool.and_eq_true] at hw
          obtain ⟨rfl, rfl⟩ := Prod.mk.inj (Option.some.inj h)
          exact .adopted i fileId r hr hw.1 hw.2
        next => cases h
      next => cases h
  | picks i files fileId =>
      simp only [step] at h
      split at h
      next r hr =>
        split at h
        next detached b hh =>
          split at h
          next hgone =>
            obtain ⟨rfl, rfl⟩ := Prod.mk.inj (Option.some.inj h)
            -- a handle that was replaced still has its drop zone
            exact .pickedStale i files fileId r detached b hr hh hgone
          next hopen =>
            obtain ⟨rfl, rfl⟩ := Prod.mk.inj (Option.some.inj h)
            exact .picked i files fileId r detached b hr hh (Bool.eq_false_iff.mpr hopen)
        next => cases h
        next => cases h
      next => cases h
  | continues i fileId =>
      simp only [step] at h
      split at h
      next r hr =>
        split at h
        next detached b hh =>
          split at h
          next => cases h
          next hdone =>
            obtain ⟨rfl, rfl⟩ := Prod.mk.inj (Option.some.inj h)
            exact .continued i fileId r detached b hr hh (Bool.eq_false_iff.mpr hdone)
        next => cases h
        next => cases h
        next => cases h
      next => cases h
  | sendFile k e =>
      simp only [step] at h
      split at h
      next => cases h
      next => cases h
      next => cases h
      next call hk hmsg hclose =>
        obtain ⟨⟨s, ms⟩, hstep, heq⟩ := Option.map_eq_some_iff.mp h
        obtain ⟨rfl, rfl⟩ := Prod.mk.inj heq
        exact .sent k _ call s ms hk hmsg hclose hstep
  | receiver i e =>
      simp only [step] at h
      split at h
      next => cases h
      next => cases h
      next => cases h
      next => cases h
      next r hr hmsg hclose hdetach =>
        split at h
        next ui hh =>
          obtain ⟨⟨t, acts⟩, hstep, heq⟩ := Option.map_eq_some_iff.mp h
          obtain ⟨rfl, rfl⟩ := Prod.mk.inj heq
          exact .received i _ r ui t acts hr hh hmsg hclose hdetach hstep
        next => cases h
        next => cases h

end Quicksend.PairedScreen
