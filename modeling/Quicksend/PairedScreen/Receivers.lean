import Quicksend.PairedScreen.Files

/-!
# The receivers of the paired screen

What a step does to the receiver behind a render: nothing, or it attaches one,
detaches it, or lets it take a step of its own. And where a transfer message comes
from that a step puts on a socket.
-/

namespace Quicksend

open Pairing (Reaction Signal Down)

/-- The receiver that the handle drives; the handle of a sender drives none. -/
def Handle.receiver? : Handle → Option ReceiverTransfer.State
  | .receiver ui => some ui
  | .sender _ _ => none

/-- The receiver that this render drives, if its handle is that of a receiver. -/
def Render.receiver? (r : Render) : Option ReceiverTransfer.State := r.handle.bind Handle.receiver?

/-- The receiver takes its listener off the socket; what it has already queued it
still works off. -/
def ReceiverTransfer.State.detach (ui : ReceiverTransfer.State) : ReceiverTransfer.State :=
  { ui with rcv := { ui.rcv with attached := false } }

/-- The event of the receiver behind a receiving screen; what it awaits there may be a
sink. -/
def Receiver.Event.IsOf : Receiver.Event → ReceiverTransfer.Event → Prop
  | .message m, e => e = .message m
  | .start, e => e = .start
  | .resume _, e => (∃ err, e = .settle err) ∨ ∃ mode, e = .sinkReady mode
  | .close, e => e = .close
  | .abortCurrent, e => e = .abortCurrent
  | .detach, e => e = .detach

/-- The receiver behind a receiving screen takes a step of its own, or none, and the log
has what it called and sent. -/
structure ReceiverTransfer.Acted (a : ReceiverArgs) (s : ReceiverTransfer.State)
    (e : ReceiverTransfer.Event) (t : ReceiverTransfer.State) (out : List Receiver.Action) :
    Prop where
  log : t.log = s.log ++ out
  rcv : (∃ e', Receiver.Steps a s.rcv e' t.rcv out ∧ e'.IsOf e) ∨ t.rcv = s.rcv ∧ out = []

theorem ReceiverTransfer.acted_of_step {a : ReceiverArgs} {s t : ReceiverTransfer.State}
    {e : ReceiverTransfer.Event} {out : List Receiver.Action}
    (h : ReceiverTransfer.step a s e = some (t, out)) : ReceiverTransfer.Acted a s e t out := by
  have own {s' : ReceiverTransfer.State} {e' : Receiver.Event}
      (h : ReceiverTransfer.stepReceiver a s' e' = some (t, out)) (hlog : s'.log = s.log)
      (hrcv : s'.rcv = s.rcv) (he : e'.IsOf e) : ReceiverTransfer.Acted a s e t out := by
    obtain ⟨r, hstep, rfl⟩ := ReceiverTransfer.stepReceiver_spec h
    exact ⟨congrArg (· ++ out) hlog, .inl ⟨e', hrcv ▸ hstep, he⟩⟩
  unfold ReceiverTransfer.step at h
  split at h
  next => exact own h rfl rfl rfl
  next => exact own h rfl rfl rfl
  next err =>
    -- what settles is the operation of the running step, or the sink's
    have he : (∃ err', ReceiverTransfer.Event.settle err = .settle err') ∨
        ∃ mode, ReceiverTransfer.Event.settle err = .sinkReady mode := .inl ⟨err, rfl⟩
    split at h
    next => cases h
    next => cases h
    next =>
      unfold ReceiverTransfer.stepWrite at h
      split at h
      next =>
        split at h
        next => exact own h rfl rfl he
        next => cases h
      next =>
        split at h
        next => cases h
        next => exact own h rfl rfl he
        next =>
          split at h
          next => exact own h rfl rfl he
          next => cases h
    next => exact own h rfl rfl he
  next mode =>
    split at h
    next => exact own h rfl rfl (.inr ⟨mode, rfl⟩)
    next => cases h
  next =>
    split at h
    next =>
      split at h
      next =>
        obtain ⟨rfl, rfl⟩ := Prod.mk.inj (Option.some.inj h)
        exact ⟨(List.append_nil _).symm, .inr ⟨rfl, rfl⟩⟩
      next => cases h
    next =>
      split at h
      next =>
        obtain ⟨rfl, rfl⟩ := Prod.mk.inj (Option.some.inj h)
        exact ⟨(List.append_nil _).symm, .inr ⟨rfl, rfl⟩⟩
      next => cases h
    next => cases h
  next => exact own h rfl rfl rfl
  next => exact own h rfl rfl rfl
  next => exact own h rfl rfl rfl

/-- The listeners of a receiver send nothing. -/
theorem ReceiverTransfer.Acted.no_send {a : ReceiverArgs} {s t : ReceiverTransfer.State}
    {e : ReceiverTransfer.Event} {out : List Receiver.Action}
    (h : ReceiverTransfer.Acted a s e t out) (he : (∃ m, e = .message m) ∨ e = .close)
    (m : Message) : .send m ∉ out := by
  intro hm
  rcases h.rcv with ⟨e', hstep, hof⟩ | ⟨-, rfl⟩
  · generalize t.rcv = r at hstep
    cases hstep with
    | queued | ignored | closedIdle => cases hm
    | closed => simp at hm
    | metaBegun | chunkBegun | peerAborted | dropped | refused | aborted | abortedIdle | detached =>
        rcases he with ⟨m', rfl⟩ | rfl <;> cases hof
    | failed | metaKeyed | metaOpened | metaDone | chunkOpened | chunkOrphaned | chunkLast
      | chunkMore =>
        rcases he with ⟨m', rfl⟩ | rfl <;> rcases hof with ⟨err, h⟩ | ⟨mode, h⟩ <;> cases h
  · cases hm

namespace PairedScreen

variable {w : WebCrypto} {codec : MetaCodec} {x y : PairedScreen} {e : Event} {out : List Output}

/-- The receiver that render `i` drives, if there is such a render and it is one. -/
def receiver? (x : PairedScreen) (i : Nat) : Option ReceiverTransfer.State :=
  x.renders[i]?.bind Render.receiver?

theorem receiver?_of_handle {i : Nat} {r : Render} {h : Option Handle}
    (hr : x.renders[i]? = some r) (hh : r.handle = h) :
    x.receiver? i = h.bind Handle.receiver? := by
  rw [receiver?, hr, Option.bind_some, Render.receiver?, hh]

/-- What a step does to the receiver behind render `i`. -/
inductive ReceiverMove (x y : PairedScreen) (e : Event) (out : List Output) (i : Nat) : Prop where
  | still (h : y.receiver? i = x.receiver? i)
  | detached (ui : ReceiverTransfer.State) (hx : x.receiver? i = some ui)
      (hy : y.receiver? i = some ui.detach)
  | attached (socket : ConnId) (hx : x.receiver? i = none)
      (hy : y.receiver? i = some { ReceiverTransfer.init with
        rcv := { Receiver.init with socketClosed := x.closed.contains socket } })
  | ran (a : ReceiverArgs) (ui ui' : ReceiverTransfer.State) (e' : ReceiverTransfer.Event)
      (acts : List Receiver.Action) (hx : x.receiver? i = some ui) (hy : y.receiver? i = some ui')
      (hstep : ReceiverTransfer.step a ui e' = some (ui', acts))
      (hmsg : ∀ m, e' = .message m → ∃ socket, e = .arrives socket m)
      (hclose : e' = .close → ∃ socket, e = .closes socket)
      (hput : x.shut = [] → ∀ m, .send m ∈ acts → ∃ o ∈ out, o.payload = .message m)

theorem ReceiverMove.congr {x' y' : PairedScreen} {i : Nat} (h : ReceiverMove x y e out i)
    (hx : x'.receiver? i = x.receiver? i) (hs : x'.shut = x.shut) (hc : x'.closed = x.closed)
    (hy : y'.receiver? i = y.receiver? i) : ReceiverMove x' y' e out i := by
  cases h with
  | still h => exact .still (hy.trans (h.trans hx.symm))
  | detached ui hu hu' => exact .detached ui (hx.trans hu) (hy.trans hu')
  | attached socket hu hu' =>
      refine .attached socket (hx.trans hu) ?_
      rw [hc]
      exact hy.trans hu'
  | ran a ui ui' e' acts hu hu' hstep hmsg hclose hput =>
      exact .ran a ui ui' e' acts (hx.trans hu) (hy.trans hu') hstep hmsg hclose fun h =>
        hput (hs.symm.trans h)

/-- A change of one render behind which the receiver stays the same. -/
theorem receiver?_modify {renders : List Render} {i : Nat} {f : Render → Render}
    (h : ∀ r, (f r).receiver? = r.receiver?) (j : Nat) :
    (renders.modify i f)[j]?.bind Render.receiver? = renders[j]?.bind Render.receiver? := by
  rw [List.getElem?_modify]
  cases renders[j]? with
  | none => rfl
  | some r =>
      by_cases hij : i = j
      · simp [hij, h]
      · simp [hij]

theorem receiver?_setHandle {i : Nat} {h : Handle} (hi : i < x.renders.length) (j : Nat) :
    (x.setHandle i h).receiver? j = if j = i then h.receiver? else x.receiver? j := by
  rw [receiver?, receiver?, setHandle, List.getElem?_modify]
  by_cases hij : i = j
  · subst hij
    simp [Render.receiver?, List.getElem?_eq_getElem hi]
  · simp [hij, Ne.symm hij]

/-- One sender takes the place of another. -/
theorem receiver?_sender {i : Nat} {r : Render} {d d' : Bool} {b b' : Option Batch}
    (hr : x.renders[i]? = some r) (hh : r.handle = some (.sender d b)) (j : Nat) :
    (x.setHandle i (.sender d' b')).receiver? j = x.receiver? j := by
  rw [receiver?_setHandle (List.getElem?_eq_some_iff.mp hr).1]
  split
  next hj =>
    rw [hj, receiver?_of_handle hr hh]
    rfl
  next => rfl

/-! ## What the functions of the page leave alone -/

theorem move_of_detachActiveTransfer (x : PairedScreen) (e : Event) (out : List Output) (i : Nat) :
    ReceiverMove x x.detachActiveTransfer e out i := by
  rw [detachActiveTransfer]
  split
  next j _ =>
    by_cases hij : j = i
    · subst hij
      cases hr : x.renders[j]? with
      | none => exact .still (by simp [receiver?, hr])
      | some r =>
          cases hh : r.handle with
          | none => exact .still (by simp [receiver?, Render.receiver?, hr, hh])
          | some h =>
              cases h with
              | sender d b =>
                  exact .still (by simp [receiver?, Render.receiver?, hr, hh, Handle.detach,
                    Handle.receiver?])
              | receiver ui =>
                  exact .detached ui (by simp [receiver?, Render.receiver?, hr, hh, Handle.receiver?])
                    (by simp [receiver?, Render.receiver?, hr, hh, Handle.detach, Handle.receiver?,
                      ReceiverTransfer.State.detach])
    · exact .still (by simp [receiver?, hij])
  next => exact .still rfl

theorem move_of_renderPaired (x : PairedScreen) (e : Event) (out : List Output) (i : Nat) :
    ReceiverMove x x.renderPaired e out i := by
  have hd := x.move_of_detachActiveTransfer e out i
  rw [renderPaired]
  split
  next session _ =>
    have hsame : ({ x.detachActiveTransfer with
        renders := x.detachActiveTransfer.renders ++ [Render.start session] } :
        PairedScreen).receiver? i = x.detachActiveTransfer.receiver? i := by
      rw [receiver?, receiver?, List.getElem?_append]
      split
      next => rfl
      next hlt =>
        rw [List.getElem?_eq_none (not_lt.mp hlt), List.getElem?_singleton]
        split <;> rfl
    exact hd.congr rfl rfl rfl hsame
  next => exact hd

/-- A listener or a button at most detaches the active receiver. -/
theorem move_of_react (x : PairedScreen) (r : Reaction) (e : Event) (out : List Output) (i : Nat) :
    ReceiverMove x (x.react r) e out i := by
  let x' : PairedScreen := { x with client := r.client }
  rw [react]
  split
  next => exact (x'.move_of_renderPaired e out i).congr rfl rfl rfl rfl
  next =>
    split
    next => exact .still rfl
    next => exact (x'.move_of_detachActiveTransfer e out i).congr rfl rfl rfl rfl

theorem receiver?_sendFiles (w : WebCrypto) (codec : MetaCodec) (x : PairedScreen) (j : Nat)
    (files : List File) (fileId : FileId) (i : Nat) :
    (x.sendFiles w codec j files fileId).receiver? i = x.receiver? i := by
  unfold sendFiles
  split
  next r file files hr =>
    split
    next hh => exact receiver?_sender hr hh i
    next => rfl
  next => rfl

theorem receiver?_onStaleFiles (w : WebCrypto) (codec : MetaCodec) (x : PairedScreen)
    (files : List File) (fileId : FileId) (i : Nat) :
    (x.onStaleFiles w codec files fileId).receiver? i = x.receiver? i := by
  rw [onStaleFiles_eq]
  split
  next j _ => exact receiver?_sendFiles w codec x j files fileId i
  next => rfl

theorem receiver?_flushPending (w : WebCrypto) (codec : MetaCodec) (x : PairedScreen) (j : Nat)
    (fileId : FileId) (i : Nat) : (x.flushPending w codec j fileId).receiver? i = x.receiver? i := by
  unfold flushPending
  split
  next files _ =>
    split
    next => exact receiver?_sendFiles w codec { x with pendingSendFiles := none } j files fileId i
    next => rfl
  next => rfl

theorem receiver?_continueBatch {j : Nat} {r : Render} {detached : Bool} {b : Option Batch}
    (hr : x.renders[j]? = some r) (hh : r.handle = some (.sender detached b)) (files : List File)
    (fileId : FileId) (i : Nat) :
    (x.continueBatch w codec j r detached files fileId).receiver? i = x.receiver? i := by
  unfold continueBatch
  split
  next =>
    split
    next => exact receiver?_sender hr hh i
    next => exact receiver?_sender hr hh i
  next => exact receiver?_sender hr hh i

/-- An event is dispatched to the receivers on a socket. -/
theorem move_of_dispatch {socket : ConnId} {e' : ReceiverTransfer.Event}
    (hy : y.renders = x.renders.map (Render.dispatch w codec socket e'))
    (hevent : (∃ m, e' = .message m ∧ e = .arrives socket m) ∨ e' = .close ∧ e = .closes socket)
    (i : Nat) : ReceiverMove x y e out i := by
  have hget : y.receiver? i =
      (x.renders[i]?.map (Render.dispatch w codec socket e')).bind Render.receiver? := by
    rw [receiver?, hy, List.getElem?_map]
  cases hr : x.renders[i]? with
  | none => exact .still (by rw [hget, receiver?, hr]; rfl)
  | some r =>
      rw [hr, Option.map_some, Option.bind_some] at hget
      have hx : x.receiver? i = r.receiver? := by rw [receiver?, hr, Option.bind_some]
      unfold Render.dispatch at hget
      split at hget
      next ui hh =>
        split at hget
        next =>
          split at hget
          next ui' acts hstep =>
            have hlisten : (∃ m, e' = .message m) ∨ e' = .close :=
              hevent.imp (fun ⟨m, he', _⟩ => ⟨m, he'⟩) And.left
            refine .ran _ ui ui' e' acts ?_ hget hstep (fun m hm => ?_) (fun hc => ?_)
              fun _ m hm => absurd hm ((ReceiverTransfer.acted_of_step hstep).no_send hlisten m)
            · rw [hx, Render.receiver?, hh]
              rfl
            · rcases hevent with ⟨m', he', he⟩ | ⟨he', he⟩
              · obtain rfl := ReceiverTransfer.Event.message.inj (hm.symm.trans he')
                exact ⟨socket, he⟩
              · cases hm.symm.trans he'
            · rcases hevent with ⟨m', he', he⟩ | ⟨he', he⟩
              · cases hc.symm.trans he'
              · exact ⟨socket, he⟩
          next => exact .still (hget.trans hx.symm)
        next => exact .still (hget.trans hx.symm)
      next => exact .still (hget.trans hx.symm)
      next => exact .still (hget.trans hx.symm)

theorem receiver?_setRender {j : Nat} {r : Render} (hr : x.renders[j]? = some r) (r' : Render)
    (i : Nat) : (x.setRender j r').receiver? i = if j = i then r'.receiver? else x.receiver? i := by
  rw [receiver?, receiver?, setRender, List.getElem?_set]
  split
  next => rw [if_pos (List.getElem?_eq_some_iff.mp hr).1, Option.bind_some]
  next => rfl

/-- A handle is built: that of a sender has no receiver behind it. -/
theorem receiverMove_of_build {e : Event} {j : Nat} {r : Render} {key : Bytes}
    (hr : x.renders[j]? = some r) (hnone : r.handle = none) (i : Nat) :
    ReceiverMove x (x.setRender j { r with epochKey := key, handle := some (x.build r) }) e out i := by
  have hx : x.receiver? j = none := receiver?_of_handle hr hnone
  have hy := receiver?_setRender hr { r with epochKey := key, handle := some (x.build r) } i
  by_cases hij : j = i
  · subst hij
    rw [if_pos rfl, Render.receiver?, Option.bind_some] at hy
    cases ht : r.session.transferRole with
    | sender =>
        have hb : x.build r = .sender false none := by rw [build, ht]
        rw [hb] at hy
        refine .still (Eq.trans ?_ hx.symm)
        rw [hb]
        exact hy
    | receiver =>
        refine .attached r.session.socket hx (hy.trans ?_)
        rw [build, ht]
        rfl
  · exact .still (hy.trans (if_neg hij))

/-- **The step inversion**, as far as the receivers go. -/
theorem receiverMove_of_step (h : step w codec x e = some (y, out)) (i : Nat) :
    ReceiverMove x y e out i := by
  cases step_spec h with
  | paired role socket sessionKey =>
      have hmove := move_of_react { x with sessionKey := sessionKey } (Pairing.Client.renderPaired
        { Pairing.Client.finalizePaired role socket with swapTimers := x.client.swapTimers })
        (.pairs role socket sessionKey) [] i
      exact hmove.congr rfl rfl rfl rfl
  | reconnected | heard | left => exact move_of_react x _ _ _ i
  | text | binary => exact move_of_dispatch rfl (.inl ⟨_, rfl, rfl⟩) i
  | closed => exact move_of_dispatch rfl (.inr ⟨rfl, rfl⟩) i
  | clicked | timedOut | sent => exact .still rfl
  | derived j err r key hr hw hnone => exact receiverMove_of_build hr hnone i
  | failed j err r hr hw hnone =>
      have hy := receiver?_setRender hr { r with awaited := false } i
      by_cases hij : j = i
      · subst hij
        refine .still ((hy.trans (if_pos rfl)).trans ?_)
        rw [receiver?_of_handle hr hnone, Render.receiver?, hnone]
      · exact .still (hy.trans (if_neg hij))
  | adopted j fileId =>
      refine .still ((receiver?_flushPending w codec (x.adopt j) j fileId i).trans ?_)
      exact receiver?_modify (f := fun r => { r with awaited := false }) (fun _ => rfl) i
  | pickedStale j files fileId => exact .still (receiver?_onStaleFiles w codec x files fileId i)
  | picked j files fileId => exact .still (receiver?_sendFiles w codec x j files fileId i)
  | continued j fileId r detached b hr hh =>
      exact .still (receiver?_continueBatch hr hh b.files fileId i)
  | received j e' r ui ui' acts hr hh hmsg hclose _ hstep =>
      have hlt : j < x.renders.length := (List.getElem?_eq_some_iff.mp hr).1
      have hy := receiver?_setHandle (h := .receiver ui') hlt i
      by_cases hij : i = j
      · subst hij
        have hx : x.receiver? i = some ui := receiver?_of_handle hr hh
        refine .ran _ ui ui' _ acts hx (hy.trans (if_pos rfl)) hstep (fun m hm => absurd hm (hmsg m))
          (fun hc => absurd hc hclose) fun hs m hm => ⟨⟨r.session.socket, none, .message m⟩, ?_, rfl⟩
        refine mem_put.mpr ⟨isOpen_iff.mpr (by rw [hs]; exact List.not_mem_nil), m, ?_, rfl⟩
        exact List.mem_filterMap.mpr ⟨_, hm, rfl⟩
      · exact .still (hy.trans (if_neg hij))

/-! ## What comes onto the sockets -/

/-- Where a step takes from what it puts on a socket. -/
inductive PutBy (x y : PairedScreen) (e : Event) (o : Output) : Prop where
  | asked (he : e = .swapClick) (hbusy : x.isActive = false)
      (hp : o.payload = .signal .roleSwapRequest)
  | answered (d : Down) (s : Signal) (he : e = .hears d)
      (hreply : (x.client.onPairedMessage x.isActive d).reply = some s) (hp : o.payload = .signal s)
  | sender (k : Nat) (call : SendCall) (e' : SendFile.Event) (t : SendFile.State)
      (ms : List Message) (m : Message) (hk : x.calls[k]? = some call) (hcall : o.call = some k)
      (hstep : SendFile.step call.args call.state e' = some (t, ms)) (hm : m ∈ ms)
      (hp : o.payload = .message m)
  | receiver (i : Nat) (a : ReceiverArgs) (ui ui' : ReceiverTransfer.State)
      (e' : ReceiverTransfer.Event) (acts : List Receiver.Action) (m : Message)
      (he : e = .receiver i e') (hx : x.receiver? i = some ui) (hy : y.receiver? i = some ui')
      (hstep : ReceiverTransfer.step a ui e' = some (ui', acts)) (hm : .send m ∈ acts)
      (hp : o.payload = .message m)

/-- What is from a call comes from a step of that call. -/
theorem CallMove.putBy (h : CallMove x y e out) {o : Output} (ho : o ∈ out) (hc : o.call ≠ none) :
    PutBy x y e o := by
  cases h with
  | kept _ hout => exact absurd (hout o ho) hc
  | stopped _ _ _ _ _ hout | started _ _ _ _ _ _ _ _ _ _ _ _ hout =>
      rw [hout] at ho
      cases ho
  | ran _ hcalls hout _ =>
      obtain ⟨k, hok, hlt⟩ := hout o ho
      have hk := List.getElem?_eq_getElem hlt
      obtain ⟨call', -, hran⟩ := hcalls k _ hk
      cases hran with
      | still hno => exact absurd hok (hno o ho)
      | ran e' t ms hstep hown _ _ _ _ =>
          obtain ⟨-, m, hm, rfl⟩ := hown o ho hok
          exact .sender k _ e' t ms m hk rfl hstep hm rfl

theorem putBy_of_step (h : step w codec x e = some (y, out)) {o : Output} (ho : o ∈ out) :
    PutBy x y e o := by
  have hmove := move_of_step h
  have hsteps := step_spec h
  cases hsteps with
  | received i e' r ui ui' acts hr hh _ _ _ hstep =>
      have hlt : i < x.renders.length := (List.getElem?_eq_some_iff.mp hr).1
      have hx : x.receiver? i = some ui := receiver?_of_handle hr hh
      have hy := (receiver?_setHandle (h := .receiver ui') hlt i).trans (if_pos rfl)
      obtain ⟨-, m, hm, rfl⟩ := mem_put.mp ho
      obtain ⟨act, hact, heq⟩ := List.mem_filterMap.mp hm
      refine .receiver i _ ui ui' e' acts m rfl hx hy hstep ?_ rfl
      cases act with
      | send m' => rwa [← Option.some.inj heq]
      | _ => cases heq
  | sent k =>
      refine hmove.putBy ho fun hnone => ?_
      obtain ⟨-, m, -, rfl⟩ := mem_put.mp ho
      cases hnone
  | text | closed =>
      refine hmove.putBy ho fun hnone => ?_
      obtain ⟨k, ms, -, ho⟩ := mem_putAll.mp ho
      obtain ⟨-, m, -, rfl⟩ := mem_put.mp ho
      cases hnone
  | heard socket d =>
      obtain ⟨s, hs, rfl⟩ := List.mem_map.mp ho
      exact .answered d s rfl (Option.mem_toList.mp hs) rfl
  | clicked =>
      obtain ⟨r, hr, rfl⟩ := List.mem_map.mp ho
      have hreq := Option.mem_toList.mp (List.mem_filter.mp hr).1
      rw [Pairing.Client.requestRoleSwap] at hreq
      split at hreq
      next => cases hreq
      next hfree =>
        have hfree : x.isActive = false ∧ x.client.swapAwaitingResponse = false := by
          simpa using hfree
        split at hreq
        next => cases hreq
        next =>
          obtain rfl := Option.some.inj hreq
          exact .asked rfl hfree.1 rfl
  | _ => cases ho

end PairedScreen

end Quicksend
