import Quicksend.PairedScreen.OneLive
import Quicksend.SendFile.Stages

/-!
# The `sendFile` calls of the paired screen

What a step does to the calls and to the loops that await them: nothing, or it
starts a call at a live handle, ends a loop, or lets calls take steps of their
own. And what it does to the sockets.
-/

namespace Quicksend

open Pairing (Client Reaction Signal Down)

/-- The batch that this handle is sending; a receiver, or a sender at rest, has
none. -/
def Handle.batch : Handle → Option Batch
  | .sender _ batch => batch
  | .receiver _ => none

/-- The batch that this render is sending, once it has a handle. -/
def Render.batch (r : Render) : Option Batch := r.handle.bind Handle.batch

namespace PairedScreen

variable {w : WebCrypto} {codec : MetaCodec} {x y : PairedScreen} {out : List Output}

/-- The loop of `sendFiles` that is under way behind a render, if there is one. -/
def batch (x : PairedScreen) (i : Nat) : Option Batch := x.renders[i]?.bind Render.batch

theorem batch_of_handle {i : Nat} {r : Render} {h : Option Handle} (hr : x.renders[i]? = some r)
    (hh : r.handle = h) : x.batch i = h.bind Handle.batch := by
  rw [batch, hr, Option.bind_some, Render.batch, hh]

/-- The call that such a loop awaits is pending, so that the loop cannot go on. -/
def busyAt (x : PairedScreen) (k : Nat) : Bool := x.calls[k]?.any SendCall.pending

/-- What a step does to one call: nothing, or one step of `sendFile` whose
messages go out on an open socket. -/
inductive CallRan (y : PairedScreen) (e : Event) (out : List Output) (k : Nat) (call : SendCall) :
    SendCall → Prop where
  | still (hout : ∀ o ∈ out, o.call ≠ some k) : CallRan y e out k call call
  | ran (e' : SendFile.Event) (s : SendFile.State) (ms : List Message)
      (hstep : SendFile.step call.args call.state e' = some (s, ms))
      (hout : ∀ o ∈ out, o.call = some k →
        call.socket ∉ y.shut ∧ ∃ m ∈ ms, o = ⟨call.socket, some k, .message m⟩)
      (hput : call.socket ∉ y.shut → ∀ m ∈ ms, ⟨call.socket, some k, .message m⟩ ∈ out)
      (hmsg : ∀ env, e' = .message env → e = .arrives call.socket (.text env))
      (hclose : e' = .close → call.socket ∈ y.shut)
      (hevent : (∃ env, e' = .message env) ∨ e' = .close ∧ e = .closes call.socket ∨
        e = .sendFile k e') :
      CallRan y e out k call { call with state := s }

/-- The event may begin a loop, or resume one. -/
def Event.turnsLoop : Event → Bool
  | .adopts _ _ | .picks _ _ _ | .continues _ _ => true
  | _ => false

/-- What a step does to the calls and the loops. -/
inductive CallMove (x y : PairedScreen) (e : Event) (out : List Output) : Prop where
  | kept (hc : y.calls = x.calls) (hout : ∀ o ∈ out, o.call = none)
      (hb : ∀ j, y.batch j = x.batch j)
  | stopped (i : Nat) (b : Batch) (hi : x.batch i = some b) (hfree : x.busyAt b.call = false)
      (hc : y.calls = x.calls) (hout : out = [])
      (hb : ∀ j, y.batch j = if j = i then none else x.batch j) (he : e.turnsLoop = true)
  | started (i : Nat) (o : Outline) (call : SendCall) (files : List File)
      (hlen : y.outlines.length = x.outlines.length)
      (hi : x.outlines[i]? = some o) (hlive : o.live = some true)
      (hfree : ∀ b, x.batch i = some b → x.busyAt b.call = false)
      (hrender : call.render = i) (hsocket : call.socket = o.session.socket)
      (hstate : call.state
        = { SendFile.init with socketClosed := x.closed.contains o.session.socket })
      (hc : y.calls = x.calls ++ [call]) (hout : out = [])
      (hb : ∀ j, y.batch j = if j = i then some ⟨x.calls.length, files⟩ else x.batch j)
      (he : e.turnsLoop = true)
  | ran (hlen : y.calls.length = x.calls.length)
      (hc : ∀ k call, x.calls[k]? = some call →
        ∃ call', y.calls[k]? = some call' ∧ CallRan y e out k call call')
      (hout : ∀ o ∈ out, ∃ k, o.call = some k ∧ k < x.calls.length)
      (hb : ∀ j, y.batch j = x.batch j)

/-! ## The loops -/

theorem batch_eq (x : PairedScreen) (i : Nat) : x.batch i = (x.handle i).bind Handle.batch := by
  rw [batch, handle]
  cases x.renders[i]? with
  | none => rfl
  | some r => rfl

/-- A change of one render behind which the loop stays the same. -/
theorem batch_modify {renders : List Render} {i : Nat} {f : Render → Render}
    (h : ∀ r, (f r).batch = r.batch) (j : Nat) :
    (renders.modify i f)[j]?.bind Render.batch = renders[j]?.bind Render.batch := by
  rw [List.getElem?_modify]
  cases renders[j]? with
  | none => rfl
  | some r =>
      by_cases hij : i = j
      · simp [hij, h]
      · simp [hij]

theorem Handle.batch_detach (h : Handle) : h.detach.batch = h.batch := by cases h <;> rfl

theorem batch_detachActiveTransfer (x : PairedScreen) (j : Nat) :
    x.detachActiveTransfer.batch j = x.batch j := by
  rw [detachActiveTransfer]
  split
  next =>
    refine batch_modify (fun r => ?_) j
    cases hr : r.handle with
    | none => simp [Render.batch, hr]
    | some h => simp [Render.batch, hr, Handle.batch_detach]
  next => rfl

theorem batch_renderPaired (x : PairedScreen) (j : Nat) : x.renderPaired.batch j = x.batch j := by
  have hd := x.batch_detachActiveTransfer j
  rw [renderPaired]
  split
  next session _ =>
    rw [← hd, batch, batch, List.getElem?_append]
    split
    next => rfl
    next hlt =>
      rw [List.getElem?_eq_none (not_lt.mp hlt), List.getElem?_singleton]
      split
      next => rfl
      next => rfl
  next => exact hd

theorem calls_detachActiveTransfer (x : PairedScreen) : x.detachActiveTransfer.calls = x.calls := by
  rw [detachActiveTransfer]
  split <;> rfl

theorem calls_renderPaired (x : PairedScreen) : x.renderPaired.calls = x.calls := by
  rw [renderPaired]
  split
  next => exact calls_detachActiveTransfer x
  next => exact calls_detachActiveTransfer x

/-- A listener or a button leaves the calls and the loops alone. -/
theorem react_calls (x : PairedScreen) (r : Reaction) :
    (x.react r).calls = x.calls ∧ ∀ j, (x.react r).batch j = x.batch j := by
  let x' : PairedScreen := { x with client := r.client }
  rw [react]
  split
  next => exact ⟨calls_renderPaired x', batch_renderPaired x'⟩
  next =>
    split
    next => exact ⟨rfl, fun _ => rfl⟩
    next => exact ⟨calls_detachActiveTransfer x', batch_detachActiveTransfer x'⟩

theorem batch_setHandle {i : Nat} {h : Handle} (hi : i < x.renders.length) (j : Nat) :
    (x.setHandle i h).batch j = if j = i then h.batch else x.batch j := by
  rw [batch, batch, setHandle, List.getElem?_modify]
  by_cases hij : i = j
  · subst hij
    simp [Render.batch, List.getElem?_eq_getElem hi]
  · simp [hij, Ne.symm hij]

/-! ## A loop begins or goes on -/

theorem started_of_sendFile {i : Nat} {r : Render} {file : File} {files : List File}
    {fileId : FileId} {b : Option Batch} {e : Event} (hr : x.renders[i]? = some r)
    (hh : r.handle = some (.sender false b))
    (hfree : ∀ b', b = some b' → x.busyAt b'.call = false) (he : e.turnsLoop = true)
    (hy : y = x.sendFile w codec i r file files fileId) : CallMove x y e [] := by
  have hlt : i < x.renders.length := (List.getElem?_eq_some_iff.mp hr).1
  have ho : x.outlines[i]? = some r.outline := outline_of_render hr
  have hb : x.batch i = b := batch_of_handle hr hh
  subst hy
  refine .started i r.outline _ files ?_ ho ?_ ?_ rfl rfl rfl rfl rfl
    (fun j => batch_setHandle hlt j) he
  · simp [sendFile, setHandle, outlines]
  · rw [Render.outline, hh]
    rfl
  · intro b' hb'
    exact hfree b' (hb.symm.trans hb')

theorem kept_or_started_of_sendFiles {e : Event} (he : e.turnsLoop = true) (w : WebCrypto)
    (codec : MetaCodec) (x : PairedScreen) (i : Nat) (files : List File) (fileId : FileId) :
    CallMove x (x.sendFiles w codec i files fileId) e [] := by
  unfold sendFiles
  split
  next r file files hr =>
    split
    next hh => exact started_of_sendFile hr hh (by simp) he rfl
    next => exact .kept rfl (by simp) fun _ => rfl
  next => exact .kept rfl (by simp) fun _ => rfl

theorem kept_or_started_of_onStaleFiles {e : Event} (he : e.turnsLoop = true) (w : WebCrypto)
    (codec : MetaCodec) (x : PairedScreen) (files : List File) (fileId : FileId) :
    CallMove x (x.onStaleFiles w codec files fileId) e [] := by
  unfold onStaleFiles
  split
  next =>
    split
    next => exact kept_or_started_of_sendFiles he w codec x _ files fileId
    next => exact .kept rfl (by simp) fun _ => rfl
  next => exact .kept rfl (by simp) fun _ => rfl

/-- Two screens that differ neither in their calls and loops nor in what is live. -/
structure Similar (x' x : PairedScreen) : Prop where
  calls : x'.calls = x.calls
  closed : x'.closed = x.closed
  batch : ∀ j, x'.batch j = x.batch j
  length : x'.outlines.length = x.outlines.length
  outlines : ∀ (i : Nat) (o : Outline), x'.outlines[i]? = some o →
    ∃ o', x.outlines[i]? = some o' ∧ o.live = o'.live ∧ o.session = o'.session

theorem CallMove.of_similar {x' : PairedScreen} {e : Event} (h : CallMove x' y e out)
    (hx : Similar x' x) : CallMove x y e out := by
  have hbusy (k : Nat) : x'.busyAt k = x.busyAt k := by rw [busyAt, busyAt, hx.calls]
  cases h with
  | kept hc hout hb => exact .kept (hc.trans hx.calls) hout fun j => (hb j).trans (hx.batch j)
  | stopped j b hj hfree hc hout hb he =>
      refine .stopped j b ((hx.batch j).symm.trans hj) ((hbusy _).symm.trans hfree)
        (hc.trans hx.calls) hout (fun k => ?_) he
      rw [hb, hx.batch]
  | started j o call files hlen hj hlive hfree hrender hsocket hstate hc hout hb he =>
      obtain ⟨o', ho', hl, hs⟩ := hx.outlines j o hj
      rw [hl] at hlive
      rw [hs] at hsocket
      rw [hs, hx.closed] at hstate
      refine .started j o' call files (hlen.trans hx.length) ho' hlive (fun b hb' => ?_) hrender
        hsocket hstate (by rw [hc, hx.calls]) hout (fun k => ?_) he
      · exact (hbusy _).symm.trans (hfree b ((hx.batch j).trans hb'))
      · rw [hb, hx.batch, hx.calls]
  | ran hlen hc hout hb =>
      rw [hx.calls] at hlen hc hout
      exact .ran hlen hc hout fun j => (hb j).trans (hx.batch j)

theorem adopt_similar (x : PairedScreen) (i : Nat) (files : Option (List File)) :
    Similar { x.adopt i with pendingSendFiles := files } x where
  calls := rfl
  closed := rfl
  batch j := by
    change ((x.renders.modify i fun r => { r with awaited := false })[j]?).bind Render.batch = _
    exact batch_modify (f := fun r => { r with awaited := false }) (fun _ => rfl) j
  length := by simp [adopt, PairedScreen.outlines]
  outlines j o hj := by
    have ho : (x.adopt i).outlines = x.outlines.modify i Outline.adopt :=
      map_outline_modify_comm fun _ => rfl
    change (x.adopt i).outlines[j]? = some o at hj
    rw [ho, List.getElem?_modify] at hj
    obtain ⟨o', ho', heq⟩ := Option.map_eq_some_iff.mp hj
    refine ⟨o', ho', ?_⟩
    subst heq
    split <;> exact ⟨rfl, rfl⟩

/-- A promise is through, and the queued files go to its handle. -/
theorem kept_or_started_of_adopt {e : Event} (he : e.turnsLoop = true) (w : WebCrypto)
    (codec : MetaCodec) (x : PairedScreen) (i : Nat) (fileId : FileId) :
    CallMove x ((x.adopt i).flushPending w codec i fileId) e [] := by
  have kept : CallMove x (x.adopt i) e [] :=
    .kept rfl (by simp) (adopt_similar x i x.pendingSendFiles).batch
  unfold flushPending
  split
  next files _ =>
    split
    next =>
      exact (kept_or_started_of_sendFiles he w codec { x.adopt i with pendingSendFiles := none } i
        files fileId).of_similar (adopt_similar x i none)
    next => exact kept
  next => exact kept

theorem move_of_continueBatch {i : Nat} {r : Render} {detached : Bool} {b : Batch} {fileId : FileId}
    {e : Event} (he : e.turnsLoop = true) (hr : x.renders[i]? = some r)
    (hh : r.handle = some (.sender detached (some b))) (hfree : x.busyAt b.call = false) :
    CallMove x (x.continueBatch w codec i r detached b.files fileId) e [] := by
  have hi : x.batch i = some b := batch_of_handle hr hh
  have hlt : i < x.renders.length := (List.getElem?_eq_some_iff.mp hr).1
  have hstop : CallMove x (x.setHandle i (.sender detached none)) e [] :=
    .stopped i b hi hfree rfl rfl (fun j => batch_setHandle hlt j) he
  unfold continueBatch
  split
  next file files _ =>
    split
    next => exact hstop
    next hd =>
      have hd : detached = false := by simpa using hd
      subst hd
      refine started_of_sendFile hr hh (fun b' hb' => ?_) he rfl
      rw [← Option.some.inj hb']
      exact hfree
  next => exact hstop

/-! ## The calls themselves -/

theorem dispatch_cases (call : SendCall) (socket : ConnId) (e : SendFile.Event) :
    call.dispatch socket e = (call, []) ∨
      ∃ s ms, call.socket = socket ∧ SendFile.step call.args call.state e = some (s, ms) ∧
        call.dispatch socket e = ({ call with state := s }, ms) := by
  rw [SendCall.dispatch]
  split
  next hs =>
    split
    next s ms hstep => exact .inr ⟨s, ms, hs, hstep, rfl⟩
    next => exact .inl rfl
  next => exact .inl rfl

theorem mem_put {socket : ConnId} {call : Option Nat} {ms : List Message} {o : Output} :
    o ∈ x.put socket call ms ↔ x.isOpen socket = true ∧ ∃ m ∈ ms, o = ⟨socket, call, .message m⟩ := by
  rw [put]
  split
  next ho => simp [ho, eq_comm]
  next ho => simp [ho]

theorem isOpen_iff {socket : ConnId} : x.isOpen socket = true ↔ socket ∉ x.shut := by
  simp [isOpen]

theorem mem_putAll {socket : ConnId} {outs : List (List Message)} {o : Output} :
    o ∈ x.putAll socket outs ↔ ∃ k ms, outs[k]? = some ms ∧ o ∈ x.put socket (some k) ms := by
  rw [putAll, List.mem_flatten]
  constructor
  · rintro ⟨os, hos, ho⟩
    obtain ⟨k, hk⟩ := List.mem_iff_getElem?.mp hos
    rw [List.getElem?_mapIdx] at hk
    obtain ⟨ms, hms, rfl⟩ := Option.map_eq_some_iff.mp hk
    exact ⟨k, ms, hms, ho⟩
  · rintro ⟨k, ms, hms, ho⟩
    refine ⟨_, List.mem_of_getElem? (i := k) ?_, ho⟩
    rw [List.getElem?_mapIdx, hms]
    rfl

/-- An event is dispatched to the calls on a socket. -/
theorem ran_of_dispatch {e : Event} {e' : SendFile.Event} {socket : ConnId}
    (hc : y.calls = (x.calls.map (SendCall.dispatch socket e')).map Prod.fst)
    (hout : out = y.putAll socket ((x.calls.map (SendCall.dispatch socket e')).map Prod.snd))
    (hmsg : ∀ env, e' = .message env → e = .arrives socket (.text env))
    (hclose : e' = .close → socket ∈ y.shut)
    (hevent : (∃ env, e' = .message env) ∨ e' = .close ∧ e = .closes socket)
    (hb : ∀ j, y.batch j = x.batch j) : CallMove x y e out := by
  have hget (k : Nat) : y.calls[k]? = x.calls[k]?.map fun call => (call.dispatch socket e').1 := by
    rw [hc, List.getElem?_map, List.getElem?_map, Option.map_map]
    rfl
  have hget' (k : Nat) (ms : List Message) :
      ((x.calls.map (SendCall.dispatch socket e')).map Prod.snd)[k]? = some ms ↔
        ∃ call, x.calls[k]? = some call ∧ (call.dispatch socket e').2 = ms := by
    rw [List.getElem?_map, List.getElem?_map, Option.map_map, Option.map_eq_some_iff]
    rfl
  have hmem {k : Nat} {call : SendCall} (hk : x.calls[k]? = some call) (o : Output)
      (hok : o.call = some k) :
      o ∈ out ↔ o ∈ y.put socket (some k) (call.dispatch socket e').2 := by
    rw [hout, mem_putAll]
    constructor
    · rintro ⟨k', ms, hms, ho⟩
      obtain ⟨call', hcall', rfl⟩ := (hget' k' ms).mp hms
      obtain ⟨-, m, -, rfl⟩ := mem_put.mp ho
      obtain rfl := Option.some.inj hok
      rw [hk] at hcall'
      rwa [Option.some.inj hcall']
    · intro ho
      exact ⟨k, _, (hget' k _).mpr ⟨call, hk, rfl⟩, ho⟩
  refine .ran (by rw [hc]; simp) (fun k call hk => ?_) (fun o ho => ?_) hb
  · refine ⟨(call.dispatch socket e').1, (hget k).trans (by rw [hk]; rfl), ?_⟩
    -- a call on another socket, or one that does not listen, sends nothing
    rcases dispatch_cases call socket e' with hd | ⟨s, ms, rfl, hstep, hd⟩
    · rw [hd]
      refine .still fun o ho hok => ?_
      have ho' := (hmem hk o hok).mp ho
      rw [hd] at ho'
      obtain ⟨-, m, hm, -⟩ := mem_put.mp ho'
      cases hm
    · rw [hd]
      refine .ran e' s ms hstep (fun o ho hok => ?_) (fun hs m hm => ?_) hmsg hclose
        (hevent.imp_right .inl)
      · have ho' := (hmem hk o hok).mp ho
        rw [hd] at ho'
        obtain ⟨hopen, hm⟩ := mem_put.mp ho'
        exact ⟨isOpen_iff.mp hopen, hm⟩
      · refine (hmem hk _ rfl).mpr ?_
        rw [hd]
        exact mem_put.mpr ⟨isOpen_iff.mpr hs, m, hm, rfl⟩
  · rw [hout] at ho
    obtain ⟨k, ms, hms, ho⟩ := mem_putAll.mp ho
    obtain ⟨call, hk, -⟩ := (hget' k ms).mp hms
    obtain ⟨-, m, -, rfl⟩ := mem_put.mp ho
    exact ⟨k, rfl, (List.getElem?_eq_some_iff.mp hk).1⟩

theorem batch_dispatch (w : WebCrypto) (codec : MetaCodec) (socket : ConnId)
    (e : ReceiverTransfer.Event) (r : Render) : (r.dispatch w codec socket e).batch = r.batch := by
  unfold Render.dispatch
  split
  next ui hr =>
    split
    next =>
      split
      next => simp [Render.batch, hr, Handle.batch]
      next => rfl
    next => rfl
  next => rfl
  next => rfl

theorem batch_map_dispatch (w : WebCrypto) (codec : MetaCodec) (socket : ConnId)
    (e : ReceiverTransfer.Event) (renders : List Render) (j : Nat) :
    (renders.map (Render.dispatch w codec socket e))[j]?.bind Render.batch
      = renders[j]?.bind Render.batch := by
  rw [List.getElem?_map]
  cases renders[j]? with
  | none => rfl
  | some r => exact batch_dispatch w codec socket e r

/-- A call takes a step of its own. -/
theorem move_of_sendFile {k : Nat} {e : SendFile.Event} {call : SendCall} {s : SendFile.State}
    {ms : List Message} (hk : x.calls[k]? = some call) (hmsg : ∀ env, e ≠ .message env)
    (hclose : e ≠ .close) (hstep : SendFile.step call.args call.state e = some (s, ms)) :
    CallMove x { x with calls := x.calls.set k { call with state := s } } (.sendFile k e)
      (x.put call.socket (some k) ms) := by
  have hlt : k < x.calls.length := (List.getElem?_eq_some_iff.mp hk).1
  refine .ran (by simp) (fun k' call' hk' => ?_) (fun o ho => ?_) fun _ => rfl
  · by_cases hkk : k = k'
    · subst hkk
      rw [hk] at hk'
      obtain rfl := Option.some.inj hk'
      refine ⟨_, by simp [hlt], .ran _ s ms hstep
        (fun o ho _ => ⟨isOpen_iff.mp (mem_put.mp ho).1, (mem_put.mp ho).2⟩)
        (fun hs m hm => mem_put.mpr ⟨isOpen_iff.mpr hs, m, hm, rfl⟩) ?_ ?_ (.inr (.inr rfl))⟩
      · intro env he
        exact absurd he (hmsg env)
      · intro he
        exact absurd he hclose
    · refine ⟨call', by simp [hkk, hk'], .still fun o ho hok => ?_⟩
      obtain ⟨-, m, -, rfl⟩ := mem_put.mp ho
      exact hkk (Option.some.inj hok)
  · obtain ⟨-, m, -, rfl⟩ := mem_put.mp ho
    exact ⟨k, rfl, hlt⟩

theorem batch_setRender {i : Nat} {r r' : Render} (hr : x.renders[i]? = some r)
    (hb : r'.batch = r.batch) (j : Nat) : (x.setRender i r').batch j = x.batch j := by
  rw [batch, batch, setRender, List.getElem?_set]
  split
  next hij =>
    subst hij
    rw [if_pos (List.getElem?_eq_some_iff.mp hr).1, hr]
    exact hb
  next => rfl

/-- **The step inversion**, as far as the calls go. -/
theorem move_of_step {e : Event} (h : step w codec x e = some (y, out)) : CallMove x y e out := by
  cases step_spec h with
  | paired role socket sessionKey =>
      have hr := react_calls { x with sessionKey := sessionKey } (Client.renderPaired
        { Client.finalizePaired role socket with swapTimers := x.client.swapTimers })
      exact .kept hr.1 (by simp) hr.2
  | reconnected socket =>
      have hr := react_calls x (x.client.onAttemptMessage socket (.notice .reconnected))
      exact .kept hr.1 (by simp) hr.2
  | heard socket m =>
      have hr := react_calls x (x.client.onPairedMessage x.isActive m)
      exact .kept hr.1 (by simp) hr.2
  | left =>
      have hr := react_calls x x.client.setState
      exact .kept hr.1 (by simp) hr.2
  | text socket env =>
      refine ran_of_dispatch rfl rfl (fun env' he => ?_) (by simp) (.inl ⟨env, rfl⟩)
        (batch_map_dispatch w codec socket _ x.renders)
      rw [SendFile.Event.message.inj he]
  | binary socket data =>
      exact .kept rfl (by simp) (batch_map_dispatch w codec socket _ x.renders)
  | closed socket =>
      exact ran_of_dispatch rfl rfl (by simp) (by simp [onClose]) (.inr ⟨rfl, rfl⟩)
        (batch_map_dispatch w codec socket _ x.renders)
  | clicked =>
      refine .kept rfl (fun o ho => ?_) fun _ => rfl
      obtain ⟨r, -, rfl⟩ := List.mem_map.mp ho
      rfl
  | timedOut => exact .kept rfl (by simp) fun _ => rfl
  | derived i err r key hr hw hnone =>
      refine .kept rfl (by simp) (batch_setRender hr ?_)
      rw [Render.batch, Render.batch, hnone, build]
      split <;> rfl
  | failed i err r hr => exact .kept rfl (by simp) (batch_setRender hr rfl)
  | adopted i fileId => exact kept_or_started_of_adopt rfl w codec x i fileId
  | pickedStale i files fileId => exact kept_or_started_of_onStaleFiles rfl w codec x files fileId
  | picked i files fileId => exact kept_or_started_of_sendFiles rfl w codec x i files fileId
  | continued i fileId r detached b hr hh hdone => exact move_of_continueBatch rfl hr hh hdone
  | sent k e call s ms hk hmsg hclose hstep => exact move_of_sendFile hk hmsg hclose hstep
  | received i e r ui t acts hr hh =>
      have hlt : i < x.renders.length := (List.getElem?_eq_some_iff.mp hr).1
      refine .kept rfl (fun o ho => ?_) fun j => ?_
      · obtain ⟨-, m, -, rfl⟩ := mem_put.mp ho
        rfl
      · rw [batch_setHandle hlt]
        split
        next hj =>
          rw [hj, batch_of_handle hr hh]
          rfl
        next => rfl

/-! ## The ids that calls draw -/

/-- The id for the call that the event may start. -/
def Event.draws : Event → Option FileId
  | .adopts _ fileId | .picks _ _ fileId | .continues _ fileId => some fileId
  | _ => none

/-- There is no new call, or one with this id. -/
def Draws (x y : PairedScreen) (fileId : FileId) : Prop :=
  y.calls = x.calls ∨ ∃ call, y.calls = x.calls ++ [call] ∧ call.args.fileId = fileId

theorem sendFiles_draws (w : WebCrypto) (codec : MetaCodec) (x : PairedScreen) (i : Nat)
    (files : List File) (fileId : FileId) : Draws x (x.sendFiles w codec i files fileId) fileId := by
  unfold sendFiles
  split
  next =>
    split
    next => exact .inr ⟨_, rfl, rfl⟩
    next => exact .inl rfl
  next => exact .inl rfl

theorem onStaleFiles_draws (w : WebCrypto) (codec : MetaCodec) (x : PairedScreen)
    (files : List File) (fileId : FileId) : Draws x (x.onStaleFiles w codec files fileId) fileId := by
  unfold onStaleFiles
  split
  next =>
    split
    next => exact sendFiles_draws w codec x _ files fileId
    next => exact .inl rfl
  next => exact .inl rfl

theorem flushPending_draws (w : WebCrypto) (codec : MetaCodec) (x : PairedScreen) (i : Nat)
    (fileId : FileId) : Draws x (x.flushPending w codec i fileId) fileId := by
  unfold flushPending
  split
  next files _ =>
    split
    next => exact sendFiles_draws w codec { x with pendingSendFiles := none } i files fileId
    next => exact .inl rfl
  next => exact .inl rfl

theorem continueBatch_draws (w : WebCrypto) (codec : MetaCodec) (x : PairedScreen) (i : Nat)
    (r : Render) (detached : Bool) (files : List File) (fileId : FileId) :
    Draws x (x.continueBatch w codec i r detached files fileId) fileId := by
  unfold continueBatch
  split
  next =>
    split
    next => exact .inl rfl
    next => exact .inr ⟨_, rfl, rfl⟩
  next => exact .inl rfl

/-- A call that a step starts has the id that the event draws. -/
theorem drawn_of_step {e : Event} (h : step w codec x e = some (y, out)) :
    y.calls.length = x.calls.length ∨
      ∃ call, y.calls = x.calls ++ [call] ∧ e.draws = some call.args.fileId := by
  have drawn {fileId : FileId} (he : e.draws = some fileId) (hy : Draws x y fileId) :
      y.calls.length = x.calls.length ∨
        ∃ call, y.calls = x.calls ++ [call] ∧ e.draws = some call.args.fileId := by
    rcases hy with hc | ⟨call, hc, hid⟩
    · exact .inl (by rw [hc])
    · exact .inr ⟨call, hc, by rw [hid]; exact he⟩
  cases move_of_step h with
  | kept hc | stopped _ _ _ _ hc => exact .inl (by rw [hc])
  | ran hlen => exact .inl hlen
  | started _ _ _ _ _ _ _ _ _ _ _ _ _ _ he =>
      cases step_spec h with
      | adopted i fileId => exact drawn rfl (flushPending_draws w codec (x.adopt i) i fileId)
      | pickedStale i files fileId => exact drawn rfl (onStaleFiles_draws w codec x files fileId)
      | picked i files fileId => exact drawn rfl (sendFiles_draws w codec x i files fileId)
      | continued i fileId r detached b =>
          exact drawn rfl (continueBatch_draws w codec x i r detached b.files fileId)
      | _ => cases he

/-- A call keeps what it was called with. -/
theorem CallMove.args_kept {e : Event} (h : CallMove x y e out) {k : Nat} {call : SendCall}
    (hk : x.calls[k]? = some call) : ∃ call', y.calls[k]? = some call' ∧ call'.args = call.args := by
  cases h with
  | kept hc | stopped _ _ _ _ hc => exact ⟨call, by rw [hc]; exact hk, rfl⟩
  | started _ _ _ _ _ _ _ _ _ _ _ hc =>
      have hlt := (List.getElem?_eq_some_iff.mp hk).1
      exact ⟨call, by rw [hc, List.getElem?_append_left hlt]; exact hk, rfl⟩
  | ran _ hc =>
      obtain ⟨call', hk', hran⟩ := hc k call hk
      refine ⟨call', hk', ?_⟩
      cases hran with
      | still => rfl
      | ran => rfl

/-! ## The sockets -/

/-- What a step does to the sockets: one that is shut stays so, and the active
socket is given up only by a render, or with it shut. -/
structure SocketMove (x y : PairedScreen) : Prop where
  shut : ∀ c ∈ x.shut, c ∈ y.shut
  closed : ∀ c ∈ y.closed, c ∈ x.closed ∨ c ∈ y.shut
  active : (∃ session, y.outlines = x.detached ++ [Outline.start session]) ∨
    y.client.activeSocket = x.client.activeSocket ∨
    ∀ c, x.client.activeSocket = some c → c ∈ y.shut

theorem SocketMove.same (h : SamePage x y) : SocketMove x y where
  shut _ hc := h.shut ▸ hc
  closed _ hc := .inl (h.closed ▸ hc)
  active := .inr (.inl (by rw [h.client]))

theorem sockets_detachActiveTransfer (x : PairedScreen) :
    x.detachActiveTransfer.shut = x.shut ∧ x.detachActiveTransfer.closed = x.closed := by
  rw [detachActiveTransfer]
  split <;> exact ⟨rfl, rfl⟩

theorem sockets_renderPaired (x : PairedScreen) :
    x.renderPaired.shut = x.shut ∧ x.renderPaired.closed = x.closed := by
  rw [renderPaired]
  split
  next => exact sockets_detachActiveTransfer x
  next => exact sockets_detachActiveTransfer x

theorem socketMove_of_rendered {r : Reaction} {socket : ConnId} (hr : r.rendered = true)
    (hp : r.client.paired = true) (hs : r.client.activeSocket = some socket) :
    SocketMove x (x.react r) := by
  obtain ⟨session, -, ho, -⟩ := react_rendered x hr hp hs
  obtain ⟨hshut, hclosed⟩ := sockets_renderPaired { x with client := r.client }
  have hreact : x.react r = ({ x with client := r.client } : PairedScreen).renderPaired := by
    simp only [react, hr, if_true]
  refine ⟨fun c hc => ?_, fun c hc => ?_, .inl ⟨session, ho⟩⟩
  · rw [hreact, hshut]
    exact hc
  · rw [hreact, hclosed] at hc
    exact .inl hc

theorem socketMove_of_left (x : PairedScreen) : SocketMove x (x.react x.client.setState) := by
  let x' : PairedScreen := { x with client := x.client.setState.client }
  obtain ⟨-, -, -, hs⟩ := react_left x
  obtain ⟨-, hd⟩ := sockets_detachActiveTransfer x'
  have hreact : x.react x.client.setState = x'.cleanupActive x.client.activeSocket := by
    simp [react, Client.setState, x']
  refine ⟨fun c hc => ?_, fun c hc => ?_, .inr (.inr hs)⟩
  · rw [hreact]
    exact List.mem_append_left _ hc
  · rw [hreact] at hc
    exact .inl (hd ▸ hc)

theorem requestRoleSwap_activeSocket (c : Client) (busy : Bool) :
    (c.requestRoleSwap busy).1.activeSocket = c.activeSocket := by
  rw [Client.requestRoleSwap]
  split
  next => rfl
  next => split <;> rfl

/-- **The step inversion**, as far as the sockets go. -/
theorem socketMove_of_step {e : Event} (h : step w codec x e = some (y, out)) :
    SocketMove x y := by
  have hsteps := step_spec h
  cases hsteps with
  | paired role socket sessionKey =>
      obtain ⟨hshut, hclosed, hactive⟩ := socketMove_of_rendered
        (x := { x with sessionKey := sessionKey }) (r := Client.renderPaired
          { Client.finalizePaired role socket with swapTimers := x.client.swapTimers })
        rfl rfl (show _ = some socket from rfl)
      exact ⟨hshut, hclosed, hactive⟩
  | reconnected socket hp => exact socketMove_of_rendered rfl hp rfl
  | heard socket m hsocket hp =>
      cases onPairedMessage_reacts x.client x.isActive m hp with
      | rendered hr hp' hs => exact socketMove_of_rendered hr hp' (hs.trans hsocket)
      | stayed hr hp' _ hs =>
          rw [react_stayed x hr hp']
          exact ⟨fun _ hc => hc, fun _ hc => .inl hc, .inr (.inl hs)⟩
      | left hr =>
          rw [hr]
          exact socketMove_of_left x
  | left => exact socketMove_of_left x
  | closed socket =>
      refine ⟨fun c hc => List.mem_append_left _ hc, fun c hc => ?_, ?_⟩
      · rcases List.mem_append.mp hc with hc | hc
        · exact .inl hc
        · exact .inr (List.mem_append_right _ hc)
      · -- only the close of the active socket makes the client give it up
        have hcases : (x.client.onPairedClose socket).1.activeSocket = x.client.activeSocket ∨
            x.client.activeSocket = some socket := by
          rw [Client.onPairedClose]
          split
          next => exact .inl rfl
          next hne =>
            have hne : x.client.paired = true ∧ x.client.activeSocket = some socket := by
              simpa using hne
            exact .inr hne.2
        rcases hcases with hs | hs
        · exact .inr (.inl hs)
        · refine .inr (.inr fun c hc => ?_)
          rw [hs] at hc
          exact List.mem_append_right _ (by simp [Option.some.inj hc])
  | clicked =>
      exact ⟨fun _ hc => hc, fun _ hc => .inl hc,
        .inr (.inl (requestRoleSwap_activeSocket x.client x.isActive))⟩
  | timedOut => exact ⟨fun _ hc => hc, fun _ hc => .inl hc, .inr (.inl rfl)⟩
  | derived | failed => exact .same ⟨rfl, rfl, rfl, rfl⟩
  | adopted i fileId =>
      have hsame := (flushPending_same w codec (x.adopt i) i fileId).1
      exact ⟨fun c hc => hsame.shut ▸ hc, fun c hc => .inl (hsame.closed ▸ hc),
        .inr (.inl (by rw [hsame.client]; rfl))⟩
  | text | binary | pickedStale | picked | continued | sent | received =>
      exact .same (same_of_transfers rfl (step_spec h)).1

/-- Sockets are shut by their close events, and on the way off the paired screen. -/
theorem sockets_of_step {e : Event} (hclose : ∀ socket, e ≠ .closes socket)
    (hstay : x.leavesScreen e = false) (h : step w codec x e = some (y, out)) :
    y.shut = x.shut ∧ y.closed = x.closed := by
  have hsteps := step_spec h
  cases hsteps with
  | closed socket => exact absurd rfl (hclose socket)
  | left => cases hstay
  | paired | reconnected => exact sockets_renderPaired _
  | heard socket m =>
      have hpaired : (x.client.onPairedMessage x.isActive m).client.paired = true := by
        simpa [leavesScreen] using hstay
      cases hr : (x.client.onPairedMessage x.isActive m).rendered with
      | true =>
          rw [react, if_pos hr]
          exact sockets_renderPaired _
      | false =>
          rw [react_stayed x hr hpaired]
          exact ⟨rfl, rfl⟩
  | clicked | timedOut | derived | failed => exact ⟨rfl, rfl⟩
  | adopted i fileId =>
      have hsame := (flushPending_same w codec (x.adopt i) i fileId).1
      exact ⟨hsame.shut, hsame.closed⟩
  | text | binary | pickedStale | picked | continued | sent | received =>
      have hsame := (same_of_transfers rfl (step_spec h)).1
      exact ⟨hsame.shut, hsame.closed⟩

end PairedScreen

end Quicksend
