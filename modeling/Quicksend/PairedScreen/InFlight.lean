import Quicksend.PairedScreen.Calls

/-!
# The pending call belongs to the last render

A render detaches the handle before it and does not stop its `sendFile` call.
When no render comes while a call is pending, or before the promise of the one
before it is through, then only the last render has a pending call, and one only.
-/

namespace Quicksend.PairedScreen

open Transition (run Guarded)

variable {w : WebCrypto} {codec : MetaCodec} {x y : PairedScreen} {out : List Output} {e : Event}

/-- No `sendFile` call of any render is pending, so that nothing is being sent. -/
def Idle (x : PairedScreen) : Prop := ∀ call ∈ x.calls, call.pending = false

instance (x : PairedScreen) : Decidable x.Idle :=
  inferInstanceAs (Decidable (∀ call ∈ x.calls, call.pending = false))

/-- The paired screen is rendered only when no call is pending and the promises
of the renders before are through. -/
def Calm (x : PairedScreen) (e : Event) : Prop := x.startsRender e = true → x.Settled ∧ x.Idle

instance (x : PairedScreen) (e : Event) : Decidable (x.Calm e) :=
  inferInstanceAs (Decidable (_ → x.Settled ∧ x.Idle))

/-! ## What becomes of a render -/

/-- A render keeps its session; it is the last one as long as there is no other,
and its handle stays live until the active handle is detached. -/
theorem Shift.keeps (h : Shift x y e) {i : Nat} {o : Outline} (hi : x.outlines[i]? = some o) :
    ∃ o', y.outlines[i]? = some o' ∧ o'.session = o.session ∧
      (o.live = some true → o'.live = some true ∨ y.outlines.length = x.outlines.length + 1 ∨
        ∀ c, x.client.activeSocket = some c → c ∈ y.shut) := by
  have hlt : i < x.outlines.length := (List.getElem?_eq_some_iff.mp hi).1
  have ofDetached : ∃ o', x.detached[i]? = some o' ∧ o'.session = o.session := by
    rw [detached]
    split
    next j _ =>
      refine ⟨_, by rw [List.getElem?_modify, hi]; rfl, ?_⟩
      split <;> rfl
    next => exact ⟨o, hi, rfl⟩
  cases h with
  | rendered he session hs ho ha =>
      obtain ⟨o', ho', hsame⟩ := ofDetached
      refine ⟨o', ?_, hsame, fun _ => .inr (.inl ?_)⟩
      · rw [ho, List.getElem?_append_left (by rw [x.detached_length]; exact hlt)]
        exact ho'
      · rw [ho, List.length_append, List.length_singleton, x.detached_length]
  | left he hp ho ha hs =>
      obtain ⟨o', ho', hsame⟩ := ofDetached
      exact ⟨o', by rw [ho]; exact ho', hsame, fun _ => .inr (.inr hs)⟩
  | built hc j p hj hw hl ho ha =>
      rw [ho, List.getElem?_set]
      by_cases hij : j = i
      · subst hij
        rw [hi] at hj
        obtain rfl := Option.some.inj hj
        exact ⟨{ o with live := some true }, by rw [if_pos rfl, if_pos hlt], rfl, fun _ => .inl rfl⟩
      · exact ⟨o, by rw [if_neg hij]; exact hi, rfl, .inl⟩
  | failed hc j p hj hw hl ho ha =>
      rw [ho, List.getElem?_set]
      by_cases hij : j = i
      · subst hij
        rw [hi] at hj
        obtain rfl := Option.some.inj hj
        exact ⟨{ o with awaited := false }, by rw [if_pos rfl, if_pos hlt], rfl, .inl⟩
      · exact ⟨o, by rw [if_neg hij]; exact hi, rfl, .inl⟩
  | adopted hc j p hj hw hl ho ha =>
      refine ⟨_, by rw [ho, List.getElem?_modify, hi]; rfl, ?_⟩
      split
      next => exact ⟨rfl, .inl⟩
      next => exact ⟨rfl, .inl⟩
  | still hc ho ha => exact ⟨o, by rw [ho]; exact hi, rfl, .inl⟩

/-- There is one more render, for the session of the screen, or as many as before. -/
theorem Shift.length (h : Shift x y e) :
    y.outlines.length = x.outlines.length ∨
      x.startsRender e = true ∧ ∃ session, y.getPairedSession = some session ∧
        y.outlines = x.detached ++ [Outline.start session] := by
  cases h with
  | rendered he session hs ho ha => exact .inr ⟨he, session, hs, ho⟩
  | left he hp ho ha hs => exact .inl (by rw [ho, x.detached_length])
  | built hc j p hj hw hl ho ha => exact .inl (by rw [ho, List.length_set])
  | failed hc j p hj hw hl ho ha => exact .inl (by rw [ho, List.length_set])
  | adopted hc j p hj hw hl ho ha => exact .inl (by rw [ho, List.length_modify])
  | still hc ho ha => exact .inl (by rw [ho])

/-! ## The invariant -/

/-- A socket that can still be sent on is that of the screen. -/
def Carries (x : PairedScreen) (socket : ConnId) : Prop :=
  socket ∈ x.shut ∨ x.client.activeSocket = some socket

/-- Where a pending call `k` stands: behind the last render, whose loop awaits it
and whose handle is live unless nothing can be sent any more. -/
structure Awaited (x : PairedScreen) (k : Nat) (call : SendCall) : Prop where
  last : call.render + 1 = x.outlines.length
  loop : ∃ files, x.batch call.render = some ⟨k, files⟩
  live : call.socket ∈ x.shut ∨ ∃ o, x.outlines[call.render]? = some o ∧ o.live = some true

/-- What every step keeps of the calls: each belongs to a render and its socket,
and one that is pending is the file that its batch awaits. -/
structure InFlight (x : PairedScreen) : Prop where
  latest : Latest x
  closed : ∀ c ∈ x.closed, c ∈ x.shut
  socket : ∀ (i : Nat) (o : Outline), x.outlines[i]? = some o → i + 1 = x.outlines.length →
    x.Carries o.session.socket
  owner : ∀ (k : Nat) (call : SendCall), x.calls[k]? = some call →
    ∃ o, x.outlines[call.render]? = some o ∧ call.socket = o.session.socket
  well : ∀ (k : Nat) (call : SendCall), x.calls[k]? = some call →
    SendFile.WellFormed call.args call.state
  pending : ∀ (k : Nat) (call : SendCall), x.calls[k]? = some call → call.pending = true →
    x.Awaited k call

theorem InFlight.init : InFlight init where
  latest := .init
  closed := by simp [PairedScreen.init]
  socket := by simp [PairedScreen.init, outlines]
  owner := by simp [PairedScreen.init]
  well := by simp [PairedScreen.init]
  pending := by simp [PairedScreen.init]

/-- Two calls that are pending are one. -/
theorem InFlight.one (hx : InFlight x) {j k : Nat} {cj ck : SendCall} (hj : x.calls[j]? = some cj)
    (hk : x.calls[k]? = some ck) (hpj : cj.pending = true) (hpk : ck.pending = true) : j = k := by
  obtain ⟨hlj, ⟨fj, hbj⟩, -⟩ := hx.pending j cj hj hpj
  obtain ⟨hlk, ⟨fk, hbk⟩, -⟩ := hx.pending k ck hk hpk
  have hrender : cj.render = ck.render := by omega
  rw [hrender, hbk] at hbj
  exact (Batch.mk.inj (Option.some.inj hbj)).1.symm

/-- What a step makes of a call: it keeps its render, its socket and what it
sends, and one that has settled stays so. -/
structure CallKept (call call' : SendCall) : Prop where
  render : call'.render = call.render
  socket : call'.socket = call.socket
  args : call'.args = call.args
  well : SendFile.WellFormed call'.args call'.state
  pending : call'.pending = true → call.pending = true

theorem CallRan.kept {k : Nat} {call call' : SendCall} (h : CallRan y e out k call call')
    (hw : SendFile.WellFormed call.args call.state) : CallKept call call' := by
  cases h with
  | still => exact ⟨rfl, rfl, rfl, hw, id⟩
  | ran e' s ms hstep =>
      have hsteps := SendFile.step_spec hw hstep
      refine ⟨rfl, rfl, rfl, hsteps.wellFormed hw, fun hp => ?_⟩
      cases hs : call.state.isSettled with
      | false => rw [SendCall.pending, hs]; rfl
      | true =>
          rw [SendFile.State.isSettled] at hs
          rw [SendCall.pending, SendFile.State.isSettled, (hsteps.of_settled hs).2, hs] at hp
          cases hp

/-- A call after a step was there before it, or has just been started. -/
theorem CallMove.call_cases (h : CallMove x y e out) (hx : InFlight x) {k : Nat} {call' : SendCall}
    (hk : y.calls[k]? = some call') :
    (∃ call, x.calls[k]? = some call ∧ CallKept call call') ∨
      ∃ o files, k = x.calls.length ∧ y.outlines.length = x.outlines.length ∧
        x.outlines[call'.render]? = some o ∧ o.live = some true ∧
        call'.socket = o.session.socket ∧
        call'.state = { SendFile.init with socketClosed := x.closed.contains o.session.socket } ∧
        (∀ b, x.batch call'.render = some b → x.busyAt b.call = false) ∧
        y.batch call'.render = some ⟨k, files⟩ := by
  have same (hc : y.calls = x.calls) : ∃ call, x.calls[k]? = some call ∧ CallKept call call' := by
    rw [hc] at hk
    exact ⟨call', hk, rfl, rfl, rfl, hx.well k call' hk, id⟩
  cases h with
  | kept hc => exact .inl (same hc)
  | stopped _ _ _ _ hc => exact .inl (same hc)
  | started i o call files hlen hi hlive hfree hrender hsocket hstate hc hout hb =>
      rw [hc, List.getElem?_append] at hk
      split at hk
      next => exact .inl ⟨call', hk, rfl, rfl, rfl, hx.well k call' hk, id⟩
      next hlt =>
        rw [List.getElem?_singleton] at hk
        split at hk
        next h0 =>
          obtain rfl := Option.some.inj hk
          subst hrender
          have hkl : k = x.calls.length := by omega
          refine .inr ⟨o, files, hkl, hlen, hi, hlive, hsocket, hstate, hfree, ?_⟩
          rw [hb, if_pos rfl, hkl]
        next => cases hk
  | ran hlen hc hout hb =>
      have hlt : k < x.calls.length := by
        rw [← hlen]
        exact (List.getElem?_eq_some_iff.mp hk).1
      obtain ⟨call'', hk', hran⟩ := hc k _ (List.getElem?_eq_getElem hlt)
      rw [hk] at hk'
      obtain rfl := Option.some.inj hk'
      exact .inl ⟨_, List.getElem?_eq_getElem hlt, hran.kept (hx.well k _ (List.getElem?_eq_getElem hlt))⟩

/-- The loop of a pending call goes on awaiting it. -/
theorem CallMove.batch_of_pending (h : CallMove x y e out) (hx : InFlight x) {k : Nat}
    {call : SendCall} (hk : x.calls[k]? = some call) (hp : call.pending = true) :
    y.batch call.render = x.batch call.render := by
  obtain ⟨hlast, ⟨files, hb⟩, -⟩ := hx.pending k call hk hp
  have hbusy : x.busyAt k = true := by simp [busyAt, hk, hp]
  cases h with
  | kept _ _ hb' => exact hb' _
  | ran _ _ _ hb' => exact hb' _
  | stopped i b hi hfree _ _ hb' =>
      rw [hb', if_neg]
      rintro rfl
      rw [hb] at hi
      obtain rfl := Option.some.inj hi
      rw [hbusy] at hfree
      cases hfree
  | started i o call' files' hlen hi hlive hfree hrender hsocket hstate hc hout hb' =>
      rw [hb', if_neg]
      rintro rfl
      have := hfree _ hb
      rw [hbusy] at this
      cases this

theorem Latest.last_of_live {i : Nat} {o : Outline} (hx : Latest x) (hi : x.outlines[i]? = some o)
    (hl : o.live = some true) : i + 1 = x.outlines.length := by
  cases hw : o.awaited with
  | true => exact (hx.awaited i o hi hw).1
  | false => exact (hx.live i o hi hw hl).1

theorem activeSocket_of_getPairedSession {session : PairedSession}
    (h : x.getPairedSession = some session) : x.client.activeSocket = some session.socket := by
  rw [getPairedSession] at h
  split at h
  next =>
    obtain ⟨socket, hs, rfl⟩ := Option.map_eq_some_iff.mp h
    exact hs
  next => cases h

/-- A socket that carried before a step that does not render still does. -/
theorem SocketMove.carries (h : SocketMove x y) (hlen : y.outlines.length = x.outlines.length)
    {socket : ConnId} (hs : x.Carries socket) : y.Carries socket := by
  rcases hs with hs | hs
  · exact .inl (h.shut socket hs)
  · rcases h.active with ⟨session, ho⟩ | hsame | hshut
    · rw [ho, List.length_append, List.length_singleton, x.detached_length] at hlen
      omega
    · exact .inr (hsame.trans hs)
    · exact .inl (hshut socket hs)

/-- The handle behind the last render stays live until nothing can be sent. -/
theorem InFlight.live_step (hx : InFlight x) (hshift : Shift x y e) (hsock : SocketMove x y)
    (hlen : y.outlines.length = x.outlines.length) {i : Nat} {o : Outline} {socket : ConnId}
    (hi : x.outlines[i]? = some o) (hlast : i + 1 = x.outlines.length)
    (hs : socket = o.session.socket) (hl : socket ∈ x.shut ∨ o.live = some true) :
    socket ∈ y.shut ∨ ∃ o', y.outlines[i]? = some o' ∧ o'.live = some true := by
  rcases hl with hl | hl
  · exact .inl (hsock.shut socket hl)
  · obtain ⟨o', ho', -, hkeep⟩ := hshift.keeps hi
    -- it stays live, or is no longer the last, or its socket is shut on the way off the screen
    rcases hkeep hl with hl' | hl' | hshut
    · exact .inr ⟨o', ho', hl'⟩
    · omega
    · subst hs
      rcases hx.socket i o hi hlast with h | h
      · exact .inl (hsock.shut _ h)
      · exact .inl (hshut _ h)

theorem InFlight.step (hx : InFlight x) (hg : x.Calm e)
    (h : PairedScreen.step w codec x e = some (y, out)) : InFlight y := by
  have hshift := shift_of_step h
  have hmove := move_of_step h
  have hsock := socketMove_of_step h
  constructor
  case latest => exact hx.latest.step (fun he => (hg he).1) hshift
  case closed =>
    intro c hc
    rcases hsock.closed c hc with hc | hc
    · exact hsock.shut c (hx.closed c hc)
    · exact hc
  case socket =>
    intro i o hi hlast
    -- the last render is the one it was, or a new one on the active socket
    rcases hshift.length with hlen | ⟨-, session, hs, ho⟩
    · have hlt : i < x.outlines.length := by omega
      obtain ⟨o', ho', hsame, -⟩ := hshift.keeps (List.getElem?_eq_getElem hlt)
      rw [hi] at ho'
      obtain rfl := Option.some.inj ho'
      rw [hsame]
      exact hsock.carries hlen (hx.socket i _ (List.getElem?_eq_getElem hlt) (by omega))
    · have hi' : i = x.detached.length := by
        rw [ho, List.length_append, List.length_singleton] at hlast
        omega
      rw [ho, hi', List.getElem?_concat_length] at hi
      rw [← Option.some.inj hi]
      exact .inr (activeSocket_of_getPairedSession hs)
  case owner =>
    intro k call' hk
    rcases hmove.call_cases hx hk with ⟨call, hcall, hkept⟩ | ⟨o, _, -, -, ho, -, hs, -⟩
    · obtain ⟨o, ho, hs⟩ := hx.owner k call hcall
      obtain ⟨o', ho', hsame, -⟩ := hshift.keeps ho
      exact ⟨o', by rw [hkept.render]; exact ho', by rw [hkept.socket, hs, hsame]⟩
    · obtain ⟨o', ho', hsame, -⟩ := hshift.keeps ho
      exact ⟨o', ho', by rw [hs, hsame]⟩
  case well =>
    intro k call' hk
    rcases hmove.call_cases hx hk with ⟨call, hcall, hkept⟩ | ⟨o, _, -, -, -, -, -, hstate, -⟩
    · exact hkept.well
    · rw [hstate]
      exact ⟨trivial, .inl rfl⟩
  case pending =>
    intro k call' hk hp
    rcases hmove.call_cases hx hk with
      ⟨call, hcall, hkept⟩ | ⟨o, files, -, hlen, ho, hlive, hs, -, -, hb⟩
    · have hpend := hkept.pending hp
      rcases hshift.length with hlen | ⟨he, -⟩
      · obtain ⟨hlast, ⟨files, hb⟩, hl⟩ := hx.pending k call hcall hpend
        obtain ⟨o, ho, hs⟩ := hx.owner k call hcall
        have hl' : call.socket ∈ x.shut ∨ o.live = some true := by
          rcases hl with hl | ⟨o', ho', hl⟩
          · exact .inl hl
          · rw [ho] at ho'
            rw [Option.some.inj ho']
            exact .inr hl
        -- a call that goes on is still that of the loop behind the last render
        refine ⟨by rw [hkept.render]; omega, ⟨files, ?_⟩, ?_⟩
        · rw [hkept.render, hmove.batch_of_pending hx hcall hpend, hb]
        · rw [hkept.render, hkept.socket]
          exact hx.live_step hshift hsock hlen ho hlast hs hl'
      · -- no call is pending when the screen is rendered
        have hidle := (hg he).2 call (List.mem_of_getElem? hcall)
        rw [hidle] at hpend
        cases hpend
    · -- a call that begins is of a live handle, and only the last render has one
      have hlast := hx.latest.last_of_live ho hlive
      exact ⟨by omega, ⟨files, hb⟩, hx.live_step hshift hsock hlen ho hlast hs (.inr hlive)⟩

end Quicksend.PairedScreen
