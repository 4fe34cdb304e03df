import Quicksend.PairedScreen.Handles

/-!
# At most one live transfer UI

`renderPaired` detaches the handle it knows, and a handle is known only once
the promise of its render is through. So the next render, and the way off the
screen, must not come before that.
-/

namespace Quicksend.PairedScreen

open Transition (run Guarded)

variable {w : WebCrypto} {codec : MetaCodec} {x y : PairedScreen}

/-- Every promise of `renderTransferUI` has been seen through to its `.then`, so
no render is still to come alive. -/
def Settled (x : PairedScreen) : Prop := ∀ r ∈ x.renders, r.awaited = false

instance (x : PairedScreen) : Decidable x.Settled :=
  inferInstanceAs (Decidable (∀ r ∈ x.renders, r.awaited = false))

/-- The handle of a render is there and not detached. -/
def IsLive (x : PairedScreen) (i : Nat) : Prop := (x.handle i).any Handle.isLive = true

instance (x : PairedScreen) (i : Nat) : Decidable (x.IsLive i) :=
  inferInstanceAs (Decidable ((x.handle i).any Handle.isLive = true))

/-- What the paired screen shows now; after a drop there is no socket until the
client has reconnected. -/
structure Current (x : PairedScreen) (session : PairedSession) : Prop where
  paired : x.client.paired = true
  socket : ∀ c, x.client.activeSocket = some c → session.socket = c
  epoch : session.epoch = x.client.epoch
  transferRole : session.transferRole = x.client.transferRole

/-- Only one handle is live: `activeTransferHandle`, built with what the screen
shows now; and no earlier render still listens on the socket. -/
structure OneLive (x : PairedScreen) : Prop where
  one : ∀ i j, x.IsLive i → x.IsLive j → i = j
  active : ∀ i, x.IsLive i → x.activeTransferHandle = some i
  current : ∀ i r, x.renders[i]? = some r → x.IsLive i → x.Current r.session
  listeners : ∀ i r ui, x.renders[i]? = some r → r.handle = some (.receiver ui) →
    ui.rcv.attached = true → x.client.activeSocket = some r.session.socket →
    i + 1 = x.renders.length

/-- The screen is rendered, or left, only when the promises of the renders
before are through. -/
def InTurn (x : PairedScreen) (e : Event) : Prop :=
  (x.startsRender e || x.leavesScreen e) = true → x.Settled

instance (x : PairedScreen) (e : Event) : Decidable (x.InTurn e) :=
  inferInstanceAs (Decidable (_ → x.Settled))

/-! ## The last render -/

/-- A render that is awaited is the last one and no handle is active; a live
handle whose promise is through is that of the last render, and the active one. -/
structure Latest (x : PairedScreen) : Prop where
  awaited : ∀ i o, x.outlines[i]? = some o → o.awaited = true →
    i + 1 = x.outlines.length ∧ x.activeTransferHandle = none
  live : ∀ i o, x.outlines[i]? = some o → o.awaited = false → o.live = some true →
    i + 1 = x.outlines.length ∧ x.activeTransferHandle = some i

theorem Latest.init : Latest init where
  awaited i o h := by simp [outlines, PairedScreen.init] at h
  live i o h := by simp [outlines, PairedScreen.init] at h

theorem Settled.outlines (h : x.Settled) {o : Outline} (ho : o ∈ x.outlines) :
    o.awaited = false := by
  obtain ⟨r, hr, rfl⟩ := List.mem_map.mp ho
  exact h r hr

theorem detached_length (x : PairedScreen) : x.detached.length = x.outlines.length := by
  rw [detached]
  split
  next => exact List.length_modify _ _ _
  next => rfl

/-- An outline after the active handle was detached. -/
theorem detached_getElem? {i : Nat} {o : Outline} (hi : x.detached[i]? = some o) :
    ∃ o', x.outlines[i]? = some o' ∧
      (x.activeTransferHandle = some i ∧ o = o'.detach ∨
        x.activeTransferHandle ≠ some i ∧ o = o') := by
  cases ha : x.activeTransferHandle with
  | none =>
      simp only [detached, ha] at hi
      exact ⟨o, hi, .inr ⟨by simp, rfl⟩⟩
  | some j =>
      simp only [detached, ha, List.getElem?_modify] at hi
      obtain ⟨o', ho', heq⟩ := Option.map_eq_some_iff.mp hi
      by_cases hij : j = i
      · rw [if_pos hij] at heq
        exact ⟨o', ho', .inl ⟨by rw [hij], heq.symm⟩⟩
      · rw [if_neg hij] at heq
        exact ⟨o', ho', .inr ⟨by simpa using hij, heq.symm⟩⟩

/-- Detaching the active handle leaves none live but that of an awaited render. -/
theorem Latest.detached (hx : Latest x) {i : Nat} {o : Outline} (hi : x.detached[i]? = some o) :
    o.awaited = false → o.live ≠ some true := by
  obtain ⟨o', ho', ⟨-, rfl⟩ | ⟨ha, rfl⟩⟩ := detached_getElem? hi
  · exact fun _ => o'.detach_live
  · exact fun hw hl => ha (hx.live i o ho' hw hl).2

theorem Settled.detached (hs : x.Settled) {i : Nat} {o : Outline}
    (hi : x.detached[i]? = some o) : o.awaited = false := by
  obtain ⟨o', ho', ⟨-, rfl⟩ | ⟨-, rfl⟩⟩ := detached_getElem? hi
  · exact hs.outlines (o := o') (List.mem_of_getElem? ho')
  · exact hs.outlines (List.mem_of_getElem? ho')

/-- After a render that came when all promises were through, only that render is
awaited, and no handle is live. -/
theorem Latest.of_rendered {session : PairedSession} {i : Nat} {o : Outline} (hx : Latest x)
    (hs : x.Settled) (ho : y.outlines = x.detached ++ [Outline.start session])
    (hi : y.outlines[i]? = some o) (hd : o.awaited = true ∨ o.live = some true) :
    i = x.outlines.length ∧ o = Outline.start session := by
  rw [ho] at hi
  by_cases hlt : i < x.detached.length
  · rw [List.getElem?_append_left hlt] at hi
    have hw := hs.detached hi
    rcases hd with hd | hd
    · rw [hw] at hd
      cases hd
    · exact absurd hd (hx.detached hi hw)
  · rw [List.getElem?_append_right (not_lt.mp hlt), List.getElem?_singleton] at hi
    have hlen := x.detached_length
    split at hi
    next h0 => exact ⟨by omega, (Option.some.inj hi).symm⟩
    next => cases hi

theorem Latest.rendered {session : PairedSession} (hx : Latest x) (hs : x.Settled)
    (ho : y.outlines = x.detached ++ [Outline.start session])
    (ha : y.activeTransferHandle = none) : Latest y := by
  have hlen : y.outlines.length = x.outlines.length + 1 := by
    rw [ho, List.length_append, List.length_singleton, x.detached_length]
  constructor
  case awaited =>
    intro i o hi hw
    obtain ⟨rfl, -⟩ := hx.of_rendered hs ho hi (.inl hw)
    exact ⟨hlen.symm, ha⟩
  case live =>
    intro i o hi hw hl
    obtain ⟨-, rfl⟩ := hx.of_rendered hs ho hi (.inr hl)
    cases hw

theorem Latest.left (hx : Latest x) (ho : y.outlines = x.detached)
    (ha : y.activeTransferHandle = none) : Latest y := by
  constructor
  case awaited =>
    intro i o hi hw
    rw [ho] at hi ⊢
    obtain ⟨o', ho', h⟩ := detached_getElem? hi
    have hw' : o'.awaited = true := by
      rcases h with ⟨-, rfl⟩ | ⟨-, rfl⟩
      · exact hw
      · exact hw
    exact ⟨x.detached_length ▸ (hx.awaited i o' ho' hw').1, ha⟩
  case live =>
    intro i o hi hw hl
    rw [ho] at hi
    exact absurd hl (hx.detached hi hw)

/-- While a render is awaited, no other is, and no other handle is live. -/
theorem Latest.alone {i j : Nat} {o p : Outline} (hx : Latest x) (hi : x.outlines[i]? = some o)
    (hw : o.awaited = true) (hj : x.outlines[j]? = some p)
    (hd : p.awaited = true ∨ p.live = some true) : j = i := by
  obtain ⟨hlast, hnone⟩ := hx.awaited i o hi hw
  cases hp : p.awaited with
  | true =>
      have := (hx.awaited j p hj hp).1
      omega
  | false =>
      rcases hd with hd | hd
      · rw [hp] at hd
        cases hd
      · have hact := (hx.live j p hj hp hd).2
        rw [hnone] at hact
        cases hact

/-- The promise of render `i` moves on, and with it its outline. -/
theorem Latest.settles {i : Nat} {o o' : Outline} (hx : Latest x) (hi : x.outlines[i]? = some o)
    (hw : o.awaited = true) (ho : y.outlines = x.outlines.set i o')
    (ha : o'.awaited = true → y.activeTransferHandle = none)
    (hl : o'.awaited = false → o'.live = some true → y.activeTransferHandle = some i) :
    Latest y := by
  have hlast := (hx.awaited i o hi hw).1
  have hlen : y.outlines.length = x.outlines.length := by rw [ho, List.length_set]
  have other {j : Nat} {p : Outline} (hj : y.outlines[j]? = some p)
      (hd : p.awaited = true ∨ p.live = some true) : j = i ∧ p = o' := by
    rw [ho, List.getElem?_set] at hj
    split at hj
    next hij =>
      split at hj
      next => exact ⟨hij.symm, (Option.some.inj hj).symm⟩
      next => cases hj
    next hij => exact absurd (hx.alone hi hw hj hd).symm hij
  constructor
  case awaited =>
    intro j p hj hp
    obtain ⟨rfl, rfl⟩ := other hj (.inl hp)
    exact ⟨by omega, ha hp⟩
  case live =>
    intro j p hj hp hlive
    obtain ⟨rfl, rfl⟩ := other hj (.inr hlive)
    exact ⟨by omega, hl hp hlive⟩

theorem Latest.step {e : Event} (hx : Latest x) (hg : x.startsRender e = true → x.Settled)
    (h : Shift x y e) : Latest y := by
  cases h with
  | rendered he session hs ho ha => exact hx.rendered (hg he) ho ha
  | left he hp ho ha _ => exact hx.left ho ha
  | built hc i o hi hw hl ho ha =>
      have hnone := (hx.awaited i o hi hw).2
      refine hx.settles hi hw ho (fun _ => ha.trans hnone) fun hw' => ?_
      rw [show o.awaited = false from hw'] at hw
      cases hw
  | failed hc i o hi hw hl ho ha =>
      refine hx.settles hi hw ho (fun hw' => by cases hw') fun _ hl' => ?_
      rw [show o.live = some true from hl'] at hl
      cases hl
  | adopted hc i o hi hw hl ho ha =>
      have ho' : y.outlines = x.outlines.set i o.adopt := by
        rw [ho, List.modify_eq_set_getElem?, hi]
        rfl
      exact hx.settles hi hw ho' (fun hw' => by cases hw') fun _ _ => ha
  | still hc ho ha =>
      constructor
      case awaited =>
        intro i o hi hw
        rw [ho] at hi ⊢
        rw [ha]
        exact hx.awaited i o hi hw
      case live =>
        intro i o hi hw hl
        rw [ho] at hi ⊢
        rw [ha]
        exact hx.live i o hi hw hl

/-! ## The session it was built with -/

/-- An awaited render and a live handle belong to what the screen shows. -/
def Shown (x : PairedScreen) : Prop :=
  ∀ (i : Nat) (o : Outline), x.outlines[i]? = some o → o.awaited = true ∨ o.live = some true →
    x.Current o.session

theorem Shown.init : Shown init := fun i o h => by simp [outlines, PairedScreen.init] at h

theorem Current.of_getPairedSession {session : PairedSession}
    (h : y.getPairedSession = some session) : y.Current session := by
  rw [getPairedSession] at h
  split at h
  next hp =>
    obtain ⟨socket, hs, rfl⟩ := Option.map_eq_some_iff.mp h
    exact ⟨hp, fun c hc => Option.some.inj (hs.symm.trans hc), rfl, rfl⟩
  next => cases h

theorem Current.same {session : PairedSession} (h : x.Current session)
    (hc : Paired.SameRoles x.client y.client) : y.Current session where
  paired := hc.paired.trans h.paired
  socket c hy := by
    rcases hc.socket with hs | hs
    · exact h.socket c (hs.symm.trans hy)
    · rw [hs] at hy
      cases hy
  epoch := h.epoch.trans hc.epoch.symm
  transferRole := h.transferRole.trans hc.transferRole.symm

theorem Shown.settles {i : Nat} {o o' : Outline} (hx : Shown x) (hl : Latest x)
    (hi : x.outlines[i]? = some o) (hw : o.awaited = true) (hc : y.client = x.client)
    (ho : y.outlines = x.outlines.set i o') (hsame : o'.session = o.session) : Shown y := by
  intro j p hj hd
  rw [ho, List.getElem?_set] at hj
  split at hj
  next =>
    split at hj
    next =>
      obtain rfl := Option.some.inj hj
      rw [hsame]
      exact (hx i o hi (.inl hw)).same (hc ▸ .refl _)
    next => cases hj
  next hij => exact absurd (hl.alone hi hw hj hd).symm hij

theorem Shown.step {e : Event} (hx : Shown x) (hl : Latest x) (hg : x.InTurn e)
    (h : Shift x y e) : Shown y := by
  cases h with
  | rendered he session hs ho ha =>
      intro i o hi hd
      obtain ⟨-, rfl⟩ := hl.of_rendered (hg (by simp [he])) ho hi hd
      exact .of_getPairedSession hs
  | left he hp ho ha _ =>
      intro i o hi hd
      rw [ho] at hi
      have hw := (hg (by simp [he])).detached hi
      rcases hd with hd | hd
      · rw [hw] at hd
        cases hd
      · exact absurd hd (hl.detached hi hw)
  | built hc i o hi hw hn ho ha => exact hx.settles hl hi hw hc ho rfl
  | failed hc i o hi hw hn ho ha => exact hx.settles hl hi hw hc ho rfl
  | adopted hc i o hi hw hn ho ha =>
      have ho' : y.outlines = x.outlines.set i o.adopt := by
        rw [ho, List.modify_eq_set_getElem?, hi]
        rfl
      exact hx.settles hl hi hw hc ho' rfl
  | still hc ho ha =>
      intro i o hi hd
      rw [ho] at hi
      exact (hx i o hi hd).same hc

theorem Latest.oneLive (hx : Latest x) (hc : Shown x) (hs : x.Settled) : x.OneLive := by
  have live {i : Nat} (hi : x.IsLive i) : ∃ r, x.renders[i]? = some r ∧
      i + 1 = x.renders.length ∧ x.activeTransferHandle = some i ∧ x.Current r.session := by
    obtain ⟨h, hh, hlive⟩ := (Option.any_eq_true _ _).mp hi
    obtain ⟨r, hr, hrh⟩ := Option.bind_eq_some_iff.mp hh
    have ho : x.outlines[i]? = some r.outline := outline_of_render hr
    have hl : r.outline.live = some true := by simp [Render.outline, hrh, hlive]
    have hw := hs.outlines (List.mem_of_getElem? ho)
    obtain ⟨hlast, hact⟩ := hx.live i _ ho hw hl
    rw [PairedScreen.outlines, List.length_map] at hlast
    exact ⟨r, hr, hlast, hact, hc i _ ho (.inr hl)⟩
  constructor
  case one =>
    intro i j hi hj
    obtain ⟨-, -, hi, -⟩ := live hi
    obtain ⟨-, -, hj, -⟩ := live hj
    omega
  case active =>
    intro i hi
    obtain ⟨-, -, -, hact, -⟩ := live hi
    exact hact
  case current =>
    intro i r hr hi
    obtain ⟨r', hr', -, -, hcur⟩ := live hi
    rw [hr] at hr'
    rwa [Option.some.inj hr']
  case listeners =>
    intro i r ui hr hh hatt _
    have hi : x.IsLive i := by
      simp [IsLive, handle, hr, hh, Handle.isLive, Handle.isDetached, hatt]
    obtain ⟨-, -, hlast, -, -⟩ := live hi
    exact hlast

/-! ## The runs -/

theorem latest_shown_next (x : PairedScreen) (e : Event) (y : PairedScreen)
    (hx : Latest x ∧ Shown x) (hg : x.InTurn e) (h : next w codec x e = some y) :
    Latest y ∧ Shown y := by
  obtain ⟨⟨y, out⟩, hstep, rfl⟩ := Option.map_eq_some_iff.mp h
  have hshift := shift_of_step hstep
  exact ⟨hx.1.step (fun he => hg (by simp [he])) hshift, hx.2.step hx.1 hg hshift⟩

/-- **One live transfer UI.** When each render, and each way off the screen,
waits for the promises before it, then whenever all promises are through the
only live handle is the active one, built for what the screen shows. -/
theorem oneLive_of_inTurn (w : WebCrypto) (codec : MetaCodec) (es : List Event) (x : PairedScreen)
    (hg : Guarded (next w codec) InTurn init es)
    (hr : run (next w codec) init es = some x) (hs : x.Settled) : x.OneLive := by
  obtain ⟨hlatest, hshown⟩ := hg.invariant latest_shown_next ⟨Latest.init, Shown.init⟩ hr
  exact hlatest.oneLive hshown hs

/-! ## Two renders close together -/

/-- A session key of 32 zero bytes, to trace runs with. -/
def tinySessionKey : Bytes := List.replicate 32 0

/-- The peer reconnects before the first render's key is derived. -/
def crowdedEvents : List Event :=
  [.pairs .guest 0 tinySessionKey, .hears (.notice .peerReconnected), .derived 0 none,
    .derived 1 none, .adopts 0 SendFile.tinyArgs.fileId, .adopts 1 SendFile.tinyArgs.fileId]

/-- The first handle comes out of its promise after the second render has looked
for one to detach. -/
theorem two_handles_live : ∃ x,
    run (next labelCrypto SendFile.tinyArgs.codec) init crowdedEvents = some x ∧
      x.Settled ∧ ¬ x.OneLive := by
  have hrun : (run (next labelCrypto SendFile.tinyArgs.codec) init crowdedEvents).any
      (fun x => decide (x.Settled ∧ x.IsLive 0 ∧ x.IsLive 1)) = true := by decide +kernel
  obtain ⟨x, hx, h⟩ := (Option.any_eq_true _ _).mp hrun
  obtain ⟨hs, h0, h1⟩ := of_decide_eq_true h
  refine ⟨x, hx, hs, fun hone => ?_⟩
  exact absurd (hone.one 0 1 h0 h1) (by decide)

/-- The same renders, the second after the first is through, and a role swap. -/
def orderlyEvents : List Event :=
  [.pairs .guest 0 tinySessionKey, .derived 0 none, .adopts 0 SendFile.tinyArgs.fileId,
    .hears (.notice .peerReconnected), .derived 1 none, .adopts 1 SendFile.tinyArgs.fileId,
    .hears (.signal .roleSwapRequest), .derived 2 none, .adopts 2 SendFile.tinyArgs.fileId]

theorem oneLive_of_inTurn_tiny : ∃ x,
    run (next labelCrypto SendFile.tinyArgs.codec) init orderlyEvents = some x ∧
      x.IsLive 2 ∧ x.OneLive := by
  have hrun : (run (next labelCrypto SendFile.tinyArgs.codec) init orderlyEvents).any
      (fun x => decide (x.Settled ∧ x.IsLive 2)) = true := by decide +kernel
  obtain ⟨x, hx, h⟩ := (Option.any_eq_true _ _).mp hrun
  obtain ⟨hs, h2⟩ := of_decide_eq_true h
  refine ⟨x, hx, h2, ?_⟩
  exact oneLive_of_inTurn labelCrypto SendFile.tinyArgs.codec orderlyEvents x (by decide +kernel)
    hx hs

end Quicksend.PairedScreen
