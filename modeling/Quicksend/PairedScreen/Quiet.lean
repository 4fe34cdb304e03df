import Quicksend.PairedScreen.Files
import Quicksend.PairedScreen.InFlight
import Quicksend.PairedScreen.Receivers

/-!
# When nothing is sent

A screen is quiet when no loop of `sendFiles` is behind a live handle, and stays so
until files are handed to one. And what may flip its `transferRole`, or have it await
an answer.
-/

namespace Quicksend.PairedScreen

open Pairing (Client Signal Down)

variable {w : WebCrypto} {codec : MetaCodec} {x y : PairedScreen} {e : Event} {out : List Output}

/-- The active handle has a loop of `sendFiles` behind it, whether or not its call
is pending. -/
def isSending (x : PairedScreen) : Bool :=
  (x.activeTransferHandle.bind x.handle).any fun h => h.batch.isSome

/-- Files are handed to a handle that is not sending. -/
def begins (x : PairedScreen) : Event → Bool
  | .picks i files _ =>
      !files.isEmpty && (x.recipient i).any fun j => x.renders[j]?.any Render.isFree
  | .adopts i _ =>
      !x.queued.isEmpty && x.renders[i]?.any fun r => decide (r.session.transferRole = .sender)
  | _ => false

/-- No loop of `sendFiles` is behind a handle that is live, so none would send on. -/
def Quiet (x : PairedScreen) : Prop :=
  ∀ (i : Nat) (o : Outline), x.outlines[i]? = some o → o.live = some true → x.batch i = none

/-- A render whose promise is awaited has no handle yet; it comes only with the
`.then`. -/
def Through (x : PairedScreen) : Prop :=
  ∀ (i : Nat) (o : Outline), x.outlines[i]? = some o → o.awaited = true → o.live = none

/-! ## A quiet screen -/

theorem not_sending_of_inactive (h : x.isActive = false) : x.isSending = false := by
  rw [isActive] at h
  rw [isSending]
  cases hh : x.activeTransferHandle.bind x.handle with
  | none => rfl
  | some handle =>
      rw [hh, Option.any_some] at h
      rw [Option.any_some]
      cases handle with
      | sender detached b => exact h
      | receiver ui => rfl

theorem Quiet.idle (hq : Quiet x) (hx : InFlight x) (hs : x.shut = []) : x.Idle := by
  intro call hc
  obtain ⟨k, hk⟩ := List.mem_iff_getElem?.mp hc
  cases hp : call.pending with
  | false => rfl
  | true =>
      obtain ⟨-, ⟨files, hb⟩, hlive⟩ := hx.pending k call hk hp
      rcases hlive with hshut | ⟨o, ho, hl⟩
      · rw [hs] at hshut
        cases hshut
      · rw [hq _ o ho hl] at hb
        cases hb

theorem quiet_of_not_sending (hx : InFlight x) (ht : Through x) (hsend : x.isSending = false) :
    Quiet x := by
  intro i o ho hl
  have hw : o.awaited = false := by
    cases hw : o.awaited with
    | false => rfl
    | true =>
        rw [ht i o ho hw] at hl
        cases hl
  have hactive := (hx.latest.live i o ho hw hl).2
  rw [isSending, hactive, Option.bind_some] at hsend
  rw [batch_eq]
  cases hh : x.handle i with
  | none => rfl
  | some h =>
      rw [hh, Option.any_some] at hsend
      simpa using hsend

theorem batch_of_not_live {i : Nat} {o : Outline} (ho : x.outlines[i]? = some o)
    (hl : o.live = none) : x.batch i = none := by
  rw [outlines_getElem?] at ho
  obtain ⟨r, hr, rfl⟩ := Option.map_eq_some_iff.mp ho
  have hh : r.handle = none := by simpa [Render.outline] using hl
  exact batch_of_handle hr hh

/-- A handle that is live was so, or has just been built. -/
theorem Shift.live_before (h : Shift x y e) {i : Nat} {o : Outline} (ho : y.outlines[i]? = some o)
    (hl : o.live = some true) :
    ∃ o', x.outlines[i]? = some o' ∧ (o'.live = some true ∨ o'.live = none) := by
  have of_detached (hd : x.detached[i]? = some o) :
      ∃ o', x.outlines[i]? = some o' ∧ (o'.live = some true ∨ o'.live = none) := by
    obtain ⟨o', ho', ⟨-, rfl⟩ | ⟨-, rfl⟩⟩ := detached_getElem? hd
    · exact absurd hl o'.detach_live
    · exact ⟨o, ho', .inl hl⟩
  cases h with
  | rendered _ session _ houtlines _ =>
      rw [houtlines] at ho
      rcases Tally.getElem?_concat_eq_some ho with hd | ⟨-, rfl⟩
      · exact of_detached hd
      · cases hl
  | left _ _ houtlines _ _ => exact of_detached (houtlines ▸ ho)
  | built _ j p hj _ hn houtlines _ =>
      rw [houtlines, List.getElem?_set] at ho
      split at ho
      next hij => exact ⟨p, hij ▸ hj, .inr hn⟩
      next => exact ⟨o, ho, .inl hl⟩
  | failed _ j p hj _ hn houtlines _ =>
      rw [houtlines, List.getElem?_set] at ho
      split at ho
      next hij => exact ⟨p, hij ▸ hj, .inr hn⟩
      next => exact ⟨o, ho, .inl hl⟩
  | adopted _ j p hj _ _ houtlines _ =>
      rw [houtlines, List.getElem?_modify] at ho
      obtain ⟨o', ho', heq⟩ := Option.map_eq_some_iff.mp ho
      refine ⟨o', ho', .inl ?_⟩
      subst heq
      split at hl
      next => exact hl
      next => exact hl
  | still _ houtlines _ => exact ⟨o, houtlines ▸ ho, .inl hl⟩

theorem Quiet.of_shift (hq : Quiet x) (h : Shift x y e)
    (hb : ∀ j, x.batch j = none → y.batch j = none) : Quiet y := by
  intro i o ho hl
  obtain ⟨o', ho', hl' | hn⟩ := h.live_before ho hl
  · exact hb i (hq i o' ho' hl')
  · exact hb i (batch_of_not_live ho' hn)

theorem sendFiles_nil (w : WebCrypto) (codec : MetaCodec) (x : PairedScreen) (i : Nat)
    (fileId : FileId) : x.sendFiles w codec i [] fileId = x := by
  simp [sendFiles]

theorem sendFiles_of_not_free {i : Nat} {files : List File} {fileId : FileId}
    (h : x.renders[i]?.any Render.isFree = false) : x.sendFiles w codec i files fileId = x := by
  unfold sendFiles
  split
  next r file files hr =>
    split
    next hh =>
      rw [hr, Option.any_some, isFree_iff.mpr hh] at h
      cases h
    next => rfl
  next => rfl

theorem batch_adopts {i : Nat} {fileId : FileId}
    (h : step w codec x (.adopts i fileId) = some (y, out))
    (hno : x.queued = [] ∨ (x.handle i).any Handle.canSend = false) (j : Nat) :
    y.batch j = x.batch j := by
  rcases adopts_eq h with ⟨rfl, -⟩ | ⟨files, hfiles, hcan, rfl⟩
  · exact (adopt_similar x i x.pendingSendFiles).batch j
  · rcases hno with hnone | hno
    · rw [queued, hfiles] at hnone
      obtain rfl : files = [] := hnone
      rw [sendFiles_nil]
      exact (adopt_similar x i none).batch j
    · rw [hno] at hcan
      cases hcan

theorem batch_picks {i : Nat} {files : List File} {fileId : FileId}
    (h : step w codec x (.picks i files fileId) = some (y, out))
    (hno : x.begins (.picks i files fileId) = false) (j : Nat) : y.batch j = x.batch j := by
  have heq := picks_eq h
  rw [begins] at hno
  cases hto : x.recipient i with
  | none =>
      rw [hto] at heq
      rw [heq]
      rfl
  | some k =>
      rw [hto] at heq
      rw [hto, Option.any_some] at hno
      simp only at heq
      rw [heq]
      cases files with
      | nil => rw [sendFiles_nil]
      | cons file rest =>
          rw [List.isEmpty_cons, Bool.not_false, Bool.true_and] at hno
          rw [sendFiles_of_not_free hno]

/-- A loop that goes on is that of a live handle. -/
theorem Quiet.continues (hq : Quiet x) {i : Nat} {fileId : FileId}
    (h : step w codec x (.continues i fileId) = some (y, out)) (j : Nat) (hj : x.batch j = none) :
    y.batch j = none := by
  obtain ⟨r, detached, b, hr, hh, -, rfl⟩ := continues_eq h
  have hb : x.batch i = some b := batch_of_handle hr hh
  obtain rfl : detached = true := by
    cases detached with
    | true => rfl
    | false =>
        have ho : x.outlines[i]? = some r.outline := outline_of_render hr
        have hl : r.outline.live = some true := by
          rw [Render.outline, hh]
          rfl
        rw [hq i _ ho hl] at hb
        cases hb
  have hstop : x.continueBatch w codec i r true b.files fileId = x.setHandle i (.sender true none) := by
    unfold continueBatch
    split <;> rfl
  rw [hstop, batch_setHandle (List.getElem?_eq_some_iff.mp hr).1]
  split
  next => rfl
  next => exact hj

/-- A screen stays quiet when nothing begins. -/
theorem Quiet.step (hq : Quiet x) (h : PairedScreen.step w codec x e = some (y, out))
    (hadopts : ∀ i fileId, e = .adopts i fileId →
      x.queued = [] ∨ (x.handle i).any Handle.canSend = false)
    (hno : (∀ i fileId, e ≠ .adopts i fileId) → x.begins e = false) : Quiet y := by
  refine hq.of_shift (shift_of_step h) fun j hj => ?_
  have still (hturns : e.turnsLoop = false) : y.batch j = none := by
    cases move_of_step h with
    | kept _ _ hb | ran _ _ _ hb => exact (hb j).trans hj
    | stopped _ _ _ _ _ _ _ he | started _ _ _ _ _ _ _ _ _ _ _ _ _ _ he =>
        rw [hturns] at he
        cases he
  cases e with
  | adopts i fileId => exact (batch_adopts h (hadopts i fileId rfl) j).trans hj
  | picks i files fileId => exact (batch_picks h (hno (by simp)) j).trans hj
  | continues i fileId => exact hq.continues h j hj
  | _ => exact still rfl

/-! ## The renders -/

theorem handle_setRender {i : Nat} (hi : i < x.renders.length) (r : Render) :
    (x.setRender i r).handle i = r.handle := by
  rw [handle, setRender, List.getElem?_set_self hi]
  rfl

/-- The key of a render is derived, or is not. -/
theorem derived_eq {i : Nat} {err : Option String}
    (h : step w codec x (.derived i err) = some (y, out)) :
    ∃ r, x.renders[i]? = some r ∧
      ((∃ key, y = x.setRender i { r with epochKey := key, handle := some (x.build r) }) ∨
        r.handle = none ∧ y = x.setRender i { r with awaited := false }) := by
  cases step_spec h with
  | derived i err r key hr => exact ⟨r, hr, .inl ⟨key, rfl⟩⟩
  | failed i err r hr _ hnone => exact ⟨r, hr, .inr ⟨hnone, rfl⟩⟩

theorem outlines_adopts {i : Nat} {fileId : FileId}
    (h : step w codec x (.adopts i fileId) = some (y, out)) :
    y.outlines = x.outlines.modify i Outline.adopt := by
  have ho : (x.adopt i).outlines = x.outlines.modify i Outline.adopt :=
    map_outline_modify_comm fun _ => rfl
  rcases adopts_eq h with ⟨rfl, -⟩ | ⟨files, -, -, rfl⟩
  · exact ho
  · exact (outlines_sendFiles _ _ _ _ _ _).trans ho

/-! ## The client -/

/-- No pairing, no drop and no way off the screen. -/
def Event.inSession : Event → Bool
  | .pairs _ _ _ | .reconnected _ | .closes _ | .leaves | .hears (.notice _) => false
  | _ => true

/-- It takes up the swap that the other client asks for. -/
def accepts (x : PairedScreen) : Event → Bool
  | .hears (.signal .roleSwapRequest) => !(x.isActive || x.client.swapAwaitingResponse)
  | _ => false

theorem inactive_of_accepts (h : x.accepts e = true) : x.isActive = false := by
  unfold accepts at h
  split at h
  next =>
    simp only [Bool.not_eq_true', Bool.or_eq_false_iff] at h
    exact h.1
  next => cases h

theorem client_renderPaired (x : PairedScreen) : x.renderPaired.client = x.client := by
  rw [renderPaired]
  split
  next => exact client_detachActiveTransfer x
  next => exact client_detachActiveTransfer x

theorem onPairedMessage_paired (c : Client) (busy : Bool) (s : Signal) :
    (c.onPairedMessage busy (.signal s)).client.paired = c.paired := by
  cases s with
  | roleSwapRequest =>
      rw [Client.onPairedMessage]
      split <;> rfl
  | roleSwapResponse accepted =>
      rw [Client.onPairedMessage]
      split
      next => rfl
      next => cases accepted <;> rfl

/-- What the other client says about roles never takes the client off the screen. -/
theorem heard_of_step {s : Signal} (h : step w codec x (.hears (.signal s)) = some (y, out)) :
    x.leavesScreen (.hears (.signal s)) = false ∧
      y = x.react (x.client.onPairedMessage x.isActive (.signal s)) ∧
      y.client = (x.client.onPairedMessage x.isActive (.signal s)).client := by
  cases step_spec h with
  | heard socket _ _ hp =>
      have hp' := (onPairedMessage_paired x.client x.isActive s).trans hp
      refine ⟨by rw [leavesScreen, hp']; rfl, rfl, ?_⟩
      cases hr : (x.client.onPairedMessage x.isActive (.signal s)).rendered with
      | true =>
          rw [react, if_pos hr]
          exact client_renderPaired _
      | false => rw [react_stayed x hr hp']

/-- The client when it has not heard the other, for its own part. -/
theorem client_of_step (hno : ∀ d, e ≠ .hears d) (he : e.inSession = true)
    (h : step w codec x e = some (y, out)) :
    y.client.transferRole = x.client.transferRole ∧
      (y.client.swapAwaitingResponse = true → x.client.swapAwaitingResponse = true ∨
        e = .swapClick ∧ x.isActive = false) := by
  have kept (hc : y.client = x.client) :
      y.client.transferRole = x.client.transferRole ∧
        (y.client.swapAwaitingResponse = true → x.client.swapAwaitingResponse = true ∨
          e = .swapClick ∧ x.isActive = false) := by
    rw [hc]
    exact ⟨rfl, .inl⟩
  have hsteps := step_spec h
  cases hsteps with
  | heard socket m => exact absurd rfl (hno m)
  | paired | reconnected | closed | left => cases he
  | derived | failed => exact kept rfl
  | adopted i fileId => exact kept (flushPending_same w codec (x.adopt i) i fileId).1.client
  | clicked =>
      refine ⟨(requestRoleSwap_sameRoles x.client x.isActive).transferRole, fun hy => ?_⟩
      simp only [Client.requestRoleSwap] at hy
      split at hy
      next => exact .inl hy
      next hfree => exact .inr ⟨rfl, by simp_all⟩
  | timedOut => exact ⟨rfl, fun hy => by cases hy⟩
  | text | binary | pickedStale | picked | continued | sent | received =>
      exact kept (same_of_transfers rfl (step_spec h)).1.client

/-- What renders the screen or flips the role: a request that is accepted, or the answer
that accepts. -/
theorem onPairedMessage_flips {c : Client} {busy : Bool} {s : Signal}
    (h : (c.onPairedMessage busy (.signal s)).rendered = true ∨
      (c.onPairedMessage busy (.signal s)).client.transferRole ≠ c.transferRole) :
    s = .roleSwapRequest ∧ (busy || c.swapAwaitingResponse) = false ∨
      s = .roleSwapResponse true ∧ c.swapAwaitingResponse = true := by
  cases s with
  | roleSwapRequest =>
      rw [Client.onPairedMessage] at h
      split at h
      next => exact (h.elim (by simp [Client.stay]) fun hne => absurd rfl hne)
      next hfree => exact .inl ⟨rfl, by simpa using hfree⟩
  | roleSwapResponse accepted =>
      rw [Client.onPairedMessage] at h
      split at h
      next => exact (h.elim (by simp [Client.stay]) fun hne => absurd rfl hne)
      next hwait =>
        cases accepted with
        | true => exact .inr ⟨rfl, by simpa using hwait⟩
        | false => exact (h.elim (by simp [Client.stay]) fun hne => absurd rfl hne)

/-- A client takes part in a swap, to its end: it accepts, or hears that the other did. -/
def Flips (x : PairedScreen) (e : Event) : Prop :=
  x.accepts e = true ∨
    e = .hears (.signal (.roleSwapResponse true)) ∧ x.client.swapAwaitingResponse = true

theorem flips_of_signal {s : Signal}
    (h : (x.client.onPairedMessage x.isActive (.signal s)).rendered = true ∨
      (x.client.onPairedMessage x.isActive (.signal s)).client.transferRole
        ≠ x.client.transferRole) : x.Flips (.hears (.signal s)) := by
  rcases onPairedMessage_flips h with ⟨rfl, hfree⟩ | ⟨rfl, hwait⟩
  · refine .inl ?_
    rw [accepts, hfree]
    rfl
  · exact .inr ⟨rfl, hwait⟩

theorem flips_of_step (he : e.inSession = true) (h : step w codec x e = some (y, out))
    (hflip : y.client.transferRole ≠ x.client.transferRole) : x.Flips e := by
  cases e with
  | hears d =>
      cases d with
      | notice n => cases he
      | signal s =>
          rw [(heard_of_step h).2.2] at hflip
          exact flips_of_signal (.inr hflip)
  | _ => exact absurd (client_of_step (by simp) he h).1 hflip

theorem flips_of_startsRender (he : e.inSession = true) (hs : x.startsRender e = true) :
    x.Flips e := by
  cases e with
  | hears d =>
      cases d with
      | notice n => cases he
      | signal s => exact flips_of_signal (.inl hs)
  | pairs | reconnected => cases he
  | _ => cases hs

/-- A client comes to await an answer by a click. -/
theorem awaiting_of_step (he : e.inSession = true) (h : step w codec x e = some (y, out))
    (hy : y.client.swapAwaitingResponse = true) :
    x.client.swapAwaitingResponse = true ∨ e = .swapClick ∧ x.isActive = false := by
  cases e with
  | hears d =>
      cases d with
      | notice n => cases he
      | signal s =>
          obtain ⟨-, -, hc⟩ := heard_of_step h
          rw [hc] at hy
          cases s with
          | roleSwapRequest =>
              rw [Client.onPairedMessage] at hy
              split at hy
              next => exact .inl hy
              next => cases hy
          | roleSwapResponse accepted =>
              rw [Client.onPairedMessage] at hy
              split at hy
              next => exact .inl hy
              next => cases accepted <;> cases hy
  | _ => exact (client_of_step (by simp) he h).2 hy

/-- An answer that accepts is from a client that has just done so. -/
theorem accepts_of_output (h : step w codec x e = some (y, out)) {o : Output} (ho : o ∈ out)
    (hp : o.payload = .signal (.roleSwapResponse true)) : x.accepts e = true := by
  cases putBy_of_step h ho with
  | asked _ _ hp' =>
      rw [hp] at hp'
      cases hp'
  | sender _ _ _ _ _ _ _ _ _ _ hp' | receiver _ _ _ _ _ _ _ _ _ _ _ _ hp' =>
      rw [hp] at hp'
      cases hp'
  | answered d s he hreply hp' =>
      obtain rfl := Payload.signal.inj (hp'.symm.trans hp)
      subst he
      cases d with
      | notice n => cases n <;> cases hreply
      | signal s =>
          cases s with
          | roleSwapRequest =>
              rw [Client.onPairedMessage] at hreply
              split at hreply
              next => cases hreply
              next hfree => simpa [accepts] using hfree
          | roleSwapResponse accepted =>
              rw [Client.onPairedMessage] at hreply
              split at hreply
              next => cases hreply
              next => cases accepted <;> cases hreply

/-! ## The promises -/

theorem Through.detached (ht : Through x) {i : Nat} {o : Outline} (hd : x.detached[i]? = some o)
    (hw : o.awaited = true) : o.live = none := by
  obtain ⟨o', ho', ⟨-, rfl⟩ | ⟨-, rfl⟩⟩ := detached_getElem? hd
  · rw [Outline.detach, ht i o' ho' hw]
    rfl
  · exact ht i o ho' hw

theorem Through.renderPaired (ht : Through x) : Through x.renderPaired := by
  intro i o ho hw
  have hd := outlines_detachActiveTransfer x
  rw [PairedScreen.renderPaired] at ho
  split at ho
  next session _ =>
    simp only [outlines, List.map_append, List.map_singleton] at ho
    rcases Tally.getElem?_concat_eq_some ho with ho | ⟨-, rfl⟩
    · exact ht.detached ((congrArg (·[i]?) hd).symm.trans ho) hw
    · rfl
  next => exact ht.detached (hd ▸ ho) hw

theorem Through.congr (ht : Through x) (ho : y.outlines = x.outlines) : Through y := by
  rw [Through, ho]
  exact ht

theorem Through.step (ht : Through x) (he : e.inSession = true)
    (hno : ∀ i err, e ≠ .derived i err) (h : PairedScreen.step w codec x e = some (y, out)) :
    Through y := by
  have hsteps := step_spec h
  cases hsteps with
  | derived i err | failed i err => exact absurd rfl (hno i err)
  | paired | reconnected | closed | left => cases he
  | heard socket d =>
      cases d with
      | notice n => cases he
      | signal s =>
          have hstay := (heard_of_step h).1
          cases hr : (x.client.onPairedMessage x.isActive (.signal s)).rendered with
          | true =>
              rw [react, if_pos hr]
              exact Through.renderPaired (x := { x with client := _ }) ht
          | false =>
              rw [react_stayed x hr (by simpa [leavesScreen] using hstay)]
              exact ht
  | adopted i fileId =>
      intro j o ho hw
      rw [outlines_adopts h, List.getElem?_modify] at ho
      obtain ⟨o', ho', rfl⟩ := Option.map_eq_some_iff.mp ho
      split at hw
      next => cases hw
      next hij =>
        rw [if_neg hij]
        exact ht j o' ho' hw
  | clicked | timedOut => exact ht
  | text | binary | pickedStale | picked | continued | sent | received =>
      exact ht.congr (same_of_transfers rfl (step_spec h)).2

/-- A render whose key is not derived is awaited no more. -/
theorem Through.failed (ht : Through x) {i : Nat} {err : Option String}
    (h : PairedScreen.step w codec x (.derived i err) = some (y, out))
    (hnone : (y.handle i).isSome = false) : Through y := by
  obtain ⟨r, hr, hy⟩ := derived_eq h
  have hlt := (List.getElem?_eq_some_iff.mp hr).1
  intro j o ho hw
  rcases hy with ⟨key, hy⟩ | ⟨-, hy⟩
  · rw [hy, handle_setRender hlt] at hnone
    cases hnone
  · rw [hy, outlines_setRender, List.getElem?_set] at ho
    split at ho
    next =>
      split at ho
      next =>
        obtain rfl := Option.some.inj ho
        cases hw
      next => cases ho
    next => exact ht j o ho hw

/-- The handle of a render comes out of its promise. -/
theorem Through.adopted (ht : Through x) {i : Nat} {err : Option String} {fileId : FileId}
    {z : PairedScreen} {out' : List Output}
    (h : PairedScreen.step w codec x (.derived i err) = some (y, out))
    (h' : PairedScreen.step w codec y (.adopts i fileId) = some (z, out')) : Through z := by
  obtain ⟨r', ho'⟩ : ∃ r' : Render, y.outlines = x.outlines.set i r'.outline := by
    obtain ⟨r, -, ⟨key, hy⟩ | ⟨-, hy⟩⟩ := derived_eq h
    · exact ⟨_, by rw [hy, outlines_setRender]⟩
    · exact ⟨_, by rw [hy, outlines_setRender]⟩
  intro j o ho hw
  rw [outlines_adopts h', ho', List.getElem?_modify, List.getElem?_set] at ho
  obtain ⟨o', hset, rfl⟩ := Option.map_eq_some_iff.mp ho
  split at hw
  next => cases hw
  next hij =>
    rw [if_neg hij] at hset ⊢
    exact ht j o' hset hw

/-- A handle that has just been built is that of a sender by the session it is for. -/
theorem queued_or_receives {i : Nat} {err : Option String} {fileId : FileId}
    (h : step w codec x (.derived i err) = some (y, out))
    (hno : x.begins (.adopts i fileId) = false) :
    y.queued = [] ∨ (y.handle i).any Handle.canSend = false := by
  obtain ⟨r, hr, hy⟩ := derived_eq h
  have hlt := (List.getElem?_eq_some_iff.mp hr).1
  rcases hy with ⟨key, hy⟩ | ⟨hnone, hy⟩
  · have hq : y.queued = x.queued := by rw [hy]; rfl
    rw [begins, hr, Option.any_some, Bool.and_eq_false_iff] at hno
    rcases hno with hnil | hrole
    · exact .inl (hq.trans (by simpa using hnil))
    · refine .inr ?_
      rw [hy, handle_setRender hlt, Option.any_some, build]
      cases hs : r.session.transferRole with
      | sender => simp [hs] at hrole
      | receiver => rfl
  · refine .inr ?_
    rw [hy, handle_setRender hlt, hnone]
    rfl

end Quicksend.PairedScreen
