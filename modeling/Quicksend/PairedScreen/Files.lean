import Quicksend.PairedScreen.Calls
import Quicksend.Lib.Tally

/-!
# What becomes of a picked file

A picked file is handed to a `sendFile` call, waits in a batch behind one, or is
queued in `pendingSendFiles`. It is lost when a loop resumes behind a handle that
was detached, when it is given to a handle that is sending, and, without a trace,
when its call waits for a close event that has passed.
-/

namespace Quicksend

open SendFile (InTime Awake)
open Transition (run Guarded)

/-- The files that the loop behind a render has yet to reach. -/
def Render.files (r : Render) : List File := (r.batch.map Batch.files).getD []

/-- It has a live handle that is not sending. -/
def Render.isFree (r : Render) : Bool :=
  match r.handle with
  | some (.sender false none) => true
  | _ => false

/-- The render has a handle, and the handle has not been detached: a picked file
can be sent by it. -/
def Render.isLive (r : Render) : Bool := r.handle.any Handle.isLive

/-- The text on the row of a sent file. -/
inductive SentStatus where
  | transferSent
  | transferTooLarge
  | transferCanceled
  | transferError
  deriving DecidableEq

/-- The status that the row of a file ends with: sent, one of the two texts of an
abort, or failed. -/
def sentStatus : SendFile.Outcome → SentStatus
  | .resolved => .transferSent
  | .rejected (.abortError reason) =>
      if reason = some FileAbortReasonSizeLimit then .transferTooLarge else .transferCanceled
  | .rejected (.error _) => .transferError

/-- How the call's promise settled, once it has; a call that is still under way
has no outcome. -/
def SendCall.outcome (call : SendCall) : Option SendFile.Outcome :=
  match call.state.pc with
  | .settled o => some o
  | _ => none

namespace PairedScreen

/-! ## The ledger -/

/-- The files that `sendFile` was called with, in the order of the calls. -/
def handed (x : PairedScreen) : List File := x.calls.map (·.args.file)

/-- The files that batches have before them, behind the ones that are being sent. -/
def waiting (x : PairedScreen) : List File := x.renders.flatMap Render.files

/-- The files that wait in `pendingSendFiles` for the next render of a sender. -/
def queued (x : PairedScreen) : List File := x.pendingSendFiles.getD []

/-- Where `onStaleFiles` sends; without a handle it queues. -/
def staleRecipient (x : PairedScreen) : Option Nat :=
  match x.activeTransferHandle, x.getPairedSession with
  | some i, some live =>
      if (x.handle i).any Handle.canSend && x.isOpen live.socket then some i else none
  | _, _ => none

/-- Where `handlePicked` of a render sends: to itself while it is live and its
socket open, and else where stale files go. -/
def recipient (x : PairedScreen) (i : Nat) : Option Nat :=
  match x.renders[i]? with
  | some r => if r.isLive && x.isOpen r.session.socket then some i else x.staleRecipient
  | none => none

/-- The files that this event picks: those of the file input, or none for any
other event. -/
def pickedBy : Event → List File
  | .picks _ files _ => files
  | _ => []

/-- What a batch that is queued takes the place of. -/
def replacedBy (x : PairedScreen) : Event → List File
  | .picks i _ _ => if (x.recipient i).isNone then x.queued else []
  | _ => []

/-- What is picked in a render that is sending. -/
def ignoredBy (x : PairedScreen) : Event → List File
  | .picks i files _ => if x.recipient i = some i ∧ (x.batch i).isSome then files else []
  | _ => []

/-- The row of a call that has settled is written when its loop resumes. -/
def shownBy (x : PairedScreen) : Event → List (Nat × SentStatus)
  | .continues i _ =>
      match x.batch i with
      | some b =>
          match x.calls[b.call]?.bind SendCall.outcome with
          | some o => [(b.call, sentStatus o)]
          | none => []
      | none => []
  | _ => []

/-- The screen with the history of its files: all that was picked, all that a
later pick replaced or a busy sender ignored, and every status shown. -/
structure Traced where
  screen : PairedScreen
  picked : List File
  replaced : List File
  ignored : List File
  shown : List (Nat × SentStatus)

/-- A page just loaded: nothing has been picked, and no status has been shown. -/
def Traced.init : Traced :=
  { screen := PairedScreen.init, picked := [], replaced := [], ignored := [], shown := [] }

/-- The history after an event that leads to screen `y`: whatever the event
picked, replaced, ignored or showed is put at its end. -/
def Traced.after (t : Traced) (e : Event) (y : PairedScreen) : Traced :=
  { screen := y
    picked := t.picked ++ pickedBy e
    replaced := t.replaced ++ t.screen.replacedBy e
    ignored := t.ignored ++ t.screen.ignoredBy e
    shown := t.shown ++ t.screen.shownBy e }

/-- A step of the screen that keeps the history; it can be taken whenever the
screen's own step can. -/
def trace (w : WebCrypto) (codec : MetaCodec) (t : Traced) (e : Event) : Option Traced :=
  (step w codec t.screen e).map fun r => t.after e r.1

/-- Every picked file was handed to one call, or waits behind one, is queued, was
replaced in the queue, or was ignored; and every call is awaited by its loop and
can be woken, or has its outcome on its row. -/
structure NoneLost (t : Traced) : Prop where
  once : t.picked.Perm
    (t.screen.handed ++ t.screen.waiting ++ t.screen.queued ++ t.replaced ++ t.ignored)
  shown : ∀ (k : Nat) (call : SendCall), t.screen.calls[k]? = some call →
    (∃ files, t.screen.batch call.render = some ⟨k, files⟩) ∨
      ∃ o, call.outcome = some o ∧ (k, sentStatus o) ∈ t.shown
  behind : ∀ (i : Nat) (b : Batch), t.screen.batch i = some b →
    ∃ call, t.screen.calls[b.call]? = some call ∧ call.render = i
  wakes : ∀ call ∈ t.screen.calls, call.state.waiting = true →
    call.state.socketClosed = false ∧ call.state.connectionLost = false ∧ call.state.aborted = none

/-! ## When none is lost -/

/-- Files that are given to the render are sent, with the close event ahead of them. -/
def takes (x : PairedScreen) (i : Nat) : Bool :=
  x.renders[i]?.any fun r => r.isFree && !x.closed.contains r.session.socket

/-- A loop that resumes with files left is that of a live handle, and files go to
handles that are free, the close event being ahead each time; the close event finds
the calls on its socket waiting, or cancelled; and a cancelled call that has
encrypted a chunk has room for the next. The client stays in the session. -/
def Keeps (x : PairedScreen) : Event → Prop
  | .leaves => False
  | .hears m => x.leavesScreen (.hears m) = false
  | .picks i files _ => files = [] ∨
      ∀ j ∈ x.recipient i, x.takes j = true ∨ j = i ∧ (x.batch i).isSome = true
  | .adopts i _ => x.queued = [] ∨ (x.handle i).any Handle.canSend = false ∨ x.takes i = true
  | .continues i _ => ∀ r ∈ x.renders[i]?, r.files = [] ∨
      r.isLive = true ∧ x.closed.contains r.session.socket = false
  | .closes socket => ∀ call ∈ x.calls, call.socket = socket → InTime call.args call.state .close
  | .sendFile k e => ∀ call ∈ x.calls[k]?, InTime call.args call.state e
  | _ => True

instance (x : PairedScreen) (e : Event) : Decidable (x.Keeps e) :=
  match e with
  | .leaves => isFalse id
  | .hears _ => inferInstanceAs (Decidable (_ = _))
  | .picks _ _ _ => inferInstanceAs (Decidable (_ ∨ _))
  | .adopts _ _ => inferInstanceAs (Decidable (_ ∨ _))
  | .continues _ _ => inferInstanceAs (Decidable (∀ r ∈ _, _))
  | .closes _ => inferInstanceAs (Decidable (∀ call ∈ _, _))
  | .sendFile _ _ => inferInstanceAs (Decidable (∀ call ∈ _, _))
  | .pairs _ _ _ | .reconnected _ | .arrives _ _ | .swapClick | .swapTimer | .derived _ _
    | .receiver _ _ => isTrue trivial

/-! ## Where the files are after a step -/

variable {w : WebCrypto} {codec : MetaCodec} {x y : PairedScreen} {out : List Output} {e : Event}

theorem waiting_congr (h : ∀ j, y.batch j = x.batch j) : y.waiting = x.waiting := by
  refine Tally.flatMap_eq_of_getElem? fun j => ?_
  have hj : y.renders[j]?.bind Render.batch = x.renders[j]?.bind Render.batch := h j
  have hfiles (r : Option Render) :
      (r.map Render.files).getD [] = ((r.bind Render.batch).map Batch.files).getD [] := by
    cases r <;> rfl
  rw [hfiles, hfiles, hj]

/-- The handle behind a render is another one. -/
theorem waiting_setHandle {i : Nat} {r : Render} (hr : x.renders[i]? = some r) (h : Handle)
    (p : File → Bool) :
    (x.setHandle i h).waiting.countP p + r.files.countP p =
      x.waiting.countP p + ({ r with handle := some h } : Render).files.countP p := by
  rw [waiting, waiting, List.countP_flatMap, List.countP_flatMap]
  exact Tally.tally_modify (fun r => r.files.countP p) (fun r => { r with handle := some h }) hr

theorem handed_sendFile (i : Nat) (r : Render) (file : File) (files : List File)
    (fileId : FileId) :
    (x.sendFile w codec i r file files fileId).handed = x.handed ++ [file] := by
  simp [handed, sendFile, setHandle]

/-- The loop behind a render reaches a file. -/
theorem waiting_sendFile (w : WebCrypto) (codec : MetaCodec) {i : Nat} {r : Render} (hr : x.renders[i]? = some r) (file : File)
    (files : List File) (fileId : FileId) (p : File → Bool) :
    (x.sendFile w codec i r file files fileId).waiting.countP p + r.files.countP p =
      x.waiting.countP p + files.countP p :=
  waiting_setHandle hr (.sender false (some ⟨x.calls.length, files⟩)) p

theorem isFree_iff {r : Render} : r.isFree = true ↔ r.handle = some (.sender false none) := by
  rw [Render.isFree]
  split
  next hh => exact iff_of_true rfl hh
  next hne => exact iff_of_false Bool.false_ne_true hne

theorem batch_of_isFree {r : Render} (h : r.isFree = true) : r.batch = none := by
  rw [Render.batch, isFree_iff.mp h]
  rfl

/-- The loop behind a render comes to an end, or goes on with the first of the
files that are left. -/
structure Turn (x y : PairedScreen) (i : Nat) (files : List File) : Prop where
  balance : ∀ p : File → Bool, y.handed.countP p + y.waiting.countP p +
      ((x.renders[i]?.map Render.files).getD []).countP p =
    x.handed.countP p + x.waiting.countP p + files.countP p
  calls : y.calls = x.calls ∧ y.batch i = none ∨
    ∃ call rest, y.calls = x.calls ++ [call] ∧ call.render = i ∧
      SendFile.WellFormed call.args call.state ∧ Awake call.state ∧
      y.batch i = some ⟨x.calls.length, rest⟩
  others : ∀ j, j ≠ i → y.batch j = x.batch j

theorem turn_of_sendFile {i : Nat} {r : Render} {file : File} {rest : List File} {fileId : FileId}
    (hr : x.renders[i]? = some r) (hahead : x.closed.contains r.session.socket = false) :
    Turn x (x.sendFile w codec i r file rest fileId) i (file :: rest) where
  balance p := by
    have hwaiting := waiting_sendFile w codec hr file rest fileId p
    rw [handed_sendFile, List.countP_append, List.countP_singleton, List.countP_cons, hr,
      Option.map_some, Option.getD_some]
    omega
  calls := by
    refine .inr ⟨_, rest, rfl, rfl, ?_, ?_, ?_⟩
    · exact ⟨trivial, .inl rfl⟩
    · rw [hahead]
      exact .init
    · exact (batch_setHandle (List.getElem?_eq_some_iff.mp hr).1 i).trans (if_pos rfl)
  others j hj := (batch_setHandle (List.getElem?_eq_some_iff.mp hr).1 j).trans (if_neg hj)

theorem turn_of_sendFiles {i : Nat} {files : List File} {fileId : FileId} (h : x.takes i = true) :
    x.batch i = none ∧ Turn x (x.sendFiles w codec i files fileId) i files := by
  obtain ⟨r, hr, htakes⟩ := (Option.any_eq_true _ _).mp h
  simp only [Bool.and_eq_true, Bool.not_eq_true'] at htakes
  obtain ⟨hfree, hahead⟩ := htakes
  have hnone : x.batch i = none := by
    rw [batch, hr, Option.bind_some]
    exact batch_of_isFree hfree
  have hfiles : r.files = [] := by rw [Render.files, batch_of_isFree hfree]; rfl
  refine ⟨hnone, ?_⟩
  cases files with
  | nil =>
      have hstill : x.sendFiles w codec i [] fileId = x := by simp [sendFiles]
      rw [hstill]
      exact ⟨fun p => by simp [hr, hfiles], .inl ⟨rfl, hnone⟩, fun _ _ => rfl⟩
  | cons file rest =>
      have hsend : x.sendFiles w codec i (file :: rest) fileId =
          x.sendFile w codec i r file rest fileId := by
        simp [sendFiles, hr, isFree_iff.mp hfree]
      rw [hsend]
      exact turn_of_sendFile hr hahead

theorem turn_of_continueBatch {i : Nat} {r : Render} {detached : Bool} {files : List File}
    {fileId : FileId} (hr : x.renders[i]? = some r)
    (hkeeps : files = [] ∨ detached = false ∧ x.closed.contains r.session.socket = false) :
    Turn x (x.continueBatch w codec i r detached files fileId) i files := by
  have hlt := (List.getElem?_eq_some_iff.mp hr).1
  cases files with
  | cons file rest =>
      obtain ⟨rfl, hahead⟩ := hkeeps.resolve_left (by simp)
      exact turn_of_sendFile hr hahead
  | nil =>
      refine ⟨fun p => ?_, .inl ⟨rfl, ?_⟩, fun j hj => ?_⟩
      · have hwaiting := waiting_setHandle hr (.sender detached none) p
        rw [hr, Option.map_some, Option.getD_some, Nat.add_assoc]
        exact congrArg (x.handed.countP p + ·) hwaiting
      · exact (batch_setHandle hlt i).trans (if_pos rfl)
      · exact (batch_setHandle hlt j).trans (if_neg hj)

/-! ## The calls and the loops -/

/-- A call is awaited by its loop or has its outcome on its row, and is behind no
close event. -/
structure Looped (x : PairedScreen) (rows : List (Nat × SentStatus)) : Prop where
  shown : ∀ (k : Nat) (call : SendCall), x.calls[k]? = some call →
    (∃ files, x.batch call.render = some ⟨k, files⟩) ∨
      ∃ o, call.outcome = some o ∧ (k, sentStatus o) ∈ rows
  behind : ∀ (i : Nat) (b : Batch), x.batch i = some b →
    ∃ call, x.calls[b.call]? = some call ∧ call.render = i
  awake : ∀ (k : Nat) (call : SendCall), x.calls[k]? = some call →
    SendFile.WellFormed call.args call.state ∧ Awake call.state

theorem Looped.init : Looped init [] where
  shown _ _ h := by simp [PairedScreen.init] at h
  behind _ _ h := by simp [batch, PairedScreen.init] at h
  awake _ _ h := by simp [PairedScreen.init] at h

theorem Looped.congr {rows : List (Nat × SentStatus)} (hx : Looped x rows)
    (hc : y.calls = x.calls) (hb : ∀ j, y.batch j = x.batch j) : Looped y rows where
  shown k call hk := by
    rw [hb]
    exact hx.shown k call (hc ▸ hk)
  behind i b hi := by
    rw [hc]
    exact hx.behind i b (hb i ▸ hi)
  awake k call hk := hx.awake k call (hc ▸ hk)

/-- The row of the call that a loop awaited is written when the loop goes on. -/
theorem Looped.turn {rows rows' : List (Nat × SentStatus)} {i : Nat} {files : List File}
    (hx : Looped x rows) (hturn : Turn x y i files) (hsub : rows ⊆ rows')
    (hrow : ∀ b call, x.batch i = some b → x.calls[b.call]? = some call →
      ∃ o, call.outcome = some o ∧ (b.call, sentStatus o) ∈ rows') : Looped y rows' := by
  -- the loop stops, or makes one call, the last
  obtain ⟨new, hc, hlater⟩ : ∃ new, y.calls = x.calls ++ new ∧
      ∀ k call, new[k]? = some call → k = 0 ∧ call.render = i ∧
        SendFile.WellFormed call.args call.state ∧ Awake call.state ∧
        ∃ rest, y.batch i = some ⟨x.calls.length, rest⟩ := by
    rcases hturn.calls with ⟨hc, -⟩ | ⟨call, rest, hc, hrender, hw, ha, hb⟩
    · exact ⟨[], by rw [hc, List.append_nil], by simp⟩
    · refine ⟨[call], hc, fun k call' hk => ?_⟩
      cases k with
      | zero =>
          obtain rfl := Option.some.inj hk
          exact ⟨rfl, hrender, hw, ha, rest, hb⟩
      | succ k => simp at hk
  have cases_of {k : Nat} {call : SendCall} (hk : y.calls[k]? = some call) :
      x.calls[k]? = some call ∨ k = x.calls.length ∧ new[0]? = some call := by
    rw [hc, List.getElem?_append] at hk
    split at hk
    next => exact .inl hk
    next hle =>
      have h0 := (hlater _ _ hk).1
      exact .inr ⟨by omega, h0 ▸ hk⟩
  have keep {k : Nat} {call : SendCall} (hk : x.calls[k]? = some call) :
      y.calls[k]? = some call := by
    rw [hc, List.getElem?_append_left (List.getElem?_eq_some_iff.mp hk).1]
    exact hk
  constructor
  case shown =>
    intro k call hk
    rcases cases_of hk with hk | ⟨rfl, h0⟩
    · rcases hx.shown k call hk with ⟨rest, hb⟩ | ⟨o, ho, hmem⟩
      · by_cases hi : call.render = i
        · rw [hi] at hb
          -- the call that this loop awaited gets its row now
          exact .inr (hrow _ call hb hk)
        · exact .inl ⟨rest, (hturn.others _ hi).trans hb⟩
      · exact .inr ⟨o, ho, hsub hmem⟩
    · obtain ⟨-, hrender, -, -, rest, hb⟩ := hlater 0 call h0
      exact .inl ⟨rest, hrender ▸ hb⟩
  case behind =>
    intro j b hj
    by_cases hij : j = i
    · subst hij
      rcases hturn.calls with ⟨-, hnone⟩ | ⟨call, rest, hc', hrender, -, -, hb⟩
      · rw [hnone] at hj
        cases hj
      · rw [hb] at hj
        obtain rfl := Option.some.inj hj
        exact ⟨call, by rw [hc', List.getElem?_concat_length], hrender⟩
    · obtain ⟨call, hk, hrender⟩ := hx.behind j b (hturn.others j hij ▸ hj)
      exact ⟨call, keep hk, hrender⟩
  case awake =>
    intro k call hk
    rcases cases_of hk with hk | ⟨-, h0⟩
    · exact hx.awake k call hk
    · obtain ⟨-, -, hw, ha, -⟩ := hlater 0 call h0
      exact ⟨hw, ha⟩

/-- What a step that turns no loop makes of a call. -/
theorem CallRan.looped {k : Nat} {call call' : SendCall} (h : CallRan y e out k call call')
    (hk : x.calls[k]? = some call) (hkeeps : x.Keeps e)
    (hw : SendFile.WellFormed call.args call.state) (ha : Awake call.state) :
    SendFile.WellFormed call'.args call'.state ∧ Awake call'.state ∧
      call'.render = call.render ∧ call'.args = call.args ∧
      ∀ o, call.outcome = some o → call'.outcome = some o := by
  cases h with
  | still => exact ⟨hw, ha, rfl, rfl, fun _ => id⟩
  | ran e' s ms hstep _ _ _ _ hevent =>
      have hsteps := SendFile.step_spec hw hstep
      have htime : InTime call.args call.state e' := by
        rcases hevent with ⟨env, rfl⟩ | ⟨rfl, rfl⟩ | rfl
        · trivial
        · exact hkeeps call (List.mem_of_getElem? hk) rfl
        · exact hkeeps call hk
      refine ⟨hsteps.wellFormed hw, hsteps.awake ha htime, rfl, rfl, fun o ho => ?_⟩
      have hset : call.state.isSettled = true := by
        unfold SendCall.outcome at ho
        split at ho
        next hpc => simp [SendFile.State.isSettled, hpc]
        next => cases ho
      have hpc : s.pc = call.state.pc := (hsteps.of_settled hset).2
      rw [SendCall.outcome, hpc]
      exact ho

/-- A step that turns no loop leaves the files where they are. -/
theorem CallMove.looped {rows : List (Nat × SentStatus)} (h : CallMove x y e out)
    (hquiet : e.turnsLoop = false) (hkeeps : x.Keeps e) (hx : Looped x rows) :
    Looped y rows ∧ y.handed = x.handed ∧ y.waiting = x.waiting := by
  cases h with
  | stopped _ _ _ _ _ _ _ he | started _ _ _ _ _ _ _ _ _ _ _ _ _ _ he =>
      rw [hquiet] at he
      cases he
  | kept hc hout hb => exact ⟨hx.congr hc hb, by rw [handed, handed, hc], waiting_congr hb⟩
  | ran hlen hc hout hb =>
      -- every call is one that was there, of the same loop
      have back {k : Nat} {call' : SendCall} (hk : y.calls[k]? = some call') :
          ∃ call, x.calls[k]? = some call ∧
            SendFile.WellFormed call'.args call'.state ∧ Awake call'.state ∧
            call'.render = call.render ∧ call'.args = call.args ∧
            ∀ o, call.outcome = some o → call'.outcome = some o := by
        have hlt : k < x.calls.length := by
          rw [← hlen]
          exact (List.getElem?_eq_some_iff.mp hk).1
        have hkx := List.getElem?_eq_getElem hlt
        obtain ⟨call'', hk', hran⟩ := hc k _ hkx
        obtain rfl := Option.some.inj (hk.symm.trans hk')
        obtain ⟨hw, ha⟩ := hx.awake k _ hkx
        exact ⟨_, hkx, hran.looped hkx hkeeps hw ha⟩
      refine ⟨⟨fun k call' hk => ?_, fun i b hi => ?_, fun k call' hk => ?_⟩, ?_,
        waiting_congr hb⟩
      · obtain ⟨call, hkx, -, -, hrender, -, hout⟩ := back hk
        rw [hrender, hb]
        exact (hx.shown k call hkx).imp_right fun ⟨o, ho, hmem⟩ => ⟨o, hout o ho, hmem⟩
      · obtain ⟨call, hkx, hrender⟩ := hx.behind i b (hb i ▸ hi)
        obtain ⟨call', hk', -⟩ := hc _ call hkx
        obtain ⟨call'', hkx', -, -, hrender', -⟩ := back hk'
        obtain rfl := Option.some.inj (hkx.symm.trans hkx')
        exact ⟨call', hk', hrender'.trans hrender⟩
      · obtain ⟨-, -, hw, ha, -⟩ := back hk
        exact ⟨hw, ha⟩
      · refine List.ext_getElem? fun k => ?_
        rw [handed, handed, List.getElem?_map, List.getElem?_map]
        cases hk : y.calls[k]? with
        | none =>
            have hnone : x.calls[k]? = none := by
              rw [List.getElem?_eq_none_iff] at hk ⊢
              omega
            rw [hnone]
        | some call' =>
            obtain ⟨call, hkx, -, -, -, hargs, -⟩ := back hk
            rw [hkx, Option.map_some, Option.map_some, hargs]

/-! ## The queue -/

theorem pending_renderPaired (x : PairedScreen) :
    x.renderPaired.pendingSendFiles = x.pendingSendFiles := by
  have hd : x.detachActiveTransfer.pendingSendFiles = x.pendingSendFiles := by
    rw [detachActiveTransfer]
    split <;> rfl
  rw [renderPaired]
  split
  next => exact hd
  next => exact hd

/-- The queue is emptied on the way off the paired screen. -/
theorem react_pending (x : PairedScreen) (r : Pairing.Reaction)
    (h : r.rendered = true ∨ r.client.paired = true) :
    (x.react r).pendingSendFiles = x.pendingSendFiles := by
  rw [react]
  split
  next => exact pending_renderPaired _
  next hr => rw [if_pos (h.resolve_left hr)]

theorem pending_of_quiet (h : step w codec x e = some (y, out)) (hquiet : e.turnsLoop = false)
    (hkeeps : x.Keeps e) : y.pendingSendFiles = x.pendingSendFiles := by
  cases step_spec h with
  | adopted | pickedStale | picked | continued => cases hquiet
  | left => exact hkeeps.elim
  | paired role socket sessionKey =>
      exact react_pending { x with sessionKey := sessionKey } _ (.inl rfl)
  | reconnected socket => exact react_pending x _ (.inl rfl)
  | heard socket m => exact react_pending x _ (.inr (by simpa [Keeps, leavesScreen] using hkeeps))
  | text | binary | closed | clicked | timedOut | derived | failed | sent | received => rfl

theorem onStaleFiles_eq (w : WebCrypto) (codec : MetaCodec) (x : PairedScreen) (files : List File)
    (fileId : FileId) :
    x.onStaleFiles w codec files fileId = match x.staleRecipient with
      | some j => x.sendFiles w codec j files fileId
      | none => { x with pendingSendFiles := some files } := by
  cases ha : x.activeTransferHandle with
  | none => simp only [onStaleFiles, staleRecipient, ha]
  | some j =>
      cases hs : x.getPairedSession with
      | none => simp only [onStaleFiles, staleRecipient, ha, hs]
      | some live =>
          simp only [onStaleFiles, staleRecipient, ha, hs]
          by_cases hcan : ((x.handle j).any Handle.canSend && x.isOpen live.socket) = true
          · rw [if_pos hcan, if_pos hcan]
          · rw [if_neg hcan, if_neg hcan]

/-- Picked files go to the handle of the recipient, and are queued without one. -/
theorem picks_eq {i : Nat} {files : List File} {fileId : FileId}
    (h : step w codec x (.picks i files fileId) = some (y, out)) :
    y = match x.recipient i with
      | some j => x.sendFiles w codec j files fileId
      | none => { x with pendingSendFiles := some files } := by
  have isLive_of {r : Render} {detached : Bool} {b : Option Batch}
      (hh : r.handle = some (.sender detached b)) : r.isLive = !detached := by
    rw [Render.isLive, hh]
    rfl
  cases step_spec h with
  | pickedStale i files fileId r detached b hr hh hgone =>
      have hto : x.recipient i = x.staleRecipient := by
        simp only [recipient, hr, isLive_of hh]
        rw [if_neg]
        cases detached <;> simp at hgone ⊢
        exact hgone
      rw [hto]
      exact onStaleFiles_eq w codec x files fileId
  | picked i files fileId r detached b hr hh hopen =>
      have hto : x.recipient i = some i := by
        simp only [recipient, hr, isLive_of hh]
        rw [if_pos]
        cases detached <;> simp at hopen ⊢
        exact hopen
      rw [hto]

/-! ## The books -/

/-- How often each kind of file is picked, and where those are. -/
structure Booked (t : Traced) : Prop where
  balance : ∀ p : File → Bool, t.picked.countP p =
    t.screen.handed.countP p + t.screen.waiting.countP p + t.screen.queued.countP p +
      t.replaced.countP p + t.ignored.countP p
  looped : Looped t.screen t.shown

theorem Booked.init : Booked Traced.init where
  balance _ := rfl
  looped := .init

variable {t : Traced}

theorem queued_congr (h : y.pendingSendFiles = x.pendingSendFiles) : y.queued = x.queued := by
  rw [queued, queued, h]

theorem Booked.quiet (ht : Booked t) (h : step w codec t.screen e = some (y, out))
    (hquiet : e.turnsLoop = false) (hkeeps : t.screen.Keeps e) : Booked (t.after e y) := by
  obtain ⟨hl, hh, hw⟩ := (move_of_step h).looped hquiet hkeeps ht.looped
  have hq := queued_congr (pending_of_quiet h hquiet hkeeps)
  have hafter : t.after e y = { t with screen := y } := by
    cases e with
    | adopts | picks | continues => cases hquiet
    | _ => simp [Traced.after, pickedBy, replacedBy, ignoredBy, shownBy]
  rw [hafter]
  refine ⟨fun p => ?_, hl⟩
  rw [hh, hw, hq]
  exact ht.balance p

theorem sendFiles_of_busy {i : Nat} {files : List File} {fileId : FileId}
    (h : (x.batch i).isSome = true) : x.sendFiles w codec i files fileId = x := by
  unfold sendFiles
  split
  next r file files hr =>
    split
    next hh =>
      rw [batch_of_handle hr hh] at h
      cases h
    next => rfl
  next => rfl

/-- Files that are given to a handle that has none. -/
theorem Turn.given {i : Nat} {files : List File} (h : Turn x y i files) (hnone : x.batch i = none)
    (p : File → Bool) : y.handed.countP p + y.waiting.countP p =
      x.handed.countP p + x.waiting.countP p + files.countP p := by
  have hfiles : (x.renders[i]?.map Render.files).getD [] = [] := by
    cases hr : x.renders[i]? with
    | none => rfl
    | some r =>
        rw [batch, hr] at hnone
        rw [Option.map_some, Option.getD_some, Render.files, show r.batch = none from hnone]
        rfl
  have hbalance := h.balance p
  rw [hfiles, List.countP_nil] at hbalance
  exact hbalance

theorem pending_sendFiles (w : WebCrypto) (codec : MetaCodec) (x : PairedScreen) (i : Nat)
    (files : List File) (fileId : FileId) :
    (x.sendFiles w codec i files fileId).pendingSendFiles = x.pendingSendFiles := by
  unfold sendFiles
  split
  next => split <;> rfl
  next => rfl

/-- Picks are sent, ignored, or take the place of what is queued. -/
theorem Booked.picks {i : Nat} {files : List File} {fileId : FileId} (ht : Booked t)
    (h : step w codec t.screen (.picks i files fileId) = some (y, out))
    (hkeeps : t.screen.Keeps (.picks i files fileId)) :
    Booked (t.after (.picks i files fileId) y) := by
  have hy := picks_eq h
  have hbalance := ht.balance
  have hrows : (t.after (.picks i files fileId) y).shown = t.shown := List.append_nil _
  cases hto : t.screen.recipient i with
  | none =>
      rw [hto] at hy
      subst hy
      refine ⟨fun p => ?_, ?_⟩
      · have hwaiting : ({ t.screen with pendingSendFiles := some files } : PairedScreen).waiting =
            t.screen.waiting := rfl
        have := hbalance p
        -- nobody takes them: they are queued, and what was queued is replaced
        simp only [Traced.after, pickedBy, replacedBy, ignoredBy, hto, List.countP_append, hwaiting,
          handed, queued, Option.isNone_none, if_true, Option.getD_some, reduceCtorEq, false_and,
          if_false, List.countP_nil] at this ⊢
        omega
      · rw [hrows]
        exact ht.looped.congr rfl fun _ => rfl
  | some j =>
      rw [hto] at hy
      have hq : y.queued = t.screen.queued :=
        queued_congr (by rw [hy]; exact pending_sendFiles w codec t.screen j files fileId)
      have hreplaced : t.screen.replacedBy (.picks i files fileId) = [] := by
        simp [replacedBy, hto]
      rcases hkeeps with rfl | hkeeps
      · obtain rfl : y = t.screen := by simpa [sendFiles] using hy
        refine ⟨fun p => ?_, by rw [hrows]; exact ht.looped⟩
        simpa [Traced.after, pickedBy, hreplaced, ignoredBy] using hbalance p
      rcases hkeeps j hto with htakes | ⟨rfl, hbusy⟩
      · -- the loop starts with the first of them; the rest wait in it
        obtain ⟨hnone, hturn⟩ : t.screen.batch j = none ∧
            Turn t.screen (t.screen.sendFiles w codec j files fileId) j files :=
          turn_of_sendFiles htakes
        rw [show t.screen.sendFiles w codec j files fileId = y from hy.symm] at hturn
        have hignored : t.screen.ignoredBy (.picks i files fileId) = [] := by
          rw [ignoredBy, if_neg]
          rintro ⟨hi, hsome⟩
          rw [hto] at hi
          obtain rfl := Option.some.inj hi
          simp [hnone] at hsome
        refine ⟨fun p => ?_, ?_⟩
        · have hgiven := hturn.given hnone p
          have := hbalance p
          simp only [Traced.after, pickedBy, hreplaced, hignored, hq, List.append_nil,
            List.countP_append]
          omega
        · rw [hrows]
          exact ht.looped.turn hturn (List.Subset.refl _) (by simp [hnone])
      · -- the handle is sending: the pick is ignored
        obtain rfl : y = t.screen := hy.trans (sendFiles_of_busy hbusy)
        refine ⟨fun p => ?_, by rw [hrows]; exact ht.looped⟩
        have := hbalance p
        simp only [Traced.after, pickedBy, hreplaced, ignoredBy, hto, hbusy, and_self, if_true,
          List.append_nil, List.countP_append]
        omega

theorem handle_adopt (x : PairedScreen) (i j : Nat) : (x.adopt i).handle j = x.handle j := by
  rw [handle, handle, adopt, List.getElem?_modify]
  cases x.renders[j]? with
  | none => rfl
  | some r => by_cases hij : i = j <;> simp [hij]

theorem takes_adopt (x : PairedScreen) (i : Nat) (files : Option (List File)) (j : Nat) :
    ({ x.adopt i with pendingSendFiles := files } : PairedScreen).takes j = x.takes j := by
  rw [takes, takes, adopt, List.getElem?_modify]
  cases x.renders[j]? with
  | none => rfl
  | some r => by_cases hij : i = j <;> simp [hij, Render.isFree]

/-- The queued files go to a handle that can send. -/
theorem adopts_eq {i : Nat} {fileId : FileId}
    (h : step w codec x (.adopts i fileId) = some (y, out)) :
    y = x.adopt i ∧ (x.pendingSendFiles = none ∨ (x.handle i).any Handle.canSend = false) ∨
      ∃ files, x.pendingSendFiles = some files ∧ (x.handle i).any Handle.canSend = true ∧
        y = { x.adopt i with pendingSendFiles := none }.sendFiles w codec i files fileId := by
  cases step_spec h with
  | adopted i fileId =>
      cases hp : x.pendingSendFiles with
      | none =>
          have hpx : (x.adopt i).pendingSendFiles = none := hp
          exact .inl ⟨by simp only [flushPending, hpx], .inl rfl⟩
      | some files =>
          have hpx : (x.adopt i).pendingSendFiles = some files := hp
          cases hcan : (x.handle i).any Handle.canSend with
          | false =>
              refine .inl ⟨?_, .inr rfl⟩
              simp [flushPending, hpx, handle_adopt, hcan]
          | true =>
              refine .inr ⟨files, rfl, rfl, ?_⟩
              simp [flushPending, hpx, handle_adopt, hcan]

/-- What is queued goes to the handle that a render resolves to, or stays. -/
theorem Booked.adopts {i : Nat} {fileId : FileId} (ht : Booked t)
    (h : step w codec t.screen (.adopts i fileId) = some (y, out))
    (hkeeps : t.screen.Keeps (.adopts i fileId)) : Booked (t.after (.adopts i fileId) y) := by
  have hafter : t.after (.adopts i fileId) y = { t with screen := y } := by
    simp [Traced.after, pickedBy, replacedBy, ignoredBy, shownBy]
  rw [hafter]
  let x : PairedScreen := { t.screen.adopt i with pendingSendFiles := none }
  have hsimilar : Similar x t.screen := adopt_similar t.screen i none
  have hx : Looped x t.shown := ht.looped.congr hsimilar.calls hsimilar.batch
  have hwaiting : x.waiting = t.screen.waiting := waiting_congr hsimilar.batch
  have hhanded : x.handed = t.screen.handed := rfl
  have hbalance := ht.balance
  -- nothing was queued, or the new handle cannot send: the queue stays
  rcases adopts_eq h with ⟨rfl, -⟩ | ⟨files, hp, hcan, hy⟩
  · have hw : (t.screen.adopt i).waiting = t.screen.waiting := hwaiting
    refine ⟨fun p => ?_, hx.congr rfl fun _ => rfl⟩
    rw [hw]
    exact hbalance p
  have hqueued : t.screen.queued = files := by rw [queued, hp, Option.getD_some]
  rw [hqueued] at hbalance
  have hq : y.queued = [] := by
    rw [hy]
    exact queued_congr (x := x) (pending_sendFiles w codec x i files fileId)
  -- the queue is emptied; its files are none, or the handle takes them
  rcases hkeeps with hnone | hcan' | htakes
  · rw [hqueued] at hnone
    subst hnone
    obtain rfl : y = x := by simpa [sendFiles] using hy
    refine ⟨fun p => ?_, hx⟩
    rw [hwaiting]
    exact hbalance p
  · rw [hcan] at hcan'
    cases hcan'
  · rw [← takes_adopt t.screen i none i] at htakes
    obtain ⟨hnone, hturn⟩ :
        x.batch i = none ∧ Turn x (x.sendFiles w codec i files fileId) i files :=
      turn_of_sendFiles htakes
    rw [← hy] at hturn
    refine ⟨fun p => ?_, hx.turn hturn (List.Subset.refl _) fun b call hb _ => ?_⟩
    · have hgiven := hturn.given hnone p
      have hall := hbalance p
      rw [hwaiting, hhanded] at hgiven
      rw [hq, List.countP_nil]
      change t.picked.countP p = y.handed.countP p + y.waiting.countP p + 0 +
        t.replaced.countP p + t.ignored.countP p
      omega
    · rw [hnone] at hb
      cases hb

theorem continues_eq {i : Nat} {fileId : FileId}
    (h : step w codec x (.continues i fileId) = some (y, out)) :
    ∃ r detached b, x.renders[i]? = some r ∧ r.handle = some (.sender detached (some b)) ∧
      x.busyAt b.call = false ∧ y = x.continueBatch w codec i r detached b.files fileId := by
  cases step_spec h with
  | continued i fileId r detached b hr hh hdone => exact ⟨r, detached, b, hr, hh, hdone, rfl⟩

/-- A loop writes the row of the call it awaited and goes on with its own files. -/
theorem Booked.continues {i : Nat} {fileId : FileId} (ht : Booked t)
    (h : step w codec t.screen (.continues i fileId) = some (y, out))
    (hkeeps : t.screen.Keeps (.continues i fileId)) : Booked (t.after (.continues i fileId) y) := by
  obtain ⟨r, detached, b, hr, hh, hfree, hy⟩ := continues_eq h
  have hbatch : t.screen.batch i = some b := batch_of_handle hr hh
  have hfiles : r.files = b.files := by
    rw [Render.files, Render.batch, hh]
    rfl
  have hgoes : b.files = [] ∨
      detached = false ∧ t.screen.closed.contains r.session.socket = false := by
    rw [← hfiles]
    rcases hkeeps r hr with hnone | ⟨hlive, hclosed⟩
    · exact .inl hnone
    · rw [Render.isLive, hh] at hlive
      exact .inr ⟨by simpa [Handle.isLive, Handle.isDetached] using hlive, hclosed⟩
  have hturn : Turn t.screen y i b.files := by
    rw [hy]
    exact turn_of_continueBatch hr hgoes
  have hq : y.queued = t.screen.queued := by
    refine queued_congr ?_
    rw [hy]
    unfold continueBatch
    split
    next => split <;> rfl
    next => rfl
  refine ⟨fun p => ?_, ht.looped.turn hturn (List.subset_append_left _ _) fun b' call hb hk => ?_⟩
  · have hbalance := hturn.balance p
    have hall := ht.balance p
    rw [hr, Option.map_some, Option.getD_some, hfiles] at hbalance
    simp only [Traced.after, pickedBy, replacedBy, ignoredBy, List.append_nil, hq]
    omega
  · obtain rfl := Option.some.inj (hbatch.symm.trans hb)
    -- the call is not pending, so its outcome is there to be shown
    obtain ⟨o, ho⟩ : ∃ o, call.outcome = some o := by
      rw [busyAt, hk, Option.any_some, SendCall.pending] at hfree
      unfold SendCall.outcome
      split
      next o _ => exact ⟨o, rfl⟩
      next hne =>
        cases hpc : call.state.pc with
        | settled o => exact absurd hpc (hne o)
        | _ => simp [SendFile.State.isSettled, hpc] at hfree
    refine ⟨o, ho, List.mem_append_right _ ?_⟩
    simp [shownBy, hbatch, hk, ho]

theorem Booked.step {e : Event} (ht : Booked t)
    (h : PairedScreen.step w codec t.screen e = some (y, out)) (hkeeps : t.screen.Keeps e) :
    Booked (t.after e y) := by
  cases e with
  | picks => exact ht.picks h hkeeps
  | adopts => exact ht.adopts h hkeeps
  | continues => exact ht.continues h hkeeps
  | _ => exact ht.quiet h rfl hkeeps

/-! ## The runs -/

theorem booked_trace (t : Traced) (e : Event) (u : Traced) (ht : Booked t) (hg : t.screen.Keeps e)
    (h : trace w codec t e = some u) : Booked u := by
  obtain ⟨⟨y, out⟩, hstep, rfl⟩ := Option.map_eq_some_iff.mp h
  exact ht.step hstep hg

theorem Booked.noneLost (ht : Booked t) : NoneLost t where
  once := by
    classical
    refine List.perm_iff_count.mpr fun file => ?_
    rw [List.count_append, List.count_append, List.count_append, List.count_append]
    exact ht.balance (· == file)
  shown := ht.looped.shown
  behind := ht.looped.behind
  wakes call hcall hw := by
    obtain ⟨k, hk⟩ := List.mem_iff_getElem?.mp hcall
    have hawake := (ht.looped.awake k call hk).2
    have hcut : ¬ call.state.cut := by
      intro hc
      have hab := hawake.cancelled (SendFile.listening_of_waiting hw) hc
      simp [hawake.ahead hw] at hab
    simp only [SendFile.State.cut, not_or, Bool.not_eq_true] at hcut
    exact ⟨hcut.1, hcut.2, hawake.ahead hw⟩

/-- **No picked file is lost.** As long as loops resume, and files are given, at
live handles whose close event is ahead, and the close event finds every call
awaiting acks, each picked file is with one call or has a place in line. -/
theorem noneLost_of_keeps (w : WebCrypto) (codec : MetaCodec) (es : List Event) (t : Traced)
    (hg : Guarded (trace w codec) (fun t e => t.screen.Keeps e) Traced.init es)
    (hr : run (trace w codec) Traced.init es = some t) : NoneLost t :=
  (hg.invariant booked_trace Booked.init hr).noneLost

/-! ## A render in the middle of a batch -/

/-- Two files are picked, and the peer reconnects while the first is sent. -/
def cutBatchEvents : List Event :=
  [.pairs .guest 0 tinySessionKey, .derived 0 none, .adopts 0 SendFile.tinyArgs.fileId,
    .picks 0 [SendFile.tinyArgs.file, SendFile.tinyArgs.file] SendFile.tinyArgs.fileId,
    .sendFile 0 (.keyDerived none), .sendFile 0 (.metaEncrypted none),
    .hears (.notice .peerReconnected), .derived 1 none, .adopts 1 SendFile.tinyArgs.fileId,
    .sendFile 0 (.sliceRead none), .sendFile 0 (.chunkEncrypted none),
    .arrives 0 (chunkAckMessage SendFile.tinyArgs.fileId.hex 0),
    .continues 0 SendFile.tinyArgs.fileId]

/-- The loop finds its handle detached and drops the second file. -/
theorem cut_batch_lost : ∃ t,
    run (trace labelCrypto SendFile.tinyArgs.codec) Traced.init cutBatchEvents = some t ∧
      ¬ NoneLost t := by
  have hrun : (run (trace labelCrypto SendFile.tinyArgs.codec) Traced.init cutBatchEvents).any
      (fun t => decide (t.picked.length ≠ (t.screen.handed ++ t.screen.waiting ++ t.screen.queued ++
        t.replaced ++ t.ignored).length)) = true := by decide +kernel
  obtain ⟨t, ht, h⟩ := (Option.any_eq_true _ _).mp hrun
  exact ⟨t, ht, fun hnone => of_decide_eq_true h hnone.once.length_eq⟩

/-- The socket closes behind a file that was sent, another file is picked, and
goes to the handle of the render after the reconnect. -/
def queuedEvents : List Event :=
  [.pairs .guest 0 tinySessionKey, .derived 0 none, .adopts 0 SendFile.tinyArgs.fileId,
    .picks 0 [SendFile.tinyArgs.file] SendFile.tinyArgs.fileId, .sendFile 0 (.keyDerived none),
    .sendFile 0 (.metaEncrypted none), .sendFile 0 (.sliceRead none),
    .sendFile 0 (.chunkEncrypted none),
    .arrives 0 (chunkAckMessage SendFile.tinyArgs.fileId.hex 0),
    .continues 0 SendFile.tinyArgs.fileId, .closes 0,
    .picks 0 [SendFile.tinyArgs.file, SendFile.tinyArgs.file] SendFile.tinyArgs.fileId,
    .reconnected 1, .derived 1 none, .adopts 1 SendFile.tinyArgs.fileId]

theorem noneLost_of_keeps_tiny : ∃ t,
    run (trace labelCrypto SendFile.tinyArgs.codec) Traced.init queuedEvents = some t ∧
      t.screen.calls.map SendCall.pending = [false, true] ∧ t.shown = [(0, .transferSent)] ∧
      t.screen.waiting.length = 1 ∧ NoneLost t := by
  have hrun : (run (trace labelCrypto SendFile.tinyArgs.codec) Traced.init queuedEvents).any
      (fun t => decide (t.screen.calls.map SendCall.pending = [false, true] ∧
        t.shown = [(0, .transferSent)] ∧ t.screen.waiting.length = 1)) = true := by decide +kernel
  obtain ⟨t, ht, h⟩ := (Option.any_eq_true _ _).mp hrun
  obtain ⟨hpending, hshown, hwaiting⟩ := of_decide_eq_true h
  refine ⟨t, ht, hpending, hshown, hwaiting, ?_⟩
  exact noneLost_of_keeps labelCrypto SendFile.tinyArgs.codec queuedEvents t (by decide +kernel) ht

end PairedScreen

end Quicksend
