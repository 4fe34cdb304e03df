import Quicksend.Delivery.Announced
import Quicksend.Delivery.Sizes.Receiver
import Quicksend.Lib.Simulation

/-!
# What the relay learns of a file

Two transfers of files of one size, with metadata of one length, look alike to
the relay under any order of events: the same messages of the same lengths are
on every leg, with the same headers. What is in the files, their names and the
key make no difference.
-/

namespace Quicksend.Delivery

open Receiver (Action Task)

variable {a a' : SendArgs}

/-- What the relay sees: the shapes of what is on each leg, and whether it has
blocked the file. -/
structure View where
  sndUp : List Shape
  rcvDown : List Shape
  rcvUp : List Shape
  sndDown : List Shape
  blocked : Bool
  deriving DecidableEq

/-- What somebody who sees all four legs can tell: the shape of every message, and
whether the file is blocked. -/
def State.view (x : State) : View :=
  ⟨x.sndUp.map Message.shape, x.rcvDown.map Message.shape, x.rcvUp.map Message.shape,
    x.sndDown.map Message.shape, x.blocked⟩

/-- What is sound about one transfer by itself. -/
structure Honest (a : SendArgs) (x : State) : Prop where
  inv : Inv a x
  announced : Announced a x

theorem Honest.init (a : SendArgs) : Honest a Delivery.init := ⟨.init a, .init a⟩

theorem Honest.step {x y : State} {e : Event} (h : Honest a x) (hs : step a x e = some y) :
    Honest a y :=
  ⟨inv_step x e y h.inv hs, announced_step h.announced h.inv hs⟩

theorem Honest.opening {x : State} (h : Honest a x)
    (hdecodes : (a.codec.decode (a.codec.encode a.file.toMeta)).isSome = true) {task : Task}
    (hrun : x.rcv.running = some task) : Opening a.receiver task := by
  cases task with
  | metaKey | metaStart | chunkWrite => trivial
  | metaDecrypt fileIdHex fileKey ciphertext =>
      obtain ⟨rfl, ⟨-, key, hk, henc⟩, hk'⟩ := h.announced.receiver.task _ hrun
      obtain rfl := Except.ok.inj (hk.symm.trans hk')
      obtain ⟨info, hinfo⟩ := Option.isSome_iff_exists.mp hdecodes
      refine ⟨_, info, ?_, hinfo⟩
      rw [FileId.hex, fromHex_toHex]
      exact decryptChunk_encryptChunk henc
  | chunkDecrypt key frame =>
      have hf : HonestFrame a frame := h.inv.progress.task _ hrun
      obtain ⟨hkey, -⟩ : Receiver.TaskOk a.receiver x.rcv.current (.chunkDecrypt key frame) :=
        h.inv.progress.coherent.task _ hrun
      obtain ⟨hid, -, -, -, key', hkey', henc⟩ := hf
      rw [hid] at hkey
      obtain rfl := Except.ok.inj (hkey.symm.trans hkey')
      exact ⟨_, by rw [hid]; exact decryptChunk_encryptChunk henc⟩

/-- Two transfers that look alike from outside: the same shapes on every leg, and
parties at the same place. -/
structure Lookalike (x x' : State) : Prop where
  snd : SenderAlike x.snd x'.snd
  rcv : ReceiverAlike x.rcv x'.rcv
  sndUp : x'.sndUp.map Message.shape = x.sndUp.map Message.shape
  rcvDown : x'.rcvDown.map Message.shape = x.rcvDown.map Message.shape
  rcvUp : x'.rcvUp.map Message.shape = x.rcvUp.map Message.shape
  sndDown : x'.sndDown.map Message.shape = x.sndDown.map Message.shape
  blocked : x'.blocked = x.blocked

theorem Lookalike.init : Lookalike Delivery.init Delivery.init where
  snd := .refl _
  rcv := .init
  sndUp := rfl
  rcvDown := rfl
  rcvUp := rfl
  sndDown := rfl
  blocked := rfl

theorem Lookalike.view {x x' : State} (h : Lookalike x x') : x'.view = x.view := by
  simp only [State.view, h.sndUp, h.rcvDown, h.rcvUp, h.sndDown, h.blocked]

theorem map_append_shape {l l' m m' : List Message} (h : l'.map Message.shape = l.map Message.shape)
    (h' : m'.map Message.shape = m.map Message.shape) :
    (l' ++ m').map Message.shape = (l ++ m).map Message.shape := by
  rw [List.map_append, List.map_append, h, h']

section
variable (hsame : SameSizes a a') {x x' : State}
include hsame

theorem Lookalike.sender (hw : a.w.Tagged) (hw' : a'.w.Tagged) (h : Lookalike x x')
    (e : SendFile.Event) {rest rest' : List Message}
    (hrest : rest'.map Message.shape = rest.map Message.shape) :
    Option.Rel Lookalike (stepSender a x e rest) (stepSender a' x' e rest') :=
  Transition.rel_map (h.snd.step hsame hw hw' e) fun _ _ hr =>
    { h with
      snd := hr.1
      sndUp := map_append_shape h.sndUp hr.2
      sndDown := hrest }

theorem Lookalike.receiver (h : Lookalike x x')
    (hopen : ∀ task, x.rcv.running = some task → Opening a.receiver task)
    (hopen' : ∀ task, x'.rcv.running = some task → Opening a'.receiver task) {e : Receiver.Event}
    (he : ∀ m, e ≠ .message m) :
    Option.Rel Lookalike (stepReceiver a x e x.rcvDown) (stepReceiver a' x' e x'.rcvDown) := by
  have hkey : SameLength a.receiver.epochKey a'.receiver.epochKey := hsame.key
  exact Transition.rel_map (h.rcv.step hkey hopen hopen' he) fun _ _ hr =>
    { h with
      rcv := hr.1
      rcvUp := map_append_shape h.rcvUp hr.2 }

/-- **The step lemma.** -/
theorem Lookalike.step (hw : a.w.Tagged) (hw' : a'.w.Tagged)
    (hdecodes : (a.codec.decode (a.codec.encode a.file.toMeta)).isSome = true)
    (hdecodes' : (a'.codec.decode (a'.codec.encode a'.file.toMeta)).isSome = true)
    (hx : Honest a x) (hx' : Honest a' x') (h : Lookalike x x') (e : Event) :
    Option.Rel Lookalike (step a x e) (step a' x' e) := by
  cases e with
  | sender e =>
      cases e with
      | message => exact .none
      | keyDerived | metaEncrypted | sliceRead | chunkEncrypted | close | signalAbort =>
          exact h.sender hsame hw hw' _ h.sndDown
  | receiver e =>
      cases e with
      | message | detach => exact .none
      | start | resume | close | abortCurrent =>
          exact h.receiver hsame (fun _ => hx.opening hdecodes) (fun _ => hx'.opening hdecodes')
            (by simp)
  | toSender =>
      have hleg := h.sndDown
      simp only [Delivery.step]
      cases hdown : x.sndDown with
      | nil =>
          rw [hdown] at hleg
          rw [List.map_eq_nil_iff.mp hleg]
          exact .none
      | cons m rest =>
          rw [hdown] at hleg
          obtain ⟨m', rest', hdown', hm, hrest⟩ := heads_of_shapes hleg
          rw [hdown']
          have hfrom := hx.inv.path m (by rw [State.path, hdown]; exact List.mem_cons_self)
          -- an abort or an acknowledgement is seen as it is
          cases alike_of_shape hm with
          | fileMeta => obtain ⟨_, h⟩ | ⟨_, _, h⟩ := hfrom <;> cases h
          | binary => obtain ⟨_, h⟩ | ⟨_, _, h⟩ := hfrom <;> cases h
          | text env => exact h.sender hsame hw hw' _ hrest
  | toReceiver =>
      have hleg := h.rcvDown
      simp only [Delivery.step]
      cases hdown : x.rcvDown with
      | nil =>
          rw [hdown] at hleg
          rw [List.map_eq_nil_iff.mp hleg]
          exact .none
      | cons m rest =>
          rw [hdown] at hleg
          obtain ⟨m', rest', hdown', hm, hrest⟩ := heads_of_shapes hleg
          rw [hdown']
          simp only [stepReceiver, Receiver.step, h.rcv.socketClosed, h.rcv.attached]
          split
          · exact .none
          · split
            · exact .some { h with
                rcv := h.rcv.message hm
                rcvDown := hrest
                rcvUp := map_append_shape h.rcvUp rfl }
            · exact .some { h with
                rcvDown := hrest
                rcvUp := map_append_shape h.rcvUp rfl }
  | relaySender =>
      have hleg := h.sndUp
      simp only [Delivery.step]
      cases hup : x.sndUp with
      | nil =>
          rw [hup] at hleg
          rw [List.map_eq_nil_iff.mp hleg]
          exact .none
      | cons m rest =>
          rw [hup] at hleg
          obtain ⟨m', rest', hup', hm, hrest⟩ := heads_of_shapes hleg
          rw [hup']
          simp only [h.blocked, isBinary_of_shape hm]
          split
          · exact .some { h with
              sndUp := hrest
              blocked := rfl }
          · exact .some { h with
              sndUp := hrest
              rcvDown := map_append_shape h.rcvDown (by simp [hm])
              blocked := rfl }
  | relayReceiver =>
      have hleg := h.rcvUp
      simp only [Delivery.step]
      cases hup : x.rcvUp with
      | nil =>
          rw [hup] at hleg
          rw [List.map_eq_nil_iff.mp hleg]
          exact .none
      | cons m rest =>
          rw [hup] at hleg
          obtain ⟨m', rest', hup', hm, hrest⟩ := heads_of_shapes hleg
          rw [hup']
          exact .some { h with
            rcvUp := hrest
            sndDown := map_append_shape h.sndDown (by simp [hm]) }
  | sizeAbort =>
      simp only [Delivery.step, hsame.fileId]
      exact .some { h with
        rcvDown := map_append_shape h.rcvDown rfl
        sndDown := map_append_shape h.sndDown rfl
        blocked := rfl }

end

/-- **The relay learns only sizes.** -/
theorem sizes_only (a a' : SendArgs) (hsame : SameSizes a a') (hw : a.w.Tagged) (hw' : a'.w.Tagged)
    (hdecodes : (a.codec.decode (a.codec.encode a.file.toMeta)).isSome = true)
    (hdecodes' : (a'.codec.decode (a'.codec.encode a'.file.toMeta)).isSome = true)
    (es : List Event) :
    (Transition.run (step a') init es).map State.view =
      (Transition.run (step a) init es).map State.view := by
  have hruns : Option.Rel (fun x x' => (Honest a x ∧ Honest a' x') ∧ Lookalike x x')
      (Transition.run (step a) init es) (Transition.run (step a') init es) := by
    refine Transition.run_lockstep (fun x x' e hx => ?_) ⟨⟨.init a, .init a'⟩, .init⟩ es
    obtain ⟨⟨hx, hx'⟩, h⟩ := hx
    have hstep := h.step hsame hw hw' hdecodes hdecodes' hx hx' e
    cases hs : step a x e <;> cases hs' : step a' x' e <;> rw [hs, hs'] at hstep <;> cases hstep
    case none.none => exact .none
    case some.some h => exact .some ⟨⟨hx.step hs, hx'.step hs'⟩, h⟩
  generalize Transition.run (step a) init es = o, Transition.run (step a') init es = o' at hruns
  cases hruns with
  | none => rfl
  | some h => rw [Option.map_some, Option.map_some, h.2.view]

/-! ## Two files of one byte -/

/-- The one-byte transfer with this byte as its content, under a cipher whose tag
is 16 bytes long. -/
def tinyTagged (byte : UInt8) : SendArgs :=
  { SendFile.tinyArgs with w := Server.SizeLimit.tagCrypto, file := ⟨[byte.toUInt16], [], [byte], by simp⟩ }

theorem sizes_only_tiny :
    ((Transition.run (step (tinyTagged 7)) init tinyEvents).map State.view).isSome = true ∧
      (Transition.run (step (tinyTagged 9)) init tinyEvents).map State.view =
        (Transition.run (step (tinyTagged 7)) init tinyEvents).map State.view :=
  ⟨by decide +kernel, sizes_only (tinyTagged 7) (tinyTagged 9) ⟨rfl, rfl, rfl, rfl⟩
    Server.SizeLimit.tagCrypto_tagged Server.SizeLimit.tagCrypto_tagged rfl rfl tinyEvents⟩

end Quicksend.Delivery
