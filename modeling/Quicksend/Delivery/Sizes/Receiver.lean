import Quicksend.Delivery.Delivered
import Quicksend.Delivery.Sizes.Sender

/-!
# Receivers of messages of one shape

Two receivers that are handed messages of the same shapes take every event
alike, where what an honest sender encrypted opens for both.
-/

namespace Quicksend.Delivery

open Receiver (Action Current Task)

/-! ## Messages -/

/-- Two messages that an onlooker cannot tell apart: equal but for ciphertext, and
that of one length. -/
inductive MessageAlike : Message → Message → Prop where
  | fileMeta (id : Option JSString) (c c' : Option JSString)
      (hlen : c'.map List.length = c.map List.length) :
      MessageAlike (.text (.fileMeta (some ⟨id, c⟩))) (.text (.fileMeta (some ⟨id, c'⟩)))
  | text (env : Envelope) : MessageAlike (.text env) (.text env)
  | binary (data data' : Bytes) (htake : data'.take 26 = data.take 26)
      (hlen : data'.length = data.length) : MessageAlike (.binary data) (.binary data')

theorem alike_of_shape {m m' : Message} (h : m'.shape = m.shape) : MessageAlike m m' := by
  unfold Message.shape at h
  split at h <;> split at h <;> first | cases h | skip
  next p' _ p =>
    obtain ⟨id, c⟩ := p
    obtain ⟨id', c'⟩ := p'
    injection h with hid hlen
    obtain rfl : id' = id := hid
    exact .fileMeta _ c c' hlen
  next => exact .text _
  next data' _ data =>
    injection h with htake hlen
    exact .binary data data' htake hlen

/-- The heads of two legs of the same shapes. -/
theorem heads_of_shapes {m : Message} {l l' : List Message}
    (h : l'.map Message.shape = (m :: l).map Message.shape) :
    ∃ m' rest, l' = m' :: rest ∧ m'.shape = m.shape ∧
      rest.map Message.shape = l.map Message.shape := by
  cases l' with
  | nil => cases h
  | cons m' rest =>
      obtain ⟨hm, hrest⟩ := List.cons.inj h
      exact ⟨m', rest, rfl, hm, hrest⟩

theorem isBinary_of_shape {m m' : Message} (h : m'.shape = m.shape) : isBinary m' = isBinary m := by
  cases alike_of_shape h <;> rfl

/-! ## The receiver -/

/-- Two chunk frames with the same id, index and last flag, whatever their
ciphertexts are. -/
structure FrameAlike (f f' : ChunkFrame) : Prop where
  fileId : f'.fileId = f.fileId
  index : f'.index = f.index
  isLast : f'.isLast = f.isLast

theorem slice_of_take {data data' : Bytes} (h : data'.take 26 = data.take 26) {i n : Nat}
    (hin : i + n ≤ 26) : (data'.drop i).take n = (data.drop i).take n := by
  have slice (bs : Bytes) : (bs.drop i).take n = ((bs.take 26).drop i).take n := by
    rw [List.drop_take, List.take_take, Nat.min_eq_left (by omega)]
  rw [slice data', slice data, h]

theorem parseChunkFrame_alike {data data' : Bytes} (htake : data'.take 26 = data.take 26)
    (hlen : data'.length = data.length) :
    Option.Rel FrameAlike (parseChunkFrame data) (parseChunkFrame data') := by
  have hhead : data'.head? = data.head? := by
    have := congrArg List.head? htake
    simpa [List.head?_take] using this
  have hflag : data'.getD 1 0 = data.getD 1 0 := by
    have := congrArg (fun bs : Bytes => bs.getD 1 0) htake
    simpa [List.getD_eq_getElem?_getD, List.getElem?_take] using this
  have hbad : (data'.length < 26 ∨ data'.head? ≠ some FRAME_TYPE_CHUNK) ↔
      (data.length < 26 ∨ data.head? ≠ some FRAME_TYPE_CHUNK) := by
    rw [hlen, hhead]
  unfold parseChunkFrame
  by_cases h : data.length < 26 ∨ data.head? ≠ some FRAME_TYPE_CHUNK
  · rw [dif_pos h, dif_pos (hbad.mpr h)]
    exact .none
  · rw [dif_neg h, dif_neg (mt hbad.mp h)]
    exact .some ⟨FileId.ext (slice_of_take htake (by omega)),
      congrArg beNat (slice_of_take htake (by omega)), by simp only [hflag]⟩

/-- Two receivers are at the same chunk of the same file; only the keys of the
file may differ. -/
inductive CurrentAlike : Current → Current → Prop where
  | mk (id : JSString) (key key' : Bytes) (i : Nat) : CurrentAlike ⟨id, key, i⟩ ⟨id, key', i⟩

/-- Two running steps of the same kind about the same file and chunk, over
whatever keys, ciphertexts and plaintexts. -/
inductive TaskAlike : Task → Task → Prop where
  | metaKey (id : JSString) (c c' : Option JSString)
      (hlen : c'.map List.length = c.map List.length) : TaskAlike (.metaKey id c) (.metaKey id c')
  | metaDecrypt (id : JSString) (key key' c c' : Bytes) :
      TaskAlike (.metaDecrypt id key c) (.metaDecrypt id key' c')
  | metaStart (id : JSString) (key key' c c' : Bytes) :
      TaskAlike (.metaStart id key c) (.metaStart id key' c')
  | chunkDecrypt (key key' : Bytes) (f f' : ChunkFrame) (hf : FrameAlike f f') :
      TaskAlike (.chunkDecrypt key f) (.chunkDecrypt key' f')
  | chunkWrite (key key' : Bytes) (f f' : ChunkFrame) (i : Nat) (p p' : Bytes)
      (hf : FrameAlike f f') : TaskAlike (.chunkWrite key f i p) (.chunkWrite key' f' i p')

/-- Two receivers that differ only in keys and content: same file and place, same
shape of the queue, same step running. -/
structure ReceiverAlike (s s' : Receiver.State) : Prop where
  current : Option.Rel CurrentAlike s.current s'.current
  chain : s'.chain.map Message.shape = s.chain.map Message.shape
  running : Option.Rel TaskAlike s.running s'.running
  attached : s'.attached = s.attached
  socketClosed : s'.socketClosed = s.socketClosed

theorem ReceiverAlike.init : ReceiverAlike Receiver.init Receiver.init :=
  ⟨.none, rfl, .none, rfl, rfl⟩

/-- Two outcomes of a step of the receiver. -/
def ReactAlike (r r' : Receiver.State × List Action) : Prop :=
  ReceiverAlike r.1 r'.1 ∧ (sends r'.2).map Message.shape = (sends r.2).map Message.shape

variable {t t' : Receiver.State}

theorem ReceiverAlike.message (h : ReceiverAlike t t') {m m' : Message} (hm : m'.shape = m.shape) :
    ReceiverAlike (Receiver.onMessage t m) (Receiver.onMessage t' m') := by
  have queued : ReceiverAlike { t with chain := t.chain ++ [m] } { t' with chain := t'.chain ++ [m'] } :=
    ⟨h.current, by simp [h.chain, hm], h.running, h.attached, h.socketClosed⟩
  cases alike_of_shape hm with
  | fileMeta | binary => exact queued
  | text env => cases env <;> first | exact queued | exact h

theorem ReceiverAlike.start (h : ReceiverAlike t t') {m m' : Message} (hm : m'.shape = m.shape) :
    ReactAlike (Receiver.startStep t m) (Receiver.startStep t' m') := by
  have hcur := h.current
  cases alike_of_shape hm with
  | fileMeta id c c' hlen =>
      cases id with
      | none => exact ⟨h, rfl⟩
      | some id =>
          exact ⟨⟨h.current, h.chain, .some (.metaKey id c c' hlen), h.attached, h.socketClosed⟩, rfl⟩
  | text env =>
      cases env with
      | fileMeta payload =>
          cases payload with
          | none => exact ⟨h, rfl⟩
          | some p =>
              obtain ⟨id, c⟩ := p
              cases id with
              | none => exact ⟨h, rfl⟩
              | some id =>
                  exact ⟨⟨h.current, h.chain, .some (.metaKey id c c rfl), h.attached,
                    h.socketClosed⟩, rfl⟩
      | chunkAck | other => exact ⟨h, rfl⟩
      | fileAbort payload =>
          simp only [Receiver.startStep, Receiver.handleFileAbort]
          generalize ht : t.current = cur, ht' : t'.current = cur' at hcur
          cases hcur with
          | none => exact ⟨h, rfl⟩
          | some hc =>
              cases hc
              cases payload with
              | none => exact ⟨h, rfl⟩
              | some p =>
                  dsimp only
                  split
                  · exact ⟨h, rfl⟩
                  · exact ⟨⟨.none, h.chain, h.running, h.attached, h.socketClosed⟩, rfl⟩
  | binary data data' htake hlen =>
      have hparse := parseChunkFrame_alike htake hlen
      simp only [Receiver.startStep, Receiver.handleChunkFrame]
      generalize parseChunkFrame data = f, parseChunkFrame data' = f' at hparse
      cases hparse with
      | none => exact ⟨h, rfl⟩
      | some hf =>
          generalize ht : t.current = cur, ht' : t'.current = cur' at hcur
          cases hcur with
          | none => exact ⟨h, rfl⟩
          | some hc =>
              cases hc
              dsimp only
              rw [hf.fileId, hf.index]
              split
              · exact ⟨h, rfl⟩
              · exact ⟨⟨.some (.mk _ _ _ _), h.chain, .some (.chunkDecrypt _ _ _ _ hf), h.attached,
                  h.socketClosed⟩, rfl⟩

/-- What the running step awaits can succeed: an honest sender made it. -/
def Opening (a : ReceiverArgs) : Task → Prop
  | .metaDecrypt fileIdHex fileKey ciphertext =>
      ∃ plaintext info, decryptChunk a.w fileKey (fromHex fileIdHex) METADATA_CHUNK_INDEX true
        ciphertext = .ok plaintext ∧ a.codec.decode plaintext = some info
  | .chunkDecrypt fileKey frame =>
      ∃ plaintext, decryptChunk a.w fileKey frame.fileId.bytes frame.index frame.isLast
        frame.ciphertext = .ok plaintext
  | .metaKey _ _ | .metaStart _ _ _ | .chunkWrite _ _ _ _ => True

/-- The step gives up. -/
theorem ReceiverAlike.fails (h : ReceiverAlike t t') (e : String) :
    ReactAlike ({ t with running := none }, [.onError e]) ({ t' with running := none }, [.onError e]) :=
  ⟨⟨h.current, h.chain, .none, h.attached, h.socketClosed⟩, rfl⟩

theorem ReceiverAlike.runs (h : ReceiverAlike t t') {task task' : Task}
    (htask : TaskAlike task task') {out out' : List Action} (hout : sends out = [])
    (hout' : sends out' = []) :
    ReactAlike ({ t with running := some task }, out) ({ t' with running := some task' }, out') :=
  ⟨⟨h.current, h.chain, .some htask, h.attached, h.socketClosed⟩, by simp [hout, hout']⟩

theorem ReceiverAlike.resume {b b' : ReceiverArgs} (hkey : SameLength b.epochKey b'.epochKey)
    (h : ReceiverAlike t t') {task task' : Task} (htask : TaskAlike task task')
    (hopen : Opening b task) (hopen' : Opening b' task') (err : Option String) :
    ReactAlike (Receiver.resumeStep b t task err) (Receiver.resumeStep b' t' task' err) := by
  have hcur := h.current
  cases htask with
  | metaKey id c c' hlen =>
      have hderived := (deriveFileKey_matched b.w b'.w hkey (fromHex id)).settle err
      simp only [Receiver.resumeStep, Receiver.onMetaKey]
      generalize settle err (deriveFileKey b.w b.epochKey (fromHex id)) = r,
        settle err (deriveFileKey b'.w b'.epochKey (fromHex id)) = r' at hderived
      cases hderived with
      | error e => exact h.fails e
      | ok =>
          cases c <;> cases c' <;> first | cases hlen | skip
          · exact h.fails _
          · exact h.runs (.metaDecrypt _ _ _ _ _) rfl rfl
  | metaDecrypt id key key' c c' =>
      obtain ⟨plaintext, info, hdecrypt, hinfo⟩ := hopen
      obtain ⟨plaintext', info', hdecrypt', hinfo'⟩ := hopen'
      simp only [Receiver.resumeStep, Receiver.onMetaDecrypt, hdecrypt, hdecrypt']
      cases err with
      | some e => exact h.fails e
      | none =>
          simp only [settle, hinfo, hinfo']
          exact ⟨⟨.some (.mk _ _ _ _), h.chain, .some (.metaStart _ _ _ _ _), h.attached,
            h.socketClosed⟩, rfl⟩
  | metaStart =>
      cases err with
      | some e => exact h.fails e
      | none => exact ⟨⟨h.current, h.chain, .none, h.attached, h.socketClosed⟩, rfl⟩
  | chunkDecrypt key key' f f' hf =>
      obtain ⟨plaintext, hdecrypt⟩ := hopen
      obtain ⟨plaintext', hdecrypt'⟩ := hopen'
      simp only [Receiver.resumeStep, Receiver.onChunkDecrypt, hdecrypt, hdecrypt']
      cases err with
      | some e => exact h.fails e
      | none =>
          simp only [settle]
          generalize ht : t.current = cur, ht' : t'.current = cur' at hcur
          cases hcur with
          | none => exact ⟨⟨.none, h.chain, .none, h.attached, h.socketClosed⟩, rfl⟩
          | some hc =>
              cases hc
              exact ⟨⟨.some (.mk _ _ _ _), h.chain, .some (.chunkWrite _ _ _ _ _ _ _ hf),
                h.attached, h.socketClosed⟩, rfl⟩
  | chunkWrite key key' f f' i p p' hf =>
      simp only [Receiver.resumeStep, Receiver.onChunkWrite, hf.fileId, hf.isLast]
      cases err with
      | some e => exact h.fails e
      | none =>
          -- the acknowledgement goes out whether or not the file is still in hand
          have hput : sends (t'.put (chunkAckMessage (toHex f.fileId.bytes) i)) =
              sends (t.put (chunkAckMessage (toHex f.fileId.bytes) i)) := by
            rw [sends_put, sends_put, h.socketClosed]
          dsimp only
          generalize ht : t.current = cur, ht' : t'.current = cur' at hcur
          cases hcur with
          | none =>
              refine ⟨⟨.none, h.chain, .none, h.attached, h.socketClosed⟩, ?_⟩
              dsimp only
              rw [sends_append, sends_append]
              change (sends (t'.put _) ++ _).map _ = (sends (t.put _) ++ _).map _
              rw [hput]
          | some hc =>
              cases hc
              dsimp only
              split
              · refine ⟨⟨.none, h.chain, .none, h.attached, h.socketClosed⟩, ?_⟩
                dsimp only
                rw [sends_append, sends_append]
                change (sends (t'.put _) ++ _).map _ = (sends (t.put _) ++ _).map _
                rw [hput]
              · refine ⟨⟨.some (.mk _ _ _ _), h.chain, .none, h.attached, h.socketClosed⟩, ?_⟩
                change (sends (t'.put _)).map _ = (sends (t.put _)).map _
                rw [hput]

theorem ReceiverAlike.step {b b' : ReceiverArgs} (hkey : SameLength b.epochKey b'.epochKey)
    (h : ReceiverAlike t t') (hopen : ∀ task, t.running = some task → Opening b task)
    (hopen' : ∀ task, t'.running = some task → Opening b' task) {e : Receiver.Event}
    (he : ∀ m, e ≠ .message m) :
    Option.Rel ReactAlike (Receiver.step b t e) (Receiver.step b' t' e) := by
  have hcur := h.current
  cases e with
  | message m => exact absurd rfl (he m)
  | start =>
      have hrun := h.running
      have hchain := h.chain
      simp only [Receiver.step]
      generalize hr : t.running = run, hr' : t'.running = run' at hrun
      cases hrun with
      | some => exact .none
      | none =>
          cases hc : t.chain with
          | nil =>
              rw [hc] at hchain
              rw [List.map_eq_nil_iff.mp hchain]
              exact .none
          | cons m rest =>
              rw [hc] at hchain
              obtain ⟨m', rest', hc', hm, hrest⟩ := heads_of_shapes hchain
              rw [hc']
              have hnext : ReceiverAlike { t with chain := rest, running := none }
                  { t' with chain := rest', running := none } :=
                ⟨hcur, hrest, .none, h.attached, h.socketClosed⟩
              exact .some (hnext.start hm)
  | resume err =>
      have hrun := h.running
      simp only [Receiver.step]
      generalize hr : t.running = run, hr' : t'.running = run' at hrun
      cases hrun with
      | none => exact .none
      | some htask => exact .some (h.resume hkey htask (hopen _ hr) (hopen' _ hr') err)
  | close =>
      simp only [Receiver.step, h.socketClosed, h.attached]
      split
      · exact .none
      · split
        · simp only [Receiver.onClose]
          generalize ht : t.current = cur, ht' : t'.current = cur' at hcur
          cases hcur with
          | none => exact .some ⟨⟨.none, h.chain, h.running, rfl, rfl⟩, rfl⟩
          | some => exact .some ⟨⟨.none, h.chain, h.running, rfl, rfl⟩, rfl⟩
        · exact .some ⟨⟨h.current, h.chain, h.running, rfl, rfl⟩, rfl⟩
  | abortCurrent =>
      refine .some ?_
      simp only [Receiver.abortCurrent]
      generalize ht : t.current = cur, ht' : t'.current = cur' at hcur
      cases hcur with
      | none => exact ⟨h, rfl⟩
      | some hc =>
          cases hc
          refine ⟨⟨.none, h.chain, h.running, h.attached, h.socketClosed⟩, ?_⟩
          dsimp only
          rw [sends_append, sends_append, sends_put, sends_put, h.socketClosed]
  | detach => exact .some ⟨⟨h.current, h.chain, h.running, rfl, h.socketClosed⟩, rfl⟩

end Quicksend.Delivery
