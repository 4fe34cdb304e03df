import Quicksend.Server.Hub
import Quicksend.Receiver.Integrity
import Quicksend.Lib.Utf16

/-!
# One frame format, three readers

A chunk frame is built in `transfer.js`, parsed there on the other side, and
read a third time by the relay, which names the file of a frame to both ends in
a text of its own. The three agree on every byte string, and the relay's name
for a file is the browser's.
-/

namespace Quicksend

/-! ## The bytes of a frame -/

/-- A frame that was accepted is its header, field by field, and the ciphertext. -/
theorem buildChunkFrame_parseChunkFrame {buffer : Bytes} {frame : ChunkFrame}
    (h : parseChunkFrame buffer = some frame) (hflag : buffer.getD 1 0 = 0 ∨ buffer.getD 1 0 = 1) :
    buildChunkFrame frame.fileId frame.index frame.isLast frame.ciphertext = buffer := by
  rw [parseChunkFrame] at h
  split at h
  next => cases h
  next hgood =>
    obtain rfl := Option.some.inj h
    rw [not_or, not_lt, not_not] at hgood
    obtain ⟨hlen, htype⟩ := hgood
    rcases buffer with _ | ⟨type, _ | ⟨flag, rest⟩⟩
    case nil => simp at hlen
    case cons.nil => simp at hlen
    case cons.cons =>
        obtain rfl : type = FRAME_TYPE_CHUNK := Option.some.inj htype
        have hlast : (if decide (flag.toNat % 2 = 1) = true then (1 : UInt8) else 0) = flag := by
          obtain rfl | rfl : flag = 0 ∨ flag = 1 := hflag <;> decide
        have hindex : beBytes 8 (beNat ((rest.drop 16).take 8)) = (rest.drop 16).take 8 := by
          have hlen8 : ((rest.drop 16).take 8).length = 8 := by
            simp only [List.length_take, List.length_drop, List.length_cons] at hlen ⊢
            omega
          have hback := beBytes_beNat ((rest.drop 16).take 8)
          rwa [hlen8] at hback
        have hrest : rest.take 16 ++ (rest.drop 16).take 8 ++ rest.drop 24 = rest := by
          rw [← List.take_add, List.take_append_drop]
        simp only [buildChunkFrame, List.drop_succ_cons, List.drop_zero, List.getD_cons_succ,
          List.getD_cons_zero, hlast, hindex, hrest]

namespace Server

/-- The relay reads of a frame what the receiver reads of it. -/
theorem chunkHeader_eq (frame : Bytes) :
    Session.chunkHeader frame = (parseChunkFrame frame).map fun f => (f.fileId, f.isLast) := by
  by_cases h : frame.length < 26 ∨ frame.head? ≠ some FRAME_TYPE_CHUNK
  · rw [parseChunkFrame, dif_pos h]
    exact dif_pos h
  · rw [parseChunkFrame, dif_neg h]
    exact dif_neg h

theorem recordChunkBytes_fileID (s : Session) (frame : Bytes) (maxSize : Int) :
    (s.recordChunkBytes frame maxSize).2.1 = (parseChunkFrame frame).map (·.fileId) := by
  have hheader := chunkHeader_eq frame
  cases hparse : parseChunkFrame frame with
  | none =>
      rw [hparse] at hheader
      rw [Session.recordChunkBytes, hheader]
      rfl
  | some f =>
      rw [hparse] at hheader
      exact s.recordChunkBytes_chunk hheader maxSize

/-! ## The name of a file -/

/-- The sixteen digits of Go's `hex.go`, in lower case and in their order. -/
def hextable : List Char := "0123456789abcdef".toList

/-- `hex.EncodeToString`: two digits of the table for each byte, the high one
first. -/
def encodeToString (src : Bytes) : List Char :=
  src.flatMap fun v => [hextable.getD (v >>> 4 : UInt8).toNat '0', hextable.getD (v &&& 0x0f : UInt8).toNat '0']

set_option maxRecDepth 4000 in
theorem encodeByte_hex (v : UInt8) :
    Utf16.encode [hextable.getD (v >>> 4 : UInt8).toNat '0',
      hextable.getD (v &&& 0x0f : UInt8).toNat '0'] = padStart2 (toString16 v) := by
  have h : ∀ n : Fin 256, Utf16.encode [hextable.getD (UInt8.ofNat n >>> 4 : UInt8).toNat '0',
      hextable.getD (UInt8.ofNat n &&& 0x0f : UInt8).toNat '0'] =
        padStart2 (toString16 (UInt8.ofNat n)) := by
    decide +kernel
  have hv := h ⟨v.toNat, v.toNat_lt⟩
  rwa [show UInt8.ofNat ((⟨v.toNat, v.toNat_lt⟩ : Fin 256) : Nat) = v from UInt8.ofNat_toNat] at hv

/-- The relay and the browser write the same digits. -/
theorem encode_encodeToString (src : Bytes) : Utf16.encode (encodeToString src) = toHex src := by
  induction src with
  | nil => rfl
  | cons v src ih =>
      have hcons : encodeToString (v :: src) = [hextable.getD (v >>> 4 : UInt8).toNat '0',
        hextable.getD (v &&& 0x0f : UInt8).toNat '0'] ++ encodeToString src := rfl
      rw [hcons, Utf16.encode, List.flatMap_append]
      exact congrArg₂ (· ++ ·) (encodeByte_hex v) ih

theorem encodeToString_eq_hex {id id' : FileId} :
    Utf16.encode (encodeToString id.bytes) = id'.hex ↔ id = id' := by
  rw [encode_encodeToString]
  exact ⟨FileId.hex_inj, fun h => congrArg FileId.hex h⟩

/-- What both ends read of the notice of `abortOversizedFile`: the file's id in
hexadecimal, and the reason. -/
def sizeLimitAbort (fileID : FileId) : Envelope :=
  .fileAbort (some ⟨some (Utf16.encode (encodeToString fileID.bytes)), some FileAbortReasonSizeLimit⟩)

end Server

/-! ## The notice at the sender -/

namespace SendFile

variable {a : SendArgs} {s : State}

/-- The notice for this call's file cancels the call. -/
theorem step_sizeLimitAbort_self (hs : WellFormed a s) (hl : s.listening = true)
    (ho : s.socketClosed = false) :
    ∃ r, step a s (.message (Server.sizeLimitAbort a.fileId)) = some r ∧
      r.1.aborted = some ⟨true, some FileAbortReasonSizeLimit⟩ := by
  have hid : Utf16.encode (Server.encodeToString a.fileId.bytes) = a.fileId.hex :=
    Server.encodeToString_eq_hex.mpr rfl
  have hs' : WellFormed a { s with aborted := some ⟨true, some FileAbortReasonSizeLimit⟩ } :=
    ⟨hs.index, hs.keyed⟩
  refine ⟨_, ?_, (wakeWaiters_woken hs').aborted_eq.1⟩
  simp only [step, ho, hl, Server.sizeLimitAbort, onMessage, hid, Bool.false_eq_true, if_false,
    if_true]

/-- The notice for another file changes nothing. -/
theorem step_sizeLimitAbort_other {fileID : FileId} (hother : fileID ≠ a.fileId)
    (ho : s.socketClosed = false) :
    step a s (.message (Server.sizeLimitAbort fileID)) = some (s, []) := by
  have hid : Utf16.encode (Server.encodeToString fileID.bytes) ≠ a.fileId.hex :=
    fun h => hother (Server.encodeToString_eq_hex.mp h)
  simp only [step, ho, Server.sizeLimitAbort, onMessage, Option.some.injEq, hid,
    Bool.false_eq_true, if_false, ite_self]

end SendFile

/-! ## The notice at the receiver -/

namespace Receiver

variable {a : ReceiverArgs}

/-- A name of a file as `sendFile` writes it. -/
def IsHex (name : JSString) : Prop := ∃ id : FileId, name = id.hex

/-- Every file that this message names, it names as `sendFile` does. -/
def Named : Message → Prop
  | .text (.fileMeta (some p)) => ∀ name, p.fileId = some name → IsHex name
  | _ => True

/-- The name of the file that a suspended `handleFileMeta` is about. -/
def Task.metaName : Task → Option JSString
  | .metaKey name _ | .metaDecrypt name _ _ | .metaStart name _ _ => some name
  | .chunkDecrypt _ _ | .chunkWrite _ _ _ _ => none

/-- Every name of a file that the receiver holds is as `sendFile` writes it. -/
structure HoldsHex (s : State) : Prop where
  chain : ∀ m ∈ s.chain, Named m
  running : ∀ task name, s.running = some task → task.metaName = some name → IsHex name
  current : ∀ c, s.current = some c → IsHex c.fileIdHex

theorem Steps.holdsHex {s t : State} {e : Event} {out : List Action} (h : Steps a s e t out)
    (he : ∀ m, e = .message m → Named m) (hs : HoldsHex s) : HoldsHex t := by
  cases h with
  | queued m =>
      refine ⟨fun m' hm' => ?_, hs.running, hs.current⟩
      rcases List.mem_append.mp hm' with hm' | hm'
      · exact hs.chain m' hm'
      · exact List.mem_singleton.mp hm' ▸ he m rfl
  | ignored | detached | closedIdle | abortedIdle => exact ⟨hs.chain, hs.running, hs.current⟩
  | metaBegun name ciphertext chain hrun hchain =>
      have hfirst := hs.chain (.text (.fileMeta (some ⟨some name, ciphertext⟩)))
        (by rw [hchain]; exact .head _)
      have hname : IsHex name := hfirst name rfl
      refine ⟨fun m hm => hs.chain m (by rw [hchain]; exact .tail _ hm), ?_, hs.current⟩
      rintro _ _ ⟨⟩ ⟨⟩
      exact hname
  | chunkBegun _ _ _ chain _ hchain =>
      refine ⟨fun m hm => hs.chain m (by rw [hchain]; exact .tail _ hm), ?_, hs.current⟩
      rintro _ _ ⟨⟩ ⟨⟩
  | peerAborted _ _ chain _ hchain =>
      exact ⟨fun m hm => hs.chain m (by rw [hchain]; exact .tail _ hm), hs.running, by simp⟩
  | dropped _ chain _ hchain | refused _ chain _ _ hchain =>
      exact ⟨fun m hm => hs.chain m (by rw [hchain]; exact .tail _ hm), hs.running, hs.current⟩
  | failed | metaDone | chunkOrphaned => exact ⟨hs.chain, by simp, hs.current⟩
  | metaKeyed name _ _ hrun =>
      refine ⟨hs.chain, ?_, hs.current⟩
      rintro _ _ ⟨⟩ ⟨⟩
      exact hs.running _ name hrun rfl
  | metaOpened name _ _ _ _ hrun =>
      have hname : IsHex name := hs.running _ name hrun rfl
      refine ⟨hs.chain, ?_, ?_⟩
      · rintro _ _ ⟨⟩ ⟨⟩
        exact hname
      · rintro _ ⟨⟩
        exact hname
  | chunkOpened =>
      refine ⟨hs.chain, ?_, hs.current⟩
      rintro _ _ ⟨⟩ ⟨⟩
  | chunkLast => exact ⟨hs.chain, by simp, by simp⟩
  | chunkMore _ _ _ _ c _ hcur =>
      refine ⟨hs.chain, by simp, ?_⟩
      rintro _ ⟨⟩
      exact hs.current c hcur
  | closed | aborted => exact ⟨hs.chain, hs.running, by simp⟩

theorem run_holdsHex {es : List Event} {x : State × List Action}
    (hnamed : ∀ m, .message m ∈ es → Named m)
    (hrun : Transition.run (observe a) (init, []) es = some x) : HoldsHex x.1 := by
  refine Transition.Guarded.invariant (I := fun y : State × List Action => HoldsHex y.1)
    (g := fun _ e => ∀ m, e = .message m → Named m) ?_
    (.of_labels (fun e he m hm => hnamed m (by rwa [hm] at he)) _)
    ⟨by simp [init], by simp [init], by simp [init]⟩ hrun
  rintro y e z hy hnamed hstep
  obtain ⟨r, hr, rfl⟩ := Option.map_eq_some_iff.mp hstep
  exact (step_spec hr).holdsHex hnamed hy

/-- The notice takes the current file when it is about it, and leaves any other. -/
theorem startStep_sizeLimitAbort {s : State} {c : Current} {id : FileId}
    (hcur : s.current = some c) (hc : c.fileIdHex = id.hex) (fileID : FileId) :
    startStep s (.text (Server.sizeLimitAbort fileID)) =
      if fileID = id then
        ({ s with current := none }, [.onAborted id.hex (some FileAbortReasonSizeLimit)])
      else (s, []) := by
  have hid : Utf16.encode (Server.encodeToString fileID.bytes) = id.hex ↔ fileID = id :=
    Server.encodeToString_eq_hex
  simp only [Server.sizeLimitAbort, startStep, handleFileAbort, hcur, hc, ne_eq, Option.some.injEq,
    hid]
  by_cases h : fileID = id
  · rw [if_pos h, if_neg (not_not.mpr h)]
  · rw [if_neg h, if_pos h]

end Receiver

/-! ## The three readers -/

/-- What `sendFile` sends, it names by the hex of its id. -/
theorem SendFile.Emits.named {a : SendArgs} {m : Message} (h : SendFile.Emits a m) :
    Receiver.Named m := by
  cases h with
  | fileMeta =>
      rintro _ ⟨⟩
      exact ⟨a.fileId, rfl⟩
  | chunk | fileAbort => trivial

/-- One format: what is built is parsed; the receiver and the relay accept the
same byte strings and read the same of them; a frame that was accepted is what
its fields build. One name: the relay's notice for a file goes out under the
browser's name for it, so that it cancels the call and takes the current file
that it is about, and never another. -/
structure OneFormat : Prop where
  built : ∀ fileId index isLast ciphertext, index < 2 ^ 53 →
    parseChunkFrame (buildChunkFrame fileId index isLast ciphertext) =
      some ⟨fileId, index, isLast, ciphertext⟩
  read : ∀ (s : Server.Session) (frame : Bytes) (maxSize : Int),
    (s.recordChunkBytes frame maxSize).2.1 = (parseChunkFrame frame).map (·.fileId) ∧
      Server.Session.chunkHeader frame =
        (parseChunkFrame frame).map fun f => (f.fileId, f.isLast)
  rebuilt : ∀ buffer frame, parseChunkFrame buffer = some frame →
    buffer.getD 1 0 = 0 ∨ buffer.getD 1 0 = 1 →
      buildChunkFrame frame.fileId frame.index frame.isLast frame.ciphertext = buffer
  written : ∀ (s : Server.Session) (fileID : FileId),
    Server.Hub.abortOversizedFile s fileID = [Role.host, Role.guest].filterMap fun role =>
      (s.connOf role).map fun conn => sendEnvelope conn
        (.fileAbort (Utf16.encode (Server.encodeToString fileID.bytes)) FileAbortReasonSizeLimit)
  sent : ∀ (a : SendArgs) (es : List SendFile.Event) (s : SendFile.State),
    Transition.run (SendFile.next a) SendFile.init es = some s →
      s.listening = true → s.socketClosed = false → ∀ fileID : FileId,
        ∃ r, SendFile.step a s (.message (Server.sizeLimitAbort fileID)) = some r ∧
          if fileID = a.fileId then r.1.aborted = some ⟨true, some FileAbortReasonSizeLimit⟩
          else r = (s, [])
  received : ∀ (a : ReceiverArgs) (es : List Receiver.Event) (s : Receiver.State) log,
    (∀ m, .message m ∈ es → Receiver.Named m) →
      Transition.run (Receiver.observe a) (Receiver.init, []) es = some (s, log) →
        ∀ c, s.current = some c → ∃ id : FileId, c.fileIdHex = id.hex ∧
          ∀ fileID, Receiver.startStep s (.text (Server.sizeLimitAbort fileID)) =
            if fileID = id then
              ({ s with current := none }, [.onAborted id.hex (some FileAbortReasonSizeLimit)])
            else (s, [])

theorem one_format : OneFormat where
  built _ _ isLast ciphertext h :=
    parseChunkFrame_buildChunkFrame (h.trans (by decide)) isLast ciphertext
  read s frame maxSize := ⟨Server.recordChunkBytes_fileID s frame maxSize, Server.chunkHeader_eq frame⟩
  rebuilt _ _ h hflag := buildChunkFrame_parseChunkFrame h hflag
  written s fileID := by
    rw [Server.encode_encodeToString]
    rfl
  sent a es s hrun hl ho fileID := by
    by_cases hid : fileID = a.fileId
    · obtain ⟨r, hr, hab⟩ := SendFile.step_sizeLimitAbort_self (SendFile.run_wellFormed hrun) hl ho
      exact ⟨r, hid ▸ hr, by rw [if_pos hid]; exact hab⟩
    · exact ⟨_, SendFile.step_sizeLimitAbort_other hid ho, by rw [if_neg hid]⟩
  received a es s log hnamed hrun c hcur := by
    obtain ⟨id, hid⟩ := (Receiver.run_holdsHex hnamed hrun).current c hcur
    exact ⟨id, hid, Receiver.startStep_sizeLimitAbort hcur hid⟩

/-! ## The notice for a one-byte file -/

/-- A receiver is handed the metadata of the file, and takes it. -/
def metaReceived : List Receiver.Event :=
  [.message SendFile.tinyMetaMessage, .start, .resume none, .resume none]

theorem metaReceived_named (m : Message) (h : .message m ∈ metaReceived) : Receiver.Named m := by
  simp only [metaReceived, List.mem_cons, Receiver.Event.message.injEq, reduceCtorEq,
    List.not_mem_nil, or_false] at h
  rw [h]
  have hsent : SendFile.Emits SendFile.tinyArgs SendFile.tinyMetaMessage :=
    .fileMeta _ ⟨.metadata, SendFile.tinyKey, by decide, rfl⟩
  exact hsent.named

/-- The notice for the file cancels the call that sends it and takes it from the
receiver; its frame is read as it was built, and built as it was read. -/
theorem one_format_tiny :
    parseChunkFrame (buildChunkFrame SendFile.tinyArgs.fileId 0 true [7]) =
      some ⟨SendFile.tinyArgs.fileId, 0, true, [7]⟩ ∧
    (∀ frame, parseChunkFrame (buildChunkFrame SendFile.tinyArgs.fileId 0 true [7]) = some frame →
      buildChunkFrame frame.fileId frame.index frame.isLast frame.ciphertext =
        buildChunkFrame SendFile.tinyArgs.fileId 0 true [7]) ∧
    (∃ s r, Transition.run (SendFile.next SendFile.tinyArgs) SendFile.init
        [.keyDerived none, .metaEncrypted none] = some s ∧
      SendFile.step SendFile.tinyArgs s
        (.message (Server.sizeLimitAbort SendFile.tinyArgs.fileId)) = some r ∧
      r.1.aborted = some ⟨true, some FileAbortReasonSizeLimit⟩) ∧
    ∃ s log, Transition.run (Receiver.observe Receiver.tinyReceiver) (Receiver.init, [])
        metaReceived = some (s, log) ∧
      Receiver.startStep s (.text (Server.sizeLimitAbort SendFile.tinyArgs.fileId)) =
        ({ s with current := none },
          [.onAborted SendFile.tinyArgs.fileId.hex (some FileAbortReasonSizeLimit)]) := by
  refine ⟨one_format.built _ 0 true [7] (by decide), fun frame hframe =>
    one_format.rebuilt _ frame hframe (.inr (by decide)), ?_, ?_⟩
  · have hrun : (Transition.run (SendFile.next SendFile.tinyArgs) SendFile.init
        [.keyDerived none, .metaEncrypted none]).any (fun s =>
          s.listening && !s.socketClosed) = true := by decide +kernel
    obtain ⟨s, hs, h⟩ := (Option.any_eq_true _ _).mp hrun
    rw [Bool.and_eq_true, Bool.not_eq_true'] at h
    obtain ⟨r, hr, hab⟩ := one_format.sent SendFile.tinyArgs _ s hs h.1 h.2 SendFile.tinyArgs.fileId
    rw [if_pos rfl] at hab
    exact ⟨s, r, hs, hr, hab⟩
  · have hrun : (Transition.run (Receiver.observe Receiver.tinyReceiver) (Receiver.init, [])
        metaReceived).any (fun x => decide
          (x.1.current.map (·.fileIdHex) = some SendFile.tinyArgs.fileId.hex)) = true := by
      decide +kernel
    obtain ⟨⟨s, log⟩, hs, h⟩ := (Option.any_eq_true _ _).mp hrun
    obtain ⟨c, hc, hname⟩ := Option.map_eq_some_iff.mp (of_decide_eq_true h)
    obtain ⟨id, hid, hnotice⟩ :=
      one_format.received Receiver.tinyReceiver metaReceived s log metaReceived_named hs c hc
    obtain rfl := FileId.hex_inj (hid.symm.trans hname)
    have htaken := hnotice SendFile.tinyArgs.fileId
    rw [if_pos rfl] at htaken
    exact ⟨s, log, hs, htaken⟩

end Quicksend
