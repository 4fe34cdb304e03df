import Quicksend.Delivery

/-!
# What is on its way to the receiver

The messages between sender and receiver, together with what the sender may
still send: its chunk frames come in order and once, its metadata comes
once. The rest of the development only uses how that future shrinks.
-/

namespace Quicksend.Delivery

open SendFile (Pc)

variable {a : SendArgs}

/-- The chunk index that a message carries in its header, if it is a frame with
one. -/
def frameIndex : Message → Option Nat
  | .binary buffer => (parseChunkFrame buffer).map ChunkFrame.index
  | .text _ => none

/-- A `file_meta`, of whatever file and with whatever content. -/
def isFileMeta : Message → Bool
  | .text (.fileMeta _) => true
  | _ => false

/-- A `file_abort` for this file, by whomever it was sent and for whatever reason. -/
def AbortOf (a : SendArgs) (m : Message) : Prop :=
  ∃ reason, m = .text (.fileAbort (some ⟨some a.fileId.hex, reason⟩))

/-- The call has yet to send its metadata. -/
def unsent : Pc → Bool
  | .derivingKey | .encryptingMeta => true
  | _ => false

/-- The call may still send chunk `i`, seen from where it stands now. -/
def Future : Pc → Nat → Prop
  | .derivingKey, _ | .encryptingMeta, _ => True
  | .windowWait j, i | .readingSlice j, i | .encryptingChunk j _, i => j ≤ i
  | .ackWait, _ | .settled _, _ => False

/-- Chunk frame `i` is on its way or may still be sent. -/
def FrameAhead (pc : Pc) (l : List Message) (i : Nat) : Prop :=
  i ∈ l.filterMap frameIndex ∨ Future pc i

/-- The metadata is on its way or has yet to be sent. -/
def MetaAhead (pc : Pc) (l : List Message) : Prop :=
  (∃ m ∈ l, isFileMeta m = true) ∨ unsent pc = true

/-- What is on its way comes from the call, or is an abort of its file; chunk
indices only grow, and the metadata comes once. -/
structure StreamOk (a : SendArgs) (pc : Pc) (l : List Message) : Prop where
  source : ∀ m ∈ l, SendFile.Emits a m ∨ AbortOf a m
  sorted : (l.filterMap frameIndex).Pairwise (· < ·)
  sent : ∀ i ∈ l.filterMap frameIndex, ∀ j, Future pc j → i < j
  metas : l.countP isFileMeta + (if unsent pc then 1 else 0) ≤ 1

theorem StreamOk.nil (a : SendArgs) (pc : Pc) : StreamOk a pc [] where
  source _ h := by cases h
  sorted := .nil
  sent _ h := by cases h
  metas := by cases unsent pc <;> simp

/-! ## Losing messages, and notices of the relay -/

theorem StreamOk.sublist {pc : Pc} {l l' : List Message} (h : StreamOk a pc l)
    (hl : l'.Sublist l) : StreamOk a pc l' where
  source m hm := h.source m (hl.subset hm)
  sorted := h.sorted.sublist (hl.filterMap _)
  sent i hi := h.sent i ((hl.filterMap _).subset hi)
  metas := by
    have := hl.countP_le (p := isFileMeta)
    have := h.metas
    omega

theorem FrameAhead.sublist {pc : Pc} {l l' : List Message} {i : Nat} (h : FrameAhead pc l' i)
    (hl : l'.Sublist l) : FrameAhead pc l i :=
  h.imp_left fun h => (hl.filterMap _).subset h

theorem MetaAhead.sublist {pc : Pc} {l l' : List Message} (h : MetaAhead pc l')
    (hl : l'.Sublist l) : MetaAhead pc l :=
  h.imp_left fun ⟨m, hm, hmeta⟩ => ⟨m, hl.subset hm, hmeta⟩

theorem AbortOf.frameIndex {m : Message} (h : AbortOf a m) : frameIndex m = none := by
  obtain ⟨reason, rfl⟩ := h
  rfl

theorem AbortOf.isFileMeta {m : Message} (h : AbortOf a m) : isFileMeta m = false := by
  obtain ⟨reason, rfl⟩ := h
  rfl

theorem StreamOk.insert_abort {pc : Pc} {l l' : List Message} {m : Message}
    (h : StreamOk a pc (l ++ l')) (hm : AbortOf a m) : StreamOk a pc (l ++ m :: l') where
  source m' hm' := by
    rcases List.mem_append.mp hm' with h' | h'
    · exact h.source m' (List.mem_append_left _ h')
    · rcases List.mem_cons.mp h' with rfl | h'
      · exact .inr hm
      · exact h.source m' (List.mem_append_right _ h')
  sorted := by simpa [hm.frameIndex] using h.sorted
  sent := by simpa [hm.frameIndex] using h.sent
  metas := by simpa [hm.isFileMeta] using h.metas

theorem FrameAhead.of_insert {pc : Pc} {l l' : List Message} {m : Message} {i : Nat}
    (hm : AbortOf a m) (h : FrameAhead pc (l ++ m :: l') i) : FrameAhead pc (l ++ l') i := by
  simpa [FrameAhead, hm.frameIndex] using h

theorem MetaAhead.of_insert {pc : Pc} {l l' : List Message} {m : Message}
    (hm : AbortOf a m) (h : MetaAhead pc (l ++ m :: l')) : MetaAhead pc (l ++ l') := by
  refine h.imp_left fun ⟨m', hmem, hmeta⟩ => ⟨m', ?_, hmeta⟩
  rcases List.mem_append.mp hmem with h' | h'
  · exact List.mem_append_left _ h'
  · rcases List.mem_cons.mp h' with rfl | h'
    · simp [hm.isFileMeta] at hmeta
    · exact List.mem_append_right _ h'

/-! ## The head of the stream -/

/-- A frame that is taken leaves only later ones. -/
theorem StreamOk.frame_lt {pc : Pc} {m : Message} {l : List Message} {i : Nat}
    (h : StreamOk a pc (m :: l)) (hm : frameIndex m = some i) {j : Nat} (hj : FrameAhead pc l j) :
    i < j := by
  have hsorted := h.sorted
  rw [List.filterMap_cons_some hm, List.pairwise_cons] at hsorted
  rcases hj with hj | hj
  · exact hsorted.1 j hj
  · exact h.sent i (by rw [List.filterMap_cons_some hm]; exact List.mem_cons_self) j hj

/-- Metadata that is taken was the last. -/
theorem StreamOk.not_metaAhead {pc : Pc} {m : Message} {l : List Message}
    (h : StreamOk a pc (m :: l)) (hm : isFileMeta m = true) : ¬ MetaAhead pc l := by
  have hmetas := h.metas
  rw [List.countP_cons, if_pos hm] at hmetas
  rintro (⟨m', hmem, hmeta⟩ | hun)
  · have := List.countP_pos_iff.mpr ⟨m', hmem, hmeta⟩
    omega
  · rw [if_pos hun] at hmetas
    omega

/-- A chunk frame as the receiver parses it. -/
def HonestFrame (a : SendArgs) (frame : ChunkFrame) : Prop :=
  frame.fileId = a.fileId ∧ frame.index < a.file.totalChunks ∧
    frame.isLast = decide (frame.index = a.file.totalChunks - 1) ∧
    SendFile.Encrypts a frame.index frame.isLast (a.file.chunk frame.index) frame.ciphertext

theorem StreamOk.binary {pc : Pc} {l : List Message} {buffer : Bytes} (h : StreamOk a pc l)
    (hm : .binary buffer ∈ l) : ∃ frame, parseChunkFrame buffer = some frame ∧ HonestFrame a frame := by
  rcases h.source _ hm with hm | ⟨reason, hm⟩
  · cases hm with
    | chunk i hi ciphertext henc =>
        have hlt : i < 2 ^ 64 := hi.trans (a.file.totalChunks_lt.trans METADATA_CHUNK_INDEX_lt)
        exact ⟨_, parseChunkFrame_buildChunkFrame hlt _ _, rfl, hi, rfl, henc⟩
  · cases hm

/-! ## What the sender's steps do to the stream -/

theorem lands_future {s t : SendFile.State} {i : Nat} {out : List Message}
    (h : SendFile.Lands a s i t out) :
    unsent t.pc = false ∧ ∀ j, Future t.pc j → i ≤ j ∧ i < a.file.totalChunks := by
  cases h with
  | window hi | reading hi => exact ⟨rfl, fun j hj => ⟨hj, hi⟩⟩
  | acks | resolved | aborted => exact ⟨rfl, fun j hj => hj.elim⟩

theorem woken_future {s t : SendFile.State} {out : List Message} (h : SendFile.Woken a s t out) :
    (unsent t.pc = true → unsent s.pc = true) ∧ ∀ j, Future t.pc j → Future s.pc j := by
  cases h with
  | asleep => exact ⟨id, fun _ h => h⟩
  | lost => exact ⟨fun h => (Bool.false_ne_true h).elim, fun _ h => h.elim⟩
  | window i hpc _ _ _ h =>
      obtain ⟨hun, hfut⟩ := lands_future h
      exact ⟨fun h => by simp [hun] at h, fun j hj => by rw [hpc]; exact (hfut j hj).1⟩
  | acks hpc _ _ _ h =>
      obtain ⟨hun, hfut⟩ := lands_future h
      exact ⟨fun h => by simp [hun] at h, fun j hj => absurd (hfut j hj).2 (lt_irrefl _)⟩

/-- How the stream `l` ahead of a call at `pc` may go on. -/
structure Continues (a : SendArgs) (pc : Pc) (l : List Message) (pc' : Pc) (l' : List Message) :
    Prop where
  stream : StreamOk a pc' l'
  frames : ∀ i, FrameAhead pc' l' i → FrameAhead pc l i
  metas : MetaAhead pc' l' → MetaAhead pc l

theorem abortOf_fileAbortMessage (a : SendArgs) : AbortOf a (fileAbortMessage a.fileId.hex) :=
  ⟨none, rfl⟩

/-- A step that sends at most its notice of a cancel. -/
theorem StreamOk.quiet {pc pc' : Pc} {l out : List Message} (h : StreamOk a pc l)
    (hout : ∀ m ∈ out, m = fileAbortMessage a.fileId.hex)
    (hun : unsent pc' = true → unsent pc = true) (hfut : ∀ j, Future pc' j → Future pc j) :
    Continues a pc l pc' (l ++ out) := by
  have hframes : out.filterMap frameIndex = [] := by
    rw [List.filterMap_eq_nil_iff]
    exact fun m hm => by rw [hout m hm]; rfl
  have hmetas : out.countP isFileMeta = 0 := by
    rw [List.countP_eq_zero]
    exact fun m hm => by rw [hout m hm]; simp [fileAbortMessage, isFileMeta]
  refine ⟨⟨fun m hm => ?_, ?_, fun i hi j hj => ?_, ?_⟩, fun i hi => ?_, fun hm => ?_⟩
  · rcases List.mem_append.mp hm with hm | hm
    · exact h.source m hm
    · exact .inr (hout m hm ▸ abortOf_fileAbortMessage a)
  · simpa [hframes] using h.sorted
  · exact h.sent i (by simpa [hframes] using hi) j (hfut j hj)
  · have := h.metas
    rw [List.countP_append, hmetas]
    cases hu : unsent pc' with
    | false => simp only [Bool.false_eq_true, if_false]; split at this <;> omega
    | true => rw [hun hu] at this; simpa using this
  · rcases hi with hi | hi
    · exact .inl (by simpa [hframes] using hi)
    · exact .inr (hfut i hi)
  · rcases hm with ⟨m, hm, hmeta⟩ | hm
    · rcases List.mem_append.mp hm with hm | hm
      · exact .inl ⟨m, hm, hmeta⟩
      · rw [hout m hm] at hmeta
        cases hmeta
    · exact .inr (hun hm)

theorem Continues.trans {pc pc' pc'' : Pc} {l l' l'' : List Message}
    (h : Continues a pc l pc' l') (h' : Continues a pc' l' pc'' l'') :
    Continues a pc l pc'' l'' :=
  ⟨h'.stream, fun i hi => h.frames i (h'.frames i hi), fun hm => h.metas (h'.metas hm)⟩

/-- The metadata goes out, and the loop is about to be entered. -/
theorem StreamOk.sendMeta {s : SendFile.State} {l : List Message} {ciphertext : Bytes}
    (h : StreamOk a .encryptingMeta l)
    (henc : SendFile.Encrypts a METADATA_CHUNK_INDEX true (a.codec.encode a.file.toMeta)
      ciphertext) :
    Continues a .encryptingMeta l (.windowWait 0)
      (l ++ s.put (fileMetaMessage a.fileId.hex (toHex ciphertext))) := by
  have hnone : l.filterMap frameIndex = [] :=
    List.eq_nil_iff_forall_not_mem.mpr fun i hi => Nat.not_lt_zero _ (h.sent i hi 0 trivial)
  have hcount : l.countP isFileMeta = 0 := by
    have := h.metas
    simp only [unsent, if_true] at this
    omega
  have hindex : frameIndex (fileMetaMessage a.fileId.hex (toHex ciphertext)) = none := rfl
  unfold SendFile.State.put
  split
  · rw [List.append_nil]
    exact ⟨⟨h.source, h.sorted, fun i hi j _ => h.sent i hi j trivial, by simp [hcount, unsent]⟩,
      fun _ _ => .inr trivial, fun _ => .inr rfl⟩
  · refine ⟨⟨fun m hm => ?_, ?_, fun i hi => ?_, ?_⟩, fun _ _ => .inr trivial, fun _ => .inr rfl⟩
    · rcases List.mem_append.mp hm with hm | hm
      · exact h.source m hm
      · exact .inl (List.mem_singleton.mp hm ▸ .fileMeta ciphertext henc)
    · simp [hnone, hindex]
    · simp [hnone, hindex] at hi
    · simp [hcount, unsent, isFileMeta, fileMetaMessage]

/-- The frame of chunk `i` goes out, and the loop goes on at `i + 1`. -/
theorem StreamOk.sendChunk {s : SendFile.State} {l : List Message} {i : Nat} {p ciphertext : Bytes}
    (h : StreamOk a (.encryptingChunk i p) l) (hi : i < a.file.totalChunks)
    (henc : SendFile.Encrypts a i (i = a.file.totalChunks - 1) (a.file.chunk i) ciphertext) :
    Continues a (.encryptingChunk i p) l (.windowWait (i + 1))
      (l ++ s.put (.binary (buildChunkFrame a.fileId i (i = a.file.totalChunks - 1) ciphertext))) := by
  have hun : l.countP isFileMeta ≤ 1 := by simpa [unsent] using h.metas
  unfold SendFile.State.put
  split
  · rw [List.append_nil]
    refine ⟨⟨h.source, h.sorted, fun k hk j hj => ?_, by simpa [unsent] using hun⟩, fun k hk => ?_,
      fun hm => by simpa [MetaAhead, unsent] using hm⟩
    · exact (h.sent k hk i (Nat.le_refl i)).trans hj
    · exact hk.imp_right fun hk => Nat.le_of_succ_le hk
  · have hlt : i < 2 ^ 64 := hi.trans (a.file.totalChunks_lt.trans METADATA_CHUNK_INDEX_lt)
    have hindex : frameIndex (.binary (buildChunkFrame a.fileId i
        (decide (i = a.file.totalChunks - 1)) ciphertext)) = some i := by
      rw [frameIndex, parseChunkFrame_buildChunkFrame hlt]
      rfl
    have hframes (m : Message) (hm : frameIndex m = some i) :
        (l ++ [m]).filterMap frameIndex = l.filterMap frameIndex ++ [i] := by simp [hm]
    refine ⟨⟨fun m hm => ?_, ?_, fun k hk j hj => ?_, ?_⟩, fun k hk => ?_, fun hm => ?_⟩
    · rcases List.mem_append.mp hm with hm | hm
      · exact h.source m hm
      · exact .inl (List.mem_singleton.mp hm ▸ .chunk i hi ciphertext henc)
    · rw [hframes _ hindex, List.pairwise_append]
      refine ⟨h.sorted, List.pairwise_singleton _ _, fun k hk j hj => ?_⟩
      rw [List.mem_singleton.mp hj]
      exact h.sent k hk i (Nat.le_refl i)
    · rw [hframes _ hindex, List.mem_append, List.mem_singleton] at hk
      rcases hk with hk | rfl
      · exact (h.sent k hk i (Nat.le_refl i)).trans hj
      · exact hj
    · simpa [unsent, isFileMeta] using hun
    · rcases hk with hk | hk
      · rw [hframes _ hindex, List.mem_append, List.mem_singleton] at hk
        exact hk.imp_right fun hk => Nat.le_of_eq hk.symm
      · exact .inr (Nat.le_of_succ_le hk)
    · simpa [MetaAhead, unsent, isFileMeta] using hm

/-- **The stream after a step of the sender.** -/
theorem StreamOk.sender {s t : SendFile.State} {e : SendFile.Event} {out l : List Message}
    (h : StreamOk a s.pc l) (hwf : SendFile.WellFormed a s) (hst : SendFile.Steps a s e t out) :
    Continues a s.pc l t.pc (l ++ out) := by
  cases hst with
  | keyDerived hpc key hk => exact h.quiet (by simp) (fun _ => by rw [hpc]; rfl) (by simp [hpc, Future])
  | keyFailed | metaFailed =>
      exact h.quiet (by simp) (fun hu => by cases hu) fun _ hj => hj.elim
  | metaSent hpc ciphertext hc _ _ hl =>
      have hk := hwf.keyed
      simp only [hpc, SendFile.State.isSettled, reduceCtorEq, Bool.false_eq_true, false_or] at hk
      obtain ⟨hun, hfut⟩ := lands_future hl
      rw [hpc] at h ⊢
      have hmeta := h.sendMeta (s := s) ⟨.metadata, _, hk, hc⟩
      rw [← List.append_assoc]
      exact hmeta.trans (hmeta.stream.quiet hl.out_eq (fun hu => by simp [hun] at hu)
        fun j _ => Nat.zero_le j)
  | sliceRead i hpc =>
      exact h.quiet (by simp) (fun hu => by cases hu) fun j hj => by rw [hpc]; exact hj
  | chunkSent i p hpc ciphertext hc _ _ hl =>
      obtain ⟨hi, rfl⟩ : i < a.file.totalChunks ∧ p = a.file.chunk i := by
        have hindex := hwf.index
        rwa [hpc] at hindex
      have hk := hwf.keyed_of_listening (by simp [SendFile.State.listening, hpc])
      obtain ⟨hun, hfut⟩ := lands_future hl
      rw [hpc] at h ⊢
      have hchunk := h.sendChunk (s := s) hi ⟨.chunk i hi, _, hk, hc⟩
      rw [← List.append_assoc]
      exact hchunk.trans (hchunk.stream.quiet hl.out_eq (fun hu => by simp [hun] at hu)
        fun j hj => (hfut j hj).1)
  | failed e msg hpc _ _ =>
      exact h.quiet (fun m hm => SendFile.throwErr_out hm) (fun hu => by cases hu)
        fun _ hj => hj.elim
  | heard e _ _ _ _ _ _ hw =>
      obtain ⟨hun, hfut⟩ := woken_future hw
      rw [SendFile.noted_pc] at hun hfut
      exact h.quiet hw.out_eq hun hfut
  | ignored | closedUnheard | abortUnheard => exact h.quiet (by simp) (fun hu => hu) fun _ hj => hj

end Quicksend.Delivery
