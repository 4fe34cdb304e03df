import Quicksend.Delivery.Stream

/-!
# How far the receiver has come

The invariant of the receiving side. It sees the sender only through the
frames that are ahead (`frames`) and whether the metadata is (`fileMeta`),
so whatever shrinks these two keeps it.
-/

namespace Quicksend.Delivery

open Receiver (Action Current Task)

variable {a : SendArgs} {frames frames' : Nat → Prop} {fileMeta fileMeta' : Prop}

/-- A report or a message sent: nothing about a file. -/
def isReport : Action → Bool
  | .onError _ | .send _ => true
  | _ => false

/-- The record holds no callback about a file that begins, goes on or completes. -/
def Quiet (log : List Action) : Prop := ∀ act ∈ log, isReport act = true

/-- The running step handles what the sender sent; while the metadata is
being opened, nothing else has happened. -/
def TaskFrom (a : SendArgs) (fileMeta : Prop) (current : Option Current) (log : List Action) :
    Task → Prop
  | .metaKey fileIdHex _ | .metaDecrypt fileIdHex _ _ =>
      fileIdHex = a.fileId.hex ∧ ¬ fileMeta ∧ current = none ∧ Quiet log
  | .metaStart _ _ _ => True
  | .chunkDecrypt _ frame | .chunkWrite _ frame _ _ => HonestFrame a frame

/-- The `onChunk` calls made when chunk `k` is expected, against the frames
ahead: none is missing, or chunk `k` itself will not come again. -/
def Going (a : SendArgs) (frames : Nat → Prop) (calls : List (Nat × Bool × Bytes)) (k : Nat) :
    Option Task → Prop
  | none | some (.metaStart _ _ _) =>
      calls = firstChunks a k ∧ (∀ i, frames i → k ≤ i) ∨ ∀ i, frames i → k < i
  | some (.chunkDecrypt _ _) => calls = firstChunks a k ∧ ∀ i, frames i → k < i
  | some (.chunkWrite _ _ _ _) => calls = firstChunks a (k + 1) ∧ ∀ i, frames i → k < i
  | some (.metaKey _ _) | some (.metaDecrypt _ _ _) => False

/-- The file is being received, and `c.expectedIndex` chunks of it have resolved. -/
structure Receiving (a : SendArgs) (frames : Nat → Prop) (fileMeta : Prop) (running : Option Task)
    (log : List Action) (c : Current) : Prop where
  file : c.fileIdHex = a.fileId.hex
  taken : ¬ fileMeta
  inRange : c.expectedIndex < a.file.totalChunks
  resolved : chunksResolved a.fileId.hex log = firstChunks a c.expectedIndex
  notAborted : ∀ reason, .onAborted a.fileId.hex reason ∉ log
  going : Going a frames (chunkCalls a.fileId.hex log) c.expectedIndex running

/-- How far the receiver is with the file, against what can still arrive: its
metadata, or the frames that `frames` allows. -/
structure Progress (a : SendArgs) (frames : Nat → Prop) (fileMeta : Prop) (s : Receiver.State)
    (log : List Action) : Prop where
  coherent : Receiver.Coherent a.receiver s
  fresh : fileMeta → s.current = none ∧ s.running = none ∧ Quiet log
  task : ∀ task, s.running = some task → TaskFrom a fileMeta s.current log task
  receiving : ∀ c, s.current = some c → Receiving a frames fileMeta s.running log c

theorem Progress.init (frames : Nat → Prop) (fileMeta : Prop) :
    Progress a frames fileMeta Receiver.init [] where
  coherent := .init a.receiver
  fresh _ := ⟨rfl, rfl, fun _ h => by cases h⟩
  task _ h := by cases h
  receiving _ h := by cases h

theorem TaskFrom.mono {current : Option Current} {log : List Action} {task : Task}
    (h : TaskFrom a fileMeta current log task) (hm : fileMeta' → fileMeta) :
    TaskFrom a fileMeta' current log task := by
  cases task with
  | metaKey | metaDecrypt => exact ⟨h.1, fun h' => h.2.1 (hm h'), h.2.2⟩
  | metaStart => trivial
  | chunkDecrypt | chunkWrite => exact h

theorem Going.mono {calls : List (Nat × Bool × Bytes)} {k : Nat} {running : Option Task}
    (h : Going a frames calls k running) (hf : ∀ i, frames' i → frames i) :
    Going a frames' calls k running := by
  unfold Going at h ⊢
  split at h
  · exact h.imp (fun h => ⟨h.1, fun i hi => h.2 i (hf i hi)⟩) fun h i hi => h i (hf i hi)
  · exact h.imp (fun h => ⟨h.1, fun i hi => h.2 i (hf i hi)⟩) fun h i hi => h i (hf i hi)
  · exact ⟨h.1, fun i hi => h.2 i (hf i hi)⟩
  · exact ⟨h.1, fun i hi => h.2 i (hf i hi)⟩
  · exact h
  · exact h

theorem Receiving.mono {running : Option Task} {log : List Action} {c : Current}
    (h : Receiving a frames fileMeta running log c) (hf : ∀ i, frames' i → frames i)
    (hm : fileMeta' → fileMeta) : Receiving a frames' fileMeta' running log c where
  file := h.file
  taken h' := h.taken (hm h')
  inRange := h.inRange
  resolved := h.resolved
  notAborted := h.notAborted
  going := h.going.mono hf

/-- Less is ahead: the receiver has come as far as before. -/
theorem Progress.mono {s : Receiver.State} {log : List Action}
    (h : Progress a frames fileMeta s log) (hf : ∀ i, frames' i → frames i)
    (hm : fileMeta' → fileMeta) : Progress a frames' fileMeta' s log where
  coherent := h.coherent
  fresh hm' := h.fresh (hm hm')
  task task ht := (h.task task ht).mono hm
  receiving c hc := (h.receiving c hc).mono hf hm

/-! ## Reports in the log -/

theorem chunkCalls_append (id : JSString) (log out : List Action) :
    chunkCalls id (log ++ out) = chunkCalls id log ++ chunkCalls id out :=
  List.filterMap_append

theorem chunksResolved_append (id : JSString) (log out : List Action) :
    chunksResolved id (log ++ out) = chunksResolved id log ++ chunksResolved id out :=
  List.filterMap_append

theorem Quiet.chunkCalls {log : List Action} (h : Quiet log) (id : JSString) :
    chunkCalls id log = [] := by
  refine List.filterMap_eq_nil_iff.mpr fun act hact => ?_
  have := h act hact
  cases act <;> first | rfl | cases this

theorem Quiet.chunksResolved {log : List Action} (h : Quiet log) (id : JSString) :
    chunksResolved id log = [] := by
  refine List.filterMap_eq_nil_iff.mpr fun act hact => ?_
  have := h act hact
  cases act <;> first | rfl | cases this

theorem Quiet.not_mem {log : List Action} (h : Quiet log) {act : Action}
    (hact : isReport act = false) : act ∉ log := fun hmem => by
  simp [h act hmem] at hact

theorem Quiet.append {log out : List Action} (h : Quiet log) (hout : Quiet out) :
    Quiet (log ++ out) := fun act hact =>
  (List.mem_append.mp hact).elim (h act) (hout act)

theorem quiet_nil : Quiet [] := fun _ h => by cases h

theorem quiet_error (e : String) : Quiet [.onError e] := fun act h => by
  rw [List.mem_singleton.mp h]
  rfl

theorem quiet_put (s : Receiver.State) (m : Message) : Quiet (s.put m) := fun act h => by
  unfold Receiver.State.put at h
  split at h
  · cases h
  · rw [List.mem_singleton.mp h]
    rfl

/-- What the end of a chunk's write adds to the log, besides reports. -/
theorem chunksResolved_write (id : JSString) (i : Nat) (isLast : Bool) (p : Bytes)
    {out : List Action} (hout : Quiet out) :
    chunksResolved id (.chunkResolved id i isLast p :: out) = [(i, isLast, p)] := by
  have := hout.chunksResolved id
  simp only [Delivery.chunksResolved, List.filterMap_cons, if_true] at this ⊢
  rw [this]

theorem chunkCalls_write (id id' : JSString) (i : Nat) (isLast : Bool) (p : Bytes)
    {out : List Action} (hout : Quiet out) :
    chunkCalls id (.chunkResolved id' i isLast p :: out) = [] :=
  hout.chunkCalls id

theorem Receiving.report {running : Option Task} {log out : List Action} {c : Current}
    (h : Receiving a frames fileMeta running log c) (hout : Quiet out) :
    Receiving a frames fileMeta running (log ++ out) c where
  file := h.file
  taken := h.taken
  inRange := h.inRange
  resolved := by rw [chunksResolved_append, hout.chunksResolved, List.append_nil, h.resolved]
  notAborted reason hmem := (List.mem_append.mp hmem).elim (h.notAborted reason) (hout.not_mem rfl)
  going := by rw [chunkCalls_append, hout.chunkCalls, List.append_nil]; exact h.going

theorem TaskFrom.report {current : Option Current} {log out : List Action} {task : Task}
    (h : TaskFrom a fileMeta current log task) (hout : Quiet out) :
    TaskFrom a fileMeta current (log ++ out) task := by
  cases task with
  | metaKey | metaDecrypt => exact ⟨h.1, h.2.1, h.2.2.1, h.2.2.2.append hout⟩
  | metaStart => trivial
  | chunkDecrypt | chunkWrite => exact h

/-- A step that only reports leaves the progress as it is. -/
theorem Progress.report {s t : Receiver.State} {log out : List Action}
    (h : Progress a frames fileMeta s log) (ht : Receiver.Coherent a.receiver t) (hout : Quiet out)
    (hcur : t.current = s.current) (hrun : t.running = s.running) :
    Progress a frames fileMeta t (log ++ out) where
  coherent := ht
  fresh hm := by
    rw [hcur, hrun]
    exact ⟨(h.fresh hm).1, (h.fresh hm).2.1, (h.fresh hm).2.2.append hout⟩
  task task htask := by
    rw [hrun] at htask
    rw [hcur]
    exact (h.task task htask).report hout
  receiving c hc := by
    rw [hcur] at hc
    rw [hrun]
    exact (h.receiving c hc).report hout

/-! ## The steps of the receiver -/

theorem Progress.taken_of_running {s : Receiver.State} {log : List Action} {task : Task}
    (h : Progress a frames fileMeta s log) (hrun : s.running = some task) : ¬ fileMeta := fun hm => by
  simp [(h.fresh hm).2.1] at hrun

/-- The file is no longer in hand. -/
theorem Progress.abandon {t : Receiver.State} {log : List Action}
    (ht : Receiver.Coherent a.receiver t) (htaken : ¬ fileMeta) (hcur : t.current = none)
    (htask : ∀ task, t.running = some task → TaskFrom a fileMeta none log task) :
    Progress a frames fileMeta t log where
  coherent := ht
  fresh hm := absurd hm htaken
  task task htask' := by rw [hcur]; exact htask task htask'
  receiving c hc := by simp [hcur] at hc

/-- A chunk's step is about the sender's chunk, and there was no other step
of the file when `current` went away. -/
theorem TaskFrom.of_current {log log' : List Action} {c : Current} {task : Task}
    (h : TaskFrom a fileMeta (some c) log task) : TaskFrom a fileMeta none log' task := by
  cases task with
  | metaKey | metaDecrypt => exact absurd h.2.2.1 (by simp)
  | metaStart => trivial
  | chunkDecrypt | chunkWrite => exact h

/-- A step that fails leaves the file where it is, its chunk never to come again. -/
theorem Going.failed {calls : List (Nat × Bool × Bytes)} {k : Nat} {task : Task}
    (h : Going a frames calls k (some task)) : Going a frames calls k none := by
  cases task with
  | metaKey | metaDecrypt => exact h.elim
  | metaStart => exact h
  | chunkDecrypt | chunkWrite => exact .inr h.2

theorem firstChunks_succ (a : SendArgs) (k : Nat) :
    firstChunks a (k + 1) = firstChunks a k ++ [(k, decide (k = a.file.totalChunks - 1), a.file.chunk k)] := by
  rw [firstChunks, List.range_succ, List.map_append]
  rfl

/-- An honest frame opens to its chunk. -/
theorem honest_plaintext {key plaintext : Bytes} {frame : ChunkFrame} (hf : HonestFrame a frame)
    (hkey : deriveFileKey a.w a.epochKey frame.fileId.bytes = .ok key)
    (hopens : decryptChunk a.w key frame.fileId.bytes frame.index frame.isLast frame.ciphertext
      = .ok plaintext) : plaintext = a.file.chunk frame.index := by
  obtain ⟨hid, -, -, -, key', hkey', henc⟩ := hf
  rw [hid] at hkey hopens
  obtain rfl := Except.ok.inj (hkey.symm.trans hkey')
  exact Except.ok.inj (hopens.symm.trans (decryptChunk_encryptChunk henc))

/-- What a chunk's step knows when its handler's promise settles. -/
theorem Progress.written {s : Receiver.State} {log : List Action} {key plaintext : Bytes}
    {frame : ChunkFrame} {index : Nat} {c : Current} (h : Progress a frames fileMeta s log)
    (hrun : s.running = some (.chunkWrite key frame index plaintext)) (hcur : s.current = some c) :
    frame.fileId = a.fileId ∧ index = c.expectedIndex ∧
      frame.isLast = decide (c.expectedIndex = a.file.totalChunks - 1) ∧
      plaintext = a.file.chunk c.expectedIndex := by
  obtain ⟨hkey, -, hopens, hindex, hat⟩ :
    Receiver.TaskOk a.receiver s.current (.chunkWrite key frame index plaintext) :=
      h.coherent.task _ hrun
  have hf : HonestFrame a frame := h.task _ hrun
  have hp := honest_plaintext hf hkey hopens
  rw [(hat c hcur).2.1]
  exact ⟨hf.1, hindex, hf.2.2.1, hp⟩

theorem Progress.step {s t : Receiver.State} {log out : List Action} {e : Receiver.Event}
    (h : Progress a frames fileMeta s log) (hst : Receiver.Steps a.receiver s e t out)
    (he : e ≠ .start) : Progress a frames fileMeta t (log ++ out) := by
  have ht := hst.coherent h.coherent
  cases hst with
  | metaBegun | chunkBegun | peerAborted | dropped | refused => exact absurd rfl he
  | queued | ignored | closedIdle | abortedIdle | detached => exact h.report ht quiet_nil rfl rfl
  | failed task err e hrun hfail =>
      -- the step in hand is lost: its frame will not come again
      refine ⟨ht, fun hm => absurd hm (h.taken_of_running hrun), by simp, fun c hc => ?_⟩
      have hrec := (h.receiving c hc).report (quiet_error e)
      rw [hrun] at hrec
      exact { hrec with going := hrec.going.failed }
  | metaKeyed fileIdHex ciphertext key hrun hkey =>
      obtain ⟨hid, hm, hcur, hq⟩ := h.task _ hrun
      refine ⟨ht, fun hm' => absurd hm' hm, fun task htask => ?_, fun c hc => ?_⟩
      · obtain rfl := Option.some.inj htask
        exact ⟨hid, hm, hcur, hq.append quiet_nil⟩
      · simp [hcur] at hc
  | metaOpened fileIdHex key ciphertext plaintext info hrun hopens hinfo =>
      obtain ⟨rfl, hm, hcur, hq⟩ := h.task _ hrun
      refine ⟨ht, fun hm' => absurd hm' hm, fun task htask => ?_, fun c hc => ?_⟩
      · obtain rfl := Option.some.inj htask
        trivial
      · obtain rfl := Option.some.inj hc
        -- the file begins at chunk 0, and nothing of it has been reported
        refine ⟨rfl, hm, a.file.totalChunks_pos, ?_, fun reason hmem => ?_, .inl ⟨?_, ?_⟩⟩
        · rw [chunksResolved_append, hq.chunksResolved]
          rfl
        · rcases List.mem_append.mp hmem with hmem | hmem
          · exact hq.not_mem rfl hmem
          · simp at hmem
        · rw [chunkCalls_append, hq.chunkCalls]
          rfl
        · exact fun i _ => Nat.zero_le i
  | metaDone fileIdHex key ciphertext hrun =>
      refine ⟨ht, fun hm => absurd hm (h.taken_of_running hrun), by simp, fun c hc => ?_⟩
      have hrec := (h.receiving c hc).report quiet_nil
      rw [hrun] at hrec
      exact { hrec with going := hrec.going.failed }
  | chunkOpened key frame c plaintext hrun hcur hopens =>
      have hf : HonestFrame a frame := h.task _ hrun
      obtain ⟨hkey, -, hat⟩ : Receiver.TaskOk a.receiver s.current (.chunkDecrypt key frame) :=
        h.coherent.task _ hrun
      have hp := honest_plaintext hf hkey hopens
      refine ⟨ht, fun hm => absurd hm (h.taken_of_running hrun), fun task htask => ?_,
        fun c' hc' => ?_⟩
      · obtain rfl := Option.some.inj htask
        exact hf
      · obtain rfl := Option.some.inj (hcur.symm.trans hc')
        have hrec := h.receiving c hcur
        have hgo := hrec.going
        rw [hrun] at hgo
        refine ⟨hrec.file, hrec.taken, hrec.inRange, ?_, fun reason hmem => ?_, ?_, hgo.2⟩
        · rw [chunksResolved_append, hrec.resolved]
          exact List.append_nil _
        · rcases List.mem_append.mp hmem with hmem | hmem
          · exact hrec.notAborted reason hmem
          · simp at hmem
        · -- `onChunk` is called here; `chunkResolved` comes when its promise does
          rw [chunkCalls_append, hgo.1, firstChunks_succ, hp, hf.2.2.1, hf.1, ← (hat c hcur).2.1]
          simp [chunkCalls, FileId.hex]
  | chunkOrphaned key frame index plaintext hrun hcur =>
      exact .abandon ht (h.taken_of_running hrun) hcur (by simp)
  | chunkLast key frame index plaintext c hrun hcur hlast =>
      exact .abandon ht (h.taken_of_running hrun) rfl (by simp)
  | chunkMore key frame index plaintext c hrun hcur hlast =>
      obtain ⟨hid, rfl, hlast', rfl⟩ := h.written hrun hcur
      refine ⟨ht, fun hm => absurd hm (h.taken_of_running hrun), by simp, fun c' hc' => ?_⟩
      obtain rfl := Option.some.inj hc'
      have hrec := h.receiving c hcur
      have hgo := hrec.going
      rw [hrun] at hgo
      -- the sender marks the last chunk and no other, so there is a next one
      have hmore : c.expectedIndex + 1 < a.file.totalChunks := by
        have := hrec.inRange
        rw [hlast] at hlast'
        have := of_decide_eq_false hlast'.symm
        omega
      refine ⟨hrec.file, hrec.taken, hmore, ?_, fun reason hmem => ?_, .inl ⟨?_, hgo.2⟩⟩
      · rw [chunksResolved_append, hrec.resolved]
        change _ = firstChunks a (c.expectedIndex + 1)
        rw [firstChunks_succ, ← hlast', hid]
        exact congrArg _ (chunksResolved_write _ _ _ _ (quiet_put s _))
      · rcases List.mem_append.mp hmem with hmem | hmem
        · exact hrec.notAborted reason hmem
        · rcases List.mem_cons.mp hmem with hmem | hmem
          · cases hmem
          · exact (quiet_put s _).not_mem rfl hmem
      · rw [chunkCalls_append, hgo.1, chunkCalls_write _ _ _ _ _ (quiet_put s _)]
        exact List.append_nil _
  | closed c hopen hatt hcur =>
      refine .abandon ht (h.receiving c hcur).taken rfl fun task htask => ?_
      exact (hcur ▸ h.task task htask).of_current
  | aborted c hcur =>
      refine .abandon ht (h.receiving c hcur).taken rfl fun task htask => ?_
      exact (hcur ▸ h.task task htask).of_current

/-- The last chunk's write ends: the file has been delivered. -/
theorem Progress.delivered {s : Receiver.State} {log : List Action} {key plaintext : Bytes}
    {frame : ChunkFrame} {index : Nat} {c : Current} (h : Progress a frames fileMeta s log)
    (hrun : s.running = some (.chunkWrite key frame index plaintext)) (hcur : s.current = some c)
    (hlast : frame.isLast = true) (m : Message) :
    Delivered a (log ++ (.chunkResolved (toHex frame.fileId.bytes) index frame.isLast plaintext
      :: s.put m ++ [.onFileComplete (toHex frame.fileId.bytes)])) := by
  obtain ⟨hid, rfl, hlast', rfl⟩ := h.written hrun hcur
  have hrec := h.receiving c hcur
  have hgo := hrec.going
  rw [hrun] at hgo
  have hn : c.expectedIndex + 1 = a.file.totalChunks := by
    have := a.file.totalChunks_pos
    rw [hlast] at hlast'
    have := of_decide_eq_true hlast'.symm
    omega
  have hresolved : chunksResolved a.fileId.hex (log ++ (.chunkResolved (toHex frame.fileId.bytes)
      c.expectedIndex frame.isLast (a.file.chunk c.expectedIndex) :: s.put m
      ++ [.onFileComplete (toHex frame.fileId.bytes)])) = firstChunks a a.file.totalChunks := by
    rw [chunksResolved_append, hrec.resolved, ← hn, firstChunks_succ, ← hlast', hid,
      chunksResolved_append]
    exact congrArg _ ((List.append_nil _).trans (chunksResolved_write _ _ _ _ (quiet_put s _)))
  have hcalls : chunkCalls a.fileId.hex (log ++ (.chunkResolved (toHex frame.fileId.bytes)
      c.expectedIndex frame.isLast (a.file.chunk c.expectedIndex) :: s.put m
      ++ [.onFileComplete (toHex frame.fileId.bytes)])) = firstChunks a a.file.totalChunks := by
    rw [chunkCalls_append, hgo.1, hn, chunkCalls_append, chunkCalls_write _ _ _ _ _ (quiet_put s _)]
    exact List.append_nil _
  refine ⟨hresolved.trans hcalls.symm, hcalls, ?_, ?_, fun reason hmem => ?_⟩
  · rw [hcalls, firstChunks, List.map_map]
    exact a.file.chunks_flatten
  · rw [hid]
    exact List.mem_append_right _ (List.mem_append_right _ (List.mem_singleton_self _))
  · rcases List.mem_append.mp hmem with hmem | hmem
    · exact hrec.notAborted reason hmem
    · rcases List.mem_append.mp hmem with hmem | hmem
      · rcases List.mem_cons.mp hmem with hmem | hmem
        · cases hmem
        · exact (quiet_put s m).not_mem rfl hmem
      · simp at hmem

/-! ## Taking the head of the stream -/

theorem Progress.start {pc : SendFile.Pc} {s t : Receiver.State} {l : List Message}
    {log out : List Action}
    (h : Progress a (FrameAhead pc (s.chain ++ l)) (MetaAhead pc (s.chain ++ l)) s log)
    (hl : StreamOk a pc (s.chain ++ l)) (hst : Receiver.Steps a.receiver s .start t out) :
    Progress a (FrameAhead pc (t.chain ++ l)) (MetaAhead pc (t.chain ++ l)) t (log ++ out) := by
  have ht := hst.coherent h.coherent
  have shrink (m : Message) (chain : List Message) (hchain : s.chain = m :: chain) :
      (chain ++ l).Sublist (s.chain ++ l) := by
    rw [hchain]
    exact List.sublist_cons_self m _
  cases hst with
  | metaBegun fileIdHex ciphertext chain hrun hchain =>
      have hmem : Message.text (.fileMeta (some ⟨some fileIdHex, ciphertext⟩)) ∈ s.chain ++ l := by
        rw [hchain]
        exact List.mem_cons_self
      obtain ⟨hcur, -, hq⟩ := h.fresh (.inl ⟨_, hmem, rfl⟩)
      rw [hchain] at hl
      -- the sender sends its metadata once
      have htaken : ¬ MetaAhead pc (chain ++ l) := hl.not_metaAhead rfl
      refine .abandon ht htaken hcur fun task htask => ?_
      obtain rfl := Option.some.inj htask
      refine ⟨?_, htaken, rfl, hq.append quiet_nil⟩
      rcases hl.source _ List.mem_cons_self with hm | ⟨reason, hm⟩
      · cases hm
        rfl
      · cases hm
  | chunkBegun buffer frame c chain hrun hchain hparse hcur hid hindex =>
      have hmem : Message.binary buffer ∈ s.chain ++ l := by
        rw [hchain]
        exact List.mem_cons_self
      obtain ⟨frame', hparse', hf⟩ := hl.binary hmem
      obtain rfl := Option.some.inj (hparse.symm.trans hparse')
      have hrec : Receiving a (FrameAhead pc (chain ++ l)) (MetaAhead pc (chain ++ l)) s.running log
          c := (h.receiving c hcur).mono (fun i hi => hi.sublist (shrink _ _ hchain))
        fun hm => hm.sublist (shrink _ _ hchain)
      have hidx : frameIndex (.binary buffer) = some frame.index := by simp [frameIndex, hparse]
      rw [hchain] at hl
      refine ⟨ht, fun hm => absurd hm hrec.taken, fun task htask => ?_, fun c' hc' => ?_⟩
      · obtain rfl := Option.some.inj htask
        exact hf
      · obtain rfl := Option.some.inj (hcur.symm.trans hc')
        -- the frame in hand is chunk `expectedIndex`, so it was still ahead
        have hhere : FrameAhead pc (s.chain ++ l) c.expectedIndex :=
          .inl (List.mem_filterMap.mpr ⟨_, hmem, hindex ▸ hidx⟩)
        have hgo := (h.receiving c hcur).going
        rw [hrun] at hgo
        have hcalls := (hgo.resolve_right fun h => absurd (h _ hhere) (lt_irrefl _)).1
        rw [List.append_nil]
        exact { hrec with
          going := ⟨hcalls, fun i hi => hindex ▸ hl.frame_lt hidx hi⟩ }
  | peerAborted c p chain hrun hchain hcur hid =>
      -- the peer's abort ends the file at the receiver
      refine .abandon ht (fun hm => ?_) rfl fun task htask => ?_
      · exact (h.receiving c hcur).taken (hm.sublist (shrink _ _ hchain))
      · exact absurd htask (by simp [hrun])
  | dropped m chain hrun hchain =>
      exact (h.mono (fun i hi => hi.sublist (shrink _ _ hchain))
        (fun hm => hm.sublist (shrink _ _ hchain))).report ht quiet_nil rfl rfl
  | refused m chain e hrun hchain hfit =>
      exact (h.mono (fun i hi => hi.sublist (shrink _ _ hchain))
        (fun hm => hm.sublist (shrink _ _ hchain))).report ht (quiet_error e) rfl rfl

end Quicksend.Delivery
