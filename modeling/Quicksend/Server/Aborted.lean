import Quicksend.Server.Pipe

/-!
# Files that were aborted

A file that crossed the limit is remembered as long as its run goes on. A
frame of another file, or a run that a last flag restarts, forgets it.
-/

namespace Quicksend.Server

/-- The effect passes a frame of a peer on, as against a message of the relay's
own. -/
def Effect.isCopy : Effect → Bool
  | .send _ (.relayed _ _) => true
  | .send _ (.control _) | .close _ _ => false

/-- The effect tells a peer that the file is over the limit. -/
def Effect.isAbort (fileID : FileId) : Effect → Bool
  | .send _ frame => frame = .control (.fileAbort fileID.hex FileAbortReasonSizeLimit)
  | .close _ _ => false

namespace Entry

/-- The chunk frame that was forwarded when this message was handled, if it was
one. -/
def forwarded (m : Entry) : Option Chunk :=
  if m.effects.any Effect.isCopy then chunkOf m.msg else none

/-- Handling this message made the relay send an abort of the file to somebody. -/
def aborts (m : Entry) (fileID : FileId) : Bool := m.effects.any (Effect.isAbort fileID)

end Entry

namespace Pipe

/-- Those of the frames that belong to one file, by the id in their headers. -/
def ofFile (fileID : FileId) (cs : List Chunk) : List Chunk := cs.filter fun c => c.fileID = fileID

end Pipe

namespace Piped

/-- What was forwarded of a file in a session. -/
def forwarded (x : Piped) (ref : Nat) (fileID : FileId) : List Chunk :=
  Pipe.ofFile fileID (x.log.filterMap fun m => if m.slot.ref = ref then m.forwarded else none)

/-- Nothing of an aborted file is forwarded later in its session. -/
def StaysAborted (x : Piped) : Prop := x.log.Pairwise fun m m' => m'.slot.ref = m.slot.ref →
  ∀ fileID, m.aborts fileID = true → ∀ c ∈ m'.forwarded, c.fileID ≠ fileID

/-- All but the last frame forwarded of a file are within the limit. -/
def WithinOneFrame (max : Int) (x : Piped) : Prop := ∀ ref fileID cs c,
  x.forwarded ref fileID = cs ++ [c] → (Pipe.size cs : Int) ≤ max

/-- A file in excess of the limit goes on only with the run that exceeds it. -/
def OneRun (x : Piped) (e : Event) : Prop :=
  match e with
  | .frame conn msg _ => ∀ slot ∈ x.relay.serving conn, ∀ c ∈ chunkOf msg,
      (Pipe.size (Pipe.ofFile c.fileID (Pipe.chunks (x.history slot.ref))) : Int) ≤
        x.relay.hub.cfg.MaxFileSize ∨
      Pipe.Over x.relay.hub.cfg.MaxFileSize
        (Pipe.runBefore x.relay.hub.cfg.MaxFileSize (x.history slot.ref) c)
  | _ => True

instance (x : Piped) (e : Event) : Decidable (x.OneRun e) :=
  match e with
  | .frame conn msg _ => inferInstanceAs (Decidable
      (∀ slot ∈ x.relay.serving conn, ∀ c ∈ chunkOf msg, _ ∨ _))
  | .begin .. | .drop _ | .readError .. | .reap .. => isTrue trivial

end Piped

/-! ## Counting a file -/

namespace Pipe

theorem size_append (cs cs' : List Chunk) : size (cs ++ cs') = size cs + size cs' := by
  simp [size]

theorem ofFile_append (fileID : FileId) (cs cs' : List Chunk) :
    ofFile fileID (cs ++ cs') = ofFile fileID cs ++ ofFile fileID cs' := List.filter_append ..

theorem size_le_of_sublist {cs cs' : List Chunk} (h : List.Sublist cs cs') : size cs ≤ size cs' := by
  induction h with
  | slnil => exact Nat.le_refl _
  | cons c _ ih =>
      simp only [size, List.map_cons, List.sum_cons] at ih ⊢
      omega
  | cons_cons c _ ih =>
      simp only [size, List.map_cons, List.sum_cons] at ih ⊢
      omega

/-- A run counts towards its file. -/
theorem size_before_le (max : Int) (cs : List Chunk) (c : Chunk) :
    size (Runs.before Chunk.fileID (ended max) cs c ++ [c]) ≤ size (ofFile c.fileID (cs ++ [c])) := by
  have hfile : ofFile c.fileID (Runs.before Chunk.fileID (ended max) cs c) =
      Runs.before Chunk.fileID (ended max) cs c :=
    List.filter_eq_self.mpr fun b hb => decide_eq_true (Runs.key_of_mem_before hb)
  have hsub : List.Sublist (ofFile c.fileID (Runs.before Chunk.fileID (ended max) cs c))
      (ofFile c.fileID cs) := (Runs.before_suffix cs c).sublist.filter _
  rw [hfile] at hsub
  have hle := size_le_of_sublist hsub
  rw [ofFile_append, size_append, size_append]
  have hself : ofFile c.fileID [c] = [c] := by simp [ofFile]
  rw [hself]
  omega

end Pipe

/-! ## What a frame leads to -/

theorem isAbort_control {fileID fileID' : FileId} {conn : ConnId} (h : Effect.isAbort fileID
    (.send conn (.control (.fileAbort fileID'.hex FileAbortReasonSizeLimit))) = true) :
    fileID' = fileID := by
  have := of_decide_eq_true h
  injection this with hcontrol
  injection hcontrol with hhex
  exact FileId.hex_inj hhex

namespace Piped

variable {x y : Piped} {cfg : Config} {e : Event}

theorem chunkOf_of_forwarded {m : Entry} {c : Chunk} (h : c ∈ m.forwarded) :
    chunkOf m.msg = some c := by
  rw [Entry.forwarded] at h
  by_cases hcopy : m.effects.any Effect.isCopy = true
  · rw [if_pos hcopy] at h
    exact h
  · rw [if_neg hcopy] at h
    cases h

/-- What a frame that is read leads to, by the history before it. -/
structure Spec (max : Int) (history : List (Role × Incoming)) (m : Entry) : Prop where
  forwarded : ∀ c ∈ m.forwarded, chunkOf m.msg = some c ∧ ¬ Pipe.Over max (Pipe.runBefore max history c)
  aborts : ∀ fileID, m.aborts fileID = true → ∃ c, chunkOf m.msg = some c ∧ c.fileID = fileID ∧
    Pipe.Over max (Pipe.runBefore max history c ++ [c])

theorem Spec.of_plain {max : Int} {history : List (Role × Incoming)} {m : Entry}
    (hchunk : chunkOf m.msg = none) (haborts : ∀ fileID, m.aborts fileID = false) :
    Spec max history m where
  forwarded c hc := by
    rw [Entry.forwarded, hchunk, ite_self] at hc
    cases hc
  aborts fileID h := by
    rw [haborts fileID] at h
    cases h

theorem eq_of_abortOversizedFile {t : Session} {fileID fileID' : FileId}
    (h : (Hub.abortOversizedFile t fileID').any (Effect.isAbort fileID) = true) :
    fileID' = fileID := by
  obtain ⟨a, ha, hab⟩ := List.any_eq_true.mp h
  obtain ⟨role, -, hrole⟩ := List.mem_filterMap.mp ha
  obtain ⟨conn, -, rfl⟩ := Option.map_eq_some_iff.mp hrole
  exact isAbort_control hab

/-- Copies abort nothing. -/
theorem any_isAbort_copies (conn : Option ConnId) (binary : Bool) (data : Bytes) (fileID : FileId) :
    ((conn.map (Effect.send · (.relayed binary data))).toList).any (Effect.isAbort fileID) =
      false := by
  cases conn <;> rfl

/-- The frame is a chunk frame. -/
theorem spec_chunk (hx : x.Tracked cfg) {slot : Slot} {s : Session}
    (hs : x.relay.hub.heap[slot.ref]? = some s) {data : Bytes} {fileID : FileId} {isLast : Bool}
    (hheader : Session.chunkHeader data = some (fileID, isLast)) (now : Time) :
    Spec cfg.MaxFileSize (x.history slot.ref)
      ⟨slot, .other true data, (x.relay.hub.Relay slot true data now).2⟩ := by
  have hrecord := (Pipe.recordChunkBytes_tracks (s := s.touch now) hheader
    (hx.tracks slot.ref s hs)).2
  have hchunk : chunkOf (.other true data) = some ⟨fileID, isLast, data.length⟩ := by
    rw [chunkOf, hheader]
    rfl
  generalize hc : (⟨fileID, isLast, data.length⟩ : Chunk) = c at hrecord hchunk
  have hid : c.fileID = fileID := by rw [← hc]
  generalize hr : Runs.before Chunk.fileID (Pipe.ended cfg.MaxFileSize)
    (Pipe.chunks (x.history slot.ref)) c = r at hrecord
  have hrun : Pipe.runBefore cfg.MaxFileSize (x.history slot.ref) c = r := hr
  cases hresult : (s.touch now).recordChunkBytes data cfg.MaxFileSize with
  | mk t rest =>
      rw [hresult] at hrecord
      have heffects := congrArg Prod.snd (Hub.Relay_binary (h := x.relay.hub) slot hs
        (by rw [hx.config, hresult, show rest = _ from hrecord]))
      rw [heffects]
      dsimp only
      by_cases hover : Pipe.Over cfg.MaxFileSize r
      · rw [if_pos (decide_eq_true hover)]
        refine ⟨fun d hd => ?_, fun f hf => ?_⟩
        · cases hd
        · cases hf
      · rw [if_neg (fun h => hover (of_decide_eq_true h))]
        refine ⟨fun d hd => ?_, fun f hf => ?_⟩
        · have hd' : chunkOf (.other true data) = some d := chunkOf_of_forwarded hd
          obtain rfl := Option.some.inj (hchunk.symm.trans hd')
          exact ⟨hchunk, hrun ▸ hover⟩
        · rw [Entry.aborts, List.any_append, any_isAbort_copies, Bool.false_or] at hf
          split at hf
          next hboth =>
            exact ⟨c, hchunk, hid.trans (eq_of_abortOversizedFile hf),
              hrun.symm ▸ (of_decide_eq_true hboth).2⟩
          next => cases hf

/-- Any message that a handler reads. -/
theorem spec_read (hx : x.Tracked cfg) {c : ConnId} {slot : Slot}
    (hserving : x.relay.serving c = some slot) (msg : Incoming) (now : Time) :
    Spec cfg.MaxFileSize (x.history slot.ref) ⟨slot, msg, (x.relay.read c slot msg now).2⟩ := by
  obtain ⟨s, hs⟩ : ∃ s, x.relay.hub.heap[slot.ref]? = some s :=
    ⟨_, List.getElem?_eq_getElem (hx.placed c slot hserving)⟩
  cases msg with
  | endSession =>
      refine .of_plain rfl fun fileID => ?_
      change ((x.relay.hub.EndSession slot).2 ++ _).any _ = false
      rw [Hub.EndSession, hs]
      dsimp only
      cases s.connAndIP slot.role.other <;> rfl
  | reconnectToken tokenHex => exact .of_plain rfl fun _ => rfl
  | other binary data =>
      change Spec _ _ ⟨slot, .other binary data, (x.relay.hub.Relay slot binary data now).2⟩
      cases binary with
      | false =>
          refine .of_plain rfl fun fileID => ?_
          rw [Entry.aborts, Hub.Relay_text slot hs]
          exact any_isAbort_copies _ false data fileID
      | true =>
          cases hheader : Session.chunkHeader data with
          | some header => exact spec_chunk hx hs hheader now
          | none =>
              have hsame : (s.touch now).recordChunkBytes data x.relay.hub.cfg.MaxFileSize =
                  (s.touch now, none, false, false) := by
                rw [Session.recordChunkBytes, hheader]
              refine .of_plain ?_ fun fileID => ?_
              · rw [chunkOf, hheader]
                rfl
              · rw [Entry.aborts, Hub.Relay_binary slot hs hsame]
                dsimp only
                rw [if_neg Bool.false_ne_true, List.append_nil]
                exact any_isAbort_copies _ true data fileID

/-! ## Over a run -/

/-- What was aborted is in excess of the limit. -/
structure Counted (cfg : Config) (x : Piped) : Prop where
  tracked : x.Tracked cfg
  aborted : ∀ m ∈ x.log, ∀ fileID, m.aborts fileID = true → cfg.MaxFileSize <
    Pipe.size (Pipe.ofFile fileID (Pipe.chunks (x.history m.slot.ref)))
  stays : x.StaysAborted
  within : x.WithinOneFrame cfg.MaxFileSize

/-- What is forwarded of a file counts towards it. -/
theorem forwarded_le (x : Piped) (ref : Nat) (fileID : FileId) :
    Pipe.size (x.forwarded ref fileID) ≤
      Pipe.size (Pipe.ofFile fileID (Pipe.chunks (x.history ref))) := by
  refine Pipe.size_le_of_sublist (List.Sublist.filter _ ?_)
  rw [history, Pipe.chunks, List.filterMap_filterMap]
  induction x.log with
  | nil => exact .slnil
  | cons m log ih =>
      rw [List.filterMap_cons, List.filterMap_cons]
      by_cases href : m.slot.ref = ref
      · rw [if_pos href, if_pos href, Option.bind_some]
        cases hforwarded : m.forwarded with
        | some c =>
            rw [chunkOf_of_forwarded hforwarded]
            exact ih.cons_cons c
        | none =>
            cases chunkOf m.msg with
            | some c => exact ih.cons c
            | none => exact ih
      · rw [if_neg href, if_neg href, Option.bind_none]
        exact ih

/-- A file's frames only add up. -/
theorem size_history_append (x : Piped) (z : Relay) (m : Entry) (ref : Nat) (fileID : FileId) :
    Pipe.size (Pipe.ofFile fileID (Pipe.chunks (x.history ref))) ≤
      Pipe.size (Pipe.ofFile fileID (Pipe.chunks (history ⟨z, x.log ++ [m]⟩ ref))) := by
  rw [history_append, chunks_append, Pipe.ofFile_append, Pipe.size_append]
  exact Nat.le_add_right ..

theorem forwarded_append (x : Piped) (z : Relay) (m : Entry) (ref : Nat) (fileID : FileId) :
    forwarded ⟨z, x.log ++ [m]⟩ ref fileID = x.forwarded ref fileID ++
      Pipe.ofFile fileID ((if m.slot.ref = ref then m.forwarded else none).toList) := by
  rw [forwarded, List.filterMap_append, Pipe.ofFile_append]
  congr 2

theorem counted_frame (hx : x.Counted cfg) {c : ConnId} {slot : Slot}
    (hserving : x.relay.serving c = some slot) {msg : Incoming} {now : Time}
    (hone : x.OneRun (.frame c msg now)) :
    Counted cfg ⟨(x.relay.read c slot msg now).1,
      x.log ++ [⟨slot, msg, (x.relay.read c slot msg now).2⟩]⟩ := by
  have hspec := spec_read hx.tracked hserving msg now
  have htracked := tracked_read hx.tracked hserving msg now
  generalize (x.relay.read c slot msg now).1 = z at htracked
  generalize hm : (⟨slot, msg, (x.relay.read c slot msg now).2⟩ : Entry) = m at hspec htracked
  have hslot : m.slot = slot := by rw [← hm]
  have hmsg : m.msg = msg := by rw [← hm]
  -- What is forwarded now is within the limit together with all of its file before it.
  have hwithin : ∀ d ∈ m.forwarded, (Pipe.size (Pipe.ofFile d.fileID
      (Pipe.chunks (x.history slot.ref))) : Int) ≤ cfg.MaxFileSize := by
    intro d hd
    obtain ⟨hchunk, hunder⟩ := hspec.forwarded d hd
    rw [hmsg] at hchunk
    have := hone slot hserving d hchunk
    rw [hx.tracked.config] at this
    exact this.resolve_right hunder
  refine ⟨htracked, fun m' hm' f hf => ?_, ?_, fun ref f cs d hcs => ?_⟩
  · rcases List.mem_append.mp hm' with hold | hnew
    · exact lt_of_lt_of_le (hx.aborted m' hold f hf)
        (Int.ofNat_le.mpr (size_history_append x z m m'.slot.ref f))
    · rw [List.mem_singleton.mp hnew] at hf ⊢
      -- the frame that aborts a file takes it over the limit, and its size only grows
      obtain ⟨d, hchunk, rfl, hover⟩ := hspec.aborts f hf
      have hle := Pipe.size_before_le cfg.MaxFileSize (Pipe.chunks (x.history slot.ref)) d
      have hchunks : Pipe.chunks [(m.slot.role, m.msg)] = [d] := by
        simp [Pipe.chunks, hchunk]
      rw [history_append, if_pos rfl, chunks_append, hchunks, hslot]
      exact lt_of_lt_of_le hover.2 (Int.ofNat_le.mpr hle)
  · refine List.pairwise_append.mpr ⟨hx.stays, List.pairwise_singleton .., ?_⟩
    intro m' hm' m'' hm'' href f hf d hd hid
    rw [List.mem_singleton.mp hm''] at href hd
    -- above the limit once, never within it again: nothing of the file goes on
    have habove := hx.aborted m' hm' f hf
    have hbelow := hwithin d hd
    rw [hid, ← hslot, href] at hbelow
    omega
  · rw [forwarded_append] at hcs
    by_cases hnew : ∃ d' ∈ (if m.slot.ref = ref then m.forwarded else none), d'.fileID = f
    · obtain ⟨d', hd', rfl⟩ := hnew
      have href : m.slot.ref = ref := by
        by_contra hne
        rw [if_neg hne] at hd'
        cases hd'
      rw [if_pos href] at hd' hcs
      have hone' : Pipe.ofFile d'.fileID m.forwarded.toList = [d'] := by
        rw [show m.forwarded = some d' from hd']
        simp [Pipe.ofFile]
      rw [hone'] at hcs
      rw [← (List.append_inj' hcs rfl).1, ← href]
      have hle := forwarded_le x m.slot.ref d'.fileID
      have hbelow := hwithin d' hd'
      rw [hslot] at hle ⊢
      omega
    · have hnone : Pipe.ofFile f ((if m.slot.ref = ref then m.forwarded else none).toList) = [] := by
        refine List.filter_eq_nil_iff.mpr fun d' hd' hid => hnew ⟨d', ?_, of_decide_eq_true hid⟩
        exact Option.mem_toList.mp hd'
      rw [hnone, List.append_nil] at hcs
      exact hx.within ref f cs d hcs

theorem counted_step (hx : x.Counted cfg) (hone : x.OneRun e) (hstep : x.next e = some y) :
    y.Counted cfg := by
  have htracked := tracked_step hx.tracked hstep
  by_cases hframe : ∃ c msg now, e = .frame c msg now
  · obtain ⟨c, msg, now, rfl⟩ := hframe
    obtain ⟨slot, hserving⟩ := serving_of_next_frame hstep
    rw [next_frame hserving] at hstep
    obtain rfl := Option.some.inj hstep
    exact counted_frame hx hserving hone
  · have hlog : y.log = x.log := by
      obtain ⟨z, -, rfl⟩ := Option.map_eq_some_iff.mp hstep
      cases e with
      | frame c msg now => exact absurd ⟨c, msg, now, rfl⟩ hframe
      | begin | drop | readError | reap => exact List.append_nil _
    obtain ⟨z, log⟩ := y
    subst hlog
    exact ⟨htracked, hx.aborted, hx.stays, hx.within⟩

theorem counted_init (cfg : Config) : (init cfg).Counted cfg where
  tracked := tracked_init cfg
  aborted m hm := by cases hm
  stays := List.Pairwise.nil
  within ref fileID cs d h := by cases cs <;> cases h

/-- While what exceeds the limit stands in one run, an aborted file stays
aborted and no more than one frame of a file exceeds the limit. -/
theorem aborted_stays_aborted (cfg : Config) (es : List Event) (x : Piped)
    (hone : Transition.Guarded next OneRun (init cfg) es)
    (hrun : Transition.run next (init cfg) es = some x) :
    x.StaysAborted ∧ x.WithinOneFrame cfg.MaxFileSize := by
  have hx : x.Counted cfg := hone.invariant
    (fun _ _ _ hx hone hstep => counted_step hx hone hstep) (counted_init cfg) hrun
  exact ⟨hx.stays, hx.within⟩

/-- Two files after each other, the first one cut off. -/
def oneByOne : List Event := paired ++
  [.frame 0 (.other true (chunkFrame 5 false 34)) 1, .frame 0 (.other true (chunkFrame 5 false 34)) 2,
    .frame 0 (.other true (chunkFrame 5 true 34)) 3, .frame 1 (.other true (chunkFrame 6 true 4)) 4]

theorem aborted_stays_aborted_one_by_one : ∃ x,
    Transition.run next (init Relay.smallConfig) oneByOne = some x ∧
      (x.forwarded 0 (repeatedId 5)).length = 2 ∧ (x.forwarded 0 (repeatedId 6)).length = 1 ∧
      x.StaysAborted ∧ x.WithinOneFrame 100 := by
  have hone : Transition.Guarded next OneRun (init Relay.smallConfig) oneByOne := by
    decide +kernel
  have hrun : (Transition.run next (init Relay.smallConfig) oneByOne).any
      (fun x => decide ((x.forwarded 0 (repeatedId 5)).length = 2 ∧
        (x.forwarded 0 (repeatedId 6)).length = 1)) = true := by decide +kernel
  obtain ⟨x, hx, hlen⟩ := (Option.any_eq_true _ _).mp hrun
  obtain ⟨htwo, hlast⟩ := of_decide_eq_true hlen
  exact ⟨x, hx, htwo, hlast, aborted_stays_aborted Relay.smallConfig oneByOne x hone hx⟩

/-- One frame of another file, and the file that was aborted goes on. -/
theorem aborted_goes_on : ∃ x,
    Transition.run next (init Relay.smallConfig) (paired ++
      [.frame 0 (.other true (chunkFrame 5 false 34)) 1,
        .frame 0 (.other true (chunkFrame 5 false 34)) 2,
        .frame 0 (.other true (chunkFrame 6 false 4)) 3,
        .frame 0 (.other true (chunkFrame 5 false 34)) 4]) = some x ∧
      ¬ x.StaysAborted ∧ ¬ x.WithinOneFrame 100 := by
  refine ⟨_, rfl, fun h => ?_, fun h => ?_⟩
  · have hpair := List.pairwise_iff_getElem.mp h 1 3 (by decide) (by decide) (by decide) rfl
      (repeatedId 5) rfl ⟨repeatedId 5, false, 60⟩ rfl
    exact hpair rfl
  · have hle := h 0 (repeatedId 5) [⟨repeatedId 5, false, 60⟩, ⟨repeatedId 5, false, 60⟩]
      ⟨repeatedId 5, false, 60⟩ rfl
    exact absurd hle (by decide)

end Piped

end Quicksend.Server
