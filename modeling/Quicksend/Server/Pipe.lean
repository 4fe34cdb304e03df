import Quicksend.Lib.Runs
import Quicksend.Lib.Transition
import Quicksend.Server.Accounting
import Quicksend.Server.Goroutines.Steps

/-!
# The relay as a pipe

What two connected peers receive is a function of the frames that were read in
their session: copies of the other peer's frames, with a cut-off for each run
of chunk frames. The relay computes it with one record for both directions.
-/

namespace Quicksend.Server

/-- The header of a chunk frame, and the frame's length. -/
structure Chunk where
  fileID : FileId
  isLast : Bool
  size : Nat
  deriving DecidableEq

/-- The text and binary frames that are chunk frames. -/
def chunkOf : Incoming → Option Chunk
  | .other true data => (Session.chunkHeader data).map fun c => ⟨c.1, c.2, data.length⟩
  | _ => none

namespace Pipe

/-- The length of these frames together, header and tag included, as the relay
counts it. -/
def size (cs : List Chunk) : Nat := (cs.map Chunk.size).sum

/-- The cumulative length of the last of these frames exceeds the limit. -/
def Over (max : Int) (r : List Chunk) : Prop := r ≠ [] ∧ max < size r

instance (max : Int) (r : List Chunk) : Decidable (Over max r) :=
  inferInstanceAs (Decidable (_ ∧ _))

/-- A run ends after a frame with the last flag that leaves it within the limit. -/
def ended (max : Int) (r : List Chunk) : Bool :=
  r.getLast?.any Chunk.isLast && decide ((size r : Int) ≤ max)

/-- The chunk frames of a history, in both directions. -/
def chunks (history : List (Role × Incoming)) : List Chunk := history.filterMap fun m => chunkOf m.2

/-- The frames of the run of `c` that came before it. -/
def runBefore (max : Int) (history : List (Role × Incoming)) (c : Chunk) : List Chunk :=
  Runs.before Chunk.fileID (ended max) (chunks history) c

/-- What a peer receives for one frame, after the history before it. -/
def deliver (max : Int) (history : List (Role × Incoming)) (m : Role × Incoming) (peer : Role) :
    List Frame :=
  match m.2 with
  | .endSession | .reconnectToken _ => []
  | .other binary data =>
      let copy := if m.1 = peer then [] else [Frame.relayed binary data]
      match chunkOf m.2 with
      | none => copy
      | some c =>
          let r := runBefore max history c
          if Over max r then []
          else if Over max (r ++ [c]) then
            copy ++ [.control (.fileAbort c.fileID.hex FileAbortReasonSizeLimit)]
          else copy

/-- What a peer receives for the frames after a history. -/
def received (max : Int) (peer : Role) :
    List (Role × Incoming) → List (Role × Incoming) → List Frame
  | _, [] => []
  | history, m :: rest =>
      deliver max history m peer ++ received max peer (history ++ [m]) rest

end Pipe

/-- What a handler read, and what came of it. -/
structure Entry where
  slot : Slot
  msg : Incoming
  effects : List Effect

/-- The relay with what its handlers read, in order. -/
structure Piped where
  relay : Relay
  log : List Entry

namespace Piped

/-- A relay that has just started, and an empty history. -/
def init (cfg : Config) : Piped := { relay := Relay.init cfg, log := [] }

/-- What an event makes a handler read, with what the handler does about it. -/
def entry (x : Piped) (e : Event) : Option Entry :=
  match e with
  | .frame conn msg now => (x.relay.serving conn).map fun slot =>
      ⟨slot, msg, (x.relay.read conn slot msg now).2⟩
  | _ => none

/-- A step of the relay, with what it read and did put at the end of the history. -/
def next (x : Piped) (e : Event) : Option Piped :=
  (x.relay.next e).map fun y => { relay := y, log := x.log ++ (x.entry e).toList }

/-- What was read in one session, by whom, in the order in which it was read. -/
def history (x : Piped) (ref : Nat) : List (Role × Incoming) :=
  x.log.filterMap fun m => if m.slot.ref = ref then some (m.slot.role, m.msg) else none

end Piped

/-- The frame that an effect writes on this connection, if that is what it does. -/
def sentTo (conn : ConnId) : Effect → Option Frame
  | .send c frame => if c = conn then some frame else none
  | .close _ _ => none

/-! ## The record and the open run -/

namespace Pipe

variable {max : Int} {cs r : List Chunk} {c : Chunk}

theorem size_concat (r : List Chunk) (c : Chunk) : size (r ++ [c]) = size r + c.size := by
  simp [size]

theorem not_over_nil : ¬ Over max [] := fun h => h.1 rfl

theorem Over.concat (h : Over max r) (c : Chunk) : Over max (r ++ [c]) := by
  refine ⟨by simp, ?_⟩
  have := h.2
  rw [size_concat]
  omega

theorem ended_concat : ended max (r ++ [c]) = (c.isLast && decide ((size (r ++ [c]) : Int) ≤ max)) := by
  simp [ended]

/-- A run that is over the limit never ends by itself. -/
theorem Over.not_ended (h : Over max r) : ended max r = false := by
  rw [ended, decide_eq_false (not_le.mpr h.2), Bool.and_false]

/-- The record is for the frames of this run, all of one file. -/
structure Records (max : Int) (r : List Chunk) (cur : CurrentFileState) : Prop where
  fileID : ∀ c ∈ r, c.fileID = cur.fileID
  blocked : cur.blocked = true ↔ Over max r
  bytesSoFar : cur.blocked = false → cur.bytesSoFar = size r

/-- A record is kept exactly for a run that has not ended. -/
def Tracks (max : Int) (cs : List Chunk) (cur : Option CurrentFileState) : Prop :=
  match cur with
  | none => ∀ r rs, Runs.runs Chunk.fileID (ended max) cs = r :: rs → ended max r = true
  | some cur => ∃ r rs, Runs.runs Chunk.fileID (ended max) cs = r :: rs ∧ r ≠ [] ∧
      ended max r = false ∧ Records max r cur

/-- The record that `recordChunkBytes` goes on with: the one there is, or a new
one for another file. -/
def recordFor (cur : Option CurrentFileState) (fileID : FileId) : CurrentFileState :=
  match cur with
  | some c => if c.fileID = fileID then c else { fileID := fileID, blocked := false, bytesSoFar := 0 }
  | none => { fileID := fileID, blocked := false, bytesSoFar := 0 }

theorem records_nil (fileID : FileId) :
    Records max [] { fileID := fileID, blocked := false, bytesSoFar := 0 } where
  fileID c hc := by cases hc
  blocked := by simp [not_over_nil]
  bytesSoFar _ := rfl

/-- It is that of the run which the frame goes on with. -/
theorem Tracks.recordFor {cur : Option CurrentFileState} (h : Tracks max cs cur) (c : Chunk) :
    (recordFor cur c.fileID).fileID = c.fileID ∧
      Records max (Runs.before Chunk.fileID (ended max) cs c) (recordFor cur c.fileID) := by
  cases cur with
  | none =>
      have hnil : Runs.before Chunk.fileID (ended max) cs c = [] := by
        unfold Runs.before
        split
        next => rfl
        next r rs hruns => simp [Runs.joins, h r rs hruns]
      rw [hnil]
      exact ⟨rfl, records_nil c.fileID⟩
  | some cur =>
      obtain ⟨r, rs, hruns, hne, hopen, hrecords⟩ := h
      by_cases hid : cur.fileID = c.fileID
      · have hjoins : Runs.joins Chunk.fileID (ended max) r c = true := by
          rw [Runs.joins, hopen, Bool.not_false, Bool.and_true]
          exact List.all_eq_true.mpr fun b hb => decide_eq_true ((hrecords.fileID b hb).trans hid)
        have hbefore : Runs.before Chunk.fileID (ended max) cs c = r := by
          rw [Runs.before, hruns]
          exact if_pos hjoins
        rw [hbefore, show Pipe.recordFor (some cur) c.fileID = cur from if_pos hid]
        exact ⟨hid, hrecords⟩
      · have hjoins : ¬ Runs.joins Chunk.fileID (ended max) r c = true := by
          intro hjoins
          rw [Runs.joins, Bool.and_eq_true] at hjoins
          obtain ⟨b, hb⟩ := List.exists_mem_of_ne_nil r hne
          exact hid ((hrecords.fileID b hb).symm.trans
            (of_decide_eq_true (List.all_eq_true.mp hjoins.1 b hb)))
        have hbefore : Runs.before Chunk.fileID (ended max) cs c = [] := by
          rw [Runs.before, hruns]
          exact if_neg hjoins
        rw [hbefore, show Pipe.recordFor (some cur) c.fileID = _ from if_neg hid]
        exact ⟨rfl, records_nil c.fileID⟩

/-- A run that has not ended is open with the frame that it goes on with. -/
theorem tracks_concat {cur : CurrentFileState} {r : List Chunk} (hid : cur.fileID = c.fileID)
    (hr : r = Runs.before Chunk.fileID (ended max) cs c)
    (hids : ∀ b ∈ r, b.fileID = cur.fileID) (hopen : ended max (r ++ [c]) = false)
    (hblocked : cur.blocked = true ↔ Over max (r ++ [c]))
    (hbytes : cur.blocked = false → cur.bytesSoFar = size (r ++ [c])) :
    Tracks max (cs ++ [c]) (some cur) := by
  obtain ⟨rs, hruns⟩ := Runs.runs_concat_head Chunk.fileID (ended max) cs c
  rw [← hr] at hruns
  refine ⟨r ++ [c], rs, hruns, by simp, hopen, fun b hb => ?_, hblocked, hbytes⟩
  rcases List.mem_append.mp hb with hb | hb
  · exact hids b hb
  · rw [List.mem_singleton.mp hb, hid]

/-- `recordChunkBytes` drops what comes after the crossing frame of the run, and
aborts with that frame. -/
theorem recordChunkBytes_tracks {s : Session} {frame : Bytes} {fileID : FileId} {isLast : Bool}
    (hheader : Session.chunkHeader frame = some (fileID, isLast))
    (htracks : Tracks max cs s.currentFile) :
    let c : Chunk := ⟨fileID, isLast, frame.length⟩
    let r := Runs.before Chunk.fileID (ended max) cs c
    Tracks max (cs ++ [c]) (s.recordChunkBytes frame max).1.currentFile ∧
      (s.recordChunkBytes frame max).2 =
        (some fileID, decide (Over max r), decide (¬ Over max r ∧ Over max (r ++ [c]))) := by
  intro c r
  obtain ⟨hid, hrecords⟩ := htracks.recordFor c
  have hrecord : s.recordChunkBytes frame max =
      let current := recordFor s.currentFile fileID
      if current.blocked then ({ s with currentFile := some current }, some fileID, true, false)
      else
        let current := { current with bytesSoFar := current.bytesSoFar + frame.length }
        if (current.bytesSoFar : Int) > max then
          ({ s with currentFile := some { current with blocked := true } }, some fileID, false, true)
        else if isLast then ({ s with currentFile := none }, some fileID, false, false)
        else ({ s with currentFile := some current }, some fileID, false, false) := by
    unfold Session.recordChunkBytes
    rw [hheader]
    rfl
  rw [hrecord]
  change (recordFor s.currentFile fileID).fileID = c.fileID at hid
  change Records max r (recordFor s.currentFile fileID) at hrecords
  generalize recordFor s.currentFile fileID = cur at hid hrecords
  dsimp only
  by_cases hblocked : cur.blocked = true
  · -- the run is over the limit already: dropped without a notice
    have hover : Over max r := hrecords.blocked.mp hblocked
    rw [if_pos hblocked]
    refine ⟨tracks_concat hid rfl hrecords.fileID (hover.concat c).not_ended
      (iff_of_true hblocked (hover.concat c)) fun h => ?_, ?_⟩
    · rw [hblocked] at h
      cases h
    · simp [hover]
  · rw [if_neg hblocked]
    have hunder : ¬ Over max r := fun h => hblocked (hrecords.blocked.mpr h)
    -- the record has counted the whole run so far
    have hbytes : cur.bytesSoFar + frame.length = size (r ++ [c]) := by
      rw [size_concat, hrecords.bytesSoFar (Bool.eq_false_iff.mpr hblocked)]
    rw [hbytes]
    by_cases hcross : ((size (r ++ [c]) : Nat) : Int) > max
    · -- this frame crosses the limit: it goes on, and the notice with it
      have hover : Over max (r ++ [c]) := ⟨by simp, hcross⟩
      rw [if_pos hcross]
      refine ⟨tracks_concat hid rfl hrecords.fileID hover.not_ended (iff_of_true rfl hover) ?_, ?_⟩
      · exact fun h => by cases h
      · simp [hunder, hover]
    · have hwithin : ¬ Over max (r ++ [c]) := fun h => hcross h.2
      have hlast : ended max (r ++ [c]) = isLast := by
        rw [ended_concat, decide_eq_true (not_lt.mp hcross), Bool.and_true]
      rw [if_neg hcross]
      cases isLast with
      | true =>
          refine ⟨fun r' rs hruns => ?_, by simp [hunder, hwithin]⟩
          -- the last chunk ends the run, and the record is dropped
          obtain ⟨rs', hruns'⟩ :=
            Runs.runs_concat_head Chunk.fileID (ended max) cs c
          rw [hruns'] at hruns
          rw [← (List.cons.inj hruns).1]
          exact hlast
      | false =>
          exact ⟨tracks_concat hid rfl hrecords.fileID hlast
            (iff_of_false hblocked hwithin) fun _ => rfl, by simp [hunder, hwithin]⟩

end Pipe

/-! ## What else leaves the records alone -/

/-- Sessions keep their record, and a new one has none. -/
structure KeepsFiles (h h' : Hub) : Prop where
  cfg : h'.cfg = h.cfg
  length : h.heap.length ≤ h'.heap.length
  files : ∀ ref t, h'.heap[ref]? = some t →
    (∃ s, h.heap[ref]? = some s ∧ t.currentFile = s.currentFile) ∨
      h.heap.length ≤ ref ∧ t.currentFile = none

namespace KeepsFiles

variable {h g h' : Hub} {ip : String} {conn : ConnId} {now : Time}

theorem of_heap (hheap : h'.heap = h.heap) (hcfg : h'.cfg = h.cfg) : KeepsFiles h h' where
  cfg := hcfg
  length := by rw [hheap]
  files ref t ht := by
    rw [hheap] at ht
    exact .inl ⟨t, ht, rfl⟩

theorem refl (h : Hub) : KeepsFiles h h := of_heap rfl rfl

theorem of_eq (hk : KeepsFiles g h') (hheap : g.heap = h.heap) (hcfg : g.cfg = h.cfg) :
    KeepsFiles h h' where
  cfg := hk.cfg.trans hcfg
  length := hheap ▸ hk.length
  files := hheap ▸ hk.files

theorem of_set {ref : Nat} {s t : Session} (hs : h.heap[ref]? = some s)
    (ht : t.currentFile = s.currentFile) (hheap : h'.heap = h.heap.set ref t)
    (hcfg : h'.cfg = h.cfg) : KeepsFiles h h' where
  cfg := hcfg
  length := by rw [hheap, List.length_set]
  files ref' t' ht' := by
    rw [hheap] at ht'
    by_cases href : ref' = ref
    · rw [href, List.getElem?_set_self (List.getElem?_eq_some_iff.mp hs).1] at ht'
      obtain rfl := Option.some.inj ht'
      exact .inl ⟨s, href ▸ hs, ht⟩
    · rw [List.getElem?_set_ne (Ne.symm href)] at ht'
      exact .inl ⟨t', ht', rfl⟩

theorem attach_file {s t : Session} {role : Role} (h : s.attach role conn ip now = some t) :
    t.currentFile = s.currentFile := by
  unfold Session.attach at h
  split at h
  next => cases h
  next =>
    obtain rfl := Option.some.inj h
    rfl

theorem addSession (h : Hub) (id ip : String) (conn : ConnId) (now : Time) :
    KeepsFiles h (h.addSession id ip conn now).1 := by
  obtain ⟨s, hs⟩ : ∃ s, (Session.new id now).attach .host conn ip now = some s := ⟨_, rfl⟩
  have hheap : (h.addSession id ip conn now).1.heap = h.heap ++ [s] := by
    rw [Hub.addSession, hs]
    rfl
  refine ⟨rfl, by rw [hheap]; simp, fun ref t ht => ?_⟩
  rw [hheap] at ht
  rcases Tally.getElem?_concat_eq_some ht with hold | ⟨rfl, rfl⟩
  · exact .inl ⟨t, hold, rfl⟩
  · exact .inr ⟨le_refl _, attach_file hs⟩

theorem attachGuest (h : Hub) (ref : Nat) (ip : String) (conn : ConnId) (now : Time) :
    KeepsFiles h (h.attachGuest ref ip conn now).1 := by
  unfold Hub.attachGuest
  split
  next => exact refl h
  next s hs =>
    split
    next => exact refl h
    next =>
      split
      next => exact refl h
      next t ht => exact of_set hs (attach_file ht) rfl rfl

theorem joinByCode (h : Hub) (code ip : String) (conn : ConnId) (now : Time) :
    KeepsFiles h (h.JoinByCode code ip conn now).1 := by
  have hheap := (resolveCode_books h code ip now).heap
  have hcfg := resolveCode_cfg h code ip now
  unfold Hub.JoinByCode
  split
  next g err heq =>
    rw [heq] at hheap hcfg
    exact of_heap hheap hcfg
  next g ref heq =>
    rw [heq] at hheap hcfg
    exact (attachGuest g ref ip conn now).of_eq hheap hcfg

theorem reconnect (h : Hub) (id : String) (role : Role) (token : Bytes) (ip : String)
    (conn : ConnId) (now : Time) : KeepsFiles h (h.Reconnect id role token ip conn now).1 := by
  unfold Hub.Reconnect
  split
  next => exact refl h
  next ref _ =>
    split
    next => exact refl h
    next =>
      split
      next => exact refl h
      next t ht =>
        obtain ⟨s, hs, ht⟩ := Option.bind_eq_some_iff.mp ht
        refine of_set hs ?_ rfl rfl
        unfold Session.reattach at ht
        split at ht
        next => cases ht
        next =>
          split at ht
          next => cases ht
          next =>
            split at ht
            next => cases ht
            next =>
              obtain rfl := Option.some.inj ht
              rfl

theorem beginSession (h : Hub) (first : First) (ip : String) (conn : ConnId) (now : Time)
    (draws : Draws) : KeepsFiles h (beginSession h first ip conn now draws).1 := by
  unfold Server.beginSession
  split
  · unfold Hub.CreateSession
    split
    next => exact refl h
    next => split <;> first | exact refl h | exact addSession h _ ip conn now
  · unfold Hub.JoinSession
    split
    next => exact refl h
    next ref _ => split <;> first | exact refl h | exact attachGuest h ref ip conn now
  · unfold Hub.CreateCodeSession
    split
    next => exact refl h
    next =>
      split
      next => exact refl h
      next id _ =>
        split
        next => exact refl h
        next =>
          obtain ⟨hcfg, hlength, hfiles⟩ := addSession h id ip conn now
          exact ⟨hcfg, hlength, hfiles⟩
  · exact joinByCode h _ ip conn now
  · split <;> first | exact refl h | exact reconnect h _ _ _ ip conn now
  all_goals exact refl h

end KeepsFiles

/-! ## Over a run -/

namespace Piped

variable {x y : Piped} {cfg : Config} {e : Event}

/-- Handlers serve only sessions that exist, in the list of all that were created. -/
def Placed (x : Relay) : Prop := ∀ (c : ConnId) (slot : Slot), x.serving c = some slot →
  slot.ref < x.hub.heap.length

/-- The record of each session knows the open run of what was read in it. -/
structure Tracked (cfg : Config) (x : Piped) : Prop where
  config : x.relay.hub.cfg = cfg
  placed : Placed x.relay
  logged : ∀ m ∈ x.log, m.slot.ref < x.relay.hub.heap.length
  tracks : ∀ ref s, x.relay.hub.heap[ref]? = some s →
    Pipe.Tracks cfg.MaxFileSize (Pipe.chunks (x.history ref)) s.currentFile

theorem history_of_ge (hx : x.Tracked cfg) {ref : Nat} (href : x.relay.hub.heap.length ≤ ref) :
    x.history ref = [] := by
  refine List.filterMap_eq_nil_iff.mpr fun m hm => if_neg ?_
  have := hx.logged m hm
  omega

/-- Nothing is read. -/
theorem Tracked.quiet (hx : x.Tracked cfg) {z : Relay} (hk : KeepsFiles x.relay.hub z.hub)
    (hplaced : Placed z) : Tracked cfg ⟨z, x.log ++ (none : Option Entry).toList⟩ where
  config := hk.cfg.trans hx.config
  placed := hplaced
  logged m hm := by
    rw [Option.toList_none, List.append_nil] at hm
    exact lt_of_lt_of_le (hx.logged m hm) hk.length
  tracks ref t ht := by
    have hhistory : history ⟨z, x.log ++ (none : Option Entry).toList⟩ ref = x.history ref := by
      rw [history, Option.toList_none, List.append_nil]
      rfl
    rw [hhistory]
    rcases hk.files ref t ht with ⟨s, hs, hfile⟩ | ⟨href, hfile⟩
    · rw [hfile]
      exact hx.tracks ref s hs
    · rw [hfile, history_of_ge hx href]
      exact fun r rs hruns => by cases hruns

theorem history_append (x : Piped) (z : Relay) (m : Entry) (ref : Nat) :
    history ⟨z, x.log ++ [m]⟩ ref =
      x.history ref ++ if m.slot.ref = ref then [(m.slot.role, m.msg)] else [] := by
  rw [history, List.filterMap_append]
  congr 1
  by_cases href : m.slot.ref = ref <;> simp [href]

theorem chunks_append (l l' : List (Role × Incoming)) :
    Pipe.chunks (l ++ l') = Pipe.chunks l ++ Pipe.chunks l' := List.filterMap_append ..

/-- Something is read that is no chunk frame. -/
theorem Tracked.plain (hx : x.Tracked cfg) {z : Relay} {m : Entry}
    (hslot : m.slot.ref < x.relay.hub.heap.length) (hchunk : chunkOf m.msg = none)
    (hk : KeepsFiles x.relay.hub z.hub)
    (hplaced : Placed z) : Tracked cfg ⟨z, x.log ++ [m]⟩ where
  config := hk.cfg.trans hx.config
  placed := hplaced
  logged m' hm := by
    rcases List.mem_append.mp hm with hold | hnew
    · exact lt_of_lt_of_le (hx.logged m' hold) hk.length
    · rw [List.mem_singleton.mp hnew]
      exact lt_of_lt_of_le hslot hk.length
  tracks ref t ht := by
    have hchunks : Pipe.chunks (history ⟨z, x.log ++ [m]⟩ ref) = Pipe.chunks (x.history ref) := by
      rw [history_append, chunks_append]
      split <;> simp [Pipe.chunks, hchunk]
    rw [hchunks]
    rcases hk.files ref t ht with ⟨s, hs, hfile⟩ | ⟨href, hfile⟩
    · rw [hfile]
      exact hx.tracks ref s hs
    · rw [hfile, history_of_ge hx href]
      exact fun r rs hruns => by cases hruns

/-- A binary frame is read. -/
theorem relay_binary {h : Hub} {slot : Slot} {s : Session} (hs : h.heap[slot.ref]? = some s)
    (data : Bytes) (now : Time) :
    (h.Relay slot true data now).1 =
      h.setSession slot.ref ((s.touch now).recordChunkBytes data h.cfg.MaxFileSize).1 := by
  unfold Hub.Relay
  rw [hs]
  dsimp only
  simp only [if_true]
  split <;> rfl

theorem serving_of_get {z : Relay} {c : ConnId} {slot : Slot} (h : z.serving c = some slot) :
    ∃ conn, z.conns[c]? = some conn ∧ conn.slot = some slot := Option.bind_eq_some_iff.mp h

/-- Connections keep their slots or lose them. -/
theorem placed_of_conns {z z' : Relay} (hz : Placed z)
    (hlength : z.hub.heap.length ≤ z'.hub.heap.length)
    (hconns : ∀ c slot, z'.serving c = some slot → z.serving c = some slot) : Placed z' :=
  fun c slot h => lt_of_lt_of_le (hz c slot (hconns c slot h)) hlength

theorem serving_modify {z : Relay} {h : Hub} {c d : ConnId} {f : Conn → Conn} {slot : Slot}
    (hf : ∀ conn, (f conn).slot = conn.slot ∨ (f conn).slot = none)
    (hserving : Relay.serving ⟨h, z.conns.modify d f⟩ c = some slot) : z.serving c = some slot := by
  obtain ⟨conn', hconn', hslot⟩ := serving_of_get hserving
  obtain ⟨conn, hconn, rfl⟩ := Tally.getElem?_modify_eq_some hconn'
  refine Option.bind_eq_some_iff.mpr ⟨conn, hconn, ?_⟩
  split at hslot
  next =>
    rcases hf conn with heq | heq
    · rw [← heq, hslot]
    · rw [heq] at hslot
      cases hslot
  next => exact hslot

theorem serving_applyEffects {z : Relay} {h : Hub} (reaper : Bool) (effects : List Effect)
    {c : ConnId} {slot : Slot}
    (hserving : Relay.serving ⟨h, effects.foldl (applyEffect reaper) z.conns⟩ c = some slot) :
    z.serving c = some slot := by
  induction effects generalizing z with
  | nil => exact hserving
  | cons e effects ih =>
      have h' := ih (z := ⟨z.hub, applyEffect reaper z.conns e⟩) hserving
      cases e with
      | send => exact h'
      | close conn reason => exact serving_modify (f := Conn.shut reaper) (fun _ => .inl rfl) h'

theorem Takes.lt {h h' : Hub} {ip : String} {conn : ConnId} {slot : Slot}
    (ht : Takes h ip conn h' slot) : slot.ref < h'.heap.length := by
  cases ht with
  | created id s hid hs hheap =>
      rw [hheap]
      simp
  | joined ref role s t hs hfree hid ht hheap =>
      rw [hheap, List.length_set]
      exact (List.getElem?_eq_some_iff.mp hs).1

theorem placed_accepted {z : Relay} (hz : Placed z) {h : Hub} (ip : String) {slot : Option Slot}
    (hlength : z.hub.heap.length ≤ h.heap.length)
    (hslot : ∀ s ∈ slot, s.ref < h.heap.length) :
    Placed ⟨h, z.conns ++ [Conn.accepted ip slot]⟩ := by
  intro c s hserving
  obtain ⟨conn, hconn, hs⟩ := serving_of_get hserving
  rcases Tally.getElem?_concat_eq_some hconn with hold | ⟨-, rfl⟩
  · exact lt_of_lt_of_le (hz c s (Option.bind_eq_some_iff.mpr ⟨conn, hold, hs⟩)) hlength
  · exact hslot s hs

theorem tracked_begin (hx : x.Tracked cfg) {ip : String} {first : First} {now : Time}
    {draws : Draws} (hstep : x.next (.begin ip first now draws) = some y) : y.Tracked cfg := by
  obtain ⟨z, hnext, rfl⟩ := Option.map_eq_some_iff.mp hstep
  obtain ⟨⟨z', effects⟩, hz, rfl⟩ := Option.map_eq_some_iff.mp hnext
  have hk := KeepsFiles.beginSession x.relay.hub first ip x.relay.conns.length now draws
  have henters := beginSession_enters x.relay.hub first ip x.relay.conns.length now draws
  unfold Relay.step at hz
  dsimp only at hz
  split at hz
  next h slot effects' heq =>
    obtain ⟨rfl, -⟩ := Prod.mk.inj (Option.some.inj hz)
    rw [heq] at hk
    rw [Enters, heq] at henters
    refine hx.quiet hk (placed_accepted hx.placed ip hk.length fun s hs => ?_)
    obtain rfl := Option.some.inj hs
    exact Takes.lt henters
  next h err effects' heq =>
    obtain ⟨rfl, -⟩ := Prod.mk.inj (Option.some.inj hz)
    rw [heq] at hk
    exact hx.quiet hk (placed_accepted hx.placed ip hk.length (by simp))

theorem reapAll_books (h : Hub) (now : Time) (ids : List String) :
    (h.reapAll now ids).1.heap = h.heap ∧ (h.reapAll now ids).1.cfg = h.cfg := by
  have hclose : ∀ (h : Hub) peer reason, (h.notifyAndClose peer reason).1.heap = h.heap ∧
      (h.notifyAndClose peer reason).1.cfg = h.cfg := by
    intro h peer reason
    cases peer <;> exact ⟨rfl, rfl⟩
  induction ids generalizing h with
  | nil => exact ⟨rfl, rfl⟩
  | cons id ids ih =>
      unfold Hub.reapAll
      split
      next => exact ih h
      next s _ =>
        have hsession : (h.reapSession s now).1.heap = h.heap ∧
            (h.reapSession s now).1.cfg = h.cfg := by
          unfold Hub.reapSession
          dsimp only
          split
          next => exact ⟨rfl, rfl⟩
          next reason _ =>
            obtain ⟨hheap, hcfg⟩ := hclose h ((s.snapshot now).slots .host).live reason
            obtain ⟨hheap', hcfg'⟩ := hclose (h.notifyAndClose
              ((s.snapshot now).slots .host).live reason).1 ((s.snapshot now).slots .guest).live reason
            exact ⟨hheap'.trans hheap, hcfg'.trans hcfg⟩
        obtain ⟨hheap, hcfg⟩ := ih (h.reapSession s now).1
        exact ⟨hheap.trans hsession.1, hcfg.trans hsession.2⟩

/-- A message that a running handler reads. -/
theorem next_frame {c : ConnId} {slot : Slot} (hserving : x.relay.serving c = some slot)
    (msg : Incoming) (now : Time) : x.next (.frame c msg now) =
      some ⟨(x.relay.read c slot msg now).1,
        x.log ++ [⟨slot, msg, (x.relay.read c slot msg now).2⟩]⟩ := by
  have hentry : x.entry (.frame c msg now) = some ⟨slot, msg, (x.relay.read c slot msg now).2⟩ := by
    rw [entry, hserving]
    rfl
  rw [next, Relay.next, hentry, Relay.step, hserving]
  rfl

theorem serving_of_next_frame {c : ConnId} {msg : Incoming} {now : Time}
    (hstep : x.next (.frame c msg now) = some y) : ∃ slot, x.relay.serving c = some slot := by
  rw [next, Relay.next, Relay.step] at hstep
  cases hserving : x.relay.serving c with
  | none =>
      rw [hserving] at hstep
      cases hstep
  | some slot => exact ⟨slot, rfl⟩

theorem keepsFiles_endSession {h : Hub} {slot : Slot} {s : Session}
    (hs : h.heap[slot.ref]? = some s) : KeepsFiles h (h.EndSession slot).1 := by
  rw [Hub.EndSession, hs]
  dsimp only
  cases s.connAndIP slot.role.other <;> exact .of_heap rfl rfl

theorem keepsFiles_reconnectToken {h : Hub} {slot : Slot} {s : Session}
    (hs : h.heap[slot.ref]? = some s) (tokenHex : Option String) :
    KeepsFiles h (Relay.handleReconnectToken h slot tokenHex) := by
  unfold Relay.handleReconnectToken
  split
  next => exact .refl h
  next token _ =>
    rw [Hub.RegisterReconnectToken, hs]
    refine .of_set hs ?_ rfl rfl
    unfold Session.setReconnectToken
    split <;> rfl

/-- A binary frame is recorded. -/
theorem tracked_binary (hx : x.Tracked cfg) {c : ConnId} {slot : Slot} {s : Session}
    (hserving : x.relay.serving c = some slot) (hs : x.relay.hub.heap[slot.ref]? = some s)
    (data : Bytes) (now : Time) : Tracked cfg ⟨(x.relay.read c slot (.other true data) now).1,
      x.log ++ [⟨slot, .other true data, (x.relay.read c slot (.other true data) now).2⟩]⟩ := by
  have hlt := hx.placed c slot hserving
  have hhub : (x.relay.read c slot (.other true data) now).1.hub =
      x.relay.hub.setSession slot.ref
        ((s.touch now).recordChunkBytes data x.relay.hub.cfg.MaxFileSize).1 :=
    relay_binary hs data now
  have hlength : x.relay.hub.heap.length ≤
      (x.relay.read c slot (.other true data) now).1.hub.heap.length := by
    rw [hhub]
    exact (List.length_set ..).ge
  cases hheader : Session.chunkHeader data with
  | none =>
      -- a frame without a header is no part of any file
      have hsame : (s.touch now).recordChunkBytes data x.relay.hub.cfg.MaxFileSize =
          (s.touch now, none, false, false) := by
        rw [Session.recordChunkBytes, hheader]
      refine hx.plain hlt (by rw [chunkOf, hheader]; rfl) ?_
        (placed_of_conns hx.placed hlength fun _ _ => id)
      rw [hhub, hsame]
      exact .of_set (t := s.touch now) hs rfl rfl rfl
  | some header =>
      obtain ⟨fileID, isLast⟩ := header
      have hrecord := (Pipe.recordChunkBytes_tracks (s := s.touch now) hheader
        (hx.tracks slot.ref s hs)).1
      rw [← hx.config] at hrecord
      refine ⟨by rw [hhub]; exact hx.config, placed_of_conns hx.placed hlength fun _ _ => id,
        fun m hm => ?_, fun ref t ht => ?_⟩
      · rcases List.mem_append.mp hm with hold | hnew
        · exact lt_of_lt_of_le (hx.logged m hold) hlength
        · rw [List.mem_singleton.mp hnew]
          exact lt_of_lt_of_le hlt hlength
      · rw [hhub] at ht
        have hget : ∀ {ref : Nat} {s' : Session}, x.relay.hub.heap[ref]? = some s' → _ :=
          setSession_heap hs ((s.touch now).recordChunkBytes data x.relay.hub.cfg.MaxFileSize).1
        rw [history_append, chunks_append]
        by_cases href : ref = slot.ref
        · subst href
          rw [hget hs, if_pos rfl] at ht
          rw [if_pos rfl, ← Option.some.inj ht, ← hx.config]
          have hchunk : Pipe.chunks [(slot.role, Incoming.other true data)] =
              [⟨fileID, isLast, data.length⟩] := by
            simp [Pipe.chunks, chunkOf, hheader]
          rw [hchunk]
          exact hrecord
        · -- the records of the other sessions stay as they are
          have hlt' : ref < x.relay.hub.heap.length := by
            have := (List.getElem?_eq_some_iff.mp ht).1
            rw [Hub.setSession, List.length_set] at this
            exact this
          have hold := List.getElem?_eq_getElem hlt'
          rw [hget hold, if_neg href] at ht
          rw [if_neg (Ne.symm href)]
          have hnil : Pipe.chunks [] = [] := rfl
          rw [hnil, List.append_nil]
          exact hx.tracks ref t (hold.trans ht)

theorem tracked_read (hx : x.Tracked cfg) {c : ConnId} {slot : Slot}
    (hserving : x.relay.serving c = some slot) (msg : Incoming) (now : Time) :
    Tracked cfg ⟨(x.relay.read c slot msg now).1,
      x.log ++ [⟨slot, msg, (x.relay.read c slot msg now).2⟩]⟩ := by
  have hlt := hx.placed c slot hserving
  have hs := List.getElem?_eq_getElem hlt
  generalize x.relay.hub.heap[slot.ref] = s at hs
  cases msg with
  | endSession =>
      have hk := keepsFiles_endSession hs
      exact hx.plain hlt rfl hk (placed_of_conns hx.placed hk.length fun d slot' h' =>
        serving_applyEffects (z := x.relay) false _
          (serving_modify (z := ⟨x.relay.hub, _⟩) (f := Conn.finish) (fun _ => .inr rfl) h'))
  | reconnectToken tokenHex =>
      have hk := keepsFiles_reconnectToken hs tokenHex
      exact hx.plain hlt rfl hk (placed_of_conns hx.placed hk.length fun _ _ => id)
  | other binary data =>
      cases binary with
      | false =>
          have hk : KeepsFiles x.relay.hub (x.relay.hub.Relay slot false data now).1 := by
            unfold Hub.Relay
            rw [hs]
            exact .of_set (t := s.touch now) hs rfl rfl rfl
          exact hx.plain hlt rfl hk (placed_of_conns hx.placed hk.length fun _ _ => id)
      | true => exact tracked_binary hx hserving hs data now

theorem tracked_step (hx : x.Tracked cfg) (hstep : x.next e = some y) : y.Tracked cfg := by
  cases e with
  | begin ip first now draws => exact tracked_begin hx hstep
  | frame c msg now =>
      obtain ⟨slot, hserving⟩ := serving_of_next_frame hstep
      rw [next_frame hserving] at hstep
      obtain rfl := Option.some.inj hstep
      exact tracked_read hx hserving msg now
  | drop c =>
      obtain ⟨z, hnext, rfl⟩ := Option.map_eq_some_iff.mp hstep
      obtain ⟨⟨z', effects⟩, hz, rfl⟩ := Option.map_eq_some_iff.mp hnext
      unfold Relay.step at hz
      dsimp only at hz
      split at hz
      next =>
        obtain ⟨rfl, -⟩ := Prod.mk.inj (Option.some.inj hz)
        exact hx.quiet (.refl _) (placed_of_conns hx.placed (Nat.le_refl _) fun d slot h' =>
          serving_modify (z := x.relay) (f := Conn.shut false) (fun _ => .inl rfl) h')
      next => cases hz
  | readError c now =>
      obtain ⟨z, hnext, rfl⟩ := Option.map_eq_some_iff.mp hstep
      obtain ⟨⟨z', effects⟩, hz, rfl⟩ := Option.map_eq_some_iff.mp hnext
      obtain ⟨slot, hserving, heq⟩ := Option.map_eq_some_iff.mp hz
      obtain ⟨rfl, -⟩ := Prod.mk.inj heq
      have hs := List.getElem?_eq_getElem (hx.placed c slot hserving)
      have hk : KeepsFiles x.relay.hub (x.relay.hub.HandleDisconnect slot now).1 := by
        rw [Hub.HandleDisconnect, hs]
        refine .of_set hs ?_ rfl rfl
        split <;> rfl
      exact hx.quiet hk (placed_of_conns hx.placed hk.length fun d slot' h' =>
        serving_modify (z := x.relay) (f := Conn.finish) (fun _ => .inr rfl) h')
  | reap now ids =>
      obtain ⟨z, hnext, rfl⟩ := Option.map_eq_some_iff.mp hstep
      obtain ⟨⟨z', effects⟩, hz, rfl⟩ := Option.map_eq_some_iff.mp hnext
      unfold Relay.step at hz
      dsimp only at hz
      split at hz
      next =>
        obtain ⟨rfl, -⟩ := Prod.mk.inj (Option.some.inj hz)
        obtain ⟨hheap, hcfg⟩ := reapAll_books (x.relay.hub.sweep now) now ids
        have hk : KeepsFiles x.relay.hub (x.relay.hub.ReapOnce now ids).1 := .of_heap hheap hcfg
        exact hx.quiet hk (placed_of_conns hx.placed hk.length fun d slot' h' =>
          serving_applyEffects (z := x.relay) true _ h')
      next => cases hz

theorem tracked_init (cfg : Config) : (init cfg).Tracked cfg where
  config := rfl
  placed c slot h := by simp [init, Relay.init, Relay.serving] at h
  logged m hm := by cases hm
  tracks ref s hs := by simp [init, Relay.init, Hub.new] at hs

/-! ## What the peers receive -/

/-- Both handlers of a session run, each for the peer that its slot has. -/
structure Connected (x : Relay) (ref : Nat) (conn : Role → ConnId) : Prop where
  serving : ∀ role, x.serving (conn role) = some ⟨ref, role⟩
  slots : ∃ s, x.hub.heap[ref]? = some s ∧ ∀ role, s.connOf role = some (conn role)

theorem Connected.conn_inj {z : Relay} {ref : Nat} {conn : Role → ConnId} (h : Connected z ref conn)
    {role role' : Role} : conn role = conn role' ↔ role = role' := by
  refine ⟨fun heq => ?_, congrArg conn⟩
  have := h.serving role
  rw [heq, h.serving role'] at this
  exact (congrArg Slot.role (Option.some.inj this)).symm

/-- A message that does not end the session leaves both handlers where they are. -/
theorem Connected.read {z : Relay} {ref : Nat} {conn : Role → ConnId} (h : Connected z ref conn)
    (role : Role) {msg : Incoming} (hmsg : msg ≠ .endSession) (now : Time) :
    Connected (z.read (conn role) ⟨ref, role⟩ msg now).1 ref conn := by
  obtain ⟨s, hs, hslots⟩ := h.slots
  have hs' : z.hub.heap[(⟨ref, role⟩ : Slot).ref]? = some s := hs
  obtain ⟨t, -, hsame, hbooks, hconns⟩ := read_same hmsg hs' (conn role) now
  refine ⟨fun r => ?_, t, ?_, fun r => ?_⟩
  · rw [Relay.serving, hconns]
    exact h.serving r
  · rw [hbooks.heap, setSession_heap hs t hs, if_pos rfl]
  · rw [Session.connOf, hsame]
    exact hslots r

/-- What is sent to the other peer alone. -/
theorem filterMap_sentTo_other {z : Relay} {ref : Nat} {conn : Role → ConnId}
    (h : Connected z ref conn) (role peer : Role) (frame : Frame) :
    [Effect.send (conn role.other) frame].filterMap (sentTo (conn peer)) =
      if role = peer then [] else [frame] := by
  have hother : conn role.other = conn peer ↔ ¬ role = peer :=
    h.conn_inj.trans (by cases role <;> cases peer <;> decide)
  by_cases hrole : role = peer
  · have hne : ¬ conn role.other = conn peer := fun heq => hother.mp heq hrole
    rw [if_pos hrole, List.filterMap_cons, sentTo, if_neg hne, List.filterMap_nil]
  · rw [if_neg hrole, List.filterMap_cons, sentTo, if_pos (hother.mpr hrole), List.filterMap_nil]

/-- What is sent to both peers, host first. -/
theorem filterMap_sentTo_both {z : Relay} {ref : Nat} {conn : Role → ConnId}
    (h : Connected z ref conn) {s : Session} (hslots : ∀ role, s.connOf role = some (conn role))
    (fileID : FileId) (peer : Role) :
    (Hub.abortOversizedFile s fileID).filterMap (sentTo (conn peer)) =
      [.control (.fileAbort fileID.hex FileAbortReasonSizeLimit)] := by
  have hne : conn .host ≠ conn .guest := fun heq => Role.noConfusion (h.conn_inj.mp heq)
  have heffects : Hub.abortOversizedFile s fileID =
      [.send (conn .host) (.control (.fileAbort fileID.hex FileAbortReasonSizeLimit)),
        .send (conn .guest) (.control (.fileAbort fileID.hex FileAbortReasonSizeLimit))] := by
    simp [Hub.abortOversizedFile, hslots, sendEnvelope]
  rw [heffects]
  cases peer <;> simp [sentTo, hne, hne.symm]

/-- A chunk frame: each peer receives what the history before it says. -/
theorem read_delivers_chunk (hx : x.Tracked cfg) {ref : Nat} {conn : Role → ConnId}
    (h : Connected x.relay ref conn) (role : Role) {data : Bytes} {fileID : FileId} {isLast : Bool}
    (hheader : Session.chunkHeader data = some (fileID, isLast)) (now : Time) (peer : Role) :
    (x.relay.hub.Relay ⟨ref, role⟩ true data now).2.filterMap (sentTo (conn peer)) =
      Pipe.deliver cfg.MaxFileSize (x.history ref) (role, .other true data) peer := by
  obtain ⟨s, hs, hslots⟩ := h.slots
  have hrecord := (Pipe.recordChunkBytes_tracks (s := s.touch now) hheader (hx.tracks ref s hs)).2
  have hsame := (Session.recordChunkBytes_spec (s.touch now) data cfg.MaxFileSize).2
  have hchunk : chunkOf (.other true data) = some ⟨fileID, isLast, data.length⟩ := by
    rw [chunkOf, hheader]
    rfl
  generalize hc : (⟨fileID, isLast, data.length⟩ : Chunk) = c at hrecord hchunk
  have hid : fileID = c.fileID := by rw [← hc]
  generalize hr : Runs.before Chunk.fileID (Pipe.ended cfg.MaxFileSize)
    (Pipe.chunks (x.history ref)) c = r at hrecord
  cases hresult : (s.touch now).recordChunkBytes data cfg.MaxFileSize with
  | mk t rest =>
      rw [hresult] at hrecord hsame
      have hslots' : ∀ r, t.connOf r = some (conn r) := fun r => by
        rw [Session.connOf, hsame]
        exact hslots r
      have heffects := congrArg Prod.snd (Hub.Relay_binary (h := x.relay.hub) ⟨ref, role⟩ hs
        (by rw [hx.config, hresult, show rest = _ from hrecord]))
      rw [heffects]
      dsimp only
      rw [hslots' role.other, Option.map_some, Option.toList_some, Pipe.deliver]
      dsimp only
      rw [hchunk]
      dsimp only
      rw [show Pipe.runBefore cfg.MaxFileSize (x.history ref) c = r from hr]
      by_cases hover : Pipe.Over cfg.MaxFileSize r
      · rw [if_pos (decide_eq_true hover), if_pos hover, List.filterMap_nil]
      · rw [if_neg (by simp only [hover, decide_false, Bool.false_eq_true, not_false_eq_true]),
          if_neg hover, List.filterMap_append, filterMap_sentTo_other h role peer]
        by_cases hcross : Pipe.Over cfg.MaxFileSize (r ++ [c])
        · rw [if_pos (decide_eq_true ⟨hover, hcross⟩), if_pos hcross,
            filterMap_sentTo_both h hslots', hid]
        · have hquiet : ¬ decide (¬ Pipe.Over cfg.MaxFileSize r ∧
              Pipe.Over cfg.MaxFileSize (r ++ [c])) = true :=
            fun hboth => hcross (of_decide_eq_true hboth).2
          rw [if_neg hquiet, if_neg hcross, List.filterMap_nil, List.append_nil]

/-- One message: each peer receives what the history before it says. -/
theorem read_delivers (hx : x.Tracked cfg) {ref : Nat} {conn : Role → ConnId}
    (h : Connected x.relay ref conn) (role : Role) {msg : Incoming} (hmsg : msg ≠ .endSession)
    (now : Time) (peer : Role) :
    (x.relay.read (conn role) ⟨ref, role⟩ msg now).2.filterMap (sentTo (conn peer)) =
      Pipe.deliver cfg.MaxFileSize (x.history ref) (role, msg) peer := by
  obtain ⟨s, hs, hslots⟩ := h.slots
  cases msg with
  | endSession => exact absurd rfl hmsg
  | reconnectToken tokenHex => rfl
  | other binary data =>
      change (x.relay.hub.Relay ⟨ref, role⟩ binary data now).2.filterMap _ = _
      -- A frame that is no chunk frame is copied.
      have hplain : chunkOf (.other binary data) = none →
          (x.relay.hub.Relay ⟨ref, role⟩ binary data now).2 =
            [.send (conn role.other) (.relayed binary data)] →
          (x.relay.hub.Relay ⟨ref, role⟩ binary data now).2.filterMap (sentTo (conn peer)) =
            Pipe.deliver cfg.MaxFileSize (x.history ref) (role, .other binary data) peer := by
        intro hchunk heffects
        rw [heffects, filterMap_sentTo_other h role peer, Pipe.deliver]
        dsimp only
        rw [hchunk]
      cases binary with
      | false =>
          refine hplain rfl ?_
          rw [Hub.Relay_text ⟨ref, role⟩ hs, hslots role.other]
          rfl
      | true =>
          cases hheader : Session.chunkHeader data with
          | some header => exact read_delivers_chunk hx h role hheader now peer
          | none =>
              have hsame : (s.touch now).recordChunkBytes data x.relay.hub.cfg.MaxFileSize =
                  (s.touch now, none, false, false) := by
                rw [Session.recordChunkBytes, hheader]
              have hchunk : chunkOf (.other true data) = none := by
                rw [chunkOf, hheader]
                rfl
              refine hplain hchunk ?_
              have hother : (s.touch now).connOf role.other = some (conn role.other) :=
                hslots role.other
              rw [Hub.Relay_binary ⟨ref, role⟩ hs hsame, hother]
              rfl

/-- What the peers of a session receive is what its history says, whatever was
read in it before and whatever it is that they send. -/
theorem relay_transparent (cfg : Config) (es : List Event) (x : Piped)
    (hrun : Transition.run Piped.next (init cfg) es = some x) (ref : Nat) (conn : Role → ConnId)
    (hconn : Connected x.relay ref conn) (frames : List (Role × Incoming × Time))
    (hframes : ∀ m ∈ frames, m.2.1 ≠ .endSession) :
    ∃ y read, Transition.run Piped.next x (frames.map fun m => .frame (conn m.1) m.2.1 m.2.2) = some y ∧
      y.log = x.log ++ read ∧
      ∀ role, (read.flatMap Entry.effects).filterMap (sentTo (conn role)) =
        Pipe.received cfg.MaxFileSize role (x.history ref) (frames.map fun m => (m.1, m.2.1)) := by
  have hx : x.Tracked cfg :=
    Transition.invariant (fun _ _ _ hx hstep => tracked_step hx hstep) (tracked_init cfg) hrun
  clear hrun
  induction frames generalizing x with
  | nil => exact ⟨x, [], rfl, (List.append_nil _).symm, fun _ => rfl⟩
  | cons m frames ih =>
      obtain ⟨role, msg, now⟩ := m
      have hmsg : msg ≠ .endSession := hframes _ List.mem_cons_self
      have hnext := next_frame (hconn.serving role) msg now
      have hhistory := history_append x (x.relay.read (conn role) ⟨ref, role⟩ msg now).1
        ⟨⟨ref, role⟩, msg, (x.relay.read (conn role) ⟨ref, role⟩ msg now).2⟩ ref
      obtain ⟨y, read, hy, hlog, hreceived⟩ := ih _ (hconn.read role hmsg now)
        (fun m hm => hframes m (List.mem_cons_of_mem _ hm))
        (tracked_read hx (hconn.serving role) msg now)
      refine ⟨y, _ :: read, (Transition.run_cons hnext _).trans hy,
        hlog.trans (List.append_assoc ..), fun peer => ?_⟩
      rw [List.flatMap_cons, List.filterMap_append, hreceived peer, hhistory, if_pos rfl]
      exact congrArg (· ++ _) (read_delivers hx hconn role hmsg now peer)

/-! ## Three frames of a file, two of which the limit lets through -/

/-- A chunk frame of `n` bytes of ciphertext, from the file whose id repeats `id`. -/
def chunkFrame (id : UInt8) (isLast : Bool) (n : Nat) : Bytes :=
  [0x01, if isLast then 1 else 0] ++ List.replicate 16 id ++ List.replicate 8 0 ++
    List.replicate n 0

/-- The file id whose sixteen bytes are all `id`, to trace runs with. -/
def repeatedId (id : UInt8) : FileId where
  bytes := List.replicate 16 id
  length_eq := List.length_replicate

/-- A host and a guest, on the connections 0 and 1. -/
def paired : List Event :=
  [.begin "a" .createSession 0 (Relay.drawID "s"), .begin "b" (.join (some "s")) 0 (Relay.drawID "")]

/-- The connections of the traced pair: the host was accepted first and the guest
second. -/
def connOf : Role → ConnId
  | .host => 0
  | .guest => 1

theorem connected_paired : ∃ x, Transition.run next (init Relay.smallConfig) paired = some x ∧
    Connected x.relay 0 connOf ∧ x.history 0 = [] := by
  refine ⟨_, rfl, ⟨?_, _, rfl, ?_⟩, rfl⟩ <;> intro role <;> cases role <;> rfl

theorem relay_transparent_crossing :
    ∃ x y read, Transition.run next (init Relay.smallConfig) paired = some x ∧
      Transition.run next x
        [.frame 1 (.other false [7]) 1, .frame 0 (.other true (chunkFrame 5 false 34)) 1,
          .frame 0 (.other true (chunkFrame 5 false 34)) 2,
          .frame 0 (.other true (chunkFrame 5 true 34)) 3] = some y ∧
      y.log = x.log ++ read ∧
      (read.flatMap Entry.effects).filterMap (sentTo 0) =
        [.relayed false [7],
          .control (.fileAbort (repeatedId 5).hex FileAbortReasonSizeLimit)] ∧
      (read.flatMap Entry.effects).filterMap (sentTo 1) =
        [.relayed true (chunkFrame 5 false 34), .relayed true (chunkFrame 5 false 34),
          .control (.fileAbort (repeatedId 5).hex FileAbortReasonSizeLimit)] := by
  obtain ⟨x, hx, hconn, hhistory⟩ := connected_paired
  obtain ⟨y, read, hy, hlog, hreceived⟩ := relay_transparent Relay.smallConfig paired x hx 0 connOf
    hconn [(.guest, .other false [7], 1), (.host, .other true (chunkFrame 5 false 34), 1),
      (.host, .other true (chunkFrame 5 false 34), 2),
      (.host, .other true (chunkFrame 5 true 34), 3)] (by decide)
  rw [hhistory] at hreceived
  exact ⟨x, y, read, hx, hy, hlog, (hreceived .host).trans (by decide +kernel),
    (hreceived .guest).trans (by decide +kernel)⟩

end Piped

end Quicksend.Server
