import Quicksend.ReceiverTransfer

/-!
# What a saved row holds, and what an ack means

As long as no error is reported while a file is current, the row of the
current file is open and its sink holds the chunks that were acked. Both
machines then stay in step: a row that is closed holds its whole file.
-/

namespace Quicksend.ReceiverTransfer

open Receiver (Action Fits Fails Current Task Tracks Coherent Progressed Steps step_spec)

/-! ## The condition on a run -/

/-- No error while a file is current: the next frame fits it, its steps do
not fail, its writes are fulfilled. A write that was under way when its file
was cancelled ends badly, and a cancel does not fall into the restart of a
file that is being closed. -/
def Orderly (a : ReceiverArgs) (x : State) : Event → Prop
  | .start => ∀ m ∈ x.rcv.chain.head?, x.rcv.current.isSome = true → Fits x.rcv m
  | .settle err =>
      match x.rcv.running with
      | some (.chunkWrite _ _ _ _) =>
          if x.rcv.current.isSome = true then err = none
          else err = none → x.rcv.socketClosed = true
      | some task => Fails a x.rcv err task → x.rcv.current = none
      | none => True
  | .abortCurrent =>
      match x.rcv.running with
      | some (.metaStart fileIdHex _ _) =>
          x.rcv.current.isSome = true → ∀ p ∈ x.ui.lookup fileIdHex, p.2.closing = false
      | _ => True
  | _ => True

instance (a : ReceiverArgs) (x : State) (e : Event) : Decidable (Orderly a x e) := by
  unfold Orderly
  split
  · infer_instance
  · split <;> infer_instance
  · split <;> infer_instance
  · infer_instance

/-- A decryption that is about to settle opens no forgery. -/
def Authentic (a : ReceiverArgs) (sent : HonestFiles) (x : State) : Event → Prop
  | .settle err => Receiver.Authentic a sent (x.rcv, x.log) (.resume err)
  | _ => True

/-! ## The property -/

/-- The plaintexts of the first `k` chunks of a file, which is what its sink
should hold then. -/
def chunksOf (f : File) (k : Nat) : List Bytes := (List.range k).map f.chunk

/-- The file's row has a sink that was not aborted, and chunks `0..k` were
written to it. -/
def WrittenUpTo (sent : HonestFiles) (ui : Ui) (fileId : JSString) (k : Nat) : Prop :=
  ∃ r row id epochKey f, ui.lookup fileId = some (r, row) ∧ fileId = toHex id.bytes ∧
    sent id = some (epochKey, f) ∧ row.sink.aborted = false ∧ row.sink.parts = chunksOf f (k + 1)

/-- The row's sink was not aborted and holds every byte of its file. -/
def SavedWhole (sent : HonestFiles) (row : Row) : Prop :=
  row.sink.aborted = false ∧ ∃ id epochKey f, row.fileId = toHex id.bytes ∧
    sent id = some (epochKey, f) ∧ row.sink.parts.flatten = f.bytes

/-- What a step sends and shows is true of the sinks. -/
structure Truthful (sent : HonestFiles) (y : State) (out : List Action) : Prop where
  acked : ∀ fileId (k : Nat), .send (chunkAckMessage fileId k) ∈ out → WrittenUpTo sent y.ui fileId k
  saved : ∀ row ∈ y.ui.heap, row.status.isSaved = true → SavedWhole sent row

/-! ## Rows and their changes -/

variable {a : ReceiverArgs} {sent : HonestFiles}

theorem Ui.lookup_eq_some {ui : Ui} {fileId : JSString} {r : Nat} {row : Row} :
    ui.lookup fileId = some (r, row) ↔ ui.rows fileId = some r ∧ ui.heap[r]? = some row := by
  simp only [Ui.lookup, Option.bind_eq_some_iff, Option.map_eq_some_iff, Prod.mk.injEq]
  constructor
  · rintro ⟨r', hr, row', hrow, rfl, rfl⟩
    exact ⟨hr, hrow⟩
  · rintro ⟨hr, hrow⟩
    exact ⟨r, hr, row, hrow, rfl, rfl⟩

@[simp] theorem Ui.update_rows (ui : Ui) (r : Nat) (f : Row → Row) :
    (ui.update r f).rows = ui.rows := rfl

@[simp] theorem Ui.update_starting (ui : Ui) (r : Nat) (f : Row → Row) :
    (ui.update r f).starting = ui.starting := rfl

@[simp] theorem Ui.update_writing (ui : Ui) (r : Nat) (f : Row → Row) :
    (ui.update r f).writing = ui.writing := rfl

theorem Ui.update_heap (ui : Ui) (r i : Nat) (f : Row → Row) :
    (ui.update r f).heap[i]? = (ui.heap[i]?).map fun row => if r = i then f row else row := by
  rw [Ui.update, List.getElem?_modify]
  rfl

theorem Ui.update_heap_self {ui : Ui} {r : Nat} {row : Row} (h : ui.heap[r]? = some row)
    (f : Row → Row) : (ui.update r f).heap[r]? = some (f row) := by
  rw [Ui.update_heap, h, Option.map_some, if_pos rfl]

/-- The row holds its whole file: the chunks of a file that was sent under the
row's id, and all of them. -/
def Whole (sent : HonestFiles) (row : Row) : Prop :=
  ∃ id epochKey f, row.fileId = toHex id.bytes ∧ sent id = some (epochKey, f) ∧
    row.sink.parts = chunksOf f f.totalChunks

/-- A row that is closing or saved is done, intact and whole. -/
def RowOk (sent : HonestFiles) (row : Row) : Prop :=
  row.closing = true ∨ row.status.isSaved = true →
    row.done = true ∧ row.sink.aborted = false ∧ Whole sent row

/-- The rows of the screen stand under their own ids, and each of them holds only
what its file really has. -/
structure RowsOk (sent : HonestFiles) (ui : Ui) : Prop where
  named : ∀ fileId r, ui.rows fileId = some r → ∃ row, ui.heap[r]? = some row ∧ row.fileId = fileId
  row : ∀ row ∈ ui.heap, RowOk sent row

theorem RowsOk.at {ui : Ui} (h : RowsOk sent ui) {r : Nat} {row : Row}
    (hr : ui.heap[r]? = some row) : RowOk sent row := h.row row (List.mem_of_getElem? hr)

/-- A row that is not done has neither been closed nor saved. -/
theorem RowOk.fresh {row : Row} (h : RowOk sent row) (hd : row.done = false) :
    row.closing = false ∧ row.status.isSaved = false := by
  have hno : ¬ (row.closing = true ∨ row.status.isSaved = true) := fun hc => by
    simpa [hd] using (h hc).1
  simpa using hno

/-- Nor has one whose sink was aborted. -/
theorem RowOk.unsaved {row : Row} (h : RowOk sent row) (ha : row.sink.aborted = true) :
    row.closing = false ∧ row.status.isSaved = false := by
  have hno : ¬ (row.closing = true ∨ row.status.isSaved = true) := fun hc => by
    simpa [ha] using (h hc).2.1
  simpa using hno

theorem RowOk.of_fresh {row : Row} (hc : row.closing = false) (hs : row.status.isSaved = false) :
    RowOk sent row := by
  simp [RowOk, hc, hs]

theorem RowsOk.update {ui : Ui} (h : RowsOk sent ui) {r : Nat} {f : Row → Row}
    (hid : ∀ row, (f row).fileId = row.fileId)
    (hok : ∀ row, ui.heap[r]? = some row → RowOk sent (f row)) : RowsOk sent (ui.update r f) where
  named fileId i hi := by
    obtain ⟨row, hrow, rfl⟩ := h.named fileId i hi
    refine ⟨_, by rw [Ui.update_heap, hrow, Option.map_some], ?_⟩
    split
    · exact hid row
    · rfl
  row row' hmem := by
    obtain ⟨i, hi⟩ := List.getElem?_of_mem hmem
    rw [Ui.update_heap, Option.map_eq_some_iff] at hi
    obtain ⟨row, hrow, rfl⟩ := hi
    split
    next hri =>
      subst hri
      exact hok row hrow
    next => exact h.at hrow

/-! ## The screen against the receiver -/

/-- The step of the queue that runs waits for `onFileStart`, so the file's row is
still without a sink. -/
def startsFile : Option Task → Bool
  | some (.metaStart _ _ _) => true
  | _ => false

/-- The step of the queue that runs waits for `onChunk`, which is writing to a
row's sink. -/
def writesChunk : Option Task → Bool
  | some (.chunkWrite _ _ _ _) => true
  | _ => false

/-- The row of the current file is open, and its sink holds the chunks before
the next one. -/
def Filling (sent : HonestFiles) (ui : Ui) (fileId : JSString) (k : Nat) : Prop :=
  ∃ r row, ui.lookup fileId = some (r, row) ∧ row.done = false ∧ row.sink.aborted = false ∧
    ∀ id : FileId, fileId = toHex id.bytes →
      ∃ epochKey f, sent id = some (epochKey, f) ∧ row.sink.parts = chunksOf f k

/-- The rows are right, and the screen agrees with the receiver on the file being
opened, the file being filled and the row being written. -/
structure UiOk (sent : HonestFiles) (s : Receiver.State) (ui : Ui) : Prop
    extends RowsOk sent ui where
  starting : ∀ fileId key ciphertext, s.running = some (.metaStart fileId key ciphertext) →
    ∃ info, ui.starting = some (fileId, info)
  filling : ∀ c, s.current = some c → startsFile s.running = false →
    Filling sent ui c.fileIdHex c.expectedIndex
  /-- A row that is being written to is the current file's, or was aborted. -/
  writing : ∀ r, ui.writing = some r → writesChunk s.running = true ∧
    ∃ row, ui.heap[r]? = some row ∧ (row.sink.aborted = true ∨
      row.done = false ∧ ∃ c, s.current = some c ∧ ui.rows c.fileIdHex = some r)
  writes : ∀ c, s.current = some c → writesChunk s.running = true →
    ui.writing = ui.rows c.fileIdHex

theorem UiOk.init : UiOk sent Receiver.init Ui.init where
  named _ _ h := by cases h
  row _ h := by cases h
  starting _ _ _ h := by cases h
  filling _ h := by cases h
  writing _ h := by cases h
  writes _ h := by cases h

/-- Nothing is being written when no chunk's step awaits its write. -/
theorem UiOk.idle {s : Receiver.State} {ui : Ui} (h : UiOk sent s ui)
    (hrun : writesChunk s.running = false) : ui.writing = none := by
  cases hw : ui.writing with
  | none => rfl
  | some r =>
      have hw := (h.writing r hw).1
      rw [hrun] at hw
      cases hw

/-- A step that leaves `current` and the screen alone. -/
theorem UiOk.quiet {s t : Receiver.State} {ui : Ui} (h : UiOk sent s ui)
    (hcur : t.current = s.current)
    (hrun : t.running = s.running ∨ (startsFile s.running = false ∧ startsFile t.running = false ∧
      writesChunk s.running = false ∧ writesChunk t.running = false)) : UiOk sent t ui := by
  rcases hrun with hrun | ⟨hs, ht, hs', ht'⟩
  · exact ⟨h.toRowsOk, by rw [hrun]; exact h.starting, by rw [hrun, hcur]; exact h.filling,
      by rw [hrun, hcur]; exact h.writing, by rw [hrun, hcur]; exact h.writes⟩
  · refine ⟨h.toRowsOk, fun fileId key ciphertext hrun => ?_, fun c hc _ => ?_, fun r hr => ?_,
      fun c _ hw => ?_⟩
    · simp [hrun, startsFile] at ht
    · rw [hcur] at hc
      exact h.filling c hc hs
    · rw [h.idle hs'] at hr
      cases hr
    · rw [ht'] at hw
      cases hw

/-- The `onError` of a receiver that has no file left. -/
theorem UiOk.onError {s t : Receiver.State} {ui : Ui} (h : UiOk sent s ui) (hcur : t.current = none)
    (hstart : startsFile t.running = true → t.running = s.running)
    (hwrite : writesChunk s.running = true → writesChunk t.running = true) :
    UiOk sent t (onError ui) := by
  have hget : ∀ r : Nat, (ReceiverTransfer.onError ui).heap[r]? = (ui.heap[r]?).map fun row =>
      if ui.rows row.fileId = some r ∧ row.done = false then
        { row with done := true, status := .transferError, sink := row.sink.abort }
      else row := fun r => List.getElem?_mapIdx
  refine ⟨⟨fun fileId r hr => ?_, fun row hmem => ?_⟩, fun fileId key ciphertext hrun => ?_,
    fun c hc => ?_, fun r hr => ?_, fun c hc => ?_⟩
  · obtain ⟨row, hrow, rfl⟩ := h.named fileId r hr
    refine ⟨_, by rw [hget, hrow, Option.map_some], ?_⟩
    split <;> rfl
  · obtain ⟨r, hr⟩ := List.getElem?_of_mem hmem
    rw [hget, Option.map_eq_some_iff] at hr
    obtain ⟨row, hrow, rfl⟩ := hr
    split
    next hopen => exact .of_fresh ((h.at hrow).fresh hopen.2).1 rfl
    next => exact h.at hrow
  · exact h.starting fileId key ciphertext (by rw [← hstart (by rw [hrun]; rfl), hrun])
  · rw [hcur] at hc
    cases hc
  · obtain ⟨hw, row, hrow, hor⟩ := h.writing r hr
    refine ⟨hwrite hw, _, by rw [hget, hrow, Option.map_some], .inl ?_⟩
    split
    next => rfl
    next hno =>
      refine hor.resolve_right fun ⟨hd, c, _, hc⟩ => hno ⟨?_, hd⟩
      obtain ⟨row', hrow', hid⟩ := h.named _ r hc
      obtain rfl := Option.some.inj (hrow.symm.trans hrow')
      rw [hid, hc]
  · rw [hcur] at hc
    cases hc

/-- The `onAborted` of a file that is not being closed. -/
theorem UiOk.onAborted {s t : Receiver.State} {ui : Ui} {c : Current}
    (h : UiOk sent s ui) (hs : s.current = some c) (hcur : t.current = none)
    (hrun : t.running = s.running) (reason : Option JSString)
    (hopen : ∀ r row, ui.lookup c.fileIdHex = some (r, row) → row.closing = false) :
    UiOk sent t (onAborted ui c.fileIdHex reason) := by
  have hidle : ∀ ui' : Ui, RowsOk sent ui' → ui'.starting = ui.starting →
      (∀ r, ui'.writing = some r → ui.writing = some r ∧
        ∃ row, ui'.heap[r]? = some row ∧ row.sink.aborted = true) → UiOk sent t ui' := by
    intro ui' hrows hstart hw
    refine ⟨hrows, fun fileId key ciphertext hr => ?_, fun c hc => ?_, fun r hr => ?_,
      fun c hc => ?_⟩
    · rw [hstart]
      exact h.starting fileId key ciphertext (hrun ▸ hr)
    · rw [hcur] at hc
      cases hc
    · obtain ⟨hr, row, hrow, ha⟩ := hw r hr
      exact ⟨by rw [hrun]; exact (h.writing r hr).1, row, hrow, .inl ha⟩
    · rw [hcur] at hc
      cases hc
  unfold ReceiverTransfer.onAborted
  dsimp only
  split
  next r row hlook =>
    have hlook : ui.lookup c.fileIdHex = some (r, row) := hlook
    obtain ⟨hr, hrow⟩ := Ui.lookup_eq_some.mp hlook
    refine hidle _ ?_ rfl fun r' hr' => ⟨hr', ?_⟩
    · refine RowsOk.update ?_ ?_ fun row' hrow' => ?_
      · exact ⟨h.named, h.row⟩
      · exact fun _ => rfl
      obtain rfl := Option.some.inj (hrow.symm.trans hrow')
      -- the row that is marked was open, so nothing was promised of it
      refine .of_fresh (hopen r row hlook) ?_
      unfold abortStatusText
      split <;> rfl
    · obtain ⟨-, row', hrow', hor⟩ := h.writing r' hr'
      refine ⟨_, by rw [Ui.update_heap]; dsimp only; rw [hrow', Option.map_some], ?_⟩
      split
      next => rfl
      next hne =>
        -- a write to another row is of a file given up before
        refine hor.resolve_right fun ⟨_, c', hc', hr''⟩ => hne ?_
        obtain rfl := Option.some.inj (hs.symm.trans hc')
        exact Option.some.inj (hr.symm.trans hr'')
  next hlook =>
    refine hidle _ ⟨h.named, h.row⟩ rfl fun r' hr' => ⟨hr', ?_⟩
    obtain ⟨-, row', hrow', hor⟩ := h.writing r' hr'
    refine ⟨row', hrow', hor.resolve_right fun ⟨_, c', hc', hr''⟩ => ?_⟩
    obtain rfl := Option.some.inj (hs.symm.trans hc')
    have hlook : ui.lookup c.fileIdHex = none := hlook
    rw [Ui.lookup_eq_some.mpr ⟨hr'', hrow'⟩] at hlook
    cases hlook

/-- `onFileStart` begins, while its chain step is suspended. -/
theorem UiOk.onFileStart {s t : Receiver.State} {ui : Ui} {fileId : JSString} {key ciphertext : Bytes}
    (h : UiOk sent s ui) (hs : writesChunk s.running = false)
    (hrun : t.running = some (.metaStart fileId key ciphertext)) (info : FileMeta) :
    UiOk sent t (handle ui (.onFileStart fileId info)) := by
  refine ⟨⟨h.named, h.row⟩, fun fileId' key' ciphertext' hr => ?_, fun c _ hno => ?_,
    fun r hr => ?_, fun c _ hw => ?_⟩
  · obtain ⟨rfl, -, -⟩ := Task.metaStart.inj (Option.some.inj (hrun.symm.trans hr))
    exact ⟨info, rfl⟩
  · simp [hrun, startsFile] at hno
  · have hr : ui.writing = some r := hr
    rw [h.idle hs] at hr
    cases hr
  · simp [hrun, writesChunk] at hw

/-- `onFileStart` ends: the row of the file is new, and empty. -/
theorem UiOk.onSinkReady {s t : Receiver.State} {ui : Ui} {fileId : JSString}
    {key ciphertext : Bytes} {log : List Action} (h : UiOk sent s ui) (htracks : Tracks a sent (s, log))
    (hrun : s.running = some (.metaStart fileId key ciphertext)) (hcur : t.current = s.current)
    (ht : t.running = none) (info : FileMeta) (mode : SinkMode) :
    UiOk sent t (onSinkReady ui fileId info mode) := by
  refine ⟨⟨fun fileId' r hr => ?_, fun row hmem => ?_⟩, fun fileId' key' ciphertext' hr => ?_,
    fun c hc _ => ?_, fun r hr => ?_, fun c _ hw => ?_⟩
  · have hr : Function.update ui.rows fileId (some ui.heap.length) fileId' = some r := hr
    by_cases hid : fileId' = fileId
    · rw [hid, Function.update_self] at hr
      obtain rfl := Option.some.inj hr
      exact ⟨_, List.getElem?_concat_length, hid.symm⟩
    · rw [Function.update_of_ne hid] at hr
      obtain ⟨row, hrow, hname⟩ := h.named fileId' r hr
      have hlt : r < ui.heap.length := (List.getElem?_eq_some_iff.mp hrow).1
      exact ⟨row, (List.getElem?_append_left hlt).trans hrow, hname⟩
  · rcases List.mem_append.mp hmem with hmem | hmem
    · exact h.row row hmem
    · obtain rfl := List.mem_singleton.mp hmem
      refine .of_fresh rfl ?_
      dsimp only
      split <;> rfl
  · rw [ht] at hr
    cases hr
  · rw [hcur] at hc
    obtain ⟨-, -, hc'⟩ : Receiver.TaskOk a s.current (.metaStart fileId key ciphertext) :=
      htracks.coherent.task _ hrun
    obtain rfl := hc' c hc
    refine ⟨ui.heap.length, _, Ui.lookup_eq_some.mpr ⟨?_, List.getElem?_concat_length⟩, rfl, rfl,
      fun id hid => ?_⟩
    · exact Function.update_self ..
    · obtain ⟨epochKey, f, hsent, -⟩ := htracks.progress _ hc id hid
      exact ⟨epochKey, f, hsent, rfl⟩
  · have hr : ui.writing = some r := hr
    rw [h.idle (by rw [hrun]; rfl)] at hr
    cases hr
  · simp [ht, writesChunk] at hw

/-- `onChunk` begins to write to the row of the current file. -/
theorem UiOk.onChunk {s t : Receiver.State} {ui : Ui} {c : Current} (h : UiOk sent s ui)
    (hs : s.current = some c) (hcur : t.current = s.current) (hstart : startsFile s.running = false)
    (ht : startsFile t.running = false) (hw : writesChunk t.running = true) :
    UiOk sent t (onChunk ui c.fileIdHex) := by
  obtain ⟨r, row, hlook, hd, ha, hparts⟩ := h.filling c hs hstart
  obtain ⟨hr, hrow⟩ := Ui.lookup_eq_some.mp hlook
  have hui : ReceiverTransfer.onChunk ui c.fileIdHex = { ui with writing := some r } := by
    simp only [ReceiverTransfer.onChunk, hlook, hd, Bool.false_eq_true, if_false]
  rw [hui]
  refine ⟨⟨h.named, h.row⟩, fun fileId key ciphertext hr => ?_, fun c' hc' _ => ?_,
    fun r' hr' => ⟨hw, ?_⟩, fun c' hc' _ => ?_⟩
  · simp [hr, startsFile] at ht
  · exact h.filling c' (hcur ▸ hc') hstart
  · obtain rfl := Option.some.inj hr'
    exact ⟨row, hrow, .inr ⟨hd, c, hcur.trans hs, hr⟩⟩
  · obtain rfl := Option.some.inj ((hcur.trans hs).symm.trans hc')
    exact hr.symm

/-- A fulfilled write leaves rows that are closing or saved alone. -/
theorem UiOk.wrote {s : Receiver.State} {ui : Ui} {r : Nat} (h : UiOk sent s ui)
    (hw : ui.writing = some r) (plaintext : Bytes) : RowsOk sent (onWritten ui r plaintext) := by
  have hrows : RowsOk sent (ui.update r fun row => { row with
      sink := row.sink.write plaintext, received := row.received + plaintext.length }) := by
    refine h.toRowsOk.update (fun _ => rfl) fun row hrow => ?_
    obtain ⟨-, row', hrow', hor⟩ := h.writing r hw
    obtain rfl := Option.some.inj (hrow.symm.trans hrow')
    have hfresh : row.closing = false ∧ row.status.isSaved = false :=
      hor.elim (h.at hrow).unsaved fun hd => (h.at hrow).fresh hd.1
    exact .of_fresh hfresh.1 hfresh.2
  exact ⟨hrows.named, hrows.row⟩

/-- A fulfilled write of the current file's next chunk extends its sink. -/
theorem UiOk.written {s : Receiver.State} {ui : Ui} {c : Current} {key plaintext : Bytes}
    {frame : ChunkFrame} {index : Nat} (h : UiOk sent s ui) (hcur : s.current = some c)
    (hrun : s.running = some (.chunkWrite key frame index plaintext)) (hat : c.AtFrame key frame)
    (hindex : index = frame.index) (hdata : Receiver.DataAccepted a sent key frame index plaintext) :
    ∃ r, ui.writing = some r ∧
      ∃ row, (onWritten ui r plaintext).lookup c.fileIdHex = some (r, row) ∧ row.done = false ∧
        row.fileId = c.fileIdHex ∧ row.sink.aborted = false ∧
        ∃ epochKey f, sent frame.fileId = some (epochKey, f) ∧
          row.sink.parts = chunksOf f (index + 1) := by
  obtain ⟨r, row, hlook, hd, ha, hparts⟩ := h.filling c hcur (by rw [hrun]; rfl)
  obtain ⟨hr, hrow⟩ := Ui.lookup_eq_some.mp hlook
  obtain ⟨row', hrow', hname⟩ := h.named _ r hr
  obtain rfl := Option.some.inj (hrow.symm.trans hrow')
  refine ⟨r, (h.writes c hcur (by rw [hrun]; rfl)).trans hr, _,
    Ui.lookup_eq_some.mpr ⟨hr, Ui.update_heap_self hrow _⟩, hd, hname, ?_, ?_⟩
  · simp [Sink.write, ha]
  · obtain ⟨epochKey, f, hsent, hp⟩ := hparts frame.fileId hat.1
    obtain ⟨epochKey', f', hsent', -, -, hp', -⟩ := hdata
    obtain ⟨rfl, rfl⟩ := Prod.mk.inj (Option.some.inj (hsent.symm.trans hsent'))
    refine ⟨epochKey, f, hsent, ?_⟩
    have hk : c.expectedIndex = index := hat.2.1.trans hindex.symm
    rw [hk] at hp
    simp [Sink.write, ha, hp, hp', chunksOf, List.range_succ]

/-! ## One step -/

theorem stepReceiver_spec {x y : State} {e : Receiver.Event} {out : List Action}
    (h : stepReceiver a x e = some (y, out)) :
    ∃ t, Steps a x.rcv e t out ∧ y = ⟨t, out.foldl handle x.ui, x.log ++ out⟩ := by
  obtain ⟨⟨t, out'⟩, hstep, heq⟩ := Option.map_eq_some_iff.mp h
  obtain ⟨rfl, rfl⟩ := Prod.mk.inj heq
  exact ⟨t, step_spec hstep, rfl⟩

/-- The acks of a step are true: what an ack speaks of has been written to the row
by then. -/
def Acked (sent : HonestFiles) (ui : Ui) (out : List Action) : Prop :=
  ∀ fileId (k : Nat), .send (chunkAckMessage fileId k) ∈ out → WrittenUpTo sent ui fileId k

theorem Acked.nil {ui : Ui} : Acked sent ui [] := by simp [Acked]

theorem Acked.of_call {ui : Ui} {act : Action} (h : ∀ m, act ≠ .send m) : Acked sent ui [act] :=
  fun _ _ hmem => absurd (List.mem_singleton.mp hmem).symm (h _)

/-- The acks among what the end of a chunk's step puts out. -/
theorem Acked.of_chunk {s : Receiver.State} {ui : Ui} {fileId : JSString} {index : Nat}
    {isLast : Bool} {plaintext : Bytes} {rest : List Action} (hrest : ∀ m, .send m ∉ rest)
    (h : s.socketClosed = false → WrittenUpTo sent ui fileId index) :
    Acked sent ui (.chunkResolved fileId index isLast plaintext
      :: s.put (chunkAckMessage fileId index) ++ rest) := by
  intro fileId' k hmem
  rcases List.mem_append.mp hmem with hmem | hmem
  · rcases List.mem_cons.mp hmem with hmem | hmem
    · cases hmem
    · unfold Receiver.State.put at hmem
      split at hmem
      next => cases hmem
      next hopen =>
        have hmsg := Action.send.inj (List.mem_singleton.mp hmem)
        simp only [chunkAckMessage, Message.text.injEq, Envelope.chunkAck.injEq, Option.some.injEq,
          ChunkAckPayload.mk.injEq, Int.natCast_inj] at hmsg
        obtain ⟨rfl, rfl⟩ := hmsg
        exact h (by simpa using hopen)
  · exact absurd hmem (hrest _)

theorem foldl_handle_put (ui : Ui) (s : Receiver.State) (m : Message) :
    (s.put m).foldl handle ui = ui := by
  unfold Receiver.State.put
  split <;> rfl

/-- What the screen makes of the end of a chunk's step. -/
theorem foldl_handle_chunk (ui : Ui) (s : Receiver.State) (m : Message) (fileId : JSString)
    (index : Nat) (isLast : Bool) (plaintext : Bytes) (rest : List Action) :
    (.chunkResolved fileId index isLast plaintext :: s.put m ++ rest).foldl handle ui
      = rest.foldl handle ui := by
  rw [List.cons_append, List.foldl_cons, List.foldl_append, foldl_handle_put]
  rfl

/-- What a step keeps: the screen agrees with the receiver, and the acks of the
step are true. -/
def Kept (sent : HonestFiles) (y : State) (out : List Action) : Prop :=
  UiOk sent y.rcv y.ui ∧ Acked sent y.ui out

theorem kept_start {x y : State} {out : List Action} (hx : UiOk sent x.rcv x.ui)
    (hord : Orderly a x .start) (h : step a x .start = some (y, out)) : Kept sent y out := by
  obtain ⟨t, hst, rfl⟩ := stepReceiver_spec h
  cases hst with
  | metaBegun fileIdHex ciphertext chain hrun hchain =>
      exact ⟨hx.quiet rfl (.inr (by simp [hrun, startsFile, writesChunk])), .nil⟩
  | chunkBegun buffer frame c chain hrun hchain =>
      exact ⟨hx.quiet rfl (.inr (by simp [hrun, startsFile, writesChunk])), .nil⟩
  | dropped => exact ⟨hx.quiet rfl (.inl rfl), .nil⟩
  | peerAborted c p chain hrun hchain hcur hid =>
      refine ⟨?_, .of_call (by simp)⟩
      have hnone : ({ x.rcv with chain := chain, current := none } : Receiver.State).current = none :=
        rfl
      refine hx.onAborted hcur hnone rfl p.reason fun r row hlook => ?_
      obtain ⟨r', row', hlook', hd, -, -⟩ := hx.filling c hcur (by rw [hrun]; rfl)
      obtain ⟨rfl, rfl⟩ := Prod.mk.inj (Option.some.inj (hlook.symm.trans hlook'))
      exact ((hx.at (Ui.lookup_eq_some.mp hlook).2).fresh hd).1
  | refused m chain e hrun hchain hfit =>
      have hnone : x.rcv.current = none := by
        by_contra hsome
        exact hfit (hord m (by simp [hchain]) (Option.isSome_iff_ne_none.mpr hsome))
      exact ⟨hx.onError hnone (fun _ => rfl) fun hw => hw, .of_call (by simp)⟩

/-- A derivation or a decryption settles. -/
theorem kept_resume {x y : State} {err : Option String} {task : Task} {out : List Action}
    (hx : UiOk sent x.rcv x.ui) (htracks : Tracks a sent (x.rcv, x.log))
    (hrun : x.rcv.running = some task) (hstart : startsFile (some task) = false)
    (hwrite : writesChunk (some task) = false) (hord : Fails a x.rcv err task → x.rcv.current = none)
    (h : stepReceiver a x (.resume err) = some (y, out)) : Kept sent y out := by
  have hs : startsFile x.rcv.running = false := by rw [hrun]; exact hstart
  have hw : writesChunk x.rcv.running = false := by rw [hrun]; exact hwrite
  obtain ⟨t, hst, rfl⟩ := stepReceiver_spec h
  cases hst with
  | failed task' _ e hrun' hfail =>
      obtain rfl := Option.some.inj (hrun.symm.trans hrun')
      exact ⟨hx.onError (hord hfail) (by simp [startsFile]) (by simp [hw]), .of_call (by simp)⟩
  | metaKeyed => exact ⟨hx.quiet rfl (.inr ⟨hs, rfl, hw, rfl⟩), .nil⟩
  | metaOpened fileIdHex key ciphertext plaintext info hrun' =>
      exact ⟨hx.onFileStart hw rfl info, .of_call (by simp)⟩
  | metaDone fileIdHex key ciphertext hrun' =>
      rw [hrun'] at hs
      cases hs
  | chunkOpened key frame c plaintext hrun' hcur =>
      obtain ⟨-, -, hat⟩ : Receiver.TaskOk a x.rcv.current (.chunkDecrypt key frame) :=
        htracks.coherent.task _ hrun'
      refine ⟨?_, .of_call (by simp)⟩
      rw [← (hat c hcur).1]
      exact hx.onChunk hcur rfl hs rfl rfl
  | chunkOrphaned key frame index plaintext hrun'
  | chunkLast key frame index plaintext c hrun'
  | chunkMore key frame index plaintext c hrun' =>
      rw [hrun'] at hw
      cases hw

/-- A receiver without a file, while nothing starts or is written. -/
theorem UiOk.of_none {s : Receiver.State} {ui : Ui} (h : RowsOk sent ui) (hcur : s.current = none)
    (hrun : startsFile s.running = false) (hw : ui.writing = none) : UiOk sent s ui := by
  refine ⟨h, fun fileId key ciphertext hr => ?_, fun c hc => ?_, fun r hr => ?_, fun c hc => ?_⟩
  · simp [hr, startsFile] at hrun
  · simp [hcur] at hc
  · simp [hw] at hr
  · simp [hcur] at hc

/-- A write settles after its file was abandoned. -/
theorem kept_orphaned {s : Receiver.State} {ui : Ui} {log : List Action} {y : State}
    {err : Option String} {key plaintext : Bytes} {frame : ChunkFrame} {index : Nat}
    {out : List Action} (hui : RowsOk sent ui) (hw : ui.writing = none)
    (hrun : s.running = some (.chunkWrite key frame index plaintext)) (hcur : s.current = none)
    (hclosed : err = none → s.socketClosed = true)
    (h : stepReceiver a ⟨s, ui, log⟩ (.resume err) = some (y, out)) : Kept sent y out := by
  have hnone : UiOk sent { s with running := none } ui := .of_none hui hcur rfl hw
  obtain ⟨t, hst, rfl⟩ := stepReceiver_spec h
  cases hst with
  | failed => exact ⟨hnone.onError hcur (fun _ => rfl) fun hw => hw, .of_call (by simp)⟩
  | chunkOrphaned key' frame' index' plaintext' hrun' =>
      refine ⟨?_, .of_chunk (by simp) fun hopen => absurd hopen (by simp [hclosed rfl])⟩
      dsimp only
      rw [foldl_handle_chunk]
      exact hnone.onError hcur (fun _ => rfl) fun hw => hw
  | metaKeyed fileIdHex ciphertext fileKey hrun'
  | metaOpened fileIdHex fileKey ciphertext plaintext info hrun'
  | metaDone fileIdHex fileKey ciphertext hrun' =>
      rw [hrun] at hrun'
      cases hrun'
  | chunkOpened fileKey frame c plaintext hrun' hcur'
  | chunkLast fileKey frame index plaintext c hrun' hcur'
  | chunkMore fileKey frame index plaintext c hrun' hcur' =>
      rw [hcur] at hcur'
      cases hcur'

/-- A write of the current file's next chunk is fulfilled. -/
theorem kept_written {x y : State} {ui : Ui} {c : Current} {key plaintext : Bytes}
    {frame : ChunkFrame} {index r : Nat} {row : Row} {epochKey : Bytes} {f : File} {out : List Action}
    (hui : RowsOk sent ui) (hw : ui.writing = none) (hcur : x.rcv.current = some c)
    (hrun : x.rcv.running = some (.chunkWrite key frame index plaintext))
    (hat : c.AtFrame key frame) (hindex : index = frame.index)
    (hdata : Receiver.DataAccepted a sent key frame index plaintext)
    (hlook : ui.lookup c.fileIdHex = some (r, row)) (hd : row.done = false)
    (hname : row.fileId = c.fileIdHex) (ha : row.sink.aborted = false)
    (hsent : sent frame.fileId = some (epochKey, f)) (hparts : row.sink.parts = chunksOf f (index + 1))
    (h : stepReceiver a { x with ui := ui } (.resume none) = some (y, out)) : Kept sent y out := by
  obtain ⟨hr, hrow⟩ := Ui.lookup_eq_some.mp hlook
  obtain ⟨t, hst, rfl⟩ := stepReceiver_spec h
  cases hst with
  | chunkMore key' frame' index' plaintext' c' hrun' hcur' hlast =>
      obtain ⟨rfl, rfl, rfl, rfl⟩ := Task.chunkWrite.inj (Option.some.inj (hrun.symm.trans hrun'))
      obtain rfl := Option.some.inj (hcur.symm.trans hcur')
      have hout := foldl_handle_chunk ui x.rcv (chunkAckMessage (toHex frame.fileId.bytes) index)
        (toHex frame.fileId.bytes) index frame.isLast plaintext []
      rw [List.append_nil] at hout
      refine ⟨?_, ?_⟩
      · dsimp only
        rw [hout]
        refine ⟨hui, by simp, fun c' hc' _ => ?_, fun r' hr' => ?_, by simp [writesChunk]⟩
        · obtain rfl := Option.some.inj hc'
          refine ⟨r, row, hlook, hd, ha, fun id hid => ?_⟩
          obtain rfl : id = frame.fileId := FileId.ext (toHex_inj (hid.symm.trans hat.1))
          exact ⟨epochKey, f, hsent, by rw [hparts, hindex, ← hat.2.1]⟩
        · have hr' : ui.writing = some r' := hr'
          rw [hw] at hr'
          cases hr'
      · -- the ack goes out when the row has the chunk and all before it
        have hacked : Acked sent ui (.chunkResolved (toHex frame.fileId.bytes) index frame.isLast
            plaintext :: x.rcv.put (chunkAckMessage (toHex frame.fileId.bytes) index) ++ []) :=
          .of_chunk (by simp) fun _ =>
            ⟨r, row, frame.fileId, epochKey, f, hat.1 ▸ hlook, rfl, hsent, ha, hparts⟩
        dsimp only
        rw [hout]
        rwa [List.append_nil] at hacked
  | chunkLast key' frame' index' plaintext' c' hrun' hcur' hlast =>
      obtain ⟨rfl, rfl, rfl, rfl⟩ := Task.chunkWrite.inj (Option.some.inj (hrun.symm.trans hrun'))
      obtain rfl := Option.some.inj (hcur.symm.trans hcur')
      obtain ⟨epochKey', f', hsent', -, hlast', -⟩ := hdata
      obtain ⟨rfl, rfl⟩ := Prod.mk.inj (Option.some.inj (hsent.symm.trans hsent'))
      -- the last chunk: the row has the whole file when it begins to close
      have hn : index + 1 = f.totalChunks := by
        have := f.totalChunks_pos
        have := of_decide_eq_true (hlast'.symm.trans hlast)
        omega
      let closing : Row → Row := fun row => { row with done := true, closing := true }
      have hdone : onFileComplete ui (toHex frame.fileId.bytes)
          = { ui.update r closing with receiving := false } := by
        rw [← hat.1, onFileComplete]
        dsimp only
        rw [show ({ ui with receiving := false } : Ui).lookup c.fileIdHex = some (r, row) from hlook]
        rfl
      have hrows : RowsOk sent (ui.update r closing) := by
        refine hui.update (fun _ => rfl) fun row' hrow' => ?_
        obtain rfl := Option.some.inj (hrow.symm.trans hrow')
        exact fun _ => ⟨rfl, ha, frame.fileId, epochKey, f, hname.trans hat.1, hsent, hn ▸ hparts⟩
      refine ⟨?_, ?_⟩
      · dsimp only
        rw [foldl_handle_chunk]
        change UiOk sent _ (onFileComplete ui _)
        rw [hdone]
        exact .of_none ⟨hrows.named, hrows.row⟩ rfl rfl hw
      · dsimp only
        rw [foldl_handle_chunk]
        change Acked sent (onFileComplete ui _) _
        rw [hdone]
        exact .of_chunk (by simp) fun _ => ⟨r, closing row, frame.fileId, epochKey, f,
          Ui.lookup_eq_some.mpr ⟨hat.1 ▸ hr, Ui.update_heap_self hrow closing⟩, rfl, hsent, ha, hparts⟩
  | chunkOrphaned key' frame' index' plaintext' hrun' hcur' =>
      rw [hcur] at hcur'
      cases hcur'
  | failed task err e hrun' hfail =>
      obtain rfl := Option.some.inj (hrun.symm.trans hrun')
      exact absurd rfl hfail
  | metaKeyed fileIdHex ciphertext fileKey hrun'
  | metaOpened fileIdHex fileKey ciphertext plaintext info hrun'
  | metaDone fileIdHex fileKey ciphertext hrun'
  | chunkOpened fileKey frame c plaintext hrun' =>
      rw [hrun] at hrun'
      cases hrun'

theorem kept_write {x y : State} {err : Option String} {key plaintext : Bytes} {frame : ChunkFrame}
    {index : Nat} {out : List Action} (hx : UiOk sent x.rcv x.ui)
    (htracks : Tracks a sent (x.rcv, x.log))
    (hrun : x.rcv.running = some (.chunkWrite key frame index plaintext))
    (hord : if x.rcv.current.isSome = true then err = none
      else err = none → x.rcv.socketClosed = true)
    (h : stepWrite a x plaintext err = some (y, out)) : Kept sent y out := by
  cases hcur : x.rcv.current with
  | none =>
      -- the file was given up; the chunk may go to its row, but no ack goes out
      have hclosed : err = none → x.rcv.socketClosed = true := by simpa [hcur] using hord
      unfold stepWrite at h
      split at h
      next hw =>
        split at h
        next herr => exact kept_orphaned hx.toRowsOk hw hrun hcur (fun _ => hclosed herr) h
        next => cases h
      next r hw =>
        split at h
        next => cases h
        next => exact kept_orphaned (hx.wrote hw plaintext) rfl hrun hcur hclosed h
        next row e _ =>
          split at h
          next =>
            have hrows : RowsOk sent { x.ui with writing := none } := ⟨hx.named, hx.row⟩
            exact kept_orphaned hrows rfl hrun hcur (by simp) h
          next => cases h
  | some c =>
      -- a write of a file still received succeeds, to the row of the file
      obtain rfl : err = none := by simpa [hcur] using hord
      obtain ⟨-, -, -, hindex, hat⟩ :
          Receiver.TaskOk a x.rcv.current (.chunkWrite key frame index plaintext) :=
        htracks.coherent.task _ hrun
      obtain ⟨-, hdata⟩ : Receiver.TaskHonest a sent (.chunkWrite key frame index plaintext) :=
        htracks.task _ hrun
      obtain ⟨r, hw, row, hlook, hd, hname, ha, epochKey, f, hsent, hparts⟩ :=
        hx.written hcur hrun (hat c hcur) hindex hdata
      unfold stepWrite at h
      rw [hw] at h
      dsimp only at h
      split at h
      next => cases h
      next =>
        exact kept_written (hx.wrote hw plaintext) rfl hcur hrun (hat c hcur) hindex hdata hlook hd
          hname ha hsent hparts h
      next herr => cases herr

theorem kept_sinkReady {x y : State} {fileId fileId' : JSString} {key ciphertext : Bytes}
    {info : FileMeta} {mode : SinkMode} {out : List Action} (hx : UiOk sent x.rcv x.ui)
    (htracks : Tracks a sent (x.rcv, x.log))
    (hrun : x.rcv.running = some (.metaStart fileId key ciphertext))
    (hstart : x.ui.starting = some (fileId', info))
    (h : stepReceiver a { x with ui := onSinkReady x.ui fileId' info mode } (.resume none)
      = some (y, out)) : Kept sent y out := by
  obtain ⟨info', hinfo⟩ := hx.starting fileId key ciphertext hrun
  obtain ⟨rfl, rfl⟩ := Prod.mk.inj (Option.some.inj (hstart.symm.trans hinfo))
  obtain ⟨t, hst, rfl⟩ := stepReceiver_spec h
  cases hst with
  | metaDone =>
      refine ⟨?_, .nil⟩
      have hcur : ({ x.rcv with running := none } : Receiver.State).current = x.rcv.current := rfl
      exact hx.onSinkReady htracks hrun hcur rfl info mode
  | failed task _ e hrun' hfail =>
      obtain rfl := Option.some.inj (hrun.symm.trans hrun')
      exact absurd rfl hfail
  | metaKeyed fileIdHex ciphertext fileKey hrun'
  | metaOpened fileIdHex fileKey ciphertext plaintext info hrun'
  | chunkOpened fileKey frame c plaintext hrun'
  | chunkOrphaned fileKey frame index plaintext hrun'
  | chunkLast fileKey frame index plaintext c hrun'
  | chunkMore fileKey frame index plaintext c hrun' =>
      rw [hrun] at hrun'
      cases hrun'

theorem kept_sinkClosed {x y : State} {r : Nat} {err : Option String} {out : List Action}
    (hx : UiOk sent x.rcv x.ui) (h : step a x (.sinkClosed r err) = some (y, out)) :
    Kept sent y out := by
  -- closing changes a row's status, neither its sink nor whether it is done
  have hkept : ∀ f : Row → Row, (∀ row, (f row).fileId = row.fileId ∧ (f row).sink = row.sink ∧
      (f row).done = row.done) → (∀ row, x.ui.heap[r]? = some row → RowOk sent (f row)) →
      UiOk sent x.rcv (x.ui.update r f) := by
    intro f hf hok
    have hget : ∀ {i : Nat} {row : Row}, x.ui.heap[i]? = some row →
        ∃ row', (x.ui.update r f).heap[i]? = some row' ∧ row'.sink = row.sink ∧
          row'.done = row.done := by
      intro i row hrow
      refine ⟨_, by rw [Ui.update_heap, hrow, Option.map_some], ?_⟩
      split
      · exact (hf row).2
      · exact ⟨rfl, rfl⟩
    refine ⟨hx.toRowsOk.update (fun row => (hf row).1) hok, hx.starting, fun c hc hs => ?_,
      fun i hi => ?_, hx.writes⟩
    · obtain ⟨i, row, hlook, hd, ha, hparts⟩ := hx.filling c hc hs
      obtain ⟨hi, hrow⟩ := Ui.lookup_eq_some.mp hlook
      obtain ⟨row', hrow', hsink, hdone⟩ := hget hrow
      exact ⟨i, row', Ui.lookup_eq_some.mpr ⟨hi, hrow'⟩, hdone.trans hd, by rw [hsink, ha],
        by rw [hsink]; exact hparts⟩
    · obtain ⟨hw, row, hrow, hor⟩ := hx.writing i hi
      obtain ⟨row', hrow', hsink, hdone⟩ := hget hrow
      exact ⟨hw, row', hrow', by rw [hsink, hdone]; exact hor⟩
  have hupdate : ∀ f : Row → Row, (∀ row, (f row).fileId = row.fileId ∧ (f row).sink = row.sink ∧
      (f row).done = row.done) → ∀ row, x.ui.heap[r]? = some row → row.closing = true →
      UiOk sent x.rcv (x.ui.update r f) := by
    intro f hf row hrow hc
    refine hkept f hf fun row' hrow' _ => ?_
    obtain rfl := Option.some.inj (hrow.symm.trans hrow')
    -- a row that was closing has its whole file
    obtain ⟨hd, ha, hwhole⟩ := hx.at hrow (.inl hc)
    rw [Whole, ← (hf row).2.1, ← (hf row).1] at hwhole
    exact ⟨(hf row).2.2.trans hd, (hf row).2.1 ▸ ha, hwhole⟩
  cases hrow : x.ui.heap[r]? with
  | none => simp [step, hrow] at h
  | some row =>
      cases err with
      | none =>
          simp only [step, hrow, Bool.and_eq_true, Option.ite_none_right_eq_some, Option.some.injEq,
            Prod.mk.injEq] at h
          obtain ⟨⟨hc, -⟩, rfl, rfl⟩ := h
          exact ⟨hupdate onClosed (fun _ => ⟨rfl, rfl, rfl⟩) row hrow hc, .nil⟩
      | some e =>
          simp only [step, hrow, Bool.and_eq_true, Option.ite_none_right_eq_some, Option.some.injEq,
            Prod.mk.injEq] at h
          obtain ⟨⟨hc, -⟩, rfl, rfl⟩ := h
          exact ⟨hupdate _ (fun _ => ⟨rfl, rfl, rfl⟩) row hrow hc, .nil⟩

/-- A cancel finds the row of the current file open. -/
theorem closing_of_orderly {x : State} {c : Current} (hx : UiOk sent x.rcv x.ui)
    (htracks : Tracks a sent (x.rcv, x.log)) (hord : Orderly a x .abortCurrent)
    (hcur : x.rcv.current = some c) (r : Nat) (row : Row)
    (hlook : x.ui.lookup c.fileIdHex = some (r, row)) : row.closing = false := by
  cases hstart : startsFile x.rcv.running with
  | true =>
      unfold startsFile at hstart
      split at hstart
      next fileId key ciphertext hrun =>
        obtain ⟨-, -, hc⟩ : Receiver.TaskOk a x.rcv.current (.metaStart fileId key ciphertext) :=
          htracks.coherent.task _ hrun
        obtain rfl := hc c hcur
        simp only [Orderly, hrun, hcur] at hord
        exact hord rfl (r, row) hlook
      next => cases hstart
  -- the file has been started, so the row is the one it fills
  | false =>
      obtain ⟨r', row', hlook', hd, -, -⟩ := hx.filling c hcur hstart
      obtain ⟨rfl, rfl⟩ := Prod.mk.inj (Option.some.inj (hlook.symm.trans hlook'))
      exact ((hx.at (Ui.lookup_eq_some.mp hlook).2).fresh hd).1

/-- **The step lemma.** -/
theorem kept_step {x y : State} {e : Event} {out : List Action} (hx : UiOk sent x.rcv x.ui)
    (htracks : Tracks a sent (x.rcv, x.log)) (hord : Orderly a x e)
    (h : step a x e = some (y, out)) : Kept sent y out := by
  cases e with
  | message m =>
      obtain ⟨t, hst, rfl⟩ := stepReceiver_spec h
      cases hst with
      | queued | ignored => exact ⟨hx.quiet rfl (.inl rfl), .nil⟩
  | start => exact kept_start hx hord h
  | settle err =>
      rw [step] at h
      split at h
      next => cases h
      next => cases h
      next key frame index plaintext hrun =>
        simp only [Orderly, hrun] at hord
        exact kept_write hx htracks hrun hord h
      next task hno hno' hrun =>
        -- neither a write nor a start: no sink is concerned
        have hs : startsFile (some task) = false := by
          cases task <;> first | rfl | exact absurd rfl (hno _ _ _)
        have hw : writesChunk (some task) = false := by
          cases task <;> first | rfl | exact absurd rfl (hno' _ _ _ _)
        refine kept_resume hx htracks hrun hs hw ?_ h
        cases task <;> first
          | simpa only [Orderly, hrun] using hord
          | exact absurd rfl (hno' _ _ _ _)
  | sinkReady mode =>
      rw [step] at h
      split at h
      next hrun hstart => exact kept_sinkReady hx htracks hrun hstart h
      next => cases h
  | sinkClosed r err => exact kept_sinkClosed hx h
  | close =>
      obtain ⟨t, hst, rfl⟩ := stepReceiver_spec h
      cases hst with
      | closed c => exact ⟨hx.onError rfl (fun _ => rfl) fun hw => hw, .of_call (by simp)⟩
      | closedIdle => exact ⟨hx.quiet rfl (.inl rfl), .nil⟩
  | abortCurrent =>
      obtain ⟨t, hst, rfl⟩ := stepReceiver_spec h
      cases hst with
      | aborted c hcur =>
          refine ⟨?_, fun fileId k hmem => ?_⟩
          · have hnone : ({ x.rcv with current := none } : Receiver.State).current = none := rfl
            dsimp only
            rw [List.foldl_append, foldl_handle_put]
            exact hx.onAborted hcur hnone rfl none (closing_of_orderly hx htracks hord hcur)
          · rcases List.mem_append.mp hmem with hmem | hmem
            · unfold Receiver.State.put at hmem
              split at hmem <;> simp [fileAbortMessage, chunkAckMessage] at hmem
            · simp at hmem
      | abortedIdle => exact ⟨hx.quiet rfl (.inl rfl), .nil⟩
  | detach =>
      obtain ⟨t, hst, rfl⟩ := stepReceiver_spec h
      cases hst with
      | detached => exact ⟨hx.quiet rfl (.inl rfl), .nil⟩

/-! ## Runs -/

theorem stepReceiver_tracks {s : Receiver.State} {ui : Ui} {log : List Action} {y : State}
    {e : Receiver.Event} {out : List Action} (h : stepReceiver a ⟨s, ui, log⟩ e = some (y, out))
    (hx : Tracks a sent (s, log)) (hauth : Receiver.Authentic a sent (s, log) e) :
    Tracks a sent (y.rcv, y.log) := by
  obtain ⟨⟨t, out'⟩, hstep, heq⟩ := Option.map_eq_some_iff.mp h
  obtain ⟨rfl, rfl⟩ := Prod.mk.inj heq
  refine Receiver.tracks_step (s, log) e _ hx hauth ?_
  rw [Receiver.observe, hstep]
  rfl

theorem tracks_step {x y : State} {e : Event} {out : List Action}
    (hx : Tracks a sent (x.rcv, x.log)) (hauth : Authentic a sent x e)
    (h : step a x e = some (y, out)) : Tracks a sent (y.rcv, y.log) := by
  cases e with
  | message | start | close | abortCurrent | detach => exact stepReceiver_tracks h hx trivial
  | settle err =>
      have hauth : Receiver.Authentic a sent (x.rcv, x.log) (.resume err) := hauth
      unfold step at h
      dsimp only at h
      split at h
      next => cases h
      next => cases h
      next =>
        unfold stepWrite at h
        split at h
        next =>
          split at h
          next herr => exact stepReceiver_tracks h hx (herr ▸ hauth)
          next => cases h
        next =>
          split at h
          next => cases h
          next => exact stepReceiver_tracks h hx hauth
          next =>
            split at h
            next => exact stepReceiver_tracks h hx trivial
            next => cases h
      next => exact stepReceiver_tracks h hx hauth
  | sinkReady mode =>
      unfold step at h
      dsimp only at h
      split at h
      next hrun hstart =>
        refine stepReceiver_tracks h hx ?_
        simp only [Receiver.Authentic, hrun]
      next => cases h
  | sinkClosed r err =>
      unfold step at h
      dsimp only at h
      split at h
      next =>
        split at h
        next =>
          obtain ⟨rfl, -⟩ := Prod.mk.inj (Option.some.inj h)
          exact hx
        next => cases h
      next =>
        split at h
        next =>
          obtain ⟨rfl, -⟩ := Prod.mk.inj (Option.some.inj h)
          exact hx
        next => cases h
      next => cases h

/-- The invariant of a run: the receiver takes in only files that were sent, and
the screen agrees with it. -/
def Sound (a : ReceiverArgs) (sent : HonestFiles) (x : State) : Prop :=
  Tracks a sent (x.rcv, x.log) ∧ UiOk sent x.rcv x.ui

theorem sound_step (x : State) (e : Event) (y : State) (hx : Sound a sent x)
    (hg : Authentic a sent x e ∧ Orderly a x e) (h : next a x e = some y) : Sound a sent y := by
  obtain ⟨⟨y, out⟩, hstep, rfl⟩ := Option.map_eq_some_iff.mp h
  exact ⟨tracks_step hx.1 hg.1 hstep, (kept_step hx.2 hx.1 hg.2 hstep).1⟩

/-- A saved row is whole. -/
theorem RowsOk.saved {ui : Ui} (h : RowsOk sent ui) (row : Row) (hmem : row ∈ ui.heap)
    (hs : row.status.isSaved = true) : SavedWhole sent row := by
  obtain ⟨-, ha, id, epochKey, f, hid, hsent, hparts⟩ := h.row row hmem (.inr hs)
  exact ⟨ha, id, epochKey, f, hid, hsent, by rw [hparts, chunksOf, f.chunks_flatten]⟩

/-- In an orderly run every ack stands for chunks that were written to the
file's sink, and every saved row for a whole file. -/
theorem truthful_of_orderly (a : ReceiverArgs) (sent : HonestFiles) (es : List Event) (e : Event)
    (x y : State) (out : List Action)
    (hauth : Transition.Guarded (next a) (Authentic a sent) init (es ++ [e]))
    (hord : Transition.Guarded (next a) (Orderly a) init (es ++ [e]))
    (hr : Transition.run (next a) init es = some x) (hstep : step a x e = some (y, out)) :
    Truthful sent y out := by
  obtain ⟨hes, he⟩ := (hauth.and hord).of_append hr
  have hx : Sound a sent x := hes.invariant sound_step ⟨.init, .init⟩ hr
  obtain ⟨hui, hacked⟩ := kept_step hx.2 hx.1 he.head.2 hstep
  exact ⟨hacked, hui.saved⟩

/-! ## A one-byte file, as it was sent and with a frame put between -/

open Receiver (tinyReceiver tinySent)
open SendFile (tinyArgs tinyMetaMessage tinyChunkMessage)

/-- The events that receive the one-byte file and write it to the chosen folder. -/
def tinyEvents : List Event :=
  [.message tinyMetaMessage, .start, .settle none, .settle none, .sinkReady .fsa,
    .message tinyChunkMessage, .start, .settle none, .settle none]

/-- What is decrypted in these runs was encrypted for this file. -/
def TinyDecrypts (x : State) : Event → Prop
  | .settle err => Receiver.TinyDecrypts (x.rcv, x.log) (.resume err)
  | _ => True

instance (x : State) (e : Event) : Decidable (TinyDecrypts x e) := by
  unfold TinyDecrypts
  split <;> infer_instance

theorem TinyDecrypts.authentic {x : State} {e : Event} (h : TinyDecrypts x e) :
    Authentic tinyReceiver tinySent x e := by
  cases e with
  | settle err => exact Receiver.TinyDecrypts.authentic h
  | _ => trivial

theorem truthful_of_orderly_tiny : ∃ x y out,
    Transition.run (next tinyReceiver) init tinyEvents = some x ∧
      step tinyReceiver x (.sinkClosed 0 none) = some (y, out) ∧
      (∃ row ∈ y.ui.heap, row.status = .transferSavedToDisk) ∧ Truthful tinySent y out := by
  have hg : Transition.Guarded (next tinyReceiver) TinyDecrypts init
      (tinyEvents ++ [.sinkClosed 0 none]) := by decide +kernel
  have hord : Transition.Guarded (next tinyReceiver) (Orderly tinyReceiver) init
      (tinyEvents ++ [.sinkClosed 0 none]) := by decide +kernel
  have hrun : (Transition.run (next tinyReceiver) init tinyEvents).any (fun x =>
      (step tinyReceiver x (.sinkClosed 0 none)).any fun r =>
        r.1.ui.heap.any fun row => row.status = .transferSavedToDisk) = true := by decide +kernel
  obtain ⟨x, hr, hx⟩ := (Option.any_eq_true _ _).mp hrun
  obtain ⟨⟨y, out⟩, hstep, hy⟩ := (Option.any_eq_true _ _).mp hx
  obtain ⟨row, hmem, hs⟩ := List.any_eq_true.mp hy
  exact ⟨x, y, out, hr, hstep, ⟨row, hmem, of_decide_eq_true hs⟩,
    truthful_of_orderly tinyReceiver tinySent tinyEvents _ x y out
      (hg.mono fun _ _ => TinyDecrypts.authentic) hord hr hstep⟩

/-- The relay puts a frame with a wrong index before the only chunk. -/
def foreignEvents : List Event :=
  [.message tinyMetaMessage, .start, .settle none, .settle none, .sinkReady .blob,
    .message (.binary (buildChunkFrame tinyArgs.fileId 1 false [])), .start,
    .message tinyChunkMessage, .start, .settle none]

/-- The frame aborts the sink, and the receiver goes on: it acks a chunk that
was not written, and shows an empty file as downloaded. -/
theorem acked_and_saved_after_abort : ∃ x y z out,
    Transition.Guarded (next tinyReceiver) (Authentic tinyReceiver tinySent) init
      (foreignEvents ++ [.settle none, .sinkClosed 0 none]) ∧
    Transition.run (next tinyReceiver) init foreignEvents = some x ∧
    step tinyReceiver x (.settle none) = some (y, out) ∧
    .send (chunkAckMessage tinyArgs.fileId.hex (0 : Nat)) ∈ out ∧
    ¬ WrittenUpTo tinySent y.ui tinyArgs.fileId.hex 0 ∧
    next tinyReceiver y (.sinkClosed 0 none) = some z ∧
    ∃ row ∈ z.ui.heap, row.status.isSaved = true ∧ ¬ SavedWhole tinySent row := by
  have hg : Transition.Guarded (next tinyReceiver) TinyDecrypts init
      (foreignEvents ++ [.settle none, .sinkClosed 0 none]) := by decide +kernel
  have hrun : (Transition.run (next tinyReceiver) init foreignEvents).any (fun x =>
      (step tinyReceiver x (.settle none)).any fun r =>
        decide (.send (chunkAckMessage tinyArgs.fileId.hex (0 : Nat)) ∈ r.2) &&
        (r.1.ui.lookup tinyArgs.fileId.hex).all (fun p => p.2.sink.aborted) &&
        (next tinyReceiver r.1 (.sinkClosed 0 none)).any fun z =>
          z.ui.heap.any fun row => row.status.isSaved && row.sink.aborted) = true := by
    decide +kernel
  obtain ⟨x, hr, hx⟩ := (Option.any_eq_true _ _).mp hrun
  obtain ⟨⟨y, out⟩, hstep, hy⟩ := (Option.any_eq_true _ _).mp hx
  simp only [Bool.and_eq_true] at hy
  obtain ⟨⟨hack, habort⟩, hz⟩ := hy
  obtain ⟨z, hnext, hz⟩ := (Option.any_eq_true _ _).mp hz
  obtain ⟨row, hmem, hs⟩ := List.any_eq_true.mp hz
  obtain ⟨hsaved, ha⟩ := Bool.and_eq_true_iff.mp hs
  refine ⟨x, y, z, out, hg.mono fun _ _ => TinyDecrypts.authentic, hr, hstep, of_decide_eq_true hack,
    ?_, hnext, row, hmem, hsaved, fun h => absurd (ha.symm.trans h.1) (by decide)⟩
  rintro ⟨r, row', -, -, -, hlook, -, -, hno, -⟩
  rw [hlook] at habort
  simp [hno] at habort

end Quicksend.ReceiverTransfer
