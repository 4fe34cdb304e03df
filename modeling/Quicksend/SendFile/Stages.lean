import Quicksend.SendFile.Wakeups
import Quicksend.SendFile.Emits

/-!
# The file a `sendFile` call has begun

Between its `file_meta` and its end the call owes the receiver the rest of the
file, or a `file_abort`. A call that is through owes nothing: it has not begun,
it has settled, it has sent every chunk, or it was cancelled from the other side.
-/

namespace Quicksend

/-- The message is a `file_meta`, which opens a file, whatever its payload is. -/
def Message.IsFileMeta (m : Message) : Prop := ∃ payload, m = .text (.fileMeta payload)

/-- The message is a binary frame, which is how `sendFile` sends its chunks. -/
def Message.IsChunk (m : Message) : Prop := ∃ data, m = .binary data

/-- The last chunk of a file, or a `file_abort`. -/
def Message.EndsFile (m : Message) : Prop :=
  (∃ data frame, m = .binary data ∧ parseChunkFrame data = some frame ∧ frame.isLast = true) ∨
    ∃ payload, m = .text (.fileAbort payload)

theorem fileAbortMessage_endsFile (fileId : JSString) : (fileAbortMessage fileId).EndsFile :=
  .inr ⟨_, rfl⟩

namespace SendFile

variable {a : SendArgs} {s t : State} {e : Event} {out : List Message}

/-- The call puts no further chunk out: it is over, it has sent them all, or the
peer aborted the file. -/
def State.through (s : State) : Prop :=
  s.listening = false ∨ s.pc = .ackWait ∨ ∃ reason, s.aborted = some ⟨true, reason⟩

/-- The invariant of the flags: nothing is heard before the `file_meta`, and a
connection is lost with its socket. -/
structure Flags (s : State) : Prop where
  unheard : s.pc = .derivingKey ∨ s.pc = .encryptingMeta → s.aborted = none
  lost : s.connectionLost = true → s.socketClosed = true

theorem Flags.of_pc {s : State} (h : s.connectionLost = true → s.socketClosed = true)
    (hpc : s.pc ≠ .derivingKey ∧ s.pc ≠ .encryptingMeta) : Flags s where
  unheard hp := (hp.elim hpc.1 hpc.2).elim
  lost := h

theorem Lands.flags {i : Nat} (h : Lands a s i t out) (hs : Flags s) : Flags t := by
  cases h <;> exact .of_pc hs.lost (by simp)

theorem noted_lost (s : State) (e : Event) (hs : Flags s) :
    (noted s e).connectionLost = true → (noted s e).socketClosed = true := by
  unfold noted
  split
  case h_3 => exact fun _ => rfl
  all_goals exact hs.lost

theorem Woken.flags (h : Woken a s t out) (hl : s.listening = true)
    (hlost : s.connectionLost = true → s.socketClosed = true) : Flags t := by
  have hs : Flags s := .of_pc hlost (by
    constructor
    · intro hpc
      simp [State.listening, hpc] at hl
    · intro hpc
      simp [State.listening, hpc] at hl)
  cases h with
  | asleep => exact hs
  | lost => exact .of_pc hlost (by simp)
  | window _ _ _ _ _ h => exact h.flags hs
  | acks _ _ _ _ h => exact h.flags hs

theorem Steps.flags (h : Steps a s e t out) (hs : Flags s) : Flags t := by
  cases h with
  | keyDerived hpc => exact ⟨fun _ => hs.unheard (.inl hpc), hs.lost⟩
  | keyFailed | metaFailed | failed | sliceRead => exact .of_pc hs.lost (by simp [throwErr])
  | metaSent _ _ _ _ _ h => exact h.flags hs
  | chunkSent _ _ _ _ _ _ _ h => exact h.flags hs
  | heard _ hl _ _ _ _ _ h =>
      exact h.flags (by rw [noted_listening, hl]) (noted_lost s e hs)
  | ignored => exact hs
  | closedUnheard => exact ⟨hs.unheard, fun _ => rfl⟩
  | abortUnheard => exact ⟨hs.unheard, hs.lost⟩

theorem Steps.socketClosed (h : Steps a s e t out) (ht : t.socketClosed = true) :
    s.socketClosed = true ∨ e = .close := by
  have landed {s' t' : State} {i : Nat} {out' : List Message} (h : Lands a s' i t' out') :
      t'.socketClosed = s'.socketClosed := by cases h <;> rfl
  cases h with
  | metaSent _ _ _ _ _ h => exact .inl (landed h ▸ ht)
  | chunkSent _ _ _ _ _ _ _ h => exact .inl (landed h ▸ ht)
  | heard _ _ _ _ _ _ _ h =>
      have hnoted : (noted s e).socketClosed = true := by
        cases h with
        | asleep | lost => exact ht
        | window _ _ _ _ _ h => exact landed h ▸ ht
        | acks _ _ _ _ h => exact landed h ▸ ht
      unfold noted at hnoted
      split at hnoted
      case h_3 => exact .inr rfl
      all_goals exact .inl hnoted
  | closedUnheard => exact .inr rfl
  | _ => exact .inl ht

/-! ## What a step leaves owed -/

/-- Where the loop comes to rest with nothing owed, all chunks were sent before,
or the file has been aborted. -/
theorem Lands.of_through {i : Nat} (h : Lands a s i t out) (hopen : s.socketClosed = false)
    (ht : t.through) :
    a.file.totalChunks ≤ i ∨ (∃ reason, s.aborted = some ⟨true, reason⟩) ∨
      ∃ m ∈ out, m.EndsFile := by
  cases h with
  | window hi _ =>
      rcases ht with ht | ht | ht
      · cases ht
      · cases ht
      · exact .inr (.inl ht)
  | reading hi _ =>
      rcases ht with ht | ht | ht
      · cases ht
      · cases ht
      · exact .inr (.inl ht)
  | acks hi | resolved hi => exact .inl hi
  | aborted ab hab =>
      obtain ⟨remote, reason⟩ := ab
      cases remote with
      | true => exact .inr (.inl ⟨reason, hab⟩)
      | false =>
          refine .inr (.inr ⟨fileAbortMessage a.fileId.hex, ?_, fileAbortMessage_endsFile _⟩)
          simp [State.put, hopen]

theorem Lands.no_meta {i : Nat} (h : Lands a s i t out) : ∀ m ∈ out, ¬ m.IsFileMeta := by
  intro m hm ⟨payload, hp⟩
  rw [h.out_eq m hm] at hp
  cases hp

theorem Woken.no_meta (h : Woken a s t out) : ∀ m ∈ out, ¬ m.IsFileMeta := by
  intro m hm ⟨payload, hp⟩
  rw [h.out_eq m hm] at hp
  cases hp

/-- The loop, entered for the first time, owes the whole file. -/
theorem Lands.not_through_zero (h : Lands a s 0 t out) (hab : s.aborted = none) : ¬ t.through := by
  have hpos := a.file.totalChunks_pos
  intro ht
  cases h with
  | window _ _ | reading _ _ => simp [State.through, State.listening, hab] at ht
  | acks hi | resolved hi => omega
  | aborted ab hab' =>
      rw [hab] at hab'
      cases hab'

theorem Woken.of_through (h : Woken a s t out) (hs : WellFormed a s)
    (hopen : s.socketClosed = false) (hlost : s.connectionLost = false) (ht : t.through) :
    s.through ∨ ∃ m ∈ out, m.EndsFile := by
  cases h with
  | asleep => exact .inl ht
  | lost _ hl =>
      rw [hlost] at hl
      cases hl
  | window i hpc _ _ _ h =>
      have hi := hs.index
      rw [hpc] at hi
      rcases h.of_through hopen ht with hle | hab | hend
      · exact absurd hle (not_le.mpr hi)
      · exact .inl (.inr (.inr hab))
      · exact .inr hend
  | acks hpc => exact .inl (.inr (.inl hpc))

/-- The peer's `file_abort` for the file of the call. -/
def Event.IsPeerAbort (a : SendArgs) (e : Event) : Prop :=
  ∃ p : FileAbortPayload, e = .message (.fileAbort (some p)) ∧ p.fileId = some a.fileId.hex

theorem noted_through (hc : concerns a e) (ht : (noted s e).through) :
    s.through ∨ e.IsPeerAbort a := by
  unfold noted at ht
  split at ht
  case h_1 => exact .inl ht
  case h_2 p => exact .inr ⟨p, rfl, hc⟩
  case h_3 => exact .inl ht
  case h_4 =>
    rcases ht with ht | ht | ⟨reason, ht⟩
    · exact .inl (.inl ht)
    · exact .inl (.inr (.inl ht))
    · cases ht
  case h_5 => exact .inl ht

theorem fileAbortMessage_not_meta (fileId : JSString) :
    ¬ (fileAbortMessage fileId).IsFileMeta := by
  rintro ⟨payload, h⟩
  cases h

/-- A step begins no file, or the loop is entered behind it. -/
theorem Steps.begins (h : Steps a s e t out) :
    (∀ m ∈ out, ¬ m.IsFileMeta) ∨
      s.pc = .encryptingMeta ∧ (∀ m ∈ out, ¬ m.IsChunk) ∧ ∃ out', Lands a s 0 t out' := by
  cases h with
  | metaSent hpc c hc t out h =>
      refine .inr ⟨hpc, fun m hm => ?_, out, h⟩
      rintro ⟨data, hd⟩
      rcases List.mem_append.mp hm with hm | hm
      · rw [mem_put hm] at hd
        cases hd
      · rw [h.out_eq m hm] at hd
        cases hd
  | chunkSent i p hpc c hc t out h =>
      refine .inl fun m hm => ?_
      rcases List.mem_append.mp hm with hm | hm
      · rintro ⟨payload, hp⟩
        rw [mem_put hm] at hp
        cases hp
      · exact h.no_meta m hm
  | failed msg => exact .inl fun m hm => throwErr_out hm ▸ fileAbortMessage_not_meta _
  | heard _ _ _ _ _ _ _ h => exact .inl h.no_meta
  | _ => exact .inl (by simp)

/-- When a step leaves nothing owed, nothing was owed before it, or it sends the
end of the file, or hears the peer's abort; and it does not begin the file. -/
theorem Steps.of_through (h : Steps a s e t out) (hs : WellFormed a s) (hf : Flags s)
    (hopen : s.socketClosed = false) (hclose : e ≠ .close) (ht : t.through) :
    (∀ m ∈ out, ¬ m.IsFileMeta) ∧
      (s.through ∨ (∃ m ∈ out, m.EndsFile) ∨ e.IsPeerAbort a) := by
  have hlost : s.connectionLost = false := by
    cases hl : s.connectionLost with
    | false => rfl
    | true =>
        rw [hf.lost hl] at hopen
        cases hopen
  refine ⟨?_, ?_⟩
  · -- the file begins in a step after which it is still owed
    rcases h.begins with hno | ⟨hpc, -, out', hlands⟩
    · exact hno
    · exact absurd ht (hlands.not_through_zero (hf.unheard (.inr hpc)))
  cases h with
  | keyDerived hpc | keyFailed hpc | metaFailed hpc =>
      exact .inl (.inl (by simp [State.listening, hpc]))
  | metaSent hpc c hc t out h => exact absurd ht (h.not_through_zero (hf.unheard (.inr hpc)))
  | sliceRead i hpc =>
      rcases ht with ht | ht | ht
      · cases ht
      · cases ht
      · exact .inl (.inr (.inr ht))
  | chunkSent i p hpc c hc t out h =>
      rcases h.of_through hopen ht with hle | hab | ⟨m, hm, hend⟩
      · -- the last chunk itself was sent
        have hindex := hs.index
        rw [hpc] at hindex
        have hlast : i = a.file.totalChunks - 1 := by
          have := hindex.1
          omega
        have hi : i < 2 ^ 64 :=
          lt_trans hindex.1 (lt_trans a.file.totalChunks_lt METADATA_CHUNK_INDEX_lt)
        refine .inr (.inl ⟨_, List.mem_append_left _ (by simp [State.put, hopen]; rfl), .inl ?_⟩)
        exact ⟨_, _, rfl, parseChunkFrame_buildChunkFrame hi _ c, by simp [hlast]⟩
      · exact .inl (.inr (.inr hab))
      · exact .inr (.inl ⟨m, List.mem_append_right _ hm, hend⟩)
  | failed msg =>
      -- a failure is announced to the peer
      refine .inr (.inl ⟨fileAbortMessage a.fileId.hex, ?_, fileAbortMessage_endsFile _⟩)
      simp [throwErr, hlost, State.put, hopen]
  | heard _ hl hc _ _ _ _ h =>
      have hopen' : (noted s e).socketClosed = false := by
        unfold noted
        split
        case h_3 => exact absurd rfl hclose
        all_goals exact hopen
      have hlost' : (noted s e).connectionLost = false := by
        unfold noted
        split
        case h_3 => exact absurd rfl hclose
        all_goals exact hlost
      rcases h.of_through (noted_wellFormed hs e) hopen' hlost' ht with hth | hend
      · rcases noted_through hc hth with hth | hab
        · exact .inl hth
        · exact .inr (.inr hab)
      · exact .inr (.inl hend)
  | ignored => exact .inl ht
  | closedUnheard => exact absurd rfl hclose
  | abortUnheard => exact .inl ht

/-- A settled call sends nothing more and stays settled as it did. -/
theorem Steps.of_settled (h : Steps a s e t out) (hs : s.isSettled = true) :
    out = [] ∧ t.pc = s.pc := by
  have hl : s.listening = false := by
    cases hl : s.listening with
    | false => rfl
    | true =>
        rw [not_settled_of_listening hl] at hs
        cases hs
  cases h with
  | keyDerived hpc | keyFailed hpc | metaSent hpc | metaFailed hpc | sliceRead _ hpc
    | chunkSent _ _ hpc => simp [State.isSettled, hpc] at hs
  | failed _ _ hpc =>
      rw [hl] at hpc
      cases hpc.1
  | heard _ hl' =>
      rw [hl] at hl'
      cases hl'
  | ignored | closedUnheard | abortUnheard => exact ⟨rfl, rfl⟩

end SendFile

end Quicksend
