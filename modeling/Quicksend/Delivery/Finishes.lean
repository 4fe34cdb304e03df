import Quicksend.Delivery.Announced
import Quicksend.Delivery.Failures

/-!
# A transfer that nothing disturbs ends

While nothing fails and nobody cancels or closes, every step uses up some of
the work that a file is worth, whatever the order; and where no step is left
the file has been delivered.
-/

namespace Quicksend.Delivery

open Receiver (Action Task)
open SendFile (Pc)

variable {a : SendArgs} {x y : State}

/-- What the sender does before the metadata is out, above its work from there on. -/
def lead (a : SendArgs) : Pc → Nat
  | .derivingKey => 9 * a.file.totalChunks + 9
  | .encryptingMeta => 9 * a.file.totalChunks + 8
  | _ => 0

/-- A bound on the steps left, which every step of a party that goes on makes
smaller. -/
def effort (a : SendArgs) (x : State) : Nat := lead a x.snd.pc + work a x

theorem lead_of_sent {pc : Pc} (h : unsent pc = false) : lead a pc = 0 := by
  cases pc <;> first | rfl | cases h

theorem effort_init (a : SendArgs) : effort a Delivery.init = 9 * a.file.totalChunks + 9 := rfl

/-- Everything has been sent, heard and written: the call has resolved, and
nothing is on its way or running. -/
structure Done (x : State) : Prop where
  resolved : x.snd.pc = .settled .resolved
  stream : x.stream = []
  path : x.path = []
  idle : x.rcv.running = none

theorem Done.stuck {e : Event} (h : Done x) (he : goesOn e = true) : step a x e = none := by
  have hpc := h.resolved
  obtain ⟨⟨hchain, hdown⟩, hup⟩ : (x.rcv.chain = [] ∧ x.rcvDown = []) ∧ x.sndUp = [] := by
    simpa [State.stream, and_assoc] using h.stream
  obtain ⟨hdown', hup'⟩ : x.sndDown = [] ∧ x.rcvUp = [] := by
    simpa [State.path] using h.path
  unfold goesOn at he
  split at he <;>
    simp [step, stepSender, stepReceiver, SendFile.step, Receiver.step, hpc, hup, hdown, hup',
      hdown', hchain, h.idle] at he ⊢

/-! ## The promises of the sender -/

theorem lands_going {s t : SendFile.State} {i : Nat} {out : List Message}
    (h : SendFile.Lands a s i t out) (hab : s.aborted = none)
    (hacked : s.ackedUpTo < (a.file.totalChunks : Int) - 1) :
    out = [] ∧ t = { s with pc := t.pc } ∧ t.isSettled = false ∧ unsent t.pc = false := by
  cases h with
  | window | reading | acks => exact ⟨rfl, rfl, rfl, rfl⟩
  | resolved _ _ hacked' => omega
  | aborted ab hab' => simp [hab] at hab'

theorem lands_not_rejected {s t : SendFile.State} {i : Nat} {out : List Message}
    (h : SendFile.Lands a s i t out) (hab : s.aborted = none) (err : SendFile.Failure) :
    t.pc ≠ .settled (.rejected err) := by
  cases h with
  | window | reading | acks | resolved => simp
  | aborted ab hab' => simp [hab] at hab'

/-- A promise of the sender that is fulfilled does not make the call fail. -/
theorem fulfilled_sender {s t : SendFile.State} {e : SendFile.Event} {out : List Message}
    (hkey : a.epochKey.length = 32) (hs : SendFile.WellFormed a s) (hab : s.aborted = none)
    (he : goesOn (.sender e) = true) (h : SendFile.step a s e = some (t, out))
    (err : SendFile.Failure) : t.pc ≠ .settled (.rejected err) := by
  have lands {i : Nat} : (SendFile.forTest a s i).1.pc ≠ .settled (.rejected err) :=
    lands_not_rejected (SendFile.forTest_lands a s i) hab err
  have hlen (hk : deriveFileKey a.w a.epochKey a.fileId.bytes = .ok s.fileKey) :
      s.fileKey.length = 32 := by
    rw [(deriveFileKey_eq_ok hk).2.2, a.w.hkdf_length]
  unfold SendFile.step at h
  split at h
  next err' hpc =>
    cases err' with
    | some => cases he
    | none =>
        rw [SendFile.onKeyDerived, settle, deriveFileKey_ok a.w hkey] at h
        obtain ⟨rfl, -⟩ := Prod.mk.inj (Option.some.inj h)
        simp
  next err' hpc =>
    cases err' with
    | some => cases he
    | none =>
        have hk : deriveFileKey a.w a.epochKey a.fileId.bytes = .ok s.fileKey := by
          simpa [hpc, SendFile.State.isSettled] using hs.keyed
        rw [SendFile.onMetaEncrypted, settle, encryptChunk_ok a.w (hlen hk)] at h
        obtain ⟨rfl, -⟩ := Prod.mk.inj (Option.some.inj h)
        exact lands
  next err' i hpc =>
    cases err' with
    | some => cases he
    | none =>
        obtain ⟨rfl, -⟩ := Prod.mk.inj (Option.some.inj h)
        simp
  next err' i p hpc =>
    cases err' with
    | some => cases he
    | none =>
        have hk : deriveFileKey a.w a.epochKey a.fileId.bytes = .ok s.fileKey := by
          simpa [hpc, SendFile.State.isSettled] using hs.keyed
        rw [SendFile.onChunkEncrypted, settle, encryptChunk_ok a.w (hlen hk)] at h
        obtain ⟨rfl, -⟩ := Prod.mk.inj (Option.some.inj h)
        exact lands
  all_goals first | cases he | cases h

/-- The sender has heard of no chunk that it has not sent. -/
theorem Flow.acked_lt {ph : Phase} {k r : Nat} (h : Flow a x ph k r) :
    x.snd.ackedUpTo < sentCount a x.snd.pc := by
  obtain ⟨j, hj, hacked⟩ := h.acks
  have hjr := hj.le
  have hrk := h.stage.acked_le
  have hk : k ≤ sentCount a x.snd.pc := by
    have hahead := h.ahead
    generalize x.stream = l at hahead
    cases hahead with
    | fresh | sent => exact Nat.zero_le _
    | taken _ _ _ _ _ hl => exact hl.le
  omega

/-- A promise of the sender is fulfilled: the transfer goes on, with less to do. -/
theorem Flow.fulfilled_own {ph : Phase} {k r : Nat} {t : SendFile.State} {e : SendFile.Event}
    {out : List Message} (h : Flow a x ph k r) (hx : Inv a x) (hkey : a.epochKey.length = 32)
    (he : goesOn (.sender e) = true) (hstep : SendFile.step a x.snd e = some (t, out)) :
    Flow a { x with snd := t, sndUp := x.sndUp ++ out } ph k r ∧
      lead a t.pc + senderWork a t.pc + 7 * out.length
        < lead a x.snd.pc + senderWork a x.snd.pc := by
  have hst := SendFile.step_spec hx.sender hstep
  have hne := fulfilled_sender hkey hx.sender h.sender.aborted he hstep
  have hindex := hx.sender.index
  have hacked := h.acked_lt
  have hpos := a.file.totalChunks_pos
  have hs := h.sender
  have going (hns : t.isSettled = false) (hab : t.aborted = none) :
      Flow a { x with snd := t, sndUp := x.sndUp ++ out } ph k r := by
    refine (h.own hx hst (fun env h => ?_) fun h => ?_).resolve_right fun hend => ?_
    · rw [h] at he
      cases he
    · rw [h] at he
      cases he
    · simp [hns, hab] at hend
  cases hst with
  | keyDerived hpc key hk =>
      refine ⟨going rfl hs.aborted, ?_⟩
      simp only [lead, senderWork, hpc, List.length_nil]
      omega
  | keyFailed | metaFailed | failed => exact absurd rfl (hne _)
  | metaSent hpc ciphertext hc _ out hl =>
      rw [hpc] at hacked
      simp only [sentCount] at hacked
      obtain ⟨rfl, ht, hns, hun⟩ := lands_going hl hs.aborted (by omega)
      have hwork := lands_work hl
      refine ⟨going hns (by rw [ht]; exact hs.aborted), ?_⟩
      have hbefore : lead a .encryptingMeta + senderWork a .encryptingMeta =
          9 * a.file.totalChunks + 8 := rfl
      rw [lead_of_sent hun, hpc, hbefore, hs.put]
      simp only [List.append_nil, List.length_cons, List.length_nil]
      omega
  | sliceRead i hpc =>
      rw [hpc] at hindex
      have hi : i < a.file.totalChunks := hindex
      refine ⟨going rfl hs.aborted, ?_⟩
      simp only [lead, senderWork, hpc, List.length_nil]
      omega
  | chunkSent i p hpc ciphertext hc _ out hl =>
      rw [hpc] at hindex hacked
      have hi : i < a.file.totalChunks := hindex.1
      simp only [sentCount] at hacked
      obtain ⟨rfl, ht, hns, hun⟩ := lands_going hl hs.aborted (by omega)
      have hwork := lands_work hl
      refine ⟨going hns (by rw [ht]; exact hs.aborted), ?_⟩
      have hbefore : lead a (.encryptingChunk i p) + senderWork a (.encryptingChunk i p) =
          0 + (9 * (a.file.totalChunks - i) - 1) := rfl
      rw [lead_of_sent hun, hpc, hbefore, hs.put]
      simp only [List.append_nil, List.length_cons, List.length_nil]
      omega
  | heard e hl hc =>
      cases e with
      | message | close | signalAbort => cases he
      | keyDerived | metaEncrypted | sliceRead | chunkEncrypted => exact hc.elim
  | ignored | closedUnheard | abortUnheard => cases he

/-! ## The promises of the receiver -/

/-- A promise of the receiver that is fulfilled does not make its step fail. -/
theorem Flow.fulfilled_receiver {ph : Phase} {k r : Nat} (h : Flow a x ph k r) (hx : Inv a x)
    (hann : Announced a x) (hkey : a.epochKey.length = 32)
    (hcodec : (a.codec.decode (a.codec.encode a.file.toMeta)).isSome = true) {task : Task}
    (hrun : x.rcv.running = some task) : ¬ Receiver.Fails a.receiver x.rcv none task := by
  intro hfail
  cases task with
  | metaKey fileIdHex ciphertext =>
      obtain ⟨rfl, c, -, rfl⟩ := hann.receiver.task _ hrun
      have hk : deriveFileKey a.receiver.w a.receiver.epochKey (fromHex a.fileId.hex) =
          .ok (a.w.hkdf a.epochKey a.fileId.bytes FILE_INFO) := by
        rw [FileId.hex, fromHex_toHex]
        exact deriveFileKey_ok a.w hkey a.fileId
      simp [Receiver.Fails, settle, hk] at hfail
  | metaDecrypt fileIdHex fileKey ciphertext =>
      obtain ⟨rfl, ⟨-, key, hk, henc⟩, hk'⟩ := hann.receiver.task _ hrun
      obtain rfl := Except.ok.inj (hk.symm.trans hk')
      have hopens : decryptChunk a.receiver.w key (fromHex a.fileId.hex) METADATA_CHUNK_INDEX true
          ciphertext = .ok (a.codec.encode a.file.toMeta) := by
        rw [FileId.hex, fromHex_toHex]
        exact decryptChunk_encryptChunk henc
      obtain ⟨info, hinfo⟩ := Option.isSome_iff_exists.mp hcodec
      have hinfo' : a.receiver.codec.decode (a.codec.encode a.file.toMeta) = some info := hinfo
      simp [Receiver.Fails, settle, hopens, hinfo'] at hfail
  | metaStart | chunkWrite => exact hfail rfl
  | chunkDecrypt key frame =>
      obtain ⟨-, -, rfl, -⟩ := h.stage.of_chunk hrun rfl
      exact absurd (h.fulfilled hx _ hrun hfail) (by simp [isStarting])

/-! ## One step -/

/-- Nothing has disturbed the transfer so far: it is going on, or everything has
been done. -/
structure Calm (a : SendArgs) (x : State) : Prop where
  inv : Inv a x
  announced : Announced a x
  poised : Poised a x.snd
  goes : (∃ ph k r, Flow a x ph k r) ∨ Done x

theorem Calm.init (a : SendArgs) : Calm a Delivery.init where
  inv := .init a
  announced := .init a
  poised := .init a
  goes := .inl ⟨.unopened, 0, 0, .init a⟩

theorem Flow.excused_going {e : Event} {ph : Phase} {k r : Nat} (h : Flow a x ph k r)
    (hx : Inv a x) (hann : Announced a x) (hkey : a.epochKey.length = 32)
    (hcodec : (a.codec.decode (a.codec.encode a.file.toMeta)).isSome = true)
    (he : goesOn e = true) : Excused a x e := by
  have roomy (e : SendFile.Event) : Roomy a x.snd e := fun i _ hab => by
    simp [h.sender.aborted] at hab
  unfold goesOn at he
  split at he
  case h_6 =>
    exact fun task hrun hfail => absurd hfail (h.fulfilled_receiver hx hann hkey hcodec hrun)
  case h_11 => cases he
  all_goals first | trivial | exact ⟨by simp, roomy _⟩

/-- A call resolves when it has heard of the last chunk. -/
theorem heard_resolved {s t : SendFile.State} {env : Envelope} {out : List Message}
    (h : SendFile.Steps a s (.message env) t out) (hs : s.isSettled = false)
    (hres : t.pc = .settled .resolved) :
    (a.file.totalChunks : Int) - 1 ≤ (SendFile.noted s (.message env)).ackedUpTo := by
  have settled (hpc : s.pc = .settled .resolved) : False := by
    simp [SendFile.State.isSettled, hpc] at hs
  have landed {u : SendFile.State} {i : Nat} (hl : SendFile.Lands a u i t out) :
      (a.file.totalChunks : Int) - 1 ≤ u.ackedUpTo := by
    cases hl with
    | resolved _ _ hacked => exact hacked
    | window | reading | acks | aborted => cases hres
  cases h with
  | failed _ _ _ he => exact absurd rfl (he _)
  | ignored => exact (settled hres).elim
  | heard _ _ _ _ _ _ _ hw =>
      cases hw with
      | asleep =>
          rw [SendFile.noted_pc] at hres
          exact (settled hres).elim
      | lost => cases hres
      | window _ _ _ _ _ hl => exact landed hl
      | acks _ _ _ _ hl => exact landed hl

/-- The last acknowledgement is heard: there is nothing left. -/
theorem Flow.done {ph : Phase} {k r : Nat} {t : SendFile.State} {env : Envelope}
    {out rest : List Message} (h : Flow a x ph k r) (hx : Inv a x)
    (hdown : x.sndDown = .text env :: rest) (hst : SendFile.Steps a x.snd (.message env) t out)
    (hy : Inv a { x with snd := t, sndUp := x.sndUp ++ out, sndDown := rest })
    (hout : out = []) (hres : t.pc = .settled .resolved) :
    Done { x with snd := t, sndUp := x.sndUp ++ out, sndDown := rest } := by
  obtain ⟨j, hj, hacked⟩ := h.acks
  rw [State.path, hdown] at hj
  obtain ⟨henv, hrest⟩ := hj.head
  obtain rfl := Message.text.inj henv
  obtain ⟨-, hcur, hrun, -⟩ := hy.finished (.inl hres)
  -- the file is no longer in hand, so all of it has been taken
  obtain ⟨hk, hr⟩ : k = a.file.totalChunks ∧ r = a.file.totalChunks := by
    have hlt := hrest.le
    have hstage := h.stage
    cases hstage with
    | unopened | opening => omega
    | between c hcur' => exact absurd (hcur'.symm.trans hcur) (by simp)
    | within c _ hcur' => exact absurd (hcur'.symm.trans hcur) (by simp)
    | ended => exact ⟨rfl, rfl⟩
  have hacks : (a.file.totalChunks : Int) - 1 ≤ (j : Int) :=
    heard_resolved hst h.sender.going hres
  refine ⟨hres, ?_, ?_, hrun⟩
  · have hahead := h.ahead
    have hpos := a.file.totalChunks_pos
    rw [hout, List.append_nil]
    change x.stream = []
    generalize x.stream = l at hahead ⊢
    cases hahead with
    | fresh | sent => omega
    | taken _ _ _ _ _ hl =>
        have hlen := hl.add_length
        have hle := sentCount_le hx.sender
        exact List.eq_nil_of_length_eq_zero (by omega)
  · change rest ++ x.rcvUp = []
    have hlen : j + 1 + (rest ++ x.rcvUp).length = r := hrest.add_length
    exact List.eq_nil_of_length_eq_zero (by omega)

/-- A message is heard, and with it the last acknowledgement or another. -/
theorem Flow.heard {ph : Phase} {k r : Nat} {t : SendFile.State} {env : Envelope}
    {out rest : List Message} (h : Flow a x ph k r) (hx : Inv a x)
    (hdown : x.sndDown = .text env :: rest) (hst : SendFile.Steps a x.snd (.message env) t out)
    (hy : Inv a { x with snd := t, sndUp := x.sndUp ++ out, sndDown := rest }) :
    (Flow a { x with snd := t, sndUp := x.sndUp ++ out, sndDown := rest } ph k r ∨
        Done { x with snd := t, sndUp := x.sndUp ++ out, sndDown := rest }) ∧
      out = [] ∧ unsent x.snd.pc = false := by
  obtain ⟨hout, hend⟩ := h.toSender hx hdown hst
  refine ⟨hend.imp_right (h.done hx hdown hst hy hout), hout, ?_⟩
  obtain ⟨j, hj, -⟩ := h.acks
  rw [State.path, hdown] at hj
  have hle := hj.head.2.le
  have hrk := h.stage.acked_le
  exact h.ahead.unsent_of_pos (by omega)

/-- **The step lemma**: whatever goes on, goes on calmly and uses up work. -/
theorem calm_step (hkey : a.epochKey.length = 32)
    (hcodec : (a.codec.decode (a.codec.encode a.file.toMeta)).isSome = true) {e : Event}
    (hx : Calm a x) (he : goesOn e = true) (hs : step a x e = some y) :
    Calm a y ∧ effort a y < effort a x := by
  obtain ⟨ph, k, r, h⟩ | hdone := hx.goes
  case inr => simp [hdone.stuck he] at hs
  have hinv := inv_step x e y hx.inv hs
  have calm (hgoes : (∃ ph k r, Flow a y ph k r) ∨ Done y) : Calm a y :=
    ⟨hinv, announced_step hx.announced hx.inv hs,
      poised_step hx.inv hx.poised (h.excused_going hx.inv hx.announced hkey hcodec he) hs, hgoes⟩
  cases e with
  | sender e =>
      cases e with
      | message | close | signalAbort => cases he
      | keyDerived | metaEncrypted | sliceRead | chunkEncrypted =>
          obtain ⟨⟨t, out⟩, hstep, rfl⟩ := Option.map_eq_some_iff.mp hs
          obtain ⟨hflow, hless⟩ := h.fulfilled_own hx.inv hkey he hstep
          refine ⟨calm (.inl ⟨ph, k, r, hflow⟩), ?_⟩
          simp only [effort, work, List.length_append]
          omega
  | receiver e =>
      cases e with
      | message | close | abortCurrent | detach => cases he
      | start =>
          obtain ⟨⟨t, out⟩, hstart, rfl⟩ := Option.map_eq_some_iff.mp hs
          rw [Receiver.step] at hstart
          split at hstart
          next m chain hrun hchain =>
            obtain ⟨hchain', hout, hwork, ph', k', -, hflow⟩ :=
              h.start hx.inv hrun hchain (Option.some.inj hstart)
            refine ⟨calm (.inl ⟨ph', k', r, hflow⟩), ?_⟩
            have hidle : taskWork x.rcv = 0 := by simp [taskWork, hrun]
            simp only [effort, work, hchain', hchain, hwork, hidle, hout, List.length_append,
              List.length_cons, List.length_nil]
            omega
          next => cases hstart
      | resume err =>
          cases err with
          | some => cases he
          | none =>
              obtain ⟨t, out, hst, rfl⟩ := stepReceiver_spec hs
              obtain ⟨hchain, hwork, ph', k', r', -, hflow⟩ :=
                h.resume hx.inv hst fun task hrun hfail =>
                  absurd hfail (h.fulfilled_receiver hx.inv hx.announced hkey hcodec hrun)
              refine ⟨calm (.inl ⟨ph', k', r', hflow⟩), ?_⟩
              simp only [effort, work, hchain, List.length_append]
              omega
  | toSender =>
      rw [step] at hs
      split at hs
      next env rest hdown =>
        obtain ⟨t, out, hst, rfl⟩ := stepSender_spec hx.inv hs
        obtain ⟨hend, rfl, hun⟩ := h.heard hx.inv hdown hst hinv
        refine ⟨calm (hend.imp_left fun hflow => ⟨ph, k, r, hflow⟩), ?_⟩
        have hwork := heard_work hst
        simp only [effort, work, lead_of_sent hun, lead_of_sent (unsent_step hst hun), hdown,
          List.append_nil, List.length_cons]
        omega
      next data rest hdown =>
        have hfrom := hx.inv.path (.binary data) (by rw [State.path, hdown]; exact List.mem_cons_self)
        -- the receiver sends no binary frame
        obtain ⟨_, h⟩ | ⟨_, _, h⟩ := hfrom <;> cases h
      next => cases hs
  | toReceiver =>
      rw [step] at hs
      split at hs
      next m rest hdown =>
        obtain ⟨t, out, hst, rfl⟩ := stepReceiver_spec hs
        have hout : sends out = [] := by
          cases hst <;> rfl
        obtain ⟨rfl, hflow⟩ := h.toReceiver hdown hst
        refine ⟨calm (.inl ⟨ph, k, r, hflow⟩), ?_⟩
        simp only [effort, work, taskWork, hdown, hout, List.length_append, List.length_cons,
          List.length_nil]
        omega
      next => cases hs
  | relaySender =>
      rw [step] at hs
      split at hs
      next m rest hup =>
        rw [if_neg (by simp [h.unblocked])] at hs
        obtain rfl := Option.some.inj hs
        refine ⟨calm (.inl ⟨ph, k, r, h.relaySender hup⟩), ?_⟩
        simp only [effort, work, hup, List.length_append, List.length_cons, List.length_nil]
        omega
      next => cases hs
  | relayReceiver =>
      rw [step] at hs
      split at hs
      next m rest hup =>
        obtain rfl := Option.some.inj hs
        refine ⟨calm (.inl ⟨ph, k, r, h.relayReceiver hup⟩), ?_⟩
        simp only [effort, work, hup, List.length_append, List.length_cons, List.length_nil]
        omega
      next => cases hs
  | sizeAbort => cases he

/-! ## Where no step is left -/

/-- Somebody can go on: there is an event, other than a cancel or a failure, that
can happen now. -/
def Enabled (a : SendArgs) (x : State) : Prop :=
  ∃ e, goesOn e = true ∧ (step a x e).isSome = true

theorem enabled_resume {task : Task} (hrun : x.rcv.running = some task) : Enabled a x :=
  ⟨.receiver (.resume none), rfl, by simp [Delivery.step, stepReceiver, Receiver.step, hrun]⟩

theorem Flow.enabled_ahead {ph : Phase} {k r : Nat} (h : Flow a x ph k r)
    (hrun : x.rcv.running = none) (hstream : x.stream ≠ []) : Enabled a x := by
  cases hchain : x.rcv.chain with
  | cons m chain =>
      exact ⟨.receiver .start, rfl, by simp [Delivery.step, stepReceiver, receiver_start hrun hchain]⟩
  | nil =>
      cases hdown : x.rcvDown with
      | cons m rest =>
          refine ⟨.toReceiver, rfl, ?_⟩
          simp [Delivery.step, hdown, stepReceiver, Receiver.step, h.unclosed, h.attached]
      | nil =>
          cases hup : x.sndUp with
          | cons m rest => exact ⟨.relaySender, rfl, by simp [Delivery.step, hup, h.unblocked]⟩
          | nil => simp [State.stream, hchain, hdown, hup] at hstream

theorem Flow.enabled {ph : Phase} {k r : Nat} (h : Flow a x ph k r) (hx : Inv a x)
    (hp : Poised a x.snd) : Enabled a x := by
  have hstage := h.stage
  have hahead := h.ahead
  cases hstage with
  | unopened hcur hrun =>
      generalize hl : x.stream = l at hahead
      cases hahead with
      | sent m l => exact h.enabled_ahead hrun (by simp [hl])
      | taken _ _ _ _ hph => exact absurd rfl hph
      | fresh hun =>
          -- the key is being derived, or the metadata encrypted
          cases hpc : x.snd.pc with
          | derivingKey =>
              exact ⟨.sender (.keyDerived none), rfl, by simp [Delivery.step, stepSender, SendFile.step, hpc]⟩
          | encryptingMeta =>
              exact ⟨.sender (.metaEncrypted none), rfl,
                by simp [Delivery.step, stepSender, SendFile.step, hpc]⟩
          | windowWait | readingSlice | encryptingChunk | ackWait | settled =>
              simp [hpc, unsent] at hun
  | opening task hcur hrun => exact enabled_resume hrun
  | between | within | ended =>
      obtain ⟨e, y, he, hstep, -⟩ := h.advances hx hp
      exact ⟨e, he, by rw [hstep]; rfl⟩

/-- **A transfer that nothing disturbs ends, and ends well**: in whatever order
its steps are taken there are at most nine for each chunk and nine more, and
where none is left the call has resolved and the file has been delivered. -/
theorem undisturbed_ends (a : SendArgs) (hkey : a.epochKey.length = 32)
    (hcodec : (a.codec.decode (a.codec.encode a.file.toMeta)).isSome = true) {es : List Event}
    (hes : ∀ e ∈ es, goesOn e = true) (hr : Transition.run (step a) init es = some x) :
    es.length ≤ 9 * a.file.totalChunks + 9 ∧
      ((∀ e, goesOn e = true → step a x e = none) ↔ x.snd.pc = .settled .resolved) ∧
      (x.snd.pc = .settled .resolved → Delivered a x.log) := by
  have hg : Transition.Guarded (step a) (fun _ e => goesOn e = true) init es := .of_labels hes init
  have hmeasure : Calm a x ∧ effort a x + es.countP (fun _ => true) ≤ effort a init :=
    hg.measure (fun s e t hs he hstep => calm_step hkey hcodec hs he hstep) (.init a) hr
  rw [List.countP_true, effort_init] at hmeasure
  obtain ⟨hx, hless⟩ := hmeasure
  refine ⟨by omega, ⟨fun hstuck => ?_, fun hres e he => ?_⟩,
    fun hres => (hx.inv.finished (.inl hres)).delivered⟩
  · obtain ⟨ph, k, r, h⟩ | hdone := hx.goes
    · obtain ⟨e, he, hsome⟩ := h.enabled hx.inv hx.poised
      simp [hstuck e he] at hsome
    · exact hdone.resolved
  · obtain ⟨ph, k, r, h⟩ | hdone := hx.goes
    · have hns := h.sender.going
      simp [SendFile.State.isSettled, hres] at hns
    · exact hdone.stuck he

theorem undisturbed_ends_tiny : ∃ x,
    Transition.run (step SendFile.tinyArgs) init tinyEvents = some x ∧
      (∀ e, goesOn e = true → step SendFile.tinyArgs x e = none) ∧
      Delivered SendFile.tinyArgs x.log := by
  have hrun : (Transition.run (step SendFile.tinyArgs) init tinyEvents).any
      (fun x => decide (x.snd.pc = .settled .resolved)) = true := by
    decide +kernel
  obtain ⟨x, hr, hres⟩ := (Option.any_eq_true _ _).mp hrun
  obtain ⟨-, hstuck, hdelivered⟩ :=
    undisturbed_ends SendFile.tinyArgs rfl rfl (by decide) hr
  exact ⟨x, hr, hstuck.mpr (of_decide_eq_true hres), hdelivered (of_decide_eq_true hres)⟩

end Quicksend.Delivery
