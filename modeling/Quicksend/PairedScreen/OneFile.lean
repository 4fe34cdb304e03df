import Quicksend.PairedScreen.InFlight
import Quicksend.Lib.Openings

/-!
# One file in flight on a socket

What the page puts on its sockets is recorded together with the transfer
messages it hears. In a calm run the files in this record do not mix: a chunk is
always of the one file whose `file_meta` is the last.
-/

namespace Quicksend.PairedScreen

open Transition (run Guarded)
open Openings (Open EachAfter)

/-- What passes on the sockets of the page. -/
inductive Traffic where
  | put (o : Output)
  | heard (socket : ConnId) (m : Message)
  deriving DecidableEq

/-- The screen with its record: everything that went over its sockets, in the
order in which it went. -/
structure Recorded where
  screen : PairedScreen
  traffic : List Traffic

/-- A page just loaded, of which nothing has gone over any socket. -/
def Recorded.init : Recorded := { screen := PairedScreen.init, traffic := [] }

/-- What this event lets the screen hear on a socket; only a transfer message that
arrives counts. -/
def heardOf : Event → List Traffic
  | .arrives socket m => [.heard socket m]
  | _ => []

/-- A step of the page, on the record. -/
def record (w : WebCrypto) (codec : MetaCodec) (x : Recorded) (e : Event) : Option Recorded :=
  (step w codec x.screen e).map fun r =>
    { screen := r.1, traffic := x.traffic ++ (heardOf e ++ r.2.map .put) }

/-- The `file_meta` of call `k` on a socket. -/
def Begins (socket : ConnId) (k : Nat) (t : Traffic) : Prop :=
  ∃ m, t = .put ⟨socket, some k, .message m⟩ ∧ m.IsFileMeta

/-- The last chunk or the `file_abort` of call `k`, or a `file_abort` for its
file from the other side. -/
def Ends (socket : ConnId) (k : Nat) (fileId : JSString) (t : Traffic) : Prop :=
  (∃ m, t = .put ⟨socket, some k, .message m⟩ ∧ m.EndsFile) ∨
    ∃ p, t = .heard socket (.text (.fileAbort (some p))) ∧ p.fileId = some fileId

/-- The entry is a chunk frame that call `k` put on this socket, and not something
heard or sent by another call. -/
def IsChunkOf (socket : ConnId) (k : Nat) (t : Traffic) : Prop :=
  ∃ m, t = .put ⟨socket, some k, .message m⟩ ∧ m.IsChunk

/-- The file of a call has begun on a socket and not ended. -/
def FileOpen (socket : ConnId) (k : Nat) (call : SendCall) (log : List Traffic) : Prop :=
  Open (Begins socket k) (Ends socket k call.args.fileId.hex) log

/-- While the file of one call is open on a socket, no other call puts a chunk there. -/
def Unmixed (x : PairedScreen) (log : List Traffic) : Prop :=
  EachAfter (fun before t => ∀ socket j k call, IsChunkOf socket j t → x.calls[k]? = some call →
    FileOpen socket k call before → j = k) log

/-- One file in flight: at most one call is pending; one of a superseded render is
not pending and puts nothing on a socket, nor does one whose handle is detached;
and the files on a socket do not mix. -/
structure OneFile (w : WebCrypto) (codec : MetaCodec) (x : Recorded) : Prop where
  one : ∀ (j k : Nat) (cj ck : SendCall), x.screen.calls[j]? = some cj →
    x.screen.calls[k]? = some ck → cj.pending = true → ck.pending = true → j = k
  superseded : ∀ (k : Nat) (call : SendCall), x.screen.calls[k]? = some call →
    call.render + 1 < x.screen.renders.length → call.pending = false
  silent : ∀ (e : Event) (y : PairedScreen) (out : List Output) (o : Output) (k : Nat)
    (call : SendCall), step w codec x.screen e = some (y, out) → o ∈ out → o.call = some k →
    x.screen.calls[k]? = some call →
    call.render + 1 = x.screen.renders.length ∧ x.screen.IsLive call.render
  unmixed : Unmixed x.screen x.traffic

/-! ## The invariant -/

variable {w : WebCrypto} {codec : MetaCodec} {x y : PairedScreen} {e : Event} {out : List Output}
  {log : List Traffic}

/-- A call that owes nothing has no file open, unless nothing can be sent any more. -/
structure CallOk (x : PairedScreen) (log : List Traffic) (k : Nat) (call : SendCall) : Prop where
  flags : SendFile.Flags call.state
  sync : call.state.socketClosed = true → call.socket ∈ x.shut
  through : call.state.through → call.socket ∈ x.shut ∨ ¬ FileOpen call.socket k call log

/-- The invariant of the record: calls are in flight one at a time, what a call
put out is on its own socket, and the chunks of two calls do not mix. -/
structure OnRecord (x : PairedScreen) (log : List Traffic) : Prop where
  inFlight : InFlight x
  owned : ∀ o k, .put o ∈ log → o.call = some k →
    ∃ call, x.calls[k]? = some call ∧ call.socket = o.socket
  calls : ∀ (k : Nat) (call : SendCall), x.calls[k]? = some call → CallOk x log k call
  unmixed : Unmixed x log

theorem OnRecord.init : OnRecord init [] where
  inFlight := .init
  owned := by simp
  calls := by simp [PairedScreen.init]
  unmixed := .nil

theorem begins_new {socket : ConnId} {k : Nat} {t : Traffic}
    (ht : t ∈ heardOf e ++ out.map .put) (hb : Begins socket k t) :
    ∃ m, ⟨socket, some k, .message m⟩ ∈ out ∧ m.IsFileMeta := by
  obtain ⟨m, rfl, hm⟩ := hb
  rcases List.mem_append.mp ht with ht | ht
  · unfold heardOf at ht
    split at ht
    next => simp at ht
    next => cases ht
  · obtain ⟨o, ho, heq⟩ := List.mem_map.mp ht
    obtain rfl := Traffic.put.inj heq
    exact ⟨m, ho, hm⟩

theorem CallRan.ok {k : Nat} {call call' : SendCall} (h : CallRan y e out k call call')
    (hw : SendFile.WellFormed call.args call.state) (hshut : ∀ c ∈ x.shut, c ∈ y.shut)
    (hx : CallOk x log k call) : CallOk y (log ++ (heardOf e ++ out.map .put)) k call' := by
  cases h with
  | still hout =>
      refine ⟨hx.flags, fun hc => hshut _ (hx.sync hc), fun ht => ?_⟩
      rcases hx.through ht with hs | hno
      · exact .inl (hshut _ hs)
      · refine .inr (Openings.not_open_append hno fun t ht hb => ?_)
        obtain ⟨m, hm, -⟩ := begins_new ht hb
        exact hout _ hm rfl
  | ran e' s ms hstep hout hput hmsg hclose =>
      have hsteps := SendFile.step_spec hw hstep
      refine ⟨hsteps.flags hx.flags, fun hc => ?_, fun ht => ?_⟩
      · rcases hsteps.socketClosed hc with hc | hc
        · exact hshut _ (hx.sync hc)
        · exact hclose hc
      by_cases hs : call.socket ∈ y.shut
      · exact .inl hs
      right
      have hopen : call.state.socketClosed = false := by
        cases hc : call.state.socketClosed with
        | false => rfl
        | true => exact absurd (hshut _ (hx.sync hc)) hs
      obtain ⟨hno, hwhy⟩ := hsteps.of_through hw hx.flags hopen (fun he => hs (hclose he)) ht
      have hbegins : ∀ t ∈ heardOf e ++ out.map .put, ¬ Begins call.socket k t := by
        intro t ht hb
        obtain ⟨m, hm, hmeta⟩ := begins_new ht hb
        obtain ⟨-, m', hm', heq⟩ := hout _ hm rfl
        have hmm : m = m' := by simpa using heq
        exact hno m' hm' (hmm ▸ hmeta)
      rcases hwhy with hth | ⟨m, hm, hend⟩ | ⟨p, he', hid⟩
      · rcases hx.through hth with hs' | hno'
        · exact absurd (hshut _ hs') hs
        · exact Openings.not_open_append hno' hbegins
      · refine Openings.not_open_of_closes hbegins ⟨.put ⟨call.socket, some k, .message m⟩, ?_, ?_⟩
        · exact List.mem_append_right _ (List.mem_map_of_mem (hput hs m hm))
        · exact .inl ⟨m, rfl, hend⟩
      · refine Openings.not_open_of_closes hbegins
          ⟨.heard call.socket (.text (.fileAbort (some p))), ?_, .inr ⟨p, rfl, hid⟩⟩
        rw [hmsg _ he']
        exact List.mem_append_left _ (by simp [heardOf])

/-- What a call puts on a socket in one step: it is pending, the socket is its
own, and open. -/
theorem CallMove.of_output (h : CallMove x y e out) (hx : InFlight x) {o : Output} {k : Nat}
    (ho : o ∈ out) (hok : o.call = some k) :
    ∃ call call', x.calls[k]? = some call ∧ y.calls[k]? = some call' ∧
      CallRan y e out k call call' ∧ call.pending = true ∧ o.socket = call.socket ∧
      call.socket ∉ y.shut := by
  cases h with
  | kept hc hout =>
      rw [hout o ho] at hok
      cases hok
  | stopped _ _ _ _ _ hout =>
      rw [hout] at ho
      cases ho
  | started _ _ _ _ _ _ _ _ _ _ _ _ hout =>
      rw [hout] at ho
      cases ho
  | ran hlen hc hout hb =>
      obtain ⟨k', hk', hlt⟩ := hout o ho
      obtain rfl : k = k' := Option.some.inj (hok.symm.trans hk')
      have hk := List.getElem?_eq_getElem hlt
      obtain ⟨call', hcall', hran⟩ := hc k _ hk
      refine ⟨_, call', hk, hcall', hran, ?_⟩
      cases hran with
      | still hno => exact absurd hok (hno o ho)
      | ran e' s ms hstep hown _ _ _ =>
          obtain ⟨hs, m, hm, rfl⟩ := hown o ho hok
          refine ⟨?_, rfl, hs⟩
          cases hset : x.calls[k].state.isSettled with
          | false => rw [SendCall.pending, hset]; rfl
          | true =>
              have hsteps := SendFile.step_spec (hx.well k _ hk) hstep
              rw [(hsteps.of_settled hset).1] at hm
              cases hm

theorem OnRecord.owned_step (hx : OnRecord x log) (hmove : CallMove x y e out) {o : Output}
    {k : Nat} (ho : .put o ∈ log ++ (heardOf e ++ out.map .put)) (hok : o.call = some k) :
    ∃ call, y.calls[k]? = some call ∧ call.socket = o.socket := by
  have kept {call : SendCall} (hk : x.calls[k]? = some call) :
      ∃ call', y.calls[k]? = some call' ∧ call'.socket = call.socket := by
    cases hmove with
    | kept hc => exact ⟨call, by rw [hc]; exact hk, rfl⟩
    | stopped _ _ _ _ hc => exact ⟨call, by rw [hc]; exact hk, rfl⟩
    | started _ _ _ _ _ _ _ _ _ _ _ hc =>
        have hlt := (List.getElem?_eq_some_iff.mp hk).1
        exact ⟨call, by rw [hc, List.getElem?_append_left hlt]; exact hk, rfl⟩
    | ran _ hc =>
        obtain ⟨call', hk', hran⟩ := hc k call hk
        exact ⟨call', hk', (hran.kept (hx.inFlight.well k call hk)).socket⟩
  rcases List.mem_append.mp ho with ho | ho
  · obtain ⟨call, hk, hs⟩ := hx.owned o k ho hok
    obtain ⟨call', hk', hs'⟩ := kept hk
    exact ⟨call', hk', hs'.trans hs⟩
  · have ho' : o ∈ out := by
      rcases List.mem_append.mp ho with ho | ho
      · unfold heardOf at ho
        split at ho
        next => simp at ho
        next => cases ho
      · obtain ⟨o', ho', heq⟩ := List.mem_map.mp ho
        rwa [← Traffic.put.inj heq]
    obtain ⟨call, call', hk, hk', hran, -, hs, -⟩ := hmove.of_output hx.inFlight ho' hok
    exact ⟨call', hk', by rw [(hran.kept (hx.inFlight.well k call hk)).socket, hs]⟩

/-- The chunk of a step is of the only file that is open on its socket. -/
theorem OnRecord.chunk_step (hx : OnRecord x log) (hmove : CallMove x y e out)
    (hshut : ∀ c ∈ x.shut, c ∈ y.shut) {pre post : List Traffic} {t : Traffic}
    (hnew : heardOf e ++ out.map .put = pre ++ t :: post) {socket : ConnId} {j k : Nat}
    {call' : SendCall} (hchunk : IsChunkOf socket j t) (hk' : y.calls[k]? = some call')
    (hopen : FileOpen socket k call' (log ++ pre)) : j = k := by
  obtain ⟨m, rfl, hm⟩ := hchunk
  have ht : (⟨socket, some j, .message m⟩ : Output) ∈ out := by
    have hmem : Traffic.put ⟨socket, some j, .message m⟩ ∈ heardOf e ++ out.map .put := by
      rw [hnew]
      simp
    rcases List.mem_append.mp hmem with h | h
    · unfold heardOf at h
      split at h
      next => simp at h
      next => cases h
    · obtain ⟨o, ho, heq⟩ := List.mem_map.mp h
      rwa [← Traffic.put.inj heq]
  obtain ⟨cj, cj', hj, hj', hran, hpj, rfl, hs⟩ := hmove.of_output hx.inFlight ht rfl
  by_contra hjk
  -- no file begins in this step: `j` sends a chunk, and no other call sends anything
  have hno : ∀ t ∈ pre, ¬ Begins cj.socket k t := by
    intro t ht' hb
    have hmem : t ∈ heardOf e ++ out.map .put := by
      rw [hnew]
      simp [ht']
    obtain ⟨m', hm', -⟩ := begins_new hmem hb
    obtain ⟨ck, -, hk, -, -, hpk, -⟩ := hmove.of_output hx.inFlight hm' rfl
    exact hjk (hx.inFlight.one hj hk hpj hpk)
  obtain ⟨hopen, -⟩ := hopen.of_append hno
  obtain ⟨t, htlog, m', rfl, hmeta⟩ := hopen.exists_opens
  obtain ⟨ck, hk, hsk⟩ := hx.owned _ k htlog rfl
  have hsk : ck.socket = cj.socket := hsk
  -- `j` sends, and two calls never are pending at once
  have hidle : ck.pending = false := by
    cases hpk : ck.pending with
    | false => rfl
    | true => exact absurd (hx.inFlight.one hj hk hpj hpk) hjk
  have hthrough : ck.state.through := by
    refine .inl ?_
    cases hl : ck.state.listening with
    | false => rfl
    | true =>
        have := SendFile.not_settled_of_listening hl
        simp [SendCall.pending, this] at hidle
  have hargs : call'.args = ck.args := by
    rcases hmove.call_cases hx.inFlight hk' with ⟨c, hc, hkept⟩ | ⟨_, _, hlen, -⟩
    · rw [hk] at hc
      rw [hkept.args, Option.some.inj hc]
    · have := (List.getElem?_eq_some_iff.mp hk).1
      omega
  -- a call that is through has ended its file, unless its socket was shut, and then `j` sends
  -- nothing
  rcases (hx.calls k ck hk).through hthrough with hshut' | hclosed
  · rw [hsk] at hshut'
    exact hs (hshut _ hshut')
  · rw [hargs] at hopen
    rw [hsk] at hclosed
    exact hclosed hopen

theorem OnRecord.step (hx : OnRecord x log) (hg : x.Calm e)
    (h : PairedScreen.step w codec x e = some (y, out)) :
    OnRecord y (log ++ (heardOf e ++ out.map .put)) := by
  have hmove := move_of_step h
  have hsock := socketMove_of_step h
  constructor
  case inFlight => exact hx.inFlight.step hg h
  case owned => exact fun o k ho hok => hx.owned_step hmove ho hok
  case unmixed =>
    -- what is on the record stays unmixed: a file open in it is of a call that was there
    have hold : Unmixed y log := by
      intro pre t post hlog socket j k call' hchunk hk' hopen
      obtain ⟨a, ha, m, rfl, -⟩ := hopen.exists_opens
      have hmem : Traffic.put ⟨socket, some k, .message m⟩ ∈ log := by
        rw [hlog]
        simp [ha]
      obtain ⟨ck, hk, -⟩ := hx.owned _ k hmem rfl
      have hargs : call'.args = ck.args := by
        rcases hmove.call_cases hx.inFlight hk' with ⟨c, hc, hkept⟩ | ⟨_, _, hlen, -⟩
        · rw [hk] at hc
          rw [hkept.args, Option.some.inj hc]
        · have := (List.getElem?_eq_some_iff.mp hk).1
          omega
      rw [FileOpen, hargs] at hopen
      exact hx.unmixed pre t post hlog socket j k ck hchunk hk hopen
    exact hold.append fun pre t post hnew socket j k call' hchunk hk' hopen =>
      hx.chunk_step hmove hsock.shut hnew hchunk hk' hopen
  case calls =>
    intro k call' hk
    have kept {call : SendCall} (hc : x.calls[k]? = some call) (hsame : call' = call)
        (hno : ∀ o ∈ out, o.call ≠ some k) :
        CallOk y (log ++ (heardOf e ++ out.map .put)) k call' := by
      subst hsame
      exact (CallRan.still hno).ok (hx.inFlight.well k _ hc) hsock.shut (hx.calls k _ hc)
    cases hmove with
    | kept hc hout =>
        refine kept (by rw [hc] at hk; exact hk) rfl fun o ho hok => ?_
        rw [hout o ho] at hok
        cases hok
    | stopped _ _ _ _ hc hout =>
        refine kept (by rw [hc] at hk; exact hk) rfl fun o ho hok => ?_
        rw [hout] at ho
        cases ho
    -- a new call has sent nothing, and what is heard in the same step is not its own
    | started i o call files hlen hi hlive hfree hrender hsocket hstate hc hout hb =>
        rw [hc, List.getElem?_append] at hk
        split at hk
        next =>
          refine kept hk rfl fun o ho hok => ?_
          rw [hout] at ho
          cases ho
        next hlt =>
          rw [List.getElem?_singleton] at hk
          split at hk
          next h0 =>
            obtain rfl := Option.some.inj hk
            refine ⟨?_, ?_, fun _ => .inr ?_⟩
            · rw [hstate]
              exact ⟨fun _ => rfl, fun h => by cases h⟩
            · rw [hstate, hsocket]
              intro hcl
              exact hsock.shut _ (hx.inFlight.closed _ (by simpa using hcl))
            · -- nothing on the record is from a call that did not exist
              intro hopen
              obtain ⟨t, ht, m, rfl, -⟩ := hopen.exists_opens
              rcases List.mem_append.mp ht with ht | ht
              · obtain ⟨c, hck, -⟩ := hx.owned _ k ht rfl
                have := (List.getElem?_eq_some_iff.mp hck).1
                omega
              · rw [hout, List.map_nil, List.append_nil] at ht
                unfold heardOf at ht
                split at ht
                next => simp at ht
                next => cases ht
          next => cases hk
    | ran hlen hc hout hb =>
        have hlt : k < x.calls.length := by
          rw [← hlen]
          exact (List.getElem?_eq_some_iff.mp hk).1
        have hk₀ := List.getElem?_eq_getElem hlt
        obtain ⟨call'', hk', hran⟩ := hc k _ hk₀
        rw [hk] at hk'
        obtain rfl := Option.some.inj hk'
        exact hran.ok (hx.inFlight.well k _ hk₀) hsock.shut (hx.calls k _ hk₀)

/-! ## The runs -/

theorem OnRecord.oneFile {x : Recorded} (hx : OnRecord x.screen x.traffic) : OneFile w codec x := by
  have hlen : x.screen.outlines.length = x.screen.renders.length := by
    rw [outlines, List.length_map]
  constructor
  case one => exact fun j k cj ck => hx.inFlight.one
  case unmixed => exact hx.unmixed
  case superseded =>
    intro k call hk hlt
    cases hp : call.pending with
    | false => rfl
    | true =>
        have := (hx.inFlight.pending k call hk hp).last
        omega
  case silent =>
    intro e y out o k call h ho hok hk
    have hsock := socketMove_of_step h
    obtain ⟨c, -, hk', -, -, hp, -, hs⟩ := (move_of_step h).of_output hx.inFlight ho hok
    rw [hk] at hk'
    obtain rfl := Option.some.inj hk'
    obtain ⟨hlast, -, hl⟩ := hx.inFlight.pending k call hk hp
    refine ⟨by omega, ?_⟩
    rcases hl with hl | ⟨p, hp', hl⟩
    · exact absurd (hsock.shut _ hl) hs
    · rw [outlines_getElem?] at hp'
      obtain ⟨r, hr, rfl⟩ := Option.map_eq_some_iff.mp hp'
      obtain ⟨h', hh', hlive⟩ := Option.map_eq_some_iff.mp hl
      simp [IsLive, handle, hr, hh', hlive]

theorem onRecord_record (x : Recorded) (e : Event) (y : Recorded)
    (hx : OnRecord x.screen x.traffic) (hg : x.screen.Calm e)
    (h : record w codec x e = some y) : OnRecord y.screen y.traffic := by
  obtain ⟨⟨y, out⟩, hstep, rfl⟩ := Option.map_eq_some_iff.mp h
  exact hx.step hg hstep

/-- **One file in flight.** When the paired screen is rendered only while no call
is pending and no earlier promise is, one file at a time is in flight. -/
theorem oneFile_of_calm (w : WebCrypto) (codec : MetaCodec) (es : List Event) (x : Recorded)
    (hg : Guarded (record w codec) (fun x e => x.screen.Calm e) Recorded.init es)
    (hr : run (record w codec) Recorded.init es = some x) : OneFile w codec x :=
  (hg.invariant onRecord_record OnRecord.init hr).oneFile

/-! ## A render over a pending call -/

/-- A file is picked, and its `file_meta` goes out; the peer reconnects, and
another file is picked in the new render. -/
def overtakenEvents : List Event :=
  [.pairs .guest 0 tinySessionKey, .derived 0 none, .adopts 0 SendFile.tinyArgs.fileId,
    .picks 0 [SendFile.tinyArgs.file] SendFile.tinyArgs.fileId, .sendFile 0 (.keyDerived none),
    .sendFile 0 (.metaEncrypted none), .hears (.notice .peerReconnected), .derived 1 none,
    .adopts 1 SendFile.tinyArgs.fileId, .picks 1 [SendFile.tinyArgs.file] SendFile.tinyArgs.fileId]

/-- Both calls are pending, on one socket. -/
theorem two_files_in_flight : ∃ x,
    run (record labelCrypto SendFile.tinyArgs.codec) Recorded.init overtakenEvents = some x ∧
      ¬ OneFile labelCrypto SendFile.tinyArgs.codec x := by
  have hrun : (run (record labelCrypto SendFile.tinyArgs.codec) Recorded.init overtakenEvents).any
      (fun x => (x.screen.calls[0]?).any SendCall.pending && (x.screen.calls[1]?).any SendCall.pending)
        = true := by decide +kernel
  obtain ⟨x, hx, h⟩ := (Option.any_eq_true _ _).mp hrun
  obtain ⟨h0, h1⟩ := Bool.and_eq_true_iff.mp h
  obtain ⟨c0, hc0, hp0⟩ := (Option.any_eq_true _ _).mp h0
  obtain ⟨c1, hc1, hp1⟩ := (Option.any_eq_true _ _).mp h1
  refine ⟨x, hx, fun hone => ?_⟩
  exact absurd (hone.one 0 1 c0 c1 hc0 hc1 hp0 hp1) (by decide)

/-- The first file is sent and acknowledged before the peer reconnects. -/
def calmEvents : List Event :=
  [.pairs .guest 0 tinySessionKey, .derived 0 none, .adopts 0 SendFile.tinyArgs.fileId,
    .picks 0 [SendFile.tinyArgs.file] SendFile.tinyArgs.fileId, .sendFile 0 (.keyDerived none),
    .sendFile 0 (.metaEncrypted none), .sendFile 0 (.sliceRead none),
    .sendFile 0 (.chunkEncrypted none),
    .arrives 0 (chunkAckMessage SendFile.tinyArgs.fileId.hex 0),
    .continues 0 SendFile.tinyArgs.fileId, .hears (.notice .peerReconnected), .derived 1 none,
    .adopts 1 SendFile.tinyArgs.fileId, .picks 1 [SendFile.tinyArgs.file] SendFile.tinyArgs.fileId]

theorem oneFile_of_calm_tiny : ∃ x,
    run (record labelCrypto SendFile.tinyArgs.codec) Recorded.init calmEvents = some x ∧
      (x.screen.calls.map SendCall.pending = [false, true]) ∧
      OneFile labelCrypto SendFile.tinyArgs.codec x := by
  have hrun : (run (record labelCrypto SendFile.tinyArgs.codec) Recorded.init calmEvents).any
      (fun x => decide (x.screen.calls.map SendCall.pending = [false, true])) = true := by
    decide +kernel
  obtain ⟨x, hx, h⟩ := (Option.any_eq_true _ _).mp hrun
  refine ⟨x, hx, of_decide_eq_true h, ?_⟩
  exact oneFile_of_calm labelCrypto SendFile.tinyArgs.codec calmEvents x (by decide +kernel) hx

end Quicksend.PairedScreen
