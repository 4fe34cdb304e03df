import Quicksend.Lib.Simulation
import Quicksend.Server.Frames
import Quicksend.Server.Goroutines.Steps

/-!
# The relay is blind to content

Of a binary frame the relay reads the header of a chunk, up to its file id,
and the length; of a text frame nothing once it is known to be neither an
`end_session` nor a `reconnect_token`. Wiping everything else is a morphism
of the interleaved handlers, so it changes nothing that the relay does.
-/

namespace Quicksend.Server

/-- What the relay reads of a binary frame: of a chunk its file, its last flag
and its length, of anything else nothing. -/
def seen (data : Bytes) : Option (FileId × Bool × Nat) :=
  (Session.chunkHeader data).map fun header => (header.1, header.2, data.length)

/-- A frame that keeps of another what the relay reads of it: index and
ciphertext of a chunk are zeroed, and nothing is left of any other frame. -/
def wipe (binary : Bool) (data : Bytes) : Bytes :=
  match if binary then seen data else none with
  | some (fileID, isLast, length) =>
      buildChunkFrame fileID 0 isLast (List.replicate (length - chunkFrameHeaderLen) 0)
  | none => []

namespace Session

theorem le_length_of_chunkHeader {data : Bytes} {fileID : FileId} {isLast : Bool}
    (h : chunkHeader data = some (fileID, isLast)) : chunkFrameHeaderLen ≤ data.length := by
  rw [chunkHeader] at h
  split at h
  next => cases h
  next hshort => exact not_lt.mp fun hlt => hshort (.inl hlt)

/-- Recording a frame reads its header and its length. -/
theorem recordChunkBytes_congr (s : Session) {data data' : Bytes} (maxSize : Int)
    (h : seen data = seen data') :
    s.recordChunkBytes data maxSize = s.recordChunkBytes data' maxSize := by
  unfold seen at h
  cases hd : chunkHeader data with
  | none =>
      rw [hd] at h
      rw [recordChunkBytes, recordChunkBytes, hd, Option.map_eq_none_iff.mp h.symm]
  | some header =>
      rw [hd] at h
      obtain ⟨header', hd', heq⟩ := Option.map_eq_some_iff.mp h.symm
      obtain ⟨hid, hlast, hlength⟩ : header'.1 = header.1 ∧ header'.2 = header.2 ∧
        data'.length = data.length := by simpa using heq
      obtain rfl : header' = header := Prod.ext hid hlast
      rw [recordChunkBytes, recordChunkBytes, hd, hd', hlength]

end Session

theorem seen_wipe (data : Bytes) : seen (wipe true data) = seen data := by
  rw [wipe, if_pos rfl]
  cases h : seen data with
  | none => decide
  | some header =>
      obtain ⟨⟨fileID, isLast⟩, hh, rfl⟩ := Option.map_eq_some_iff.mp h
      have hlength := Session.le_length_of_chunkHeader hh
      have hid := fileID.length_eq
      dsimp only
      rw [seen, chunkHeader_eq, parseChunkFrame_buildChunkFrame (by decide)]
      simp only [Option.map_some, Option.some.injEq, Prod.mk.injEq, true_and, buildChunkFrame,
        List.length_cons, List.length_append, hid, beBytes_length, List.length_replicate]
      rw [chunkFrameHeaderLen] at hlength ⊢
      omega

@[simp] theorem wipe_text (data : Bytes) : wipe false data = [] := rfl

/-! ## Wiping a state of the relay -/

/-- A frame as the relay sees it: its own messages in full. -/
def wipedFrame : Frame → Frame
  | .relayed binary data => .relayed binary (wipe binary data)
  | .control m => .control m

/-- The action with the content of the peers taken out of what it sends or
records. -/
def Action.wiped : Action → Action
  | .send conn frame => .send conn (wipedFrame frame)
  | .tell slot frame => .tell slot (wipedFrame frame)
  | .record slot data => .record slot (wipe true data)
  | a => a

/-- The message with its content taken out, if it is one that the relay passes on. -/
def Incoming.wiped : Incoming → Incoming
  | .other binary data => .other binary (wipe binary data)
  | msg => msg

/-- The step with the content of the message it reads taken out; every other step
is itself. -/
def Step.wiped : Step → Step
  | .frame c msg now => .frame c msg.wiped now
  | e => e

/-- The goroutine with the content taken out of what it has written and has still
to write. -/
def Thread.wiped (t : Thread) : Thread :=
  { t with todo := t.todo.map Action.wiped, sent := t.sent.map wipedFrame }

namespace Goroutines

/-- The relay with the content of all frames taken out, wherever it holds one; the
hub itself holds none. -/
def wiped (x : Goroutines) : Goroutines :=
  { x with threads := x.threads.map Thread.wiped, reaperTodo := x.reaperTodo.map Action.wiped }

end Goroutines

/-! ## The critical sections -/

/-- Nothing in the list holds a frame of a client. -/
def Contentless (todo : List Action) : Prop := todo.map Action.wiped = todo

theorem contentless_notifyAndClose (peer : Option (ConnId × String)) (reason : String) :
    Contentless (Goroutines.notifyAndClose peer reason) := by
  cases peer with
  | none => rfl
  | some peer => rfl

theorem Contentless.append {todo todo' : List Action} (h : Contentless todo)
    (h' : Contentless todo') : Contentless (todo ++ todo') := by
  rw [Contentless, List.map_append, h, h']

theorem contentless_enter {h h' : Hub} {pc : Pc} {first : First} {ip : String} {conn : ConnId}
    {now : Time} {draws : Draws} {todo : List Action}
    (henter : enter h first ip conn now draws = (h', pc, todo)) : Contentless todo := by
  cases enter_spec henter <;> rfl

theorem contentless_attachNext {h h' : Hub} {pc pc' : Pc} {first : First} {ip : String}
    {conn : ConnId} {now : Time} {todo : List Action}
    (hnext : attachNext h pc first ip conn now = some (h', pc', todo)) : Contentless todo := by
  cases attachNext_spec hnext <;> rfl

theorem contentless_reapActions (h : Hub) (s : Session) (now : Time) :
    Contentless (Goroutines.reapActions h s now) := by
  rw [Goroutines.reapActions]
  split
  · rfl
  · exact ((contentless_notifyAndClose _ _).append (contentless_notifyAndClose _ _)).append rfl

/-! ## Each step sees the wiped state as it sees the state -/

namespace Goroutines

variable (x : Goroutines)

theorem recorded_wiped (h : Hub) (slot : Slot) (data : Bytes) :
    recorded h slot (wipe true data) =
      ((recorded h slot data).1, (recorded h slot data).2.map Action.wiped) := by
  unfold recorded
  cases h.heap[slot.ref]? with
  | none => rfl
  | some s =>
      dsimp only
      rw [s.recordChunkBytes_congr _ (seen_wipe data)]
      generalize s.recordChunkBytes data h.cfg.MaxFileSize = r
      obtain ⟨s, fileID, drop, sendAbort⟩ := r
      cases drop <;> cases sendAbort <;> cases fileID <;> rfl

theorem receive_wiped (h : Hub) (c : ConnId) (slot : Slot) (s : Session) (msg : Incoming)
    (now : Time) :
    receive h c slot s msg.wiped now =
      ((receive h c slot s msg now).1, (receive h c slot s msg now).2.1,
        (receive h c slot s msg now).2.2.map Action.wiped) := by
  cases msg with
  | endSession =>
      have hend : Contentless [.remove s.ID, .close c "connection closed"] := rfl
      have h := (contentless_notifyAndClose (s.connAndIP slot.role.other) ReasonEndedByPeer).append
        hend
      simp only [Incoming.wiped, receive]
      rw [h]
  | reconnectToken tokenHex => rfl
  | other binary data => cases binary <;> rfl

theorem modify_wiped (c : ConnId) {f g : Thread → Thread}
    (h : ∀ t, g t.wiped = (f t).wiped) : x.wiped.modify c g = (x.modify c f).wiped := by
  have hmap : (x.threads.map Thread.wiped).modify c g = (x.threads.modify c f).map Thread.wiped := by
    refine List.ext_getElem? fun i => ?_
    rw [List.getElem?_modify, List.getElem?_map, List.getElem?_map, List.getElem?_modify]
    cases x.threads[i]? with
    | none => rfl
    | some t => by_cases hc : c = i <;> simp [hc, h t]
  rw [modify, wiped, hmap]
  rfl

@[simp] theorem wiped_hub : x.wiped.hub = x.hub := rfl

@[simp] theorem wiped_reaper : x.wiped.reaper = x.reaper := rfl

theorem getElem?_wiped (c : ConnId) : x.wiped.threads[c]? = (x.threads[c]?).map Thread.wiped :=
  List.getElem?_map

theorem perform_wiped (a : Action) :
    x.wiped.perform a.wiped = ((x.perform a).1.wiped, (x.perform a).2.map Action.wiped) := by
  cases a with
  | take ip | release ip | remove id => rfl
  | send conn frame =>
      refine Prod.ext (x.modify_wiped conn fun t => ?_) rfl
      simp [Thread.write, Thread.wiped]
  | close conn reason => exact Prod.ext (x.modify_wiped conn fun t => rfl) rfl
  | tell slot frame =>
      refine Prod.ext rfl ?_
      simp only [Action.wiped, perform, wiped_hub]
      cases x.hub.connAt slot <;> rfl
  | record slot data =>
      simp only [Action.wiped, perform, wiped_hub, recorded_wiped]
      rfl

/-- A handler goes on as its first critical section says. -/
theorem goto_wiped (h : Hub) (c : ConnId) (pc : Pc) (todo : List Action) :
    (x.wiped.setHub h).modify c (Thread.goto pc (todo.map Action.wiped)) =
      ((x.setHub h).modify c (Thread.goto pc todo)).wiped :=
  (x.setHub h).modify_wiped c fun _ => rfl

theorem step_begin_wiped (c : ConnId) (first : First) (now : Time) (draws : Draws) :
    step x.wiped (.begin c first now draws) = (step x (.begin c first now draws)).map wiped := by
  simp only [step, getElem?_wiped]
  cases x.threads[c]? with
  | none => rfl
  | some t =>
      simp only [Option.map_some, Thread.wiped]
      by_cases hpc : t.pc = .fresh
      · rw [if_pos hpc, if_pos hpc]
        cases henter : enter x.hub first t.ip c now draws with
        | mk h r =>
          obtain ⟨pc, todo⟩ := r
          have htodo : todo.map Action.wiped = todo := contentless_enter henter
          simp only [wiped_hub, henter, Option.map_some]
          refine congrArg some ((x.setHub h).modify_wiped c fun t => ?_)
          simp only [Thread.goto, Thread.wiped, htodo]
      · rw [if_neg hpc, if_neg hpc]
        rfl

theorem step_attach_wiped (c : ConnId) (now : Time) :
    step x.wiped (.attach c now) = (step x (.attach c now)).map wiped := by
  simp only [step, getElem?_wiped]
  cases x.threads[c]? with
  | none => rfl
  | some t =>
      simp only [Option.map_some, Thread.wiped, wiped_hub]
      cases hnext : t.first.bind (attachNext x.hub t.pc · t.ip c now) with
      | none => rfl
      | some r =>
          obtain ⟨h, pc, todo⟩ := r
          obtain ⟨first, -, hnext⟩ := Option.bind_eq_some_iff.mp hnext
          have htodo : todo.map Action.wiped = todo := contentless_attachNext hnext
          simp only [Option.map_some]
          rw [← x.goto_wiped h c pc todo, htodo]

theorem step_act_wiped (c : ConnId) : step x.wiped (.act c) = (step x (.act c)).map wiped := by
  simp only [step, getElem?_wiped]
  cases x.threads[c]? with
  | none => rfl
  | some t =>
      simp only [Option.map_some, Thread.wiped]
      cases t.todo with
      | nil => rfl
      | cons a todo =>
          simp only [List.map_cons, perform_wiped, Option.map_some]
          refine congrArg some ((x.perform a).1.modify_wiped c fun t => ?_)
          simp only [Thread.setTodo, Thread.wiped, List.map_append]

theorem step_frame_wiped (c : ConnId) (msg : Incoming) (now : Time) :
    step x.wiped (.frame c msg.wiped now) = (step x (.frame c msg now)).map wiped := by
  simp only [step, getElem?_wiped]
  cases x.threads[c]? with
  | none => rfl
  | some t =>
      simp only [Option.map_some, Thread.wiped]
      cases t.todo with
      | cons a todo => cases t.pc <;> rfl
      | nil =>
          cases t.pc with
          | fresh | joining | attaching | resuming | ended | left | refused => rfl
          | serving slot =>
              simp only [List.map_nil, wiped_hub]
              cases x.hub.heap[slot.ref]? with
              | none => rfl
              | some s =>
                  simp only [receive_wiped, Option.map_some]
                  rw [x.goto_wiped]

theorem step_readError_wiped (c : ConnId) (now : Time) :
    step x.wiped (.readError c now) = (step x (.readError c now)).map wiped := by
  simp only [step, getElem?_wiped]
  cases x.threads[c]? with
  | none => rfl
  | some t =>
      simp only [Option.map_some, Thread.wiped]
      cases t.todo with
      | cons a todo => cases t.pc <;> rfl
      | nil =>
          cases t.pc with
          | fresh | joining | attaching | resuming | ended | left | refused => rfl
          | serving slot =>
              simp only [List.map_nil, wiped_hub]
              cases x.hub.heap[slot.ref]? with
              | none => rfl
              | some s =>
                  simp only [Option.map_some]
                  rw [← x.goto_wiped]
                  generalize s.markDisconnected slot.role now = r
                  obtain ⟨s, other, ip⟩ := r
                  cases other <;> rfl

theorem step_reaper_wiped {e : Step} (he : e = .look ∨ e = .snap ∨ ∃ now ids, e = .reap now ids) :
    step x.wiped e = (step x e).map wiped := by
  have hnil : x.wiped.reaperTodo = [] ↔ x.reaperTodo = [] := List.map_eq_nil_iff
  obtain rfl | rfl | ⟨now, ids, rfl⟩ := he
  · simp only [step, wiped_reaper, wiped_hub, hnil]
    split
    · split
      · rfl
      · next id ids _ => cases x.hub.sessions.lookup id <;> rfl
      · rfl
      · rfl
    · rfl
  · simp only [step, wiped_reaper, wiped_hub]
    split
    · next now ids ref _ =>
        cases x.hub.heap[ref]? with
        | none => rfl
        | some s =>
            have h := contentless_reapActions x.hub s now
            simp only [Option.map_some, wiped]
            rw [h]
    · rfl
    · rfl
  · simp only [step, wiped_reaper, wiped_hub, hnil]
    split <;> rfl

theorem step_reapAct_wiped : step x.wiped .reapAct = (step x .reapAct).map wiped := by
  have hwiped : x.wiped.reaperTodo = x.reaperTodo.map Action.wiped := rfl
  simp only [step, hwiped]
  cases x.reaperTodo with
  | nil => rfl
  | cons a todo =>
      simp only [List.map_cons, perform_wiped, Option.map_some, ← List.map_append]
      rfl

/-- Wiping is a morphism of the relay: a wiped step leads from the wiped state to
the wiped result. -/
def wiping : Transition.Morphism step step where
  state := wiped
  label := Step.wiped
  step_map x e := by
    cases e with
    | accept ip => simp [Step.wiped, step, wiped, Thread.wiped, Thread.accept]
    | begin c first now draws => exact x.step_begin_wiped c first now draws
    | attach c now => exact x.step_attach_wiped c now
    | act c => exact x.step_act_wiped c
    | frame c msg now => exact x.step_frame_wiped c msg now
    | drop c =>
        simp only [Step.wiped, step, show x.wiped.threads.length = x.threads.length by simp [wiped]]
        split
        · exact congrArg some (x.modify_wiped c fun _ => rfl)
        · rfl
    | readError c now => exact x.step_readError_wiped c now
    | reap now ids => exact x.step_reaper_wiped (.inr (.inr ⟨now, ids, rfl⟩))
    | look => exact x.step_reaper_wiped (.inl rfl)
    | snap => exact x.step_reaper_wiped (.inr (.inl rfl))
    | reapAct => exact x.step_reapAct_wiped

/-- **The relay is blind to content**: where the frames of two runs differ in
nothing that it reads, it does the same in both. Hub, handlers and reaper come
to the same state, and what was written on each connection differs only in
the content of relayed frames. -/
theorem blind_to_content (cfg : Config) {es es' : List Step}
    (h : es.map Step.wiped = es'.map Step.wiped) {x : Goroutines}
    (hrun : Transition.run step (init cfg) es = some x) :
    ∃ x', Transition.run step (init cfg) es' = some x' ∧ x'.hub = x.hub ∧ x'.wiped = x.wiped := by
  have hsame : (Transition.run step (init cfg) es).map wiped =
      (Transition.run step (init cfg) es').map wiped := wiping.run_congr (init cfg) h
  rw [hrun] at hsame
  obtain ⟨x', hrun', hwiped⟩ := Option.map_eq_some_iff.mp hsame.symm
  refine ⟨x', hrun', ?_, hwiped⟩
  -- wiping leaves the hub as it is
  rw [← wiped_hub x', hwiped, wiped_hub]

/-- A pair, and a text and a chunk from the guest. -/
def sending (text ciphertext : Bytes) : List Step :=
  [.accept "a", .begin 0 .createSession 0 (Relay.drawID "s"), .act 0, .accept "b",
    .begin 1 (.join (some "s")) 1 (Relay.drawID ""), .attach 1 1, .attach 1 1, .act 1, .act 1,
    .act 1, .frame 1 (.other false text) 2, .act 1, .act 1,
    .frame 1 (.other true (buildChunkFrame ⟨List.replicate 16 7, by decide⟩ 0 true ciphertext)) 2,
    .act 1, .act 1, .act 1]

theorem blind_to_content_sending : ∃ x x',
    Transition.run step (init Relay.smallConfig) (sending [1] [2, 3]) = some x ∧
      Transition.run step (init Relay.smallConfig) (sending [] [4, 5]) = some x' ∧
      x'.hub = x.hub ∧ x'.wiped = x.wiped := by
  have hrun : (Transition.run step (init Relay.smallConfig) (sending [1] [2, 3])).isSome = true := by
    decide +kernel
  obtain ⟨x, hx⟩ := Option.isSome_iff_exists.mp hrun
  have hwiped : (sending [1] [2, 3]).map Step.wiped = (sending [] [4, 5]).map Step.wiped := rfl
  obtain ⟨x', hx', hsame⟩ := blind_to_content Relay.smallConfig hwiped hx
  exact ⟨x, x', hx, hx', hsame⟩

end Goroutines

end Quicksend.Server
