import Quicksend.Server.Reap
import Quicksend.Server.Refused

/-!
# Rounds of the reaper

The handlers and the reaper, interleaved, with runs of `ReapOnce` among them
that nothing interrupts.
-/

namespace Quicksend.Server

/-- A critical section, or a whole run of the reaper. -/
inductive Round where
  | step (e : Step)
  | reapOnce (now : Time) (ids : List String)

namespace Goroutines

variable {x y : Goroutines}

/-- Carry an effect of the reaper out at once: a frame is written to its
connection, or the connection is closed. -/
def deliver (threads : List Thread) : Effect → List Thread
  | .send c frame => threads.modify c (Thread.write frame)
  | .close c _ => threads.modify c Thread.shut

/-- A step of the relay, or a whole round of the reaper over all sessions in some
order, with no goroutine coming in between. -/
def round (x : Goroutines) : Round → Option Goroutines
  | .step e => x.step e
  | .reapOnce now ids =>
      if x.reaper = .idle ∧ x.reaperTodo = [] ∧ ids.Perm x.hub.sessions.keys then
        let (h, effects) := x.hub.ReapOnce now ids
        some { x with hub := h, threads := effects.foldl deliver x.threads }
      else none

/-- What a whole run of the reaper makes of the state. -/
theorem round_reapOnce {now : Time} {ids : List String}
    (hround : x.round (.reapOnce now ids) = some y) :
    ids.Perm x.hub.sessions.keys ∧ y.hub = (x.hub.ReapOnce now ids).1 ∧
      y.reaperTodo = x.reaperTodo ∧
      y.threads = (x.hub.ReapOnce now ids).2.foldl deliver x.threads := by
  rw [round] at hround
  split at hround
  next hready =>
    obtain rfl := Option.some.inj hround
    exact ⟨hready.2.2, rfl, rfl, rfl⟩
  next => cases hround

/-! ## The ids in the map -/

theorem filed_adds {h h' : Hub} {id : String} (hf : h.Filed) (hadds : Adds h h' id) :
    h'.Filed := by
  obtain ⟨s, hid, hheap⟩ := hadds.heap
  intro id' ref hlookup
  rw [hadds.sessions] at hlookup
  rw [idAt_append hheap]
  by_cases heq : id' = id
  · rw [heq, AList.lookup_insert] at hlookup
    obtain rfl := Option.some.inj hlookup
    rw [Function.update_self, hid, heq]
  · rw [AList.lookup_insert_ne heq] at hlookup
    have hold := hf id' ref hlookup
    rw [Function.update_of_ne, hold]
    rintro rfl
    rw [idAt_new] at hold
    cases hold

theorem filed_step {e : Step} (hf : x.hub.Filed) (hstep : step x e = some y) : y.hub.Filed := by
  cases tabled_step hstep with
  | same _ hsame =>
      intro id ref hlookup
      rw [hsame.ids]
      rw [hsame.sessions] at hlookup
      exact hf id ref hlookup
  | created _ _ _ _ _ hadds => exact filed_adds hf hadds
  | issued _ _ _ _ _ _ hadds => exact filed_adds hf hadds
  | guessed c code now draws t ht hhub =>
      obtain ⟨-, hheap, hsessions, -, -, -⟩ := Hub.resolveCode_unmoved x.hub code t.ip now
      rw [← hhub] at hheap hsessions
      refine hf.erase hheap fun id ref hlookup => ?_
      rwa [hsessions] at hlookup
  | swept _ _ hhub =>
      rw [hhub]
      exact hf
  | removed _ id _ _ _ _ hhub =>
      rw [hhub]
      refine hf.erase rfl fun id' ref hlookup => ?_
      change (x.hub.sessions.erase id).lookup id' = _ at hlookup
      by_cases heq : id' = id
      · rw [heq, AList.lookup_erase] at hlookup
        cases hlookup
      · rwa [AList.lookup_erase_ne heq] at hlookup

/-! ## The slots -/

/-- Writing and closing move no handler. -/
theorem get_deliver {effects : List Effect} {threads : List Thread} {d : ConnId} {t' : Thread}
    (h : (effects.foldl deliver threads)[d]? = some t') :
    ∃ t, threads[d]? = some t ∧ SameCore t t' := by
  induction effects generalizing threads with
  | nil => exact ⟨t', h, rfl, rfl, rfl, rfl⟩
  | cons e effects ih =>
      obtain ⟨t₁, ht₁, hcore⟩ := ih h
      have hfirst : ∃ t, threads[d]? = some t ∧ SameCore t t₁ := by
        cases e with
        | send c frame =>
            obtain ⟨t, ht, rfl⟩ := Tally.getElem?_modify_eq_some ht₁
            refine ⟨t, ht, ?_⟩
            split <;> exact ⟨rfl, rfl, rfl, rfl⟩
        | close c reason =>
            obtain ⟨t, ht, rfl⟩ := Tally.getElem?_modify_eq_some ht₁
            refine ⟨t, ht, ?_⟩
            split <;> exact ⟨rfl, rfl, rfl, rfl⟩
      obtain ⟨t, ht, hcore'⟩ := hfirst
      exact ⟨t, ht, hcore.ip.trans hcore'.ip, hcore.first.trans hcore'.first,
        hcore.pc.trans hcore'.pc, hcore.todo.trans hcore'.todo⟩

theorem length_deliver (effects : List Effect) (threads : List Thread) :
    (effects.foldl deliver threads).length = threads.length := by
  induction effects generalizing threads with
  | nil => rfl
  | cons e effects ih =>
      refine (ih _).trans ?_
      cases e <;> exact List.length_modify ..

theorem held_deliver {effects : List Effect} (hthreads : y.threads = effects.foldl deliver x.threads) :
    y.held = x.held := by
  funext d
  cases hy : y.threads[d]? with
  | some t' =>
      obtain ⟨t, ht, hcore⟩ := get_deliver (hthreads ▸ hy)
      rw [held_of_get hy, held_of_get ht, hcore.pc]
  | none =>
      have hlen : x.threads.length ≤ d := by
        rw [← length_deliver effects, ← hthreads]
        exact List.getElem?_eq_none_iff.mp hy
      rw [held, held, hy, List.getElem?_eq_none hlen]

/-- In every reachable state a slot has one owner, and the map is in order. -/
theorem inOrder_round {r : Round} (h : x.Owned ∧ x.hub.Filed) (hround : x.round r = some y) :
    y.Owned ∧ y.hub.Filed := by
  cases r with
  | step e => exact ⟨owned_step h.1 hround, filed_step h.2 hround⟩
  | reapOnce now ids =>
      obtain ⟨hids, hhub, -, hthreads⟩ := round_reapOnce hround
      have hreaped := Hub.reapOnce_reaped h.2 (fun slot slot' c => h.1.left_unique) hids now
      have hheap : y.hub.heap = x.hub.heap := hhub ▸ hreaped.heap
      refine ⟨h.1.congr (connAt_of_heap hheap) (held_deliver hthreads),
        h.2.erase hheap fun id ref hlookup => ?_⟩
      rw [hhub] at hlookup
      exact Hub.lookup_of_reaped hreaped h.2 hlookup

theorem inOrder_run {cfg : Config} {rs : List Round}
    (hrun : Transition.run round (init cfg) rs = some x) : x.Owned ∧ x.hub.Filed := by
  refine Transition.invariant (I := fun x : Goroutines => x.Owned ∧ x.hub.Filed)
    (fun x r y h hround => inOrder_round h hround) ⟨owned_init cfg, fun id ref hlookup => ?_⟩ hrun
  simp [init, Hub.new] at hlookup

end Goroutines

end Quicksend.Server
