import Quicksend.Lib.Transition
import Quicksend.Server.Goroutines.Owners

/-!
# Registered tokens

`reattach` asks for the token that the dropped peer registered and keeps it;
`attach` fills a dropped guest's slot with a new peer that has none.
-/

namespace Quicksend.Server

/-- The token registered for a role, or none. -/
def Session.tokenOf (s : Session) (role : Role) : Bytes :=
  ((s.peers role).map Peer.reconnectToken).getD []

/-- The reconnect token kept for this slot; empty where the slot is free or none
has been registered. -/
def Hub.tokenAt (h : Hub) (slot : Slot) : Bytes :=
  ((h.heap[slot.ref]?).map (·.tokenOf slot.role)).getD []

namespace Goroutines

variable {x y : Goroutines} {slot : Slot} {token : Bytes}

/-- A guest does not get the slot of one that has registered a token. -/
def Reserved (x : Goroutines) : Step → Prop
  | .attach c _ => ∀ t ∈ x.threads[c]?, match t.pc with
      | .attaching ref _ => x.hub.connAt ⟨ref, .guest⟩ = none → x.hub.tokenAt ⟨ref, .guest⟩ = []
      | _ => True
  | _ => True

/-- The handler of the slot registers no other token. -/
def KeepsToken (slot : Slot) (token : Bytes) (x : Goroutines) : Step → Prop
  | .frame c (.reconnectToken tokenHex) _ => ∀ t ∈ x.threads[c]?, t.pc = .serving slot →
      ∀ token' ∈ tokenHex.bind decodeString, token' = token
  | _ => True

instance (x : Goroutines) : (e : Step) → Decidable (x.Reserved e)
  | .attach _ _ => @Option.decidableForallMem _ _ (fun t => match t.pc with
      | .attaching ref _ => inferInstanceAs (Decidable
          (x.hub.connAt ⟨ref, .guest⟩ = none → x.hub.tokenAt ⟨ref, .guest⟩ = []))
      | .fresh | .joining _ | .resuming .. | .serving _ | .ended _ | .left _ | .refused =>
          .isTrue trivial) _
  | .accept .. | .begin .. | .act .. | .frame .. | .drop .. | .readError .. | .reap .. | .look
  | .snap | .reapAct => .isTrue trivial

instance (slot : Slot) (token : Bytes) (x : Goroutines) (e : Step) :
    Decidable (KeepsToken slot token x e) := by
  unfold KeepsToken
  split <;> infer_instance

/-! ## What changes a token -/

section Tokens

variable {h h' : Hub}

theorem tokenAt_of_heap (hheap : h'.heap = h.heap) : h'.tokenAt slot = h.tokenAt slot := by
  rw [Hub.tokenAt, Hub.tokenAt, hheap]

theorem tokenAt_of_get {s : Session} (hs : h.heap[slot.ref]? = some s) :
    h.tokenAt slot = s.tokenOf slot.role := by
  rw [Hub.tokenAt, hs]
  rfl

theorem tokenAt_set {ref : Nat} {s t : Session} (hs : h.heap[ref]? = some s)
    (hheap : h'.heap = h.heap.set ref t)
    (ht : slot.ref = ref → t.tokenOf slot.role = s.tokenOf slot.role) :
    h'.tokenAt slot = h.tokenAt slot := by
  rw [Hub.tokenAt, hheap]
  by_cases href : slot.ref = ref
  · have hget : h.heap[slot.ref]? = some s := href ▸ hs
    rw [tokenAt_of_get hget, ← ht href, href,
      List.getElem?_set_self (List.getElem?_eq_some_iff.mp hs).1]
    rfl
  · rw [List.getElem?_set_ne (Ne.symm href)]
    rfl

theorem tokenAt_append {s : Session} (hheap : h'.heap = h.heap ++ [s]) (hne : h.tokenAt slot ≠ []) :
    h'.tokenAt slot = h.tokenAt slot := by
  have hlt : slot.ref < h.heap.length := by
    by_contra hge
    rw [Hub.tokenAt, List.getElem?_eq_none (by omega)] at hne
    exact hne rfl
  rw [Hub.tokenAt, hheap, List.getElem?_append_left hlt]
  rfl

end Tokens

theorem tokenOf_update {s t : Session} {role role' : Role} {p : Peer}
    (ht : t.peers = Function.update s.peers role (some p)) : t.tokenOf role' =
      if role' = role then p.reconnectToken else s.tokenOf role' := by
  rw [Session.tokenOf, ht]
  by_cases hrole : role' = role
  · rw [hrole, Function.update_self, if_pos rfl]
    rfl
  · rw [Function.update_of_ne hrole, if_neg hrole]
    rfl

theorem tokenOf_attach {s t : Session} {role role' : Role} {c : ConnId} {ip : String} {now : Time}
    (ht : s.attach role c ip now = some t) (hrole : role' ≠ role) : t.tokenOf role' = s.tokenOf role' := by
  unfold Session.attach at ht
  split at ht
  next => cases ht
  next =>
    obtain rfl := Option.some.inj ht
    rw [tokenOf_update rfl, if_neg hrole]

/-- Who resumes a slot presents its token, and keeps it. -/
theorem tokenOf_reattach {s t : Session} {role : Role} {token : Bytes} {c : ConnId} {ip : String}
    {now : Time} (ht : s.reattach role token c ip now = some t) :
    s.tokenOf role = token ∧ ∀ role', t.tokenOf role' = s.tokenOf role' := by
  unfold Session.reattach at ht
  split at ht
  next => cases ht
  next p hp =>
    split at ht
    next => cases ht
    next =>
      split at ht
      next => cases ht
      next hsame =>
        obtain rfl := Option.some.inj ht
        rw [not_or, not_not] at hsame
        have hold : s.tokenOf role = p.reconnectToken := by
          rw [Session.tokenOf, hp]
          rfl
        refine ⟨hold.trans hsame.2, fun role' => ?_⟩
        rw [tokenOf_update rfl]
        split
        next hrole => rw [hrole, hold]
        next => rfl

theorem tokenOf_markDisconnected (s : Session) (role role' : Role) (now : Time) :
    (s.markDisconnected role now).1.tokenOf role' = s.tokenOf role' := by
  unfold Session.markDisconnected
  split
  next p hp =>
    rw [tokenOf_update rfl]
    split
    next hrole =>
      rw [hrole, Session.tokenOf, hp]
      rfl
    next => rfl
  next => rfl

theorem tokenOf_setReconnectToken {s : Session} {role role' : Role} {token : Bytes}
    (h : role' = role → s.tokenOf role = token) :
    (s.setReconnectToken role token).tokenOf role' = s.tokenOf role' := by
  unfold Session.setReconnectToken
  split
  next p hp =>
    rw [tokenOf_update rfl]
    split
    next hrole => exact (h hrole).symm.trans (by rw [hrole])
    next => rfl
  next => rfl

theorem tokenAt_perform (x : Goroutines) (a : Action) :
    (x.perform a).1.hub.tokenAt slot = x.hub.tokenAt slot := by
  cases a with
  | record slot' data =>
      change (recorded x.hub slot' data).1.tokenAt slot = x.hub.tokenAt slot
      unfold recorded
      split
      next => rfl
      next s hs =>
        refine tokenAt_set hs rfl fun _ => ?_
        obtain ⟨current, hfst⟩ := Session.recordChunkBytes_fst s data x.hub.cfg.MaxFileSize
        change (s.recordChunkBytes data x.hub.cfg.MaxFileSize).1.tokenOf slot.role = _
        rw [hfst]
        rfl
  | _ => rfl

/-- A registered token stays. -/
theorem tokenAt_step {e : Step} (hreserved : x.Reserved e) (hkeeps : KeepsToken slot token x e)
    (hne : token ≠ []) (htoken : x.hub.tokenAt slot = token) (hstep : step x e = some y) :
    y.hub.tokenAt slot = token := by
  refine Eq.trans ?_ htoken
  cases step_spec hstep with
  | accepted ip => rfl
  | begun c first now draws t hub pc todo ht hfresh he =>
      cases he with
      | created _ id s m hfull hdraw hid hs hheap =>
          -- a new session has registered none
          exact tokenAt_append hheap (htoken ▸ hne)
      | joining _ ref id hb => exact tokenAt_of_heap hb.heap
      | resuming => rfl
      | refused _ err hb => exact tokenAt_of_heap hb.heap
  | attached c now t first hub pc todo ht hfirst ha =>
      have hguest := hreserved t ht
      generalize t.pc = before at ha hguest
      cases ha with
      | found => rfl
      | joined ref hostConn s s' hs hs' =>
          refine tokenAt_set hs rfl fun href => tokenOf_attach hs' fun hrole => ?_
          -- joining puts a peer without a token in the slot, so the slot has none to lose
          obtain ⟨hfree, -, -⟩ := Session.attach_spec hs'
          have hslot : slot = ⟨ref, .guest⟩ := by rw [← href, ← hrole]
          have hnone := hguest (show x.hub.connAt ⟨ref, .guest⟩ = none from connAt_none_of_slot hs hfree)
          rw [← hslot, htoken] at hnone
          exact hne hnone
      | resumed slot' token' s s' hs hs' =>
          exact tokenAt_set hs rfl fun _ => (tokenOf_reattach hs').2 slot.role
      | refused => rfl
  | acted c t a todo ht htodo =>
      change (x.perform a).1.hub.tokenAt slot = x.hub.tokenAt slot
      exact tokenAt_perform x a
  | received c msg now t slot' s ht hpc htodo hs =>
      change (receive x.hub c slot' s msg now).1.tokenAt slot = x.hub.tokenAt slot
      cases msg with
      | endSession => rfl
      | other binary data => exact tokenAt_set hs rfl fun _ => rfl
      | reconnectToken tokenHex =>
          change (Relay.handleReconnectToken x.hub slot' tokenHex).tokenAt slot = x.hub.tokenAt slot
          unfold Relay.handleReconnectToken
          split
          next => rfl
          next token' hdecode =>
            rw [Hub.RegisterReconnectToken, hs]
            refine tokenAt_set hs rfl fun href => tokenOf_setReconnectToken fun hrole => ?_
            -- only its own handler registers for the slot, and only this token
            have hslot : slot = slot' := by
              obtain ⟨ref, role⟩ := slot
              obtain ⟨ref', role'⟩ := slot'
              rw [Slot.mk.injEq]
              exact ⟨href, hrole⟩
            rw [hkeeps t ht (hslot ▸ hpc) token' hdecode, ← htoken, ← hrole]
            exact (tokenAt_of_get (href ▸ hs)).symm
  | dropped c => rfl
  | left c now t slot' s ht hpc htodo hs =>
      exact tokenAt_set hs rfl fun _ => tokenOf_markDisconnected s slot'.role slot.role now
  | swept | looked | snapped => rfl
  | reaperActed a todo htodo => exact tokenAt_perform x a

/-! ## Who resumes a slot -/

/-- A handler that is about to resume a slot presented the token it carries. -/
def Presents (x : Goroutines) : Prop := ∀ (c : ConnId) (t : Thread) slot token,
  x.threads[c]? = some t → t.pc = .resuming slot token → ∃ payload,
    t.first = some (.reconnect (some payload)) ∧ parseRole payload.role = some slot.role ∧
      decodeString payload.tokenHex = some token

theorem presents_change (h : x.Presents) {c : ConnId} {f : Thread → Thread}
    (hthreads : y.threads = x.threads.modify c f)
    (hf : ∀ t slot token, x.threads[c]? = some t → (f t).pc = .resuming slot token →
      ∃ payload, (f t).first = some (.reconnect (some payload)) ∧
        parseRole payload.role = some slot.role ∧ decodeString payload.tokenHex = some token) :
    y.Presents := by
  intro d t' slot token ht' hpc
  rw [hthreads] at ht'
  obtain ⟨t, ht, rfl⟩ := Tally.getElem?_modify_eq_some ht'
  split at hpc
  next hcd =>
    subst hcd
    rw [if_pos rfl]
    exact hf t slot token ht hpc
  next hcd =>
    rw [if_neg hcd]
    exact h d t slot token ht hpc

theorem presents_perform (h : x.Presents) (a : Action) : (x.perform a).1.Presents := by
  intro d t' slot token ht' hpc
  obtain ⟨t, ht, hcore⟩ := get_perform ht'
  rw [hcore.first]
  exact h d t slot token ht (hcore.pc ▸ hpc)

theorem presents_step {e : Step} (h : x.Presents) (hstep : step x e = some y) : y.Presents := by
  cases step_spec hstep with
  | accepted ip =>
      intro d t slot token ht hpc
      rcases Tally.getElem?_concat_eq_some ht with ht | ⟨-, rfl⟩
      · exact h d t slot token ht hpc
      · cases hpc
  | begun c first now draws t hub pc todo ht hfresh he =>
      refine presents_change h (f := fun t => { t.goto pc todo with first := some first }) rfl
        fun t' slot token _ hpc => ?_
      cases he with
      | created | joining | refused => cases hpc
      | resuming slot' token' id hfull hid hpayload =>
          cases hpc
          obtain ⟨payload, rfl, hrest⟩ := hpayload
          exact ⟨payload, rfl, hrest⟩
  | attached c now t first hub pc todo ht hfirst ha =>
      refine presents_change h (f := Thread.goto pc todo) rfl fun t' slot token _ hpc => ?_
      generalize t.pc = before at ha
      cases ha <;> cases hpc
  | acted c t a todo ht htodo =>
      exact presents_change (presents_perform h a) (f := Thread.setTodo _) rfl
        fun t' slot token ht' hpc => presents_perform h a c t' slot token ht' hpc
  | received c msg now t slot s ht hpc htodo hs =>
      refine presents_change h (f := Thread.goto _ _) rfl fun t' slot' token _ hpc' => ?_
      cases msg <;> cases hpc'
  | dropped c =>
      exact presents_change h (f := Thread.shut) rfl
        fun t slot token ht hpc => h c t slot token ht hpc
  | left c now t slot s ht hpc htodo hs =>
      refine presents_change h (f := Thread.goto _ _) rfl fun t' slot' token _ hpc' => ?_
      cases hpc'
  | swept | looked | snapped => exact h
  | reaperActed a todo htodo => exact presents_perform h a

/-- Who gets a slot with a registered token presents it. -/
theorem taken_by_token {e : Step} {c : ConnId} (ho : x.Owned) (hreserved : x.Reserved e) (hne : token ≠ [])
    (htoken : x.hub.tokenAt slot = token) (hfree : x.hub.connAt slot = none)
    (hstep : step x e = some y) (hc : y.hub.connAt slot = some c) :
    ∃ now t, e = .attach c now ∧ x.threads[c]? = some t ∧ t.pc = .resuming slot token := by
  have hsame : y.hub.connAt ≠ x.hub.connAt := by
    intro heq
    rw [heq, hfree] at hc
    cases hc
  cases step_spec hstep with
  | accepted ip => exact absurd rfl hsame
  | begun d first now draws t hub pc todo ht hfresh he =>
      cases he with
      | created _ id s m hfull hdraw hid hs hheap =>
          -- the host of a new session has no token yet
          have hnew : slot ≠ ⟨x.hub.heap.length, .host⟩ := by
            rintro rfl
            rw [Hub.tokenAt, List.getElem?_eq_none (Nat.le_refl _)] at htoken
            exact hne htoken.symm
          have hconn := congrFun (connAt_append hs hheap) slot
          rw [Function.update_of_ne hnew, hfree] at hconn
          exact absurd (hc.symm.trans hconn) (by simp)
      | joining _ ref id hb => exact absurd (connAt_of_heap hb.heap) hsame
      | resuming => exact absurd rfl hsame
      | refused _ err hb => exact absurd (connAt_of_heap hb.heap) hsame
  | attached d now t first hub pc todo ht hfirst ha =>
      have hguest := hreserved t ht
      generalize hpc : t.pc = before at ha hguest
      cases ha with
      | found => exact absurd rfl hsame
      | joined ref hostConn s s' hs hs' =>
          obtain ⟨-, -, hslots⟩ := Session.attach_spec hs'
          have hset : (x.hub.setSession ref s').connAt = _ := connAt_set hs hslots rfl
          have hconn := congrFun hset slot
          by_cases hslot : slot = ⟨ref, .guest⟩
          · subst hslot
            -- a join takes a slot nobody ever registered for
            rw [hguest hfree] at htoken
            exact absurd htoken.symm hne
          · rw [Function.update_of_ne hslot, hfree] at hconn
            exact absurd (hc.symm.trans hconn) (by simp)
      | resumed slot' token' s s' hs hs' =>
          obtain ⟨-, -, hslots⟩ := Session.reattach_spec hs'
          have hset : (x.hub.setSession slot'.ref s').connAt = _ := connAt_set hs hslots rfl
          have hconn := congrFun hset slot
          by_cases hslot : slot = slot'
          · subst hslot
            rw [Function.update_self] at hconn
            obtain rfl := Option.some.inj (hc.symm.trans hconn)
            refine ⟨now, t, rfl, ht, ?_⟩
            -- `reattach` has compared the tokens
            rw [hpc, ← htoken, tokenAt_of_get hs, (tokenOf_reattach hs').1]
          · rw [Function.update_of_ne hslot, hfree] at hconn
            exact absurd (hc.symm.trans hconn) (by simp)
      | refused => exact absurd rfl hsame
  | acted d t a todo ht htodo => exact absurd (connAt_perform x a) hsame
  | received d msg now t slot' s ht hpc htodo hs =>
      exact absurd (connAt_of_peerAt (receive_spec hs d msg now).1) hsame
  | dropped d => exact absurd rfl hsame
  | left d now t slot' s ht hpc htodo hs =>
      -- a drop frees a slot and fills none
      obtain ⟨ip, hlive⟩ := ho.live ht hpc hs
      have hslots := (Session.markDisconnected_spec hlive now).2.1
      have hset : (x.hub.setSession slot'.ref (s.markDisconnected slot'.role now).1).connAt = _ :=
        connAt_set hs hslots rfl
      have hconn := congrFun hset slot
      by_cases hslot : slot = slot'
      · subst hslot
        rw [Function.update_self] at hconn
        exact absurd (hc.symm.trans hconn) (by simp)
      · rw [Function.update_of_ne hslot, hfree] at hconn
        exact absurd (hc.symm.trans hconn) (by simp)
  | swept | looked | snapped => exact absurd rfl hsame
  | reaperActed a todo htodo => exact absurd (connAt_perform x a) hsame

/-- A step changes one slot at most, and fills none that is taken. -/
theorem connAt_step {e : Step} (ho : x.Owned) (hstep : step x e = some y) :
    y.hub.connAt = x.hub.connAt ∨ ∃ slot c, y.hub.connAt = Function.update x.hub.connAt slot c ∧
      (c = none ∨ x.hub.connAt slot = none) := by
  cases step_spec hstep with
  | accepted | dropped | swept | looked | snapped => exact .inl rfl
  | begun c first now draws t hub pc todo ht hfresh he =>
      cases he with
      | created _ id s m hfull hdraw hid hs hheap =>
          exact .inr ⟨_, _, connAt_append hs hheap, .inr (connAt_new _ rfl)⟩
      | joining _ ref id hb => exact .inl (connAt_of_heap hb.heap)
      | resuming => exact .inl rfl
      | refused _ err hb => exact .inl (connAt_of_heap hb.heap)
  | attached c now t first hub pc todo ht hfirst ha =>
      generalize t.pc = before at ha
      cases ha with
      | found | refused => exact .inl rfl
      | joined ref hostConn s s' hs hs' =>
          obtain ⟨hfree, -, hslots⟩ := Session.attach_spec hs'
          exact .inr ⟨_, _, connAt_set hs hslots rfl, .inr (connAt_none_of_slot hs hfree)⟩
      | resumed slot' token' s s' hs hs' =>
          obtain ⟨hfree, -, hslots⟩ := Session.reattach_spec hs'
          exact .inr ⟨_, _, connAt_set hs hslots rfl, .inr (connAt_none_of_slot hs hfree)⟩
  | acted c t a todo ht htodo => exact .inl (connAt_perform x a)
  | received c msg now t slot' s ht hpc htodo hs =>
      exact .inl (connAt_of_peerAt (receive_spec hs c msg now).1)
  | left c now t slot' s ht hpc htodo hs =>
      obtain ⟨ip, hlive⟩ := ho.live ht hpc hs
      have hslots := (Session.markDisconnected_spec hlive now).2.1
      exact .inr ⟨_, _, connAt_set hs hslots rfl, .inl rfl⟩
  | reaperActed a todo htodo => exact .inl (connAt_perform x a)

/-- A connection in a slot is not replaced. -/
theorem connAt_unreplaced {e : Step} {c d : ConnId} (ho : x.Owned) (hstep : step x e = some y)
    (hc : x.hub.connAt slot = some c) (hd : y.hub.connAt slot = some d) : d = c := by
  rcases connAt_step ho hstep with hsame | ⟨slot', c', hupdate, hfree⟩
  · rw [hsame, hc] at hd
    exact (Option.some.inj hd).symm
  · rw [hupdate] at hd
    by_cases hslot : slot = slot'
    · subst hslot
      rw [Function.update_self] at hd
      rcases hfree with rfl | hfree
      · cases hd
      · rw [hc] at hfree
        cases hfree
    · rw [Function.update_of_ne hslot, hc] at hd
      exact (Option.some.inj hd).symm

/-- A free slot with a registered token is resumed by it. -/
theorem reattach_of_token {s : Session} {role : Role} (hne : token ≠ [])
    (htoken : s.tokenOf role = token) (hfree : s.connAndIP role = none) (c : ConnId) (ip : String)
    (now : Time) :
    ∃ t, s.reattach role token c ip now = some t := by
  unfold Session.tokenOf at htoken
  unfold Session.reattach
  cases hp : s.peers role with
  | none =>
      rw [hp] at htoken
      exact absurd htoken.symm hne
  | some p =>
      rw [hp] at htoken
      have hsame : p.reconnectToken = token := htoken
      have hdropped : p.connected = false := by
        have := Session.connAndIP_eq_none.mp hfree
        rw [Session.connected, hp] at this
        exact this
      simp [hdropped, hsame, hne]

/-- The first section of a reconnect to a listed session, under the limit. -/
theorem reconnect_found {c : ConnId} {t : Thread} {payload : ReconnectPayload}
    (ht : x.threads[c]? = some t) (hfresh : t.pc = .fresh)
    (hid : x.hub.sessions.lookup payload.sessionID = some slot.ref)
    (hrole : parseRole payload.role = some slot.role)
    (hhex : decodeString payload.tokenHex = some token) (hfull : x.hub.full t.ip = false)
    (now : Time) (draws : Draws) :
    ∃ y t' first, step x (.begin c (.reconnect (some payload)) now draws) = some y ∧ y.hub = x.hub ∧
      y.threads[c]? = some t' ∧ t'.pc = .resuming slot token ∧ t'.first = some first := by
  have henter : enter x.hub (.reconnect (some payload)) t.ip c now draws =
      (x.hub, .resuming slot token, []) := by
    simp [enter, hrole, hhex, Hub.findResumable, hid, hfull, enter.found]
  refine ⟨(x.setHub x.hub).modify c fun t =>
      { t.goto (.resuming slot token) [] with first := some (.reconnect (some payload)) }, _, _,
    ?_, rfl, Tally.getElem?_modify_self ht _, rfl, rfl⟩
  simp [step, ht, hfresh, henter]

/-- Its second section, while the slot is free and has the token. -/
theorem reconnect_resumed {c : ConnId} {t : Thread} {first : First} (hne : token ≠ [])
    (htoken : x.hub.tokenAt slot = token) (hfree : x.hub.connAt slot = none)
    (ht : x.threads[c]? = some t) (hpc : t.pc = .resuming slot token)
    (hfirst : t.first = some first) (now : Time) : ∃ y t', step x (.attach c now) = some y ∧
      y.threads[c]? = some t' ∧ t'.pc = .serving slot ∧ y.hub.connAt slot = some c ∧
        y.hub.tokenAt slot = token := by
  obtain ⟨s, hs, htok⟩ : ∃ s, x.hub.heap[slot.ref]? = some s ∧ s.tokenOf slot.role = token := by
    cases hs : x.hub.heap[slot.ref]? with
    | none =>
        rw [Hub.tokenAt, hs] at htoken
        exact absurd htoken.symm hne
    | some s => exact ⟨s, rfl, (tokenAt_of_get hs).symm.trans htoken⟩
  have hnone : s.connAndIP slot.role = none := by
    rw [connAt_of_get hs, Session.connOf] at hfree
    exact Option.map_eq_none_iff.mp hfree
  obtain ⟨s', hs'⟩ := reattach_of_token hne htok hnone c t.ip now
  obtain ⟨todo, hnext⟩ : ∃ todo, attachNext x.hub t.pc first t.ip c now =
      some (x.hub.setSession slot.ref s', .serving slot, todo) := by
    simp [attachNext, hpc, hs, hs']
  refine ⟨(x.setHub (x.hub.setSession slot.ref s')).modify c (Thread.goto (.serving slot) todo), _,
    ?_, Tally.getElem?_modify_self ht _, rfl, ?_, ?_⟩
  · simp [step, ht, hfirst, hnext]
  · change (x.hub.setSession slot.ref s').connAt slot = some c
    rw [connAt_set hs (Session.reattach_spec hs').2.2 rfl]
    exact Function.update_self _ _ _
  · change (x.hub.setSession slot.ref s').tokenAt slot = token
    rw [tokenAt_set hs rfl fun _ => (tokenOf_reattach hs').2 slot.role, htoken]

theorem reconnect_succeeds {c : ConnId} {t : Thread} {payload : ReconnectPayload} {now now' : Time}
    {draws : Draws} (hne : token ≠ []) (htoken : x.hub.tokenAt slot = token)
    (hfree : x.hub.connAt slot = none) (ht : x.threads[c]? = some t) (hfresh : t.pc = .fresh)
    (hid : x.hub.sessions.lookup payload.sessionID = some slot.ref)
    (hrole : parseRole payload.role = some slot.role)
    (hhex : decodeString payload.tokenHex = some token) (hfull : x.hub.full t.ip = false) :
    ∃ y t', Transition.run step x [.begin c (.reconnect (some payload)) now draws, .attach c now'] =
      some y ∧ y.threads[c]? = some t' ∧ t'.pc = .serving slot ∧ y.hub.connAt slot = some c ∧
        y.hub.tokenAt slot = token := by
  obtain ⟨w, t₁, first, hbegin, hhub, ht₁, hpc, hfirst⟩ :=
    reconnect_found ht hfresh hid hrole hhex hfull now draws
  obtain ⟨y, t₂, hattach, hrest⟩ := reconnect_resumed (x := w) hne (hhub ▸ htoken)
    (hhub ▸ hfree) ht₁ hpc hfirst now'
  exact ⟨y, t₂, (Transition.run_cons hbegin _).trans (Transition.run_cons hattach []), hrest⟩

theorem presents_init (cfg : Config) : (init cfg).Presents := by
  intro c t slot token ht
  simp [init] at ht

/-- **Tokens.** From a state in which a token is registered for a slot, in a run
in which its handler registers no other and no guest gets a slot that a token is
registered for: the token stays; a connection in the slot is not replaced;
whenever the slot is free, who gets it presents the token; and a reconnect that
presents it gets the slot, if its address is under the limit. -/
theorem resumed_by_token (cfg : Config) (es : List Step)
    (hrun : Transition.run step (init cfg) es = some x) (hne : token ≠ [])
    (htoken : x.hub.tokenAt slot = token) (es' : List Step)
    (hg : Transition.Guarded step (fun x e => x.Reserved e ∧ KeepsToken slot token x e) x es')
    (hrun' : Transition.run step x es' = some y) :
    y.hub.tokenAt slot = token ∧
    (∀ e z c d, step y e = some z → y.hub.connAt slot = some c → z.hub.connAt slot = some d →
      d = c) ∧
    (∀ e z c, y.Reserved e → step y e = some z → y.hub.connAt slot = none →
      z.hub.connAt slot = some c → ∃ now t payload, e = .attach c now ∧ y.threads[c]? = some t ∧
        t.first = some (.reconnect (some payload)) ∧ parseRole payload.role = some slot.role ∧
          decodeString payload.tokenHex = some token) ∧
    ∀ c t payload now draws now', y.hub.connAt slot = none → y.threads[c]? = some t →
      t.pc = .fresh → y.hub.sessions.lookup payload.sessionID = some slot.ref →
      parseRole payload.role = some slot.role → decodeString payload.tokenHex = some token →
      y.hub.full t.ip = false → ∃ z t', Transition.run step y
        [.begin c (.reconnect (some payload)) now draws, .attach c now'] = some z ∧
          z.threads[c]? = some t' ∧ t'.pc = .serving slot ∧ z.hub.connAt slot = some c ∧
            z.hub.tokenAt slot = token := by
  have htoken' : y.hub.tokenAt slot = token :=
    hg.invariant (I := fun x : Goroutines => x.hub.tokenAt slot = token)
      (fun x e y hx he hstep => tokenAt_step he.1 he.2 hne hx hstep) htoken hrun'
  have hinv : y.Owned ∧ y.Presents := by
    have hstep : ∀ (x : Goroutines) e y, x.Owned ∧ x.Presents → step x e = some y →
        y.Owned ∧ y.Presents :=
      fun x e y hx hstep => ⟨owned_step hx.1 hstep, presents_step hx.2 hstep⟩
    exact Transition.invariant hstep
      (Transition.invariant hstep ⟨owned_init cfg, presents_init cfg⟩ hrun) hrun'
  refine ⟨htoken', fun e z c d hstep => connAt_unreplaced hinv.1 hstep,
    fun e z c hreserved hstep hfree hc => ?_, fun c t payload now draws now' hfree
    ht hfresh hid hrole hhex hfull => ?_⟩
  · obtain ⟨now, t, rfl, ht, hpc⟩ := taken_by_token hinv.1 hreserved hne htoken' hfree hstep hc
    obtain ⟨payload, hpayload⟩ := hinv.2 c t slot token ht hpc
    exact ⟨now, t, payload, rfl, ht, hpayload⟩
  · exact reconnect_succeeds hne htoken' hfree ht hfresh hid hrole hhex hfull

/-! ## A guest with a token -/

/-- The guest joins, registers a token and drops; a client comes to take its
place. -/
def guestDropped : List Step :=
  [.accept "a", .begin 0 .createSession 0 (Relay.drawID "s"), .act 0, .accept "b",
    .begin 1 (.join (some "s")) 1 (Relay.drawID ""), .attach 1 1, .attach 1 1, .act 1, .act 1,
    .act 1, .frame 1 (.reconnectToken (some "ab")) 2, .drop 1, .readError 1 3, .act 1, .act 1, .act 1,
    .accept "c"]

theorem resumed_by_token_guest : ∃ x z t',
    Transition.run step (init Relay.smallConfig) guestDropped = some x ∧
      Transition.run step x [.begin 2 (.reconnect (some ⟨"s", "guest", "ab"⟩)) 4 (Relay.drawID ""),
        .attach 2 4] = some z ∧ z.threads[2]? = some t' ∧ t'.pc = .serving ⟨0, .guest⟩ ∧
          z.hub.connAt ⟨0, .guest⟩ = some 2 ∧ z.hub.tokenAt ⟨0, .guest⟩ = [0xab] := by
  have hrun : (Transition.run step (init Relay.smallConfig) guestDropped).any (fun x =>
      decide (x.hub.tokenAt ⟨0, .guest⟩ = [0xab]) && decide (x.hub.connAt ⟨0, .guest⟩ = none) &&
      decide (x.hub.sessions.lookup "s" = some 0) && decide (x.hub.full "c" = false) &&
      (x.threads[2]?).any fun t => decide (t.ip = "c") && decide (t.pc = .fresh)) = true := by
    decide +kernel
  obtain ⟨x, hr, hx⟩ := (Option.any_eq_true _ _).mp hrun
  simp only [Bool.and_eq_true, decide_eq_true_eq] at hx
  obtain ⟨⟨⟨⟨htoken, hfree⟩, hid⟩, hfull⟩, hany⟩ := hx
  obtain ⟨t, ht, hfresh⟩ := (Option.any_eq_true _ _).mp hany
  simp only [Bool.and_eq_true, decide_eq_true_eq] at hfresh
  obtain ⟨-, -, -, hsucceeds⟩ := @resumed_by_token x x ⟨0, .guest⟩ [171] Relay.smallConfig
    guestDropped hr (by decide) htoken [] trivial rfl
  obtain ⟨z, t', hz⟩ := hsucceeds 2 t ⟨"s", "guest", "ab"⟩ 4 (Relay.drawID "") 4 hfree ht hfresh.2 hid
    (by decide) (by decide +kernel) (by rw [hfresh.1]; exact hfull)
  exact ⟨x, z, t', hr, hz⟩

/-- What a third client does that joins by the session's id, and without a token. -/
def joinsInstead : List Step :=
  [.begin 2 (.join (some "s")) 4 (Relay.drawID ""), .attach 2 4, .attach 2 4]

/-- It gets the slot, and the token is gone. -/
theorem guest_displaced : ∃ x y, Transition.run step (init Relay.smallConfig) guestDropped = some x ∧
    x.hub.tokenAt ⟨0, .guest⟩ = [0xab] ∧ x.hub.connAt ⟨0, .guest⟩ = none ∧
      Transition.run step x joinsInstead = some y ∧ y.hub.sessions.lookup "s" = some 0 ∧
        y.hub.connAt ⟨0, .guest⟩ = some 2 ∧ y.hub.tokenAt ⟨0, .guest⟩ = [] := by
  have hrun : (Transition.run step (init Relay.smallConfig) guestDropped).any (fun x =>
      decide (x.hub.tokenAt ⟨0, .guest⟩ = [0xab]) && decide (x.hub.connAt ⟨0, .guest⟩ = none) &&
      (Transition.run step x joinsInstead).any fun y =>
        decide (y.hub.sessions.lookup "s" = some 0) && decide (y.hub.connAt ⟨0, .guest⟩ = some 2) &&
        decide (y.hub.tokenAt ⟨0, .guest⟩ = [])) = true := by decide +kernel
  obtain ⟨x, hr, hx⟩ := (Option.any_eq_true _ _).mp hrun
  simp only [Bool.and_eq_true, decide_eq_true_eq] at hx
  obtain ⟨⟨htoken, hfree⟩, hany⟩ := hx
  obtain ⟨y, hr', hy⟩ := (Option.any_eq_true _ _).mp hany
  simp only [Bool.and_eq_true, decide_eq_true_eq] at hy
  exact ⟨x, y, hr, htoken, hfree, hr', hy.1.1, hy.1.2, hy.2⟩

end Goroutines

end Quicksend.Server
