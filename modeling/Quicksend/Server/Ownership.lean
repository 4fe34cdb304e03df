import Quicksend.Lib.Tally
import Quicksend.Server.Handler

/-!
# Handlers own their slots

A slot that is marked connected belongs to the handler of its connection: a
handler that runs has its connection and its address in its slot, and a
session that is still in the map has no other live connections than those of
running handlers.
-/

namespace Quicksend.Server

/-! ## What a handler that begins takes -/

/-- The hub after a handler took the slot. -/
inductive Takes (h : Hub) (ip : String) (conn : ConnId) : Hub → Slot → Prop where
  | created {h' : Hub} (id : String) (s : Session) (hid : s.ID = id)
      (hs : s.connAndIP = Function.update (fun _ : Role => none) .host (some (conn, ip)))
      (hheap : h'.heap = h.heap ++ [s]) (hsessions : h'.sessions = h.sessions.insert id h.heap.length)
      (hcounts : h'.ipCounts = (h.take ip).ipCounts) : Takes h ip conn h' ⟨h.heap.length, .host⟩
  | joined {h' : Hub} (ref : Nat) (role : Role) (s t : Session) (hs : h.heap[ref]? = some s)
      (hfree : s.connAndIP role = none) (hid : t.ID = s.ID)
      (ht : t.connAndIP = Function.update s.connAndIP role (some (conn, ip)))
      (hheap : h'.heap = h.heap.set ref t) (hsessions : h'.sessions = h.sessions)
      (hcounts : h'.ipCounts = (h.take ip).ipCounts) : Takes h ip conn h' ⟨ref, role⟩

theorem release_ipCounts (h : Hub) (ip ip' : String) :
    (h.release ip).ipCounts ip' = if ip' = ip then h.ipCounts ip' - 1 else h.ipCounts ip' := by
  change Function.update h.ipCounts ip (h.ipCounts ip - 1) ip' = _
  split
  next heq => rw [heq, Function.update_self]
  next hne => rw [Function.update_of_ne hne]

theorem take_ipCounts (h : Hub) (ip ip' : String) :
    (h.take ip).ipCounts ip' = if ip' = ip then h.ipCounts ip' + 1 else h.ipCounts ip' := by
  change Function.update h.ipCounts ip (h.ipCounts ip + 1) ip' = _
  split
  next heq => rw [heq, Function.update_self]
  next hne => rw [Function.update_of_ne hne]

/-- The two hubs agree on sessions and slots. -/
structure SameBooks (h h' : Hub) : Prop where
  heap : h'.heap = h.heap
  sessions : h'.sessions = h.sessions
  ipCounts : h'.ipCounts = h.ipCounts

theorem SameBooks.refl (h : Hub) : SameBooks h h := ⟨rfl, rfl, rfl⟩

theorem SameBooks.takes {h g h' : Hub} (hb : SameBooks h g) {ip : String} {conn : ConnId} {slot : Slot}
    (ht : Takes g ip conn h' slot) : Takes h ip conn h' slot := by
  cases ht with
  | created id s hid hs hheap hsessions hcounts =>
      rw [hb.heap] at hheap hsessions ⊢
      rw [hb.sessions] at hsessions
      refine .created id s hid hs hheap hsessions ?_
      rw [hcounts, Hub.take, Hub.take, hb.ipCounts]
  | joined ref role s t hs hfree hid ht hheap hsessions hcounts =>
      rw [hb.heap] at hs hheap
      rw [hb.sessions] at hsessions
      refine .joined ref role s t hs hfree hid ht hheap hsessions ?_
      rw [hcounts, Hub.take, Hub.take, hb.ipCounts]

theorem Takes.of_books {h g h' : Hub} {ip : String} {conn : ConnId} {slot : Slot}
    (ht : Takes h ip conn g slot) (hb : SameBooks g h') : Takes h ip conn h' slot := by
  cases ht with
  | created id s hid hs hheap hsessions hcounts =>
      exact .created id s hid hs (hb.heap.trans hheap) (hb.sessions.trans hsessions)
        (hb.ipCounts.trans hcounts)
  | joined ref role s t hs hfree hid ht hheap hsessions hcounts =>
      exact .joined ref role s t hs hfree hid ht (hb.heap.trans hheap) (hb.sessions.trans hsessions)
        (hb.ipCounts.trans hcounts)

/-- What one entry operation does: it takes a slot, or leaves the books alone. -/
def Enters (h : Hub) (ip : String) (conn : ConnId) (r : Hub.Begun) : Prop :=
  match r.2.1 with
  | .ok slot => Takes h ip conn r.1 slot
  | .error _ => SameBooks h r.1

theorem addSession_takes (h : Hub) (id ip : String) (conn : ConnId) (now : Time) :
    Takes h ip conn (h.addSession id ip conn now).1 (h.addSession id ip conn now).2 := by
  obtain ⟨s, hs⟩ : ∃ s, (Session.new id now).attach .host conn ip now = some s := ⟨_, rfl⟩
  obtain ⟨-, hid, hslots⟩ := Session.attach_spec hs
  refine .created id s hid hslots ?_ rfl rfl
  rw [Hub.addSession, hs]
  rfl

theorem createSession_enters (h : Hub) (ip : String) (conn : ConnId) (now : Time)
    (id : Except String String) : Enters h ip conn (h.CreateSession ip conn now id) := by
  unfold Hub.CreateSession
  split
  next => exact .refl h
  next =>
    split
    next => exact .refl h
    next id => exact addSession_takes h id ip conn now

theorem createCodeSession_enters (h : Hub) (ip : String) (conn : ConnId) (now : Time)
    (id : Except String String) (draws : Fin 20 → Except String (Fin 1000000)) :
    Enters h ip conn (h.CreateCodeSession ip conn now id draws) := by
  unfold Hub.CreateCodeSession
  split
  next => exact .refl h
  next =>
    split
    next => exact .refl h
    next id =>
      split
      next => exact .refl h
      next code _ =>
        exact (addSession_takes h id ip conn now).of_books ⟨rfl, rfl, rfl⟩

theorem attachGuest_enters (h : Hub) (ref : Nat) (ip : String) (conn : ConnId) (now : Time) :
    Enters h ip conn (h.attachGuest ref ip conn now) := by
  unfold Hub.attachGuest
  split
  next => exact .refl h
  next s hs =>
    split
    next => exact .refl h
    next =>
      split
      next => exact .refl h
      next t ht =>
        obtain ⟨hfree, hid, ht⟩ := Session.attach_spec ht
        exact Takes.joined ref .guest s t hs hfree hid ht rfl rfl rfl

theorem joinSession_enters (h : Hub) (id ip : String) (conn : ConnId) (now : Time) :
    Enters h ip conn (h.JoinSession id ip conn now) := by
  unfold Hub.JoinSession
  split
  next => exact .refl h
  next ref _ =>
    split
    next => exact .refl h
    next => exact attachGuest_enters h ref ip conn now

theorem checkAndRecordGuess_books (h : Hub) (ip : String) (now : Time) :
    SameBooks h (h.checkAndRecordGuess ip now).1 := by
  unfold Hub.checkAndRecordGuess
  dsimp only
  split <;> exact ⟨rfl, rfl, rfl⟩

theorem resolveCode_books (h : Hub) (code ip : String) (now : Time) :
    SameBooks h (h.resolveCode code ip now).1 := by
  have hb := checkAndRecordGuess_books h ip now
  unfold Hub.resolveCode
  generalize h.checkAndRecordGuess ip now = r at hb
  obtain ⟨g, allowed⟩ := r
  have hg : SameBooks h { g with codes := Function.update g.codes code none } :=
    ⟨hb.heap, hb.sessions, hb.ipCounts⟩
  cases allowed with
  | false => exact hb
  | true =>
      simp only [Bool.not_true, Bool.false_eq_true, if_false]
      split
      next => exact hg
      next =>
        split
        next => exact hg
        next =>
          split
          next => exact hg
          next => split <;> exact hg

theorem joinByCode_enters (h : Hub) (code ip : String) (conn : ConnId) (now : Time) :
    Enters h ip conn (h.JoinByCode code ip conn now) := by
  have hb := resolveCode_books h code ip now
  unfold Hub.JoinByCode
  split
  next g err heq =>
    rw [heq] at hb
    exact hb
  next g ref heq =>
    rw [heq] at hb
    have hg : SameBooks h g := hb
    have he := attachGuest_enters g ref ip conn now
    unfold Enters at he ⊢
    split at he
    next slot hok =>
      exact hg.takes he
    next err herr =>
      exact ⟨he.heap.trans hg.heap, he.sessions.trans hg.sessions, he.ipCounts.trans hg.ipCounts⟩

theorem reconnect_enters (h : Hub) (sessionID : String) (role : Role) (token : Bytes) (ip : String)
    (conn : ConnId) (now : Time) :
    Enters h ip conn (h.Reconnect sessionID role token ip conn now) := by
  unfold Hub.Reconnect
  split
  next => exact .refl h
  next ref _ =>
    split
    next => exact .refl h
    next =>
      split
      next => exact .refl h
      next t ht =>
        obtain ⟨s, hs, ht⟩ := Option.bind_eq_some_iff.mp ht
        obtain ⟨hfree, hid, ht⟩ := Session.reattach_spec ht
        exact Takes.joined ref role s t hs hfree hid ht rfl rfl rfl

theorem beginSession_enters (h : Hub) (first : First) (ip : String) (conn : ConnId) (now : Time)
    (draws : Draws) : Enters h ip conn (beginSession h first ip conn now draws) := by
  unfold beginSession
  split
  · exact createSession_enters h ip conn now draws.id
  · exact joinSession_enters h _ ip conn now
  · exact createCodeSession_enters h ip conn now draws.id draws.codes
  · exact joinByCode_enters h _ ip conn now
  · split
    · exact reconnect_enters h _ _ _ ip conn now
    · exact .refl h
  all_goals exact .refl h

/-! ## Ownership -/

/-- Slots, connections and handlers belong together, in every listed session and
whoever closed a connection. -/
structure Owned (h : Hub) (conns : List Conn) : Prop where
  /-- A handler that runs has its connection in its slot. -/
  slots : ∀ (c : Nat) conn slot, conns[c]? = some conn → conn.slot = some slot →
    ∃ s, h.heap[slot.ref]? = some s ∧ s.connAndIP slot.role = some (c, conn.ip)
  /-- The live connections of a listed session are those of running handlers,
  and the reaper has not closed them. -/
  listed : ∀ id ref, h.sessions.lookup id = some ref → ∃ s, h.heap[ref]? = some s ∧ s.ID = id ∧
    ∀ role (c : Nat) ip, s.connAndIP role = some (c, ip) → ∃ conn, conns[c]? = some conn ∧
      conn.slot = some ⟨ref, role⟩ ∧ conn.ip = ip ∧ conn.reaped = false
  closed : ∀ conn ∈ conns, conn.reaped = true → conn.closed = true

theorem Owned.init (cfg : Config) : Owned (Hub.new cfg) [] where
  slots _ _ _ h := by simp at h
  listed _ _ h := by cases h
  closed _ h := by cases h

variable {h h' : Hub} {conns : List Conn}

theorem Owned.congr (ho : Owned h conns) (hheap : h'.heap = h.heap)
    (hsessions : h'.sessions = h.sessions) : Owned h' conns where
  slots := by
    rw [hheap]
    exact ho.slots
  listed := by
    rw [hheap, hsessions]
    exact ho.listed
  closed := ho.closed

/-- A connection that was refused owns nothing. -/
theorem Owned.refused (ho : Owned h conns) (ip : String) :
    Owned h (conns ++ [Conn.accepted ip none]) where
  slots c conn slot hc hslot := by
    rcases Tally.getElem?_concat_eq_some hc with hc | ⟨-, rfl⟩
    · exact ho.slots c conn slot hc hslot
    · cases hslot
  listed id ref hid := by
    obtain ⟨s, hs, hsid, hlive⟩ := ho.listed id ref hid
    refine ⟨s, hs, hsid, fun role c ip hc => ?_⟩
    obtain ⟨conn, hconn, hrest⟩ := hlive role c ip hc
    exact ⟨conn, Tally.getElem?_concat_of_some hconn _, hrest⟩
  closed conn hmem hr := by
    rcases List.mem_append.mp hmem with hmem | hmem
    · exact ho.closed conn hmem hr
    · rw [List.mem_singleton.mp hmem] at hr
      cases hr

/-- The handler that began owns the slot it took. -/
theorem Owned.takes {ip : String} {slot : Slot} (ho : Owned h conns)
    (ht : Takes h ip conns.length h' slot) : Owned h' (conns ++ [Conn.accepted ip (some slot)]) := by
  have hclosed : ∀ conn ∈ conns ++ [Conn.accepted ip (some slot)], conn.reaped = true →
      conn.closed = true := by
    intro conn hmem hr
    rcases List.mem_append.mp hmem with hmem | hmem
    · exact ho.closed conn hmem hr
    · rw [List.mem_singleton.mp hmem] at hr
      cases hr
  cases ht with
  | created id s hid hs hheap hsessions hcounts =>
      refine ⟨fun c conn slot hc hslot => ?_, fun id' ref' hid' => ?_, hclosed⟩
      · rw [hheap]
        rcases Tally.getElem?_concat_eq_some hc with hc | ⟨rfl, rfl⟩
        · obtain ⟨s', hs', hown⟩ := ho.slots c conn slot hc hslot
          exact ⟨s', (List.getElem?_append_left (List.getElem?_eq_some_iff.mp hs').1).trans hs', hown⟩
        · obtain rfl := Option.some.inj hslot
          exact ⟨s, List.getElem?_concat_length, by rw [hs]; rfl⟩
      · rw [hsessions] at hid'
        rw [hheap]
        by_cases heq : id' = id
        · subst heq
          rw [AList.lookup_insert] at hid'
          obtain rfl := Option.some.inj hid'
          -- the new session has its host, and nobody else
          refine ⟨s, List.getElem?_concat_length, hid, fun role c ip' hlive => ?_⟩
          rw [hs] at hlive
          by_cases hrole : role = .host
          · subst hrole
            obtain ⟨rfl, rfl⟩ := Prod.mk.inj (Option.some.inj hlive)
            exact ⟨_, List.getElem?_concat_length, rfl, rfl, rfl⟩
          · rw [Function.update_of_ne hrole] at hlive
            cases hlive
        · rw [AList.lookup_insert_ne heq] at hid'
          obtain ⟨s', hs', hsid, hlive⟩ := ho.listed id' ref' hid'
          refine ⟨s', (List.getElem?_append_left (List.getElem?_eq_some_iff.mp hs').1).trans hs', hsid,
            fun role c ip' hc => ?_⟩
          obtain ⟨conn, hconn, hrest⟩ := hlive role c ip' hc
          exact ⟨conn, Tally.getElem?_concat_of_some hconn _, hrest⟩
  | joined ref role s t hs hfree hid ht hheap hsessions hcounts =>
      have hget : ∀ {ref' s'}, h.heap[ref']? = some s' → h'.heap[ref']? = some
          (if ref' = ref then t else s') := by
        intro ref' s' hs'
        rw [hheap]
        split
        next heq =>
          subst heq
          exact List.getElem?_set_self (List.getElem?_eq_some_iff.mp hs').1
        next hne => rw [List.getElem?_set_ne (Ne.symm hne), hs']
      refine ⟨fun c conn slot hc hslot => ?_, fun id' ref' hid' => ?_, hclosed⟩
      · rcases Tally.getElem?_concat_eq_some hc with hc | ⟨rfl, rfl⟩
        · obtain ⟨s', hs', hown⟩ := ho.slots c conn slot hc hslot
          refine ⟨_, hget hs', ?_⟩
          split
          next heq =>
            -- the slot that was free is not the one this handler owns
            rw [heq] at hs'
            obtain rfl := Option.some.inj (hs.symm.trans hs')
            rw [ht, Function.update_of_ne, hown]
            rintro rfl
            rw [hfree] at hown
            cases hown
          next => exact hown
        · obtain rfl := Option.some.inj hslot
          refine ⟨_, hget hs, ?_⟩
          rw [if_pos rfl, ht]
          exact Function.update_self ..
      · rw [hsessions] at hid'
        obtain ⟨s', hs', hsid, hlive⟩ := ho.listed id' ref' hid'
        refine ⟨_, hget hs', ?_, fun role' c ip' hc => ?_⟩
        · split
          next heq =>
            rw [heq] at hs'
            obtain rfl := Option.some.inj (hs.symm.trans hs')
            rw [hid, hsid]
          next => exact hsid
        · -- who is in a slot was there before, or has just taken it
          have hold : s'.connAndIP role' = some (c, ip') ∨
              ref' = ref ∧ role' = role ∧ c = conns.length ∧ ip' = ip := by
            split at hc
            next heq =>
              rw [heq] at hs'
              obtain rfl := Option.some.inj (hs.symm.trans hs')
              rw [ht] at hc
              by_cases hrole : role' = role
              · subst hrole
                rw [Function.update_self] at hc
                obtain ⟨rfl, rfl⟩ := Prod.mk.inj (Option.some.inj hc)
                exact .inr ⟨heq, rfl, rfl, rfl⟩
              · rw [Function.update_of_ne hrole] at hc
                exact .inl hc
            next => exact .inl hc
          rcases hold with hold | ⟨rfl, rfl, rfl, rfl⟩
          · obtain ⟨conn, hconn, hrest⟩ := hlive role' c ip' hold
            exact ⟨conn, Tally.getElem?_concat_of_some hconn _, hrest⟩
          · exact ⟨_, List.getElem?_concat_length, rfl, rfl, rfl⟩

theorem setSession_heap {ref : Nat} {s : Session} (hs : h.heap[ref]? = some s) (t : Session)
    {ref' : Nat} {s' : Session} (hs' : h.heap[ref']? = some s') :
    (h.setSession ref t).heap[ref']? = some (if ref' = ref then t else s') := by
  change (h.heap.set ref t)[ref']? = _
  split
  next heq =>
    subst heq
    exact List.getElem?_set_self (List.getElem?_eq_some_iff.mp hs').1
  next hne => rw [List.getElem?_set_ne (Ne.symm hne), hs']

/-- A method that leaves the slots of its session alone. -/
theorem Owned.setSame {ref : Nat} {s t : Session} (ho : Owned h conns) (hs : h.heap[ref]? = some s)
    (hid : t.ID = s.ID) (ht : t.connAndIP = s.connAndIP) : Owned (h.setSession ref t) conns where
  slots c conn slot hc hslot := by
    obtain ⟨s', hs', hown⟩ := ho.slots c conn slot hc hslot
    refine ⟨_, setSession_heap hs t hs', ?_⟩
    split
    next heq =>
      rw [heq] at hs'
      obtain rfl := Option.some.inj (hs.symm.trans hs')
      rw [ht, hown]
    next => exact hown
  listed id ref' hlist := by
    obtain ⟨s', hs', hsid, hlive⟩ := ho.listed id ref' hlist
    refine ⟨_, setSession_heap hs t hs', ?_⟩
    split
    next heq =>
      rw [heq] at hs'
      obtain rfl := Option.some.inj (hs.symm.trans hs')
      exact ⟨hid.trans hsid, by rw [ht]; exact hlive⟩
    next => exact ⟨hsid, hlive⟩
  closed := ho.closed

/-- Closing a connection; the reaper closes those of sessions that it has
taken off the map. -/
theorem Owned.shut (ho : Owned h conns) (c : Nat) (reaper : Bool)
    (hreap : reaper = true → ∀ conn slot id, conns[c]? = some conn → conn.slot = some slot →
      h.sessions.lookup id ≠ some slot.ref) : Owned h (conns.modify c (Conn.shut reaper)) where
  slots i conn slot hi hslot := by
    obtain ⟨conn, hconn, rfl⟩ := Tally.getElem?_modify_eq_some hi
    split at hslot
    next heq =>
      rw [if_pos heq]
      exact ho.slots i conn slot hconn hslot
    next hne =>
      rw [if_neg hne]
      exact ho.slots i conn slot hconn hslot
  listed id ref hid := by
    obtain ⟨s, hs, hsid, hlive⟩ := ho.listed id ref hid
    refine ⟨s, hs, hsid, fun role i ip hi => ?_⟩
    obtain ⟨conn, hconn, hslot, hip, hr⟩ := hlive role i ip hi
    by_cases heq : c = i
    · subst heq
      refine ⟨_, Tally.getElem?_modify_self hconn _, hslot, hip, ?_⟩
      cases reaper with
      | false => exact (Bool.or_false _).trans hr
      | true => exact absurd hid (hreap rfl conn _ id hconn hslot)
    · exact ⟨conn, by rw [Tally.getElem?_modify_ne heq, hconn], hslot, hip, hr⟩
  closed conn hmem hr := by
    obtain ⟨i, hi⟩ := List.getElem?_of_mem hmem
    obtain ⟨conn, hconn, rfl⟩ := Tally.getElem?_modify_eq_some hi
    split at hr
    next heq => rw [if_pos heq]; rfl
    next hne =>
      rw [if_neg hne]
      exact ho.closed conn (List.mem_of_getElem? hconn) hr

/-- Closing without the reaper. -/
theorem Owned.applyEffects (ho : Owned h conns) (effects : List Effect) :
    Owned h (effects.foldl (applyEffect false) conns) := by
  induction effects generalizing conns with
  | nil => exact ho
  | cons e effects ih =>
      refine ih ?_
      cases e with
      | send => exact ho
      | close c reason => exact ho.shut c false (by simp)

/-- A handler returns: its slot is free again, or its session is off the map. -/
theorem Owned.finish {c : Nat} {conn : Conn} {slot : Slot} (ho : Owned h conns)
    (hconn : conns[c]? = some conn) (hslot : conn.slot = some slot)
    (hslots : ∀ i conn' slot', i ≠ c → conns[i]? = some conn' → conn'.slot = some slot' →
      ∃ s, h'.heap[slot'.ref]? = some s ∧ s.connAndIP slot'.role = some (i, conn'.ip))
    (hlisted : ∀ id ref, h'.sessions.lookup id = some ref →
      ∃ s s', h.sessions.lookup id = some ref ∧ h.heap[ref]? = some s ∧ h'.heap[ref]? = some s' ∧
        s'.ID = s.ID ∧ ∀ role i ip, s'.connAndIP role = some (i, ip) →
          s.connAndIP role = some (i, ip) ∧ (⟨ref, role⟩ : Slot) ≠ slot) :
    Owned h' (conns.modify c Conn.finish) where
  slots i conn' slot' hi hslot' := by
    obtain ⟨conn', hconn', rfl⟩ := Tally.getElem?_modify_eq_some hi
    split at hslot'
    next => cases hslot'
    next hne =>
      rw [if_neg hne]
      exact hslots i conn' slot' (Ne.symm hne) hconn' hslot'
  listed id ref hid := by
    obtain ⟨s, s', hid', hs, hs', hsid, hlive'⟩ := hlisted id ref hid
    obtain ⟨s'', hs'', hsid'', hlive⟩ := ho.listed id ref hid'
    obtain rfl := Option.some.inj (hs.symm.trans hs'')
    refine ⟨s', hs', hsid.trans hsid'', fun role i ip hi => ?_⟩
    obtain ⟨hi, hne⟩ := hlive' role i ip hi
    obtain ⟨conn', hconn', hslot', hrest⟩ := hlive role i ip hi
    refine ⟨conn', ?_, hslot', hrest⟩
    rw [Tally.getElem?_modify_ne, hconn']
    rintro rfl
    obtain rfl := Option.some.inj (hconn.symm.trans hconn')
    exact hne (Option.some.inj (hslot'.symm.trans hslot))
  closed conn' hmem hr := by
    obtain ⟨i, hi⟩ := List.getElem?_of_mem hmem
    obtain ⟨conn', hconn', rfl⟩ := Tally.getElem?_modify_eq_some hi
    split at hr
    next heq => rw [if_pos heq]; rfl
    next hne =>
      rw [if_neg hne]
      exact ho.closed conn' (List.mem_of_getElem? hconn') hr

/-- Two handlers own different slots. -/
theorem Owned.slot_inj (ho : Owned h conns) {c i : Nat} {conn conn' : Conn} {slot : Slot}
    (hconn : conns[c]? = some conn) (hslot : conn.slot = some slot)
    (hconn' : conns[i]? = some conn') (hslot' : conn'.slot = some slot) : c = i := by
  obtain ⟨s, hs, hown⟩ := ho.slots c conn slot hconn hslot
  obtain ⟨s', hs', hown'⟩ := ho.slots i conn' slot hconn' hslot'
  obtain rfl := Option.some.inj (hs.symm.trans hs')
  exact (Prod.mk.inj (Option.some.inj (hown.symm.trans hown'))).1

/-- The handler of a connection that dropped. -/
theorem Owned.disconnect {c : Nat} {conn : Conn} {slot : Slot} {s : Session} (ho : Owned h conns)
    (hconn : conns[c]? = some conn) (hslot : conn.slot = some slot)
    (hs : h.heap[slot.ref]? = some s) (now : Time) :
    Owned (h.setSession slot.ref (s.markDisconnected slot.role now).1)
      (conns.modify c Conn.finish) := by
  obtain ⟨s', hs', hown⟩ := ho.slots c conn slot hconn hslot
  obtain rfl := Option.some.inj (hs.symm.trans hs')
  obtain ⟨hid, hslots, -⟩ := Session.markDisconnected_spec hown now
  refine ho.finish hconn hslot (fun i conn' slot' hne hi hslot' => ?_) fun id ref hlist => ?_
  · obtain ⟨s', hs', hown'⟩ := ho.slots i conn' slot' hi hslot'
    refine ⟨_, setSession_heap hs _ hs', ?_⟩
    split
    next heq =>
      rw [heq] at hs'
      obtain rfl := Option.some.inj (hs.symm.trans hs')
      rw [hslots, Function.update_of_ne, hown']
      rintro hrole
      obtain rfl : slot' = slot := by
        cases slot
        cases slot'
        cases heq
        cases hrole
        rfl
      exact hne (ho.slot_inj hi hslot' hconn hslot)
    next => exact hown'
  · obtain ⟨s', hs', hsid, hlive⟩ := ho.listed id ref hlist
    refine ⟨s', _, hlist, hs', setSession_heap hs _ hs', ?_, fun role i ip hi => ?_⟩
    · split
      next heq =>
        rw [heq] at hs'
        obtain rfl := Option.some.inj (hs.symm.trans hs')
        exact hid
      next => rfl
    · split at hi
      next heq =>
        rw [heq] at hs'
        obtain rfl := Option.some.inj (hs.symm.trans hs')
        rw [hslots] at hi
        by_cases hrole : role = slot.role
        · rw [hrole, Function.update_self] at hi
          cases hi
        · rw [Function.update_of_ne hrole] at hi
          exact ⟨hi, fun heq => hrole (congrArg Slot.role heq)⟩
      next hne => exact ⟨hi, fun heq => hne (congrArg Slot.ref heq)⟩

/-- A session comes off the map. -/
theorem Owned.remove (ho : Owned h conns) (id : String) : Owned (h.removeByID id) conns where
  slots := ho.slots
  listed id' ref hid := by
    have hne : id' ≠ id := by
      rintro rfl
      change (h.sessions.erase id').lookup id' = _ at hid
      rw [AList.lookup_erase] at hid
      cases hid
    change (h.sessions.erase id).lookup id' = _ at hid
    rw [AList.lookup_erase_ne hne] at hid
    exact ho.listed id' ref hid
  closed := ho.closed

/-- Off the map, a session has no id there any more. -/
theorem Owned.removed (ho : Owned h conns) {ref : Nat} {s : Session} (hs : h.heap[ref]? = some s)
    (id : String) : (h.removeByID s.ID).sessions.lookup id ≠ some ref := by
  intro hid
  change (h.sessions.erase s.ID).lookup id = _ at hid
  by_cases heq : id = s.ID
  · rw [heq, AList.lookup_erase] at hid
    cases hid
  · rw [AList.lookup_erase_ne heq] at hid
    obtain ⟨s', hs', hsid, -⟩ := ho.listed id ref hid
    obtain rfl := Option.some.inj (hs.symm.trans hs')
    exact heq hsid.symm

/-- The handler that ends its session. -/
theorem Owned.endSession {c : Nat} {conn : Conn} {slot : Slot} {s : Session} (ho : Owned h conns)
    (hconn : conns[c]? = some conn) (hslot : conn.slot = some slot)
    (hs : h.heap[slot.ref]? = some s) :
    Owned (h.removeByID s.ID) (conns.modify c Conn.finish) := by
  refine ho.finish hconn hslot (fun i conn' slot' _ hi hslot' => ho.slots i conn' slot' hi hslot')
    fun id ref hlist => ?_
  obtain ⟨s', hs', hsid, hlive⟩ := (ho.remove s.ID).listed id ref hlist
  refine ⟨s', s', ?_, hs', hs', rfl, fun role i ip hi => ⟨hi, ?_⟩⟩
  · have hne : id ≠ s.ID := by
      rintro rfl
      change (h.sessions.erase s.ID).lookup s.ID = _ at hlist
      rw [AList.lookup_erase] at hlist
      cases hlist
    change (h.sessions.erase s.ID).lookup id = _ at hlist
    rwa [AList.lookup_erase_ne hne] at hlist
  · rintro rfl
    exact ho.removed hs id hlist

end Quicksend.Server
