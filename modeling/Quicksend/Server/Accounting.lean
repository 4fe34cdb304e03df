import Quicksend.Lib.Transition
import Quicksend.Server.Ownership

/-!
# The slots that are counted against an address

`EndSession` releases the other peer's slot and never the caller's own; the
reaper releases the slots of the connections it closes, and their handlers
release them again. The counts are exact in runs in which neither can be
told apart from one release for each slot.
-/

namespace Quicksend.Server

/-- The handler runs and took its slot from `ip`. -/
def Conn.holds (ip : String) (c : Conn) : Bool := c.slot.isSome && decide (c.ip = ip)

/-- The reaper would close this connection now: its session is listed, and there
is a reason to end it. -/
def Hub.expires (h : Hub) (now : Time) (c : Conn) : Bool :=
  c.slot.any fun slot => (h.heap[slot.ref]?).any fun s =>
    decide (h.sessions.lookup s.ID = some slot.ref) && (h.reapReason (s.snapshot now) now).isSome

namespace Relay

/-- The handlers still running whose connection took its slot from `ip`. -/
def running (x : Relay) (ip : String) : Nat := x.conns.countP (Conn.holds ip)

/-- How many connections of this address hold a slot and are still open. -/
def opened (x : Relay) (ip : String) : Nat := x.conns.countP fun c => c.holds ip && !c.closed

/-- What every event keeps of the counts: none is too small, and all are exact as
long as every closed connection has left its slot. -/
structure Accounted (x : Relay) : Prop where
  exact : (∀ c ∈ x.conns, c.closed = true → c.slot = none) → ∀ ip, x.hub.ipCounts ip = x.running ip
  enough : ∀ ip, x.opened ip ≤ x.hub.ipCounts ip

/-- A peer ends its session while the other one is connected from its own
address; what the reaper closes of an address, it closes all at once; and no
slot is taken from an address while handlers of connections that the reaper
closed still run there. -/
def Balanced (x : Relay) : Event → Prop
  | .begin ip first now draws =>
      (beginSession x.hub first ip x.conns.length now draws).2.1.isOk = true →
        ∀ c ∈ x.conns, c.holds ip = true → c.reaped = false
  | .frame conn .endSession _ =>
      ∀ c ∈ x.conns[conn]?, ∀ slot ∈ c.slot, ∀ s ∈ x.hub.heap[slot.ref]?,
        match s.connAndIP slot.role.other with
        | some (_, ip) => ip = c.ip ∨ c.reaped = true ∧ x.hub.ipCounts ip = 0
        | none => c.reaped = true
  | .reap now _ =>
      ∀ c ∈ x.conns, ∀ c' ∈ x.conns, x.hub.expires now c = true → c'.holds c.ip = true →
        x.hub.expires now c' = true
  | _ => True

instance (x : Relay) (e : Event) : Decidable (x.Balanced e) := by
  unfold Balanced
  split
  · infer_instance
  · refine @Option.decidableForallMem _ _ (fun c => ?_) _
    refine @Option.decidableForallMem _ _ (fun slot => ?_) _
    refine @Option.decidableForallMem _ _ (fun s => ?_) _
    split <;> infer_instance
  · infer_instance
  · infer_instance

end Relay

/-! ## Counting over the connections -/

/-- The handlers of `ip` whose slot the reaper has not released. -/
def unreaped (conns : List Conn) (ip : String) : Nat :=
  conns.countP fun c => c.holds ip && !c.reaped

variable {h h' : Hub} {conns : List Conn}

@[simp] theorem Conn.holds_shut (reaper : Bool) (ip : String) (c : Conn) :
    (c.shut reaper).holds ip = c.holds ip := rfl

@[simp] theorem Conn.holds_finish (ip : String) (c : Conn) : c.finish.holds ip = false := rfl

theorem unreaped_accepted (conns : List Conn) (ip ip' : String) (slot : Slot) :
    unreaped (conns ++ [Conn.accepted ip (some slot)]) ip'
      = unreaped conns ip' + if ip' = ip then 1 else 0 := by
  have hone : [Conn.accepted ip (some slot)].countP (fun c => c.holds ip' && !c.reaped)
      = if ip' = ip then 1 else 0 := by
    by_cases heq : ip' = ip
    · simp [Conn.accepted, Conn.holds, heq]
    · simp [Conn.accepted, Conn.holds, heq, Ne.symm heq]
  rw [unreaped, List.countP_append, hone]
  rfl

theorem unreaped_refused (conns : List Conn) (ip ip' : String) :
    unreaped (conns ++ [Conn.accepted ip none]) ip' = unreaped conns ip' := by
  rw [unreaped, List.countP_append]
  rfl

/-- A handler that returns is counted no longer, if it was. -/
theorem unreaped_finish {c : Nat} {conn : Conn} (hconn : conns[c]? = some conn) (ip : String) :
    unreaped (conns.modify c Conn.finish) ip
      + (if conn.holds ip && !conn.reaped then 1 else 0) = unreaped conns ip := by
  have := Tally.countP_modify (fun c : Conn => c.holds ip && !c.reaped) Conn.finish hconn
  simpa [unreaped] using this

theorem unreaped_shut (conns : List Conn) (c : Nat) (ip : String) :
    unreaped (conns.modify c (Conn.shut false)) ip = unreaped conns ip :=
  Tally.countP_modify_of_eq _ _ (fun conn => by simp [Conn.shut, Conn.holds]) conns c

theorem unreaped_applyEffects (effects : List Effect) (conns : List Conn) (ip : String) :
    unreaped (effects.foldl (applyEffect false) conns) ip = unreaped conns ip := by
  induction effects generalizing conns with
  | nil => rfl
  | cons e effects ih =>
      rw [List.foldl_cons, ih]
      cases e with
      | send => rfl
      | close c reason => exact unreaped_shut conns c ip

/-- The reaper closes a connection and releases its slot. -/
theorem counts_reap {c : Nat} {conn : Conn} (hcounts : ∀ ip, h.ipCounts ip = unreaped conns ip)
    (hconn : conns[c]? = some conn) (hslot : conn.slot.isSome = true) (hr : conn.reaped = false)
    (ip : String) :
    (h.release conn.ip).ipCounts ip = unreaped (conns.modify c (Conn.shut true)) ip := by
  have hmod := Tally.countP_modify (fun c : Conn => c.holds ip && !c.reaped) (Conn.shut true) hconn
  have hafter : ((Conn.shut true conn).holds ip && !(Conn.shut true conn).reaped) = false := by
    simp [Conn.shut]
  rw [hafter] at hmod
  rw [release_ipCounts, hcounts ip]
  by_cases heq : ip = conn.ip
  · have hbefore : (conn.holds ip && !conn.reaped) = true := by
      simp [Conn.holds, hslot, hr, heq]
    rw [hbefore] at hmod
    rw [if_pos heq]
    simp only [unreaped, if_true, Bool.false_eq_true, if_false] at hmod ⊢
    omega
  · have hbefore : (conn.holds ip && !conn.reaped) = false := by
      simp [Conn.holds, Ne.symm heq]
    rw [hbefore] at hmod
    rw [if_neg heq]
    simp only [unreaped, Bool.false_eq_true, if_false] at hmod ⊢
    omega

/-! ## The reaper -/

/-- Slots are owned, and each that is owned and not reaped is counted once. -/
structure Fair (h : Hub) (conns : List Conn) : Prop where
  owned : Owned h conns
  counts : ∀ ip, h.ipCounts ip = unreaped conns ip

/-- What the reaper makes of the connections of a session's slots. -/
def markSlots (p : Slot → Bool) (conn : Conn) : Conn := if conn.slot.any p then conn.shut true else conn

/-- A session's slots are its host's and its guest's. -/
theorem markSlots_roles (ref : Nat) (conn : Conn) :
    markSlots (fun slot => slot = ⟨ref, .guest⟩) (markSlots (fun slot => slot = ⟨ref, .host⟩) conn)
      = markSlots (fun slot => slot.ref = ref) conn := by
  obtain ⟨ip, slot, closed, reaped⟩ := conn
  cases slot with
  | none => rfl
  | some slot =>
      obtain ⟨ref', role⟩ := slot
      by_cases hr : ref' = ref
      · cases role <;> simp [markSlots, Conn.shut, hr]
      · simp [markSlots, hr]

theorem close_fair {ref : Nat} {role : Role} {s : Session} (hf : Fair h conns)
    (hs : h.heap[ref]? = some s) (hunlisted : ∀ id, h.sessions.lookup id ≠ some ref)
    (hlive : ∀ (c : Nat) ip, s.connAndIP role = some (c, ip) → ∃ conn, conns[c]? = some conn ∧
      conn.slot = some ⟨ref, role⟩ ∧ conn.ip = ip ∧ conn.reaped = false) (reason : String) :
    let r := h.notifyAndClose (s.connAndIP role) reason
    let conns' := r.2.foldl (applyEffect true) conns
    Fair r.1 conns' ∧ (r.1.heap = h.heap ∧ r.1.sessions = h.sessions ∧ r.1.cfg = h.cfg) ∧
      ∀ i : Nat, conns'[i]? = (conns[i]?).map (markSlots fun slot => slot = ⟨ref, role⟩) := by
  dsimp only
  cases hpeer : s.connAndIP role with
  | none =>
      -- nobody is in the slot, so no connection is marked
      refine ⟨hf, ⟨rfl, rfl, rfl⟩, fun i => ?_⟩
      change conns[i]? = _
      cases hi : conns[i]? with
      | none => rfl
      | some conn =>
          rw [Option.map_some, markSlots, if_neg]
          rw [Option.any_eq_true]
          rintro ⟨slot, hslot, heq⟩
          obtain rfl := of_decide_eq_true heq
          obtain ⟨s', hs', hown⟩ := hf.owned.slots i conn _ hi hslot
          obtain rfl := Option.some.inj (hs.symm.trans hs')
          rw [hpeer] at hown
          cases hown
  | some peer =>
      obtain ⟨c, ip⟩ := peer
      obtain ⟨conn, hconn, hslot, rfl, hr⟩ := hlive c ip hpeer
      refine ⟨⟨?_, counts_reap hf.counts hconn (by rw [hslot]; rfl) hr⟩, ⟨rfl, rfl, rfl⟩, fun i => ?_⟩
      · refine (hf.owned.shut c true fun _ conn' slot id hconn' hslot' => ?_).congr rfl rfl
        obtain rfl := Option.some.inj (hconn.symm.trans hconn')
        obtain rfl := Option.some.inj (hslot.symm.trans hslot')
        exact hunlisted id
      · change (conns.modify c (Conn.shut true))[i]? = _
        by_cases heq : c = i
        · subst heq
          rw [Tally.getElem?_modify_self hconn, hconn, Option.map_some, markSlots, if_pos]
          rw [hslot]
          exact decide_eq_true rfl
        · -- any other connection has another slot
          rw [Tally.getElem?_modify_ne heq]
          cases hi : conns[i]? with
          | none => rfl
          | some conn' =>
              rw [Option.map_some, markSlots, if_neg]
              rw [Option.any_eq_true]
              rintro ⟨slot, hslot', hdec⟩
              obtain rfl := of_decide_eq_true hdec
              exact heq (hf.owned.slot_inj hconn hslot hi hslot')

theorem reapSession_fair {ref : Nat} {id : String} {s : Session} (hf : Fair h conns)
    (hid : h.sessions.lookup id = some ref) (hs : h.heap[ref]? = some s) (now : Time) {reason : String}
    (hreason : h.reapReason (s.snapshot now) now = some reason) :
    let r := h.reapSession s now
    let conns' := r.2.foldl (applyEffect true) conns
    Fair r.1 conns' ∧ (r.1.heap = h.heap ∧ r.1.sessions = h.sessions.erase id ∧ r.1.cfg = h.cfg) ∧
      ∀ i : Nat, conns'[i]? = (conns[i]?).map (markSlots fun slot => slot.ref = ref) := by
  obtain ⟨s', hs', hsid, hlive⟩ := hf.owned.listed id ref hid
  obtain rfl := Option.some.inj (hs.symm.trans hs')
  let h₀ := h.removeByID s.ID
  let host := h₀.notifyAndClose (s.connAndIP .host) reason
  let guest := host.1.notifyAndClose (s.connAndIP .guest) reason
  have hr : h.reapSession s now = (guest.1, host.2 ++ guest.2) := by
    unfold Hub.reapSession
    dsimp only
    rw [hreason]
    dsimp only
    rw [Session.live_snapshot, Session.live_snapshot]
    unfold guest host h₀
    cases s.connAndIP .host <;> cases s.connAndIP .guest <;> rfl
  rw [hr]
  dsimp only
  rw [List.foldl_append]
  have hunlisted : ∀ id, h₀.sessions.lookup id ≠ some ref := hf.owned.removed hs
  obtain ⟨hf₁, ⟨hheap, hsessions, hcfg⟩, hget⟩ :=
    close_fair ⟨hf.owned.remove s.ID, hf.counts⟩ hs hunlisted (hlive .host) reason
  have hunlisted₁ : ∀ id, host.1.sessions.lookup id ≠ some ref := by
    rw [hsessions]
    exact hunlisted
  obtain ⟨hf₂, ⟨hheap₂, hsessions₂, hcfg₂⟩, hget₂⟩ :=
    close_fair hf₁ (hheap ▸ hs) hunlisted₁ (fun c ip hc => by
      obtain ⟨conn, hconn, hslot, hrest⟩ := hlive .guest c ip hc
      refine ⟨conn, ?_, hslot, hrest⟩
      rw [hget, hconn, Option.map_some, markSlots, if_neg]
      simp [hslot]) reason
  refine ⟨hf₂, ⟨hheap₂.trans hheap, ?_, hcfg₂.trans hcfg⟩, fun i => ?_⟩
  · rw [hsessions₂, hsessions, ← hsid]
    rfl
  · rw [hget₂, hget, Option.map_map]
    congr 1
    funext conn
    exact markSlots_roles ref conn

/-- The reaper closes this connection when it comes to these ids. -/
def Expires (h : Hub) (now : Time) (ids : List String) (c : Conn) : Prop :=
  ∃ slot s, c.slot = some slot ∧ h.heap[slot.ref]? = some s ∧ h.sessions.lookup s.ID = some slot.ref ∧
    s.ID ∈ ids ∧ (h.reapReason (s.snapshot now) now).isSome = true

/-- An id whose session stays adds nothing. -/
theorem expires_cons {now : Time} {id : String} {ids : List String}
    (hkeep : ∀ ref s, h.sessions.lookup id = some ref → h.heap[ref]? = some s →
      h.reapReason (s.snapshot now) now = none) (c : Conn) :
    Expires h now ids c ↔ Expires h now (id :: ids) c := by
  constructor
  · rintro ⟨slot, s, hslot, hs, hid, hmem, hreason⟩
    exact ⟨slot, s, hslot, hs, hid, List.mem_cons_of_mem _ hmem, hreason⟩
  · rintro ⟨slot, s, hslot, hs, hid, hmem, hreason⟩
    refine ⟨slot, s, hslot, hs, hid, ?_, hreason⟩
    rcases List.mem_cons.mp hmem with hsid | hmem
    · rw [hkeep slot.ref s (hsid ▸ hid) hs] at hreason
      cases hreason
    · exact hmem

/-- An id whose session goes adds the connections of its slots. -/
theorem expires_reaped {now : Time} {id : String} {ids : List String} {ref : Nat} {s : Session}
    (hid : h.sessions.lookup id = some ref) (hs : h.heap[ref]? = some s) (hsid : s.ID = id)
    (hreason : (h.reapReason (s.snapshot now) now).isSome = true) (hheap : h'.heap = h.heap)
    (hsessions : h'.sessions = h.sessions.erase id) (hcfg : h'.cfg = h.cfg) (conn : Conn) :
    ((markSlots (fun slot => slot.ref = ref) conn).reaped = true ∨
        Expires h' now ids (markSlots (fun slot => slot.ref = ref) conn)) ↔
      conn.reaped = true ∨ Expires h now (id :: ids) conn := by
  have hsame : ∀ snap, h'.reapReason snap now = h.reapReason snap now := fun snap => by
    rw [Hub.reapReason, Hub.reapReason, Hub.graceExpired, Hub.graceExpired, hcfg]
    rfl
  by_cases hin : conn.slot.any (fun slot => slot.ref = ref) = true
  · obtain ⟨slot, hslot, heq⟩ := (Option.any_eq_true _ _).mp hin
    obtain rfl := of_decide_eq_true heq
    refine iff_of_true (.inl ?_) (.inr ⟨slot, s, hslot, hs, by rw [hsid, hid], by simp [hsid], hreason⟩)
    rw [markSlots, if_pos hin]
    simp [Conn.shut]
  · rw [markSlots, if_neg hin]
    refine or_congr_right ⟨?_, ?_⟩
    · rintro ⟨slot, s', hslot, hs', hlist, hmem, hr⟩
      rw [hheap] at hs'
      rw [hsessions] at hlist
      have hne : s'.ID ≠ id := by
        rintro heq
        rw [heq, AList.lookup_erase] at hlist
        cases hlist
      rw [AList.lookup_erase_ne hne] at hlist
      exact ⟨slot, s', hslot, hs', hlist, List.mem_cons_of_mem _ hmem, hsame _ ▸ hr⟩
    · rintro ⟨slot, s', hslot, hs', hlist, hmem, hr⟩
      have hne : s'.ID ≠ id := by
        rintro heq
        rw [heq, hid] at hlist
        refine hin ((Option.any_eq_true _ _).mpr ⟨slot, hslot, ?_⟩)
        exact decide_eq_true (Option.some.inj hlist).symm
      refine ⟨slot, s', hslot, hheap ▸ hs', ?_, (List.mem_cons.mp hmem).resolve_left hne,
        (hsame _).symm ▸ hr⟩
      rw [hsessions, AList.lookup_erase_ne hne, hlist]

theorem reapAll_fair (now : Time) (ids : List String) (hf : Fair h conns) :
    let r := h.reapAll now ids
    let conns' := r.2.foldl (applyEffect true) conns
    Fair r.1 conns' ∧ ∀ (i : Nat) conn', conns'[i]? = some conn' → ∃ conn, conns[i]? = some conn ∧
      conn'.slot = conn.slot ∧ conn'.ip = conn.ip ∧
        (conn'.reaped = true ↔ conn.reaped = true ∨ Expires h now ids conn) := by
  induction ids generalizing h conns with
  | nil =>
      refine ⟨hf, fun i conn' hi => ⟨conn', hi, rfl, rfl, ?_⟩⟩
      simp [Expires]
  | cons id ids ih =>
      dsimp only
      unfold Hub.reapAll
      split
      next hnone =>
        obtain ⟨hf', hmarks⟩ := ih hf
        refine ⟨hf', fun i conn' hi => ?_⟩
        obtain ⟨conn, hconn, hslot, hip, hr⟩ := hmarks i conn' hi
        refine ⟨conn, hconn, hslot, hip, hr.trans (or_congr_right (expires_cons ?_ conn))⟩
        intro ref s hid hs
        rw [hid, Option.bind_some, hs] at hnone
        cases hnone
      next s hsome =>
        obtain ⟨ref, hid, hs⟩ := Option.bind_eq_some_iff.mp hsome
        obtain ⟨s', hs', hsid, -⟩ := hf.owned.listed id ref hid
        obtain rfl := Option.some.inj (hs.symm.trans hs')
        dsimp only
        rw [List.foldl_append]
        cases hreason : h.reapReason (s.snapshot now) now with
        | none =>
            -- a session that is not due is passed over
            have hkeep : h.reapSession s now = (h, []) := by
              unfold Hub.reapSession
              dsimp only
              rw [hreason]
            rw [hkeep]
            obtain ⟨hf', hmarks⟩ := ih hf
            refine ⟨hf', fun i conn' hi => ?_⟩
            obtain ⟨conn, hconn, hslot, hip, hr⟩ := hmarks i conn' hi
            refine ⟨conn, hconn, hslot, hip, hr.trans (or_congr_right (expires_cons ?_ conn))⟩
            intro ref' s' hid' hs'
            obtain rfl := Option.some.inj (hid.symm.trans hid')
            obtain rfl := Option.some.inj (hs.symm.trans hs')
            exact hreason
        | some reason =>
            obtain ⟨hf₁, ⟨hheap, hsessions, hcfg⟩, hget⟩ := reapSession_fair hf hid hs now hreason
            obtain ⟨hf', hmarks⟩ := ih hf₁
            refine ⟨hf', fun i conn' hi => ?_⟩
            obtain ⟨conn₁, hconn₁, hslot, hip, hr⟩ := hmarks i conn' hi
            rw [hget] at hconn₁
            obtain ⟨conn, hconn, rfl⟩ := Option.map_eq_some_iff.mp hconn₁
            refine ⟨conn, hconn, ?_, ?_, hr.trans ?_⟩
            · rw [hslot, markSlots]
              split <;> rfl
            · rw [hip, markSlots]
              split <;> rfl
            · exact expires_reaped hid hs hsid (by rw [hreason]; rfl) hheap hsessions hcfg conn

/-! ## One step of the relay -/

/-- At one address, the reaper closed the connections of all running handlers
or of none. -/
def Uniform (conns : List Conn) (ip : String) : Prop :=
  (∀ c ∈ conns, c.holds ip = true → c.reaped = false) ∨
    (∀ c ∈ conns, c.holds ip = true → c.reaped = true)

theorem Uniform.mono {conns' : List Conn} {ip : String} (hu : Uniform conns ip)
    (hsub : ∀ c' ∈ conns', c'.holds ip = true →
      ∃ c ∈ conns, c.holds ip = true ∧ c'.reaped = c.reaped) : Uniform conns' ip := by
  refine hu.imp (fun h c' hmem hh => ?_) fun h c' hmem hh => ?_
  all_goals
    obtain ⟨c, hc, hold, heq⟩ := hsub c' hmem hh
    rw [heq]
    exact h c hc hold

theorem uniform_modify {ip : String} (hu : Uniform conns ip) (c : Nat) (g : Conn → Conn)
    (hg : ∀ conn, (g conn).holds ip = true → conn.holds ip = true ∧ (g conn).reaped = conn.reaped) :
    Uniform (conns.modify c g) ip := by
  refine hu.mono fun c' hmem hh => ?_
  obtain ⟨i, hi⟩ := List.getElem?_of_mem hmem
  obtain ⟨conn, hconn, rfl⟩ := Tally.getElem?_modify_eq_some hi
  refine ⟨conn, List.mem_of_getElem? hconn, ?_⟩
  split at hh
  next heq =>
    rw [if_pos heq]
    exact hg conn hh
  next hne =>
    rw [if_neg hne]
    exact ⟨hh, rfl⟩

theorem uniform_applyEffects {ip : String} (hu : Uniform conns ip) (effects : List Effect) :
    Uniform (effects.foldl (applyEffect false) conns) ip := by
  induction effects generalizing conns with
  | nil => exact hu
  | cons e effects ih =>
      refine ih ?_
      cases e with
      | send => exact hu
      | close c reason =>
          exact uniform_modify hu c _ fun conn hh => ⟨hh, Bool.or_false _⟩

theorem applyEffects_get (effects : List Effect) {c : Nat} {conn : Conn}
    (hconn : conns[c]? = some conn) : ∃ conn', (effects.foldl (applyEffect false) conns)[c]? = some conn' ∧
      conn'.slot = conn.slot ∧ conn'.ip = conn.ip ∧ conn'.reaped = conn.reaped := by
  induction effects generalizing conns conn with
  | nil => exact ⟨conn, hconn, rfl, rfl, rfl⟩
  | cons e effects ih =>
      cases e with
      | send => exact ih hconn
      | close i reason =>
          by_cases heq : i = c
          · subst heq
            obtain ⟨conn', hget, hslot, hip, hr⟩ :=
              ih (Tally.getElem?_modify_self hconn (Conn.shut false))
            exact ⟨conn', hget, hslot, hip, hr.trans (Bool.or_false _)⟩
          · exact ih ((Tally.getElem?_modify_ne heq _).trans hconn)

/-- The invariant of a balanced run: the books are fair, and what they say of one
connection they say of all. -/
structure Booked (x : Relay) : Prop extends Fair x.hub x.conns where
  uniform : ∀ ip, Uniform x.conns ip

theorem Takes.ipCounts {ip : String} {conn : ConnId} {slot : Slot} (ht : Takes h ip conn h' slot) :
    h'.ipCounts = (h.take ip).ipCounts := by
  cases ht with
  | created id s hid hs hheap hsessions hcounts => exact hcounts
  | joined ref role s t hs hfree hid ht hheap hsessions hcounts => exact hcounts

theorem booked_begun {x : Relay} {ip : String} {slot : Slot} (hx : Booked x)
    (ht : Takes x.hub ip x.conns.length h' slot)
    (hfree : ∀ c ∈ x.conns, c.holds ip = true → c.reaped = false) :
    Booked ⟨h', x.conns ++ [Conn.accepted ip (some slot)]⟩ := by
  refine ⟨⟨hx.owned.takes ht, fun ip' => ?_⟩, fun ip' => ?_⟩
  · rw [ht.ipCounts, take_ipCounts, unreaped_accepted, hx.counts ip']
    split <;> rfl
  · by_cases heq : ip' = ip
    · subst heq
      refine .inl fun c hmem hh => ?_
      rcases List.mem_append.mp hmem with hmem | hmem
      · exact hfree c hmem hh
      · rw [List.mem_singleton.mp hmem]
        rfl
    · refine (hx.uniform ip').mono fun c hmem hh => ?_
      rcases List.mem_append.mp hmem with hmem | hmem
      · exact ⟨c, hmem, hh, rfl⟩
      · rw [List.mem_singleton.mp hmem] at hh
        simp [Conn.holds, Conn.accepted, Ne.symm heq] at hh

theorem booked_refused {x : Relay} (hx : Booked x) (hb : SameBooks x.hub h') (ip : String) :
    Booked ⟨h', x.conns ++ [Conn.accepted ip none]⟩ := by
  refine ⟨⟨(hx.owned.refused ip).congr hb.heap hb.sessions, fun ip' => ?_⟩, fun ip' => ?_⟩
  · rw [hb.ipCounts, unreaped_refused, hx.counts ip']
  · refine (hx.uniform ip').mono fun c hmem hh => ?_
    rcases List.mem_append.mp hmem with hmem | hmem
    · exact ⟨c, hmem, hh, rfl⟩
    · rw [List.mem_singleton.mp hmem] at hh
      cases hh

/-- Where the reaper closed one running handler's connection, no slot is
counted. -/
theorem Booked.count_eq_zero {x : Relay} {c : Nat} {conn : Conn} {ip : String} (hx : Booked x)
    (hconn : x.conns[c]? = some conn) (hh : conn.holds ip = true) (hr : conn.reaped = true) :
    unreaped x.conns ip = 0 := by
  refine List.countP_eq_zero.mpr fun c' hmem hc' => ?_
  rw [Bool.and_eq_true] at hc'
  rcases hx.uniform ip with hu | hu
  · have := hu conn (List.mem_of_getElem? hconn) hh
    rw [hr] at this
    cases this
  · simp [hu c' hmem hc'.1] at hc'

/-- A handler whose read fails. -/
theorem booked_disconnect {x : Relay} {c : Nat} {conn : Conn} {slot : Slot} (hx : Booked x)
    (hconn : x.conns[c]? = some conn) (hslot : conn.slot = some slot) (now : Time) :
    Booked ⟨(x.hub.HandleDisconnect slot now).1, x.conns.modify c Conn.finish⟩ := by
  obtain ⟨s, hs, hown⟩ := hx.owned.slots c conn slot hconn hslot
  obtain ⟨-, -, hip⟩ := Session.markDisconnected_spec hown now
  unfold Hub.HandleDisconnect
  rw [hs]
  dsimp only
  rw [hip]
  refine ⟨⟨(hx.owned.disconnect hconn hslot hs now).congr rfl rfl, fun ip => ?_⟩, fun ip =>
    uniform_modify (hx.uniform ip) c _ fun conn hh => by simp at hh⟩
  have hone := unreaped_finish hconn ip
  have hcount := hx.counts ip
  rw [release_ipCounts]
  change (if ip = conn.ip then x.hub.ipCounts ip - 1 else x.hub.ipCounts ip)
    = unreaped (x.conns.modify c Conn.finish) ip
  by_cases heq : ip = conn.ip
  · have hh : conn.holds ip = true := by simp [Conn.holds, hslot, heq]
    rw [if_pos heq]
    cases hr : conn.reaped with
    | false =>
        simp only [hh, hr, Bool.not_false, Bool.and_self, if_true] at hone
        omega
    | true =>
        -- the reaper released this slot, and all others of the address
        simp only [hh, hr, Bool.not_true, Bool.and_false, Bool.false_eq_true, if_false] at hone
        have hzero := hx.count_eq_zero hconn hh hr
        omega
  · have hh : conn.holds ip = false := by simp [Conn.holds, Ne.symm heq]
    simp only [hh, Bool.false_and, Bool.false_eq_true, if_false] at hone
    rw [if_neg heq]
    omega

/-- A handler that ends its session. -/
theorem booked_endSession {x : Relay} {c : Nat} {conn : Conn} {slot : Slot} {now : Time}
    (hx : Booked x) (hconn : x.conns[c]? = some conn) (hslot : conn.slot = some slot)
    (hg : x.Balanced (.frame c .endSession now)) :
    Booked (x.read c slot .endSession now).1 := by
  obtain ⟨s, hs, hown⟩ := hx.owned.slots c conn slot hconn hslot
  have hg := hg conn hconn slot hslot s hs
  -- the caller's handler returns, and the slot that is released is its peer's
  let effects := (x.hub.EndSession slot).2
  obtain ⟨conn', hconn', hslot', hip', hr'⟩ := applyEffects_get effects hconn
  have howned : Owned (x.hub.removeByID s.ID)
      ((effects.foldl (applyEffect false) x.conns).modify c Conn.finish) :=
    (hx.owned.applyEffects effects).endSession hconn' (hslot'.trans hslot) hs
  have hhub : (x.hub.EndSession slot).1.heap = x.hub.heap ∧
      (x.hub.EndSession slot).1.sessions = x.hub.sessions.erase s.ID ∧
      ∀ ip, (x.hub.EndSession slot).1.ipCounts ip = match s.connAndIP slot.role.other with
        | some (_, ip') => (x.hub.release ip').ipCounts ip
        | none => x.hub.ipCounts ip := by
    unfold Hub.EndSession
    rw [hs]
    dsimp only
    cases s.connAndIP slot.role.other <;> exact ⟨rfl, rfl, fun _ => rfl⟩
  obtain ⟨hheap, hsessions, hcounts⟩ := hhub
  refine ⟨⟨howned.congr hheap hsessions, fun ip => ?_⟩, fun ip =>
    uniform_modify (uniform_applyEffects (hx.uniform ip) effects) c _ fun conn hh => by simp at hh⟩
  have hone := unreaped_finish hconn' ip
  rw [unreaped_applyEffects] at hone
  have hcount := hx.counts ip
  have hholds : conn'.holds ip = decide (conn.ip = ip) := by
    simp [Conn.holds, hslot', hslot, hip']
  rw [hholds, hr'] at hone
  change (x.hub.EndSession slot).1.ipCounts ip
    = unreaped ((effects.foldl (applyEffect false) x.conns).modify c Conn.finish) ip
  rw [hcounts]
  have hzero : conn.reaped = true → conn.ip = ip → unreaped x.conns ip = 0 := fun hr heq =>
    hx.count_eq_zero hconn (by simp [Conn.holds, hslot, heq]) hr
  split at hg
  next other ip' hother =>
    rw [release_ipCounts]
    by_cases heq : conn.ip = ip
    · cases hr : conn.reaped with
      | false =>
          -- the slot that is released stands for the caller's own
          have hip : ip = ip' := by
            rcases hg with hg | ⟨hg, -⟩
            · exact heq.symm.trans hg.symm
            · rw [hr] at hg
              cases hg
          simp only [heq, hr, decide_true, Bool.not_false, Bool.and_self, if_true] at hone
          rw [if_pos hip]
          omega
      | true =>
          have := hzero hr heq
          simp only [hr, Bool.not_true, Bool.and_false, Bool.false_eq_true, if_false] at hone
          split <;> omega
    · simp only [heq, decide_false, Bool.false_and, Bool.false_eq_true, if_false] at hone
      split
      next hip =>
        rcases hg with hg | ⟨-, hg⟩
        · exact absurd (hg.symm.trans hip.symm) heq
        · rw [← hip] at hg
          omega
      next => omega
  next hother =>
    simp only [hg, Bool.not_true, Bool.and_false, Bool.false_eq_true, if_false] at hone
    omega

theorem read_same {x : Relay} {slot : Slot} {s : Session} {msg : Incoming} (hmsg : msg ≠ .endSession)
    (hs : x.hub.heap[slot.ref]? = some s) (c : ConnId) (now : Time) :
    ∃ t, t.ID = s.ID ∧ t.connAndIP = s.connAndIP ∧
      SameBooks (x.hub.setSession slot.ref t) (x.read c slot msg now).1.hub ∧
      (x.read c slot msg now).1.conns = x.conns := by
  have hset : x.hub.setSession slot.ref s = x.hub := by
    have := List.getElem?_eq_some_iff.mp hs
    rw [Hub.setSession, ← this.2, List.set_getElem_self]
  cases msg with
  | endSession => exact absurd rfl hmsg
  | reconnectToken tokenHex =>
      cases htoken : tokenHex.bind decodeString with
      | none =>
          refine ⟨s, rfl, rfl, ?_, rfl⟩
          rw [hset]
          simp only [Relay.read, Relay.handleReconnectToken, htoken]
          exact .refl _
      | some token =>
          obtain ⟨hid, hslots⟩ := Session.setReconnectToken_spec s slot.role token
          refine ⟨_, hid, hslots, ?_, rfl⟩
          simp only [Relay.read, Relay.handleReconnectToken, htoken, Hub.RegisterReconnectToken, hs]
          exact .refl _
  | other binary data =>
      cases binary with
      | false =>
          refine ⟨s.touch now, rfl, rfl, ?_, rfl⟩
          simp only [Relay.read, Hub.Relay, hs]
          exact .refl _
      | true =>
          obtain ⟨hid, hslots⟩ :=
            Session.recordChunkBytes_spec (s.touch now) data x.hub.cfg.MaxFileSize
          refine ⟨_, hid, hslots, ?_, rfl⟩
          simp only [Relay.read, Hub.Relay, hs, if_true]
          split <;> exact .refl _

theorem booked_read {x : Relay} {c : Nat} {conn : Conn} {slot : Slot} {msg : Incoming} {now : Time}
    (hx : Booked x) (hconn : x.conns[c]? = some conn) (hslot : conn.slot = some slot)
    (hg : x.Balanced (.frame c msg now)) : Booked (x.read c slot msg now).1 := by
  by_cases hmsg : msg = .endSession
  · subst hmsg
    exact booked_endSession hx hconn hslot hg
  · obtain ⟨s, hs, -⟩ := hx.owned.slots c conn slot hconn hslot
    obtain ⟨t, hid, hslots, hbooks, hconns⟩ := read_same hmsg hs c now
    refine ⟨⟨?_, fun ip => ?_⟩, fun ip => ?_⟩
    · rw [hconns]
      exact (hx.owned.setSame hs hid hslots).congr hbooks.heap hbooks.sessions
    · rw [hconns, hbooks.ipCounts]
      exact hx.counts ip
    · rw [hconns]
      exact hx.uniform ip

theorem booked_reap {x : Relay} {now : Time} {ids : List String} (hx : Booked x)
    (hids : ids.Perm x.hub.sessions.keys) (hg : x.Balanced (.reap now ids)) :
    Booked ⟨(x.hub.ReapOnce now ids).1,
      (x.hub.ReapOnce now ids).2.foldl (applyEffect true) x.conns⟩ := by
  have hsweep : Fair (x.hub.sweep now) x.conns := ⟨hx.owned.congr rfl rfl, hx.counts⟩
  obtain ⟨hf, hmarks⟩ := reapAll_fair now ids hsweep
  refine ⟨hf, fun ip => ?_⟩
  have hexpires : ∀ c, Expires (x.hub.sweep now) now ids c ↔ x.hub.expires now c = true := by
    intro c
    simp only [Hub.expires, Option.any_eq_true, Bool.and_eq_true, decide_eq_true_eq]
    constructor
    · rintro ⟨slot, s, hslot, hs, hid, -, hreason⟩
      exact ⟨slot, hslot, s, hs, hid, hreason⟩
    · rintro ⟨slot, hslot, s, hs, hid, hreason⟩
      refine ⟨slot, s, hslot, hs, hid, hids.mem_iff.mpr ?_, hreason⟩
      rw [← AList.mem_keys, ← AList.lookup_isSome, hid]
      rfl
  by_cases hany : ∃ c ∈ x.conns, c.holds ip = true ∧ x.hub.expires now c = true
  · obtain ⟨c, hmem, hh, hexp⟩ := hany
    have hip : c.ip = ip := by
      simp only [Conn.holds, Bool.and_eq_true, decide_eq_true_eq] at hh
      exact hh.2
    refine .inr fun c' hmem' hh' => ?_
    obtain ⟨i, hi⟩ := List.getElem?_of_mem hmem'
    obtain ⟨conn, hconn, hslot', hip', hr⟩ := hmarks i c' hi
    have hh : conn.holds ip = true := by
      rw [Conn.holds, ← hslot', ← hip']
      exact hh'
    have hconn := List.mem_of_getElem? hconn
    exact hr.mpr (.inr ((hexpires conn).mpr (hg c hmem conn hconn hexp (hip ▸ hh))))
  · refine (hx.uniform ip).mono fun c' hmem' hh' => ?_
    obtain ⟨i, hi⟩ := List.getElem?_of_mem hmem'
    obtain ⟨conn, hconn, hslot', hip', hr⟩ := hmarks i c' hi
    have hh : conn.holds ip = true := by
      rw [Conn.holds, ← hslot', ← hip']
      exact hh'
    have hconn := List.mem_of_getElem? hconn
    refine ⟨conn, hconn, hh, Bool.eq_iff_iff.mpr (hr.trans (or_iff_left ?_))⟩
    exact fun hexp => hany ⟨conn, hconn, hh, (hexpires conn).mp hexp⟩

/-- **The step lemma.** -/
theorem booked_step (x : Relay) (e : Event) (y : Relay) (hx : Booked x) (hg : x.Balanced e)
    (h : x.next e = some y) : Booked y := by
  obtain ⟨⟨y, effects⟩, hstep, rfl⟩ := Option.map_eq_some_iff.mp h
  cases e with
  | begin ip first now draws =>
      have henters := beginSession_enters x.hub first ip x.conns.length now draws
      unfold Relay.step at hstep
      dsimp only at hstep
      split at hstep
      next g slot effects' heq =>
        obtain ⟨rfl, -⟩ := Prod.mk.inj (Option.some.inj hstep)
        rw [Enters, heq] at henters
        exact booked_begun hx henters (hg (by rw [heq]; rfl))
      next g err effects' heq =>
        obtain ⟨rfl, -⟩ := Prod.mk.inj (Option.some.inj hstep)
        rw [Enters, heq] at henters
        -- who is refused is never counted
        exact booked_refused hx henters ip
  | frame c msg now =>
      obtain ⟨slot, hserving, heq⟩ := Option.map_eq_some_iff.mp hstep
      obtain ⟨conn, hconn, hslot⟩ := Option.bind_eq_some_iff.mp hserving
      rw [← congrArg Prod.fst heq]
      exact booked_read hx hconn hslot hg
  | drop c =>
      unfold Relay.step at hstep
      dsimp only at hstep
      split at hstep
      next =>
        obtain ⟨rfl, -⟩ := Prod.mk.inj (Option.some.inj hstep)
        -- a connection that breaks is counted until its handler returns
        exact ⟨⟨hx.owned.shut c false (by simp), fun ip =>
          (hx.counts ip).trans (unreaped_shut x.conns c ip).symm⟩, fun ip =>
          uniform_modify (hx.uniform ip) c _ fun conn hh => ⟨hh, Bool.or_false _⟩⟩
      next => cases hstep
  | readError c now =>
      obtain ⟨slot, hserving, heq⟩ := Option.map_eq_some_iff.mp hstep
      obtain ⟨conn, hconn, hslot⟩ := Option.bind_eq_some_iff.mp hserving
      rw [← congrArg Prod.fst heq]
      exact booked_disconnect hx hconn hslot now
  | reap now ids =>
      unfold Relay.step at hstep
      dsimp only at hstep
      split at hstep
      next hids =>
        rw [← congrArg Prod.fst (Option.some.inj hstep)]
        exact booked_reap hx hids hg
      next => cases hstep

theorem Booked.init (cfg : Config) : Booked (Relay.init cfg) where
  owned := .init cfg
  counts _ := rfl
  uniform _ := .inl fun _ h => by cases h

theorem Booked.accounted {x : Relay} (hx : Booked x) : x.Accounted where
  exact hdone ip := by
    rw [hx.counts ip]
    refine List.countP_congr fun c hmem => ?_
    rw [Bool.and_eq_true, Bool.not_eq_true']
    refine and_iff_left_of_imp fun hh => ?_
    rw [Bool.eq_false_iff]
    intro hr
    rw [Conn.holds, hdone c hmem (hx.owned.closed c hmem hr)] at hh
    cases hh
  enough ip := by
    rw [hx.counts ip]
    refine List.countP_mono_left fun c hmem hc => ?_
    rw [Bool.and_eq_true, Bool.not_eq_true'] at hc ⊢
    refine ⟨hc.1, Bool.eq_false_iff.mpr fun hr => ?_⟩
    rw [hx.owned.closed c hmem hr] at hc
    cases hc.2

namespace Relay

/-- In a balanced run, once every closed connection's handler has finished the
counts are those of the running handlers, and they are never too low. -/
theorem accounted_of_balanced (cfg : Config) (es : List Event) (x : Relay)
    (hg : Transition.Guarded next Balanced (init cfg) es)
    (hr : Transition.run next (init cfg) es = some x) : x.Accounted :=
  (hg.invariant booked_step (Booked.init cfg) hr).accounted

/-! ## A small relay -/

/-- Two devices behind one address; one of them ends the session. A third
session is left to the reaper. -/
def sameAddress : List Event :=
  [.begin "a" .createSession 0 (drawID "s"), .begin "a" (.join (some "s")) 1 (drawID ""),
    .frame 0 .endSession 2, .readError 1 3, .begin "a" .createSession 4 (drawID "t"),
    .reap 304 ["t"]]

theorem accounted_of_balanced_sameAddress : ∃ x,
    Transition.run next (init smallConfig) sameAddress = some x ∧ x.running "a" = 1 ∧
      x.opened "a" = 0 ∧ x.Accounted := by
  have hg : Transition.Guarded next Balanced (init smallConfig) sameAddress := by decide +kernel
  have hrun : (Transition.run next (init smallConfig) sameAddress).any (fun x =>
      decide (x.running "a" = 1) && decide (x.opened "a" = 0)) = true := by decide +kernel
  obtain ⟨x, hr, hx⟩ := (Option.any_eq_true _ _).mp hrun
  rw [Bool.and_eq_true, decide_eq_true_eq, decide_eq_true_eq] at hx
  exact ⟨x, hr, hx.1, hx.2, accounted_of_balanced smallConfig sameAddress x hg hr⟩

/-- A host at `a` ends its session with a guest at `b`, where another session
is open. -/
def twoAddresses : List Event :=
  [.begin "a" .createSession 0 (drawID "s"), .begin "b" (.join (some "s")) 1 (drawID ""),
    .begin "b" .createSession 2 (drawID "t"), .frame 0 .endSession 3, .readError 1 4]

/-- The host's slot is never released, and the guest's twice: `a` stays
counted with no connection, and `b` is not counted with an open one. -/
theorem endSession_unbalanced : ∃ x,
    Transition.run next (init smallConfig) twoAddresses = some x ∧
      (∀ c ∈ x.conns, c.closed = true → c.slot = none) ∧
      x.running "a" = 0 ∧ x.hub.ipCounts "a" = 1 ∧ x.opened "b" = 1 ∧ x.hub.ipCounts "b" = 0 ∧
      ¬ x.Accounted := by
  have hrun : (Transition.run next (init smallConfig) twoAddresses).any (fun x =>
      decide (∀ c ∈ x.conns, c.closed = true → c.slot = none) &&
      decide (x.running "a" = 0 ∧ x.hub.ipCounts "a" = 1 ∧ x.opened "b" = 1 ∧
        x.hub.ipCounts "b" = 0)) = true := by decide +kernel
  obtain ⟨x, hr, hx⟩ := (Option.any_eq_true _ _).mp hrun
  rw [Bool.and_eq_true, decide_eq_true_eq, decide_eq_true_eq] at hx
  obtain ⟨hdone, ha, hca, hb, hcb⟩ := hx
  refine ⟨x, hr, hdone, ha, hca, hb, hcb, fun h => ?_⟩
  have := h.exact hdone "a"
  omega

end Relay

end Quicksend.Server
