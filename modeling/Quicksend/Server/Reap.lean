import Quicksend.Server.Goroutines.Tables
import Quicksend.Server.Probing

/-!
# What a run of the reaper does

`ReapOnce` without interleaving, on a hub whose map has every session under its
own id and whose connections are in one slot each.
-/

namespace Quicksend.Server

/-- Nothing has been relayed and nobody has come for the inactivity timeout. -/
def Session.Idle (s : Session) (cfg : Config) (now : Time) : Prop :=
  now - s.lastActivity ≥ cfg.SessionInactivityTimeout

/-- A slot has been disconnected for the grace period. -/
def Session.Forsaken (s : Session) (cfg : Config) (now : Time) : Prop :=
  ∃ role, ∃ p ∈ s.peers role, ∃ since ∈ p.disconnectedAt, now - since ≥ cfg.ReconnectGracePeriod

/-- Whether an effect is on this connection, be it a frame or a close. -/
def Effect.on (c : ConnId) : Effect → Bool
  | .send c' _ => c' = c
  | .close c' _ => c' = c

/-- What a connected peer of a session that is removed gets. -/
def goodbye (reason : String) (peer : Option (ConnId × String)) : List Effect :=
  match peer with
  | none => []
  | some (c, _) => [sendEnvelope c (.sessionEnded reason), .close c reason]

/-- **What `ReapOnce` does.** Sessions within their timeouts are left alone; each
of the others is removed, and its peers are told and closed. -/
structure Reaped (h : Hub) (now : Time) (h' : Hub) (effects : List Effect) : Prop where
  heap : h'.heap = h.heap
  absent : ∀ id, h.sessions.lookup id = none → h'.sessions.lookup id = none
  kept : ∀ id ref s, h.sessions.lookup id = some ref → h.heap[ref]? = some s →
    ¬ s.Idle h.cfg now → ¬ s.Forsaken h.cfg now → h'.sessions.lookup id = some ref ∧
      ∀ role c ip, s.connAndIP role = some (c, ip) → effects.filter (Effect.on c) = []
  idle : ∀ id ref s, h.sessions.lookup id = some ref → h.heap[ref]? = some s →
    s.Idle h.cfg now → h'.sessions.lookup id = none ∧
      ∀ role c ip, s.connAndIP role = some (c, ip) →
        effects.filter (Effect.on c) = goodbye ReasonInactivityTimeout (some (c, ip))
  forsaken : ∀ id ref s, h.sessions.lookup id = some ref → h.heap[ref]? = some s →
    ¬ s.Idle h.cfg now → s.Forsaken h.cfg now → h'.sessions.lookup id = none ∧
      ∀ role c ip, s.connAndIP role = some (c, ip) →
        effects.filter (Effect.on c) = goodbye ReasonPeerTimeout (some (c, ip))
  others : ∀ c, effects.filter (Effect.on c) ≠ [] → ∃ id ref s role ip,
    h.sessions.lookup id = some ref ∧ h.heap[ref]? = some s ∧ s.connAndIP role = some (c, ip)

namespace Hub

variable {h h' : Hub} {now : Time} {id : String} {ref : Nat} {s : Session}

/-! ## The reason -/

theorem reapReason_idle (hidle : s.Idle h.cfg now) :
    h.reapReason (s.snapshot now) now = some ReasonInactivityTimeout := if_pos hidle

theorem graceExpired_iff (role : Role) :
    h.graceExpired ((s.snapshot now).slots role) now = true ↔
      ∃ p ∈ s.peers role, ∃ since ∈ p.disconnectedAt, now - since ≥ h.cfg.ReconnectGracePeriod := by
  change (Session.slotSnapshot (s.peers role)).disconnectedSince.any _ = true ↔ _
  cases s.peers role with
  | none => simp [Session.slotSnapshot]
  | some p => simp [Session.slotSnapshot, Option.any_eq_true]

theorem forsaken_iff : s.Forsaken h.cfg now ↔
    (h.graceExpired ((s.snapshot now).slots .host) now ||
      h.graceExpired ((s.snapshot now).slots .guest) now) = true := by
  rw [Bool.or_eq_true, graceExpired_iff, graceExpired_iff]
  constructor
  · rintro ⟨role, hrole⟩
    cases role with
    | host => exact .inl hrole
    | guest => exact .inr hrole
  · rintro (hrole | hrole)
    · exact ⟨_, hrole⟩
    · exact ⟨_, hrole⟩

theorem reapReason_forsaken (hidle : ¬ s.Idle h.cfg now) (hforsaken : s.Forsaken h.cfg now) :
    h.reapReason (s.snapshot now) now = some ReasonPeerTimeout :=
  (if_neg hidle).trans (if_pos (forsaken_iff.mp hforsaken))

theorem reapReason_none (hidle : ¬ s.Idle h.cfg now) (hforsaken : ¬ s.Forsaken h.cfg now) :
    h.reapReason (s.snapshot now) now = none :=
  (if_neg hidle).trans (if_neg fun hor => hforsaken (forsaken_iff.mpr hor))

/-! ## One session -/

/-- What the reaper does for one id: the reason and a close to each connected
side, if there is a reason. -/
def reapEffects (h : Hub) (now : Time) (id : String) : List Effect :=
  match h.session id with
  | none => []
  | some s =>
      match h.reapReason (s.snapshot now) now with
      | none => []
      | some reason => goodbye reason (s.connAndIP .host) ++ goodbye reason (s.connAndIP .guest)

/-- The map has every session under its own id. -/
def Filed (h : Hub) : Prop := ∀ id ref, h.sessions.lookup id = some ref → h.idAt ref = some id

theorem Filed.session (hf : h.Filed) (hlookup : h.sessions.lookup id = some ref) :
    ∃ s, h.heap[ref]? = some s ∧ s.ID = id ∧ h.session id = some s := by
  obtain ⟨s, hs, hid⟩ := Option.map_eq_some_iff.mp (hf id ref hlookup)
  exact ⟨s, hs, hid, by rw [Hub.session, hlookup, Option.bind_some, hs]⟩

theorem notifyAndClose_spec (h : Hub) (peer : Option (ConnId × String)) (reason : String) :
    (h.notifyAndClose peer reason).1.heap = h.heap ∧
      (h.notifyAndClose peer reason).1.cfg = h.cfg ∧
      (h.notifyAndClose peer reason).1.sessions = h.sessions ∧
      (h.notifyAndClose peer reason).2 = goodbye reason peer := by
  cases peer <;> exact ⟨rfl, rfl, rfl, rfl⟩

/-- A session that is not due is left alone; one that is due is told, closed and
taken out of the map. -/
theorem reapSession_spec (hid : s.ID = id) (hs : h.session id = some s) (now : Time) :
    (h.reapSession s now).2 = h.reapEffects now id ∧ (h.reapSession s now).1.heap = h.heap ∧
      (h.reapSession s now).1.cfg = h.cfg ∧
      (h.reapSession s now).1.sessions =
        if (h.reapReason (s.snapshot now) now).isSome then h.sessions.erase id else h.sessions := by
  unfold reapSession reapEffects
  rw [hs]
  dsimp only
  cases h.reapReason (s.snapshot now) now with
  | none => exact ⟨rfl, rfl, rfl, rfl⟩
  | some reason =>
      dsimp only
      rw [Session.live_snapshot, Session.live_snapshot]
      obtain ⟨hheap, hcfg, hsessions, heffects⟩ :=
        notifyAndClose_spec h (s.connAndIP .host) reason
      obtain ⟨hheap', hcfg', hsessions', heffects'⟩ :=
        notifyAndClose_spec (h.notifyAndClose (s.connAndIP .host) reason).1
          (s.connAndIP .guest) reason
      refine ⟨?_, hheap'.trans hheap, hcfg'.trans hcfg, ?_⟩
      · rw [heffects, heffects']
      · rw [← hid]
        exact congrArg (AList.erase s.ID) (hsessions'.trans hsessions)

/-! ## All of them -/

/-- What another session is due does not depend on the map. -/
theorem reapEffects_congr (hheap : h'.heap = h.heap) (hcfg : h'.cfg = h.cfg)
    (hlookup : h'.sessions.lookup id = h.sessions.lookup id) :
    h'.reapEffects now id = h.reapEffects now id := by
  unfold reapEffects Hub.session
  rw [hlookup, hheap]
  cases (h.sessions.lookup id).bind (h.heap[·]?) with
  | none => rfl
  | some s =>
      unfold reapReason graceExpired
      rw [hcfg]

/-- The session of this id is listed, and there is a reason to end it now. -/
def dueAt (h : Hub) (now : Time) (id : String) : Bool :=
  (h.session id).any fun s => (h.reapReason (s.snapshot now) now).isSome

theorem dueAt_congr (hheap : h'.heap = h.heap) (hcfg : h'.cfg = h.cfg)
    (hlookup : h'.sessions.lookup id = h.sessions.lookup id) : h'.dueAt now id = h.dueAt now id := by
  unfold dueAt Hub.session
  rw [hlookup, hheap]
  cases (h.sessions.lookup id).bind (h.heap[·]?) with
  | none => rfl
  | some s =>
      unfold reapReason graceExpired
      rw [hcfg]

theorem Filed.erase (hf : h.Filed) (hheap : h'.heap = h.heap)
    (hsessions : ∀ id ref, h'.sessions.lookup id = some ref → h.sessions.lookup id = some ref) :
    h'.Filed := by
  intro id ref hlookup
  rw [Hub.idAt, hheap]
  exact hf id ref (hsessions id ref hlookup)

/-- The scan, over ids that are all different. -/
theorem reapAll_spec (ids : List String) (hnodup : ids.Nodup) (hf : h.Filed) (now : Time) :
    (h.reapAll now ids).2 = ids.flatMap (h.reapEffects now) ∧
      (h.reapAll now ids).1.heap = h.heap ∧
      ∀ id, (h.reapAll now ids).1.sessions.lookup id =
        if id ∈ ids ∧ h.dueAt now id = true then none else h.sessions.lookup id := by
  induction ids generalizing h with
  | nil => exact ⟨rfl, rfl, fun id => by simp [reapAll]⟩
  | cons first ids ih =>
      obtain ⟨hnot, hnodup⟩ := List.nodup_cons.mp hnodup
      unfold reapAll
      cases hs : (h.sessions.lookup first).bind (h.heap[·]?) with
      | none =>
          obtain ⟨heffects, hheap, hlookup⟩ := ih hnodup hf
          -- an id that is no longer in the map
          have hfirst : h.session first = none := hs
          have hnone : h.reapEffects now first = [] := by rw [reapEffects, hfirst]
          have hdue : h.dueAt now first = false := by rw [dueAt, hfirst]; rfl
          refine ⟨?_, hheap, fun id => ?_⟩
          · rw [List.flatMap_cons, hnone]
            exact heffects
          · rw [hlookup]
            by_cases heq : id = first
            · rw [heq, hdue]
              simp
            · simp [heq]
      | some s =>
          obtain ⟨ref, hlookup, href⟩ := Option.bind_eq_some_iff.mp hs
          obtain ⟨s', hs', hid, hsession⟩ := hf.session hlookup
          obtain rfl := Option.some.inj (href.symm.trans hs')
          obtain ⟨heffects, hheap, hcfg, hsessions⟩ := reapSession_spec hid hsession now
          have hdue : h.dueAt now first = (h.reapReason (s.snapshot now) now).isSome := by
            rw [dueAt, hsession]
            rfl
          -- reaping one session leaves the others as they are: they are due as before
          have hother : ∀ id, id ≠ first →
              (h.reapSession s now).1.sessions.lookup id = h.sessions.lookup id := by
            intro id hne
            rw [hsessions]
            split
            next => exact AList.lookup_erase_ne hne
            next => rfl
          have hself : (h.reapSession s now).1.sessions.lookup first =
              if h.dueAt now first = true then none else h.sessions.lookup first := by
            rw [hsessions, hdue]
            split
            next => exact AList.lookup_erase ..
            next => rfl
          have hfiled : (h.reapSession s now).1.Filed := by
            refine hf.erase hheap fun id ref hid => ?_
            by_cases heq : id = first
            · rw [heq, hself] at hid
              split at hid
              next => cases hid
              next => rw [heq, hid]
            · rw [← hother id heq, hid]
          obtain ⟨heffects', hheap', hlookup'⟩ := ih hnodup hfiled
          have hne : ∀ id ∈ ids, id ≠ first := fun id hmem heq => hnot (heq ▸ hmem)
          refine ⟨?_, hheap'.trans hheap, fun id => ?_⟩
          · dsimp only
            rw [heffects, heffects', List.flatMap_cons]
            congr 1
            refine List.flatMap_congr fun id hmem => ?_
            exact reapEffects_congr hheap hcfg (hother id (hne id hmem))
          · dsimp only
            rw [hlookup']
            by_cases heq : id = first
            · subst heq
              rw [if_neg fun h => hnot h.1, hself]
              simp
            · rw [dueAt_congr hheap hcfg (hother id heq), hother id heq]
              simp [heq]

/-- What is in the map afterwards was there before. -/
theorem lookup_of_reaped {effects : List Effect} (hr : Reaped h now h' effects) (hf : h.Filed)
    (hlookup : h'.sessions.lookup id = some ref) : h.sessions.lookup id = some ref := by
  cases hold : h.sessions.lookup id with
  | none =>
      rw [hr.absent id hold] at hlookup
      cases hlookup
  | some ref' =>
      obtain ⟨s, hs, -, -⟩ := hf.session hold
      by_cases hidle : s.Idle h.cfg now
      · rw [(hr.idle id ref' s hold hs hidle).1] at hlookup
        cases hlookup
      · by_cases hforsaken : s.Forsaken h.cfg now
        · rw [(hr.forsaken id ref' s hold hs hidle hforsaken).1] at hlookup
          cases hlookup
        · rw [← hlookup, (hr.kept id ref' s hold hs hidle hforsaken).1]

/-! ## Whose effects they are -/

/-- What one member of a list alone contributes. -/
theorem filter_flatMap_unique {α β : Type} {f : α → List β} {p : β → Bool} {l : List α} {b : α}
    (hnodup : l.Nodup) (hmem : b ∈ l) (hother : ∀ a ∈ l, a ≠ b → (f a).filter p = []) :
    (l.flatMap f).filter p = (f b).filter p := by
  obtain ⟨pre, post, rfl⟩ := List.append_of_mem hmem
  have hb : b ∉ pre ∧ b ∉ post := by
    have := List.nodup_middle.mp hnodup
    simpa using (List.nodup_cons.mp this).1
  have hnil : ∀ l' ⊆ pre ++ post, (l'.flatMap f).filter p = [] := by
    intro l' hsub
    rw [List.filter_flatMap, List.flatMap_eq_nil_iff]
    intro a ha
    have hmem' := hsub ha
    refine hother a ?_ ?_
    · simp only [List.mem_append, List.mem_cons] at hmem' ⊢
      tauto
    · rintro rfl
      simp only [List.mem_append] at hmem'
      tauto
  rw [List.flatMap_append, List.flatMap_cons, List.filter_append, List.filter_append,
    hnil pre (by simp), hnil post (by simp), List.nil_append, List.append_nil]

theorem filter_goodbye {reason : String} {peer : Option (ConnId × String)} {c : ConnId} :
    (goodbye reason peer).filter (Effect.on c) =
      if peer.map Prod.fst = some c then goodbye reason peer else [] := by
  cases peer with
  | none => rfl
  | some peer =>
      by_cases hc : peer.1 = c
      · simp [goodbye, sendEnvelope, Effect.on, hc]
      · simp [goodbye, sendEnvelope, Effect.on, hc]

/-- Only the peers of a session are told what happens to it. -/
theorem filter_reapEffects_ne {c : ConnId} (hne : (h.reapEffects now id).filter (Effect.on c) ≠ []) :
    ∃ ref s role ip, h.sessions.lookup id = some ref ∧ h.heap[ref]? = some s ∧
      s.connAndIP role = some (c, ip) := by
  unfold reapEffects at hne
  cases hs : h.session id with
  | none => simp [hs] at hne
  | some s =>
      obtain ⟨ref, hlookup, href⟩ := Option.bind_eq_some_iff.mp hs
      cases hreason : h.reapReason (s.snapshot now) now with
      | none => simp [hs, hreason] at hne
      | some reason =>
          rw [hs] at hne
          dsimp only at hne
          rw [hreason] at hne
          dsimp only at hne
          rw [List.filter_append, filter_goodbye, filter_goodbye] at hne
          by_cases hhost : (s.connAndIP .host).map Prod.fst = some c
          · obtain ⟨⟨c', ip⟩, hlive, rfl⟩ := Option.map_eq_some_iff.mp hhost
            exact ⟨ref, s, .host, ip, hlookup, href, hlive⟩
          · by_cases hguest : (s.connAndIP .guest).map Prod.fst = some c
            · obtain ⟨⟨c', ip⟩, hlive, rfl⟩ := Option.map_eq_some_iff.mp hguest
              exact ⟨ref, s, .guest, ip, hlookup, href, hlive⟩
            · rw [if_neg hhost, if_neg hguest] at hne
              exact absurd rfl hne

/-- No connection is in two slots, neither of one session nor of two. -/
def OneSlot (h : Hub) : Prop :=
  ∀ slot slot' c, h.connAt slot = some c → h.connAt slot' = some c → slot = slot'

theorem connAt_of_live {role : Role} {c : ConnId} {ip : String} (hs : h.heap[ref]? = some s)
    (hlive : s.connAndIP role = some (c, ip)) : h.connAt ⟨ref, role⟩ = some c := by
  rw [connAt, hs, Option.bind_some, Session.connOf, hlive]
  rfl

/-- Of a connected peer's session, what that peer gets. -/
theorem filter_reapEffects {role : Role} {c : ConnId} {ip : String} (hone : h.OneSlot)
    (hs : h.heap[ref]? = some s) (hsession : h.session id = some s)
    (hlive : s.connAndIP role = some (c, ip)) :
    (h.reapEffects now id).filter (Effect.on c) =
      match h.reapReason (s.snapshot now) now with
      | none => []
      | some reason => goodbye reason (some (c, ip)) := by
  unfold reapEffects
  rw [hsession]
  dsimp only
  cases h.reapReason (s.snapshot now) now with
  | none => rfl
  | some reason =>
      dsimp only
      have hothers : (s.connAndIP role.other).map Prod.fst ≠ some c := by
        intro hother
        obtain ⟨⟨c', ip'⟩, hlive', rfl⟩ := Option.map_eq_some_iff.mp hother
        have heq := hone _ _ c' (connAt_of_live hs hlive) (connAt_of_live hs hlive')
        exact Role.ne_other role (congrArg Slot.role heq)
      have hself : (some (c, ip)).map Prod.fst = some c := rfl
      rw [List.filter_append, filter_goodbye, filter_goodbye]
      cases role with
      | host =>
          rw [if_neg (show ¬ (s.connAndIP .guest).map Prod.fst = some c from hothers), hlive,
            if_pos hself, List.append_nil]
      | guest =>
          rw [if_neg (show ¬ (s.connAndIP .host).map Prod.fst = some c from hothers), hlive,
            if_pos hself, List.nil_append]

/-- What a peer of a listed session gets from the whole scan. -/
theorem filter_reapAll {ids : List String} {role : Role} {c : ConnId} {ip : String} (hf : h.Filed)
    (hone : h.OneSlot) (hnodup : ids.Nodup) (hmem : id ∈ ids)
    (hlookup : h.sessions.lookup id = some ref) (hs : h.heap[ref]? = some s)
    (hlive : s.connAndIP role = some (c, ip)) :
    (ids.flatMap (h.reapEffects now)).filter (Effect.on c) =
      match h.reapReason (s.snapshot now) now with
      | none => []
      | some reason => goodbye reason (some (c, ip)) := by
  obtain ⟨s', hs', hid, hsession⟩ := hf.session hlookup
  obtain rfl := Option.some.inj (hs.symm.trans hs')
  rw [← filter_reapEffects hone hs hsession hlive]
  refine filter_flatMap_unique hnodup hmem fun id' _ hne => ?_
  by_contra htold
  obtain ⟨ref', s', role', ip', hlookup', hs', hlive'⟩ := filter_reapEffects_ne htold
  have heq := hone _ _ c (connAt_of_live hs hlive) (connAt_of_live hs' hlive')
  obtain rfl : ref = ref' := congrArg Slot.ref heq
  have hids := (hf id ref hlookup).symm.trans (hf id' ref hlookup')
  exact hne (Option.some.inj hids).symm

/-- `ReapOnce` on a hub in order. -/
theorem reapOnce_reaped {ids : List String} (hf : h.Filed) (hone : h.OneSlot)
    (hids : ids.Perm h.sessions.keys) (now : Time) :
    Reaped h now (h.ReapOnce now ids).1 (h.ReapOnce now ids).2 := by
  have hnodup : ids.Nodup := hids.nodup_iff.mpr h.sessions.nodupKeys
  have hfiled : (h.sweep now).Filed := hf
  obtain ⟨heffects, hheap, hlookup⟩ := reapAll_spec ids hnodup hfiled now
  -- the scan misses no session of the map
  have hmem : ∀ {id ref}, h.sessions.lookup id = some ref → id ∈ ids := by
    intro id ref hid
    rw [hids.mem_iff]
    exact AList.mem_keys.mp (AList.lookup_isSome.mp (by rw [hid]; rfl))
  have hspec : ∀ {id ref s}, h.sessions.lookup id = some ref → h.heap[ref]? = some s →
      (h.ReapOnce now ids).1.sessions.lookup id =
          (if (h.reapReason (s.snapshot now) now).isSome then none else some ref) ∧
        ∀ role c ip, s.connAndIP role = some (c, ip) →
          (h.ReapOnce now ids).2.filter (Effect.on c) =
            match h.reapReason (s.snapshot now) now with
            | none => []
            | some reason => goodbye reason (some (c, ip)) := by
    intro id ref s hid hs
    obtain ⟨s', hs', -, hsession⟩ := hf.session hid
    obtain rfl := Option.some.inj (hs.symm.trans hs')
    refine ⟨?_, fun role c ip hlive => ?_⟩
    · have hdue : (h.sweep now).dueAt now id = (h.reapReason (s.snapshot now) now).isSome := by
        change h.dueAt now id = _
        rw [dueAt, hsession]
        rfl
      refine (hlookup id).trans ?_
      rw [hdue]
      change (if id ∈ ids ∧ _ then none else h.sessions.lookup id) = _
      rw [hid]
      simp [hmem hid]
    · refine (congrArg (List.filter _) heffects).trans ?_
      exact filter_reapAll hf hone hnodup (hmem hid) hid hs hlive
  refine ⟨hheap, fun id hid => ?_, fun id ref s hid hs hidle hforsaken => ?_,
    fun id ref s hid hs hidle => ?_, fun id ref s hid hs hidle hforsaken => ?_, fun c hne => ?_⟩
  · refine (hlookup id).trans ?_
    split
    next => rfl
    next => exact hid
  · obtain ⟨hmap, htold⟩ := hspec hid hs
    rw [reapReason_none hidle hforsaken] at hmap htold
    exact ⟨hmap, htold⟩
  · obtain ⟨hmap, htold⟩ := hspec hid hs
    rw [reapReason_idle hidle] at hmap htold
    exact ⟨hmap, htold⟩
  · obtain ⟨hmap, htold⟩ := hspec hid hs
    rw [reapReason_forsaken hidle hforsaken] at hmap htold
    exact ⟨hmap, htold⟩
  · have hne' : (ids.flatMap (h.reapEffects now)).filter (Effect.on c) ≠ [] := by
      have := congrArg (List.filter (Effect.on c)) heffects
      exact fun hnil => hne (this.trans hnil)
    rw [List.filter_flatMap, Ne, List.flatMap_eq_nil_iff, not_forall] at hne'
    obtain ⟨id, hid⟩ := hne'
    rw [Classical.not_imp] at hid
    obtain ⟨ref, s, role, ip, hrest⟩ := filter_reapEffects_ne hid.2
    exact ⟨id, ref, s, role, ip, hrest⟩

end Hub

end Quicksend.Server
