import Quicksend.Pake.NoneLost

/-!
# Key confirmation (`verifyConfirmTag`)

A relay that chooses what each side hears: the next message of the other side,
as before, or any message of its own making. Each side's tag is the same
function of its key, so a side that hears its own tag takes it for the peer's.
-/

namespace Quicksend.Pake

/-- The two ends, the key that `pake.sessionKey` gave each side, and whether
its `runPakeExchange` threw `code_mismatch`. -/
structure Exchange (lib : PakePackage) where
  ends : State lib
  derived : Role → Option Bytes
  mismatched : Role → Bool

namespace Exchange

variable {a : PakeArgs} {lib : PakePackage}

/-- Both sides are about to begin; no key has been derived and no mismatch has
been thrown. -/
def init (lib : PakePackage) : Exchange lib where
  ends := Pake.init lib
  derived _ := none
  mismatched _ := false

/-- `forward r`: the relay hands `r` the next message of the other side.
`inject r m`: it hands `r` a message `m`, one that it has seen or not. -/
inductive Act where
  | settle (r : Role) (err : Option String)
  | forward (r : Role)
  | inject (r : Role) (m : PakeMessage)
  deriving DecidableEq

/-- The key that a side derives where `old` becomes `new`. -/
def derives (derived : Option Bytes) : Pc lib → Pc lib → Option Bytes
  | .derivingKey _, .tagging keyBytes => some keyBytes
  | _, _ => derived

/-- Whether a side has thrown `code_mismatch`, read off where its awaited
operation takes it: an operation that does not fail, and behind which the
exchange is over with that error. -/
def mismatches (mismatched : Bool) (err : Option String) : Pc lib → Bool
  | .settled (.error thrown) => mismatched || (err.isNone && thrown == "code_mismatch")
  | _ => mismatched

/-- A step of a side, or a message that the relay makes up; what a side derives
and throws is noted as it happens. -/
def next (a : PakeArgs) (x : Exchange a.lib) : Act → Option (Exchange a.lib)
  | .settle r err => (step a x.ends (.settle r err)).map fun s =>
      { ends := s
        derived := Function.update x.derived r (derives (x.derived r) (x.ends.pc r) (s.pc r))
        mismatched := Function.update x.mismatched r
          (mismatches (x.mismatched r) err (s.pc r)) }
  | .forward r => (step a x.ends (.dispatch r)).map fun s => { x with ends := s }
  | .inject r m =>
      some { x with ends := { x.ends with
        pc := Function.update x.ends.pc r (hear (x.ends.pc r) m) } }

/-- A side has sent the tag of a key. -/
def TagSent (a : PakeArgs) (x : Exchange a.lib) (r : Role) (keyBytes : Bytes) : Prop :=
  .pakeConfirm (toHex (computeConfirmTag a keyBytes)) ∈ x.ends.sent r

/-- The relay has no key: it makes no tag of a derived key that neither side has sent. -/
def Unforged (a : PakeArgs) (x : Exchange a.lib) : Act → Prop
  | .inject _ (.pakeConfirm tagHex) => ∀ r, ∀ keyBytes ∈ x.derived r,
      fromHex tagHex = computeConfirmTag a keyBytes →
        x.TagSent a .host keyBytes ∨ x.TagSent a .guest keyBytes
  | _ => True

/-- The relay hands a side no tag back that only this side has sent. -/
def NotReflected (a : PakeArgs) (x : Exchange a.lib) : Act → Prop
  | .inject r (.pakeConfirm tagHex) => ∀ keyBytes ∈ x.derived r,
      fromHex tagHex = computeConfirmTag a keyBytes → x.TagSent a r keyBytes →
        x.TagSent a r.other keyBytes
  | _ => True

/-- The relay forwards, as far as it acts at all: no message of its own making
comes in. -/
def Act.forwards : Act → Prop
  | .inject _ _ => False
  | .settle _ _ | .forward _ => True

instance (e : Act) : Decidable e.forwards :=
  match e with
  | .inject _ _ => isFalse id
  | .settle _ _ | .forward _ => isTrue trivial

instance (x : Exchange a.lib) (r : Role) (keyBytes : Bytes) : Decidable (x.TagSent a r keyBytes) :=
  inferInstanceAs (Decidable (_ ∈ _))

instance (x : Exchange a.lib) (e : Act) : Decidable (Unforged a x e) :=
  match e with
  | .inject _ (.pakeConfirm tagHex) =>
      decidable_of_iff ((∀ keyBytes ∈ x.derived .host,
          fromHex tagHex = computeConfirmTag a keyBytes →
            x.TagSent a .host keyBytes ∨ x.TagSent a .guest keyBytes) ∧
        ∀ keyBytes ∈ x.derived .guest, fromHex tagHex = computeConfirmTag a keyBytes →
            x.TagSent a .host keyBytes ∨ x.TagSent a .guest keyBytes)
        ⟨fun h r => by cases r <;> [exact h.1; exact h.2], fun h => ⟨h .host, h .guest⟩⟩
  | .inject _ (.pakeMsg _) | .settle .. | .forward _ => isTrue trivial

instance (x : Exchange a.lib) (e : Act) : Decidable (NotReflected a x e) :=
  match e with
  | .inject r (.pakeConfirm tagHex) => inferInstanceAs (Decidable
      (∀ keyBytes ∈ x.derived r, fromHex tagHex = computeConfirmTag a keyBytes →
        x.TagSent a r keyBytes → x.TagSent a r.other keyBytes))
  | .inject _ (.pakeMsg _) | .settle .. | .forward _ => isTrue trivial

/-! ## `bytesEqual` is equality -/

theorem eq_of_foldl_xor (bs cs : Bytes) (diff : UInt8) (hlen : bs.length = cs.length)
    (h : (List.zip bs cs).foldl (fun diff xy => diff ||| (xy.1 ^^^ xy.2)) diff = 0) :
    diff = 0 ∧ bs = cs := by
  induction bs generalizing cs diff with
  | nil =>
      obtain rfl := List.length_eq_zero_iff.mp hlen.symm
      exact ⟨h, rfl⟩
  | cons b bs ih =>
      cases cs with
      | nil => cases hlen
      | cons c cs =>
          obtain ⟨hdiff, rfl⟩ := ih cs _ (Nat.succ.inj hlen) h
          obtain ⟨hdiff, hxor⟩ := UInt8.or_eq_zero_iff.mp hdiff
          exact ⟨hdiff, congrArg (· :: bs) (UInt8.xor_eq_zero_iff.mp hxor)⟩

theorem bytesEqual_iff {bs cs : Bytes} : bytesEqual bs cs = true ↔ bs = cs := by
  refine ⟨fun h => ?_, fun h => h ▸ bytesEqual_self bs⟩
  rw [bytesEqual] at h
  split at h
  next => cases h
  next hlen => exact (eq_of_foldl_xor bs cs 0 (not_not.mp hlen) (eq_of_beq h)).2

theorem verifyConfirmTag_iff {keyBytes tag : Bytes} :
    verifyConfirmTag a keyBytes tag = true ↔ tag = computeConfirmTag a keyBytes :=
  bytesEqual_iff.trans eq_comm

/-! ## What a step can do -/

/-- In this act the relay hands message `m` to side `r`, forwarded or made up. -/
def Delivers (x : Exchange lib) (e : Act) (r : Role) (m : PakeMessage) : Prop :=
  e = .forward r ∧ (x.ends.sent r.other)[x.ends.seen r]? = some m ∨ e = .inject r m

/-- The key that a side has got, from the moment it is derived to the outcome. -/
def keyOf : Pc lib → Option Bytes
  | .tagging keyBytes | .awaitingConfirm keyBytes | .verifying keyBytes _ | .freeing keyBytes _
  | .settled (.ok keyBytes) => some keyBytes
  | _ => none

/-- The side may still derive a key: it has not come to one and has not failed. -/
def underived : Pc lib → Bool
  | .initializing | .awaitingMsg _ | .updating _ _ | .derivingKey _ => true
  | _ => false

/-- What one step can do to the side that it is about; the other is left alone. -/
inductive Moved (a : PakeArgs) (x : Exchange a.lib) (e : Act) (y : Exchange a.lib) : Prop where
  | resumed (r : Role) (pc : Pc a.lib) (out : List PakeMessage)
      (h : Resumed a r (x.ends.pc r) pc out)
      (hpc : y.ends.pc = Function.update x.ends.pc r pc)
      (hsent : y.ends.sent = Function.update x.ends.sent r (x.ends.sent r ++ out))
      (hderived : y.derived =
        Function.update x.derived r (derives (x.derived r) (x.ends.pc r) pc))
      (hmismatched : y.mismatched =
        Function.update x.mismatched r (mismatches (x.mismatched r) none pc))
  | failed (r : Role) (err : String)
      (hpc : y.ends.pc = Function.update x.ends.pc r (.settled (.error err)))
      (hsent : y.ends.sent = x.ends.sent) (hderived : y.derived = x.derived)
      (hmismatched : ∀ q, y.mismatched q = true →
        x.mismatched q = true ∨ q = r ∧ underived (x.ends.pc r) = true)
  | delivered (r : Role) (m : PakeMessage) (h : x.Delivers e r m)
      (hpc : y.ends.pc = Function.update x.ends.pc r (hear (x.ends.pc r) m))
      (hsent : y.ends.sent = x.ends.sent) (hderived : y.derived = x.derived)
      (hmismatched : y.mismatched = x.mismatched)

theorem derives_error (derived : Option Bytes) (pc : Pc lib) (err : String) :
    derives derived pc (.settled (.error err)) = derived := by
  cases pc <;> rfl

theorem mismatches_some (mismatched : Bool) (err : String) (pc : Pc lib) :
    mismatches mismatched (some err) pc = mismatched := by
  cases pc with
  | settled outcome => cases outcome <;> simp [mismatches]
  | _ => rfl

/-- Only the package's own operations can fail by themselves. -/
theorem underived_of_error {r : Role} {pc : Pc a.lib} {err : String}
    (h : resume a r pc = some (.error err)) : underived pc = true := by
  cases pc with
  | initializing | updating | derivingKey => rfl
  | _ => cases h

theorem next_moved {x y : Exchange a.lib} {e : Act} (h : next a x e = some y) : Moved a x e y := by
  cases e with
  | settle r err =>
      obtain ⟨s, hs, rfl⟩ := Option.map_eq_some_iff.mp h
      cases step_spec hs with
      | resumed _ pc out hresumed =>
          refine .resumed r pc out hresumed rfl rfl ?_ ?_ <;>
            (dsimp only; rw [Function.update_self])
      | failed _ _ err' res hres herr =>
          refine .failed r err' rfl rfl ?_ fun q hq => ?_
          · dsimp only
            rw [Function.update_self, derives_error, Function.update_eq_self]
          · dsimp only at hq
            rw [Function.update_self] at hq
            cases err with
            | some err =>
                -- the failure is not the exchange's own
                rw [mismatches_some, Function.update_eq_self] at hq
                exact .inl hq
            | none =>
                obtain rfl : res = .error err' := herr
                by_cases hqr : q = r
                · exact .inr ⟨hqr, underived_of_error hres⟩
                · rw [Function.update_of_ne hqr] at hq
                  exact .inl hq
  | forward r =>
      obtain ⟨s, hs, rfl⟩ := Option.map_eq_some_iff.mp h
      cases step_spec hs with
      | dispatched _ m hm => exact .delivered r m (.inl ⟨rfl, hm⟩) rfl rfl rfl rfl
  | inject r m =>
      obtain rfl := Option.some.inj h
      exact .delivered r m (.inr rfl) rfl rfl rfl rfl

/-! ## Keys and tags -/

/-- `derived` is what the sides have derived, and the tags sent are those of it. -/
structure Kept (a : PakeArgs) (x : Exchange a.lib) : Prop where
  derived : ∀ r keyBytes, keyOf (x.ends.pc r) = some keyBytes → x.derived r = some keyBytes
  fresh : ∀ r, underived (x.ends.pc r) = true → x.derived r = none
  tags : ∀ r tagHex, .pakeConfirm tagHex ∈ x.ends.sent r →
    ∃ keyBytes ∈ x.derived r, tagHex = toHex (computeConfirmTag a keyBytes)

theorem kept_init : Kept a (init a.lib) where
  derived _ _ h := by cases h
  fresh _ _ := rfl
  tags _ _ h := by cases h

theorem keyOf_hear (pc : Pc lib) (m : PakeMessage) : keyOf (hear pc m) = keyOf pc := by
  cases pc <;> cases m <;> rfl

theorem underived_hear (pc : Pc lib) (m : PakeMessage) : underived (hear pc m) = underived pc := by
  cases pc <;> cases m <;> rfl

/-- An operation derives the side's key, or its key stays as it is. -/
theorem derives_resumed {r : Role} {pc pc' : Pc a.lib} {out : List PakeMessage}
    (h : Resumed a r pc pc' out) (derived : Option Bytes) :
    (underived pc = true ∧ ∃ keyBytes, keyOf pc' = some keyBytes ∧ underived pc' = false ∧
        derives derived pc pc' = some keyBytes) ∨
      derives derived pc pc' = derived ∧
        (∀ keyBytes, keyOf pc' = some keyBytes → keyOf pc = some keyBytes) ∧
        (underived pc' = true → underived pc = true) := by
  cases h with
  | key p keyBytes hp => exact .inl ⟨rfl, keyBytes, rfl, rfl, rfl⟩
  | free keyBytes ok => cases ok <;> exact .inr ⟨rfl, by simp [keyOf], by simp [underived]⟩
  | init | update | tag | verify => exact .inr ⟨rfl, by simp [keyOf], by simp [underived]⟩

/-- A side sends no tag but that of its key. -/
theorem tags_resumed {r : Role} {pc pc' : Pc a.lib} {out : List PakeMessage} {tagHex : JSString}
    (h : Resumed a r pc pc' out) (hm : .pakeConfirm tagHex ∈ out) :
    ∃ keyBytes, keyOf pc = some keyBytes ∧ tagHex = toHex (computeConfirmTag a keyBytes) := by
  cases h with
  | tag keyBytes =>
      obtain rfl := PakeMessage.pakeConfirm.inj (List.mem_singleton.mp hm)
      exact ⟨keyBytes, rfl, rfl⟩
  | init | update => cases r <;> simp [Role.pakeRole] at hm
  | key | verify | free => cases hm

/-- What was derived stays. -/
theorem Moved.derived_mono {x y : Exchange a.lib} {e : Act} (h : Moved a x e y) (hx : Kept a x)
    {r : Role} {keyBytes : Bytes} (hkey : x.derived r = some keyBytes) :
    y.derived r = some keyBytes := by
  cases h with
  | resumed r' pc out h hpc hsent hderived =>
      rw [hderived]
      rcases Role.eq_or_eq_other r' r with rfl | rfl
      · rw [Function.update_self]
        rcases derives_resumed h (x.derived r) with ⟨hnone, -⟩ | ⟨hsame, -⟩
        · rw [hx.fresh r hnone] at hkey
          cases hkey
        · rw [hsame, hkey]
      · rw [Function.update_of_ne (Role.other_ne r')]
        exact hkey
  | failed _ _ _ _ hderived => rw [hderived, hkey]
  | delivered _ _ _ _ _ hderived => rw [hderived, hkey]

theorem Moved.kept {x y : Exchange a.lib} {e : Act} (h : Moved a x e y) (hx : Kept a x) :
    Kept a y := by
  have hmono : ∀ r keyBytes, x.derived r = some keyBytes → y.derived r = some keyBytes :=
    fun _ _ => h.derived_mono hx
  cases h with
  | resumed r pc out h hpc hsent hderived =>
      have hown : y.derived r = derives (x.derived r) (x.ends.pc r) pc := by
        rw [hderived, Function.update_self]
      refine ⟨fun q keyBytes hkey => ?_, fun q hfresh => ?_, fun q tagHex hm => ?_⟩
      · rw [hpc] at hkey
        rcases Role.eq_or_eq_other r q with rfl | rfl
        · rw [Function.update_self] at hkey
          rw [hown]
          -- the operation derived the key, or the side had it already
          rcases derives_resumed h (x.derived q) with ⟨-, key, hkey', -, hd⟩ | ⟨hd, hback, -⟩
          · rw [hd, ← hkey', hkey]
          · rw [hd]
            exact hx.derived q keyBytes (hback keyBytes hkey)
        · rw [Function.update_of_ne (Role.other_ne r)] at hkey
          exact hmono _ _ (hx.derived _ keyBytes hkey)
      · rw [hpc] at hfresh
        rcases Role.eq_or_eq_other r q with rfl | rfl
        · rw [Function.update_self] at hfresh
          rw [hown]
          rcases derives_resumed h (x.derived q) with ⟨-, key, -, hnot, -⟩ | ⟨hd, -, hback⟩
          · rw [hnot] at hfresh
            cases hfresh
          · rw [hd]
            exact hx.fresh q (hback hfresh)
        · rw [Function.update_of_ne (Role.other_ne r)] at hfresh
          rw [hderived, Function.update_of_ne (Role.other_ne r)]
          exact hx.fresh _ hfresh
      · rw [hsent] at hm
        rcases Role.eq_or_eq_other r q with rfl | rfl
        · rw [Function.update_self] at hm
          rcases List.mem_append.mp hm with hold | hnew
          · obtain ⟨key, hkey, heq⟩ := hx.tags q tagHex hold
            exact ⟨key, hmono _ _ hkey, heq⟩
          · -- a tag is made after the key was derived, and of that key
            obtain ⟨key, hkey, heq⟩ := tags_resumed h hnew
            exact ⟨key, hmono _ _ (hx.derived q key hkey), heq⟩
        · rw [Function.update_of_ne (Role.other_ne r)] at hm
          obtain ⟨key, hkey, heq⟩ := hx.tags _ tagHex hm
          exact ⟨key, hmono _ _ hkey, heq⟩
  | failed r err hpc hsent hderived =>
      refine ⟨fun q keyBytes hkey => ?_, fun q hfresh => ?_, hsent ▸ hderived ▸ hx.tags⟩
      · rw [hpc] at hkey
        rcases Role.eq_or_eq_other r q with rfl | rfl
        · rw [Function.update_self] at hkey
          cases hkey
        · rw [Function.update_of_ne (Role.other_ne r)] at hkey
          exact hmono _ _ (hx.derived _ keyBytes hkey)
      · rw [hpc] at hfresh
        rw [hderived]
        rcases Role.eq_or_eq_other r q with rfl | rfl
        · rw [Function.update_self] at hfresh
          cases hfresh
        · rw [Function.update_of_ne (Role.other_ne r)] at hfresh
          exact hx.fresh _ hfresh
  | delivered r m h hpc hsent hderived =>
      -- a message heard changes no key
      have hsame : ∀ q, keyOf (y.ends.pc q) = keyOf (x.ends.pc q) ∧
          underived (y.ends.pc q) = underived (x.ends.pc q) := by
        intro q
        rw [hpc]
        rcases Role.eq_or_eq_other r q with rfl | rfl
        · rw [Function.update_self]
          exact ⟨keyOf_hear _ m, underived_hear _ m⟩
        · rw [Function.update_of_ne (Role.other_ne r)]
          exact ⟨rfl, rfl⟩
      refine ⟨fun q keyBytes hkey => ?_, fun q hfresh => ?_, hsent ▸ hderived ▸ hx.tags⟩
      · rw [(hsame q).1] at hkey
        exact hmono _ _ (hx.derived q keyBytes hkey)
      · rw [(hsame q).2] at hfresh
        rw [hderived]
        exact hx.fresh q hfresh

/-! ## What a side was told -/

/-- What a side takes for the peer's tag was `told`, of the side's own key and the tag. -/
def Told (a : PakeArgs) (told : Bytes → Bytes → Prop) : Pc lib → Prop
  | .verifying keyBytes peerTag => told keyBytes peerTag
  | .freeing keyBytes ok => ∃ peerTag, told keyBytes peerTag ∧
      ok = verifyConfirmTag a keyBytes peerTag
  | .settled (.ok keyBytes) => told keyBytes (computeConfirmTag a keyBytes)
  | _ => True

/-- A side that has thrown is done. It has no key, or has verified with its key
what it was told. -/
def Thrown (a : PakeArgs) (told : Bytes → Bytes → Prop) (derived : Option Bytes) : Pc lib → Prop
  | .settled (.error _) => derived = none ∨ ∃ keyBytes, derived = some keyBytes ∧
      ∃ peerTag, told keyBytes peerTag ∧ verifyConfirmTag a keyBytes peerTag = false
  | _ => False

/-- `told` is also of the key that the peer derived. -/
structure Informed (a : PakeArgs) (told : Option Bytes → Bytes → Bytes → Prop)
    (x : Exchange a.lib) : Prop where
  kept : Kept a x
  heard : ∀ r, Told a (told (x.derived r.other)) (x.ends.pc r)
  mismatched : ∀ r, x.mismatched r = true →
    Thrown a (told (x.derived r.other)) (x.derived r) (x.ends.pc r)

theorem Told.imp {told told' : Bytes → Bytes → Prop} {pc : Pc lib}
    (himp : ∀ keyBytes tag, told keyBytes tag → told' keyBytes tag) (h : Told a told pc) :
    Told a told' pc := by
  cases pc with
  | verifying keyBytes peerTag => exact himp _ _ h
  | freeing keyBytes ok =>
      obtain ⟨peerTag, h, hok⟩ := h
      exact ⟨peerTag, himp _ _ h, hok⟩
  | settled outcome =>
      cases outcome with
      | ok keyBytes => exact himp _ _ h
      | error => trivial
  | _ => trivial

theorem Thrown.imp {told told' : Bytes → Bytes → Prop} {derived : Option Bytes} {pc : Pc lib}
    (himp : ∀ keyBytes tag, told keyBytes tag → told' keyBytes tag)
    (h : Thrown a told derived pc) : Thrown a told' derived pc := by
  cases pc with
  | settled outcome =>
      cases outcome with
      | ok => exact h
      | error =>
          rcases h with hnone | ⟨keyBytes, hkey, peerTag, ht, hv⟩
          · exact .inl hnone
          · exact .inr ⟨keyBytes, hkey, peerTag, himp _ _ ht, hv⟩
  | _ => exact h

/-- It stays so, whatever the side hears or fails with. -/
theorem Thrown.hear {told : Bytes → Bytes → Prop} {derived : Option Bytes} {pc : Pc lib}
    (h : Thrown a told derived pc) (m : PakeMessage) : Thrown a told derived (hear pc m) := by
  cases pc with
  | settled => exact h
  | _ => exact h.elim

theorem Thrown.failed {told : Bytes → Bytes → Prop} {derived : Option Bytes} {pc : Pc lib}
    (h : Thrown a told derived pc) (err : String) :
    Thrown a told derived (.settled (.error err) : Pc lib) := by
  cases pc with
  | settled outcome =>
      cases outcome with
      | ok => exact h.elim
      | error => exact h
  | _ => exact h.elim

/-- The verification of a side that has a key. -/
theorem Thrown.of_derived {told : Bytes → Bytes → Prop} {derived : Option Bytes} {pc : Pc lib}
    {key : Bytes} (h : Thrown a told derived pc) (hkey : derived = some key) :
    ∃ keyBytes, derived = some keyBytes ∧ ∃ peerTag, told keyBytes peerTag ∧
      verifyConfirmTag a keyBytes peerTag = false := by
  cases pc with
  | settled outcome =>
      cases outcome with
      | ok => exact h.elim
      | error =>
          rcases h with hnone | hsome
          · rw [hkey] at hnone
            cases hnone
          · exact hsome
  | _ => exact h.elim

theorem Thrown.not_resumed {told : Bytes → Bytes → Prop} {derived : Option Bytes} {r : Role}
    {pc pc' : Pc a.lib} {out : List PakeMessage} (h : Thrown a told derived pc) :
    ¬ Resumed a r pc pc' out := by
  intro hresumed
  cases hresumed <;> exact h

/-- An operation tells a side nothing. -/
theorem Told.resumed {told : Bytes → Bytes → Prop} {r : Role} {pc pc' : Pc a.lib}
    {out : List PakeMessage} (hresumed : Resumed a r pc pc' out) (h : Told a told pc) :
    Told a told pc' := by
  cases hresumed with
  | verify keyBytes peerTag => exact ⟨peerTag, h, rfl⟩
  | free keyBytes ok =>
      cases ok with
      | false => trivial
      | true =>
          obtain ⟨peerTag, h, hok⟩ := h
          rw [verifyConfirmTag_iff.mp hok.symm] at h
          exact h
  | init | update | key | tag => trivial

theorem Told.hear {told : Bytes → Bytes → Prop} {pc : Pc lib} {m : PakeMessage}
    (h : Told a told pc) (hm : ∀ keyBytes tagHex, pc = .awaitingConfirm keyBytes →
      m = .pakeConfirm tagHex → told keyBytes (fromHex tagHex)) : Told a told (hear pc m) := by
  cases pc with
  | awaitingConfirm keyBytes =>
      cases m with
      | pakeMsg => trivial
      | pakeConfirm tagHex => exact hm keyBytes tagHex rfl rfl
  | awaitingMsg => cases m <;> trivial
  | _ => exact h

/-- Of the operations that succeed, it is the last one behind which a side
throws, when its verification has failed. -/
theorem thrown_of_mismatches {told : Bytes → Bytes → Prop} {derived : Option Bytes} {r : Role}
    {pc pc' : Pc a.lib} {out : List PakeMessage} (h : Resumed a r pc pc' out)
    (hmis : mismatches false none pc' = true) (htold : Told a told pc)
    (hkey : ∀ keyBytes, keyOf pc = some keyBytes → derived = some keyBytes) :
    Thrown a told (derives derived pc pc') pc' := by
  cases h with
  | free keyBytes ok =>
      cases ok with
      | true => cases hmis
      | false =>
          obtain ⟨peerTag, ht, hv⟩ := htold
          exact .inr ⟨keyBytes, hkey keyBytes rfl, peerTag, ht, hv.symm⟩
  | _ => cases hmis

theorem informed_init (told : Option Bytes → Bytes → Bytes → Prop) :
    Informed a told (init a.lib) where
  kept := kept_init
  heard _ := trivial
  mismatched _ h := by cases h

theorem Moved.informed {told : Option Bytes → Bytes → Bytes → Prop}
    (hmono : ∀ key keyBytes tag, told none keyBytes tag → told (some key) keyBytes tag)
    {x y : Exchange a.lib} {e : Act} (h : Moved a x e y) (hx : Informed a told x)
    (hm : ∀ r keyBytes tagHex, x.ends.pc r = .awaitingConfirm keyBytes →
      x.Delivers e r (.pakeConfirm tagHex) → told (x.derived r.other) keyBytes (fromHex tagHex)) :
    Informed a told y := by
  have hkept := h.kept hx.kept
  have hderived : ∀ r keyBytes, x.derived r = some keyBytes → y.derived r = some keyBytes :=
    fun r keyBytes => h.derived_mono hx.kept
  -- what a side was told stays true as the peer comes to have a key
  have htold : ∀ r keyBytes tag, told (x.derived r) keyBytes tag →
      told (y.derived r) keyBytes tag := by
    intro r keyBytes tag ht
    cases hold : x.derived r with
    | some key => rwa [hderived r key hold, ← hold]
    | none =>
        rw [hold] at ht
        cases y.derived r with
        | none => exact ht
        | some key => exact hmono key keyBytes tag ht
  have hheard : ∀ r, Told a (told (y.derived r.other)) (x.ends.pc r) :=
    fun r => (hx.heard r).imp (htold r.other)
  have hthrown : ∀ r, x.mismatched r = true →
      Thrown a (told (y.derived r.other)) (x.derived r) (x.ends.pc r) :=
    fun r hr => (hx.mismatched r hr).imp (htold r.other)
  cases h with
  | resumed r pc out h hpc hsent hd hmis =>
      refine ⟨hkept, fun q => ?_, fun q hq => ?_⟩
      · rw [hpc]
        rcases Role.eq_or_eq_other r q with rfl | rfl
        · rw [Function.update_self]
          exact (hheard q).resumed h
        · rw [Function.update_of_ne (Role.other_ne r)]
          exact hheard r.other
      · rw [hmis] at hq
        rcases Role.eq_or_eq_other r q with rfl | rfl
        · rw [Function.update_self] at hq
          cases hold : x.mismatched q with
          | true => exact absurd h (hthrown q hold).not_resumed
          | false =>
              rw [hold] at hq
              rw [hpc, hd, Function.update_self, Function.update_self,
                Function.update_of_ne (Role.other_ne q)]
              exact thrown_of_mismatches h hq (hx.heard q) (hx.kept.derived q)
        · rw [Function.update_of_ne (Role.other_ne r)] at hq
          rw [hpc, Function.update_of_ne (Role.other_ne r)]
          have hsame : y.derived r.other = x.derived r.other := by
            rw [hd, Function.update_of_ne (Role.other_ne r)]
          rw [hsame]
          exact hthrown _ hq
  | failed r err hpc hsent hd hmis =>
      refine ⟨hkept, fun q => ?_, fun q hq => ?_⟩
      · rw [hpc]
        rcases Role.eq_or_eq_other r q with rfl | rfl
        · rw [Function.update_self]
          trivial
        · rw [Function.update_of_ne (Role.other_ne r)]
          exact hheard r.other
      · have hsame : y.derived q = x.derived q := by rw [hd]
        rw [hsame, hpc]
        rcases Role.eq_or_eq_other r q with rfl | rfl
        · rw [Function.update_self]
          rcases hmis q hq with hold | ⟨-, hunder⟩
          · exact (hthrown q hold).failed err
          · exact .inl (hx.kept.fresh q hunder)
        · rw [Function.update_of_ne (Role.other_ne r)]
          rcases hmis r.other hq with hold | ⟨hown, -⟩
          · exact hthrown r.other hold
          · exact absurd hown (Role.other_ne r)
  | delivered r m h hpc hsent hd hmis =>
      refine ⟨hkept, fun q => ?_, fun q hq => ?_⟩
      · rw [hpc]
        rcases Role.eq_or_eq_other r q with rfl | rfl
        · rw [Function.update_self]
          -- only a side that awaits the confirmation takes what it hears for a tag
          refine (hheard q).hear fun keyBytes tagHex hawaits hmsg => ?_
          subst hmsg
          exact htold _ _ _ (hm q keyBytes tagHex hawaits h)
        · rw [Function.update_of_ne (Role.other_ne r)]
          exact hheard r.other
      · have hsame : y.derived q = x.derived q := by rw [hd]
        rw [hmis] at hq
        rw [hsame, hpc]
        rcases Role.eq_or_eq_other r q with rfl | rfl
        · rw [Function.update_self]
          exact (hthrown q hq).hear m
        · rw [Function.update_of_ne (Role.other_ne r)]
          exact hthrown r.other hq

/-! ## Both halves of the confirmation -/

/-- A tag of the side's own key has been made by the peer. -/
def Shared (a : PakeArgs) (derived : Option Bytes) (keyBytes tag : Bytes) : Prop :=
  tag = computeConfirmTag a keyBytes → derived = some keyBytes

/-- The tag is that of the peer's key. -/
def Honest (a : PakeArgs) (derived : Option Bytes) (_ tag : Bytes) : Prop :=
  ∃ key, derived = some key ∧ tag = computeConfirmTag a key

/-- Tags tell keys apart: no two keys have the same confirmation tag. -/
def TagsDiffer (a : PakeArgs) : Prop := ∀ key key',
  computeConfirmTag a key = computeConfirmTag a key' → key = key'

/-- Who has sent a tag has derived its key. -/
theorem Kept.of_tagSent (ha : TagsDiffer a) {x : Exchange a.lib} (hx : Kept a x) {r : Role}
    {keyBytes : Bytes} (h : x.TagSent a r keyBytes) : x.derived r = some keyBytes := by
  obtain ⟨key, hkey, heq⟩ := hx.tags r _ h
  rw [ha keyBytes key (toHex_inj heq)]
  exact hkey

/-- What the other side has sent is the tag of its key. -/
theorem Kept.honest {x : Exchange a.lib} (hx : Kept a x) {r : Role} {tagHex : JSString}
    (h : .pakeConfirm tagHex ∈ x.ends.sent r) (keyBytes : Bytes) :
    Honest a (x.derived r) keyBytes (fromHex tagHex) := by
  obtain ⟨key, hkey, rfl⟩ := hx.tags r _ h
  exact ⟨key, hkey, fromHex_toHex _⟩

theorem shared_step (ha : TagsDiffer a) {x y : Exchange a.lib} {e : Act}
    (hx : Informed a (Shared a) x) (hunforged : Unforged a x e) (hreflected : NotReflected a x e)
    (h : next a x e = some y) : Informed a (Shared a) y := by
  refine (next_moved h).informed (fun key keyBytes tag hshared htag => ?_) hx
    fun r keyBytes tagHex hpc hdelivers htag => ?_
  · cases hshared htag
  · have hkey : x.derived r = some keyBytes := hx.kept.derived r keyBytes (by rw [hpc]; rfl)
    rcases hdelivers with ⟨rfl, hm⟩ | rfl
    · obtain ⟨key, hother, heq⟩ := hx.kept.honest (List.mem_of_getElem? hm) keyBytes
      rw [hother, ha key keyBytes (heq.symm.trans htag)]
    · have hsent : x.TagSent a r keyBytes ∨ x.TagSent a r.other keyBytes := by
        have := hunforged r keyBytes hkey htag
        cases r with
        | host => exact this
        | guest => exact this.symm
      rcases hsent with hown | hpeer
      · exact hx.kept.of_tagSent ha (hreflected keyBytes hkey htag hown)
      · exact hx.kept.of_tagSent ha hpeer

theorem honest_step {x y : Exchange a.lib} {e : Act} (hx : Informed a (Honest a) x)
    (hforwards : e.forwards) (h : next a x e = some y) : Informed a (Honest a) y := by
  refine (next_moved h).informed (fun key keyBytes tag hhonest => ?_) hx
    fun r keyBytes tagHex hpc hdelivers => ?_
  · obtain ⟨key, hkey, -⟩ := hhonest
    cases hkey
  · rcases hdelivers with ⟨rfl, hm⟩ | rfl
    · exact hx.kept.honest (List.mem_of_getElem? hm) keyBytes
    · exact absurd hforwards id

/-- A relay without keys that hands no side its own tag back makes a side
return a key only if the other side has derived it. A relay that forwards in
order never has one side return a key and the other throw `code_mismatch`. -/
theorem key_confirmed (a : PakeArgs) (ha : TagsDiffer a) (es : List Act) (x : Exchange a.lib)
    (hrun : Transition.run (next a) (init a.lib) es = some x) :
    (Transition.Guarded (next a) (Unforged a) (init a.lib) es →
      Transition.Guarded (next a) (NotReflected a) (init a.lib) es →
      ∀ r keyBytes, x.ends.pc r = .settled (.ok keyBytes) →
        x.derived r.other = some keyBytes) ∧
    ((∀ e ∈ es, e.forwards) → ∀ r keyBytes, x.ends.pc r = .settled (.ok keyBytes) →
      x.mismatched r.other = false) := by
  refine ⟨fun hunforged hreflected r keyBytes hpc => ?_, fun hforwards r keyBytes hpc => ?_⟩
  · have hx : Informed a (Shared a) x := (hunforged.and hreflected).invariant
      (fun _ _ _ hx hg h => shared_step ha hx hg.1 hg.2 h) (informed_init _) hrun
    exact (hpc ▸ hx.heard r) rfl
  · have hguard : Transition.Guarded (next a) (fun _ e => e.forwards) (init a.lib) es :=
      .of_labels hforwards _
    have hx : Informed a (Honest a) x := hguard.invariant
      (fun _ _ _ hx hg h => honest_step hx hg h) (informed_init _) hrun
    obtain ⟨key, hkey, heq⟩ := hpc ▸ hx.heard r
    have hown : x.derived r = some keyBytes := hx.kept.derived r keyBytes (by rw [hpc]; rfl)
    by_contra hmis
    have hthrown := hx.mismatched r.other (Bool.not_eq_false _ ▸ hmis)
    obtain ⟨keyBytes', hkey', peerTag, ⟨own, hown', rfl⟩, hv⟩ := hthrown.of_derived hkey
    rw [Role.other_other, hown] at hown'
    obtain rfl := Option.some.inj hown'
    obtain rfl : key = keyBytes' := Option.some.inj (hkey.symm.trans hkey')
    rw [verifyConfirmTag_iff.mpr heq] at hv
    cases hv

/-! ## The tag that comes back -/

/-- The host has typed one code, the guest another. -/
def twoCodes : PakeArgs := { labelArgs with
  code
    | .host => [4, 2]
    | .guest => [4, 3] }

theorem tagsDiffer_labels {code : Role → JSString} : TagsDiffer { labelArgs with code } :=
  fun _ _ h => List.append_cancel_right h

/-- The run in which the relay forwards all messages in order, and both sides get
their key. -/
def honestActs : List Act :=
  [.settle .host none, .settle .guest none, .forward .guest, .settle .guest none, .forward .host,
    .settle .host none, .settle .guest none, .settle .host none, .settle .guest none,
    .settle .host none, .forward .host, .forward .guest, .settle .host none, .settle .guest none,
    .settle .host none, .settle .guest none]

theorem key_confirmed_label : ∃ x keyBytes,
    Transition.run (next labelArgs) (init labelPake) honestActs = some x ∧
      x.ends.pc .host = .settled (.ok keyBytes) ∧ x.derived .guest = some keyBytes ∧
      x.mismatched .guest = false := by
  have hrun : Transition.run (next labelArgs) (init labelPake) honestActs = some _ := rfl
  obtain ⟨hshared, hhonest⟩ := key_confirmed labelArgs tagsDiffer_labels honestActs _ hrun
  exact ⟨_, _, hrun, rfl, hshared (by decide) (by decide) .host _ rfl,
    hhonest (by decide) .host _ rfl⟩

/-- The relay hands the host its own tag: the host returns its key, which is
not the one that the guest derived. -/
theorem own_tag_confirms : TagsDiffer twoCodes ∧ ∃ es x keyBytes,
    Transition.run (next twoCodes) (init twoCodes.lib) es = some x ∧
      Transition.Guarded (next twoCodes) (Unforged twoCodes) (init twoCodes.lib) es ∧
      x.ends.pc .host = .settled (.ok keyBytes) ∧ x.derived .guest ≠ some keyBytes := by
  refine ⟨tagsDiffer_labels, [.settle .host none, .settle .guest none, .forward .guest,
    .settle .guest none, .settle .guest none, .forward .host, .settle .host none,
    .settle .host none, .settle .host none,
    .inject .host (.pakeConfirm (toHex (computeConfirmTag twoCodes [4, 2, 1, 2]))),
    .settle .host none, .settle .host none], _, _, rfl, ?_, rfl, ?_⟩
  · decide
  · decide

end Exchange

end Quicksend.Pake
