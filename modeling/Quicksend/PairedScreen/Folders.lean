import Quicksend.PairedScreen.InFlight
import Quicksend.Lib.Tally
import Quicksend.Filenames

/-!
# The folder that received files are written to

A receiving screen has a folder once the user has chosen one, and the names it used
since. Here the paired screen runs with these: when a receiver calls `onFileStart`,
its screen calls `getFileHandle`. A directory outlives the screens, and the names
they know of.
-/

namespace Quicksend.PairedScreen

open Transition (run Guarded)

/-- A directory, by whichever handle it is reached. -/
abbrev Directory := Nat

/-- How far `createFileSink` got with a file in a chosen folder: awaited, opened,
or turned down by the browser. -/
inductive FileStatus where
  | pending
  | opened
  | failed
  deriving DecidableEq

/-- A call of `getFileHandle`, with the `createWritable` after it. -/
structure FileCall where
  dir : Directory
  name : JSString
  status : FileStatus
  deriving DecidableEq

/-- The variables of `renderReceiverTransfer` for its folder: the handle, the
names given out, and the file being opened. -/
structure Folder where
  saveDirHandle : Option Directory
  usedNames : Finset JSString
  /-- The call that `createFileSink` has made for the file that starts. -/
  opening : Option Nat

/-- Nothing is chosen, so no name is in use and no file is being opened in a
folder. -/
def Folder.init : Folder := { saveDirHandle := none, usedNames := ∅, opening := none }

/-- The paired screen with, for each render, the folder it saves into, and every
call that created a file in a folder. -/
structure Saving where
  screen : PairedScreen
  /-- By render. -/
  folders : Nat → Folder
  fileCalls : List FileCall

namespace Saving

/-- A page just loaded: no render has a folder, and no file was created. -/
def init : Saving := { screen := PairedScreen.init, folders := fun _ => Folder.init, fileCalls := [] }

/-- `chooses` is the end of `chooseSaveDirectory` with a directory, `opens` that of a
`getFileHandle`. -/
inductive Event where
  | screen (e : PairedScreen.Event)
  | chooses (i : Nat) (dir : Directory)
  | opens (k : Nat) (ok : Bool)

/-- Put `f` in the place of the folder of render `i`; the screen and the other
renders keep what they have. -/
def setFolder (x : Saving) (i : Nat) (f : Folder) : Saving :=
  { x with folders := Function.update x.folders i f }

/-- `onFileStart` up to the `getFileHandle` of `createFileSink`: with a folder
chosen, the name is deduplicated and a file asked for. -/
def onFileStart (x : Saving) (p : Nat × JSString) : Saving :=
  let f := x.folders p.1
  match f.saveDirHandle with
  | some dir =>
      match dedupeFilename (f.usedNames.card + 1) f.usedNames p.2 with
      | some (saveName, usedNames) =>
          { x.setFolder p.1 { f with usedNames := usedNames, opening := some x.fileCalls.length }
            with fileCalls := x.fileCalls ++ [⟨dir, saveName, .pending⟩] }
      -- the search for a name always ends
      | none => x
  | none => x

/-- The calls of `onFileStart` that the receiver behind a render has made meanwhile. -/
def startedBy (x y : PairedScreen) (i : Nat) : List (Nat × JSString) :=
  match x.handle i, y.handle i with
  | some (.receiver ui), some (.receiver ui') =>
      (ui'.log.drop ui.log.length).filterMap fun a =>
        match a with
        | .onFileStart _ info => some (i, info.name)
        | _ => none
  | _, _ => []

/-- The files whose `onFileStart` was called by the step from `x` to `y`, each
with the render it was called in. -/
def started (x y : PairedScreen) : List (Nat × JSString) :=
  (List.range y.renders.length).flatMap (startedBy x y)

/-- A sink is not ready while its call is pending, and is a file if that has opened
one. -/
def sinkWaits (x : Saving) : PairedScreen.Event → Bool
  | .receiver i (.sinkReady mode) =>
      match ((x.folders i).opening.bind fun k => x.fileCalls[k]?).map FileCall.status with
      | some .pending => true
      | some .opened => mode ≠ .fsa
      | some .failed | none => false
  | _ => false

/-- When the sink of render `i` is ready, its folder has no file being opened any
more. -/
def settleSink (x : Saving) : PairedScreen.Event → Saving
  | .receiver i (.sinkReady _) => x.setFolder i { x.folders i with opening := none }
  | _ => x

/-- A step of the screen, where a sink in a folder has to wait for its file; a
folder chosen; or a file opened or turned down. -/
def step (w : WebCrypto) (codec : MetaCodec) (x : Saving) (e : Event) : Option Saving :=
  match e with
  | .screen e =>
      if x.sinkWaits e then none
      else (PairedScreen.step w codec x.screen e).map fun r =>
        (started x.screen r.1).foldl onFileStart { x.settleSink e with screen := r.1 }
  | .chooses i dir =>
      match x.screen.handle i with
      | some (.receiver _) =>
          some (x.setFolder i { x.folders i with saveDirHandle := some dir, usedNames := ∅ })
      | some (.sender _ _) | none => none
  | .opens k ok =>
      match (x.fileCalls[k]?).map FileCall.status with
      | some .pending =>
          some { x with fileCalls := x.fileCalls.modify k fun c =>
            { c with status := if ok then .opened else .failed } }
      | some .opened | some .failed | none => none

/-- No two files are written under one name in one directory. -/
def NoOverwrite (x : Saving) : Prop :=
  ∀ (j k : Nat) (cj ck : FileCall), x.fileCalls[j]? = some cj → x.fileCalls[k]? = some ck →
    cj.status = .opened → ck.status = .opened → cj.dir = ck.dir → cj.name = ck.name → j = k

/-- A folder that is chosen is new: no file was opened in it, or is being opened, and
no other screen has it. -/
def NewFolder (x : Saving) : Event → Prop
  | .chooses i dir => (∀ c ∈ x.fileCalls, c.dir = dir → c.status = .failed) ∧
      ∀ j < x.screen.renders.length, j ≠ i → (x.folders j).saveDirHandle ≠ some dir
  | _ => True

instance (x : Saving) (e : Event) : Decidable (x.NewFolder e) :=
  match e with
  | .chooses _ _ => inferInstanceAs (Decidable (_ ∧ ∀ j < x.screen.renders.length, _))
  | .screen _ | .opens _ _ => isTrue trivial

/-! ## The names a screen knows of -/

variable {w : WebCrypto} {codec : MetaCodec} {x y : Saving}

/-- Files that may have been written have different names in a directory, and the
screen whose folder it is has used them. -/
structure Apart (x : Saving) : Prop where
  distinct : ∀ (j k : Nat) (cj ck : FileCall), x.fileCalls[j]? = some cj →
    x.fileCalls[k]? = some ck → cj.status ≠ .failed → ck.status ≠ .failed → cj.dir = ck.dir →
    cj.name = ck.name → j = k
  used : ∀ (i : Nat) (dir : Directory), (x.folders i).saveDirHandle = some dir →
    ∀ c ∈ x.fileCalls, c.dir = dir → c.status ≠ .failed → c.name ∈ (x.folders i).usedNames
  alone : ∀ (i j : Nat) (dir : Directory), (x.folders i).saveDirHandle = some dir →
    (x.folders j).saveDirHandle = some dir → i = j
  rendered : ∀ (i : Nat) (dir : Directory), (x.folders i).saveDirHandle = some dir →
    i < x.screen.renders.length

theorem Apart.init : Apart init where
  distinct _ _ _ _ h := by simp [Saving.init] at h
  used _ _ h := by cases h
  alone _ _ _ h := by cases h
  rendered _ _ h := by cases h

@[simp] theorem setFolder_fileCalls (x : Saving) (i : Nat) (f : Folder) :
    (x.setFolder i f).fileCalls = x.fileCalls := rfl

@[simp] theorem setFolder_screen (x : Saving) (i : Nat) (f : Folder) :
    (x.setFolder i f).screen = x.screen := rfl

theorem setFolder_folders (x : Saving) (i : Nat) (f : Folder) (j : Nat) :
    (x.setFolder i f).folders j = if j = i then f else x.folders j := Function.update_apply ..

/-- Two states that have the same files, and the same folders with the same names. -/
theorem Apart.congr (hx : Apart x) (hcalls : y.fileCalls = x.fileCalls)
    (hfolders : ∀ i, (y.folders i).saveDirHandle = (x.folders i).saveDirHandle ∧
      (y.folders i).usedNames = (x.folders i).usedNames)
    (hlen : x.screen.renders.length ≤ y.screen.renders.length) : Apart y where
  distinct := by
    rw [hcalls]
    exact hx.distinct
  used i dir hi := by
    rw [hcalls, (hfolders i).2]
    exact hx.used i dir ((hfolders i).1 ▸ hi)
  alone i j dir hi hj := hx.alone i j dir ((hfolders i).1 ▸ hi) ((hfolders j).1 ▸ hj)
  rendered i dir hi := lt_of_lt_of_le (hx.rendered i dir ((hfolders i).1 ▸ hi)) hlen

/-- A file that starts gets a name that was not used in its folder. -/
theorem Apart.onFileStart (hx : Apart x) (p : Nat × JSString) : Apart (x.onFileStart p) := by
  rw [Saving.onFileStart]
  split
  next dir hdir =>
    split
    next saveName usedNames hname =>
      obtain ⟨rfl, hdeduped⟩ := deduped_of_eq hname
      have hfolder (i : Nat) : ((x.setFolder p.1 { x.folders p.1 with
            usedNames := insert saveName (x.folders p.1).usedNames
            opening := some x.fileCalls.length }).folders i).saveDirHandle =
          (x.folders i).saveDirHandle := by
        rw [setFolder_folders]
        split
        next hi => rw [hi]
        next => rfl
      have hnew (c : FileCall) (hc : c ∈ x.fileCalls) (hok : c.status ≠ .failed)
          (hd : c.dir = dir) : c.name ≠ saveName := fun hn =>
        hdeduped.unused (hn ▸ hx.used p.1 dir hdir c hc hd hok)
      constructor
      case distinct =>
        intro j k cj ck hj hk hjok hkok hd hn
        rcases Tally.getElem?_concat_eq_some hj with hj | ⟨rfl, rfl⟩
        · rcases Tally.getElem?_concat_eq_some hk with hk | ⟨rfl, rfl⟩
          · exact hx.distinct j k cj ck hj hk hjok hkok hd hn
          · exact absurd hn (hnew cj (List.mem_of_getElem? hj) hjok hd)
        · rcases Tally.getElem?_concat_eq_some hk with hk | ⟨rfl, rfl⟩
          · exact absurd hn.symm (hnew ck (List.mem_of_getElem? hk) hkok hd.symm)
          · rfl
      case used =>
        intro i dir' hi c hc hd hok
        have hi' := (hfolder i).symm.trans hi
        change c.name ∈ ((x.setFolder p.1 _).folders i).usedNames
        rw [setFolder_folders]
        rcases List.mem_append.mp hc with hc | hc
        · have hmem := hx.used i dir' hi' c hc hd hok
          split
          next heq =>
            subst heq
            exact Finset.mem_insert_of_mem hmem
          next => exact hmem
        · obtain rfl := List.mem_singleton.mp hc
          -- a folder is of one screen, whose names now have the new one
          obtain rfl : i = p.1 := hx.alone i p.1 dir' hi' (hdir.trans (congrArg some hd))
          rw [if_pos rfl]
          exact Finset.mem_insert_self _ _
      case alone =>
        intro i j dir' hi hj
        exact hx.alone i j dir' ((hfolder i).symm.trans hi) ((hfolder j).symm.trans hj)
      case rendered =>
        intro i dir' hi
        exact hx.rendered i dir' ((hfolder i).symm.trans hi)
    next => exact hx
  next => exact hx

theorem Apart.onFileStarts (hx : Apart x) (ps : List (Nat × JSString)) :
    Apart (ps.foldl Saving.onFileStart x) := by
  induction ps generalizing x with
  | nil => exact hx
  | cons p ps ih => exact ih (hx.onFileStart p)

/-! ## The runs -/

/-- No render is forgotten. -/
theorem renders_length_le {x y : PairedScreen} {e : PairedScreen.Event} {out : List Output}
    (h : PairedScreen.step w codec x e = some (y, out)) : x.renders.length ≤ y.renders.length := by
  have hlen := (shift_of_step h).length
  rw [outlines, outlines, List.length_map, List.length_map] at hlen
  rcases hlen with hlen | ⟨-, session, -, ho⟩
  · exact hlen.ge
  · have ho := congrArg List.length ho
    rw [List.length_map, List.length_append, x.detached_length, outlines, List.length_map] at ho
    omega

theorem settleSink_folders (x : Saving) (e : PairedScreen.Event) (i : Nat) :
    ((x.settleSink e).folders i).saveDirHandle = (x.folders i).saveDirHandle ∧
      ((x.settleSink e).folders i).usedNames = (x.folders i).usedNames := by
  unfold settleSink
  split
  next j _ =>
    rw [setFolder_folders]
    split
    next hij => rw [hij]; exact ⟨rfl, rfl⟩
    next => exact ⟨rfl, rfl⟩
  next => exact ⟨rfl, rfl⟩

theorem settleSink_fileCalls (x : Saving) (e : PairedScreen.Event) :
    (x.settleSink e).fileCalls = x.fileCalls := by
  unfold settleSink
  split <;> rfl

theorem Apart.screen {e : PairedScreen.Event} (hx : Apart x)
    (h : step w codec x (.screen e) = some y) : Apart y := by
  simp only [step] at h
  split at h
  next => cases h
  next =>
    obtain ⟨⟨s, out⟩, hs, rfl⟩ := Option.map_eq_some_iff.mp h
    refine Apart.onFileStarts ?_ _
    exact hx.congr (settleSink_fileCalls x e) (settleSink_folders x e) (renders_length_le hs)

/-- A new folder has no names yet. -/
theorem Apart.chooses {i : Nat} {dir : Directory} (hx : Apart x)
    (hg : x.NewFolder (.chooses i dir)) (h : step w codec x (.chooses i dir) = some y) :
    Apart y := by
  obtain ⟨hcalls, hothers⟩ := hg
  simp only [step] at h
  split at h
  next ui hh =>
    obtain rfl := Option.some.inj h
    have hlt : i < x.screen.renders.length := by
      by_contra hge
      rw [handle, List.getElem?_eq_none (not_lt.mp hge)] at hh
      cases hh
    -- no other screen has the folder
    have hother (j : Nat) (hji : j ≠ i) : (x.folders j).saveDirHandle ≠ some dir := fun hj =>
      hothers j (hx.rendered j dir hj) hji hj
    have hfolder (j : Nat) (dir' : Directory)
        (hj : ((x.setFolder i { x.folders i with saveDirHandle := some dir, usedNames := ∅ }).folders
          j).saveDirHandle = some dir') :
        j = i ∧ dir' = dir ∨ j ≠ i ∧ (x.folders j).saveDirHandle = some dir' := by
      rw [setFolder_folders] at hj
      split at hj
      next hji => exact .inl ⟨hji, (Option.some.inj hj).symm⟩
      next hji => exact .inr ⟨hji, hj⟩
    constructor
    case distinct => exact hx.distinct
    case used =>
      intro j dir' hj c hc hd hok
      rcases hfolder j dir' hj with ⟨-, rfl⟩ | ⟨hji, hj⟩
      · exact absurd (hcalls c hc hd) hok
      · rw [setFolder_folders, if_neg hji]
        exact hx.used j dir' hj c hc hd hok
    case alone =>
      intro j k dir' hj hk
      rcases hfolder j dir' hj with ⟨hji, hd⟩ | ⟨hji, hj'⟩
      · rcases hfolder k dir' hk with ⟨hki, -⟩ | ⟨hki, hk'⟩
        · exact hji.trans hki.symm
        · exact absurd (hd ▸ hk') (hother k hki)
      · rcases hfolder k dir' hk with ⟨-, hd⟩ | ⟨-, hk'⟩
        · exact absurd (hd ▸ hj') (hother j hji)
        · exact hx.alone j k dir' hj' hk'
    case rendered =>
      intro j dir' hj
      rcases hfolder j dir' hj with ⟨rfl, -⟩ | ⟨-, hj⟩
      · exact hlt
      · exact hx.rendered j dir' hj
  next => cases h
  next => cases h

/-- How a call ends changes neither its directory nor its name. -/
theorem Apart.opens {k : Nat} {ok : Bool} (hx : Apart x)
    (h : step w codec x (.opens k ok) = some y) : Apart y := by
  simp only [step] at h
  split at h
  next hk =>
    obtain rfl := Option.some.inj h
    obtain ⟨c₀, hc₀, hpending⟩ := Option.map_eq_some_iff.mp hk
    have before {j : Nat} {c : FileCall}
        (hj : (x.fileCalls.modify k fun c =>
          { c with status := if ok then .opened else .failed })[j]? = some c) :
        ∃ c', x.fileCalls[j]? = some c' ∧ c'.dir = c.dir ∧ c'.name = c.name ∧
          (c.status ≠ .failed → c'.status ≠ .failed) := by
      obtain ⟨c', hc', rfl⟩ := Tally.getElem?_modify_eq_some hj
      refine ⟨c', hc', ?_⟩
      split
      next hkj =>
        obtain rfl := Option.some.inj (hc₀.symm.trans (hkj ▸ hc'))
        exact ⟨rfl, rfl, fun _ => by simp [hpending]⟩
      next => exact ⟨rfl, rfl, id⟩
    constructor
    case distinct =>
      intro i j ci cj hi hj hiok hjok hd hn
      obtain ⟨ci', hi', hdi, hni, hoki⟩ := before hi
      obtain ⟨cj', hj', hdj, hnj, hokj⟩ := before hj
      exact hx.distinct i j ci' cj' hi' hj' (hoki hiok) (hokj hjok)
        (hdi.trans (hd.trans hdj.symm)) (hni.trans (hn.trans hnj.symm))
    case used =>
      intro i dir hi c hc hd hok
      obtain ⟨j, hj⟩ := List.mem_iff_getElem?.mp hc
      obtain ⟨c', hc', hdc, hnc, hokc⟩ := before hj
      rw [← hnc]
      exact hx.used i dir hi c' (List.mem_of_getElem? hc') (hdc.trans hd) (hokc hok)
    case alone => exact hx.alone
    case rendered => exact hx.rendered
  next => cases h
  next => cases h
  next => cases h

theorem apart_step (x : Saving) (e : Event) (y : Saving) (hx : Apart x) (hg : x.NewFolder e)
    (h : step w codec x e = some y) : Apart y := by
  cases e with
  | screen e => exact hx.screen h
  | chooses i dir => exact hx.chooses hg h
  | opens k ok => exact hx.opens h

theorem Apart.noOverwrite (hx : Apart x) : NoOverwrite x := by
  intro j k cj ck hj hk hjok hkok
  exact hx.distinct j k cj ck hj hk (by simp [hjok]) (by simp [hkok])

/-- **No received file overwrites another**, as long as every folder that is chosen is
a new one. -/
theorem noOverwrite_of_newFolder (w : WebCrypto) (codec : MetaCodec) (es : List Event) (x : Saving)
    (hg : Guarded (step w codec) NewFolder init es) (hr : run (step w codec) init es = some x) :
    NoOverwrite x :=
  (hg.invariant apart_step Apart.init hr).noOverwrite

/-! ## One name twice -/

/-- A file called `a`, under an id of sixteen equal bytes. -/
def namedArgs (b : UInt8) : SendArgs :=
  { SendFile.tinyArgs with
    codec := ⟨fun _ => [1], fun _ => some ⟨[97], 1, OCTET_STREAM⟩⟩
    fileId := ⟨b :: List.replicate 15 b, by simp⟩ }

/-- The messages of the `sendFile` call for the file with this byte, all of them
in order. -/
def namedMessages (b : UInt8) : List Message :=
  let next (x : SendFile.State × List Message) (e : SendFile.Event) :=
    (SendFile.step (namedArgs b) x.1 e).map fun r => (r.1, x.2 ++ r.2)
  ((run next (SendFile.init, []) [.keyDerived none, .metaEncrypted none, .sliceRead none,
    .chunkEncrypted none]).map Prod.snd).getD []

/-- It is received, and saved in the folder of the screen. -/
def receives (b : UInt8) (k : Nat) : List Event :=
  (namedMessages b).map (fun m => .screen (.arrives 0 m)) ++
    [.screen (.receiver 0 .start), .screen (.receiver 0 (.settle none)),
      .screen (.receiver 0 (.settle none)), .opens k true,
      .screen (.receiver 0 (.sinkReady .fsa)), .screen (.receiver 0 .start),
      .screen (.receiver 0 (.settle none)), .screen (.receiver 0 (.settle none)),
      .screen (.receiver 0 (.sinkClosed k none))]

/-- The user chooses the same folder again between two files. -/
def chosenAgainEvents : List Event :=
  [.screen (.pairs .host 0 tinySessionKey), .screen (.derived 0 none),
    .screen (.adopts 0 SendFile.tinyArgs.fileId), .chooses 0 7] ++
    receives 0 0 ++ [.chooses 0 7] ++ receives 1 1

/-- Both files are saved, under one name. -/
theorem overwritten_after_choosing_again : ∃ x,
    run (step labelCrypto (namedArgs 0).codec) init chosenAgainEvents = some x ∧
      ¬ NoOverwrite x := by
  have hrun : (run (step labelCrypto (namedArgs 0).codec) init chosenAgainEvents).any
      (fun x => decide (x.fileCalls = [⟨7, [97], .opened⟩, ⟨7, [97], .opened⟩])) = true := by
    decide +kernel
  obtain ⟨x, hx, h⟩ := (Option.any_eq_true _ _).mp hrun
  have hcalls := of_decide_eq_true h
  refine ⟨x, hx, fun hno => ?_⟩
  have hsame := hno 0 1 _ _ (by rw [hcalls]; rfl) (by rw [hcalls]; rfl) rfl rfl rfl rfl
  exact absurd hsame (by decide)

/-- The same two files, with no choice between them. -/
theorem noOverwrite_of_newFolder_tiny : ∃ x,
    run (step labelCrypto (namedArgs 0).codec) init
        ([.screen (.pairs .host 0 tinySessionKey), .screen (.derived 0 none),
          .screen (.adopts 0 SendFile.tinyArgs.fileId), .chooses 0 7] ++ receives 0 0 ++
          receives 1 1) = some x ∧
      x.fileCalls = [⟨7, [97], .opened⟩, ⟨7, [97, 32, 40, 49, 41], .opened⟩] ∧ NoOverwrite x := by
  have hrun : (run (step labelCrypto (namedArgs 0).codec) init
      ([.screen (.pairs .host 0 tinySessionKey), .screen (.derived 0 none),
        .screen (.adopts 0 SendFile.tinyArgs.fileId), .chooses 0 7] ++ receives 0 0 ++
        receives 1 1)).any
      (fun x => decide (x.fileCalls =
        [⟨7, [97], .opened⟩, ⟨7, [97, 32, 40, 49, 41], .opened⟩])) = true := by decide +kernel
  obtain ⟨x, hx, h⟩ := (Option.any_eq_true _ _).mp hrun
  refine ⟨x, hx, of_decide_eq_true h, ?_⟩
  exact noOverwrite_of_newFolder labelCrypto (namedArgs 0).codec _ x (by decide +kernel) hx

end Saving

end Quicksend.PairedScreen
