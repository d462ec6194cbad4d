import Playout.Catalogue.Inspection
import Playout.Proofs.Turn

/-!
What is kept of a file is kept under a modification time that was looked up before the
tool was run. So if the file still has that time, it had it when the tool was run, and
the finding is about the present file (`Dated`). If it was replaced in between, the
finding is kept under a time that the file will never have again. The phases of
inspections and scans carry what was found out in the same way.
-/
namespace Playout.Catalogue

/-! ### Files that are replaced -/

namespace Library

/-- The file that a path to a place leads to. -/
def ShowsAt (l : Library) (place : Place) (file : MediaFile) : Prop := l.walk [] place = .ok (.file file)

/-- What the tool finds at a place, whether there is a file or not. -/
def foundAt (l : Library) (place : Place) : MediaFile :=
  match l.node? place with
  | some (.file file) => file
  | _ => l.unlisted

/-- Nothing at a place tells two libraries apart. -/
structure IsSameAt (l l' : Library) (place : Place) : Prop where
  walk : l.walk [] place = l'.walk [] place
  found : l.foundAt place = l'.foundAt place

/-- A file at a place has a modification time that no file there had before. -/
def IsNewAt (past : List Library) (l : Library) (place : Place) : Prop :=
  ∀ file, l.ShowsAt place file → ∀ l₀ ∈ past, ∀ file₀, l₀.ShowsAt place file₀ → file₀.modified ≠ file.modified

/-- Something that was found out about a place under a modification time. There was a file of that time, and while
    there is, the fact is one about the file and about what the tool finds. -/
structure Dated (past : List Library) (l : Library) (place : Place) (modified : Int)
    (fact : MediaFile → MediaFile → Prop) : Prop where
  shown : ∃ l₀ ∈ past, ∃ file, l₀.ShowsAt place file ∧ file.modified = modified
  holds : ∀ file, l.ShowsAt place file → file.modified = modified → fact file (l.foundAt place)

variable {past : List Library} {l l' : Library} {place : Place} {path : List Char} {file : MediaFile} {modified : Int}
  {fact : MediaFile → MediaFile → Prop}

theorem IsSameAt.refl (l : Library) (place : Place) : l.IsSameAt l place := ⟨rfl,rfl⟩

theorem IsSameAt.symm (same : l.IsSameAt l' place) : l'.IsSameAt l place := ⟨same.walk.symm,same.found.symm⟩

theorem IsSameAt.trans {l'' : Library} (same : l.IsSameAt l' place) (same' : l'.IsSameAt l'' place) :
    l.IsSameAt l'' place :=
  ⟨same.walk.trans same'.walk,same.found.trans same'.found⟩

theorem IsSameAt.stat (same : l.IsSameAt l' (Path.components path)) : l.stat path = l'.stat path := by
  rw [Library.stat,Library.stat,same.walk]

theorem ShowsAt.unique {file' : MediaFile} (shown : l.ShowsAt place file) (shown' : l.ShowsAt place file') :
    file' = file := by
  rw [ShowsAt,shown] at shown'
  cases shown'
  rfl

theorem showsAt_of_stat (here : l.stat path = .ok file) : l.ShowsAt (Path.components path) file := by
  rw [Library.stat] at here
  split at here
  · cases here
  · split at here
    · cases here
    · cases here
    · next found =>
      split at here
      · cases here
      · cases here
        exact found

/-- A replacement leaves the fact as it is, or else the time of the fact has passed for good. -/
theorem Dated.replace (dated : Dated past l place modified fact)
    (changed : l.IsSameAt l' place ∨ IsNewAt past l' place) : Dated (l' :: past) l' place modified fact := by
  obtain ⟨l₀,before,file₀,shown,time⟩ := dated.shown
  refine ⟨⟨l₀,.tail _ before,file₀,shown,time⟩,?_⟩
  intro file here time'
  rcases changed with same | new
  · have there : l.ShowsAt place file := same.walk.trans here
    exact same.found ▸ dated.holds file there time'
  · exact absurd (time.trans time'.symm) (new file here l₀ before file₀ shown)

end Library

open Library

/-! ### Findings -/

namespace Finding
variable {κ α : Type} [BEq κ] {findings : List (Finding κ α)} {f g : Finding κ α}

theorem mem_keep (member : f ∈ keep findings g) : f ∈ findings ∨ f = g := by
  rcases List.mem_append.mp member with old | new
  · exact .inl (List.mem_filter.mp old).1
  · exact .inr (List.mem_singleton.mp new)

theorem find?_eq_some [LawfulBEq κ] {key : κ} {modified : Int} {value : α} (found : find? findings key modified = some value) :
    ⟨key,value,modified⟩ ∈ findings := by
  rw [find?] at found
  split at found
  · next f there =>
    split at found
    · next time =>
      have named : f.key = key := by simpa using List.find?_some there
      have member := List.mem_of_find?_eq_some there
      cases found
      cases named
      cases time
      exact member
    · cases found
  · cases found

/-- What is kept under a key does not touch the findings under keys that it is told apart from. -/
theorem filter_keep [LawfulBEq κ] (apart : κ → Bool) (apart_own : apart g.key = false) :
    (keep findings g).filter (fun f => apart f.key) = findings.filter fun f => apart f.key := by
  rw [keep,List.filter_append,List.filter_filter,List.filter_cons_of_neg (by simp [apart_own]),List.filter_nil,
    List.append_nil]
  refine List.filter_congr fun f _ => ?_
  by_cases own : f.key = g.key
  · rw [own,apart_own,Bool.false_and]
  · rw [bne_iff_ne.mpr own,Bool.and_true]

end Finding

/-- A report with the size of the file, if it says none. -/
def sized (size : Nat) (c : Probe.Container) : Probe.Container :=
  { c with format := { c.format with size := some (c.format.size.getD size) } }

/-- What an inspection makes of a file and of what the tool finds: a report is one about tracks. -/
def IsReport (report : Probe.Container) (file found : MediaFile) : Prop :=
  ∃ c, found.report = .ok c ∧ c.tracks ≠ [] ∧ report = sized file.size c

/-- What a scan makes of what the tool finds. -/
def IsFrames (frames : List Int) (_ found : MediaFile) : Prop := found.keyframes = .ok frames

/-- There was a file or something else of which a fact holds. -/
def Was (past : List Library) (place : Place) (fact : MediaFile → MediaFile → Prop) : Prop :=
  ∃ l ∈ past, ∃ file, fact file (l.foundAt place)

theorem Was.mono {past past' : List Library} {place : Place} {fact : MediaFile → MediaFile → Prop}
    (was : Was past place fact) (longer : past ⊆ past') : Was past' place fact := by
  obtain ⟨l,before,file,holds⟩ := was
  exact ⟨l,longer before,file,holds⟩

theorem report_eq_ok {s : State} {path : List Char} {size : Nat} {report : Probe.Container} :
    Inspection.report s path size = .ok report ↔
      ∃ c, (s.library.foundAt (Path.components path)).report = .ok c ∧ c.tracks ≠ [] ∧ report = sized size c := by
  have found : s.library.inspected path = s.library.foundAt (Path.components path) := rfl
  rw [Inspection.report,found]
  cases (s.library.foundAt (Path.components path)).report with
  | error why =>
    constructor
    · intro reported
      cases reported
    · rintro ⟨c,none,_⟩
      cases none
  | ok c =>
    by_cases none : c.tracks = []
    · simp [none]
    · have some_track : c.tracks.isEmpty = false := by simpa using none
      simp only [some_track]
      constructor
      · intro reported
        cases reported
        exact ⟨c,rfl,none,rfl⟩
      · rintro ⟨c',same,_,rfl⟩
        cases same
        rfl

namespace State

/-- Everything that is kept was found out some time, and is about the present file if that has the time that it is
    kept under. -/
structure IsDated (past : List Library) (s : State) : Prop where
  reports : ∀ f ∈ s.reports, Dated past s.library f.key f.modified (IsReport f.value) ∧ Was past f.key (IsReport f.value)
  keyframes : ∀ f ∈ s.keyframes,
    Dated past s.library f.key.1 f.modified (IsFrames f.value) ∧ Was past f.key.1 (IsFrames f.value)

theorem IsDated.replace {past : List Library} {s : State} {library : Library} (dated : s.IsDated past)
    (changed : ∀ place, s.library.IsSameAt library place ∨ IsNewAt past library place) :
    State.IsDated (library :: past) { s with library } := by
  have longer : past ⊆ library :: past := List.subset_cons_self _ _
  refine ⟨fun f member => ?_,fun f member => ?_⟩
  · obtain ⟨dated,was⟩ := dated.reports f member
    exact ⟨dated.replace (changed _),was.mono longer⟩
  · obtain ⟨dated,was⟩ := dated.keyframes f member
    exact ⟨dated.replace (changed _),was.mono longer⟩

theorem IsDated.forget {past : List Library} {s : State} (dated : s.IsDated past) (path : List Char) :
    (s.forget path).IsDated past :=
  ⟨fun f member => dated.reports f (List.mem_filter.mp member).1,
    fun f member => dated.keyframes f (List.mem_filter.mp member).1⟩

/-- The findings are the same. -/
structure SameFindings (s t : State) : Prop where
  reports : t.reports = s.reports
  keyframes : t.keyframes = s.keyframes

/-- The findings about other places are the same. -/
structure SameApart (s t : State) (place : Place) : Prop where
  reports : (t.reports.filter fun f => f.key != place) = s.reports.filter fun f => f.key != place
  keyframes : (t.keyframes.filter fun f => f.key.1 != place) = s.keyframes.filter fun f => f.key.1 != place

theorem SameFindings.apart {s t : State} (same : s.SameFindings t) (place : Place) : s.SameApart t place :=
  ⟨by rw [same.reports],by rw [same.keyframes]⟩

/-- What an inspection of the file at a path comes to as things are. -/
def reportNow (s : State) (path : List Char) : Result Probe.Container := do
  let file ← s.stat path
  Inspection.report s path file.size

/-- What a scan of the file at a path comes to as things are. -/
def keyframesNow (s : State) (path : List Char) : Result (List Int) := do
  let _ ← s.stat path
  match (s.library.inspected path).keyframes with
  | .error why => .error (failure path why)
  | .ok frames => .ok frames

end State

/-! ### Calls -/

/-- A call on the catalogue, with where it waits. -/
inductive Call where
  | inspect (path : List Char) (phase : Inspection)
  | scan (path : List Char) (index : Nat) (phase : Scan)

/-- What a call comes to. -/
inductive Answer where
  | report (result : Result Probe.Container)
  | keyframes (result : Result (List Int))

namespace Answer

/-- Whether the call has failed. -/
def IsFailure : Answer → Prop
  | report result => ∃ e, result = .error e
  | keyframes result => ∃ e, result = .error e

end Answer

namespace Call

/-- The path of the file that a call is about. -/
def path : Call → List Char
  | inspect path _ => path
  | scan path _ _ => path

def place (call : Call) : Place := Path.components call.path

/-- Whether a call is yet to take its first turn. -/
def IsFirst : Call → Prop
  | inspect _ .stat | scan _ _ .stat => True
  | inspect .. | scan .. => False

def turn (call : Call) (s : State) : Turn State Call Answer :=
  match call with
  | inspect path phase => (phase.turn path s).within (inspect path) fun s r => .ends s (.report r)
  | scan path index phase => (phase.turn path index s).within (scan path index) fun s r => .ends s (.keyframes r)

/-- What the call would come to if nothing happened meanwhile. -/
def answerNow (s : State) : Call → Answer
  | inspect path _ => .report (s.reportNow path)
  | scan path _ _ => .keyframes (s.keyframesNow path)

/-- The greatest number of turns that a call still takes. -/
def turnsLeft : Call → Nat
  | inspect _ .stat | scan _ _ .stat => 4
  | inspect _ (.consulting ..) | scan _ _ (.consulting _) => 3
  | inspect _ (.inspecting ..) | scan _ _ (.scanning _) => 2
  | inspect _ (.keeping ..) | scan _ _ (.keeping ..) => 1

end Call

/-! ### One turn -/

variable {past : List Library} {l : Library} {place : Place} {path : List Char} {s : State}

namespace Inspection

/-- What was found out before a phase, of the file at a place. -/
def Fits (past : List Library) (l : Library) (place : Place) : Inspection → Prop
  | stat => True
  | consulting modified size | inspecting modified size => Dated past l place modified fun file _ => file.size = size
  | keeping modified report => Dated past l place modified (IsReport report) ∧ Was past place (IsReport report)

/-- What was found out before a phase is about the present file. -/
def IsCurrent (l : Library) (path : List Char) : Inspection → Prop
  | stat => True
  | consulting modified size | inspecting modified size =>
    ∃ file, l.stat path = .ok file ∧ file.modified = modified ∧ file.size = size
  | keeping modified report => ∃ file, l.stat path = .ok file ∧ file.modified = modified ∧
      IsReport report file (l.foundAt (Path.components path))

theorem turn_fits {phase : Inspection} (present : s.library ∈ past) (dated : s.IsDated past)
    (fits : phase.Fits past s.library (Path.components path)) :
    (phase.turn path s).Leads
      (fun t p => (t.library = s.library ∧ t.IsDated past) ∧ p.Fits past s.library (Path.components path))
      (fun t _ => t.library = s.library ∧ t.IsDated past) := by
  cases phase with
  | stat =>
    rw [turn,State.stat]
    cases here : s.library.stat path with
    | error why => exact ⟨rfl,dated⟩
    | ok file =>
      have shown := showsAt_of_stat here
      refine ⟨⟨rfl,dated⟩,⟨_,present,file,shown,rfl⟩,?_⟩
      intro file' shown' _
      rw [shown.unique shown']
  | consulting modified size =>
    rw [turn]
    split
    · exact ⟨rfl,dated⟩
    · exact ⟨⟨rfl,dated⟩,fits⟩
  | inspecting modified size =>
    have dated' : State.IsDated past { s with inspections := s.inspections + 1 } := ⟨dated.reports,dated.keyframes⟩
    rw [turn]
    cases made : report s path size with
    | error e => exact ⟨rfl,dated'⟩
    | ok report =>
      obtain ⟨c,found,some_track,rfl⟩ := report_eq_ok.mp made
      refine ⟨⟨rfl,dated'⟩,⟨fits.shown,?_⟩,?_⟩
      · intro file shown time
        exact ⟨c,found,some_track,by rw [fits.holds file shown time]⟩
      · exact ⟨_,present,{ (default : MediaFile) with size },c,found,some_track,rfl⟩
  | keeping modified report =>
    refine ⟨rfl,?_,dated.keyframes⟩
    intro f member
    rcases Finding.mem_keep member with old | rfl
    · exact dated.reports f old
    · exact fits

theorem turn_current {phase : Inspection} (dated : s.IsDated past) (current : phase.IsCurrent s.library path) :
    (phase.turn path s).Leads (fun _ p => p.IsCurrent s.library path) (fun _ r => r = s.reportNow path) := by
  rw [State.reportNow]
  cases phase with
  | stat =>
    rw [turn,State.stat]
    cases here : s.library.stat path with
    | error why => rfl
    | ok file => exact ⟨file,here,rfl,rfl⟩
  | consulting modified size =>
    obtain ⟨file,here,rfl,rfl⟩ := current
    rw [turn]
    split
    · next kept found =>
      obtain ⟨known,_⟩ := dated.reports _ (Finding.find?_eq_some found)
      have made := report_eq_ok.mpr (known.holds file (showsAt_of_stat here) rfl)
      rw [State.stat,here]
      exact made.symm
    · exact ⟨file,here,rfl,rfl⟩
  | inspecting modified size =>
    obtain ⟨file,here,rfl,rfl⟩ := current
    rw [turn,State.stat,here]
    cases made : report s path file.size with
    | error e => exact made.symm
    | ok report => exact ⟨file,here,rfl,report_eq_ok.mp made⟩
  | keeping modified report =>
    obtain ⟨file,here,rfl,made⟩ := current
    rw [State.stat,here]
    exact (report_eq_ok.mpr made).symm

/-- Only an inspection that succeeds keeps something, and that is about its own file. -/
theorem turn_keeps (phase : Inspection) : (phase.turn path s).Leads (fun t _ => s.SameFindings t)
    (fun t r => s.SameFindings t ∨ (∃ report, r = .ok report) ∧ s.SameApart t (Path.components path)) := by
  cases phase with
  | stat =>
    rw [turn]
    split
    · exact .inl ⟨rfl,rfl⟩
    · exact ⟨rfl,rfl⟩
  | consulting modified size =>
    rw [turn]
    split
    · exact .inl ⟨rfl,rfl⟩
    · exact ⟨rfl,rfl⟩
  | inspecting modified size =>
    rw [turn]
    split
    · exact .inl ⟨rfl,rfl⟩
    · exact ⟨rfl,rfl⟩
  | keeping modified report =>
    exact .inr ⟨⟨report,rfl⟩,Finding.filter_keep (· != Path.components path) (bne_self_eq_false _),rfl⟩

/-- The greatest number of turns that an inspection still takes. -/
def turnsLeft : Inspection → Nat
  | stat => 4
  | consulting .. => 3
  | inspecting .. => 2
  | keeping .. => 1

theorem turnsLeft_pos (phase : Inspection) : 0 < phase.turnsLeft := by
  cases phase <;> exact Nat.succ_pos _

theorem turn_advances (phase : Inspection) (path : List Char) (s : State) : ¬ (phase.turn path s).Waits ∧
    (phase.turn path s).Leads (fun _ p => p.turnsLeft < phase.turnsLeft) (fun _ _ => True) := by
  cases phase with
  | stat =>
    rw [turn]
    split
    · exact ⟨id,trivial⟩
    · exact ⟨id,Nat.lt_succ_self _⟩
  | consulting modified size =>
    rw [turn]
    split
    · exact ⟨id,trivial⟩
    · exact ⟨id,Nat.lt_succ_self _⟩
  | inspecting modified size =>
    rw [turn]
    split
    · exact ⟨id,trivial⟩
    · exact ⟨id,Nat.lt_succ_self _⟩
  | keeping modified report => exact ⟨id,trivial⟩

end Inspection

namespace Scan
variable {index : Nat}

/-- What was found out before a phase, of the file at a place. -/
def Fits (past : List Library) (l : Library) (place : Place) : Scan → Prop
  | stat => True
  | consulting modified | scanning modified => Dated past l place modified fun _ _ => True
  | keeping modified frames => Dated past l place modified (IsFrames frames) ∧ Was past place (IsFrames frames)

/-- What was found out before a phase is about the present file. -/
def IsCurrent (l : Library) (path : List Char) : Scan → Prop
  | stat => True
  | consulting modified | scanning modified => ∃ file, l.stat path = .ok file ∧ file.modified = modified
  | keeping modified frames => ∃ file, l.stat path = .ok file ∧ file.modified = modified ∧
      IsFrames frames file (l.foundAt (Path.components path))

theorem turn_fits {phase : Scan} (present : s.library ∈ past) (dated : s.IsDated past)
    (fits : phase.Fits past s.library (Path.components path)) :
    (phase.turn path index s).Leads
      (fun t p => (t.library = s.library ∧ t.IsDated past) ∧ p.Fits past s.library (Path.components path))
      (fun t _ => t.library = s.library ∧ t.IsDated past) := by
  cases phase with
  | stat =>
    rw [turn,State.stat]
    cases here : s.library.stat path with
    | error why => exact ⟨rfl,dated⟩
    | ok file => exact ⟨⟨rfl,dated⟩,⟨_,present,file,showsAt_of_stat here,rfl⟩,fun _ _ _ => trivial⟩
  | consulting modified =>
    rw [turn]
    split
    · exact ⟨rfl,dated⟩
    · exact ⟨⟨rfl,dated⟩,fits⟩
  | scanning modified =>
    have dated' : State.IsDated past { s with scans := s.scans + 1 } := ⟨dated.reports,dated.keyframes⟩
    rw [turn]
    split
    · exact ⟨rfl,dated'⟩
    · next frames found => exact ⟨⟨rfl,dated'⟩,⟨fits.shown,fun _ _ _ => found⟩,_,present,default,found⟩
  | keeping modified frames =>
    refine ⟨rfl,dated.reports,?_⟩
    intro f member
    rcases Finding.mem_keep member with old | rfl
    · exact dated.keyframes f old
    · exact fits

theorem turn_current {phase : Scan} (dated : s.IsDated past) (current : phase.IsCurrent s.library path) :
    (phase.turn path index s).Leads (fun _ p => p.IsCurrent s.library path) (fun _ r => r = s.keyframesNow path) := by
  have now {file : MediaFile} {frames : List Int} (here : s.library.stat path = .ok file)
      (found : (s.library.inspected path).keyframes = .ok frames) : s.keyframesNow path = .ok frames := by
    rw [State.keyframesNow,State.stat,here,found]
    rfl
  cases phase with
  | stat =>
    rw [turn,State.stat]
    cases here : s.library.stat path with
    | error why =>
      change _ = s.keyframesNow path
      rw [State.keyframesNow,State.stat,here]
      rfl
    | ok file => exact ⟨file,here,rfl⟩
  | consulting modified =>
    obtain ⟨file,here,rfl⟩ := current
    rw [turn]
    split
    · next kept found =>
      obtain ⟨known,_⟩ := dated.keyframes _ (Finding.find?_eq_some found)
      exact (now here (known.holds file (showsAt_of_stat here) rfl)).symm
    · exact ⟨file,here,rfl⟩
  | scanning modified =>
    obtain ⟨file,here,rfl⟩ := current
    rw [turn]
    cases found : (s.library.inspected path).keyframes with
    | error why =>
      change _ = s.keyframesNow path
      rw [State.keyframesNow,State.stat,here,found]
      rfl
    | ok frames => exact ⟨file,here,rfl,found⟩
  | keeping modified frames =>
    obtain ⟨file,here,rfl,found⟩ := current
    exact (now here found).symm

/-- Only a scan that succeeds keeps something, and that is about its own file. -/
theorem turn_keeps (phase : Scan) : (phase.turn path index s).Leads (fun t _ => s.SameFindings t)
    (fun t r => s.SameFindings t ∨ (∃ frames, r = .ok frames) ∧ s.SameApart t (Path.components path)) := by
  cases phase with
  | stat =>
    rw [turn]
    split
    · exact .inl ⟨rfl,rfl⟩
    · exact ⟨rfl,rfl⟩
  | consulting modified =>
    rw [turn]
    split
    · exact .inl ⟨rfl,rfl⟩
    · exact ⟨rfl,rfl⟩
  | scanning modified =>
    rw [turn]
    split
    · exact .inl ⟨rfl,rfl⟩
    · exact ⟨rfl,rfl⟩
  | keeping modified frames =>
    have own : (Path.components path != Path.components path) = false := bne_self_eq_false _
    exact .inr ⟨⟨frames,rfl⟩,rfl,Finding.filter_keep (fun key : Place × Nat => key.1 != Path.components path) own⟩

/-- The greatest number of turns that a scan still takes. -/
def turnsLeft : Scan → Nat
  | stat => 4
  | consulting _ => 3
  | scanning _ => 2
  | keeping .. => 1

theorem turnsLeft_pos (phase : Scan) : 0 < phase.turnsLeft := by
  cases phase <;> exact Nat.succ_pos _

theorem turn_advances (phase : Scan) (path : List Char) (index : Nat) (s : State) :
    ¬ (phase.turn path index s).Waits ∧
      (phase.turn path index s).Leads (fun _ p => p.turnsLeft < phase.turnsLeft) (fun _ _ => True) := by
  cases phase with
  | stat =>
    rw [turn]
    split
    · exact ⟨id,trivial⟩
    · exact ⟨id,Nat.lt_succ_self _⟩
  | consulting modified =>
    rw [turn]
    split
    · exact ⟨id,trivial⟩
    · exact ⟨id,Nat.lt_succ_self _⟩
  | scanning modified =>
    rw [turn]
    split
    · exact ⟨id,trivial⟩
    · exact ⟨id,Nat.lt_succ_self _⟩
  | keeping modified frames => exact ⟨id,trivial⟩

end Scan

namespace Call
variable {call : Call}

/-- What a call has found out before, of its file. -/
def Fits (past : List Library) (l : Library) (call : Call) : Prop :=
  match call with
  | inspect _ phase => phase.Fits past l call.place
  | scan _ _ phase => phase.Fits past l call.place

/-- What a call has found out before is about the present file. -/
def IsCurrent (l : Library) : Call → Prop
  | inspect path phase => phase.IsCurrent l path
  | scan path _ phase => phase.IsCurrent l path

theorem turn_fits (present : s.library ∈ past) (dated : s.IsDated past) (fits : call.Fits past s.library) :
    (call.turn s).Leads (fun t c => (t.library = s.library ∧ t.IsDated past) ∧ c.Fits past s.library)
      (fun t _ => t.library = s.library ∧ t.IsDated past) := by
  cases call with
  | inspect path phase =>
    exact (Inspection.turn_fits present dated fits).within (fun _ _ kept => kept) fun _ _ kept => kept
  | scan path index phase =>
    exact (Scan.turn_fits present dated fits).within (fun _ _ kept => kept) fun _ _ kept => kept

theorem turn_current (dated : s.IsDated past) (current : call.IsCurrent s.library) :
    (call.turn s).Leads (fun _ c => c.IsCurrent s.library) (fun _ answer => answer = call.answerNow s) := by
  cases call with
  | inspect path phase =>
    exact (Inspection.turn_current dated current).within (fun _ _ kept => kept) fun _ _ same => congrArg _ same
  | scan path index phase =>
    exact (Scan.turn_current dated current).within (fun _ _ kept => kept) fun _ _ same => congrArg _ same

theorem Fits.replace {l' : Library} (fits : call.Fits past l)
    (changed : l.IsSameAt l' call.place ∨ IsNewAt past l' call.place) : call.Fits (l' :: past) l' := by
  have longer : past ⊆ l' :: past := List.subset_cons_self _ _
  cases call with
  | inspect path phase =>
    cases phase with
    | stat => trivial
    | consulting | inspecting => exact Dated.replace fits changed
    | keeping => exact ⟨fits.1.replace changed,fits.2.mono longer⟩
  | scan path index phase =>
    cases phase with
    | stat => trivial
    | consulting | scanning => exact Dated.replace fits changed
    | keeping => exact ⟨fits.1.replace changed,fits.2.mono longer⟩

theorem IsCurrent.replace {l' : Library} (current : call.IsCurrent l) (same : l.IsSameAt l' call.place) :
    call.IsCurrent l' := by
  cases call with
  | inspect path phase =>
    have stat : l.stat path = l'.stat path := same.stat
    have found : l.foundAt (Path.components path) = l'.foundAt (Path.components path) := same.found
    cases phase with
    | stat => trivial
    | consulting | inspecting | keeping => simpa only [IsCurrent,Inspection.IsCurrent,stat,found] using current
  | scan path index phase =>
    have stat : l.stat path = l'.stat path := same.stat
    have found : l.foundAt (Path.components path) = l'.foundAt (Path.components path) := same.found
    cases phase with
    | stat => trivial
    | consulting | scanning | keeping => simpa only [IsCurrent,Scan.IsCurrent,stat,found] using current

/-- A call that begins knows nothing yet. -/
theorem IsFirst.knows_nothing (first : call.IsFirst) : (∀ past, call.Fits past l) ∧ call.IsCurrent l := by
  cases call with
  | inspect path phase =>
    cases phase with
    | stat => exact ⟨fun _ => trivial,trivial⟩
    | consulting | inspecting | keeping => exact first.elim
  | scan path index phase =>
    cases phase with
    | stat => exact ⟨fun _ => trivial,trivial⟩
    | consulting | scanning | keeping => exact first.elim

/-- Only a call that succeeds keeps something, and that is about its own file. -/
theorem turn_keeps (call : Call) (s : State) : (call.turn s).Leads (fun t _ => s.SameFindings t)
    (fun t answer => s.SameFindings t ∨ ¬ answer.IsFailure ∧ s.SameApart t call.place) := by
  cases call with
  | inspect path phase =>
    refine (Inspection.turn_keeps phase).within (fun _ _ same => same) fun t r keeps => keeps.imp_right ?_
    rintro ⟨⟨report,rfl⟩,apart⟩
    exact ⟨nofun,apart⟩
  | scan path index phase =>
    refine (Scan.turn_keeps phase).within (fun _ _ same => same) fun t r keeps => keeps.imp_right ?_
    rintro ⟨⟨frames,rfl⟩,apart⟩
    exact ⟨nofun,apart⟩

theorem turnsLeft_inspect (path : List Char) (phase : Inspection) : (inspect path phase).turnsLeft = phase.turnsLeft := by
  cases phase <;> rfl

theorem turnsLeft_scan (path : List Char) (index : Nat) (phase : Scan) :
    (scan path index phase).turnsLeft = phase.turnsLeft := by
  cases phase <;> rfl

/-- A call never waits for another one, and is done after a few turns. -/
theorem turn_advances (call : Call) (s : State) : ¬ (call.turn s).Waits ∧
    (call.turn s).Leads (fun _ c => c.path = call.path ∧ c.turnsLeft < call.turnsLeft) (fun _ _ => True) := by
  cases call with
  | inspect path phase =>
    obtain ⟨moves,advances⟩ := phase.turn_advances path s
    refine ⟨Turn.not_waits_within moves fun _ _ => id,advances.within (fun _ p less => ⟨rfl,?_⟩) fun _ _ _ => trivial⟩
    rw [turnsLeft_inspect,turnsLeft_inspect]
    exact less
  | scan path index phase =>
    obtain ⟨moves,advances⟩ := phase.turn_advances path index s
    refine ⟨Turn.not_waits_within moves fun _ _ => id,advances.within (fun _ p less => ⟨rfl,?_⟩) fun _ _ _ => trivial⟩
    rw [turnsLeft_scan,turnsLeft_scan]
    exact less

end Call

end Playout.Catalogue
