import Mathlib.Data.Multiset.MapFold
import Mathlib.Logic.Relation
import Playout.Proofs.Catalogue.Findings

/-!
What is kept of a file is never passed off for a later state of it. Any number of
inspections and scans go on at once (`Traffic`) while files are replaced and findings
are dropped, where a file that is replaced gets a modification time that it never had.
Whoever asks after the last replacement comes to what there is to find out now.
-/
namespace Playout.Catalogue
open Library

/-- A call, with the libraries that there have been since it began, the present one included. -/
structure Enquiry where
  call : Call
  seen : List Library

/-- The catalogue with the calls on it, and all libraries that there have been, the present one included. -/
structure Traffic where
  state : State
  past : List Library
  enquiries : Multiset Enquiry := 0

namespace Traffic

/-- A catalogue that has found out nothing yet. -/
def start (library : Library) (renderings : RenderingCache) : Traffic where
  state := { library, renderings }
  past := [library]

/-- One step of the traffic: a call begins, takes a turn or comes to its end, the findings about a file are dropped,
    or files are replaced. -/
inductive Step : Traffic → Traffic → Prop
  | begin {w : Traffic} (call : Call) (first : call.IsFirst) :
      Step w { w with enquiries := ⟨call,[w.state.library]⟩ ::ₘ w.enquiries }
  | goesOn {w : Traffic} (e : Enquiry) (others : Multiset Enquiry) (going : w.enquiries = e ::ₘ others)
      {s : State} {next : Call} (turned : e.call.turn w.state = .goesOn s next) :
      Step w { w with state := s, enquiries := ⟨next,e.seen⟩ ::ₘ others }
  | ends {w : Traffic} (e : Enquiry) (others : Multiset Enquiry) (going : w.enquiries = e ::ₘ others)
      {s : State} {answer : Answer} (turned : e.call.turn w.state = .ends s answer) :
      Step w { w with state := s, enquiries := others }
  | forget {w : Traffic} (path : List Char) : Step w { w with state := w.state.forget path }
  | replace {w : Traffic} (library : Library)
      (changed : ∀ place, w.state.library.IsSameAt library place ∨ IsNewAt w.past library place) :
      Step w {
        state := { w.state with library }
        past := library :: w.past
        enquiries := w.enquiries.map fun e => ⟨e.call,library :: e.seen⟩ }

/-- Some history leads from a catalogue that has found out nothing to the traffic. -/
def Reachable (w : Traffic) : Prop := ∃ library renderings, Relation.ReflTransGen Step (start library renderings) w

/-- The file of a call has not been replaced since the call began. -/
def Unchanged (w : Traffic) (e : Enquiry) : Prop := ∀ l ∈ e.seen, l.IsSameAt w.state.library e.call.place

/-- What every history keeps up. -/
structure IsSound (w : Traffic) : Prop where
  present : w.state.library ∈ w.past
  dated : w.state.IsDated w.past
  fits : ∀ e ∈ w.enquiries, e.call.Fits w.past w.state.library
  seen : ∀ e ∈ w.enquiries, w.state.library ∈ e.seen
  current : ∀ e ∈ w.enquiries, w.Unchanged e → e.call.IsCurrent w.state.library

theorem isSound_start (library : Library) (renderings : RenderingCache) : (start library renderings).IsSound where
  present := .head _
  dated := ⟨nofun,nofun⟩
  fits := nofun
  seen := nofun
  current := nofun

/-- A turn of one call leaves what the other calls have found out as it was. -/
theorem IsSound.turned {w : Traffic} (sound : w.IsSound) {e : Enquiry} {others rest : Multiset Enquiry} {s : State}
    (going : w.enquiries = e ::ₘ others) (same : s.library = w.state.library) (dated : s.IsDated w.past)
    (fits : ∀ e' ∈ rest, e' ∈ others ∨ e'.call.Fits w.past w.state.library ∧ e'.seen = e.seen ∧
      e'.call.place = e.call.place ∧ (w.Unchanged e → e'.call.IsCurrent w.state.library)) :
    IsSound { w with state := s, enquiries := rest } := by
  have old {e' : Enquiry} (member : e' ∈ others) : e' ∈ w.enquiries := going ▸ Multiset.mem_cons_of_mem member
  have own : e ∈ w.enquiries := going ▸ Multiset.mem_cons_self e others
  refine ⟨same ▸ sound.present,dated,?_,?_,?_⟩ <;> dsimp only <;> rw [same] <;> intro e' member <;>
    rcases fits e' member with other | ⟨fits,seen,place,current⟩
  · exact sound.fits e' (old other)
  · exact fits
  · exact sound.seen e' (old other)
  · exact seen ▸ sound.seen e own
  · intro unchanged
    exact sound.current e' (old other) fun l before => same ▸ unchanged l before
  · intro unchanged
    refine current fun l before => ?_
    have spared : l.IsSameAt s.library e'.call.place := unchanged l (seen ▸ before)
    rwa [same,place] at spared

theorem IsSound.step {w w' : Traffic} (sound : w.IsSound) (step : Step w w') : w'.IsSound := by
  cases step with
  | begin call first =>
    refine ⟨sound.present,sound.dated,?_,?_,?_⟩ <;> intro e member <;>
      rcases Multiset.mem_cons.mp member with rfl | old
    · exact first.knows_nothing.1 w.past
    · exact sound.fits e old
    · exact .head _
    · exact sound.seen e old
    · exact fun _ => first.knows_nothing.2
    · exact sound.current e old
  | @goesOn e others going s next turned =>
    have own : e ∈ w.enquiries := going ▸ Multiset.mem_cons_self e others
    have kept := Call.turn_fits sound.present sound.dated (sound.fits e own)
    have advances := (Call.turn_advances e.call w.state).2
    have current (unchanged : w.Unchanged e) := Call.turn_current sound.dated (sound.current e own unchanged)
    rw [turned] at kept advances
    simp only [turned] at current
    obtain ⟨⟨same,dated⟩,fits⟩ := kept
    refine sound.turned going same dated fun e' member => ?_
    rcases Multiset.mem_cons.mp member with rfl | old
    · exact .inr ⟨fits,rfl,congrArg Path.components advances.1,current⟩
    · exact .inl old
  | @ends e others going s answer turned =>
    have own : e ∈ w.enquiries := going ▸ Multiset.mem_cons_self e others
    have kept := Call.turn_fits sound.present sound.dated (sound.fits e own)
    rw [turned] at kept
    obtain ⟨same,dated⟩ := kept
    exact sound.turned going same dated fun e' member => .inl member
  | forget path => exact ⟨sound.present,sound.dated.forget path,sound.fits,sound.seen,sound.current⟩
  | replace library changed =>
    refine ⟨.head _,sound.dated.replace changed,?_,?_,?_⟩
    · intro e' member
      obtain ⟨e,old,rfl⟩ := Multiset.mem_map.mp member
      exact (sound.fits e old).replace (changed _)
    · intro e' member
      obtain ⟨e,old,rfl⟩ := Multiset.mem_map.mp member
      exact .head _
    · intro e' member unchanged
      obtain ⟨e,old,rfl⟩ := Multiset.mem_map.mp member
      have spared : w.state.library.IsSameAt library e.call.place := unchanged _ (.tail _ (sound.seen e old))
      refine (sound.current e old ?_).replace spared
      exact fun l before => (unchanged l (.tail _ before)).trans spared.symm

theorem isSound_of_reachable {w : Traffic} (reachable : w.Reachable) : w.IsSound := by
  obtain ⟨library,renderings,history⟩ := reachable
  induction history with
  | refl => exact isSound_start library renderings
  | tail _ step ih => exact ih.step step

/-- Whatever is kept, and whatever calls come to, is about the files as they are. -/
structure IsUpToDate (w : Traffic) : Prop where
  /-- A call whose file has not been replaced since it began comes to what there is to find out now. -/
  answers : ∀ e ∈ w.enquiries, w.Unchanged e → ∀ s answer, e.call.turn w.state = .ends s answer →
    answer = e.call.answerNow w.state
  /-- It comes to that after a few turns. -/
  advances : ∀ e ∈ w.enquiries, (∃ s answer, e.call.turn w.state = .ends s answer) ∨
    ∃ s next, e.call.turn w.state = .goesOn s next ∧ next.turnsLeft < e.call.turnsLeft
  /-- There is a report to find out if the tool finds tracks in a file; the file tells the size if the tool does not. -/
  made : ∀ path report, w.state.reportNow path = .ok report ↔ ∃ file, w.state.library.stat path = .ok file ∧
    IsReport report file (w.state.library.inspected path)
  /-- What is kept of a file under the time that it has is the same as what there is to find out. -/
  reports : ∀ path file report, w.state.library.stat path = .ok file →
    Finding.find? w.state.reports (Path.components path) file.modified = some report → w.state.reportNow path = .ok report
  keyframes : ∀ path index file frames, w.state.library.stat path = .ok file →
    Finding.find? w.state.keyframes (Path.components path,index) file.modified = some frames →
      w.state.keyframesNow path = .ok frames
  /-- What is kept was found out, and no report without tracks is. -/
  kept : ∀ f ∈ w.state.reports, f.value.tracks ≠ [] ∧ Was w.past f.key (IsReport f.value)
  scanned : ∀ f ∈ w.state.keyframes, Was w.past f.key.1 (IsFrames f.value)
  /-- Only a call that succeeds keeps something, and the findings about other files stay as they are. -/
  keeps : ∀ e ∈ w.enquiries, (e.call.turn w.state).Leads (fun s _ => w.state.SameFindings s) fun s answer =>
    w.state.SameFindings s ∨ ¬ answer.IsFailure ∧ w.state.SameApart s e.call.place
  /-- So do they if what is known of one file is dropped. -/
  forgets : ∀ path, w.state.SameApart (w.state.forget path) (Path.components path)

theorem reportNow_eq_ok {s : State} {path : List Char} {report : Probe.Container} :
    s.reportNow path = .ok report ↔ ∃ file, s.library.stat path = .ok file ∧
      IsReport report file (s.library.inspected path) := by
  rw [State.reportNow,State.stat]
  cases here : s.library.stat path with
  | error why =>
    constructor
    · intro made
      cases made
    · rintro ⟨file,there,_⟩
      cases there
  | ok file =>
    change Inspection.report s path file.size = .ok report ↔ _
    rw [report_eq_ok]
    constructor
    · exact fun made => ⟨file,rfl,made⟩
    · rintro ⟨file',same,made⟩
      cases same
      exact made

theorem sameApart_forget (s : State) (path : List Char) : s.SameApart (s.forget path) (Path.components path) where
  reports := by simp [State.forget,List.filter_filter]
  keyframes := by simp [State.forget,List.filter_filter]

/-- Findings are never out of date: in every history of inspections and scans, of replaced files and dropped findings,
    a call that begins after its file was replaced for the last time comes to what there is to find out about it. -/
theorem findings_are_current {w : Traffic} (reachable : w.Reachable) : w.IsUpToDate := by
  have sound := isSound_of_reachable reachable
  exact {
    answers := by
      intro e member unchanged s answer turned
      have current := Call.turn_current sound.dated (sound.current e member unchanged)
      rwa [turned] at current
    advances := by
      intro e member
      obtain ⟨moves,advances⟩ := Call.turn_advances e.call w.state
      cases turned : e.call.turn w.state with
      | blocked wake =>
        rw [turned] at moves
        exact absurd trivial moves
      | goesOn s next =>
        rw [turned] at advances
        exact .inr ⟨s,next,rfl,advances.2⟩
      | ends s answer => exact .inl ⟨s,answer,rfl⟩
    made := fun path report => reportNow_eq_ok
    reports := by
      intro path file report here found
      obtain ⟨known,_⟩ := sound.dated.reports _ (Finding.find?_eq_some found)
      exact reportNow_eq_ok.mpr ⟨file,here,known.holds file (showsAt_of_stat here) rfl⟩
    keyframes := by
      intro path index file frames here found
      obtain ⟨known,_⟩ := sound.dated.keyframes _ (Finding.find?_eq_some found)
      have scanned : (w.state.library.inspected path).keyframes = .ok frames :=
        known.holds file (showsAt_of_stat here) rfl
      rw [State.keyframesNow,State.stat,here,scanned]
      rfl
    kept := by
      intro f member
      obtain ⟨_,l,before,file,c,found,some_track,sized⟩ := sound.dated.reports f member
      exact ⟨sized ▸ some_track,l,before,file,c,found,some_track,sized⟩
    scanned := fun f member => (sound.dated.keyframes f member).2
    keeps := fun e member => Call.turn_keeps e.call w.state
    forgets := fun path => sameApart_forget w.state path }

/-- A library of one film. -/
def shelf (film : MediaFile) : Library where
  root := []
  nodes := [([],.directory),([.name ['f']],.file film)]
  unlisted := default

/-- What stands at a place is the film, or does not depend on it. -/
theorem node?_shelf (place : Place) : (∀ film, (shelf film).node? place = some (.file film)) ∨
    ∃ other, (∀ film, other ≠ some (.file film)) ∧ ∀ film, (shelf film).node? place = other := by
  by_cases root : place = []
  · exact .inr ⟨some .directory,by simp,by simp [node?,shelf,root]⟩
  · by_cases here : place = [.name ['f']]
    · exact .inl (by simp [node?,shelf,here])
    · exact .inr ⟨none,by simp,by simp [node?,shelf,Ne.symm root,Ne.symm here]⟩

/-- A path leads to the film, or to something that does not depend on it. -/
theorem walk_shelf (place : Place) (path : List Path.Component) :
    (∀ film, (shelf film).walk place path = .ok (.file film)) ∨
      ∃ other, ∀ film, (shelf film).walk place path = other := by
  induction path generalizing place with
  | nil =>
    simp only [walk]
    rcases node?_shelf place with here | ⟨other,_,there⟩
    · exact .inl fun film => by rw [here]
    · exact .inr ⟨_,fun film => by rw [there]⟩
  | cons component path ih =>
    simp only [walk]
    rcases node?_shelf place with here | ⟨other,apart,there⟩
    · exact .inr ⟨_,fun film => by rw [here]⟩
    · simp only [there]
      rcases other with _ | ⟨_ | file⟩
      · exact .inr ⟨_,fun _ => rfl⟩
      · dsimp only
        cases nameFault? component with
        | none => exact ih _
        | some why => exact .inr ⟨_,fun _ => rfl⟩
      · exact absurd rfl (apart file)

theorem replaces_shelf {old new : MediaFile} (later : old.modified ≠ new.modified) (place : Place) :
    (shelf old).IsSameAt (shelf new) place ∨ IsNewAt [shelf old] (shelf new) place := by
  rcases walk_shelf [] place with leads | ⟨other,leads⟩
  · refine .inr fun file shown l before file₀ shown₀ => ?_
    obtain rfl := List.mem_singleton.mp before
    rw [ShowsAt,leads] at shown shown₀
    cases shown
    cases shown₀
    exact later
  · refine .inl ⟨(leads old).trans (leads new).symm,?_⟩
    by_cases here : place = [.name ['f']]
    · subst here
      have same : Except.ok (Node.file old) = (.ok (.file new) : Except String Node) :=
        (leads old).trans (leads new).symm
      cases same
      exact absurd rfl later
    · by_cases root : place = []
      · subst root
        rfl
      · simp [foundAt,node?,shelf,Ne.symm here]

/-- A film with one track, of which the tool does not tell the size. -/
def film (modified : Int) (size : Nat) : MediaFile where
  size := size
  modified := modified
  report := .ok ⟨default,[default]⟩
  keyframes := .ok [0]

/-- A film is replaced while it is inspected, so that the report about the new one is kept under the time of the old
    one. It is of no use to the next inspection, which comes to the size of the new film. -/
theorem replaced_film_is_inspected_again : ∃ w e s answer, Reachable w ∧ e ∈ w.enquiries ∧ w.Unchanged e ∧
    (∃ report, w.state.reports = [⟨[.name ['f']],report,1⟩]) ∧ e.call.turn w.state = .ends s answer ∧
      answer = .report (.ok (sized 20 ⟨default,[default]⟩)) := by
  have asked : Relation.ReflTransGen Step (start (shelf (film 1 10)) default) _ :=
    .tail .refl (.begin (.inspect ['f'] .stat) trivial)
  have dated := asked.tail (.goesOn _ 0 rfl rfl)
  have unknown := dated.tail (.goesOn _ 0 rfl rfl)
  have replaced := unknown.tail (.replace (shelf (film 2 20)) (replaces_shelf (by decide)))
  have reported := replaced.tail (.goesOn _ 0 rfl rfl)
  have kept := reported.tail (.ends _ 0 rfl rfl)
  have again := kept.tail (.begin (.inspect ['f'] .stat) trivial)
  have dated' := again.tail (.goesOn _ 0 rfl rfl)
  have outdated := dated'.tail (.goesOn _ 0 rfl rfl)
  have reported' := outdated.tail (.goesOn _ 0 rfl rfl)
  have unchanged : ∀ l ∈ [shelf (film 2 20)], l.IsSameAt (shelf (film 2 20)) [.name ['f']] := by
    intro l before
    obtain rfl := List.mem_singleton.mp before
    exact .refl _ _
  have answer := (findings_are_current ⟨_,_,reported'⟩).answers _ (Multiset.mem_singleton_self _) unchanged _ _ rfl
  exact ⟨_,_,_,_,⟨_,_,reported'⟩,Multiset.mem_singleton_self _,unchanged,⟨_,rfl⟩,rfl,answer⟩

end Traffic
end Playout.Catalogue
