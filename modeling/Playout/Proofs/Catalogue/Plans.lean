import Playout.Proofs.Catalogue.Currency
import Playout.Proofs.Representation.Cache

/-!
A plan is kept under a modification time that is looked up after its stream was found, so it is not kept as
carefully as the findings are. If the file is replaced between the two, the plan of the old file is kept under the
time of the new one, and is served to whoever asks next, whatever he has found out himself. Nothing else goes wrong:
in every history without such a replacement (`Planning`), whoever asks after the last one is served a plan of what
there is to find out now.
-/
namespace Playout.RenderingCache

/-! ### What is kept -/

/-- The renderings that are kept, whenever they were used last. -/
def plans (c : RenderingCache) : List (RenderingKey × Rendering × Option Int) :=
  c.entries.map fun e => (e.key,e.rendering,e.modified)

variable {c : RenderingCache} {now : Nat} {modified : Option Int} {key : RenderingKey} {rendering : Rendering}

theorem plans_retain_subset (keep : CachedRendering → Bool) : (c.retain keep).plans ⊆ c.plans :=
  List.map_subset _ (List.filter_sublist.subset)

theorem plans_lookup_subset : (c.lookup now modified key).1.plans ⊆ c.plans := by
  rw [lookup]
  split
  · exact List.Subset.refl _
  · split
    · intro plan kept
      obtain ⟨e,used,rfl⟩ := List.mem_map.mp kept
      obtain ⟨f,member,rfl⟩ := List.mem_map.mp used
      refine List.mem_map.mpr ⟨f,member,?_⟩
      split <;> rfl
    · exact plans_retain_subset _

/-- What a look into the cache gives is kept under the key and, if they are known, under the time. -/
theorem mem_plans_of_lookup (found : (c.lookup now modified key).2 = some rendering) :
    ∃ dated, (key,rendering,dated) ∈ c.plans ∧ sameState dated modified = true := by
  rw [lookup] at found
  split at found
  · cases found
  · next e there =>
    split at found
    · next valid =>
      have named : e.key = key := by simpa using List.find?_some there
      have member : (e.key,e.rendering,e.modified) ∈ c.plans := List.mem_map_of_mem (List.mem_of_find?_eq_some there)
      rw [isValid,Bool.and_eq_true] at valid
      rw [named,Option.some.inj found] at member
      exact ⟨e.modified,member,valid.2⟩
    · cases found

theorem plans_insert_subset : (c.insert now modified key rendering).plans ⊆ (key,rendering,modified) :: c.plans := by
  have room : c.makeRoom.plans ⊆ c.plans := by
    rw [makeRoom]
    split
    · split
      · exact plans_retain_subset _
      · exact List.Subset.refl _
    · exact List.Subset.refl _
  intro plan kept
  rw [insert,plans,List.map_append] at kept
  rcases List.mem_append.mp kept with old | new
  · exact .tail _ (room (plans_retain_subset _ old))
  · obtain rfl := List.mem_singleton.mp new
    exact .head _

end Playout.RenderingCache

namespace Playout.Catalogue
open Library

/-! ### Facts about the present file -/

namespace Library

/-- The path of the file that a stream is in. -/
def pathOf (l : Library) (key : StreamKey) : List Char := key.locator.resolve l.root

/-- There is a file at a path, and a fact holds of it and of what the tool finds. -/
def Holds (l : Library) (path : List Char) (fact : MediaFile → MediaFile → Prop) : Prop :=
  ∃ file, l.stat path = .ok file ∧ fact file (l.foundAt (Path.components path))

variable {past : List Library} {l l' : Library} {place : Place} {path : List Char} {modified : Int}
  {fact fact' : MediaFile → MediaFile → Prop}

theorem Holds.replace (holds : l.Holds path fact) (same : l.IsSameAt l' (Path.components path)) :
    l'.Holds path fact := by
  obtain ⟨file,here,now⟩ := holds
  exact ⟨file,same.stat ▸ here,same.found ▸ now⟩

theorem Holds.imp (holds : l.Holds path fact) (imp : ∀ file found, fact file found → fact' file found) :
    l.Holds path fact' := by
  obtain ⟨file,here,now⟩ := holds
  exact ⟨file,here,imp _ _ now⟩

/-- A fact about the present file is one that is known under the time of the file. -/
theorem Holds.dated (present : l ∈ past)
    (holds : l.Holds path fun file found => file.modified = modified ∧ fact file found) :
    Dated past l (Path.components path) modified fact := by
  obtain ⟨file,here,time,now⟩ := holds
  have shown := showsAt_of_stat here
  refine ⟨⟨l,present,file,shown,time⟩,fun file' shown' _ => ?_⟩
  rw [shown.unique shown']
  exact now

/-- What is known under the time of the present file is a fact about it. -/
theorem Dated.holds_now (dated : Dated past l (Path.components path) modified fact)
    (timed : l.Holds path fun file _ => file.modified = modified) : l.Holds path fact := by
  obtain ⟨file,here,time⟩ := timed
  exact ⟨file,here,dated.holds file (showsAt_of_stat here) time⟩

theorem Dated.imp (dated : Dated past l place modified fact)
    (imp : ∀ file, l.ShowsAt place file → fact file (l.foundAt place) → fact' file (l.foundAt place)) :
    Dated past l place modified fact' :=
  ⟨dated.shown,fun file shown time => imp file shown (dated.holds file shown time)⟩

end Library

/-! ### Plans -/

/-- What a resolution finds in a file: a stream of it. -/
def IsStream (key : StreamKey) (stream : Stream) (file found : MediaFile) : Prop :=
  ∃ report, IsReport report file found ∧ streamOf key report = .ok stream

/-- The keyframes that a representation of a stream is planned with. -/
def IsFramesFor (id : RepresentationId) (stream : Stream) (frames : List Int) (file found : MediaFile) : Prop :=
  if needsKeyframes stream id then IsFrames frames file found else frames = []

theorem framesFor_nil {id : RepresentationId} {stream : Stream} {file found : MediaFile}
    (needless : ¬ needsKeyframes stream id = true) : IsFramesFor id stream [] file found :=
  (if_neg needless).mpr rfl

theorem framesFor_of_needed {id : RepresentationId} {stream : Stream} {frames : List Int} {file found : MediaFile}
    (needed : needsKeyframes stream id = true) (scanned : IsFrames frames file found) :
    IsFramesFor id stream frames file found :=
  (if_pos needed).mpr scanned

/-- What a resolution makes of a file and of what the tool finds. -/
def IsPlan (segmentSeconds : Float) (key : RenderingKey) (rendering : Rendering) (file found : MediaFile) : Prop :=
  ∃ stream frames, IsStream key.1 stream file found ∧ IsFramesFor key.2 stream frames file found ∧
    resolve segmentSeconds stream key.2 frames = .ok rendering

/-- Every plan that is kept is kept under some time, and is one of the present file if that has the time. -/
def PlansFit (segmentSeconds : Float) (past : List Library) (l : Library) (c : RenderingCache) : Prop :=
  ∀ plan ∈ c.plans, ∃ modified, plan.2.2 = some modified ∧
    Dated past l (Path.components (l.pathOf plan.1.1)) modified (IsPlan segmentSeconds plan.1 plan.2.1)

namespace State

/-- The stream of a key as things are. -/
def streamNow (s : State) (key : StreamKey) : Result Stream := do
  let report ← s.reportNow (s.pathOf key.locator)
  streamOf key report

/-- The keyframes that a representation of a stream is planned with as things are. -/
def framesNow (s : State) (key : StreamKey) (id : RepresentationId) (stream : Stream) : Result (List Int) :=
  if needsKeyframes stream id then s.keyframesNow (s.pathOf key.locator) else .ok []

/-- What a resolution comes to as things are. -/
def renderingNow (segmentSeconds : Float) (s : State) (key : StreamKey) (id : RepresentationId) : Result Rendering := do
  let stream ← s.streamNow key
  let frames ← s.framesNow key id stream
  resolve segmentSeconds stream id frames

variable {segmentSeconds : Float} {s : State} {key : StreamKey} {id : RepresentationId} {stream : Stream}
  {frames : List Int} {rendering : Rendering} {path : List Char}

theorem streamNow_eq_ok :
    s.streamNow key = .ok stream ↔ s.library.Holds (s.pathOf key.locator) (IsStream key stream) := by
  constructor
  · intro made
    rw [streamNow] at made
    cases reported : s.reportNow (s.pathOf key.locator) with
    | error e =>
      rw [reported] at made
      cases made
    | ok report =>
      rw [reported] at made
      obtain ⟨file,here,reports⟩ := Traffic.reportNow_eq_ok.mp reported
      exact ⟨file,here,report,reports,made⟩
  · rintro ⟨file,here,report,reports,made⟩
    rw [streamNow,Traffic.reportNow_eq_ok.mpr ⟨file,here,reports⟩]
    exact made

theorem keyframesNow_eq_ok : s.keyframesNow path = .ok frames ↔ s.library.Holds path (IsFrames frames) := by
  have found : s.library.inspected path = s.library.foundAt (Path.components path) := rfl
  rw [keyframesNow,State.stat,found]
  cases here : s.library.stat path with
  | error why =>
    constructor
    · intro made
      cases made
    · rintro ⟨file,there,_⟩
      rw [here] at there
      cases there
  | ok file =>
    cases scanned : (s.library.foundAt (Path.components path)).keyframes with
    | error why =>
      constructor
      · intro made
        cases made
      · rintro ⟨_,_,made⟩
        rw [IsFrames,scanned] at made
        cases made
    | ok frames' =>
      constructor
      · intro made
        cases made
        exact ⟨file,here,scanned⟩
      · rintro ⟨_,_,made⟩
        rw [IsFrames,scanned] at made
        cases made
        rfl

theorem framesNow_eq_ok (framed : s.library.Holds (s.pathOf key.locator) (IsFramesFor id stream frames)) :
    s.framesNow key id stream = .ok frames := by
  rw [framesNow]
  split
  · next needed =>
    refine keyframesNow_eq_ok.mpr (framed.imp fun file found framed => ?_)
    rwa [IsFramesFor,if_pos needed] at framed
  · next needless =>
    obtain ⟨_,_,none⟩ := framed
    rw [IsFramesFor,if_neg needless] at none
    rw [none]

/-- A plan of the present file is what a resolution comes to. -/
theorem renderingNow_eq_ok
    (planned : s.library.Holds (s.pathOf key.locator) (IsPlan segmentSeconds (key,id) rendering)) :
    s.renderingNow segmentSeconds key id = .ok rendering := by
  obtain ⟨file,here,stream,frames,streams,framed,made⟩ := planned
  rw [renderingNow,streamNow_eq_ok.mpr ⟨file,here,streams⟩]
  change (s.framesNow key id stream >>= _) = _
  rw [framesNow_eq_ok ⟨file,here,framed⟩]
  exact made

/-- Everything that is kept is about the present files if these have the times that it is kept under. -/
structure IsSound (segmentSeconds : Float) (past : List Library) (s : State) : Prop where
  dated : s.IsDated past
  plans : PlansFit segmentSeconds past s.library s.renderings

/-- A plan that is kept under the time of the present file is what a resolution comes to. -/
theorem IsSound.rendering_of_lookup {past : List Library} {modified : Int} {now : Nat}
    (sound : s.IsSound segmentSeconds past)
    (timed : s.library.Holds (s.pathOf key.locator) fun file _ => file.modified = modified)
    (hit : (s.renderings.lookup now (some modified) (key,id)).2 = some rendering) :
    s.renderingNow segmentSeconds key id = .ok rendering := by
  obtain ⟨dated,kept,same⟩ := RenderingCache.mem_plans_of_lookup hit
  obtain ⟨_,rfl,known⟩ := sound.plans _ kept
  obtain rfl := by simpa [RenderingCache.sameState] using same
  exact renderingNow_eq_ok (known.holds_now timed)

end State

/-! ### One turn -/

theorem Inspection.turn_spares (path : List Char) (phase : Inspection) (s : State) :
    (phase.turn path s).Leads (fun t _ => t.renderings = s.renderings) (fun t _ => t.renderings = s.renderings) := by
  cases phase with
  | stat =>
    rw [turn]
    split <;> rfl
  | consulting modified size =>
    rw [turn]
    split <;> rfl
  | inspecting modified size =>
    rw [turn]
    split <;> rfl
  | keeping modified report => rfl

/-- The time that a scan is about is that of a file. -/
def Scan.IsOf (file : MediaFile) : Scan → Prop
  | stat => True
  | consulting modified | scanning modified | keeping modified _ => file.modified = modified

/-- A scan is about one time, and what it comes to is about the file that has the time. -/
theorem Scan.turn_isOf {past : List Library} {path : List Char} {index : Nat} {phase : Scan} {s : State}
    (dated : s.IsDated past) (fits : phase.Fits past s.library (Path.components path)) :
    (phase.turn path index s).Leads
      (fun _ p => ∀ file, s.library.ShowsAt (Path.components path) file → phase.IsOf file → p.IsOf file)
      (fun _ r => ∀ frames, r = .ok frames → ∀ file, s.library.ShowsAt (Path.components path) file →
        phase.IsOf file → IsFrames frames file (s.library.foundAt (Path.components path))) := by
  cases phase with
  | stat =>
    rw [turn,State.stat]
    cases here : s.library.stat path with
    | error why =>
      intro frames made
      cases made
    | ok file =>
      intro file' shown' _
      rw [(showsAt_of_stat here).unique shown']
      rfl
  | consulting modified =>
    rw [turn]
    split
    · next kept found =>
      rintro _ made file shown time
      obtain ⟨known,_⟩ := dated.keyframes _ (Finding.find?_eq_some found)
      cases made
      exact known.holds file shown time
    · exact fun _ _ time => time
  | scanning modified =>
    rw [turn]
    split
    · intro frames made
      cases made
    · exact fun _ _ time => time
  | keeping modified frames =>
    rintro _ made file shown time
    cases made
    exact fits.1.holds file shown time

namespace Resolution

/-- Whether a resolution has looked at the file, but not yet for the time that its plan is to be kept under. -/
def IsUndated : Resolution → Prop
  | inspecting .stat | consulting .. | scanning .. | keeping .. => False
  | inspecting (.consulting ..) | inspecting (.inspecting ..) | inspecting (.keeping ..) | dating _ => True

/-- What was found out before a phase, of the file of a time. -/
def Fits (segmentSeconds : Float) (key : StreamKey) (id : RepresentationId) (past : List Library) (l : Library) :
    Resolution → Prop
  | inspecting phase => phase.Fits past l (Path.components (l.pathOf key))
  | dating _ => True
  | consulting stream modified => Dated past l (Path.components (l.pathOf key)) modified (IsStream key stream)
  | scanning stream modified phase =>
    Dated past l (Path.components (l.pathOf key)) modified
      (fun file found => IsStream key stream file found ∧ phase.IsOf file) ∧
    phase.Fits past l (Path.components (l.pathOf key)) ∧ needsKeyframes stream id = true
  | keeping modified rendering =>
    Dated past l (Path.components (l.pathOf key)) modified (IsPlan segmentSeconds (key,id) rendering)

/-- What was found out before a phase is about the present file. -/
def IsCurrent (segmentSeconds : Float) (key : StreamKey) (id : RepresentationId) (l : Library) : Resolution → Prop
  | inspecting phase => phase.IsCurrent l (l.pathOf key)
  | dating stream => l.Holds (l.pathOf key) (IsStream key stream)
  | consulting stream modified =>
    l.Holds (l.pathOf key) fun file found => file.modified = modified ∧ IsStream key stream file found
  | scanning stream _ phase => l.Holds (l.pathOf key) (IsStream key stream) ∧ phase.IsCurrent l (l.pathOf key) ∧
      needsKeyframes stream id = true
  | keeping _ rendering => l.Holds (l.pathOf key) (IsPlan segmentSeconds (key,id) rendering)

variable {segmentSeconds : Float} {clock : Clock} {key : StreamKey} {id : RepresentationId} {past : List Library}
  {l : Library} {s : State} {stream : Stream} {modified : Int} {frames : List Int} {phase : Resolution}

theorem made_fits (streams : Dated past l (Path.components (l.pathOf key)) modified (IsStream key stream))
    (framed : Dated past l (Path.components (l.pathOf key)) modified (IsFramesFor id stream frames)) :
    (made segmentSeconds id stream modified frames s).Leads
      (fun t p => t = s ∧ p.Fits segmentSeconds key id past l) (fun t _ => t = s) := by
  rw [made]
  split
  · rfl
  · next rendering planned =>
    refine ⟨rfl,streams.shown,fun file shown time => ?_⟩
    exact ⟨stream,frames,streams.holds file shown time,framed.holds file shown time,planned⟩

theorem turn_fits (present : s.library ∈ past) (sound : s.IsSound segmentSeconds past)
    (fits : phase.Fits segmentSeconds key id past s.library)
    (current : phase.IsUndated → phase.IsCurrent segmentSeconds key id s.library) :
    (phase.turn segmentSeconds clock key id s).Leads
      (fun t p => (t.library = s.library ∧ t.IsSound segmentSeconds past) ∧
        p.Fits segmentSeconds key id past s.library)
      (fun t _ => t.library = s.library ∧ t.IsSound segmentSeconds past) := by
  have kept {t : State} (same : t.library = s.library) (dated : t.IsDated past) (spared : t.renderings = s.renderings) :
      t.library = s.library ∧ t.IsSound segmentSeconds past :=
    ⟨same,dated,by rw [same,spared]; exact sound.plans⟩
  cases phase with
  | inspecting phase =>
    refine ((Inspection.turn_fits present sound.dated fits).and (Inspection.turn_spares _ phase s)).within ?_ ?_
    · rintro t p ⟨⟨⟨same,dated⟩,fits⟩,spared⟩
      exact ⟨kept same dated spared,fits⟩
    · rintro t r ⟨⟨same,dated⟩,spared⟩
      cases r with
      | error e => exact kept same dated spared
      | ok report =>
        dsimp only
        split
        · exact kept same dated spared
        · exact ⟨kept same dated spared,trivial⟩
  | dating stream =>
    have found : s.library.Holds (s.library.pathOf key) (IsStream key stream) := current trivial
    obtain ⟨file,here,streams⟩ := found
    have looked : s.stat (s.pathOf key.locator) = .ok file := by
      rw [State.stat]
      exact here ▸ rfl
    simp only [turn,looked]
    exact ⟨⟨rfl,sound⟩,Holds.dated present ⟨file,here,rfl,streams⟩⟩
  | consulting stream modified =>
    let looked := (s.renderings.lookup clock.nanos (some modified) (key,id)).1
    have sound' : State.IsSound segmentSeconds past { s with renderings := looked } :=
      ⟨⟨sound.dated.reports,sound.dated.keyframes⟩,
        fun plan kept => sound.plans plan (RenderingCache.plans_lookup_subset kept)⟩
    simp only [turn]
    split
    · exact ⟨rfl,sound'⟩
    · split
      · next needed => exact ⟨⟨rfl,sound'⟩,fits.imp fun _ _ streams => ⟨streams,trivial⟩,trivial,needed⟩
      · next needless =>
        refine (made_fits fits (fits.imp fun _ _ _ => framesFor_nil needless)).mono ?_ ?_
        · rintro t p ⟨rfl,fits⟩
          exact ⟨⟨rfl,sound'⟩,fits⟩
        · rintro t r rfl
          exact ⟨rfl,sound'⟩
  | scanning stream modified phase =>
    obtain ⟨known,fits,needed⟩ := fits
    refine (((Scan.turn_fits present sound.dated fits).and (Scan.turn_isOf sound.dated fits)).and
      (RenderingCache.scan_spares _ _ phase s)).within ?_ ?_
    · rintro t p ⟨⟨⟨⟨same,dated⟩,fits⟩,timed⟩,spared⟩
      exact ⟨kept same dated spared,known.imp fun file shown both => ⟨both.1,timed file shown both.2⟩,fits,needed⟩
    · rintro t r ⟨⟨⟨same,dated⟩,scanned⟩,spared⟩
      cases r with
      | error e => exact kept same dated spared
      | ok frames =>
        -- The scan looked up the time anew. As long as the file has the time of the plan, the two are the same.
        have framed : Dated past s.library (Path.components (s.library.pathOf key)) modified
            (IsFramesFor id stream frames) :=
          known.imp fun file shown both => framesFor_of_needed needed (scanned frames rfl file shown both.2)
        refine (made_fits (known.imp fun _ _ both => both.1) framed).mono ?_ ?_
        · rintro u p ⟨rfl,fits⟩
          exact ⟨kept same dated spared,fits⟩
        · rintro u r rfl
          exact kept same dated spared
  | keeping modified rendering =>
    refine ⟨rfl,⟨sound.dated.reports,sound.dated.keyframes⟩,fun plan kept => ?_⟩
    rcases List.mem_cons.mp (RenderingCache.plans_insert_subset kept) with rfl | old
    · exact ⟨modified,rfl,fits⟩
    · exact sound.plans plan old

theorem made_current (streams : s.library.Holds (s.library.pathOf key) (IsStream key stream))
    (framed : s.library.Holds (s.library.pathOf key) (IsFramesFor id stream frames)) {t : State} :
    (made segmentSeconds id stream modified frames t).Leads
      (fun _ p => p.IsCurrent segmentSeconds key id s.library)
      (fun _ r => r = s.renderingNow segmentSeconds key id) := by
  rw [made]
  split
  · next e refused =>
    change Except.error e = _
    rw [State.renderingNow,State.streamNow_eq_ok.mpr streams]
    change _ = s.framesNow key id stream >>= _
    rw [State.framesNow_eq_ok framed]
    exact refused.symm
  · next rendering planned =>
    obtain ⟨file,here,streams⟩ := streams
    obtain ⟨file',here',framed⟩ := framed
    obtain rfl := Except.ok.inj (here.symm.trans here')
    exact ⟨file,here,stream,frames,streams,framed,planned⟩

theorem turn_current (sound : s.IsSound segmentSeconds past)
    (current : phase.IsCurrent segmentSeconds key id s.library) :
    (phase.turn segmentSeconds clock key id s).Leads
      (fun _ p => p.IsCurrent segmentSeconds key id s.library)
      (fun _ r => r = s.renderingNow segmentSeconds key id) := by
  cases phase with
  | inspecting phase =>
    refine (Inspection.turn_current sound.dated current).within (fun _ _ current => current) fun t r made => ?_
    change r = s.reportNow (s.pathOf key.locator) at made
    have stream_now : s.streamNow key = r >>= streamOf key := by rw [State.streamNow,made]
    cases r with
    | error e =>
      change Except.error e = _
      rw [State.renderingNow,stream_now]
      rfl
    | ok report =>
      change s.streamNow key = streamOf key report at stream_now
      dsimp only
      split
      · next e none =>
        change Except.error e = _
        rw [State.renderingNow,stream_now,none]
        rfl
      · next stream found =>
        rw [found] at stream_now
        exact State.streamNow_eq_ok.mp stream_now
  | dating stream =>
    have found : s.library.Holds (s.library.pathOf key) (IsStream key stream) := current
    obtain ⟨file,here,streams⟩ := found
    have looked : s.stat (s.pathOf key.locator) = .ok file := by
      rw [State.stat]
      exact here ▸ rfl
    simp only [turn,looked]
    exact ⟨file,here,rfl,streams⟩
  | consulting stream modified =>
    obtain ⟨file,here,time,streams⟩ := current
    simp only [turn]
    split
    · next rendering hit => exact (sound.rendering_of_lookup ⟨file,here,time⟩ hit).symm
    · split
      · next needed => exact ⟨⟨file,here,streams⟩,trivial,needed⟩
      · next needless => exact made_current ⟨file,here,streams⟩ ⟨file,here,framesFor_nil needless⟩
  | scanning stream modified phase =>
    obtain ⟨streams,current,needed⟩ := current
    refine (Scan.turn_current sound.dated current).within (fun _ _ current => ⟨streams,current,needed⟩)
      fun t r made => ?_
    change r = s.keyframesNow (s.pathOf key.locator) at made
    cases r with
    | error e =>
      change Except.error e = _
      rw [State.renderingNow,State.streamNow_eq_ok.mpr streams]
      change _ = s.framesNow key id stream >>= _
      rw [State.framesNow,if_pos needed,← made]
      rfl
    | ok frames =>
      have scanned := State.keyframesNow_eq_ok.mp made.symm
      exact made_current streams (scanned.imp fun _ _ framed => framesFor_of_needed needed framed)
  | keeping modified rendering => exact (State.renderingNow_eq_ok current).symm

theorem made_undated {q : Prop} : (made segmentSeconds id stream modified frames s).Leads
    (fun _ p => p.IsUndated → q) (fun _ _ => True) := by
  rw [made]
  split
  · trivial
  · exact fun undated => undated.elim

/-- Only a resolution that has not looked up the time, or that just begins, leads to one that has not. -/
theorem turn_undated : (phase.turn segmentSeconds clock key id s).Leads
    (fun _ p => p.IsUndated → phase = .begin ∨ phase.IsUndated) (fun _ _ => True) := by
  cases phase with
  | inspecting phase =>
    have undated : inspecting phase = .begin ∨ (inspecting phase).IsUndated := by
      cases phase with
      | stat => exact .inl rfl
      | consulting | inspecting | keeping => exact .inr trivial
    refine (Turn.Leads.any (phase.turn (s.pathOf key.locator) s)).within (fun _ _ _ _ => undated) fun t r _ => ?_
    cases r with
    | error e => trivial
    | ok report =>
      dsimp only
      split
      · trivial
      · exact fun _ => undated
  | dating stream =>
    simp only [turn]
    split
    · trivial
    · exact fun undated => undated.elim
  | consulting stream modified =>
    simp only [turn]
    split
    · trivial
    · split
      · exact fun undated => undated.elim
      · exact made_undated
  | scanning stream modified phase =>
    refine (Turn.Leads.any (phase.turn (s.pathOf key.locator) key.index s)).within (fun _ _ _ undated => undated.elim)
      fun t r _ => ?_
    cases r with
    | error e => trivial
    | ok frames => exact made_undated
  | keeping modified rendering => trivial

/-- The greatest number of turns that a resolution still takes. -/
def turnsLeft : Resolution → Nat
  | inspecting phase => phase.turnsLeft + 7
  | dating _ => 7
  | consulting .. => 6
  | scanning _ _ phase => phase.turnsLeft + 1
  | keeping .. => 1

theorem made_advances {n : Nat} (more : 1 < n) : ¬ (made segmentSeconds id stream modified frames s).Waits ∧
    (made segmentSeconds id stream modified frames s).Leads (fun _ p => p.turnsLeft < n) (fun _ _ => True) := by
  rw [made]
  split
  · exact ⟨not_false,trivial⟩
  · exact ⟨not_false,more⟩

/-- A resolution never waits for another one, and is done after a few turns. -/
theorem turn_advances (segmentSeconds : Float) (clock : Clock) (key : StreamKey) (id : RepresentationId)
    (phase : Resolution) (s : State) : ¬ (phase.turn segmentSeconds clock key id s).Waits ∧
      (phase.turn segmentSeconds clock key id s).Leads (fun _ p => p.turnsLeft < phase.turnsLeft)
        (fun _ _ => True) := by
  cases phase with
  | inspecting phase =>
    obtain ⟨moves,advances⟩ := phase.turn_advances (s.pathOf key.locator) s
    refine ⟨Turn.not_waits_within moves fun t r => ?_,
      advances.within (fun _ p less => Nat.add_lt_add_right less 7) fun t r _ => ?_⟩
    · cases r with
      | error e => exact not_false
      | ok report =>
        dsimp only
        split <;> exact not_false
    · cases r with
      | error e => trivial
      | ok report =>
        dsimp only
        split
        · trivial
        · exact Nat.lt_add_of_pos_left phase.turnsLeft_pos
  | dating stream =>
    simp only [turn]
    split
    · exact ⟨not_false,trivial⟩
    · exact ⟨not_false,Nat.lt_succ_self _⟩
  | consulting stream modified =>
    simp only [turn]
    split
    · exact ⟨not_false,trivial⟩
    · split
      · exact ⟨not_false,Nat.lt_succ_self _⟩
      · exact made_advances (show 1 < 6 by decide)
  | scanning stream modified phase =>
    obtain ⟨moves,advances⟩ := phase.turn_advances (s.pathOf key.locator) key.index s
    have more := Nat.succ_lt_succ phase.turnsLeft_pos
    refine ⟨Turn.not_waits_within moves fun t r => ?_,
      advances.within (fun _ p less => Nat.succ_lt_succ less) fun t r _ => ?_⟩
    · cases r with
      | error e => exact not_false
      | ok frames => exact (made_advances more).1
    · cases r with
      | error e => trivial
      | ok frames => exact (made_advances more).2
  | keeping modified rendering => exact ⟨not_false,trivial⟩

theorem Fits.replace {l' : Library} (fits : phase.Fits segmentSeconds key id past l) (root : l'.root = l.root)
    (changed : l.IsSameAt l' (Path.components (l.pathOf key)) ∨ IsNewAt past l' (Path.components (l.pathOf key))) :
    phase.Fits segmentSeconds key id (l' :: past) l' := by
  have path : l'.pathOf key = l.pathOf key := congrArg key.locator.resolve root
  cases phase with
  | inspecting phase =>
    have inspect : (Call.inspect (l.pathOf key) phase).Fits past l := fits
    rw [Fits,path]
    exact inspect.replace changed
  | dating stream => trivial
  | consulting stream modified =>
    rw [Fits,path]
    exact Dated.replace fits changed
  | scanning stream modified phase =>
    have scan : (Call.scan (l.pathOf key) key.index phase).Fits past l := fits.2.1
    rw [Fits,path]
    exact ⟨fits.1.replace changed,scan.replace changed,fits.2.2⟩
  | keeping modified rendering =>
    rw [Fits,path]
    exact Dated.replace fits changed

theorem IsCurrent.replace {l' : Library} (current : phase.IsCurrent segmentSeconds key id l)
    (root : l'.root = l.root) (same : l.IsSameAt l' (Path.components (l.pathOf key))) :
    phase.IsCurrent segmentSeconds key id l' := by
  have path : l'.pathOf key = l.pathOf key := congrArg key.locator.resolve root
  cases phase with
  | inspecting phase =>
    have inspect : (Call.inspect (l.pathOf key) phase).IsCurrent l := current
    rw [IsCurrent,path]
    exact inspect.replace same
  | dating stream =>
    rw [IsCurrent,path]
    exact Holds.replace current same
  | consulting stream modified =>
    rw [IsCurrent,path]
    exact Holds.replace current same
  | scanning stream modified phase =>
    have scan : (Call.scan (l.pathOf key) key.index phase).IsCurrent l := current.2.1
    rw [IsCurrent,path]
    exact ⟨current.1.replace same,scan.replace same,current.2.2⟩
  | keeping modified rendering =>
    rw [IsCurrent,path]
    exact Holds.replace current same

end Resolution

theorem State.IsSound.replace {segmentSeconds : Float} {past : List Library} {s : State} {library : Library}
    (sound : s.IsSound segmentSeconds past) (root : library.root = s.library.root)
    (changed : ∀ place, s.library.IsSameAt library place ∨ IsNewAt past library place) :
    State.IsSound segmentSeconds (library :: past) { s with library } := by
  refine ⟨sound.dated.replace changed,fun plan kept => ?_⟩
  have path : library.pathOf plan.1.1 = s.library.pathOf plan.1.1 := congrArg plan.1.1.locator.resolve root
  obtain ⟨modified,under,known⟩ := sound.plans plan kept
  refine ⟨modified,under,?_⟩
  rw [path]
  exact known.replace (changed _)

/-! ### Many resolutions -/

/-- A resolution on its way, with the libraries that there have been since it began, the present one included. -/
structure Errand where
  key : StreamKey
  id : RepresentationId
  phase : Resolution
  seen : List Library

/-- The catalogue with the resolutions on it, and all libraries that there have been, the present one included. -/
structure Planning where
  state : State
  past : List Library
  errands : Multiset Errand := 0

namespace Planning

/-- A catalogue that has found out nothing yet. -/
def start (library : Library) (maxEntries ttlSeconds : Nat) : Planning where
  state := { library, renderings := .empty maxEntries ttlSeconds }
  past := [library]

/-- One step: a resolution begins, takes a turn or comes to its end, findings or plans are dropped, or files are
    replaced. A file is replaced only while the resolutions about it are in phases that allow it. -/
inductive Step (segmentSeconds : Float) (allowed : Resolution → Prop) : Planning → Planning → Prop
  | begin {w : Planning} (key : StreamKey) (id : RepresentationId) :
      Step segmentSeconds allowed w { w with errands := ⟨key,id,.begin,[w.state.library]⟩ ::ₘ w.errands }
  | goesOn {w : Planning} (clock : Clock) (e : Errand) (others : Multiset Errand) (going : w.errands = e ::ₘ others)
      {s : State} {next : Resolution} (turned : e.phase.turn segmentSeconds clock e.key e.id w.state = .goesOn s next) :
      Step segmentSeconds allowed w { w with state := s, errands := ⟨e.key,e.id,next,e.seen⟩ ::ₘ others }
  | ends {w : Planning} (clock : Clock) (e : Errand) (others : Multiset Errand) (going : w.errands = e ::ₘ others)
      {s : State} {answer : Result Rendering}
      (turned : e.phase.turn segmentSeconds clock e.key e.id w.state = .ends s answer) :
      Step segmentSeconds allowed w { w with state := s, errands := others }
  | forget {w : Planning} (path : List Char) : Step segmentSeconds allowed w { w with state := w.state.forget path }
  | retain {w : Planning} (keep : CachedRendering → Bool) : Step segmentSeconds allowed w
      { w with state := { w.state with renderings := w.state.renderings.retain keep } }
  | replace {w : Planning} (library : Library) (root : library.root = w.state.library.root)
      (changed : ∀ place, w.state.library.IsSameAt library place ∨ IsNewAt w.past library place)
      (spared : ∀ e ∈ w.errands, w.state.library.IsSameAt library (Path.components (w.state.library.pathOf e.key)) ∨
        allowed e.phase) :
      Step segmentSeconds allowed w {
        state := { w.state with library }
        past := library :: w.past
        errands := w.errands.map fun e => { e with seen := library :: e.seen } }

/-- Some history leads from a catalogue that has found out nothing to the planning. -/
def Reachable (segmentSeconds : Float) (allowed : Resolution → Prop) (w : Planning) : Prop :=
  ∃ library maxEntries ttlSeconds,
    Relation.ReflTransGen (Step segmentSeconds allowed) (start library maxEntries ttlSeconds) w

/-- The file of a resolution has not been replaced since it began. -/
def Unchanged (w : Planning) (e : Errand) : Prop :=
  ∀ l ∈ e.seen, l.IsSameAt w.state.library (Path.components (w.state.library.pathOf e.key))

/-- What every history keeps up in which no file is replaced under a resolution that is still to date its plan. -/
structure IsSound (segmentSeconds : Float) (w : Planning) : Prop where
  present : w.state.library ∈ w.past
  sound : w.state.IsSound segmentSeconds w.past
  fits : ∀ e ∈ w.errands, e.phase.Fits segmentSeconds e.key e.id w.past w.state.library
  seen : ∀ e ∈ w.errands, w.state.library ∈ e.seen
  current : ∀ e ∈ w.errands, w.Unchanged e ∨ e.phase.IsUndated →
    e.phase.IsCurrent segmentSeconds e.key e.id w.state.library

variable {segmentSeconds : Float}

theorem isSound_start (library : Library) (maxEntries ttlSeconds : Nat) :
    (start library maxEntries ttlSeconds).IsSound segmentSeconds where
  present := .head _
  sound := ⟨⟨nofun,nofun⟩,fun _ kept => absurd kept List.not_mem_nil⟩
  fits := fun _ member => absurd member (Multiset.notMem_zero _)
  seen := fun _ member => absurd member (Multiset.notMem_zero _)
  current := fun _ member => absurd member (Multiset.notMem_zero _)

/-- A turn of one resolution leaves what the other ones have found out as it was. -/
theorem IsSound.turned {w : Planning} (sound : w.IsSound segmentSeconds) {e : Errand} {others rest : Multiset Errand}
    {s : State} (going : w.errands = e ::ₘ others) (same : s.library = w.state.library)
    (kept : s.IsSound segmentSeconds w.past)
    (fits : ∀ e' ∈ rest, e' ∈ others ∨ e'.phase.Fits segmentSeconds e'.key e'.id w.past w.state.library ∧
      e'.seen = e.seen ∧ e'.key = e.key ∧
      (w.Unchanged e ∨ e'.phase.IsUndated → e'.phase.IsCurrent segmentSeconds e'.key e'.id w.state.library)) :
    IsSound segmentSeconds { w with state := s, errands := rest } := by
  have old {e' : Errand} (member : e' ∈ others) : e' ∈ w.errands := going ▸ Multiset.mem_cons_of_mem member
  have own : e ∈ w.errands := going ▸ Multiset.mem_cons_self e others
  refine ⟨same ▸ sound.present,kept,?_,?_,?_⟩ <;> dsimp only <;> rw [same] <;> intro e' member <;>
    rcases fits e' member with other | ⟨fits,seen,key,current⟩
  · exact sound.fits e' (old other)
  · exact fits
  · exact sound.seen e' (old other)
  · exact seen ▸ sound.seen e own
  · intro holds
    exact sound.current e' (old other) (holds.imp_left fun unchanged l before => same ▸ unchanged l before)
  · intro holds
    refine current (holds.imp_left fun unchanged l before => ?_)
    have spared : l.IsSameAt s.library (Path.components (s.library.pathOf e'.key)) := unchanged l (seen ▸ before)
    rwa [same,key] at spared

theorem IsSound.step {w w' : Planning} (sound : w.IsSound segmentSeconds)
    (step : Step segmentSeconds (¬ ·.IsUndated) w w') : w'.IsSound segmentSeconds := by
  cases step with
  | begin key id =>
    refine ⟨sound.present,sound.sound,?_,?_,?_⟩ <;> intro e member <;>
      rcases Multiset.mem_cons.mp member with rfl | old
    · exact trivial
    · exact sound.fits e old
    · exact .head _
    · exact sound.seen e old
    · exact fun _ => trivial
    · exact sound.current e old
  | @goesOn clock e others going s next turned =>
    have own : e ∈ w.errands := going ▸ Multiset.mem_cons_self e others
    have current := sound.current e own
    have kept : (e.phase.turn segmentSeconds clock e.key e.id w.state).Leads _ _ :=
      Resolution.turn_fits sound.present sound.sound (sound.fits e own) fun undated => current (.inr undated)
    have undated : (e.phase.turn segmentSeconds clock e.key e.id w.state).Leads _ _ := Resolution.turn_undated
    have advances (holds : e.phase.IsCurrent segmentSeconds e.key e.id w.state.library) :
        (e.phase.turn segmentSeconds clock e.key e.id w.state).Leads _ _ := Resolution.turn_current sound.sound holds
    rw [turned] at kept undated
    simp only [turned] at advances
    obtain ⟨⟨same,kept⟩,fits⟩ := kept
    refine sound.turned going same kept fun e' member => ?_
    rcases Multiset.mem_cons.mp member with rfl | old
    · refine .inr ⟨fits,rfl,rfl,fun holds => advances ?_⟩
      -- An undated phase comes after another one, or after the first one, where nothing is known yet.
      rcases holds with unchanged | still
      · exact current (.inl unchanged)
      · rcases undated still with first | before
        · rw [first]
          exact trivial
        · exact current (.inr before)
    · exact .inl old
  | @ends clock e others going s answer turned =>
    have own : e ∈ w.errands := going ▸ Multiset.mem_cons_self e others
    have kept : (e.phase.turn segmentSeconds clock e.key e.id w.state).Leads _ _ :=
      Resolution.turn_fits sound.present sound.sound (sound.fits e own)
        fun undated => sound.current e own (.inr undated)
    rw [turned] at kept
    obtain ⟨same,kept⟩ := kept
    exact sound.turned going same kept fun e' member => .inl member
  | forget path =>
    exact ⟨sound.present,⟨sound.sound.dated.forget path,sound.sound.plans⟩,sound.fits,sound.seen,sound.current⟩
  | retain keep =>
    have plans : PlansFit segmentSeconds w.past w.state.library (w.state.renderings.retain keep) :=
      fun plan kept => sound.sound.plans plan (RenderingCache.plans_retain_subset keep kept)
    exact ⟨sound.present,⟨⟨sound.sound.dated.reports,sound.sound.dated.keyframes⟩,plans⟩,sound.fits,sound.seen,
      sound.current⟩
  | replace library root changed spared =>
    have path (key : StreamKey) : library.pathOf key = w.state.library.pathOf key := congrArg key.locator.resolve root
    refine ⟨.head _,sound.sound.replace root changed,?_,?_,?_⟩
    · intro e' member
      obtain ⟨e,old,rfl⟩ := Multiset.mem_map.mp member
      exact (sound.fits e old).replace root (changed _)
    · intro e' member
      obtain ⟨e,old,rfl⟩ := Multiset.mem_map.mp member
      exact .head _
    · intro e' member holds
      obtain ⟨e,old,rfl⟩ := Multiset.mem_map.mp member
      have same : w.state.library.IsSameAt library (Path.components (w.state.library.pathOf e.key)) := by
        rcases holds with unchanged | undated
        · exact path e.key ▸ unchanged _ (.tail _ (sound.seen e old))
        · exact (spared e old).resolve_right (not_not_intro undated)
      refine (sound.current e old (holds.imp_left fun unchanged l before => ?_)).replace root same
      have same' : l.IsSameAt library (Path.components (w.state.library.pathOf e.key)) :=
        path e.key ▸ unchanged l (.tail _ before)
      exact same'.trans same.symm

theorem isSound_of_reachable {w : Planning} (reachable : w.Reachable segmentSeconds (¬ ·.IsUndated)) :
    w.IsSound segmentSeconds := by
  obtain ⟨library,maxEntries,ttlSeconds,history⟩ := reachable
  induction history with
  | refl => exact isSound_start library maxEntries ttlSeconds
  | tail _ step ih => exact ih.step step

/-- Whatever plans are kept, and whatever resolutions come to, is about the files as they are. -/
structure IsUpToDate (segmentSeconds : Float) (w : Planning) : Prop where
  /-- A resolution whose file has not been replaced since it began comes to what there is to find out now. -/
  answers : ∀ e ∈ w.errands, w.Unchanged e → ∀ clock s answer,
    e.phase.turn segmentSeconds clock e.key e.id w.state = .ends s answer →
      answer = w.state.renderingNow segmentSeconds e.key e.id
  /-- It comes to that after a few turns. -/
  advances : ∀ e ∈ w.errands, ∀ clock,
    (∃ s answer, e.phase.turn segmentSeconds clock e.key e.id w.state = .ends s answer) ∨
    ∃ s next, e.phase.turn segmentSeconds clock e.key e.id w.state = .goesOn s next ∧
      next.turnsLeft < e.phase.turnsLeft
  /-- A plan that is kept under the time that a file has is what there is to find out. -/
  plans : ∀ key id file now rendering, w.state.library.stat (w.state.pathOf key.locator) = .ok file →
    (w.state.renderings.lookup now (some file.modified) (key,id)).2 = some rendering →
      w.state.renderingNow segmentSeconds key id = .ok rendering

/-- Plans are never out of date, unless a file is replaced under a resolution that has looked at it and is still to look
    up the time that it keeps its plan under. -/
theorem plans_are_current {w : Planning} (reachable : w.Reachable segmentSeconds (¬ ·.IsUndated)) :
    w.IsUpToDate segmentSeconds := by
  have sound := isSound_of_reachable reachable
  exact {
    answers := by
      intro e member unchanged clock s answer turned
      have current : (e.phase.turn segmentSeconds clock e.key e.id w.state).Leads _ _ :=
        Resolution.turn_current sound.sound (sound.current e member (.inl unchanged))
      rwa [turned] at current
    advances := by
      intro e member clock
      obtain ⟨moves,advances⟩ := e.phase.turn_advances segmentSeconds clock e.key e.id w.state
      cases turned : e.phase.turn segmentSeconds clock e.key e.id w.state with
      | blocked wake =>
        rw [turned] at moves
        exact absurd trivial moves
      | goesOn s next =>
        rw [turned] at advances
        exact .inr ⟨s,next,rfl,advances⟩
      | ends s answer => exact .inl ⟨s,answer,rfl⟩
    plans := by
      intro key id file now rendering here hit
      exact sound.sound.rendering_of_lookup ⟨file,here,rfl⟩ hit }

/-- A film with one audio track in a language. -/
def spoken (modified : Int) (language : String) : MediaFile where
  size := 10
  modified := modified
  report := .ok ⟨default,[{ (default : Probe.Track) with
    kind := "audio", durationTicks := Signed64.ofInt? 10, language := some language }]⟩
  keyframes := .ok []

/-- The audio track of the film. -/
def spokenTrack : StreamKey := ⟨⟨['f'],by decide,by decide⟩,0⟩

/-- A film is replaced by one in another language after a resolution has found its stream and before it looks up the
    time. The next resolution begins after that and finds the new stream, but is served the plan of the old one. -/
theorem outdated_plan_is_served (segmentSeconds : Float) :
    ∃ (w : Planning) (e : Errand) (clock : Clock) (s : State) (answer : Result Rendering),
      w.Reachable segmentSeconds (fun _ => True) ∧ e ∈ w.errands ∧ w.Unchanged e ∧
      e.phase.turn segmentSeconds clock e.key e.id w.state = .ends s answer ∧
      answer ≠ w.state.renderingNow segmentSeconds e.key e.id := by
  let old := spoken 1 "eng"
  let new := spoken 2 "deu"
  have asked : Relation.ReflTransGen (Step segmentSeconds fun _ => True) (start (Traffic.shelf old) 10 60) _ :=
    .tail .refl (.begin spokenTrack .direct)
  have dated := asked.tail (.goesOn ⟨0,0⟩ _ 0 rfl rfl)
  have unknown := dated.tail (.goesOn ⟨0,0⟩ _ 0 rfl rfl)
  have reported := unknown.tail (.goesOn ⟨0,0⟩ _ 0 rfl rfl)
  have found := reported.tail (.goesOn ⟨0,0⟩ _ 0 rfl rfl)
  have replaced := found.tail (.replace (Traffic.shelf new) rfl (Traffic.replaces_shelf (show (1 : Int) ≠ 2 by decide))
    fun _ _ => .inr trivial)
  have outdated := replaced.tail (.goesOn ⟨0,0⟩ _ 0 rfl rfl)
  have planned := outdated.tail (.goesOn ⟨0,0⟩ _ 0 rfl rfl)
  have kept := planned.tail (.ends ⟨0,0⟩ _ 0 rfl rfl)
  have again := kept.tail (.begin spokenTrack .direct)
  have dated' := again.tail (.goesOn ⟨0,0⟩ _ 0 rfl rfl)
  have unknown' := dated'.tail (.goesOn ⟨0,0⟩ _ 0 rfl rfl)
  have reported' := unknown'.tail (.goesOn ⟨0,0⟩ _ 0 rfl rfl)
  have found' := reported'.tail (.goesOn ⟨0,0⟩ _ 0 rfl rfl)
  have outdated' := found'.tail (.goesOn ⟨0,0⟩ _ 0 rfl rfl)
  have unchanged : ∀ l ∈ [Traffic.shelf new], l.IsSameAt (Traffic.shelf new) [.name ['f']] := by
    intro l before
    obtain rfl := List.mem_singleton.mp before
    exact .refl _ _
  refine ⟨_,_,⟨0,0⟩,_,_,⟨_,_,_,outdated'⟩,Multiset.mem_singleton_self _,unchanged,rfl,?_⟩
  intro same
  have language : some (some "eng") = some (some "deu") := congrArg (·.toOption.map (·.stream.language)) same
  exact absurd language (by decide)

end Planning

end Playout.Catalogue
