import Playout.Proofs.Manifest.Groups
import Playout.Proofs.Manifest.Markup
import Playout.Proofs.Manifest.MasterPlaylist
import Playout.Proofs.Manifest.Mpd
import Playout.Proofs.Representation.Tiling

/-!
A DASH manifest is read as a tree: an adaptation set for each stream, with the renderings of the stream inside. Which
tags there are, and which attributes they have, depends on no text of the renderings, whatever stands in it.
-/
namespace Playout.Markup
open Manifest

/-! ### Renderings by stream -/

def streamsOf (rs : List Rendering) : List Nat := keysOf (·.stream.index) rs

def ofStream (index : Nat) (rs : List Rendering) : List Rendering := ofKey (·.stream.index) index rs

/-- The renderings of each stream, the streams in the order in which they first appear. -/
def byStream (rs : List Rendering) : List (List Rendering) := (streamsOf rs).map fun index => ofStream index rs

def labelled (group : Rendering × List Rendering) : Nat × List Rendering :=
  (group.1.stream.index,group.1 :: group.2)

variable {rs : List Rendering} {r : Rendering}

theorem addToGroup_labelled (r : Rendering) (groups : List (Rendering × List Rendering)) :
    (addToGroup r groups).map labelled = addByKey (·.stream.index) r (groups.map labelled) := by
  induction groups with
  | nil => rfl
  | cons group groups ih =>
    obtain ⟨first,others⟩ := group
    by_cases same : first.stream.index = r.stream.index
    · simp [addToGroup,addByKey,labelled,same]
    · simp [addToGroup,addByKey,labelled,same,← ih]

theorem groupByStream_eq (rs : List Rendering) : (groupByStream rs).map (fun group => group.1 :: group.2) = byStream rs := by
  have labels : (groupByStream rs).map labelled = groupByKey (·.stream.index) rs :=
    (List.foldl_hom (List.map labelled) (fun groups r => (addToGroup_labelled r groups).symm)).symm
  have members : (fun group : Rendering × List Rendering => group.1 :: group.2) = Prod.snd ∘ labelled := rfl
  rw [members,← List.map_map,labels,groupByKey_eq,groupsAt,List.map_map]
  rfl

theorem flatten_byStream (rs : List Rendering) : (byStream rs).flatten.Perm rs := by
  rw [byStream,← List.flatMap_def]
  exact perm_flatMap_ofKey (nodup_keysOf _ rs) fun r member => mem_keysOf.mpr ⟨r,member,rfl⟩

/-! ### Elements -/

def runAttributes (scale : Int) (run : Manifest.Run) : Attributes :=
  [("t",toString (wrapSigned64 (run.start * scale))),("d",toString (wrapSigned64 (run.length * scale)))] ++
    if run.repeats = 0 then [] else [("r",toString run.repeats)]

def representationAttributes (r : Rendering) : Attributes :=
  [("id",toString r.stream.index ++ "-" ++ r.representation.id.pathSegment),
    ("bandwidth",toString r.representation.bitrate),("codecs",r.representation.codec)] ++
    (if 0 < r.representation.width ∧ 0 < r.representation.height then
      [("width",toString r.representation.width),("height",toString r.representation.height)] else []) ++
    if r.stream.frameRate.isZero then [] else [("frameRate",r.stream.frameRate.text)]

def templateAttributes (r : Rendering) : Attributes :=
  [("timescale",toString (max r.stream.timeBase.den 1)),("initialization",r.directory ++ "/init.mp4"),
    ("media",r.directory ++ "/$Number$.m4s"),("startNumber","0")]

/-- What is said of a stream is taken from its first rendering. -/
def setAttributes (id : Nat) : List Rendering → Attributes
  | [] => []
  | first :: _ =>
    [("id",toString id),("contentType",first.kind.name),("mimeType",first.representation.mimeType),
      ("segmentAlignment","true")] ++ (first.stream.language.map fun language => ("lang",language)).toList

def manifestAttributes (all : List Rendering) : Attributes :=
  [("xmlns","urn:mpeg:dash:schema:mpd:2011"),("profiles","urn:mpeg:dash:profile:isoff-live:2011"),("type","static"),
    ("mediaPresentationDuration",isoDuration (Binary64.greatestOf (all.map (·.stream.duration)))),
    ("minBufferTime","PT2S"),("maxSegmentDuration",isoDuration (Binary64.greatestOf (all.map Rendering.longestSeconds)))]

def periodAttributes : Attributes := [("id","0"),("start","PT0S")]

def representationElement (r : Rendering) : Element :=
  .mk "Representation" (representationAttributes r) [.mk "SegmentTemplate" (templateAttributes r)
    [.mk "SegmentTimeline" [] ((timelineRuns r).map fun run =>
      .mk "S" (runAttributes (timeFactor r.stream) run) [])]]

def setElement (id : Nat) (members : List Rendering) : Element :=
  .mk "AdaptationSet" (setAttributes id members) (members.map representationElement)

/-- A document with some adaptation sets, which are counted from zero. -/
def manifestElement (all : List Rendering) (sets : List (List Rendering)) : Element :=
  .mk "MPD" (manifestAttributes all)
    [.mk "Period" periodAttributes (sets.zipIdx.map fun set => setElement set.2 set.1)]

/-! ### Their tags -/

def representationTags (r : Rendering) : List Tag :=
  enclose "Representation" (representationAttributes r) (enclose "SegmentTemplate" (templateAttributes r)
    (enclose "SegmentTimeline" [] ((timelineRuns r).flatMap fun run =>
      [⟨.empty,"S",runAttributes (timeFactor r.stream) run⟩])))

def setTags (id : Nat) (members : List Rendering) : List Tag :=
  enclose "AdaptationSet" (setAttributes id members) (members.flatMap representationTags)

def manifestTags (all : List Rendering) (sets : List (List Rendering)) : List Tag :=
  enclose "MPD" (manifestAttributes all)
    (enclose "Period" periodAttributes (sets.zipIdx.flatMap fun set => setTags set.2 set.1))

theorem nest_representation (r : Rendering) : Nest (representationTags r) [representationElement r] :=
  (((Nest.flatMap fun _ _ => nest_empty _ _).enclose _ _).enclose _ _).enclose _ _

theorem nest_set (id : Nat) (members : List Rendering) : Nest (setTags id members) [setElement id members] :=
  (Nest.flatMap fun r _ => nest_representation r).enclose _ _

theorem nest_manifest (all : List Rendering) (sets : List (List Rendering)) :
    Nest (manifestTags all sets) [manifestElement all sets] :=
  ((Nest.flatMap fun set _ => nest_set set.2 set.1).enclose _ _).enclose _ _

/-! ### What is written -/

theorem escape_append (s t : String) : escape (s ++ t) = escape s ++ escape t := by
  simp [escape]

theorem standsFor_escape (s : String) : StandsFor (escape s) s where
  quote := quote_not_mem_escape s
  resolved := unescape?_escape s

/-- A file in a directory, where the name of the file needs no escapes. -/
theorem standsFor_file {name : String} (plain : escape name = name) (directory : String) :
    StandsFor (escape directory ++ name) (directory ++ name) := by
  have whole := standsFor_escape (directory ++ name)
  rwa [escape_append,plain] at whole

theorem isUnmarked_nat (n : Nat) : IsUnmarked (toString n) := by
  intro c member
  have digit := Text.isDigit_of_mem_toString member
  refine ⟨?_,?_,?_⟩ <;> rintro rfl <;> exact absurd digit (by decide)

theorem isUnmarked_int (i : Int) : IsUnmarked (toString i) := by
  intro c member
  have letter := Text.sign_or_isDigit_of_mem_toString member
  refine ⟨?_,?_,?_⟩ <;> rintro rfl <;> exact absurd letter (by decide)

theorem IsUnmarked.append {s t : String} (first : IsUnmarked s) (second : IsUnmarked t) : IsUnmarked (s ++ t) := by
  intro c member
  rw [String.toList_append,List.mem_append] at member
  exact member.elim (first c) (second c)

theorem isUnmarked_duration (seconds : Float) : IsUnmarked (isoDuration seconds) := by
  have number : IsUnmarked (String.ofList (Binary64.fixed 3 (Binary64.greater seconds 0.0))) := by
    intro c member
    rw [String.toList_ofList] at member
    refine ⟨?_,?_,?_⟩ <;> rintro rfl <;> exact absurd (mem_fixed member) (by decide)
  exact ((by decide : IsUnmarked "PT").append number).append (by decide : IsUnmarked "S")

theorem isUnmarked_ratio (ratio : Ratio) : IsUnmarked ratio.text :=
  ((isUnmarked_int _).append (by decide : IsUnmarked "/")).append (isUnmarked_int _)

theorem isUnmarked_kind (kind : StreamKind) : IsUnmarked kind.name ∧ IsUnmarked kind.mimeType := by
  cases kind <;> decide

/-- No resolved rendering has marks in its type. -/
theorem isUnmarked_mimeType {segmentSeconds : Float} {s : Stream} {id : RepresentationId} {keyframes : List Int}
    (resolved : resolve segmentSeconds s id keyframes = .ok r) : IsUnmarked r.representation.mimeType := by
  obtain ⟨_,rfl⟩ | ⟨_,settings,rfl⟩ := resolve_cases resolved
  · exact (isUnmarked_kind s.kind).2
  · have encoded : (Representation.encoded s id settings).mimeType = s.kind.mimeType := by
      rw [Representation.encoded]
      cases s.kind <;> rfl
    exact encoded ▸ (isUnmarked_kind s.kind).2

theorem hold_run (scale : Int) (run : Manifest.Run) : Hold [run.line scale] [⟨.empty,"S",runAttributes scale run⟩] := by
  have begins : Begins "            <S" ⟨.opening,"S",[]⟩ := ⟨_,.name .opening (by decide),rfl⟩
  have start := adds_attribute "t" (isUnmarked_int (wrapSigned64 (run.start * scale))).standsFor (by decide)
  have length := adds_attribute "d" (isUnmarked_int (wrapSigned64 (run.length * scale))).standsFor (by decide)
  have repeats := adds_attribute "r" (isUnmarked_nat run.repeats).standsFor (by decide)
  exact (((begins.add start).add length).add repeats.unless).empty

theorem hold_template (r : Rendering) :
    Hold [template (max r.stream.timeBase.den 1) (escape r.directory)] [⟨.opening,"SegmentTemplate",templateAttributes r⟩] := by
  have begins : Begins "        <SegmentTemplate" ⟨.opening,"SegmentTemplate",[]⟩ := ⟨_,.name .opening (by decide),rfl⟩
  have header : escape "/init.mp4" = "/init.mp4" := by decide +kernel
  have segment : escape "/$Number$.m4s" = "/$Number$.m4s" := by decide +kernel
  have scale := adds_attribute "timescale" (isUnmarked_int (max r.stream.timeBase.den 1)).standsFor (by decide)
  have initial := adds_attribute "initialization" (standsFor_file header r.directory) (by decide)
  have media := adds_attribute "media" (standsFor_file segment r.directory) (by decide)
  have first := adds_attribute "startNumber" (by decide : IsUnmarked "0").standsFor (by decide)
  exact ((((begins.add scale).add initial).add media).add first).opening

theorem hold_opening (r : Rendering) :
    Hold [(representationLines r).head?.getD ""] [⟨.opening,"Representation",representationAttributes r⟩] := by
  have begins : Begins "      <Representation" ⟨.opening,"Representation",[]⟩ := ⟨_,.name .opening (by decide),rfl⟩
  have id := adds_attribute "id"
    (standsFor_escape (toString r.stream.index ++ "-" ++ r.representation.id.pathSegment)) (by decide)
  have bandwidth := adds_attribute "bandwidth" (isUnmarked_nat r.representation.bitrate).standsFor (by decide)
  have codecs := adds_attribute "codecs" (standsFor_escape r.representation.codec) (by decide)
  have width := adds_attribute "width" (isUnmarked_nat r.representation.width).standsFor (by decide)
  have height := adds_attribute "height" (isUnmarked_nat r.representation.height).standsFor (by decide)
  have rate := adds_attribute "frameRate" (isUnmarked_ratio r.stream.frameRate).standsFor (by decide)
  exact (((((begins.add id).add bandwidth).add codecs).add (width.append height).ite).add rate.unless).opening

theorem hold_representation (r : Rendering) : Hold (representationLines r) (representationTags r) := by
  have timeline : Hold ["          <SegmentTimeline>"] [⟨.opening,"SegmentTimeline",[]⟩] := rfl
  have runs : Hold ((timelineRuns r).flatMap fun run => [run.line (timeFactor r.stream)])
      ((timelineRuns r).flatMap fun run => [⟨.empty,"S",runAttributes (timeFactor r.stream) run⟩]) :=
    .flatMap fun run _ => hold_run (timeFactor r.stream) run
  have timelineEnds : Hold ["          </SegmentTimeline>"] [⟨.closing,"SegmentTimeline",[]⟩] := rfl
  have templateEnds : Hold ["        </SegmentTemplate>"] [⟨.closing,"SegmentTemplate",[]⟩] := rfl
  have ends : Hold ["      </Representation>"] [⟨.closing,"Representation",[]⟩] := rfl
  have whole := (hold_opening r).append ((hold_template r).append (timeline.append (runs.append
    (timelineEnds.append (templateEnds.append ends)))))
  have lines : representationLines r = [(representationLines r).head?.getD ""] ++
      ([template (max r.stream.timeBase.den 1) (escape r.directory)] ++ (["          <SegmentTimeline>"] ++
        ((timelineRuns r).map (Manifest.Run.line (timeFactor r.stream)) ++
          (["          </SegmentTimeline>"] ++ (["        </SegmentTemplate>"] ++ ["      </Representation>"]))))) := rfl
  rw [lines,List.map_eq_flatMap]
  simpa [representationTags,enclose] using whole

theorem hold_set (id : Nat) {first : Rendering} (typed : IsUnmarked first.representation.mimeType)
    (others : List Rendering) : Hold (adaptationLines id first others) (setTags id (first :: others)) := by
  have opens : Hold [(adaptationLines id first others).head?.getD ""]
      [⟨.opening,"AdaptationSet",setAttributes id (first :: others)⟩] := by
    have begins : Begins "    <AdaptationSet" ⟨.opening,"AdaptationSet",[]⟩ := ⟨_,.name .opening (by decide),rfl⟩
    have number := adds_attribute "id" (isUnmarked_nat id).standsFor (by decide)
    have content := adds_attribute "contentType" (isUnmarked_kind first.kind).1.standsFor (by decide)
    have type := adds_attribute "mimeType" typed.standsFor (by decide)
    have aligned := adds_attribute "segmentAlignment" (by decide : IsUnmarked "true").standsFor (by decide)
    have fixed := (((begins.add number).add content).add type).add aligned
    cases spoken : first.stream.language with
    | none => simpa [adaptationLines,setAttributes,spoken,Tag.with] using (fixed.add adds_nothing).opening
    | some language =>
      have language := adds_attribute "lang" (standsFor_escape language) (by decide)
      simpa [adaptationLines,setAttributes,spoken,Tag.with] using (fixed.add language).opening
  have members : Hold ((first :: others).flatMap representationLines) _ := .flatMap fun r _ => hold_representation r
  have ends : Hold ["    </AdaptationSet>"] [⟨.closing,"AdaptationSet",[]⟩] := rfl
  have whole := opens.append (members.append ends)
  simpa [adaptationLines,setTags,enclose] using whole

/-- The sets of the manifest of some video and audio renderings. -/
def setsOf (video audio : List Rendering) : List (List Rendering) := byStream video ++ byStream audio

def declarationTag : Tag := ⟨.declaration,"xml",[("version","1.0"),("encoding","UTF-8")]⟩

variable {video audio : List Rendering}

theorem first_mem {group : Rendering × List Rendering} (listed : group ∈ groupByStream rs) : group.1 ∈ rs := by
  have members : group.1 :: group.2 ∈ byStream rs := groupByStream_eq rs ▸ List.mem_map_of_mem listed
  obtain ⟨index,_,same⟩ := List.mem_map.mp members
  have here : group.1 ∈ ofStream index rs := same ▸ List.mem_cons_self
  exact (mem_ofKey.mp here).1

theorem hold_manifest (typed : ∀ r ∈ video ++ audio, IsUnmarked r.representation.mimeType) :
    Hold (mpdLines video audio) (declarationTag :: manifestTags (video ++ audio) (setsOf video audio)) := by
  have opens : Hold [((mpdLines video audio)[1]?).getD ""] [⟨.opening,"MPD",manifestAttributes (video ++ audio)⟩] := by
    have begins : Begins "<MPD" ⟨.opening,"MPD",[]⟩ := ⟨_,.name .opening (by decide),rfl⟩
    have schema : IsUnmarked "urn:mpeg:dash:schema:mpd:2011" := by decide +kernel
    have profile : IsUnmarked "urn:mpeg:dash:profile:isoff-live:2011" := by decide +kernel
    have xmlns := adds_attribute "xmlns" schema.standsFor (by decide)
    have profiles := adds_attribute "profiles" profile.standsFor (by decide)
    have type := adds_attribute "type" (by decide : IsUnmarked "static").standsFor (by decide)
    have presentation := adds_attribute "mediaPresentationDuration"
      (isUnmarked_duration (Binary64.greatestOf ((video ++ audio).map (·.stream.duration)))).standsFor (by decide +kernel)
    have buffer := adds_attribute "minBufferTime" (by decide : IsUnmarked "PT2S").standsFor (by decide)
    have segment := adds_attribute "maxSegmentDuration"
      (isUnmarked_duration (Binary64.greatestOf ((video ++ audio).map Rendering.longestSeconds))).standsFor (by decide)
    exact ((((((begins.add xmlns).add profiles).add type).add presentation).add buffer).add segment).opening
  have declares : Hold ["<?xml version=\"1.0\" encoding=\"UTF-8\"?>"] [declarationTag] := rfl
  have period : Hold ["  <Period" ++ xmlAttribute "id" "0" ++ xmlAttribute "start" "PT0S" ++ ">"]
      [⟨.opening,"Period",periodAttributes⟩] := rfl
  have periodEnds : Hold ["  </Period>"] [⟨.closing,"Period",[]⟩] := rfl
  have ends : Hold ["</MPD>"] [⟨.closing,"MPD",[]⟩] := rfl
  have sets : Hold ((groupByStream video ++ groupByStream audio).zipIdx.flatMap fun group =>
      adaptationLines group.2 group.1.1 group.1.2) ((setsOf video audio).zipIdx.flatMap fun set => setTags set.2 set.1) := by
    rw [setsOf,← groupByStream_eq,← groupByStream_eq,← List.map_append,List.zipIdx_map,List.flatMap_map]
    refine Hold.flatMap fun group listed => hold_set _ (typed group.1.1 ?_) _
    exact List.mem_append.mpr ((List.mem_append.mp (List.fst_mem_of_mem_zipIdx listed)).imp first_mem first_mem)
  have whole := declares.append (opens.append (period.append (sets.append (periodEnds.append ends))))
  simpa [mpdLines,manifestTags,enclose] using whole

/-! ### Other texts -/

/-- A rendering whose texts are gone; what is left of a language is that there is one. -/
def muted (r : Rendering) : Rendering where
  stream := { r.stream with codec := "", codecName := "", language := r.stream.language.map fun _ => "", title := none }
  representation := { r.representation with id := .direct, codec := "", delivery := .copy }
  starts := r.starts

/-- A tag without the values of its attributes. -/
def Tag.outline (tag : Tag) : Form × String × List String := (tag.form,tag.name,tag.attributes.map (·.1))

theorem outline_representation (r : Rendering) :
    (representationTags (muted r)).map Tag.outline = (representationTags r).map Tag.outline := by
  have names : (representationAttributes (muted r)).map (·.1) = (representationAttributes r).map (·.1) := by
    simp only [representationAttributes,List.map_append]
    rfl
  have template : (templateAttributes (muted r)).map (·.1) = (templateAttributes r).map (·.1) := by
    simp [templateAttributes]
  have runs : timelineRuns (muted r) = timelineRuns r := rfl
  have unit : timeFactor (muted r).stream = timeFactor r.stream := rfl
  simp [representationTags,enclose,Tag.outline,names,template,runs,unit]

theorem outline_set (id : Nat) (members : List Rendering) :
    (setTags id (members.map muted)).map Tag.outline = (setTags id members).map Tag.outline := by
  have names : (setAttributes id (members.map muted)).map (·.1) = (setAttributes id members).map (·.1) := by
    cases members with
    | nil => rfl
    | cons first others => cases spoken : first.stream.language <;> simp [setAttributes,muted,spoken]
  simp [setTags,enclose,Tag.outline,names,List.map_flatMap,List.flatMap_map,outline_representation]

theorem byStream_muted (rs : List Rendering) : byStream (rs.map muted) = (byStream rs).map (List.map muted) := by
  have streams : streamsOf (rs.map muted) = streamsOf rs := by
    rw [streamsOf,keysOf,List.map_map]
    rfl
  rw [byStream,streams,byStream,List.map_map]
  refine List.map_congr_left fun index _ => ?_
  rw [ofStream,ofKey,List.filter_map]
  rfl

theorem outline_manifest (video audio : List Rendering) :
    (manifestTags (video.map muted ++ audio.map muted) (setsOf (video.map muted) (audio.map muted))).map Tag.outline =
      (manifestTags (video ++ audio) (setsOf video audio)).map Tag.outline := by
  have sets : setsOf (video.map muted) (audio.map muted) = (setsOf video audio).map (List.map muted) := by
    rw [setsOf,byStream_muted,byStream_muted,← List.map_append,setsOf]
  simp [manifestTags,enclose,Tag.outline,manifestAttributes,sets,List.zipIdx_map,List.map_flatMap,List.flatMap_map,
    outline_set]

theorem tags?_mpd (typed : ∀ r ∈ video ++ audio, IsUnmarked r.representation.mimeType) :
    tags? (mpd video audio).toList = some (declarationTag :: manifestTags (video ++ audio) (setsOf video audio)) := by
  have read : run .between (mpd video audio).toList =
    some (declarationTag :: manifestTags (video ++ audio) (setsOf video audio),.between) := hold_manifest typed
  rw [tags?,read]

/-- The renderings of the sets of a manifest: each stream has a set, and each rendering is once in the sets. -/
structure IsCut (sets : List (List Rendering)) (rs : List Rendering) : Prop where
  parts : sets = (streamsOf rs).map fun index => ofStream index rs
  distinct : (streamsOf rs).Nodup
  all : ∀ index, index ∈ streamsOf rs ↔ ∃ r ∈ rs, r.stream.index = index
  once : sets.flatten.Perm rs

theorem isCut_byStream (rs : List Rendering) : IsCut (byStream rs) rs :=
  ⟨rfl,nodup_keysOf _ rs,fun _ => mem_keysOf,flatten_byStream rs⟩

/-- A reader of a manifest finds an adaptation set for each stream of the video and then of the audio renderings, in the
    order in which the streams first appear, with ids from zero. In it are the renderings of the stream in their order,
    and every value is what it was before it was written. Other texts in the same renderings, be they what they may, make
    the same tags with the same attributes. -/
theorem manifest_structure_ignores_texts (video audio : List Rendering)
    (typed : ∀ r ∈ video ++ audio, IsUnmarked r.representation.mimeType) :
    (∃ videoSets audioSets, IsCut videoSets video ∧ IsCut audioSets audio ∧
      Element.ofText? (mpd video audio).toList = some (manifestElement (video ++ audio) (videoSets ++ audioSets))) ∧
    ∀ video' audio', video'.map muted = video.map muted → audio'.map muted = audio.map muted →
      ∃ tags tags', tags? (mpd video audio).toList = some tags ∧ tags? (mpd video' audio').toList = some tags' ∧
        tags'.map Tag.outline = tags.map Tag.outline := by
  constructor
  · exact ⟨_,_,isCut_byStream video,isCut_byStream audio,
      Element.ofText?_joined (hold_manifest typed) (nest_manifest _ _)⟩
  · intro video' audio' videos audios
    have typed' : ∀ r ∈ video' ++ audio', IsUnmarked r.representation.mimeType := by
      intro r member
      have muted_mem : muted r ∈ (video ++ audio).map muted := by
        rw [List.map_append,← videos,← audios,← List.map_append]
        exact List.mem_map_of_mem member
      obtain ⟨other,here,same⟩ := List.mem_map.mp muted_mem
      have type : (muted other).representation.mimeType = (muted r).representation.mimeType := by rw [same]
      change other.representation.mimeType = r.representation.mimeType at type
      exact type ▸ typed other here
    refine ⟨_,_,tags?_mpd typed,tags?_mpd typed',?_⟩
    rw [List.map_cons,List.map_cons,← outline_manifest video',← outline_manifest video,videos,audios]

/-- A stream with texts that look like the end of a value, a tag and an escape. -/
def hostile (index : Nat) : Stream :=
  { film with index := index, codec := "avc1&quot;<'", language := some "fr\"/><Period>" }

/-- The stream in plain words. -/
def german (index : Nat) : Stream := { film with index := index, language := some "deu" }

def smallSettings : Encoding.Settings := ⟨640,360,500000,0,"avc1.64001e"⟩

/-- Two streams by turns, the first of them as it is and encoded. -/
def takenTurns (stream : Nat → Stream) : List Rendering :=
  [copiedRendering 5.0 (stream 0) [0,4],copiedRendering 5.0 (stream 2) [0,4],
    encodedRendering 5.0 (stream 0) (.custom smallSettings) smallSettings]

theorem hostile_films_are_two_sets : (∀ r ∈ takenTurns hostile ++ [], IsUnmarked r.representation.mimeType) ∧
    (∃ root, Element.ofText? (mpd (takenTurns hostile) []).toList = some root ∧
      root = .mk "MPD" (manifestAttributes (takenTurns hostile)) [.mk "Period" periodAttributes
        [setElement 0 [(takenTurns hostile)[0],(takenTurns hostile)[2]],setElement 1 [(takenTurns hostile)[1]]]]) ∧
    ∃ tags tags', tags? (mpd (takenTurns hostile) []).toList = some tags ∧
      tags? (mpd (takenTurns german) []).toList = some tags' ∧ tags'.map Tag.outline = tags.map Tag.outline := by
  have typed : ∀ r ∈ takenTurns hostile ++ [], IsUnmarked r.representation.mimeType := by
    have copied (index : Nat) : resolve 5.0 (hostile index) .direct [0,4] =
      .ok (copiedRendering 5.0 (hostile index) [0,4]) := rfl
    have encoded : resolve 5.0 (hostile 0) (.custom smallSettings) [] =
      .ok (encodedRendering 5.0 (hostile 0) (.custom smallSettings) smallSettings) := rfl
    intro r member
    rw [List.append_nil,takenTurns,List.mem_cons,List.mem_cons,List.mem_singleton] at member
    rcases member with rfl | rfl | rfl
    · exact isUnmarked_mimeType (copied 0)
    · exact isUnmarked_mimeType (copied 2)
    · exact isUnmarked_mimeType encoded
  obtain ⟨⟨videoSets,audioSets,video,audio,read⟩,other⟩ := manifest_structure_ignores_texts (takenTurns hostile) [] typed
  refine ⟨typed,⟨_,read,?_⟩,other (takenTurns german) [] rfl rfl⟩
  rw [video.parts,audio.parts]
  rfl

end Playout.Markup
