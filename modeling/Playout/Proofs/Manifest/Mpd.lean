import Mathlib.Algebra.Order.Field.Rat
import Mathlib.Data.List.Chain
import Mathlib.Tactic.Ring
import Playout.Manifest.Mpd
import Playout.Proofs.Manifest.MediaPlaylist
import Playout.Text.Blank

/-!
A DASH timeline and a media playlist speak of the same segments. A run of the timeline keeps the start of its first
segment alone, so its others are where their predecessors end; so are the segments of a rendering. What is proved of
the runs in ticks is then read off the lines of the manifest (`Timeline.ofLines?`), in units of the timescale that is
written there.
-/
namespace Playout

/-- Segments as starts and lengths, each one starting where the one before it ends. -/
def IsContiguous (segments : List (Int × Int)) : Prop := segments.IsChain fun a b => b.1 = a.1 + a.2

theorem isContiguous_differences (starts : List Int) (last : Int) :
    IsContiguous (starts.zip (Rendering.differences (starts ++ [last]))) := by
  induction starts with
  | nil => exact .nil
  | cons a starts ih =>
    cases starts with
    | nil => exact .singleton _
    | cons b starts =>
      have tail : ∃ length rest, Rendering.differences (b :: starts ++ [last]) = length :: rest := by
        cases starts with
        | nil => exact ⟨_,_,rfl⟩
        | cons c starts => exact ⟨_,_,rfl⟩
      obtain ⟨length,rest,tail⟩ := tail
      change IsContiguous ((a :: b :: starts).zip ((b - a) :: Rendering.differences (b :: starts ++ [last])))
      rw [tail] at ih ⊢
      refine List.isChain_cons_cons.mpr ⟨?_,ih⟩
      change b = a + (b - a)
      omega

theorem Rendering.segmentTicks_of_lengthsFit {r : Rendering} (fits : r.LengthsFit) :
    r.segmentTicks = differences r.bounds := by
  rw [segmentTicks,List.map_congr_left fun length member => wrapSigned64_of_isSigned64 (fits length member),List.map_id']

theorem isContiguous_segmentTicks {r : Rendering} (fits : r.LengthsFit) : IsContiguous (r.starts.zip r.segmentTicks) := by
  rw [Rendering.segmentTicks_of_lengthsFit fits]
  exact isContiguous_differences _ _

namespace Manifest

/-! ### Runs of segments -/

/-- The segments that a run stands for. -/
def Run.segments (run : Run) : List (Int × Int) :=
  (List.range (run.repeats + 1)).map fun (k : Nat) => (run.start + k * run.length,run.length)

theorem Run.segments_zero (start length : Int) : Run.segments ⟨start,length,0⟩ = [(start,length)] := by
  simp [Run.segments]

theorem Run.segments_succ (start length : Int) (repeats : Nat) :
    Run.segments ⟨start,length,repeats + 1⟩ = (start,length) :: Run.segments ⟨start + length,length,repeats⟩ := by
  rw [Run.segments,List.range_succ_eq_map,List.map_cons,List.map_map]
  refine List.cons_eq_cons.mpr ⟨by simp,List.map_congr_left fun k _ => ?_⟩
  simp only [Function.comp_apply,Prod.mk.injEq,and_true,Nat.succ_eq_add_one,Int.natCast_add,Int.add_mul]
  omega

theorem Run.segments_eq_cons (run : Run) : ∃ rest, run.segments = (run.start,run.length) :: rest := by
  obtain ⟨start,length,repeats⟩ := run
  cases repeats with
  | zero => exact ⟨[],Run.segments_zero start length⟩
  | succ repeats => exact ⟨_,Run.segments_succ start length repeats⟩

/-- Neighbouring runs differ in length. -/
theorem isChain_runs (segments : List (Int × Int)) : (runs segments).IsChain (·.length ≠ ·.length) := by
  induction segments with
  | nil => exact .nil
  | cons segment rest ih =>
    obtain ⟨start,length⟩ := segment
    rw [runs]
    cases later : runs rest with
    | nil => exact .singleton _
    | cons run later' =>
      rw [later] at ih
      by_cases same : run.length = length
      · simp only [same,if_true]
        rw [List.isChain_cons] at ih ⊢
        exact same ▸ ih
      · simp only [same,if_false]
        exact List.isChain_cons_cons.mpr ⟨Ne.symm same,ih⟩

theorem Run.lengths_segments (run : Run) :
    run.segments.map (·.2) = List.replicate (run.repeats + 1) run.length := by
  simp [segments,Function.comp_def]

/-- Runs keep the lengths of all segments, contiguous or not. -/
theorem lengths_runs (segments : List (Int × Int)) :
    ((runs segments).flatMap Run.segments).map (·.2) = segments.map (·.2) := by
  simp only [List.map_flatMap,Run.lengths_segments]
  induction segments with
  | nil => rfl
  | cons segment rest ih =>
    obtain ⟨start,length⟩ := segment
    rw [runs,List.map_cons,← ih]
    cases later : runs rest with
    | nil => rfl
    | cons run later' =>
      by_cases same : run.length = length
      · simp only [same,if_true,List.flatMap_cons,List.replicate_succ,List.cons_append]
      · simp only [same,if_false,List.flatMap_cons,Nat.zero_add,List.replicate_one,List.singleton_append]

/-- Contiguous segments are what their runs stand for. -/
theorem flatMap_segments_runs {segments : List (Int × Int)} (contiguous : IsContiguous segments) :
    (runs segments).flatMap Run.segments = segments := by
  induction segments with
  | nil => rfl
  | cons segment rest ih =>
    obtain ⟨start,length⟩ := segment
    obtain ⟨next,contiguous⟩ := List.isChain_cons.mp contiguous
    have expands := ih contiguous
    rw [runs]
    cases later : runs rest with
    | nil =>
      rw [later] at expands
      cases expands
      exact Run.segments_zero start length
    | cons run later' =>
      rw [later] at expands
      obtain ⟨others,first⟩ := run.segments_eq_cons
      by_cases same : run.length = length
      · -- The next run begins where this segment ends, so the segment can lead it.
        have next : run.start = start + length := by
          rw [← expands,List.flatMap_cons,first] at next
          exact next _ rfl
        simp only [same,if_true]
        rw [List.flatMap_cons,Run.segments_succ,← expands,List.flatMap_cons,← next,← same]
        rfl
      · simp only [same,if_false]
        rw [List.flatMap_cons,expands,Run.segments_zero]
        rfl

/-! ### The lines of a manifest -/

/-- What stands before a value and the value, by turns. -/
def pairs : List (List Char) → List (List Char × List Char)
  | before :: value :: rest => (before,value) :: pairs rest
  | _ => []

/-- The value of an attribute of a tag, where quotes enclose the values. -/
def attribute? (name tag : List Char) : Option (List Char) :=
  ((pairs (Text.splitAll '"' tag)).find? fun a => (Text.dropEnd? (' ' :: name ++ ['=']) a.1).isSome).map (·.2)

/-- Whether a line begins with a tag. -/
def isTag (name line : List Char) : Bool := (Text.dropStart? ('<' :: name ++ [' ']) (Text.trimLeft line)).isSome

def whole? : List Char → Option Int
  | '-' :: digits => (Text.digits? digits).map fun n => -(n : Int)
  | digits => (Text.digits? digits).map Int.ofNat

/-- The run that a line writes. -/
def Run.ofLine? (line : List Char) : Option Run := do
  let start ← (attribute? ['t'] line).bind whole?
  let length ← (attribute? ['d'] line).bind whole?
  match attribute? ['r'] line with
  | some repeats => (Text.digits? repeats).map fun repeats => ⟨start,length,repeats⟩
  | none => some ⟨start,length,0⟩

/-- What a manifest says of the segments of a rendering. -/
structure Timeline where
  /-- Units in a second. -/
  timescale : Int
  /-- What stands for the number of the first segment in URLs. -/
  firstNumber : Nat
  /-- The segments in units of the timescale. -/
  runs : List Run

def Timeline.ofLines? (lines : List (List Char)) : Option Timeline := do
  let template ← lines.find? (isTag "SegmentTemplate".toList)
  let timescale ← (attribute? "timescale".toList template).bind whole?
  let firstNumber ← (attribute? "startNumber".toList template).bind Text.digits?
  let runs ← (lines.filter (isTag ['S'])).mapM Run.ofLine?
  some ⟨timescale,firstNumber,runs⟩

theorem toList_xmlAttribute (name value : String) :
    (xmlAttribute name value).toList = ' ' :: (name.toList ++ '=' :: '"' :: (value.toList ++ ['"'])) := by
  simp [xmlAttribute]

theorem pairs_attribute (before : List Char) {name value : String}
    (unquoted : '"' ∉ before ++ ' ' :: name.toList ++ ['='])
    (inside : '"' ∉ value.toList) (rest : List Char) :
    pairs (Text.splitAll '"' (before ++ ((xmlAttribute name value).toList ++ rest))) =
      (before ++ ' ' :: name.toList ++ ['='],value.toList) :: pairs (Text.splitAll '"' rest) := by
  have text : before ++ ((xmlAttribute name value).toList ++ rest) =
      (before ++ ' ' :: name.toList ++ ['=']) ++ '"' :: (value.toList ++ '"' :: rest) := by
    simp [toList_xmlAttribute]
  rw [text,Text.splitAll_append,Text.splitAll_append,Text.splitAll_of_not_mem unquoted,Text.splitAll_of_not_mem inside]
  rfl

/-- The attributes that follow others. -/
theorem pairs_attribute_next {name value : String} (unquoted : '"' ∉ name.toList) (inside : '"' ∉ value.toList)
    (rest : List Char) :
    pairs (Text.splitAll '"' ((xmlAttribute name value).toList ++ rest)) =
      (' ' :: name.toList ++ ['='],value.toList) :: pairs (Text.splitAll '"' rest) :=
  pairs_attribute [] (by simpa using unquoted) inside rest

theorem quote_not_mem_digits (n : Nat) : '"' ∉ (toString n).toList :=
  fun member => absurd (Text.isDigit_of_mem_toString member) (by decide)

theorem quote_not_mem_whole (i : Int) : '"' ∉ (toString i).toList :=
  fun member => absurd (Text.sign_or_isDigit_of_mem_toString member) (by decide)

theorem whole?_digits (n : Nat) : whole? (Nat.toDigits 10 n) = some (n : Int) := by
  have unsigned : ∀ rest, Nat.toDigits 10 n ≠ '-' :: rest := by
    intro rest same
    have member : '-' ∈ Nat.toDigits 10 n := same ▸ List.mem_cons_self
    exact absurd (Text.isDigit_of_mem_decimal member) (by decide)
  rw [whole?,Text.digits?_toDigits]
  · rfl
  · exact unsigned

theorem whole?_toString (i : Int) : whole? (toString i).toList = some i := by
  rw [Int.toString_eq_repr]
  cases i with
  | ofNat n => exact Nat.toList_repr ▸ whole?_digits n
  | negSucc n =>
    have sign : "-".toList = ['-'] := by decide
    rw [Int.repr,String.toList_append,Nat.toList_repr,sign,List.singleton_append,whole?,Text.digits?_toDigits]
    rfl

theorem quote_not_mem_escape (s : String) : '"' ∉ (escape s).toList := by
  rw [escape,String.toList_ofList,List.mem_flatMap]
  rintro ⟨c,_,member⟩
  rw [escapeChar] at member
  split_ifs at member with h₁ h₂ h₃ quote h₅
  all_goals try exact absurd member (by decide)
  exact quote (List.mem_singleton.mp member).symm

/-- A run in other units. -/
def Run.scaled (scale : Int) (run : Run) : Run := ⟨run.start * scale,run.length * scale,run.repeats⟩

/-- What 64 bits keep of a run in other units. -/
def Run.written (scale : Int) (run : Run) : Run :=
  ⟨wrapSigned64 (run.start * scale),wrapSigned64 (run.length * scale),run.repeats⟩

theorem Run.written_of_timesFit {scale : Int} {run : Run} (fits : run.TimesFit scale) :
    run.written scale = run.scaled scale := by
  rw [written,scaled,wrapSigned64_of_isSigned64 fits.1,wrapSigned64_of_isSigned64 fits.2]

theorem pairs_line (scale : Int) (run : Run) :
    pairs (Text.splitAll '"' (run.line scale).toList) =
      ("            <S t=".toList,(toString (run.written scale).start).toList) ::
        (" d=".toList,(toString (run.written scale).length).toList) ::
          if run.repeats = 0 then [] else [(" r=".toList,(toString run.repeats).toList)] := by
  unfold Run.line
  simp only [String.toList_append,List.append_assoc]
  rewrite [pairs_attribute _ (by decide) (quote_not_mem_whole _),pairs_attribute_next (by decide) (quote_not_mem_whole _)]
  by_cases once : run.repeats = 0
  · rw [if_pos once,if_pos once]
    rfl
  · rw [if_neg once,if_neg once,pairs_attribute_next (by decide) (quote_not_mem_digits _)]
    rfl

/-- The line of a run is read back as it was written. -/
theorem ofLine?_line (scale : Int) (run : Run) : Run.ofLine? (run.line scale).toList = some (run.written scale) := by
  have start : attribute? ['t'] (run.line scale).toList = some (toString (run.written scale).start).toList := by
    rw [attribute?,pairs_line]
    rfl
  have length : attribute? ['d'] (run.line scale).toList = some (toString (run.written scale).length).toList := by
    rw [attribute?,pairs_line]
    rfl
  have repeats : attribute? ['r'] (run.line scale).toList =
      if run.repeats = 0 then none else some (toString run.repeats).toList := by
    rw [attribute?,pairs_line]
    split <;> rfl
  rw [Run.ofLine?,start,length,repeats]
  simp only [Option.bind_some,whole?_toString,Option.bind_eq_bind]
  by_cases once : run.repeats = 0
  · rw [if_pos once,Run.written,once]
  · simp only [if_neg once,Nat.toString_eq_repr,Nat.toList_repr,Text.digits?_toDigits]
    rfl

/-- The template of a representation gives the timescale, and numbers the segments from zero. -/
def template (timescale : Int) (base : String) : String :=
  "        <SegmentTemplate" ++ xmlAttribute "timescale" (toString timescale) ++
    xmlAttribute "initialization" (base ++ "/init.mp4") ++
    xmlAttribute "media" (base ++ "/$Number$.m4s") ++ xmlAttribute "startNumber" "0" ++ ">"

theorem pairs_template (timescale : Int) {base : String} (quoteless : '"' ∉ base.toList) :
    pairs (Text.splitAll '"' (template timescale base).toList) =
      [("        <SegmentTemplate timescale=".toList,(toString timescale).toList),
        (" initialization=".toList,(base ++ "/init.mp4").toList),(" media=".toList,(base ++ "/$Number$.m4s").toList),
        (" startNumber=".toList,"0".toList)] := by
  have header : '"' ∉ (base ++ "/init.mp4").toList := by simp [quoteless]
  have media : '"' ∉ (base ++ "/$Number$.m4s").toList := by simp [quoteless]
  simp only [String.toList_append] at header media
  unfold template
  simp only [String.toList_append,List.append_assoc]
  rewrite [pairs_attribute _ (by decide +kernel) (quote_not_mem_whole _),
    pairs_attribute_next (by decide +kernel) (by simpa using header),
    pairs_attribute_next (by decide +kernel) (by simpa using media),
    pairs_attribute_next (by decide +kernel) (by decide +kernel)]
  have last : pairs (Text.splitAll '"' ">".toList) = [] := by decide +kernel
  have first : "        <SegmentTemplate".toList ++ ' ' :: "timescale".toList ++ ['='] =
    "        <SegmentTemplate timescale=".toList := by decide +kernel
  rewrite [last,first]
  simp only [String.toList_append]
  rfl

theorem isTag_line (scale : Int) (run : Run) : isTag ['S'] (run.line scale).toList = true := by
  unfold Run.line
  simp only [String.toList_append,toList_xmlAttribute,List.append_assoc]
  rfl

theorem representationLines_eq (r : Rendering) : ∃ (representation : String) (rest : List Char),
    representation.toList = "      <Representation".toList ++ rest ∧
    representationLines r = representation ::
      template (max r.stream.timeBase.den 1) (escape r.directory) :: "          <SegmentTimeline>" ::
        ((timelineRuns r).map (Run.line (timeFactor r.stream)) ++
          ["          </SegmentTimeline>","        </SegmentTemplate>","      </Representation>"]) := by
  refine ⟨?representation,?rest,?begins,?lines⟩
  case lines => rfl
  case begins =>
    simp only [String.toList_append,List.append_assoc]
    rfl

theorem mapM_ofLine? (scale : Int) (runs : List Run) :
    (runs.map fun run => (run.line scale).toList).mapM Run.ofLine? = some (runs.map (Run.written scale)) := by
  induction runs with
  | nil => rfl
  | cons run runs ih =>
    simp only [List.map_cons,List.mapM_cons,ofLine?_line,ih,Option.bind_eq_bind,Option.bind_some]
    rfl

theorem isTag_template (timescale : Int) (base : String) :
    isTag "SegmentTemplate".toList (template timescale base).toList = true ∧
      isTag ['S'] (template timescale base).toList = false := by
  unfold template
  simp only [String.toList_append,toList_xmlAttribute,List.append_assoc]
  exact ⟨rfl,rfl⟩

theorem attribute?_template (timescale : Int) {base : String} (quoteless : '"' ∉ base.toList) :
    attribute? "timescale".toList (template timescale base).toList = some (toString timescale).toList ∧
      attribute? "startNumber".toList (template timescale base).toList = some ['0'] := by
  rw [attribute?,attribute?,pairs_template timescale quoteless]
  exact ⟨rfl,rfl⟩

theorem filter_isTag_lines (scale : Int) (runs : List Run) :
    (runs.map fun run => (run.line scale).toList).filter (isTag ['S']) = runs.map fun run => (run.line scale).toList := by
  rw [List.filter_eq_self]
  intro line member
  obtain ⟨run,_,rfl⟩ := List.mem_map.mp member
  exact isTag_line scale run

/-- What a reader of the lines learns of the segments. -/
theorem ofLines?_representationLines (r : Rendering) :
    Timeline.ofLines? ((representationLines r).map String.toList) =
      some ⟨max r.stream.timeBase.den 1,0,(timelineRuns r).map (Run.written (timeFactor r.stream))⟩ := by
  obtain ⟨representation,rest,begins,lines⟩ := representationLines_eq r
  obtain ⟨timescale,number⟩ := attribute?_template (max r.stream.timeBase.den 1) (quote_not_mem_escape r.directory)
  have found : ((representationLines r).map String.toList).find? (isTag "SegmentTemplate".toList) =
      some (template (max r.stream.timeBase.den 1) (escape r.directory)).toList := by
    have other : isTag "SegmentTemplate".toList representation.toList = false := begins ▸ rfl
    rw [lines,List.map_cons,List.find?_cons_of_neg (Bool.eq_false_iff.mp other),List.map_cons,
      List.find?_cons_of_pos (isTag_template _ _).1]
  have kept : ((representationLines r).map String.toList).filter (isTag ['S']) =
      (timelineRuns r).map fun run => (run.line (timeFactor r.stream)).toList := by
    have other : isTag ['S'] representation.toList = false := begins ▸ rfl
    have opening : isTag ['S'] "          <SegmentTimeline>".toList = false := by decide +kernel
    have closing : (["          </SegmentTimeline>","        </SegmentTemplate>","      </Representation>"].map
      String.toList).filter (isTag ['S']) = [] := by decide +kernel
    rewrite [lines]
    simp only [List.map_cons,List.filter_cons,other,(isTag_template _ _).2,opening,Bool.false_eq_true,if_false]
    rewrite [List.map_append,List.filter_append,closing,List.append_nil,List.map_map]
    exact filter_isTag_lines _ _
  rw [Timeline.ofLines?,found,kept,mapM_ofLine?]
  simp only [Option.bind_eq_bind,Option.bind_some,timescale,number,whole?_toString]
  rfl

/-! ### What players are told -/

/-- The segments in units of the timescale. -/
def Timeline.segments (t : Timeline) : List (Int × Int) := t.runs.flatMap Run.segments

theorem Run.segments_scaled (scale : Int) (run : Run) :
    (run.scaled scale).segments = run.segments.map fun (start,length) => (start * scale,length * scale) := by
  rw [Run.segments,Run.segments,List.map_map]
  refine List.map_congr_left fun k _ => ?_
  simp only [Run.scaled,Function.comp_apply,Prod.mk.injEq,and_true]
  ring

theorem flatMap_segments_scaled (scale : Int) (runs : List Run) :
    (runs.map (Run.scaled scale)).flatMap Run.segments =
      (runs.flatMap Run.segments).map fun (start,length) => (start * scale,length * scale) := by
  rw [List.flatMap_map,List.map_flatMap]
  exact List.flatMap_congr fun run _ => run.segments_scaled scale

theorem segmentSeconds_of_entry {r : Rendering} {i : Nat} {length : Int} (here : r.segmentTicks[i]? = some length) :
    ∃ entry, (MediaPlaylist.ofRendering r).segments[i]? = some entry ∧ entry.duration = r.stream.seconds length := by
  refine ⟨⟨r.stream.seconds length,toString i ++ "." ++ MediaPlaylist.extension r.kind⟩,?_,rfl⟩
  simp [MediaPlaylist.ofRendering,Rendering.segmentSeconds,List.getElem?_zipIdx,here]

/-- A timeline that lists the segments of a rendering: each has the number of its place, and its exact start and
    length are those of the segment in ticks times the length of a tick. The media playlist gives the same length. -/
structure Timeline.Describes (t : Timeline) (r : Rendering) : Prop where
  numbered : t.firstNumber = 0
  complete : t.segments.length = r.segmentCount
  timed : ∀ i start length, r.segmentStart? i = some start → r.segmentTicks[i]? = some length →
    ∃ time duration, t.segments[i]? = some (time,duration) ∧
      (time / t.timescale : ℚ) = start * (r.stream.timeBase.num / r.stream.timeBase.den) ∧
      (duration / t.timescale : ℚ) = length * (r.stream.timeBase.num / r.stream.timeBase.den) ∧
      ∃ entry, (MediaPlaylist.ofRendering r).segments[i]? = some entry ∧ entry.duration = r.stream.seconds length

variable {r : Rendering}

theorem segments_timelineRuns (fits : r.LengthsFit) :
    (timelineRuns r).flatMap Run.segments = r.starts.zip r.segmentTicks :=
  flatMap_segments_runs (isContiguous_segmentTicks fits)

theorem lengths_timelineRuns (r : Rendering) :
    ((timelineRuns r).flatMap Run.segments).map (·.2) = r.segmentTicks := by
  rw [timelineRuns,lengths_runs,List.map_snd_zip (Nat.le_of_eq r.length_segmentTicks)]

theorem length_zip_segmentTicks (r : Rendering) : (r.starts.zip r.segmentTicks).length = r.segmentCount := by
  rw [List.length_zip,Rendering.length_segmentTicks,Rendering.segmentCount,Nat.min_self]

theorem map_written (fits : TimesFit r) :
    (timelineRuns r).map (Run.written (timeFactor r.stream)) = (timelineRuns r).map (Run.scaled (timeFactor r.stream)) :=
  List.map_congr_left fun run member => Run.written_of_timesFit (fits.2 run member)

theorem describes_segments (positive : 0 < r.stream.timeBase.num) (positive' : 0 < r.stream.timeBase.den)
    (fits : TimesFit r) :
    Timeline.Describes
      ⟨max r.stream.timeBase.den 1,0,(timelineRuns r).map (Run.written (timeFactor r.stream))⟩ r := by
  have unit : timeFactor r.stream = r.stream.timeBase.num := Int.max_eq_left positive
  have scale : max r.stream.timeBase.den 1 = r.stream.timeBase.den := Int.max_eq_left positive'
  rw [map_written fits,unit,scale]
  have segments : Timeline.segments ⟨r.stream.timeBase.den,0,(timelineRuns r).map (Run.scaled r.stream.timeBase.num)⟩ =
      (r.starts.zip r.segmentTicks).map fun (start,length) =>
        (start * r.stream.timeBase.num,length * r.stream.timeBase.num) := by
    rw [Timeline.segments,flatMap_segments_scaled,segments_timelineRuns fits.1]
  refine ⟨rfl,?_,?_⟩
  · rw [segments,List.length_map,length_zip_segmentTicks]
  · intro i start length starts lasts
    have here : (r.starts.zip r.segmentTicks)[i]? = some (start,length) :=
      List.getElem?_zip_eq_some.mpr ⟨starts,lasts⟩
    refine ⟨start * r.stream.timeBase.num,length * r.stream.timeBase.num,?_,?_,?_,segmentSeconds_of_entry lasts⟩
    · rw [segments,List.getElem?_map,here]
      rfl
    · push_cast
      exact mul_div_assoc _ _ _
    · push_cast
      exact mul_div_assoc _ _ _

/-- The runs of a timeline stand for as many segments as the rendering has, each with its length in ticks, and no two
    neighbours have the same length. If every length is a number of 64 bits, each segment has its start, too. If the
    times in units of the timescale are such numbers as well, and a tick is a positive fraction of a second, what the
    manifest says of the segments is right. -/
theorem timeline_describes_segments (r : Rendering) :
    ((timelineRuns r).IsChain (·.length ≠ ·.length) ∧
      ((timelineRuns r).flatMap Run.segments).length = r.segmentCount ∧
      ∀ i < r.segmentCount, ∃ start start' length, r.segmentStart? i = some start ∧ r.segmentTicks[i]? = some length ∧
        ((timelineRuns r).flatMap Run.segments)[i]? = some (start',length) ∧ (r.LengthsFit → start' = start)) ∧
    (0 < r.stream.timeBase.num → 0 < r.stream.timeBase.den → TimesFit r →
      ∃ timeline, Timeline.ofLines? ((representationLines r).map String.toList) = some timeline ∧
        timeline.Describes r) := by
  have lengths := lengths_timelineRuns r
  have count : ((timelineRuns r).flatMap Run.segments).length = r.segmentCount := by
    rw [← List.length_map (·.2),lengths,Rendering.length_segmentTicks,Rendering.segmentCount]
  refine ⟨⟨isChain_runs _,count,?_⟩,?_⟩
  · intro i inside
    obtain ⟨⟨start',length⟩,here⟩ : ∃ segment, ((timelineRuns r).flatMap Run.segments)[i]? = some segment :=
      ⟨_,List.getElem?_eq_getElem (count ▸ inside)⟩
    have lasts : r.segmentTicks[i]? = some length := by rw [← lengths,List.getElem?_map,here,Option.map_some]
    have starts : r.segmentStart? i = some r.starts[i] := List.getElem?_eq_getElem inside
    refine ⟨_,start',length,starts,lasts,here,fun fits => ?_⟩
    rw [segments_timelineRuns fits] at here
    exact Option.some.inj ((List.getElem?_zip_eq_some.mp here).1.symm.trans starts)
  · intro positive positive' fits
    exact ⟨_,ofLines?_representationLines r,describes_segments positive positive' fits⟩

/-- Three segments of equal length and a short one, in ticks of 1.001 thirtieths of a second. -/
def ntscFilm : Rendering where
  stream := { film with timeBase := ⟨1001,30000⟩, durationTicks := 100, fits := by decide }
  representation := .copied film
  starts := [0,30,60,90]

theorem ntscFilm_described : 0 < ntscFilm.stream.timeBase.num ∧ 0 < ntscFilm.stream.timeBase.den ∧ TimesFit ntscFilm ∧
    timelineRuns ntscFilm = [⟨0,30,2⟩,⟨90,10,0⟩] ∧
    ((timelineRuns ntscFilm).flatMap Run.segments)[2]? = some (60,30) ∧
    ∃ timeline, Timeline.ofLines? ((representationLines ntscFilm).map String.toList) = some timeline ∧
      ∃ time duration : Int, timeline.segments[3]? = some (time,duration) ∧
        (time / timeline.timescale : ℚ) = 90 * (1001 / 30000) ∧
        (duration / timeline.timescale : ℚ) = 10 * (1001 / 30000) := by
  have positive : 0 < ntscFilm.stream.timeBase.num := by decide
  have positive' : 0 < ntscFilm.stream.timeBase.den := by decide
  have fits : TimesFit ntscFilm := by decide +kernel
  obtain ⟨⟨_,_,stands⟩,told⟩ := timeline_describes_segments ntscFilm
  obtain ⟨start,start',length,starts,lasts,third,same⟩ := stands 2 (by decide)
  rw [same fits.1] at third
  obtain ⟨timeline,read,describes⟩ := told positive positive' fits
  obtain ⟨time,duration,here,begins,goes,_⟩ := describes.timed 3 90 10 rfl rfl
  cases starts
  cases lasts
  refine ⟨positive,positive',fits,rfl,third,timeline,read,time,duration,here,?_,?_⟩
  · simpa [ntscFilm] using begins
  · simpa [ntscFilm] using goes

/-- Two segments in ticks of four seconds. Where the second one starts has no place in 64 bits once it is in seconds. -/
def endlessFilm : Rendering where
  stream := { film with timeBase := ⟨4,1⟩, durationTicks := 0x4000000000000001, fits := by decide }
  representation := .copied film
  starts := [0,0x4000000000000000]

/-- Three segments, the first two of which have a length without a place in 64 bits. -/
def tornFilm : Rendering where
  stream := film
  representation := .copied film
  starts := [minSigned64,1,minSigned64 + 2]

/-- The manifest says that both segments of the one film start at zero, and that the first one has no length. What is
    kept of the lengths of the other film makes a run of its first two segments, whose second one starts elsewhere. -/
theorem segments_without_place_start_elsewhere :
    (0 < endlessFilm.stream.timeBase.num ∧ 0 < endlessFilm.stream.timeBase.den ∧ endlessFilm.LengthsFit ∧
      endlessFilm.segmentStart? 1 = some 0x4000000000000000 ∧ endlessFilm.segmentTicks = [0x4000000000000000,1] ∧
      Timeline.ofLines? ((representationLines endlessFilm).map String.toList) = some ⟨1,0,[⟨0,0,0⟩,⟨0,4,0⟩]⟩) ∧
    tornFilm.segmentStart? 1 = some 1 ∧
      ((timelineRuns tornFilm).flatMap Run.segments)[1]? = some (-0xFFFFFFFFFFFFFFFF,-0x7FFFFFFFFFFFFFFF) := by
  have written : (timelineRuns endlessFilm).map (Run.written (timeFactor endlessFilm.stream)) = [⟨0,0,0⟩,⟨0,4,0⟩] := by
    decide +kernel
  refine ⟨⟨by decide,by decide,by decide +kernel,rfl,by decide +kernel,?_⟩,rfl,by decide +kernel⟩
  rw [ofLines?_representationLines,written]
  rfl

end Manifest
end Playout
