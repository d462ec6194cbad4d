import Playout.Proofs.Manifest.AudioGroups

/-!
The names by which a player tells the renditions of a group apart. A rendition is named by the title of its stream, or
by its language; only one that has neither is numbered. So names are apart where they fall back on the number, and
where the file itself keeps its titles and languages apart.
-/
namespace Playout.Manifest

/-! ### What a player reads -/

/-- The stream that the place of a rendition names. -/
def Rendition.streamIndex? (e : Rendition) : Option Nat :=
  (Text.splitFirst? '/' e.uri.toList).bind fun (index,_) => Text.digits? index

/-- No two streams share a name in a group of one type. -/
def MasterPlaylist.IsUnambiguous (m : MasterPlaylist) : Prop :=
  ∀ e ∈ m.renditions, ∀ e' ∈ m.renditions, e.streamIndex? ≠ e'.streamIndex? →
    e.attributes.bare? "TYPE" = e'.attributes.bare? "TYPE" →
    e.attributes.quoted? "GROUP-ID" = e'.attributes.quoted? "GROUP-ID" →
    e.attributes.quoted? "NAME" ≠ e'.attributes.quoted? "NAME"

/-! ### What is listed -/

/-- What the number of a nameless stream of a kind follows. -/
def RenditionKind.fallback : RenditionKind → String
  | audio => "Audio"
  | subtitles => "Subtitles"

/-- The group that a rendering is listed in. -/
def RenditionKind.groupOf (r : Rendering) : RenditionKind → String
  | audio => groupName r.representation.codec
  | subtitles => subtitleGroup

/-- The renderings of a file that are offered as renditions of a kind. -/
def offeredAs (cs : List Candidates) (p : Playable) (mode : Mode) : RenditionKind → List Rendering
  | .audio => audioOf cs p mode
  | .subtitles => subtitlesOf cs

/-- A rendition that a rendering is listed as. -/
structure Rendition.Presents (e : Rendition) (kind : RenditionKind) (r : Rendering) : Prop where
  ofKind : e.kind = kind
  inGroup : e.group = kind.groupOf r
  named : e.name = displayName kind.fallback r
  placed : e.uri = playlistUri r

/-- The title of a stream, or its language. -/
def ownName? (s : Stream) : Option String := s.title.or s.language

/-- Streams of one kind and group that are different have no name in common that one of them has of its own. -/
def AreNamedApart (cs : List Candidates) (p : Playable) (mode : Mode) : Prop :=
  ∀ kind, ∀ r ∈ offeredAs cs p mode kind, ∀ r' ∈ offeredAs cs p mode kind, r.stream.index ≠ r'.stream.index →
    quoted (kind.groupOf r) = quoted (kind.groupOf r') →
    ∀ name, ownName? r.stream = some name → quoted name ≠ quoted (displayName kind.fallback r')

/-! ### Names -/

variable {kind : RenditionKind} {e e' : Rendition} {r r' : Rendering} {name : String}

theorem displayName_of_own (fallback : String) (own : ownName? r.stream = some name) : displayName fallback r = name := by
  rw [ownName?] at own
  rw [displayName]
  cases title : r.stream.title with
  | some t =>
    rw [title] at own
    exact Option.some.inj own
  | none =>
    rw [title,Option.none_or] at own
    rw [own]

theorem displayName_of_nameless (fallback : String) (nameless : ownName? r.stream = none) :
    displayName fallback r = fallback ++ " " ++ toString r.stream.index := by
  obtain ⟨title,language⟩ := Option.or_eq_none_iff.mp nameless
  rw [displayName,title,language]

theorem toList_toString (n : Nat) : (toString n).toList = Nat.toDigits 10 n := by
  rw [Nat.toString_eq_repr,Nat.toList_repr]

/-- Quotes leave the number of a nameless stream as it is, so numbers keep nameless streams apart. -/
theorem nameless_apart (apart : r.stream.index ≠ r'.stream.index) (nameless : ownName? r.stream = none)
    (nameless' : ownName? r'.stream = none) :
    quoted (displayName kind.fallback r) ≠ quoted (displayName kind.fallback r') := by
  have start : IsPlain (kind.fallback ++ " ") := by
    cases kind <;> decide
  have plain (n : Nat) : IsPlain (kind.fallback ++ " " ++ toString n) := start.append (isPlain_toString n)
  rw [displayName_of_nameless _ nameless,displayName_of_nameless _ nameless',quoted_of_isPlain (plain _),
    quoted_of_isPlain (plain _)]
  intro same
  have letters := congrArg String.toList same
  rw [String.toList_append,@String.toList_append (_ ++ _)] at letters
  have numbers := congrArg Text.digits? (List.append_cancel_left letters)
  rw [toList_toString,toList_toString,Text.digits?_toDigits,Text.digits?_toDigits] at numbers
  exact apart (Option.some.inj numbers)

/-! ### Attributes -/

theorem Rendition.name_of_attributes (e : Rendition) : e.attributes.quoted? "NAME" = some (quoted e.name) := by
  simp only [Attributes.quoted?,attributes,value?_cons,value?_append,value?_optional]
  simp

theorem Rendition.type_of_attributes (e : Rendition) : e.attributes.bare? "TYPE" = some e.kind.name.toList := rfl

theorem Rendition.type_eq_iff : e.attributes.bare? "TYPE" = e'.attributes.bare? "TYPE" ↔ e.kind = e'.kind := by
  rw [type_of_attributes,type_of_attributes,Option.some_inj]
  cases e.kind <;> cases e'.kind <;> decide

namespace Rendition.Presents

theorem streamIndex?_eq (presents : e.Presents kind r) : e.streamIndex? = some r.stream.index := by
  have digits : '/' ∉ (toString r.stream.index).toList := fun member =>
    absurd (Text.isDigit_of_mem_toString member) (by decide)
  have place : e.uri.toList = (toString r.stream.index).toList ++
      '/' :: (r.representation.id.pathSegment.toList ++ "/index.m3u8".toList) := by
    rw [presents.placed,playlistUri,Rendering.directory]
    simp
  rw [streamIndex?,place,Text.splitFirst?_append digits,Option.bind_some,toList_toString]
  exact Text.digits?_toDigits _

/-- What a player sees of two renditions of one kind: their streams, groups and names. -/
theorem confused_iff (first : e.Presents kind r) (second : e'.Presents kind r') :
    (e.streamIndex? ≠ e'.streamIndex? → e.attributes.bare? "TYPE" = e'.attributes.bare? "TYPE" →
      e.attributes.quoted? "GROUP-ID" = e'.attributes.quoted? "GROUP-ID" →
      e.attributes.quoted? "NAME" ≠ e'.attributes.quoted? "NAME") ↔
    (r.stream.index ≠ r'.stream.index → quoted (kind.groupOf r) = quoted (kind.groupOf r') →
      quoted (displayName kind.fallback r) ≠ quoted (displayName kind.fallback r')) := by
  have types : e.attributes.bare? "TYPE" = e'.attributes.bare? "TYPE" :=
    type_eq_iff.mpr (first.ofKind.trans second.ofKind.symm)
  simp only [first.streamIndex?_eq,second.streamIndex?_eq,types,group_of_attributes,name_of_attributes,first.inGroup,
    second.inGroup,first.named,second.named,ne_eq,Option.some_inj,forall_const]

end Rendition.Presents

/-! ### The renditions of a file -/

variable {cs : List Candidates} {p : Playable} {mode : Mode} {m : MasterPlaylist} {rs : List Rendering}
  {group fallback : String} {preferred : Option Nat}

theorem exists_mem_renditionsOf (kind : RenditionKind) (group fallback : String) (preferred : Option Nat) (member : r ∈ rs) :
    ∃ e ∈ renditionsOf kind group fallback preferred rs,
      e.kind = kind ∧ e.group = group ∧ e.name = displayName fallback r ∧ e.uri = playlistUri r := by
  obtain ⟨i,found⟩ := List.mem_iff_getElem?.mp member
  have here : (r,i) ∈ rs.zipIdx := List.mem_zipIdx_iff_getElem?.mpr found
  exact ⟨_,List.mem_map_of_mem here,rfl,rfl,rfl,rfl⟩

/-- The audio renditions come by their codecs, the subtitles after them. -/
theorem renditions_of_made (made : hlsMaster cs p mode = .ok m) : ∃ codecs, AreCodecs codecs (audioOf cs p mode) ∧
    m.renditions = codecs.flatMap (codecRenditions (audioOf cs p mode)) ++
      renditionsOf .subtitles subtitleGroup "Subtitles" (preferred? (subtitlesOf cs)) (subtitlesOf cs) := by
  obtain ⟨codecs,known,groups⟩ := exists_codecs (audioOf cs p mode)
  obtain ⟨_,rfl⟩ := masterOf_of_made made
  refine ⟨codecs,known,congrArg (· ++ _) ?_⟩
  by_cases none : videosOf cs p mode = []
  · rw [none,combinations_alone groups,audioRenditions_alone known.nodup]
  · exact audioRenditions_combinations known.nodup groups none

/-- Every rendition presents a rendering that is offered. -/
theorem presents_of_mem (made : hlsMaster cs p mode = .ok m) (listed : e ∈ m.renditions) :
    ∃ kind, ∃ r ∈ offeredAs cs p mode kind, e.Presents kind r := by
  obtain ⟨codecs,known,renditions⟩ := renditions_of_made made
  rw [renditions,List.mem_append] at listed
  obtain sound | text := listed
  · obtain ⟨codec,_,here⟩ := List.mem_flatMap.mp sound
    obtain ⟨r,member,is_audio,in_group,named,placed⟩ := mem_renditionsOf here
    obtain ⟨offered,same⟩ := List.mem_filter.mp member
    exact ⟨.audio,r,offered,is_audio,in_group.trans (congrArg groupName (of_decide_eq_true same).symm),named,placed⟩
  · obtain ⟨r,offered,is_text,in_group,named,placed⟩ := mem_renditionsOf text
    exact ⟨.subtitles,r,offered,is_text,in_group,named,placed⟩

/-- Every rendering that is offered is presented. -/
theorem exists_presents (made : hlsMaster cs p mode = .ok m) (offered : r ∈ offeredAs cs p mode kind) :
    ∃ e ∈ m.renditions, e.Presents kind r := by
  obtain ⟨codecs,known,renditions⟩ := renditions_of_made made
  rw [renditions]
  cases kind with
  | audio =>
    have codec := (known.mem_iff _).mpr ⟨r,offered,rfl⟩
    have member : r ∈ ofCodec r.representation.codec (audioOf cs p mode) :=
      List.mem_filter.mpr ⟨offered,decide_eq_true rfl⟩
    obtain ⟨e,here,is_audio,in_group,named,placed⟩ := exists_mem_renditionsOf .audio
      (groupName r.representation.codec) "Audio" (some ((preferred? (ofCodec r.representation.codec
        (audioOf cs p mode))).getD 0)) member
    exact ⟨e,List.mem_append_left _ (List.mem_flatMap_of_mem codec here),is_audio,in_group,named,placed⟩
  | subtitles =>
    obtain ⟨e,here,is_text,in_group,named,placed⟩ := exists_mem_renditionsOf .subtitles subtitleGroup "Subtitles"
      (preferred? (subtitlesOf cs)) offered
    exact ⟨e,List.mem_append_right _ here,is_text,in_group,named,placed⟩

theorem namedApart_of_isUnambiguous (made : hlsMaster cs p mode = .ok m) (clear : m.IsUnambiguous) :
    AreNamedApart cs p mode := by
  intro kind r offered r' offered' apart same name own
  obtain ⟨e,listed,presents⟩ := exists_presents made offered
  obtain ⟨e',listed',presents'⟩ := exists_presents made offered'
  have names := (presents.confused_iff presents').mp (clear e listed e' listed') apart same
  rwa [displayName_of_own _ own] at names

/-- Two streams are told apart by the name that one of them has, or else by their numbers. -/
theorem isUnambiguous_of_namedApart (made : hlsMaster cs p mode = .ok m) (named : AreNamedApart cs p mode) :
    m.IsUnambiguous := by
  intro e listed e' listed' streams types
  obtain ⟨kind,r,offered,presents⟩ := presents_of_mem made listed
  obtain ⟨kind',r',offered',presents'⟩ := presents_of_mem made listed'
  obtain rfl : kind = kind' := presents.ofKind.symm.trans ((Rendition.type_eq_iff.mp types).trans presents'.ofKind)
  refine (presents.confused_iff presents').mpr (fun apart same => ?_) streams types
  cases own : ownName? r.stream with
  | some name =>
    rw [displayName_of_own _ own]
    exact named kind r offered r' offered' apart same name own
  | none =>
    cases own' : ownName? r'.stream with
    | some name =>
      rw [displayName_of_own _ own']
      exact (named kind r' offered' r offered apart.symm same.symm name own').symm
    | none => exact nameless_apart apart own own'

/-- A master playlist lists the audio and the subtitles that are offered, and nothing else. Its renditions are told apart
    by their names just if no stream has a title or language that is, in quotes, the name of another stream of its kind
    and group; streams that have neither are always told apart. -/
theorem unambiguous_iff_named_apart (made : hlsMaster cs p mode = .ok m) :
    (∀ e ∈ m.renditions, ∃ kind, ∃ r ∈ offeredAs cs p mode kind, e.Presents kind r) ∧
    (∀ kind, ∀ r ∈ offeredAs cs p mode kind, ∃ e ∈ m.renditions, e.Presents kind r) ∧
    (m.IsUnambiguous ↔ AreNamedApart cs p mode) ∧
    ((∀ kind, ∀ r ∈ offeredAs cs p mode kind, ownName? r.stream = none) → m.IsUnambiguous) := by
  have clear := isUnambiguous_of_namedApart made
  refine ⟨fun e => presents_of_mem made,fun kind r => exists_presents made,⟨namedApart_of_isUnambiguous made,clear⟩,?_⟩
  refine fun nameless => clear fun kind r offered r' _ _ _ name own => ?_
  rw [nameless kind r offered] at own
  cases own

/-- The film with sound in two languages. -/
def filmIn (first second : String) : List Candidates :=
  [candidatesOf 5.0 [0,4,8] film,candidatesOf 5.0 [] { sound with language := some first },
    candidatesOf 5.0 [] { sound with index := 2, language := some second, isDefault := false }]

/-- One of the two sounds. -/
def soundIn (index : Nat) (isDefault : Bool) (language : String) : Rendering :=
  copiedRendering 5.0 { sound with index := index, language := some language, isDefault := isDefault } []

theorem two_languages_told_apart : ∃ m, hlsMaster (filmIn "eng" "fra") ⟨[]⟩ .copies = .ok m ∧ m.IsUnambiguous := by
  obtain ⟨m,made⟩ : ∃ m, hlsMaster (filmIn "eng" "fra") ⟨[]⟩ .copies = .ok m := ⟨_,rfl⟩
  refine ⟨m,made,(unambiguous_iff_named_apart made).2.2.1.mpr ?_⟩
  intro kind r offered r' offered' apart same name own
  cases kind with
  | subtitles => cases offered
  | audio =>
    have sounds : offeredAs (filmIn "eng" "fra") ⟨[]⟩ .copies .audio = [soundIn 1 true "eng",soundIn 2 false "fra"] := rfl
    simp only [sounds,List.mem_cons,List.not_mem_nil,or_false] at offered offered'
    rcases offered with rfl | rfl <;> rcases offered' with rfl | rfl
    · exact absurd rfl apart
    · obtain rfl : "eng" = name := Option.some.inj own
      decide +kernel
    · obtain rfl : "fra" = name := Option.some.inj own
      decide +kernel
    · exact absurd rfl apart

/-- Two sounds in one language have one name, so a player cannot tell them apart. -/
theorem two_english_sounds_share_a_name : ∃ m e e', hlsMaster (filmIn "eng" "eng") ⟨[]⟩ .copies = .ok m ∧
    m.renditions = [e,e'] ∧ e.streamIndex? = some 1 ∧ e'.streamIndex? = some 2 ∧
    e.attributes.bare? "TYPE" = e'.attributes.bare? "TYPE" ∧
    e.attributes.quoted? "GROUP-ID" = e'.attributes.quoted? "GROUP-ID" ∧
    e.attributes.quoted? "NAME" = some "eng" ∧ e'.attributes.quoted? "NAME" = some "eng" ∧ ¬ m.IsUnambiguous := by
  let english (index : Nat) (isDefault : Bool) : Rendition :=
    ⟨.audio,"audio-mp4a.40.2","eng",some "eng",isDefault,playlistUri (soundIn index isDefault "eng")⟩
  have presents (index : Nat) (isDefault : Bool) :
      (english index isDefault).Presents .audio (soundIn index isDefault "eng") := ⟨rfl,rfl,rfl,rfl⟩
  have first := (presents 1 true).streamIndex?_eq
  have second := (presents 2 false).streamIndex?_eq
  have named (e : Rendition) (name : e.name = "eng") : e.attributes.quoted? "NAME" = some "eng" := by
    rw [e.name_of_attributes,name]
    decide +kernel
  obtain ⟨m,made,renditions⟩ : ∃ m, hlsMaster (filmIn "eng" "eng") ⟨[]⟩ .copies = .ok m ∧
      m.renditions = [english 1 true,english 2 false] := ⟨_,rfl,rfl⟩
  have name := named (english 1 true) rfl
  have name' := named (english 2 false) rfl
  refine ⟨m,_,_,made,renditions,first,second,rfl,rfl,name,name',fun clear => ?_⟩
  have apart : (english 1 true).streamIndex? ≠ (english 2 false).streamIndex? := by
    rw [first,second]
    exact nofun
  refine clear _ (renditions ▸ List.mem_cons_self) _ (renditions ▸ ?_) apart rfl rfl (name.trans name'.symm)
  exact List.mem_cons_of_mem _ (List.mem_singleton_self _)

end Playout.Manifest
