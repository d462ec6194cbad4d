import Playout.Proofs.Manifest.Pairings

/-!
What the texts of a file do to a master playlist. The texts of renditions are mended before they are put in quotes,
those of variants are written as they are: a line break in a codec or in the name of an audio group breaks the line, a
double quote ends the value, and the name of the group is not the one that its renditions have.
-/
namespace Playout.Manifest

/-- What stands in quotes in a playlist. -/
def MasterPlaylist.inQuotes (m : MasterPlaylist) : List (List Char) :=
  m.renditions.flatMap (·.attributes.inQuotes) ++ m.variants.flatMap (·.attributes.inQuotes)

/-- No text of the file is taken for a part of the playlist: the tags are on lines of their own, a value ends where
    it was meant to, and a variant names the group as its renditions do. -/
structure MasterPlaylist.IsUnbroken (m : MasterPlaylist) : Prop where
  lines : m.render.toList.count '\n' = 3 + m.renditions.length + 2 * m.variants.length
  quotes : ∀ text ∈ m.inQuotes, '"' ∉ text
  groups : ∀ v ∈ m.variants, ∀ group, v.audioGroup = some group → ∀ r ∈ m.renditions, r.kind = .audio →
    r.group = group → v.attributes.quoted? "AUDIO" = r.attributes.quoted? "GROUP-ID"

/-! ### Lines -/

theorem count_joined (lines : List String) : (String.join (lines.map (· ++ "\n"))).toList.count '\n' =
    lines.length + (lines.flatMap String.toList).count '\n' := by
  induction lines with
  | nil => rfl
  | cons line lines ih =>
    rw [toList_joined_cons,List.count_append,List.count_cons_self,ih,List.flatMap_cons,List.count_append,List.length_cons]
    ac_rfl

theorem count_renditions (rs : List Rendition) : ((rs.map Rendition.line).flatMap String.toList).count '\n' =
    (rs.flatMap (·.attributes.inQuotes)).flatten.count '\n' := by
  induction rs with
  | nil => rfl
  | cons r rs ih => simp [ih,r.count_line,Attributes.breaks]

theorem count_variants {vs : List Variant} (places : ∀ v ∈ vs, IsPlain v.uri) :
    (vs.flatMap Variant.lines).length = 2 * vs.length ∧
      ((vs.flatMap Variant.lines).flatMap String.toList).count '\n' =
        (vs.flatMap (·.attributes.inQuotes)).flatten.count '\n' := by
  induction vs with
  | nil => exact ⟨rfl,rfl⟩
  | cons v vs ih =>
    obtain ⟨place,places⟩ := List.forall_mem_cons.mp places
    obtain ⟨length,count⟩ := ih places
    have uri : v.uri.toList.count '\n' = 0 := List.count_eq_zero.mpr place.line
    rw [List.flatMap_cons,v.lines_eq]
    constructor
    · simp [length]
      omega
    · simp [count,v.count_line,uri,Attributes.breaks]

/-- There are as many lines more than there should be as there are line breaks in quotes. -/
theorem count_render {m : MasterPlaylist} (places : ∀ v ∈ m.variants, IsPlain v.uri) :
    m.render.toList.count '\n' =
      3 + m.renditions.length + 2 * m.variants.length + m.inQuotes.flatten.count '\n' := by
  obtain ⟨length,count⟩ := count_variants places
  have header : (["#EXTM3U","#EXT-X-VERSION:6","#EXT-X-INDEPENDENT-SEGMENTS"].flatMap String.toList).count '\n' = 0 := by
    decide
  rw [MasterPlaylist.render,count_joined,MasterPlaylist.lines,MasterPlaylist.inQuotes]
  simp only [List.length_append,List.flatMap_append,List.flatten_append,List.count_append,length,count,header,
    count_renditions,List.length_map,List.length_cons,List.length_nil]
  omega

/-! ### Places -/

def Combination.renderings (c : Combination) : List Rendering := c.video.toList ++ c.audio

variable {combinations : List Combination} {subtitles : List Rendering} {v : Variant} {m : MasterPlaylist}

theorem uri_of_mem_audioRenditions {seen : List String} {r : Rendition}
    (listed : r ∈ audioRenditions seen combinations) : ∃ c ∈ combinations, ∃ x ∈ c.renderings, r.uri = playlistUri x := by
  induction combinations generalizing seen with
  | nil => cases listed
  | cons c rest ih =>
    have later {seen : List String} (listed : r ∈ audioRenditions seen rest) :
        ∃ d ∈ c :: rest, ∃ x ∈ d.renderings, r.uri = playlistUri x := by
      obtain ⟨d,member,found⟩ := ih listed
      exact ⟨d,List.mem_cons_of_mem c member,found⟩
    rw [audioRenditions] at listed
    by_cases known : seen.contains c.group = true
    · rw [if_pos known] at listed
      exact later listed
    · rw [if_neg known] at listed
      rcases List.mem_append.mp listed with own | others
      · obtain ⟨x,here,_,_,_,uri⟩ := mem_renditionsOf own
        exact ⟨c,List.mem_cons_self,x,List.mem_append_right _ here,uri⟩
      · exact later others

theorem of_mem_variants (listed : v ∈ (masterOf combinations subtitles).variants) :
    (∃ c ∈ combinations, ∃ x ∈ c.renderings, v.uri = playlistUri x) ∧
      ∀ group, v.subtitleGroup = some group → group = subtitleGroup := by
  obtain ⟨c,member,made⟩ := List.mem_filterMap.mp listed
  have named {group : String} (named : (if subtitles.isEmpty then none else some subtitleGroup) = some group) :
      group = subtitleGroup := by
    split_ifs at named
    exact (Option.some.inj named).symm
  cases video : c.video with
  | some x =>
    simp only [variant?,video,Option.some.injEq] at made
    subst made
    exact ⟨⟨c,member,x,by simp [Combination.renderings,video],rfl⟩,fun group => named⟩
  | none =>
    simp only [variant?,video,Option.map_eq_some_iff] at made
    obtain ⟨x,first,rfl⟩ := made
    exact ⟨⟨c,member,x,List.mem_append_right _ (List.mem_of_head? first),rfl⟩,fun group => named⟩

/-! ### Texts that do no harm -/

/-- What a playlist has of its own is plain. -/
structure MasterPlaylist.IsPlaced (m : MasterPlaylist) : Prop where
  renditions : ∀ r ∈ m.renditions, IsPlain r.uri
  variants : ∀ v ∈ m.variants, IsPlain v.uri
  subtitles : ∀ v ∈ m.variants, ∀ group, v.subtitleGroup = some group → IsPlain group

theorem isPlaced_masterOf (parsed : ∀ r ∈ combinations.flatMap Combination.renderings ++ subtitles,
    ∃ s, RepresentationId.parse s = .ok r.representation.id) : (masterOf combinations subtitles).IsPlaced := by
  have place {r : Rendering} (here : r ∈ combinations.flatMap Combination.renderings ++ subtitles) :
      IsPlain (playlistUri r) := by
    obtain ⟨s,read⟩ := parsed r here
    exact isPlain_playlistUri (RepresentationId.read_of_parse read)
  constructor
  · intro r listed
    rcases List.mem_append.mp listed with sound | text
    · obtain ⟨c,member,x,here,uri⟩ := uri_of_mem_audioRenditions sound
      exact uri ▸ place (List.mem_append_left _ (List.mem_flatMap_of_mem member here))
    · obtain ⟨x,here,_,_,_,uri⟩ := mem_renditionsOf text
      exact uri ▸ place (List.mem_append_right _ here)
  · intro v listed
    obtain ⟨⟨c,member,x,here,uri⟩,_⟩ := of_mem_variants listed
    exact uri ▸ place (List.mem_append_left _ (List.mem_flatMap_of_mem member here))
  · intro v listed group named
    rw [(of_mem_variants listed).2 group named]
    decide

/-- The codecs of a variant and the name of its group. -/
def Variant.texts (v : Variant) : List Char := v.codecs.toList ++ (v.audioGroup.getD "").toList

theorem count_texts (subtitles : ∀ group, v.subtitleGroup = some group → IsPlain group) :
    v.attributes.inQuotes.flatten.count '\n' = v.texts.count '\n' := by
  have subtitle : (v.subtitleGroup.map String.toList).toList.flatten.count '\n' = 0 := by
    cases named : v.subtitleGroup with
    | none => rfl
    | some group => simp [List.count_eq_zero.mpr (subtitles group named).line]
  have audio : (v.audioGroup.map String.toList).toList.flatten = (v.audioGroup.getD "").toList := by
    cases v.audioGroup <;> simp
  have codecs : (if v.codecs = "" then [] else [v.codecs.toList]).flatten = v.codecs.toList := by
    by_cases none : v.codecs = "" <;> simp [none]
  rw [v.inQuotes_attributes,List.flatten_append,List.flatten_append,codecs,audio,List.count_append,subtitle,
    Nat.add_zero,Variant.texts]

theorem count_all_texts {vs : List Variant}
    (subtitles : ∀ v ∈ vs, ∀ group, v.subtitleGroup = some group → IsPlain group) :
    (vs.flatMap (·.attributes.inQuotes)).flatten.count '\n' = (vs.flatMap Variant.texts).count '\n' := by
  induction vs with
  | nil => rfl
  | cons v vs ih =>
    obtain ⟨here,later⟩ := List.forall_mem_cons.mp subtitles
    rw [List.flatMap_cons,List.flatten_append,List.count_append,count_texts here,ih later,List.flatMap_cons,
      List.count_append]

theorem quote_not_mem_iff (subtitles : ∀ group, v.subtitleGroup = some group → IsPlain group) :
    (∀ text ∈ v.attributes.inQuotes, '"' ∉ text) ↔
      '"' ∉ v.codecs.toList ∧ ∀ group, v.audioGroup = some group → '"' ∉ group.toList := by
  have subtitle : ∀ text ∈ (v.subtitleGroup.map String.toList).toList, '"' ∉ text := by
    intro text member
    obtain ⟨group,here,rfl⟩ := Option.map_eq_some_iff.mp (Option.mem_toList.mp member)
    exact (subtitles group here).quote
  rw [v.inQuotes_attributes,List.forall_mem_append,List.forall_mem_append]
  by_cases none : v.codecs = "" <;> simp_all

/-- Line breaks in the texts of variants are all that makes further lines. -/
theorem count_of_isPlaced (placed : m.IsPlaced) : m.render.toList.count '\n' =
    3 + m.renditions.length + 2 * m.variants.length + (m.variants.flatMap Variant.texts).count '\n' := by
  have none : (m.renditions.flatMap (·.attributes.inQuotes)).flatten.count '\n' = 0 := by
    rw [List.count_eq_zero]
    intro member
    obtain ⟨text,inside,here⟩ := List.mem_flatten.mp member
    obtain ⟨r,listed,own⟩ := List.mem_flatMap.mp inside
    exact (r.plain_inQuotes (placed.renditions r listed) text own).2 here
  rw [count_render placed.variants,MasterPlaylist.inQuotes,List.flatten_append,List.count_append,none,
    count_all_texts placed.subtitles,Nat.zero_add]

theorem quoted_eq_iff {s : String} : quoted s = s ↔ IsPlain s :=
  ⟨fun same => same ▸ isPlain_quoted s,quoted_of_isPlain⟩

/-- A text that ends neither a value nor a line. -/
def IsInert (s : String) : Prop := '"' ∉ s.toList ∧ '\n' ∉ s.toList

/-- The texts of a variant are inert, and the name of its group is not changed where renditions have it. -/
structure Variant.IsHarmless (v : Variant) (rs : List Rendition) : Prop where
  codecs : IsInert v.codecs
  group : ∀ group, v.audioGroup = some group → IsInert group
  same : ∀ group, v.audioGroup = some group → (∃ r ∈ rs, r.kind = .audio ∧ r.group = group) → IsPlain group

theorem isHarmless_of_isUnbroken (placed : m.IsPlaced) (unbroken : m.IsUnbroken) (listed : v ∈ m.variants) :
    v.IsHarmless m.renditions := by
  have none : '\n' ∉ v.texts := by
    have total := unbroken.lines.symm.trans (count_of_isPlaced placed)
    rw [eq_comm,Nat.add_eq_left,List.count_eq_zero] at total
    exact fun inside => total (List.mem_flatMap_of_mem listed inside)
  rw [Variant.texts,List.mem_append,not_or] at none
  obtain ⟨codecs,group⟩ := none
  obtain ⟨codecs',group'⟩ := (quote_not_mem_iff (placed.subtitles v listed)).mp fun text member =>
    unbroken.quotes text (List.mem_append_right _ (List.mem_flatMap_of_mem listed member))
  refine ⟨⟨codecs',codecs⟩,fun name named => ⟨group' name named,?_⟩,fun name named => ?_⟩
  · rw [named] at group
    exact group
  · rintro ⟨r,member,kind,same⟩
    have texts := unbroken.groups v listed name named r member kind same
    rw [v.audio_of_attributes,r.group_of_attributes,named,same] at texts
    exact quoted_eq_iff.mp (Option.some.inj texts).symm

theorem isUnbroken_of_isHarmless (placed : m.IsPlaced) (harmless : ∀ v ∈ m.variants, v.IsHarmless m.renditions) :
    m.IsUnbroken := by
  constructor
  · have none : (m.variants.flatMap Variant.texts).count '\n' = 0 := by
      rw [List.count_eq_zero]
      intro member
      obtain ⟨v,listed,inside⟩ := List.mem_flatMap.mp member
      rcases List.mem_append.mp inside with codec | name
      · exact (harmless v listed).codecs.2 codec
      · cases named : v.audioGroup with
        | none => simp [named] at name
        | some group =>
          rw [named] at name
          exact ((harmless v listed).group group named).2 name
    rw [count_of_isPlaced placed,none,Nat.add_zero]
  · intro text member
    rcases List.mem_append.mp member with rendition | variant
    · obtain ⟨r,listed,here⟩ := List.mem_flatMap.mp rendition
      exact (r.plain_inQuotes (placed.renditions r listed) text here).1
    · obtain ⟨v,listed,here⟩ := List.mem_flatMap.mp variant
      exact (quote_not_mem_iff (placed.subtitles v listed)).mpr
        ⟨(harmless v listed).codecs.1,fun group named => ((harmless v listed).group group named).1⟩ text here
  · intro v listed group named r member kind same
    have plain := (harmless v listed).same group named ⟨r,member,kind,same⟩
    rw [v.audio_of_attributes,r.group_of_attributes,named,same,quoted_of_isPlain plain]

/-- The texts of renditions never break a master playlist, and those of variants break it as often as they have line
    breaks. It is unbroken just if the codecs and the group of each variant are inert, and the group is also without
    the carriage returns that are taken from it where renditions have it. -/
theorem master_unbroken_iff (combinations : List Combination) (subtitles : List Rendering)
    (parsed : ∀ r ∈ combinations.flatMap Combination.renderings ++ subtitles,
      ∃ s, RepresentationId.parse s = .ok r.representation.id) :
    (∀ r ∈ (masterOf combinations subtitles).renditions, ∀ text ∈ r.attributes.inQuotes, '"' ∉ text ∧ '\n' ∉ text) ∧
    (masterOf combinations subtitles).render.toList.count '\n' =
      3 + (masterOf combinations subtitles).renditions.length + 2 * (masterOf combinations subtitles).variants.length +
        ((masterOf combinations subtitles).variants.flatMap Variant.texts).count '\n' ∧
    ((masterOf combinations subtitles).IsUnbroken ↔ ∀ v ∈ (masterOf combinations subtitles).variants,
      v.IsHarmless (masterOf combinations subtitles).renditions) := by
  have placed := isPlaced_masterOf parsed
  refine ⟨fun r listed => r.plain_inQuotes (placed.renditions r listed),count_of_isPlaced placed,?_⟩
  exact ⟨fun unbroken v listed => isHarmless_of_isUnbroken placed unbroken listed,isUnbroken_of_isHarmless placed⟩

/-- The film and a sound of some codec. -/
def soundOf (codec : String) : Combination where
  video := some (copiedRendering 5.0 film [0,4,8])
  audio := [copiedRendering 5.0 { sound with codec := codec, language := some "fr\"a\n" } []]
  group := groupName codec
  audioCodec := codec

theorem parsed_soundOf (codec : String) : ∀ r ∈ [soundOf codec].flatMap Combination.renderings ++ [],
    ∃ s, RepresentationId.parse s = .ok r.representation.id := by
  intro r member
  refine ⟨"direct",?_⟩
  simp only [soundOf,Combination.renderings,List.flatMap_singleton,List.append_nil,Option.toList_some,
    List.singleton_append,List.mem_cons,List.not_mem_nil,or_false] at member
  rcases member with rfl | rfl <;> rfl

theorem plain_codec_keeps_playlist : (∀ r ∈ [soundOf "mp4a.40.2"].flatMap Combination.renderings ++ [],
      ∃ s, RepresentationId.parse s = .ok r.representation.id) ∧
    (masterOf [soundOf "mp4a.40.2"] []).IsUnbroken := by
  have parsed := parsed_soundOf "mp4a.40.2"
  refine ⟨parsed,(master_unbroken_iff _ _ parsed).2.2.mpr fun v listed => ?_⟩
  obtain rfl := List.mem_singleton.mp listed
  have codecs : IsInert "avc1.64001f,mp4a.40.2" := ⟨by decide,by decide⟩
  have plain : IsPlain "audio-mp4a.40.2" := by decide
  refine ⟨codecs,fun group named => ?_,fun group named _ => ?_⟩ <;> obtain rfl := Option.some.inj named
  · exact ⟨plain.quote,plain.line⟩
  · exact plain

/-- A codec with a quote and a line break is written as it is, twice, while the rendition has another group. -/
theorem hostile_codec_breaks_playlist :
    (∀ r ∈ [soundOf "x\"y\n"].flatMap Combination.renderings ++ [],
      ∃ s, RepresentationId.parse s = .ok r.representation.id) ∧
    ∃ m r v, masterOf [soundOf "x\"y\n"] [] = m ∧ m = ⟨[r],[v]⟩ ∧ m.render.toList.count '\n' = 3 + 1 + 2 * 1 + 2 ∧
      (∃ text ∈ m.inQuotes, '"' ∈ text) ∧ v.audioGroup = some r.group ∧
      r.attributes.quoted? "GROUP-ID" = some "audio-x'y " ∧ v.attributes.quoted? "AUDIO" = some "audio-x\"y\n" ∧
      ¬ m.IsUnbroken := by
  have parsed := parsed_soundOf "x\"y\n"
  have count := count_of_isPlaced (isPlaced_masterOf parsed)
  refine ⟨parsed,_,_,_,rfl,rfl,count,⟨"audio-x\"y\n".toList,?inside,by decide⟩,rfl,?declared,?named,?broken⟩
  case inside =>
    refine List.mem_append_right _ (List.mem_flatMap_of_mem (List.mem_singleton_self _) ?_)
    rw [Variant.inQuotes_attributes]
    exact List.mem_append_left _ (List.mem_append_right _ (List.mem_singleton_self _))
  case declared =>
    rw [Rendition.group_of_attributes]
    decide +kernel
  case named => rw [Variant.audio_of_attributes]; rfl
  case broken =>
    intro unbroken
    exact absurd (unbroken.lines.symm.trans count) (by decide)

end Playout.Manifest
