import Playout.Proofs.Manifest.Pairings

/-!
A player comes to an audio group through a variant that names it. Where there is video, every group that a master
playlist declares is named by a variant. Without video the variants name none: a player has the first rendering of
each group, and the others are declared in vain.
-/
namespace Playout.Manifest

/-- An audio rendition of the group is listed. -/
def Listing.Declares (l : Listing) (group : String) : Prop := ∃ t ∈ l.media, t.kind = .audio ∧ t.group = group

/-- A variant plays with the group. -/
def Listing.Refers (l : Listing) (group : String) : Prop := ∃ t ∈ l.streams, t.audio = some group

def Listing.IsReachable (l : Listing) : Prop := ∀ group, l.Declares group ↔ l.Refers group

variable {videos audio subtitles : List Rendering} {codecs : List String} {streams : List StreamTag} {group : String}

theorem declares_iff (known : AreCodecs codecs audio) :
    Listing.Declares ⟨audioTags audio codecs ++ subtitleTags subtitles,streams⟩ group ↔
      ∃ codec ∈ codecs, groupName codec = group := by
  constructor
  · rintro ⟨t,listed,kind,rfl⟩
    rcases List.mem_append.mp listed with sound | text
    · obtain ⟨codec,member,here⟩ := mem_audioTags sound
      exact ⟨codec,member,(tag_of_renditionsOf here).2.symm⟩
    · have other := (tag_of_renditionsOf text).1
      rw [kind] at other
      cases other
  · rintro ⟨codec,member,rfl⟩
    obtain ⟨t,first,tag⟩ := exists_tag known member
    exact ⟨t,List.mem_append_left _ first,tag⟩

/-- The pairs of any video rendering name all groups. -/
theorem refers_iff {media : List MediaTag} :
    Listing.Refers ⟨media,(videos ×ˢ pairings codecs).map fun (video,codec) => pairTag audio subtitles video codec⟩ group ↔
      videos ≠ [] ∧ ∃ codec ∈ codecs, groupName codec = group := by
  constructor
  · rintro ⟨t,listed,named⟩
    obtain ⟨⟨video,choice⟩,pair,rfl⟩ := List.mem_map.mp listed
    obtain ⟨first,second⟩ := List.mem_product.mp pair
    obtain ⟨codec,rfl,same⟩ := Option.map_eq_some_iff.mp named
    obtain ⟨_,none⟩ | ⟨_,member,some⟩ := mem_pairings second
    · cases none
    · cases some
      exact ⟨List.ne_nil_of_mem first,codec,member,same⟩
  · rintro ⟨some_video,codec,member,rfl⟩
    obtain ⟨video,first⟩ := List.exists_mem_of_ne_nil videos some_video
    have second : some codec ∈ pairings codecs := by
      cases codecs with
      | nil => cases member
      | cons => exact List.mem_map_of_mem member
    exact ⟨_,List.mem_map_of_mem (List.mem_product.mpr ⟨first,second⟩),rfl⟩

/-! ### Playlists without video -/

/-- A group that no video comes with. -/
def alone (audio : List Rendering) (codec : String) : Combination := ⟨none,ofCodec codec audio,groupName codec,codec⟩

/-- The variant of such a group plays its first rendering. -/
def aloneTag? (audio subtitles : List Rendering) (codec : String) : Option StreamTag :=
  (ofCodec codec audio).head?.map fun first => {
    bandwidth := greatestNat ((ofCodec codec audio).map Rendering.bitrate)
    codecs := codec
    audio := none
    subtitles := if subtitles.isEmpty then none else some subtitleGroup
    uri := playlistUri first }

theorem combinations_alone (groups : audioGroups audio = groupsOf codecs audio) :
    combinations [] audio = codecs.map (alone audio) := by
  rw [combinations,groups,groupsOf]
  simp [alone]

theorem audioRenditions_alone (nodup : codecs.Nodup) :
    audioRenditions [] (codecs.map (alone audio)) = codecs.flatMap (codecRenditions audio) := by
  have distinct : ((codecs.map (alone audio)).map Combination.group).Nodup := by
    rw [List.map_map]
    exact nodup.map fun a b same => groupName_inj same
  have listed : audioRenditions [] (codecs.map (alone audio) ++ []) = (codecs.map (alone audio)).flatMap groupRenditions :=
    audioRenditions_append (fun _ _ => List.not_mem_nil) distinct (fun _ none => absurd none List.not_mem_nil)
  rw [List.append_nil,List.flatMap_map] at listed
  exact listed

theorem listing_alone (known : AreCodecs codecs audio) (groups : audioGroups audio = groupsOf codecs audio)
    (subtitles : List Rendering) : (masterOf (combinations [] audio) subtitles).listing =
      ⟨audioTags audio codecs ++ subtitleTags subtitles,codecs.filterMap (aloneTag? audio subtitles)⟩ := by
  have variants : ((codecs.map (alone audio)).filterMap
      (variant? (if subtitles.isEmpty then none else some subtitleGroup))).map Variant.tag =
      codecs.filterMap (aloneTag? audio subtitles) := by
    rw [List.map_filterMap,List.filterMap_map]
    refine List.filterMap_congr fun codec _ => ?_
    simp [variant?,alone,aloneTag?,Combination.audioBitrate,Variant.tag,Option.map_map,Function.comp_def]
  rw [MasterPlaylist.listing,masterOf,combinations_alone groups,audioRenditions_alone known.nodup,← variants,List.map_append]
  rfl

theorem of_mem_aloneTags {t : StreamTag} (listed : t ∈ codecs.filterMap (aloneTag? audio subtitles)) :
    ∃ codec ∈ codecs, ∃ first ∈ audio, first.representation.codec = codec ∧ t.codecs = codec ∧ t.audio = none ∧
      (∀ group, t.subtitles = some group → group = subtitleGroup) ∧ t.uri = playlistUri first := by
  obtain ⟨codec,member,made⟩ := List.mem_filterMap.mp listed
  obtain ⟨first,head,rfl⟩ := Option.map_eq_some_iff.mp made
  obtain ⟨here,same⟩ := List.mem_filter.mp (List.mem_of_head? head)
  refine ⟨codec,member,first,here,of_decide_eq_true same,rfl,rfl,fun group named => ?_,rfl⟩
  dsimp only at named
  split_ifs at named
  exact (Option.some.inj named).symm

theorem isPlain_alone (known : AreCodecs codecs audio) (plain : ∀ r ∈ audio ++ subtitles, HasPlainNames r) :
    Listing.IsPlain ⟨audioTags audio codecs ++ subtitleTags subtitles,codecs.filterMap (aloneTag? audio subtitles)⟩ where
  media := fun _ listed => isPlain_media known plain listed
  streams := by
    intro t listed
    obtain ⟨codec,_,first,here,rfl,codec_eq,audio_eq,subtitle,uri⟩ := of_mem_aloneTags listed
    have names := plain first (List.mem_append_left _ here)
    refine ⟨codec_eq ▸ names.codec,?_,?_,uri ▸ names.uri⟩
    · intro group named
      rw [audio_eq] at named
      cases named
    · intro group named
      rw [subtitle group named]
      decide

/-! ### The playlist of a file -/

variable {cs : List Candidates} {p : Playable} {mode : Mode} {m : MasterPlaylist}

theorem masterOf_of_made (made : hlsMaster cs p mode = .ok m) :
    ¬ (videosOf cs p mode = [] ∧ audioOf cs p mode = []) ∧
      m = masterOf (combinations (videosOf cs p mode) (audioOf cs p mode)) (subtitlesOf cs) := by
  rw [hlsMaster_eq] at made
  by_cases nothing : ((videosOf cs p mode).isEmpty && (audioOf cs p mode).isEmpty) = true
  · rw [if_pos nothing] at made
    cases made
  · rw [if_neg nothing] at made
    exact ⟨by simpa using nothing,(Except.ok.inj made).symm⟩

/-- What a master playlist lists of the streams that are selected. -/
theorem listing_of_made (made : hlsMaster cs p mode = .ok m) : ∃ codecs, AreCodecs codecs (audioOf cs p mode) ∧
    m.listing.media = audioTags (audioOf cs p mode) codecs ++ subtitleTags (subtitlesOf cs) ∧
    m.listing.streams = if videosOf cs p mode = [] then codecs.filterMap (aloneTag? (audioOf cs p mode) (subtitlesOf cs))
      else (videosOf cs p mode ×ˢ pairings codecs).map fun (video,codec) =>
        pairTag (audioOf cs p mode) (subtitlesOf cs) video codec := by
  obtain ⟨codecs,known,groups⟩ := exists_codecs (audioOf cs p mode)
  obtain ⟨_,rfl⟩ := masterOf_of_made made
  refine ⟨codecs,known,?_⟩
  by_cases none : videosOf cs p mode = []
  · rw [none,listing_alone known groups]
    exact ⟨rfl,(if_pos rfl).symm⟩
  · rw [listing_masterOf known groups none,if_neg none]
    exact ⟨rfl,rfl⟩

theorem isPlain_of_made (proper : AreProper cs) (made : hlsMaster cs p mode = .ok m) : m.listing.IsPlain := by
  obtain ⟨codecs,known,media,streams⟩ := listing_of_made made
  have plain := proper.offered p mode
  have listing : m.listing = ⟨m.listing.media,m.listing.streams⟩ := rfl
  rw [listing,media,streams]
  split_ifs
  · exact isPlain_alone known fun r member => plain r (List.mem_append_right _ member)
  · exact isPlain_listing known plain

/-- The audio groups of a master playlist are those of the codecs of the selected audio. A variant names none that is not
    declared. All of them are named by a variant just where video is selected, so without video no variant names a
    group. This is what a player reads, if no codec has quotes or line breaks. -/
theorem audio_groups_reachable_iff_video (made : hlsMaster cs p mode = .ok m) :
    (∀ group, m.listing.Declares group ↔ ∃ r ∈ audioOf cs p mode, groupName r.representation.codec = group) ∧
    (∀ group, m.listing.Refers group → m.listing.Declares group) ∧
    (m.listing.IsReachable ↔ videosOf cs p mode ≠ []) ∧
    (videosOf cs p mode = [] → ∀ group, ¬ m.listing.Refers group) ∧
    (AreProper cs → Listing.ofText? m.render = some m.listing) := by
  obtain ⟨codecs,known,media,streams⟩ := listing_of_made made
  have listing : m.listing = ⟨m.listing.media,m.listing.streams⟩ := rfl
  have declares (group : String) : m.listing.Declares group ↔ ∃ codec ∈ codecs, groupName codec = group := by
    rw [listing,media]
    exact declares_iff known
  have read (proper : AreProper cs) := MasterPlaylist.ofText?_render (isPlain_of_made proper made)
  refine ⟨fun group => ?_,?_⟩
  · rw [declares]
    simp only [known.mem_iff]
    constructor
    · rintro ⟨_,⟨r,here,rfl⟩,same⟩
      exact ⟨r,here,same⟩
    · rintro ⟨r,here,same⟩
      exact ⟨_,⟨r,here,rfl⟩,same⟩
  by_cases none : videosOf cs p mode = []
  · have silent (group : String) : ¬ m.listing.Refers group := by
      rintro ⟨t,listed,named⟩
      rw [streams,if_pos none] at listed
      obtain ⟨_,_,_,_,_,_,silent,_⟩ := of_mem_aloneTags listed
      rw [silent] at named
      cases named
    have some_audio : audioOf cs p mode ≠ [] := fun nothing => (masterOf_of_made made).1 ⟨none,nothing⟩
    obtain ⟨r,here⟩ := List.exists_mem_of_ne_nil _ some_audio
    have declared := (declares _).mpr ⟨_,(known.mem_iff _).mpr ⟨r,here,rfl⟩,rfl⟩
    exact ⟨fun group named => absurd named (silent group),
      iff_of_false (fun reachable => silent _ ((reachable _).mp declared)) (not_not_intro none),fun _ => silent,read⟩
  · have refers (group : String) : m.listing.Refers group ↔ m.listing.Declares group := by
      rw [declares,listing,streams,if_neg none,refers_iff]
      exact and_iff_right none
    exact ⟨fun group => (refers group).mp,iff_of_true (fun group => (refers group).symm) none,fun no => absurd no none,read⟩

theorem film_sound_is_reachable : ∃ m, hlsMaster filmWithSound ⟨[]⟩ .copies = .ok m ∧
    videosOf filmWithSound ⟨[]⟩ .copies ≠ [] ∧ m.listing.IsReachable ∧ m.listing.Refers "audio-mp4a.40.2" := by
  have videos : videosOf filmWithSound ⟨[]⟩ .copies = [copiedRendering 5.0 film [0,4,8]] := rfl
  have audio : audioOf filmWithSound ⟨[]⟩ .copies = [copiedRendering 5.0 sound []] := rfl
  obtain ⟨m,made⟩ : ∃ m, hlsMaster filmWithSound ⟨[]⟩ .copies = .ok m := ⟨_,rfl⟩
  obtain ⟨declares,_,reachable,_⟩ := audio_groups_reachable_iff_video made
  have some_video : videosOf filmWithSound ⟨[]⟩ .copies ≠ [] := by simp [videos]
  refine ⟨m,made,some_video,reachable.mpr some_video,(reachable.mpr some_video _).mp ((declares _).mpr ?_)⟩
  exact ⟨_,audio ▸ List.mem_singleton_self _,rfl⟩

/-- A recording in two languages. -/
def bilingual : List Candidates :=
  [candidatesOf 5.0 [] { sound with index := 0, language := some "eng" },
    candidatesOf 5.0 [] { sound with language := some "fra", isDefault := false }]

/-- The second language is declared in a group that no variant names. -/
theorem second_language_is_out_of_reach : ∃ m l, hlsMaster bilingual ⟨[]⟩ .best = .ok m ∧
    Listing.ofText? m.render = some l ∧ ⟨.audio,"audio-mp4a.40.2",false,"1/direct/index.m3u8"⟩ ∈ l.media ∧
    l.streams = [⟨128000,"mp4a.40.2",none,none,"0/direct/index.m3u8"⟩] ∧ ¬ l.IsReachable := by
  let first : MediaTag := ⟨.audio,"audio-mp4a.40.2",true,"0/direct/index.m3u8"⟩
  let second : MediaTag := ⟨.audio,"audio-mp4a.40.2",false,"1/direct/index.m3u8"⟩
  let only : StreamTag := ⟨128000,"mp4a.40.2",none,none,"0/direct/index.m3u8"⟩
  have proper : AreProper bilingual := by
    constructor
    · intro c member
      simp only [bilingual,List.mem_cons,List.not_mem_nil,or_false] at member
      rcases member with rfl | rfl <;> exact areResolved_candidatesOf 5.0 [] _
    · decide +kernel
  obtain ⟨m,made,listing⟩ : ∃ m, hlsMaster bilingual ⟨[]⟩ .best = .ok m ∧ m.listing = ⟨[first,second],[only]⟩ :=
    ⟨_,rfl,rfl⟩
  refine ⟨m,_,made,MasterPlaylist.ofText?_render (isPlain_of_made proper made),?_⟩
  rw [listing]
  refine ⟨List.mem_cons_of_mem _ (List.mem_singleton_self _),rfl,fun reachable => ?_⟩
  obtain ⟨t,listed,named⟩ := (reachable "audio-mp4a.40.2").mp ⟨first,List.mem_cons_self,rfl,rfl⟩
  obtain rfl := List.mem_singleton.mp listed
  cases named

end Playout.Manifest
