import Mathlib.Data.List.Forall2
import Mathlib.Data.List.ProdSigma
import Playout.Proofs.Manifest.MasterPlaylist
import Playout.Proofs.Manifest.Offer
import Playout.Proofs.Representation.Canonical
import Playout.Proofs.Representation.Tiling

/-!
The master playlist of a file offers every video rendering with every group of
audio renderings, and each audio rendering in one group alone.
-/
namespace Playout.Manifest

/-! ### What is offered -/

/-- What a video rendering is paired with: the codec of each group, or nothing if there is no group. -/
def pairings : List String → List (Option String)
  | [] => [none]
  | codecs => codecs.map some

/-- The audio renderings that a video rendering is paired with. -/
def membersOf (audio : List Rendering) : Option String → List Rendering
  | none => []
  | some codec => ofCodec codec audio

/-- The bitrate of a video rendering and the greatest one of a group together. -/
def pairBitrate (audio : List Rendering) (video : Rendering) (codec : Option String) : Nat :=
  video.bitrate + ((membersOf audio codec).map Rendering.bitrate).max?.getD 0

/-- The variant of a video rendering with a group. -/
def pairTag (audio subtitles : List Rendering) (video : Rendering) (codec : Option String) : StreamTag where
  bandwidth := wrap64 (pairBitrate audio video codec)
  codecs := video.representation.codec ++ (codec.map ("," ++ ·)).getD ""
  audio := codec.map groupName
  subtitles := if subtitles.isEmpty then none else some subtitleGroup
  uri := playlistUri video

/-- A listing offers video renderings with audio renderings of some codecs, and subtitles. The bandwidth of a pair is
    the bitrate of both, if that has 64 bits. -/
structure Listing.Offers (l : Listing) (videos audio subtitles : List Rendering) (codecs : List String) : Prop where
  known : AreCodecs codecs audio
  count : l.streams.length = videos.length * max 1 codecs.length
  pairs : l.streams = (videos ×ˢ pairings codecs).map fun (video,codec) => pairTag audio subtitles video codec
  bandwidth : ∀ video ∈ videos, ∀ codec ∈ pairings codecs, pairBitrate audio video codec ≤ max64 →
    (pairTag audio subtitles video codec).bandwidth = pairBitrate audio video codec
  declared : ∀ stream ∈ l.streams, ∀ group, stream.audio = some group → ∃ m ∈ l.media, m.kind = .audio ∧ m.group = group
  members : ((l.media.filter (·.kind = .audio)).map fun m => (m.group,m.uri)).Perm
    (audio.map fun r => (groupName r.representation.codec,playlistUri r))
  default : ∀ codec ∈ codecs,
    (l.media.filter fun m => m.kind = .audio ∧ m.group = groupName codec).countP (·.isDefault) = 1
  subtitleDefault : (l.media.filter (·.kind = .subtitles)).countP (·.isDefault) ≤ 1

/-! ### Renditions of a group -/

variable {kind : RenditionKind} {group fallback : String} {preferred : Option Nat} {rs : List Rendering}

theorem countP_zipIdx {α : Type} (as : List α) (i first : Nat) :
    (as.zipIdx first).countP (fun (_,j) => some i == some j) = if first ≤ i ∧ i < first + as.length then 1 else 0 := by
  induction as generalizing first with
  | nil => simp
  | cons a as ih =>
    rw [List.zipIdx_cons,List.countP_cons,ih,List.length_cons]
    by_cases here : i = first
    · subst here
      simp only [BEq.rfl,if_true,Nat.not_succ_le_self,false_and,if_false]
      exact (if_pos (by omega)).symm
    · have other : (some i == some first) = false := by simpa using here
      simp only [other,Bool.false_eq_true,if_false,Nat.add_zero]
      exact if_congr (by omega) rfl rfl

/-- The one that is preferred, if any, is the default. -/
theorem countP_default (rs : List Rendering) :
    ((renditionsOf kind group fallback preferred rs).map Rendition.tag).countP (·.isDefault) =
      if preferred.any (· < rs.length) then 1 else 0 := by
  rw [renditionsOf,List.map_map,List.countP_map]
  cases preferred with
  | none =>
    refine List.countP_eq_zero.mpr fun r _ => ?_
    simp [Rendition.tag]
  | some i =>
    have counted := countP_zipIdx rs i 0
    simp only [Nat.zero_le,true_and,Nat.zero_add] at counted
    simpa [Function.comp_def,Rendition.tag] using counted

theorem mem_renditionsOf {e : Rendition} (listed : e ∈ renditionsOf kind group fallback preferred rs) :
    ∃ r ∈ rs, e.kind = kind ∧ e.group = group ∧ e.name = displayName fallback r ∧ e.uri = playlistUri r := by
  obtain ⟨⟨r,i⟩,member,rfl⟩ := List.mem_map.mp listed
  exact ⟨r,List.fst_mem_of_mem_zipIdx member,rfl,rfl,rfl,rfl⟩

theorem tag_of_renditionsOf {m : MediaTag} (member : m ∈ (renditionsOf kind group fallback preferred rs).map Rendition.tag) :
    m.kind = kind ∧ m.group = group := by
  obtain ⟨e,listed,rfl⟩ := List.mem_map.mp member
  obtain ⟨_,_,of_kind,in_group,_⟩ := mem_renditionsOf listed
  exact ⟨of_kind,in_group⟩

theorem map_uri_renditionsOf (rs : List Rendering) :
    ((renditionsOf kind group fallback preferred rs).map Rendition.tag).map (fun m => (m.group,m.uri)) =
      rs.map fun r => (group,playlistUri r) := by
  rw [renditionsOf,List.map_map,List.map_map]
  calc rs.zipIdx.map _ = (rs.zipIdx.map Prod.fst).map (fun r => (group,playlistUri r)) := (List.map_map ..).symm
    _ = rs.map fun r => (group,playlistUri r) := by rw [List.zipIdx_map_fst]

theorem preferred?_lt {i : Nat} (found : preferred? rs = some i) : i < rs.length :=
  (List.findIdx?_eq_some_iff_getElem.mp found).1

/-! ### Groups are listed once -/

/-- The renditions of the group of a combination. -/
def groupRenditions (c : Combination) : List Rendition :=
  renditionsOf .audio c.group "Audio" (some ((preferred? c.audio).getD 0)) c.audio

theorem audioRenditions_of_seen {seen : List String} {cs : List Combination} (all : ∀ c ∈ cs, c.group ∈ seen) :
    audioRenditions seen cs = [] := by
  induction cs with
  | nil => rfl
  | cons c cs ih =>
    have here : seen.contains c.group = true := List.contains_iff_mem.mpr (all c List.mem_cons_self)
    rw [audioRenditions,if_pos here]
    exact ih fun d member => all d (List.mem_cons_of_mem c member)

/-- Groups are listed where they come first; what follows names only these. -/
theorem audioRenditions_append {seen : List String} {first rest : List Combination}
    (fresh : ∀ c ∈ first, c.group ∉ seen) (distinct : (first.map Combination.group).Nodup)
    (named : ∀ c ∈ rest, c.group ∈ seen ∨ c.group ∈ first.map Combination.group) :
    audioRenditions seen (first ++ rest) = first.flatMap groupRenditions := by
  induction first generalizing seen with
  | nil => exact audioRenditions_of_seen fun c member => (named c member).resolve_right List.not_mem_nil
  | cons c first ih =>
    obtain ⟨apart,distinct⟩ := List.nodup_cons.mp distinct
    have unseen : ¬ seen.contains c.group = true := fun here =>
      fresh c List.mem_cons_self (List.contains_iff_mem.mp here)
    have later : audioRenditions (c.group :: seen) (first ++ rest) = first.flatMap groupRenditions := by
      refine ih (fun d member => ?_) distinct fun d member => ?_
      · have other : d.group ≠ c.group := fun same => apart (same ▸ List.mem_map_of_mem member)
        exact List.not_mem_cons_of_ne_of_not_mem other (fresh d (List.mem_cons_of_mem c member))
      · obtain old | new := named d member
        · exact .inl (List.mem_cons_of_mem _ old)
        · obtain same | new := List.mem_cons.mp new
          · exact .inl (same ▸ List.mem_cons_self)
          · exact .inr new
    rw [List.cons_append,audioRenditions,if_neg unseen,later]
    rfl

/-! ### Combinations -/

variable {videos audio subtitles : List Rendering} {codecs : List String}

theorem pairings_cons (codec : String) (codecs : List String) :
    pairings (codec :: codecs) = (codec :: codecs).map some := rfl

/-- A video rendering with a group. -/
def combine (audio : List Rendering) (video : Rendering) : Option String → Combination
  | none => ⟨some video,[],"",""⟩
  | some codec => ⟨some video,ofCodec codec audio,groupName codec,codec⟩

theorem combinations_eq (groups : audioGroups audio = groupsOf codecs audio) (some_video : videos ≠ []) :
    combinations videos audio = videos.flatMap fun video => (pairings codecs).map (combine audio video) := by
  rw [combinations,groups,if_neg (by simpa using some_video)]
  cases codecs with
  | nil => exact (if_pos rfl).trans List.map_eq_flatMap
  | cons codec codecs =>
    rw [if_neg (by simp [groupsOf])]
    refine List.flatMap_congr fun video _ => ?_
    rw [pairings_cons,List.map_map]
    exact List.map_map

theorem groupName_inj {a b : String} (same : groupName a = groupName b) : a = b := by
  rw [← String.toList_inj,groupName,groupName,String.toList_append,String.toList_append] at same
  exact String.toList_inj.mp (List.append_cancel_left same)

theorem mem_pairings {choice : Option String} (member : choice ∈ pairings codecs) :
    (codecs = [] ∧ choice = none) ∨ ∃ codec ∈ codecs, choice = some codec := by
  cases codecs with
  | nil => exact .inl ⟨rfl,List.mem_singleton.mp member⟩
  | cons first codecs =>
    obtain ⟨codec,here,rfl⟩ := List.mem_map.mp member
    exact .inr ⟨codec,here,rfl⟩

theorem length_pairings (codecs : List String) : (pairings codecs).length = max 1 codecs.length := by
  cases codecs with
  | nil => rfl
  | cons codec codecs =>
    rw [pairings_cons,List.length_map,List.length_cons]
    omega

/-- The names of the groups that one video rendering is paired with are different. -/
theorem nodup_groups (nodup : codecs.Nodup) (video : Rendering) :
    (((pairings codecs).map (combine audio video)).map Combination.group).Nodup := by
  cases codecs with
  | nil => exact List.nodup_singleton _
  | cons codec codecs =>
    rw [pairings_cons,List.map_map,List.map_map]
    exact nodup.map fun a b same => groupName_inj same

/-- The renditions of the group of a codec. -/
def codecRenditions (audio : List Rendering) (codec : String) : List Rendition :=
  renditionsOf .audio (groupName codec) "Audio" (some ((preferred? (ofCodec codec audio)).getD 0)) (ofCodec codec audio)

theorem flatMap_groupRenditions (codecs : List String) (audio : List Rendering) (video : Rendering) :
    ((pairings codecs).map (combine audio video)).flatMap groupRenditions = codecs.flatMap (codecRenditions audio) := by
  cases codecs with
  | nil => rfl
  | cons codec codecs =>
    rw [pairings_cons,List.map_map,List.flatMap_map]
    rfl

theorem group_combine (audio : List Rendering) (video other : Rendering) (choice : Option String) :
    (combine audio video choice).group = (combine audio other choice).group := by
  cases choice <;> rfl

/-- The pairs of the first video rendering name all groups, those of the others name them again. -/
theorem audioRenditions_combinations (nodup : codecs.Nodup) (groups : audioGroups audio = groupsOf codecs audio)
    (some_video : videos ≠ []) :
    audioRenditions [] (combinations videos audio) = codecs.flatMap (codecRenditions audio) := by
  rw [combinations_eq groups some_video]
  cases videos with
  | nil => exact absurd rfl some_video
  | cons video videos =>
    rw [List.flatMap_cons,audioRenditions_append (fun _ _ => List.not_mem_nil) (nodup_groups nodup video) ?named,
      flatMap_groupRenditions]
    case named =>
      intro c member
      obtain ⟨other,_,here⟩ := List.mem_flatMap.mp member
      obtain ⟨choice,chosen,rfl⟩ := List.mem_map.mp here
      rw [group_combine audio other video]
      exact .inr (List.mem_map_of_mem (List.mem_map_of_mem chosen))

theorem greatestNat_eq (ns : List Nat) : greatestNat ns = ns.max?.getD 0 := by
  cases ns with
  | nil => rfl
  | cons n ns =>
    rw [greatestNat,List.foldl_cons,Nat.max_eq_right (Nat.zero_le n),List.max?_cons']
    rfl

theorem ofCodec_ne_nil {codec : String} (known : AreCodecs codecs audio) (member : codec ∈ codecs) :
    ofCodec codec audio ≠ [] := by
  obtain ⟨r,here,same⟩ := (known.mem_iff codec).mp member
  exact List.ne_nil_of_mem (List.mem_filter.mpr ⟨here,decide_eq_true same⟩)

theorem variant?_combine (known : AreCodecs codecs audio) (video : Rendering) {choice : Option String}
    (chosen : choice ∈ pairings codecs) :
    (variant? (if subtitles.isEmpty then none else some subtitleGroup) (combine audio video choice)).map Variant.tag =
      some (pairTag audio subtitles video choice) := by
  obtain ⟨_,rfl⟩ | ⟨codec,member,rfl⟩ := mem_pairings chosen
  · simp [variant?,combine,Variant.tag,pairTag,pairBitrate,membersOf,Combination.audioBitrate,greatestNat,
      Rendering.bitrate]
  · have group : (ofCodec codec audio).isEmpty = false := by simpa using ofCodec_ne_nil known member
    simp [variant?,combine,Variant.tag,pairTag,pairBitrate,membersOf,group,Combination.audioBitrate,greatestNat_eq,
      Rendering.bitrate,String.append_assoc]

theorem variants_combinations (known : AreCodecs codecs audio) (groups : audioGroups audio = groupsOf codecs audio)
    (some_video : videos ≠ []) :
    ((combinations videos audio).filterMap (variant? (if subtitles.isEmpty then none else some subtitleGroup))).map
      Variant.tag = (videos ×ˢ pairings codecs).map fun (video,choice) => pairTag audio subtitles video choice := by
  have pairs : videos ×ˢ pairings codecs = videos.flatMap fun video => (pairings codecs).map (Prod.mk video) := rfl
  rw [combinations_eq groups some_video,List.map_filterMap,List.filterMap_flatMap,pairs,List.map_flatMap]
  refine List.flatMap_congr fun video _ => ?_
  rw [List.filterMap_map,List.map_map,← List.filterMap_eq_map]
  exact List.filterMap_congr fun choice chosen => variant?_combine known video chosen

/-! ### The listing -/

/-- What a player reads of the audio groups. -/
def audioTags (audio : List Rendering) (codecs : List String) : List MediaTag :=
  (codecs.flatMap (codecRenditions audio)).map Rendition.tag

def subtitleTags (subtitles : List Rendering) : List MediaTag :=
  (renditionsOf .subtitles subtitleGroup "Subtitles" (preferred? subtitles) subtitles).map Rendition.tag

theorem mem_audioTags {m : MediaTag} (member : m ∈ audioTags audio codecs) :
    ∃ codec ∈ codecs, m ∈ (codecRenditions audio codec).map Rendition.tag := by
  rw [audioTags,List.map_flatMap] at member
  exact List.mem_flatMap.mp member

/-- A group is listed where its codec is. -/
theorem exists_tag {codec : String} (known : AreCodecs codecs audio) (member : codec ∈ codecs) :
    ∃ m ∈ audioTags audio codecs, m.kind = .audio ∧ m.group = groupName codec := by
  have tags : (codecRenditions audio codec).map Rendition.tag ≠ [] := by
    simpa [codecRenditions,renditionsOf] using ofCodec_ne_nil known member
  obtain ⟨m,first⟩ := List.exists_mem_of_ne_nil _ tags
  refine ⟨m,?_,tag_of_renditionsOf first⟩
  rw [audioTags,List.map_flatMap]
  exact List.mem_flatMap_of_mem member first

theorem filter_audio (audio subtitles : List Rendering) (codecs : List String) :
    (audioTags audio codecs ++ subtitleTags subtitles).filter (·.kind = .audio) = audioTags audio codecs := by
  have all : ∀ m ∈ audioTags audio codecs, decide (m.kind = .audio) = true := by
    intro m member
    obtain ⟨codec,_,here⟩ := mem_audioTags member
    exact decide_eq_true (tag_of_renditionsOf here).1
  have none : ∀ m ∈ subtitleTags subtitles, ¬ decide (m.kind = .audio) = true := by
    intro m member
    rw [(tag_of_renditionsOf member).1]
    decide
  rw [List.filter_append,List.filter_eq_self.mpr all,List.filter_eq_nil_iff.mpr none,List.append_nil]

theorem filter_subtitles (audio subtitles : List Rendering) (codecs : List String) :
    (audioTags audio codecs ++ subtitleTags subtitles).filter (·.kind = .subtitles) = subtitleTags subtitles := by
  have none : ∀ m ∈ audioTags audio codecs, ¬ decide (m.kind = .subtitles) = true := by
    intro m member
    obtain ⟨codec,_,here⟩ := mem_audioTags member
    rw [(tag_of_renditionsOf here).1]
    decide
  have all : ∀ m ∈ subtitleTags subtitles, decide (m.kind = .subtitles) = true :=
    fun m member => decide_eq_true (tag_of_renditionsOf member).1
  rw [List.filter_append,List.filter_eq_self.mpr all,List.filter_eq_nil_iff.mpr none,List.nil_append]

/-- The group of a codec is listed in one piece. -/
theorem filter_group {codec : String} (nodup : codecs.Nodup) (member : codec ∈ codecs) (audio : List Rendering) :
    (audioTags audio codecs).filter (·.group = groupName codec) = (codecRenditions audio codec).map Rendition.tag := by
  have own (other : String) : ((codecRenditions audio other).map Rendition.tag).filter (·.group = groupName codec) =
      if other = codec then (codecRenditions audio codec).map Rendition.tag else [] := by
    by_cases same : other = codec
    · subst same
      rw [if_pos rfl,List.filter_eq_self]
      exact fun m here => decide_eq_true (tag_of_renditionsOf here).2
    · rw [if_neg same,List.filter_eq_nil_iff]
      intro m here
      rw [(tag_of_renditionsOf here).2]
      exact fun equal => same (groupName_inj (of_decide_eq_true equal))
  rw [audioTags,List.map_flatMap,List.filter_flatMap]
  induction codecs with
  | nil => cases member
  | cons first codecs ih =>
    obtain ⟨fresh,nodup⟩ := List.nodup_cons.mp nodup
    rw [List.flatMap_cons,own]
    rcases List.mem_cons.mp member with rfl | later
    · have others : (codecs.flatMap fun other => ((codecRenditions audio other).map Rendition.tag).filter
          (·.group = groupName codec)) = [] := by
        refine List.flatMap_eq_nil_iff.mpr fun other here => ?_
        rw [own,if_neg fun same : other = codec => fresh (same ▸ here)]
      rw [if_pos rfl,others,List.append_nil]
    · rw [if_neg fun same : first = codec => fresh (same ▸ later),List.nil_append]
      exact ih nodup later

theorem countP_group {codec : String} (known : AreCodecs codecs audio) (member : codec ∈ codecs) :
    ((codecRenditions audio codec).map Rendition.tag).countP (·.isDefault) = 1 := by
  rw [codecRenditions,countP_default,if_pos]
  cases found : preferred? (ofCodec codec audio) with
  | none => exact decide_eq_true (List.length_pos_of_ne_nil (ofCodec_ne_nil known member))
  | some i => exact decide_eq_true (preferred?_lt found)

/-- The groups hold each audio rendering once, under the name of its codec. -/
theorem perm_audioTags (known : AreCodecs codecs audio) :
    ((audioTags audio codecs).map fun m => (m.group,m.uri)).Perm
      (audio.map fun r => (groupName r.representation.codec,playlistUri r)) := by
  have all : ∀ r ∈ audio, r.representation.codec ∈ codecs := fun r member => (known.mem_iff _).mpr ⟨r,member,rfl⟩
  have named : ((audioTags audio codecs).map fun m => (m.group,m.uri)) =
      (codecs.flatMap fun codec => ofCodec codec audio).map fun r => (groupName r.representation.codec,playlistUri r) := by
    rw [audioTags,List.map_flatMap,List.map_flatMap,List.map_flatMap]
    refine List.flatMap_congr fun codec _ => ?_
    rw [codecRenditions,map_uri_renditionsOf]
    refine List.map_congr_left fun r member => ?_
    rw [of_decide_eq_true (List.mem_filter.mp member).2]
  rw [named]
  exact (perm_flatMap_ofKey known.nodup all).map _

theorem offers (known : AreCodecs codecs audio) (videos subtitles : List Rendering) :
    Listing.Offers ⟨audioTags audio codecs ++ subtitleTags subtitles,
      (videos ×ˢ pairings codecs).map fun (video,codec) => pairTag audio subtitles video codec⟩
      videos audio subtitles codecs where
  known := known
  count := by rw [List.length_map,List.length_product,length_pairings]
  pairs := rfl
  bandwidth := fun _ _ _ _ small => wrap64_of_le small
  declared := by
    intro stream member group named
    obtain ⟨⟨video,choice⟩,here,rfl⟩ := List.mem_map.mp member
    obtain ⟨_,rfl⟩ | ⟨codec,listed,rfl⟩ := mem_pairings (List.mem_product.mp here).2
    · cases named
    · obtain rfl := Option.some.inj named
      obtain ⟨m,first,tag⟩ := exists_tag known listed
      exact ⟨m,List.mem_append_left _ first,tag⟩
  members := by
    rw [filter_audio]
    exact perm_audioTags known
  default := by
    intro codec listed
    have apart : (audioTags audio codecs ++ subtitleTags subtitles).filter
        (fun m => m.kind = .audio ∧ m.group = groupName codec) = (codecRenditions audio codec).map Rendition.tag := by
      have audioOnly := filter_audio audio subtitles codecs
      rw [← filter_group known.nodup listed audio]
      nth_rewrite 2 [← audioOnly]
      rw [List.filter_filter]
      exact List.filter_congr fun m _ => by simp [Bool.and_comm]
    rw [apart]
    exact countP_group known listed
  subtitleDefault := by
    rw [filter_subtitles,subtitleTags,countP_default]
    split_ifs <;> decide

/-! ### Texts in the playlist -/

/-- The renderings are those that the stream is offered in, whatever the segment length and the keyframes. -/
def Candidates.AreResolved (c : Candidates) : Prop :=
  List.Forall₂ (fun id r => ∃ segmentSeconds keyframes, resolve segmentSeconds c.stream id keyframes = .ok r)
    (candidateIds c.stream) c.renderings

/-- The streams are resolved, and their codecs have neither quotes nor line breaks. -/
structure AreProper (cs : List Candidates) : Prop where
  resolved : ∀ c ∈ cs, c.AreResolved
  codecs : ∀ c ∈ cs, ∀ r ∈ c.renderings, IsPlain r.representation.codec

/-- A rendering of which neither the codec nor the place of its playlist has quotes or line breaks. -/
structure HasPlainNames (r : Rendering) : Prop where
  codec : IsPlain r.representation.codec
  uri : IsPlain (playlistUri r)

theorem isPlain_pathSegment {id : RepresentationId} (read : id.Read) : IsPlain id.pathSegment := by
  have presets : ∀ name ∈ Encoding.rungNames, IsPlain (RepresentationId.preset name).pathSegment := by decide +kernel
  cases read with
  | direct => decide +kernel
  | preset rung => exact presets _ rung
  | @custom settings _ _ =>
    rw [RepresentationId.pathSegment_custom]
    refine (by decide : IsPlain RepresentationId.customMark).append fun c member => ?_
    have letter := Encoding.Settings.mem_alphabet_of_mem_encode member
    refine ⟨?_,?_,?_⟩ <;> rintro rfl <;> exact absurd letter (by decide)

theorem isPlain_playlistUri {r : Rendering} (read : r.representation.id.Read) : IsPlain (playlistUri r) :=
  (((isPlain_toString _).append (by decide : IsPlain "/")).append (isPlain_pathSegment read)).append
    (by decide : IsPlain "/index.m3u8")

theorem read_of_candidate {s : Stream} {id : RepresentationId} (candidate : id ∈ candidateIds s) : id.Read := by
  obtain rfl | ⟨name,rung,rfl,_⟩ := candidate_cases candidate
  · exact .direct
  · exact .preset rung

theorem Candidates.AreResolved.mem {c : Candidates} {r : Rendering} (resolved : c.AreResolved) (here : r ∈ c.renderings) :
    r.representation.id ∈ candidateIds c.stream := by
  have ids : List.Forall₂ Eq (candidateIds c.stream) (c.renderings.map (·.representation.id)) := by
    rw [List.forall₂_map_right_iff]
    refine ((List.forall₂_and_left _ _).mpr ⟨fun id candidate => candidate,resolved⟩).imp ?_
    rintro id r ⟨candidate,segmentSeconds,keyframes,made⟩
    obtain ⟨same,again,_,named⟩ := resolve_of_candidate candidate segmentSeconds keyframes
    rw [Except.ok.inj (made.symm.trans again),named]
  rw [List.forall₂_eq_eq_eq] at ids
  rw [ids]
  exact List.mem_map_of_mem here

theorem AreProper.hasPlainNames {cs : List Candidates} {c : Candidates} {r : Rendering} (proper : AreProper cs)
    (member : c ∈ cs) (here : r ∈ c.renderings) : HasPlainNames r where
  codec := proper.codecs c member r here
  uri := isPlain_playlistUri (read_of_candidate ((proper.resolved c member).mem here))

theorem AreProper.offered {cs : List Candidates} (proper : AreProper cs) (p : Playable) (mode : Mode) :
    ∀ r ∈ videosOf cs p mode ++ (audioOf cs p mode ++ subtitlesOf cs), HasPlainNames r := by
  intro r member
  obtain ⟨c,here,offered⟩ : ∃ c ∈ cs, r ∈ c.renderings := by
    rcases List.mem_append.mp member with video | member
    · exact (mem_videosOf video).1
    · exact (List.mem_append.mp member).elim (fun sound => (mem_audioOf sound).1) mem_subtitlesOf
  exact proper.hasPlainNames here offered

theorem isPlain_groupName {codec : String} (plain : IsPlain codec) : IsPlain (groupName codec) :=
  (by decide : IsPlain "audio-").append plain

theorem isPlain_media {t : MediaTag} (known : AreCodecs codecs audio)
    (plain : ∀ r ∈ audio ++ subtitles, HasPlainNames r) (listed : t ∈ audioTags audio codecs ++ subtitleTags subtitles) :
    t.IsPlain := by
  rcases List.mem_append.mp listed with sound | text
  · have named := (perm_audioTags known).subset (List.mem_map_of_mem sound)
    obtain ⟨r,chosen,same⟩ := List.mem_map.mp named
    obtain ⟨group,uri⟩ := Prod.mk.inj same
    have names := plain r (List.mem_append_left _ chosen)
    exact ⟨group ▸ isPlain_groupName names.codec,uri ▸ names.uri⟩
  · have named := List.mem_map_of_mem (f := fun m : MediaTag => (m.group,m.uri)) text
    rw [subtitleTags,map_uri_renditionsOf] at named
    obtain ⟨r,chosen,same⟩ := List.mem_map.mp named
    obtain ⟨group,uri⟩ := Prod.mk.inj same
    have names := plain r (List.mem_append_right _ chosen)
    exact ⟨group ▸ (by decide : IsPlain subtitleGroup),uri ▸ names.uri⟩

theorem isPlain_pairTag {video : Rendering} {choice : Option String} (video_plain : HasPlainNames video)
    (codec_plain : ∀ codec, choice = some codec → IsPlain codec) (audio subtitles : List Rendering) :
    (pairTag audio subtitles video choice).IsPlain where
  codecs := by
    refine video_plain.codec.append ?_
    cases choice with
    | none => exact (by decide : IsPlain "")
    | some codec => exact (by decide : IsPlain ",").append (codec_plain codec rfl)
  audio := by
    intro group named
    obtain ⟨codec,chosen,rfl⟩ := Option.map_eq_some_iff.mp named
    exact isPlain_groupName (codec_plain codec chosen)
  subtitles := by
    intro group named
    have only : group = subtitleGroup := by
      simp only [pairTag] at named
      split_ifs at named
      exact (Option.some.inj named).symm
    rw [only]
    decide
  uri := video_plain.uri

theorem isPlain_listing (known : AreCodecs codecs audio) (plain : ∀ r ∈ videos ++ (audio ++ subtitles), HasPlainNames r) :
    Listing.IsPlain ⟨audioTags audio codecs ++ subtitleTags subtitles,
      (videos ×ˢ pairings codecs).map fun (video,codec) => pairTag audio subtitles video codec⟩ where
  media := fun t listed => isPlain_media known (fun r member => plain r (List.mem_append_right _ member)) listed
  streams := by
    intro t listed
    obtain ⟨⟨video,choice⟩,pair,rfl⟩ := List.mem_map.mp listed
    obtain ⟨first,second⟩ := List.mem_product.mp pair
    refine isPlain_pairTag (plain video (List.mem_append_left _ first)) (fun codec chosen => ?_) audio subtitles
    obtain ⟨_,none⟩ | ⟨other,member,same⟩ := mem_pairings second
    · exact absurd (chosen.symm.trans none) nofun
    · obtain rfl := Option.some.inj (chosen.symm.trans same)
      obtain ⟨r,here,rfl⟩ := (known.mem_iff codec).mp member
      exact (plain r (List.mem_append_right _ (List.mem_append_left _ here))).codec

/-! ### The master playlist of a file -/

theorem hlsMaster_eq (cs : List Candidates) (p : Playable) (mode : Mode) :
    hlsMaster cs p mode =
      if (videosOf cs p mode).isEmpty && (audioOf cs p mode).isEmpty then .error nothingPlayable
      else .ok (masterOf (combinations (videosOf cs p mode) (audioOf cs p mode)) (subtitlesOf cs)) := rfl

theorem hlsMaster_error_iff (cs : List Candidates) (p : Playable) (mode : Mode) :
    (∃ e, hlsMaster cs p mode = .error e) ↔ videosOf cs p mode = [] ∧ audioOf cs p mode = [] := by
  rw [hlsMaster_eq]
  by_cases nothing : ((videosOf cs p mode).isEmpty && (audioOf cs p mode).isEmpty) = true
  · rw [if_pos nothing]
    exact iff_of_true ⟨_,rfl⟩ (by simpa using nothing)
  · rw [if_neg nothing]
    exact iff_of_false nofun (by simpa using nothing)

theorem listing_masterOf (known : AreCodecs codecs audio) (groups : audioGroups audio = groupsOf codecs audio)
    (some_video : videos ≠ []) (subtitles : List Rendering) :
    (masterOf (combinations videos audio) subtitles).listing = ⟨audioTags audio codecs ++ subtitleTags subtitles,
      (videos ×ˢ pairings codecs).map fun (video,codec) => pairTag audio subtitles video codec⟩ := by
  rw [MasterPlaylist.listing,masterOf,← variants_combinations known groups some_video,List.map_append,
    audioRenditions_combinations known.nodup groups some_video]
  rfl

/-- A master playlist is made unless nothing is selected. If video is, a player reads in it every pair of a selected
    video rendering and a codec of the selected audio, with the bitrate of both if that has 64 bits, and each selected
    audio rendering in the group of its codec; unless copies are asked for, everything in it can be played. -/
theorem hlsMaster_structure (cs : List Candidates) (p : Playable) (mode : Mode) :
    ((∃ e, hlsMaster cs p mode = .error e) ↔ videosOf cs p mode = [] ∧ audioOf cs p mode = []) ∧
    (AreProper cs → videosOf cs p mode ≠ [] → ∃ m l codecs,
      hlsMaster cs p mode = .ok m ∧ Listing.ofText? m.render = some l ∧
      l.Offers (videosOf cs p mode) (audioOf cs p mode) (subtitlesOf cs) codecs ∧
      (mode ≠ .copies → (∀ video ∈ videosOf cs p mode, p.contains video.representation.codec = true) ∧
        ∀ codec ∈ codecs, p.contains codec = true)) := by
  refine ⟨hlsMaster_error_iff cs p mode,fun proper some_video => ?_⟩
  obtain ⟨codecs,known,groups⟩ := exists_codecs (audioOf cs p mode)
  have made : hlsMaster cs p mode =
      .ok (masterOf (combinations (videosOf cs p mode) (audioOf cs p mode)) (subtitlesOf cs)) := by
    rw [hlsMaster_eq,if_neg (by simp [some_video])]
  have listing := listing_masterOf known groups some_video (subtitlesOf cs)
  refine ⟨_,_,codecs,made,MasterPlaylist.ofText?_render (listing ▸ isPlain_listing known (proper.offered p mode)),
    listing ▸ offers known _ _,fun other => ⟨fun video listed => (mem_videosOf listed).2 other,fun codec listed => ?_⟩⟩
  obtain ⟨r,chosen,rfl⟩ := (known.mem_iff codec).mp listed
  exact (mem_audioOf chosen).2 other

/-- A stream in everything that it is offered in. -/
def candidatesOf (segmentSeconds : Float) (keyframes : List Int) (s : Stream) : Candidates :=
  ⟨s,(candidateIds s).filterMap fun id => (resolve segmentSeconds s id keyframes).toOption⟩

theorem areResolved_candidatesOf (segmentSeconds : Float) (keyframes : List Int) (s : Stream) :
    (candidatesOf segmentSeconds keyframes s).AreResolved := by
  have all : ∀ ids ⊆ candidateIds s, List.Forall₂ (fun id r => ∃ segmentSeconds keyframes,
      resolve segmentSeconds s id keyframes = .ok r) ids
      (ids.filterMap fun id => (resolve segmentSeconds s id keyframes).toOption) := by
    intro ids candidates
    induction ids with
    | nil => exact .nil
    | cons id ids ih =>
      obtain ⟨first,later⟩ := List.cons_subset.mp candidates
      obtain ⟨r,made,_⟩ := resolve_of_candidate first segmentSeconds keyframes
      have taken : (resolve segmentSeconds s id keyframes).toOption = some r := congrArg Except.toOption made
      rw [List.filterMap_cons,taken]
      exact .cons ⟨_,_,made⟩ (ih later)
  exact all _ (List.Subset.refl _)

/-- The sound of the film. -/
def sound : Stream := { film with
  index := 1
  codec := "mp4a.40.2"
  codecName := "aac"
  bitrate := 128000
  kind := .audio }

def filmWithSound : List Candidates := [candidatesOf 5.0 [0,4,8] film,candidatesOf 5.0 [] sound]

/-- The film, with as great a bitrate as there is. -/
def greatFilm : Stream := { film with bitrate := max64 }

def greatFilmWithSound : List Candidates := [candidatesOf 5.0 [0,4,8] greatFilm,candidatesOf 5.0 [] sound]

theorem areProper_greatFilmWithSound : AreProper greatFilmWithSound := by
  constructor
  · intro c member
    simp only [greatFilmWithSound,List.mem_cons,List.not_mem_nil,or_false] at member
    rcases member with rfl | rfl
    · exact areResolved_candidatesOf 5.0 [0,4,8] greatFilm
    · exact areResolved_candidatesOf 5.0 [] sound
  · decide +kernel

/-- The bandwidth that is written is what 64 bits keep of the bitrates of the film and its sound. -/
theorem bandwidth_of_great_film_is_cut : AreProper greatFilmWithSound ∧
    videosOf greatFilmWithSound ⟨[]⟩ .copies = [copiedRendering 5.0 greatFilm [0,4,8]] ∧
    ∃ m, hlsMaster greatFilmWithSound ⟨[]⟩ .copies = .ok m ∧ m.variants.map (·.bandwidth) = [127999] ∧
      pairBitrate (audioOf greatFilmWithSound ⟨[]⟩ .copies) (copiedRendering 5.0 greatFilm [0,4,8])
        (some "mp4a.40.2") = 18446744073709679615 :=
  ⟨areProper_greatFilmWithSound,rfl,_,rfl,by decide +kernel,by decide +kernel⟩

theorem film_is_offered_with_sound : AreProper filmWithSound ∧ ∃ m l,
    hlsMaster filmWithSound ⟨[]⟩ .copies = .ok m ∧ Listing.ofText? m.render = some l ∧
    l.streams = [⟨1128000,"avc1.64001f,mp4a.40.2",some "audio-mp4a.40.2",none,"0/direct/index.m3u8"⟩] := by
  have proper : AreProper filmWithSound := by
    constructor
    · intro c member
      simp only [filmWithSound,List.mem_cons,List.not_mem_nil,or_false] at member
      rcases member with rfl | rfl
      · exact areResolved_candidatesOf 5.0 [0,4,8] film
      · exact areResolved_candidatesOf 5.0 [] sound
    · decide +kernel
  have videos : videosOf filmWithSound ⟨[]⟩ .copies = [copiedRendering 5.0 film [0,4,8]] := rfl
  have audio : audioOf filmWithSound ⟨[]⟩ .copies = [copiedRendering 5.0 sound []] := rfl
  obtain ⟨m,l,codecs,made,read,offered,_⟩ := (hlsMaster_structure filmWithSound ⟨[]⟩ .copies).2 proper (by simp [videos])
  have only : codecs = ["mp4a.40.2"] := by
    refine List.perm_singleton.mp ((List.perm_ext_iff_of_nodup offered.known.nodup (List.nodup_singleton _)).mpr ?_)
    intro codec
    rw [offered.known.mem_iff,audio]
    simp [copiedRendering,Representation.copied,sound,eq_comm]
  refine ⟨proper,m,l,made,read,?_⟩
  rw [offered.pairs,videos,audio,only]
  decide +kernel

end Playout.Manifest
