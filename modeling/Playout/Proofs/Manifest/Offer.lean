import Playout.Manifest.Offer
import Playout.Proofs.Delivery
import Playout.Proofs.Manifest.Groups
import Playout.Proofs.Representation.Id

/-!
What is chosen of the streams of a file, and how it is put together: the audio
renderings fall into one group for each of their codecs, every video rendering is
paired with every group, and a group's members are listed where it comes first.
-/
namespace Playout
open Manifest

/-! ### What is chosen can be played -/

variable {p : Playable} {rs : List Rendering} {r : Rendering}

theorem chooseBest_mem (chosen : chooseBest p rs = some r) : r ∈ p.filter rs :=
  (Playable.delivers_of_chooseBest chosen).mem

theorem selectLadder_mem (listed : r ∈ selectLadder p rs) : r ∈ p.filter rs := by
  cases chosen : chooseBest p rs with
  | none =>
    rw [Playable.selectLadder_eq_nil_iff.mpr chosen] at listed
    cases listed
  | some best =>
    rw [Playable.selectLadder_of_chooseBest chosen] at listed
    rcases List.mem_cons.mp listed with rfl | rung
    · exact chooseBest_mem chosen
    · exact (Playable.mem_encodings.mp ((Playable.isLadder_mergeSort p rs best).mem rung).1).1

namespace Manifest
variable {cs : List Candidates} {c : Candidates} {mode : Mode}

/-- The video renderings of a file that are offered, the ladders of its streams one after the other. -/
def videosOf (cs : List Candidates) (p : Playable) (mode : Mode) : List Rendering :=
  (ofKind .video cs).flatMap (videoLadder mode p)

/-- The audio renderings of a file that are offered. -/
def audioOf (cs : List Candidates) (p : Playable) (mode : Mode) : List Rendering :=
  (ofKind .audio cs).filterMap (audioChoice mode p)

/-- The subtitles of a file. -/
def subtitlesOf (cs : List Candidates) : List Rendering := (ofKind .subtitle cs).filterMap Candidates.copy?

theorem copy?_mem (found : c.copy? = some r) : r ∈ c.renderings := List.mem_of_find?_eq_some found

theorem filter_mem (playable : r ∈ p.filter rs) : r ∈ rs ∧ p.contains r.representation.codec = true :=
  List.mem_filter.mp playable

theorem encodings_mem (encoded : r ∈ p.filter c.encodings) :
    r ∈ c.renderings ∧ p.contains r.representation.codec = true :=
  (filter_mem encoded).imp_left fun here => (List.mem_filter.mp here).1

/-- What is offered is one of the renderings of its stream, and can be played where the mode is not to copy. -/
theorem videoLadder_mem (listed : r ∈ videoLadder mode p c) :
    r ∈ c.renderings ∧ (mode ≠ .copies → p.contains r.representation.codec = true) := by
  cases mode with
  | best => exact (filter_mem (selectLadder_mem listed)).imp_right fun plays _ => plays
  | copies => exact ⟨copy?_mem (Option.mem_toList.mp listed),fun other => absurd rfl other⟩
  | encodings => exact (encodings_mem (selectLadder_mem listed)).imp_right fun plays _ => plays

theorem audioChoice_mem (chosen : audioChoice mode p c = some r) :
    r ∈ c.renderings ∧ (mode ≠ .copies → p.contains r.representation.codec = true) := by
  cases mode with
  | best => exact (filter_mem (chooseBest_mem chosen)).imp_right fun plays _ => plays
  | copies => exact ⟨copy?_mem chosen,fun other => absurd rfl other⟩
  | encodings => exact (encodings_mem (chooseBest_mem chosen)).imp_right fun plays _ => plays

theorem mem_videosOf (listed : r ∈ videosOf cs p mode) :
    (∃ c ∈ cs, r ∈ c.renderings) ∧ (mode ≠ .copies → p.contains r.representation.codec = true) := by
  obtain ⟨c,member,offered⟩ := List.mem_flatMap.mp listed
  obtain ⟨here,plays⟩ := videoLadder_mem offered
  exact ⟨⟨c,(List.mem_filter.mp member).1,here⟩,plays⟩

theorem mem_audioOf (listed : r ∈ audioOf cs p mode) :
    (∃ c ∈ cs, r ∈ c.renderings) ∧ (mode ≠ .copies → p.contains r.representation.codec = true) := by
  obtain ⟨c,member,chosen⟩ := List.mem_filterMap.mp listed
  obtain ⟨here,plays⟩ := audioChoice_mem chosen
  exact ⟨⟨c,(List.mem_filter.mp member).1,here⟩,plays⟩

theorem mem_subtitlesOf (listed : r ∈ subtitlesOf cs) : ∃ c ∈ cs, r ∈ c.renderings := by
  obtain ⟨c,member,found⟩ := List.mem_filterMap.mp listed
  exact ⟨c,(List.mem_filter.mp member).1,copy?_mem found⟩

/-! ### Groups of audio renderings -/

/-- The renderings of a codec. -/
def ofCodec (codec : String) (rs : List Rendering) : List Rendering := rs.filter (·.representation.codec = codec)

/-- The codecs of some renderings, each once. -/
structure AreCodecs (codecs : List String) (rs : List Rendering) : Prop where
  nodup : codecs.Nodup
  mem_iff : ∀ codec, codec ∈ codecs ↔ ∃ r ∈ rs, r.representation.codec = codec

/-- The renderings of each of some codecs. -/
def groupsOf (codecs : List String) (rs : List Rendering) : List (String × List Rendering) :=
  codecs.map fun codec => (codec,ofCodec codec rs)

variable {codec : String} {codecs : List String}

theorem addToCodec_eq (r : Rendering) (groups : List (String × List Rendering)) :
    addToCodec r groups = addByKey (·.representation.codec) r groups := by
  induction groups with
  | nil => rfl
  | cons group groups ih => rw [addToCodec,addByKey,ih]

theorem exists_codecs (rs : List Rendering) : ∃ codecs, AreCodecs codecs rs ∧ audioGroups rs = groupsOf codecs rs := by
  refine ⟨keysOf (·.representation.codec) rs,⟨nodup_keysOf _ rs,fun codec => mem_keysOf⟩,?_⟩
  simp only [audioGroups,addToCodec_eq]
  exact groupByKey_eq _ rs

end Manifest
end Playout
