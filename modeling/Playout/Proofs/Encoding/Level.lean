import Mathlib.Algebra.Order.Floor.Semiring
import Mathlib.Data.Rat.Floor
import Mathlib.Order.Bounds.Basic
import Playout.Manifest.MasterPlaylist
import Playout.Proofs.Representation.Tiling

/-!
The codec string of an encoding fits its pictures. The level that is looked up is the least one that admits them, and
greater pictures or bitrates never lead to a lesser one. A rung of the ladder names the level of the very size and
bitrate that its rendering has, though the size is worked out once for the codec string and once for the rendering.
-/
namespace Playout.Encoding

variable {width height bitrate : Nat} {l : Level}

/-- A level admits pictures of a size, which are covered by blocks of sixteen by sixteen pixels, at a bitrate. -/
def Level.Admits (l : Level) (width height bitrate : Nat) : Prop :=
  ⌈(width : ℚ) / 16⌉₊ * ⌈(height : ℚ) / 16⌉₊ ≤ l.maxBlocks ∧ bitrate ≤ l.maxBitrate

/-- A codec string names the level for pictures of a size at a bitrate, after the High profile without constraints, in
    two digits of base sixteen. -/
def Signals (codec : String) (width height bitrate : Nat) : Prop :=
  codec.toList = "avc1.6400".toList ++
    [Nat.digitChar (h264Level width height bitrate / 16),Nat.digitChar (h264Level width height bitrate % 16)]

/-! ### The table -/

theorem ceilDiv_eq_ceil (side : Nat) : Binary64.ceilDiv side 16 = ⌈(side : ℚ) / 16⌉₊ := by
  refine eq_of_forall_ge_iff fun count => ?_
  have covered : (side : ℚ) / 16 ≤ count ↔ side ≤ count * 16 := by
    rw [div_le_iff₀ (by norm_num)]
    exact_mod_cast Iff.rfl
  rw [Nat.ceil_le,covered,Binary64.ceilDiv]
  omega

theorem admits_iff : l.admits (blocks width height) bitrate = true ↔ l.Admits width height bitrate := by
  rw [Level.admits,Level.Admits,blocks,ceilDiv_eq_ceil,ceilDiv_eq_ceil,Bool.and_eq_true,decide_eq_true_eq,
    decide_eq_true_eq]

/-- What a level admits it admits smaller and at lower bitrates, too. -/
theorem Level.Admits.mono {width' height' bitrate' : Nat} (admits : l.Admits width' height' bitrate')
    (narrower : width ≤ width') (lower : height ≤ height') (slower : bitrate ≤ bitrate') :
    l.Admits width height bitrate := by
  refine ⟨le_trans (Nat.mul_le_mul ?_ ?_) admits.1,le_trans slower admits.2⟩
  all_goals
    refine Nat.ceil_le_ceil ?_
    gcongr

theorem ascending_levels : levels.Pairwise fun l l' => l.number < l'.number := by decide

theorem number_le_highestLevel (member : l ∈ levels) : l.number ≤ highestLevel :=
  (by decide : ∀ l ∈ levels, l.number ≤ highestLevel) l member

/-- In a list in ascending order the first element that passes a test is the least one that does. -/
theorem least_of_find? {α : Type} {key : α → Nat} {test : α → Bool} {list : List α} {a : α}
    (ascending : list.Pairwise fun a b => key a < key b) (found : list.find? test = some a) :
    ∀ b ∈ list, test b = true → key a ≤ key b := by
  obtain ⟨_,before,after,rfl,fail⟩ := List.find?_eq_some_iff_append.mp found
  intro b member passes
  rcases List.mem_append.mp member with early | late
  · have fails := fail b early
    rw [passes] at fails
    cases fails
  · rcases List.mem_cons.mp late with rfl | behind
    · exact Nat.le_refl _
    · exact Nat.le_of_lt (List.rel_of_pairwise_cons (List.pairwise_append.mp ascending).2.1 behind)

theorem h264Level_of_admits (some : ∃ l ∈ levels, l.Admits width height bitrate) :
    IsLeast {n | ∃ l ∈ levels, l.Admits width height bitrate ∧ l.number = n} (h264Level width height bitrate) := by
  obtain ⟨other,member,admits⟩ := some
  rw [h264Level]
  split
  case h_1 l found =>
    have passes : l.admits (blocks width height) bitrate = true := by simpa using List.find?_some found
    refine ⟨⟨l,List.mem_of_find?_eq_some found,admits_iff.mp passes,rfl⟩,?_⟩
    rintro n ⟨l',member',admits',rfl⟩
    exact least_of_find? ascending_levels found l' member' (admits_iff.mpr admits')
  case h_2 missing => exact absurd (admits_iff.mpr admits) (List.find?_eq_none.mp missing other member)

theorem h264Level_of_not_admits (none : ∀ l ∈ levels, ¬ l.Admits width height bitrate) :
    h264Level width height bitrate = highestLevel := by
  have missing : levels.find? (fun l => l.admits (blocks width height) bitrate) = .none :=
    List.find?_eq_none.mpr fun l member admits => none l member (admits_iff.mp admits)
  rw [h264Level,missing]

theorem h264Level_le_highestLevel (width height bitrate : Nat) : h264Level width height bitrate ≤ highestLevel := by
  by_cases some : ∃ l ∈ levels, l.Admits width height bitrate
  · obtain ⟨l,member,_,same⟩ := (h264Level_of_admits some).1
    exact same ▸ number_le_highestLevel member
  · exact Nat.le_of_eq (h264Level_of_not_admits fun l member admits => some ⟨l,member,admits⟩)

theorem h264Level_mono {width' height' bitrate' : Nat} (wider : width ≤ width') (higher : height ≤ height')
    (faster : bitrate ≤ bitrate') : h264Level width height bitrate ≤ h264Level width' height' bitrate' := by
  by_cases some : ∃ l ∈ levels, l.Admits width' height' bitrate'
  · obtain ⟨l,member,admits,same⟩ := (h264Level_of_admits some).1
    have admits' := admits.mono wider higher faster
    exact (h264Level_of_admits ⟨l,member,admits'⟩).2 ⟨l,member,admits',same⟩
  · rw [h264Level_of_not_admits fun l member admits => some ⟨l,member,admits⟩]
    exact h264Level_le_highestLevel _ _ _

/-! ### The codec string -/

theorem hexadecimal_of_byte {n : Nat} (byte : n < 256) :
    Text.hexadecimal 2 n = [Nat.digitChar (n / 16),Nat.digitChar (n % 16)] := by
  by_cases single : n < 16
  · rw [Text.hexadecimal,Nat.toDigits_of_lt_base single,Nat.div_eq_of_lt single,Nat.mod_eq_of_lt single]
    rfl
  · rw [Text.hexadecimal,Nat.toDigits_of_base_le (by decide) (by omega),Nat.toDigits_of_lt_base (by omega)]
    rfl

theorem signals_h264Codec (width height bitrate : Nat) :
    Signals (h264Codec width height bitrate) width height bitrate := by
  have level := h264Level_le_highestLevel width height bitrate
  rw [highestLevel] at level
  have byte : h264Level width height bitrate < 256 := by omega
  rw [Signals,h264Codec,Codec.h264,Codec.byteText,Codec.byteText,Codec.byteText,hexadecimal_of_byte byte]
  simp only [String.toList_append,String.toList_ofList]
  rfl

/-! ### The ladder -/

theorem exists_videoRung {s : Stream} {name : String} (video : s.kind = .video)
    (offered : .preset name ∈ candidateIds s) : ∃ rung, videoRung? name = some rung := by
  simp only [candidateIds,video,List.mem_cons,List.mem_map,List.mem_filter,reduceCtorEq,false_or] at offered
  obtain ⟨rung,⟨member,_⟩,same⟩ := offered
  refine Option.isSome_iff_exists.mp ?_
  rw [videoRung?,List.find?_isSome]
  exact ⟨rung,member,decide_eq_true (RepresentationId.preset.inj same)⟩

/-- The rendering of a rung has the size and the bitrate that its codec string is for. -/
theorem resolve_of_videoRung {s : Stream} {name : String} {rung : VideoRung} (video : s.kind = .video)
    (found : videoRung? name = some rung) (segmentSeconds : Float) (frames : List Int) :
    ∃ r, resolve segmentSeconds s (.preset name) frames = .ok r ∧
      r.representation.codec = h264Codec r.representation.width r.representation.height r.representation.bitrate := by
  have settings : presetSettings s name = .ok (rung.settings s) := by
    simp only [presetSettings,video,found,Option.map_some]
  refine ⟨encodedRendering segmentSeconds s (.preset name) (rung.settings s),?_,?_⟩
  · rw [resolve,settings]
    rfl
  · simp only [encodedRendering,Representation.encoded,video]
    rfl

/-- The variant of a rendering in a master playlist tells its size, its bitrate with that of the sound if the sum of
    both fits, and its codec string before that of the sound. -/
theorem variant?_of_video {c : Manifest.Combination} {r : Rendering} (video : c.video = some r)
    (subtitles : Option String) :
    ∃ v, Manifest.variant? subtitles c = some v ∧
      v.resolution = some (r.representation.width,r.representation.height) ∧
      (c.BandwidthFits → r.representation.bitrate ≤ v.bandwidth) ∧
      r.representation.codec.toList <+: v.codecs.toList := by
  refine ⟨_,by rw [Manifest.variant?,video],rfl,?_,?_⟩
  · intro fits
    rw [Manifest.Combination.BandwidthFits,video] at fits
    exact (Nat.le_add_right _ _).trans_eq (wrap64_of_le fits).symm
  · by_cases silent : c.audio.isEmpty = true
    · simp [silent]
    · simp [silent,String.toList_append]

/-- Whatever the size and the bitrate are, the level is the least one of the table that admits them, or 52 if there is
    none, and it does not fall when they grow. The rendering of every rung that a video is offered in has the codec
    string of the level for its own size and bitrate, and its variants in master playlists tell this size, this codec
    string, and at least this bitrate if its sum with that of the sound fits. -/
theorem level_fits_picture :
    (∀ width height bitrate,
      ((∃ l ∈ levels, l.Admits width height bitrate) →
        IsLeast {n | ∃ l ∈ levels, l.Admits width height bitrate ∧ l.number = n} (h264Level width height bitrate)) ∧
      ((∀ l ∈ levels, ¬ l.Admits width height bitrate) → h264Level width height bitrate = 52)) ∧
    (∀ width height bitrate width' height' bitrate', width ≤ width' → height ≤ height' → bitrate ≤ bitrate' →
      h264Level width height bitrate ≤ h264Level width' height' bitrate') ∧
    ∀ segmentSeconds s name frames, s.kind = .video → .preset name ∈ candidateIds s →
      ∃ r, resolve segmentSeconds s (.preset name) frames = .ok r ∧
        Signals r.representation.codec r.representation.width r.representation.height r.representation.bitrate ∧
        ∀ subtitles (c : Manifest.Combination), c.video = some r → ∃ v, Manifest.variant? subtitles c = some v ∧
          v.resolution = some (r.representation.width,r.representation.height) ∧
          (c.BandwidthFits → r.representation.bitrate ≤ v.bandwidth) ∧
          r.representation.codec.toList <+: v.codecs.toList := by
  refine ⟨fun width height bitrate => ⟨h264Level_of_admits,h264Level_of_not_admits⟩,
    fun _ _ _ _ _ _ wider higher faster => h264Level_mono wider higher faster,?_⟩
  intro segmentSeconds s name frames video offered
  obtain ⟨rung,found⟩ := exists_videoRung video offered
  obtain ⟨r,resolved,named⟩ := resolve_of_videoRung video found segmentSeconds frames
  refine ⟨r,resolved,?_,fun subtitles c shown => variant?_of_video shown subtitles⟩
  rw [named]
  exact signals_h264Codec _ _ _

theorem small_rung_of_film_signals_level_22 : film.kind = .video ∧ .preset "360p/500kbps" ∈ candidateIds film ∧
    ∃ r, resolve 5.0 film (.preset "360p/500kbps") [] = .ok r ∧ r.representation.width = 640 ∧
      r.representation.height = 360 ∧ r.representation.bitrate = 500000 ∧ r.representation.codec = "avc1.640016" := by
  have offered : .preset "360p/500kbps" ∈ candidateIds film := by decide
  obtain ⟨_,_,rungs⟩ := level_fits_picture
  obtain ⟨r,resolved,signals,_⟩ := rungs 5.0 film "360p/500kbps" [] rfl offered
  have width : r.representation.width = 640 := by cases resolved; rfl
  have height : r.representation.height = 360 := by cases resolved; rfl
  have bitrate : r.representation.bitrate = 500000 := by cases resolved; rfl
  refine ⟨rfl,offered,r,resolved,width,height,bitrate,String.toList_inj.mp ?_⟩
  rw [signals,width,height,bitrate]
  rfl

end Playout.Encoding
