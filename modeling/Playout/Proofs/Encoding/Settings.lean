import Playout.Encoding.Settings
import Playout.Proofs.Json.Record
import Playout.Proofs.Text.Base64Url

/-!
The text of settings says all of them: it is read back as the same settings if an encoder could follow them, and is
refused for what they say if not (`text_is_lossless`). Other layouts of the record are read as well
(`decode_of_states`).
-/
namespace Playout.Encoding.Settings
open Playout.Text

/-- The sides are numbers of thirty-two bits and a sign, the bitrates of sixty-four. -/
structure Fits (s : Settings) : Prop where
  width : minSigned32 ≤ s.width ∧ s.width ≤ maxSigned32
  height : minSigned32 ≤ s.height ∧ s.height ≤ maxSigned32
  videoBitrate : s.videoBitrate ≤ max64
  audioBitrate : s.audioBitrate ≤ max64

/-- Settings that an encoder could follow. -/
structure Usable (s : Settings) : Prop where
  width : 0 ≤ s.width ∨ s.width = -2
  height : 0 ≤ s.height ∨ s.height = -2
  bitrate : 0 < s.videoBitrate ∨ 0 < s.audioBitrate

/-- The members of the record of settings. -/
def named (s : Settings) : List (String × Json) :=
  [("width",.int s.width),("height",.int s.height),("video_bitrate",.nat s.videoBitrate),
    ("audio_bitrate",.nat s.audioBitrate),("codec",.text s.codec)]

variable {s : Settings}

/-! ### The record -/

theorem nodup_named (s : Settings) : (s.named.map (·.1)).Nodup := by
  change ["width","height","video_bitrate","audio_bitrate","codec"].Nodup
  decide

theorem ofJson?_of_states (fits : s.Fits) {j : Json} (states : Json.States s.named j) : ofJson? j = some s := by
  have read := Json.fields?_of_states [⟨"width",.required⟩,⟨"height",.required⟩,⟨"video_bitrate",.required⟩,
    ⟨"audio_bitrate",.required⟩,⟨"codec",.required⟩] rfl s.nodup_named states
  have side {i : Int} (bounds : minSigned32 ≤ i ∧ i ≤ maxSigned32) :
      (Json.int i).int? minSigned32 maxSigned32 = some i := by
    rw [minSigned32,maxSigned32] at bounds
    exact Json.int?_int bounds (by rw [minSigned64]; omega) (by rw [max64]; omega)
  unfold ofJson?
  simp only [read,named,List.map_cons,List.map_nil,Option.bind_eq_bind,Option.bind_some,Json.must,side fits.width,
    side fits.height,Json.nat?_nat fits.videoBitrate fits.videoBitrate,Json.nat?_nat fits.audioBitrate fits.audioBitrate,
    Stream.string?,Json.text?_text,Option.map_some,String.ofList_toList]

theorem fits_of_ofJson? {j : Json} (read : ofJson? j = some s) : s.Fits := by
  unfold ofJson? at read
  simp only [Option.bind_eq_bind,Option.bind_eq_some_iff] at read
  obtain ⟨values,_,read⟩ := read
  split at read
  · simp only [Option.bind_eq_some_iff,Option.some.injEq] at read
    obtain ⟨width,hw,height,hh,video,hv,audio,ha,codec,_,rfl⟩ := read
    obtain ⟨_,_,width⟩ := Option.bind_eq_some_iff.mp hw
    obtain ⟨_,_,height⟩ := Option.bind_eq_some_iff.mp hh
    obtain ⟨_,_,video⟩ := Option.bind_eq_some_iff.mp hv
    obtain ⟨_,_,audio⟩ := Option.bind_eq_some_iff.mp ha
    exact ⟨Json.bounds_of_int? width,Json.bounds_of_int? height,Json.bound_of_nat? video,Json.bound_of_nat? audio⟩
  · cases read

theorem proper_named {p : String × Json} (member : p ∈ s.named) : p.2.Proper := by
  simp only [named,List.mem_cons,List.not_mem_nil,or_false] at member
  rcases member with rfl | rfl | rfl | rfl | rfl
  · exact Json.proper_int s.width
  · exact Json.proper_int s.height
  · exact Json.proper_nat s.videoBitrate
  · exact Json.proper_nat s.audioBitrate
  · exact .string s.codec.toList

theorem proper_toJson (s : Settings) : s.toJson.Proper := Json.proper_record fun _ => proper_named

/-! ### The checks -/

theorem isSide_iff {d : Int} : isSide d = true ↔ 0 ≤ d ∨ d = -2 := by
  simp [isSide,preserveAspect]

theorem validate_of_usable (usable : s.Usable) : s.validate = .ok s := by
  have width := isSide_iff.mpr usable.width
  have height := isSide_iff.mpr usable.height
  have bitrate := usable.bitrate
  unfold validate
  rw [width,height,if_neg (by decide),if_neg (by omega)]

theorem validate_of_not_usable (unusable : ¬ s.Usable) : ∃ reason, s.validate = .error (.validation reason) := by
  unfold validate
  split_ifs with sides bitrate
  · exact ⟨_,rfl⟩
  · exact ⟨_,rfl⟩
  · simp only [Bool.or_eq_true,Bool.not_eq_true',not_or,Bool.not_eq_false] at sides
    exact absurd ⟨isSide_iff.mp sides.1,isSide_iff.mp sides.2,by omega⟩ unusable

theorem usable_of_validate {s' : Settings} (passes : s.validate = .ok s') : s.Usable ∧ s' = s := by
  by_cases usable : s.Usable
  · rw [validate_of_usable usable] at passes
    exact ⟨usable,(Except.ok.inj passes).symm⟩
  · obtain ⟨reason,refused⟩ := validate_of_not_usable usable
    rw [refused] at passes
    cases passes

/-! ### The text -/

/-- Every layout of the record in every form of it is read as the settings. -/
theorem decode_of_states (fits : s.Fits) {j : Json} (states : Json.States s.named j) {bytes : List UInt8}
    (laid : Json.Laid j.tokens bytes) : decode (String.ofList (Base64Url.encode bytes)) = s.validate := by
  have raw : decodeRaw? (Base64Url.encode bytes) = some s := by
    rw [decodeRaw?,Base64Url.decode?_encode,Option.bind_eq_bind,Option.bind_some,Json.read?_of_laid laid,
      Option.bind_eq_bind,Option.bind_some,ofJson?_of_states fits states]
  rw [decode,String.toList_ofList,raw]

theorem decode_encode (fits : s.Fits) : decode s.encode = s.validate :=
  decode_of_states fits (Json.states_record s.named) (Json.laid_render s.proper_toJson)

/-- Settings are read from a text only if they fit and an encoder could follow them. -/
theorem of_decode {text : String} (read : decode text = .ok s) : s.Fits ∧ s.Usable := by
  unfold decode at read
  split at read
  · rename_i settings raw
    obtain ⟨usable,rfl⟩ := usable_of_validate read
    obtain ⟨_,_,raw⟩ := Option.bind_eq_some_iff.mp raw
    obtain ⟨_,_,raw⟩ := Option.bind_eq_some_iff.mp raw
    exact ⟨fits_of_ofJson? raw,usable⟩
  · cases read

theorem encode_inj {s' : Settings} (fits : s.Fits) (fits' : s'.Fits) (same : s.encode = s'.encode) : s = s' := by
  -- Each layer is read back, so equal texts come from equal records.
  have records : some s.toJson = some s'.toJson := by
    have bytes := Base64Url.encode_injective (String.ofList_inj.mp same)
    rw [← Json.read?_render s.proper_toJson,← Json.read?_render s'.proper_toJson,bytes]
  have read := ofJson?_of_states fits (Json.states_record s.named)
  have read' := ofJson?_of_states fits' (Json.states_record s'.named)
  change ofJson? s.toJson = some s at read
  rw [Option.some.inj records] at read
  exact Option.some.inj (read.symm.trans read')

theorem mem_alphabet_of_mem_encode {c : Char} (member : c ∈ s.encode.toList) : c ∈ Base64Url.alphabet := by
  rw [encode,String.toList_ofList] at member
  exact Base64Url.mem_alphabet_of_mem_encode member

/-- The text of settings is read back as the same settings where an encoder could follow them and is refused by their
    check where not; no two settings have one text, and a text has characters of the base64 alphabet alone. -/
theorem text_is_lossless (s : Settings) (fits : s.Fits) :
    (s.Usable → decode s.encode = .ok s) ∧
      (¬ s.Usable → ∃ reason, decode s.encode = .error (.validation reason)) ∧
      (∀ s' : Settings, s'.Fits → s'.encode = s.encode → s' = s) ∧
      ∀ c ∈ s.encode.toList, c ∈ Base64Url.alphabet := by
  rw [decode_encode fits]
  exact ⟨validate_of_usable,validate_of_not_usable,fun _ fits' same => encode_inj fits' fits same,
    fun _ => mem_alphabet_of_mem_encode⟩

/-- Settings at the ends of their ranges, with a codec string of everything that has to be escaped. -/
def extreme : Settings := ⟨2147483647,-2,18446744073709551615,0,"\"\\/\x00\x1f\x7f\n\u00e9😀"⟩

theorem fits_extreme : extreme.Fits := ⟨by decide,by decide,by decide,by decide⟩

theorem usable_extreme : extreme.Usable := ⟨by decide,by decide,by decide⟩

theorem extreme_survives : extreme.Fits ∧ decode extreme.encode = .ok extreme :=
  ⟨fits_extreme,(text_is_lossless extreme fits_extreme).1 usable_extreme⟩

end Playout.Encoding.Settings
