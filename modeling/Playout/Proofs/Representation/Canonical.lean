import Playout.Http.Route
import Playout.Proofs.Encoding.Settings
import Playout.Proofs.Representation.Id

/-!
An id has many spellings: the slash of a preset's name as it is or escaped in either case, and any layout of the
record of custom settings (`Spells`). Reading makes one id of them, and what is written of the id is read as
the same id (`ids_are_canonical`).
-/
namespace Playout.RepresentationId
open Encoding Text

/-! ### Spellings -/

/-- The texts that stand for an id. The record of settings may have any layout, any order of its members and members
    of other names, or be an array. -/
inductive Spells : RepresentationId → String → Prop
  | direct : Spells .direct "direct"
  | preset {name : String} {spelled : List Char} (rung : name ∈ rungNames) (slashes : SpellsName name.toList spelled) :
      Spells (.preset name) (String.ofList spelled)
  | custom {settings : Settings} {j : Json} {bytes : List UInt8} (fits : settings.Fits) (usable : settings.Usable)
      (states : Json.States settings.named j) (laid : Json.Laid j.tokens bytes) :
      Spells (.custom settings) (customMark ++ String.ofList (Base64Url.encode bytes))

theorem parse_custom {text : String} {settings : Settings} (read : Settings.decode text = .ok settings) :
    parse (customMark ++ text) = .ok (custom settings) := by
  have other : customMark ++ text ≠ "direct" := by
    intro same
    have letters := congrArg String.toList same
    rw [String.toList_append] at letters
    cases (List.cons.inj letters).1
  have marked : dropStart? customMark.toList (customMark ++ text).toList = some text.toList := by
    rw [String.toList_append,dropStart?_append]
  rw [parse,if_neg other,marked]
  simp only [String.ofList_toList,read]
  rfl

theorem parse_of_spells {id : RepresentationId} {s : String} (spelled : Spells id s) : parse s = .ok id := by
  cases spelled with
  | direct => rfl
  | preset rung slashes => exact parse_of_spellsName rung slashes
  | custom fits usable states laid =>
    exact parse_custom ((Settings.decode_of_states fits states laid).trans (Settings.validate_of_usable usable))

/-! ### What is read -/

/-- The ids that are read from texts. -/
inductive Read : RepresentationId → Prop
  | direct : Read .direct
  | preset {name : String} (rung : name ∈ rungNames) : Read (.preset name)
  | custom {settings : Settings} (fits : settings.Fits) (usable : settings.Usable) : Read (.custom settings)

theorem read_of_parse {s : String} {id : RepresentationId} (read : parse s = .ok id) : id.Read := by
  unfold parse at read
  split_ifs at read
  · cases read
    exact .direct
  · split at read
    · rename_i encoded _
      cases settings : Settings.decode (String.ofList encoded) with
      | error e =>
        rw [settings] at read
        cases read
      | ok found =>
        rw [settings] at read
        cases read
        obtain ⟨fits,usable⟩ := Settings.of_decode settings
        exact .custom fits usable
    · simp only at read
      split_ifs at read with rung
      cases read
      exact .preset (isRung_iff.mp rung)

theorem slash_not_mem_custom (settings : Settings) : '/' ∉ (custom settings).text.toList := by
  rw [text,String.toList_append,List.mem_append,not_or]
  refine ⟨by decide,fun member => ?_⟩
  exact absurd (Settings.mem_alphabet_of_mem_encode member) (by decide)

theorem slash_not_mem_replaced (l : List Char) : '/' ∉ replaceWord ['/'] "%2F".toList l := by
  rw [replaceWord_letter,List.mem_flatMap]
  rintro ⟨c,_,member⟩
  by_cases slash : c = '/'
  · rw [if_pos slash] at member
    exact absurd member (by decide)
  · rw [if_neg slash] at member
    exact slash (List.mem_singleton.mp member).symm

theorem slash_not_mem_pathSegment (id : RepresentationId) : '/' ∉ id.pathSegment.toList := by
  rw [pathSegment,String.toList_ofList]
  exact slash_not_mem_replaced id.text.toList

theorem pathSegment_custom (settings : Settings) : (custom settings).pathSegment = (custom settings).text := by
  rw [pathSegment,replaceWord_of_not_mem (slash_not_mem_custom settings),String.ofList_toList]

theorem parse_written {id : RepresentationId} (read : id.Read) : parse id.pathSegment = .ok id ∧ parse id.text = .ok id := by
  cases read with
  | direct => exact ⟨rfl,rfl⟩
  | preset rung => exact ⟨parse_pathSegment rung,parse_text rung⟩
  | @custom settings fits usable =>
    have text := parse_custom ((Settings.decode_encode fits).trans (Settings.validate_of_usable usable))
    exact ⟨(pathSegment_custom settings).symm ▸ text,text⟩

theorem resolve_id {segmentSeconds : Float} {stream : Stream} {id : RepresentationId} {keyframes : List Int} {r : Rendering}
    (resolved : resolve segmentSeconds stream id keyframes = .ok r) : r.stream = stream ∧ r.representation.id = id := by
  obtain ⟨rfl,rfl⟩ | ⟨_,settings,rfl⟩ := resolve_cases resolved
  · exact ⟨rfl,rfl⟩
  · exact ⟨rfl,Representation.encoded_id stream id settings⟩

/-- An id that was read is read again from its text and from its part of a URL, which has no slash and is that of no
    other id. All spellings of it are read as it, and all that are stand for one playback session and one URL. -/
theorem ids_are_canonical {s : String} {id : RepresentationId} (read : parse s = .ok id) :
    (parse id.pathSegment = .ok id ∧ parse id.text = .ok id) ∧ '/' ∉ id.pathSegment.toList ∧
      ((parse id.pathSegment).map pathSegment = .ok id.pathSegment ∧ (parse id.text).map text = .ok id.text) ∧
      (∀ s' id', parse s' = .ok id' → id'.pathSegment = id.pathSegment → id' = id) ∧
      ∀ s', Spells id s' → parse s' = .ok id ∧
        (∀ p : Http.RenditionPath, { p with representation := s' }.key = { p with representation := s }.key) ∧
        ∀ segmentSeconds stream keyframes r,
          (parse s').bind (resolve segmentSeconds stream · keyframes) = .ok r →
            r.directory = toString stream.index ++ "/" ++ id.pathSegment := by
  obtain ⟨segment,text⟩ := parse_written (read_of_parse read)
  refine ⟨⟨segment,text⟩,slash_not_mem_pathSegment id,?_,?_,?_⟩
  · rw [segment,text]
    exact ⟨rfl,rfl⟩
  · intro s' id' read' same
    have segment' := (parse_written (read_of_parse read')).1
    rw [same,segment] at segment'
    exact (Except.ok.inj segment').symm
  · intro s' spelled
    have read' := parse_of_spells spelled
    refine ⟨read',fun p => ?_,fun segmentSeconds stream keyframes r resolved => ?_⟩
    · simp only [Http.RenditionPath.key,read,read']
    · rw [read'] at resolved
      obtain ⟨rfl,rfl⟩ := resolve_id resolved
      rfl

/-- Settings as an array of their values. -/
def extremeArray : String :=
  customMark ++ String.ofList (Base64Url.encode (Utf8.encode (Json.array (Settings.extreme.named.map (·.2))).render))

theorem array_is_canonical : parse extremeArray = .ok (.custom .extreme) ∧
    parse (custom .extreme).pathSegment = .ok (.custom .extreme) := by
  have proper : (Json.array (Settings.extreme.named.map (·.2))).Proper := by
    refine .array fun j member => ?_
    obtain ⟨p,named,rfl⟩ := List.mem_map.mp member
    exact Settings.proper_named named
  have read := parse_of_spells (.custom Settings.fits_extreme Settings.usable_extreme .array (Json.laid_render proper))
  exact ⟨read,(ids_are_canonical read).1.1⟩

end Playout.RepresentationId
