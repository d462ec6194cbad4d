import Playout.Proofs.Text.Split
import Playout.Representation.Resolve
import Playout.Text.Percent

/-!
The ids that a stream is offered in are read back from what stands for them in a
URL, whether the slash of a preset is escaped there or not, and each of them is
one that the stream can be had in.
-/
namespace Playout
open Encoding

/-- The names of the settings of both ladders. -/
def Encoding.rungNames : List String := videoLadder.map (·.name) ++ audioLadder.map (·.name)

theorem Encoding.isRung_iff {name : String} : isRung name = true ↔ name ∈ rungNames := by
  simp [isRung,videoRung?,audioRung?,rungNames]

namespace RepresentationId
variable {name : String}

/-! ### What the ladders have to obey -/

theorem percent_not_mem : ∀ name ∈ rungNames, '%' ∉ name.toList := by decide +kernel

/-- A name begins with none of the letters that the other kinds of ids begin with, nor with a slash. -/
theorem rungNames_begin : ∀ name ∈ rungNames, (name.toList.head?.any (· ∉ ['d','c','/'])) = true := by decide +kernel

/-- A name with each of its slashes written as a slash or escaped, in capitals or not. -/
inductive SpellsName : List Char → List Char → Prop
  | nil : SpellsName [] []
  | slash {name spelled word : List Char} (form : word ∈ [['/'],['%','2','F'],['%','2','f']])
      (others : SpellsName name spelled) : SpellsName ('/' :: name) (word ++ spelled)
  | letter {name spelled : List Char} (c : Char) (other : c ≠ '/') (others : SpellsName name spelled) :
      SpellsName (c :: name) (c :: spelled)

theorem spellsName_self (name : List Char) : SpellsName name name := by
  induction name with
  | nil => exact .nil
  | cons c name ih =>
    by_cases slash : c = '/'
    · subst slash
      have form : ['/'] ∈ [['/'],['%','2','F'],['%','2','f']] := by decide
      exact .slash form ih
    · exact .letter c slash ih

theorem spellsName_escaped (name : List Char) : SpellsName name (Text.replaceWord ['/'] "%2F".toList name) := by
  rw [Text.replaceWord_letter]
  induction name with
  | nil => exact .nil
  | cons c name ih =>
    rw [List.flatMap_cons]
    by_cases slash : c = '/'
    · subst slash
      have form : ['%','2','F'] ∈ [['/'],['%','2','F'],['%','2','f']] := by decide
      exact .slash form ih
    · rw [if_neg slash]
      exact .letter c slash ih

theorem unescapeSlashes_of_spells {name spelled : List Char} (slashes : SpellsName name spelled) (absent : '%' ∉ name) :
    unescapeSlashes spelled = name := by
  change Text.replaceWord ['%','2','f'] ['/'] (Text.replaceWord ['%','2','F'] ['/'] spelled) = name
  induction slashes with
  | nil => rfl
  | @slash name spelled word form others ih =>
    have ih := ih fun later => absent (.tail _ later)
    simp only [List.mem_cons,List.not_mem_nil,or_false] at form
    rcases form with rfl | rfl | rfl
    · rw [List.singleton_append,Text.replaceWord_cons_of_ne (by decide),Text.replaceWord_cons_of_ne (by decide),ih]
    · have upper : Text.replaceWord ['%','2','F'] ['/'] ('%' :: (['2','F'] ++ spelled)) =
          ['/'] ++ Text.replaceWord ['%','2','F'] ['/'] spelled := Text.replaceWord_append ['/'] spelled
      change Text.replaceWord _ _ (Text.replaceWord _ _ ('%' :: (['2','F'] ++ spelled))) = _
      rw [upper,List.singleton_append,Text.replaceWord_cons_of_ne (by decide),ih]
    · have kept : Text.replaceWord ['%','2','F'] ['/'] (['%','2','f'] ++ spelled) =
          ['%','2','f'] ++ Text.replaceWord ['%','2','F'] ['/'] spelled := rfl
      have lower (l : List Char) : Text.replaceWord ['%','2','f'] ['/'] ('%' :: (['2','f'] ++ l)) =
          ['/'] ++ Text.replaceWord ['%','2','f'] ['/'] l := Text.replaceWord_append ['/'] l
      rw [kept]
      change Text.replaceWord _ _ ('%' :: (['2','f'] ++ _)) = _
      rw [lower,ih]
      rfl
  | letter c other others ih =>
    have visible : c ≠ '%' := fun here => absent (here ▸ .head _)
    rw [Text.replaceWord_cons_of_ne visible,Text.replaceWord_cons_of_ne visible,ih fun later => absent (.tail _ later)]

/-! ### Reading an id -/

theorem parse_of_spellsName (rung : name ∈ rungNames) {spelled : List Char} (slashes : SpellsName name.toList spelled) :
    parse (String.ofList spelled) = .ok (preset name) := by
  have begin := rungNames_begin name rung
  have unescapes := unescapeSlashes_of_spells slashes (percent_not_mem name rung)
  cases letters : name.toList with
  | nil =>
    rw [letters] at begin
    cases begin
  | cons c rest =>
    rw [letters] at begin slashes
    simp only [List.head?_cons,Option.any_some,decide_eq_true_eq,List.mem_cons,List.not_mem_nil,or_false,not_or] at begin
    obtain ⟨notDirect,notCustom,notSlash⟩ := begin
    cases slashes with
    | slash => exact absurd rfl notSlash
    | @letter _ spelled _ _ others =>
      have other : String.ofList (c :: spelled) ≠ "direct" := by
        intro same
        rw [← String.toList_inj,String.toList_ofList] at same
        exact notDirect (List.cons.inj same).1
      have unmarked : Text.dropStart? customMark.toList (c :: spelled) = none := if_neg notCustom
      rw [parse,if_neg other,String.toList_ofList,unmarked]
      simp only [unescapes,String.ofList_toList]
      exact if_pos (isRung_iff.mpr rung)

theorem parse_text (rung : name ∈ rungNames) : parse (preset name).text = .ok (preset name) := by
  have read := parse_of_spellsName rung (spellsName_self name.toList)
  rwa [String.ofList_toList] at read

theorem parse_pathSegment (rung : name ∈ rungNames) : parse (preset name).pathSegment = .ok (preset name) :=
  parse_of_spellsName rung (spellsName_escaped name.toList)

end RepresentationId

/-! ### The ids that a stream is offered in -/

variable {s : Stream} {id : RepresentationId}

/-- Besides the stream as it is, these are presets, and they apply to the stream. -/
theorem candidate_cases (candidate : id ∈ candidateIds s) :
    id = .direct ∨ ∃ name ∈ rungNames, id = .preset name ∧ ∃ settings, presetSettings s name = .ok settings := by
  rw [candidateIds,List.mem_cons] at candidate
  refine candidate.imp_right fun offered => ?_
  cases kind : s.kind with
  | subtitle =>
    rw [kind] at offered
    cases offered
  | video =>
    rw [kind] at offered
    obtain ⟨rung,listed,rfl⟩ := List.mem_map.mp offered
    have member : rung ∈ videoLadder := (List.mem_filter.mp listed).1
    have found : (videoRung? rung.name).isSome := List.find?_isSome.mpr ⟨rung,member,decide_eq_true rfl⟩
    obtain ⟨first,found⟩ := Option.isSome_iff_exists.mp found
    refine ⟨rung.name,List.mem_append_left _ (List.mem_map_of_mem member),rfl,first.settings s,?_⟩
    simp [presetSettings,kind,found]
  | audio =>
    rw [kind] at offered
    obtain ⟨rung,member,rfl⟩ := List.mem_map.mp offered
    have found : (audioRung? rung.name).isSome := List.find?_isSome.mpr ⟨rung,member,decide_eq_true rfl⟩
    obtain ⟨first,found⟩ := Option.isSome_iff_exists.mp found
    refine ⟨rung.name,List.mem_append_right _ (List.mem_map_of_mem member),rfl,first.settings,?_⟩
    simp [presetSettings,kind,found]

theorem Representation.encoded_id (s : Stream) (id : RepresentationId) (settings : Settings) :
    (Representation.encoded s id settings).id = id := by
  rw [Representation.encoded]
  cases s.kind <;> rfl

/-- A stream can be had in every id that it is offered in. -/
theorem resolve_of_candidate (candidate : id ∈ candidateIds s) (segmentSeconds : Float) (keyframes : List Int) :
    ∃ r, resolve segmentSeconds s id keyframes = .ok r ∧ r.stream = s ∧ r.representation.id = id := by
  obtain rfl | ⟨name,_,rfl,settings,applies⟩ := candidate_cases candidate
  · exact ⟨_,rfl,rfl,rfl⟩
  · refine ⟨encodedRendering segmentSeconds s (.preset name) settings,?_,rfl,Representation.encoded_id s _ settings⟩
    rw [resolve,applies]
    rfl

/-- What is resolved is the stream as it is, or encoded with some settings. -/
theorem resolve_cases {segmentSeconds : Float} {keyframes : List Int} {r : Rendering}
    (resolved : resolve segmentSeconds s id keyframes = .ok r) :
    (id = .direct ∧ r = copiedRendering segmentSeconds s keyframes) ∨
      (id ≠ .direct ∧ ∃ settings, r = encodedRendering segmentSeconds s id settings) := by
  cases id with
  | direct =>
    cases resolved
    exact .inl ⟨rfl,rfl⟩
  | preset name =>
    rw [resolve] at resolved
    cases found : presetSettings s name with
    | error e =>
      rw [found] at resolved
      cases resolved
    | ok settings =>
      rw [found] at resolved
      cases resolved
      exact .inr ⟨nofun,settings,rfl⟩
  | custom settings =>
    rw [resolve] at resolved
    by_cases suits : s.kind = settings.kind
    · rw [if_pos suits] at resolved
      cases resolved
      exact .inr ⟨nofun,settings,rfl⟩
    · rw [if_neg suits] at resolved
      cases resolved

end Playout
