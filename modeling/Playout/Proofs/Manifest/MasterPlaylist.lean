import Mathlib.Logic.Basic
import Playout.Manifest.MasterPlaylist
import Playout.Proofs.Manifest.Tags
import Playout.Proofs.Text.Numeral

/-!
A player reads the tags of a master playlist line by line: one for each rendition,
and one for each variant with its playlist on the line after it. From the text of a
playlist it reads the renditions and variants that the playlist was made of, as long
as the texts that are not under the playlist's control have no quotes and line breaks.
-/
namespace Playout.Manifest

/-! ### What a player reads -/

/-- What a player reads of a rendition. -/
structure MediaTag where
  kind : RenditionKind
  group : String
  isDefault : Bool
  uri : String
  deriving DecidableEq, Repr

/-- What a player reads of a variant; it has no codecs if none are named. -/
structure StreamTag where
  bandwidth : Nat
  codecs : String
  audio : Option String
  subtitles : Option String
  uri : String
  deriving DecidableEq, Repr

/-- What a player reads in a master playlist. -/
structure Listing where
  media : List MediaTag
  streams : List StreamTag
  deriving DecidableEq, Repr

def Attributes.value? (as : Attributes) (name : String) : Option AttributeValue := as.lookup name.toList

def Attributes.bare? (as : Attributes) (name : String) : Option (List Char) :=
  match as.value? name with
  | some (.bare text) => some text
  | _ => none

def Attributes.quoted? (as : Attributes) (name : String) : Option String :=
  match as.value? name with
  | some (.quoted text) => some (String.ofList text)
  | _ => none

def RenditionKind.ofName? (name : List Char) : Option RenditionKind :=
  [audio,subtitles].find? fun kind => kind.name.toList = name

def MediaTag.ofAttributes? (as : Attributes) : Option MediaTag := do
  let kind ← RenditionKind.ofName? (← as.bare? "TYPE")
  let group ← as.quoted? "GROUP-ID"
  let uri ← as.quoted? "URI"
  some ⟨kind,group,as.bare? "DEFAULT" = some "YES".toList,uri⟩

def StreamTag.ofAttributes? (uri : List Char) (as : Attributes) : Option StreamTag := do
  let bandwidth ← Text.digits? (← as.bare? "BANDWIDTH")
  some ⟨bandwidth,(as.quoted? "CODECS").getD "",as.quoted? "AUDIO",as.quoted? "SUBTITLES",String.ofList uri⟩

def mediaMark : String := "#EXT-X-MEDIA:"

def streamMark : String := "#EXT-X-STREAM-INF:"

/-- Reads the tags of some lines; other lines are passed over. -/
def Listing.ofLines? : List (List Char) → Option Listing
  | [] => some ⟨[],[]⟩
  | line :: rest =>
    match Text.dropStart? mediaMark.toList line with
    | some attributes => do
      let tag ← (Attributes.ofText? attributes).bind MediaTag.ofAttributes?
      let others ← ofLines? rest
      some { others with media := tag :: others.media }
    | none =>
      match Text.dropStart? streamMark.toList line with
      | none => ofLines? rest
      | some attributes =>
        match rest with
        | [] => none
        | uri :: rest => do
          let tag ← (Attributes.ofText? attributes).bind (StreamTag.ofAttributes? uri)
          let others ← ofLines? rest
          some { others with streams := tag :: others.streams }

def Listing.ofText? (s : String) : Option Listing := ofLines? (Text.splitAll '\n' s.toList)

/-! ### What is meant to be read -/

def Rendition.tag (r : Rendition) : MediaTag := ⟨r.kind,r.group,r.isDefault,r.uri⟩

def Variant.tag (v : Variant) : StreamTag := ⟨v.bandwidth,v.codecs,v.audioGroup,v.subtitleGroup,v.uri⟩

def MasterPlaylist.listing (p : MasterPlaylist) : Listing := ⟨p.renditions.map Rendition.tag,p.variants.map Variant.tag⟩

/-- A text without quotes and line breaks. -/
def IsPlain (s : String) : Prop := ∀ c ∈ s.toList, c ≠ '"' ∧ c ≠ '\r' ∧ c ≠ '\n'

structure MediaTag.IsPlain (t : MediaTag) : Prop where
  group : Manifest.IsPlain t.group
  uri : Manifest.IsPlain t.uri

structure StreamTag.IsPlain (t : StreamTag) : Prop where
  codecs : Manifest.IsPlain t.codecs
  audio : ∀ group, t.audio = some group → Manifest.IsPlain group
  subtitles : ∀ group, t.subtitles = some group → Manifest.IsPlain group
  uri : Manifest.IsPlain t.uri

structure Listing.IsPlain (l : Listing) : Prop where
  media : ∀ t ∈ l.media, t.IsPlain
  streams : ∀ t ∈ l.streams, t.IsPlain

/-! ### Plain texts -/

instance (s : String) : Decidable (IsPlain s) := List.decidableBAll _ s.toList

theorem IsPlain.append {s t : String} (first : IsPlain s) (second : IsPlain t) : IsPlain (s ++ t) := by
  intro c member
  rw [String.toList_append,List.mem_append] at member
  exact member.elim (first c) (second c)

theorem IsPlain.quote {s : String} (plain : IsPlain s) : '"' ∉ s.toList := fun member => (plain _ member).1 rfl

theorem IsPlain.line {s : String} (plain : IsPlain s) : '\n' ∉ s.toList := fun member => (plain _ member).2.2 rfl

theorem isPlain_toString (n : Nat) : IsPlain (toString n) := by
  intro c member
  have digit := Text.isDigit_of_mem_toString member
  refine ⟨?_,?_,?_⟩ <;> rintro rfl <;> exact absurd digit (by decide)

/-- Whatever is put in quotes is plain there. -/
theorem isPlain_quoted (s : String) : IsPlain (quoted s) := by
  intro c member
  rw [quoted,String.toList_ofList,List.mem_map] at member
  obtain ⟨d,_,rfl⟩ := member
  rw [quotedChar]
  by_cases quote : d = '"'
  · rw [if_pos quote]
    decide
  · rw [if_neg quote]
    by_cases line : d = '\r' ∨ d = '\n'
    · rw [if_pos line]
      decide
    · rw [if_neg line]
      exact ⟨quote,not_or.mp line⟩

theorem quoted_of_isPlain {s : String} (plain : IsPlain s) : quoted s = s := by
  have same : s.toList.map quotedChar = s.toList := by
    refine (List.map_congr_left fun c member => ?_).trans (List.map_id _)
    obtain ⟨quote,line⟩ := plain c member
    rw [quotedChar,if_neg quote,if_neg (not_or.mpr line)]
    rfl
  rw [quoted,same,String.ofList_toList]

/-! ### Attributes of a tag -/

/-- An attribute that may be missing. -/
def optional (name : String) (value : Option AttributeValue) : Attributes := (value.map fun v => (name.toList,v)).toList

theorem value?_cons (name wanted : String) (value : AttributeValue) (as : Attributes) :
    Attributes.value? ((name.toList,value) :: as) wanted = if wanted = name then some value else as.value? wanted := by
  by_cases same : wanted = name
  · simp [Attributes.value?,same]
  · have other : (wanted.toList == name.toList) = false :=
      beq_eq_false_iff_ne.mpr fun here => same (String.toList_inj.mp here)
    simp [Attributes.value?,List.lookup_cons,same,other]

theorem value?_append (as bs : Attributes) (wanted : String) :
    Attributes.value? (as ++ bs) wanted = (as.value? wanted).or (bs.value? wanted) := List.lookup_append

theorem value?_optional (name wanted : String) (value : Option AttributeValue) :
    (optional name value).value? wanted = if wanted = name then value else none := by
  cases value with
  | none => exact (ite_self _).symm
  | some v => exact value?_cons name wanted v []

theorem named_optional {name : String} {value : Option AttributeValue}
    (named : IsBare name.toList ∧ '=' ∉ name.toList) (bare : ∀ text, value = some (.bare text) → IsBare text) :
    ∀ a ∈ optional name value, IsNamed a := by
  intro a member
  rw [optional,Option.mem_toList,Option.map_eq_some_iff] at member
  obtain ⟨v,here,rfl⟩ := member
  exact ⟨named,fun text written => bare text (here.trans (congrArg some written))⟩

theorem named_quoted {name : String} {value : Option AttributeValue}
    (named : IsBare name.toList ∧ '=' ∉ name.toList) (quotes : ∀ text, value ≠ some (.bare text)) :
    ∀ a ∈ optional name value, IsNamed a :=
  named_optional named fun text written => absurd written (quotes text)

theorem inQuotes_append (as bs : Attributes) : Attributes.inQuotes (as ++ bs) = as.inQuotes ++ bs.inQuotes :=
  List.filterMap_append

theorem inQuotes_optional (name : String) (value : Option AttributeValue) :
    (optional name value).inQuotes = (value.bind AttributeValue.inner?).toList := by
  cases value with
  | none => rfl
  | some v => cases v <;> rfl

def Rendition.attributes (r : Rendition) : Attributes :=
  ("TYPE".toList,.bare r.kind.name.toList) ::
    (optional "GROUP-ID" (some (.quoted (quoted r.group).toList)) ++
      optional "NAME" (some (.quoted (quoted r.name).toList)) ++
      optional "LANGUAGE" (r.language.map fun language => .quoted (quoted language).toList) ++
      optional "DEFAULT" (some (.bare (if r.isDefault then "YES" else "NO").toList)) ++
      optional "AUTOSELECT" (some (.bare "YES".toList)) ++ optional "URI" (some (.quoted r.uri.toList)))

theorem Rendition.toList_line (r : Rendition) : r.line.toList = mediaMark.toList ++ r.attributes.text := by
  unfold Rendition.line
  rw [attributes,Attributes.text_cons]
  cases r.language <;>
    simp [optional,attributeText,AttributeValue.text,quotedAttribute,mediaMark]

def Variant.attributes (v : Variant) : Attributes :=
  ("BANDWIDTH".toList,.bare (toString v.bandwidth).toList) ::
    (optional "RESOLUTION" (v.resolution.map fun size => .bare (toString size.1 ++ "x" ++ toString size.2).toList) ++
      optional "CODECS" (if v.codecs = "" then none else some (.quoted v.codecs.toList)) ++
      optional "FRAME-RATE" (v.frameRate.map fun rate => .bare (Binary64.fixed 3 rate)) ++
      optional "AUDIO" (v.audioGroup.map fun group => .quoted group.toList) ++
      optional "SUBTITLES" (v.subtitleGroup.map fun group => .quoted group.toList))

/-- The line of the tag of a variant. -/
def Variant.line (v : Variant) : String := String.ofList (streamMark.toList ++ v.attributes.text)

theorem Variant.lines_eq (v : Variant) : v.lines = [v.line,v.uri] := by
  have tag : (v.lines.head?.getD "").toList = streamMark.toList ++ v.attributes.text := by
    unfold Variant.lines
    rw [attributes,Attributes.text_cons,List.head?_cons,Option.getD_some]
    simp only [String.toList_append,List.flatMap_append,← List.append_assoc]
    refine congrArg₂ (· ++ ·) (congrArg₂ (· ++ ·) (congrArg₂ (· ++ ·) (congrArg₂ (· ++ ·) (congrArg₂ (· ++ ·)
      ?bandwidth ?resolution) ?codecs) ?rate) ?audio) ?subtitles
    case bandwidth => simp [streamMark,attributeText,AttributeValue.text]
    case resolution => cases v.resolution <;> simp [optional,attributeText,AttributeValue.text]
    case codecs => split <;> simp [optional,quotedAttribute,attributeText,AttributeValue.text]
    case rate => cases v.frameRate <;> simp [optional,attributeText,AttributeValue.text]
    case audio => cases v.audioGroup <;> simp [optional,quotedAttribute,attributeText,AttributeValue.text]
    case subtitles => cases v.subtitleGroup <;> simp [optional,quotedAttribute,attributeText,AttributeValue.text]
  have shape : v.lines = [v.lines.head?.getD "",v.uri] := rfl
  rw [shape,line,← tag,String.ofList_toList]

/-! ### Attributes are proper -/

/-- The characters that stand in numbers, besides digits. -/
def numberSigns : List Char := "-.NaNinfx".toList

theorem mem_placeUnits {places units : Nat} {c : Char} (member : c ∈ Binary64.placeUnits places units) :
    c.isDigit = true ∨ c ∈ numberSigns := by
  have padded : ∀ c ∈ List.replicate (places + 1 - (Text.decimal units).length) '0' ++ Text.decimal units,
      c.isDigit = true := by
    intro c here
    rcases List.mem_append.mp here with zero | digit
    · rw [List.eq_of_mem_replicate zero]
      rfl
    · exact Text.isDigit_of_mem_decimal digit
  rw [Binary64.placeUnits] at member
  split_ifs at member
  · exact .inl (padded c member)
  · rcases List.mem_append.mp member with before | after
    · exact .inl (padded c (List.mem_of_mem_take before))
    · rcases List.mem_cons.mp after with rfl | after
      · exact .inr (by decide)
      · exact .inl (padded c (List.mem_of_mem_drop after))

theorem mem_fixed {places : Nat} {x : Float} {c : Char} (member : c ∈ Binary64.fixed places x) :
    c.isDigit = true ∨ c ∈ numberSigns := by
  have constants : "NaN".toList ++ "-inf".toList ++ "inf".toList ⊆ numberSigns := by decide
  rw [Binary64.fixed] at member
  cases number : Binary64.value x with
  | notANumber =>
    rw [number] at member
    exact .inr (constants (List.mem_append_left _ (List.mem_append_left _ member)))
  | infinite negative =>
    rw [number] at member
    cases negative with
    | true => exact .inr (constants (List.mem_append_left _ (List.mem_append_right _ member)))
    | false => exact .inr (constants (List.mem_append_right _ member))
  | finite exact' =>
    rw [number] at member
    dsimp only at member
    split_ifs at member
    · rcases List.mem_cons.mp member with rfl | later
      · exact .inr (by decide)
      · exact mem_placeUnits later
    · exact mem_placeUnits member

theorem isBare_of_number {text : List Char} (letters : ∀ c ∈ text, c.isDigit = true ∨ c ∈ numberSigns) :
    IsBare text := by
  refine ⟨?_,?_,?_⟩ <;> exact fun here => absurd (letters _ here) (by decide)

theorem Rendition.named_attributes (r : Rendition) : ∀ a ∈ r.attributes, IsNamed a := by
  have kind : IsBare r.kind.name.toList := by
    cases r.kind <;> decide
  have answer : IsBare (if r.isDefault then "YES" else "NO").toList := by
    cases r.isDefault <;> decide
  simp only [attributes,List.forall_mem_cons,List.forall_mem_append]
  refine ⟨⟨(by decide : IsBare "TYPE".toList ∧ '=' ∉ "TYPE".toList),?kind⟩,
    ⟨⟨⟨⟨?group,?name⟩,?language⟩,?default⟩,?select⟩,?uri⟩
  case kind => exact fun text written => AttributeValue.bare.inj written ▸ kind
  case group => exact named_quoted (by decide) (by simp)
  case name => exact named_quoted (by decide) (by simp)
  case language => exact named_quoted (by decide) (by simp)
  case default => exact named_optional (by decide) fun text written => by cases written; exact answer
  case select => exact named_optional (by decide) fun text written => by cases written; decide
  case uri => exact named_quoted (by decide) (by simp)

theorem Variant.named_attributes (v : Variant) : ∀ a ∈ v.attributes, IsNamed a := by
  have digits {n : Nat} {c : Char} (member : c ∈ (toString n).toList) : c.isDigit = true ∨ c ∈ numberSigns :=
    .inl (Text.isDigit_of_mem_toString member)
  have size (width height : Nat) : IsBare (toString width ++ "x" ++ toString height).toList := by
    refine isBare_of_number fun c member => ?_
    simp only [String.toList_append,List.mem_append] at member
    obtain (across | times) | down := member
    · exact digits across
    · exact .inr (List.mem_singleton.mp times ▸ (by decide))
    · exact digits down
  simp only [attributes,List.forall_mem_cons,List.forall_mem_append]
  refine ⟨⟨(by decide : IsBare "BANDWIDTH".toList ∧ '=' ∉ "BANDWIDTH".toList),?bandwidth⟩,
    ⟨⟨⟨?resolution,?codecs⟩,?rate⟩,?audio⟩,?subtitles⟩
  case bandwidth => exact fun text written => AttributeValue.bare.inj written ▸ isBare_of_number fun c => digits
  case resolution =>
    refine named_optional (by decide) fun text written => ?_
    obtain ⟨_,_,rfl⟩ : ∃ a, v.resolution = some a ∧ (toString a.1 ++ "x" ++ toString a.2).toList = text := by
      simpa using written
    exact size _ _
  case codecs => exact named_quoted (by decide) (by split <;> simp)
  case rate =>
    refine named_optional (by decide) fun text written => ?_
    obtain ⟨_,_,rfl⟩ : ∃ rate, v.frameRate = some rate ∧ Binary64.fixed 3 rate = text := by simpa using written
    exact isBare_of_number fun _ => mem_fixed
  case audio => exact named_quoted (by decide) (by simp)
  case subtitles => exact named_quoted (by decide) (by simp)

theorem Rendition.inQuotes_attributes (r : Rendition) : r.attributes.inQuotes =
    [(quoted r.group).toList,(quoted r.name).toList] ++ (r.language.map fun language => (quoted language).toList).toList ++
      [r.uri.toList] := by
  have kind (as : Attributes) : Attributes.inQuotes (("TYPE".toList,.bare r.kind.name.toList) :: as) = as.inQuotes := rfl
  rw [attributes,kind]
  simp only [inQuotes_append,inQuotes_optional]
  cases r.language <;> rfl

theorem Variant.inQuotes_attributes (v : Variant) : v.attributes.inQuotes =
    (if v.codecs = "" then [] else [v.codecs.toList]) ++ (v.audioGroup.map String.toList).toList ++
      (v.subtitleGroup.map String.toList).toList := by
  have bandwidth (as : Attributes) :
      Attributes.inQuotes (("BANDWIDTH".toList,.bare (toString v.bandwidth).toList) :: as) = as.inQuotes := rfl
  have none {α : Type} (x : Option α) (f : α → List Char) :
      ((x.map fun a => AttributeValue.bare (f a)).bind AttributeValue.inner?).toList = [] := by
    cases x <;> rfl
  have some {α : Type} (x : Option α) (f : α → List Char) :
      ((x.map fun a => AttributeValue.quoted (f a)).bind AttributeValue.inner?).toList = (x.map f).toList := by
    cases x <;> rfl
  rw [attributes,bandwidth]
  simp only [inQuotes_append,inQuotes_optional,none,some]
  by_cases unnamed : v.codecs = "" <;> simp [unnamed,AttributeValue.inner?]

/-- What is put in the quotes of a rendition is plain there, but for its place. -/
theorem Rendition.plain_inQuotes {r : Rendition} (uri : IsPlain r.uri) :
    ∀ text ∈ r.attributes.inQuotes, '"' ∉ text ∧ '\n' ∉ text := by
  intro text member
  rw [inQuotes_attributes] at member
  obtain ⟨s,plain,rfl⟩ : ∃ s, IsPlain s ∧ s.toList = text := by
    simp only [List.mem_append,List.mem_cons,List.not_mem_nil,or_false,Option.mem_toList,Option.map_eq_some_iff] at member
    obtain ((rfl | rfl) | ⟨language,_,rfl⟩) | rfl := member
    · exact ⟨_,isPlain_quoted _,rfl⟩
    · exact ⟨_,isPlain_quoted _,rfl⟩
    · exact ⟨_,isPlain_quoted _,rfl⟩
    · exact ⟨_,uri,rfl⟩
  exact ⟨plain.quote,plain.line⟩

theorem Variant.plain_inQuotes {v : Variant} (plain : v.tag.IsPlain) :
    ∀ text ∈ v.attributes.inQuotes, '"' ∉ text ∧ '\n' ∉ text := by
  intro text member
  rw [inQuotes_attributes] at member
  obtain ⟨s,plain,rfl⟩ : ∃ s, IsPlain s ∧ s.toList = text := by
    simp only [List.mem_append,Option.mem_toList,Option.map_eq_some_iff] at member
    obtain (codecs | ⟨group,named,rfl⟩) | ⟨group,named,rfl⟩ := member
    · split_ifs at codecs
      · cases codecs
      · exact ⟨_,plain.codecs,(List.mem_singleton.mp codecs).symm⟩
    · exact ⟨_,plain.audio group named,rfl⟩
    · exact ⟨_,plain.subtitles group named,rfl⟩
  exact ⟨plain.quote,plain.line⟩

/-! ### Tags are read back -/

theorem RenditionKind.ofName?_name (kind : RenditionKind) : ofName? kind.name.toList = some kind := by
  cases kind <;> decide

theorem Rendition.group_of_attributes (r : Rendition) : r.attributes.quoted? "GROUP-ID" = some (quoted r.group) := by
  simp only [Attributes.quoted?,attributes,value?_cons,value?_append,value?_optional]
  simp

theorem Rendition.tag_of_attributes {r : Rendition} (plain : r.tag.IsPlain) : MediaTag.ofAttributes? r.attributes = some r.tag := by
  have kind : r.attributes.bare? "TYPE" = some r.kind.name.toList := rfl
  have group : r.attributes.quoted? "GROUP-ID" = some r.group := by
    rw [group_of_attributes]
    exact congrArg some (quoted_of_isPlain plain.group)
  have default : r.attributes.bare? "DEFAULT" = some (if r.isDefault then "YES" else "NO").toList := by
    simp only [Attributes.bare?,attributes,value?_cons,value?_append,value?_optional]
    simp
  have uri : r.attributes.quoted? "URI" = some r.uri := by
    simp only [Attributes.quoted?,attributes,value?_cons,value?_append,value?_optional]
    simp
  have answer : decide (some (if r.isDefault then "YES" else "NO").toList = some "YES".toList) = r.isDefault := by
    cases r.isDefault <;> decide
  rw [MediaTag.ofAttributes?,kind,group,default,uri]
  simp only [Option.bind_eq_bind,Option.bind_some,RenditionKind.ofName?_name,answer]
  rfl

theorem Variant.audio_of_attributes (v : Variant) : v.attributes.quoted? "AUDIO" = v.audioGroup := by
  simp only [Attributes.quoted?,attributes,value?_cons,value?_append,value?_optional]
  cases v.audioGroup <;> simp

theorem Variant.tag_of_attributes (v : Variant) : StreamTag.ofAttributes? v.uri.toList v.attributes = some v.tag := by
  have bandwidth : v.attributes.bare? "BANDWIDTH" = some (Nat.toDigits 10 v.bandwidth) := by
    rw [← Nat.toList_repr,← Nat.toString_eq_repr]
    rfl
  have codecs : (v.attributes.quoted? "CODECS").getD "" = v.codecs := by
    simp only [Attributes.quoted?,attributes,value?_cons,value?_append,value?_optional]
    by_cases none : v.codecs = "" <;> simp [none]
  have subtitles : v.attributes.quoted? "SUBTITLES" = v.subtitleGroup := by
    simp only [Attributes.quoted?,attributes,value?_cons,value?_append,value?_optional]
    cases v.subtitleGroup <;> simp
  rw [StreamTag.ofAttributes?,bandwidth,codecs,v.audio_of_attributes,subtitles,String.ofList_toList]
  simp only [Option.bind_eq_bind,Option.bind_some,Text.digits?_toDigits]
  rfl

/-! ### Lines are read back -/

theorem ofLines?_rendition {r : Rendition} (plain : r.tag.IsPlain) (rest : List (List Char)) :
    Listing.ofLines? (r.line.toList :: rest) =
      (Listing.ofLines? rest).map fun l => { l with media := r.tag :: l.media } := by
  have read : (Attributes.ofText? r.attributes.text).bind MediaTag.ofAttributes? = some r.tag := by
    rw [Rendition.attributes,Attributes.ofText?_text (proper_of_named r.named_attributes (r.plain_inQuotes plain.uri))]
    exact r.tag_of_attributes plain
  rw [Listing.ofLines?,r.toList_line,Text.dropStart?_append]
  simp only [read,Option.bind_eq_bind,Option.bind_some]
  exact Option.map_eq_bind.symm

theorem ofLines?_variant {v : Variant} (plain : v.tag.IsPlain) (rest : List (List Char)) :
    Listing.ofLines? (v.line.toList :: v.uri.toList :: rest) =
      (Listing.ofLines? rest).map fun l => { l with streams := v.tag :: l.streams } := by
  have read : (Attributes.ofText? v.attributes.text).bind (StreamTag.ofAttributes? v.uri.toList) = some v.tag := by
    rw [Variant.attributes,Attributes.ofText?_text (proper_of_named v.named_attributes (v.plain_inQuotes plain))]
    exact v.tag_of_attributes
  have other : Text.dropStart? mediaMark.toList (streamMark.toList ++ v.attributes.text) = none := rfl
  rw [Listing.ofLines?,Variant.line,String.toList_ofList,other,Text.dropStart?_append]
  simp only [read,Option.bind_eq_bind,Option.bind_some]
  exact Option.map_eq_bind.symm

theorem ofLines?_renditions {rs : List Rendition} (plain : ∀ r ∈ rs, r.tag.IsPlain) (rest : List (List Char)) :
    Listing.ofLines? (rs.map (·.line.toList) ++ rest) =
      (Listing.ofLines? rest).map fun l => { l with media := rs.map Rendition.tag ++ l.media } := by
  induction rs with
  | nil => exact (congrFun Option.map_id _).symm
  | cons r rs ih =>
    have later := ih fun s member => plain s (List.mem_cons_of_mem r member)
    rw [List.map_cons,List.cons_append,ofLines?_rendition (plain r List.mem_cons_self),later,Option.map_map]
    rfl

theorem ofLines?_variants {vs : List Variant} (plain : ∀ v ∈ vs, v.tag.IsPlain) (rest : List (List Char)) :
    Listing.ofLines? ((vs.flatMap Variant.lines).map String.toList ++ rest) =
      (Listing.ofLines? rest).map fun l => { l with streams := vs.map Variant.tag ++ l.streams } := by
  induction vs with
  | nil => exact (congrFun Option.map_id _).symm
  | cons v vs ih =>
    have later := ih fun w member => plain w (List.mem_cons_of_mem v member)
    rw [List.flatMap_cons,v.lines_eq]
    exact (ofLines?_variant (plain v List.mem_cons_self) _).trans ((congrArg _ later).trans (Option.map_map ..))

theorem toList_joined_cons (line : String) (lines : List String) : (String.join ((line :: lines).map (· ++ "\n"))).toList =
    line.toList ++ '\n' :: (String.join (lines.map (· ++ "\n"))).toList := by
  simp

/-- Lines without line breaks, each ended by one, are taken apart again; after the last of them there is nothing. -/
theorem splitAll_joined {lines : List String} (single : ∀ line ∈ lines, '\n' ∉ line.toList) :
    Text.splitAll '\n' (String.join (lines.map (· ++ "\n"))).toList = lines.map String.toList ++ [[]] := by
  induction lines with
  | nil => rfl
  | cons line lines ih =>
    rw [toList_joined_cons,Text.splitAll_append,Text.splitAll_of_not_mem (single line List.mem_cons_self),
      ih fun other member => single other (List.mem_cons_of_mem line member)]
    rfl

theorem Rendition.count_line (r : Rendition) : r.line.toList.count '\n' = r.attributes.breaks := by
  have mark : mediaMark.toList.count '\n' = 0 := by decide
  rw [toList_line,List.count_append,mark,count_text r.named_attributes,Nat.zero_add]

theorem Variant.count_line (v : Variant) : v.line.toList.count '\n' = v.attributes.breaks := by
  have mark : streamMark.toList.count '\n' = 0 := by decide
  rw [line,String.toList_ofList,List.count_append,mark,count_text v.named_attributes,Nat.zero_add]

theorem Rendition.line_not_mem {r : Rendition} (plain : r.tag.IsPlain) : '\n' ∉ r.line.toList := by
  rw [← List.count_eq_zero,count_line,breaks_eq_zero_iff]
  exact fun text member => (r.plain_inQuotes plain.uri text member).2

theorem Variant.line_not_mem {v : Variant} (plain : v.tag.IsPlain) : '\n' ∉ v.line.toList := by
  rw [← List.count_eq_zero,count_line,breaks_eq_zero_iff]
  exact fun text member => (v.plain_inQuotes plain text member).2

theorem Listing.IsPlain.rendition {p : MasterPlaylist} {r : Rendition} (plain : p.listing.IsPlain)
    (member : r ∈ p.renditions) : r.tag.IsPlain := plain.media r.tag (List.mem_map_of_mem member)

theorem Listing.IsPlain.variant {p : MasterPlaylist} {v : Variant} (plain : p.listing.IsPlain)
    (member : v ∈ p.variants) : v.tag.IsPlain := plain.streams v.tag (List.mem_map_of_mem member)

theorem MasterPlaylist.line_not_mem {p : MasterPlaylist} (plain : p.listing.IsPlain) : ∀ line ∈ p.lines, '\n' ∉ line.toList := by
  intro line member
  rw [lines,List.mem_append,List.mem_append] at member
  obtain (head | rendition) | variant := member
  · revert line
    decide
  · obtain ⟨r,member,rfl⟩ := List.mem_map.mp rendition
    exact r.line_not_mem (plain.rendition member)
  · obtain ⟨v,member,here⟩ := List.mem_flatMap.mp variant
    rw [v.lines_eq,List.mem_cons,List.mem_singleton] at here
    rcases here with rfl | rfl
    · exact v.line_not_mem (plain.variant member)
    · exact (plain.variant member).uri.line

/-- A player reads in the text of a playlist the renditions and variants that it was made of. -/
theorem MasterPlaylist.ofText?_render {p : MasterPlaylist} (plain : p.listing.IsPlain) :
    Listing.ofText? p.render = some p.listing := by
  have lines : p.lines.map String.toList ++ [[]] = ["#EXTM3U","#EXT-X-VERSION:6","#EXT-X-INDEPENDENT-SEGMENTS"].map
      String.toList ++ (p.renditions.map (·.line.toList) ++ ((p.variants.flatMap Variant.lines).map String.toList ++ [[]])) := by
    simp only [MasterPlaylist.lines,List.map_append,List.map_map,List.append_assoc]
    rfl
  have head (rest : List (List Char)) : Listing.ofLines? (["#EXTM3U","#EXT-X-VERSION:6","#EXT-X-INDEPENDENT-SEGMENTS"].map
      String.toList ++ rest) = Listing.ofLines? rest := rfl
  rw [Listing.ofText?,render,splitAll_joined (p.line_not_mem plain),lines,head,ofLines?_renditions fun r => plain.rendition,
    ofLines?_variants fun v => plain.variant]
  simp [Listing.ofLines?,Text.dropStart?,listing,mediaMark,streamMark]

end Playout.Manifest
