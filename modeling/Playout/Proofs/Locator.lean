import Playout.Locator
import Playout.Proofs.Json.Record
import Playout.Proofs.Path
import Playout.Proofs.Text.Base64Url

/-!
A locator names a file inside the library, in whichever way it was obtained, and it has one text
(`locators_stay_in_the_library`).
-/
namespace Playout
namespace Locator
open Text

/-! ### From a path -/

theorem ofPath_path (l : Locator) : ofPath l.path = .ok l := by
  rw [ofPath,dif_neg l.path_ne_nil,dif_pos l.stays_inside]

theorem path_of_ofPath {path : List Char} {l : Locator} (made : ofPath path = .ok l) : l.path = path := by
  unfold ofPath at made
  split_ifs at made
  cases made
  rfl

theorem ofPath_isOk_iff {path : List Char} : (∃ l, ofPath path = .ok l) ↔ path ≠ [] ∧ Path.IsInside path := by
  rw [← Path.staysInside_iff]
  constructor
  · rintro ⟨l,made⟩
    rw [← path_of_ofPath made]
    exact ⟨l.path_ne_nil,l.stays_inside⟩
  · rintro ⟨nonempty,inside⟩
    exact ⟨⟨path,nonempty,inside⟩,ofPath_path ⟨path,nonempty,inside⟩⟩

/-! ### From a text -/

theorem decodePath?_eq_some_iff {s path : List Char} :
    decodePath? s = some path ↔ s = Base64Url.encode (Utf8.encode path) := by
  rw [decodePath?,Option.bind_eq_some_iff]
  constructor
  · rintro ⟨bytes,base64,utf8⟩
    rw [Base64Url.decode?_eq_some_iff.mp base64,Utf8.decode?_eq_some_iff.mp utf8]
  · rintro rfl
    exact ⟨_,Base64Url.decode?_encode _,Utf8.decode?_encode path⟩

/-- A locator is read from its text alone. -/
theorem parse_eq_ok_iff {s : String} {l : Locator} : parse s = .ok l ↔ s = l.text := by
  constructor
  · intro read
    unfold parse at read
    split at read
    · rename_i path decoded
      rw [text,path_of_ofPath read,← decodePath?_eq_some_iff.mp decoded,String.ofList_toList]
    · cases read
  · rintro rfl
    have decoded : decodePath? l.text.toList = some l.path := by
      rw [decodePath?_eq_some_iff,text,String.toList_ofList]
    rw [parse,decoded]
    exact ofPath_path l

/-- What is read is the canonical base64 of the UTF-8 of a path inside the library. -/
theorem parse_isOk_iff {s : String} :
    (∃ l, parse s = .ok l) ↔ ∃ path bytes, Base64Url.Spells s.toList bytes ∧ bytes.toByteArray = path.utf8Encode ∧
      path ≠ [] ∧ Path.IsInside path := by
  constructor
  · rintro ⟨l,read⟩
    obtain rfl := parse_eq_ok_iff.mp read
    refine ⟨l.path,Utf8.encode l.path,?_,Utf8.encode_eq l.path,l.path_ne_nil,Path.staysInside_iff.mp l.stays_inside⟩
    rw [text,String.toList_ofList]
    exact Base64Url.spells_encode _
  · rintro ⟨path,bytes,base64,utf8,nonempty,inside⟩
    obtain ⟨l,made⟩ := ofPath_isOk_iff.mpr ⟨nonempty,inside⟩
    refine ⟨l,parse_eq_ok_iff.mpr ?_⟩
    have same : bytes = Utf8.encode path := List.toByteArray_inj.mp (utf8.trans (Utf8.encode_eq path).symm)
    rw [text,path_of_ofPath made,← same,← Base64Url.spells_iff.mp base64,String.ofList_toList]

/-! ### From JSON -/

theorem ofJson?_eq_some_iff {s : List Char} {l : Locator} :
    ofJson? (.string (some s)) = some l ↔ parse (String.ofList s) = .ok l := by
  change (parse (String.ofList s)).toOption = some l ↔ _
  cases parse (String.ofList s) <;> simp [Except.toOption]

theorem ofJson?_text (l : Locator) : ofJson? (.text l.text) = some l :=
  ofJson?_eq_some_iff.mpr (parse_eq_ok_iff.mpr String.ofList_toList)

end Locator

namespace StreamKey
open Text

/-- The fields of the record of a key. -/
def fields : List Json.Field := [⟨"file_locator",.required⟩,⟨"stream_index",.required⟩]

theorem read?_toJson (key : StreamKey) : Json.read? (Utf8.encode key.toJson.render) = some key.toJson := by
  refine Json.read?_render (Json.proper_record fun p member => ?_)
  simp only [List.mem_cons,List.not_mem_nil,or_false] at member
  rcases member with rfl | rfl
  · exact .string _
  · exact Json.proper_nat key.index

theorem ofJson?_toJson {key : StreamKey} (small : key.index ≤ max32) : ofJson? key.toJson = some key := by
  have read := Json.fields?_of_states fields rfl (by simp)
    (Json.states_record [("file_locator",.text key.locator.text),("stream_index",.nat key.index)])
  have index : (Json.nat key.index).nat? max32 = some key.index :=
    Json.nat?_nat small (small.trans (by decide))
  unfold ofJson? toJson
  rw [fields] at read
  simp only [read,List.map_cons,List.map_nil,Option.bind_eq_bind,Option.bind_some,Json.must,Locator.ofJson?_text,index]

/-- A key that is read has its locator from the text of one of its members. -/
theorem parse_of_ofJson? {j : Json} {key : StreamKey} (read : ofJson? j = some key) :
    ∃ s index, j.fields? fields = some [some (.string (some s)),index] ∧
      Locator.parse (String.ofList s) = .ok key.locator := by
  unfold ofJson? at read
  simp only [Option.bind_eq_bind,Option.bind_eq_some_iff] at read
  obtain ⟨values,members,read⟩ := read
  split at read
  · rename_i locator index
    simp only [Option.bind_eq_some_iff,Option.some.injEq] at read
    obtain ⟨l,found,_,_,rfl⟩ := read
    obtain ⟨text,rfl,found⟩ : ∃ text, locator = some text ∧ Locator.ofJson? text = some l :=
      Option.bind_eq_some_iff.mp found
    obtain ⟨s,known,_⟩ : ∃ s, text.text? = some s ∧ _ := Option.bind_eq_some_iff.mp found
    obtain rfl : text = .string (some s) := by
      unfold Json.text? at known
      split at known
      · rw [known]
      · cases known
    exact ⟨s,index,members,Locator.ofJson?_eq_some_iff.mp found⟩
  · cases read

end StreamKey

/-- The ways to a locator, each with the text that the locator then has: from a path, from the text itself, and from
    JSON, alone or in the record of a stream's key. -/
inductive Locator.Obtained (l : Locator) : String → Prop
  | path {path : List Char} (made : ofPath path = .ok l) :
      Obtained l (String.ofList (Text.Base64Url.encode (Text.Utf8.encode path)))
  | text {s : String} (read : parse s = .ok l) : Obtained l s
  | json {bytes : List UInt8} {s : List Char} (value : Json.read? bytes = some (.string (some s)))
      (read : ofJson? (.string (some s)) = some l) : Obtained l (String.ofList s)
  | key {bytes : List UInt8} {j : Json} {s : List Char} {index : Option Json} {key : StreamKey}
      (value : Json.read? bytes = some j) (members : j.fields? StreamKey.fields = some [some (.string (some s)),index])
      (read : StreamKey.ofJson? j = some key) (same : key.locator = l) : Obtained l (String.ofList s)

theorem Locator.parse_of_obtained {l : Locator} {s : String} (obtained : Obtained l s) : parse s = .ok l := by
  cases obtained with
  | path made =>
    refine parse_eq_ok_iff.mpr ?_
    rw [Locator.text,path_of_ofPath made]
  | text read => exact read
  | json value read => exact ofJson?_eq_some_iff.mp read
  | key value members read same =>
    obtain ⟨s',_,members',parsed⟩ := StreamKey.parse_of_ofJson? read
    rw [members] at members'
    cases members'
    exact same ▸ parsed

/-- However a locator was obtained, its text is decoded, and the way to its file from any directory is the way to the
    directory and then that of its path, which never goes up. It has the path that it was made of and one text, the
    canonical base64 of its path; the key of a stream is the same after a way through JSON. -/
theorem locators_stay_in_the_library :
    (∀ (l : Locator) (s : String), l.Obtained s → Locator.parse s = .ok l ∧
      (∀ root, Path.steps (l.resolve root) = Path.steps root ++ Path.steps l.path) ∧
      ∀ c ∈ Path.components l.path, c.Descends) ∧
    (∀ path l, Locator.ofPath path = .ok l → l.path = path ∧ Locator.parse l.text = .ok l) ∧
    (∀ s, (∃ l, Locator.parse s = .ok l) ↔ ∃ path bytes, Text.Base64Url.Spells s.toList bytes ∧
      bytes.toByteArray = path.utf8Encode ∧ path ≠ [] ∧ Path.IsInside path) ∧
    (∀ s l, Locator.parse s = .ok l → (Locator.ofPath l.path).map Locator.text = .ok s) ∧
    ∀ key : StreamKey, key.index ≤ max32 →
      (Json.read? (Text.Utf8.encode key.toJson.render)).bind StreamKey.ofJson? = some key := by
  refine ⟨?_,?_,fun s => Locator.parse_isOk_iff,?_,?_⟩
  · intro l s obtained
    have inside := Path.staysInside_iff.mp l.stays_inside
    exact ⟨Locator.parse_of_obtained obtained,Path.steps_join inside.relative,Path.descends_of_isInside inside⟩
  · exact fun path l made => ⟨Locator.path_of_ofPath made,Locator.parse_eq_ok_iff.mpr rfl⟩
  · intro s l read
    rw [Locator.ofPath_path,Locator.parse_eq_ok_iff.mp read]
    rfl
  · intro key small
    rw [StreamKey.read?_toJson,Option.bind_some,StreamKey.ofJson?_toJson small]

def episode : Locator := ⟨"./shows//s01/e01.mkv".toList,by decide,by decide⟩

theorem episode_stays_in_the_library :
    Path.steps (episode.resolve "/srv/media/".toList) = Path.steps "/srv/media/".toList ++ Path.steps episode.path ∧
      (Json.read? (Text.Utf8.encode (StreamKey.toJson ⟨episode,1⟩).render)).bind StreamKey.ofJson? =
        some ⟨episode,1⟩ := by
  obtain ⟨stays,_,_,_,survives⟩ := locators_stay_in_the_library
  exact ⟨(stays episode _ (.path (Locator.ofPath_path episode))).2.1 _,survives ⟨episode,1⟩ (by decide)⟩

end Playout
