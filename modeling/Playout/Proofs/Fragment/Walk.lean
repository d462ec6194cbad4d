import Mathlib.Data.List.Chain
import Playout.Proofs.Fragment.Boxes
import Playout.Text.Numeral

/-!
A walk over boxes is safe whatever the bytes say. It is followed here with reads that fail outside of the file and sums
that fail past sixty-four bits (`checkedBoxAt?`), call by call and without a bound on their number (`Walk`). No read and
no sum fails, every box takes eight bytes at least of what is left, and the walk comes to the boxes of `boxes`. Where it
stops is told from the header there (`IsMalformed`).
-/
namespace Playout.Fragment

variable {file : Array UInt8} {b : Box} {offset start limit stop size headerSize : Nat} {found : List Box}

/-! ### Reads and sums that can fail -/

/-- A number as a word of sixty-four bits; none if it has more. -/
def word? (n : Nat) : Option Nat := if n ≤ max64 then some n else none

/-- The bytes of a file between two offsets; none if they are not in order or not in the file. -/
def window? (file : Array UInt8) (offset limit : Nat) : Option (List UInt8) :=
  if offset ≤ limit ∧ limit ≤ file.size then some (slice file offset (limit - offset)) else none

/-- The next bytes of a window and those behind them; none if there are fewer. -/
def take? (count : Nat) (window : List UInt8) : Option (List UInt8 × List UInt8) :=
  if count ≤ window.length then some (window.take count,window.drop count) else none

/-- A box with a given extent, none if that is less than its header or more than is left before the limit. A sum that
    has more than sixty-four bits is more than is left. -/
def fitted? (type : List UInt8) (offset limit size headerSize : Nat) : Option Box :=
  if size < headerSize then none
  else
    match word? (offset + size) with
    | none => none
    | some next => if limit < next then none else some ⟨type,offset,size,headerSize⟩

/-- The box at an offset, found by reads and sums of which none may fail. -/
def checkedBoxAt? (file : Array UInt8) (offset limit : Nat) : Option (Option Box) := do
  let header ← word? (offset + 8)
  if limit < header ∨ file.size < limit then return none
  let window ← window? file offset limit
  let (length,window) ← take? 4 window
  let (type,window) ← take? 4 window
  match bigEndian length with
  | 0 => return fitted? type offset limit (limit - offset) 8
  | 1 =>
    if window.length < 8 then return none
    let (long,_) ← take? 8 window
    return fitted? type offset limit (bigEndian long) 16
  | size => return fitted? type offset limit size 8

theorem length_slice (inside : offset + size ≤ file.size) : (slice file offset size).length = size := by
  rw [slice,Array.length_toList,Array.size_extract]
  omega

/-- Reading at the front of a window moves the window on. -/
theorem take?_slice {count total : Nat} (inside : offset + total ≤ file.size) (room : count ≤ total) :
    take? count (slice file offset total) =
      some (slice file offset count,slice file (offset + count) (total - count)) := by
  have front : (slice file offset total).take count = slice file offset count := by
    apply List.ext_getElem?
    intro k
    rw [List.getElem?_take,getElem?_slice,getElem?_slice]
    by_cases before : k < count
    · simp [before,Nat.lt_of_lt_of_le before room]
    · simp [before]
  have back : (slice file offset total).drop count = slice file (offset + count) (total - count) := by
    apply List.ext_getElem?
    intro k
    rw [List.getElem?_drop,getElem?_slice,getElem?_slice,Nat.add_assoc]
    by_cases before : count + k < total
    · rw [if_pos before,if_pos (by omega)]
    · rw [if_neg before,if_neg (by omega)]
  rw [take?,if_pos (by rwa [length_slice inside]),front,back]

theorem fitted?_eq (type : List UInt8) (bounded : limit ≤ max64) : fitted? type offset limit size headerSize =
    if size < headerSize ∨ limit < offset + size then none else some ⟨type,offset,size,headerSize⟩ := by
  by_cases small : size < headerSize
  · simp [fitted?,small]
  · by_cases word : offset + size ≤ max64
    · simp [fitted?,word?,small,word]
    · have past : limit < offset + size := by omega
      simp [fitted?,word?,small,word,past]

/-- In a range of sixty-four bits no read fails, and no sum but the one that tells whether a header would be in it. -/
theorem checkedBoxAt?_eq_some (bounded : limit ≤ max64) {box : Option Box} :
    checkedBoxAt? file offset limit = some box ↔ offset + 8 ≤ max64 ∧ boxAt? file offset limit = box := by
  by_cases word : offset + 8 ≤ max64
  · have checked : checkedBoxAt? file offset limit = some (boxAt? file offset limit) := by
      by_cases short : limit < offset + 8 ∨ file.size < limit
      · simp [checkedBoxAt?,boxAt?,word?,word,short]
      · have window : window? file offset limit = some (slice file offset (limit - offset)) := if_pos (by omega)
        have length : take? 4 (slice file offset (limit - offset)) =
            some (slice file offset 4,slice file (offset + 4) (limit - offset - 4)) := take?_slice (by omega) (by omega)
        have type : take? 4 (slice file (offset + 4) (limit - offset - 4)) =
            some (slice file (offset + 4) 4,slice file (offset + 8) (limit - offset - 4 - 4)) :=
          take?_slice (by omega) (by omega)
        have left : (slice file (offset + 8) (limit - offset - 4 - 4)).length = limit - offset - 4 - 4 :=
          length_slice (by omega)
        simp only [checkedBoxAt?,boxAt?,extent?,word?,word,short,window,length,type,left,if_true,if_false,
          Option.bind_eq_bind,Option.bind_some,Option.pure_def,fitted?_eq _ bounded]
        generalize bigEndian (slice file offset 4) = declared
        obtain rfl | rfl | more : declared = 0 ∨ declared = 1 ∨ 2 ≤ declared := by omega
        · simp
        · by_cases room : limit < offset + 16
          · have few : limit - offset - 4 - 4 < 8 := by omega
            simp [room,few]
          · have enough : ¬ limit - offset - 4 - 4 < 8 := by omega
            have long : take? 8 (slice file (offset + 8) (limit - offset - 4 - 4)) =
                some (slice file (offset + 8) 8,slice file (offset + 16) (limit - offset - 4 - 4 - 8)) :=
              take?_slice (by omega) (by omega)
            simp [room,enough,long]
        · obtain ⟨rest,rfl⟩ := Nat.exists_eq_add_of_le' more
          simp
    rw [checked]
    simp [word]
  · simp [checkedBoxAt?,word?,word]

/-! ### Headers -/

/-- The length of a box and that of its header as a whole header gives them: zero for everything up to the limit, and
    one for a length of sixty-four bits behind the type. -/
inductive Declares (file : Array UInt8) (offset limit : Nat) : Nat → Nat → Prop
  | toLimit (room : offset + 8 ≤ limit) (zero : bigEndian (slice file offset 4) = 0) :
      Declares file offset limit (limit - offset) 8
  | long (room : offset + 16 ≤ limit) (one : bigEndian (slice file offset 4) = 1) :
      Declares file offset limit (bigEndian (slice file (offset + 8) 8)) 16
  | short (room : offset + 8 ≤ limit) (more : 2 ≤ bigEndian (slice file offset 4)) :
      Declares file offset limit (bigEndian (slice file offset 4)) 8

/-- A header that is there but not that of a box: it is cut off by the limit, its box is shorter than it, or longer than
    what is left before the limit. At the limit itself no header is left that could be malformed. -/
inductive IsMalformed (file : Array UInt8) (offset limit : Nat) : Prop
  | truncated (left : offset ≠ limit) (cut : limit < offset + 8)
  | truncatedLong (room : offset + 8 ≤ limit) (one : bigEndian (slice file offset 4) = 1) (cut : limit < offset + 16)
  | smaller {size headerSize : Nat} (declared : Declares file offset limit size headerSize) (less : size < headerSize)
  | longer {size headerSize : Nat} (declared : Declares file offset limit size headerSize) (past : limit < offset + size)

theorem Declares.room (declared : Declares file offset limit size headerSize) : offset + 8 ≤ limit := by
  cases declared <;> omega

theorem Declares.long_room (declared : Declares file offset limit size headerSize)
    (one : bigEndian (slice file offset 4) = 1) : offset + 16 ≤ limit := by
  cases declared <;> omega

theorem Declares.unique {size' headerSize' : Nat} (declared : Declares file offset limit size headerSize)
    (declared' : Declares file offset limit size' headerSize') : size = size' ∧ headerSize = headerSize' := by
  cases declared <;> cases declared' <;> omega

theorem IsMalformed.ne_limit (malformed : IsMalformed file offset limit) : offset ≠ limit := by
  cases malformed with
  | truncated left => exact left
  | truncatedLong room => omega
  | smaller declared | longer declared =>
    have room := declared.room
    omega

/-- With room for a header, the extent of a box is what a whole one gives. -/
theorem extent?_eq_some (room : offset + 8 ≤ limit) : extent? file offset limit = some (size,headerSize) ↔
    Declares file offset limit size headerSize := by
  constructor
  · intro extent
    rw [extent?] at extent
    split at extent
    case h_1 zero =>
      cases extent
      exact .toLimit room zero
    case h_2 one =>
      split at extent
      case isTrue => cases extent
      case isFalse whole =>
        cases extent
        exact .long (Nat.le_of_not_lt whole) one
    case h_3 zero one =>
      cases extent
      exact .short room ((Nat.two_le_iff _).mpr ⟨zero,one⟩)
  · intro declared
    cases declared with
    | toLimit _ zero => simp [extent?,zero]
    | long whole one => simp [extent?,one,Nat.not_lt.mpr whole]
    | short _ more =>
      rw [extent?]
      split <;> first | omega | rfl

/-- A box that is found has the extent that its header declares. -/
theorem declares_of_found (found : boxAt? file offset limit = some b) :
    b.offset = offset ∧ b.Fits limit ∧ limit ≤ file.size ∧ Declares file offset limit b.size b.headerSize := by
  obtain ⟨rfl,fits,inside,extent⟩ := boxAt?_eq_some found
  have forward := fits.dataOffset_le
  have before := fits.inside
  exact ⟨rfl,fits,inside,(extent?_eq_some (by omega)).mp extent⟩

/-- In a range of the file a box is missing at the limit and where the header is malformed, and nowhere else. -/
theorem boxAt?_eq_none (inside : limit ≤ file.size) :
    boxAt? file offset limit = none ↔ offset = limit ∨ IsMalformed file offset limit := by
  constructor
  · intro missing
    by_cases short : limit < offset + 8
    · by_cases left : offset = limit
      · exact .inl left
      · exact .inr (.truncated left short)
    · have room : ¬ (limit < offset + 8 ∨ file.size < limit) := by omega
      have header : offset + 8 ≤ limit := Nat.le_of_not_lt short
      rw [boxAt?,if_neg room] at missing
      split at missing
      case h_1 none =>
        rw [extent?] at none
        split at none
        case h_2 one =>
          split at none
          case isTrue cut => exact .inr (.truncatedLong header one cut)
          case isFalse => cases none
        all_goals cases none
      case h_2 size headerSize extent =>
        have declared := (extent?_eq_some header).mp extent
        split at missing
        case isTrue misfit => exact .inr (misfit.elim (.smaller declared) (.longer declared))
        case isFalse => cases missing
  · intro malformed
    rw [Option.eq_none_iff_forall_ne_some]
    intro b found
    obtain ⟨rfl,fits,_,declared⟩ := declares_of_found found
    have room := declared.room
    have longer := fits.longer
    have inside := fits.inside
    rw [Box.next] at inside
    rcases malformed with rfl | malformed
    · omega
    · cases malformed with
      | truncated left cut => omega
      | truncatedLong room one cut =>
        have whole := declared.long_room one
        omega
      | smaller declared' less =>
        obtain ⟨rfl,rfl⟩ := declared.unique declared'
        omega
      | longer declared' past =>
        obtain ⟨rfl,rfl⟩ := declared.unique declared'
        omega

/-- A box that the checked reads find is the one that a well-formed header declares. -/
theorem found_of_checked (bounded : limit ≤ max64) (box : checkedBoxAt? file offset limit = some (some b)) :
    b.offset = offset ∧ b.Fits limit ∧ limit ≤ file.size ∧ Declares file offset limit b.size b.headerSize ∧
      ¬ IsMalformed file offset limit := by
  have found := ((checkedBoxAt?_eq_some bounded).mp box).2
  obtain ⟨at_offset,fits,inside,declared⟩ := declares_of_found found
  refine ⟨at_offset,fits,inside,declared,?_⟩
  intro malformed
  rw [(boxAt?_eq_none inside).mpr (.inr malformed)] at found
  cases found

/-! ### The walk -/

/-- What calling for one box after another comes to, the next one where the last one ends: the boxes and the offset
    where there is none. -/
inductive Walk (file : Array UInt8) (limit : Nat) : Nat → List Box → Nat → Prop
  | ends {offset : Nat} (none : checkedBoxAt? file offset limit = some .none) : Walk file limit offset [] offset
  | finds {offset stop : Nat} {b : Box} {rest : List Box} (box : checkedBoxAt? file offset limit = some (some b))
      (later : Walk file limit b.next rest stop) : Walk file limit offset (b :: rest) stop

/-- What a file and the bounds of a walk need to be addressed by words of sixty-four bits: a file in memory takes less
    than half of the addresses, and a first header would end within them. -/
structure IsAddressable (file : Array UInt8) (start limit : Nat) : Prop where
  file : (file.size : Int) ≤ maxSigned64
  limit : limit ≤ max64
  start : start + 8 ≤ max64

/-- The next box is looked for at an address, too. -/
theorem IsAddressable.next (addressable : IsAddressable file start limit) (fits : b.Fits limit)
    (inside : limit ≤ file.size) : IsAddressable file b.next limit where
  file := addressable.file
  limit := addressable.limit
  start := by
    have small := addressable.file
    have before := fits.inside
    rw [maxSigned64] at small
    rw [max64]
    omega

/-- No bound on the number of calls is needed for the boxes of a walk: when as many were found as have room, none is
    left. -/
theorem exists_walk (fuel : Nat) (addressable : IsAddressable file start limit)
    (enough : limit - start < 8 * (fuel + 1)) :
    ∃ stop, Walk file limit start (walk file limit fuel start) stop := by
  induction fuel generalizing start with
  | zero =>
    have none : boxAt? file start limit = none := if_pos (by omega)
    exact ⟨start,.ends ((checkedBoxAt?_eq_some addressable.limit).mpr ⟨addressable.start,none⟩)⟩
  | succ fuel ih =>
    rw [walk]
    cases box : boxAt? file start limit with
    | none => exact ⟨start,.ends ((checkedBoxAt?_eq_some addressable.limit).mpr ⟨addressable.start,box⟩)⟩
    | some b =>
      obtain ⟨at_start,fits,inside,_⟩ := boxAt?_eq_some box
      have forward := fits.dataOffset_le
      obtain ⟨stop,later⟩ := ih (addressable.next fits inside) (by omega)
      exact ⟨stop,.finds ((checkedBoxAt?_eq_some addressable.limit).mpr ⟨addressable.start,box⟩) later⟩

namespace Walk

/-- A walk can go in one way only. -/
theorem unique {found' : List Box} {stop' : Nat} (walked : Walk file limit start found stop)
    (walked' : Walk file limit start found' stop') : found' = found ∧ stop' = stop := by
  induction walked generalizing found' stop' with
  | ends none =>
    cases walked' with
    | ends => exact ⟨rfl,rfl⟩
    | finds box => rw [none] at box; cases box
  | finds box later ih =>
    cases walked' with
    | ends none => rw [none] at box; cases box
    | finds box' later' =>
      rw [box] at box'
      cases box'
      obtain ⟨rfl,rfl⟩ := ih later'
      exact ⟨rfl,rfl⟩

variable (walked : Walk file limit start found stop) (bounded : limit ≤ max64)
include walked bounded

/-- Every box takes eight bytes at least of what is left. -/
theorem count : 8 * found.length ≤ limit - start := by
  induction walked with
  | ends => simp
  | finds box later ih =>
    obtain ⟨rfl,fits,_⟩ := found_of_checked bounded box
    have forward := fits.dataOffset_le
    have inside := fits.inside
    rw [List.length_cons]
    omega

theorem within : stop ≤ max start limit := by
  induction walked with
  | ends => exact Nat.le_max_left _ _
  | finds box later ih =>
    obtain ⟨_,fits,_⟩ := found_of_checked bounded box
    have inside := fits.inside
    omega

theorem first : ∀ b ∈ found.head?, b.offset = start := by
  cases walked with
  | ends => simp
  | finds box later =>
    obtain ⟨at_start,_⟩ := found_of_checked bounded box
    simpa using at_start

theorem following : found.IsChain fun b c => c.offset = b.next := by
  induction walked with
  | ends => exact List.isChain_nil
  | finds box later ih => exact List.isChain_cons.mpr ⟨later.first bounded,ih⟩

omit bounded in
theorem last : stop = (found.getLast?.map Box.next).getD start := by
  induction walked with
  | ends => rfl
  | @finds _ _ b rest box later ih =>
    rw [ih,List.getLast?_cons]
    cases rest.getLast? <;> rfl

theorem fits : ∀ b ∈ found, b.Fits limit ∧ Declares file b.offset limit b.size b.headerSize ∧
    ¬ IsMalformed file b.offset limit := by
  induction walked with
  | ends => simp
  | finds box later ih =>
    obtain ⟨rfl,fits,_,header⟩ := found_of_checked bounded box
    exact List.forall_mem_cons.mpr ⟨⟨fits,header⟩,ih⟩

theorem stops (inside : limit ≤ file.size) : stop ≠ limit ↔ IsMalformed file stop limit := by
  induction walked with
  | ends none =>
    have missing := (boxAt?_eq_none inside).mp ((checkedBoxAt?_eq_some bounded).mp none).2
    exact ⟨missing.resolve_left,IsMalformed.ne_limit⟩
  | finds box later ih => exact ih

theorem missing (outside : file.size < limit) : found = [] ∧ stop = start := by
  cases walked with
  | ends => exact ⟨rfl,rfl⟩
  | finds box later =>
    obtain ⟨_,_,inside,_⟩ := found_of_checked bounded box
    omega

end Walk

/-- A walk that is safe, with the boxes that it comes to and the offset where it stops. -/
structure IsSafeWalk (file : Array UInt8) (start limit : Nat) (found : List Box) (stop : Nat) : Prop where
  /-- With reads that fail outside of the file and sums that fail past sixty-four bits it comes to these boxes, and to
      no others. -/
  walks : Walk file limit start found stop
  only : ∀ found' stop', Walk file limit start found' stop' → found' = found ∧ stop' = stop
  count : found.length ≤ (limit - start) / 8
  /-- Each box begins where the one before it ends, and the walk stops behind the last. -/
  first : ∀ b ∈ found.head?, b.offset = start
  following : found.IsChain fun b c => c.offset = b.next
  last : stop = (found.getLast?.map Box.next).getD start
  /-- A box is as long as its header says, has room for its header and ends before the limit. -/
  fits : ∀ b ∈ found, b.Fits limit ∧ Declares file b.offset limit b.size b.headerSize ∧
    ¬ IsMalformed file b.offset limit
  /-- In a range of the file the walk goes on to the first malformed header, and to the limit if there is none. -/
  stops : limit ≤ file.size → (stop ≠ limit ↔ IsMalformed file stop limit)
  within : stop ≤ max start limit
  /-- In a range that goes on behind the file nothing is found. -/
  missing : file.size < limit → found = [] ∧ stop = start

/-- Whatever the bytes of a file are and wherever the range is, a walk over its boxes is safe. -/
theorem walking_boxes_is_safe (addressable : IsAddressable file start limit) :
    ∃ stop, IsSafeWalk file start limit (boxes file start limit) stop := by
  obtain ⟨stop,walked⟩ := exists_walk ((limit - start) / 8) addressable (by omega)
  have bounded := addressable.limit
  exact ⟨stop,{
    walks := walked
    only := fun found' stop' walked' => walked.unique walked'
    count := (Nat.le_div_iff_mul_le (by decide)).mpr (Nat.mul_comm _ _ ▸ walked.count bounded)
    first := walked.first bounded
    following := walked.following bounded
    last := walked.last
    fits := walked.fits bounded
    stops := walked.stops bounded
    within := walked.within bounded
    missing := walked.missing bounded }⟩

/-- A box whose length is written in sixty-four bits, and one that claims nearly `2 ^ 64` bytes. -/
def overlongFile : Array UInt8 :=
  #[0,0,0,1,0x66,0x72,0x65,0x65,0,0,0,0,0,0,0,16,0,0,0,1,0x6D,0x64,0x61,0x74,255,255,255,255,255,255,255,255]

/-- The walk stops behind the first box, at the header of the second one. -/
theorem overlong_box_ends_walk : IsAddressable overlongFile 0 32 ∧
    boxes overlongFile 0 32 = [⟨[0x66,0x72,0x65,0x65],0,16,16⟩] ∧
    IsSafeWalk overlongFile 0 32 (boxes overlongFile 0 32) 16 ∧ IsMalformed overlongFile 16 32 := by
  have addressable : IsAddressable overlongFile 0 32 := ⟨by decide,by decide,by decide⟩
  have known : boxes overlongFile 0 32 = [⟨[0x66,0x72,0x65,0x65],0,16,16⟩] := by decide
  obtain ⟨stop,safe⟩ := walking_boxes_is_safe addressable
  obtain rfl : stop = 16 := by
    rw [safe.last,known]
    rfl
  exact ⟨addressable,known,safe,(safe.stops (by decide)).mp (by decide)⟩

/-- One box that fills its file. -/
def wholeFile : Array UInt8 := #[0,0,0,16,0x66,0x72,0x65,0x65,0,0,0,0,0,0,0,0]

/-- Its header is whole and it ends before the limit, but a range that goes on behind the file is not walked at all: the
    walk stops before it. -/
theorem whole_box_in_overlong_range_is_left_out : boxes wholeFile 0 16 = [⟨[0x66,0x72,0x65,0x65],0,16,8⟩] ∧
    Walk wholeFile 20 0 (boxes wholeFile 0 20) 0 ∧ ¬ (0 = 20 ∨ IsMalformed wholeFile 0 20) := by
  have length : bigEndian (slice wholeFile 0 4) = 16 := by decide
  refine ⟨by decide,.ends (by decide),?_⟩
  rintro (same | malformed)
  · cases same
  · cases malformed with
    | truncated short => omega
    | truncatedLong one short => omega
    | smaller declared less => cases declared <;> omega
    | longer declared past => cases declared <;> omega

end Playout.Fragment
