import Mathlib.Data.List.Induction
import Mathlib.Data.List.TakeDrop
import Playout.Encoder.Progress
import Playout.Proofs.Text.Lossy
import Playout.Proofs.Text.Numeral

/-!
The reports of an encoder tell what its lines say, one report for each line that completes one (`Tells`). Where the
lines come in pieces it does not matter where those end (`flatten_pushAll`), but for one thing: each piece is read as
text on its own. A character that is cut through is not read as itself, and the reports are the same as without the cut
unless it is white space, which would have been dropped.
-/
namespace Playout.Encoder

open Text (Alike IsForeign)

/-! ### What a line says -/

/-- The key and the value of a line. -/
def pair? (line : List Char) : Option (String × List Char) :=
  (Text.splitFirst? '=' (Text.trim line)).map fun (key,value) => (String.ofList (Text.trim key),Text.trim value)

/-- The value of a line that has one of some keys. -/
def valueOf? (keys : List String) (line : List Char) : Option (List Char) :=
  (pair? line).bind fun (key,value) => if key ∈ keys then some value else none

/-- Whether a line completes a report. -/
def completes (line : List Char) : Bool := (valueOf? ["progress"] line).isSome

/-- The report on the lines `block` that the line `last` completes: of several numbers of frames or speeds the last
    stands, readable or not, and of several times the last readable one. -/
def Report.on (block : List (List Char)) (last : List Char) : Report where
  frame := (block.reverse.findSome? (valueOf? ["frame"])).bind (Text.natural? max64)
  micros := block.reverse.findSome? fun line => (valueOf? ["out_time_us","out_time_ms"] line).bind (Text.natural? max64)
  speed := (block.reverse.findSome? (valueOf? ["speed"])).bind fun value => Binary64.read? (Text.trim (dropFactor value))
  isLast := valueOf? ["progress"] last == some "end".toList

/-- The reports are those of the lines: one for each line that completes a report, on the lines since the one before. -/
structure Tells (lines : List (List Char)) (reports : List Report) : Prop where
  count : reports.length = lines.countP completes
  each : ∀ before block last after, lines = before ++ block ++ last :: after →
    (∀ line ∈ before.getLast?, completes line) → (∀ line ∈ block, completes line = false) → completes last →
    reports[before.countP completes]? = some (.on block last)

variable {r : Report} {line : List Char}

/-- The facts after a line with a key and a value, and the report if the line completes one. -/
def Report.heed (r : Report) (key : String) (value : List Char) : Report × Option Report :=
  match key with
  | "frame" => ({ r with frame := Text.natural? max64 value },none)
  | "out_time_us" | "out_time_ms" =>
    match Text.natural? max64 value with
    | some micros => ({ r with micros := some micros },none)
    | none => (r,none)
  | "speed" => ({ r with speed := Binary64.read? (Text.trim (dropFactor value)) },none)
  | "progress" => (.empty,some { r with isLast := value == "end".toList })
  | _ => (r,none)

theorem Report.line_eq (r : Report) (line : List Char) :
    r.line line = (pair? line).elim (r,none) fun (key,value) => r.heed key value := by
  unfold Report.line pair?
  cases Text.splitFirst? '=' (Text.trim line) <;> rfl

/-- A line that completes no report adds to the facts of the lines before it. -/
theorem Report.line_on {block : List (List Char)} (going : completes line = false) :
    (Report.on block []).line line = (.on (block ++ [line]) [],none) := by
  rw [line_eq]
  unfold completes at going
  cases said : pair? line with
  | none => simp [on,valueOf?,said]
  | some pair =>
    obtain ⟨key,value⟩ := pair
    have values (keys : List String) : valueOf? keys line = if key ∈ keys then some value else none := by
      rw [valueOf?,said,Option.bind_some]
    rw [values] at going
    simp only [on,List.reverse_append,List.reverse_singleton,List.singleton_append,List.findSome?_cons,values,
      Option.elim_some,heed]
    split
    · simp
    · cases read : Text.natural? max64 value <;> simp [read]
    · cases read : Text.natural? max64 value <;> simp [read]
    · simp
    · simp at going
    · simp_all

theorem completes_iff : completes line ↔ ∃ value, pair? line = some ("progress",value) := by
  unfold completes valueOf?
  cases pair? line with
  | none => simp
  | some pair => simp [Prod.ext_iff]

/-- A line that completes a report puts the facts of the lines before it into the report and leaves none. -/
theorem Report.line_last {block : List (List Char)} (last : completes line) :
    (Report.on block []).line line = (.empty,some (.on block line)) := by
  obtain ⟨value,said⟩ := completes_iff.mp last
  simp [line_eq,said,heed,on,valueOf?]

/-! ### What lines say together -/

theorem Report.lines_append (r : Report) (lines more : List (List Char)) : r.lines (lines ++ more) =
    (((r.lines lines).1.lines more).1,(r.lines lines).2 ++ ((r.lines lines).1.lines more).2) := by
  induction lines generalizing r with
  | nil => rfl
  | cons line lines ih => simp only [List.cons_append,Report.lines,ih,List.append_assoc]

/-- Lines of which none completes a report. -/
theorem Report.lines_on {block : List (List Char)} (going : ∀ line ∈ block, completes line = false) :
    Report.empty.lines block = (.on block [],[]) := by
  induction block using List.reverseRecOn with
  | nil => rfl
  | append_singleton block line ih =>
    rw [List.forall_mem_append,List.forall_mem_singleton] at going
    rw [lines_append,ih going.1,lines,line_on going.2]
    rfl

theorem Report.line_isSome (r : Report) (line : List Char) : (r.line line).2.isSome = completes line := by
  rw [Bool.eq_iff_iff,completes_iff,line_eq]
  cases pair? line with
  | none => simp
  | some pair =>
    obtain ⟨key,value⟩ := pair
    simp only [Option.elim_some,Option.some.injEq,Prod.mk.injEq,exists_and_left,exists_eq',and_true,heed]
    split
    · simp
    · cases Text.natural? max64 value <;> simp
    · cases Text.natural? max64 value <;> simp
    · simp
    · simp
    · simp_all

theorem Report.length_lines (r : Report) (lines : List (List Char)) :
    (r.lines lines).2.length = lines.countP completes := by
  induction lines generalizing r with
  | nil => rfl
  | cons line lines ih =>
    have here := r.line_isSome line
    simp only [Report.lines,List.length_append,ih,List.countP_cons]
    cases complete : (r.line line).2 <;> simp_all [Nat.add_comm]

/-- After a line that completes a report no facts are left. -/
theorem Report.lines_fresh {lines : List (List Char)} (fresh : ∀ line ∈ lines.getLast?, completes line) :
    (Report.empty.lines lines).1 = .empty := by
  induction lines using List.reverseRecOn with
  | nil => rfl
  | append_singleton lines line _ =>
    obtain ⟨value,said⟩ := completes_iff.mp (fresh line (by simp))
    rw [lines_append,Report.lines,line_eq,said]
    simp [heed,Report.lines]

/-- Read one after the other lines give the reports that tell what they say. -/
theorem tells_lines (lines : List (List Char)) : Tells lines (Report.empty.lines lines).2 where
  count := Report.length_lines .empty lines
  each before block last after split fresh going complete := by
    have length := Report.length_lines .empty before
    rw [split,List.append_assoc,Report.lines_append,Report.lines_fresh fresh,Report.lines_append,Report.lines_on going,
      Report.lines,Report.line_last complete,← length,List.getElem?_append_right (Nat.le_refl _),Nat.sub_self]
    rfl

/-! ### Pieces of text -/

theorem completeLines_append (s t : List Char) : (completeLines (s ++ t)).1 =
    (completeLines s).1 ++ (completeLines ((completeLines s).2 ++ t)).1 := by
  simp only [completeLines]
  rw [Text.splitAll_append_last,List.dropLast_append_of_ne_nil (Text.splitAll_ne_nil _ _)]

theorem not_mem_completeLines {s : List Char} : '\n' ∉ (completeLines s).2 := by
  unfold completeLines
  have last := List.getLast?_eq_some_getLast (Text.splitAll_ne_nil '\n' s)
  dsimp only
  rw [last,Option.getD_some]
  exact Text.not_mem_of_mem_splitAll (List.getLast_mem _)

/-- Where the pieces of a text end makes no difference to the reports on it. -/
theorem ProgressParser.flatten_pushAll (p : ProgressParser) (unbroken : '\n' ∉ p.pending) (chunks : List (List UInt8)) :
    (p.pushAll chunks).flatten =
      (p.current.lines (completeLines (p.pending ++ chunks.flatMap Text.Utf8.decodeLossy)).1).2 := by
  induction chunks generalizing p with
  | nil =>
    rw [List.flatMap_nil,List.append_nil,completeLines,Text.splitAll_of_not_mem unbroken]
    rfl
  | cons chunk chunks ih =>
    rw [pushAll,List.flatten_cons,ih _ not_mem_completeLines,List.flatMap_cons,← List.append_assoc p.pending,
      completeLines_append (p.pending ++ _),Report.lines_append]
    rfl

/-! ### Characters that are cut through -/

variable {s t : List Char}

theorem isDigit_of_foreign {c : Char} (foreign : IsForeign c) : c.isDigit = false := by
  rw [Bool.eq_false_iff,Ne,Char.isDigit_iff_toNat]
  exact fun digit => absurd (Nat.le_trans foreign.wide digit.2) (by decide)

/-- No number has a foreign character in it. -/
theorem digits?_of_foreign (odd : ∃ c ∈ s, IsForeign c) : Text.digits? s = none := by
  obtain ⟨c,member,foreign⟩ := odd
  rw [Text.digits?_eq (List.ne_nil_of_mem member),if_neg]
  intro digits
  exact absurd (List.all_eq_true.mp digits c member) (Bool.eq_false_iff.mp (isDigit_of_foreign foreign))

theorem foreign_of_cons {c : Char} (ascii : c.toNat < 0x80) (odd : ∃ d ∈ c :: s, IsForeign d) : ∃ d ∈ s, IsForeign d := by
  obtain ⟨d,member,foreign⟩ := odd
  rcases List.mem_cons.mp member with rfl | member
  · exact absurd rfl (foreign.ne ascii)
  · exact ⟨d,member,foreign⟩

theorem natural?_of_foreign (greatest : Nat) (odd : ∃ c ∈ s, IsForeign c) : Text.natural? greatest s = none := by
  unfold Text.natural?
  dsimp only
  split
  · rw [digits?_of_foreign (foreign_of_cons (by decide) odd)]
    rfl
  · rw [digits?_of_foreign odd]
    rfl

theorem isWord_of_foreign {word : List Char} (ascii : word.all fun c => c.toNat < 0x80) (odd : ∃ c ∈ s, IsForeign c) :
    Binary64.isWord word s = false := by
  obtain ⟨c,member,foreign⟩ := odd
  have stays : c.toLower = c := by
    unfold Char.toLower
    exact dif_neg fun upper => absurd (Nat.le_trans foreign.wide (UInt32.le_iff_toNat_le.mp upper.2)) (by decide)
  rw [Binary64.isWord,beq_eq_false_iff_ne]
  rintro rfl
  exact foreign.not_mem ascii (stays ▸ List.mem_map_of_mem member)

theorem mantissa?_of_foreign (odd : ∃ c ∈ s, IsForeign c) : Binary64.mantissa? s = none := by
  obtain ⟨c,member,foreign⟩ := odd
  have mixed {digits : List Char} (member : c ∈ digits) :
      ¬ (digits ≠ [] ∧ digits.all fun c => (Text.digitValue? c).isSome) := fun digits => by
    have digit := List.all_eq_true.mp digits.2 c member
    rw [Text.digitValue?_eq,isDigit_of_foreign foreign] at digit
    cases digit
  unfold Binary64.mantissa?
  cases parts : Text.splitFirst? '.' s with
  | none => exact if_neg (mixed (List.mem_append_left [] member))
  | some pair =>
    obtain ⟨whole,fraction⟩ := pair
    rw [Text.eq_append_of_splitFirst? parts] at member
    refine if_neg (mixed ?_)
    rcases List.mem_append.mp member with before | after
    · exact List.mem_append_left _ before
    · exact List.mem_append_right _ (List.mem_of_ne_of_mem (foreign.ne (by decide)) after)

theorem exponent?_of_foreign (odd : ∃ c ∈ s, IsForeign c) : Binary64.exponent? s = none := by
  unfold Binary64.exponent?
  split
  · rw [digits?_of_foreign (foreign_of_cons (by decide) odd)]
    rfl
  · rw [digits?_of_foreign (foreign_of_cons (by decide) odd)]
    rfl
  · rw [digits?_of_foreign odd]
    rfl

theorem splitExponent_of_foreign (odd : ∃ c ∈ s, IsForeign c) : (∃ c ∈ (Binary64.splitExponent s).1, IsForeign c) ∨
    ∃ text, (Binary64.splitExponent s).2 = some text ∧ ∃ c ∈ text, IsForeign c := by
  obtain ⟨c,member,foreign⟩ := odd
  unfold Binary64.splitExponent
  rw [List.span_eq_takeWhile_dropWhile]
  rw [← List.takeWhile_append_dropWhile (p := fun c => c ≠ 'e' && c ≠ 'E') (l := s),List.mem_append] at member
  cases rest : s.dropWhile fun c => c ≠ 'e' && c ≠ 'E' with
  | nil =>
    rw [rest] at member
    exact .inl ⟨c,member.resolve_right nofun,foreign⟩
  | cons mark text =>
    rw [rest] at member
    rcases member with before | after
    · exact .inl ⟨c,before,foreign⟩
    · have marks : mark = 'e' ∨ mark = 'E' := by
        have stops := List.head?_dropWhile_not (fun c => c ≠ 'e' && c ≠ 'E') s
        rw [rest] at stops
        simpa [imp_iff_not_or] using stops
      rcases List.mem_cons.mp after with rfl | inside
      · rcases marks with here | here
        · exact absurd here (foreign.ne (by decide))
        · exact absurd here (foreign.ne (by decide))
      · exact .inr ⟨text,rfl,c,inside,foreign⟩

theorem unsigned?_of_foreign (negative : Bool) (odd : ∃ c ∈ s, IsForeign c) : Binary64.unsigned? negative s = none := by
  unfold Binary64.unsigned?
  rw [isWord_of_foreign (by decide) odd,isWord_of_foreign (by decide) odd,isWord_of_foreign (by decide) odd]
  rcases splitExponent_of_foreign odd with body | ⟨text,mark,exponent⟩
  · simp [mantissa?_of_foreign body]
  · cases mantissa : Binary64.mantissa? (Binary64.splitExponent s).1 with
    | none => simp [mantissa]
    | some mantissa => simp [*,exponent?_of_foreign exponent]

theorem read?_of_foreign (odd : ∃ c ∈ s, IsForeign c) : Binary64.read? s = none := by
  unfold Binary64.read?
  split
  · exact unsigned?_of_foreign true (foreign_of_cons (by decide) odd)
  · exact unsigned?_of_foreign false (foreign_of_cons (by decide) odd)
  · exact unsigned?_of_foreign false odd

/-! ### Texts that differ in foreign characters -/

theorem natural?_alike (greatest : Nat) (alike : Alike s t) : Text.natural? greatest s = Text.natural? greatest t := by
  rcases alike.eq_or_foreign with rfl | ⟨odd,odd'⟩
  · rfl
  · rw [natural?_of_foreign greatest odd,natural?_of_foreign greatest odd']

theorem speed_alike (alike : Alike s t) :
    Binary64.read? (Text.trim (dropFactor s)) = Binary64.read? (Text.trim (dropFactor t)) := by
  have keeps : ∀ c, IsForeign c → (c == 'x') = false := fun c foreign => beq_eq_false_iff_ne.mpr (foreign.ne (by decide))
  have alike : Alike (Text.trim (dropFactor s)) (Text.trim (dropFactor t)) :=
    (alike.reverse.dropWhile keeps).reverse.trim
  rcases alike.eq_or_foreign with same | ⟨odd,odd'⟩
  · rw [same]
  · rw [read?_of_foreign odd,read?_of_foreign odd']

theorem beq_alike {word : List Char} (ascii : word.all fun c => c.toNat < 0x80) (alike : Alike s t) :
    (s == word) = (t == word) := by
  have apart {u : List Char} (odd : ∃ c ∈ u, IsForeign c) : (u == word) = false := by
    obtain ⟨c,member,foreign⟩ := odd
    rw [beq_eq_false_iff_ne]
    rintro rfl
    exact foreign.not_mem ascii member
  rcases alike.eq_or_foreign with rfl | ⟨odd,odd'⟩
  · rfl
  · rw [apart odd,apart odd']

theorem Report.heed_alike (r : Report) (key : String) (alike : Alike s t) : r.heed key s = r.heed key t := by
  unfold heed
  rw [natural?_alike max64 alike,speed_alike alike,beq_alike (by decide) alike]

/-- A key with a foreign character in it is none that is known. -/
theorem Report.heed_of_foreign (r : Report) (odd : ∃ c ∈ s, IsForeign c) (value : List Char) :
    r.heed (String.ofList s) value = (r,none) := by
  have apart {word : String} (same : String.ofList s = word) (ascii : word.toList.all fun c => c.toNat < 0x80) :
      False := by
    obtain ⟨c,member,foreign⟩ := odd
    rw [← same,String.toList_ofList] at ascii
    exact foreign.not_mem ascii member
  unfold heed
  split
  · exact (apart ‹_› (by decide)).elim
  · exact (apart ‹_› (by decide)).elim
  · exact (apart ‹_› (by decide)).elim
  · exact (apart ‹_› (by decide)).elim
  · exact (apart ‹_› (by decide)).elim
  · rfl

theorem Report.line_alike (r : Report) (alike : Alike s t) : r.line s = r.line t := by
  rw [line_eq,line_eq,pair?,pair?]
  have cut := alike.trim.splitFirst? (show '='.toNat < 0x80 by decide)
  generalize Text.splitFirst? '=' (Text.trim s) = parts, Text.splitFirst? '=' (Text.trim t) = parts' at cut
  cases cut with
  | none => rfl
  | some both =>
    simp only [Option.map_some,Option.elim_some]
    rw [r.heed_alike _ both.2.trim]
    rcases both.1.trim.eq_or_foreign with same | ⟨odd,odd'⟩
    · rw [same]
    · rw [r.heed_of_foreign odd,r.heed_of_foreign odd']

theorem Report.lines_alike (r : Report) {lines lines' : List (List Char)} (alike : List.Forall₂ Alike lines lines') :
    r.lines lines = r.lines lines' := by
  induction alike generalizing r with
  | nil => rfl
  | cons here rest ih => simp only [Report.lines,line_alike r here,ih]

theorem completeLines_alike (alike : Alike s t) : List.Forall₂ Alike (completeLines s).1 (completeLines t).1 := by
  have parts := alike.splitAll (show '\n'.toNat < 0x80 by decide)
  rw [completeLines,completeLines,List.dropLast_eq_take,List.dropLast_eq_take,parts.length_eq]
  exact List.forall₂_take _ parts

/-- Bytes that come in pieces give the reports that they give as a whole, unless white space is cut through. -/
theorem Report.lines_decodeLossy (r : Report) (s : List Char) {chunks : List (List UInt8)}
    (spares : Text.Utf8.SparesBlanks chunks) :
    r.lines (completeLines (s ++ Text.Utf8.decodeLossy chunks.flatten)).1 =
      r.lines (completeLines (s ++ chunks.flatMap Text.Utf8.decodeLossy)).1 := by
  induction chunks generalizing s with
  | nil => rfl
  | cons chunk chunks ih =>
    have alike := (Alike.refl s).append (Text.Utf8.alike_decodeLossy_append spares.cons.1)
    rw [List.flatten_cons,r.lines_alike (completeLines_alike alike),List.flatMap_cons,← List.append_assoc,
      ih _ spares.cons.2,List.append_assoc]

/-- The reports on bytes that come in pieces tell what the complete lines of the pieces' texts say. They tell what the
    lines of all bytes say, and are the same for all such pieces, unless white space is cut through. -/
theorem reports_same_unless_blank_is_cut (chunks : List (List UInt8)) :
    Tells (completeLines (chunks.flatMap Text.Utf8.decodeLossy)).1 (ProgressParser.start.pushAll chunks).flatten ∧
      (Text.Utf8.SparesBlanks chunks →
        Tells (completeLines (Text.Utf8.decodeLossy chunks.flatten)).1 (ProgressParser.start.pushAll chunks).flatten ∧
        ∀ chunks', chunks'.flatten = chunks.flatten → Text.Utf8.SparesBlanks chunks' →
          (ProgressParser.start.pushAll chunks').flatten = (ProgressParser.start.pushAll chunks).flatten) := by
  have read (chunks : List (List UInt8)) : (ProgressParser.start.pushAll chunks).flatten =
      (Report.empty.lines (completeLines (chunks.flatMap Text.Utf8.decodeLossy)).1).2 :=
    ProgressParser.flatten_pushAll .start nofun chunks
  have whole {chunks : List (List UInt8)} (spares : Text.Utf8.SparesBlanks chunks) :
      (ProgressParser.start.pushAll chunks).flatten =
        (Report.empty.lines (completeLines (Text.Utf8.decodeLossy chunks.flatten)).1).2 := by
    rw [read]
    exact congrArg Prod.snd (Report.empty.lines_decodeLossy [] spares).symm
  refine ⟨read chunks ▸ tells_lines _,fun spares => ⟨whole spares ▸ tells_lines _,fun chunks' same spares' => ?_⟩⟩
  rw [whole spares',whole spares,same]

/-- A report with a key that is not known, and whose name is not in ASCII. -/
def accentedReport : List UInt8 := Text.Utf8.encode "frame=7\ncapacité=3\nprogress=end\n".toList

/-- The name may be cut through in its last letter. -/
theorem accented_report_cut_anywhere :
    Text.Utf8.SparesBlanks [accentedReport] ∧ Text.Utf8.SparesBlanks [accentedReport.take 16,accentedReport.drop 16] ∧
      (ProgressParser.start.pushAll [accentedReport.take 16,accentedReport.drop 16]).flatten =
        (ProgressParser.start.pushAll [accentedReport]).flatten :=
  have whole : Text.Utf8.SparesBlanks [accentedReport] := by decide
  have cut : Text.Utf8.SparesBlanks [accentedReport.take 16,accentedReport.drop 16] := by decide
  ⟨whole,cut,((reports_same_unless_blank_is_cut [accentedReport]).2 whole).2 _ (by decide) cut⟩

/-- A report with a no-break space after the number of frames. -/
def paddedReport : List UInt8 := Text.Utf8.encode "frame=7\u00A0\nprogress=end\n".toList

/-- Where the space is cut through the number of frames is lost. -/
theorem padded_report_loses_frame : [paddedReport.take 8,paddedReport.drop 8].flatten = [paddedReport].flatten ∧
    (ProgressParser.start.pushAll [paddedReport]).flatten.map Report.frame = [some 7] ∧
    (ProgressParser.start.pushAll [paddedReport.take 8,paddedReport.drop 8]).flatten.map Report.frame = [none] := by
  decide

end Playout.Encoder
