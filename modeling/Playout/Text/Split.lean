/-!
# Splitting

Cutting a list at a separator: at the first one (`splitFirst?`), at the last one
(`splitLast?`) and at every one (`splitAll`); removing a fixed beginning or end;
replacing a fixed word.
-/
namespace Playout.Text
variable {α : Type} [DecidableEq α]

/-- The parts before and after the first `sep`, if it occurs. -/
def splitFirst? (sep : α) : List α → Option (List α × List α)
  | [] => none
  | x :: xs =>
    if x = sep then some ([],xs)
    else (splitFirst? sep xs).map fun (before,after) => (x :: before,after)

/-- The parts before and after the last `sep`, if it occurs. -/
def splitLast? (sep : α) : List α → Option (List α × List α)
  | [] => none
  | x :: xs =>
    match splitLast? sep xs with
    | some (before,after) => some (x :: before,after)
    | none => if x = sep then some ([],xs) else none

/-- The parts between the occurrences of `sep`, one more than there are occurrences. -/
def splitAll (sep : α) : List α → List (List α)
  | [] => [[]]
  | x :: xs =>
    if x = sep then [] :: splitAll sep xs
    else
      match splitAll sep xs with
      | [] => [[x]]
      | part :: parts => (x :: part) :: parts

/-- The parts joined again with `sep` between them. -/
def joinWith (sep : List α) : List (List α) → List α
  | [] => []
  | [part] => part
  | part :: parts => part ++ sep ++ joinWith sep parts

/-- The lines of a text, without the ends of lines: a line feed, with or without a carriage return before it. What
    follows the last line feed is a line unless it is empty. -/
def lines (s : List Char) : List (List Char) :=
  let parts := splitAll '\n' s
  let ended := parts.dropLast.map fun line =>
    if line.getLast? = some '\r' then line.dropLast else line
  match parts.getLast? with
  | none | some [] => ended
  | some last => ended ++ [last]

/-- What follows `start`, if the list begins with it. -/
def dropStart? : List α → List α → Option (List α)
  | [], xs => some xs
  | _ :: _, [] => none
  | y :: ys, x :: xs => if x = y then dropStart? ys xs else none

/-- What precedes `tail`, if the list ends with it. -/
def dropEnd? (tail : List α) (xs : List α) : Option (List α) :=
  (dropStart? tail.reverse xs.reverse).map List.reverse

/-- Every occurrence of the non-empty word `first :: rest` replaced by `replacement`, from the left and without
    overlaps. The counter is the number of characters of a replaced occurrence still to skip. -/
def replaceWordFrom (first : α) (rest replacement : List α) : Nat → List α → List α
  | _, [] => []
  | skip + 1, _ :: xs => replaceWordFrom first rest replacement skip xs
  | 0, x :: xs =>
    if x = first ∧ (dropStart? rest xs).isSome then
      replacement ++ replaceWordFrom first rest replacement rest.length xs
    else x :: replaceWordFrom first rest replacement 0 xs

/-- Every occurrence of a word replaced; the empty word replaces nothing. -/
def replaceWord (word replacement xs : List α) : List α :=
  match word with
  | [] => xs
  | first :: rest => replaceWordFrom first rest replacement 0 xs

end Playout.Text
