import Playout.Shell.Token

/-!
# Reading scripts

Commands from tokens, by descent. The words that open and close commands mean
this only where a command may begin.
-/
namespace Playout.Shell

def keyword? : Token → Option String
  | .word [.text s false] => some (String.ofList s)
  | _ => none

def closers : List String := ["then","else","elif","fi","do","done","esac","\x7d"]

def isClosed : List Token → Bool
  | [] => true
  | .operator ")" :: _ => true
  | .operator ";;" :: _ => true
  | t :: _ =>
    match keyword? t with
    | some text => closers.contains text
    | none => false

def skipLines (ts : List Token) : List Token := ts.dropWhile (· == .line)

def afterKeyword? (text : String) : List Token → Option (List Token)
  | t :: ts => if keyword? t = some text then some ts else none
  | [] => none

def afterOperator? (text : String) : List Token → Option (List Token)
  | t :: ts => if t = .operator text then some ts else none
  | [] => none

def redirection? (channel : Option Nat) (operator : String) (target : Word) : Option Redirection :=
  let copied := match target with
    | [.text s false] => Text.digits? s
    | _ => none
  match operator with
  | ">" | ">|" => some ⟨channel.getD 1,.write target false⟩
  | ">>" => some ⟨channel.getD 1,.write target true⟩
  | "<" => some ⟨channel.getD 0,.read target⟩
  | ">&" => copied.map fun n => ⟨channel.getD 1,.copy n⟩
  | "<&" => copied.map fun n => ⟨channel.getD 0,.copy n⟩
  | _ => none

def redirections? : List Token → Option (List Redirection × List Token)
  | .redirect channel operator :: .word target :: ts => do
    let first ← redirection? channel operator target
    let (rest,ts) ← redirections? ts
    some (first :: rest,ts)
  | .redirect .. :: _ => none
  | ts => some ([],ts)

def assignment? (w : Word) : Option (List Char × Word) :=
  match w with
  | .text s false :: pieces =>
    match Text.splitFirst? '=' s with
    | some (name,value) =>
      if isName name then
        some (name,(if value = [] then [] else [.text value false]) ++ pieces)
      else none
    | none => none
  | _ => none

def simple? (assignments : List (List Char × Word)) (words : List Word) (redirections : List Redirection) :
    List Token → Option (Command × List Token)
  | .word w :: ts =>
    match words, assignment? w with
    | [], some a => simple? (assignments ++ [a]) words redirections ts
    | _, _ => simple? assignments (words ++ [w]) redirections ts
  | .redirect channel operator :: .word target :: ts => do
    simple? assignments words (redirections ++ [← redirection? channel operator target]) ts
  | .redirect .. :: _ => none
  | ts =>
    if assignments.isEmpty && words.isEmpty && redirections.isEmpty then none
    else some (.simple assignments words redirections,ts)

def wordsOfLine : List Token → List Word × List Token
  | .word w :: ts =>
    let (ws,ts) := wordsOfLine ts
    (w :: ws,ts)
  | ts => ([],ts)

/-- Takes the patterns of a case, up to the bracket that closes them. -/
def patterns? : List Token → Option (List Word × List Token)
  | .word w :: .operator "|" :: ts => do
    let (ws,ts) ← patterns? ts
    some (w :: ws,ts)
  | .word w :: .operator ")" :: ts => some ([w],ts)
  | _ => none

def skipEnd : List Token → List Token
  | .operator ";" :: ts => skipLines ts
  | ts => skipLines ts

mutual

def list? : Nat → List Token → Option (Command × List Token)
  | 0, _ => none
  | fuel + 1, ts =>
    let ts := skipLines ts
    if isClosed ts then some (.nothing,ts)
    else do
      let (first,ts) ← chain? fuel ts
      match ts with
      | .operator "&" :: ts =>
        let (rest,ts) ← list? fuel ts
        some (.sequence (.background first) rest,ts)
      | .operator ";" :: ts =>
        let (rest,ts) ← list? fuel ts
        some (.sequence first rest,ts)
      | .line :: ts =>
        let (rest,ts) ← list? fuel ts
        some (.sequence first rest,ts)
      | ts => some (first,ts)

/-- Takes commands that are joined by `&&` and `||`. -/
def chain? : Nat → List Token → Option (Command × List Token)
  | 0, _ => none
  | fuel + 1, ts => do
    let (first,ts) ← pipeline? fuel ts
    chainRest? fuel first ts

/-- Takes what is joined to a command by `&&` and `||`. -/
def chainRest? : Nat → Command → List Token → Option (Command × List Token)
  | 0, _, _ => none
  | fuel + 1, first, ts =>
    match ts with
    | .operator "&&" :: ts => do
      let (second,ts) ← pipeline? fuel (skipLines ts)
      chainRest? fuel (.chain true first second) ts
    | .operator "||" :: ts => do
      let (second,ts) ← pipeline? fuel (skipLines ts)
      chainRest? fuel (.chain false first second) ts
    | ts => some (first,ts)

/-- Takes commands that are joined by `|`, negated or not. -/
def pipeline? : Nat → List Token → Option (Command × List Token)
  | 0, _ => none
  | fuel + 1, ts =>
    match afterKeyword? "!" ts with
    | some ts => do
      let (c,ts) ← pipeline? fuel ts
      some (.negate c,ts)
    | none => do
      let (first,ts) ← command? fuel ts
      match ts with
      | .operator "|" :: ts =>
        let (second,ts) ← pipeline? fuel (skipLines ts)
        some (.pipe first second,ts)
      | ts => some (first,ts)

def command? : Nat → List Token → Option (Command × List Token)
  | 0, _ => none
  | fuel + 1, ts =>
    let grouped := fun (c : Command) (ts : List Token) => do
      let (redirections,ts) ← redirections? ts
      some (if redirections.isEmpty then c else .group c redirections,ts)
    match ts with
    | [] => none
    | .operator "(" :: ts => do
      let (c,ts) ← list? fuel ts
      let (redirections,ts) ← redirections? (← afterOperator? ")" ts)
      some (.subshell c redirections,ts)
    | t :: rest =>
      match keyword? t with
      | some "\x7b" => do
        let (c,ts) ← list? fuel rest
        let (redirections,ts) ← redirections? (← afterKeyword? "\x7d" ts)
        some (.group c redirections,ts)
      | some "if" => do
        let (c,ts) ← branch? fuel rest
        grouped c ts
      | some "while" => do
        let (c,ts) ← loop? fuel true rest
        grouped c ts
      | some "until" => do
        let (c,ts) ← loop? fuel false rest
        grouped c ts
      | some "for" => do
        let (c,ts) ← each? fuel rest
        grouped c ts
      | some "case" => do
        let (c,ts) ← choose? fuel rest
        grouped c ts
      | _ =>
        match t, rest with
        | .word [.text name false], .operator "(" :: .operator ")" :: ts => do
          let (body,ts) ← command? fuel (skipLines ts)
          some (.define name body,ts)
        | _, _ => simple? [] [] [] ts

/-- Takes a test with its alternatives, after `if` or `elif`. -/
def branch? : Nat → List Token → Option (Command × List Token)
  | 0, _ => none
  | fuel + 1, ts => do
    let (test,ts) ← list? fuel ts
    let (yes,ts) ← list? fuel (← afterKeyword? "then" ts)
    match afterKeyword? "elif" ts, afterKeyword? "else" ts with
    | some ts, _ =>
      let (no,ts) ← branch? fuel ts
      some (.branch test yes no,ts)
    | none, some ts =>
      let (no,ts) ← list? fuel ts
      some (.branch test yes no,← afterKeyword? "fi" ts)
    | none, none => some (.branch test yes .nothing,← afterKeyword? "fi" ts)

/-- Takes a loop, after `while` or `until`. -/
def loop? : Nat → Bool → List Token → Option (Command × List Token)
  | 0, _, _ => none
  | fuel + 1, onSuccess, ts => do
    let (test,ts) ← list? fuel ts
    let (body,ts) ← list? fuel (← afterKeyword? "do" ts)
    some (.loop onSuccess test body,← afterKeyword? "done" ts)

/-- Takes a loop over words, after `for`. -/
def each? : Nat → List Token → Option (Command × List Token)
  | 0, _ => none
  | fuel + 1, ts =>
    match ts with
    | .word [.text name false] :: ts => do
      let (words,ts) := match afterKeyword? "in" (skipLines ts) with
        | some ts =>
          let (words,ts) := wordsOfLine ts
          (some words,ts)
        | none => (none,ts)
      let (body,ts) ← list? fuel (← afterKeyword? "do" (skipEnd ts))
      some (.each name words body,← afterKeyword? "done" ts)
    | _ => none

/-- Takes a choice, after `case`. -/
def choose? : Nat → List Token → Option (Command × List Token)
  | 0, _ => none
  | fuel + 1, ts =>
    match ts with
    | .word w :: ts => do
      let ts ← afterKeyword? "in" (skipLines ts)
      let (cases,ts) ← alternatives? fuel (skipLines ts)
      some (.choose w cases,ts)
    | _ => none

/-- Takes the cases of a choice up to `esac`. -/
def alternatives? : Nat → List Token → Option (List (List Word × Command) × List Token)
  | 0, _ => none
  | fuel + 1, ts =>
    match afterKeyword? "esac" ts with
    | some ts => some ([],ts)
    | none => do
      let (patterns,ts) ← patterns? ((afterOperator? "(" ts).getD ts)
      let (body,ts) ← list? fuel ts
      match afterOperator? ";;" ts with
      | some ts =>
        let (rest,ts) ← alternatives? fuel (skipLines ts)
        some ((patterns,body) :: rest,ts)
      | none => some ([(patterns,body)],← afterKeyword? "esac" (skipLines ts))

end

/-- Reads a script; each nested command takes a few steps of the descent for each token. -/
def read? (script : List Char) : Option Command := do
  let ts ← tokens? script
  match ← list? (8 * ts.length + 8) ts with
  | (c,[]) => some c
  | _ => none

end Playout.Shell
