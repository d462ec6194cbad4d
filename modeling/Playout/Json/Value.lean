import Playout.Text.Numeral

/-!
# JSON values

A value keeps what reading it later may depend on: numbers stay the text that
was written, members keep their order and their duplicates, and a string whose
escapes or bytes denote no text (a lone surrogate, bytes that are not UTF-8) is
still a value, of unknown text.

`Json.render` writes a value without spaces.
-/
namespace Playout

/-- A JSON value. -/
inductive Json where
  | null
  | bool (value : Bool)
  | number (text : List Char)
  | string (text : Option (List Char))
  | array (items : List Json)
  | object (members : List (Option (List Char) × Json))
  deriving Inhabited

namespace Json

def text (s : String) : Json := .string (some s.toList)

def int (i : Int) : Json :=
  .number (if i < 0 then '-' :: Text.decimal i.natAbs else Text.decimal i.natAbs)

def nat (n : Nat) : Json := .number (Text.decimal n)

def record (members : List (String × Json)) : Json :=
  .object (members.map fun (key,value) => (some key.toList,value))

/-- A value that may be missing, where `null` stands for a missing one. -/
def optional {α : Type} (write : α → Json) : Option α → Json
  | some a => write a
  | none => .null

/-- The form of one character inside a string: quotes, backslashes and controls are escaped. -/
def escapeChar (c : Char) : List Char :=
  match c with
  | '"' => ['\\','"']
  | '\\' => ['\\','\\']
  | '\x08' => ['\\','b']
  | '\x0c' => ['\\','f']
  | '\n' => ['\\','n']
  | '\r' => ['\\','r']
  | '\t' => ['\\','t']
  | c => if c.toNat < 0x20 then '\\' :: 'u' :: Text.hexadecimal 4 c.toNat else [c]

/-- A string between quotes; one of unknown text is written empty. -/
def renderString (s : Option (List Char)) : List Char :=
  '"' :: (s.getD []).flatMap escapeChar ++ ['"']

mutual
def render : Json → List Char
  | .null => "null".toList
  | .bool true => "true".toList
  | .bool false => "false".toList
  | .number text => text
  | .string s => renderString s
  | .array items => '[' :: renderItems items ++ [']']
  | .object members => '\x7b' :: renderMembers members ++ ['\x7d']

def renderItems : List Json → List Char
  | [] => []
  | [item] => render item
  | item :: items => render item ++ ',' :: renderItems items

def renderMembers : List (Option (List Char) × Json) → List Char
  | [] => []
  | [(key,value)] => renderString key ++ ':' :: render value
  | (key,value) :: members => renderString key ++ ':' :: render value ++ ',' :: renderMembers members
end

end Json
end Playout
