import Playout.Error
import Playout.Json.Record
import Playout.Path
import Playout.Text.Base64Url
import Playout.Text.Utf8

/-!
# Locators

A media file is named in URLs by its path relative to the library, written as
unpadded base64. The path is not empty and never leaves the library, and since
base64 is read strictly a path has exactly one such text.
-/
namespace Playout

/-- The name of a media file: a path inside the library. -/
structure Locator where
  path : List Char
  path_ne_nil : path ≠ []
  stays_inside : Path.staysInside path = true

namespace Locator

instance : DecidableEq Locator := fun a b =>
  if h : a.path = b.path then isTrue (by cases a; cases b; cases h; rfl)
  else isFalse (fun e => h (congrArg path e))

instance : Inhabited Locator := ⟨⟨['a'],by decide,by decide⟩⟩

def ofPath (path : List Char) : Result Locator :=
  if nonempty : path = [] then .error (.validation "empty file locator")
  else if inside : Path.staysInside path = true then .ok ⟨path,nonempty,inside⟩
  else
    .error (.validation ("file locator must be a relative path without '..': " ++ String.ofList path))

def text (l : Locator) : String := String.ofList (Text.Base64Url.encode (Text.Utf8.encode l.path))

def decodePath? (s : List Char) : Option (List Char) :=
  (Text.Base64Url.decode? s).bind Text.Utf8.decode?

def parse (s : String) : Result Locator :=
  match decodePath? s.toList with
  | some path => ofPath path
  | none => .error (.validation ("invalid file locator " ++ s ++ ": not the base64 of a text"))

def resolve (root : List Char) (l : Locator) : List Char := Path.join root l.path

def ofJson? (j : Json) : Option Locator :=
  j.text?.bind fun s => (parse (String.ofList s)).toOption

end Locator

/-- The name of one elementary stream of a media file. -/
structure StreamKey where
  locator : Locator
  index : Nat
  deriving DecidableEq, Inhabited

namespace StreamKey

def text (key : StreamKey) : String := key.locator.text ++ "#" ++ toString key.index

def toJson (key : StreamKey) : Json :=
  .record [("file_locator",.text key.locator.text),("stream_index",.nat key.index)]

def ofJson? (j : Json) : Option StreamKey := do
  match ← j.fields? [⟨"file_locator",.required⟩,⟨"stream_index",.required⟩] with
  | [locator,index] =>
    some ⟨← Json.must Locator.ofJson? locator,← Json.must (Json.nat? max32) index⟩
  | _ => none

end StreamKey
end Playout
