import Playout.Encoding.Ladder

/-!
# Representation ids

A stream can be had as it is (`direct`), in a preset of the ladders, or in
settings of the caller's own (`custom`). The text of an id stands in URLs; a
preset's slash may be escaped there.
-/
namespace Playout

/-- Which encoding of a stream is meant. -/
inductive RepresentationId where
  | direct
  | preset (name : String)
  | custom (settings : Encoding.Settings)
  deriving DecidableEq, Repr, Inhabited

namespace RepresentationId

def customMark : String := "custom:"

def text : RepresentationId → String
  | direct => "direct"
  | preset name => name
  | custom settings => customMark ++ settings.encode

def pathSegment (id : RepresentationId) : String :=
  String.ofList (Text.replaceWord ['/'] "%2F".toList id.text.toList)

def unescapeSlashes (s : List Char) : List Char :=
  Text.replaceWord "%2f".toList ['/'] (Text.replaceWord "%2F".toList ['/'] s)

def parse (s : String) : Result RepresentationId :=
  if s = "direct" then .ok direct
  else
    match Text.dropStart? customMark.toList s.toList with
    | some encoded => (Encoding.Settings.decode (String.ofList encoded)).map custom
    | none =>
      let name := String.ofList (unescapeSlashes s.toList)
      if Encoding.isRung name then .ok (preset name) else .error (.unknownRepresentation s)

end RepresentationId
end Playout
