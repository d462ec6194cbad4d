import Playout.Text.Percent

/-!
# Requests

A request with its path cut at slashes. Parameters of a path are single parts of
it, percent-encoded and never empty; the query is form data.
-/
namespace Playout.Http

structure Request where
  method : String
  parts : List (List Char)
  query : List (List Char × List Char)
  body : List (List UInt8)

/-- What precedes the first of some characters, and what follows it. -/
def cutAt (c : Char) (s : List Char) : List Char × List Char :=
  (Text.splitFirst? c s).getD (s,[])

/-- The request for a target: a path that begins with a slash, with a query after a question mark. -/
def Request.ofTarget (method : String) (target : List Char) (body : List (List UInt8)) : Request :=
  let (path,query) := cutAt '?' (cutAt '#' target).1
  { method
    parts := (Text.splitAll '/' path).drop 1
    query := Text.Percent.decodeForm query
    body }

def parameters? (raw : List (List Char)) : Option (List String) :=
  raw.mapM fun part => (Text.Percent.decodeSegment? part).map String.ofList

end Playout.Http
