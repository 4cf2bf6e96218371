import RouteDocs.Infer.Authentication

/-!
# Request Headers

The headers of a handler that reads headers: the common ones, those it reads by name, and the
authorization header in the first place.

## Main Definitions

* `RequestHeader.areRead`: whether a text reads headers at all
* `RequestHeader.readNames`: the names under which it reads them
* `RequestHeader.infer`: the headers of a handler
-/

namespace RouteDocs

namespace RequestHeader

open Pattern

/-- Signs that headers are read. -/
def markers : List Pattern := [
  wordEdge ++ lit "headers(" ++ blanks ++ lit ")",
  wordEdge ++ lit "req" ++ optional (lit "uest") ++ lit ".headers" ++ wordEdge,
  wordEdge ++ lit "headers.get(",
  wordEdge ++ lit "headers" ++ blanks ++ lit "["]

/-- A name in quotation marks, remembered under the number one. -/
def quotedName : Pattern :=
  one Authentication.isQuoteMark
    ++ group 1 (run1 fun c => !Authentication.isQuoteMark c)
    ++ one Authentication.isQuoteMark

/-- A header read by index. -/
def indexedRead : Pattern :=
  wordEdge ++ lit "headers" ++ blanks ++ lit "[" ++ blanks ++ quotedName ++ blanks ++ lit "]"

/-- A header read by a call. -/
def calledRead : Pattern :=
  wordEdge ++ lit "headers" ++ optional (lit "(" ++ blanks ++ lit ")") ++ lit ".get("
    ++ blanks ++ quotedName ++ blanks ++ lit ")"

/-- The headers that are listed whenever headers are read, with their meanings. -/
def common : List (Text × Text) := [
  ("Authorization", "Bearer token for authentication"),
  ("Content-Type", "Media type of the request body"),
  ("Accept", "Media types the client accepts"),
  ("User-Agent", "Client application identifier"),
  ("X-API-Key", "API key for authentication"),
  ("X-Request-ID", "Unique identifier for request tracing")]

/-- Whether a text reads headers. -/
def areRead (source : Text) : Bool :=
  markers.any (·.occursIn source)

/-- The names under which a text reads headers: by index first, then by call. -/
def readNames (source : Text) : List Text :=
  (indexedRead.findAll source).map (·.group 1) ++ (calledRead.findAll source).map (·.group 1)

/-- Whether a header has a name, without regard to case. -/
def isNamed (name : Text) (h : RequestHeader) : Bool :=
  Text.lower h.name == Text.lower name

/-- The headers with one more, unless its name is there without regard to case. -/
def addRead (headers : List RequestHeader) (name : Text) : List RequestHeader :=
  if headers.any (isNamed name) then headers
  else headers ++ [⟨name, false, some ("Custom header: " ++ name)⟩]

/-- The common headers followed by those that a text reads by name. -/
def listed (source : Text) : List RequestHeader :=
  (readNames source).foldl addRead (common.map fun (name, meaning) => ⟨name, false, some meaning⟩)

/-- The authorization header of a handler that demands authentication. -/
def requiredAuthorization : RequestHeader :=
  ⟨"Authorization", true, some "Bearer token for authentication"⟩

/-- The headers of a handler, if it reads any. -/
def infer (ctx : RouteContext) : Option (List RequestHeader) :=
  if !areRead ctx.source then none
  else
    let headers := listed ctx.source
    if Authentication.isDemanded ctx.source then
      some (requiredAuthorization :: headers.filter fun h => !isNamed "Authorization" h)
    else some headers

end RequestHeader

end RouteDocs
