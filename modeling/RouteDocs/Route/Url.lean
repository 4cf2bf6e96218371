import RouteDocs.Docs.Model

/-!
# URLs of Route Files

The URL template and the tag that the place of a handler file stands for.

## Main Definitions

* `Route.handlerNames`: the names of handler files
* `Route.url`: the URL template of a file, or of a template
* `Route.tags`: the first directory below the API root

## Design Notes

`src/app/api/users/[id]/route.ts` becomes `/api/users/{id}`. Directories in parentheses group
files and are no part of the URL. A line feed at the end of a path does not hide the name of a
handler file before it.
-/

namespace RouteDocs

namespace Route

/-- The names of handler files. -/
def handlerNames : List Text := ["route.ts", "route.js", "route.tsx", "route.jsx"]

/-- A path with slashes for backslashes. -/
def withSlashes (path : Text) : Text :=
  path.map fun c => if c.val == 0x5C then '/' else c

/-- Whether a segment groups files without being part of the URL. -/
def isGroup (segment : Text) : Bool :=
  segment.startsWith "(" && segment.endsWith ")"

/-- What follows a path up to its end or next slash: nothing, where a line feed at the very end
is kept, or the text after the slash. -/
def afterSegment? (t : Text) : Option Text :=
  match t with
  | [] => some []
  | c :: r =>
    if c == '/' then some r
    else if c == '\n' && r.isEmpty then some t
    else none

/-- What follows a given beginning that ends a segment. -/
def afterPart? (part t : Text) : Option Text :=
  if part.isPrefixOf t then afterSegment? (t.drop part.length) else none

/-- What follows the first pair of segments `app/api`; no line feed may stand before it. -/
def afterAnchor? (atSegment : Bool) : Text → Option Text
  | [] => none
  | c :: r =>
    match (if atSegment then afterPart? "app/api" (c :: r) else none) with
    | some rest => some rest
    | none => if c == '\n' then none else afterAnchor? (c == '/') r

/-- What follows the root segment `api` of a URL template, with or without a slash before. -/
def afterTemplateRoot? (t : Text) : Option Text :=
  match t with
  | c :: r => if c == '/' then afterPart? "api" r else afterPart? "api" t
  | [] => none

/-- What is left of a text that is one of several names, alone or before a line feed. -/
def afterName? (names : List Text) (t : Text) : Option Text :=
  if names.contains t then some []
  else if names.any fun name => t == name ++ "\n" then some "\n"
  else none

/-- The text after a first segment without its last segment, if that is one of several names,
and without the slash before it. -/
def dropNameBelow (names : List Text) : Text → Text
  | [] => []
  | c :: r =>
    match (if c == '/' then afterName? names r else none) with
    | some rest => rest
    | none => c :: dropNameBelow names r

/-- The text without its last segment, if that is one of several names. -/
def dropName (names : List Text) (t : Text) : Text :=
  match afterName? names t with
  | some rest => rest
  | none => dropNameBelow names t

/-- A text without three points at its beginning, unless nothing else is there. -/
def withoutDots (t : Text) : Text :=
  if t.startsWith "..." && 3 < t.length then t.drop 3 else t

/-- The name in single or double square brackets at the beginning of a text, and the number of
code points of the bracketed part. -/
def bracketed? : Text → Option (Text × Nat)
  | [] => none
  | c :: r =>
    if c != '[' then none
    else
      let opened := if r.head? == some ('[' : CodePoint) then 1 else 0
      let body := (r.drop opened).takeWhile fun d : CodePoint => d != '[' && d != ']' && d != '/'
      match r.drop (opened + body.length) with
      | d :: s =>
        if d == ']' && !body.isEmpty then
          let closed := if s.head? == some (']' : CodePoint) then 2 else 1
          some (withoutDots body, 1 + opened + body.length + closed)
        else none
      | [] => none

/-- A text with each bracketed name in braces; the first code points are passed over. -/
def bracesAfter : Nat → Text → Text
  | _, [] => []
  | skip + 1, _ :: r => bracesAfter skip r
  | 0, c :: r =>
    match bracketed? (c :: r) with
    | some (name, used) => ('\x7b' : CodePoint) :: name ++ ('\x7d' : CodePoint) :: bracesAfter (used - 1) r
    | none => c :: bracesAfter 0 r

/-- A segment with each bracketed name in braces. -/
def templateSegment (segment : Text) : Text :=
  bracesAfter 0 segment

/-- A path below the API root: what follows `app/api`, or the root of a template, or a given
directory. -/
def belowRoot (path : Text) (root : Option Text) : Text :=
  match afterAnchor? true path with
  | some rest => rest
  | none =>
    match afterTemplateRoot? path with
    | some rest => rest
    | none =>
      match root with
      | none => path
      | some root =>
        let start := (withSlashes root).trimRight (fun c => c == '/') ++ "/"
        if start.isPrefixOf path then path.drop start.length else path

/-- Whether a segment is part of the URL. -/
def isUrlSegment (segment : Text) : Bool :=
  !segment.isEmpty && segment != "." && !isGroup segment

/-- The URL template of a handler file, seen from a root directory if one is given. -/
def url (path : Text) (root : Option Text) : Text :=
  let rest := dropName ["index"] (dropName handlerNames (belowRoot (withSlashes path) root))
  let segments := (rest.splitOn '/').filter isUrlSegment
  let joined := Text.join "/" (segments.map templateSegment)
  if joined.isEmpty then apiRoot else apiRoot ++ "/" ++ joined

/-- The segments after the first `app` that is directly followed by `api`. -/
def afterAppApi? : List Text → Option (List Text)
  | [] => none
  | a :: more =>
    match more with
    | [] => none
    | b :: rest => if a == "app" && b == "api" then some rest else afterAppApi? more

/-- The segments after the first `api`. -/
def afterApi? : List Text → Option (List Text)
  | [] => none
  | a :: more => if a == "api" then some more else afterApi? more

/-- The first segment that is not a group, unless a handler file comes first. -/
def firstTag : List Text → List Text
  | [] => []
  | part :: more =>
    if handlerNames.contains part then []
    else if isGroup part then firstTag more
    else [part]

/-- The tag of a handler file: its first directory below the API root, if there is one. -/
def tags (path : Text) : List Text :=
  let parts := ((withSlashes path).splitOn '/').filter fun part => !part.isEmpty
  match afterAppApi? parts with
  | some rest => firstTag rest
  | none => (afterApi? parts).elim [] firstTag

end Route

end RouteDocs
