import RouteDocs.Json.Value

/-!
# Example Payloads

Representative answers for the names that handlers return, and the meanings of status codes.

## Main Definitions

* `Catalog.lookup`: the example for the names in an answer
* `Catalog.meaning`: the meaning of a status code

## Design Notes

Names are compared exactly, so that the catalogue is extended by entries and not by rules.
-/

namespace RouteDocs

namespace Catalog

/-- The time in all examples. -/
def timestamp : Json := .str "2024-01-01T00:00:00.000Z"

/-- An example workspace. -/
def workspace : Json := .obj [
  ("id", .str "ws_123"), ("name", .str "My Workspace"), ("slug", .str "my-workspace"),
  ("createdAt", timestamp)]

/-- An example task. -/
def task : Json := .obj [
  ("id", .str "task_123"), ("title", .str "Example task"), ("status", .str "todo"),
  ("priority", .str "medium"), ("createdAt", timestamp)]

/-- An example issue. -/
def issue : Json := .obj [
  ("id", .str "issue_123"), ("title", .str "Example issue"), ("status", .str "open"),
  ("createdAt", timestamp)]

/-- An example project. -/
def project : Json := .obj [
  ("id", .str "proj_123"), ("name", .str "Example project"),
  ("description", .str "Example description"), ("createdAt", timestamp)]

/-- An example user. -/
def user : Json := .obj [
  ("id", .str "user_123"), ("name", .str "Example Name"), ("email", .str "user@example.com"),
  ("createdAt", timestamp)]

/-- The resources by their names. -/
def resources : Assoc Json := [
  ("workspace", workspace), ("task", task), ("issue", issue), ("project", project), ("user", user)]

/-- The names of collections with the resources they hold. -/
def collections : Assoc Json := [
  ("workspaces", workspace), ("tasks", task), ("issues", issue), ("projects", project),
  ("users", user)]

/-- Names that speak of success. -/
def successNames : List Text := ["success", "message", "ok"]

/-- Names that speak of pages. -/
def paginationNames : List Text := ["pagination", "page", "meta"]

/-- An example page. -/
def page : Json := .obj [
  ("data", .arr [project]),
  ("pagination", .obj [
    ("page", .int 1), ("limit", .int 10), ("total", .int 1), ("pages", .int 1)])]

/-- An example of success. -/
def success : Json := .obj [
  ("success", .bool true), ("message", .str "Operation completed successfully")]

/-- The example for one name. -/
def ofName? (name : Text) : Option Json :=
  match collections.get? name with
  | some resource => some (.obj [(name, .arr [resource])])
  | none =>
    match resources.get? name with
    | some resource => some (.obj [(name, resource)])
    | none =>
      if name == "items" then
        some (.obj [
          ("items", .arr [.obj [("id", .str "item_123"), ("name", .str "Example item")]]),
          ("total", .int 1)])
      else none

/-- The example for the names in an answer: a page if a name speaks of pages, else the first
known name, else success if a name speaks of it. -/
def lookup (names : List Text) : Option Json :=
  if names.any paginationNames.contains then some page
  else (names.findSome? ofName?).orElse fun _ =>
    if names.any successNames.contains then some success else none

/-- The wordings for common status codes. -/
def wordings : Assoc Text := [
  ("200", "Success"), ("201", "Created"), ("204", "No content"), ("400", "Bad request"),
  ("401", "Unauthorized"), ("403", "Forbidden"), ("404", "Not found"),
  ("500", "Internal server error")]

/-- The registered reason phrases. -/
def phrases : List (Int × String) := [
  (100, "Continue"), (101, "Switching Protocols"), (102, "Processing"), (103, "Early Hints"),
  (200, "OK"), (201, "Created"), (202, "Accepted"), (203, "Non-Authoritative Information"),
  (204, "No Content"), (205, "Reset Content"), (206, "Partial Content"), (207, "Multi-Status"),
  (208, "Already Reported"), (226, "IM Used"),
  (300, "Multiple Choices"), (301, "Moved Permanently"), (302, "Found"), (303, "See Other"),
  (304, "Not Modified"), (305, "Use Proxy"), (307, "Temporary Redirect"),
  (308, "Permanent Redirect"),
  (400, "Bad Request"), (401, "Unauthorized"), (402, "Payment Required"), (403, "Forbidden"),
  (404, "Not Found"), (405, "Method Not Allowed"), (406, "Not Acceptable"),
  (407, "Proxy Authentication Required"), (408, "Request Timeout"), (409, "Conflict"),
  (410, "Gone"), (411, "Length Required"), (412, "Precondition Failed"),
  (413, "Request Entity Too Large"), (414, "Request-URI Too Long"),
  (415, "Unsupported Media Type"), (416, "Requested Range Not Satisfiable"),
  (417, "Expectation Failed"), (418, "I'm a Teapot"), (421, "Misdirected Request"),
  (422, "Unprocessable Entity"), (423, "Locked"), (424, "Failed Dependency"), (425, "Too Early"),
  (426, "Upgrade Required"), (428, "Precondition Required"), (429, "Too Many Requests"),
  (431, "Request Header Fields Too Large"), (451, "Unavailable For Legal Reasons"),
  (500, "Internal Server Error"), (501, "Not Implemented"), (502, "Bad Gateway"),
  (503, "Service Unavailable"), (504, "Gateway Timeout"), (505, "HTTP Version Not Supported"),
  (506, "Variant Also Negotiates"), (507, "Insufficient Storage"), (508, "Loop Detected"),
  (510, "Not Extended"), (511, "Network Authentication Required")]

end Catalog

end RouteDocs
