import RouteDocs.Files.Path
import RouteDocs.Text.Wildcard

/-!
# Ignored Files

Whether patterns exclude a file from a scan.

## Main Definitions

* `Route.defaultIgnore`: the patterns of a scan that names none
* `Route.isIgnored`: whether one of several patterns covers a path
-/

namespace RouteDocs

namespace Route

/-- The patterns of a scan that names none: installed packages and build results. -/
def defaultIgnore : List Text :=
  ["**/node_modules/**", "**/dist/**", "**/.next/**"]

/-- Whether a pattern covers a file: its absolute path, or its path as seen from the root of the
scan; for a file outside the root that is the absolute path again. -/
def isIgnored (absolute path root : FilePath) (patterns : List Text) : Bool :=
  let whole := absolute.toText
  let relative := ((path.relativeTo? root).map FilePath.toText).getD whole
  patterns.any fun p => Wildcard.covers p whole || Wildcard.covers p relative

end Route

end RouteDocs
