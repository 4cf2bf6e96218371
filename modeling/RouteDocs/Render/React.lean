import RouteDocs.Render.Document

/-!
# React Page

A documentation as the source of a page component.

## Main Definitions

* `React.page`: the source around the data
* `React.render`: the source of a documentation
-/

namespace RouteDocs

namespace React

/-- The source before the data. -/
def header : Text := Text.join "\n" [
  "import React from 'react';",
  "import \x7b ApiDocumentation \x7d from 'api-scanner/client';",
  [],
  "const apiData = "]

/-- The source after the data. -/
def footer : Text := Text.join "\n" ([
  ";",
  "",
  "const ApiDocsPage = () => \x7b",
  "  return (",
  "    <div className=\"min-h-screen bg-background\">",
  "      <ApiDocumentation",
  "        data=\x7bapiData\x7d",
  "        searchable=\x7btrue\x7d",
  "        showStats=\x7btrue\x7d",
  "        defaultExpanded=\x7bfalse\x7d",
  "        theme=\"system\"",
  "      />",
  "    </div>",
  "  );",
  "\x7d;",
  "",
  "export default ApiDocsPage;",
  ""].map Text.ofString)

/-- The source around the data. -/
def page (data : Text) : Text := header ++ data ++ footer

/-- The source of a page for a documentation. -/
def render (d : Documentation) : Except Utf8.EncodeError Text :=
  d.print.map page

end React

end RouteDocs
