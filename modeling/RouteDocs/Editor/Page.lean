import RouteDocs.Text.CodePoint

/-!
# The Editor Page

The page on which a documentation can be viewed and edited.

## Main Definitions

* `Editor.page`: the text of the page
-/

namespace RouteDocs

namespace Editor

/-- The lines of the page. -/
def pageLines : List String := [
  "<!DOCTYPE html>",
  "<html lang=\"en\">",
  "<head>",
  "  <meta charset=\"utf-8\">",
  "  <title>API Documentation Editor</title>",
  "  <style>",
  "    body \x7b font-family: system-ui, sans-serif; margin: 0; background: #f6f7f9; color: #1f2328; \x7d",
  "    header \x7b padding: 16px 24px; background: #fff; border-bottom: 1px solid #d0d7de; display: flex; gap: 16px; align-items: center; \x7d",
  "    header h1 \x7b font-size: 18px; margin: 0; flex: 1; \x7d",
  "    main \x7b display: grid; grid-template-columns: 320px 1fr; height: calc(100vh - 62px); \x7d",
  "    #endpoints \x7b overflow-y: auto; border-right: 1px solid #d0d7de; background: #fff; margin: 0; padding: 0; list-style: none; \x7d",
  "    #endpoints li \x7b padding: 10px 16px; cursor: pointer; border-bottom: 1px solid #eaeef2; font-size: 13px; \x7d",
  "    #endpoints li.active \x7b background: #ddf4ff; \x7d",
  "    .method \x7b display: inline-block; width: 64px; font-weight: 600; \x7d",
  "    section \x7b display: flex; flex-direction: column; padding: 16px; \x7d",
  "    textarea \x7b flex: 1; font-family: ui-monospace, monospace; font-size: 13px; padding: 12px; \x7d",
  "    #status \x7b font-size: 13px; color: #57606a; \x7d",
  "    button \x7b padding: 6px 14px; \x7d",
  "  </style>",
  "</head>",
  "<body>",
  "  <header>",
  "    <h1 id=\"title\">API Documentation</h1>",
  "    <span id=\"status\">Loading…</span>",
  "    <button id=\"save\">Save endpoint</button>",
  "  </header>",
  "  <main>",
  "    <ul id=\"endpoints\"></ul>",
  "    <section><textarea id=\"editor\" spellcheck=\"false\"></textarea></section>",
  "  </main>",
  "  <script>",
  "    let data = null;",
  "    let selected = -1;",
  "    const status = (text) => \x7b document.getElementById('status').textContent = text; \x7d;",
  "",
  "    function select(index) \x7b",
  "      selected = index;",
  "      document.querySelectorAll('#endpoints li').forEach((li, i) => li.classList.toggle('active', i === index));",
  "      document.getElementById('editor').value = JSON.stringify(data.endpoints[index], null, 2);",
  "    \x7d",
  "",
  "    async function load() \x7b",
  "      const response = await fetch('/api/data');",
  "      if (!response.ok) \x7b status('Failed to load documentation'); return; \x7d",
  "      data = await response.json();",
  "      document.getElementById('title').textContent = data.info.title;",
  "      const list = document.getElementById('endpoints');",
  "      list.replaceChildren();",
  "      data.endpoints.forEach((endpoint, index) => \x7b",
  "        const li = document.createElement('li');",
  "        const method = document.createElement('span');",
  "        method.className = 'method';",
  "        method.textContent = endpoint.method;",
  "        li.append(method, document.createTextNode(endpoint.url));",
  "        li.onclick = () => select(index);",
  "        list.appendChild(li);",
  "      \x7d);",
  "      status(\x60$\x7bdata.totalEndpoints\x7d endpoints\x60);",
  "      if (data.endpoints.length) select(0);",
  "    \x7d",
  "",
  "    document.getElementById('save').onclick = async () => \x7b",
  "      if (selected < 0) return;",
  "      let endpoint;",
  "      try \x7b endpoint = JSON.parse(document.getElementById('editor').value); \x7d",
  "      catch (e) \x7b status('Invalid JSON: ' + e.message); return; \x7d",
  "      const response = await fetch(\x60/api/endpoint/$\x7bselected\x7d\x60, \x7b",
  "        method: 'PUT',",
  "        headers: \x7b 'Content-Type': 'application/json' \x7d,",
  "        body: JSON.stringify(endpoint),",
  "      \x7d);",
  "      if (!response.ok) \x7b status('Save failed'); return; \x7d",
  "      data.endpoints[selected] = endpoint;",
  "      status('Saved');",
  "    \x7d;",
  "",
  "    load();",
  "  </script>",
  "</body>",
  "</html>",
  ""]

/-- The text of the page. -/
def page : Text :=
  Text.join "\n" (pageLines.map Text.ofString)

end Editor

end RouteDocs
