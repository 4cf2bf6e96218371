import RouteDocs.Proofs.Infer.Authentication
import RouteDocs.Proofs.Infer.ParamNote
import RouteDocs.Proofs.Route.Canonical
import RouteDocs.Proofs.Route.Placeholder

/-!
# Rows of the Parameter Table

A Markdown page has a table of the parameters of each endpoint.  A parameter is a row of the table
if its texts stand on one line and in one cell each.  Nothing is escaped when a row is written, so
that a line feed or a bar in a text breaks its row.

## Main Definitions

* `Markdown.columns`: the cells of a line, between its bars that are not escaped
* `Markdown.IsTidy`: the texts that stand on one line and in one cell
* `Markdown.IsRow`: the parameters that are one line with a cell for each column
* `Markdown.tableLines`: the lines of a table

## Main Statements

* `Markdown.columns_row`, `Markdown.length_columns_row_eq_iff`: the cells of a row are its texts,
  unless there are more cells than texts
* `Markdown.isRow_iff`: which parameters are rows
* `Markdown.tableLines_within`: the lines of a table stand on the page
* `Markdown.isRow_of_route`: **which parameters of a route are rows**, and where they stand

## Design Notes

A bar is escaped by a backslash that is not escaped itself.  Since a space stands before each bar
of a row, a backslash at the end of a text does not reach the bar behind it, and the cells of a row
can be told text by text.  Lines end at line feeds, with which the page joins them.
-/

namespace RouteDocs

namespace Markdown

/-! ### Cells -/

/-- The pieces of a text between its bars, where a bar behind a backslash does not count. -/
def piecesFrom (isEscaped : Bool) : Text → List Text
  | [] => [[]]
  | c :: r =>
    if c == '|' && !isEscaped then [] :: piecesFrom false r
    else (piecesFrom (c == '\x5c' && !isEscaped) r).modifyHead (c :: ·)

/-- The cells of a line, between the first and the last bar. -/
def columns (line : Text) : List Text :=
  (piecesFrom false line).tail.dropLast

/-- The texts that are a single cell: each bar in them is escaped. -/
def IsCell (t : Text) : Prop :=
  piecesFrom false t = [t]

/-- The texts that stand on one line and in one cell. -/
def IsTidy (t : Text) : Prop :=
  ('\n' : CodePoint) ∉ t ∧ IsCell t

instance (t : Text) : Decidable (IsCell t) :=
  inferInstanceAs (Decidable (piecesFrom false t = [t]))

instance (t : Text) : Decidable (IsTidy t) :=
  inferInstanceAs (Decidable (_ ∧ _))

variable {isEscaped : Bool} {t r : Text} {ts : List Text}

/-- A space is part of a piece and escapes nothing. -/
theorem piecesFrom_space (isEscaped : Bool) (r : Text) :
    piecesFrom isEscaped ((' ' : CodePoint) :: r) =
      (piecesFrom false r).modifyHead ((' ' : CodePoint) :: ·) := by
  rw [piecesFrom, if_neg (by decide +revert)]
  rfl

/-- A bar that is not escaped ends a piece. -/
theorem piecesFrom_bar (r : Text) :
    piecesFrom false (('|' : CodePoint) :: r) = [] :: piecesFrom false r := by
  rw [piecesFrom, if_pos (by decide)]

/-- There is always a piece. -/
theorem length_piecesFrom_pos (isEscaped : Bool) (t : Text) :
    0 < (piecesFrom isEscaped t).length := by
  cases t with
  | nil => exact Nat.one_pos
  | cons c t =>
      rw [piecesFrom]
      split
      · exact Nat.succ_pos _
      · rw [List.length_modifyHead]
        exact length_piecesFrom_pos _ t

/-- **A text with one piece is this piece.** -/
theorem piecesFrom_eq_singleton_iff :
    piecesFrom isEscaped t = [t] ↔ (piecesFrom isEscaped t).length = 1 := by
  refine ⟨fun single => by rw [single]; rfl, fun one => ?_⟩
  induction t generalizing isEscaped with
  | nil => rfl
  | cons c t ih =>
      rw [piecesFrom] at one ⊢
      split at one
      · have some := length_piecesFrom_pos false t
        rw [Nat.succ.inj one] at some
        cases some
      · next other =>
        rw [List.length_modifyHead] at one
        rw [if_neg other, ih one]
        rfl

/-- A space parts the pieces before it from those behind it, whatever is escaped, but for the piece
in which it stands. -/
theorem length_piecesFrom_append_space (isEscaped : Bool) (t r : Text) :
    (piecesFrom isEscaped (t ++ (' ' : CodePoint) :: r)).length + 1 =
      (piecesFrom isEscaped t).length + (piecesFrom false r).length := by
  induction t generalizing isEscaped with
  | nil =>
      rw [List.nil_append, piecesFrom_space, List.length_modifyHead]
      exact Nat.add_comm _ 1
  | cons c t ih =>
      rw [List.cons_append, piecesFrom, piecesFrom]
      split
      · rw [List.length_cons, List.length_cons, ih]
        exact (Nat.succ_add _ _).symm
      · rw [List.length_modifyHead, List.length_modifyHead, ih]

/-- A text that is one piece is part of one piece before a space. -/
theorem piecesFrom_append_space (single : piecesFrom isEscaped t = [t]) (r : Text) :
    piecesFrom isEscaped (t ++ (' ' : CodePoint) :: r) =
      (piecesFrom false r).modifyHead (t ++ (' ' : CodePoint) :: ·) := by
  induction t generalizing isEscaped with
  | nil =>
      rw [List.nil_append, piecesFrom_space]
      rfl
  | cons c t ih =>
      rw [piecesFrom] at single
      rw [List.cons_append, piecesFrom]
      split at single
      · cases single
      · next other =>
        have one := congrArg List.length single
        rw [List.length_modifyHead] at one
        rw [if_neg other, ih (piecesFrom_eq_singleton_iff.mpr one), List.modifyHead_modifyHead]
        rfl

/-- **Words with a space between them** are a single cell if each of them is. -/
theorem isCell_append_space_iff :
    IsCell (t ++ (' ' : CodePoint) :: r) ↔ IsCell t ∧ IsCell r := by
  have before := length_piecesFrom_pos false t
  have behind := length_piecesFrom_pos false r
  have whole := length_piecesFrom_append_space false t r
  rw [IsCell, IsCell, IsCell, piecesFrom_eq_singleton_iff, piecesFrom_eq_singleton_iff,
    piecesFrom_eq_singleton_iff]
  omega

/-- A text without bars is a single cell. -/
theorem isCell_of_not_mem (clean : ('|' : CodePoint) ∉ t) : IsCell t := by
  rw [IsCell]
  generalize false = isEscaped
  induction t generalizing isEscaped with
  | nil => rfl
  | cons c t ih =>
      rw [List.mem_cons, not_or] at clean
      have other : (c == '|' && !isEscaped) = false := by
        rw [beq_false_of_ne (Ne.symm clean.1), Bool.false_and]
      rw [piecesFrom, other, if_neg Bool.false_ne_true, ih clean.2]
      rfl

/-- Without backslashes, the pieces are the parts between the bars. -/
theorem piecesFrom_eq_splitOn (straight : ('\x5c' : CodePoint) ∉ t) :
    piecesFrom false t = Text.splitOn '|' t := by
  induction t with
  | nil => rfl
  | cons c t ih =>
      rw [List.mem_cons, not_or] at straight
      have plain : (c == ('\x5c' : CodePoint) && !false) = false := by
        rw [beq_false_of_ne (Ne.symm straight.1), Bool.false_and]
      obtain ⟨piece, more, pieces⟩ := List.exists_cons_of_ne_nil (Text.splitOn_ne_nil '|' t)
      have ih := (ih straight.2).trans pieces
      unfold Text.splitOn at pieces ⊢
      rw [piecesFrom, plain, ih, Text.splitBy, pieces, Bool.not_false, Bool.and_true]
      rfl

/-- **Without backslashes, the tidy texts** are those with neither line feeds nor bars. -/
theorem isTidy_iff_of_straight (straight : ('\x5c' : CodePoint) ∉ t) :
    IsTidy t ↔ ('\n' : CodePoint) ∉ t ∧ ('|' : CodePoint) ∉ t := by
  refine and_congr_right fun _ => ⟨fun single => ?_, isCell_of_not_mem⟩
  rw [IsCell, piecesFrom_eq_splitOn straight] at single
  exact Text.not_mem_of_mem_splitOn (single ▸ List.mem_singleton_self t)

/-- A word is tidy. -/
theorem isTidy_of_isWord (isWord : ∀ x ∈ t, x.isWord = true) : IsTidy t := by
  have clean : ∀ c : CodePoint, c.isWord = false → c ∉ t := by
    intro c other mem
    rw [isWord c mem] at other
    cases other
  exact ⟨clean _ (by decide), isCell_of_not_mem (clean _ (by decide))⟩

/-! ### Rows -/

/-- A text in a cell, up to the bar behind it. -/
def cell (t : Text) : Text :=
  " " ++ t ++ " |"

/-- A row of texts. -/
def row (ts : List Text) : Text :=
  "|" ++ ts.flatMap cell

/-- The pieces of a row are the one before its first bar and those of its cells. -/
theorem columns_row_eq (ts : List Text) :
    columns (row ts) = (piecesFrom false (ts.flatMap cell)).dropLast := rfl

theorem piecesFrom_cell_append (t r : Text) :
    piecesFrom false (cell t ++ r) =
      (piecesFrom false (t ++ (' ' : CodePoint) :: ('|' : CodePoint) :: r)).modifyHead
        ((' ' : CodePoint) :: ·) := by
  have whole : cell t ++ r =
      (' ' : CodePoint) :: (t ++ (' ' : CodePoint) :: ('|' : CodePoint) :: r) := by
    rw [cell, List.append_assoc, List.append_assoc]
    rfl
  rw [whole, piecesFrom_space]

/-- A text that is a cell is one piece. -/
theorem piecesFrom_cell (single : IsCell t) (r : Text) :
    piecesFrom false (cell t ++ r) = Text.between ' ' t :: piecesFrom false r := by
  rw [piecesFrom_cell_append, piecesFrom_append_space single, piecesFrom_bar]
  rfl

/-- A text has as many pieces in a cell as by itself. -/
theorem length_piecesFrom_cell (t r : Text) : (piecesFrom false (cell t ++ r)).length =
    (piecesFrom false t).length + (piecesFrom false r).length := by
  have parted := length_piecesFrom_append_space false t (('|' : CodePoint) :: r)
  rw [piecesFrom_bar, List.length_cons] at parted
  rw [piecesFrom_cell_append, List.length_modifyHead]
  omega

/-- **The cells of a row are its texts**, with a space on either side, if each is a cell. -/
theorem columns_row (cells : ∀ t ∈ ts, IsCell t) :
    columns (row ts) = ts.map (Text.between ' ') := by
  have pieces : piecesFrom false (ts.flatMap cell) = ts.map (Text.between ' ') ++ [[]] := by
    induction ts with
    | nil => rfl
    | cons t ts ih =>
        obtain ⟨single, cells⟩ := List.forall_mem_cons.mp cells
        rw [List.flatMap_cons, piecesFrom_cell single, ih cells]
        rfl
  rw [columns_row_eq, pieces, List.dropLast_concat]

/-- A row has at least as many cells as texts. -/
theorem length_lt_length_piecesFrom (ts : List Text) :
    ts.length < (piecesFrom false (ts.flatMap cell)).length := by
  induction ts with
  | nil => exact Nat.one_pos
  | cons t ts ih =>
      have some := length_piecesFrom_pos false t
      rw [List.flatMap_cons, length_piecesFrom_cell, List.length_cons]
      omega

/-- **A row has as many cells as texts** only if each of these is a cell. -/
theorem length_columns_row_eq_iff :
    (columns (row ts)).length = ts.length ↔ ∀ t ∈ ts, IsCell t := by
  rw [columns_row_eq, List.length_dropLast]
  induction ts with
  | nil => exact iff_of_true rfl (List.forall_mem_nil _)
  | cons t ts ih =>
      have some := length_piecesFrom_pos false t
      have others := length_lt_length_piecesFrom ts
      rw [List.forall_mem_cons, List.flatMap_cons, length_piecesFrom_cell, List.length_cons,
        IsCell, piecesFrom_eq_singleton_iff]
      refine Iff.trans ?_ (and_congr_right fun _ => ih)
      omega

/-- The texts at the head of the columns. -/
def header : List Text := ["Name", "Type", "Required", "Location", "Description"]

/-- The texts of a parameter, column by column. -/
def rowTexts (p : Parameter) : List Text :=
  [p.name, p.type, if p.required then "Yes" else "No", p.location.name,
    (present? p.description).getD "-"]

theorem parameterRow_eq (p : Parameter) : parameterRow p = row (rowTexts p) := by
  simp only [parameterRow, row, rowTexts, cell, List.flatMap_cons, List.flatMap_nil,
    List.append_assoc]
  cases p.required <;> rfl

/-- **The parameters that are one line with a cell for each column.** -/
structure IsRow (p : Parameter) : Prop where
  /-- The row of the parameter is a single line. -/
  single : (parameterRow p).splitOn '\n' = [parameterRow p]
  /-- The cells of the line are the texts of the parameter. -/
  cells : columns (parameterRow p) = (rowTexts p).map (Text.between ' ')

/-- The line of a parameter has as many cells as the line at the head of the table. -/
theorem IsRow.length_columns {p : Parameter} (isRow : IsRow p) :
    (columns (parameterRow p)).length = (columns (row header)).length := by
  have cells : ∀ t ∈ header, IsCell t := by decide +kernel
  rw [isRow.cells, columns_row cells, List.length_map, List.length_map]
  rfl

/-- A row is a single line if each of its texts is on one line. -/
theorem not_mem_row_iff : ('\n' : CodePoint) ∉ row ts ↔ ∀ t ∈ ts, ('\n' : CodePoint) ∉ t := by
  have bar : ('\n' : CodePoint) ∉ ("|" : Text) := by decide
  have space : ('\n' : CodePoint) ∉ (" " : Text) := by decide
  have behind : ('\n' : CodePoint) ∉ (" |" : Text) := by decide
  simp only [row, cell, List.mem_append, List.mem_flatMap, bar, space, behind, false_or, or_false,
    not_exists, not_and]

/-- **A parameter is a row** if its texts are tidy, and has more lines or other cells if not. -/
theorem isRow_iff {p : Parameter} : IsRow p ↔ ∀ t ∈ rowTexts p, IsTidy t := by
  constructor
  · rintro ⟨single, cells⟩ t mem
    have clean : ('\n' : CodePoint) ∉ parameterRow p :=
      Text.not_mem_of_mem_splitOn (single ▸ List.mem_singleton_self _)
    rw [parameterRow_eq] at clean cells
    refine ⟨not_mem_row_iff.mp clean t mem, length_columns_row_eq_iff.mp ?_ t mem⟩
    rw [cells, List.length_map]
  · intro tidy
    have clean : ('\n' : CodePoint) ∉ parameterRow p := by
      rw [parameterRow_eq]
      exact not_mem_row_iff.mpr fun t mem => (tidy t mem).1
    refine ⟨Text.splitOn_eq_singleton fun c mem same => clean (same ▸ mem), ?_⟩
    rw [parameterRow_eq]
    exact columns_row fun t mem => (tidy t mem).2

/-! ### Inferred Parameters -/

variable {p : Parameter} {d : Text} {ctx : RouteContext}

theorem isTidy_append_space_iff :
    IsTidy (t ++ (' ' : CodePoint) :: r) ↔ IsTidy t ∧ IsTidy r := by
  have space : ('\n' : CodePoint) ≠ ' ' := by decide
  rw [IsTidy, isCell_append_space_iff, List.mem_append, List.mem_cons, not_or, not_or]
  constructor
  · rintro ⟨⟨before, -, behind⟩, first, second⟩
    exact ⟨⟨before, first⟩, behind, second⟩
  · rintro ⟨⟨before, first⟩, behind, second⟩
    exact ⟨⟨before, space, behind⟩, first, second⟩

/-- A parameter with a description is a row if its name, type and description are tidy. -/
theorem isRow_iff_of_described (described : p.description = some d) :
    IsRow p ↔ IsTidy p.name ∧ IsTidy p.type ∧ IsTidy d := by
  have required : IsTidy (if p.required then "Yes" else "No") := by
    cases p.required <;> decide
  have place : IsTidy p.location.name := by
    cases p.location <;> decide
  have shown : IsTidy ((present? p.description).getD "-") ↔ IsTidy d := by
    rw [described]
    cases d with
    | nil => exact iff_of_true (by decide) (by decide)
    | cons c d => exact Iff.rfl
  rw [isRow_iff, rowTexts, List.forall_mem_cons, List.forall_mem_cons, List.forall_mem_cons,
    List.forall_mem_cons, List.forall_mem_singleton, shown]
  constructor
  · rintro ⟨name, type, -, -, description⟩
    exact ⟨name, type, description⟩
  · rintro ⟨name, type, description⟩
    exact ⟨name, type, required, place, description⟩

/-- **A placeholder of a URL is a row** if its name is tidy. -/
theorem isRow_of_mem_ofUrl {url : Text} (mem : p ∈ Parameter.ofUrl url) :
    IsRow p ↔ IsTidy p.name := by
  obtain ⟨name, -, rfl⟩ := List.mem_map.mp mem
  have label : IsTidy "Path parameter:" := by decide
  have type : IsTidy "string" := by decide
  have words : ("Path parameter: " : Text) = ("Path parameter:" : Text) ++ (" " : Text) := by
    decide +kernel
  have description : IsTidy ("Path parameter: " ++ name) ↔ IsTidy name := by
    rw [words, List.append_assoc]
    exact isTidy_append_space_iff.trans (and_iff_right label)
  rw [isRow_iff_of_described rfl, description]
  exact ⟨fun tidy => tidy.1, fun tidy => ⟨tidy, type, tidy⟩⟩

/-- A placeholder of the URL of a path is a row if its name has neither line feeds nor bars. -/
theorem isRow_of_mem_ofUrl_url {path : Text} {root : Option Text}
    (mem : p ∈ Parameter.ofUrl (Route.url path root)) :
    IsRow p ↔ ('\n' : CodePoint) ∉ p.name ∧ ('|' : CodePoint) ∉ p.name := by
  rw [isRow_of_mem_ofUrl mem]
  obtain ⟨name, found, rfl⟩ := List.mem_map.mp mem
  obtain ⟨-, -, inside⟩ := (Route.placeholders_bracedNames _).mem_of_mem found
  exact isTidy_iff_of_straight fun slash => (Route.canonical_url path root).not_mem (inside _ slash)

/-- An annotated parameter has a word for a name, and a description on one line. -/
theorem isTidy_of_mem_annotated {content : Text} {location : Location} {default : Option Location}
    (mem : p ∈ Parameter.annotated content location default) :
    IsTidy p.name ∧ ∃ d, p.description = some d ∧ ('\n' : CodePoint) ∉ d := by
  obtain ⟨a, kept, rfl⟩ := List.mem_map.mp mem
  obtain ⟨isWord, single⟩ := ParamNote.isWord_single_of_mem_all (List.mem_of_mem_filter kept)
  exact ⟨isTidy_of_isWord isWord, a.description, rfl, single⟩

/-- **A parameter of the query or the body is a row** if its type is tidy and its description is a
cell. -/
theorem isRow_of_mem_ofQuery_or_ofBody
    (mem : p ∈ Parameter.ofQuery ctx ∨ p ∈ Parameter.ofBody ctx) :
    IsRow p ↔ IsTidy p.type ∧ IsCell (p.description.getD []) := by
  have free : IsTidy p.name ∧ ∃ d, p.description = some d ∧ ('\n' : CodePoint) ∉ d := by
    rcases mem with mem | mem
    · rcases Parameter.mem_ofQuery mem with ⟨_, mem⟩ | rfl
      · exact isTidy_of_mem_annotated mem
      · exact ⟨by decide, _, rfl, by decide⟩
    · rcases Parameter.mem_ofBody mem with ⟨_, mem⟩ | rfl
      · exact isTidy_of_mem_annotated mem
      · exact ⟨by decide, _, rfl, by decide⟩
  obtain ⟨name, d, described, single⟩ := free
  rw [isRow_iff_of_described described, described]
  exact ⟨fun tidy => ⟨tidy.2.1, tidy.2.2.2⟩, fun tidy => ⟨name, tidy.1, single, tidy.2⟩⟩

/-! ### Tables on a Page -/

/-- The lines above the rows of a table. -/
def tableHead : List Text :=
  ["#### Parameters", [], row header, "|------|------|----------|----------|-------------|"]

/-- The lines of a table, where the row of a parameter may be several lines. -/
def tableLines (ps : List Parameter) : List Text :=
  tableHead ++ ps.flatMap fun p => (parameterRow p).splitOn '\n'

theorem splitOn_parameterLines {ps : List Parameter} (ne : ps ≠ []) :
    (parameterLines ps).flatMap (Text.splitOn '\n') = tableLines ps ++ [[]] := by
  rw [parameterLines, List.isEmpty_eq_false_iff.mpr ne, if_neg Bool.false_ne_true,
    List.flatMap_append, List.flatMap_append, List.flatMap_map]
  rfl

/-- The lines of an endpoint go on behind its table, at least to the rule that ends it. -/
theorem exists_endpointLines_eq (e : Endpoint) : ∃ before after, endpointLines e =
    before ++ (parameterLines e.parameters ++ (after ++ [("---" : Text), []])) := by
  refine ⟨headingLines e ++ authenticationLines e.authentication,
    headerLines (e.requestHeaders.getD []) ++ (bodyLines e.requestBody ++
      (responsesLines e.responses ++ ["**File:** " ++ code e.file, ([] : Text)])), ?_⟩
  rw [endpointLines_eq, detailLines]
  simp only [List.append_assoc]
  rfl

/-- **The lines of a table stand on the page**, in this order and with nothing between them. -/
theorem tableLines_within {doc : Documentation} {e : Endpoint} (listed : e ∈ doc.endpoints)
    (ne : e.parameters ≠ []) :
    tableLines e.parameters ++ [[]] <:+: (render doc).splitOn '\n' := by
  obtain ⟨first, last, page⟩ := endpointLines_infix listed
  obtain ⟨before, after, lines⟩ := exists_endpointLines_eq e
  have visible : CodePoint.isBlank '-' = false := by decide
  have rule : ("---" : Text) = ("--" : Text) ++ [('-' : CodePoint)] := rfl
  have whole : pageLines doc = (first ++ before ++ parameterLines e.parameters ++ after) ++
      ("---" : Text) :: ([] :: last) := by
    rw [← page, lines]
    simp only [List.append_assoc, List.cons_append, List.nil_append]
  obtain ⟨rest, shown⟩ := Text.exists_splitOn_trimRight_join visible
    (first ++ before ++ parameterLines e.parameters ++ after) "--" ([] :: last)
  have feed : ("\n" : Text) = [('\n' : CodePoint)] := rfl
  rw [← rule] at shown
  refine ⟨(first ++ before).flatMap (Text.splitOn '\n'),
    (after ++ [("---" : Text)]).flatMap (Text.splitOn '\n') ++ rest, ?_⟩
  rw [render_eq, whole, feed, shown, ← splitOn_parameterLines ne]
  simp only [List.flatMap_append, List.append_assoc]

/-! ### Routes -/

theorem parameters_endpoint (route : ParsedRoute) (login : Option Text) :
    (route.endpoint login).parameters = Parameter.infer (route.context login) := rfl

/-- **Which parameters of a route are rows.**  On the page, each parameter of an endpoint has its
row in the table of the endpoint, below the head of the table, in order and with nothing between
the rows.  The row is one line with a cell for each column if the name of a placeholder, or the type
and the description of another parameter, can be written in a cell; and if not, it has more lines or
other cells.  In the URL of a path, line feeds and bars are all that breaks a row. -/
theorem isRow_of_route (route : ParsedRoute) (login : Option Text) (doc : Documentation)
    (listed : route.endpoint login ∈ doc.endpoints) {p : Parameter}
    (mem : p ∈ (route.endpoint login).parameters) :
    tableLines (route.endpoint login).parameters ++ [[]] <:+: (render doc).splitOn '\n' ∧
      (p.location = .path → (IsRow p ↔ IsTidy p.name) ∧
        ∀ path root, route.url = Route.url path root →
          (IsRow p ↔ ('\n' : CodePoint) ∉ p.name ∧ ('|' : CodePoint) ∉ p.name)) ∧
      (p.location ≠ .path → (IsRow p ↔ IsTidy p.type ∧ IsCell (p.description.getD []))) := by
  refine ⟨tableLines_within listed (List.ne_nil_of_mem mem), ?_⟩
  rw [parameters_endpoint, Parameter.infer, List.append_assoc, List.mem_append,
    List.mem_append] at mem
  rcases mem with placeholder | other
  · constructor
    · intro _
      refine ⟨isRow_of_mem_ofUrl placeholder, fun path root own => ?_⟩
      have placeholder : p ∈ Parameter.ofUrl route.url := placeholder
      rw [own] at placeholder
      exact isRow_of_mem_ofUrl_url placeholder
    · intro elsewhere
      exact absurd (Parameter.location_of_mem_ofUrl placeholder) elsewhere
  · refine ⟨fun path => ?_, fun _ => isRow_of_mem_ofQuery_or_ofBody other⟩
    rcases other with query | body
    · rw [Parameter.location_of_mem_ofQuery query] at path
      cases path
    · rw [Parameter.location_of_mem_ofBody body] at path
      cases path

/-- A route with a placeholder in its URL. -/
def userRoute : ParsedRoute :=
  ⟨"GET", Route.url "src/app/api/users/[id]/route.ts" none, "src/app/api/users/[id]/route.ts",
    "export const GET = user"⟩

theorem isRow_of_route_user :
    let e := userRoute.endpoint none
    let doc : Documentation := ⟨Info.default, [e], 1, "2024-05-01T12:00:00"⟩
    let p : Parameter := ⟨"id", "string", true, .path, some ("Path parameter: " ++ "id"), .null⟩
    e ∈ doc.endpoints ∧ p ∈ e.parameters ∧ IsRow p ∧
      tableLines e.parameters ++ [[]] <:+: (render doc).splitOn '\n' := by
  intro e doc p
  have named : bracedNames 0 userRoute.url = ["id"] := by decide +kernel
  have mem : p ∈ (userRoute.endpoint none).parameters := by
    rw [parameters_endpoint, Parameter.infer, List.append_assoc]
    refine List.mem_append_left _ (List.mem_map.mpr ⟨"id", ?_, rfl⟩)
    show ("id" : Text) ∈ bracedNames 0 userRoute.url
    rw [named]
    exact List.mem_singleton_self _
  obtain ⟨page, placeholder, -⟩ :=
    isRow_of_route userRoute none doc (List.mem_singleton_self e) mem
  have clean : ('\n' : CodePoint) ∉ p.name ∧ ('|' : CodePoint) ∉ p.name := by decide
  exact ⟨List.mem_singleton_self e, mem, ((placeholder rfl).2 userRoute.file none rfl).mpr clean,
    page⟩

/-- A route whose query is annotated with a union of types. -/
def unionRoute : ParsedRoute :=
  ⟨"GET", Route.url "src/app/api/users/route.ts" none, "src/app/api/users/route.ts",
    "/**\n * @param \x7bstring | null\x7d filter Filter by name\n */\n" ++
      "export function GET(request) \x7b find(request.searchParams) \x7d"⟩

/-- **A union of types is no cell**: a bar in the type makes six cells of five texts. -/
theorem not_isRow_union :
    let e := unionRoute.endpoint none
    ∃ p ∈ e.parameters,
      rowTexts p = [("filter" : Text), "string | null", "Yes", "query", "Filter by name"] ∧
        (columns (parameterRow p)).length = 6 ∧ ¬IsRow p := by
  intro e
  have inferred : (Parameter.infer (unionRoute.context none)).map rowTexts =
      [[("filter" : Text), "string | null", "Yes", "query", "Filter by name"]] := by
    decide +kernel
  obtain ⟨p, only, texts⟩ := List.map_eq_singleton_iff.mp inferred
  have six : (columns (parameterRow p)).length = 6 := by
    rw [parameterRow_eq, texts]
    decide +kernel
  refine ⟨p, ?_, texts, six, fun isRow => ?_⟩
  · rw [parameters_endpoint, only]
    exact List.mem_singleton_self p
  · rw [isRow.cells, texts] at six
    cases six

end Markdown

end RouteDocs
