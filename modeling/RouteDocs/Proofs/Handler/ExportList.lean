import RouteDocs.Handler.Export
import RouteDocs.Proofs.Text.Digit
import RouteDocs.Proofs.Text.Run
import RouteDocs.Proofs.Text.Search

/-!
# Export Lists Are Read Exactly

A file can export its handlers in a list between braces, each under its own name or renamed. The
handlers of such a file are those whose verbs are among the exported names.

## Main Definitions

* `Handler.Specifier`: what a list exports, and how it is written
* `Handler.exportList`: a file with an export list
* `Handler.Names`: a word stands in a text as a whole identifier and is not renamed

## Main Statements

* `Handler.names_append_of_gap`, `Handler.names_append_of_word`: which words a text names, told from
  its first gap or its first identifier
* `Handler.names_join`: **the words that a list names are the exported names**
* `Handler.names_of_occursIn`, `Handler.occursIn_of_names`: an export list is met exactly if the
  list names the method
* `Handler.verbs_exportList`: **the handlers of an export list**

## Design Notes

The signature looks for the method anywhere between the braces, so it has to be told where in a list
a whole identifier can stand. A list is a row of gaps and identifiers, and one law for each of the
two moves the question to what follows. The word `as` is an identifier like any other, which is why
the laws are about words other than that.
-/

namespace RouteDocs

namespace Handler

open Pattern

/-- An identifier: word characters and dollar signs. -/
abbrev Identifier := Text.Run1 isIdentifierPart

/-- The name under which something is exported, with what stands before it. -/
structure Renaming where
  /-- The blanks before the keyword. -/
  before : Text.Run1 CodePoint.isBlank
  /-- The blanks behind the keyword. -/
  after : Text.Run1 CodePoint.isBlank
  /-- The name. -/
  name : Identifier

/-- **What a list exports**: something by its own name, or under another one. -/
structure Specifier where
  /-- The blanks before it. -/
  before : Blanks
  /-- Its own name. -/
  name : Identifier
  /-- The name under which it is exported, if that is another one. -/
  renaming? : Option Renaming
  /-- The blanks behind it. -/
  after : Blanks

/-- How a renaming is written. -/
def Renaming.text (r : Renaming) : Text :=
  r.before.text ++ ("as" ++ (r.after.text ++ r.name.text))

namespace Specifier

/-- How a specifier is written. -/
def text (s : Specifier) : Text :=
  s.before.text ++ (s.name.text ++ (s.renaming?.elim [] Renaming.text ++ s.after.text))

/-- The name under which it is exported. -/
def exported (s : Specifier) : Text := s.renaming?.elim s.name.text (·.name.text)

end Specifier

/-- How the end of a list is written: a comma with blanks behind it, or nothing. -/
def listEnd (trailing? : Option Blanks) : Text := trailing?.elim [] fun gap => "," ++ gap.text

/-- A file with an export list. -/
def exportList (specifiers : List Specifier) (trailing? : Option Blanks) : Text :=
  "export \x7b" ++ (Text.join "," (specifiers.map Specifier.text) ++ listEnd trailing?) ++ "\x7d"

/-- A text goes on with the keyword of a renaming. -/
def IsRenamed (t : Text) : Prop :=
  ∃ gap rest : Text, gap ≠ [] ∧ (∀ c ∈ gap, c.isBlank = true) ∧ t = gap ++ ("as" ++ rest) ∧
    rest.head?.any CodePoint.isWord = false

/-- **A word stands in a text as a whole identifier** and is not renamed. -/
def Names (word t : Text) : Prop :=
  ∃ before after : Text, t = before ++ (word ++ after) ∧
    before.getLast?.any isIdentifierPart = false ∧ after.head?.any isIdentifierPart = false ∧
    ¬IsRenamed after

variable {t gap r content list method : Text} {a : CodePoint} {i : Identifier}

/-! ### Characters of Identifiers -/

/-- Blanks are no characters of identifiers. -/
theorem isIdentifierPart_eq_false_of_isBlank {c : CodePoint} (blank : c.isBlank = true) :
    isIdentifierPart c = false := by
  rw [isIdentifierPart, Bool.or_eq_false_iff, beq_eq_false_iff_ne]
  refine ⟨CodePoint.isWord_eq_false_of_isBlank blank, ?_⟩
  rintro rfl
  exact absurd blank (by decide)

theorem isIdentifierPart_blanks (g : Blanks) : ∀ c ∈ g.text, isIdentifierPart c = false :=
  fun c mem => isIdentifierPart_eq_false_of_isBlank (g.inClass c mem)

/-- Behind blanks, or none, stands no character of an identifier, if none stands there without
them. -/
theorem any_head?_blanks (g : Blanks) (stop : t.head?.any isIdentifierPart = false) :
    (g.text ++ t).head?.any isIdentifierPart = false := by
  cases text : g.text with
  | nil => exact stop
  | cons c more => exact isIdentifierPart_blanks g c (text ▸ List.mem_cons_self)

theorem any_head?_blanks1 (g : Text.Run1 CodePoint.isBlank) (t : Text) :
    (g.text ++ t).head?.any isIdentifierPart = false := by
  obtain ⟨c, more, text⟩ := List.exists_cons_of_ne_nil g.nonempty
  rw [text]
  exact isIdentifierPart_blanks g.toRun c (text ▸ List.mem_cons_self)

/-! ### Words That a Text Names -/

/-- No word stands in a gap. -/
theorem not_names_of_gap (other : ∀ c ∈ t, isIdentifierPart c = false) : ¬Names i.text t := by
  rintro ⟨before, after, rfl, -⟩
  obtain ⟨c, mem⟩ := List.exists_mem_of_ne_nil i.text i.nonempty
  have first := other c (List.mem_append_right _ (List.mem_append_left _ mem))
  rw [i.inClass c mem] at first
  cases first

/-- **A gap is passed over.** -/
theorem names_append_of_gap (other : ∀ c ∈ gap, isIdentifierPart c = false) :
    Names i.text (gap ++ t) ↔ Names i.text t := by
  constructor
  · rintro ⟨before, after, eq, last, first, own⟩
    rcases List.append_eq_append_iff.mp eq with ⟨u, rfl, later⟩ | ⟨u, rfl, later⟩
    · refine ⟨u, after, later, ?_, first, own⟩
      by_cases empty : u = []
      · rw [empty]
        rfl
      · rwa [Text.any_getLast?_append gap empty] at last
    · -- The word would begin in the gap.
      cases u with
      | nil => exact ⟨[], after, later.symm, rfl, first, own⟩
      | cons c u =>
          obtain ⟨d, more, word⟩ := List.exists_cons_of_ne_nil i.nonempty
          rw [word] at later
          obtain rfl : d = c := (List.cons.inj later).1
          have inGap := other d (List.mem_append_right _ List.mem_cons_self)
          rw [i.inClass d (word ▸ List.mem_cons_self)] at inGap
          cases inGap
  · rintro ⟨before, after, rfl, last, first, own⟩
    refine ⟨gap ++ before, after, (List.append_assoc _ _ _).symm, ?_, first, own⟩
    by_cases empty : before = []
    · rw [empty, List.append_nil]
      exact Text.any_getLast?_eq_false other
    · rwa [Text.any_getLast?_append gap empty]

theorem names_cons_of_mark (mark : isIdentifierPart a = false) :
    Names i.text (a :: t) ↔ Names i.text t :=
  @names_append_of_gap t [a] i (List.forall_mem_singleton.mpr mark)

/-- **An identifier is named if it is the word and not renamed**; the other words are named by what
follows it. -/
theorem names_append_of_word (i j : Identifier) (stop : t.head?.any isIdentifierPart = false) :
    Names i.text (j.text ++ t) ↔ (i.text = j.text ∧ ¬IsRenamed t) ∨ Names i.text t := by
  constructor
  · rintro ⟨before, after, eq, last, first, own⟩
    by_cases front : before = []
    · rw [front, List.nil_append] at eq
      have same : j.text = i.text := by
        have same := congrArg (List.takeWhile isIdentifierPart) eq
        rwa [Text.takeWhile_append_of_ends j.inClass ((Option.any_eq_false _ _).mp stop),
          Text.takeWhile_append_of_ends i.inClass ((Option.any_eq_false _ _).mp first)] at same
      rw [same] at eq
      obtain rfl : t = after := List.append_cancel_left eq
      exact .inl ⟨same.symm, own⟩
    · rcases List.append_eq_append_iff.mp eq with ⟨u, rfl, later⟩ | ⟨u, word, -⟩
      · by_cases empty : u = []
        · rw [empty, List.append_nil, Text.any_getLast? j.nonempty j.inClass] at last
          cases last
        · rw [Text.any_getLast?_append j.text empty] at last
          exact .inr ⟨u, after, later, last, first, own⟩
      · have inWord := Text.any_getLast? front fun c mem =>
          j.inClass c (word ▸ List.mem_append_left u mem)
        rw [inWord] at last
        cases last
  · rintro (⟨same, own⟩ | ⟨before, after, rfl, last, first, own⟩)
    · exact ⟨[], t, by rw [same, List.nil_append], rfl, stop, own⟩
    · refine ⟨j.text ++ before, after, (List.append_assoc _ _ _).symm, ?_, first, own⟩
      by_cases empty : before = []
      · rw [empty, List.nil_append, Text.any_head?_append i.nonempty i.inClass] at stop
        cases stop
      · rwa [Text.any_getLast?_append j.text empty]

/-! ### Renaming -/

/-- A renaming is known by its keyword. -/
theorem isRenamed_append (g : Text.Run1 CodePoint.isBlank)
    (stop : r.head?.any isIdentifierPart = false) : IsRenamed (g.text ++ ("as" ++ r)) := by
  refine ⟨g.text, r, g.nonempty, g.inClass, rfl, (Option.any_eq_false _ _).mpr fun c first => ?_⟩
  exact (Bool.or_eq_false_iff.mp ((Option.any_eq_false _ _).mp stop c first)).1

/-- Blanks before a mark begin no renaming. -/
theorem not_isRenamed (g : Blanks) (visible : a.isBlank = false) (mark : a ≠ 'a') :
    ¬IsRenamed (g.text ++ a :: r) := by
  rintro ⟨gap, rest, -, blank, eq, -⟩
  have same := congrArg (List.dropWhile CodePoint.isBlank) eq
  rw [Text.dropWhile_append_of_ends g.inClass, Text.dropWhile_append_of_ends blank] at same
  · exact mark (List.cons.inj same).1
  · rintro _ ⟨⟩
    rfl
  · rintro _ ⟨⟩
    exact visible

/-! ### Words That a List Names -/

/-- The keyword of a renaming. -/
def keyword : Identifier where
  text := "as"
  inClass := List.all_eq_true.mp rfl
  nonempty := by decide

/-- **A specifier names what it exports**, whatever mark stands behind it. -/
theorem names_specifier (other : i.text ≠ keyword.text) (visible : a.isBlank = false)
    (mark : isIdentifierPart a = false) (s : Specifier) :
    Names i.text (s.text ++ a :: r) ↔ i.text = s.exported ∨ Names i.text r := by
  have stop : (s.after.text ++ a :: r).head?.any isIdentifierPart = false :=
    any_head?_blanks s.after mark
  have own : ¬IsRenamed (s.after.text ++ a :: r) :=
    not_isRenamed s.after visible (by rintro rfl; exact absurd mark (by decide))
  have rest : Names i.text (s.after.text ++ a :: r) ↔ Names i.text r := by
    rw [names_append_of_gap (isIdentifierPart_blanks s.after)]
    exact names_cons_of_mark mark
  have last (j : Identifier) : Names i.text (j.text ++ (s.after.text ++ a :: r)) ↔
      i.text = j.text ∨ Names i.text r := by
    rw [names_append_of_word i j stop, rest]
    exact or_congr_left (and_iff_left own)
  rw [Specifier.text, List.append_assoc, List.append_assoc, List.append_assoc,
    names_append_of_gap (isIdentifierPart_blanks s.before), Specifier.exported]
  cases s.renaming? with
  | none =>
      simp only [Option.elim, List.nil_append]
      exact last s.name
  | some change =>
      -- The keyword is an identifier that is not the word.
      have behind : Names i.text (keyword.text ++ (change.after.text ++ (change.name.text ++
          (s.after.text ++ a :: r)))) ↔ i.text = change.name.text ∨ Names i.text r := by
        rw [names_append_of_word i keyword (any_head?_blanks1 change.after _),
          or_iff_right fun same => other same.1,
          names_append_of_gap (isIdentifierPart_blanks change.after.toRun), last]
      have isRenamed := isRenamed_append change.before
        (any_head?_blanks1 change.after (change.name.text ++ (s.after.text ++ a :: r)))
      simp only [Option.elim, Renaming.text, List.append_assoc]
      rw [names_append_of_word i s.name (any_head?_blanks1 change.before _),
        or_iff_right fun same => same.2 isRenamed,
        names_append_of_gap (isIdentifierPart_blanks change.before.toRun)]
      exact behind

/-- Nothing is named behind the last specifier. -/
theorem not_names_listEnd (trailing? : Option Blanks) :
    ¬Names i.text (listEnd trailing? ++ "\x7d") := by
  refine not_names_of_gap fun c mem => ?_
  rcases List.mem_append.mp mem with inEnd | brace
  · cases trailing? with
    | none => cases inEnd
    | some gap =>
        rcases List.mem_append.mp inEnd with comma | blank
        · rw [List.mem_singleton.mp comma]
          decide
        · exact isIdentifierPart_blanks gap c blank
  · rw [List.mem_singleton.mp brace]
    decide

/-- Behind the last specifier stands a mark. -/
theorem exists_listEnd_eq (trailing? : Option Blanks) :
    ∃ a r, listEnd trailing? ++ ("\x7d" : Text) = a :: r ∧ a.isBlank = false ∧
      isIdentifierPart a = false := by
  cases trailing? with
  | none => exact ⟨_, _, rfl, by decide, by decide⟩
  | some gap => exact ⟨_, _, rfl, by decide, by decide⟩

/-- **The words that a list names are the exported names.** -/
theorem names_join (other : i.text ≠ keyword.text) (specifiers : List Specifier)
    (trailing? : Option Blanks) :
    Names i.text (Text.join "," (specifiers.map Specifier.text) ++ (listEnd trailing? ++ "\x7d")) ↔
      i.text ∈ specifiers.map Specifier.exported := by
  induction specifiers with
  | nil => exact iff_of_false (not_names_listEnd trailing?) List.not_mem_nil
  | cons s more ih =>
      rw [List.map_cons, List.map_cons, List.mem_cons]
      cases more with
      | nil =>
          have nothing := not_names_listEnd (i := i) trailing?
          obtain ⟨a, r, eq, visible, mark⟩ := exists_listEnd_eq trailing?
          rw [eq] at nothing ⊢
          rw [List.map_nil, Text.join_singleton, names_specifier other visible mark]
          refine or_congr_right (iff_of_false (fun names => nothing ?_) List.not_mem_nil)
          exact (names_cons_of_mark mark).mpr names
      | cons s' more =>
          rw [List.map_cons, Text.join_cons_cons, List.append_assoc, List.append_assoc]
          refine (names_specifier (a := ',') other (by decide) (by decide) s).trans ?_
          exact or_congr_right ih

/-! ### Looking for a Method -/

/-- No identifier stands right there exactly if the next code point is none of an identifier. -/
theorem exists_reads_one_iff {cls : CodePoint → Bool} {c : Cursor} {gs : Groups} :
    (∃ y, (one cls).Reads (c, gs) y) ↔ c.rest.head?.any cls = true := by
  constructor
  · rintro ⟨y, a, inClass, passes, -⟩
    rw [passes.rest]
    exact inClass
  · intro inClass
    obtain ⟨seen, _ | ⟨a, r⟩⟩ := c
    · cases inClass
    · exact ⟨(⟨a :: seen, r⟩, gs), a, inClass, Cursor.passes_cons seen a r, rfl⟩

/-- The pattern of a renaming is read where one stands. -/
theorem exists_reads_renaming_iff {c : Cursor} {gs : Groups} :
    (∃ y, (blanks1 ++ lit "as" ++ wordEdge).Reads (c, gs) y) ↔ IsRenamed c.rest := by
  have edge_iff {d e : Cursor} (passes : Cursor.Passes "as" d e) :
      e.isWordEdge = true ↔ e.rest.head?.any CodePoint.isWord = false := by
    have last : e.seen.head?.any CodePoint.isWord = true := by
      rw [passes.seen]
      rfl
    rw [Cursor.isWordEdge, last, Bool.true_bne, Bool.not_eq_true']
  constructor
  · rintro ⟨y, z, ⟨x, gap, keyword⟩, rfl, edge⟩
    obtain ⟨w, ne, blank, passes, -⟩ := gap.of_run1
    obtain ⟨passes', -⟩ := keyword.of_lit
    exact ⟨w, y.1.rest, ne, blank, (passes.trans passes').rest.trans (List.append_assoc _ _ _),
      (edge_iff passes').mp edge⟩
  · rintro ⟨gap, rest, ne, blank, eq, stop⟩
    obtain ⟨d, passes, after⟩ := Cursor.exists_passes eq
    obtain ⟨e, passes', rfl⟩ := Cursor.exists_passes after
    exact ⟨(e, gs), (e, gs), ⟨(d, gs), reads_run1 ne blank passes, reads_lit passes'⟩, rfl,
      (edge_iff passes').mpr stop⟩

/-- The last code point that was seen is that of the text behind a mark, or the mark. -/
theorem any_head?_seen {c d e : Cursor} (mark : isIdentifierPart a = false)
    (first : Cursor.Passes [a] c d) (second : Cursor.Passes t d e) :
    e.seen.head?.any isIdentifierPart = t.getLast?.any isIdentifierPart := by
  rw [second.seen, first.seen, ← List.head?_reverse]
  cases t.reverse with
  | nil => exact mark
  | cons b r => rfl

/-- A text without closing braces is made of what stands within braces. -/
theorem notCloseBrace_of_notMem (closed : ('\x7d' : CodePoint) ∉ t) :
    ∀ c ∈ t, notCloseBrace c = true :=
  fun c mem => bne_iff_ne.mpr fun same => closed ((Fin.ext same : c = '\x7d') ▸ mem)

/-- A closing brace behind a list stands behind the method in it. -/
theorem exists_concat_of_append_eq {before after : Text}
    (eq : list ++ ("\x7d" : Text) = before ++ (i.text ++ after)) :
    ∃ w, list = before ++ (i.text ++ w) ∧ after = w ++ ("\x7d" : Text) := by
  rw [← List.append_assoc] at eq
  rcases List.eq_nil_or_concat after with rfl | ⟨w, b, rfl⟩
  · rw [List.append_nil] at eq
    have last := congrArg List.getLast? eq
    rw [List.getLast?_append_of_ne_nil _ (by decide), List.getLast?_append_of_ne_nil _ i.nonempty]
      at last
    exact absurd (i.inClass _ (List.mem_of_getLast? last.symm)) (by decide)
  · rw [List.concat_eq_append, ← List.append_assoc] at eq
    obtain ⟨front, last⟩ := List.append_inj' eq rfl
    exact ⟨w, front.trans (List.append_assoc _ _ _), by rw [last, List.concat_eq_append]⟩

/-- What is met as an export list is one that names the method: its opening brace is the only one of
the text, so the list is read from its start. -/
theorem names_of_occursIn (opened : ('\x7b' : CodePoint) ∉ list)
    (occurs : (listExport i.text).occursIn ("export \x7b" ++ list ++ "\x7d") = true) :
    Names i.text (list ++ "\x7d") := by
  obtain ⟨c, y, whole, c₉, ⟨c₈, ⟨c₇, ⟨c₆, ⟨c₅, ⟨c₄, ⟨c₃, ⟨c₂, ⟨c₁, keyword, gap⟩, brace⟩, short⟩,
    ⟨rfl, last⟩⟩, word⟩, ⟨rfl, stop⟩⟩, ⟨rfl, own⟩⟩, -⟩, -⟩ := occursIn_iff.mp occurs
  obtain ⟨w₁, -, passes₁, -⟩ := keyword.of_caseless
  obtain ⟨w₂, -, passes₂, -⟩ := gap
  obtain ⟨b, isBrace, passes₃, -⟩ := brace
  obtain ⟨before, -, passes₄, -⟩ := short
  obtain ⟨passes₅, -⟩ := word.of_lit
  obtain rfl : b = '\x7b' := Fin.ext (eq_of_beq isBrace)
  -- the brace that was read is the only one, so the list begins behind it
  have parted : c.seen.reverse ++ (w₁ ++ w₂) ++ ('\x7b' : CodePoint) :: c₃.1.rest =
      "export " ++ ('\x7b' : CodePoint) :: (list ++ "\x7d" : Text) := by
    have read : c.rest = _ := ((passes₁.trans passes₂).trans passes₃).rest
    rw [read] at whole
    simp only [List.append_assoc, List.singleton_append] at whole ⊢
    exact whole
  have inside : c₃.1.rest = list ++ "\x7d" :=
    (Text.eq_of_append_cons_eq parted (by decide) fun mem =>
      (List.mem_append.mp mem).elim opened (by decide)).2
  have edge : before.getLast?.any isIdentifierPart = false := by
    rwa [any_head?_seen (by decide) passes₃ passes₄] at last
  refine ⟨before, c₈.1.rest, ?_, edge, ?_, fun renamed => ?_⟩
  · rw [← inside, passes₄.rest, passes₅.rest]
  · exact Bool.eq_false_iff.mpr fun goesOn =>
      Bool.false_ne_true (stop.mp (exists_reads_one_iff.mpr goesOn))
  · exact Bool.false_ne_true (own.mp (exists_reads_renaming_iff.mpr renamed))

/-- A list that names the method is met as an export list. -/
theorem occursIn_of_names (closed : ('\x7d' : CodePoint) ∉ list)
    (names : Names i.text (list ++ "\x7d")) :
    (listExport i.text).occursIn ("export \x7b" ++ list ++ "\x7d") = true := by
  obtain ⟨before, after, eq, last, stop, own⟩ := names
  obtain ⟨w, rfl, rfl⟩ := exists_concat_of_append_eq eq
  obtain ⟨front, back⟩ := List.forall_mem_append.mp (notCloseBrace_of_notMem closed)
  obtain ⟨-, back⟩ := List.forall_mem_append.mp back
  have text : (Cursor.start ("export \x7b" ++ (before ++ (i.text ++ w)) ++ "\x7d")).rest =
      "export" ++ (" " ++ ("\x7b" ++ (before ++ (i.text ++ (w ++ "\x7d"))))) := by
    simp only [Cursor.start, List.append_assoc]
    rfl
  obtain ⟨c₁, passes₁, rest₁⟩ := Cursor.exists_passes text
  obtain ⟨c₂, passes₂, rest₂⟩ := Cursor.exists_passes rest₁
  obtain ⟨c₃, passes₃, rest₃⟩ := Cursor.exists_passes rest₂
  obtain ⟨c₅, passes₄, rest₅⟩ := Cursor.exists_passes rest₃
  obtain ⟨c₈, passes₅, rest₈⟩ := Cursor.exists_passes rest₅
  obtain ⟨c₉, passes₆, rest₉⟩ := Cursor.exists_passes rest₈
  obtain ⟨c, passes₇, -⟩ := Cursor.exists_passes (rest₉.trans (List.append_nil _).symm)
  have keyword : (caseless "export").Reads (Cursor.start _, []) (c₁, []) :=
    reads_caseless (List.forall₂_same.mpr (List.all_eq_true.mp rfl)) passes₁
  have apart : c₅.seen.head?.any isIdentifierPart = false := by
    rwa [any_head?_seen (a := '\x7b') (by decide) passes₃ passes₄]
  have stop' : (∃ z, (one isIdentifierPart).Reads (c₈, []) z) ↔ false = true := by
    rw [exists_reads_one_iff, rest₈, stop]
  have own' : (∃ z, (blanks1 ++ lit "as" ++ wordEdge).Reads (c₈, []) z) ↔ false = true := by
    rw [exists_reads_renaming_iff, rest₈]
    exact iff_of_false own Bool.false_ne_true
  -- a pattern is put together from the left, so its last part stands outermost
  refine occursIn_iff.mpr ⟨Cursor.start _, (c, []), rfl, (c₉, []), ⟨(c₈, []), ⟨(c₈, []), ⟨(c₈, []),
    ⟨(c₅, []), ⟨(c₅, []), ⟨(c₃, []), ⟨(c₂, []), ⟨(c₁, []), keyword, ?_⟩, ?_⟩, ?_⟩, rfl, apart⟩,
    reads_lit passes₅⟩, rfl, stop'⟩, rfl, own'⟩, ?_⟩, ?_⟩
  · exact ⟨" ", List.all_eq_true.mp rfl, passes₂, rfl⟩
  · exact ⟨'\x7b', rfl, passes₃, rfl⟩
  · exact ⟨before, front, passes₄, rfl⟩
  · exact ⟨w, back, passes₆, rfl⟩
  · exact ⟨'\x7d', rfl, passes₇, rfl⟩

/-- **An export list is met if the list names the method.** -/
theorem occursIn_listExport_iff (opened : ('\x7b' : CodePoint) ∉ list)
    (closed : ('\x7d' : CodePoint) ∉ list) :
    (listExport i.text).occursIn ("export \x7b" ++ list ++ "\x7d") = true ↔
      Names i.text (list ++ "\x7d") :=
  ⟨names_of_occursIn opened, occursIn_of_names closed⟩

/-! ### The Handlers of an Export List -/

/-- **A handler is found if one of its signatures occurs.** -/
theorem isSome_offset?_iff : (offset? content method).isSome = true ↔
    ∃ p ∈ signatures method, p.occursIn content = true := by
  rw [offset?, List.isSome_min?_iff, ne_eq, List.filterMap_eq_nil_iff, not_forall₂]
  refine exists_congr fun p => ?_
  rw [exists_prop, Option.map_eq_none_iff, occursIn, Option.isSome_iff_ne_none]

/-- A function is not exported without a bracket behind its name. -/
theorem exists_bracket_of_occursIn (occurs : (functionExport method).occursIn content = true) :
    ('(' : CodePoint) ∈ content ∨ ('<' : CodePoint) ∈ content := by
  obtain ⟨c, y, rfl, z, reads, a, bracket, passes, -⟩ := occursIn_iff.mp occurs
  obtain ⟨w, passes'⟩ := reads.exists_passes
  have within : a ∈ c.seen.reverse ++ c.rest := by
    rw [show c.rest = _ from (passes'.trans passes).rest]
    simp
  rcases (Bool.or_eq_true _ _).mp bracket with same | same
  · exact .inl (eq_of_beq same ▸ within)
  · exact .inr (eq_of_beq same ▸ within)

/-- A constant is not exported without an equals sign. -/
theorem mem_of_occursIn (occurs : (constantExport method).occursIn content = true) :
    ('=' : CodePoint) ∈ content := by
  obtain ⟨c, y, rfl, z, reads, x, reads', sign⟩ := occursIn_iff.mp occurs
  obtain ⟨w, passes⟩ := reads.exists_passes
  obtain ⟨w', passes'⟩ := reads'.exists_passes
  have within : ('=' : CodePoint) ∈ ("=" : Text) := List.mem_singleton.mpr rfl
  rw [show c.rest = _ from ((passes.trans passes').trans sign.of_lit.1).rest]
  simp [within]

/-- Code points of export lists. -/
def isListPart (c : CodePoint) : Bool :=
  isIdentifierPart c || c.isBlank || c == ','

theorem isListPart_identifier (i : Identifier) : ∀ c ∈ i.text, isListPart c = true :=
  fun c mem => by rw [Handler.isListPart, i.inClass c mem]; rfl

theorem isListPart_blanks (g : Blanks) : ∀ c ∈ g.text, isListPart c = true :=
  fun c mem => by rw [Handler.isListPart, g.inClass c mem, Bool.or_true]; rfl

theorem Renaming.isListPart (r : Renaming) : ∀ c ∈ r.text, isListPart c = true := by
  rw [Renaming.text]
  simp only [List.forall_mem_append]
  exact ⟨isListPart_blanks r.before.toRun, List.all_eq_true.mp rfl,
    isListPart_blanks r.after.toRun, isListPart_identifier r.name⟩

theorem Specifier.isListPart (s : Specifier) : ∀ c ∈ s.text, isListPart c = true := by
  rw [Specifier.text]
  simp only [List.forall_mem_append]
  refine ⟨isListPart_blanks s.before, isListPart_identifier s.name, ?_, isListPart_blanks s.after⟩
  cases s.renaming? with
  | none => exact List.forall_mem_nil _
  | some change => exact change.isListPart

/-- A list consists of identifiers, blanks and commas. -/
theorem isListPart_join (specifiers : List Specifier) (trailing? : Option Blanks) :
    ∀ c ∈ Text.join "," (specifiers.map Specifier.text) ++ listEnd trailing?,
      isListPart c = true := by
  refine List.forall_mem_append.mpr ⟨fun c mem => ?_, ?_⟩
  · rcases Text.mem_of_mem_join mem with comma | ⟨t, inList, mem⟩
    · rw [List.mem_singleton.mp comma]
      rfl
    · obtain ⟨s, -, rfl⟩ := List.mem_map.mp inList
      exact s.isListPart c mem
  · cases trailing? with
    | none => exact List.forall_mem_nil _
    | some gap => exact List.forall_mem_append.mpr ⟨List.all_eq_true.mp rfl, isListPart_blanks gap⟩

/-- The only brackets of a file with an export list are its braces. -/
theorem notMem_exportList (specifiers : List Specifier) (trailing? : Option Blanks)
    (other : isListPart a = false) (opening : a ≠ '\x7b') (closing : a ≠ '\x7d') :
    a ∉ exportList specifiers trailing? := by
  rw [exportList, List.mem_append, List.mem_append, not_or, not_or]
  refine ⟨⟨fun front => ?_, fun inList => ?_⟩, fun back => closing (List.mem_singleton.mp back)⟩
  · have keyword : ∀ c ∈ ("export \x7b" : Text), (isListPart c || c == '\x7b') = true :=
      List.all_eq_true.mp rfl
    have same := keyword a front
    rw [other, Bool.false_or] at same
    exact opening (eq_of_beq same)
  · rw [isListPart_join specifiers trailing? a inList] at other
    cases other

/-- **A method is found in an export list exactly if it is exported.** -/
theorem isSome_offset?_exportList (other : i.text ≠ keyword.text) (specifiers : List Specifier)
    (trailing? : Option Blanks) :
    (offset? (exportList specifiers trailing?) i.text).isSome = true ↔
      i.text ∈ specifiers.map Specifier.exported := by
  have clean {a : CodePoint} (mark : isListPart a = false) :
      a ∉ Text.join "," (specifiers.map Specifier.text) ++ listEnd trailing? := fun mem => by
    rw [isListPart_join specifiers trailing? a mem] at mark
    cases mark
  have noFunction : ¬(functionExport i.text).occursIn (exportList specifiers trailing?) = true :=
    fun occurs => (exists_bracket_of_occursIn occurs).elim
      (notMem_exportList specifiers trailing? (by decide) (by decide) (by decide))
      (notMem_exportList specifiers trailing? (by decide) (by decide) (by decide))
  have noConstant : ¬(constantExport i.text).occursIn (exportList specifiers trailing?) = true :=
    fun occurs => notMem_exportList specifiers trailing? (by decide) (by decide) (by decide)
      (mem_of_occursIn occurs)
  calc (offset? (exportList specifiers trailing?) i.text).isSome = true
      ↔ (listExport i.text).occursIn (exportList specifiers trailing?) = true := by
        rw [isSome_offset?_iff, signatures, List.exists_mem_cons_iff, or_iff_right noFunction,
          List.exists_mem_cons_iff, or_iff_right noConstant, List.exists_mem_cons_iff,
          or_iff_left (by simp)]
    _ ↔ Names i.text (Text.join "," (specifiers.map Specifier.text) ++
          (listEnd trailing? ++ "\x7d")) := by
        rw [exportList, occursIn_listExport_iff (clean (by decide)) (clean (by decide)),
          List.append_assoc]
    _ ↔ i.text ∈ specifiers.map Specifier.exported := names_join other specifiers trailing?

/-- The name of a verb is an identifier. -/
def ofVerb (v : Verb) : Identifier :=
  .of v.name (by cases v <;> rfl) (by cases v <;> rfl)

/-- **The handlers of an export list** are those of the exported names, each once and in canonical
order: a name counts as what it is exported as, and only as a whole. -/
theorem verbs_exportList (specifiers : List Specifier) (trailing? : Option Blanks) :
    verbs (exportList specifiers trailing?) =
      Verb.all.filter fun v => (specifiers.map Specifier.exported).contains v.name := by
  refine List.filter_congr fun v _ => ?_
  have other : (ofVerb v).text ≠ keyword.text := by cases v <;> decide
  rw [Bool.eq_iff_iff, List.contains_iff_mem]
  exact isSome_offset?_exportList other specifiers trailing?

/-- A specifier that renames what it exports, and a plain one. -/
def renamedAndPlain : List Specifier :=
  let get : Renaming := ⟨oneBlank, oneBlank, .of "GET" rfl rfl⟩
  [⟨oneBlank.toRun, .of "PUT" rfl rfl, some get, .empty⟩,
    ⟨oneBlank.toRun, .of "POST" rfl rfl, none, oneBlank.toRun⟩]

/-- The file of the two specifiers has the handlers of the new name and of the plain one. -/
theorem verbs_exportList_renamedAndPlain :
    exportList renamedAndPlain none = "export \x7b PUT as GET, POST \x7d" ∧
      verbs (exportList renamedAndPlain none) = [.get, .post] :=
  ⟨by decide, (verbs_exportList renamedAndPlain none).trans (by decide)⟩

end Handler

end RouteDocs
