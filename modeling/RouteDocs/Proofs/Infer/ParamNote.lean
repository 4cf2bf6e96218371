import RouteDocs.Infer.Parameters
import RouteDocs.Proofs.Text.Case
import RouteDocs.Proofs.Text.Digit
import RouteDocs.Proofs.Text.Occurrence
import RouteDocs.Proofs.Text.Search

/-!
# Annotated Parameters Are Read Back

A comment can annotate the parameters of a handler, one on each line, with a type, a location, a
name and a description.  What was written in this way is found again, each parameter in exactly one
location.

## Main Definitions

* `ParamNote.Place`: where an annotation says that a parameter belongs
* `ParamNote.Written`: what is written, and `Written.line`, how it is written

## Main Statements

* `ParamNote.exists_matchAt?_item`: what is written is read from the mark to the end of its line
* `ParamNote.isWord_single_of_mem_all`: what names and descriptions of annotations are like
* `ParamNote.all_source`: the annotations of a comment are those that were written
* `ParamNote.annotated_reads_written`: **annotated parameters are read back**, each in one location

## Design Notes

An annotation has three parts that may be missing: the bracket before the name, the location and the
bracket behind the name.  A fourth one, a hyphen before the description, is never written.  For each
of them one lemma says what is read, whether the part is there or not.
-/

namespace RouteDocs

namespace ParamNote

open Pattern

/-- Where an annotation says that a parameter belongs. -/
inductive Place where
  | query | body
  deriving DecidableEq, Repr

namespace Place

/-- The word for a place. -/
def word : Place → Text
  | query => "query"
  | body => "body"

/-- The location of the parameters that belong to a place. -/
def location : Place → Location
  | query => .query
  | body => .body

end Place

/-- **What is written about a parameter.** -/
structure Written where
  /-- The type. -/
  type : Text
  /-- There is a type. -/
  typed : type ≠ []
  /-- There are no blanks around the type. -/
  bare : Text.strip type = type
  /-- The type has no closing brace. -/
  closed : ('\x7d' : CodePoint) ∉ type
  /-- The type does not end in a question mark of its own. -/
  certain : type.getLast? ≠ some ('?' : CodePoint)
  /-- Whether a question mark is put behind the type. -/
  isMarked : Bool
  /-- Whether the name, with its place, is put in brackets. -/
  isBracketed : Bool
  /-- The place that is put before the name, if there is one. -/
  place? : Option Place
  /-- The name. -/
  name : Text
  /-- There is a name. -/
  named : name ≠ []
  /-- The name is a word. -/
  isWord : ∀ c ∈ name, c.isWord = true
  /-- The name is not that of an argument of the handler. -/
  notArgument : Text.lower name ∉ handlerArguments
  /-- The description. -/
  description : Text
  /-- There is a description. -/
  described : description ≠ []
  /-- There are no blanks around the description. -/
  trimmed : Text.strip description = description
  /-- The description is on one line. -/
  single : ('\n' : CodePoint) ∉ description
  /-- The description does not begin with a hyphen. -/
  unhyphened : description.head? ≠ some ('-' : CodePoint)

namespace Written

variable (r : Written)

/-- The type with the question mark behind it, if there is one. -/
def rawType : Text := r.type ++ if r.isMarked then ("?" : Text) else []

/-- The bracket before the name, if there is one. -/
def opening : Text := if r.isBracketed then ("[" : Text) else []

/-- The place with the point behind it, if there is one. -/
def mark : Text := r.place?.elim [] fun place => place.word ++ "."

/-- The bracket behind the name, if there is one. -/
def closing : Text := if r.isBracketed then ("]" : Text) else []

/-- What stands between the type and the description. -/
def label : Text := r.opening ++ (r.mark ++ (r.name ++ r.closing))

/-- What is written from the sign of the annotation to the end of the line. -/
def item : Text := "@param \x7b" ++ r.rawType ++ "\x7d " ++ r.label ++ " " ++ r.description

/-- The line of a comment that says it. -/
def line : Text := " * " ++ r.item

/-- The annotation that is meant. -/
def note : ParamNote :=
  ⟨r.type, r.isMarked || r.isBracketed, r.place?.map Place.location, r.name, r.description⟩

/-- Where the parameter belongs, if those without a place belong to a default one. -/
def placeOr (default : Place) : Place := r.place?.getD default

end Written

/-- The parameter that is meant, if those without a place belong to a default one. -/
def Written.parameter (default : Place) (r : Written) : Parameter :=
  ⟨r.name, r.type, !(r.isMarked || r.isBracketed), (r.placeOr default).location,
    some r.description, .null⟩

/-- A comment of annotations, one on each line. -/
def source (rs : List Written) : Text := Text.join "\n" (rs.map Written.line)

variable {r : Written} {c d : Cursor} {gs : Groups} {rest t w s : Text} {a : CodePoint}

/-! ### Parts That May Be Missing -/

/-- What no letter of a text is in any letter case is not in the text in any letter case. -/
theorem notMem_of_forall₂_sameLetter
    (same : List.Forall₂ (fun a b => CodePoint.sameLetter a b = true) t w)
    (other : (t.all fun b => !CodePoint.sameLetter b a) = true) : a ∉ w := by
  induction same with
  | nil => exact List.not_mem_nil
  | cons first _ ih =>
      rw [List.all_cons, Bool.and_eq_true, Bool.not_eq_true'] at other
      rintro (_ | ⟨_, later⟩)
      · rw [first] at other
        exact absurd other.1 (by decide)
      · exact ih other.2 later

/-- What follows the bracket before a name begins with a letter of a word. -/
theorem isWord_head_label (r : Written) (t : Text) :
    ∀ x ∈ (r.mark ++ (r.name ++ t)).head?, x.isWord = true := by
  rw [Written.mark]
  cases r.place? with
  | none =>
      obtain ⟨a, name, eq⟩ := List.exists_cons_of_ne_nil r.named
      rw [eq]
      rintro _ ⟨⟩
      exact r.isWord a (eq ▸ List.mem_cons_self)
  | some place => cases place <;> rintro _ ⟨⟩ <;> rfl

/-- The bracket before the name is read if it is there. -/
theorem exists_leads_opening (passes : Cursor.Passes r.opening c d)
    (next : ∀ x ∈ d.rest.head?, x.isWord = true) :
    ∃ o : Option (Cursor × Cursor), o.isSome = r.isBracketed ∧ ∀ gs,
      (optional (group 2 (lit "["))).Leads (c, gs) (d, (o.toList.map fun g => (2, g)) ++ gs) := by
  rw [Written.opening] at passes
  cases bracketed : r.isBracketed with
  | true =>
      rw [bracketed] at passes
      exact ⟨some (c, d), rfl, fun gs => ((leads_lit passes).group 2).alt empty⟩
  | false =>
      rw [bracketed] at passes
      obtain rfl : d = c := passes.eq_of_nil
      have fails (gs : Groups) : (lit "[").Fails (d, gs) := fails_one fun x first => by
        refine beq_eq_false_iff_ne.mpr fun same => ?_
        rw [same] at first
        exact absurd (next _ first) (by decide)
      exact ⟨none, rfl, fun gs => leads_alt_right ((fails gs).group 2) (leads_empty _)⟩

/-- The bracket behind the name is read if it is there. -/
theorem leads_closing (passes : Cursor.Passes r.closing c d)
    (next : ∀ x ∈ d.rest.head?, x = ' ') :
    (optional (lit "]")).Leads (c, gs) (d, gs) := by
  rw [Written.closing] at passes
  cases bracketed : r.isBracketed with
  | true =>
      rw [bracketed] at passes
      exact (leads_lit passes).alt empty
  | false =>
      rw [bracketed] at passes
      obtain rfl : d = c := passes.eq_of_nil
      have fails : (lit "]").Fails (d, gs) := fails_one fun x first => by
        rw [next x first]
        rfl
      exact leads_alt_right fails (leads_empty _)

/-- A name is no place: no point stands behind it. -/
theorem fails_place (word : ∀ x ∈ t, x.isWord = true) (stop : a = ' ' ∨ a = ']')
    (text : c.rest = t ++ a :: rest) :
    (group 3 (alt (caseless "query") (caseless "body")) ++ lit ".").Fails (c, gs) := by
  refine fails_of_reads fun y reads => ?_
  obtain ⟨z, ⟨gs', reads, -⟩, point⟩ := reads
  obtain ⟨place, reads⟩ : ∃ place : Place, (caseless place.word).Reads (c, gs) (z.1, gs') :=
    reads.elim (fun reads => ⟨.query, reads⟩) fun reads => ⟨.body, reads⟩
  obtain ⟨w, same, passes, -⟩ := reads.of_caseless
  have other : a ∉ w := notMem_of_forall₂_sameLetter same <| by
    rcases stop with rfl | rfl <;> cases place <;> decide
  have begins : (w ++ "." : Text) <+: t ++ a :: rest :=
    ⟨y.1.rest, (passes.trans point.of_lit.1).rest.symm.trans text⟩
  have apart : a ∉ (w ++ "." : Text) := by
    refine mt List.mem_append.mp (not_or.mpr ⟨other, ?_⟩)
    rcases stop with rfl | rfl <;> decide
  have inside := Text.prefix_of_prefix_append_cons apart begins
  have isWord := word '.' (inside.subset (List.mem_append_right w List.mem_cons_self))
  exact absurd isWord (by decide)

/-- A place is read as itself. -/
theorem leads_place {place : Place} (passes : Cursor.Passes place.word c d) :
    (alt (caseless "query") (caseless "body")).Leads (c, gs) (d, gs) := by
  have same : List.Forall₂ (fun a b => CodePoint.sameLetter a b = true) place.word place.word := by
    refine List.forall₂_same.mpr (List.all_eq_true.mp ?_)
    cases place <;> rfl
  have leads : (caseless place.word).Leads (c, gs) (d, gs) := leads_caseless same passes
  cases place with
  | query => exact leads.alt _
  | body =>
      have first : (one (CodePoint.sameLetter 'q')).Fails (c, gs) := fails_one fun x first => by
        rw [passes.rest] at first
        cases first
        decide
      exact leads_alt_right (first.append _) leads

/-- The place before the name is read if it is there. -/
theorem exists_leads_place (passes : Cursor.Passes r.mark c d) (stop : a = ' ' ∨ a = ']')
    (text : d.rest = r.name ++ a :: rest) :
    ∃ o : Option (Cursor × Cursor),
      (o.map fun g => g.1.textUntil g.2) = r.place?.map Place.word ∧ ∀ gs,
      (optional (group 3 (alt (caseless "query") (caseless "body")) ++ lit ".")).Leads
        (c, gs) (d, (o.toList.map fun g => (3, g)) ++ gs) := by
  rw [Written.mark] at passes
  cases given : r.place? with
  | none =>
      rw [given] at passes
      obtain rfl : d = c := passes.eq_of_nil
      exact ⟨none, rfl, fun gs =>
        leads_alt_right (fails_place r.isWord stop text) (leads_empty _)⟩
  | some place =>
      rw [given] at passes
      obtain ⟨e, word, point⟩ := Cursor.Passes.of_append passes
      exact ⟨some (c, e), congrArg some word.textUntil, fun gs =>
        (((leads_place word).group 3).append (leads_lit point)).alt empty⟩

/-- No hyphen is read before a description that does not begin with one. -/
theorem fails_hyphen (visible : a.isBlank = false) (unhyphened : a ≠ '-')
    (text : c.rest = " " ++ a :: rest) : (blanks1 ++ lit "-").Fails (c, gs) := by
  refine fails_of_reads fun y reads => ?_
  obtain ⟨z, gap, hyphen⟩ := reads
  obtain ⟨w, -, blank, passes, -⟩ := gap.of_run1
  obtain ⟨d, space, text⟩ := Cursor.exists_passes text
  have after := hyphen.of_lit.1.rest
  -- The blanks end where the description begins.
  have same : z.1 = d := by
    refine passes.eq_of_run blank ?_ space (List.all_eq_true.mp rfl) ?_
    · rw [after]
      rfl
    · rw [text]
      exact visible
  rw [same, text] at after
  exact unhyphened (List.cons.inj after).1

/-! ### Reading an Annotation -/

/-- The pattern of an annotation up to the blanks behind the type. -/
def typed : Pattern :=
  caseless "@param" ++ blanks1 ++ one (fun c => c.val == 0x7B)
    ++ group 1 (run1 fun c => c.val != 0x7D) ++ one (fun c => c.val == 0x7D) ++ blanks1

/-- The pattern of an annotation up to the name and the bracket behind it. -/
def labelled : Pattern :=
  typed ++ optional (group 2 (lit "["))
    ++ optional (group 3 (alt (caseless "query") (caseless "body")) ++ lit ".")
    ++ group 4 word1 ++ optional (lit "]")

theorem pattern_eq : pattern = labelled ++ optional (blanks1 ++ lit "-")
    ++ run1 (fun c : CodePoint => c == ' ' || c == '\t')
    ++ group 5 (run1 fun c : CodePoint => c != '\n') := rfl

/-- The text that is remembered under a number. -/
def told? (gs : Groups) (n : Nat) : Option Text := (gs.lookup n).map fun g => g.1.textUntil g.2

/-- The type is what stands between the braces. -/
theorem exists_leads_typed {raw : Text} (ne : raw ≠ []) (closed : ('\x7d' : CodePoint) ∉ raw)
    (text : c.rest = "@param" ++ (" " ++ ("\x7b" ++ (raw ++ ("\x7d" ++ (" " ++ rest))))))
    (next : ∀ x ∈ rest.head?, x.isBlank = false) :
    ∃ d e e', typed.Leads (c, []) (d, [(1, e, e')]) ∧ e.textUntil e' = raw ∧ d.rest = rest := by
  obtain ⟨c₁, passes₁, rest₁⟩ := Cursor.exists_passes text
  obtain ⟨c₂, passes₂, rest₂⟩ := Cursor.exists_passes rest₁
  obtain ⟨c₃, passes₃, rest₃⟩ := Cursor.exists_passes rest₂
  obtain ⟨c₄, passes₄, rest₄⟩ := Cursor.exists_passes rest₃
  obtain ⟨c₅, passes₅, rest₅⟩ := Cursor.exists_passes rest₄
  obtain ⟨c₆, passes₆, rest₆⟩ := Cursor.exists_passes rest₅
  have stop₂ : c₂.rest.head?.any CodePoint.isBlank = false := by
    rw [rest₂]
    rfl
  have inBraces : ∀ x ∈ raw, (x.val != 0x7D) = true := fun x hx => bne_iff_ne.mpr fun same =>
    closed ((Fin.ext same : x = '\x7d') ▸ hx)
  have stop₄ : c₄.rest.head?.any (fun x : CodePoint => x.val != 0x7D) = false := by
    rw [rest₄]
    rfl
  have stop₆ : c₆.rest.head?.any CodePoint.isBlank = false := by
    rw [rest₆]
    exact Option.any_eq_false _ _ |>.mpr next
  have mark : (caseless "@param").Leads (c, []) (c₁, []) :=
    leads_caseless (List.forall₂_same.mpr (List.all_eq_true.mp rfl)) passes₁
  have gap : blanks1.Leads (c₁, []) (c₂, []) :=
    leads_run1 (by decide) (List.all_eq_true.mp rfl) passes₂ stop₂
  have type : (group 1 (run1 fun x => x.val != 0x7D)).Leads (c₃, []) (c₄, [(1, c₃, c₄)]) :=
    (leads_run1 ne inBraces passes₄ stop₄).group 1
  have space : blanks1.Leads (c₅, [(1, c₃, c₄)]) (c₆, [(1, c₃, c₄)]) :=
    leads_run1 (by decide) (List.all_eq_true.mp rfl) passes₆ stop₆
  exact ⟨c₆, c₃, c₄, ((((mark.append gap).append (leads_one rfl passes₃)).append type).append
    (leads_one rfl passes₅)).append space, passes₄.textUntil, rest₆⟩

/-- What stands behind a name does not go on with it. -/
theorem exists_closing_eq (r : Written) (t : Text) :
    ∃ a s, r.closing ++ (" " ++ t : Text) = a :: s ∧ (a = ' ' ∨ a = ']') := by
  rw [Written.closing]
  cases r.isBracketed with
  | true => exact ⟨_, _, rfl, .inr rfl⟩
  | false => exact ⟨_, _, rfl, .inl rfl⟩

theorem isBlank_head_label (r : Written) (t : Text) :
    ∀ x ∈ (r.opening ++ (r.mark ++ (r.name ++ t))).head?, x.isBlank = false := by
  rw [Written.opening]
  cases r.isBracketed with
  | true => rintro _ ⟨⟩; rfl
  | false =>
      exact fun x first => CodePoint.isBlank_eq_false_of_isWord (isWord_head_label r t x first)

theorem rawType_ne_nil (r : Written) : r.rawType ≠ [] :=
  List.append_ne_nil_of_left_ne_nil r.typed _

theorem closed_rawType (r : Written) : ('\x7d' : CodePoint) ∉ r.rawType := by
  refine mt List.mem_append.mp (not_or.mpr ⟨r.closed, ?_⟩)
  cases r.isMarked <;> decide

/-- The type and the name are read, with what stands before the name. -/
theorem exists_leads_labelled
    (text : c.rest = "@param" ++ (" " ++ ("\x7b" ++ (r.rawType ++ ("\x7d" ++ (" " ++
      (r.opening ++ (r.mark ++ (r.name ++ (r.closing ++ (" " ++ rest))))))))))) :
    ∃ d gs, labelled.Leads (c, []) (d, gs) ∧ d.rest = " " ++ rest ∧
      told? gs 1 = some r.rawType ∧ (told? gs 2).isSome = r.isBracketed ∧
      told? gs 3 = r.place?.map Place.word ∧ told? gs 4 = some r.name := by
  obtain ⟨c₁, e, e', type, raw, rest₁⟩ :=
    exists_leads_typed (rawType_ne_nil r) (closed_rawType r) text (isBlank_head_label r _)
  obtain ⟨c₂, passes₂, rest₂⟩ := Cursor.exists_passes rest₁
  obtain ⟨c₃, passes₃, rest₃⟩ := Cursor.exists_passes rest₂
  obtain ⟨c₄, passes₄, rest₄⟩ := Cursor.exists_passes rest₃
  obtain ⟨c₅, passes₅, rest₅⟩ := Cursor.exists_passes rest₄
  obtain ⟨a, s, after, stop⟩ := exists_closing_eq r rest
  have word : ∀ x ∈ c₂.rest.head?, x.isWord = true := by
    rw [rest₂]
    exact isWord_head_label r _
  have stop₄ : c₄.rest.head?.any CodePoint.isWord = false := by
    rw [rest₄, after]
    rcases stop with rfl | rfl <;> rfl
  have space : ∀ x ∈ c₅.rest.head?, x = ' ' := by
    rw [rest₅]
    rintro _ ⟨⟩
    rfl
  rw [after] at rest₃
  obtain ⟨o₂, bracketed, opening⟩ := exists_leads_opening passes₂ word
  obtain ⟨o₃, place, mark⟩ := exists_leads_place passes₃ stop rest₃
  have name (gs : Groups) : (group 4 word1).Leads (c₃, gs) (c₄, (4, c₃, c₄) :: gs) :=
    (leads_run1 r.named r.isWord passes₄ stop₄).group 4
  refine ⟨c₅, _, (((type.append (opening _)).append (mark _)).append (name _)).append
    (leads_closing passes₅ space), rest₅, ?_, ?_, ?_, congrArg some passes₄.textUntil⟩
  · rw [← raw]
    cases o₂ <;> cases o₃ <;> rfl
  · rw [← bracketed]
    cases o₂ <;> cases o₃ <;> rfl
  · rw [← place]
    cases o₂ <;> cases o₃ <;> rfl

theorem item_append_eq (r : Written) (t : Text) : r.item ++ t =
    "@param" ++ (" " ++ ("\x7b" ++ (r.rawType ++ ("\x7d" ++ (" " ++
      (r.opening ++ (r.mark ++ (r.name ++ (r.closing ++ (" " ++ (r.description ++ t))))))))))) := by
  have sign : ("@param \x7b" : Text) = "@param" ++ (" " ++ "\x7b" : Text) := rfl
  have brace : ("\x7d " : Text) = ("\x7d" : Text) ++ " " := rfl
  rw [Written.item, Written.label, sign, brace]
  simp only [List.append_assoc]

/-- The description is read without a hyphen before it, up to the end of the line. -/
theorem exists_leads_description (text : c.rest = " " ++ (r.description ++ rest))
    (ends : ∀ x ∈ rest.head?, x = '\n') : ∃ d e,
      (optional (blanks1 ++ lit "-")).Leads (c, gs) (c, gs) ∧
      (run1 fun x : CodePoint => x == ' ' || x == '\t').Leads (c, gs) (d, gs) ∧
      (group 5 (run1 fun x : CodePoint => x != '\n')).Leads (d, gs) (e, (5, d, e) :: gs) ∧
      d.textUntil e = r.description ∧ e.rest = rest := by
  obtain ⟨b, more, begins⟩ := List.exists_cons_of_ne_nil r.described
  have visible : b.isBlank = false := (Text.trim_eq_self_iff.mp r.trimmed).1 b (by rw [begins]; rfl)
  have other : ∀ x : CodePoint, x.isBlank = true → b ≠ x := by
    rintro x blank rfl
    rw [visible] at blank
    cases blank
  have unhyphened : b ≠ '-' := by
    rintro rfl
    exact r.unhyphened (by rw [begins]; rfl)
  obtain ⟨d, space, rest₁⟩ := Cursor.exists_passes text
  obtain ⟨e, passes, rest₂⟩ := Cursor.exists_passes rest₁
  have stop : d.rest.head?.any (fun x : CodePoint => x == ' ' || x == '\t') = false := by
    rw [rest₁, begins, Option.any_eq_false]
    rintro _ ⟨⟩
    rw [Bool.or_eq_false_iff, beq_eq_false_iff_ne, beq_eq_false_iff_ne]
    exact ⟨other _ rfl, other _ rfl⟩
  have inLine : ∀ x ∈ r.description, (x != '\n') = true := fun x hx =>
    bne_iff_ne.mpr fun same => r.single (same ▸ hx)
  have stop' : e.rest.head?.any (fun x : CodePoint => x != '\n') = false := by
    rw [rest₂, Option.any_eq_false]
    intro x first
    rw [ends x first]
    decide
  refine ⟨d, e, ?_, leads_run1 (by decide) (List.all_eq_true.mp rfl) space stop,
    (leads_run1 r.described inLine passes stop').group 5, passes.textUntil, rest₂⟩
  rw [begins] at text
  exact leads_alt_right (fails_hyphen visible unhyphened text) (leads_empty _)

/-- **What is written is read** from the sign of the annotation to the end of the line. -/
theorem exists_matchAt?_item (text : c.rest = r.item ++ rest)
    (ends : ∀ x ∈ rest.head?, x = '\n') :
    ∃ m, pattern.matchAt? c = some m ∧ m.stop.rest = rest ∧ m.group? 1 = some r.rawType ∧
      (m.group? 2).isSome = r.isBracketed ∧ m.group? 3 = r.place?.map Place.word ∧
      m.group? 4 = some r.name ∧ m.group? 5 = some r.description := by
  rw [pattern_eq]
  obtain ⟨d, gs, label, after, told₁, told₂, told₃, told₄⟩ :=
    exists_leads_labelled (text.trans (item_append_eq r rest))
  obtain ⟨d₁, d₂, hyphen, space, line, description, stop⟩ := exists_leads_description after ends
  exact ⟨_, matchAt?_of_leads (((label.append hyphen).append space).append line), stop, told₁,
    told₂, told₃, told₄, congrArg some description⟩

/-! ### What an Annotation Can Hold -/

/-- **The name of an annotation is a word, and its description is on one line**, whatever text it is
found in. -/
theorem isWord_single_of_mem_all {content : Text} {n : ParamNote} (mem : n ∈ all content) :
    (∀ x ∈ n.name, x.isWord = true) ∧ ('\n' : CodePoint) ∉ n.description := by
  obtain ⟨m, found, rfl⟩ := List.mem_map.mp (List.mem_of_mem_filter mem)
  obtain ⟨-, matched⟩ := mem_findAllFrom found
  have reads := reads_of_matchAt? matched
  rw [pattern_eq, labelled] at reads
  obtain ⟨z₃, ⟨z₂, ⟨z₁, ⟨y, ⟨x, -, ⟨gs, word, name⟩⟩, bracket⟩, hyphen⟩, gap⟩, ⟨gs', line, last⟩⟩ :=
    reads
  obtain ⟨w, -, isWord, passes, -⟩ := word.of_run1
  obtain ⟨t, -, inLine, passes', rfl⟩ := line.of_run1
  -- Nothing is remembered between the name and the description.
  have between : z₃.2 = y.2 := by
    rw [gap.groups_eq rfl, hyphen.groups_eq rfl, bracket.groups_eq rfl]
  have groups : m.groups = (5, z₃.1, m.stop) :: (4, x.1, y.1) :: gs := by
    rw [show m.groups = (5, z₃.1, m.stop) :: z₃.2 from last, between, name]
  have name : m.group 4 = w := by
    rw [Match.group, Match.group?, groups]
    exact passes.textUntil
  have description : m.group 5 = t := by
    rw [Match.group, Match.group?, groups]
    exact passes'.textUntil
  constructor
  · show ∀ x ∈ m.group 4, x.isWord = true
    rw [name]
    exact isWord
  · show ('\n' : CodePoint) ∉ Text.strip (m.group 5)
    rw [description]
    exact fun feed => Bool.false_ne_true (inLine _ ((Text.trim_within _ t).subset feed))

/-! ### The Annotation Meant -/

theorem strip_rawType (r : Written) : Text.strip r.rawType = r.rawType := by
  obtain ⟨first, last⟩ := Text.trim_eq_self_iff.mp r.bare
  obtain ⟨a, more, eq⟩ := List.exists_cons_of_ne_nil r.typed
  refine Text.trim_eq_self_iff.mpr ⟨fun x hx => first x ?_, ?_⟩
  · rw [Written.rawType, eq] at hx
    rw [eq]
    exact hx
  · rw [Written.rawType]
    cases r.isMarked with
    | true =>
        rw [if_pos rfl, List.getLast?_append]
        rintro _ ⟨⟩
        rfl
    | false =>
        rw [if_neg Bool.false_ne_true, List.append_nil]
        exact last

/-- A type does not end in a question mark of its own. -/
theorem trimRight_type (r : Written) :
    Text.trimRight (fun c : CodePoint => c == '?') r.type = r.type := by
  refine Text.trimRight_eq_self_iff.mpr fun x last => beq_eq_false_iff_ne.mpr ?_
  rintro rfl
  exact r.certain last

theorem trimRight_rawType (r : Written) :
    Text.trimRight (fun c : CodePoint => c == '?') r.rawType = r.type := by
  rw [Written.rawType]
  cases r.isMarked with
  | true =>
      have taken := List.rdropWhile_concat_pos (fun c : CodePoint => c == '?') r.type '?'
        (beq_self_eq_true _)
      exact taken.trans (trimRight_type r)
  | false => exact (congrArg _ (List.append_nil _)).trans (trimRight_type r)

theorem endsWith_rawType (r : Written) : r.rawType.endsWith "?" = r.isMarked := by
  rw [Bool.eq_iff_iff, Text.endsWith, List.isSuffixOf_iff_suffix, Written.rawType]
  cases r.isMarked with
  | true => exact iff_of_true (List.suffix_append _ _) rfl
  | false =>
      rw [if_neg Bool.false_ne_true, List.append_nil]
      refine iff_of_false (fun ends => ?_) Bool.false_ne_true
      obtain ⟨before, eq⟩ := ends
      refine r.certain ?_
      rw [← eq]
      exact List.getLast?_concat

/-- **The annotation at the match of what is written is the one that is meant.** -/
theorem ofMatch_eq {m : Match} (type : m.group? 1 = some r.rawType)
    (bracketed : (m.group? 2).isSome = r.isBracketed)
    (place : m.group? 3 = r.place?.map Place.word) (name : m.group? 4 = some r.name)
    (description : m.group? 5 = some r.description) : ofMatch m = r.note := by
  have given : r.type.isEmpty = false := List.isEmpty_eq_false_iff.mpr r.typed
  have located : ((m.group? 3).map fun t =>
      if Text.lower t == "query" then Location.query else .body) =
        r.place?.map Place.location := by
    rw [place, Option.map_map]
    refine congrArg (r.place?.map ·) (funext fun place => ?_)
    cases place <;> decide
  rw [ofMatch, Match.group, Match.group, Match.group, type, name, description, located, bracketed]
  simp only [Option.getD_some, strip_rawType, trimRight_rawType, endsWith_rawType, r.bare,
    r.trimmed, given, Bool.false_eq_true, if_false]
  rfl

/-! ### A Comment of Annotations -/

theorem startsIn_pattern : pattern.StartsIn (CodePoint.sameLetter '@') := by
  iterate 12 refine StartsIn.append ?_ _
  exact (startsIn_one _).append (caseless "param")

/-- The line of what is written has one match, with the annotation that is meant. -/
theorem matchesLine_line (r : Written) :
    pattern.MatchesLine (CodePoint.sameLetter '@') ofMatch r.line r.note := by
  have quiet : (" * " : Text).all (fun x => !CodePoint.sameLetter '@' x) = true := rfl
  refine ⟨_, _, rfl, fun x hx => by simpa using List.all_eq_true.mp quiet x hx, ?_,
    fun c rest text ends => ?_⟩
  · rw [← List.append_nil r.item, item_append_eq]
    exact List.append_ne_nil_of_left_ne_nil (by decide) _
  · obtain ⟨m, here, stop, type, bracketed, place, name, description⟩ :=
      exists_matchAt?_item text ends
    exact ⟨m, here, stop, ofMatch_eq type bracketed place name description⟩

/-- **The annotations of a comment are those that were written.** -/
theorem all_source (rs : List Written) : all (source rs) = rs.map Written.note := by
  rw [all, source, findAll_join_lines startsIn_pattern rfl matchesLine_line, List.filter_eq_self]
  intro a mem
  obtain ⟨r, -, rfl⟩ := List.mem_map.mp mem
  have other : handlerArguments.contains (Text.lower r.name) = false := by
    simpa using r.notArgument
  rw [Written.note, other]
  rfl

/-- What is written belongs to the place that is put before the name, or to the default one. -/
theorem belongs_note (r : Written) (default place : Place) :
    ((r.note.location?.orElse fun _ => some default.location) == some place.location) =
      (r.placeOr default == place) := by
  rw [Written.note, Written.placeOr]
  cases r.place? with
  | none => cases default <;> cases place <;> rfl
  | some own => cases own <;> cases place <;> rfl

/-- The parameters of a location are those that were written for it. -/
theorem annotated_source (rs : List Written) (default place : Place) :
    Parameter.annotated (source rs) place.location (some default.location) =
      (rs.filter fun r => r.placeOr default == place).map (Written.parameter default) := by
  rw [Parameter.annotated, all_source, List.filter_map, List.map_map]
  have same : (fun a : ParamNote =>
      (a.location?.orElse fun _ => some default.location) == some place.location) ∘ Written.note =
      fun r => r.placeOr default == place :=
    funext fun r => belongs_note r default place
  rw [same]
  refine List.map_congr_left fun r mem => ?_
  have own : (r.placeOr default == place) = true := (List.mem_filter.mp mem).2
  rw [← eq_of_beq own]
  rfl

/-- What is written belongs to one of the places. -/
theorem perm_filter_places (rs : List Written) (default : Place) :
    ((rs.filter fun r => r.placeOr default == .query) ++
      rs.filter fun r => r.placeOr default == .body).Perm rs := by
  have others : (rs.filter fun r => r.placeOr default == .body) =
      rs.filter fun r => !(r.placeOr default == .query) :=
    List.filter_congr fun r _ => by cases r.placeOr default <;> rfl
  rw [others]
  simpa using List.filter_append_perm (fun r : Written => r.placeOr default == .query) rs

/-- **Annotated parameters are read back**, each in exactly one location: the parameters of a
location are those that were written for it, and those without a place if it is the default one, in
order; and the parameters of both locations together are all of those that were written. -/
theorem annotated_reads_written (rs : List Written) (default : Place) :
    let parameters := fun place : Place =>
      Parameter.annotated (source rs) place.location (some default.location)
    (∀ place, parameters place =
      (rs.filter fun r => r.placeOr default == place).map (Written.parameter default)) ∧
      (parameters .query ++ parameters .body).Perm (rs.map (Written.parameter default)) := by
  intro parameters
  have own : ∀ place, parameters place = _ := annotated_source rs default
  refine ⟨own, ?_⟩
  rw [own, own, ← List.map_append]
  exact (perm_filter_places rs default).map _

/-- A page of the query, with a question mark behind its type. -/
def page : Written where
  type := "number"
  typed := by decide
  bare := by decide
  closed := by decide
  certain := by decide
  isMarked := true
  isBracketed := false
  place? := some .query
  name := "page"
  named := by decide
  isWord := List.all_eq_true.mp rfl
  notArgument := by decide +kernel
  description := "Page - from 1"
  described := by decide
  trimmed := by decide
  single := by decide
  unhyphened := by decide

/-- A name in brackets that is also the word for a place. -/
def query : Written :=
  { page with
    isMarked := false
    isBracketed := true
    place? := none
    name := "query"
    named := by decide
    isWord := List.all_eq_true.mp rfl
    notArgument := by decide +kernel }

theorem annotated_reads_written_page :
    source [query, page] =
        " * @param \x7bnumber\x7d [query] Page - from 1\n" ++
          " * @param \x7bnumber?\x7d query.page Page - from 1" ∧
      Parameter.annotated (source [query, page]) .query (some .body) =
        [⟨"page", "number", false, .query, some "Page - from 1", .null⟩] ∧
      Parameter.annotated (source [query, page]) .body (some .body) =
        [⟨"query", "number", false, .body, some "Page - from 1", .null⟩] :=
  ⟨by decide +kernel, (annotated_reads_written [query, page] .body).1 .query,
    (annotated_reads_written [query, page] .body).1 .body⟩

end ParamNote

end RouteDocs
