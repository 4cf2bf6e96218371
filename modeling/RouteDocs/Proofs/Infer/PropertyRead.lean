import RouteDocs.Proofs.Infer.Body
import RouteDocs.Proofs.Infer.Declaration
import RouteDocs.Proofs.Json.Keys
import RouteDocs.Proofs.Text.Run
import RouteDocs.Proofs.Text.Search

/-!
# Properties Are Read From a Body

A handler can keep the body in a variable and read properties from it, or call methods of it. Which
properties are inferred is decided by the characters that the names end with: a name is read up to
its last word character, and of the name of a method the last characters of one kind are left out.

## Main Definitions

* `BodyField.Statement`: a property that is read, or a method that is called
* `BodyField.Statement.seen`: what is taken for the name of a property
* `BodyField.source`: a text in which a body is awaited and then looked at

## Main Statements

* `BodyField.identifiers_source`: the body is held by one variable
* `BodyField.Statement.exists_matchAt?`, `BodyField.Statement.fails_of_seen_eq_nil`: **what is seen
  of a name is found, and nothing is found if nothing is seen**
* `BodyField.map_findAllFrom_statements`: the statements are found one after another
* `BodyField.ofAccess?_source`: **the properties are what is seen of the names**, and the names
  themselves exactly if they do not end in a dollar sign

## Design Notes

Word characters and dollar signs make up a name, but only the former count at the edge of a word. So
a run of both kinds is given back, character by character, until the two kinds meet.
-/

namespace RouteDocs

namespace BodyField

open Pattern

variable {c d e : Cursor} {gs : Groups} {t u v w r : Text} {a : CodePoint}

/-! ### Statements -/

/-- A name that properties can have. -/
structure PropertyName extends Text.Run TypeBlock.isNamePart where
  /-- The first character is one with which names begin. -/
  starts : ∃ a r, text = a :: r ∧ isPropertyStart a = true

/-- **A statement about the body**: a property is read, or a method is called. -/
structure Statement where
  /-- What stands before the statement. -/
  gap : Blanks
  /-- The name of the property or of the method. -/
  name : PropertyName
  /-- Whether a method is called. -/
  isCall : Bool

namespace Statement

variable (s : Statement)

/-- What stands behind the name. -/
def ending : Text := if s.isCall then "();" else ";"

/-- How a statement is written. -/
def text : Text := s.gap.text ++ ("body." ++ (s.name.text ++ s.ending))

/-- Which characters are given back at the end of the name: of a property, those that are no word
characters, and of a method, those of the kind of the last one. -/
def isGivenBack (c : CodePoint) : Bool :=
  if s.isCall then c.isWord == s.name.text.getLast?.any CodePoint.isWord else !c.isWord

/-- What is taken for the name of a property. -/
def seen : Text := Text.trimRight s.isGivenBack s.name.text

end Statement

/-- A text in which a body is awaited and then looked at. -/
def source (statements : List Statement) : Text :=
  "const body = await request.json();" ++ statements.flatMap Statement.text

/-- The names that are found, each where it comes first. -/
def namesRead (statements : List Statement) : List Text :=
  ((statements.map Statement.seen).filter fun n => !n.isEmpty).eraseDups

/-! ### Where a Name Ends -/

namespace Statement

variable {s : Statement}

/-- The end of a name of a property. -/
def nameEnd : Pattern := wordEdge ++ follows false (blanks ++ lit "(")

/-- The name is what is seen of it and what is given back. -/
theorem exists_name_eq (s : Statement) : ∃ v, s.name.text = s.seen ++ v ∧
    (∀ c ∈ v, s.isGivenBack c = true) ∧ ∀ c ∈ s.seen.getLast?, s.isGivenBack c = false := by
  refine ⟨s.name.text.rtakeWhile s.isGivenBack, ?_, fun c mem => List.mem_rtakeWhile_imp mem,
    fun c last => ?_⟩
  · exact (List.rdropWhile_append_rtakeWhile ..).symm
  · obtain ⟨ne, rfl⟩ := List.mem_getLast?_eq_getLast last
    exact Bool.eq_false_iff.mpr (List.rdropWhile_last_not _ _ ne)

/-- What stands behind a name begins with a character that neither goes on with the name nor reads
a property. -/
theorem exists_ending_eq (s : Statement) : ∃ a r, s.ending = a :: r ∧ a.isWord = false ∧
    TypeBlock.isNamePart a = false ∧ a ≠ '.' ∧ a ≠ '?' := by
  rw [ending]
  cases s.isCall <;> exact ⟨_, _, rfl, by decide, by decide, by decide, by decide⟩

/-- No parenthesis follows another visible character. -/
theorem fails_parenthesis (rest : d.rest = a :: r) (visible : a.isBlank = false) (other : a ≠ '(') :
    (blanks ++ lit "(").Fails (d, gs) := by
  refine fails_of_reads fun y reads => ?_
  obtain ⟨z, ⟨w, blank, passes, -⟩, parenthesis⟩ := reads
  have eq := rest.symm.trans (passes.trans parenthesis.of_lit.1).rest
  cases w with
  | nil => exact other (List.cons.inj eq).1
  | cons b w =>
      obtain rfl := (List.cons.inj eq).1
      rw [blank a List.mem_cons_self] at visible
      cases visible

/-- Behind a part of the name there is an edge of a word if the next character is of another
kind. -/
theorem isWordEdge_behind (s : Statement) (seen : d.seen = (u ++ [a]).reverse ++ t)
    (rest : d.rest = v ++ (s.ending ++ r)) :
    d.isWordEdge = (a.isWord != v.head?.any CodePoint.isWord) := by
  have next : d.rest.head?.any CodePoint.isWord = v.head?.any CodePoint.isWord := by
    obtain ⟨b, more, ending, word, -⟩ := s.exists_ending_eq
    rw [rest, ending]
    cases v with
    | nil => exact word
    | cons x v => rfl
  rw [Cursor.isWordEdge, next, seen, List.reverse_concat]
  rfl

/-- **No name ends among the characters that are given back.** -/
theorem fails_nameEnd (given : ∀ c ∈ u ++ v, s.isGivenBack c = true) (ne : u ≠ [])
    (seen : d.seen = u.reverse ++ t) (rest : d.rest = v ++ (s.ending ++ r)) :
    nameEnd.Fails (d, gs) := by
  obtain ⟨u, a, rfl⟩ := (List.eq_nil_or_concat' u).resolve_left ne
  have own : s.isGivenBack a = true := given a (by simp)
  have edge := isWordEdge_behind s seen rest
  -- there is no edge between characters of one kind, and behind the whole name of a method, where
  -- there can be one, a parenthesis follows
  cases isCall : s.isCall with
  | false =>
      simp only [isGivenBack, isCall, Bool.false_eq_true, if_false, Bool.not_eq_true'] at given own
      have next : v.head?.any CodePoint.isWord = false := (Option.any_eq_false _ _).mpr
        fun b first => given b (List.mem_append_right _ (List.mem_of_mem_head? first))
      rw [own, next] at edge
      exact (fails_wordEdge edge).append _
  | true =>
      cases v with
      | nil =>
          have open_ : d.rest = "(" ++ (");" ++ r) := by
            rw [rest, ending, isCall]
            rfl
          obtain ⟨e, passes, -⟩ := Cursor.exists_passes open_
          have reads : (blanks ++ lit "(").Reads (d, gs) (e, gs) :=
            ⟨(d, gs), ⟨[], List.forall_mem_nil _, .refl d, rfl⟩, reads_lit passes⟩
          exact fails_append_of_reads fun y read => by
            obtain rfl : y = (d, gs) := read.1
            exact fails_follows_false reads
      | cons b v =>
          have next : s.isGivenBack b = true := given b (by simp)
          simp only [isGivenBack, isCall, if_true, beq_iff_eq] at own next
          rw [List.head?_cons, Option.any_some, own, next, bne_self_eq_false] at edge
          exact (fails_wordEdge edge).append _

/-- **A name ends where the characters begin that are given back.** -/
theorem leads_nameEnd (name : s.name.text = s.seen ++ v) (given : ∀ c ∈ v, s.isGivenBack c = true)
    (last : ∀ c ∈ s.seen.getLast?, s.isGivenBack c = false) (ne : s.seen ≠ [])
    (seen : d.seen = s.seen.reverse ++ t) (rest : d.rest = v ++ (s.ending ++ r)) :
    nameEnd.Leads (d, gs) (d, gs) := by
  obtain ⟨u, a, eq⟩ := (List.eq_nil_or_concat' s.seen).resolve_left ne
  rw [eq] at name last seen
  have own : s.isGivenBack a = false := last a (by simp)
  have edge := isWordEdge_behind s seen rest
  -- what follows is visible and no parenthesis, unless a whole name of a method would be read
  have next : d.isWordEdge = true ∧ ∃ b r, d.rest = b :: r ∧ b.isBlank = false ∧ b ≠ '(' := by
    cases v with
    | nil =>
        cases isCall : s.isCall with
        | false =>
            simp only [isGivenBack, isCall, Bool.false_eq_true, if_false, Bool.not_eq_false'] at own
            rw [own] at edge
            refine ⟨edge, ';', r, ?_, by decide, by decide⟩
            rw [rest, ending, isCall]
            rfl
        | true =>
            rw [List.append_nil] at name
            simp [isGivenBack, isCall, name] at own
    | cons b v =>
        have part : TypeBlock.isNamePart b = true := s.name.inClass b (by simp [name])
        refine ⟨?_, b, _, rest, TypeBlock.isBlank_eq_false_of_isNamePart part, ?_⟩
        · have first : s.isGivenBack b = true := given b List.mem_cons_self
          rw [edge, List.head?_cons, Option.any_some, bne_iff_ne]
          rintro same
          rw [isGivenBack, same, ← isGivenBack, first] at own
          cases own
        · rintro rfl
          exact absurd part (by decide)
  obtain ⟨edge, b, r', rest, visible, other⟩ := next
  exact (leads_wordEdge edge).append (leads_follows_false (fails_parenthesis rest visible other))

/-! ### Reading a Name -/

/-- What stands before a name: the variable, perhaps a question mark, and a dot. -/
def holder : Pattern := wordEdge ++ lit "body" ++ optional (lit "?") ++ lit "."

/-- A name, which is remembered as one. -/
def nameRead : Pattern :=
  group 1 (one isPropertyStart ++ run TypeBlock.isNamePart) ++ nameEnd

/-- The pattern of properties of a single variable, in two parts. -/
theorem runAt_propertyRead (c : Cursor) (gs : Groups) (k : Cursor → Groups → Option Hit) :
    (propertyRead ["body"]).runAt c gs k = (holder ++ nameRead).runAt c gs k := rfl

/-- No property is read where no name follows what is read before names. -/
theorem fails_propertyRead (behind : ∀ y, holder.Reads (c, gs) y → nameRead.Fails y) :
    (propertyRead ["body"]).Fails (c, gs) := by
  have fails : (holder ++ nameRead).Fails (c, gs) := fails_append_of_reads fun y => behind y
  exact fun k => (runAt_propertyRead c gs k).trans (fails k)

theorem isNamePart_head_ending (s : Statement) (r : Text) :
    (s.ending ++ r).head?.any TypeBlock.isNamePart = false := by
  obtain ⟨a, more, ending, -, part, -⟩ := s.exists_ending_eq
  rw [ending]
  exact part

/-- **What is seen of a name is read**, and the rest of the name follows. -/
theorem exists_leads_nameRead (s : Statement) (text : e.rest = s.name.text ++ (s.ending ++ r))
    (ne : s.seen ≠ []) :
    ∃ d v, nameRead.Leads (e, gs) (d, (1, e, d) :: gs) ∧ Cursor.Passes s.seen e d ∧
      s.name.text = s.seen ++ v ∧ d.rest = v ++ (s.ending ++ r) := by
  obtain ⟨v, name, given, last⟩ := s.exists_name_eq
  rw [name, List.append_assoc] at text
  obtain ⟨d, passes, rest⟩ := Cursor.exists_passes text
  refine ⟨d, v, fun k hit succeeds => ?_, passes, name, rest⟩
  have reached := leads_nameEnd name given last ne passes.seen rest k hit succeeds
  -- the first character has a class of its own, the others are a run
  obtain ⟨b, w, eq⟩ := List.exists_cons_of_ne_nil ne
  have start : isPropertyStart b = true := by
    obtain ⟨x, more, whole, start⟩ := s.name.starts
    rw [name, eq] at whole
    rwa [(List.cons.inj whole).1]
  obtain ⟨f, first, others⟩ := Cursor.Passes.of_cons (eq ▸ passes)
  have run : runFrom TypeBlock.isNamePart (fun g => nameEnd.runAt g ((1, e, g) :: gs) k) f.seen
      f.rest = some hit := by
    rw [others.rest]
    refine runFrom_append (fun x mem => s.name.inClass x (by simp [name, eq, mem])) ?_
    rw [← others.seen, rest, runFrom_give_back (isNamePart_head_ending s r), ← rest]
    · exact reached
    · intro v₁ v₂ cut some
      exact fails_nameEnd (fun x mem => given x (cut ▸ mem)) some rfl rfl k
  have one : (one isPropertyStart).Leads (e, gs) (f, gs) := leads_one start first
  exact one (fun f hs => runFrom TypeBlock.isNamePart
    (fun g => nameEnd.runAt g ((1, e, g) :: hs) k) f.seen f.rest) hit run

/-- **Nothing is read if nothing is seen of the name.** -/
theorem fails_nameRead (s : Statement) (text : e.rest = s.name.text ++ (s.ending ++ r))
    (nothing : s.seen = []) : nameRead.Fails (e, gs) := by
  obtain ⟨v, name, given, -⟩ := s.exists_name_eq
  rw [nothing, List.nil_append] at name
  obtain ⟨b, w, whole, -⟩ := s.name.starts
  obtain rfl : v = b :: w := name.symm.trans whole
  obtain ⟨seen, rest⟩ := e
  obtain rfl : rest = b :: (w ++ (s.ending ++ r)) := by
    rw [← List.cons_append, ← whole]
    exact text
  intro k
  have run : runFrom TypeBlock.isNamePart
      (fun g => nameEnd.runAt g ((1, ⟨seen, b :: (w ++ (s.ending ++ r))⟩, g) :: gs) k) (b :: seen)
      (w ++ (s.ending ++ r)) = none := by
    rw [runFrom_give_back (isNamePart_head_ending s r)]
    · exact fails_nameEnd (u := [b]) given (List.cons_ne_nil b []) rfl rfl k
    · intro v₁ v₂ cut some
      refine fails_nameEnd (u := v₁) (fun x mem => given x ?_) some rfl rfl k
      exact List.mem_cons_of_mem b (cut ▸ mem)
  change (if isPropertyStart b = true then _ else none) = none
  rw [ite_eq_right_iff]
  exact fun _ => run

/-- What is read before a name is the variable and a dot, with a question mark at most in
between. -/
theorem of_reads_holder {x y : Hit} (reads : holder.Reads x y) :
    ∃ (b : CodePoint) (t : Text), x.1.rest = "body" ++ b :: t ∧
      (b = '?' ∨ b = '.' ∧ y.1.rest = t) := by
  obtain ⟨z, ⟨z', ⟨z'', ⟨rfl, -⟩, word⟩, mark⟩, dot⟩ := reads
  have passes := word.of_lit.1
  rcases mark with mark | rfl
  · exact ⟨'?', z.1.rest, passes.rest.trans (congrArg _ mark.of_lit.1.rest), .inl rfl⟩
  · exact ⟨'.', y.1.rest, passes.rest.trans (congrArg _ dot.of_lit.1.rest), .inr ⟨rfl, rfl⟩⟩

/-- The variable and the dot are read where no word goes on. -/
theorem leads_holder (edge : c.seen.head?.any CodePoint.isWord = false)
    (passes : Cursor.Passes ("body" ++ "." : Text) c d) : holder.Leads (c, gs) (d, gs) := by
  obtain ⟨e, word, dot⟩ := passes.of_append
  have before : c.isWordEdge = true := by
    rw [Cursor.isWordEdge, edge, word.rest]
    rfl
  have unmarked : (optional (lit "?")).Leads (e, gs) (e, gs) := by
    refine leads_alt_right (fails_one ?_) (leads_empty _)
    rw [dot.rest]
    rintro _ ⟨⟩
    rfl
  exact (((leads_wordEdge before).append (leads_lit word)).append unmarked).append (leads_lit dot)

/-- **Nothing is read within a name.** -/
theorem fails_within (rest : c.rest = w ++ a :: r)
    (parts : ∀ x ∈ w, TypeBlock.isNamePart x = true) (stop : TypeBlock.isNamePart a = false)
    (noDot : a ≠ '.') (noMark : a ≠ '?') : (propertyRead ["body"]).Fails (c, gs) := by
  refine fails_propertyRead fun y reads => ?_
  obtain ⟨b, t, text, behind⟩ := of_reads_holder reads
  have word : ∀ x ∈ ("body" : Text), TypeBlock.isNamePart x = true := List.all_eq_true.mp rfl
  have same := congrArg (List.dropWhile TypeBlock.isNamePart) (rest.symm.trans text)
  rw [Text.dropWhile_append_of_ends parts, Text.dropWhile_append_of_ends word] at same
  · obtain rfl := (List.cons.inj same).1
    rcases behind with mark | ⟨dot, -⟩
    · exact absurd mark noMark
    · exact absurd dot noDot
  · rintro _ ⟨⟩
    rcases behind with rfl | ⟨rfl, -⟩ <;> rfl
  · rintro _ ⟨⟩
    exact stop

/-- Nothing is found at a statement if nothing is seen of its name. -/
theorem fails_of_seen_eq_nil (s : Statement)
    (text : c.rest = "body" ++ ("." ++ (s.name.text ++ (s.ending ++ r))))
    (nothing : s.seen = []) : (propertyRead ["body"]).Fails (c, gs) := by
  refine fails_propertyRead fun y reads => ?_
  obtain ⟨b, t, text', behind⟩ := of_reads_holder reads
  have same := List.cons.inj (List.append_cancel_left (text.symm.trans text'))
  rcases behind with rfl | ⟨rfl, rest⟩
  · exact absurd same.1 (by decide)
  · exact fails_nameRead s (rest.trans same.2.symm) nothing

/-- What is seen of a name is found at the statement, and the rest of the name follows. -/
theorem exists_matchAt? (s : Statement)
    (text : c.rest = "body" ++ ("." ++ (s.name.text ++ (s.ending ++ r))))
    (edge : c.seen.head?.any CodePoint.isWord = false) (ne : s.seen ≠ []) :
    ∃ m v, (propertyRead ["body"]).matchAt? c = some m ∧ m.group 1 = s.seen ∧
      s.name.text = s.seen ++ v ∧ m.stop.rest = v ++ (s.ending ++ r) := by
  obtain ⟨d, passes, rest⟩ := Cursor.exists_passes
    (text.trans (List.append_assoc ("body" : Text) "." _).symm)
  obtain ⟨e, v, read, seen, name, behind⟩ := exists_leads_nameRead s rest ne
  have whole : (propertyRead ["body"]).Leads (c, []) (e, [(1, d, e)]) := fun k hit succeeds =>
    (leads_holder edge passes).append read k hit succeeds
  exact ⟨_, v, matchAt?_of_leads whole, seen.textUntil, name, behind⟩

/-! ### Reading All Names -/

/-- Every match begins with the first letter of the variable. -/
theorem startsIn_propertyRead : (propertyRead ["body"]).StartsIn (· == 'b') := by
  intro c gs k hit found
  obtain ⟨y, ⟨z, reads, -⟩, -⟩ := (explores (holder ++ nameRead)).sound (x := (c, gs)) found
  obtain ⟨b, t, text, -⟩ := of_reads_holder reads
  exact ⟨'b', _, text, rfl⟩

/-- A text without the first letter of the variable. -/
theorem beq_eq_false_of_any (absent : t.any (fun x : CodePoint => x == 'b') = false) :
    ∀ x ∈ t, (x == 'b') = false :=
  fun x mem => Bool.eq_false_iff.mpr fun same => List.any_eq_false.mp absent x mem same

/-- **A search passes by what is left of a statement.** -/
theorem exists_findFrom?_eq (s : Statement) (rest : c.rest = w ++ (s.ending ++ r))
    (parts : ∀ x ∈ w, TypeBlock.isNamePart x = true) :
    ∃ d : Cursor, d.rest = r ∧ d.seen.head?.any CodePoint.isWord = false ∧
      (propertyRead ["body"]).findFrom? c.seen c.rest =
        (propertyRead ["body"]).findFrom? d.seen d.rest := by
  obtain ⟨e, name, rest'⟩ := Cursor.exists_passes rest
  obtain ⟨d, ending, rest''⟩ := Cursor.exists_passes rest'
  obtain ⟨a, more, eq, -, stop, noDot, noMark⟩ := s.exists_ending_eq
  refine ⟨d, rest'', ?_, (findFrom?_pass name fun v v' cut _ => ?_).trans
    (findFrom?_skip startsIn_propertyRead ending ?_)⟩
  · rw [ending.seen, Statement.ending]
    cases s.isCall <;> rfl
  · refine fails_within (a := a) (w := v') (r := more ++ r) ?_
      (fun x mem => parts x (cut ▸ List.mem_append_right v mem)) stop noDot noMark
    rw [rest', eq]
    rfl
  · rw [Statement.ending]
    cases s.isCall <;> exact beq_eq_false_of_any rfl

/-- A search passes by a statement if nothing is seen of its name. -/
theorem exists_findFrom?_of_seen_eq_nil (s : Statement)
    (text : c.rest = "body" ++ ("." ++ (s.name.text ++ (s.ending ++ r)))) (nothing : s.seen = []) :
    ∃ d : Cursor, d.rest = r ∧ d.seen.head?.any CodePoint.isWord = false ∧
      (propertyRead ["body"]).findFrom? c.seen c.rest =
        (propertyRead ["body"]).findFrom? d.seen d.rest := by
  have here : (propertyRead ["body"]).Fails (c, []) := fails_of_seen_eq_nil s text nothing
  have next := findFrom?_of_fails (a := 'b') (r := "ody." ++ (s.name.text ++ (s.ending ++ r))) here
    text
  obtain ⟨e, variable_, rest⟩ := Cursor.exists_passes
    (c := ⟨'b' :: c.seen, "ody." ++ (s.name.text ++ (s.ending ++ r))⟩) rfl
  obtain ⟨d, behind, edge, same⟩ := exists_findFrom?_eq s rest s.name.inClass
  refine ⟨d, behind, edge, next.trans (.trans ?_ same)⟩
  exact findFrom?_skip startsIn_propertyRead variable_ (beq_eq_false_of_any rfl)

/-- No blank begins a match. -/
theorem ne_of_isBlank (blank : a.isBlank = true) : (a == 'b') = false := by
  refine Bool.eq_false_iff.mpr fun same => ?_
  rw [eq_of_beq same] at blank
  exact absurd blank (by decide)

/-- A search passes by what stands before a statement. -/
theorem exists_behind_gap (s : Statement) (text : c.rest = s.text ++ r)
    (edge : c.seen.head?.any CodePoint.isWord = false) :
    ∃ d : Cursor, d.rest = "body" ++ ("." ++ (s.name.text ++ (s.ending ++ r))) ∧
      d.seen.head?.any CodePoint.isWord = false ∧ d.rest.length ≤ c.rest.length ∧
      (propertyRead ["body"]).findFrom? c.seen c.rest =
        (propertyRead ["body"]).findFrom? d.seen d.rest := by
  rw [Statement.text, List.append_assoc, List.append_assoc, List.append_assoc] at text
  obtain ⟨d, gap, rest⟩ := Cursor.exists_passes text
  refine ⟨d, rest, ?_, ?_, findFrom?_skip startsIn_propertyRead gap fun x mem =>
    ne_of_isBlank (s.gap.inClass x mem)⟩
  · rw [gap.seen]
    cases blanks : s.gap.text.reverse with
    | nil => exact edge
    | cons x r =>
        have blank := s.gap.inClass x (List.mem_reverse.mp (blanks ▸ List.mem_cons_self))
        exact CodePoint.isWord_eq_false_of_isBlank blank
  · rw [gap.rest, List.length_append]
    exact Nat.le_add_left ..

end Statement

/-- **The statements that are left are found one after another.** -/
theorem map_findAllFrom_statements (statements : List Statement) {n : Nat}
    (same : (propertyRead ["body"]).findFrom? c.seen c.rest =
      (propertyRead ["body"]).findFrom? d.seen d.rest)
    (text : d.rest = statements.flatMap Statement.text)
    (edge : d.seen.head?.any CodePoint.isWord = false) (within : d.rest.length ≤ c.rest.length)
    (enough : c.rest.length < n) :
    ((propertyRead ["body"]).findAllFrom n c).map (·.group 1) =
      (statements.map Statement.seen).filter fun name => !name.isEmpty := by
  induction statements generalizing c d n with
  | nil =>
      obtain ⟨seen, rest⟩ := d
      obtain rfl : rest = [] := text
      have fails : (propertyRead ["body"]).Fails (⟨seen, []⟩, []) :=
        Statement.startsIn_propertyRead.fails rfl
      rw [findAllFrom_nil (same.trans fails.matchAt?_eq_none)]
      rfl
  | cons s more ih =>
      rw [List.flatMap_cons] at text
      -- behind a match the end of a name is left, which a search passes by: so the invariant is that
      -- the search finds what one from the next statement finds
      obtain ⟨e, rest, edge', size, skipped⟩ := s.exists_behind_gap text edge
      have shorter : (more.flatMap Statement.text).length ≤ e.rest.length := by
        rw [rest]
        simp only [List.length_append]
        omega
      rw [List.map_cons]
      by_cases nothing : s.seen = []
      · obtain ⟨d', rest', edge'', same'⟩ := s.exists_findFrom?_of_seen_eq_nil rest nothing
        rw [ih ((same.trans skipped).trans same') rest' edge'' (by rw [rest']; omega) enough,
          List.filter_cons_of_neg]
        simpa using nothing
      · obtain ⟨m, v, matched, name, whole, behind⟩ := s.exists_matchAt? rest edge' nothing
        obtain ⟨n, rfl⟩ := Nat.exists_eq_add_one.mpr (Nat.zero_lt_of_lt enough)
        have found : (propertyRead ["body"]).findFrom? c.seen c.rest = some m :=
          (same.trans skipped).trans (findFrom?_of_matchAt? matched)
        have shorter' : m.stop.rest.length < e.rest.length ∧
            (more.flatMap Statement.text).length ≤ m.stop.rest.length := by
          have pos := List.length_pos_iff.mpr nothing
          rw [rest, behind, whole]
          simp only [List.length_append]
          omega
        have parts : ∀ x ∈ v, TypeBlock.isNamePart x = true := fun x mem =>
          s.name.inClass x (whole ▸ List.mem_append_right _ mem)
        obtain ⟨d', rest', edge'', same'⟩ := s.exists_findFrom?_eq behind parts
        rw [findAllFrom_cons found (by rw [matchAt?_start matched]; exact shorter'.1),
          List.map_cons, name, ih same' rest' edge'' (by rw [rest']; exact shorter'.2) (by omega),
          List.filter_cons_of_pos]
        simpa using nothing

/-! ### The Variable -/

/-- Which code points no statement has. -/
theorem not_mem_statements (visible : a.isBlank = false) (noPart : TypeBlock.isNamePart a = false)
    (other : a ∉ ("body." : Text)) (other' : a ∉ ("();" : Text)) (statements : List Statement) :
    a ∉ statements.flatMap Statement.text := by
  rintro mem
  obtain ⟨s, -, inStatement⟩ := List.mem_flatMap.mp mem
  rw [Statement.text, Statement.ending] at inStatement
  simp only [List.mem_append] at inStatement
  rcases inStatement with gap | variable_ | name | ending
  · rw [s.gap.inClass a gap] at visible
    cases visible
  · exact other variable_
  · rw [s.name.inClass a name] at noPart
    cases noPart
  · cases isCall : s.isCall with
    | true =>
        rw [isCall] at ending
        exact other' ending
    | false =>
        rw [isCall] at ending
        exact other' (List.mem_append_right ("()" : Text) ending)

/-- What stands before the only equals sign. -/
theorem eq_of_source_eq {statements : List Statement}
    (text : source statements = u ++ ("=" ++ v)) : u = "const body " := by
  have text : u ++ ('=' : CodePoint) :: v = "const body " ++ (('=' : CodePoint) ::
      (" await request.json();" ++ statements.flatMap Statement.text) : Text) := text.symm
  refine (Text.eq_of_append_cons_eq text (by decide) fun mem => ?_).1
  rcases List.mem_append.mp mem with own | later
  · exact absurd own (by decide)
  · exact not_mem_statements (by decide) (by decide) (by decide) (by decide) statements later

/-- The word before the equals sign. -/
theorem eq_of_append_eq (text : u ++ a :: (w ++ v) = "const body ") (ne : w ≠ [])
    (word : ∀ x ∈ w, x.isWord = true) (blank : ∀ x ∈ v, x.isBlank = true)
    (before : a.isBlank = true) : w = "body" := by
  have backwards : v.reverse ++ (w.reverse ++ a :: u.reverse) = " ydob tsnoc" := by
    rw [show (" ydob tsnoc" : Text) = List.reverse ("const body " : Text) from rfl, ← text]
    simp
  have visible : w.reverse ++ a :: u.reverse = "ydob tsnoc" := by
    have same := congrArg (List.dropWhile CodePoint.isBlank) backwards
    rwa [Text.dropWhile_append_of_ends fun x mem => blank x (List.mem_reverse.mp mem)] at same
    obtain ⟨w, b, rfl⟩ := (List.eq_nil_or_concat' w).resolve_left ne
    rw [List.reverse_concat]
    rintro _ ⟨⟩
    exact CodePoint.isBlank_eq_false_of_isWord (word b (by simp))
  have last : w.reverse = "ydob" := by
    have same := congrArg (List.takeWhile CodePoint.isWord) visible
    rwa [Text.takeWhile_append_of_ends fun x mem => word x (List.mem_reverse.mp mem)] at same
    rintro _ ⟨⟩
    exact CodePoint.isWord_eq_false_of_isBlank before
  rw [← List.reverse_reverse w, last]
  rfl

/-- What is read of the assignment of a body goes on with an equals sign, behind blanks or a
type. -/
theorem of_reads_assignedJson {x y : Hit} (reads : assignedJson.Reads x y) :
    ∃ w t : Text, x.1.rest = w ++ ("=" ++ t) ∧
      ((∀ b ∈ w, b.isBlank = true) ∨ (':' : CodePoint) ∈ w) := by
  obtain ⟨_, ⟨_, ⟨_, front, -⟩, -⟩, -⟩ := reads
  obtain ⟨z, ⟨z', ⟨z'', ⟨w, blank, passes, -⟩, annotation⟩, sign⟩, -⟩ := front
  have behind := sign.of_lit.1
  rcases annotation with ⟨e, colon, type⟩ | rfl
  · obtain ⟨t, typed⟩ := type.exists_passes
    refine ⟨w ++ (":" ++ t), z.1.rest, ?_, .inr ?_⟩
    · exact (passes.trans ((colon.of_lit.1.trans typed).trans behind)).rest.trans (by simp)
    · exact List.mem_append_right w List.mem_cons_self
  · exact ⟨w, z.1.rest, (passes.trans behind).rest.trans (List.append_assoc ..), .inl blank⟩

/-- **Each assignment of a body is to the one variable.** -/
theorem group_eq_of_mem_findAll {statements : List Statement} {m : Match}
    (mem : m ∈ bodyAssignment.findAll (source statements)) : m.group 1 = "body" := by
  obtain ⟨whole, matched⟩ := mem_findAllFrom mem
  obtain ⟨z, ⟨z', ⟨z'', word, gap⟩, ⟨gs, name, groups⟩⟩, rest⟩ := reads_of_matchAt? matched
  obtain ⟨t, before⟩ := word.exists_passes
  obtain ⟨g, some, blank, between, -⟩ := gap.of_run1
  obtain ⟨w, ne, isWord, passes, -⟩ := name.of_run1
  obtain ⟨v, r, behind, blanks⟩ := of_reads_assignedJson rest
  have front : m.start.seen.reverse ++ (t ++ (g ++ (w ++ v))) = "const body " := by
    refine eq_of_source_eq (v := r) (whole.symm.trans ?_)
    rw [((before.trans between).trans passes).rest, behind]
    simp
  have blank' : ∀ x ∈ v, x.isBlank = true := blanks.resolve_right fun colon => by
    have mem : (':' : CodePoint) ∈ ("const body " : Text) := by
      rw [← front]
      simp [colon]
    exact absurd mem (by decide)
  obtain ⟨g, b, rfl⟩ := (List.eq_nil_or_concat' g).resolve_left some
  have remembered : m.groups = (1, z'.1, z.1) :: gs := (rest.groups_eq rfl).trans groups
  have group : m.group 1 = w := by
    rw [Match.group, Match.group?, remembered]
    exact passes.textUntil
  have parted : (m.start.seen.reverse ++ (t ++ g)) ++ b :: (w ++ v) = "const body " := by
    rw [← front]
    simp
  exact group.trans (eq_of_append_eq parted ne isWord blank' (blank b (by simp)))

/-- **The body is held by one variable.** -/
theorem identifiers_source (statements : List Statement) :
    identifiers (source statements) = [("body" : Text)] := by
  have all : ∀ t ∈ (bodyAssignment.findAll (source statements)).map (fun m => m.group 1),
      t = ("body" : Text) := List.forall_mem_map.mpr fun m mem => group_eq_of_mem_findAll mem
  have once : (List.eraseDups (("body" : Text) ::
      (bodyAssignment.findAll (source statements)).map (·.group 1))) = [("body" : Text)] := by
    rw [List.eraseDups_cons, List.filter_eq_nil_iff.mpr]
    · rfl
    · intro t mem
      simp [all t mem]
  rw [identifiers, once, Text.sort, List.mergeSort_singleton]

/-- Nothing is taken out of a body. -/
theorem findAll_jsonDestructuring (statements : List Statement) :
    jsonDestructuring.findAll (source statements) = [] := by
  have brace : Needs '\x7b' TypeBlock.openBrace := needs_one fun d same => Fin.ext (eq_of_beq same)
  have needs : Needs '\x7b' jsonDestructuring :=
    (((Needs.right _ brace).left _).left _).left assignedJson
  refine needs.findAllFrom_eq_nil (fun mem => ?_) _
  rcases List.mem_append.mp mem with own | later
  · exact absurd own (by decide)
  · exact not_mem_statements (by decide) (by decide) (by decide) (by decide) statements later

/-! ### The Properties -/

/-- What is seen of the names is found in the text, in order. -/
theorem map_findAll_source (statements : List Statement) :
    ((propertyRead ["body"]).findAll (source statements)).map (·.group 1) =
      (statements.map Statement.seen).filter fun name => !name.isEmpty := by
  have text : (Cursor.start (source statements)).rest = "const " ++ ("body" ++
      ((" = await request.json();" : Text) ++ statements.flatMap Statement.text)) := rfl
  obtain ⟨c₁, passes₁, rest₁⟩ := Cursor.exists_passes text
  obtain ⟨c₂, passes₂, rest₂⟩ := Cursor.exists_passes rest₁
  obtain ⟨c₃, passes₃, rest₃⟩ := Cursor.exists_passes rest₂
  have first := findFrom?_skip Statement.startsIn_propertyRead passes₁
    (Statement.beq_eq_false_of_any rfl)
  have second : (propertyRead ["body"]).findFrom? c₁.seen c₁.rest =
      (propertyRead ["body"]).findFrom? c₂.seen c₂.rest := by
    refine findFrom?_pass passes₂ fun v v' eq ne => ?_
    rw [rest₂]
    refine Statement.fails_within (a := ' ') rfl (fun x mem => ?_) (by decide) (by decide)
      (by decide)
    have word : ∀ x ∈ ("body" : Text), TypeBlock.isNamePart x = true := List.all_eq_true.mp rfl
    exact word x (eq ▸ List.mem_append_right v mem)
  have third := findFrom?_skip Statement.startsIn_propertyRead passes₃
    (Statement.beq_eq_false_of_any rfl)
  refine map_findAllFrom_statements statements ((first.trans second).trans third) rest₃ ?_ ?_
    (Nat.lt_succ_self _)
  · rw [passes₃.seen]
    rfl
  · rw [text, rest₃]
    simp only [List.length_append]
    omega

/-- Of the characters of names, all but the dollar sign are word characters. -/
theorem isWord_iff_of_isNamePart (part : TypeBlock.isNamePart a = true) :
    a.isWord = true ↔ a ≠ '$' := by
  constructor
  · rintro word rfl
    exact absurd word (by decide)
  · intro other
    exact ((Bool.or_eq_true _ _).mp part).resolve_right fun same => other (eq_of_beq same)

namespace Statement

variable {s : Statement}

/-- A name has a last character. -/
theorem exists_name_eq_concat (s : Statement) : ∃ w b, s.name.text = w ++ [b] := by
  obtain ⟨x, more, eq, -⟩ := s.name.starts
  exact (List.eq_nil_or_concat' s.name.text).resolve_left (eq ▸ List.cons_ne_nil x more)

/-- **A property is seen by its whole name** unless the name ends in a dollar sign. -/
theorem seen_eq_name_iff (property : s.isCall = false) :
    s.seen = s.name.text ↔ s.name.text.getLast? ≠ some ('$' : CodePoint) := by
  obtain ⟨w, b, eq⟩ := s.exists_name_eq_concat
  have part : TypeBlock.isNamePart b = true := s.name.inClass b (by simp [eq])
  have back : s.isGivenBack b = !b.isWord := by simp [isGivenBack, property]
  rw [seen, Text.trimRight_eq_self_iff, eq, List.getLast?_concat]
  constructor
  · intro kept same
    have word := kept b rfl
    rw [back, Option.some.inj same] at word
    exact absurd word (by decide)
  · rintro other _ ⟨⟩
    rw [back, (isWord_iff_of_isNamePart part).mpr fun same => other (congrArg some same)]
    rfl

/-- **Nothing is seen of a method** exactly if its name is made of characters of one kind. -/
theorem seen_eq_nil_iff (call : s.isCall = true) :
    s.seen = [] ↔ (∀ c ∈ s.name.text, c.isWord = true) ∨
      ∀ c ∈ s.name.text, c = ('$' : CodePoint) := by
  obtain ⟨w, b, eq⟩ := s.exists_name_eq_concat
  have back (c : CodePoint) : s.isGivenBack c = (c.isWord == b.isWord) := by
    simp [isGivenBack, call, eq]
  have last : b ∈ s.name.text := by simp [eq]
  have dollar (c : CodePoint) (mem : c ∈ s.name.text) : c.isWord = false ↔ c = '$' := by
    rw [← Bool.not_eq_true, isWord_iff_of_isNamePart (s.name.inClass c mem), not_not]
  refine List.rdropWhile_eq_nil_iff.trans ⟨fun all => ?_, ?_⟩
  · have same (c : CodePoint) (mem : c ∈ s.name.text) : c.isWord = b.isWord := by
      have given := all c mem
      rwa [back, beq_iff_eq] at given
    cases kind : b.isWord with
    | true => exact .inl fun c mem => (same c mem).trans kind
    | false => exact .inr fun c mem => (dollar c mem).mp ((same c mem).trans kind)
  · rintro (words | dollars) c mem
    · rw [back, words c mem, words b last]
      rfl
    · rw [back, dollars c mem, dollars b last]
      rfl

end Statement

/-- The properties are what is seen of the names. -/
theorem ofAccess?_eq (statements : List Statement) {ctx : RouteContext}
    (text : ctx.source = source statements) :
    ofAccess? ctx = if (namesRead statements).isEmpty then none
      else some ((namesRead statements).map fun name =>
        ⟨name, false, if isFlagName name then "boolean" else "string", none⟩) := by
  have read : ((propertyRead ["body"]).findAll (source statements)).map
      (fun m => (m.group 1, false)) =
        ((statements.map Statement.seen).filter fun n => !n.isEmpty).map fun n => (n, false) := by
    rw [← map_findAll_source, List.map_map]
    rfl
  have own (name : Text) : accessed name false =
      ⟨name, false, if isFlagName name then "boolean" else "string", none⟩ := by
    rw [accessed, apply_ite FieldType.name]
    rfl
  rw [ofAccess?, text, identifiers_source, findAll_jsonDestructuring, read]
  dsimp only
  rw [List.flatMap_nil, List.nil_append, List.foldl_map,
    Assoc.foldl_putNew_eq fun name => accessed name false, List.isEmpty_map, List.map_map,
    namesRead]
  congr 2
  exact List.map_congr_left fun name _ => own name

/-- **The properties are what is seen of the names**, each where it comes first, optional and of a
type that is chosen by the name. A property is seen by its whole name exactly if the name does not
end in a dollar sign, and nothing is seen of a method exactly if its name is made of word characters
or of dollar signs alone. -/
theorem ofAccess?_source (statements : List Statement) {ctx : RouteContext}
    (text : ctx.source = source statements) :
    ofAccess? ctx = (if (namesRead statements).isEmpty then none
      else some ((namesRead statements).map fun name =>
        ⟨name, false, if isFlagName name then "boolean" else "string", none⟩)) ∧
    ∀ s ∈ statements,
      (s.isCall = false →
        (s.seen = s.name.text ↔ s.name.text.getLast? ≠ some ('$' : CodePoint))) ∧
      (s.isCall = true →
        (s.seen = [] ↔ (∀ c ∈ s.name.text, c.isWord = true) ∨
          ∀ c ∈ s.name.text, c = ('$' : CodePoint))) :=
  ⟨ofAccess?_eq statements text, fun s _ => ⟨s.seen_eq_name_iff, s.seen_eq_nil_iff⟩⟩

theorem isBlank_of_mem_lineBreak : ∀ c ∈ ("\n" : Text), c.isBlank = true :=
  List.all_eq_true.mp rfl

/-- A statement on a line of its own. -/
def Statement.onLine (name : PropertyName) (isCall : Bool) : Statement :=
  ⟨⟨"\n", isBlank_of_mem_lineBreak⟩, name, isCall⟩

/-- A title and a flag are read, a method is called and the title is read again. -/
def taskStatements : List Statement :=
  let title : PropertyName := ⟨⟨"title", List.all_eq_true.mp rfl⟩, _, _, rfl, rfl⟩
  let isDone : PropertyName := ⟨⟨"isDone", List.all_eq_true.mp rfl⟩, _, _, rfl, rfl⟩
  let save : PropertyName := ⟨⟨"save", List.all_eq_true.mp rfl⟩, _, _, rfl, rfl⟩
  [.onLine title false, .onLine isDone false, .onLine save true, .onLine title false]

theorem ofAccess?_source_task :
    ofAccess? (RequestBody.postContext (source taskStatements)) =
      some [⟨"title", false, "string", none⟩, ⟨"isDone", false, "boolean", none⟩] :=
  (ofAccess?_source taskStatements rfl).1.trans (by decide +kernel)

/-- **A dollar sign at the end of a name is lost**, and a method with such a name adds a
property. -/
theorem ofAccess?_dollar :
    ofAccess? (RequestBody.postContext "const body = await request.json();\nbody.total$;") =
      some [⟨"total", false, "string", none⟩] ∧
    ofAccess? (RequestBody.postContext "const body = await request.json();\nbody.total$();") =
      some [⟨"total", false, "string", none⟩] := by
  decide +kernel

end BodyField

end RouteDocs
