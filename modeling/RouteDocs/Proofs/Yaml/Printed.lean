import RouteDocs.Proofs.Yaml.Brackets
import RouteDocs.Proofs.Yaml.Style
import RouteDocs.Proofs.Yaml.Value

/-!
# Printed Documents Are Read

The text of a value in blocks is cut into the tokens of the value, and it is read as the value.

## Main Definitions

* `Yaml.IsKey`: the keys whose colon is found
* `Yaml.Cutting.IsLine`: the texts that are cut as a part of a collection
* `Yaml.Cutting.IsCut`: a printed value is cut into its tokens wherever it may stand

## Main Statements

* `Yaml.Cutting.reaches_key`: **a key is cut with its colon**
* `Yaml.Cutting.reaches_lines`: **the lines of a collection are cut**
* `Yaml.Cutting.isCut`: **a printed value is cut into its tokens**
* `Yaml.Token.ofText_printBlock`: **a printed document is cut into the tokens of its value**
* `Yaml.read_printBlock`: **a printed document is read**, where some texts are not read back

## Design Notes

What follows a value is a line end and a line that is not indented deeper than the collection around
the value, so the collections in the value end with it. A list that is the value of a key stands at the
level of the key: it begins and ends without a mark, and the collection around it stays open.
-/

namespace RouteDocs

namespace Yaml

/-- A key that is written before its colon leaves the colon in reach, and any other key is cut as one
scalar. -/
def IsKey (limit : Nat) (k : Text) : Prop :=
  if isSimpleKey k then (onOneLine k).length ≤ 1024 else Steady limit k

theorem Steady.mono {limit limit' : Nat} {t : Text} (steady : Steady limit t) (le : limit' ≤ limit) :
    Steady limit' t :=
  steady.imp_left le.trans_lt

namespace Cutting

variable {c : Cursor} {ts : List Token} {is : List Nat} {b isPlain : Bool}
  {i j level limit indent column : Nat} {r u raw t k : Text} {g : CodePoint} {v : Json}
  {vs : List Json} {ms : List (Text × Json)}

/-! ### Collections That Begin and End -/

/-- The tokens with the start of a collection, unless one at its level is open. -/
def openTokens (token : Token) (level : Nat) (ts : List Token) (is : List Nat) : List Token :=
  if is.head?.all (· < level) then token :: ts else ts

/-- The columns of the open collections with one at a level. -/
def openIndents (level : Nat) (is : List Nat) : List Nat :=
  if is.head?.all (· < level) then level :: is else is

theorem openBlock_eq (token : Token) : (inBlock c ts is b).openBlock token =
    inBlock c (openTokens token c.column ts is) (openIndents c.column is) b := by
  rw [inBlock_openBlock, openTokens, openIndents]
  split <;> rfl

theorem openTokens_same (token : Token) (head : is.head? = some level) :
    openTokens token level ts is = ts :=
  if_neg (by simp [head])

theorem openIndents_same (head : is.head? = some level) : openIndents level is = is :=
  if_neg (by simp [head])

theorem openTokens_deeper (token : Token) (head : ∀ j ∈ is.head?, j < level) :
    openTokens token level ts is = token :: ts :=
  if_pos (by simpa [Option.all_eq_true] using head)

theorem openIndents_deeper (head : ∀ j ∈ is.head?, j < level) :
    openIndents level is = level :: is :=
  if_pos (by simpa [Option.all_eq_true] using head)

/-- The innermost collection is the one at the level. -/
theorem head?_openIndents (head : ∀ j ∈ is.head?, j ≤ level) :
    (openIndents level is).head? = some level := by
  unfold openIndents
  split
  · rfl
  · next open_ =>
    cases first : is.head? with
    | none => simp [first] at open_
    | some j =>
        have le : j ≤ level := head j first
        have ge : ¬j < level := by simpa [first] using open_
        rw [le_antisymm le (Nat.le_of_not_lt ge)]

/-- **A collection ends** before a line that is not indented as deep. -/
theorem reaches_close (start : StartsToken c.rest) (less : c.column < level) :
    Reaches (inBlock c ts (level :: is) b) (inBlock c (.blockEnd :: ts) is b) :=
  .of_settle (settle_close start less) le_rfl

/-! ### Lines -/

/-- The position after a line end and an indentation. -/
theorem skip_line (h : c.rest = raw ++ (newLine i ++ r)) :
    (c.skip (raw.length + (i + 1))).rest = r ∧ (c.skip (raw.length + (i + 1))).column = i := by
  have line : (c.skip raw.length).rest = newLine i ++ r := Cursor.rest_skip_append h
  rw [Cursor.skip_add, Cursor.skip_newLine line]
  exact ⟨rfl, rfl⟩

/-- A space before a token is passed over. -/
theorem reaches_space (h : c.rest = (' ' : CodePoint) :: u) (start : StartsToken u) :
    Reaches (inBlock c ts is b) (inBlock c.next ts is b) ∧ c.next.rest = u ∧
      c.next.column = c.column + 1 := by
  refine ⟨reaches_spaces (s := inBlock c ts is b) (n := 1) h start, ?_, ?_⟩
  · rw [Cursor.rest_next, h]
    rfl
  · rw [Cursor.next_inline h (by decide)]

/-- The place where a collection begins is reached. -/
theorem reaches_opening {place : Place} (h : c.rest = Yaml.opening place level ++ u)
    (start : StartsToken u)
    (beside : place = .afterIndicator → b = true ∧ c.column + 1 = level) :
    Reaches (inBlock c ts is b) (inBlock (c.skip (Yaml.opening place level).length) ts is true) ∧
      (c.skip (Yaml.opening place level).length).rest = u ∧
      (c.skip (Yaml.opening place level).length).column = level := by
  cases place with
  | afterKey =>
      have rest : c.rest = [] ++ (newLine level ++ u) := h
      obtain ⟨after, position⟩ := skip_line rest
      rw [List.length_nil, Nat.zero_add] at after position
      have length : (Yaml.opening .afterKey level).length = level + 1 := length_newLine level
      rw [length]
      refine ⟨.of_settle (settle_line (s := inBlock c ts is b) rfl h start isOptional_none nofun) ?_,
        after, position⟩
      change (c.skip (level + 1)).rest.length ≤ c.rest.length
      rw [Cursor.rest_skip, List.length_drop]
      exact Nat.sub_le _ _
  | afterIndicator =>
      obtain ⟨rfl, rfl⟩ := beside rfl
      exact reaches_space h start

/-! ### Scalars -/

/-- What is cut as a scalar begins a token. -/
theorem IsSpelling.startsToken {deep : Nat} (spelt : IsSpelling deep raw isPlain t) (r : Text) :
    StartsToken (raw ++ r) := by
  have h : (Cursor.start (raw ++ (newLine 0 ++ []))).rest = raw ++ (newLine 0 ++ []) := rfl
  obtain ⟨x, u, eq, starts, -⟩ := spelt.2 (inBlock (.start (raw ++ (newLine 0 ++ []))) [] [] false)
    _ _ true rfl isOptional_none (Nat.zero_le _) (Nat.zero_le _) h
    (fun y hy => .inl (Option.some.inj hy).symm)
    (Plain.stops_newLine (Cursor.rest_skip_append h) rfl nofun (.inl rfl))
  obtain ⟨y, raw, rfl⟩ := List.exists_cons_of_ne_nil spelt.1
  obtain rfl : y = x := (List.cons.inj eq).1
  exact starts

/-- **A scalar after a space is cut** with its line. -/
theorem reaches_value (spelt : IsSpelling (indent + 2) raw isPlain t)
    (h : c.rest = (' ' : CodePoint) :: raw ++ (newLine i ++ r)) (start : StartsLine i r)
    (around : is.head? = some indent) (inside : indent < c.column) (le : i ≤ indent) :
    Reaches (inBlock c ts is b)
      (inBlock (c.skip (((' ' : CodePoint) :: raw).length + (i + 1))) (.scalar isPlain t :: ts) is
        true) := by
  obtain ⟨reaches, rest, column⟩ : Reaches (inBlock c ts is b) _ ∧ _ :=
    reaches_space h (spelt.startsToken _)
  have head {n : Nat} (less : indent < n) : ∀ j ∈ is.head?, j < n := fun j hj => by
    obtain rfl := Option.some.inj (around.symm.trans hj)
    exact less
  have scalar : Reaches (inBlock c.next ts is b) _ :=
    reaches_scalar spelt rest start (head (column ▸ Nat.lt_succ_of_lt inside))
      (head (Nat.lt_add_of_pos_right Nat.two_pos)) (.inr ⟨indent, around, le⟩)
  have length : ((' ' : CodePoint) :: raw).length + (i + 1) = raw.length + (i + 1) + 1 := by
    rw [List.length_cons]
    omega
  rw [length, Cursor.skip_succ]
  exact reaches.trans scalar

/-! ### Empty Collections -/

/-- **An empty collection in brackets is cut** with its line. -/
theorem reaches_empty (isMapping : Bool)
    (h : c.rest = [(' ' : CodePoint), Cutting.opening isMapping, closing isMapping] ++ (newLine i ++ r))
    (start : StartsLine i r) (around : is.head? = some indent) (inside : indent < c.column) :
    Reaches (inBlock c ts is b)
      (inBlock (c.skip (3 + (i + 1))) (closingToken isMapping :: openingToken isMapping :: ts) is
        true) := by
  obtain ⟨reaches₀, rest₀, column₀⟩ : Reaches (inBlock c ts is b) _ ∧ _ :=
    reaches_space h startsToken_opening
  have deeper : IsInside (inBlock c.next ts is b) := .inr fun j hj => by
    obtain rfl := Option.some.inj (around.symm.trans hj)
    exact column₀ ▸ Nat.lt_succ_of_lt inside
  obtain ⟨k, outer, reaches₁, optional, line, fades⟩ :=
    exists_open (s := inBlock c.next ts is b) ⟨isOptional_none, nofun⟩ deeper rest₀
  cases fades
  have rest₁ : c.next.next.rest = closing isMapping :: (newLine i ++ r) := by
    rw [Cursor.rest_next, rest₀]
    rfl
  obtain ⟨k', outer', reaches₂, fades, fades'⟩ :=
    exists_close (s := ⟨c.next.next, openingToken isMapping :: ts, is, true, none, [k]⟩)
      ⟨isOptional_none, List.forall_mem_singleton.mpr optional⟩ rfl rest₁
  cases fades'
  have rest₂ : c.next.next.next.rest = newLine i ++ r := by
    rw [Cursor.rest_next, rest₁]
    rfl
  have before : ∀ p ∈ k', p.line ≤ c.next.next.next.line := fun p hp => by
    have same : p.line = c.next.line := (line p (fades p hp)).resolve_left nofun
    rw [same]
    exact Cursor.line_le_skip 2 c.next
  have settled := settle_line (s := ⟨c.next.next.next,
    closingToken isMapping :: openingToken isMapping :: ts, is, false, k', []⟩) rfl rest₂ start.1
    (fades.optional optional) before
  have position : c.skip (3 + (i + 1)) = c.next.next.next.skip (i + 1) := Cursor.skip_add
  rw [position]
  refine ((reaches₀.trans reaches₁).trans reaches₂).trans (.of_settle settled ?_)
  change (c.next.next.next.skip (i + 1)).rest.length ≤ c.next.next.next.rest.length
  rw [Cursor.rest_skip, List.length_drop]
  exact Nat.sub_le _ _

/-! ### Keys -/

/-- A colon begins a line. -/
theorem startsLine_colon (i : Nat) : StartsLine i ((':' : CodePoint) :: u) := by
  refine .of_token ?_ (isDocumentMark_eq_false (by decide)) i
  rintro y ⟨⟩
  decide

/-- A hyphen before a gap begins a line. -/
theorem startsLine_hyphen (gap : isGap g = true) (i : Nat) :
    StartsLine i (('-' : CodePoint) :: g :: u) := by
  refine .of_token ?_ (isDocumentMark_of_isGap gap) i
  rintro y ⟨⟩
  decide

/-- A key begins its line. -/
theorem startsLine_keyText (level : Nat) (k u : Text) (i : Nat) :
    StartsLine i (keyText level k ++ (':' : CodePoint) :: u) := by
  unfold keyText
  split
  · refine startsLine_scalarText (fun y hy => ?_) i
    obtain rfl := Option.some.inj hy
    decide
  · refine .of_token ?_ (isDocumentMark_eq_false (by decide)) i
    rintro y ⟨⟩
    decide

/-- A key on one line is cut with its colon. -/
theorem reaches_key_simple (ts : List Token) (simple : isSimpleKey k = true)
    (short : (onOneLine k).length ≤ 1024)
    (h : c.rest = keyText level k ++ (':' : CodePoint) :: g :: u) (gap : isGap g = true)
    (position : c.column = level) (head : ∀ j ∈ is.head?, j ≤ level) :
    Reaches (inBlock c ts is true)
        (inBlock (c.skip ((keyText level k).length + 1))
          (.value :: textToken k :: .key :: openTokens .blockMappingStart level ts is)
          (openIndents level is) false) ∧
      level < (c.skip ((keyText level k).length + 1)).column := by
  have text : keyText level k = scalarText false (level + 2) level k := if_pos simple
  have inLine : k.any isBreak = false := by
    simp only [isSimpleKey, Bool.and_eq_true, Bool.not_eq_true'] at simple
    exact simple.1.2
  have inline : ∀ x ∈ keyText level k, isInline x = true := by
    intro x hx
    rw [text] at hx
    rcases mem_scalarText hx with ⟨-, folds⟩ | visible | ⟨mem, printable⟩
    · simp [inLine] at folds
    · exact Quoted.isInline_of_isVisible visible
    · refine Plain.isInline_of_isPrintable printable (Bool.eq_false_iff.mpr fun breaks => ?_)
      exact absurd (List.any_eq_true.mpr ⟨x, mem, breaks⟩) (by simp [inLine])
  have spelt : IsSpelling (level + 2) (keyText level k) (style k == .plain) (readBack k) := by
    rw [text]
    exact isSpelling_scalarText (Nat.succ_pos _) (by simp)
  have near : (keyText level k).length ≤ 1024 := by
    rw [text, scalarText_eq_onOneLine inLine]
    exact short
  subst position
  have deeper : ∀ j ∈ is.head?, j < c.column + 2 := fun j hj =>
    (head j hj).trans_lt (Nat.lt_add_of_pos_right Nat.two_pos)
  have reaches : Reaches (inBlock c ts is true) _ :=
    reaches_simpleKey spelt h gap inline near head deeper
  rw [openBlock_eq] at reaches
  refine ⟨reaches, ?_⟩
  have atColon := Cursor.skip_inline h inline
  have colon : (c.skip (keyText c.column k).length).rest = (':' : CodePoint) :: g :: u := by
    rw [atColon]
  rw [← Cursor.next_skip, Cursor.next_inline colon (by decide), atColon]
  exact Nat.lt_succ_of_le (Nat.le_add_right _ _)

/-- A key after a question mark is cut, and so is its colon. -/
theorem reaches_key_explicit (ts : List Token) (explicit : isSimpleKey k = false)
    (steady : Steady (level + 2) k)
    (h : c.rest = keyText level k ++ (':' : CodePoint) :: g :: u) (gap : isGap g = true)
    (position : c.column = level) (head : ∀ j ∈ is.head?, j ≤ level) :
    Reaches (inBlock c ts is true)
        (inBlock (c.skip ((keyText level k).length + 1))
          (.value :: textToken k :: .key :: openTokens .blockMappingStart level ts is)
          (openIndents level is) true) ∧
      (c.skip ((keyText level k).length + 1)).column = level + 1 := by
  have spelt : IsSpelling (level + 2) (scalarText true (level + 2) (level + 2) k)
      (style k == .plain) (readBack k) := isSpelling_scalarText (Nat.succ_pos _) fun _ => steady
  have text : keyText level k = ('?' : CodePoint) ::
      (((' ' : CodePoint) :: scalarText true (level + 2) (level + 2) k) ++ newLine level) :=
    if_neg (by simp [explicit])
  generalize scalarText true (level + 2) (level + 2) k = raw at spelt text
  subst position
  have h : c.rest = ('?' : CodePoint) ::
      (((' ' : CodePoint) :: raw) ++ (newLine c.column ++ (':' : CodePoint) :: g :: u)) := by
    rw [h, text, List.cons_append, List.append_assoc]
  have mark : Reaches (inBlock c ts is true) _ := reaches_explicitKey h rfl head
  rw [openBlock_eq] at mark
  have next : c.next.rest =
      ((' ' : CodePoint) :: raw) ++ (newLine c.column ++ (':' : CodePoint) :: g :: u) := by
    rw [Cursor.rest_next, h]
    rfl
  have beside : c.next.column = c.column + 1 := by rw [Cursor.next_inline h (by decide)]
  have value : Reaches (inBlock c.next (.key :: openTokens .blockMappingStart c.column ts is)
      (openIndents c.column is) true) _ :=
    reaches_value spelt next (startsLine_colon c.column) (head?_openIndents head) (by omega) le_rfl
  obtain ⟨rest, column⟩ := skip_line next
  obtain ⟨is', open_⟩ := List.head?_eq_some_iff.mp (head?_openIndents head)
  have length : (keyText c.column k).length + 1 =
      (((' ' : CodePoint) :: raw).length + (c.column + 1)) + 1 + 1 := by
    rw [text, List.length_cons, List.length_append, length_newLine]
  have passed : c.skip ((keyText c.column k).length + 1) =
      (c.next.skip (((' ' : CodePoint) :: raw).length + (c.column + 1))).next := by
    rw [length, ← Cursor.next_skip, Cursor.skip_succ]
  rw [passed]
  generalize c.next.skip (((' ' : CodePoint) :: raw).length + (c.column + 1)) = c' at *
  have colon (ts' : List Token) : Reaches (inBlock c' ts' (c'.column :: is') true)
      (inBlock c'.next (.value :: ts') (c'.column :: is') true) := reaches_explicitValue rest gap
  rw [column, ← open_] at colon
  refine ⟨(mark.trans value).trans (colon _), ?_⟩
  rw [Cursor.next_inline rest (by decide), column]

/-- **A key is cut with its colon**, and a mapping begins with the first of them. -/
theorem reaches_key (ts : List Token) (key : IsKey limit k) (narrow : level + 2 ≤ limit)
    (h : c.rest = keyText level k ++ (':' : CodePoint) :: g :: u) (gap : isGap g = true)
    (position : c.column = level) (head : ∀ j ∈ is.head?, j ≤ level) :
    Reaches (inBlock c ts is true)
        (inBlock (c.skip ((keyText level k).length + 1))
          (.value :: textToken k :: .key :: openTokens .blockMappingStart level ts is)
          (openIndents level is) (placeOfValue k == .afterIndicator)) ∧
      level < (c.skip ((keyText level k).length + 1)).column ∧
      (placeOfValue k = .afterIndicator →
        (c.skip ((keyText level k).length + 1)).column = level + 1) := by
  unfold IsKey at key
  unfold placeOfValue
  split at key
  · next simple =>
    obtain ⟨reaches, column⟩ := reaches_key_simple ts simple key h gap position head
    rw [if_pos simple]
    exact ⟨reaches, column, nofun⟩
  · next explicit =>
    obtain ⟨reaches, column⟩ := reaches_key_explicit ts (by simpa using explicit)
      (key.mono narrow) h gap position head
    rw [if_neg explicit, column]
    exact ⟨reaches, Nat.lt_succ_self level, fun _ => rfl⟩

/-! ### Lines of a Collection -/

/-- A text is cut as a part of a collection that begins a line at a level, and the collection begins
with it unless it is open. -/
def IsLine (token : Token) (level : Nat) (w : Text) (new : List Token) : Prop :=
  (∀ r, StartsLine level (w ++ r)) ∧
    ∀ (c : Cursor) (ts : List Token) (is : List Nat) (i : Nat) (r : Text), c.column = level →
      (∀ j ∈ is.head?, j ≤ level) → i ≤ level → StartsLine i r → c.rest = w ++ (newLine i ++ r) →
        Reaches (inBlock c ts is true)
          (inBlock (c.skip (w.length + (i + 1))) (new.reverse ++ openTokens token level ts is)
            (openIndents level is) true)

/-- The lines of a collection begin a line. -/
theorem startsLine_lines {token : Token} {parts : List (Text × List Token)} (some : parts ≠ [])
    (each : ∀ p ∈ parts, IsLine token level p.1 p.2) (r : Text) :
    StartsLine level (Text.join (newLine level) (parts.map (·.1)) ++ r) := by
  obtain ⟨p, more, rfl⟩ := List.exists_cons_of_ne_nil some
  have first := (each p List.mem_cons_self).1
  cases more with
  | nil => exact first _
  | cons q more =>
      rw [List.map_cons, List.map_cons, Text.join_cons_cons, List.append_assoc]
      exact first _

/-- **The lines of a collection are cut**, and the collection begins with the first of them. -/
theorem reaches_lines (ts : List Token) {token : Token} {parts : List (Text × List Token)}
    (some : parts ≠ [])
    (each : ∀ p ∈ parts, IsLine token level p.1 p.2) (position : c.column = level)
    (head : ∀ j ∈ is.head?, j ≤ level) (le : i ≤ level) (start : StartsLine i r)
    (h : c.rest = Text.join (newLine level) (parts.map (·.1)) ++ (newLine i ++ r)) :
    Reaches (inBlock c ts is true)
      (inBlock (c.skip ((Text.join (newLine level) (parts.map (·.1))).length + (i + 1)))
        ((parts.flatMap (·.2)).reverse ++ openTokens token level ts is) (openIndents level is)
        true) := by
  induction parts generalizing c ts is with
  | nil => exact absurd rfl some
  | cons p more ih =>
      obtain ⟨first, others⟩ := List.forall_mem_cons.mp each
      cases more with
      | nil =>
          have reaches := first.2 c ts is i r position head le start h
          rwa [List.flatMap_singleton]
      | cons q more =>
          have starts := startsLine_lines (List.cons_ne_nil q more) others (newLine i ++ r)
          rw [List.map_cons, List.map_cons, Text.join_cons_cons] at h ⊢
          rw [List.append_assoc, List.append_assoc] at h
          have open_ := head?_openIndents head
          have reaches := first.2 c ts is level _ position head le_rfl starts h
          obtain ⟨rest, column⟩ := skip_line h
          have head' : ∀ j ∈ (openIndents level is).head?, j ≤ level := fun j hj =>
            (Option.some.inj (open_.symm.trans hj)).ge
          have following : Reaches (inBlock (c.skip (p.1.length + (level + 1)))
              (p.2.reverse ++ openTokens token level ts is) (openIndents level is) true) _ :=
            ih _ (List.cons_ne_nil q more) others column head' rest
          rw [openTokens_same token open_, openIndents_same open_, ← Cursor.skip_add] at following
          have length (w : Text) : (p.1 ++ (newLine level ++ w)).length + (i + 1) =
              p.1.length + (level + 1) + (w.length + (i + 1)) := by
            simp only [List.length_append, length_newLine]
            omega
          rw [length, List.flatMap_cons, List.reverse_append, List.append_assoc]
          exact reaches.trans following

/-- **A collection is cut** that begins where its first line does. -/
theorem reaches_collection (ts : List Token) {token : Token} {place : Place}
    {parts : List (Text × List Token)}
    (some : parts ≠ []) (each : ∀ p ∈ parts, IsLine token level p.1 p.2)
    (beside : place = .afterIndicator → b = true ∧ c.column + 1 = level)
    (head : ∀ j ∈ is.head?, j ≤ level) (le : i ≤ level) (start : StartsLine i r)
    (h : c.rest = Yaml.opening place level ++ Text.join (newLine level) (parts.map (·.1)) ++
      (newLine i ++ r)) :
    Reaches (inBlock c ts is b)
      (inBlock (c.skip ((Yaml.opening place level ++
          Text.join (newLine level) (parts.map (·.1))).length + (i + 1)))
        ((parts.flatMap (·.2)).reverse ++ openTokens token level ts is) (openIndents level is)
        true) := by
  rw [List.append_assoc] at h
  have first : StartsToken (Text.join (newLine level) (parts.map (·.1)) ++ (newLine i ++ r)) :=
    (startsLine_lines some each _).1
  obtain ⟨reaches, rest, column⟩ : Reaches (inBlock c ts is b) _ ∧ _ :=
    reaches_opening h first beside
  have lines := reaches_lines ts some each column head le start rest
  rw [List.length_append, Nat.add_assoc, Cursor.skip_add]
  exact reaches.trans lines

/-- **A collection that is deeper than what is around it is cut**, and it ends with its last line. -/
theorem reaches_closed {token : Token} {place : Place} {parts : List (Text × List Token)}
    (some : parts ≠ []) (each : ∀ p ∈ parts, IsLine token level p.1 p.2)
    (beside : place = .afterIndicator → b = true ∧ c.column + 1 = level)
    (head : ∀ j ∈ is.head?, j < level) (less : i < level) (start : StartsLine i r)
    (h : c.rest = Yaml.opening place level ++ Text.join (newLine level) (parts.map (·.1)) ++
      (newLine i ++ r)) :
    Reaches (inBlock c ts is b)
      (inBlock (c.skip ((Yaml.opening place level ++
          Text.join (newLine level) (parts.map (·.1))).length + (i + 1)))
        ((token :: (parts.flatMap (·.2) ++ [.blockEnd])).reverse ++ ts) is true) := by
  have lines := reaches_collection ts some each beside (fun j hj => (head j hj).le) less.le
    start h
  rw [openTokens_deeper token head, openIndents_deeper head] at lines
  obtain ⟨rest, column⟩ := skip_line h
  have ends : Reaches (inBlock _ ((parts.flatMap (·.2)).reverse ++ token :: ts) (level :: is) true) _ :=
    reaches_close (rest ▸ start.1) (column.trans_lt less)
  simpa using lines.trans ends

/-! ### Values -/

/-- Where a value stands in a collection with an indentation. -/
structure IsPlace (indent : Nat) (place : Place) (c : Cursor) (is : List Nat) (b : Bool) : Prop where
  /-- The collection is the innermost one. -/
  around : is.head? = some indent
  /-- The value is within it. -/
  inside : indent < c.column
  /-- Beside an indicator, a collection may begin. -/
  beside : place = .afterIndicator → b = true ∧ c.column = indent + 1

/-- **A printed value is cut into its tokens** wherever it may stand, if lines are folded up to an
indentation. -/
def IsCut (limit : Nat) (v : Json) : Prop :=
  ∀ (indent column : Nat) (place : Place) (c : Cursor) (ts : List Token) (is : List Nat) (b : Bool)
    (i : Nat) (r : Text), indent + 2 + 2 * v.depth ≤ limit → IsPlace indent place c is b →
      i ≤ indent → StartsLine i r →
      c.rest = printValue indent column place v ++ (newLine i ++ r) →
        Reaches (inBlock c ts is b)
          (inBlock (c.skip ((printValue indent column place v).length + (i + 1)))
            ((blockTokens place v).reverse ++ ts) is true)

/-- What is printed after a key or an indicator begins with a gap. -/
theorem exists_printValue (indent column : Nat) (place : Place) (v : Json) :
    ∃ g u, printValue indent column place v = g :: u ∧ isGap g = true := by
  cases v with
  | arr vs => cases vs <;> cases place <;> exact ⟨_, _, rfl, rfl⟩
  | obj ms => cases ms <;> cases place <;> exact ⟨_, _, rfl, rfl⟩
  | _ => exact ⟨_, _, rfl, rfl⟩

/-- A value that is printed as a scalar is cut. -/
theorem isCut_scalar (raw : Nat → Nat → Text)
    (text : ∀ indent column place, printValue indent column place v =
      (' ' : CodePoint) :: raw (indent + 2) (column + 1))
    (tokens : ∀ place, blockTokens place v = [.scalar isPlain t])
    (spelt : ∀ indent column, 0 < indent → indent ≤ limit → IsSpelling indent (raw indent column) isPlain t) :
    IsCut limit v := by
  intro indent column place c ts is b i r narrow stands le start h
  rw [text] at h ⊢
  rw [tokens]
  exact reaches_value (spelt _ _ (Nat.succ_pos _) (Nat.le_of_add_right_le narrow)) h start
    stands.around stands.inside le

theorem isCut_word (some : word v ≠ [])
    (text : ∀ indent column place, printValue indent column place v = (' ' : CodePoint) :: word v)
    (tokens : ∀ place, blockTokens place v = [.scalar true (word v)]) : IsCut limit v :=
  isCut_scalar (fun _ _ => word v) text tokens fun _ _ pos _ => isSpelling_word some pos

/-- An item is cut with its hyphen. -/
theorem isLine_item (cut : IsCut limit v) (narrow : level + 2 + 2 * v.depth ≤ limit) :
    IsLine .blockSequenceStart level
      (("-" : Text) ++ printValue level (level + 1) .afterIndicator v)
      (.blockEntry :: blockTokens .afterIndicator v) := by
  obtain ⟨g, u, text, gap⟩ := exists_printValue level (level + 1) .afterIndicator v
  refine ⟨fun r => ?_, fun c ts is i r position head le start h => ?_⟩
  · rw [text]
    exact startsLine_hyphen gap level
  · have open_ := head?_openIndents head
    have hyphen : c.rest = ('-' : CodePoint) :: g :: (u ++ (newLine i ++ r)) := by
      rw [h, text]
      rfl
    have entry : Reaches (inBlock c ts is true) _ :=
      reaches_blockEntry hyphen gap (position ▸ head)
    rw [openBlock_eq, position] at entry
    have rest : c.next.rest =
        printValue level (level + 1) .afterIndicator v ++ (newLine i ++ r) := by
      rw [Cursor.rest_next, hyphen, text]
      rfl
    have beside : c.next.column = level + 1 := by
      rw [Cursor.next_inline hyphen (by decide), position]
    have stands : IsPlace level .afterIndicator c.next (openIndents level is) true :=
      ⟨open_, beside ▸ Nat.lt_succ_self level, fun _ => ⟨rfl, beside⟩⟩
    have value := cut level (level + 1) .afterIndicator c.next
      (.blockEntry :: openTokens .blockSequenceStart level ts is) _ true i r narrow stands le start
      rest
    have length (w : Text) : (("-" : Text) ++ w).length + (i + 1) = w.length + (i + 1) + 1 := by
      rw [List.length_append]
      change 1 + w.length + (i + 1) = _
      omega
    rw [length, Cursor.skip_succ, List.reverse_cons, List.append_assoc]
    exact entry.trans value

/-- A member is cut with its key. -/
theorem isLine_member (key : IsKey limit k) (cut : IsCut limit v)
    (narrow : level + 2 + 2 * v.depth ≤ limit) :
    IsLine .blockMappingStart level
      (keyText level k ++ (":" : Text)
        ++ printValue level (columnAfterKey level k) (placeOfValue k) v)
      (.key :: textToken k :: .value :: blockTokens (placeOfValue k) v) := by
  obtain ⟨g, u, text, gap⟩ :=
    exists_printValue level (columnAfterKey level k) (placeOfValue k) v
  refine ⟨fun r => ?_, fun c ts is i r position head le start h => ?_⟩
  · rw [List.append_assoc, List.append_assoc]
    exact startsLine_keyText level k _ level
  · have open_ := head?_openIndents head
    rw [List.append_assoc, List.append_assoc] at h
    have colon : c.rest = keyText level k ++ (':' : CodePoint) :: g :: (u ++ (newLine i ++ r)) := by
      rw [h, text]
      rfl
    obtain ⟨entry, inside, beside⟩ := reaches_key ts key
      (Nat.le_of_add_right_le narrow) colon gap position head
    have rest : (c.skip ((keyText level k).length + 1)).rest =
        printValue level (columnAfterKey level k) (placeOfValue k) v ++ (newLine i ++ r) := by
      rw [← Cursor.next_skip, Cursor.rest_next, Cursor.rest_skip_append h]
      rfl
    have stands : IsPlace level (placeOfValue k) (c.skip ((keyText level k).length + 1))
        (openIndents level is) (placeOfValue k == .afterIndicator) :=
      ⟨open_, inside, fun place => ⟨by rw [place]; rfl, beside place⟩⟩
    have value := cut level (columnAfterKey level k) (placeOfValue k) _
      (.value :: textToken k :: .key :: openTokens .blockMappingStart level ts is) _ _ i r narrow
      stands le start rest
    have length (w : Text) : (keyText level k ++ (":" : Text) ++ w).length + (i + 1) =
        (keyText level k).length + 1 + (w.length + (i + 1)) := by
      rw [List.length_append, List.length_append]
      change (keyText level k).length + 1 + w.length + (i + 1) = _
      omega
    rw [length, Cursor.skip_add]
    simpa using entry.trans value

/-- The items of a list with their tokens. -/
def itemLines (level : Nat) (vs : List Json) : List (Text × List Token) :=
  vs.map fun v => (("-" : Text) ++ printValue level (level + 1) .afterIndicator v,
    .blockEntry :: blockTokens .afterIndicator v)

/-- The members of an object with their tokens. -/
def memberLines (level : Nat) (ms : List (Text × Json)) : List (Text × List Token) :=
  ms.map fun p => (keyText level p.1 ++ (":" : Text)
      ++ printValue level (columnAfterKey level p.1) (placeOfValue p.1) p.2,
    .key :: textToken p.1 :: .value :: blockTokens (placeOfValue p.1) p.2)

theorem printItems_eq (vs : List Json) : printItems level vs = (itemLines level vs).map (·.1) := by
  induction vs with
  | nil => rfl
  | cons v more ih => rw [printItems, ih]; rfl

theorem printMembers_eq (ms : List (Text × Json)) :
    printMembers level ms = (memberLines level ms).map (·.1) := by
  induction ms with
  | nil => rfl
  | cons p more ih => rw [printMembers, ih]; rfl

theorem blockItemTokens_eq (vs : List Json) :
    blockItemTokens vs = (itemLines level vs).flatMap (·.2) := by
  induction vs with
  | nil => rfl
  | cons v more ih => rw [blockItemTokens, ih]; rfl

theorem blockMemberTokens_eq (ms : List (Text × Json)) :
    blockMemberTokens ms = (memberLines level ms).flatMap (·.2) := by
  induction ms with
  | nil => rfl
  | cons p more ih => rw [blockMemberTokens, ih]; rfl

theorem exists_printValue_arr (indent column : Nat) (place : Place) (some : vs ≠ []) :
    ∃ level, printValue indent column place (.arr vs) = Yaml.opening place level ++
      Text.join (newLine level) ((itemLines level vs).map (·.1)) := by
  obtain ⟨v, more, rfl⟩ := List.exists_cons_of_ne_nil some
  cases place with
  | afterKey => exact ⟨indent, by rw [← printItems_eq]; rfl⟩
  | afterIndicator => exact ⟨indent + 2, by rw [← printItems_eq]; rfl⟩

theorem printValue_obj (indent column : Nat) (place : Place) (some : ms ≠ []) :
    printValue indent column place (.obj ms) = Yaml.opening place (indent + 2) ++
      Text.join (newLine (indent + 2)) ((memberLines (indent + 2) ms).map (·.1)) := by
  obtain ⟨p, more, rfl⟩ := List.exists_cons_of_ne_nil some
  rw [← printMembers_eq]
  rfl

theorem isLine_of_mem_itemLines (items : ∀ w ∈ vs, IsCut limit w)
    (narrow : level + 2 * (Json.arr vs).depth ≤ limit) :
    ∀ p ∈ itemLines level vs, IsLine .blockSequenceStart level p.1 p.2 := by
  refine List.forall_mem_map.mpr fun w hw => isLine_item (items w hw) ?_
  have deeper := Json.depth_le_of_mem_items hw
  rw [Json.depth] at narrow
  omega

theorem isLine_of_mem_memberLines (keys : ∀ p ∈ ms, IsKey limit p.1)
    (values : ∀ p ∈ ms, IsCut limit p.2) (narrow : level + 2 * (Json.obj ms).depth ≤ limit) :
    ∀ p ∈ memberLines level ms, IsLine .blockMappingStart level p.1 p.2 := by
  refine List.forall_mem_map.mpr fun p hp => isLine_member (keys p hp) (values p hp) ?_
  have deeper := Json.depth_le_of_mem_members hp
  rw [Json.depth] at narrow
  omega

/-- **A list is cut** if its items are. -/
theorem isCut_arr (items : ∀ w ∈ vs, IsCut limit w) : IsCut limit (.arr vs) := by
  intro indent column place c ts is b i r narrow stands le start h
  obtain ⟨around, inside, beside⟩ := stands
  have head : ∀ j ∈ is.head?, j = indent := fun j hj => Option.some.inj (hj.symm.trans around)
  cases vs with
  | nil =>
      have text : printValue indent column place (.arr []) = " []" := by cases place <;> rfl
      rw [text] at h ⊢
      exact reaches_empty false h start around inside
  | cons v more =>
      have some (level : Nat) : itemLines level (v :: more) ≠ [] := List.cons_ne_nil _ _
      cases place with
      | afterKey =>
          have text : printValue indent column .afterKey (.arr (v :: more)) =
              Yaml.opening .afterKey indent ++
                Text.join (newLine indent) ((itemLines indent (v :: more)).map (·.1)) := by
            rw [← printItems_eq]
            rfl
          have tokens : blockTokens .afterKey (.arr (v :: more)) =
              (itemLines indent (v :: more)).flatMap (·.2) := by
            rw [← blockItemTokens_eq]
            rfl
          rw [text] at h ⊢
          have apart : Place.afterKey = .afterIndicator → b = true ∧ c.column + 1 = indent := nofun
          have lines := reaches_collection ts (some indent)
            (isLine_of_mem_itemLines items (by omega)) apart (fun j hj => (head j hj).le) le start h
          rw [openTokens_same _ around, openIndents_same around] at lines
          rwa [tokens]
      | afterIndicator =>
          have text : printValue indent column .afterIndicator (.arr (v :: more)) =
              Yaml.opening .afterIndicator (indent + 2) ++
                Text.join (newLine (indent + 2)) ((itemLines (indent + 2) (v :: more)).map (·.1)) := by
            rw [← printItems_eq]
            rfl
          have tokens : blockTokens .afterIndicator (.arr (v :: more)) = .blockSequenceStart ::
              ((itemLines (indent + 2) (v :: more)).flatMap (·.2) ++ [.blockEnd]) := by
            rw [← blockItemTokens_eq]
            rfl
          rw [text] at h ⊢
          rw [tokens]
          exact reaches_closed (some _) (isLine_of_mem_itemLines items (by omega)) (by simpa using beside)
            (fun j hj => by rw [head j hj]; omega) (by omega) start h

/-- **An object is cut** if its keys and values are. -/
theorem isCut_obj (keys : ∀ p ∈ ms, IsKey limit p.1) (values : ∀ p ∈ ms, IsCut limit p.2) :
    IsCut limit (.obj ms) := by
  intro indent column place c ts is b i r narrow stands le start h
  obtain ⟨around, inside, beside⟩ := stands
  have head : ∀ j ∈ is.head?, j = indent := fun j hj => Option.some.inj (hj.symm.trans around)
  cases ms with
  | nil =>
      have text : printValue indent column place (.obj []) = [' ', '\x7b', '\x7d'] := by
        cases place <;> rfl
      rw [text] at h ⊢
      exact reaches_empty true h start around inside
  | cons p more =>
      have some : memberLines (indent + 2) (p :: more) ≠ [] := List.cons_ne_nil _ _
      have text := printValue_obj indent column place (List.cons_ne_nil p more)
      have tokens : blockTokens place (.obj (p :: more)) = .blockMappingStart ::
          ((memberLines (indent + 2) (p :: more)).flatMap (·.2) ++ [.blockEnd]) := by
        rw [← blockMemberTokens_eq]
        rfl
      rw [text] at h ⊢
      rw [tokens]
      exact reaches_closed some (isLine_of_mem_memberLines keys values (by omega)) (by simpa using beside)
        (fun j hj => by rw [head j hj]; omega) (by omega) start h

/-- **A printed value is cut into its tokens.** -/
theorem isCut (made : v.MadeOf (Steady limit) (IsKey limit)) : IsCut limit v := by
  induction made with
  | null => exact isCut_word word_null_ne_nil (fun _ _ _ => rfl) fun _ => rfl
  | bool b => exact isCut_word (word_bool_ne_nil b) (fun _ _ _ => rfl) fun _ => rfl
  | @int i _ => exact isCut_word (v := .int i) ofInt_ne_nil (fun _ _ _ => rfl) fun _ => rfl
  | @str t steady =>
      refine isCut_scalar (fun indent column => scalarText true indent column t) (fun _ _ _ => rfl)
        (fun _ => rfl) fun indent column pos le => ?_
      exact isSpelling_scalarText pos fun _ => steady.mono le
  | arr _ ih => exact isCut_arr ih
  | obj keys _ ih => exact isCut_obj keys ih

end Cutting

/-! ### Code Points -/

variable {indent column limit : Nat} {place : Place} {v : Json} {x : CodePoint}

theorem isClear_lineFeed : IsClear '\n' := ⟨by decide, by decide⟩

theorem isClear_of_all {t : Text} (h : t.all isVisibleLine = true) : ∀ x ∈ t, IsClear x :=
  fun x hx => isClear_of_isVisibleLine (List.all_eq_true.mp h x hx)

theorem isClear_of_mem_spaces {n : Nat} (h : x ∈ spaces n) : IsClear x := by
  rw [eq_space_of_mem_spaces h]
  exact ⟨by decide, by decide⟩

theorem isClear_of_mem_newLine {n : Nat} (h : x ∈ newLine n) : IsClear x := by
  rcases List.mem_cons.mp h with rfl | h
  · exact isClear_lineFeed
  · exact isClear_of_mem_spaces h

theorem isClear_of_mem_opening {level : Nat} (h : x ∈ opening place level) : IsClear x := by
  cases place with
  | afterKey => exact isClear_of_mem_newLine h
  | afterIndicator => exact isClear_of_mem_spaces (n := 1) h

theorem isClear_of_isPrintable (h : isPrintable x = true) : IsClear x := by
  simp only [isPrintable, Bool.or_eq_true, Bool.and_eq_true, decide_eq_true_eq, beq_iff_eq,
    bne_iff_ne] at h
  simp only [IsClear, isAllowed, Bool.or_eq_true, Bool.and_eq_true, decide_eq_true_eq, beq_iff_eq]
  omega

theorem isClear_of_mem_scalarText {fold : Bool} {t : Text}
    (h : x ∈ scalarText fold indent column t) : IsClear x := by
  rcases mem_scalarText h with ⟨rfl, -⟩ | visible | ⟨-, printable⟩
  · exact isClear_lineFeed
  · refine isClear_of_isVisibleLine ?_
    rw [isVisibleLine, visible, Bool.or_true]
  · exact isClear_of_isPrintable printable

theorem isClear_of_mem_keyText {level : Nat} {k : Text} (h : x ∈ keyText level k) : IsClear x := by
  unfold keyText at h
  split at h
  · exact isClear_of_mem_scalarText h
  · rcases List.mem_append.mp h with h | h
    · rcases List.mem_append.mp h with h | h
      · have mark : x = '?' ∨ x = ' ' := by simpa [Text.ofString] using h
        rcases mark with rfl | rfl <;> exact ⟨by decide, by decide⟩
      · exact isClear_of_mem_scalarText h
    · exact isClear_of_mem_newLine h

theorem isClear_of_mem_word (h : x ∈ word v) : IsClear x :=
  isClear_of_isVisibleLine (isVisibleLine_word v x h)

/-- The code points of lines that are joined. -/
theorem isClear_of_mem_join {level : Nat} {parts : List (Text × List Token)}
    (each : ∀ p ∈ parts, ∀ x ∈ p.1, IsClear x)
    (h : x ∈ Text.join (newLine level) (parts.map (·.1))) : IsClear x := by
  rcases Text.mem_of_mem_join h with h | ⟨t, ht, h⟩
  · exact isClear_of_mem_newLine h
  · obtain ⟨p, hp, rfl⟩ := List.mem_map.mp ht
    exact each p hp x h

section Values

open Cutting

variable {texts keys : Text → Prop} {level : Nat} {vs : List Json} {ms : List (Text × Json)}

theorem isClear_of_mem_space {raw : Text} (within : ∀ x ∈ raw, IsClear x)
    (h : x ∈ (' ' : CodePoint) :: raw) : IsClear x := by
  rcases List.mem_cons.mp h with rfl | h
  · exact ⟨by decide, by decide⟩
  · exact within x h

theorem isClear_of_mem_itemLines
    (each : ∀ v ∈ vs, ∀ indent column place, ∀ x ∈ printValue indent column place v, IsClear x) :
    ∀ p ∈ itemLines level vs, ∀ x ∈ p.1, IsClear x := by
  refine List.forall_mem_map.mpr fun v hv x hx => ?_
  rcases List.mem_append.mp hx with hx | hx
  · rw [List.mem_singleton.mp hx]
    exact ⟨by decide, by decide⟩
  · exact each v hv _ _ _ x hx

theorem isClear_of_mem_memberLines
    (each : ∀ p ∈ ms, ∀ indent column place, ∀ x ∈ printValue indent column place p.2, IsClear x) :
    ∀ p ∈ memberLines level ms, ∀ x ∈ p.1, IsClear x := by
  refine List.forall_mem_map.mpr fun p hp x hx => ?_
  rcases List.mem_append.mp hx with hx | hx
  · rcases List.mem_append.mp hx with hx | hx
    · exact isClear_of_mem_keyText hx
    · rw [List.mem_singleton.mp hx]
      exact ⟨by decide, by decide⟩
  · exact each p hp _ _ _ x hx

/-- The code points of an empty collection. -/
theorem clear_brackets (isMapping : Bool) :
    ∀ x ∈ [(' ' : CodePoint), Cutting.opening isMapping, closing isMapping], IsClear x := by
  have visible : [(' ' : CodePoint), Cutting.opening isMapping, closing isMapping].all isVisibleLine =
      true := by cases isMapping <;> decide
  exact isClear_of_all visible

/-- **What is printed can be read**: no code point of it is a control character or a mark. -/
theorem isClear_of_mem_printValue (made : v.MadeOf texts keys) :
    ∀ indent column place, ∀ x ∈ printValue indent column place v, IsClear x := by
  induction made with
  | null => exact fun _ _ _ x hx => isClear_of_mem_space (fun x => isClear_of_mem_word (v := .null)) hx
  | bool b => exact fun _ _ _ x hx => isClear_of_mem_space (fun x => isClear_of_mem_word (v := .bool b)) hx
  | @int i _ => exact fun _ _ _ x hx => isClear_of_mem_space (fun x => isClear_of_mem_word (v := .int i)) hx
  | str _ => exact fun _ _ _ x hx => isClear_of_mem_space (fun x => isClear_of_mem_scalarText) hx
  | @arr vs _ ih =>
      intro indent column place x hx
      cases vs with
      | nil =>
          have text : printValue indent column place (.arr []) = " []" := by cases place <;> rfl
          rw [text] at hx
          exact clear_brackets false x hx
      | cons v more =>
          obtain ⟨level, text⟩ := exists_printValue_arr indent column place (List.cons_ne_nil v more)
          rw [text] at hx
          rcases List.mem_append.mp hx with hx | hx
          · exact isClear_of_mem_opening hx
          · exact isClear_of_mem_join (isClear_of_mem_itemLines ih) hx
  | @obj ms _ _ ih =>
      intro indent column place x hx
      cases ms with
      | nil =>
          have text : printValue indent column place (.obj []) = [' ', '\x7b', '\x7d'] := by
            cases place <;> rfl
          rw [text] at hx
          exact clear_brackets true x hx
      | cons p more =>
          rw [printValue_obj indent column place (List.cons_ne_nil p more)] at hx
          rcases List.mem_append.mp hx with hx | hx
          · exact isClear_of_mem_opening hx
          · exact isClear_of_mem_join (isClear_of_mem_memberLines ih) hx

/-! ### The Whole Text -/

/-- The lines of the outermost collection are a whole text. -/
theorem Token.ofText_lines {token : Token} {parts : List (Text × List Token)} (some : parts ≠ [])
    (each : ∀ p ∈ parts, IsLine token 0 p.1 p.2) (clear : ∀ p ∈ parts, ∀ x ∈ p.1, IsClear x) :
    Token.ofText (Text.join (newLine 0) (parts.map (·.1)) ++ ("\n" : Text)) =
      .ok (token :: (parts.flatMap (·.2) ++ [.blockEnd])) := by
  have ending : StartsLine 0 [] := ⟨nofun, rfl⟩
  have outermost : ∀ j ∈ ([] : List Nat).head?, j < 0 := nofun
  have lines : Reaches (inBlock (.start (Text.join (newLine 0) (parts.map (·.1)) ++ newLine 0)) [] []
      true) _ :=
    reaches_lines [] some each rfl (fun j hj => (outermost j hj).le) le_rfl ending rfl
  rw [openTokens_deeper token outermost, openIndents_deeper outermost] at lines
  refine Token.ofText_of_reaches (fun x hx => ?_) lines fun n => ?_
  · rcases List.mem_append.mp hx with hx | hx
    · exact isClear_of_mem_join clear hx
    · rw [List.mem_singleton.mp hx]
      exact isClear_lineFeed
  · rw [run_inBlock (skip_line rfl).1]
    simp

/-- **A printed document is cut into the tokens of its value**, if lines are folded no deeper than up
to a limit. -/
theorem Token.ofText_printBlock (made : v.MadeOf (Steady limit) (IsKey limit))
    (wide : 2 ≤ limit) (narrow : 2 * v.depth ≤ limit) :
    Token.ofText (Yaml.print v) = .ok (blockTokens .afterIndicator v) := by
  have line {raw : Text} (clear : ∀ x ∈ raw, IsClear x) : ∀ x ∈ raw ++ ("\n" : Text), IsClear x :=
    List.forall_mem_append.mpr ⟨clear, List.forall_mem_singleton.mpr isClear_lineFeed⟩
  have word {v : Json} (some : word v ≠ []) :
      Token.ofText (word v ++ ("\n" : Text)) = .ok [.scalar true (word v)] :=
    Token.ofText_scalar (line fun _ => isClear_of_mem_word) (isSpelling_word some Nat.one_pos)
  have empty : ∀ p ∈ ([] : List (Text × List Token)), IsPart p.1 p.2 := nofun
  cases made with
  | null => exact word word_null_ne_nil
  | bool b => exact word (word_bool_ne_nil b)
  | @int i few => exact word (v := .int i) ofInt_ne_nil
  | @str t steady =>
      exact Token.ofText_scalar (line fun _ => isClear_of_mem_scalarText)
        (isSpelling_scalarText Nat.two_pos fun _ => steady.mono wide)
  | @arr vs items =>
      cases vs with
      | nil =>
          exact Token.ofText_collection (line (isClear_of_all (by decide)))
            (isCollection_bracket false 0 empty)
      | cons v more =>
          have some : itemLines 0 (v :: more) ≠ [] := List.cons_ne_nil _ _
          have lines := Token.ofText_lines some
            (isLine_of_mem_itemLines (fun w hw => isCut (items w hw)) (by omega))
            (isClear_of_mem_itemLines fun w hw => isClear_of_mem_printValue (items w hw))
          rwa [← printItems_eq, ← blockItemTokens_eq] at lines
  | @obj ms keys values =>
      cases ms with
      | nil =>
          exact Token.ofText_collection (line (isClear_of_all (by decide)))
            (isCollection_bracket true 0 empty)
      | cons p more =>
          have some : memberLines 0 (p :: more) ≠ [] := List.cons_ne_nil _ _
          have lines := Token.ofText_lines some
            (isLine_of_mem_memberLines keys (fun q hq => isCut (values q hq)) (by omega))
            (isClear_of_mem_memberLines fun q hq => isClear_of_mem_printValue (values q hq))
          rwa [← printMembers_eq, ← blockMemberTokens_eq] at lines

/-- **A printed document is read** as its value, where some texts are not read back. -/
theorem read_printBlock {depth : Nat} (made : v.MadeOf (Steady limit) (IsKey limit))
    (wide : 2 ≤ limit) (narrow : 2 * v.depth ≤ limit) (deep : v.depth ≤ depth) :
    read depth (Yaml.print v) = .ok (.ofJson (v.mapTexts readBack)) := by
  have tokens := Token.ofText_printBlock made wide narrow
  obtain ⟨makes, -⟩ := Composing.makes_blockTokens made
  obtain ⟨token, ts, begins, isBegin⟩ := Composing.exists_blockTokens .afterIndicator v
  have isBegin : Composing.beginsNode token = true := isBegin.resolve_right fun h => nomatch h.1
  rw [begins] at tokens makes
  exact read_of_makes tokens makes isBegin made.mapTexts ((Json.depth_mapTexts made).trans_le deep)

end Values

end Yaml

end RouteDocs
