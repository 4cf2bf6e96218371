import RouteDocs.Json.Printer
import RouteDocs.Proofs.Json.RoundTrip
import RouteDocs.Proofs.Yaml.Block
import RouteDocs.Proofs.Yaml.Word

/-!
# JSON Is Cut into Tokens

JSON in ASCII is a text in YAML, and it is cut into the tokens of its value.

## Main Definitions

* `Json.inUnits`: a text with a pair of surrogates for each code point beyond the first plane
* `Yaml.Cutting.IsPart`, `Yaml.Cutting.IsValue`, `Yaml.Cutting.IsCollection`: the texts that are passed
  over between brackets
* `Yaml.Cutting.IsNear`: the keys that leave their colon in reach
* `Yaml.IsClear`: the code points that a text may hold

## Main Statements

* `Yaml.Cutting.exists_passes_bracket`: **parts in brackets are passed over**
* `Yaml.Cutting.isPassed`: **a value without floating-point numbers is passed over**
* `Yaml.Cutting.run_end`: at the end of the text all blocks end
* `Yaml.Token.ofText_print`: **JSON in ASCII is cut into tokens**

## Design Notes

An escape of JSON names one unit of 16 bits, and the reader of YAML does not join two of them. So the
tokens are those of the value in units.
-/

namespace RouteDocs

namespace Json

/-- A text with two code points, which are the units of 16 bits, in the place of each code point
beyond the first plane. -/
def inUnits (t : Text) : Text := t.flatMap (units true)

end Json

namespace Yaml

namespace Cutting

variable {s s' : Cutting} {c : Cursor} {n level : Nat} {x : CodePoint} {u r raw t w body : Text}
  {new : List Token} {v : Json} {vs : List Json} {ms : List (Text × Json)} {isMapping : Bool}

/-! ### Parts between Brackets -/

/-- The tokens of parts with commas between them. -/
def separated : List (List Token) → List Token
  | [] => []
  | ts :: more => ts ++ if more.isEmpty then [] else .flowEntry :: separated more

/-- A text is passed over between brackets where a key may begin. -/
def IsPart (w : Text) (new : List Token) : Prop :=
  (∀ r, StartsToken (w ++ r)) ∧ ∀ (s : Cutting) (r : Text), s.IsFree → s.inFlow = true →
    s.mayBeKey = true → s.cursor.rest = w ++ r → EndsValue r →
      ∃ s', Reaches s s' ∧ Passes s s' w.length new

/-- A text is passed over between brackets wherever it stands. -/
def IsValue (w : Text) (new : List Token) : Prop :=
  (∀ r, StartsToken (w ++ r)) ∧ ∀ (s : Cutting) (r : Text), s.IsFree → s.inFlow = true →
    s.cursor.rest = w ++ r → EndsValue r → ∃ s', Reaches s s' ∧ Passes s s' w.length new

theorem IsValue.isPart (value : IsValue w new) : IsPart w new :=
  ⟨value.1, fun s r free flow _ => value.2 s r free flow⟩

/-- A line end between brackets is passed over. -/
theorem exists_passes_newLine (free : s.IsFree) (flow : s.inFlow = true)
    (h : s.cursor.rest = newLine n ++ r) (start : StartsToken r) :
    Reaches s (s.moveTo (s.cursor.skip (newLine n).length)) ∧
      Passes s (s.moveTo (s.cursor.skip (newLine n).length)) (newLine n).length [] := by
  refine ⟨?_, rfl, rfl, rfl, free.1, List.forall₂_same.mpr fun _ _ _ => id⟩
  rw [length_newLine]
  exact reaches_newLine h start flow

/-- Parts with commas and line ends between them. -/
def lines (n : Nat) (parts : List (Text × List Token)) : Text :=
  newLine n ++ Text.join ((',' : CodePoint) :: newLine n) (parts.map (·.1))

theorem lines_cons_cons (p q : Text × List Token) (more : List (Text × List Token)) :
    lines n (p :: q :: more) = newLine n ++ (p.1 ++ (',' : CodePoint) :: lines n (q :: more)) := by
  rw [lines, List.map_cons, List.map_cons, Text.join_cons_cons]
  rfl

/-- **Parts on lines of their own are passed over**, with the commas between them. -/
theorem exists_passes_lines {parts : List (Text × List Token)} (some : parts ≠ [])
    (each : ∀ p ∈ parts, IsPart p.1 p.2) (free : s.IsFree) (flow : s.inFlow = true)
    (allowed : s.mayBeKey = true) (ends : EndsValue r) (h : s.cursor.rest = lines n parts ++ r) :
    ∃ s', Reaches s s' ∧ Passes s s' (lines n parts).length (separated (parts.map (·.2))) := by
  induction parts generalizing s with
  | nil => exact absurd rfl some
  | cons p more ih =>
      obtain ⟨part, others⟩ := List.forall_mem_cons.mp each
      cases more with
      | nil =>
          have text : lines n [p] = newLine n ++ p.1 := rfl
          rw [text, List.append_assoc] at h
          obtain ⟨reaches₁, passes₁⟩ := exists_passes_newLine free flow h (part.1 r)
          obtain ⟨s', reaches₂, passes₂⟩ := part.2 _ r (passes₁.free free) (passes₁.inFlow flow)
            allowed (Cursor.rest_skip_append h) ends
          refine ⟨s', reaches₁.trans reaches₂, ?_⟩
          have passes := passes₁.trans passes₂
          rw [← List.length_append] at passes
          rw [text]
          simpa [separated] using passes
      | cons q more =>
          rw [lines_cons_cons] at h ⊢
          simp only [List.append_assoc, List.cons_append] at h
          obtain ⟨reaches₁, passes₁⟩ := exists_passes_newLine free flow h (part.1 _)
          have atPart := Cursor.rest_skip_append h
          obtain ⟨s₂, reaches₂, passes₂⟩ := part.2 _ _ (passes₁.free free) (passes₁.inFlow flow)
            allowed atPart (.inl rfl)
          have toComma := passes₁.trans passes₂
          have atComma : s₂.cursor.rest = (',' : CodePoint) :: (lines n (q :: more) ++ r) := by
            rw [passes₂.cursor]
            exact Cursor.rest_skip_append atPart
          obtain ⟨s₃, reaches₃, passes₃, allowed₃⟩ :=
            exists_comma (toComma.free free) (toComma.inFlow flow) atComma
          have afterComma := toComma.trans passes₃
          obtain ⟨s₄, reaches₄, passes₄⟩ := ih (List.cons_ne_nil q more) others
            (afterComma.free free) (afterComma.inFlow flow) allowed₃ (by
              rw [passes₃.cursor]
              exact Cursor.rest_skip_append (u := [(',' : CodePoint)]) atComma)
          refine ⟨s₄, ((reaches₁.trans reaches₂).trans reaches₃).trans reaches₄, ?_⟩
          have passes := passes₁.trans (passes₂.trans (passes₃.trans passes₄))
          simpa [separated, Nat.add_comm 1] using passes

/-! ### Collections in Brackets -/

/-- A collection in brackets is passed over if what is between the brackets is. -/
theorem exists_passes_collection (free : s.IsFree) (inside : s.IsInside)
    (h : s.cursor.rest = opening isMapping :: (body ++ [closing isMapping]) ++ r)
    (within : ∀ s₁ : Cutting, s₁.IsFree → s₁.inFlow = true → s₁.mayBeKey = true →
      s₁.cursor.rest = body ++ closing isMapping :: r →
        ∃ s₂, Reaches s₁ s₂ ∧ Passes s₁ s₂ body.length new) :
    ∃ s', Reaches s s' ∧
      Passes s s' (opening isMapping :: (body ++ [closing isMapping])).length
        (openingToken isMapping :: (new ++ [closingToken isMapping])) := by
  have h : s.cursor.rest = opening isMapping :: (body ++ closing isMapping :: r) := by
    rw [h]
    simp
  obtain ⟨k, outer, reaches, optional, -, fades⟩ := exists_open free inside h
  have free₁ : IsFree ⟨s.cursor.next, openingToken isMapping :: s.tokens, s.indents, true, none,
      k :: outer⟩ :=
    ⟨isOptional_none, List.forall_mem_cons.mpr ⟨optional, optional_of_fades fades free.2⟩⟩
  have rest₁ : s.cursor.next.rest = body ++ closing isMapping :: r := by
    rw [Cursor.rest_next, h]
    rfl
  obtain ⟨s₂, reaches₂, passes⟩ := within _ free₁ rfl rfl rest₁
  have rest₂ : s₂.cursor.rest = closing isMapping :: r := by
    rw [passes.cursor]
    exact Cursor.rest_skip_append rest₁
  obtain ⟨k₂, outer₂, around⟩ : ∃ k₂ outer₂, s₂.outerKeyPlaces = k₂ :: outer₂ := by
    cases others : s₂.outerKeyPlaces with
    | nil => exact absurd (others ▸ passes.outer) nofun
    | cons k₂ outer₂ => exact ⟨k₂, outer₂, rfl⟩
  have fades₂ : List.Forall₂ Fades (k :: outer) (k₂ :: outer₂) := around ▸ passes.outer
  obtain ⟨fade, fades₂⟩ := List.forall₂_cons.mp fades₂
  obtain ⟨k₃, outer₃, reaches₃, fade₃, fades₃⟩ := exists_close (passes.free free₁) around rest₂
  refine ⟨_, (reaches.trans reaches₂).trans reaches₃, ?_, ?_, passes.indents, ?_, ?_⟩
  · change s₂.cursor.next = _
    rw [passes.cursor, Cursor.next_skip, ← Cursor.skip_succ]
    simp
  · change closingToken isMapping :: s₂.tokens = _
    rw [passes.tokens]
    simp
  · exact fade₃.optional (fade.optional optional)
  · exact fades_trans fades (fades_trans fades₂ fades₃)

theorem bracket_eq {parts : List (Text × List Token)} (some : parts ≠ []) :
    Json.Layout.asciiIndented.bracket (level + 1) (opening isMapping) (closing isMapping)
        (parts.map (·.1)) =
      opening isMapping ::
        ((lines (2 * (level + 1)) parts ++ newLine (2 * level)) ++ [closing isMapping]) := by
  cases parts with
  | nil => exact absurd rfl some
  | cons p more => exact congrArg (opening isMapping :: ·) (by rfl)

/-- **Parts in brackets are passed over.** -/
theorem exists_passes_bracket {parts : List (Text × List Token)}
    (each : ∀ p ∈ parts, IsPart p.1 p.2) (free : s.IsFree) (inside : s.IsInside)
    (h : s.cursor.rest = Json.Layout.asciiIndented.bracket (level + 1) (opening isMapping)
      (closing isMapping) (parts.map (·.1)) ++ r) :
    ∃ s', Reaches s s' ∧
      Passes s s' (Json.Layout.asciiIndented.bracket (level + 1) (opening isMapping)
          (closing isMapping) (parts.map (·.1))).length
        (openingToken isMapping :: (separated (parts.map (·.2)) ++ [closingToken isMapping])) := by
  by_cases some : parts = []
  · obtain rfl := some
    have nothing (s₁ : Cutting) (free₁ : s₁.IsFree) : Passes s₁ s₁ ([] : Text).length [] :=
      ⟨rfl, rfl, rfl, free₁.1, List.forall₂_same.mpr fun _ _ _ => id⟩
    exact exists_passes_collection free inside h fun s₁ free₁ _ _ _ =>
      ⟨s₁, .refl s₁, nothing s₁ free₁⟩
  rw [bracket_eq some] at h ⊢
  refine exists_passes_collection free inside h fun s₁ free₁ flow₁ allowed₁ rest₁ => ?_
  rw [List.append_assoc] at rest₁
  obtain ⟨s₂, reaches₂, passes₂⟩ := exists_passes_lines some each free₁ flow₁ allowed₁
    (.inr ⟨_, _, r, rfl, by cases isMapping <;> simp [closing]⟩) rest₁
  have rest₂ : s₂.cursor.rest = newLine (2 * level) ++ closing isMapping :: r := by
    rw [passes₂.cursor]
    exact Cursor.rest_skip_append rest₁
  obtain ⟨reaches₃, passes₃⟩ := exists_passes_newLine (passes₂.free free₁) (passes₂.inFlow flow₁)
    rest₂ startsToken_closing
  refine ⟨_, reaches₂.trans reaches₃, ?_⟩
  have passes := passes₂.trans passes₃
  rwa [List.append_nil, ← List.length_append] at passes

/-! ### Values -/

theorem flowItemTokens_eq (vs : List Json) : flowItemTokens vs = separated (vs.map flowTokens) := by
  induction vs with
  | nil => rfl
  | cons v more ih => cases more <;> simp_all [flowItemTokens, separated]

theorem flowMemberTokens_eq (ms : List (Text × Json)) : flowMemberTokens ms =
    separated (ms.map fun p => .key :: .scalar false p.1 :: .value :: flowTokens p.2) := by
  induction ms with
  | nil => rfl
  | cons p more ih => cases more <;> simp_all [flowMemberTokens, separated]

/-- A key whose quotation leaves its colon in reach. -/
def IsNear (k : Text) : Prop := (Json.quote true k).length ≤ 1024

/-- A word is a plain scalar. -/
theorem isSpelling_word {indent : Nat} (some : word v ≠ []) (pos : 0 < indent) :
    IsSpelling indent (word v) true (word v) := by
  have spelling : IsSpelling indent (Yaml.plain false indent 0 (word v)) true (word v) :=
    isSpelling_plain (isPlain_word some) pos
  rwa [plain_bare (isBare_word v)] at spelling

theorem isValue_word (some : word v ≠ []) : IsValue (word v) [.scalar true (word v)] :=
  ⟨fun _ => startsToken_bare some (isBare_word v), fun _ _ free flow h ends =>
    exists_passes_word flow free (isPlain_word some) (isBare_word v) h ends⟩

theorem isValue_quote (t : Text) :
    IsValue (Json.quote true t) [.scalar false (Json.inUnits t)] := by
  refine ⟨?_, fun s r free flow h ends => exists_passes_text flow free (.jsonText t) h ends⟩
  rintro r x ⟨⟩
  decide

/-- A key is visible code points on one line. -/
theorem isInline_quote (k : Text) : ∀ x ∈ Json.quote true k, isInline x = true := by
  intro x hx
  rcases List.mem_append.mp hx with hx | hx
  · rcases List.mem_cons.mp hx with rfl | hx
    · decide
    · exact Quoted.isInline_of_isVisible (Quoted.isVisible_flatMap_escape k x hx)
  · rw [List.mem_singleton.mp hx]
    decide

/-- **A member is passed over** if its value is. -/
theorem isPart_member {k : Text} (near : IsNear k) (value : IsValue w new) :
    IsPart (Json.quote true k ++ (": " : Text) ++ w)
      (.key :: .scalar false (Json.inUnits k) :: .value :: new) := by
  constructor
  · rintro r x ⟨⟩
    decide
  intro s r free flow allowed h ends
  have separator : (": " : Text) = [(':' : CodePoint)] ++ spaces 1 := rfl
  rw [separator, ← List.append_assoc, List.append_assoc, List.append_assoc] at h
  have atColon : s.cursor.rest = Json.quote true k ++ (':' : CodePoint) :: ' ' :: (w ++ r) := by
    rw [h, List.append_assoc]
    rfl
  obtain ⟨s₁, reaches₁, passes₁⟩ :=
    exists_passes_key flow free allowed (.jsonText k) (isInline_quote k) near atColon rfl
  have rest₁ : s₁.cursor.rest = spaces 1 ++ (w ++ r) := by
    rw [passes₁.cursor]
    have passed := Cursor.rest_skip_append h
    rwa [List.length_append] at passed
  have reaches₂ := reaches_spaces rest₁ (value.1 r)
  have passes₂ : Passes s₁ (s₁.moveTo (s₁.cursor.skip 1)) 1 [] :=
    ⟨rfl, rfl, rfl, passes₁.keyPlace, List.forall₂_same.mpr fun _ _ _ => id⟩
  have passed := passes₁.trans passes₂
  obtain ⟨s₃, reaches₃, passes₃⟩ := value.2 _ r (passed.free free) (passed.inFlow flow)
    (Cursor.rest_skip_append (u := spaces 1) rest₁) ends
  refine ⟨s₃, (reaches₁.trans reaches₂).trans reaches₃, ?_⟩
  have passes := passed.trans passes₃
  have length : (Json.quote true k ++ (": " : Text) ++ w).length =
      (Json.quote true k).length + 1 + 1 + w.length := by
    rw [List.length_append, List.length_append]
    rfl
  rw [length]
  exact passes

/-- A text is passed over where a collection may stand, whatever follows it. -/
def IsCollection (w : Text) (new : List Token) : Prop :=
  (∀ r, StartsToken (w ++ r)) ∧ ∀ (s : Cutting) (r : Text), s.IsFree → s.IsInside →
    s.cursor.rest = w ++ r → ∃ s', Reaches s s' ∧ Passes s s' w.length new

theorem IsCollection.isValue (collection : IsCollection w new) : IsValue w new :=
  ⟨collection.1, fun s r free flow h _ => collection.2 s r free (.inl flow) h⟩

theorem isCollection_bracket (isMapping : Bool) (level : Nat) {parts : List (Text × List Token)}
    (each : ∀ p ∈ parts, IsPart p.1 p.2) :
    IsCollection (Json.Layout.asciiIndented.bracket (level + 1) (opening isMapping)
        (closing isMapping) (parts.map (·.1)))
      (openingToken isMapping :: (separated (parts.map (·.2)) ++ [closingToken isMapping])) := by
  refine ⟨fun r => ?_, fun s r free inside h => exists_passes_bracket each free inside h⟩
  cases parts with
  | nil => exact startsToken_opening
  | cons p more => exact startsToken_opening

/-- The printed value is passed over as the tokens of its units. -/
def IsPassed (v : Json) : Prop :=
  ∀ level, IsValue (Json.printAt .asciiIndented level v) (flowTokens (v.mapTexts Json.inUnits))

/-- **A list is passed over** if its items are. -/
theorem isCollection_arr (items : ∀ w ∈ vs, IsPassed w) (level : Nat) :
    IsCollection (Json.printAt .asciiIndented level (.arr vs))
      (flowTokens ((Json.arr vs).mapTexts Json.inUnits)) := by
  have each : ∀ p ∈ vs.map fun w => (Json.printAt .asciiIndented (level + 1) w,
      flowTokens (w.mapTexts Json.inUnits)), IsPart p.1 p.2 :=
    List.forall_mem_map.mpr fun w hw => (items w hw (level + 1)).isPart
  have collection := isCollection_bracket false level each
  rw [Json.printAt, Json.printItems_eq, Json.mapTexts, Json.mapTextsOfItems_eq, flowTokens,
    flowItemTokens_eq, List.map_map]
  rwa [List.map_map, List.map_map] at collection

/-- **An object is passed over** if the values of its members are. -/
theorem isCollection_obj (near : ∀ p ∈ ms, IsNear p.1) (values : ∀ p ∈ ms, IsPassed p.2)
    (level : Nat) :
    IsCollection (Json.printAt .asciiIndented level (.obj ms))
      (flowTokens ((Json.obj ms).mapTexts Json.inUnits)) := by
  have each : ∀ q ∈ ms.map fun p =>
      (Json.quote true p.1 ++ (": " : Text) ++ Json.printAt .asciiIndented (level + 1) p.2,
        .key :: .scalar false (Json.inUnits p.1) :: .value ::
          flowTokens (p.2.mapTexts Json.inUnits)), IsPart q.1 q.2 :=
    List.forall_mem_map.mpr fun p hp => isPart_member (near p hp) (values p hp (level + 1))
  have collection := isCollection_bracket true level each
  rw [Json.printAt, Json.printMembers_eq, Json.mapTexts, Json.mapTextsOfMembers_eq, flowTokens,
    flowMemberTokens_eq, List.map_map]
  rwa [List.map_map, List.map_map] at collection

/-- **A value without floating-point numbers is passed over.** -/
theorem isPassed (made : Json.MadeOf (fun _ => True) IsNear v) : IsPassed v := by
  induction made with
  | null => exact fun _ => isValue_word word_null_ne_nil
  | bool b => exact fun _ => isValue_word (word_bool_ne_nil b)
  | @int i _ => exact fun _ => isValue_word (v := .int i) ofInt_ne_nil
  | str _ => exact fun _ => isValue_quote _
  | arr _ ih => exact fun level => (isCollection_arr ih level).isValue
  | obj near _ ih => exact fun level => (isCollection_obj near ih level).isValue

/-! ### The Whole Text -/

/-- Blocks may end in two goes. -/
theorem closeBlocks_none {ts : List Token} {is : List Nat} {b : Bool} {k : Option KeyPlace}
    (column : Option Nat) :
    closeBlocks none (closeBlocks column ⟨c, ts, is, b, k, []⟩) =
      ⟨c, List.replicate is.length .blockEnd ++ ts, [], b, k, []⟩ := by
  have all : ∀ is : List Nat, is.takeWhile (fun _ => true) = is := fun is =>
    List.takeWhile_eq_self_iff.mpr fun _ _ => rfl
  simp only [closeBlocks, inFlow, List.isEmpty_nil, Bool.not_true, Bool.false_eq_true, if_false,
    Option.all_none, all, List.drop_length]
  rw [← List.append_assoc, List.replicate_append_replicate, List.length_drop,
    Nat.sub_add_cancel (List.takeWhile_prefix _).length_le]

/-- **At the end of the text all blocks end.** -/
theorem run_end {s₁ : Cutting} (gaps : skipGaps (s.cursor.rest.length + 1) s = s₁)
    (atEnd : s₁.cursor.rest = []) (optional : IsOptional s₁.keyPlace)
    (block : s₁.outerKeyPlaces = []) (n : Nat) :
    run (n + 1) s =
      .ok ((List.replicate s₁.indents.length Token.blockEnd ++ s₁.tokens).reverse) := by
  obtain ⟨c, ts, is, b, k, outer⟩ := s₁
  obtain rfl : outer = [] := block
  obtain ⟨k', same, fades⟩ := exists_refreshKeyPlace optional c
  have settled : settle s = .ok (closeBlocks (some c.column) ⟨c, ts, is, b, k', []⟩) := by
    rw [settle, gaps, refreshKeyPlaces]
    dsimp only
    rw [same]
    rfl
  have here : (closeBlocks (some c.column) ⟨c, ts, is, b, k', []⟩).cursor = c := rfl
  have dropped := dropKeyPlace_optional
    (s := ⟨c, List.replicate is.length .blockEnd ++ ts, [], b, k', []⟩) (fades.optional optional)
  have last : (closeBlocks (some c.column) ⟨c, ts, is, b, k', []⟩).cursor.peek? = none := by
    rw [here]
    exact congrArg List.head? atEnd
  rw [run_succ, settled]
  simp only [bind, Except.bind, last]
  rw [closeBlocks_none, dropped]
  rfl

/-- What follows a whole value is a line end. -/
theorem run_lineFeed (h : s.cursor.rest = "\n") (optional : IsOptional s.keyPlace)
    (block : s.outerKeyPlaces = []) (n : Nat) :
    run (n + 1) s = .ok ((List.replicate s.indents.length Token.blockEnd ++ s.tokens).reverse) := by
  have h : s.cursor.rest = newLine 0 ++ [] := h
  have gaps := skipGaps_newLine h nofun 0
  have length : s.cursor.rest.length + 1 = 0 + 2 := by rw [h]; rfl
  rw [← length] at gaps
  exact run_end gaps (by rw [← length_newLine, Cursor.rest_skip_append h]) optional block n

theorem run_inBlock {ts : List Token} {is : List Nat} {b : Bool} (atEnd : c.rest = []) (n : Nat) :
    run (n + 1) (inBlock c ts is b) =
      .ok ((List.replicate is.length Token.blockEnd ++ ts).reverse) := by
  have gaps : skipGaps (c.rest.length + 1) (inBlock c ts is b) = inBlock c ts is b :=
    skipGaps_spaces (n := 0) (r := c.rest) rfl (by rw [atEnd]; nofun) _
  exact run_end gaps atEnd isOptional_none rfl n

end Cutting

/-- The code points that a text may hold and that are no byte-order mark. -/
def IsClear (x : CodePoint) : Prop := isAllowed x = true ∧ x.val ≠ 0xFEFF

/-- What is cut up to a state in which only the end is left. -/
theorem Token.ofText_of_reaches {t : Text} {s : Cutting} {ts : List Token}
    (clear : ∀ x ∈ t, IsClear x) (reaches : Cutting.Reaches (.start t) s) (ends : ∀ n, Cutting.run (n + 1) s = .ok ts) :
    Token.ofText t = .ok ts := by
  obtain ⟨k, less, same⟩ := reaches
  have bare : withoutMark t = t := by
    cases t with
    | nil => rfl
    | cons x r => exact if_neg (by simpa using (clear x List.mem_cons_self).2)
  have less : k + s.cursor.rest.length ≤ t.length := less
  obtain ⟨n, length⟩ : ∃ n, t.length + 1 = k + (n + 1) := ⟨t.length - k, by omega⟩
  rw [Token.ofText, if_pos (List.all_eq_true.mpr fun x hx => (clear x hx).1), bare, length, same, ends]

/-- A visible code point or a line feed. -/
def isVisibleLine (x : CodePoint) : Bool := x == '\n' || Quoted.isVisible x

theorem isClear_of_isVisibleLine {x : CodePoint} (h : isVisibleLine x = true) : IsClear x := by
  rcases Bool.or_eq_true_iff.mp h with line | visible
  · rw [eq_of_beq line]
    exact ⟨by decide, by decide⟩
  · have range : 0x20 ≤ x.val ∧ x.val ≤ 0x7E := by simpa [Quoted.isVisible] using visible
    refine ⟨?_, by omega⟩
    simp [isAllowed, range]

theorem mem_newLine {n : Nat} {x : CodePoint} (h : x ∈ newLine n) : x = '\n' ∨ x = ' ' :=
  (List.mem_cons.mp h).imp_right eq_space_of_mem_spaces

theorem mem_bracket {level : Nat} {opening closing x : CodePoint} {items : List Text}
    (h : x ∈ Json.Layout.asciiIndented.bracket level opening closing items) :
    x = opening ∨ x = closing ∨ x = ',' ∨ x = '\n' ∨ x = ' ' ∨ ∃ w ∈ items, x ∈ w := by
  cases items with
  | nil =>
      have h : x ∈ [opening, closing] := h
      rcases List.mem_cons.mp h with h | h
      · exact .inl h
      · exact .inr (.inl (List.mem_singleton.mp h))
  | cons w more =>
      have h : x ∈ opening :: newLine (2 * level) ++
          Text.join ((',' : CodePoint) :: newLine (2 * level)) (w :: more) ++
          newLine (2 * (level - 1)) ++ [closing] := h
      simp only [List.mem_append, List.mem_cons, List.not_mem_nil, or_false] at h
      rcases h with (((h | h) | h) | h) | h
      · exact .inl h
      · rcases mem_newLine h with h | h <;> simp [h]
      · rcases Text.mem_of_mem_join h with h | h
        · rcases List.mem_cons.mp h with h | h
          · simp [h]
          · rcases mem_newLine h with h | h <;> simp [h]
        · simp only [h, or_true]
      · rcases mem_newLine h with h | h <;> simp [h]
      · simp [h]

theorem isVisibleLine_word (v : Json) : ∀ x ∈ word v, isVisibleLine x = true := by
  intro x hx
  obtain ⟨low, high⟩ := Plain.val_of_isBare (isBare_word v x hx)
  have high : x.val ≤ 0x7E := high.trans (by decide)
  simp [isVisibleLine, Quoted.isVisible, low.le, high]

theorem isVisibleLine_quote (t : Text) : ∀ x ∈ Json.quote true t, isVisibleLine x = true := by
  intro x hx
  rcases List.mem_append.mp hx with hx | hx
  · rcases List.mem_cons.mp hx with rfl | hx
    · rfl
    · rw [isVisibleLine, Quoted.isVisible_flatMap_escape t x hx, Bool.or_true]
  · rw [List.mem_singleton.mp hx]
    rfl

/-- **JSON in ASCII consists of visible code points and line feeds.** -/
theorem isVisibleLine_printAt {texts keys : Text → Prop} {v : Json}
    (made : Json.MadeOf texts keys v) (level : Nat) :
    ∀ x ∈ Json.printAt .asciiIndented level v, isVisibleLine x = true := by
  induction made generalizing level with
  | null => exact isVisibleLine_word .null
  | bool b => exact isVisibleLine_word (.bool b)
  | @int i _ => exact isVisibleLine_word (.int i)
  | str _ => exact isVisibleLine_quote _
  | arr _ ih =>
      intro x hx
      rw [Json.printAt, Json.printItems_eq] at hx
      rcases mem_bracket hx with rfl | rfl | rfl | rfl | rfl | ⟨w, hw, hx⟩
      iterate 5 rfl
      obtain ⟨v, hv, rfl⟩ := List.mem_map.mp hw
      exact ih v hv (level + 1) x hx
  | obj _ _ ih =>
      intro x hx
      rw [Json.printAt, Json.printMembers_eq] at hx
      rcases mem_bracket hx with rfl | rfl | rfl | rfl | rfl | ⟨w, hw, hx⟩
      iterate 5 rfl
      obtain ⟨p, hp, rfl⟩ := List.mem_map.mp hw
      rcases List.mem_append.mp hx with hx | hx
      · rcases List.mem_append.mp hx with hx | hx
        · exact isVisibleLine_quote p.1 x hx
        · exact List.all_eq_true.mp (show (": " : Text).all isVisibleLine = true from rfl) x hx
      · exact ih p hp (level + 1) x hx

/-- A collection is a whole text with the line end after it. -/
theorem Token.ofText_collection {w : Text} {ts : List Token}
    (clear : ∀ x ∈ w ++ ("\n" : Text), IsClear x)
    (collection : Cutting.IsCollection w ts) : Token.ofText (w ++ ("\n" : Text)) = .ok ts := by
  obtain ⟨s, reaches, passes⟩ := collection.2 (.start (w ++ ("\n" : Text))) "\n"
    ⟨nofun, nofun⟩ (.inr nofun) rfl
  refine Token.ofText_of_reaches clear reaches fun n => ?_
  have rest : s.cursor.rest = "\n" := by
    rw [passes.cursor]
    exact Cursor.rest_skip_append rfl
  have outer : s.outerKeyPlaces = [] := by
    cases others : s.outerKeyPlaces with
    | nil => rfl
    | cons => exact absurd (others ▸ passes.outer) nofun
  rw [Cutting.run_lineFeed rest passes.keyPlace outer, passes.indents, passes.tokens]
  simp [Cutting.start]

/-- A scalar is a whole text with the line end after it. -/
theorem Token.ofText_scalar {deep : Nat} {w t : Text} {isPlain : Bool}
    (clear : ∀ x ∈ w ++ ("\n" : Text), IsClear x)
    (spelt : Cutting.IsSpelling deep w isPlain t) :
    Token.ofText (w ++ ("\n" : Text)) = .ok [.scalar isPlain t] := by
  have reached : Cutting.Reaches (Cutting.inBlock (.start (w ++ ("\n" : Text))) [] [] true) _ :=
    Cutting.reaches_scalar spelt (show _ = w ++ (newLine 0 ++ []) from rfl) ⟨nofun, rfl⟩ nofun nofun
      (.inl rfl)
  refine Token.ofText_of_reaches clear reached fun n => ?_
  have atEnd : ((Cursor.start (w ++ ("\n" : Text))).skip (w.length + (0 + 1))).rest = [] := by
    rw [Cursor.skip_add]
    have last : ((Cursor.start (w ++ ("\n" : Text))).skip w.length).rest = newLine 0 ++ [] :=
      Cursor.rest_skip_append rfl
    exact Cursor.rest_skip_append last
  exact Cutting.run_inBlock atEnd n

/-- **JSON in ASCII is cut into tokens**, with a pair of units in the place of each code point beyond
the first plane. -/
theorem Token.ofText_print {v : Json} (made : Json.MadeOf (fun _ => True) Cutting.IsNear v) :
    Token.ofText (Json.print .asciiIndented v ++ ("\n" : Text)) =
      .ok (flowTokens (v.mapTexts Json.inUnits)) := by
  have clear : ∀ x ∈ Json.print .asciiIndented v ++ ("\n" : Text), IsClear x := by
    refine fun x hx => isClear_of_isVisibleLine ?_
    rcases List.mem_append.mp hx with hx | hx
    · exact isVisibleLine_printAt made 0 x hx
    · rw [List.mem_singleton.mp hx]
      rfl
  have word {v : Json} (some : word v ≠ []) : Cutting.IsSpelling 1 (word v) true (word v) :=
    Cutting.isSpelling_word some Nat.one_pos
  cases made with
  | null => exact Token.ofText_scalar clear (word word_null_ne_nil)
  | bool b => exact Token.ofText_scalar clear (word (word_bool_ne_nil b))
  | @int i _ => exact Token.ofText_scalar clear (word (v := .int i) ofInt_ne_nil)
  | @str t _ => exact Token.ofText_scalar clear (Cutting.isSpelling_quoted (.jsonText t) 1)
  | arr items =>
      exact Token.ofText_collection clear
        (Cutting.isCollection_arr (fun w hw => Cutting.isPassed (items w hw)) 0)
  | obj near values =>
      exact Token.ofText_collection clear
        (Cutting.isCollection_obj near (fun p hp => Cutting.isPassed (values p hp)) 0)

end Yaml

end RouteDocs
