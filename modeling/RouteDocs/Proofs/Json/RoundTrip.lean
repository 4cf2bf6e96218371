import RouteDocs.Proofs.Json.Number
import RouteDocs.Proofs.Json.Quoted
import RouteDocs.Proofs.Json.Reader
import RouteDocs.Proofs.Text.Join

/-!
# Reading What Was Printed

A value within the limits of a reader is read back from its text, in every layout.

## Main Definitions

* `Json.mapFloats`: a value with other values in the places of its floating-point numbers
* `Json.Layout.Separates`: the layouts whose separators are those of JSON
* `Json.Readable`: the texts that are read as a value while a number of brackets is open

## Main Statements

* `Json.readItems_join`, `Json.readMembers_join`: separated items and members are read one after
  another
* `Json.Fits.readable_of_comesBack`: **the text of a value within the limits is readable**
* `Json.read_print`: the whole text of a value is read as the value
* `Json.fits_of_read_print`: only if it is within the limits of the reader

## Design Notes

The number of steps that a reader may take is compared with twice the length of the text that is
left, so that the comparison does not mention the value. A floating-point number may be read back
as another value, so the general statements speak of `mapFloats`; it changes nothing where there
are no such numbers.
-/

namespace RouteDocs

namespace Json

/-! ### Floating-Point Numbers Replaced -/

mutual

/-- A value with other values in the places of its floating-point numbers. -/
def mapFloats (g : Binary64 → Json) : Json → Json
  | .float x => g x
  | .arr vs => .arr (mapFloatsOfItems g vs)
  | .obj ms => .obj (mapFloatsOfMembers g ms)
  | v => v

/-- Items with other values in the places of their floating-point numbers. -/
def mapFloatsOfItems (g : Binary64 → Json) : List Json → List Json
  | [] => []
  | v :: more => mapFloats g v :: mapFloatsOfItems g more

/-- Members with other values in the places of their floating-point numbers. -/
def mapFloatsOfMembers (g : Binary64 → Json) : List (Text × Json) → List (Text × Json)
  | [] => []
  | (k, v) :: more => (k, mapFloats g v) :: mapFloatsOfMembers g more

end

variable {g : Binary64 → Json}

theorem mapFloats_arr (vs : List Json) : mapFloats g (.arr vs) = .arr (vs.map (mapFloats g)) := by
  have items : mapFloatsOfItems g vs = vs.map (mapFloats g) := by
    induction vs with
    | nil => rfl
    | cons v more ih => rw [mapFloatsOfItems, ih, List.map_cons]
  rw [mapFloats, items]

theorem mapFloats_obj (ms : List (Text × Json)) :
    mapFloats g (.obj ms) = .obj (ms.map fun p => (p.1, mapFloats g p.2)) := by
  have members : mapFloatsOfMembers g ms = ms.map fun p => (p.1, mapFloats g p.2) := by
    induction ms with
    | nil => rfl
    | cons p more ih => rw [mapFloatsOfMembers, ih, List.map_cons]
  rw [mapFloats, members]

mutual

/-- Numbers that are kept leave the value as it is. -/
theorem mapFloats_float : ∀ v, mapFloats .float v = v
  | .null | .bool _ | .int _ | .float _ | .str _ => rfl
  | .arr vs => congrArg Json.arr (mapFloatsOfItems_float vs)
  | .obj ms => congrArg Json.obj (mapFloatsOfMembers_float ms)

theorem mapFloatsOfItems_float : ∀ vs, mapFloatsOfItems .float vs = vs
  | [] => rfl
  | v :: more => congrArg₂ List.cons (mapFloats_float v) (mapFloatsOfItems_float more)

theorem mapFloatsOfMembers_float : ∀ ms, mapFloatsOfMembers .float ms = ms
  | [] => rfl
  | (k, v) :: more =>
    congrArg₂ (fun w ms => (k, w) :: ms) (mapFloats_float v) (mapFloatsOfMembers_float more)

end

variable {ints : Int → Prop} {texts : Text → Prop} {floats : Binary64 → Prop}
  {room depth level fuel : Nat}
  {v : Json} {w rest : Text}

/-! ### Layouts -/

/-- The blanks of layouts: spaces and line feeds. -/
def IsBlank (s : Text) : Prop :=
  ∀ c ∈ s, c = ' ' ∨ c = '\n'

/-- The layouts whose separators are those of JSON, with blanks after them. -/
structure Layout.Separates (layout : Layout) : Prop where
  /-- A comma stands between items. -/
  item : ∃ s : Text, layout.itemSeparator = (',' : CodePoint) :: s ∧ IsBlank s
  /-- A colon stands after a key. -/
  key : ∃ s : Text, layout.keySeparator = (':' : CodePoint) :: s ∧ IsBlank s

theorem separates_indented : Layout.indented.Separates :=
  ⟨⟨[], rfl, by simp [IsBlank]⟩, ⟨[' '], rfl, by simp [IsBlank]⟩⟩

theorem separates_asciiInline : Layout.asciiInline.Separates :=
  ⟨⟨[' '], rfl, by simp [IsBlank]⟩, ⟨[' '], rfl, by simp [IsBlank]⟩⟩

theorem separates_asciiIndented : Layout.asciiIndented.Separates :=
  ⟨⟨[], rfl, by simp [IsBlank]⟩, ⟨[' '], rfl, by simp [IsBlank]⟩⟩

theorem isBlank_newLine (layout : Layout) (level : Nat) : IsBlank (layout.newLine level) := by
  unfold Layout.newLine
  split
  · simp [IsBlank]
  · intro c hc
    rcases List.mem_cons.mp hc with rfl | hc
    · exact Or.inr rfl
    · exact Or.inl (List.eq_of_mem_replicate hc)

theorem IsBlank.append {s s' : Text} (h : IsBlank s) (h' : IsBlank s') : IsBlank (s ++ s') :=
  fun c hc => (List.mem_append.mp hc).elim (h c) (h' c)

theorem IsBlank.isSpace {s : Text} (h : IsBlank s) : ∀ c ∈ s, isSpace c = true := by
  intro c hc
  rcases h c hc with rfl | rfl <;> rfl

theorem IsBlank.all_isPrinted {s : Text} (h : IsBlank s) : s.all isPrinted = true := by
  refine List.all_eq_true.mpr fun c hc => ?_
  rcases h c hc with rfl | rfl <;> rfl

/-- Blanks are skipped up to what is none. -/
theorem skipSpace_append {s : Text} (h : IsBlank s) {c : CodePoint} (stop : isSpace c = false)
    (r : Text) : skipSpace (s ++ c :: r) = c :: r := by
  rw [skipSpace, List.dropWhile_append_of_pos h.isSpace]
  simp [stop]

/-! ### Readable Texts -/

/-- The code points with which values begin are no blanks and no closing brackets, and no mark of
the byte order. -/
def isStart (c : CodePoint) : Bool :=
  !isSpace c && c != ']' && c.val != 0x7D && c.val != 0xFEFF

/-- The texts that are read as a value while a number of brackets is open, wherever a value may
end. The number of steps exceeds twice the length of the text that is left. -/
structure Readable (dialect : Dialect) (depth : Nat) (w : Text) (v : Json) : Prop where
  /-- It begins as values do. -/
  start : ∃ c r, w = c :: r ∧ isStart c = true
  /-- It has no control characters. -/
  printed : w.all isPrinted = true
  /-- It is read, and what follows is left. -/
  read : ∀ fuel rest, Ends rest → 2 * (w ++ rest).length < fuel →
    readValue dialect fuel depth (w ++ rest) = .ok (v, rest)

variable {dialect : Dialect}

theorem isSpace_eq_false {c : CodePoint} (h : isStart c = true) : isSpace c = false := by
  simp only [isStart, Bool.and_eq_true, Bool.not_eq_true'] at h
  exact h.1.1.1

/-- No closing bracket begins a value. -/
theorem ne_of_isStart {c : CodePoint} (h : isStart c = true) :
    c ≠ (']' : CodePoint) ∧ c ≠ ('\x7d' : CodePoint) := by
  constructor
  all_goals
    rintro rfl
    cases h

/-- A value without parts begins with none of the code points that have a meaning of their own. -/
theorem isStart_of_isAtomStart {c : CodePoint} (atom : isAtomStart c = true) :
    isStart c = true ∧ (c.val == 0x22) = false ∧ (c == '[') = false ∧ (c.val == 0x7B) = false := by
  simp only [isAtomStart, CodePoint.isAsciiDigit, CodePoint.isAsciiLetter, Text.beq_ofChar,
    Bool.or_eq_true, Bool.and_eq_true, decide_eq_true_eq, beq_iff_eq, Char.reduceToNat] at atom
  simp only [isStart, isSpace, bne, Text.beq_ofChar, Bool.and_eq_true, Bool.not_eq_true',
    Bool.or_eq_false_iff, beq_eq_false_iff_ne, Char.reduceToNat]
  omega

/-- A value without parts is readable. -/
theorem Legible.readable (h : Legible dialect w v) : Readable dialect depth w v := by
  obtain ⟨c, r, rfl, atom⟩ := h.start
  obtain ⟨start, mark, bracket, brace⟩ := isStart_of_isAtomStart atom
  refine ⟨⟨c, r, rfl, start⟩, h.printed, fun fuel rest ends enough => ?_⟩
  obtain ⟨fuel, rfl⟩ : ∃ n, fuel = n + 1 := ⟨fuel - 1, by omega⟩
  rw [List.cons_append, readValue]
  simp only [mark, bracket, brace, Bool.false_eq_true, if_false]
  exact h.read rest ends

/-- A quoted text is readable. -/
theorem readable_quote {t : Text} {asciiOnly : Bool} (back : ComesBack asciiOnly dialect t) :
    Readable dialect depth (quote asciiOnly t) (.str t) := by
  refine ⟨⟨doubleQuote, _, rfl, by decide⟩, quote_all_isPrinted back.printed,
    fun fuel rest ends enough => ?_⟩
  obtain ⟨fuel, rfl⟩ : ∃ n, fuel = n + 1 := ⟨fuel - 1, by omega⟩
  rw [quote, List.cons_append, List.cons_append, List.append_assoc]
  exact readValue_succ_eq_ok_iff.mpr (.text (readQuoted_quote back _ _))

/-! ### Items and Members -/

variable {α : Type} {item : α → Text} {value : α → Json} {as : List α} {blank tail : Text}

/-- Blanks before what may follow a value may follow it too. -/
theorem IsBlank.ends (h : IsBlank blank) (ends : Ends rest) : Ends (blank ++ rest) := by
  cases blank with
  | nil => exact ends
  | cons c s =>
      rintro _ ⟨⟩
      exact Or.inl (h.isSpace c (by simp))

theorem ends_cons {c : CodePoint} (h : c = ',' ∨ c = ']' ∨ c.val = 0x7D) (r : Text) :
    Ends (c :: r) := by
  rintro _ ⟨⟩
  exact Or.inr h

/-- Separated items begin as the first one does. -/
theorem exists_join_eq_cons (sep : Text) (item : α → Text) (nonempty : as ≠ [])
    (start : ∀ a ∈ as, ∃ c r, item a = c :: r ∧ isStart c = true) :
    ∃ c r, Text.join sep (as.map item) = c :: r ∧ isStart c = true := by
  match as with
  | [] => exact absurd rfl nonempty
  | [a] => exact start a (by simp)
  | a :: b :: more =>
      obtain ⟨c, r, eq, hc⟩ := start a (by simp)
      refine ⟨c, r ++ (sep ++ Text.join sep ((b :: more).map item)), ?_, hc⟩
      rw [List.map_cons, List.map_cons, Text.join_cons_cons, eq]
      rfl

/-- **Separated items are read one after another**, up to the closing bracket. -/
theorem readItems_join (readable : ∀ a ∈ as, Readable dialect depth (item a) (value a))
    (nonempty : as ≠ []) (hblank : IsBlank blank) (htail : IsBlank tail) (rest : Text)
    (enough : 2 * (Text.join ((',' : CodePoint) :: blank) (as.map item)
      ++ (tail ++ (']' : CodePoint) :: rest)).length + 1 < fuel) :
    readItems dialect fuel depth (Text.join ((',' : CodePoint) :: blank) (as.map item)
        ++ (tail ++ (']' : CodePoint) :: rest)) = .ok (as.map value, rest) := by
  induction as generalizing fuel with
  | nil => exact absurd rfl nonempty
  | cons a more ih =>
      obtain ⟨fuel, rfl⟩ : ∃ n, fuel = n + 1 := ⟨fuel - 1, by omega⟩
      have first := (readable a (by simp)).read
      cases more with
      | nil =>
          have ends : Ends (tail ++ (']' : CodePoint) :: rest) :=
            htail.ends (ends_cons (Or.inr (Or.inl rfl)) rest)
          rw [List.map_singleton, Text.join_singleton] at enough ⊢
          exact readItems_succ_eq_ok_iff.mpr
            (.last (first fuel _ ends (by omega)) (skipSpace_append htail rfl rest))
      | cons b more =>
          have others := fun a ha => readable a (List.mem_cons_of_mem _ ha)
          obtain ⟨c, r, begins, start⟩ := exists_join_eq_cons ((',' : CodePoint) :: blank) item
            (List.cons_ne_nil b more) fun a ha => (others a ha).start
          rw [List.map_cons, List.map_cons, Text.join_cons_cons, List.append_assoc,
            List.append_assoc, List.cons_append] at enough ⊢
          have next := ih others (List.cons_ne_nil b more) (show _ < fuel by
            simp only [List.length_append, List.length_cons, List.map_cons] at enough ⊢
            omega)
          rw [List.map_cons] at next begins
          refine readItems_succ_eq_ok_iff.mpr
            (.more (first fuel _ (ends_cons (Or.inl rfl) _) (by omega)) rfl ?_)
          rw [begins, List.cons_append] at next ⊢
          rw [skipSpace_append hblank (isSpace_eq_false start)]
          exact next

/-- The text of a member: the quoted key, a colon and the text of the value. -/
def memberText (asciiOnly : Bool) (keyBlank key w : Text) : Text :=
  quote asciiOnly key ++ (':' : CodePoint) :: keyBlank ++ w

variable {asciiOnly : Bool} {keyBlank : Text} {key : α → Text}

/-- The key and the value of a member are read. -/
theorem Readable.exists_member {u : Json} (h : Readable dialect depth w u) {key : Text}
    (back : ComesBack asciiOnly dialect key) (hkey : IsBlank keyBlank) (ends : Ends rest)
    (enough : 2 * (memberText asciiOnly keyBlank key w ++ rest).length < fuel) :
    ∃ r k t', memberText asciiOnly keyBlank key w ++ rest = doubleQuote :: r ∧
      readQuoted dialect (doubleQuote :: r) r = .ok (key, k) ∧
      skipSpace k = (':' : CodePoint) :: t' ∧
      readValue dialect fuel depth (skipSpace t') = .ok (u, rest) := by
  obtain ⟨c, s, rfl, start⟩ := h.start
  refine ⟨key.flatMap (escape asciiOnly) ++ doubleQuote :: (':' :: (keyBlank ++ (c :: s ++ rest))),
    ':' :: (keyBlank ++ (c :: s ++ rest)), keyBlank ++ (c :: s ++ rest), by
      simp [memberText, quote], readQuoted_quote back _ _, rfl, ?_⟩
  rw [List.cons_append, skipSpace_append hkey (isSpace_eq_false start)]
  refine h.read fuel rest ends ?_
  simp only [memberText, List.length_append] at enough ⊢
  omega

/-- The text of a member has no control characters. -/
theorem memberText_all_isPrinted {key : Text} (back : ComesBack asciiOnly dialect key)
    (hkey : IsBlank keyBlank) (printed : w.all isPrinted = true) :
    (memberText asciiOnly keyBlank key w).all isPrinted = true := by
  have colon : isPrinted ':' = true := rfl
  simp [memberText, quote_all_isPrinted back.printed, colon, hkey.all_isPrinted, printed]

/-- **Separated members are read one after another**, up to the closing bracket. -/
theorem readMembers_join (readable : ∀ a ∈ as, Readable dialect depth (item a) (value a))
    (back : ∀ a ∈ as, ComesBack asciiOnly dialect (key a)) (nonempty : as ≠ [])
    (hkey : IsBlank keyBlank)
    (hblank : IsBlank blank) (htail : IsBlank tail) (rest : Text)
    (enough : 2 * (Text.join ((',' : CodePoint) :: blank)
        (as.map fun a => memberText asciiOnly keyBlank (key a) (item a))
      ++ (tail ++ ('\x7d' : CodePoint) :: rest)).length + 1 < fuel) :
    readMembers dialect fuel depth (Text.join ((',' : CodePoint) :: blank)
        (as.map fun a => memberText asciiOnly keyBlank (key a) (item a))
        ++ (tail ++ ('\x7d' : CodePoint) :: rest)) =
      .ok (as.map fun a => (key a, value a), rest) := by
  induction as generalizing fuel with
  | nil => exact absurd rfl nonempty
  | cons a more ih =>
      obtain ⟨fuel, rfl⟩ : ∃ n, fuel = n + 1 := ⟨fuel - 1, by omega⟩
      have first := readable a (by simp)
      have key_back := back a (by simp)
      cases more with
      | nil =>
          -- the last member, after which the bracket stands
          have ends : Ends (tail ++ ('\x7d' : CodePoint) :: rest) :=
            htail.ends (ends_cons (Or.inr (Or.inr rfl)) rest)
          rw [List.map_singleton, Text.join_singleton] at enough ⊢
          obtain ⟨r, k, t', begins, quoted, colon, read⟩ :=
            first.exists_member key_back hkey ends (Nat.lt_of_succ_lt_succ enough)
          rw [begins]
          exact readMembers_succ_eq_ok_iff.mpr
            (.last quoted colon read (skipSpace_append htail rfl rest))
      | cons b more =>
          -- a member with others after it, of which the first one begins with a quotation mark
          have others := fun a ha => readable a (List.mem_cons_of_mem _ ha)
          obtain ⟨c, r', begins', start⟩ := exists_join_eq_cons ((',' : CodePoint) :: blank)
            (fun a => memberText asciiOnly keyBlank (key a) (item a)) (List.cons_ne_nil b more)
            fun a ha => ⟨doubleQuote, _, rfl, by decide⟩
          have next := ih others (fun a ha => back a (List.mem_cons_of_mem _ ha))
            (List.cons_ne_nil b more) (show _ < fuel by
              simp only [List.length_append, List.length_cons, List.map_cons,
                Text.join_cons_cons] at enough ⊢
              omega)
          rw [List.map_cons, List.map_cons, Text.join_cons_cons, List.append_assoc,
            List.append_assoc, List.cons_append] at enough ⊢
          obtain ⟨r, k, t', begins, quoted, colon, read⟩ :=
            first.exists_member key_back hkey (ends_cons (Or.inl rfl) _)
              (Nat.lt_of_succ_lt_succ enough)
          rw [begins]
          refine readMembers_succ_eq_ok_iff.mpr (.more quoted colon read rfl ?_)
          rw [List.map_cons] at next begins'
          rw [begins', List.cons_append] at next ⊢
          rw [skipSpace_append hblank (isSpace_eq_false start)]
          exact next

/-! ### Values with Parts -/

theorem printItems_eq (layout : Layout) (level : Nat) (vs : List Json) :
    printItems layout level vs = vs.map (printAt layout level) := by
  induction vs with
  | nil => rfl
  | cons v more ih => rw [printItems, ih, List.map_cons]

theorem printMembers_eq (layout : Layout) (level : Nat) (ms : List (Text × Json)) :
    printMembers layout level ms = ms.map fun p =>
      quote layout.asciiOnly p.1 ++ layout.keySeparator ++ printAt layout level p.2 := by
  induction ms with
  | nil => rfl
  | cons p more ih => rw [printMembers, ih, List.map_cons]

variable {layout : Layout}

/-- Brackets around separated items. -/
theorem bracket_eq {opening closing : CodePoint} {as : List α} (item : α → Text)
    (nonempty : as ≠ []) (level : Nat) :
    layout.bracket (level + 1) opening closing (as.map item) =
      opening :: (layout.newLine (level + 1)
        ++ (Text.join (layout.itemSeparator ++ layout.newLine (level + 1)) (as.map item)
          ++ (layout.newLine level ++ [closing]))) := by
  obtain ⟨a, more, rfl⟩ := List.exists_cons_of_ne_nil nonempty
  simp [Layout.bracket]

/-- What is joined has no control characters if the separator and the parts have none. -/
theorem join_all_isPrinted {sep : Text} {ts : List Text} (hsep : sep.all isPrinted = true)
    (hts : ∀ t ∈ ts, t.all isPrinted = true) : (Text.join sep ts).all isPrinted = true := by
  refine List.all_eq_true.mpr fun c hc => ?_
  rcases Text.mem_of_mem_join hc with hc | ⟨t, ht, hc⟩
  · exact List.all_eq_true.mp hsep c hc
  · exact List.all_eq_true.mp (hts t ht) c hc

/-- A text in brackets has no control characters if the parts have none. -/
theorem bracket_all_isPrinted (h : layout.Separates) {opening closing : CodePoint}
    (hopening : isPrinted opening = true) (hclosing : isPrinted closing = true)
    (printed : ∀ a ∈ as, (item a).all isPrinted = true) (level : Nat) :
    (layout.bracket (level + 1) opening closing (as.map item)).all isPrinted = true := by
  obtain ⟨s, separator, hs⟩ := h.item
  by_cases nonempty : as = []
  · subst nonempty
    simp [Layout.bracket, hopening, hclosing]
  · have sep : (layout.itemSeparator ++ layout.newLine (level + 1)).all isPrinted = true := by
      rw [separator, List.cons_append, List.all_cons,
        (hs.append (isBlank_newLine layout (level + 1))).all_isPrinted]
      rfl
    have parts : ∀ t ∈ as.map item, t.all isPrinted = true := by
      intro t ht
      obtain ⟨a, ha, rfl⟩ := List.mem_map.mp ht
      exact printed a ha
    rw [bracket_eq item nonempty]
    simp [hopening, hclosing, (isBlank_newLine layout (level + 1)).all_isPrinted,
      (isBlank_newLine layout level).all_isPrinted, join_all_isPrinted sep parts]

/-- **A list of readable items is readable.** -/
theorem readable_arr (h : layout.Separates) {vs : List Json} {value : Json → Json}
    (shallow : depth < dialect.maxDepth)
    (readable : ∀ v ∈ vs, Readable dialect (depth + 1) (printAt layout (level + 1) v) (value v)) :
    Readable dialect depth (printAt layout level (.arr vs)) (.arr (vs.map value)) := by
  have printed := bracket_all_isPrinted h (show isPrinted '[' = true from rfl)
    (show isPrinted ']' = true from rfl)
    (fun v hv => (readable v hv).printed) level
  rw [printAt, printItems_eq]
  by_cases nonempty : vs = []
  · subst nonempty
    refine ⟨⟨_, _, rfl, by decide⟩, printed, fun fuel rest ends enough => ?_⟩
    obtain ⟨fuel, rfl⟩ : ∃ n, fuel = n + 1 := ⟨fuel - 1, by omega⟩
    exact readValue_succ_eq_ok_iff.mpr (.emptyArr shallow rfl)
  · obtain ⟨s, separator, hs⟩ := h.item
    have between := hs.append (isBlank_newLine layout (level + 1))
    obtain ⟨c, r, begins, start⟩ := exists_join_eq_cons
      ((',' : CodePoint) :: (s ++ layout.newLine (level + 1))) (printAt layout (level + 1)) nonempty
      fun v hv => (readable v hv).start
    rw [bracket_eq _ nonempty] at printed ⊢
    rw [separator, List.cons_append] at printed ⊢
    refine ⟨⟨_, _, rfl, by decide⟩, printed, fun fuel rest ends enough => ?_⟩
    obtain ⟨fuel, rfl⟩ : ∃ n, fuel = n + 1 := ⟨fuel - 1, by omega⟩
    simp only [List.cons_append, List.append_assoc, List.nil_append, List.length_cons] at enough ⊢
    have items := readItems_join readable nonempty between (isBlank_newLine layout level) rest
      (show _ < fuel by
        simp only [List.length_append] at enough ⊢
        omega)
    rw [begins, List.cons_append] at items
    rw [begins, List.cons_append]
    have begins := skipSpace_append (isBlank_newLine layout (level + 1)) (isSpace_eq_false start)
    exact readValue_succ_eq_ok_iff.mpr (.arr shallow (begins _) (ne_of_isStart start).1 items)

/-- **An object of readable members with keys that come back, each once, is readable.** -/
theorem readable_obj (h : layout.Separates) {ms : List (Text × Json)} {value : Json → Json}
    (shallow : depth < dialect.maxDepth) (nodup : (ms.map (·.1)).Nodup)
    (back : ∀ p ∈ ms, ComesBack layout.asciiOnly dialect p.1)
    (readable : ∀ p ∈ ms,
      Readable dialect (depth + 1) (printAt layout (level + 1) p.2) (value p.2)) :
    Readable dialect depth (printAt layout level (.obj ms))
      (.obj (ms.map fun p => (p.1, value p.2))) := by
  obtain ⟨keyBlank, colon, hkey⟩ := h.key
  let member : Text × Json → Text := fun p =>
    memberText layout.asciiOnly keyBlank p.1 (printAt layout (level + 1) p.2)
  have members : printMembers layout (level + 1) ms = ms.map member := by
    rw [printMembers_eq, colon]
    rfl
  have printed := bracket_all_isPrinted h (show isPrinted '\x7b' = true from rfl)
    (show isPrinted '\x7d' = true from rfl)
    (fun p hp => memberText_all_isPrinted (back p hp) hkey (readable p hp).printed :
      ∀ p ∈ ms, (member p).all isPrinted = true) level
  rw [printAt, members]
  by_cases nonempty : ms = []
  · subst nonempty
    refine ⟨⟨_, _, rfl, by decide⟩, printed, fun fuel rest ends enough => ?_⟩
    obtain ⟨fuel, rfl⟩ : ∃ n, fuel = n + 1 := ⟨fuel - 1, by omega⟩
    exact readValue_succ_eq_ok_iff.mpr (.emptyObj shallow rfl)
  · obtain ⟨s, separator, hs⟩ := h.item
    have between := hs.append (isBlank_newLine layout (level + 1))
    obtain ⟨c, r, begins, start⟩ := exists_join_eq_cons
      ((',' : CodePoint) :: (s ++ layout.newLine (level + 1))) member nonempty
      fun p hp => ⟨doubleQuote, _, rfl, by decide⟩
    rw [bracket_eq _ nonempty] at printed ⊢
    rw [separator, List.cons_append] at printed ⊢
    refine ⟨⟨_, _, rfl, by decide⟩, printed, fun fuel rest ends enough => ?_⟩
    obtain ⟨fuel, rfl⟩ : ∃ n, fuel = n + 1 := ⟨fuel - 1, by omega⟩
    simp only [List.cons_append, List.append_assoc, List.nil_append, List.length_cons] at enough ⊢
    have shorter : 2 * (Text.join ((',' : CodePoint) :: (s ++ layout.newLine (level + 1)))
        (ms.map member) ++ (layout.newLine level ++ ('\x7d' : CodePoint) :: rest)).length + 1 <
          fuel := by
      simp only [List.length_append] at enough ⊢
      omega
    have read := readMembers_join readable back nonempty hkey between
      (isBlank_newLine layout level) rest shorter
    have keys : ((ms.map fun p => (p.1, value p.2)).map (·.1)).Nodup := by
      rwa [List.map_map]
    -- the reader puts one member after another; with different keys that changes nothing
    rw [← Assoc.ofList_eq_self keys]
    rw [begins, List.cons_append] at read
    rw [begins, List.cons_append]
    have begins := skipSpace_append (isBlank_newLine layout (level + 1)) (isSpace_eq_false start)
    exact readValue_succ_eq_ok_iff.mpr (.obj shallow (begins _) (ne_of_isStart start).2 read)

/-! ### Whole Values -/

/-- **The text of a value within the limits is readable**, with other values in the places of
floating-point numbers, if its texts come back. -/
theorem Fits.readable_of_comesBack (h : layout.Separates)
    (fits : Fits dialect.Takes (ComesBack layout.asciiOnly dialect) floats room v)
    (legible : ∀ x, floats x → Legible dialect (layout.number x) (g x))
    (enough : depth + room ≤ dialect.maxDepth) :
    Readable dialect depth (printAt layout level v) (v.mapFloats g) := by
  induction fits generalizing depth level with
  | null => exact legible_null.readable
  | bool b => exact (legible_bool b).readable
  | int few => exact (legible_ofInt few).readable
  | float h => exact (legible _ h).readable
  | str back => exact readable_quote back
  | arr _ ih =>
      rw [mapFloats_arr]
      exact readable_arr h (by omega) fun v hv => ih v hv (by omega)
  | obj nodup keys _ ih =>
      rw [mapFloats_obj]
      exact readable_obj h (by omega) nodup keys fun p hp => ih p hp (by omega)

/-- Scalar texts come back in every layout. -/
theorem Fits.readable (h : layout.Separates)
    (fits : Fits dialect.Takes (·.isScalar = true) floats room v)
    (legible : ∀ x, floats x → Legible dialect (layout.number x) (g x))
    (enough : depth + room ≤ dialect.maxDepth) :
    Readable dialect depth (printAt layout level v) (v.mapFloats g) :=
  (fits.mono (fun _ => id) (fun _ => Or.inl) (fun _ => id) le_rfl).readable_of_comesBack h legible
    enough

/-- The whole of a readable text is read. -/
theorem Readable.read_eq_ok (h : Readable dialect 0 w v) : Json.read dialect w = .ok v := by
  obtain ⟨c, r, rfl, start⟩ := h.start
  have mark : c ≠ 0xFEFF := by
    rintro rfl
    cases start
  have whole := h.read (2 * (c :: r).length + 2) [] (fun _ hc => by cases hc) (by simp)
  rw [List.append_nil] at whole
  have skipped : skipSpace (c :: r) = c :: r :=
    skipSpace_append (s := []) (by simp [IsBlank]) (isSpace_eq_false start) r
  have part : readPart dialect (c :: r) = .ok (v, []) := by
    unfold readPart
    split
    · next begins => exact absurd (List.cons.inj begins).1 mark
    · rw [skipped]
      exact whole
  rw [Json.read, part]
  rfl

/-- **What is printed is read back**, if it is within the limits of the reader and has scalar texts
only. -/
theorem read_print (h : layout.Separates)
    (fits : Fits dialect.Takes (·.isScalar = true) floats room v)
    (legible : ∀ x, floats x → Legible dialect (layout.number x) (g x))
    (enough : room ≤ dialect.maxDepth) :
    Json.read dialect (print layout v) = .ok (v.mapFloats g) :=
  (fits.readable h legible (by omega)).read_eq_ok

/-- Any integers are taken by a reader whose limit is far enough. -/
theorem Fits.exists_length (fits : Fits ints texts floats room v) :
    ∃ length, ∀ dialect : Dialect, length ≤ dialect.rules.maxLength →
      Fits dialect.Takes texts floats room v := by
  -- Of the limits that the parts need, the greatest one is enough for all.
  have greatest {α : Type} {as : List α} {P : α → Dialect → Prop}
      (each : ∀ a ∈ as, ∃ length, ∀ dialect : Dialect, length ≤ dialect.rules.maxLength → P a dialect) :
      ∃ length, ∀ dialect : Dialect, length ≤ dialect.rules.maxLength → ∀ a ∈ as, P a dialect := by
    induction as with
    | nil => exact ⟨0, fun _ _ => List.forall_mem_nil _⟩
    | cons a more ih =>
        obtain ⟨first, hfirst⟩ := each a (by simp)
        obtain ⟨others, hothers⟩ := ih fun b hb => each b (List.mem_cons_of_mem a hb)
        exact ⟨max first others, fun dialect le => List.forall_mem_cons.mpr
          ⟨hfirst dialect ((le_max_left _ _).trans le),
            hothers dialect ((le_max_right _ _).trans le)⟩⟩
  induction fits with
  | null => exact ⟨0, fun _ _ => .null⟩
  | bool b => exact ⟨0, fun _ _ => .bool b⟩
  | @int _ i => exact ⟨Binary64.decimalLength i.natAbs + 1, fun dialect le => .int
      ((Dialect.counted_le dialect _ _ _).trans le)⟩
  | float h => exact ⟨0, fun _ _ => .float h⟩
  | str h => exact ⟨0, fun _ _ => .str h⟩
  | arr _ ih =>
      obtain ⟨length, taken⟩ := greatest ih
      exact ⟨length, fun dialect le => .arr (taken dialect le)⟩
  | obj nodup keys _ ih =>
      obtain ⟨length, taken⟩ := greatest ih
      exact ⟨length, fun dialect le => .obj nodup keys (taken dialect le)⟩

/-- **A text is read only if its value is within the limits** of the reader. -/
theorem fits_of_read_print {w : Json} (h : layout.Separates)
    (fits : Fits ints (·.isScalar = true) (fun _ => False) room v)
    (read : Json.read dialect (print layout v) = .ok w) :
    Fits dialect.Takes dialect.Gives Binary64.IsCanonical dialect.maxDepth v := by
  obtain ⟨length, taken⟩ := fits.exists_length
  let wide : Dialect :=
    { maxDepth := max dialect.maxDepth room
      rules := { dialect.rules with maxLength := max dialect.rules.maxLength length } }
  have within : dialect.Within wide := ⟨le_max_left _ _, le_max_left _ _, rfl, rfl⟩
  have whole : Json.read wide (print layout v) = .ok (v.mapFloats .float) :=
    read_print h (taken wide (le_max_right _ _)) (fun _ none => none.elim) (le_max_right _ _)
  have same : v = w := by
    rw [read_mono within read, mapFloats_float] at whole
    exact (Except.ok.inj whole).symm
  rw [same]
  exact fits_of_read read

end Json

end RouteDocs
