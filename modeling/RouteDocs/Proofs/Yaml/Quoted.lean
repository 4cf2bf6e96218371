import Mathlib.Data.Nat.Digits.Defs
import RouteDocs.Proofs.Json.Quoted
import RouteDocs.Proofs.Yaml.Plain

/-!
# Spellings in Quotation Marks

What is written between quotation marks, and what is read of it.

## Main Definitions

* `Yaml.readBack`: what is read of a text in its plainest style
* `Yaml.Quoted.Spells`: a raw text between quotation marks is read as a text
* `Yaml.Quoted.Written`: how a text can stand between double quotation marks

## Main Statements

* `Yaml.readBack_eq_self_iff`: **which texts are read back**: a next-line character is not, between
  single quotation marks
* `Yaml.Quoted.Written.spells`, `Yaml.Quoted.written_doubleQuotedFrom`: double quotation marks
* `Yaml.Quoted.spells_singleQuotedFrom`: single quotation marks
* `Yaml.Quoted.Spells.jsonText`: the quotations of JSON, whose escapes are units of 16 bits

## Design Notes

A raw text is put together from its end: each part spells something before what the rest spells.
-/

namespace RouteDocs

namespace Yaml

/-- A line end as it is read: a next-line character is a line feed. -/
def readBreak (x : CodePoint) : CodePoint := if x.val == 0x85 then '\n' else x

/-- The line ends that are read of those between two parts of a text: a next-line character alone is
a space. -/
def readBreaks : Text → Text
  | [] => []
  | b :: more =>
    if b.val == 0x85 then (if more.isEmpty then " " else more.map readBreak)
    else (b :: more).map readBreak

/-- What is read of line ends, the latest first, and of a text after them between single quotation
marks. -/
def readFrom : Text → Text → Text
  | breaks, [] => readBreaks breaks.reverse
  | breaks, c :: r =>
    if isBreak c then readFrom (c :: breaks) r
    else readBreaks breaks.reverse ++ c :: readFrom [] r

/-- What is read of a text in its plainest style. -/
def readBack (t : Text) : Text := if style t = .singleQuoted then readFrom [] t else t

theorem isLineEnd_of_isBreak {x : CodePoint} (h : isBreak x = true) : isLineEnd x = true := by
  simp only [isBreak, isLineEnd, Bool.or_eq_true] at h ⊢
  rcases h with ((h | h) | h) | h <;> simp [h]

theorem readBreak_eq_self {x : CodePoint} (h : x.val ≠ 0x85) : readBreak x = x :=
  if_neg (by simpa using h)

theorem val_readBreak_ne (x : CodePoint) : (readBreak x).val ≠ 0x85 := by
  unfold readBreak
  split
  · decide
  · next other => simpa using other

theorem Cursor.lineBreak_eq {c : Cursor} {x : CodePoint} {r : Text} (h : c.rest = x :: r)
    (line : isBreak x = true) : c.lineBreak = ([readBreak x], c.next) := by
  have ends := isLineEnd_of_isBreak line
  have carriage : (x == '\r') = false := by
    rw [beq_eq_false_iff_ne]
    rintro rfl
    cases line
  rw [lineBreak, h]
  dsimp only
  rw [ends, carriage]
  simp only [isBreak, Bool.or_eq_true, or_assoc] at line
  rcases line with same | next | separator
  · obtain rfl := eq_of_beq same
    rfl
  · have same : x.val = 0x85 := eq_of_beq next
    rw [readBreak, if_pos next]
    simp [same]
    exact ⟨rfl, rfl⟩
  · have other : x.val ≠ 0x85 := by
      simp only [beq_iff_eq] at separator
      omega
    rw [readBreak_eq_self other, if_neg (by simp), if_pos (by simpa using separator)]

/-! ### Texts Read Back -/

theorem readBreaks_eq_self {bs : Text} (h : ∀ x ∈ bs, x.val ≠ 0x85) : readBreaks bs = bs := by
  cases bs with
  | nil => rfl
  | cons b more =>
      rw [readBreaks, if_neg (by simpa using h b (by simp))]
      exact (List.map_congr_left fun x hx => readBreak_eq_self (h x hx)).trans (List.map_id' _)

theorem val_readBreaks_ne (bs : Text) : ∀ x ∈ readBreaks bs, x.val ≠ 0x85 := by
  have each : ∀ (bs : Text), ∀ x ∈ bs.map readBreak, x.val ≠ 0x85 := fun bs =>
    List.forall_mem_map.mpr fun x _ => val_readBreak_ne x
  cases bs with
  | nil => nofun
  | cons b more =>
      rw [readBreaks]
      split
      · split
        · exact List.forall_mem_singleton.mpr (by decide)
        · exact each more
      · exact each (b :: more)

theorem readFrom_eq_self {breaks t : Text} (before : ∀ x ∈ breaks, x.val ≠ 0x85)
    (h : ∀ x ∈ t, x.val ≠ 0x85) : readFrom breaks t = breaks.reverse ++ t := by
  have written {breaks : Text} (before : ∀ x ∈ breaks, x.val ≠ 0x85) :
      readBreaks breaks.reverse = breaks.reverse := readBreaks_eq_self (by simpa using before)
  induction t generalizing breaks with
  | nil => rw [readFrom, written before, List.append_nil]
  | cons c r ih =>
      obtain ⟨first, others⟩ := List.forall_mem_cons.mp h
      rw [readFrom]
      split
      · rw [ih (List.forall_mem_cons.mpr ⟨first, before⟩) others]
        simp
      · rw [ih (List.forall_mem_nil _) others, written before]
        rfl

/-- No next-line character is read between single quotation marks. -/
theorem val_readFrom_ne (breaks t : Text) : ∀ x ∈ readFrom breaks t, x.val ≠ 0x85 := by
  induction t generalizing breaks with
  | nil => exact val_readBreaks_ne _
  | cons c r ih =>
      rw [readFrom]
      split
      · exact ih _
      · next inline =>
        refine List.forall_mem_append.mpr ⟨val_readBreaks_ne _, List.forall_mem_cons.mpr ⟨?_, ih _⟩⟩
        intro next
        exact inline (by simp [isBreak, next])

/-- **Which texts are read back**: all but those with a next-line character between single quotation
marks. -/
theorem readBack_eq_self_iff {t : Text} :
    readBack t = t ↔ (style t = .singleQuoted → ∀ x ∈ t, x.val ≠ 0x85) := by
  unfold readBack
  split
  · next single =>
    refine ⟨fun same _ => same ▸ val_readFrom_ne [] t, fun none => ?_⟩
    exact readFrom_eq_self (List.forall_mem_nil _) (none single)
  · next other => exact iff_of_true rfl fun single => absurd single other

namespace Quoted

variable {isDouble : Bool} {raw t r : Text} {x : CodePoint} {c : Cursor} {n turns : Nat}

/-! ### Gaps -/

theorem gap_white {white : Text} (h : c.rest = white ++ r) (all : ∀ x ∈ white, isWhite x = true)
    (stop : ∀ x ∈ r.head?, isGap x = false) : gap c = .ok (white, c.skip white.length) := by
  have stop' : ∀ x ∈ r.head?, isWhite x = false := fun x hx => (isGap_eq_false.mp (stop x hx)).1
  have inLine : (c.skip white.length).sees isLineEnd = false := by
    rw [Cursor.sees, Cursor.rest_skip_append h]
    cases r with
    | nil => rfl
    | cons x r => exact (isGap_eq_false.mp (stop x rfl)).2
  rw [gap, Cursor.run_append h all stop', Cursor.skipRun_append h all stop', inLine]
  rfl

/-- Line ends before the indentation of a line. -/
theorem breaks_eq {bs : Text} (h : c.rest = bs ++ (spaces (n + 1) ++ r))
    (lines : ∀ x ∈ bs, isBreak x = true) (stop : ∀ x ∈ r.head?, isGap x = false)
    (enough : bs.length < turns) :
    breaks turns c = .ok (bs.map readBreak, c.skip (bs.length + (n + 1))) := by
  induction bs generalizing c turns with
  | nil =>
      obtain ⟨turns, rfl⟩ := Nat.exists_eq_succ_of_ne_zero (Nat.ne_zero_of_lt enough)
      rw [List.nil_append] at h
      have white : c.skipRun isWhite = c.skip (n + 1) := by
        rw [Cursor.skipRun_append h (fun x hx => by rw [eq_space_of_mem_spaces hx]; rfl)
          fun x hx => (isGap_eq_false.mp (stop x hx)).1, length_spaces]
      have inLine : (c.skip (n + 1)).sees isLineEnd = false := by
        rw [Cursor.sees, Cursor.rest_skip, h, List.drop_left' (length_spaces _)]
        cases r with
        | nil => rfl
        | cons x r => exact (isGap_eq_false.mp (stop x rfl)).2
      have mark : isDocumentMark c.rest = false := by
        rw [h, spaces_succ]
        exact isDocumentMark_eq_false (by decide)
      simp [breaks, mark, white, inLine]
  | cons b bs ih =>
      obtain ⟨turns, rfl⟩ := Nat.exists_eq_succ_of_ne_zero (Nat.ne_zero_of_lt enough)
      obtain ⟨first, others⟩ := List.forall_mem_cons.mp lines
      have ends := isLineEnd_of_isBreak first
      have white : c.skipRun isWhite = c := Cursor.skipRun_nil fun x hx => by
        rw [h] at hx
        obtain rfl := Option.mem_some_iff.mp hx
        exact isWhite_eq_false_of_isLineEnd ends
      have mark : isDocumentMark c.rest = false := by
        rw [h]
        refine isDocumentMark_eq_false ⟨?_, ?_⟩ <;> (rintro rfl; exact absurd ends (by decide))
      have rest : c.next.rest = bs ++ (spaces (n + 1) ++ r) := by rw [Cursor.rest_next, h]; rfl
      have more := ih rest others (Nat.lt_of_succ_lt_succ enough)
      have size : (b :: bs).length + (n + 1) = bs.length + (n + 1) + 1 := by simp; omega
      rw [size, Cursor.skip_succ, breaks, mark]
      simp [white, Cursor.sees_of_rest h, ends, Cursor.lineBreak_eq h first, more, bind,
        Except.bind]

/-- Line ends between parts of a text. -/
theorem gap_breaks {b : CodePoint} {bs : Text} (h : c.rest = b :: (bs ++ (spaces (n + 1) ++ r)))
    (lines : ∀ x ∈ b :: bs, isBreak x = true) (stop : ∀ x ∈ r.head?, isGap x = false) :
    gap c = .ok (foldBreaks [readBreak b] (bs.map readBreak),
      c.skip ((b :: bs).length + (n + 1))) := by
  obtain ⟨first, others⟩ := List.forall_mem_cons.mp lines
  have ends := isLineEnd_of_isBreak first
  have stay : ∀ x ∈ c.rest.head?, isWhite x = false := fun x hx => by
    rw [h] at hx
    obtain rfl := Option.mem_some_iff.mp hx
    exact isWhite_eq_false_of_isLineEnd ends
  have rest : c.next.rest = bs ++ (spaces (n + 1) ++ r) := by rw [Cursor.rest_next, h]; rfl
  have more : breaks (c.next.rest.length + 1) c.next = _ := breaks_eq rest others stop (by
    rw [rest, List.length_append]
    omega)
  have size : (b :: bs).length + (n + 1) = bs.length + (n + 1) + 1 := by simp; omega
  rw [size, Cursor.skip_succ, gap, Cursor.skipRun_nil stay, Cursor.sees_of_rest h, ends,
    Cursor.lineBreak_eq h first]
  dsimp only [if_true]
  rw [if_pos rfl, more]
  rfl

/-! ### Parts of a Quoted Text -/

/-- The quotation mark. -/
def mark (isDouble : Bool) : CodePoint := if isDouble then '"' else '\''

/-- Whether a text begins with the closing mark: a single one must not be doubled. -/
def closes (isDouble : Bool) (t : Text) : Bool :=
  t.head? == some (mark isDouble) && (isDouble || t.tail.head? != some (mark isDouble))

/-- The first part of a quoted text, and the position after it. -/
def part (isDouble : Bool) (x : CodePoint) (c : Cursor) : Except Fault (Text × Cursor) :=
  if x == mark isDouble then .ok ([mark isDouble], c.skip 2)
  else if isGap x then gap c
  else if isDouble && x == '\\' then escaped c.next
  else .ok ([x], c.next)

theorem content_closes (h : closes isDouble c.rest = true) :
    content isDouble (turns + 1) c = .ok ([], c.next) := by
  obtain ⟨first, alone⟩ := Bool.and_eq_true_iff.mp h
  obtain ⟨r, rest⟩ := List.head?_eq_some_iff.mp (eq_of_beq first)
  rw [rest] at alone
  rw [content, rest]
  exact if_pos (Bool.and_eq_true_iff.mpr ⟨beq_self_eq_true _, alone⟩)

/-- **A quoted text is read part by part.** -/
theorem content_part (h : c.rest = x :: r) (opens : closes isDouble c.rest = false) :
    content isDouble (turns + 1) c = part isDouble x c >>= fun p =>
      content isDouble turns p.2 >>= fun q => .ok (p.1 ++ q.1, q.2) := by
  rw [h] at opens
  have opens : ¬(x == mark isDouble && (isDouble || r.head? != some (mark isDouble))) = true := by
    simpa [closes] using opens
  rw [content, h]
  refine (if_neg opens).trans ?_
  change (if x == mark isDouble then _ else _) = _
  unfold part
  split
  · rfl
  · split
    · rfl
    · split
      · rfl
      · rfl

/-- White space up to something else is read in one turn, and stands for itself. -/
theorem content_white {white : Text} (h : c.rest = x :: white ++ r)
    (all : ∀ y ∈ x :: white, isWhite y = true) (stop : ∀ y ∈ r.head?, isGap y = false) :
    content isDouble (turns + 1) c = content isDouble turns (c.skip (x :: white).length) >>=
      fun q => .ok (x :: white ++ q.1, q.2) := by
  have isWhite_x : isWhite x = true := all x List.mem_cons_self
  have other : x ≠ mark isDouble := by
    rintro rfl
    cases isDouble <;> exact absurd isWhite_x (by decide)
  have opens : closes isDouble c.rest = false := by
    rw [h]
    simp [closes, other]
  have first : part isDouble x c = .ok (x :: white, c.skip (x :: white).length) := by
    rw [part, beq_false_of_ne other, isGap_of_isWhite isWhite_x]
    exact gap_white h all stop
  rw [content_part h opens, first]
  rfl

/-- A result does not change if there are more turns. -/
theorem content_mono {p : Text × Cursor} (h : content isDouble n c = .ok p) {m : Nat}
    (le : n ≤ m) : content isDouble m c = .ok p := by
  induction n generalizing m c p with
  | zero => cases h
  | succ n ih =>
      obtain ⟨m, rfl⟩ := Nat.exists_eq_succ_of_ne_zero (Nat.ne_zero_of_lt le)
      have le := Nat.le_of_succ_le_succ le
      cases end? : closes isDouble c.rest with
      | true => rw [content_closes end?] at h ⊢; exact h
      | false =>
          cases rest : c.rest with
          | nil => rw [content, rest] at h; cases h
          | cons x r =>
              rw [content_part rest end?] at h ⊢
              cases first : part isDouble x c with
              | error e => rw [first] at h; cases h
              | ok q =>
                  rw [first] at h
                  cases more : content isDouble n q.2 with
                  | error e => simp [more, bind, Except.bind] at h
                  | ok s =>
                      rw [← h]
                      simp [more, ih more le, bind, Except.bind]

/-! ### Spellings -/

/-- Between quotation marks, a raw text spells a text. -/
def Spells (isDouble : Bool) (raw t : Text) : Prop :=
  ∀ (c : Cursor) (r : Text) (turns : Nat), c.rest = raw ++ mark isDouble :: r →
    r.head? ≠ some (mark isDouble) → raw.length < turns →
      content isDouble turns c = .ok (t, c.skip (raw.length + 1))

namespace Spells

theorem nil : Spells isDouble [] [] := by
  intro c r turns rest single enough
  obtain ⟨turns, rfl⟩ := Nat.exists_eq_succ_of_ne_zero (Nat.ne_zero_of_lt enough)
  refine content_closes ?_
  rw [rest]
  simpa [closes] using .inr single

/-- What is spelt by a first part, read in one turn, and by what follows. -/
theorem of_part (first spelt : Text) (more : Spells isDouble raw t)
    (read : ∀ (c : Cursor) (r : Text), c.rest = x :: (first ++ (raw ++ mark isDouble :: r)) →
      part isDouble x c = .ok (spelt, c.skip (first.length + 1)))
    (opens : ∀ r : Text, closes isDouble (x :: (first ++ r)) = false) :
    Spells isDouble (x :: (first ++ raw)) (spelt ++ t) := by
  intro c r turns rest single enough
  obtain ⟨turns, rfl⟩ := Nat.exists_eq_succ_of_ne_zero (Nat.ne_zero_of_lt enough)
  rw [List.cons_append, List.append_assoc] at rest
  have after : (c.skip (first.length + 1)).rest = raw ++ mark isDouble :: r := by
    rw [Cursor.rest_skip, rest, List.drop_succ_cons, List.drop_left]
  have others := more _ r turns after single (by simp at enough; omega)
  rw [content_part rest (by rw [rest]; exact opens _), read c r rest]
  have size : first.length + 1 + (raw.length + 1) = (x :: (first ++ raw)).length + 1 := by
    simp
    omega
  simp only [bind, Except.bind, others]
  rw [← Cursor.skip_add, size]

/-- A code point that stands for itself. -/
theorem char (more : Spells isDouble raw t) (gap : isGap x = false) (other : x ≠ mark isDouble)
    (escape : isDouble = true → x ≠ ('\\' : CodePoint)) : Spells isDouble (x :: raw) (x :: t) := by
  refine of_part [] [x] more (fun c r _ => ?_) fun r => ?_
  · rw [part, beq_false_of_ne other, gap]
    cases isDouble with
    | false => rfl
    | true =>
        rw [beq_false_of_ne (escape rfl)]
        rfl
  · simp [closes, other]

/-- A doubled single quotation mark. -/
theorem apostrophe (more : Spells false raw t) :
    Spells false ('\'' :: '\'' :: raw) (('\'' : CodePoint) :: t) :=
  of_part ['\''] ['\''] more
    (fun _ _ _ => rfl) fun _ => rfl

theorem part_backslash : part true '\\' c = escaped c.next := rfl

theorem closes_backslash (r : Text) : closes true (('\\' : CodePoint) :: r) = false := rfl

/-- A code point that is named by a letter. -/
theorem letter (more : Spells true raw t) {e y : CodePoint} (known : escape? e = some y) :
    Spells true ('\\' :: e :: raw) (y :: t) := by
  refine of_part [e] [y] more (fun c r rest => ?_) closes_backslash
  have next : c.next.peek? = some e := by
    rw [Cursor.peek?, Cursor.rest_next, rest]
    rfl
  rw [part_backslash, escaped, next]
  dsimp only
  rw [known]
  rfl

/-- A code point that is named by its hexadecimal number. -/
theorem hex (more : Spells true raw t) {e y : CodePoint} (digits : Text)
    (unknown : escape? e = none) (width : escapeWidth? e = some digits.length)
    (number : hexNumber? digits = some y.val) : Spells true ('\\' :: e :: (digits ++ raw)) (y :: t) := by
  refine of_part (e :: digits) [y] more (fun c r rest => ?_) closes_backslash
  have next : c.next.peek? = some e := by
    rw [Cursor.peek?, Cursor.rest_next, rest]
    rfl
  have digits_eq : c.next.next.rest.take digits.length = digits := by
    rw [Cursor.rest_next, Cursor.rest_next, rest]
    exact List.take_left
  have value : hexEscape digits.length c.next.next = .ok (y, c.next.next.skip digits.length) := by
    rw [hexEscape, digits_eq, beq_self_eq_true, if_pos rfl, number]
    exact dif_pos y.isLt
  rw [part_backslash, escaped, next]
  dsimp only
  rw [unknown, width]
  dsimp only
  rw [value]
  rfl

/-- What follows a part ends no gap. -/
theorem head?_append_mark (h : ∀ x ∈ raw.head?, isGap x = false) (r : Text) :
    ∀ x ∈ (raw ++ mark isDouble :: r).head?, isGap x = false := by
  cases raw with
  | nil =>
      intro x hx
      obtain rfl := Option.mem_some_iff.mp hx
      cases isDouble <;> rfl
  | cons y raw => exact h

/-- A line that is folded between double quotation marks. -/
theorem fold (more : Spells true raw t) (stop : ∀ x ∈ raw.head?, isGap x = false) (n : Nat) :
    Spells true ('\\' :: (newLine (n + 1) ++ raw)) t := by
  refine of_part (newLine (n + 1)) [] more (fun c r rest => ?_)
    closes_backslash
  have line : c.next.rest = ('\n' : CodePoint) :: (spaces (n + 1) ++ (raw ++ mark true :: r)) := by
    rw [Cursor.rest_next, rest]
    rfl
  have next : c.next.peek? = some '\n' := by rw [Cursor.peek?, line]; rfl
  have after : c.next.next.rest = [] ++ (spaces (n + 1) ++ (raw ++ mark true :: r)) := by
    rw [Cursor.rest_next, line]
    rfl
  rw [part_backslash, escaped, next]
  change Quoted.breaks (c.next.rest.length + 1) c.next.lineBreak.2 = _
  rw [Cursor.lineBreak_lineFeed line, breaks_eq after nofun (head?_append_mark stop r)
    (Nat.succ_pos _), length_newLine]
  congr 2
  rw [List.length_nil, Nat.zero_add]
  rfl

/-- Line ends between single quotation marks, before the indentation of the next line. -/
theorem breaks {b : CodePoint} {bs : Text} (more : Spells false raw t)
    (lines : ∀ x ∈ b :: bs, isBreak x = true) (stop : ∀ x ∈ raw.head?, isGap x = false)
    (n : Nat) :
    Spells false (b :: (bs ++ spaces (n + 1) ++ raw))
      (foldBreaks [readBreak b] (bs.map readBreak) ++ t) := by
  have ends := isLineEnd_of_isBreak (lines b (by simp))
  have gap : isGap b = true := by simp [isGap, ends]
  have other : b ≠ mark false := by rintro rfl; exact absurd ends (by decide)
  refine of_part _ _ more (fun c r rest => ?_) fun r => by simp [closes, other]
  rw [List.append_assoc] at rest
  rw [part, beq_false_of_ne other, gap, if_neg (by simp), if_pos rfl,
    gap_breaks rest lines (head?_append_mark stop r)]
  congr 2
  congr 1
  simp
  omega

/-- A space that no line end follows. -/
theorem space (more : Spells isDouble raw t)
    (stop : ∀ x ∈ (raw.dropWhile isWhite).head?, isLineEnd x = false) :
    Spells isDouble (' ' :: raw) (' ' :: t) := by
  intro c r turns rest single enough
  obtain ⟨turns, rfl⟩ := Nat.exists_eq_succ_of_ne_zero (Nat.ne_zero_of_lt enough)
  have enough := Nat.lt_of_succ_lt_succ enough
  -- The gap is the space with the white space after it, which is a gap of its own without it.
  obtain ⟨white, raw', eq, all, stop'⟩ : ∃ white raw', raw = white ++ raw' ∧
      (∀ x ∈ white, isWhite x = true) ∧ ∀ x ∈ raw'.head?, isGap x = false := by
    refine ⟨raw.takeWhile isWhite, raw.dropWhile isWhite, List.takeWhile_append_dropWhile.symm,
      fun x hx => List.mem_takeWhile_imp hx, fun x hx => isGap_eq_false.mpr ⟨?_, stop x hx⟩⟩
    have first := List.head?_dropWhile_not isWhite raw
    rwa [Option.mem_def.mp hx] at first
  subst eq
  have next : c.next.rest = white ++ (raw' ++ mark isDouble :: r) := by
    rw [Cursor.rest_next, rest, ← List.append_assoc]
    rfl
  have whole : c.rest = (' ' : CodePoint) :: white ++ (raw' ++ mark isDouble :: r) := by
    rw [rest, List.cons_append, List.append_assoc]
    rfl
  have inner := more c.next r turns (by rw [next, List.append_assoc]) single enough
  have size : ((' ' : CodePoint) :: (white ++ raw')).length + 1 =
    (white ++ raw').length + 1 + 1 := rfl
  rw [content_white whole (List.forall_mem_cons.mpr ⟨rfl, all⟩) (head?_append_mark stop' r), size,
    Cursor.skip_succ]
  cases white with
  | nil =>
      change (content isDouble turns c.next >>= _) = _
      rw [inner]
      rfl
  | cons y white =>
      obtain ⟨turns, rfl⟩ := Nat.exists_eq_succ_of_ne_zero (Nat.ne_zero_of_lt enough)
      rw [content_white next all (head?_append_mark stop' r)] at inner
      change (content isDouble (turns + 1) (c.next.skip (y :: white).length) >>= _) = _
      cases rest' : content isDouble turns (c.next.skip (y :: white).length) with
      | error e =>
          rw [rest'] at inner
          cases inner
      | ok q =>
          rw [rest'] at inner
          obtain ⟨text, position⟩ := Prod.mk.inj (Except.ok.inj inner)
          rw [content_mono rest' (Nat.le_succ turns), ← text]
          exact congrArg (fun c' => Except.ok (_, c')) position

end Spells

/-! ### Hexadecimal Numbers -/

theorem hexNumber?_concat (digits : Text) (d : CodePoint) :
    hexNumber? (digits ++ [d]) =
      (hexNumber? digits).bind fun n => d.hexValue?.map fun v => 16 * n + v := by
  simp [hexNumber?]

/-- The digits of a number, however they are coded, write the number. -/
theorem hexNumber?_toDigits {code : Char → CodePoint}
    (h : ∀ d < 16, (code (Nat.digitChar d)).hexValue? = some d) (m : Nat) :
    hexNumber? ((Nat.toDigits 16 m).map code) = some m := by
  induction m using Nat.strongRecOn with
  | ind m ih =>
      rw [Nat.toDigits_eq_if (by decide)]
      split
      · next small => simp [hexNumber?, h m small]
      · rw [List.map_append, List.map_cons, List.map_nil, hexNumber?_concat,
          ih (m / 16) (by omega), h (m % 16) (Nat.mod_lt _ (by decide))]
        simp only [Option.bind_some, Option.map_some]
        congr 1
        omega

theorem hexNumber?_zeros (k : Nat) (digits : Text) :
    hexNumber? (List.replicate k ('0' : CodePoint) ++ digits) = hexNumber? digits := by
  induction k with
  | zero => rfl
  | succ k ih => exact ih

theorem length_ofHex {width m : Nat} (pos : 0 < width) (h : m < 16 ^ width) :
    (Text.ofHex width m).length = width := by
  have short := Nat.toDigits_length 16 m width pos h
  simp only [Text.ofHex, List.length_append, List.length_replicate, List.length_map]
  omega

/-- Padded digits of a number write the number. -/
theorem hexNumber?_ofHex (width m : Nat) : hexNumber? (Text.ofHex width m) = some m := by
  unfold Text.ofHex
  rw [hexNumber?_zeros]
  exact hexNumber?_toDigits (fun d hd => by interval_cases d <;> rfl) m

theorem hexNumber?_upperHex (width m : Nat) : hexNumber? (upperHex width m) = some m := by
  unfold upperHex Text.ofHex
  rw [List.map_append, List.map_replicate, List.map_map]
  refine (hexNumber?_zeros _ _).trans (hexNumber?_toDigits (fun d hd => ?_) m)
  interval_cases d <;> rfl

theorem length_upperHex {width m : Nat} (pos : 0 < width) (h : m < 16 ^ width) :
    (upperHex width m).length = width := by
  rw [upperHex, List.length_map, length_ofHex pos h]

/-! ### Double Quotation Marks -/

namespace Spells

theorem escape (more : Spells true raw t) (x : CodePoint) :
    Spells true (Yaml.escape x ++ raw) (x :: t) := by
  have letter : ∀ (n : Nat) (e : CodePoint), x.val = n → escape? e = some (CodePoint.ofNat n) →
      Spells true (('\\' : CodePoint) :: e :: raw) (x :: t) := by
    rintro n e rfl known
    refine more.letter (known.trans ?_)
    simp [CodePoint.ofNat]
  unfold Yaml.escape
  split
  · next e known =>
    unfold escapeLetter? at known
    split at known <;> first
      | exact Option.some.inj known ▸ letter _ _ (by assumption) rfl
      | cases known
  · have bound := x.isLt
    split
    · exact more.hex _ rfl (by rw [length_upperHex (by decide) (by omega)]; rfl)
        (hexNumber?_upperHex 2 _)
    · split
      · exact more.hex _ rfl (by rw [length_upperHex (by decide) (by omega)]; rfl)
          (hexNumber?_upperHex 4 _)
      · exact more.hex _ rfl (by rw [length_upperHex (by decide) (by omega)]; rfl)
          (hexNumber?_upperHex 8 _)

end Spells

/-- What is not escaped stands for itself, and of white space it is a space only. -/
theorem of_not_isEscaped (h : isEscaped x = false) :
    x ≠ mark true ∧ x ≠ ('\\' : CodePoint) ∧ isLineEnd x = false ∧
      (x ≠ (' ' : CodePoint) → isGap x = false) := by
  simp only [isEscaped, Bool.or_eq_false_iff, beq_eq_false_iff_ne, Bool.not_eq_false',
    Bool.or_eq_true, Bool.and_eq_true, decide_eq_true_eq] at h
  have ends : isLineEnd x = false := by
    simp only [isLineEnd, Bool.or_eq_false_iff, beq_eq_false_iff_ne]
    refine ⟨⟨⟨⟨?_, ?_⟩, by omega⟩, by omega⟩, by omega⟩ <;>
      (rintro rfl; exact absurd h (by decide))
  refine ⟨?_, ?_, ends, fun space => ?_⟩
  · rintro rfl
    exact absurd h (by decide)
  · rintro rfl
    exact absurd h (by decide)
  · have tab : x ≠ ('\t' : CodePoint) := by
      rintro rfl
      exact absurd h (by decide)
    simp [isGap, ends, space, tab]

theorem head?_escape (x : CodePoint) : ∃ r, Yaml.escape x = ('\\' : CodePoint) :: r := by
  unfold Yaml.escape
  split
  · exact ⟨_, rfl⟩
  · split
    · exact ⟨_, rfl⟩
    · split <;> exact ⟨_, rfl⟩

/-- **How a text can stand between double quotation marks**, with lines folded before anything but
a space that is not escaped. -/
inductive Written (indent : Nat) : Text → Text → Prop
  /-- Nothing. -/
  | nil : Written indent [] []
  /-- An escape. -/
  | escape {raw t : Text} (x : CodePoint) (more : Written indent raw t) :
      Written indent (Yaml.escape x ++ raw) (x :: t)
  /-- A code point that stands for itself. -/
  | char {raw t : Text} {x : CodePoint} (plain : isEscaped x = false)
      (more : Written indent raw t) : Written indent (x :: raw) (x :: t)
  /-- A space after a backslash. -/
  | space {raw t : Text} (more : Written indent raw t) :
      Written indent ('\\' :: ' ' :: raw) (' ' :: t)
  /-- A folded line. -/
  | fold {raw t : Text} (start : raw.head? ≠ some (' ' : CodePoint)) (more : Written indent raw t) :
      Written indent ('\\' :: (newLine indent ++ raw)) t

namespace Written

variable {indent : Nat}

/-- After white space no line ends. -/
theorem inLine (h : Written indent raw t) :
    ∀ x ∈ (raw.dropWhile isWhite).head?, isLineEnd x = false := by
  induction h with
  | nil => nofun
  | escape x more ih =>
      obtain ⟨r, eq⟩ := head?_escape x
      rw [eq]
      rintro y ⟨⟩
      rfl
  | @char raw t x plain more ih =>
      rw [List.dropWhile_cons]
      split
      · exact ih
      · rintro y ⟨⟩
        exact (of_not_isEscaped plain).2.2.1
  | space | fold =>
      rintro y ⟨⟩
      rfl

/-- What is written begins with a space or with what ends a gap. -/
theorem head (h : Written indent raw t) (start : raw.head? ≠ some (' ' : CodePoint)) :
    ∀ x ∈ raw.head?, isGap x = false := by
  cases h with
  | nil => nofun
  | escape x more =>
      obtain ⟨r, eq⟩ := head?_escape x
      rw [eq]
      rintro y ⟨⟩
      rfl
  | char plain more =>
      rintro y ⟨⟩
      exact (of_not_isEscaped plain).2.2.2 fun same => start (congrArg some same)
  | space | fold =>
      rintro y ⟨⟩
      rfl

/-- **What is written between double quotation marks spells its text.** -/
theorem spells (h : Written (n + 1) raw t) : Spells true raw t := by
  induction h with
  | nil => exact .nil
  | escape x more ih => exact ih.escape x
  | @char raw t x plain more ih =>
      obtain ⟨quote, backslash, -, gap⟩ := of_not_isEscaped plain
      by_cases same : x = (' ' : CodePoint)
      · rw [same]
        exact ih.space more.inLine
      · exact ih.char (gap same) quote fun _ => backslash
  | space more ih => exact ih.letter rfl
  | fold start more ih => exact ih.fold (more.head start) n

theorem backslash_ne_space {r : Text} : (('\\' : CodePoint) :: r).head? ≠ some ' ' := nofun

/-- A text that begins with no space is not written with one in front. -/
theorem head?_ne (h : Written indent raw t) (start : t.head? ≠ some (' ' : CodePoint)) :
    raw.head? ≠ some ' ' := by
  cases h with
  | nil => nofun
  | escape x more =>
      obtain ⟨r, eq⟩ := head?_escape x
      rw [eq]
      exact nofun
  | char => exact start
  | space | fold => exact nofun

end Written

section Printed

variable {fold begun afterEscape : Bool} {indent column : Nat}

/-- The printer folds a line before a space that is not escaped only where the indentation is wider
than a line. -/
theorem written_doubleQuotedFrom
    (narrow : fold = true → indent < width ∨ hasNeighbours isEscaped isSpace t = false) :
    Written indent (doubleQuotedFrom fold indent column begun afterEscape t) t ∧
      (t.head? = some (' ' : CodePoint) → column ≤ width →
        Written indent ('\\' :: doubleQuotedFrom fold indent column begun afterEscape t) t) := by
  induction t generalizing column begun afterEscape with
  | nil => exact ⟨.nil, nofun⟩
  | cons c r ih =>
      have narrow' : fold = true → indent < width ∨ hasNeighbours isEscaped isSpace r = false :=
        fun on => (narrow on).imp_right fun h => (Bool.or_eq_false_iff.mp h).2
      have ih := fun column begun afterEscape => @ih begun afterEscape column narrow'
      rw [doubleQuotedFrom]
      dsimp only
      split
      · next escaped =>
        refine ⟨?_, fun start _ => ?_⟩
        · rw [List.append_assoc]
          refine .escape c ?_
          split
          · next folded =>
            rw [foldedLine]
            split
            · next space =>
              have space : r.head? = some ' ' := eq_of_beq space
              simp only [Bool.and_eq_true] at folded
              have column : indent + 1 ≤ width := by
                refine (narrow folded.1.1.1).elim id fun none => ?_
                rw [hasNeighbours, escaped, space] at none
                cases none
              have more := Written.fold Written.backslash_ne_space ((ih (indent + 1) true true).2 space column)
              simpa [Text.between] using more
            · next other =>
              have other : r.head? ≠ some ' ' := by simpa using other
              exact .fold ((ih _ _ _).1.head?_ne other) (ih _ _ _).1
          · exact (ih _ _ _).1
        · obtain rfl := Option.some.inj start
          cases escaped
      · next plain =>
        have plain : isEscaped c = false := by simpa using plain
        refine ⟨?_, fun start le => ?_⟩
        · split
          · rw [foldedLine]
            split
            · next space =>
              obtain rfl : c = ' ' := by simpa using space
              have more := Written.fold Written.backslash_ne_space (Written.space (ih (indent + 1 + 1) true false).1)
              simpa [Text.between] using more
            · next other =>
              have other : (c :: r).head? ≠ some ' ' := by simpa using other
              exact .fold other (.char plain (ih _ _ _).1)
          · exact .char plain (ih _ _ _).1
        · obtain rfl : c = ' ' := Option.some.inj start
          rw [if_neg (by simp [Nat.not_lt.mpr le])]
          exact .space (ih _ _ _).1

end Printed

/-! ### Single Quotation Marks -/

namespace Spells

/-- Spaces that no gap follows. -/
theorem spaces (more : Spells isDouble raw t) (stop : ∀ x ∈ raw.head?, isGap x = false) (k : Nat) :
    Spells isDouble (Yaml.spaces k ++ raw) (Yaml.spaces k ++ t) := by
  induction k with
  | zero => exact more
  | succ k ih =>
      rw [spaces_succ]
      refine ih.space fun x hx => ?_
      rw [List.dropWhile_append_of_pos fun y hy => by rw [eq_space_of_mem_spaces hy]; rfl] at hx
      cases raw with
      | nil => cases hx
      | cons y raw =>
          rw [List.dropWhile_cons_of_neg (by simp [(isGap_eq_false.mp (stop y rfl)).1])] at hx
          exact (isGap_eq_false.mp (stop x hx)).2

/-- Line ends as they are written, before the indentation of a line. -/
theorem writtenBreaks (more : Spells false raw t) (bs : Text) (some : bs ≠ [])
    (lines : ∀ x ∈ bs, isBreak x = true) (stop : ∀ x ∈ raw.head?, isGap x = false) (n : Nat) :
    Spells false (Yaml.writtenBreaks bs ++ (Yaml.spaces (n + 1) ++ raw)) (readBreaks bs ++ t) := by
  obtain ⟨b, bs, rfl⟩ := List.exists_cons_of_ne_nil some
  unfold Yaml.writtenBreaks
  split
  · next line =>
    obtain rfl : b = '\n' := by simpa using line
    have doubled : ∀ x ∈ ('\n' : CodePoint) :: '\n' :: bs, isBreak x = true :=
      List.forall_mem_cons.mpr ⟨rfl, lines⟩
    have spelt := more.breaks doubled stop n
    rwa [List.append_assoc] at spelt
  · next other =>
    have other : b ≠ ('\n' : CodePoint) := by simpa using other
    have spelt := more.breaks lines stop n
    rw [List.append_assoc] at spelt
    have read : foldBreaks [readBreak b] (bs.map readBreak) = readBreaks (b :: bs) := by
      rw [readBreaks]
      by_cases next : b.val = 0x85
      · have line : readBreak b = '\n' := if_pos (by simpa using next)
        rw [if_pos (by simpa using next), line]
        cases bs <;> rfl
      · rw [if_neg (by simpa using next), List.map_cons, readBreak_eq_self next, foldBreaks, if_pos]
        · rfl
        · simpa [Text.ofString] using other
    rwa [read] at spelt

end Spells

/-- A code point between single quotation marks, which is doubled if it is one. -/
theorem Spells.quoted {c : CodePoint} {first others : Text} (gap : isGap c = false)
    (doubled : Spells false first t) (alone : Spells false others t) :
    Spells false (if c.val == 0x27 then c :: c :: first else c :: others) (c :: t) ∧
      ∀ x ∈ (if c.val == 0x27 then c :: c :: first else c :: others).head?, isGap x = false := by
  split
  · next quote =>
    obtain rfl : c = '\'' := Fin.ext (eq_of_beq quote)
    refine ⟨doubled.apostrophe, ?_⟩
    rintro x ⟨⟩
    rfl
  · next other =>
    have other : c ≠ mark false := by
      rintro rfl
      exact other rfl
    refine ⟨alone.char gap other nofun, ?_⟩
    rintro x ⟨⟩
    exact gap

theorem spaces_append_space (k : Nat) (r : Text) :
    Yaml.spaces k ++ (' ' : CodePoint) :: r = Yaml.spaces (k + 1) ++ r := by
  simp [Yaml.spaces, List.replicate_succ']

/-- What is read of a text after what is pending. -/
def readAfter : Pending → Text → Text
  | .spaces n, t => spaces n ++ readFrom [] t
  | .breaks b, t => readFrom b t

/-- What may be pending before a text: no space touches a line end. -/
def IsPending : Pending → Text → Prop
  | .spaces n, t => 0 < n → ∀ x ∈ t.head?, isBreak x = false
  | .breaks b, t => b ≠ [] ∧ (∀ x ∈ b, isBreak x = true) ∧ t.head? ≠ some (' ' : CodePoint)

theorem readAfter_space (k : Nat) (r : Text) :
    readAfter (.spaces k) (' ' :: r) = readAfter (.spaces (k + 1)) r :=
  spaces_append_space k _

theorem readAfter_break (h : isBreak x = true) (r : Text) :
    readAfter (.spaces 0) (x :: r) = readAfter (.breaks [x]) r := by
  rw [readAfter, readFrom, if_pos h]
  rfl

theorem readAfter_inline (h : ¬isBreak x = true) (k : Nat) (r : Text) :
    readAfter (.spaces k) (x :: r) = Yaml.spaces k ++ x :: readAfter (.spaces 0) r := by
  rw [readAfter, readFrom, if_neg h]
  rfl

/-- After a space, spaces are pending. -/
theorem isPending_spaces (spaces : hasNeighbours isSpace isBreak (' ' :: r) = false) :
    IsPending (.spaces n) r := by
  intro _ x hx
  have first := (Bool.or_eq_false_iff.mp spaces).1
  rw [Option.mem_def.mp hx] at first
  exact first

/-- After a line end, line ends are pending. -/
theorem isPending_breaks {b : Text} (breaks : hasNeighbours isBreak isSpace (x :: r) = false)
    (line : isBreak x = true) (lines : ∀ y ∈ b, isBreak y = true) :
    IsPending (.breaks (x :: b)) r := by
  refine ⟨List.cons_ne_nil _ _, List.forall_mem_cons.mpr ⟨line, lines⟩, fun space => ?_⟩
  have first := (Bool.or_eq_false_iff.mp breaks).1
  rw [line, space] at first
  cases first

/-- **What is written between single quotation marks is read**, with the line ends that are read of
those in the text. -/
theorem spells_singleQuotedFrom {fold begun : Bool} {column : Nat} {pending : Pending}
    (printable : ∀ x ∈ t, isPrintable x = true)
    (spaces : hasNeighbours isSpace isBreak t = false)
    (breaks : hasNeighbours isBreak isSpace t = false) (isPending : IsPending pending t) :
    Spells false (singleQuotedFrom fold (n + 1) column begun pending t) (readAfter pending t) := by
  induction t generalizing column begun pending with
  | nil =>
      cases pending with
      | spaces k =>
          have spelt : Spells false _ _ := Spells.nil.spaces nofun k
          simpa [singleQuotedFrom, readAfter, readFrom, readBreaks] using spelt
      | breaks b =>
          obtain ⟨some, lines, -⟩ := isPending
          have spelt := Spells.nil.writtenBreaks b.reverse (by simpa using some)
            (by simpa using lines) nofun n
          simpa [singleQuotedFrom, readAfter, readFrom] using spelt
  | cons c r ih =>
      obtain ⟨printable_c, printable_r⟩ := List.forall_mem_cons.mp printable
      have spaces_r := (Bool.or_eq_false_iff.mp spaces).2
      have breaks_r := (Bool.or_eq_false_iff.mp breaks).2
      have ih := fun (column : Nat) (begun : Bool) (pending : Pending) =>
        @ih begun column pending printable_r spaces_r breaks_r
      cases pending with
      | spaces k =>
          rw [singleQuotedFrom]
          split
          · next space =>
            obtain rfl := eq_of_beq space
            rw [readAfter_space]
            exact ih _ _ (.spaces (k + 1)) (isPending_spaces spaces)
          · next other =>
            have other : c ≠ (' ' : CodePoint) := by simpa using other
            dsimp only
            by_cases break_c : isBreak c = true
            · obtain rfl : k = 0 := by
                by_contra some
                exact absurd (isPending (Nat.pos_of_ne_zero some) c rfl) (by simp [break_c])
              rw [if_neg (by simp), if_pos break_c, readAfter_break break_c]
              exact ih _ _ (.breaks [c]) (isPending_breaks breaks break_c (List.forall_mem_nil _))
            · have gap := Plain.isGap_of_isPrintable printable_c (by simpa using break_c) other
              rw [if_neg break_c, readAfter_inline break_c]
              split
              · next folded =>
                simp only [Bool.and_eq_true, beq_iff_eq] at folded
                obtain rfl : k = 1 := folded.1.1.2
                have text := Spells.quoted gap
                  (ih (n + 1 + 2) true (.spaces 0) nofun)
                  (ih (n + 1 + 1) true (.spaces 0) nofun)
                have line : ∀ x ∈ [('\n' : CodePoint)], isBreak x = true := by simp [isBreak]
                exact text.1.breaks line text.2 n
              · have text := Spells.quoted gap
                  (ih (column + k + 2) true (.spaces 0) nofun)
                  (ih (column + k + 1) true (.spaces 0) nofun)
                exact text.1.spaces text.2 k
      | breaks b =>
          obtain ⟨some, lines, noSpace⟩ := isPending
          rw [singleQuotedFrom, readAfter, readFrom]
          split
          · next break_c =>
            exact ih column true (.breaks (c :: b)) (isPending_breaks breaks break_c lines)
          · next inline =>
            have other : c ≠ (' ' : CodePoint) := fun same => noSpace (congrArg _ same)
            have gap := Plain.isGap_of_isPrintable printable_c (by simpa using inline) other
            rw [if_neg (by simpa using other)]
            have text := Spells.quoted gap
              (ih (n + 1 + 2) true (.spaces 0) nofun)
              (ih (n + 1 + 1) true (.spaces 0) nofun)
            have spelt := text.1.writtenBreaks b.reverse (by simpa using some)
              (by simpa using lines) text.2 n
            rwa [List.append_assoc]

/-! ### Escapes of JSON -/

/-- The code points that are seen in an ASCII text. -/
def isVisible (x : CodePoint) : Bool := 0x20 ≤ x.val && x.val ≤ 0x7E

theorem isInline_of_isVisible (h : isVisible x = true) : isInline x = true := by
  simp only [isVisible, Bool.and_eq_true, decide_eq_true_eq] at h
  simp only [isInline, isLineEnd, Bool.and_eq_true, Bool.not_eq_true', Bool.or_eq_false_iff,
    beq_eq_false_iff_ne, bne_iff_ne]
  refine ⟨⟨⟨⟨⟨?_, ?_⟩, by omega⟩, by omega⟩, by omega⟩, by omega⟩ <;>
    (rintro rfl; exact absurd h (by decide))

/-- An escape of ASCII text is seen. -/
theorem isVisible_escape (c : CodePoint) : ∀ x ∈ Json.escape true c, isVisible x = true := by
  intro x hx
  obtain ⟨low, high⟩ := Json.visible_of_mem_escape hx
  simpa [isVisible, low] using high

theorem isVisible_flatMap_escape (t : Text) :
    ∀ x ∈ t.flatMap (Json.escape true), isVisible x = true := by
  intro x hx
  obtain ⟨c, -, hx⟩ := List.mem_flatMap.mp hx
  exact isVisible_escape c x hx

namespace Spells

theorem unitEscape (more : Spells true raw t) {m : Nat} (h : m < 0x10000) :
    Spells true (Json.unitEscape m ++ raw) (CodePoint.ofNat m :: t) := by
  refine more.hex (e := 'u') (Text.ofHex 4 m) rfl ?_ ?_
  · rw [length_ofHex (by decide) (by omega)]
    rfl
  · rw [hexNumber?_ofHex, Json.val_ofNat (by omega)]

/-- **The escapes of JSON are escapes of YAML**, each of which names one unit of 16 bits. -/
theorem jsonEscape (more : Spells true raw t) (visible : ∀ x ∈ raw, isVisible x = true)
    (c : CodePoint) : Spells true (Json.escape true c ++ raw) (Json.units true c ++ t) := by
  have one : c.val < 0x10000 → Json.units true c = [c] := fun h => if_neg (by omega)
  unfold Json.escape
  split_ifs with marks line ret tab bell feed control ascii
  · have marks : c = Json.doubleQuote ∨ c = Json.backslash := by simpa using marks
    rcases marks with rfl | rfl <;> exact more.letter rfl
  · obtain rfl := eq_of_beq line
    exact more.letter rfl
  · obtain rfl := eq_of_beq ret
    exact more.letter rfl
  · obtain rfl := eq_of_beq tab
    exact more.letter rfl
  · obtain rfl : c = '\x08' := Fin.ext (eq_of_beq bell)
    exact more.letter rfl
  · obtain rfl : c = '\x0c' := Fin.ext (eq_of_beq feed)
    exact more.letter rfl
  · have spelt := more.unitEscape (m := c.val) (by omega)
    rw [one (by omega)]
    simpa [CodePoint.ofNat] using spelt
  · by_cases plane : c.val < 0x10000
    · have spelt := more.unitEscape plane
      rw [one plane, Json.numberEscape, if_pos plane]
      simpa [CodePoint.ofNat] using spelt
    · have pair : Json.units true c =
          [CodePoint.ofNat (Json.highUnit c), CodePoint.ofNat (Json.lowUnit c)] :=
        if_pos ⟨rfl, by omega⟩
      rw [pair, Json.numberEscape_eq plane, List.append_assoc]
      exact (more.unitEscape Json.lowUnit_lt).unitEscape Json.highUnit_lt
  · have small : c.val < 0x7F := by simpa using ascii
    have plain : c ≠ Json.doubleQuote ∧ c ≠ Json.backslash := by simpa using marks
    have notEscaped : isEscaped c = false := by
      simp only [Fin.ext_iff, Ne] at plain
      simp only [isEscaped, Bool.or_eq_false_iff, beq_eq_false_iff_ne, Bool.not_eq_false',
        Bool.or_eq_true, Bool.and_eq_true, decide_eq_true_eq]
      refine ⟨⟨⟨⟨⟨⟨plain.1, plain.2⟩, by omega⟩, by omega⟩, by omega⟩, by omega⟩, by omega⟩
    obtain ⟨quote, backslash, -, gap⟩ := of_not_isEscaped notEscaped
    rw [one (by omega)]
    by_cases same : c = (' ' : CodePoint)
    · rw [same]
      refine more.space fun x hx => ?_
      have mem := List.dropWhile_subset isWhite (List.mem_of_mem_head? hx)
      exact isLineEnd_eq_false_of_isInline (isInline_of_isVisible (visible x mem))
    · exact more.char (gap same) quote fun _ => backslash

/-- A quotation of JSON spells the units of its text. -/
theorem jsonText (t : Text) :
    Spells true (t.flatMap (Json.escape true)) (t.flatMap (Json.units true)) := by
  induction t with
  | nil => exact .nil
  | cons c r ih => exact ih.jsonEscape (isVisible_flatMap_escape r) c

end Spells

/-! ### Quoted Scalars -/

/-- **A quoted scalar is read from its spelling.** -/
theorem read_spelling (h : Spells isDouble raw t)
    (rest : c.rest = Text.between (mark isDouble) raw ++ r)
    (single : r.head? ≠ some (mark isDouble)) :
    read isDouble c = .ok (t, c.skip (Text.between (mark isDouble) raw).length) := by
  have next : c.next.rest = raw ++ mark isDouble :: r := by
    rw [Cursor.rest_next, rest]
    simp [Text.between]
  have size : (Text.between (mark isDouble) raw).length = raw.length + 1 + 1 := by
    simp [Text.between]
  have enough : raw.length + 1 ≤ c.rest.length := by
    rw [rest, List.length_append, size]
    omega
  rw [read, h c.next r _ next single enough, size]
  rfl

end Quoted

end Yaml

end RouteDocs
