import Mathlib.Data.List.Induction
import Mathlib.Data.List.TakeWhile
import RouteDocs.Infer.Responses
import RouteDocs.Proofs.Text.Digit
import RouteDocs.Proofs.Text.Search

/-!
# Calls That State a Status

A handler can answer with a call of a payload and of options, in which it states a status. The
status is looked for in the options up to their first brace.

## Main Definitions

* `Response.IsPayload`: paths of identifiers, and objects without inner objects
* `Response.Mentions`: a status is mentioned behind the beginning of a text
* `Response.Sees`: a status is seen in options
* `Response.Call`: a call that states an error status

## Main Statements

* `Response.IsPayload.leads`: a payload is read as a whole
* `Response.mentions_of_reads_stated`, `Response.leads_stated`: a status is found where it is
  mentioned
* `Response.fails_statedOptions`, `Response.leads_statedOptions`: what is found of options
* `Call.findAll_of_sees`, `Call.findAll_of_not_sees`: what is found of a call
* `Call.literal?_text`: **when a call is documented as a success**

## Design Notes

The search takes the first mention of a status, and none if a further object is opened behind it
before the options are closed. Without a status that is seen, a call counts as a success.
-/

namespace RouteDocs

namespace Response

open Pattern

variable {c d e : Cursor} {gs : Groups} {t u w : Text} {x y : Hit}

/-! ### Payloads -/

/-- The identifiers. -/
def IsName (t : Text) : Prop :=
  ∃ a r, t = a :: r ∧ isIdentifierStart a = true ∧ ∀ b ∈ r, isIdentifierPart b = true

/-- The payloads whose names are looked up: paths of identifiers, and objects without inner
objects. -/
inductive IsPayload : Text → Prop
  /-- A path: identifiers with points between them. -/
  | path (first : Text) (more : List Text) (name : IsName first) (names : ∀ t ∈ more, IsName t) :
      IsPayload (first ++ more.flatMap fun t => ('.' : CodePoint) :: t)
  /-- An object without inner objects. -/
  | object (inside : Text) (flat : ∀ a ∈ inside, isFlat a = true) :
      IsPayload (('\x7b' : CodePoint) :: (inside ++ [('\x7d' : CodePoint)]))

theorem IsName.leads (name : IsName t) (passes : Cursor.Passes t c d)
    (stop : d.rest.head?.any isIdentifierPart = false) : identifier.Leads (c, gs) (d, gs) := by
  obtain ⟨a, r, rfl, start, parts⟩ := name
  obtain ⟨e, first, others⟩ := passes.of_cons
  exact (leads_one start first).append (leads_run parts others stop)

/-- The further identifiers of a path are read one after another. -/
theorem rounds_of_names {more : List Text} (names : ∀ t ∈ more, IsName t)
    (passes : Cursor.Passes (more.flatMap fun t => ('.' : CodePoint) :: t) c d)
    (stop : d.rest.head?.any isIdentifierPart = false) :
    Relation.ReflTransGen (fun x y => (lit "." ++ identifier).Leads x y ∧
      y.1.rest.length < x.1.rest.length) (c, gs) (d, gs) := by
  induction more generalizing c with
  | nil =>
      obtain rfl := passes.eq_of_nil
      exact .refl
  | cons t more ih =>
      obtain ⟨name, others⟩ := List.forall_mem_cons.mp names
      obtain ⟨e, point, rest⟩ := passes.of_cons
      obtain ⟨e', word, rest⟩ := rest.of_append
      have stop' : e'.rest.head?.any isIdentifierPart = false := by
        rw [rest.rest]
        cases more with
        | nil => exact stop
        | cons => rfl
      refine .head ⟨(leads_lit point).append (name.leads word stop'), ?_⟩ (ih others rest)
      change e'.rest.length < c.rest.length
      rw [point.rest, word.rest, List.length_append, List.length_append, List.length_singleton]
      omega

/-- **A payload is read as a whole**, if neither an identifier nor a path can go on behind it. -/
theorem IsPayload.leads (payload : IsPayload t) (passes : Cursor.Passes t c d)
    (stop : ∀ a ∈ d.rest.head?, isIdentifierPart a = false ∧ a ≠ '.') :
    (alt (brace 0x7B ++ run isFlat ++ brace 0x7D)
      (identifier ++ star (lit "." ++ identifier))).Leads (c, gs) (d, gs) := by
  cases payload with
  | object inside flat =>
      obtain ⟨c₁, opening, others⟩ := passes.of_cons
      obtain ⟨c₂, between, closing⟩ := others.of_append
      refine Leads.alt (((leads_one rfl opening).append
        (leads_run flat between ?_)).append (leads_one rfl closing)) _
      rw [closing.rest]
      rfl
  | path first more name names =>
      obtain ⟨c₁, word, others⟩ := passes.of_append
      have stop₂ : d.rest.head?.any isIdentifierPart = false := by
        cases next : d.rest.head? with
        | none => rfl
        | some a => exact (stop a (by rw [next]; rfl)).1
      have stop₁ : c₁.rest.head?.any isIdentifierPart = false := by
        rw [others.rest]
        cases more with
        | nil => exact stop₂
        | cons => rfl
      have noBrace : (brace 0x7B ++ run isFlat ++ brace 0x7D).Fails (c, gs) := by
        refine (((startsIn_one _).append _).append _).fails (x := (c, gs)) ?_
        obtain ⟨a, r, rfl, start, -⟩ := name
        rw [show (c, gs).1.rest = _ from word.rest]
        refine Bool.eq_false_iff.mpr fun same => ?_
        obtain rfl : a = '\x7b' := Fin.ext (show a.val = 0x7B by simpa using same)
        cases start
      have noPoint : (lit "." ++ identifier).Fails (d, gs) := by
        refine ((startsIn_one (· == ('.' : CodePoint))).append identifier).fails (x := (d, gs)) ?_
        cases next : d.rest.head? with
        | none => rfl
        | some a => simpa using (stop a (by rw [next]; rfl)).2
      exact leads_alt_right noBrace ((name.leads word stop₁).append
        (leads_star (rounds_of_names names others stop₂) noPoint))

/-! ### Mentions of a Status -/

/-- A status of three digits is mentioned behind the beginning of a text. -/
def Mentions (t u status : Text) : Prop :=
  ∃ s s' v : Text, t = u ++ ("status" ++ (s ++ (":" ++ (s' ++ (status ++ v))))) ∧
    (∀ a ∈ u.getLast?, a.isWord = false) ∧ (∀ a ∈ s, a.isBlank = true) ∧
    (∀ a ∈ s', a.isBlank = true) ∧ status.length = 3 ∧ ∀ a ∈ status, a.isDigit = true

/-- What is looked for in options: a status, and what follows up to a closing brace. -/
def stated : Pattern :=
  wordEdge ++ lit "status" ++ blanks ++ lit ":" ++ blanks ++ group 3 threeDigits ++ run isFlat
    ++ brace 0x7D

/-- Before the letter of a word there is an edge of a word if no letter stands before it. -/
theorem isWordEdge_iff {a : CodePoint} {r : Text} (rest : c.rest = a :: r)
    (word : a.isWord = true) : c.isWordEdge = true ↔ c.seen.head?.any CodePoint.isWord = false := by
  rw [Cursor.isWordEdge, rest, List.head?_cons, Option.any_some, word]
  simp

theorem isFlat_of_isBlank {a : CodePoint} (blank : a.isBlank = true) : isFlat a = true := by
  simp only [CodePoint.isBlank, Bool.or_eq_true, Bool.and_eq_true, decide_eq_true_eq,
    beq_iff_eq] at blank
  simp only [isFlat, Bool.and_eq_true, bne_iff_ne]
  omega

theorem isFlat_of_isDigit {a : CodePoint} (digit : a.isDigit = true) : isFlat a = true := by
  have other {b : CodePoint} (none : b.isDigit = false) : a.val ≠ b.val := fun same => by
    rw [Fin.ext same, none] at digit
    cases digit
  have opening : a.val ≠ 0x7B := other (b := '\x7b') (by decide)
  have closing : a.val ≠ 0x7D := other (b := '\x7d') (by decide)
  simp [isFlat, opening, closing]

/-- The parts of a mention have no braces. -/
theorem flat_mention {s s' v status : Text} (flat : ∀ a ∈ u, isFlat a = true)
    (blank : ∀ a ∈ s, a.isBlank = true) (blank' : ∀ a ∈ s', a.isBlank = true)
    (digits : ∀ a ∈ status, a.isDigit = true) (behind : ∀ a ∈ v, isFlat a = true) :
    ∀ a ∈ u ++ ("status" ++ (s ++ (":" ++ (s' ++ (status ++ v))))), isFlat a = true := by
  have word : ∀ a ∈ ("status" : Text), isFlat a = true := List.all_eq_true.mp rfl
  have colon : ∀ a ∈ (":" : Text), isFlat a = true := List.all_eq_true.mp rfl
  simp only [List.forall_mem_append]
  refine ⟨flat, word, fun a ha => isFlat_of_isBlank (blank a ha), colon, ?_, ?_, behind⟩
  · exact fun a ha => isFlat_of_isBlank (blank' a ha)
  · exact fun a ha => isFlat_of_isDigit (digits a ha)

/-- Behind a brace and a text, the nearest code point is the last one of the text or the brace. -/
theorem noWord_before_iff (between : Cursor.Passes (('\x7b' : CodePoint) :: u) c d) :
    d.seen.head?.any CodePoint.isWord = false ↔ ∀ a ∈ u.getLast?, a.isWord = false := by
  rw [between.seen]
  cases u using List.reverseRecOn with
  | nil => simp; decide
  | append_singleton u a => simp

/-- **What is found is a mention**, and the next brace behind it closes the options. -/
theorem mentions_of_reads_stated (between : Cursor.Passes (('\x7b' : CodePoint) :: u) c d)
    (flat : ∀ a ∈ u, isFlat a = true) (reads : stated.Reads (d, gs) y) :
    ∃ t r status, (∀ a ∈ t, isFlat a = true) ∧
      c.rest = ('\x7b' : CodePoint) :: (t ++ ('\x7d' : CodePoint) :: r) ∧
      Mentions t u status := by
  obtain ⟨y₇, ⟨y₆, ⟨y₅, ⟨y₄, ⟨y₃, ⟨y₂, ⟨y₁, ⟨rfl, edge⟩, name⟩, ⟨s, blank, gap, -⟩⟩, colon⟩,
    ⟨s', blank', gap', -⟩⟩, ⟨gs', number, -⟩⟩, ⟨v, behind, tail, -⟩⟩, ⟨a, brace, closing, -⟩⟩ :=
      reads
  obtain ⟨status, size, digits, number, -⟩ := number.of_threeDigits
  obtain rfl : a = '\x7d' := Fin.ext (show a.val = 0x7D by simpa using brace)
  have start := (noWord_before_iff between).mp ((isWordEdge_iff name.of_lit.1.rest rfl).mp edge)
  refine ⟨_, y.1.rest, status, flat_mention flat blank blank' digits behind, ?_,
    s, s', v, rfl, start, blank, blank', size, digits⟩
  rw [between.rest, name.of_lit.1.rest, gap.rest, colon.of_lit.1.rest, gap'.rest, number.rest,
    tail.rest, closing.rest]
  simp only [List.append_assoc, List.cons_append, List.nil_append]

/-- **A mention is found**, if the next brace behind it closes the options. -/
theorem leads_stated (gs : Groups) {status r : Text} (flat : ∀ a ∈ t, isFlat a = true)
    (mention : Mentions t u status)
    (rest : c.rest = ('\x7b' : CodePoint) :: (t ++ ('\x7d' : CodePoint) :: r)) :
    ∃ d e e' e'', Cursor.Passes (('\x7b' : CodePoint) :: u) c d ∧ Cursor.Passes status e e' ∧
      Cursor.Passes (('\x7b' : CodePoint) :: (t ++ [('\x7d' : CodePoint)])) c e'' ∧ e''.rest = r ∧
      stated.Leads (d, gs) (e'', (3, e, e') :: gs) := by
  obtain ⟨s, s', v, rfl, start, blank, blank', size, digits⟩ := mention
  have parts : c.rest = (('\x7b' : CodePoint) :: u) ++ ("status" ++ (s ++ (":" ++ (s' ++ (status ++
      (v ++ ([('\x7d' : CodePoint)] ++ r))))))) := by
    rw [rest]
    simp only [List.append_assoc, List.cons_append, List.nil_append]
  obtain ⟨d, before, rest⟩ := Cursor.exists_passes parts
  obtain ⟨d₁, word, rest⟩ := Cursor.exists_passes rest
  obtain ⟨d₂, gap, rest₂⟩ := Cursor.exists_passes rest
  obtain ⟨d₃, colon, rest⟩ := Cursor.exists_passes rest₂
  obtain ⟨d₄, gap', rest⟩ := Cursor.exists_passes rest
  obtain ⟨d₅, number, rest⟩ := Cursor.exists_passes rest
  obtain ⟨d₆, tail, rest₆⟩ := Cursor.exists_passes rest
  obtain ⟨d₇, closing, rest⟩ := Cursor.exists_passes rest₆
  have edge : d.isWordEdge = true :=
    (isWordEdge_iff word.rest rfl).mpr ((noWord_before_iff before).mpr start)
  have noBlank : d₄.rest.head?.any CodePoint.isBlank = false := by
    obtain ⟨a, b, b', rfl⟩ := List.length_eq_three.mp size
    rw [number.rest]
    exact CodePoint.isBlank_eq_false_of_isDigit (digits a List.mem_cons_self)
  have behind : ∀ a ∈ v, isFlat a = true := fun a ha => flat a (by simp [ha])
  have whole := before.trans (word.trans (gap.trans (colon.trans (gap'.trans (number.trans
    (tail.trans closing))))))
  refine ⟨d, d₄, d₅, d₇, before, number, ?_, rest, ?_⟩
  · simpa only [List.append_assoc, List.cons_append] using whole
  · have remembered : (group 3 threeDigits).Leads (d₄, gs) (d₅, (3, d₄, d₅) :: gs) :=
      (leads_threeDigits size digits number).group 3
    exact (((((((leads_wordEdge edge).append (leads_lit word)).append
      (leads_run blank gap (by rw [rest₂]; rfl))).append (leads_lit colon)).append
      (leads_run blank' gap' noBlank)).append remembered).append
      (leads_run behind tail (by rw [rest₆]; rfl))).append (leads_one rfl closing)

/-! ### Options -/

/-- What may follow a payload: a comma and options that state a status. -/
def statedOptions : Pattern :=
  blanks ++ lit "," ++ blanks ++ brace 0x7B ++ shortRun isFlat ++ wordEdge ++ lit "status" ++ blanks
    ++ lit ":" ++ blanks ++ group 3 threeDigits ++ run isFlat ++ brace 0x7D

/-- A status is seen in options: their first brace, if they have one, does not open an object, and
the status is the first one that is mentioned before it. -/
def Sees (o status : Text) : Prop :=
  (∀ a ∈ (o.dropWhile isFlat).head?, a = '\x7d') ∧
    ∃ u, Mentions (o.takeWhile isFlat) u status ∧
      ∀ u' status', Mentions (o.takeWhile isFlat) u' status' → u.length ≤ u'.length

/-- Where mentions are, one of them is the first. -/
theorem exists_first_mention {status : Text} (mention : Mentions t u status) :
    ∃ u status, Mentions t u status ∧
      ∀ u' status', Mentions t u' status' → u.length ≤ u'.length := by
  classical
  have some : ∃ n, ∃ u status, Mentions t u status ∧ u.length = n := ⟨_, u, status, mention, rfl⟩
  obtain ⟨u, status, first, size⟩ := Nat.find_spec some
  refine ⟨u, status, first, fun u' status' other => ?_⟩
  rw [size]
  exact Nat.find_min' some ⟨u', status', other, rfl⟩

/-- The first brace of options and what closes them is the first brace of the options, if they have
one. -/
theorem split_options (o : Text) : (o ++ "\x7d)").takeWhile isFlat = o.takeWhile isFlat ∧
    (o ++ "\x7d)").dropWhile isFlat = o.dropWhile isFlat ++ "\x7d)" := by
  have brace : isFlat '\x7d' = false := rfl
  induction o with
  | nil => exact ⟨rfl, rfl⟩
  | cons a o ih => cases flat : isFlat a <;> simp [flat, ih]

/-- If a text without braces and a closing brace come first, the text is what stands before the
first brace of the options. -/
theorem eq_takeWhile_of_closing {o r : Text} (flat : ∀ a ∈ t, isFlat a = true)
    (closing : o ++ "\x7d)" = t ++ ('\x7d' : CodePoint) :: r) :
    t = o.takeWhile isFlat ∧ ∀ a ∈ (o.dropWhile isFlat).head?, a = '\x7d' := by
  have brace : isFlat '\x7d' = false := rfl
  obtain ⟨before, after⟩ := split_options o
  rw [closing, List.takeWhile_append_of_pos flat, List.takeWhile_cons_of_neg (by simp [brace]),
    List.append_nil] at before
  rw [closing, List.dropWhile_append_of_pos flat, List.dropWhile_cons_of_neg (by simp [brace])]
    at after
  refine ⟨before, fun a ha => ?_⟩
  obtain ⟨k, eq⟩ : ∃ k, o.dropWhile isFlat = a :: k := by
    cases rest : o.dropWhile isFlat with
    | nil => rw [rest] at ha; cases ha
    | cons b k => rw [rest] at ha; cases ha; exact ⟨k, rfl⟩
  rw [eq, List.cons_append] at after
  exact (List.cons.inj after).1.symm

theorem exists_closing {o : Text} (closes : ∀ a ∈ (o.dropWhile isFlat).head?, a = '\x7d') :
    ∃ r, o ++ "\x7d)" = o.takeWhile isFlat ++ ('\x7d' : CodePoint) :: r := by
  obtain ⟨before, after⟩ := split_options o
  have parts := List.takeWhile_append_dropWhile (p := isFlat) (l := o ++ "\x7d)")
  rw [before, after] at parts
  cases rest : o.dropWhile isFlat with
  | nil =>
      rw [rest] at parts
      exact ⟨_, parts.symm⟩
  | cons a k =>
      rw [rest] at parts closes
      rw [closes a rfl] at parts
      exact ⟨_, parts.symm⟩

/-- The same pattern, put together from the parts that are treated one after another. -/
def groupedOptions : Pattern :=
  blanks ++ lit "," ++ blanks ++ (brace 0x7B ++ (shortRun isFlat ++ stated))

theorem runAt_groupedOptions (c : Cursor) (gs : Groups) (k : Cursor → Groups → Option Hit) :
    groupedOptions.runAt c gs k = statedOptions.runAt c gs k := rfl

/-- Where no status is seen, the options are not looked at. -/
theorem fails_statedOptions {o : Text} (start : c.rest = ", \x7b" ++ (o ++ "\x7d)"))
    (unseen : ∀ status, ¬ Sees o status) : statedOptions.Fails (c, gs) := by
  have grouped : groupedOptions.Fails (c, gs) := by
    refine fails_of_reads fun y reads => ?_
    obtain ⟨y₃, ⟨y₂, ⟨y₁, ⟨s, blank, gap, -⟩, comma⟩, ⟨s', blank', gap', -⟩⟩, y₄,
      ⟨a, brace, opening, -⟩, y₅, ⟨u, flat, between, -⟩, found⟩ := reads
    obtain ⟨c₁, first, rest⟩ := Cursor.exists_passes (w := [(',' : CodePoint)]) start
    obtain ⟨c₂, second, rest⟩ := Cursor.exists_passes (w := [(' ' : CodePoint)]) rest
    obtain rfl : a = '\x7b' := Fin.ext (show a.val = 0x7B by simpa using brace)
    have atComma : y₁.1 = c := gap.eq_of_run blank (by rw [comma.of_lit.1.rest]; rfl)
      (.refl c) (List.forall_mem_nil _) (by rw [start]; rfl)
    have behindComma : y₂.1 = c₁ := Cursor.Passes.unique (atComma ▸ comma.of_lit.1) first
    have here : y₃.1 = c₂ := Cursor.Passes.eq_of_run (behindComma ▸ gap') blank'
      (by rw [opening.rest]; rfl) second (List.all_eq_true.mp rfl) (by rw [rest]; rfl)
    obtain ⟨t, r, status, flat', rest', mention⟩ :=
      mentions_of_reads_stated (opening.trans between) flat found
    rw [here, rest] at rest'
    obtain ⟨rfl, closes⟩ := eq_takeWhile_of_closing flat' (List.cons.inj rest').2
    obtain ⟨u, status, first⟩ := exists_first_mention mention
    exact unseen status ⟨closes, u, first⟩
  exact fun k => (runAt_groupedOptions c gs k).symm.trans (grouped k)

/-- Where a status is seen, it is remembered, up to the closing brace. -/
theorem leads_statedOptions (gs : Groups) {o status r : Text}
    (rest : c.rest = ", \x7b" ++ (o ++ "\x7d)")) (sees : Sees o status)
    (closing : o ++ "\x7d)" = o.takeWhile isFlat ++ ('\x7d' : CodePoint) :: r) :
    ∃ e e' d, Cursor.Passes status e e' ∧ d.rest = r ∧
      statedOptions.Leads (c, gs) (d, (3, e, e') :: gs) := by
  obtain ⟨-, u, mention, first⟩ := sees
  have flat : ∀ a ∈ o.takeWhile isFlat, isFlat a = true := fun a ha => List.mem_takeWhile_imp ha
  obtain ⟨c₁, comma, rest₁⟩ := Cursor.exists_passes (w := [(',' : CodePoint)]) rest
  obtain ⟨c₂, blank, rest₂⟩ := Cursor.exists_passes (w := [(' ' : CodePoint)]) rest₁
  rw [closing] at rest₂
  obtain ⟨d, e, e', e'', before, number, whole, atEnd, found⟩ :=
    leads_stated gs flat mention rest₂
  obtain ⟨c₃, opening, between⟩ := before.of_cons
  have flat' : ∀ a ∈ u, isFlat a = true := by
    obtain ⟨s, s', v, eq, -⟩ := mention
    exact fun a ha => flat a (by rw [eq]; exact List.mem_append_left _ ha)
  have earlier : ∀ w e, w <+: u → w ≠ u → Cursor.Passes w c₃ e → stated.Fails (e, gs) := by
    refine fun w e start other passes => fails_of_reads fun y reads => ?_
    obtain ⟨t, r', status', flat'', rest', mention'⟩ := mentions_of_reads_stated
      (opening.trans passes) (fun a ha => flat' a (start.subset ha)) reads
    rw [rest₂, ← closing] at rest'
    obtain ⟨rfl, -⟩ := eq_takeWhile_of_closing flat'' (List.cons.inj rest').2
    exact other (start.eq_of_length_le (first w status' mention'))
  have grouped : groupedOptions.Leads (c, gs) (e'', (3, e, e') :: gs) :=
    (((leads_run_nil (by rw [rest]; rfl)).append (leads_lit comma)).append
      (leads_run (List.all_eq_true.mp rfl) blank (by rw [rest₂]; rfl))).append
      ((leads_one rfl opening).append (leads_shortRun flat' between earlier found))
  refine ⟨e, e', e'', number, atEnd, fun k hit succeeds => ?_⟩
  exact (runAt_groupedOptions c gs k).symm.trans (grouped k hit succeeds)

/-! ### Calls -/

/-- A call of a payload and of options that have a member for an error status, behind and before any
other members. -/
structure Call where
  /-- The payload. -/
  payload : Text
  /-- The payload is a path or an object without inner objects. -/
  isPayload : IsPayload payload
  /-- The text of the options before the status. -/
  before : Text
  /-- The member begins where no word goes on. -/
  edge : ∀ a ∈ before.getLast?, a.isWord = false
  /-- The status. -/
  status : Text
  /-- The status has three digits. -/
  size : status.length = 3
  /-- The digits are those of ASCII. -/
  digits : ∀ a ∈ status, a.isAsciiDigit = true
  /-- The status is not one of success. -/
  refused : status.head? ≠ some ('2' : CodePoint)
  /-- The text of the options behind the status. -/
  after : Text

/-- What is documented of a call with a status and a payload: an answer, if the status is one of
success and the payload is known. -/
def documented (status payload : Text) : Option Response :=
  if status.head? != some ('2' : CodePoint) then none
  else (Catalog.lookup (payloadNames payload)).map fun v => ⟨status, describe status, v, [], []⟩

theorem documented_eq_none_iff {status payload : Text} : documented status payload = none ↔
    status.head? ≠ some ('2' : CodePoint) ∨ Catalog.lookup (payloadNames payload) = none := by
  by_cases success : status.head? = some ('2' : CodePoint) <;> simp [documented, success]

/-- The first call decides unless nothing is documented of it. -/
theorem literal?_of_findAll {m : Match} {more : List Match} (found : call.findAll t = m :: more)
    (chained : m.group? 1 = none) {r : Option Response}
    (first : documented ((m.group? 3).getD "200") (m.group 2) = r) (last : r ≠ none ∨ more = []) :
    literal? t = r := by
  have verdict :
      documented (((m.group? 1).orElse fun _ => m.group? 3).getD "200") (m.group 2) = r := by
    rw [chained]
    exact first
  rw [literal?, found, List.findSome?_cons]
  split
  · next answer decided => exact decided.symm.trans verdict
  · next undecided =>
    have nothing : r = none := verdict.symm.trans undecided
    rw [last.resolve_left (not_not_intro nothing), nothing]
    rfl

theorem IsPayload.exists_eq_cons (payload : IsPayload t) :
    ∃ a r, t = a :: r ∧ a.isBlank = false := by
  cases payload with
  | object inside flat => exact ⟨_, _, rfl, rfl⟩
  | path first more name names =>
      obtain ⟨a, r, rfl, start, -⟩ := name
      refine ⟨a, _, rfl, ?_⟩
      simp only [isIdentifierStart, CodePoint.isAsciiLetter, Text.beq_ofChar, Bool.or_eq_true,
        Bool.and_eq_true, decide_eq_true_eq, beq_iff_eq, Char.reduceToNat] at start
      simp only [CodePoint.isBlank, Bool.or_eq_false_iff, Bool.and_eq_false_iff,
        decide_eq_false_iff_not, beq_eq_false_iff_ne]
      omega

theorem needs_call : call.Needs '(' :=
  (((needs_lit (by decide)).right _).left _).left _ |>.left _

namespace Call

variable (c : Call)

/-- The text of the options. -/
def options : Text := c.before ++ ("status: " ++ (c.status ++ c.after))

/-- The text of the call. -/
def text : Text :=
  "NextResponse" ++ (".json(" ++ (c.payload ++ (", \x7b" ++ (c.options ++ "\x7d)"))))

/-- A call is read up to its options. -/
theorem exists_payload_place : ∃ d e, Cursor.Passes c.payload d e ∧
    e.rest = ", \x7b" ++ (c.options ++ "\x7d)") ∧
    ∀ z, (optional statedOptions).Leads (e, [(2, d, e)]) z → call.Leads (.start c.text, []) z := by
  obtain ⟨c₁, name, rest⟩ := Cursor.exists_passes (c := .start c.text) rfl
  obtain ⟨c₂, method, rest₂⟩ := Cursor.exists_passes rest
  obtain ⟨c₃, payload, rest₃⟩ := Cursor.exists_passes rest₂
  refine ⟨c₂, c₃, payload, rest₃, fun z further => ?_⟩
  have noBlank : c₂.rest.head?.any CodePoint.isBlank = false := by
    obtain ⟨a, r, eq, other⟩ := c.isPayload.exists_eq_cons
    rw [rest₂, eq]
    exact other
  have stop : ∀ a ∈ c₃.rest.head?, isIdentifierPart a = false ∧ a ≠ '.' := by
    rw [rest₃]
    rintro _ ⟨⟩
    exact ⟨rfl, by decide⟩
  exact (((((leads_wordEdge rfl).append ((leads_lit name).alt _)).append (leads_lit method)).append
    (leads_run_nil noBlank)).append
    ((c.isPayload.leads payload stop).group 2)).append further

/-- What is found of a call in which a status is seen. -/
theorem findAll_of_sees {status : Text} (sees : Sees c.options status) :
    ∃ m more, call.findAll c.text = m :: more ∧ m.group? 1 = none ∧ m.group 2 = c.payload ∧
      m.group? 3 = some status ∧ ((∀ a ∈ c.options, isFlat a = true) → more = []) := by
  obtain ⟨d, e, payload, rest, further⟩ := c.exists_payload_place
  obtain ⟨r, closing⟩ := exists_closing sees.1
  obtain ⟨f, f', z, number, rest', leads⟩ :=
    leads_statedOptions [(2, d, e)] rest sees closing
  have found : call.findFrom? [] c.text = some ⟨.start c.text, z, [(3, f, f'), (2, d, e)]⟩ :=
    findFrom?_of_matchAt? (matchAt?_of_leads (further _ (leads.alt _)))
  have shorter : z.rest.length < c.text.length := by
    have size := congrArg List.length closing
    rw [rest', text, List.length_append, List.length_append, List.length_append, List.length_append,
      size]
    simp only [List.length_append, List.length_cons]
    omega
  refine ⟨⟨.start c.text, z, [(3, f, f'), (2, d, e)]⟩, _, findAllFrom_cons found shorter _, rfl,
    payload.textUntil, congrArg some number.textUntil,
    fun flat => needs_call.findAllFrom_eq_nil ?_ _⟩
  rw [show z.rest = r from rest']
  have whole : c.options.takeWhile isFlat = c.options := List.takeWhile_eq_self_iff.mpr flat
  rw [whole] at closing
  rw [← (List.cons.inj (List.append_cancel_left closing)).2]
  decide

/-- What is found of a call in which no status is seen. -/
theorem findAll_of_not_sees (unseen : ∀ status, ¬ Sees c.options status) :
    ∃ m more, call.findAll c.text = m :: more ∧ m.group? 1 = none ∧ m.group 2 = c.payload ∧
      m.group? 3 = none := by
  obtain ⟨d, e, payload, rest, further⟩ := c.exists_payload_place
  have leads : (optional statedOptions).Leads (e, [(2, d, e)]) (e, [(2, d, e)]) :=
    leads_alt_right (fails_statedOptions rest unseen) (leads_empty _)
  have found : call.findFrom? [] c.text = some ⟨.start c.text, e, [(2, d, e)]⟩ :=
    findFrom?_of_matchAt? (matchAt?_of_leads (further _ leads))
  have shorter : e.rest.length < c.text.length := by
    have name : ("NextResponse" : Text).length = 12 := rfl
    rw [rest, text]
    simp only [List.length_append, name]
    omega
  exact ⟨⟨.start c.text, e, [(2, d, e)]⟩, _, findAllFrom_cons found shorter _, rfl,
    payload.textUntil, rfl⟩

/-- The options mention the status that they state. -/
theorem mentions_status : Mentions c.options c.before c.status := by
  refine ⟨[], " ", c.after, rfl, c.edge, List.forall_mem_nil _, List.all_eq_true.mp rfl, c.size,
    fun a ha => ?_⟩
  exact CodePoint.isDigit_of_isAsciiDigit (c.digits a ha)

/-- In options without inner objects the own status is seen, unless one is mentioned before it. -/
theorem sees_status (flat : ∀ a ∈ c.options, isFlat a = true)
    (first : ∀ u status, Mentions c.options u status → c.before.length ≤ u.length) :
    Sees c.options c.status := by
  have whole : c.options.takeWhile isFlat = c.options := List.takeWhile_eq_self_iff.mpr flat
  have nothing : c.options.dropWhile isFlat = [] := List.dropWhile_eq_nil_iff.mpr flat
  refine ⟨by simp [nothing], c.before, ?_, ?_⟩
  · rw [whole]
    exact c.mentions_status
  · rw [whole]
    exact first

/-- A call that is the only one of its source is left out if its payload is not known or if the
status that is seen is not one of success. -/
theorem literal?_eq_none_iff (single : (call.findAll c.text).length = 1) :
    literal? c.text = none ↔ Catalog.lookup (payloadNames c.payload) = none ∨
      ∃ status, Sees c.options status ∧ status.head? ≠ some ('2' : CodePoint) := by
  have alone {m : Match} {more : List Match} (found : call.findAll c.text = m :: more) :
      more = [] := by
    rw [found, List.length_cons] at single
    exact List.eq_nil_of_length_eq_zero (Nat.succ.inj single)
  by_cases seen : ∃ status, Sees c.options status
  · obtain ⟨status, sees⟩ := seen
    obtain ⟨m, more, found, chained, payload, same, -⟩ := c.findAll_of_sees sees
    have one : ∀ status', Sees c.options status' → status' = status := by
      intro status' sees'
      obtain ⟨m', more', found', -, -, same', -⟩ := c.findAll_of_sees sees'
      obtain rfl : m' = m := (List.cons.inj (found'.symm.trans found)).1
      exact Option.some.inj (same'.symm.trans same)
    rw [literal?_of_findAll found chained rfl (.inr (alone found)), documented_eq_none_iff, same,
      payload, Option.getD_some, or_comm]
    refine or_congr_right ⟨fun refused => ⟨status, sees, refused⟩, ?_⟩
    rintro ⟨status', sees', refused⟩
    rwa [one status' sees'] at refused
  · have unseen : ∀ status, ¬ Sees c.options status := not_exists.mp seen
    obtain ⟨m, more, found, chained, payload, nothing⟩ := c.findAll_of_not_sees unseen
    have usual : ((none : Option Text).getD "200").head? = some ('2' : CodePoint) := rfl
    rw [literal?_of_findAll found chained rfl (.inr (alone found)), documented_eq_none_iff, nothing,
      payload]
    refine ⟨fun h => .inl (h.resolve_left (not_not_intro usual)), fun h => .inr ?_⟩
    rcases h with unknown | ⟨status, sees, -⟩
    · exact unknown
    · exact absurd sees (unseen status)

/-- **When a call that states an error is documented as a success.** It is not if its options have
no inner objects and no status is mentioned before its own. If no status is seen in its options, it
is documented with the usual status of success, whatever it states. So a call that is the only one
of its source is left out only if its payload is not known or if the status that is seen is not one
of success. -/
theorem literal?_text :
    ((∀ a ∈ c.options, isFlat a = true) →
        (∀ u status, Mentions c.options u status → c.before.length ≤ u.length) →
        literal? c.text = none) ∧
      ((∀ status, ¬ Sees c.options status) →
        ∀ v, Catalog.lookup (payloadNames c.payload) = some v →
          literal? c.text = some ⟨"200", "Success", v, [], []⟩) ∧
      ((call.findAll c.text).length = 1 →
        (literal? c.text = none ↔ Catalog.lookup (payloadNames c.payload) = none ∨
          ∃ status, Sees c.options status ∧ status.head? ≠ some ('2' : CodePoint))) := by
  refine ⟨fun flat first => ?_, fun unseen v known => ?_, c.literal?_eq_none_iff⟩
  · obtain ⟨m, more, found, chained, payload, status, last⟩ :=
      c.findAll_of_sees (c.sees_status flat first)
    refine literal?_of_findAll found chained ?_ (.inr (last flat))
    rw [status]
    exact documented_eq_none_iff.mpr (.inl c.refused)
  · obtain ⟨m, more, found, chained, payload, status⟩ := c.findAll_of_not_sees unseen
    refine literal?_of_findAll found chained ?_ (.inl (by simp))
    have usual : (("200" : Text).head? != some ('2' : CodePoint)) = false := rfl
    rw [status, payload, documented, Option.getD_none, usual, known]
    rfl

/-- A call with a list of users that states only the status of a missing page. -/
def ofUsers : Call where
  payload := "users"
  isPayload := .path "users" [] ⟨_, _, rfl, rfl, List.all_eq_true.mp rfl⟩
    (List.forall_mem_nil _)
  before := []
  edge := by simp
  status := "404"
  size := rfl
  digits := List.all_eq_true.mp rfl
  refused := by decide
  after := []

/-- A call that gives headers before it states that a page is missing. -/
def withHeaders : Call where
  payload := "\x7b user \x7d"
  isPayload := .object " user " (List.all_eq_true.mp rfl)
  before := " headers: \x7b a: 'b' \x7d, "
  edge := by
    rintro _ ⟨⟩
    rfl
  status := "404"
  size := rfl
  digits := List.all_eq_true.mp rfl
  refused := by decide
  after := " "

theorem literal?_text_users :
    (ofUsers.text = "NextResponse.json(users, \x7bstatus: 404\x7d)" ∧
        literal? ofUsers.text = none) ∧
      literal? withHeaders.text =
        some ⟨"200", "Success", .obj [("user", Catalog.user)], [], []⟩ ∧
      ∃ status, Sees ofUsers.options status ∧ status.head? ≠ some ('2' : CodePoint) := by
  have left : literal? ofUsers.text = none :=
    ofUsers.literal?_text.1 (List.all_eq_true.mp rfl) fun _ _ _ => Nat.zero_le _
  have unseen : ∀ status, ¬ Sees withHeaders.options status := fun status sees =>
    absurd (sees.1 '\x7b' rfl) (by decide)
  refine ⟨⟨rfl, left⟩, withHeaders.literal?_text.2.1 unseen _ rfl, ?_⟩
  have known : Catalog.lookup (payloadNames ofUsers.payload) ≠ none := by decide +kernel
  exact ((ofUsers.literal?_text.2.2 (by decide +kernel)).mp left).resolve_left known

/-- **An error that is documented as a success**: the headers hide the status. -/
theorem literal?_withHeaders :
    withHeaders.text = "NextResponse.json(\x7b user \x7d, " ++
        "\x7b headers: \x7b a: 'b' \x7d, status: 404 \x7d)" ∧
      (literal? withHeaders.text).map (·.statusCode) = some "200" := by
  decide +kernel

end Call

end Response

end RouteDocs
