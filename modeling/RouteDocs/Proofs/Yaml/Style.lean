import RouteDocs.Proofs.Yaml.Block

/-!
# Texts in Their Plainest Style

Every printed text is cut as one scalar, unless a line of it is folded where the indentation is wider
than a line.

## Main Definitions

* `Yaml.Steady`: the texts that are cut as one scalar up to an indentation
* `Yaml.onOneLine`: a text on one line in its plainest style

## Main Statements

* `Yaml.Cutting.isSpelling_scalarText`: **a printed text is cut as one scalar**
* `Yaml.mem_scalarText`: the code points of a printed text
* `Yaml.scalarText_eq_onOneLine`: where no line is folded, a text looks the same everywhere
* `Yaml.length_onOneLine_le`: how long it gets
-/

namespace RouteDocs

namespace Yaml

variable {t r : Text} {x : CodePoint} {fold : Bool} {indent column limit : Nat}

/-! ### Styles -/

theorem style_eq_plain (h : style t = .plain) : allowsPlain t = true := by
  by_contra no
  rw [style, if_neg no] at h
  split at h <;> cases h

theorem style_eq_singleQuoted (h : style t = .singleQuoted) : allowsSingleQuotes t = true := by
  by_contra no
  rw [style, if_neg no] at h
  split at h <;> cases h

/-- What can be between single quotation marks is printable, and no space touches a line end. -/
theorem allowsSingleQuotes_iff : allowsSingleQuotes t = true ↔ (∀ x ∈ t, isPrintable x = true) ∧
    hasNeighbours isSpace isBreak t = false ∧ hasNeighbours isBreak isSpace t = false := by
  simp [allowsSingleQuotes, and_assoc]

/-- A text that can stand without quotation marks stands for itself. -/
theorem isPlain_of_allowsPlain (h : allowsPlain t = true) : Plain.IsPlain t := by
  simp only [allowsPlain, Bool.and_eq_true, Bool.not_eq_true', beq_iff_eq] at h
  obtain ⟨⟨⟨⟨quotes, inLine⟩, outer⟩, indicators⟩, kind⟩ := h
  simp only [hasOuterSpace, Bool.or_eq_false_iff] at outer
  refine ⟨?_, (allowsSingleQuotes_iff.mp quotes).1, fun x hx => ?_, fun head => ?_, fun last => ?_,
    indicators⟩
  · rintro rfl
    cases kind
  · exact Bool.eq_false_iff.mpr fun breaks =>
      absurd (List.any_eq_true.mpr ⟨x, hx, breaks⟩) (by simp [inLine])
  · rw [head] at outer
    cases outer.1
  · rw [last] at outer
    cases outer.2

/-- The texts that are cut as one scalar with lines folded up to an indentation: with a wider one
than a line no escape may precede a space. -/
def Steady (limit : Nat) (t : Text) : Prop :=
  limit < width ∨ hasNeighbours isEscaped isSpace t = false

namespace Cutting

/-- **A printed text is cut as one scalar.** -/
theorem isSpelling_scalarText (pos : 0 < indent) (steady : fold = true → Steady indent t) :
    IsSpelling indent (scalarText fold indent column t) (style t == .plain) (readBack t) := by
  obtain ⟨n, rfl⟩ := Nat.exists_eq_add_of_le' pos
  cases style_t : style t with
  | plain =>
      have same : readBack t = t := readBack_eq_self_iff.mpr (by simp [style_t])
      rw [scalarText, style_t, same]
      exact isSpelling_plain (isPlain_of_allowsPlain (style_eq_plain style_t)) pos
  | singleQuoted =>
      obtain ⟨printable, spaces, breaks⟩ :=
        allowsSingleQuotes_iff.mp (style_eq_singleQuoted style_t)
      have read : readBack t = Quoted.readAfter (.spaces 0) t := if_pos style_t
      rw [scalarText, style_t, read]
      have nothing : Quoted.IsPending (.spaces 0) t := nofun
      exact isSpelling_quoted (Quoted.spells_singleQuotedFrom printable spaces breaks nothing) _
  | doubleQuoted =>
      have same : readBack t = t := readBack_eq_self_iff.mpr (by simp [style_t])
      rw [scalarText, style_t, same]
      exact isSpelling_quoted (Quoted.written_doubleQuotedFrom steady).1.spells _

/-- **A printed text begins a line**, whatever the indentation. -/
theorem startsLine_scalarText (next : ∀ y ∈ r.head?, y ≠ ('-' : CodePoint) ∧ y ≠ ('.' : CodePoint))
    (i : Nat) : StartsLine i (scalarText fold indent column t ++ r) := by
  have starts : ∀ {x u}, isLeadingIndicator x = false ∧ isGap x = false ∨
      x = Quoted.mark false ∨ x = Quoted.mark true → isDocumentMark (x :: u) = false →
        StartsLine i (x :: u) := by
    intro x u first mark
    refine .of_token ?_ mark i
    rcases first with ⟨lead, gap⟩ | rfl | rfl
    · exact startsToken lead gap
    · rintro y ⟨⟩
      decide
    · rintro y ⟨⟩
      decide
  rw [scalarText]
  split
  · next plain =>
    obtain ⟨x, u, eq, lead, gap, mark, -⟩ := plain_start fold indent column
      (isPlain_of_allowsPlain (style_eq_plain plain)) next
    rw [eq]
    exact starts (.inl ⟨lead, gap⟩) mark
  · exact starts (.inr (.inl rfl)) (isDocumentMark_eq_false (by decide))
  · exact starts (.inr (.inr rfl)) (isDocumentMark_eq_false (by decide))

end Cutting

/-! ### Code Points -/

/-- The code points of a text that is printed from another one: those of line ends, which are in it
where lines are folded or the text has some, visible ones, and printable ones of the text. -/
def IsPrintedOf (fold : Bool) (t : Text) (x : CodePoint) : Prop :=
  x = ('\n' : CodePoint) ∧ (fold = true ∨ t.any isBreak = true) ∨ Quoted.isVisible x = true ∨
    x ∈ t ∧ isPrintable x = true

theorem IsPrintedOf.cons {c : CodePoint} (h : IsPrintedOf fold t x) : IsPrintedOf fold (c :: t) x := by
  rcases h with ⟨line, folds⟩ | visible | ⟨mem, printable⟩
  · refine .inl ⟨line, folds.imp_right fun breaks => ?_⟩
    rw [List.any_cons, breaks, Bool.or_true]
  · exact .inr (.inl visible)
  · exact .inr (.inr ⟨List.mem_cons_of_mem _ mem, printable⟩)

theorem isPrintedOf_space (h : x ∈ spaces indent) : IsPrintedOf fold t x := by
  rw [eq_space_of_mem_spaces h]
  exact .inr (.inl rfl)

theorem isPrintedOf_newLine (folds : fold = true) (h : x ∈ newLine indent) : IsPrintedOf fold t x := by
  rcases List.mem_cons.mp h with rfl | h
  · exact .inl ⟨rfl, .inl folds⟩
  · exact isPrintedOf_space h

theorem mem_plainFrom {n : Nat} (printable : ∀ y ∈ t, isPrintable y = true)
    (h : x ∈ plainFrom fold indent column n t) : IsPrintedOf fold t x := by
  induction t generalizing column n with
  | nil => exact isPrintedOf_space h
  | cons c r ih =>
      obtain ⟨first, others⟩ := List.forall_mem_cons.mp printable
      have here : x ∈ c :: plainFrom fold indent (indent + 1) 0 r ∨
          x ∈ c :: plainFrom fold indent (column + n + 1) 0 r → IsPrintedOf fold (c :: r) x := by
        intro h
        simp only [List.mem_cons] at h
        rcases h with (rfl | h) | (rfl | h)
        · exact .inr (.inr ⟨List.mem_cons_self, first⟩)
        · exact (ih others h).cons
        · exact .inr (.inr ⟨List.mem_cons_self, first⟩)
        · exact (ih others h).cons
      rw [plainFrom] at h
      split at h
      · exact (ih others h).cons
      · split at h
        · next folded =>
          simp only [Bool.and_eq_true] at folded
          rcases List.mem_append.mp h with h | h
          · exact isPrintedOf_newLine folded.1.1 h
          · exact here (.inl h)
        · rcases List.mem_append.mp h with h | h
          · exact isPrintedOf_space h
          · exact here (.inr h)

/-- The line ends that are pending come from a text. -/
def Pending.ComesFrom (t : Text) : Pending → Prop
  | .spaces _ => True
  | .breaks b => ∀ y ∈ b, y ∈ t

theorem Pending.comesFrom_spaces (n : Nat) : (Pending.spaces n).ComesFrom t := trivial

/-- Line ends are written as they are in the text. -/
theorem isPrintedOf_writtenBreaks {b : Text} (printable : ∀ y ∈ t, isPrintable y = true)
    (comes : (Pending.breaks b).ComesFrom t) (h : x ∈ writtenBreaks b.reverse) :
    IsPrintedOf fold t x := by
  have lineEnd {y : CodePoint} (hy : y ∈ b.reverse) : IsPrintedOf fold t y :=
    have mem := comes y (List.mem_reverse.mp hy)
    .inr (.inr ⟨mem, printable y mem⟩)
  unfold writtenBreaks at h
  split at h
  · next line =>
    rcases List.mem_cons.mp h with rfl | h
    · exact lineEnd (List.mem_of_mem_head? (eq_of_beq line))
    · exact lineEnd h
  · exact lineEnd h

theorem mem_of_mem_quoted {c : CodePoint} {u v : Text}
    (h : x ∈ (if c.val == 0x27 then c :: c :: u else c :: v)) : x = c ∨ x ∈ u ∨ x ∈ v := by
  split at h
  · simp only [List.mem_cons] at h
    rcases h with same | same | mem
    · exact .inl same
    · exact .inl same
    · exact .inr (.inl mem)
  · exact (List.mem_cons.mp h).imp_right .inr

theorem mem_singleQuotedFrom {begun : Bool} {pending : Pending} {whole : Text}
    (printable : ∀ y ∈ whole, isPrintable y = true) (part : ∀ y ∈ t, y ∈ whole)
    (comes : pending.ComesFrom whole)
    (h : x ∈ singleQuotedFrom fold indent column begun pending t) : IsPrintedOf fold whole x := by
  induction t generalizing column begun pending with
  | nil =>
      cases pending with
      | spaces n => exact isPrintedOf_space h
      | breaks b =>
          rcases List.mem_append.mp h with h | h
          · exact isPrintedOf_writtenBreaks printable comes h
          · exact isPrintedOf_space h
  | cons c r ih =>
      obtain ⟨first, others⟩ := List.forall_mem_cons.mp part
      have self : IsPrintedOf fold whole c := .inr (.inr ⟨first, printable c first⟩)
      have quoted {column column' : Nat}
          (h : x ∈ (if c.val == 0x27 then
              c :: c :: singleQuotedFrom fold indent column true (.spaces 0) r
            else c :: singleQuotedFrom fold indent column' true (.spaces 0) r)) :
          IsPrintedOf fold whole x := by
        rcases mem_of_mem_quoted h with rfl | h | h
        · exact self
        · exact ih others (Pending.comesFrom_spaces _) h
        · exact ih others (Pending.comesFrom_spaces _) h
      cases pending with
      | spaces n =>
          rw [singleQuotedFrom] at h
          split at h
          · exact ih others (Pending.comesFrom_spaces _) h
          · dsimp only at h
            rcases List.mem_append.mp h with h | h
            · split at h
              · next folded =>
                simp only [Bool.and_eq_true] at folded
                exact isPrintedOf_newLine folded.1.1.1 h
              · exact isPrintedOf_space h
            · split at h
              · have breaks : (Pending.breaks [c]).ComesFrom whole :=
                  List.forall_mem_singleton.mpr first
                exact ih others breaks h
              · exact quoted h
      | breaks b =>
          rw [singleQuotedFrom] at h
          split at h
          · have breaks : (Pending.breaks (c :: b)).ComesFrom whole :=
              List.forall_mem_cons.mpr ⟨first, comes⟩
            exact ih others breaks h
          · rcases List.mem_append.mp h with h | h
            · rcases List.mem_append.mp h with h | h
              · exact isPrintedOf_writtenBreaks printable comes h
              · exact isPrintedOf_space h
            · split at h
              · exact ih others (Pending.comesFrom_spaces _) h
              · exact quoted h

theorem exists_of_mem_toDigits {d : Char} {m : Nat} (h : d ∈ Nat.toDigits 16 m) :
    ∃ n < 16, d = Nat.digitChar n := by
  induction m using Nat.strongRecOn with
  | ind m ih =>
      rw [Nat.toDigits_eq_if (by decide)] at h
      split at h
      · next small => exact ⟨m, small, List.mem_singleton.mp h⟩
      · rcases List.mem_append.mp h with h | h
        · exact ih (m / 16) (by omega) h
        · exact ⟨m % 16, Nat.mod_lt _ (by decide), List.mem_singleton.mp h⟩

theorem isVisible_upperHex (digits m : Nat) :
    ∀ y ∈ upperHex digits m, Quoted.isVisible y = true := by
  have upper : ∀ n < 16, Quoted.isVisible ((fun c : CodePoint =>
      if 0x61 ≤ c.val ∧ c.val ≤ 0x66 then CodePoint.ofNat (c.val - 32) else c)
        (Nat.digitChar n)) = true := by decide
  intro y hy
  obtain ⟨c, hc, rfl⟩ := List.mem_map.mp hy
  rw [Text.ofHex] at hc
  rcases List.mem_append.mp hc with hc | hc
  · rw [List.eq_of_mem_replicate hc]
    rfl
  · obtain ⟨d, hd, rfl⟩ := List.mem_map.mp hc
    obtain ⟨n, small, rfl⟩ := exists_of_mem_toDigits hd
    exact upper n small

theorem isVisible_escape (c : CodePoint) : ∀ y ∈ escape c, Quoted.isVisible y = true := by
  have mark : Quoted.isVisible '\\' = true := rfl
  unfold escape
  split
  · next letter known =>
    refine List.forall_mem_cons.mpr ⟨mark, List.forall_mem_singleton.mpr ?_⟩
    unfold escapeLetter? at known
    split at known <;> first | (cases known; done) | (obtain rfl := Option.some.inj known; rfl)
  · split
    · exact List.forall_mem_cons.mpr ⟨mark, List.forall_mem_cons.mpr ⟨rfl, isVisible_upperHex 2 _⟩⟩
    · split
      · exact List.forall_mem_cons.mpr
          ⟨mark, List.forall_mem_cons.mpr ⟨rfl, isVisible_upperHex 4 _⟩⟩
      · exact List.forall_mem_cons.mpr
          ⟨mark, List.forall_mem_cons.mpr ⟨rfl, isVisible_upperHex 8 _⟩⟩

theorem isPrintable_of_not_isEscaped (h : isEscaped x = false) : isPrintable x = true := by
  simp only [isEscaped, Bool.or_eq_false_iff, beq_eq_false_iff_ne, Bool.not_eq_false',
    Bool.or_eq_true, Bool.and_eq_true, decide_eq_true_eq] at h
  simp only [isPrintable, Bool.or_eq_true, Bool.and_eq_true, decide_eq_true_eq, beq_iff_eq,
    bne_iff_ne]
  omega

theorem mem_doubleQuotedFrom {begun afterEscape : Bool}
    (h : x ∈ doubleQuotedFrom fold indent column begun afterEscape t) : IsPrintedOf fold t x := by
  have line {next : Text} (folds : fold = true) (h : x ∈ (foldedLine indent next).1) {t : Text} :
      IsPrintedOf fold t x := by
    have mark : IsPrintedOf fold t '\\' := .inr (.inl rfl)
    unfold foldedLine at h
    split at h
    · rcases List.mem_append.mp h with h | h
      · rcases List.mem_cons.mp h with rfl | h
        · exact mark
        · exact isPrintedOf_newLine folds h
      · rw [List.mem_singleton.mp h]
        exact mark
    · rcases List.mem_cons.mp h with rfl | h
      · exact mark
      · exact isPrintedOf_newLine folds h
  induction t generalizing column begun afterEscape with
  | nil => cases h
  | cons c r ih =>
      rw [doubleQuotedFrom] at h
      dsimp only at h
      split at h
      · rcases List.mem_append.mp h with h | h
        · rcases List.mem_append.mp h with h | h
          · exact .inr (.inl (isVisible_escape c x h))
          · split at h
            · next folded =>
              simp only [Bool.and_eq_true] at folded
              exact line folded.1.1.1 h
            · cases h
        · exact (ih h).cons
      · next plain =>
        rcases List.mem_append.mp h with h | h
        · split at h
          · next folded =>
            simp only [Bool.and_eq_true] at folded
            exact line folded.1.1.1.1 h
          · cases h
        · rcases List.mem_cons.mp h with rfl | h
          · exact .inr (.inr ⟨List.mem_cons_self,
              isPrintable_of_not_isEscaped (by simpa using plain)⟩)
          · exact (ih h).cons

/-- **The code points of a printed text.** -/
theorem mem_scalarText (h : x ∈ scalarText fold indent column t) : IsPrintedOf fold t x := by
  have quoted {mark : CodePoint} {raw : Text} (visible : Quoted.isVisible mark = true)
      (within : x ∈ raw → IsPrintedOf fold t x) (h : x ∈ Text.between mark raw) :
      IsPrintedOf fold t x := by
    rcases List.mem_append.mp h with h | h
    · rcases List.mem_cons.mp h with rfl | h
      · exact .inr (.inl visible)
      · exact within h
    · rw [List.mem_singleton.mp h]
      exact .inr (.inl visible)
  rw [scalarText] at h
  split at h
  · next plain =>
    exact mem_plainFrom (isPlain_of_allowsPlain (style_eq_plain plain)).printable h
  · next single =>
    exact quoted rfl (mem_singleQuotedFrom
      (allowsSingleQuotes_iff.mp (style_eq_singleQuoted single)).1 (fun _ => id)
      (Pending.comesFrom_spaces 0)) h
  · exact quoted rfl mem_doubleQuotedFrom h

/-! ### Texts on One Line -/

/-- A text on one line in its plainest style. -/
def onOneLine (t : Text) : Text :=
  match style t with
  | .plain => t
  | .singleQuoted => Text.between '\'' (t.flatMap fun c => if c.val == 0x27 then [c, c] else [c])
  | .doubleQuoted => Text.between '"' (t.flatMap fun c => if isEscaped c then escape c else [c])

theorem plainFrom_unfolded (n : Nat) : plainFrom false indent column n t = spaces n ++ t := by
  induction t generalizing column n with
  | nil => rw [plainFrom, List.append_nil]
  | cons c r ih =>
      rw [plainFrom]
      split
      · next space => rw [ih, eq_of_beq space, Quoted.spaces_append_space]
      · rw [if_neg (by simp), ih]
        rfl

theorem singleQuotedFrom_unfolded {begun : Bool} (inLine : ∀ y ∈ t, isBreak y = false) (n : Nat) :
    singleQuotedFrom false indent column begun (.spaces n) t =
      spaces n ++ t.flatMap fun c => if c.val == 0x27 then [c, c] else [c] := by
  induction t generalizing column begun n with
  | nil => rw [singleQuotedFrom, List.flatMap_nil, List.append_nil]
  | cons c r ih =>
      obtain ⟨first, others⟩ := List.forall_mem_cons.mp inLine
      rw [singleQuotedFrom, List.flatMap_cons]
      split
      · next space =>
        rw [ih others, eq_of_beq space, if_neg (by decide), List.singleton_append,
          Quoted.spaces_append_space]
      · dsimp only
        rw [if_neg (by simp), if_neg (by simp [first])]
        split <;> rw [ih others] <;> rfl

theorem doubleQuotedFrom_unfolded {begun afterEscape : Bool} :
    doubleQuotedFrom false indent column begun afterEscape t =
      t.flatMap fun c => if isEscaped c then escape c else [c] := by
  induction t generalizing column begun afterEscape with
  | nil => rfl
  | cons c r ih =>
      rw [doubleQuotedFrom, List.flatMap_cons]
      dsimp only
      split
      · rw [if_neg (by simp), ih, List.append_nil]
      · rw [if_neg (by simp), ih]
        rfl

/-- **Where no line is folded, a text looks the same everywhere.** -/
theorem scalarText_eq_onOneLine (inLine : t.any isBreak = false) :
    scalarText false indent column t = onOneLine t := by
  have inLine : ∀ y ∈ t, isBreak y = false := by simpa using inLine
  unfold scalarText onOneLine
  cases style t with
  | plain => exact plainFrom_unfolded 0
  | singleQuoted => exact congrArg (Text.between '\'') (singleQuotedFrom_unfolded inLine 0)
  | doubleQuoted => exact congrArg (Text.between '"') doubleQuotedFrom_unfolded

theorem length_flatMap_le {f : CodePoint → Text} {m : Nat} (each : ∀ c, (f c).length ≤ m) (t : Text) :
    (t.flatMap f).length ≤ m * t.length := by
  induction t with
  | nil => exact Nat.zero_le _
  | cons c r ih =>
      have first := each c
      rw [List.flatMap_cons, List.length_append, List.length_cons, Nat.mul_succ]
      omega

theorem length_escape_le (c : CodePoint) : (escape c).length ≤ 10 := by
  have bound := c.isLt
  unfold escape
  split
  · simp
  · split
    · rw [List.length_cons, List.length_cons, Quoted.length_upperHex (by decide) (by omega)]
      decide
    · split
      · rw [List.length_cons, List.length_cons, Quoted.length_upperHex (by decide) (by omega)]
        decide
      · rw [List.length_cons, List.length_cons, Quoted.length_upperHex (by decide) (by omega)]

/-- **A text on one line** has ten code points for each of its own at most, and two more. -/
theorem length_onOneLine_le (t : Text) : (onOneLine t).length ≤ 10 * t.length + 2 := by
  have between (mark : CodePoint) (raw : Text) : (Text.between mark raw).length = raw.length + 2 := by
    simp [Text.between]
  unfold onOneLine
  split
  · omega
  · have each (c : CodePoint) : (if c.val == 0x27 then [c, c] else [c]).length ≤ 2 := by
      split <;> simp
    have doubled := length_flatMap_le each t
    rw [between]
    omega
  · have each (c : CodePoint) : (if isEscaped c then escape c else [c]).length ≤ 10 := by
      split
      · exact length_escape_le c
      · simp
    have escaped := length_flatMap_le each t
    rw [between]
    omega

end Yaml

end RouteDocs
