import RouteDocs.Proofs.Handler.Written

/-!
# The Nearest Comment

Which comment belongs to a place of a file is said by the text alone: its marks are the last ones
before the place, and between it and the place stand blanks and line comments only.  A comment that
is written in front of a place in this way is found unless a line comment holds a closing mark.

## Main Definitions

* `DocComment.Gap`: blanks and line comments, as they are written

## Main Statements

* `DocComment.isGap_iff`: the gaps that are read are the ones that are written
* `DocComment.before?_eq_some_iff_nearest`: **a comment is never taken from elsewhere**
* `DocComment.before?_append_eq_some_iff`: **an attached comment is found** exactly if no closing
  mark stands in its gap
* `DocComment.missed_behind_glob`: a pattern of files in a line comment hides the comment

## Design Notes

A gap is read in three states, one code point at a time.  What has been read in a state is a text of
its own, so that one induction on what follows covers all three.
-/

namespace RouteDocs

namespace DocComment

open Text

variable {content before body gap rest l g t : Text} {offset : Nat} {d : DocComment}

/-! ### Gaps -/

/-- **Blanks and line comments.**  A line comment ends with its line or with the text. -/
inductive Gap : Text → Prop
  /-- Nothing. -/
  | nil : Gap []
  /-- A blank. -/
  | blank {c : CodePoint} {g : Text} (isBlank : c.isBlank = true) (more : Gap g) : Gap (c :: g)
  /-- A line comment, whatever stands in it. -/
  | comment {l g : Text} (single : ('\n' : CodePoint) ∉ l) (more : Gap g) :
      Gap ("//" ++ l ++ "\n" ++ g)
  /-- A line comment that the text ends in. -/
  | last {l : Text} (single : ('\n' : CodePoint) ∉ l) : Gap ("//" ++ l)

theorem isGapFrom_comment_cons {c : CodePoint} (other : c ≠ ('\n' : CodePoint)) (t : Text) :
    isGapFrom .comment (c :: t) = isGapFrom .comment t := by
  rw [isGapFrom, beq_false_of_ne other]
  rfl

/-- A line comment goes on up to the end of its line. -/
theorem isGapFrom_comment_append (single : ('\n' : CodePoint) ∉ l) (g : Text) :
    isGapFrom .comment (l ++ ('\n' : CodePoint) :: g) = isGap g := by
  induction l with
  | nil => rfl
  | cons c l ih =>
      obtain ⟨other, more⟩ := List.ne_and_not_mem_of_not_mem_cons single
      rw [List.cons_append, isGapFrom_comment_cons other.symm]
      exact ih more

theorem isGapFrom_comment_of_single (single : ('\n' : CodePoint) ∉ l) :
    isGapFrom .comment l = true := by
  induction l with
  | nil => rfl
  | cons c l ih =>
      obtain ⟨other, more⟩ := List.ne_and_not_mem_of_not_mem_cons single
      rw [isGapFrom_comment_cons other.symm]
      exact ih more

/-- Two slashes begin a line comment. -/
theorem isGap_slashes (r : Text) : isGap ("//" ++ r) = isGapFrom .comment r := rfl

theorem Gap.isGap (h : Gap t) : isGap t = true := by
  induction h with
  | nil => rfl
  | blank isBlank more ih => exact (if_pos isBlank).trans ih
  | comment single more ih =>
      rw [List.append_assoc, List.append_assoc, isGap_slashes]
      exact (isGapFrom_comment_append single _).trans ih
  | last single => exact isGapFrom_comment_of_single single

/-- What is read as a gap is written as one: its first line comment ends with its line or with the
text, and what follows is shorter. -/
theorem gap_of_isGap (t : Text) (read : isGap t = true) : Gap t := by
  induction size : t.length using Nat.strong_induction_on generalizing t with
  | _ n ih =>
      cases t with
      | nil => exact .nil
      | cons c r =>
          rw [DocComment.isGap, isGapFrom] at read
          split_ifs at read with isBlank slash
          · exact .blank isBlank (ih r.length (by rw [← size]; exact Nat.lt_succ_self _) r read rfl)
          · obtain rfl : c = '/' := beq_iff_eq.mp slash
            cases r with
            | nil => cases read
            | cons c' r =>
                obtain ⟨slash', inside⟩ := Bool.and_eq_true_iff.mp read
                obtain rfl : c' = '/' := beq_iff_eq.mp slash'
                by_cases ends : ('\n' : CodePoint) ∈ r
                · obtain ⟨l, g, rfl, single⟩ := List.eq_append_cons_of_mem ends
                  rw [isGapFrom_comment_append single] at inside
                  have shorter : g.length < n := by
                    rw [← size]
                    simp only [List.length_cons, List.length_append]
                    omega
                  have written := Gap.comment single (ih g.length shorter g inside rfl)
                  rwa [List.append_assoc, List.append_assoc] at written
                · exact .last ends

/-- **The gaps that are read are the ones that are written.** -/
theorem isGap_iff : isGap t = true ↔ Gap t :=
  ⟨gap_of_isGap t, Gap.isGap⟩

/-! ### The Comment Found -/

/-- What lies between two places, cut behind three code points and before the last two. -/
theorem drop_take_eq_marked {start closing : Nat} (apart : start + 3 ≤ closing) :
    (content.take (closing + 2)).drop start = (content.drop start).take 3 ++
      ((content.take closing).drop (start + 3) ++ (content.drop closing).take 2) := by
  obtain ⟨n, rfl⟩ := Nat.exists_eq_add_of_le apart
  have whole : start + 3 + n + 2 - start = 3 + (n + 2) := by omega
  rw [List.drop_take, List.drop_take, whole, Nat.add_sub_cancel_left, List.take_add, List.take_add,
    List.drop_drop, List.drop_drop]

/-- The marks of a comment and its body make up its text. -/
theorem text_eq_iff (stop : d.stop = d.closing + 2) (apart : d.start + 3 ≤ d.closing)
    (inside : d.stop ≤ content.length) :
    (content.take d.stop).drop d.start = "/**" ++ d.body ++ "*/" ↔
      StandsAt "/**" content d.start ∧ d.body = (content.take d.closing).drop (d.start + 3) ∧
        StandsAt "*/" content d.closing := by
  rw [stop, drop_take_eq_marked apart, List.append_assoc, standsAt_iff_take, standsAt_iff_take]
  have first : ((content.drop d.start).take 3).length = ("/**" : Text).length := by
    change _ = 3
    rw [List.length_take, List.length_drop]
    omega
  have last : ((content.drop d.closing).take 2).length = ("*/" : Text).length := by
    change _ = 2
    rw [List.length_take, List.length_drop]
    omega
  constructor
  · intro eq
    obtain ⟨opens, eq⟩ := List.append_inj eq first
    obtain ⟨body, closes⟩ := List.append_inj' eq last
    exact ⟨opens, body.symm, closes⟩
  · rintro ⟨opens, body, closes⟩
    rw [body]
    exact congrArg₂ _ opens (congrArg _ closes)

/-- **A comment is never taken from elsewhere.**  The comment that is found for a place ends before
it and is its marks with a body in between that holds no closing mark; no other opening mark stands
in it, no other closing mark between its end and the place, and from its end to the place there are
blanks and line comments only.  And such a comment is found. -/
theorem before?_eq_some_iff_nearest (inside : offset ≤ content.length) :
    before? content offset = some d ↔
      d.stop ≤ offset ∧ (content.take d.stop).drop d.start = "/**" ++ d.body ++ "*/" ∧
        ¬("*/" : Text) <:+: d.body ∧
        (∀ p, d.start < p → p + 3 ≤ d.stop - 2 → ¬StandsAt "/**" content p) ∧
        (∀ p, d.stop - 1 ≤ p → p + 2 ≤ offset → ¬StandsAt "*/" content p) ∧
        Gap ((content.take offset).drop d.stop) := by
  have mark : ("*/" : Text) ≠ [] := by decide
  rw [before?_eq_some_iff]
  constructor
  · intro attached
    have stop := attached.stop_eq_add
    have le := attached.stop_le
    refine ⟨le, ?_, ?_, attached.last_opening, fun p late fits => ?_, isGap_iff.mp attached.gap⟩
    · rw [text_eq_iff stop attached.start_add_le (le.trans inside)]
      exact ⟨attached.opens, attached.body_eq, attached.closes⟩
    · rw [attached.body_eq, within_drop_take_iff mark]
      rintro ⟨k, after, fits, stands⟩
      exact attached.first_closing k after fits stands
    · exact attached.last_closing p (by omega) fits
  · rintro ⟨le, text, closed, opened, last, gap⟩
    have size : d.stop - d.start = 3 + d.body.length + 2 := by
      have lengths := congrArg List.length text
      rw [List.length_drop, List.length_take, Nat.min_eq_left (le.trans inside),
        List.length_append, List.length_append] at lengths
      exact lengths
    have stop : d.stop = d.closing + 2 := by
      rw [closing]
      omega
    have apart : d.start + 3 ≤ d.closing := by omega
    obtain ⟨opens, body, closes⟩ := (text_eq_iff stop apart (le.trans inside)).mp text
    refine ⟨opens, closes, apart, stop, le, opened, fun k after fits stands => ?_,
      fun k late fits => last k (by omega) fits, isGap_iff.mpr gap, body⟩
    rw [body, within_drop_take_iff mark] at closed
    exact closed ⟨k, after, fits, stands⟩

/-- A file with a pattern of files in its first line and two comments, of which the second one ends
with two stars. -/
def twice : Text :=
  "const FILES = 'content/**/*.md';\n/** Articles */\n/** Lists\n **/ // TODO /** sort\n  export"

theorem before?_eq_some_iff_nearest_twice :
    let d : DocComment := ⟨49, 63, " Lists\n *"⟩
    81 ≤ twice.length ∧ before? twice 81 = some d ∧ d.stop ≤ 81 ∧
      (twice.take d.stop).drop d.start = "/**" ++ d.body ++ "*/" ∧
      ¬("*/" : Text) <:+: d.body ∧
      (∀ p, d.start < p → p + 3 ≤ d.stop - 2 → ¬StandsAt "/**" twice p) ∧
      (∀ p, d.stop - 1 ≤ p → p + 2 ≤ 81 → ¬StandsAt "*/" twice p) ∧
      Gap ((twice.take 81).drop d.stop) := by
  have inside : 81 ≤ twice.length := by decide +kernel
  have found : before? twice (81 : Nat) = some ⟨49, 63, " Lists\n *"⟩ := by decide +kernel
  exact ⟨inside, found, (before?_eq_some_iff_nearest inside).mp found⟩

/-! ### Attached Comments -/

/-- A closing mark behind a comment hides it: what is found begins later and ends behind it. -/
theorem lt_of_closing_within (before rest : Text) (mark : ("*/" : Text) <:+: gap)
    (found : before? (before ++ "/**" ++ body ++ "*/" ++ gap ++ rest)
      (before ++ "/**" ++ body ++ "*/" ++ gap).length = some d) :
    before.length < d.start ∧ (before ++ "/**" ++ body ++ "*/").length < d.stop := by
  have attached := before?_eq_some_iff.mp found
  have stop := attached.stop_eq_add
  generalize whole : before ++ "/**" ++ body ++ "*/" = ahead at attached ⊢
  have size : ahead.length = before.length + 3 + body.length + 2 := by
    rw [← whole, List.length_append, List.length_append, List.length_append]
    rfl
  obtain ⟨i, stands⟩ := exists_standsAt_iff.mpr mark
  -- The comment found ends with the mark in the gap or with a later one.
  have behind : ahead.length + i ≤ d.closing := by
    by_contra! earlier
    have fits : 2 ≤ (gap.drop i).length := List.IsPrefix.length_le stands
    have inside : ahead.length + i + 2 ≤ (ahead ++ gap).length := by
      rw [List.length_drop] at fits
      rw [List.length_append]
      omega
    exact attached.last_closing _ earlier inside (stands.append ahead rest)
  have opens : StandsAt "/**" (ahead ++ gap ++ rest) before.length := by
    refine ⟨body ++ "*/" ++ gap ++ rest, ?_⟩
    simp only [← whole, List.append_assoc, List.drop_left]
  have closes : StandsAt "*/" (ahead ++ gap ++ rest) (before.length + 3 + body.length) := by
    have place : (before ++ "/**" ++ body).length = before.length + 3 + body.length := by
      rw [List.length_append, List.length_append]
      rfl
    refine ⟨gap ++ rest, ?_⟩
    rw [← whole, List.append_assoc _ gap, ← place, List.append_assoc _ _ (gap ++ rest),
      List.drop_left]
  refine ⟨?_, by omega⟩
  rcases Nat.lt_trichotomy before.length d.start with later | same | earlier
  · exact later
  · exact absurd closes (attached.first_closing _ (by omega) (by omega))
  · exact absurd opens (attached.last_opening _ earlier (by omega))

/-- **An attached comment is found exactly if no closing mark stands in its gap**, whatever stands
before the comment and after the gap.  If there is one, the comment is missed: one that is found
begins later and ends in the gap. -/
theorem before?_append_eq_some_iff (before rest : Text) (closed : ¬("*/" : Text) <:+: body)
    (opened : ¬("/**" : Text) <:+: body) (isGap : Gap gap) :
    let ahead := before ++ "/**" ++ body ++ "*/"
    let found := before? (ahead ++ gap ++ rest) (ahead ++ gap).length
    (found = some ⟨before.length, ahead.length, body⟩ ↔ ¬("*/" : Text) <:+: gap) ∧
      ∀ d, found = some d → ("*/" : Text) <:+: gap →
        before.length < d.start ∧ ahead.length < d.stop := by
  intro ahead found
  have missed : ∀ d, found = some d → ("*/" : Text) <:+: gap →
      before.length < d.start ∧ ahead.length < d.stop :=
    fun _ here mark => lt_of_closing_within before rest mark here
  refine ⟨⟨fun here mark => ?_, fun clean => ?_⟩, missed⟩
  · exact Nat.lt_irrefl _ (missed _ here mark).1
  · exact before?_append before rest closed opened isGap.isGap clean

theorem before?_append_eq_some_iff_lists :
    let before : Text := "const FILES = 'content/**/*.md';\n"
    let body : Text := " Lists articles\n *"
    let gap : Text := " // newest first\n\n// like /** this\n  "
    let ahead := before ++ "/**" ++ body ++ "*/"
    ¬("*/" : Text) <:+: body ∧ ¬("/**" : Text) <:+: body ∧ Gap gap ∧ ¬("*/" : Text) <:+: gap ∧
      before? (ahead ++ gap ++ "export async function GET()") (ahead ++ gap).length =
        some ⟨before.length, ahead.length, body⟩ := by
  intro before body gap ahead
  have closed : ¬("*/" : Text) <:+: body := by decide
  have opened : ¬("/**" : Text) <:+: body := by decide
  have isGap : Gap gap := isGap_iff.mp (by decide)
  have clean : ¬("*/" : Text) <:+: gap := by decide
  exact ⟨closed, opened, isGap, clean,
    (before?_append_eq_some_iff before _ closed opened isGap).1.mpr clean⟩

/-- **A pattern of files in a line comment hides the comment above it**: the stars and the slash in
it count as a closing mark, and what stands behind them is no gap. -/
theorem missed_behind_glob :
    let body : Text := " Lists articles. "
    let gap : Text := "\n// content/**/*.md\n"
    let ahead : Text := "/**" ++ body ++ "*/" ++ gap
    ¬("*/" : Text) <:+: body ∧ ¬("/**" : Text) <:+: body ∧ ¬("/" : Text) <+: body ∧ Gap gap ∧
      before? (ahead ++ "export async function GET() \x7b\x7d") ahead.length = none := by
  intro body gap ahead
  have isGap : Gap gap := isGap_iff.mp (by decide)
  exact ⟨by decide, by decide, by decide, isGap, by decide +kernel⟩

end DocComment

end RouteDocs
