import RouteDocs.Proofs.Text.Search

/-!
# Matching Looks Ahead Only

Patterns without conditions on what stands before a place match in the same way whatever stands
there. So the matches of a text can be told step by step from its suffixes.

## Main Definitions

* `Cursor.behind`: a place with more text before it
* `Pattern.LooksAhead`: patterns without conditions on what stands before a place
* `Pattern.Shifts`: a step of matching that does the same behind more text

## Main Statements

* `Pattern.shifts`: **matching a pattern that looks ahead does the same behind more text**
* `Pattern.findAll_of_none`, `Pattern.findAll_of_some`: the matches of a text from those of a
  suffix

## Design Notes

Places remember what was seen, so that the matches of a suffix are not those of the whole text: they
are told apart by `Cursor.behind`, which pieces of text do not notice.
-/

namespace RouteDocs

namespace Cursor

/-- A place with more text before it. -/
def behind (u : Text) (c : Cursor) : Cursor := ⟨c.seen ++ u, c.rest⟩

theorem behind_start (u t : Text) : (Cursor.start t).behind u = ⟨u, t⟩ := rfl

/-- The text between two places does not depend on what stands before them. -/
theorem textUntil_behind (u : Text) (c d : Cursor) :
    (c.behind u).textUntil (d.behind u) = c.textUntil d := by
  rw [textUntil, textUntil, offset, offset, offset, offset, behind, behind, List.length_append,
    List.length_append, Nat.add_sub_add_right]

end Cursor

/-- Remembered pieces with more text before them. -/
def Groups.behind (u : Text) (gs : Groups) : Groups :=
  gs.map fun g => (g.1, g.2.1.behind u, g.2.2.behind u)

/-- A finished attempt with more text before it. -/
def Hit.behind (u : Text) (x : Hit) : Hit := (x.1.behind u, Groups.behind u x.2)

namespace Pattern

variable {p : Pattern} {cls : CodePoint → Bool} {u : Text}

/-- A match with more text before it. -/
def Match.behind (u : Text) (m : Match) : Match :=
  ⟨m.start.behind u, m.stop.behind u, Groups.behind u m.groups⟩

/-- The remembered texts do not depend on what stands before a match. -/
theorem Match.group?_behind (u : Text) (m : Match) : (m.behind u).group? = m.group? := by
  funext n
  have lookup (gs : Groups) : (Groups.behind u gs).lookup n =
      (gs.lookup n).map fun g => (g.1.behind u, g.2.behind u) := by
    induction gs with
    | nil => rfl
    | cons g more ih =>
        rw [Groups.behind, List.map_cons, List.lookup_cons, List.lookup_cons]
        split
        · rfl
        · exact ih
  rw [Match.group?, Match.group?, Match.behind, lookup, Option.map_map]
  congr 1
  funext g
  exact Cursor.textUntil_behind u g.1 g.2

/-! ### Patterns That Look Ahead -/

/-- Patterns without conditions on what stands before a place. -/
inductive LooksAhead : Pattern → Prop
  /-- The empty piece. -/
  | empty : LooksAhead empty
  /-- One code point. -/
  | one (cls : CodePoint → Bool) : LooksAhead (one cls)
  /-- A run. -/
  | run (cls : CodePoint → Bool) : LooksAhead (run cls)
  /-- A short run. -/
  | shortRun (cls : CodePoint → Bool) : LooksAhead (shortRun cls)
  /-- One piece after another. -/
  | seq {p q : Pattern} (first : LooksAhead p) (second : LooksAhead q) : LooksAhead (seq p q)
  /-- Either of two pieces. -/
  | alt {p q : Pattern} (first : LooksAhead p) (second : LooksAhead q) : LooksAhead (alt p q)
  /-- Any number of pieces. -/
  | star {p : Pattern} (piece : LooksAhead p) : LooksAhead (star p)
  /-- A piece that is remembered. -/
  | group (n : Nat) {p : Pattern} (piece : LooksAhead p) : LooksAhead (group n p)
  /-- A condition on what follows. -/
  | follows (expected : Bool) {p : Pattern} (piece : LooksAhead p) :
      LooksAhead (follows expected p)

theorem LooksAhead.append {q : Pattern} (first : LooksAhead p) (second : LooksAhead q) :
    LooksAhead (p ++ q) :=
  .seq first second

theorem LooksAhead.run1 (cls : CodePoint → Bool) : LooksAhead (run1 cls) :=
  (LooksAhead.one cls).append (.run cls)

theorem looksAhead_caseless (t : Text) : LooksAhead (caseless t) := by
  induction t with
  | nil => exact .empty
  | cons c r ih => exact .seq (.one _) ih

/-! ### Steps behind More Text -/

/-- **A step of matching that does the same behind more text**, if what comes after it does. -/
def Shifts (step : Cursor → Groups → (Cursor → Groups → Option Hit) → Option Hit) : Prop :=
  ∀ (u : Text) (c : Cursor) (gs : Groups) (k k' : Cursor → Groups → Option Hit),
    (∀ d hs, k' (d.behind u) (Groups.behind u hs) = (k d hs).map (Hit.behind u)) →
    step (c.behind u) (Groups.behind u gs) k' = (step c gs k).map (Hit.behind u)

section

variable {k k' : Cursor → Option Hit}

theorem runFrom_behind (same : ∀ d, k' (d.behind u) = (k d).map (Hit.behind u)) (seen r : Text) :
    runFrom cls k' (seen ++ u) r = (runFrom cls k seen r).map (Hit.behind u) := by
  induction r generalizing seen with
  | nil => exact same ⟨seen, []⟩
  | cons c r ih =>
      have here := same ⟨seen, c :: r⟩
      have further := ih (c :: seen)
      rw [List.cons_append] at further
      rw [runFrom, runFrom]
      split
      · rw [further]
        cases runFrom cls k (c :: seen) r with
        | none => exact here
        | some hit => rfl
      · exact here

theorem shortRunFrom_behind (same : ∀ d, k' (d.behind u) = (k d).map (Hit.behind u))
    (seen r : Text) :
    shortRunFrom cls k' (seen ++ u) r = (shortRunFrom cls k seen r).map (Hit.behind u) := by
  induction r generalizing seen with
  | nil => exact same ⟨seen, []⟩
  | cons c r ih =>
      have here : k' ⟨seen ++ u, c :: r⟩ = _ := same ⟨seen, c :: r⟩
      have further := ih (c :: seen)
      rw [List.cons_append] at further
      rw [shortRunFrom, shortRunFrom, here]
      cases k ⟨seen, c :: r⟩ with
      | some hit => rfl
      | none =>
          simp only [Option.map_none]
          split
          · exact further
          · rfl

end

/-- A repetition of a step that does the same behind more text. -/
theorem shifts_star {step : Cursor → Groups → (Cursor → Groups → Option Hit) → Option Hit}
    (shifts : Shifts step) : Shifts fun c gs k => starFrom step k c.rest.length c gs := by
  intro u c gs k k' same
  have rounds (n : Nat) (c : Cursor) (gs : Groups) :
      starFrom step k' n (c.behind u) (Groups.behind u gs) =
        (starFrom step k n c gs).map (Hit.behind u) := by
    induction n generalizing c gs with
    | zero => exact same c gs
    | succ n ih =>
        rw [starFrom, starFrom, shifts u c gs _ _ fun d hs => ?_]
        · cases step c gs _ with
          | none => exact same c gs
          | some hit => rfl
        · change (if d.rest.length < c.rest.length then _ else _) = _
          split
          · exact ih d hs
          · rfl
  exact rounds c.rest.length c gs

/-- **Matching a pattern that looks ahead does the same behind more text.** -/
theorem shifts (ahead : LooksAhead p) : Shifts p.runAt := by
  induction ahead with
  | empty => exact fun u c gs k k' same => same c gs
  | one cls =>
      rintro u ⟨seen, _ | ⟨d, r⟩⟩ gs k k' same
      · rfl
      · change (if cls d = true then k' _ _ else none) =
          Option.map _ (if cls d = true then _ else _)
        split
        · exact same ⟨d :: seen, r⟩ gs
        · rfl
  | run cls => exact fun u c gs k k' same => runFrom_behind (fun d => same d gs) c.seen c.rest
  | shortRun cls =>
      exact fun u c gs k k' same => shortRunFrom_behind (fun d => same d gs) c.seen c.rest
  | seq _ _ first second =>
      exact fun u c gs k k' same => first u c gs _ _ fun d hs => second u d hs k k' same
  | alt _ _ first second =>
      intro u c gs k k' same
      rw [runAt, runAt, first u c gs k k' same]
      cases runAt _ c gs k with
      | none => exact second u c gs k k' same
      | some hit => rfl
  | star _ piece => exact shifts_star piece
  | group n _ piece =>
      exact fun u c gs k k' same => piece u c gs _ _ fun d hs => same d ((n, c, d) :: hs)
  | follows expected _ piece =>
      intro u c gs k k' same
      rw [runAt, runAt, piece u c gs (fun d hs => some (d, hs)) _ fun d hs => rfl,
        Option.isSome_map]
      split
      · exact same c gs
      · rfl

/-! ### Searches behind More Text -/

theorem matchAt?_behind (ahead : LooksAhead p) (u : Text) (c : Cursor) :
    p.matchAt? (c.behind u) = (p.matchAt? c).map (Match.behind u) := by
  rw [matchAt?, matchAt?, Option.map_map]
  have same := shifts ahead u c [] (fun d gs => some (d, gs)) (fun d gs => some (d, gs))
    fun d hs => rfl
  rw [show Groups.behind u [] = [] from rfl] at same
  rw [same, Option.map_map]
  rfl

theorem findFrom?_behind (ahead : LooksAhead p) (u seen r : Text) :
    p.findFrom? (seen ++ u) r = (p.findFrom? seen r).map (Match.behind u) := by
  induction r generalizing seen with
  | nil => exact matchAt?_behind ahead u ⟨seen, []⟩
  | cons c r ih =>
      have here : p.matchAt? ⟨seen ++ u, c :: r⟩ = _ := matchAt?_behind ahead u ⟨seen, c :: r⟩
      rw [findFrom?, findFrom?, here]
      cases p.matchAt? ⟨seen, c :: r⟩ with
      | some m => rfl
      | none => exact ih (c :: seen)

theorem findAllFrom_behind (ahead : LooksAhead p) (u : Text) (n : Nat) (c : Cursor) :
    p.findAllFrom n (c.behind u) = (p.findAllFrom n c).map (Match.behind u) := by
  induction n generalizing c with
  | zero => rfl
  | succ n ih =>
      have found : p.findFrom? (c.behind u).seen (c.behind u).rest = _ :=
        findFrom?_behind ahead u c.seen c.rest
      rw [findAllFrom, findAllFrom, found]
      cases p.findFrom? c.seen c.rest with
      | none => rfl
      | some m =>
          change (if m.stop.rest.length < m.start.rest.length then _ else _) =
            List.map _ (if m.stop.rest.length < m.start.rest.length then _ else _)
          split
          · exact congrArg (m.behind u :: ·) (ih m.stop)
          · cases rest : m.stop.rest with
            | nil =>
                have none : (m.behind u).stop.rest = [] := rest
                rw [none]
                rfl
            | cons d r =>
                have more : (m.behind u).stop.rest = d :: r := rest
                rw [more]
                exact congrArg (m.behind u :: ·) (ih ⟨d :: m.stop.seen, r⟩)

/-! ### Enough Steps -/

section

variable {c : Cursor} {m : Match} {n n' : Nat}

/-- What is matched lies behind the place. -/
theorem matchAt?_le (found : p.matchAt? c = some m) :
    m.stop.rest.length ≤ m.start.rest.length := by
  obtain ⟨hit, run, rfl⟩ := Option.map_eq_some_iff.mp found
  obtain ⟨y, read, same⟩ := (explores p).sound (x := (c, [])) run
  obtain ⟨w, passes⟩ := read.exists_passes
  cases same
  have rest : c.rest = w ++ y.1.rest := passes.rest
  change y.1.rest.length ≤ c.rest.length
  rw [rest, List.length_append]
  exact Nat.le_add_left _ _

/-- What is found lies behind the place where the search began. -/
theorem findFrom?_le {seen r : Text} (found : p.findFrom? seen r = some m) :
    m.start.rest.length ≤ r.length ∧ m.stop.rest.length ≤ m.start.rest.length := by
  induction r generalizing seen with
  | nil =>
      have start : m.start = ⟨seen, []⟩ := matchAt?_start found
      exact ⟨by rw [start], matchAt?_le found⟩
  | cons d r ih =>
      rw [findFrom?] at found
      split at found
      · next here =>
        cases found
        have start : m.start = ⟨seen, d :: r⟩ := matchAt?_start here
        exact ⟨by rw [start], matchAt?_le here⟩
      · obtain ⟨later, shorter⟩ := ih found
        exact ⟨later.trans (Nat.le_succ _), shorter⟩

/-- **A search for all matches ends** after as many steps as there are places. -/
theorem findAllFrom_enough (enough : c.rest.length < n) (enough' : c.rest.length < n') :
    p.findAllFrom n c = p.findAllFrom n' c := by
  induction n generalizing c n' with
  | zero => cases enough
  | succ n ih =>
      obtain ⟨n', rfl⟩ : ∃ k, n' = k + 1 := ⟨n' - 1, by omega⟩
      rw [findAllFrom, findAllFrom]
      cases found : p.findFrom? c.seen c.rest with
      | none => rfl
      | some m =>
          obtain ⟨later, shorter⟩ := findFrom?_le found
          dsimp only
          split
          · have left : m.stop.rest.length < n ∧ m.stop.rest.length < n' := by omega
            rw [ih left.1 left.2]
          · cases rest : m.stop.rest with
            | nil => rfl
            | cons d r =>
                rw [rest, List.length_cons] at shorter
                have left : r.length < n ∧ r.length < n' := by omega
                exact congrArg (m :: ·) (ih (c := ⟨d :: m.stop.seen, r⟩) left.1 left.2)

end

/-! ### All Matches of a Text -/

section

variable {x : CodePoint} {t : Text} {m : Match}

/-- The remembered texts of all matches from a place are those of the text behind it. -/
theorem map_findAllFrom_eq (ahead : LooksAhead p) {c : Cursor} {n : Nat}
    (enough : c.rest.length < n) :
    (p.findAllFrom n c).map Match.group? = (p.findAll c.rest).map Match.group? := by
  have same : p.findAllFrom n c = (p.findAll c.rest).map (Match.behind c.seen) := by
    rw [findAll, ← findAllFrom_behind ahead, Cursor.behind_start]
    exact findAllFrom_enough enough (Nat.lt_succ_self _)
  rw [same, List.map_map]
  exact List.map_congr_left fun m _ => m.group?_behind c.seen

/-- **A text that no match begins has the matches of what follows its first code point.** -/
theorem findAll_of_none (ahead : LooksAhead p) (none : p.matchAt? (.start (x :: t)) = none) :
    (p.findAll (x :: t)).map Match.group? = (p.findAll t).map Match.group? := by
  have next : p.findFrom? [] (x :: t) = p.findFrom? [x] t := by
    rw [Cursor.start] at none
    rw [findFrom?, none]
  have skipped : p.findAll (x :: t) = p.findAllFrom ((x :: t).length + 1) ⟨[x], t⟩ := by
    rw [findAll, findAllFrom, findAllFrom, Cursor.start, next]
  rw [skipped]
  exact map_findAllFrom_eq ahead (c := ⟨[x], t⟩) (Nat.lt_succ_of_lt (Nat.lt_succ_self _))

/-- **A text that a match begins has this match and those of what follows it.** -/
theorem findAll_of_some (ahead : LooksAhead p) (some : p.matchAt? (.start t) = some m)
    (nonempty : m.stop.rest.length < t.length) :
    (p.findAll t).map Match.group? = m.group? :: (p.findAll m.stop.rest).map Match.group? := by
  have start : m.start = .start t := matchAt?_start some
  have found : p.findFrom? (Cursor.start t).seen (Cursor.start t).rest = .some m :=
    findFrom?_of_matchAt? some
  rw [findAll, findAllFrom_cons found (by rw [start]; exact nonempty), List.map_cons,
    map_findAllFrom_eq ahead nonempty]

end

end Pattern

end RouteDocs
