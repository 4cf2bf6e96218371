import RouteDocs.Command.Console
import RouteDocs.Proofs.Text.Utf8

/-!
# How Commands End

A command that is run from a tree of files ends with an exit code and leaves a tree.  What is typed,
printed and requested does not matter for either.

## Main Definitions

* `Command.Action.Gives`: an action gives a result and leaves a tree
* `Command.Action.Stops`: an action ends the command with an exit code and leaves a tree

## Main Statements

* `Command.Action.Gives.bind`, `Command.Action.Gives.stops`, `Command.Action.Stops.bind`: actions
  one after another
* `Command.gives_echo`, `Command.stops_echo`: lines are printed, or cannot be encoded
* `Command.Action.Gives.finish`, `Command.Action.Stops.finish`: **how a command ends**
-/

namespace RouteDocs

namespace Command

variable {α β : Type} {x : Action α} {f : α → Action β} {a : α} {b : β} {code : Nat}
  {tree tree' tree'' : FileTree}

namespace Action

/-- From a tree on, an action gives a result and leaves a tree. -/
def Gives (x : Action α) (tree : FileTree) (a : α) (tree' : FileTree) : Prop :=
  ∀ c : Console, c.tree = tree → ∃ c', x c = (.ok a, c') ∧ c'.tree = tree'

/-- From a tree on, an action ends the command with an exit code and leaves a tree. -/
def Stops (x : Action α) (tree : FileTree) (code : Nat) (tree' : FileTree) : Prop :=
  ∀ c : Console, c.tree = tree →
    ∃ stop c', x c = (.error stop, c') ∧ stop.outcome.exitCode = code ∧ c'.tree = tree'

theorem bind_ok {c c' : Console} (first : x c = (.ok a, c')) : (x >>= f) c = f a c' := by
  show (match x c with
    | (r, c') => ExceptT.bindCont f r c') = _
  rw [first]
  rfl

theorem bind_error {c c' : Console} {stop : Stop} (first : x c = (.error stop, c')) :
    (x >>= f) c = (.error stop, c') := by
  show (match x c with
    | (r, c') => ExceptT.bindCont f r c') = _
  rw [first]
  rfl

theorem gives_pure (a : α) (tree : FileTree) : (pure a : Action α).Gives tree a tree :=
  fun c here => ⟨c, rfl, here⟩

theorem stops_throw (stop : Stop) (tree : FileTree) :
    (throw stop : Action α).Stops tree stop.outcome.exitCode tree :=
  fun c here => ⟨stop, c, rfl, rfl, here⟩

theorem Gives.bind (first : x.Gives tree a tree') (second : (f a).Gives tree' b tree'') :
    (x >>= f).Gives tree b tree'' := by
  intro c here
  obtain ⟨c', done, left⟩ := first c here
  obtain ⟨c'', done', left'⟩ := second c' left
  exact ⟨c'', (bind_ok done).trans done', left'⟩

/-- What is done before a command ends does not keep it from ending. -/
theorem Gives.stops (first : x.Gives tree a tree') (second : (f a).Stops tree' code tree'') :
    (x >>= f).Stops tree code tree'' := by
  intro c here
  obtain ⟨c', done, left⟩ := first c here
  obtain ⟨stop, c'', done', ends, left'⟩ := second c' left
  exact ⟨stop, c'', (bind_ok done).trans done', ends, left'⟩

/-- Nothing is done after a command has ended. -/
theorem Stops.bind (first : x.Stops tree code tree') : (x >>= f).Stops tree code tree' := by
  intro c here
  obtain ⟨stop, c', done, ends, left⟩ := first c here
  exact ⟨stop, c', bind_error done, ends, left⟩

/-- **A command that gives a result** ends without a fault. -/
theorem Gives.finish {x : Action Unit} {c : Console} (h : x.Gives c.tree () tree') :
    (x.finish c).1.exitCode = 0 ∧ (x.finish c).2.tree = tree' := by
  obtain ⟨c', done, left⟩ := h c rfl
  rw [Action.finish, done]
  exact ⟨rfl, left⟩

/-- **A command that stops** ends with the exit code. -/
theorem Stops.finish {x : Action Unit} {c : Console} (h : x.Stops c.tree code tree') :
    (x.finish c).1.exitCode = code ∧ (x.finish c).2.tree = tree' := by
  obtain ⟨stop, c', done, ends, left⟩ := h c rfl
  rw [Action.finish, done]
  cases stop <;> exact ⟨ends, left⟩

end Action

open Command.Action

/-! ### Steps -/

/-- A line that can be encoded is printed. -/
theorem gives_echo {line : Text} (scalar : line.isScalar = true) (tree : FileTree) :
    (echo line).Gives tree () tree := by
  intro c here
  unfold echo
  rw [Utf8.firstSurrogates_eq_none.mpr scalar]
  exact ⟨_, rfl, here⟩

/-- A line that cannot be encoded ends the command. -/
theorem stops_echo {line : Text} (stray : line.isScalar = false) (tree : FileTree) :
    (echo line).Stops tree 1 tree := by
  intro c here
  unfold echo
  cases found : Utf8.firstSurrogates 0 line with
  | none =>
      rw [Utf8.firstSurrogates_eq_none, stray] at found
      cases found
  | some e => exact ⟨_, c, rfl, rfl, here⟩

/-- A command that ends with the code of a failure does so with a line before as well. -/
theorem stops_echo_bind {line : Text} {f : Unit → Action β} (rest : (f ()).Stops tree 1 tree) :
    (echo line >>= f).Stops tree 1 tree := by
  cases scalar : line.isScalar with
  | true => exact (gives_echo scalar tree).stops rest
  | false => exact (stops_echo scalar tree).bind

theorem gives_request (e : Event) (tree : FileTree) : (request e).Gives tree () tree :=
  fun _ here => ⟨_, rfl, here⟩

theorem gives_get (tree : FileTree) {f : Console → Action β} (rest : ∀ c : Console, c.tree = tree →
    (f c).Gives tree b tree') : ((get : Action Console) >>= f).Gives tree b tree' :=
  fun c here => rest c here c here

theorem stops_get (tree : FileTree) {f : Console → Action β} (rest : ∀ c : Console, c.tree = tree →
    (f c).Stops tree code tree') : ((get : Action Console) >>= f).Stops tree code tree' :=
  fun c here => rest c here c here

theorem gives_onFiles {ε : Type} {failure : ε → Failure} {action : ExceptT ε (StateM FileTree) α}
    (done : action tree = (.ok a, tree')) : (onFiles failure action).Gives tree a tree' := by
  rintro c rfl
  unfold onFiles
  rw [done]
  exact ⟨_, rfl, rfl⟩

theorem gives_checked (command : Name) (a : α) (tree : FileTree) :
    (checked command (.ok a)).Gives tree a tree :=
  gives_pure a tree

end Command

end RouteDocs
