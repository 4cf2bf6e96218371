import RouteDocs.Proofs.Json.Decode

/-!
# Ordered Maps and Tables

What is found in an ordered map after values were put into it, and in a table of two levels, which
is a map of maps.

## Main Definitions

* `Assoc.putAt`, `Assoc.valueAt?`: a value in a table, by row and column
* `Assoc.Keyed`: tables in which rows and the columns of each row have different keys
* `Assoc.cells`: the values of a table with their places

## Main Statements

* `Assoc.get?_put`: what is put is found, and nothing else changes
* `Assoc.get?_ofList`: the last value of a key counts
* `Assoc.valueAt?_putAt`: the same for tables
* `Assoc.mem_cells_iff`: the cells of a keyed table are what is found in it
* `Assoc.valueAt?_tabulate`: in a table filled step by step the last value of each place is found
-/

namespace RouteDocs

namespace Assoc

variable {β : Type} {m : Assoc β} {key other : Text} {value : β}

/-! ### Maps -/

/-- What is put is found, and nothing else changes. -/
theorem get?_put :
    (m.put key value).get? other = if key = other then some value else m.get? other := by
  induction m with
  | nil =>
      by_cases same : key = other <;> simp [put, get?, same]
  | cons q more ih =>
      rw [put]
      by_cases there : q.1 = key
      · rw [if_pos (by simpa using there)]
        by_cases same : key = other <;> simp [get?, there, same]
      · rw [if_neg (by simpa using there)]
        by_cases first : q.1 = other
        · have apart : key ≠ other := fun same => there (first.trans same.symm)
          simp [get?, first, apart]
        · have skip (ms : Assoc β) : get? other ((q.1, q.2) :: ms) = get? other ms := by
            simp [get?, first]
          rw [skip, ih, skip]

/-- What the first of two maps has not is looked up in the second one. -/
theorem get?_append {n : Assoc β} : get? key (m ++ n) = (m.get? key).or (n.get? key) := by
  rw [get?, List.find?_append, Option.map_or]
  rfl

/-- What is found stands in the map. -/
theorem mem_of_get? (h : m.get? key = some value) : (key, value) ∈ m := by
  obtain ⟨p, found, rfl⟩ := Option.map_eq_some_iff.mp h
  have same : p.1 = key := by simpa using List.find?_some found
  exact same ▸ List.mem_of_find?_eq_some found

variable {entries : List (Text × β)}

theorem ofList_concat (before : List (Text × β)) (e : Text × β) :
    ofList (before ++ [e]) = (ofList before).put e.1 e.2 := by
  simp [ofList, List.foldl_append]

/-- The value of a key in a map made from entries is the last one that was given. -/
theorem get?_ofList :
    (ofList entries).get? key = ((entries.filter (·.1 == key)).getLast?).map (·.2) := by
  induction entries using List.reverseRecOn with
  | nil => rfl
  | append_singleton before e ih =>
      rw [ofList_concat, get?_put, ih]
      by_cases same : e.1 = key <;> simp [List.filter_append, same]

/-! ### Tables -/

/-- Gives a place of a table, which is a row and a column, a value. -/
def putAt (place : Text × Text) (value : β) (table : Assoc (Assoc β)) : Assoc (Assoc β) :=
  table.put place.1 (((table.get? place.1).getD []).put place.2 value)

/-- The value of a place of a table. -/
def valueAt? (place : Text × Text) (table : Assoc (Assoc β)) : Option β :=
  (table.get? place.1).bind (·.get? place.2)

/-- The values of a table with their places. -/
def cells (table : Assoc (Assoc β)) : List ((Text × Text) × β) :=
  table.flatMap fun row => row.2.map fun cell => ((row.1, cell.1), cell.2)

/-- The table that results from giving values to the places of elements one after another. -/
def tabulate {α : Type} (place : α → Text × Text) (value : α → β) (xs : List α) : Assoc (Assoc β) :=
  xs.foldl (fun table x => putAt (place x) (value x) table) []

/-- Tables in which no row and no column of a row stands twice. -/
structure Keyed (table : Assoc (Assoc β)) : Prop where
  /-- The rows have different keys. -/
  rows : (table.map (·.1)).Nodup
  /-- The columns of a row have different keys. -/
  columns : ∀ row ∈ table, (row.2.map (·.1)).Nodup

variable {table : Assoc (Assoc β)} {place target : Text × Text}

/-- What is put at a place is found there, and nothing else changes. -/
theorem valueAt?_putAt :
    (table.putAt place value).valueAt? target =
      if place = target then some value else table.valueAt? target := by
  rw [valueAt?, putAt, get?_put]
  by_cases row : place.1 = target.1
  · rw [if_pos row, Option.bind_some, get?_put]
    by_cases column : place.2 = target.2
    · rw [if_pos column, if_pos (Prod.ext row column)]
    · rw [if_neg column, if_neg (fun same => column (congrArg (·.2) same)), valueAt?, row]
      cases table.get? target.1 <;> rfl
  · rw [if_neg row, if_neg (fun same => row (congrArg (·.1) same)), valueAt?]

theorem Keyed.putAt (keyed : table.Keyed) : (table.putAt place value).Keyed where
  rows := nodup_put keyed.rows
  columns := by
    intro row mem
    rcases mem_put mem with rfl | old
    · refine nodup_put ?_
      cases found : table.get? place.1 with
      | none => exact List.nodup_nil
      | some columns => exact keyed.columns _ (mem_of_get? found)
    · exact keyed.columns row old

/-- The cells of a keyed table are what is found in it. -/
theorem mem_cells_iff (keyed : table.Keyed) :
    (place, value) ∈ table.cells ↔ table.valueAt? place = some value := by
  obtain ⟨u, m⟩ := place
  rw [valueAt?, Option.bind_eq_some_iff, cells, List.mem_flatMap]
  constructor
  · rintro ⟨⟨u', ms⟩, row, cell⟩
    obtain ⟨⟨m', v⟩, column, same⟩ := List.mem_map.mp cell
    cases same
    exact ⟨ms, get?_eq_some keyed.rows row, get?_eq_some (keyed.columns _ row) column⟩
  · rintro ⟨ms, row, column⟩
    exact ⟨(u, ms), mem_of_get? row, List.mem_map.mpr ⟨(m, value), mem_of_get? column, rfl⟩⟩

/-- No place of a keyed table stands twice among its cells. -/
theorem nodup_cells (keyed : table.Keyed) : (table.cells.map (·.1)).Nodup := by
  obtain ⟨rows, columns⟩ := keyed
  have places : table.cells.map (·.1) =
      table.flatMap fun row => (row.2.map (·.1)).map fun column => (row.1, column) := by
    simp only [cells, List.map_flatMap, List.map_map]
    rfl
  rw [places, List.nodup_flatMap]
  refine ⟨fun row mem => (columns row mem).map fun _ _ same => congrArg (·.2) same, ?_⟩
  -- Different rows share no place, since a place tells its row.
  refine (List.pairwise_map.mp rows).imp fun {a b} apart => ?_
  rw [Function.onFun, List.disjoint_left]
  intro p left right
  obtain ⟨_, -, rfl⟩ := List.mem_map.mp left
  obtain ⟨_, -, same⟩ := List.mem_map.mp right
  exact apart (congrArg (·.1) same).symm

variable {α : Type} {placeOf : α → Text × Text} {valueOf : α → β} {xs : List α}

theorem tabulate_append_singleton (x : α) :
    tabulate placeOf valueOf (xs ++ [x]) =
      (tabulate placeOf valueOf xs).putAt (placeOf x) (valueOf x) := by
  rw [tabulate, List.foldl_append]
  rfl

theorem keyed_tabulate : (tabulate placeOf valueOf xs).Keyed := by
  induction xs using List.reverseRecOn with
  | nil => exact ⟨List.nodup_nil, by simp [tabulate]⟩
  | append_singleton before x ih =>
      rw [tabulate_append_singleton]
      exact ih.putAt

/-- **The last value that was given to a place is found there.** -/
theorem valueAt?_tabulate :
    (tabulate placeOf valueOf xs).valueAt? target =
      ((xs.filter (placeOf · == target)).getLast?).map valueOf := by
  induction xs using List.reverseRecOn with
  | nil => rfl
  | append_singleton before x ih =>
      rw [tabulate_append_singleton, valueAt?_putAt, ih]
      by_cases same : placeOf x = target <;> simp [List.filter_append, same]

end Assoc

end RouteDocs
