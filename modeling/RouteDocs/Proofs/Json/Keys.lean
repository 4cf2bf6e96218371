import RouteDocs.Proofs.Json.Assoc
import RouteDocs.Proofs.Render.Grouping

/-!
# Keys of a Map

Which keys a map has, and in which order, after it was made from a list or changed by the entries of
another one.

## Main Statements

* `Assoc.keys_ofList`, `Assoc.get?_ofList_map`: **the keys and values of a map made from a list**
* `Assoc.keys_update`, `Assoc.get?_update`: **the keys and values of a map that is changed**: its
  own keys stay where they are, and new ones follow
* `Assoc.update_ofList`: a map can be changed entry by entry
* `Assoc.foldl_putNew`, `Assoc.foldl_putNew_eq`: what was put into a map where the key was new

## Design Notes

A map is filled from the front of a list, so the inductions add an entry at its end.
-/

namespace RouteDocs

namespace Assoc

variable {α β : Type} {m : Assoc β} {key : Text} {value : β}

/-- A key joins the keys of a map unless it is one of them. -/
theorem keys_put :
    (m.put key value).keys = if key ∈ m.keys then m.keys else m.keys ++ [key] := by
  induction m with
  | nil => rfl
  | cons q more ih =>
      rw [put]
      by_cases same : q.1 = key
      · rw [if_pos (by simpa using same), if_pos (by simp [keys, same])]
        rfl
      · rw [if_neg (by simpa using same)]
        have there : key ∈ keys (q :: more) ↔ key ∈ keys more := by
          simp [keys, Ne.symm same]
        simp only [there]
        change q.1 :: keys (put key value more) = _
        rw [ih]
        split <;> rfl

/-- The keys of a map made from entries are those of the entries, without repetitions. -/
theorem keys_ofList (entries : List (Text × β)) :
    (ofList entries).keys = (entries.map (·.1)).eraseDups := by
  induction entries using List.reverseRecOn with
  | nil => rfl
  | append_singleton before e ih =>
      rw [ofList_concat, keys_put, ih, List.map_append, List.map_singleton, eraseDups_concat]
      simp only [List.mem_eraseDups]

/-- In a map made from a list the value of a key is that of the last element with the key. -/
theorem get?_ofList_map (xs : List α) (name : α → Text) (value : α → β) (key : Text) :
    (ofList (xs.map fun x => (name x, value x))).get? key =
      ((xs.filter (name · == key)).getLast?).map value := by
  rw [get?_ofList, List.filter_map, List.getLast?_map, Option.map_map]
  rfl

/-- What was put into a map where the key was new, step by step, has its own key and no key
twice. -/
theorem foldl_putNew (name : α → Text) (value : α → β) (xs : List α) (start : Assoc β)
    (nodup : (start.map (·.1)).Nodup) :
    let m := xs.foldl (fun m x => putNew (name x) (value x) m) start
    (m.map (·.1)).Nodup ∧ ∀ p ∈ m, p ∈ start ∨ ∃ x ∈ xs, p = (name x, value x) := by
  induction xs generalizing start with
  | nil => exact ⟨nodup, fun p hp => Or.inl hp⟩
  | cons x more ih =>
      have next : ((putNew (name x) (value x) start).map (·.1)).Nodup := by
        unfold putNew
        split
        · exact nodup
        · next new =>
          rw [List.map_append, List.map_singleton, ← List.concat_eq_append]
          refine nodup.concat fun mem => new ?_
          simpa using mem
      obtain ⟨distinct, members⟩ := ih _ next
      refine ⟨distinct, fun p hp => ?_⟩
      rcases members p hp with old | ⟨y, hy, rfl⟩
      · unfold putNew at old
        split at old
        · exact Or.inl old
        · rcases List.mem_append.mp old with old | new
          · exact Or.inl old
          · exact Or.inr ⟨x, List.mem_cons_self, List.mem_singleton.mp new⟩
      · exact Or.inr ⟨y, List.mem_cons_of_mem _ hy, rfl⟩

/-- **What was put under names where they were new**: every name once, where it came first. -/
theorem foldl_putNew_eq (value : Text → β) (names : List Text) :
    names.foldl (fun m name => putNew name (value name) m) [] =
      names.eraseDups.map fun name => (name, value name) := by
  induction names using List.reverseRecOn with
  | nil => rfl
  | append_singleton before name ih =>
      have there : (before.eraseDups.map fun name => (name, value name)).any (·.1 == name) = true ↔
          name ∈ before := by
        simp [List.mem_eraseDups]
      rw [List.foldl_append, List.foldl_cons, List.foldl_nil, ih, eraseDups_concat, putNew]
      by_cases old : name ∈ before
      · rw [if_pos (there.mpr old), if_pos old]
      · rw [if_neg fun new => old (there.mp new), if_neg old, List.map_append, List.map_singleton]

/-! ### Changing a Map -/

variable {changes : List (Text × β)}

theorem update_append (others : List (Text × β)) :
    m.update (changes ++ others) = (m.update changes).update others :=
  List.foldl_append

theorem update_concat (e : Text × β) :
    m.update (changes ++ [e]) = (m.update changes).put e.1 e.2 :=
  update_append [e]

/-- **The keys of a map that is changed**: its own in their order, then the new ones in the order in
which they came. -/
theorem keys_update :
    (m.update changes).keys = m.keys ++ (changes.map (·.1)).eraseDups.filter (· ∉ m.keys) := by
  induction changes using List.reverseRecOn with
  | nil => exact (List.append_nil m.keys).symm
  | append_singleton before e ih =>
      have known : e.1 ∈ (m.update before).keys ↔ e.1 ∈ m.keys ∨ e.1 ∈ before.map (·.1) := by
        rw [ih, List.mem_append, List.mem_filter, List.mem_eraseDups, decide_eq_true_iff]
        tauto
      rw [update_concat, keys_put, List.map_append, List.map_singleton, eraseDups_concat]
      by_cases old : e.1 ∈ before.map (·.1)
      · rw [if_pos (known.mpr (.inr old)), if_pos old, ih]
      · rw [if_neg old, List.filter_append]
        by_cases own : e.1 ∈ m.keys
        · rw [if_pos (known.mpr (.inl own)), ih]
          simp [own]
        · rw [if_neg fun mem => (known.mp mem).elim own old, ih, List.append_assoc]
          simp [own]

/-- **The values of a map that is changed**: the last change of a key counts, and a key that is not
changed keeps its value. -/
theorem get?_update : (m.update changes).get? key =
    (((changes.filter (·.1 == key)).getLast?).map (·.2)).or (m.get? key) := by
  induction changes using List.reverseRecOn with
  | nil => rfl
  | append_singleton before e ih =>
      rw [update_concat, get?_put, ih]
      by_cases same : e.1 = key <;> simp [List.filter_append, same]

theorem nodup_update (nodup : m.keys.Nodup) : (m.update changes).keys.Nodup := by
  rw [keys_update]
  refine nodup.append ((nodup_eraseDups _).filter _) fun k own new => ?_
  exact of_decide_eq_true (List.mem_filter.mp new).2 own

/-- Maps with the same keys in the same order and the same values are the same. -/
theorem eq_of_get? {n : Assoc β} (same : m.keys = n.keys) (nodup : m.keys.Nodup)
    (values : ∀ k, m.get? k = n.get? k) : m = n := by
  induction m generalizing n with
  | nil =>
      cases n with
      | nil => rfl
      | cons q n => cases same
  | cons p m ih =>
      cases n with
      | nil => cases same
      | cons q n =>
          obtain ⟨first, others⟩ := List.cons.inj same
          obtain ⟨apart, nodup⟩ := List.nodup_cons.mp nodup
          have absent {l : Assoc β} (named : l.keys = keys m) : l.get? p.1 = none := by
            refine get?_eq_none fun mem => apart ?_
            change p.1 ∈ keys m
            rwa [← named]
          have value : p.2 = q.2 := by
            have here := values p.1
            have there : q.1 = p.1 := first.symm
            simpa [get?, there] using here
          have rest : m = n := by
            refine ih others nodup fun k => ?_
            by_cases here : p.1 = k
            · rw [← here, absent rfl, absent others.symm]
            · have there : q.1 ≠ k := fun eq => here (first.trans eq)
              simpa [get?, here, there] using values k
          rw [rest, Prod.ext first value]

/-- **A map can be changed entry by entry**: it does not matter whether a map is made from the
entries first. -/
theorem update_ofList (nodup : m.keys.Nodup) : m.update (ofList changes) = m.update changes := by
  have single : ((ofList changes).map (·.1)).eraseDups = (changes.map (·.1)).eraseDups := by
    rw [eraseDups_eq_self (nodup_ofList changes)]
    exact keys_ofList changes
  have last (k : Text) : (((ofList changes).filter (·.1 == k)).getLast?).map (·.2) =
      ((changes.filter (·.1 == k)).getLast?).map (·.2) := by
    rw [← get?_ofList, ← get?_ofList, ofList_eq_self (nodup_ofList changes)]
  refine eq_of_get? ?_ (nodup_update nodup) fun k => ?_
  · rw [keys_update, keys_update, single]
  · rw [get?_update, get?_update, last]

end Assoc

end RouteDocs
