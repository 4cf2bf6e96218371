import Mathlib.Data.List.Basic
import Mathlib.Data.List.Induction
import Mathlib.Data.List.Nodup
import Mathlib.Order.Fin.Basic
import RouteDocs.Render.Grouping

/-!
# What Groups Hold

The groups of a list by a key are named by the keys in the order in which they first occur, and the
group of a key holds the elements with that key in the order of the list.

## Main Definitions

* `Grouped`: groups under different keys, each of which holds elements with its key
* `StablePartition`: a list cut into its groups

## Main Statements

* `eraseDups_concat`, `nodup_eraseDups`: how one more element changes a list without repetitions
* `groupBy_eq`: **the groups of a list**
* `mem_groupBy_iff`: which groups there are, and what they hold
* `perm_flatMap_groupBy`: the groups together hold each element once
* `groupBy_flatMap`: what is grouped stays as it is when it is grouped again
* `endpoints_grouped`: **endpoints are grouped by tag and by category**

## Design Notes

Groups are filled from the front of the list, so the inductions add an element at its end.
-/

namespace RouteDocs

/-! ### Lists without Repetitions -/

theorem eraseDups_concat (ks : List Text) (k : Text) :
    (ks ++ [k]).eraseDups = if k ∈ ks then ks.eraseDups else ks.eraseDups ++ [k] := by
  rw [List.eraseDups_append]
  by_cases old : k ∈ ks <;> simp [List.removeAll, List.eraseDups_cons, old]

theorem nodup_eraseDups (ks : List Text) : ks.eraseDups.Nodup := by
  induction ks using List.reverseRecOn with
  | nil => exact List.nodup_nil
  | append_singleton before k ih =>
      rw [eraseDups_concat]
      split
      · exact ih
      · next new =>
        rw [← List.concat_eq_append]
        exact ih.concat (by simpa using new)

/-- The elements that are kept stand in the order in which they first occur. -/
theorem pairwise_eraseDups (ks : List Text) :
    ks.eraseDups.Pairwise fun j k => ks.idxOf j < ks.idxOf k := by
  induction ks using List.reverseRecOn with
  | nil => exact List.Pairwise.nil
  | append_singleton before k ih =>
      have old : ∀ j ∈ before.eraseDups, (before ++ [k]).idxOf j = before.idxOf j := fun j mem =>
        List.idxOf_append_of_mem (List.mem_eraseDups.mp mem)
      have kept : before.eraseDups.Pairwise fun i j =>
          (before ++ [k]).idxOf i < (before ++ [k]).idxOf j := by
        refine ih.imp_of_mem fun {i j} hi hj lt => ?_
        rwa [old i hi, old j hj]
      rw [eraseDups_concat]
      split
      · exact kept
      · next new =>
        refine List.pairwise_append.mpr ⟨kept, List.pairwise_singleton _ k, fun j mem i last => ?_⟩
        rw [List.mem_singleton.mp last, old j mem, List.idxOf_append_of_notMem new]
        exact Nat.lt_add_right _ (List.idxOf_lt_length_of_mem (List.mem_eraseDups.mp mem))

theorem eraseDups_eq_self {ks : List Text} (nodup : ks.Nodup) : ks.eraseDups = ks := by
  induction ks using List.reverseRecOn with
  | nil => rfl
  | append_singleton before k ih =>
      obtain ⟨first, -, apart⟩ := List.nodup_append.mp nodup
      have new : k ∉ before := fun mem => apart k mem k List.mem_cons_self rfl
      rw [eraseDups_concat, if_neg new, ih first]

/-! ### Groups -/

variable {α : Type} {key : α → Text} {members : Text → List α} {x : α}

/-- An element joins the group of its key and leaves the other groups as they are. -/
theorem addToGroup_of_mem {ks : List Text} {k : Text} (nodup : ks.Nodup) (mem : k ∈ ks) :
    addToGroup k x (ks.map fun j => (j, members j)) =
      ks.map fun j => (j, if j = k then members j ++ [x] else members j) := by
  induction ks with
  | nil => cases mem
  | cons j more ih =>
      obtain ⟨apart, nodup⟩ := List.nodup_cons.mp nodup
      rw [List.map_cons, List.map_cons, addToGroup]
      by_cases same : j = k
      · rw [if_pos (by simpa using same), if_pos same]
        congr 1
        refine List.map_congr_left fun i hi => ?_
        have other : i ≠ k := fun eq => apart (same.trans eq.symm ▸ hi)
        rw [if_neg other]
      · rw [if_neg (by simpa using same), if_neg same]
        rw [ih nodup ((List.mem_cons.mp mem).resolve_left (Ne.symm same))]

/-- An element with a new key begins a group, after the other groups. -/
theorem addToGroup_of_notMem {k : Text} {groups : Assoc (List α)} (new : k ∉ groups.map (·.1)) :
    addToGroup k x groups = groups ++ [(k, [x])] := by
  induction groups with
  | nil => rfl
  | cons g more ih =>
      rw [List.map_cons, List.mem_cons, not_or] at new
      rw [addToGroup, if_neg (by simpa using Ne.symm new.1), ih new.2]
      rfl

theorem groupBy_concat (key : α → Text) (xs : List α) (x : α) :
    groupBy key (xs ++ [x]) = addToGroup (key x) x (groupBy key xs) := by
  rw [groupBy, List.foldl_append]
  rfl

/-- **The groups of a list**: each key in the order of its first element, each group in the order of
the list. -/
theorem groupBy_eq (key : α → Text) (xs : List α) :
    groupBy key xs = (xs.map key).eraseDups.map fun k => (k, xs.filter (key · == k)) := by
  induction xs using List.reverseRecOn with
  | nil => rfl
  | append_singleton before x ih =>
      rw [groupBy_concat, ih, List.map_append, List.map_singleton, eraseDups_concat]
      split
      · next old =>
        rw [addToGroup_of_mem (nodup_eraseDups _) (by simpa using old)]
        refine List.map_congr_left fun k _ => ?_
        by_cases same : k = key x
        · rw [if_pos same]
          simp [List.filter_append, same]
        · rw [if_neg same]
          simp [List.filter_append, Ne.symm same]
      · next new =>
        have absent : key x ∉ ((before.map key).eraseDups.map fun k =>
            (k, before.filter (key · == k))).map (·.1) := by
          simpa using new
        rw [addToGroup_of_notMem absent, List.map_append]
        congr 1
        · refine List.map_congr_left fun k hk => ?_
          have apart : key x ≠ k := fun same => new (by simpa [same] using hk)
          simp [List.filter_append, apart]
        · have none : before.filter (key · == key x) = [] := by
            simpa using new
          simp [List.filter_append, none]

/-- The groups are those of the keys that occur. -/
theorem mem_groupBy_iff {xs group : List α} {k : Text} :
    (k, group) ∈ groupBy key xs ↔ (∃ x ∈ xs, key x = k) ∧ group = xs.filter (key · == k) := by
  rw [groupBy_eq, List.mem_map]
  constructor
  · rintro ⟨j, occurs, eq⟩
    obtain ⟨rfl, rfl⟩ := Prod.mk.inj eq
    exact ⟨List.mem_map.mp (List.mem_eraseDups.mp occurs), rfl⟩
  · rintro ⟨occurs, rfl⟩
    exact ⟨k, List.mem_eraseDups.mpr (List.mem_map.mpr occurs), rfl⟩

/-- The elements of a group have its key. -/
theorem mem_group_iff {xs group : List α} {k : Text} (listed : (k, group) ∈ groupBy key xs) :
    x ∈ group ↔ x ∈ xs ∧ key x = k := by
  rw [(mem_groupBy_iff.mp listed).2, List.mem_filter, beq_iff_eq]

/-- An element joins one of the groups. -/
theorem perm_flatMap_addToGroup (k : Text) (x : α) (groups : Assoc (List α)) :
    ((addToGroup k x groups).flatMap (·.2)).Perm (groups.flatMap (·.2) ++ [x]) := by
  induction groups with
  | nil => exact List.Perm.refl _
  | cons group more ih =>
      obtain ⟨j, xs⟩ := group
      rw [addToGroup]
      split
      · rw [List.flatMap_cons, List.flatMap_cons, List.append_assoc, List.append_assoc]
        exact List.perm_append_comm.append_left xs
      · rw [List.flatMap_cons, List.flatMap_cons, List.append_assoc]
        exact ih.append_left xs

/-- **The groups together hold each element once.** -/
theorem perm_flatMap_groupBy (key : α → Text) (xs : List α) :
    ((groupBy key xs).flatMap (·.2)).Perm xs := by
  induction xs using List.reverseRecOn with
  | nil => exact List.Perm.refl _
  | append_singleton before x ih =>
      rw [groupBy_concat]
      exact (perm_flatMap_addToGroup _ _ _).trans (ih.append_right [x])

/-! ### Grouping Again -/

/-- **Groups under different keys**, each of which holds something and nothing without its key. -/
structure Grouped (key : α → Text) (groups : Assoc (List α)) : Prop where
  /-- The groups have different keys. -/
  distinct : (groups.map (·.1)).Nodup
  /-- No group is empty. -/
  nonempty : ∀ g ∈ groups, g.2 ≠ []
  /-- What is in a group has its key. -/
  own : ∀ g ∈ groups, ∀ x ∈ g.2, key x = g.1

theorem grouped_groupBy (key : α → Text) (xs : List α) : Grouped key (groupBy key xs) where
  distinct := by
    rw [groupBy_eq, List.map_map]
    exact (List.map_id _).symm ▸ nodup_eraseDups _
  nonempty := by
    rintro ⟨k, group⟩ listed
    obtain ⟨⟨x, mem, same⟩, -⟩ := mem_groupBy_iff.mp listed
    exact List.ne_nil_of_mem ((mem_group_iff listed).mpr ⟨mem, same⟩)
  own := by
    rintro ⟨k, group⟩ listed x mem
    exact ((mem_group_iff listed).mp mem).2

/-- An element joins the last group. -/
theorem addToGroup_concat {k : Text} {groups : Assoc (List α)} (new : k ∉ groups.map (·.1))
    (group : List α) :
    addToGroup k x (groups ++ [(k, group)]) = groups ++ [(k, group ++ [x])] := by
  induction groups with
  | nil => rw [List.nil_append, addToGroup, if_pos (beq_self_eq_true k), List.nil_append]
  | cons g more ih =>
      rw [List.map_cons, List.mem_cons, not_or] at new
      rw [List.cons_append, addToGroup, if_neg (by simpa using Ne.symm new.1), ih new.2]
      rfl

/-- Elements with one new key, put behind a list, become its last group. -/
theorem groupBy_append_group {xs group : List α} {k : Text} (ne : group ≠ [])
    (own : ∀ x ∈ group, key x = k) (new : k ∉ (groupBy key xs).map (·.1)) :
    groupBy key (xs ++ group) = groupBy key xs ++ [(k, group)] := by
  induction group using List.reverseRecOn with
  | nil => exact absurd rfl ne
  | append_singleton before x ih =>
      have last : key x = k := own x (List.mem_append_right _ List.mem_cons_self)
      rw [← List.append_assoc, groupBy_concat, last]
      by_cases first : before = []
      · rw [first, List.append_nil, addToGroup_of_notMem new]
        rfl
      · rw [ih first fun y mem => own y (List.mem_append_left _ mem)]
        exact addToGroup_concat new before

/-- **What is grouped stays as it is**: the groups of groups that are put one after another are
these groups. -/
theorem groupBy_flatMap {groups : Assoc (List α)} (grouped : Grouped key groups) :
    groupBy key (groups.flatMap (·.2)) = groups := by
  induction groups using List.reverseRecOn with
  | nil => rfl
  | append_singleton before g ih =>
      have earlier : Grouped key before :=
        { distinct := (List.nodup_append.mp (List.map_append ▸ grouped.distinct)).1
          nonempty := fun h mem => grouped.nonempty h (List.mem_append_left _ mem)
          own := fun h mem => grouped.own h (List.mem_append_left _ mem) }
      have mem : g ∈ before ++ [g] := List.mem_append_right _ List.mem_cons_self
      have new : g.1 ∉ before.map (·.1) := by
        intro old
        have apart := (List.nodup_append.mp (List.map_append ▸ grouped.distinct)).2.2
        exact apart g.1 old g.1 List.mem_cons_self rfl
      rw [List.flatMap_append, List.flatMap_singleton,
        groupBy_append_group (grouped.nonempty g mem) (grouped.own g mem) (by rwa [ih earlier]),
        ih earlier]

/-! ### Stable Partitions -/

/-- **A list cut into its groups**: there is a group for each key that occurs, in the order in
which the keys first occur, and it holds the elements with that key as the list has them. -/
structure StablePartition (key : α → Text) (xs : List α) (groups : Assoc (List α)) : Prop where
  /-- The groups have different keys. -/
  distinct : (groups.map (·.1)).Nodup
  /-- The keys of the groups are those of the elements. -/
  occurs : ∀ k, k ∈ groups.map (·.1) ↔ ∃ x ∈ xs, key x = k
  /-- The keys stand in the order in which they first occur. -/
  ordered : groups.Pairwise fun g h => (xs.map key).idxOf g.1 < (xs.map key).idxOf h.1
  /-- No group is empty. -/
  nonempty : ∀ g ∈ groups, g.2 ≠ []
  /-- A group is what the list has with its key, in the order of the list. -/
  members : ∀ g ∈ groups, g.2 = xs.filter (key · == g.1)
  /-- The groups together hold each element as often as the list. -/
  perm : (groups.flatMap (·.2)).Perm xs

theorem stablePartition_groupBy (key : α → Text) (xs : List α) :
    StablePartition key xs (groupBy key xs) where
  distinct := (grouped_groupBy key xs).distinct
  occurs k := by
    have keys : (groupBy key xs).map (·.1) = (xs.map key).eraseDups := by
      rw [groupBy_eq, List.map_map]
      exact List.map_id _
    rw [keys, List.mem_eraseDups, List.mem_map]
  ordered := by
    rw [groupBy_eq, List.pairwise_map]
    exact pairwise_eraseDups (xs.map key)
  nonempty := (grouped_groupBy key xs).nonempty
  members := fun _ listed => (mem_groupBy_iff.mp listed).2
  perm := perm_flatMap_groupBy key xs

/-- **Endpoints are grouped by tag and by category**: the groups of a list are a stable partition
of it, and they come out again when they are put one after another and grouped once more. -/
theorem endpoints_grouped (es : List Endpoint) :
    (StablePartition Endpoint.groupTag es (groupByTag es) ∧
      groupByTag ((groupByTag es).flatMap (·.2)) = groupByTag es) ∧
    StablePartition Endpoint.category es (groupByCategory es) ∧
      groupByCategory ((groupByCategory es).flatMap (·.2)) = groupByCategory es :=
  ⟨⟨stablePartition_groupBy _ es, groupBy_flatMap (grouped_groupBy _ es)⟩,
    stablePartition_groupBy _ es, groupBy_flatMap (grouped_groupBy _ es)⟩

end RouteDocs
