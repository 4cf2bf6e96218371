import RouteDocs.Proofs.Json.Fits

/-!
# Texts in JSON Values

The texts of a value, its keys included, and values with other texts in their place.

## Main Definitions

* `Json.texts`, `Json.keys`: the texts of a value, and those of them that are keys
* `Json.mapTexts`: a value with another text in the place of each of its texts
* `Json.MadeOf`: values without floating-point numbers, with texts and keys of given classes

## Main Statements

* `Json.MadeOf.mapTexts_eq_self_iff`: **a value stays as it is exactly if each of its texts does**
* `Json.Fits.madeOf`: what fits into limits without floating-point numbers is made of its texts
* `Json.Fits.of_texts`: the limits with another class of texts
-/

namespace RouteDocs

namespace Json

/-! ### Texts and Keys -/

mutual

/-- The texts of a value, keys included. -/
def texts : Json → List Text
  | .str t => [t]
  | .arr vs => textsOfItems vs
  | .obj ms => textsOfMembers ms
  | _ => []

/-- The texts of items. -/
def textsOfItems : List Json → List Text
  | [] => []
  | v :: more => texts v ++ textsOfItems more

/-- The texts of members. -/
def textsOfMembers : List (Text × Json) → List Text
  | [] => []
  | (k, v) :: more => k :: (texts v ++ textsOfMembers more)

end

mutual

/-- The keys in a value. -/
def keys : Json → List Text
  | .arr vs => keysOfItems vs
  | .obj ms => keysOfMembers ms
  | _ => []

/-- The keys in items. -/
def keysOfItems : List Json → List Text
  | [] => []
  | v :: more => keys v ++ keysOfItems more

/-- The keys in members, their own included. -/
def keysOfMembers : List (Text × Json) → List Text
  | [] => []
  | (k, v) :: more => k :: (keys v ++ keysOfMembers more)

end

variable {f : Text → Text} {v : Json} {P Q : Text → Prop}

theorem textsOfItems_eq (vs : List Json) : textsOfItems vs = vs.flatMap texts := by
  induction vs with
  | nil => rfl
  | cons v more ih => rw [textsOfItems, ih, List.flatMap_cons]

theorem textsOfMembers_eq (ms : List (Text × Json)) :
    textsOfMembers ms = ms.flatMap fun p => p.1 :: p.2.texts := by
  induction ms with
  | nil => rfl
  | cons p more ih => rw [textsOfMembers, ih, List.flatMap_cons, List.cons_append]

theorem keysOfItems_eq (vs : List Json) : keysOfItems vs = vs.flatMap keys := by
  induction vs with
  | nil => rfl
  | cons v more ih => rw [keysOfItems, ih, List.flatMap_cons]

theorem keysOfMembers_eq (ms : List (Text × Json)) :
    keysOfMembers ms = ms.flatMap fun p => p.1 :: p.2.keys := by
  induction ms with
  | nil => rfl
  | cons p more ih => rw [keysOfMembers, ih, List.flatMap_cons, List.cons_append]

theorem forall_mem_texts_arr {vs : List Json} :
    (∀ t ∈ (Json.arr vs).texts, P t) ↔ ∀ v ∈ vs, ∀ t ∈ v.texts, P t := by
  rw [texts, textsOfItems_eq, List.forall_mem_flatMap]

theorem forall_mem_texts_obj {ms : List (Text × Json)} :
    (∀ t ∈ (Json.obj ms).texts, P t) ↔ ∀ p ∈ ms, P p.1 ∧ ∀ t ∈ p.2.texts, P t := by
  rw [texts, textsOfMembers_eq, List.forall_mem_flatMap]
  simp only [List.forall_mem_cons]

theorem forall_mem_keys_arr {vs : List Json} :
    (∀ k ∈ (Json.arr vs).keys, P k) ↔ ∀ v ∈ vs, ∀ k ∈ v.keys, P k := by
  rw [keys, keysOfItems_eq, List.forall_mem_flatMap]

theorem forall_mem_keys_obj {ms : List (Text × Json)} :
    (∀ k ∈ (Json.obj ms).keys, P k) ↔ ∀ p ∈ ms, P p.1 ∧ ∀ k ∈ p.2.keys, P k := by
  rw [keys, keysOfMembers_eq, List.forall_mem_flatMap]
  simp only [List.forall_mem_cons]

mutual

/-- Keys are among the texts of a value. -/
theorem mem_texts_of_mem_keys {k : Text} : ∀ {v : Json}, k ∈ v.keys → k ∈ v.texts
  | .arr vs, h => mem_textsOfItems_of_mem_keys vs h
  | .obj ms, h => mem_textsOfMembers_of_mem_keys ms h

theorem mem_textsOfItems_of_mem_keys {k : Text} :
    ∀ vs : List Json, k ∈ keysOfItems vs → k ∈ textsOfItems vs
  | v :: more, h => by
    rcases List.mem_append.mp h with h | h
    · exact List.mem_append_left _ (mem_texts_of_mem_keys h)
    · exact List.mem_append_right _ (mem_textsOfItems_of_mem_keys more h)

theorem mem_textsOfMembers_of_mem_keys {k : Text} :
    ∀ ms : List (Text × Json), k ∈ keysOfMembers ms → k ∈ textsOfMembers ms
  | (key, v) :: more, h => by
    rcases List.mem_cons.mp h with rfl | h
    · exact List.mem_cons_self
    · rcases List.mem_append.mp h with h | h
      · exact List.mem_cons_of_mem _ (List.mem_append_left _ (mem_texts_of_mem_keys h))
      · exact List.mem_cons_of_mem _ (List.mem_append_right _ (mem_textsOfMembers_of_mem_keys more h))

end

/-! ### Texts Replaced -/

mutual

/-- A value with another text in the place of each of its texts, keys included. -/
def mapTexts (f : Text → Text) : Json → Json
  | .str t => .str (f t)
  | .arr vs => .arr (mapTextsOfItems f vs)
  | .obj ms => .obj (mapTextsOfMembers f ms)
  | v => v

/-- Items with other texts in them. -/
def mapTextsOfItems (f : Text → Text) : List Json → List Json
  | [] => []
  | v :: more => mapTexts f v :: mapTextsOfItems f more

/-- Members with other texts in them. -/
def mapTextsOfMembers (f : Text → Text) : List (Text × Json) → List (Text × Json)
  | [] => []
  | (k, v) :: more => (f k, mapTexts f v) :: mapTextsOfMembers f more

end

theorem mapTextsOfItems_eq (vs : List Json) : mapTextsOfItems f vs = vs.map (mapTexts f) := by
  induction vs with
  | nil => rfl
  | cons v more ih => rw [mapTextsOfItems, ih, List.map_cons]

theorem mapTextsOfMembers_eq (ms : List (Text × Json)) :
    mapTextsOfMembers f ms = ms.map fun p => (f p.1, mapTexts f p.2) := by
  induction ms with
  | nil => rfl
  | cons p more ih => rw [mapTextsOfMembers, ih, List.map_cons]

theorem list_map_eq_self_iff {α : Type} {g : α → α} {as : List α} :
    as.map g = as ↔ ∀ a ∈ as, g a = a := by
  induction as with
  | nil => simp
  | cons a more ih => rw [List.map_cons, List.cons.injEq, ih, List.forall_mem_cons]

theorem depthOfItems_eq {vs : List Json} (h : ∀ v ∈ vs, (v.mapTexts f).depth = v.depth) :
    depthOfItems (vs.map (mapTexts f)) = depthOfItems vs := by
  induction vs with
  | nil => rfl
  | cons v more ih =>
      obtain ⟨first, others⟩ := List.forall_mem_cons.mp h
      rw [List.map_cons, depthOfItems, depthOfItems, first, ih others]

theorem depthOfMembers_eq {ms : List (Text × Json)}
    (h : ∀ p ∈ ms, (p.2.mapTexts f).depth = p.2.depth) :
    depthOfMembers (ms.map fun p => (f p.1, p.2.mapTexts f)) = depthOfMembers ms := by
  induction ms with
  | nil => rfl
  | cons p more ih =>
      obtain ⟨first, others⟩ := List.forall_mem_cons.mp h
      rw [List.map_cons, depthOfMembers, depthOfMembers, first, ih others]

/-! ### Values Made of Texts -/

/-- **Values without floating-point numbers**, whose integers have a limited number of digits and
whose texts and keys are of given classes. -/
inductive MadeOf (texts keys : Text → Prop) : Json → Prop
  /-- The null value. -/
  | null : MadeOf texts keys .null
  /-- A truth value. -/
  | bool (b : Bool) : MadeOf texts keys (.bool b)
  /-- An integer with few digits. -/
  | int {i : Int} (few : Binary64.decimalLength i.natAbs ≤ maxDigits) : MadeOf texts keys (.int i)
  /-- A text of the class. -/
  | str {t : Text} (h : texts t) : MadeOf texts keys (.str t)
  /-- A list. -/
  | arr {vs : List Json} (items : ∀ v ∈ vs, MadeOf texts keys v) : MadeOf texts keys (.arr vs)
  /-- An object. -/
  | obj {ms : List (Text × Json)} (allowed : ∀ p ∈ ms, keys p.1)
      (values : ∀ p ∈ ms, MadeOf texts keys p.2) : MadeOf texts keys (.obj ms)

namespace MadeOf

theorem mapTexts (made : MadeOf P Q v) :
    MadeOf (fun _ => True) (fun _ => True) (v.mapTexts f) := by
  induction made with
  | null => exact .null
  | bool b => exact .bool b
  | int few => exact .int few
  | str _ => exact .str trivial
  | arr _ ih =>
      rw [Json.mapTexts, mapTextsOfItems_eq]
      exact .arr (List.forall_mem_map.mpr ih)
  | obj _ _ ih =>
      rw [Json.mapTexts, mapTextsOfMembers_eq]
      exact .obj (fun _ _ => trivial) (List.forall_mem_map.mpr ih)

/-- **A value stays as it is exactly if each of its texts does.** -/
theorem mapTexts_eq_self_iff (made : MadeOf P Q v) :
    v.mapTexts f = v ↔ ∀ t ∈ v.texts, f t = t := by
  induction made with
  | null | bool _ | int _ => simp [Json.mapTexts, texts]
  | str _ => simp [Json.mapTexts, texts]
  | arr _ ih =>
      rw [Json.mapTexts, mapTextsOfItems_eq, Json.arr.injEq, list_map_eq_self_iff,
        forall_mem_texts_arr]
      exact forall₂_congr ih
  | obj _ _ ih =>
      rw [Json.mapTexts, mapTextsOfMembers_eq, Json.obj.injEq, list_map_eq_self_iff,
        forall_mem_texts_obj]
      refine forall₂_congr fun p hp => ?_
      rw [← ih p hp, Prod.mk.injEq]

end MadeOf

/-- Other texts leave the nesting as it is. -/
theorem depth_mapTexts (made : MadeOf P Q v) : (v.mapTexts f).depth = v.depth := by
  induction made with
  | null | bool _ | int _ | str _ => rfl
  | arr _ ih => rw [mapTexts, mapTextsOfItems_eq, depth, depth, depthOfItems_eq ih]
  | obj _ _ ih => rw [mapTexts, mapTextsOfMembers_eq, depth, depth, depthOfMembers_eq ih]

namespace Fits

variable {ints : Int → Prop} {floats : Binary64 → Prop} {room : Nat}

/-- **What fits without floating-point numbers is made of its texts.** -/
theorem madeOf (fits : Fits ints P (fun _ => False) room v) {texts' keys' : Text → Prop}
    (few : ∀ i, ints i → Binary64.decimalLength i.natAbs ≤ maxDigits)
    (texts : ∀ t ∈ v.texts, texts' t) (keys : ∀ k ∈ v.keys, keys' k) :
    MadeOf texts' keys' v := by
  induction fits with
  | null => exact .null
  | bool b => exact .bool b
  | int h => exact .int (few _ h)
  | float none => exact none.elim
  | str _ => exact .str (texts _ (List.mem_singleton_self _))
  | arr _ ih =>
      exact .arr fun w hw =>
        ih w hw (forall_mem_texts_arr.mp texts w hw) (forall_mem_keys_arr.mp keys w hw)
  | obj _ _ _ ih =>
      have texts := forall_mem_texts_obj.mp texts
      have keys := forall_mem_keys_obj.mp keys
      exact .obj (fun p hp => (keys p hp).1) fun p hp => ih p hp (texts p hp).2 (keys p hp).2

/-- **The limits with another class of texts**, to which the texts of the value belong. -/
theorem of_texts (fits : Fits ints P floats room v) (texts : ∀ t ∈ v.texts, Q t) :
    Fits ints Q floats room v := by
  induction fits with
  | null => exact .null
  | bool b => exact .bool b
  | int h => exact .int h
  | float h => exact .float h
  | str _ => exact .str (texts _ (List.mem_singleton_self _))
  | arr _ ih => exact .arr fun w hw => ih w hw (forall_mem_texts_arr.mp texts w hw)
  | obj nodup _ _ ih =>
      have texts := forall_mem_texts_obj.mp texts
      exact .obj nodup (fun p hp => (texts p hp).1) fun p hp => ih p hp (texts p hp).2

end Fits

end Json

end RouteDocs
