import RouteDocs.Json.Decode
import RouteDocs.Proofs.Json.RoundTrip

/-!
# Decoding What Was Encoded

How decoders act on encoded data. Each combinator of decoders has one law, from which the laws for
data types are put together.

## Main Definitions

* `Json.Kept`: the members of a record that are left, with floating-point numbers replaced

## Main Statements

* `Decoder.object_record`: a record is decoded as an object of the members that are left
* `Json.Kept.member`: a part of a record is found as a member, or its default stands in
* `Decoder.list_map`, `Decoder.map_map`, `Decoder.nullable_elim`: encoded lists, maps and optional
  parts are decoded

## Design Notes

Keys of records are literals, so that their being different is left to `simp`.
-/

namespace RouteDocs

namespace Assoc

variable {β : Type} {m : Assoc β} {key : Text} {value : β}

theorem get?_eq_some (nodup : (m.map (·.1)).Nodup) (mem : (key, value) ∈ m) :
    m.get? key = some value := by
  unfold get?
  cases found : m.find? (·.1 == key) with
  | none => exact absurd (List.find?_eq_none.mp found _ mem) (by simp)
  | some p =>
      have same : p.1 = key := by simpa using List.find?_some found
      rw [List.inj_on_of_nodup_map nodup (List.mem_of_find?_eq_some found) mem same]
      rfl

theorem get?_eq_none (h : key ∉ m.map (·.1)) : m.get? key = none := by
  have absent : m.find? (·.1 == key) = none := by
    refine List.find?_eq_none.mpr fun p hp same => h ?_
    exact List.mem_map.mpr ⟨p, hp, eq_of_beq same⟩
  rw [get?, absent]
  rfl

end Assoc

/-! ### Encoded Data -/

namespace Json

variable {g : Binary64 → Json} {parts : List (Text × Json)} {ms : Assoc Json}

/-- The members of a record that are left without nulls, with other values in the places of their
floating-point numbers. -/
structure Kept (g : Binary64 → Json) (parts : List (Text × Json)) (ms : Assoc Json) : Prop where
  /-- No two parts have one name. -/
  nodup : (parts.map (·.1)).Nodup
  /-- Parts that are null are left out. -/
  eq : ms = (parts.filter fun p => !p.2.isNull).map fun p => (p.1, p.2.mapFloats g)

theorem mapFloats_record (parts : List (Text × Json)) :
    (record false parts).mapFloats g =
      .obj ((parts.filter fun p => !p.2.isNull).map fun p => (p.1, p.2.mapFloats g)) := by
  rw [record, mapFloats_obj]
  simp only [Bool.false_or]

variable {α : Type} {decode : Decoder α} {outer inner : Text} {v : Json} {default : Option α}
  {a : α}

/-- **A part of a record is found as a member, or its default stands in** if it was null. -/
theorem Kept.member (kept : Kept g parts ms) (mem : (outer, v) ∈ parts)
    (other : inner = outer ∨ inner ∉ parts.map (·.1))
    (present : v.isNull = false → decode (v.mapFloats g) = .ok a)
    (absent : v.isNull = true → default = some a) :
    Decoder.member ms outer inner default decode = .ok a := by
  have sublist : ((parts.filter fun p => !p.2.isNull).map (·.1)).Sublist (parts.map (·.1)) :=
    List.filter_sublist.map _
  have keys : ms.map (·.1) = (parts.filter fun p => !p.2.isNull).map (·.1) := by
    rw [kept.eq, List.map_map]
    rfl
  have nodup : (ms.map (·.1)).Nodup := keys ▸ kept.nodup.sublist sublist
  unfold Decoder.member
  cases null : v.isNull with
  | false =>
      have listed : (outer, v.mapFloats g) ∈ ms := by
        rw [kept.eq]
        exact List.mem_map.mpr ⟨_, List.mem_filter.mpr ⟨mem, by simp [null]⟩, rfl⟩
      rw [Assoc.get?_eq_some nodup listed]
      simp only [present null]
      rfl
  | true =>
      -- The part was left out, so that neither of the two names leads to a member.
      have notOuter : outer ∉ ms.map (·.1) := by
        rw [keys]
        rintro listed
        obtain ⟨p, hp, same⟩ := List.mem_map.mp listed
        obtain ⟨hp, notNull⟩ := List.mem_filter.mp hp
        rw [List.inj_on_of_nodup_map kept.nodup hp mem same] at notNull
        simp [null] at notNull
      have notInner : inner ∉ ms.map (·.1) := by
        rcases other with rfl | other
        · exact notOuter
        · exact fun listed => other (sublist.subset (keys ▸ listed))
      rw [Assoc.get?_eq_none notOuter, Assoc.get?_eq_none notInner, absent null]

/-- A part that is never null is found. -/
theorem Kept.found (kept : Kept g parts ms) (mem : (outer, v) ∈ parts)
    (other : inner = outer ∨ inner ∉ parts.map (·.1)) (null : v.isNull = false)
    (present : decode (v.mapFloats g) = .ok a) :
    Decoder.member ms outer inner default decode = .ok a :=
  kept.member mem other (fun _ => present) fun absent => by simp [null] at absent

end Json

namespace Decoder

open Json

variable {g : Binary64 → Json} {α β : Type} {decode : Decoder α} {encode : α → Json}
  {change : α → α}

/-- A record is decoded as an object of the members that are left. -/
theorem object_record {origin : Origin} {decode : Assoc Json → Decoded α}
    {parts : List (Text × Json)} {a : α} (nodup : (parts.map (·.1)).Nodup)
    (h : ∀ ms, Kept g parts ms → decode ms = .ok a) :
    object origin decode ((record false parts).mapFloats g) = .ok a := by
  rw [mapFloats_record]
  exact h _ ⟨nodup, rfl⟩

/-- Decoded functions are applied to decoded data. -/
theorem also_ok {f : Decoded (α → β)} {r : Decoded α} {h : α → β} {a : α} (hf : f = .ok h)
    (hr : r = .ok a) : f.also r = .ok (h a) := by
  rw [hf, hr]
  rfl

/-- Encoded items are decoded. -/
theorem list_map {as : List α} (h : ∀ a ∈ as, decode ((encode a).mapFloats g) = .ok (change a)) :
    list decode ((Json.arr (as.map encode)).mapFloats g) = .ok (as.map change) := by
  have items : ∀ i, items decode i ((as.map encode).map (mapFloats g)) = .ok (as.map change) := by
    induction as with
    | nil => exact fun _ => rfl
    | cons a more ih =>
        intro i
        rw [List.map_cons, List.map_cons, Decoder.items, h a (by simp),
          ih fun b hb => h b (List.mem_cons_of_mem a hb)]
        rfl
  rw [mapFloats_arr]
  exact items 0

/-- Encoded values of a map are decoded. -/
theorem map_map {as : Assoc α}
    (h : ∀ p ∈ as, decode ((encode p.2).mapFloats g) = .ok (change p.2)) :
    Decoder.map decode ((Json.obj (as.map fun p => (p.1, encode p.2))).mapFloats g) =
      .ok (as.map fun p => (p.1, change p.2)) := by
  have values : values decode ((as.map fun p => (p.1, encode p.2)).map fun p =>
      (p.1, p.2.mapFloats g)) = .ok (as.map fun p => (p.1, change p.2)) := by
    induction as with
    | nil => rfl
    | cons p more ih =>
        rw [List.map_cons, List.map_cons, Decoder.values, h p (by simp),
          ih fun q hq => h q (List.mem_cons_of_mem p hq)]
        rfl
  rw [mapFloats_obj]
  exact values

/-- Values of a map of free-form values are kept. -/
theorem free_map (ms : Assoc Json) :
    Decoder.map (free .document) ((Json.obj ms).mapFloats g) =
      .ok (ms.map fun p => (p.1, p.2.mapFloats g)) := by
  have mapped : Decoder.map (free .document)
      ((Json.obj (ms.map fun p => (p.1, id p.2))).mapFloats g) =
        .ok (ms.map fun p => (p.1, p.2.mapFloats g)) := map_map fun _ _ => rfl
  have same : (ms.map fun p => (p.1, id p.2)) = ms := List.map_id ms
  rwa [same] at mapped

/-- Texts are decoded. -/
theorem list_ofTexts (ts : List Text) :
    list text ((Json.ofTexts ts).mapFloats g) = .ok ts := by
  have texts : list text ((Json.arr (ts.map Json.str)).mapFloats g) = .ok (ts.map id) :=
    list_map fun _ _ => rfl
  rwa [List.map_id] at texts

/-- An optional part is decoded, and one that is absent is null. -/
theorem nullable_elim {o : Option α} (null : ∀ a, ((encode a).mapFloats g).isNull = false)
    (h : ∀ a ∈ o, decode ((encode a).mapFloats g) = .ok (change a)) :
    nullable decode ((o.elim .null encode).mapFloats g) = .ok (o.map change) := by
  cases o with
  | none => rfl
  | some a =>
      have notNull := null a
      rw [Option.elim_some, Option.map_some]
      unfold nullable
      split
      · next isNull => simp [isNull, Json.isNull] at notNull
      · rw [h a rfl]
        rfl

end Decoder

namespace Json.Kept

open Decoder

variable {g : Binary64 → Json} {parts : List (Text × Json)} {ms : Assoc Json} {outer inner : Text}
  {α : Type} {decode : Decoder α} {change : α → α}

/-- An optional part of a record is found as a member, or nothing stands in for it. -/
theorem optional (kept : Kept g parts ms) {o : Option α} (encode : α → Json)
    (mem : (outer, o.elim .null encode) ∈ parts) (other : inner = outer ∨ inner ∉ parts.map (·.1))
    (null : ∀ a, (encode a).isNull = false ∧ ((encode a).mapFloats g).isNull = false)
    (h : ∀ a ∈ o, decode ((encode a).mapFloats g) = .ok (change a)) :
    Decoder.member ms outer inner (some none) (nullable decode) = .ok (o.map change) := by
  refine kept.member mem other (fun _ => nullable_elim (fun a => (null a).2) h) fun isNull => ?_
  cases o with
  | none => rfl
  | some a => simp [(null a).1] at isNull

/-- An optional text of a record is found. -/
theorem optionalText (kept : Kept g parts ms) {t : Option Text}
    (mem : (outer, Json.ofText? t) ∈ parts) (other : inner = outer ∨ inner ∉ parts.map (·.1)) :
    Decoder.member ms outer inner (some none) (nullable text) = .ok t := by
  have part : (outer, t.elim .null Json.str) ∈ parts := mem
  have found : Decoder.member ms outer inner (some none) (nullable text) = .ok (t.map id) :=
    kept.optional .str part other (fun _ => ⟨rfl, rfl⟩) fun _ _ => rfl
  rwa [Option.map_id] at found

/-- A free part of a record is found, null or not. -/
theorem free (kept : Kept g parts ms) {v : Json} (mem : (outer, v) ∈ parts)
    (other : inner = outer ∨ inner ∉ parts.map (·.1)) :
    Decoder.member ms outer inner (some .null) (Decoder.free .document) = .ok (v.mapFloats g) := by
  refine kept.member mem other (fun _ => rfl) fun isNull => ?_
  cases v with
  | null => rfl
  | _ => cases isNull

end Json.Kept

end RouteDocs
