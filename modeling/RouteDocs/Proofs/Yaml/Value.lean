import Mathlib.Data.List.Forall2
import RouteDocs.Proofs.Json.Fits
import RouteDocs.Proofs.Yaml.Node

/-!
# Values of Nodes

The nodes of a value have no faults, and they are read as the value.

## Main Definitions

* `Yaml.Value.ofJson`: the value that a JSON value is in a document
* `Yaml.Graph.Holds`, `Yaml.Graph.IsHeld`: the nodes of a value stand in a document from a number on

## Main Statements

* `Yaml.Value.ofJson_inj`: different JSON values are different values
* `Yaml.Value.toJson_ofJson`: **the JSON form of a value is the one that it came from**
* `Yaml.Graph.IsHeld.check`: **a value that is held has no faults**
* `Yaml.Graph.Holds.value`: **a value that is held is read**, down to its depth
* `Yaml.read_of_makes`: **what is made of the tokens of a value is read as the value**

## Design Notes

Nodes are checked level by level and not along the value, so the invariant of the check is that each
node of a level is held for some value.
-/

namespace RouteDocs

namespace Yaml

namespace Value

/-! ### Values of JSON -/

mutual

/-- The value that a JSON value is in a document. -/
def ofJson : Json → Value
  | .null => .null
  | .bool b => .truth b
  | .int i => .integer i
  | .float x => .float x
  | .str t => .text t
  | .arr vs => .list (itemsOfJson vs)
  | .obj ms => .map (membersOfJson ms)

/-- The values that items are in a document. -/
def itemsOfJson : List Json → List Value
  | [] => []
  | v :: more => ofJson v :: itemsOfJson more

/-- The entries that members are in a document. -/
def membersOfJson : List (Text × Json) → List (Value × Value)
  | [] => []
  | (k, v) :: more => (.text k, ofJson v) :: membersOfJson more

end

mutual

/-- Different JSON values are different values. -/
theorem ofJson_inj : ∀ {v w : Json}, ofJson v = ofJson w → v = w
  | .null, w, same | .bool _, w, same | .int _, w, same | .float _, w, same | .str _, w, same => by
    cases w <;> cases same
    rfl
  | .arr vs, w, same => by
    cases w with
    | arr ws => exact congrArg Json.arr (itemsOfJson_inj (Value.list.inj same))
    | _ => cases same
  | .obj ms, w, same => by
    cases w with
    | obj ns => exact congrArg Json.obj (membersOfJson_inj (Value.map.inj same))
    | _ => cases same

theorem itemsOfJson_inj : ∀ {vs ws : List Json}, itemsOfJson vs = itemsOfJson ws → vs = ws
  | [], ws, same => by
    cases ws with
    | nil => rfl
    | cons => cases same
  | v :: vs, ws, same => by
    cases ws with
    | nil => cases same
    | cons w ws =>
        obtain ⟨first, others⟩ := List.cons.inj same
        rw [ofJson_inj first, itemsOfJson_inj others]

theorem membersOfJson_inj :
    ∀ {ms ns : List (Text × Json)}, membersOfJson ms = membersOfJson ns → ms = ns
  | [], ns, same => by
    cases ns with
    | nil => rfl
    | cons => cases same
  | (k, v) :: ms, ns, same => by
    cases ns with
    | nil => cases same
    | cons p ns =>
        obtain ⟨first, others⟩ := List.cons.inj same
        obtain ⟨key, value⟩ := Prod.mk.inj first
        rw [Value.text.inj key, ofJson_inj value, membersOfJson_inj others]

end

@[simp] theorem isBytes_ofJson (v : Json) : (ofJson v).isBytes = false := by
  cases v <;> rfl

mutual

/-- **The JSON form of a value is the one that it came from**, if keys stand once. -/
theorem toJson_ofJson {isWord : Text → Bool} {ints : Int → Prop} {texts : Text → Prop}
    {floats : Binary64 → Prop} {room : Nat} :
    ∀ v, Json.Fits ints texts floats room v → (ofJson v).toJson isWord = v
  | .null, _ | .bool _, _ | .int _, _ | .float _, _ | .str _, _ => rfl
  | .arr vs, fits => by
    cases fits with
    | arr items => exact congrArg Json.arr (itemsToJson_ofJson vs items)
  | .obj ms, fits => by
    cases fits with
    | obj nodup _ values =>
        have entries : entriesToJson isWord (membersOfJson ms) = ms :=
          entriesToJson_ofJson ms values
        rw [ofJson, toJson, entries, Assoc.ofList_eq_self nodup]

theorem itemsToJson_ofJson {isWord : Text → Bool} {ints : Int → Prop} {texts : Text → Prop}
    {floats : Binary64 → Prop} {room : Nat} :
    ∀ vs, (∀ v ∈ vs, Json.Fits ints texts floats room v) →
      itemsToJson isWord (itemsOfJson vs) = vs
  | [], _ => rfl
  | v :: more, fits => by
    obtain ⟨first, others⟩ := List.forall_mem_cons.mp fits
    rw [itemsOfJson, itemsToJson, toJson_ofJson v first, itemsToJson_ofJson more others]

theorem entriesToJson_ofJson {isWord : Text → Bool} {ints : Int → Prop} {texts : Text → Prop}
    {floats : Binary64 → Prop} {room : Nat} :
    ∀ ms : List (Text × Json), (∀ p ∈ ms, Json.Fits ints texts floats room p.2) →
      entriesToJson isWord (membersOfJson ms) = ms
  | [], _ => rfl
  | (k, v) :: more, fits => by
    obtain ⟨first, others⟩ := List.forall_mem_cons.mp fits
    rw [membersOfJson, entriesToJson, toJson_ofJson v first, entriesToJson_ofJson more others]
    simp

end

end Value

namespace Graph

variable {g : Graph} {n : Nat} {v : Json} {vs : List Json} {ms : List (Text × Json)}
  {pre post : List Node} {x : Node} {tag : Tag} {t : Text} {texts keys : Text → Prop}

/-! ### Values Held -/

/-- The nodes of a value stand in a document from a number on. -/
def Holds (g : Graph) (n : Nat) (v : Json) : Prop :=
  ∃ pre post, pre.length = n ∧ g.nodes = pre ++ nodesOf n v ++ post

theorem node_eq (h : g.nodes = pre ++ x :: post) : g.node pre.length = x := by
  rw [node, h, List.getElem?_append_right le_rfl, Nat.sub_self]
  rfl

theorem holds_items (h : g.nodes = pre ++ itemNodes pre.length vs ++ post) :
    List.Forall₂ g.Holds (itemNumbers pre.length vs) vs := by
  induction vs generalizing pre with
  | nil => exact .nil
  | cons v more ih =>
      rw [itemNodes] at h
      refine .cons ⟨pre, _, rfl, h.trans (by rw [List.append_assoc, List.append_assoc, ← List.append_assoc])⟩ ?_
      rw [← List.length_append]
      exact ih (h.trans (by simp))

/-- What a list in a document consists of. -/
theorem Holds.arr (h : g.Holds n (.arr vs)) :
    g.node n = ⟨.sequence, .sequence (itemNumbers (n + 1) vs)⟩ ∧
      List.Forall₂ g.Holds (itemNumbers (n + 1) vs) vs := by
  obtain ⟨pre, post, rfl, nodes⟩ := h
  rw [nodesOf] at nodes
  refine ⟨node_eq (nodes.trans (List.append_assoc _ _ _)), ?_⟩
  obtain ⟨first, count, same⟩ : ∃ first : List Node, first.length = pre.length + 1 ∧
      g.nodes = first ++ itemNodes first.length vs ++ post :=
    ⟨pre ++ [⟨.sequence, .sequence (itemNumbers (pre.length + 1) vs)⟩], by simp, by
      rw [List.length_append]; exact nodes.trans (by simp)⟩
  rw [← count]
  exact holds_items same

/-- A member in a document: its key is a text, and its value is held. -/
def HoldsMember (g : Graph) (e : Nat × Nat) (p : Text × Json) : Prop :=
  g.node e.1 = ⟨.text, .scalar p.1⟩ ∧ g.Holds e.2 p.2

theorem holds_members (h : g.nodes = pre ++ memberNodes pre.length ms ++ post) :
    List.Forall₂ g.HoldsMember (memberNumbers pre.length ms) ms := by
  induction ms generalizing pre with
  | nil => exact .nil
  | cons p more ih =>
      obtain ⟨k, v⟩ := p
      rw [memberNodes] at h
      have length : (pre ++ [(⟨.text, .scalar k⟩ : Node)]).length = pre.length + 1 := by simp
      refine .cons ⟨node_eq (h.trans (List.append_assoc _ _ _)), pre ++ [⟨.text, .scalar k⟩], _, length,
        h.trans (by simp; rfl)⟩ ?_
      obtain ⟨first, count, same⟩ : ∃ first : List Node,
          first.length = pre.length + 1 + (nodesOf (pre.length + 1) v).length ∧
            g.nodes = first ++ memberNodes first.length more ++ post :=
        ⟨pre ++ [⟨.text, .scalar k⟩] ++ nodesOf (pre.length + 1) v, by rw [List.length_append, length],
          by rw [List.length_append, length]; exact h.trans (by simp)⟩
      rw [← count]
      exact ih same

/-- What an object in a document consists of. -/
theorem Holds.obj (h : g.Holds n (.obj ms)) :
    g.node n = ⟨.mapping, .mapping (memberNumbers (n + 1) ms)⟩ ∧
      List.Forall₂ g.HoldsMember (memberNumbers (n + 1) ms) ms := by
  obtain ⟨pre, post, rfl, nodes⟩ := h
  rw [nodesOf] at nodes
  refine ⟨node_eq (nodes.trans (List.append_assoc _ _ _)), ?_⟩
  obtain ⟨first, count, same⟩ : ∃ first : List Node, first.length = pre.length + 1 ∧
      g.nodes = first ++ memberNodes first.length ms ++ post :=
    ⟨pre ++ [⟨.mapping, .mapping (memberNumbers (pre.length + 1) ms)⟩], by simp, by
      rw [List.length_append]; exact nodes.trans (by simp)⟩
  rw [← count]
  exact holds_members same

/-! ### Scalars -/

theorem scalar_eq (h : g.node n = ⟨tag, .scalar t⟩) (tag' : Tag) :
    g.scalar n tag' = Value.ofScalar tag' t := by
  rw [scalar, size, scalarText?, h]

/-- **A scalar in a document is the value that was written.** -/
theorem Holds.scalar (h : g.Holds n v) (made : Json.MadeOf texts keys v)
    (atom : (g.node n).tag.isCollection = false) :
    g.scalar n (g.node n).tag = .ok (.ofJson v) := by
  have node {tag : Tag} {t : Text} (one : ∀ n, nodesOf n v = [⟨tag, .scalar t⟩]) :
      g.node n = ⟨tag, .scalar t⟩ := by
    obtain ⟨pre, post, rfl, nodes⟩ := h
    rw [one] at nodes
    exact node_eq (nodes.trans (List.append_assoc _ _ _))
  cases made with
  | null => rw [scalar_eq (node fun _ => rfl), node fun _ => rfl]; rfl
  | bool b => rw [scalar_eq (node fun _ => rfl), node fun _ => rfl]; cases b <;> rfl
  | @int i few =>
      rw [scalar_eq (node fun _ => rfl), node fun _ => rfl]
      change ((readInteger (Text.ofInt i)).map Value.integer |>.mapError Fault.scalar) = _
      rw [readInteger_ofInt few]
      rfl
  | str _ => rw [scalar_eq (node fun _ => rfl), node fun _ => rfl]; rfl
  | arr _ =>
      rw [h.arr.1] at atom
      cases atom
  | obj _ _ =>
      rw [h.obj.1] at atom
      cases atom

/-! ### No Faults -/

/-- A value without floating-point numbers is held from a number on. -/
def IsHeld (g : Graph) (n : Nat) : Prop :=
  ∃ v, Json.MadeOf (fun _ => True) (fun _ => True) v ∧ g.Holds n v

theorem IsHeld.checkPart (h : g.IsHeld n) : g.checkPart n (g.node n).tag = .ok () := by
  obtain ⟨v, made, holds⟩ := h
  unfold Graph.checkPart
  split
  · rfl
  · next atom =>
    rw [holds.scalar made (Bool.eq_false_iff.mpr atom)]
    rfl

/-- A mapping without the key `<<` has its own entries only. -/
theorem allEntries_eq {entries : List (Nat × Nat)} (h : g.node n = ⟨.mapping, .mapping entries⟩)
    (plain : ∀ e ∈ entries, (g.node e.1).tag ≠ .merge) : g.allEntries n = .ok entries := by
  have own : entries.filter (fun e => !(g.node e.1).tag == .merge) = entries :=
    List.filter_eq_self.mpr fun e he => by simpa using plain e he
  have taken : entries.filter (fun e => (g.node e.1).tag == .merge) = [] :=
    List.filter_eq_nil_iff.mpr fun e he => by simpa using plain e he
  rw [allEntries, size, Graph.entries, h]
  simp only [List.contains_nil, Bool.false_eq_true, if_false, own, taken]
  rfl

theorem holdsMember_key {e : Nat × Nat} {p : Text × Json} (h : g.HoldsMember e p) :
    (g.node e.1).tag = .text ∧ g.keyTag e.1 = .text ∧
      g.scalar e.1 .text = .ok (.text p.1) := by
  obtain ⟨key, -⟩ := h
  refine ⟨by rw [key], by rw [keyTag, key]; rfl, ?_⟩
  rw [scalar_eq key]
  rfl

/-- What is done with each of some things fails with none of them. -/
theorem forM_eq_ok {α : Type} {f : α → Except Fault Unit} {as : List α}
    (each : ∀ a ∈ as, f a = .ok ()) : as.forM f = .ok () := by
  induction as with
  | nil => rfl
  | cons a more ih =>
      obtain ⟨first, others⟩ := List.forall_mem_cons.mp each
      change f a >>= _ = _
      rw [first]
      exact ih others

theorem exists_of_forall₂ {α β : Type} {related : α → β → Prop} {as : List α} {bs : List β}
    (h : List.Forall₂ related as bs) : ∀ a ∈ as, ∃ b ∈ bs, related a b := by
  induction h with
  | nil => nofun
  | cons first _ ih =>
      refine List.forall_mem_cons.mpr ⟨⟨_, List.mem_cons_self, first⟩, fun a ha => ?_⟩
      obtain ⟨b, hb, others⟩ := ih a ha
      exact ⟨b, List.mem_cons_of_mem _ hb, others⟩

/-- **The parts of a collection have no faults**, and they are values that are held. -/
theorem IsHeld.checkParts (h : g.IsHeld n) (collection : (g.node n).tag.isCollection = true) :
    ∃ parts, g.checkParts n = .ok parts ∧ ∀ i ∈ parts, g.IsHeld i := by
  obtain ⟨v, made, holds⟩ := h
  have noAtom (atom : ∃ tag t, nodesOf n v = [⟨tag, .scalar t⟩] ∧ tag.isCollection = false) : False := by
    obtain ⟨tag, t, one, atom⟩ := atom
    obtain ⟨pre, post, rfl, nodes⟩ := holds
    rw [one] at nodes
    rw [node_eq (nodes.trans (List.append_assoc _ _ _)), atom] at collection
    cases collection
  cases made with
  | null => exact (noAtom ⟨_, _, rfl, rfl⟩).elim
  | bool b => exact (noAtom ⟨_, _, rfl, rfl⟩).elim
  | int _ => exact (noAtom ⟨_, _, rfl, rfl⟩).elim
  | str _ => exact (noAtom ⟨_, _, rfl, rfl⟩).elim
  | @arr vs items =>
      obtain ⟨node, each⟩ := holds.arr
      have held : ∀ i ∈ itemNumbers (n + 1) vs, g.IsHeld i := by
        intro i hi
        obtain ⟨v, hv, holds⟩ := exists_of_forall₂ each i hi
        exact ⟨v, items v hv, holds⟩
      refine ⟨_, ?_, held⟩
      unfold Graph.checkParts
      rw [node]
      change (itemNumbers (n + 1) vs).forM _ >>= _ = _
      rw [forM_eq_ok fun i hi => (held i hi).checkPart]
      rfl
  | @obj ms _ values =>
      obtain ⟨node, each⟩ := holds.obj
      have members : ∀ e ∈ memberNumbers (n + 1) ms, ∃ p ∈ ms, g.HoldsMember e p :=
        exists_of_forall₂ each
      have held : ∀ e ∈ memberNumbers (n + 1) ms, g.IsHeld e.2 := by
        intro e he
        obtain ⟨p, hp, holds⟩ := members e he
        exact ⟨p.2, values p hp, holds.2⟩
      have all := allEntries_eq node fun e he => by
        obtain ⟨p, -, holds⟩ := members e he
        rw [(holdsMember_key holds).1]
        nofun
      refine ⟨(memberNumbers (n + 1) ms).map (·.2), ?_, List.forall_mem_map.mpr held⟩
      unfold Graph.checkParts
      rw [node]
      change (g.allEntries n >>= _) = _
      rw [all]
      change ((memberNumbers (n + 1) ms).forM (m := Except Fault) _ >>= _) = _
      rw [forM_eq_ok fun e he => ?_]
      · rfl
      obtain ⟨p, -, holds⟩ := members e he
      obtain ⟨-, text, key⟩ := holdsMember_key holds
      dsimp only
      rw [text]
      change (g.checkPart e.1 .text >>= fun _ => g.checkPart e.2 _) = _
      rw [(held e he).checkPart, Graph.checkPart, key]
      rfl

/-- **Collections that are held have no faults**, on whatever level. -/
theorem checkLevels_eq_ok {queue : List Nat} (turns : Nat) (met : List Nat)
    (held : ∀ i ∈ queue, g.IsHeld i ∧ (g.node i).tag.isCollection = true) :
    g.checkLevels turns met queue = .ok () := by
  induction turns generalizing met queue with
  | zero => rfl
  | succ turns ih =>
      cases queue with
      | nil => rfl
      | cons n queue =>
          obtain ⟨⟨first, collection⟩, others⟩ := List.forall_mem_cons.mp held
          obtain ⟨parts, checked, inner⟩ := first.checkParts collection
          rw [checkLevels, checked]
          refine ih _ fun i hi => ?_
          rcases List.mem_append.mp hi with hi | hi
          · exact others i hi
          · obtain ⟨mem, test⟩ := List.mem_filter.mp (List.mem_eraseDups.mp hi)
            exact ⟨inner i mem, (Bool.and_eq_true_iff.mp test).1⟩

/-- **A value that is held has no faults.** -/
theorem IsHeld.check (h : g.IsHeld n) : g.check n = .ok () := by
  unfold Graph.check
  split
  · next collection => exact checkLevels_eq_ok _ _ (by simpa using ⟨h, collection⟩)
  · exact h.checkPart

/-! ### Values Read -/

theorem value_atom (atom : (g.node n).tag.isCollection = false) (depth : Nat) :
    g.value depth n = g.scalarValue n (g.node n).tag := by
  cases node : g.node n with
  | mk tag content =>
      rw [node] at atom
      cases depth with
      | zero =>
          rw [Graph.value, node]
          cases tag <;> first | rfl | cases atom
      | succ depth =>
          rw [Graph.value, node]
          cases tag <;> first | rfl | cases atom

theorem itemsOfJson_eq (vs : List Json) : Value.itemsOfJson vs = vs.map Value.ofJson := by
  induction vs with
  | nil => rfl
  | cons v more ih => rw [Value.itemsOfJson, ih, List.map_cons]

theorem membersOfJson_eq (ms : List (Text × Json)) :
    Value.membersOfJson ms = ms.map fun p => (.text p.1, .ofJson p.2) := by
  induction ms with
  | nil => rfl
  | cons p more ih => rw [Value.membersOfJson, ih, List.map_cons]

/-- Two lists that are related element by element have the same images. -/
theorem map_eq_of_forall₂ {α β γ : Type} {related : α → β → Prop} {as : List α} {bs : List β}
    {f : α → γ} {f' : β → γ} (h : List.Forall₂ related as bs)
    (same : ∀ a, ∀ b ∈ bs, related a b → f a = f' b) : as.map f = bs.map f' := by
  induction h with
  | nil => rfl
  | cons first _ ih =>
      rw [List.map_cons, List.map_cons, same _ _ List.mem_cons_self first,
        ih fun a b hb => same a b (List.mem_cons_of_mem _ hb)]

/-- **A value that is held is read**, down to its depth. -/
theorem Holds.value (h : g.Holds n v) (made : Json.MadeOf texts keys v) {depth : Nat}
    (deep : v.depth ≤ depth) : g.value depth n = .ofJson v := by
  have atom {v : Json} {n : Nat} (made : Json.MadeOf texts keys v) (h : g.Holds n v)
      (one : ∃ tag t, nodesOf n v = [⟨tag, .scalar t⟩] ∧ tag.isCollection = false) (depth : Nat) :
      g.value depth n = .ofJson v := by
    have none : (g.node n).tag.isCollection = false := by
      obtain ⟨tag, t, one, atom⟩ := one
      obtain ⟨pre, post, rfl, nodes⟩ := h
      rw [one] at nodes
      rw [node_eq (nodes.trans (List.append_assoc _ _ _)), atom]
    rw [value_atom none, scalarValue, h.scalar made none]
    rfl
  induction made generalizing n depth with
  | null => exact atom .null h ⟨_, _, rfl, rfl⟩ depth
  | bool b => exact atom (.bool b) h ⟨_, _, rfl, rfl⟩ depth
  | int few => exact atom (.int few) h ⟨_, _, rfl, rfl⟩ depth
  | str fits => exact atom (.str fits) h ⟨_, _, rfl, rfl⟩ depth
  | @arr vs _ ih =>
      obtain ⟨node, each⟩ := h.arr
      obtain ⟨depth, rfl⟩ := Nat.exists_eq_add_of_le' (Nat.one_le_of_lt (Nat.lt_of_succ_le deep))
      rw [Graph.value, node, Value.ofJson, itemsOfJson_eq]
      refine congrArg Value.list (map_eq_of_forall₂ each fun i v hv holds => ?_)
      exact ih v hv holds ((Json.depth_le_of_mem_items hv).trans (Nat.le_of_succ_le_succ deep))
  | @obj ms _ _ ih =>
      obtain ⟨node, each⟩ := h.obj
      obtain ⟨depth, rfl⟩ := Nat.exists_eq_add_of_le' (Nat.one_le_of_lt (Nat.lt_of_succ_le deep))
      have all := allEntries_eq node fun e he => by
        obtain ⟨p, -, holds⟩ := exists_of_forall₂ each e he
        rw [(holdsMember_key holds).1]
        nofun
      rw [Graph.value, node, all, Value.ofJson, membersOfJson_eq]
      refine congrArg Value.map (map_eq_of_forall₂ each fun e p hp holds => ?_)
      obtain ⟨-, text, key⟩ := holdsMember_key holds
      change (g.scalarValue e.1 (g.keyTag e.1), g.value depth e.2) = _
      rw [text, scalarValue, key, ih p hp holds.2
        ((Json.depth_le_of_mem_members hp).trans (Nat.le_of_succ_le_succ deep))]
      rfl

end Graph

/-- **What is made of the tokens of a value is read as the value.** -/
theorem read_of_makes {t : Text} {v : Json} {token : Token} {ts : List Token} {depth : Nat}
    (tokens : Token.ofText t = .ok (token :: ts)) (makes : Composing.Makes (token :: ts) v)
    (begins : Composing.beginsNode token = true)
    (made : Json.MadeOf (fun _ => True) (fun _ => True) v) (deep : v.depth ≤ depth) :
    read depth t = .ok (.ofJson v) := by
  have holds : Graph.Holds ⟨nodesOf 0 v, some 0⟩ 0 v := ⟨[], [], rfl, (List.append_nil _).symm⟩
  have check : Graph.check ⟨nodesOf 0 v, some 0⟩ 0 = .ok () := Graph.IsHeld.check ⟨v, made, holds⟩
  rw [read, Graph.ofText, tokens]
  change (Graph.ofTokens (token :: ts) >>= _) = _
  rw [Graph.ofTokens_of_makes makes begins]
  change (Graph.check ⟨nodesOf 0 v, some 0⟩ 0 >>= fun _ => _) = _
  rw [check]
  change Except.ok (Graph.value ⟨nodesOf 0 v, some 0⟩ depth 0) = _
  rw [holds.value made deep]

end Yaml

end RouteDocs
