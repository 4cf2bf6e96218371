import RouteDocs.Proofs.Yaml.Word

/-!
# Nodes of Values

The tokens of a value, in brackets or in blocks, make the nodes of the value.

## Main Definitions

* `Yaml.nodesOf`: the nodes of a value, each collection before its parts
* `Yaml.Composing.Makes`: the tokens that make the nodes of a value wherever they stand
* `Yaml.Composing.MakesFree`: the same after a key, where a list has no marks

## Main Statements

* `Yaml.Composing.makes_flowTokens`: **the tokens of a value in brackets make its nodes**
* `Yaml.Composing.makes_blockTokens`: **the tokens of a value in a block make the nodes of what is
  read of it**
* `Yaml.Graph.ofTokens_of_makes`: **the tokens of a value form the document of its nodes**

## Design Notes

A collection gets its number before its parts do, and its node is filled in after them. The nodes of a
value are therefore a function of the number of the first one.
-/

namespace RouteDocs

namespace Yaml

/-! ### The Nodes of a Value -/

mutual

/-- The nodes that a value becomes, of which the first one has a number. -/
def nodesOf (first : Nat) : Json → List Node
  | .arr vs => ⟨.sequence, .sequence (itemNumbers (first + 1) vs)⟩ :: itemNodes (first + 1) vs
  | .obj ms => ⟨.mapping, .mapping (memberNumbers (first + 1) ms)⟩ :: memberNodes (first + 1) ms
  | .str t => [⟨.text, .scalar t⟩]
  | .null => [⟨.null, .scalar (word .null)⟩]
  | .bool b => [⟨.truth, .scalar (word (.bool b))⟩]
  | .int i => [⟨.integer, .scalar (word (.int i))⟩]
  | .float x => [⟨.float, .scalar (word (.float x))⟩]

/-- The nodes that items become. -/
def itemNodes (first : Nat) : List Json → List Node
  | [] => []
  | v :: more => nodesOf first v ++ itemNodes (first + (nodesOf first v).length) more

/-- The numbers of items. -/
def itemNumbers (first : Nat) : List Json → List Nat
  | [] => []
  | v :: more => first :: itemNumbers (first + (nodesOf first v).length) more

/-- The nodes that members become. -/
def memberNodes (first : Nat) : List (Text × Json) → List Node
  | [] => []
  | (k, v) :: more =>
    ⟨.text, .scalar k⟩ ::
      (nodesOf (first + 1) v ++ memberNodes (first + 1 + (nodesOf (first + 1) v).length) more)

/-- The numbers of the keys and values of members. -/
def memberNumbers (first : Nat) : List (Text × Json) → List (Nat × Nat)
  | [] => []
  | (_, v) :: more =>
    (first, first + 1) :: memberNumbers (first + 1 + (nodesOf (first + 1) v).length) more

end

namespace Composing

variable {α β : Type} {step : Composing α} {f : α → Composing β} {a : α} {s s' : Composition}
  {turns : Nat} {rest ts : List Token} {nodes : List Node} {names : Assoc Nat}
  {handles : Assoc Text} {token : Token} {v : Json}

/-! ### Steps -/

theorem bind_ok (h : step s = .ok (a, s')) : (step >>= f) s = f a s' := by
  change (step s >>= fun p => f p.1 p.2) = _
  rw [h]
  rfl

theorem map_ok {g : α → β} (h : step s = .ok (a, s')) : (g <$> step) s = .ok (g a, s') := by
  change (step s >>= fun p => _) = _
  rw [h]
  rfl

/-- The tokens with which the nodes of values begin. -/
def beginsNode : Token → Bool
  | .scalar .. | .flowSequenceStart | .flowMappingStart | .blockSequenceStart
  | .blockMappingStart => true
  | _ => false

theorem node_scalar (isPlain : Bool) (t : Text) (free : Bool) :
    node (turns + 1) free ⟨.scalar isPlain t :: rest, nodes, names, handles⟩ =
      .ok (nodes.length, ⟨rest, nodes ++ [⟨scalarTag isPlain none t, .scalar t⟩], names, handles⟩) :=
  rfl

theorem node_flowSequence (free : Bool) :
    node (turns + 1) free ⟨.flowSequenceStart :: ts, nodes, names, handles⟩ =
      collection none .sequence (Content.sequence <$> flowItems turns true)
        ⟨ts, nodes, names, handles⟩ := rfl

theorem node_flowMapping (free : Bool) :
    node (turns + 1) free ⟨.flowMappingStart :: ts, nodes, names, handles⟩ =
      collection none .mapping (Content.mapping <$> flowEntries turns true)
        ⟨ts, nodes, names, handles⟩ := rfl

theorem node_blockSequence (free : Bool) :
    node (turns + 1) free ⟨.blockSequenceStart :: ts, nodes, names, handles⟩ =
      collection none .sequence (Content.sequence <$> (blockItems turns <* expect .blockEnd))
        ⟨ts, nodes, names, handles⟩ := rfl

theorem node_blockMapping (free : Bool) :
    node (turns + 1) free ⟨.blockMappingStart :: ts, nodes, names, handles⟩ =
      collection none .mapping (Content.mapping <$> (blockEntries turns <* expect .blockEnd))
        ⟨ts, nodes, names, handles⟩ := rfl

theorem node_freeSequence :
    node (turns + 1) true ⟨.blockEntry :: ts, nodes, names, handles⟩ =
      collection none .sequence (Content.sequence <$> blockItems turns)
        ⟨.blockEntry :: ts, nodes, names, handles⟩ := rfl

/-- **A collection stands before its parts.** -/
theorem collection_ok {parts : Composing Content} {tag : Tag} {content : Content}
    {new : List Node}
    (h : parts ⟨ts, nodes ++ [⟨tag, .sequence []⟩], names, handles⟩ =
      .ok (content, ⟨rest, nodes ++ [⟨tag, .sequence []⟩] ++ new, names, handles⟩)) :
    collection none tag parts ⟨ts, nodes, names, handles⟩ =
      .ok (nodes.length, ⟨rest, nodes ++ ⟨tag, content⟩ :: new, names, handles⟩) := by
  have place : add none ⟨tag, .sequence []⟩ ⟨ts, nodes, names, handles⟩ =
      .ok (nodes.length, ⟨ts, nodes ++ [⟨tag, .sequence []⟩], names, handles⟩) := rfl
  rw [collection, bind_ok place, bind_ok h]
  simp

/-- A value's tokens make its nodes, with whatever follows them. -/
def Makes (tokens : List Token) (v : Json) : Prop :=
  ∀ turns free rest nodes names handles, 2 * tokens.length ≤ turns →
    node turns free ⟨tokens ++ rest, nodes, names, handles⟩ =
      .ok (nodes.length, ⟨rest, nodes ++ nodesOf nodes.length v, names, handles⟩)

/-- A scalar that is recognised makes one node. -/
theorem makes_scalar {isPlain : Bool} {t : Text} {tag : Tag}
    (node : ∀ first, nodesOf first v = [⟨tag, .scalar t⟩])
    (recognised : scalarTag isPlain none t = tag) : Makes [.scalar isPlain t] v := by
  intro turns free rest nodes names handles enough
  obtain ⟨turns, rfl⟩ := Nat.exists_eq_succ_of_ne_zero (Nat.ne_of_gt (Nat.lt_of_lt_of_le (by simp) enough))
  rw [node, ← recognised]
  exact node_scalar isPlain t free

theorem makes_null : Makes [.scalar true (word .null)] .null :=
  makes_scalar (fun _ => rfl) rfl

theorem makes_bool (b : Bool) : Makes [.scalar true (word (.bool b))] (.bool b) := by
  refine makes_scalar (fun _ => rfl) ?_
  cases b <;> rfl

theorem makes_int (i : Int) : Makes [.scalar true (word (.int i))] (.int i) := by
  refine makes_scalar (fun _ => rfl) ?_
  change Tag.ofKind (scalarKind (Text.ofInt i)) = _
  rw [scalarKind_ofInt]
  rfl

/-! ### Values in Brackets -/

theorem flowItems_first (begins : beginsNode token = true) :
    flowItems (turns + 1) true ⟨token :: ts, nodes, names, handles⟩ =
      (do List.cons (← node turns false) <$> flowItems turns false)
        ⟨token :: ts, nodes, names, handles⟩ := by
  cases token <;> first | rfl | cases begins

theorem flowItems_more (begins : beginsNode token = true) :
    flowItems (turns + 1) false ⟨.flowEntry :: token :: ts, nodes, names, handles⟩ =
      (do List.cons (← node turns false) <$> flowItems turns false)
        ⟨token :: ts, nodes, names, handles⟩ := by
  cases token <;> first | rfl | cases begins

theorem flowEntries_first (begins : beginsNode token = true) (k : Text) :
    flowEntries (turns + 2) true
        ⟨.key :: .scalar false k :: .value :: token :: ts, nodes, names, handles⟩ =
      (do
        let value ← node turns false
        List.cons (nodes.length, value) <$> flowEntries (turns + 1) false)
        ⟨token :: ts, nodes ++ [Node.mk (.text) (.scalar k)], names, handles⟩ := by
  cases token <;> first | rfl | cases begins

theorem flowEntries_more (begins : beginsNode token = true) (k : Text) :
    flowEntries (turns + 2) false
        ⟨.flowEntry :: .key :: .scalar false k :: .value :: token :: ts, nodes, names, handles⟩ =
      (do
        let value ← node turns false
        List.cons (nodes.length, value) <$> flowEntries (turns + 1) false)
        ⟨token :: ts, nodes ++ [Node.mk (.text) (.scalar k)], names, handles⟩ := by
  cases token <;> first | rfl | cases begins

/-- The tokens of a value begin a node. -/
theorem exists_flowTokens (v : Json) :
    ∃ token ts, flowTokens v = token :: ts ∧ beginsNode token = true := by
  cases v <;> exact ⟨_, _, rfl, rfl⟩

/-- What follows an item between brackets. -/
def moreItemTokens (vs : List Json) : List Token :=
  if vs.isEmpty then [] else .flowEntry :: flowItemTokens vs

/-- What follows a member between braces. -/
def moreMemberTokens (ms : List (Text × Json)) : List Token :=
  if ms.isEmpty then [] else .flowEntry :: flowMemberTokens ms

/-- One item, and what follows it. -/
theorem flowItem_ok {vs : List Json} (first : Makes (flowTokens v) v)
    (enough : 2 * (flowTokens v).length ≤ turns)
    (others : ∀ nodes, flowItems turns false
        ⟨moreItemTokens vs ++ .flowSequenceEnd :: rest, nodes, names, handles⟩ =
      .ok (itemNumbers nodes.length vs,
        ⟨rest, nodes ++ itemNodes nodes.length vs, names, handles⟩)) :
    (do List.cons (← node turns false) <$> flowItems turns false)
        ⟨flowTokens v ++ (moreItemTokens vs ++ Token.flowSequenceEnd :: rest), nodes, names,
          handles⟩ =
      .ok (itemNumbers nodes.length (v :: vs),
        ⟨rest, nodes ++ itemNodes nodes.length (v :: vs), names, handles⟩) := by
  rw [bind_ok (first turns false _ nodes names handles enough), map_ok (others _), itemNumbers,
    itemNodes, List.length_append, List.append_assoc]

/-- Further items make their nodes one after another. -/
theorem flowItems_ok {vs : List Json} (each : ∀ v ∈ vs, Makes (flowTokens v) v)
    (enough : 2 * (moreItemTokens vs).length + 1 ≤ turns) (nodes : List Node) :
    flowItems turns false
        ⟨moreItemTokens vs ++ .flowSequenceEnd :: rest, nodes, names, handles⟩ =
      .ok (itemNumbers nodes.length vs,
        ⟨rest, nodes ++ itemNodes nodes.length vs, names, handles⟩) := by
  induction vs generalizing turns nodes with
  | nil =>
      obtain ⟨turns, rfl⟩ := Nat.exists_eq_add_of_le' (Nat.le_of_add_left_le enough)
      rw [itemNodes, List.append_nil]
      rfl
  | cons v more ih =>
      obtain ⟨first, others⟩ := List.forall_mem_cons.mp each
      obtain ⟨turns, rfl⟩ := Nat.exists_eq_add_of_le' (Nat.le_of_add_left_le enough)
      have tokens : moreItemTokens (v :: more) =
          .flowEntry :: (flowTokens v ++ moreItemTokens more) := rfl
      rw [tokens, List.length_cons, List.length_append] at enough
      obtain ⟨token, ts, begins, isBegin⟩ := exists_flowTokens v
      rw [tokens, begins]
      simp only [List.cons_append, List.append_assoc]
      refine (flowItems_more isBegin).trans ?_
      rw [← List.cons_append, ← begins]
      exact flowItem_ok first (by omega) (ih others (by omega))

/-- **A list in brackets makes its nodes.** -/
theorem makes_flowSequence {vs : List Json} (each : ∀ v ∈ vs, Makes (flowTokens v) v) :
    Makes (flowTokens (.arr vs)) (.arr vs) := by
  intro turns free rest nodes names handles enough
  rw [flowTokens, List.length_cons, List.length_append] at enough
  simp only [List.length_singleton] at enough
  obtain ⟨turns, rfl⟩ := Nat.exists_eq_add_of_le' (show 2 ≤ turns by omega)
  rw [flowTokens, List.cons_append, List.append_assoc, node_flowSequence, nodesOf]
  refine collection_ok (map_ok ?_)
  have numbers : nodes.length + 1 = (nodes ++ [(⟨.sequence, .sequence []⟩ : Node)]).length := by simp
  rw [numbers]
  cases vs with
  | nil =>
      rw [itemNodes, List.append_nil]
      rfl
  | cons v more =>
      obtain ⟨first, others⟩ := List.forall_mem_cons.mp each
      have tokens : flowItemTokens (v :: more) = flowTokens v ++ moreItemTokens more := rfl
      rw [tokens, List.length_append] at enough
      obtain ⟨token, ts, begins, isBegin⟩ := exists_flowTokens v
      have whole : flowItemTokens (v :: more) ++ ([.flowSequenceEnd] ++ rest) =
          token :: (ts ++ (moreItemTokens more ++ .flowSequenceEnd :: rest)) := by
        rw [tokens, begins]
        simp
      rw [whole]
      refine (flowItems_first isBegin).trans ?_
      rw [← List.cons_append, ← begins]
      exact flowItem_ok first (show _ ≤ turns by omega) (flowItems_ok others (by omega))

/-- One value of a key, and what follows it. -/
theorem flowMember_ok {k : Text} {ms : List (Text × Json)} (first : Makes (flowTokens v) v)
    (enough : 2 * (flowTokens v).length ≤ turns)
    (others : ∀ nodes, flowEntries (turns + 1) false
        ⟨moreMemberTokens ms ++ .flowMappingEnd :: rest, nodes, names, handles⟩ =
      .ok (memberNumbers nodes.length ms,
        ⟨rest, nodes ++ memberNodes nodes.length ms, names, handles⟩)) :
    (do
      let value ← node turns false
      List.cons (nodes.length, value) <$> flowEntries (turns + 1) false)
        ⟨flowTokens v ++ (moreMemberTokens ms ++ Token.flowMappingEnd :: rest),
          nodes ++ [Node.mk .text (.scalar k)], names, handles⟩ =
      .ok (memberNumbers nodes.length ((k, v) :: ms),
        ⟨rest, nodes ++ memberNodes nodes.length ((k, v) :: ms), names, handles⟩) := by
  have length : (nodes ++ [Node.mk .text (.scalar k)]).length = nodes.length + 1 := by simp
  rw [bind_ok (first turns false _ _ names handles enough), map_ok (others _), memberNumbers,
    memberNodes, length, List.length_append, length, List.append_assoc, List.append_assoc]
  rfl

/-- Further members make their nodes one after another. -/
theorem flowEntries_ok {ms : List (Text × Json)} (each : ∀ p ∈ ms, Makes (flowTokens p.2) p.2)
    (enough : 2 * (moreMemberTokens ms).length + 1 ≤ turns) (nodes : List Node) :
    flowEntries turns false
        ⟨moreMemberTokens ms ++ .flowMappingEnd :: rest, nodes, names, handles⟩ =
      .ok (memberNumbers nodes.length ms,
        ⟨rest, nodes ++ memberNodes nodes.length ms, names, handles⟩) := by
  induction ms generalizing turns nodes with
  | nil =>
      obtain ⟨turns, rfl⟩ := Nat.exists_eq_add_of_le' (Nat.le_of_add_left_le enough)
      rw [memberNodes, List.append_nil]
      rfl
  | cons p more ih =>
      obtain ⟨k, v⟩ := p
      obtain ⟨first, others⟩ := List.forall_mem_cons.mp each
      dsimp only at first
      have tokens : moreMemberTokens ((k, v) :: more) = .flowEntry :: .key :: .scalar false k ::
          .value :: (flowTokens v ++ moreMemberTokens more) := rfl
      rw [tokens] at enough
      simp only [List.length_cons, List.length_append] at enough
      obtain ⟨turns, rfl⟩ := Nat.exists_eq_add_of_le' (show 2 ≤ turns by omega)
      obtain ⟨token, ts, begins, isBegin⟩ := exists_flowTokens v
      rw [tokens, begins]
      simp only [List.cons_append, List.append_assoc]
      refine (flowEntries_more isBegin k).trans ?_
      rw [← List.cons_append, ← begins]
      exact flowMember_ok first (by omega) (ih others (by omega))

/-- **An object in braces makes its nodes.** -/
theorem makes_flowMapping {ms : List (Text × Json)} (each : ∀ p ∈ ms, Makes (flowTokens p.2) p.2) :
    Makes (flowTokens (.obj ms)) (.obj ms) := by
  intro turns free rest nodes names handles enough
  rw [flowTokens, List.length_cons, List.length_append] at enough
  simp only [List.length_singleton] at enough
  obtain ⟨turns, rfl⟩ := Nat.exists_eq_add_of_le' (show 3 ≤ turns by omega)
  rw [flowTokens, List.cons_append, List.append_assoc, node_flowMapping, nodesOf]
  refine collection_ok (map_ok ?_)
  have numbers : nodes.length + 1 = (nodes ++ [(⟨.mapping, .sequence []⟩ : Node)]).length := by simp
  rw [numbers]
  cases ms with
  | nil =>
      rw [memberNodes, List.append_nil]
      rfl
  | cons p more =>
      obtain ⟨k, v⟩ := p
      obtain ⟨first, others⟩ := List.forall_mem_cons.mp each
      dsimp only at first
      have tokens : flowMemberTokens ((k, v) :: more) = .key :: .scalar false k :: .value ::
          (flowTokens v ++ moreMemberTokens more) := rfl
      rw [tokens] at enough
      simp only [List.length_cons, List.length_append] at enough
      obtain ⟨token, ts, begins, isBegin⟩ := exists_flowTokens v
      have whole : flowMemberTokens ((k, v) :: more) ++ ([.flowMappingEnd] ++ rest) =
          .key :: .scalar false k :: .value :: token ::
            (ts ++ (moreMemberTokens more ++ .flowMappingEnd :: rest)) := by
        rw [tokens, begins]
        simp
      rw [whole]
      refine (flowEntries_first isBegin k).trans ?_
      rw [← List.cons_append, ← begins]
      exact flowMember_ok first (show _ ≤ turns by omega) (flowEntries_ok others (by omega))

/-- **The tokens of a value in brackets make its nodes.** -/
theorem makes_flowTokens {texts keys : Text → Prop} (made : Json.MadeOf texts keys v) :
    Makes (flowTokens v) v := by
  induction made with
  | null => exact makes_null
  | bool b => exact makes_bool b
  | @int i _ => exact makes_int i
  | str _ => exact makes_scalar (fun _ => rfl) rfl
  | arr _ ih => exact makes_flowSequence ih
  | obj _ _ ih => exact makes_flowMapping ih

/-! ### Values in Blocks -/

/-- Only a hyphen goes on with items. -/
theorem blockItems_end (other : rest.head? ≠ some .blockEntry) :
    blockItems (turns + 1) ⟨rest, nodes, names, handles⟩ =
      .ok ([], ⟨rest, nodes, names, handles⟩) := by
  cases rest with
  | nil => rfl
  | cons token ts =>
      cases token with
      | blockEntry => exact absurd rfl other
      | _ => rfl

theorem blockItems_more (begins : beginsNode token = true) :
    blockItems (turns + 1) ⟨.blockEntry :: token :: ts, nodes, names, handles⟩ =
      (do List.cons (← node turns false) <$> blockItems turns)
        ⟨token :: ts, nodes, names, handles⟩ := by
  cases token <;> first | rfl | cases begins

/-- A text in its plainest style is recognised as a text. -/
theorem scalarTag_style (t : Text) : scalarTag (style t == .plain) none (readBack t) = .text := by
  change (if (style t == .plain) = true then Tag.ofKind (scalarKind (readBack t)) else .text) = .text
  split
  · next plain =>
    have same : readBack t = t := readBack_eq_self_iff.mpr fun single => by
      rw [single] at plain
      cases plain
    have allowed : allowsPlain t = true := by
      by_contra no
      rw [style, if_neg no] at plain
      split at plain <;> cases plain
    simp only [allowsPlain, Bool.and_eq_true, beq_iff_eq] at allowed
    rw [same, allowed.2]
    rfl
  · rfl

theorem blockEntries_more (begins : beginsNode token = true ∨ token = .blockEntry) (k : Text) :
    blockEntries (turns + 2)
        ⟨.key :: textToken k :: .value :: token :: ts, nodes, names, handles⟩ =
      (do
        let value ← node (turns + 1) true
        List.cons (nodes.length, value) <$> blockEntries (turns + 1))
        ⟨token :: ts, nodes ++ [Node.mk .text (.scalar (readBack k))], names, handles⟩ := by
  rw [← scalarTag_style k]
  cases token <;> first | rfl | simp [beginsNode] at begins

theorem then_blockEnd (h : step s = .ok (a, ⟨.blockEnd :: rest, nodes, names, handles⟩)) :
    (step <* expect .blockEnd) s = .ok (a, ⟨rest, nodes, names, handles⟩) := by
  change (step s >>= fun p => (expect .blockEnd p.2 >>= fun q => _)) = _
  rw [h]
  rfl

/-- A value's tokens make its nodes where an item need not be indented, unless more items follow. -/
def MakesFree (tokens : List Token) (v : Json) : Prop :=
  ∀ turns rest nodes names handles, 2 * tokens.length ≤ turns → rest.head? ≠ some .blockEntry →
    node turns true ⟨tokens ++ rest, nodes, names, handles⟩ =
      .ok (nodes.length, ⟨rest, nodes ++ nodesOf nodes.length v, names, handles⟩)

theorem Makes.free {tokens : List Token} (makes : Makes tokens v) : MakesFree tokens v :=
  fun turns rest nodes names handles enough _ => makes turns true rest nodes names handles enough

theorem exists_blockTokens (place : Place) (v : Json) :
    ∃ token ts, blockTokens place v = token :: ts ∧
      (beginsNode token = true ∨ place = .afterKey ∧ token = .blockEntry) := by
  cases v with
  | arr vs =>
      cases vs with
      | nil => exact ⟨_, _, rfl, .inl rfl⟩
      | cons v more =>
          cases place with
          | afterKey => exact ⟨_, _, rfl, .inr ⟨rfl, rfl⟩⟩
          | afterIndicator => exact ⟨_, _, rfl, .inl rfl⟩
  | obj ms => cases ms <;> exact ⟨_, _, rfl, .inl rfl⟩
  | _ => exact ⟨_, _, rfl, .inl rfl⟩

/-- Items with hyphens make their nodes one after another. -/
theorem blockItems_ok {vs : List Json}
    (each : ∀ v ∈ vs, Makes (blockTokens .afterIndicator v) (v.mapTexts readBack))
    (enough : 2 * (blockItemTokens vs).length ≤ turns + 1) (pos : 0 < turns)
    (other : rest.head? ≠ some .blockEntry) (nodes : List Node) :
    blockItems turns ⟨blockItemTokens vs ++ rest, nodes, names, handles⟩ =
      .ok (itemNumbers nodes.length (Json.mapTextsOfItems readBack vs),
        ⟨rest, nodes ++ itemNodes nodes.length (Json.mapTextsOfItems readBack vs), names,
          handles⟩) := by
  induction vs generalizing turns nodes with
  | nil =>
      obtain ⟨turns, rfl⟩ := Nat.exists_eq_add_of_le' pos
      rw [Json.mapTextsOfItems, itemNodes, List.append_nil]
      exact blockItems_end other
  | cons v more ih =>
      obtain ⟨first, others⟩ := List.forall_mem_cons.mp each
      obtain ⟨turns, rfl⟩ := Nat.exists_eq_add_of_le' pos
      rw [blockItemTokens, List.length_cons, List.length_append] at enough
      obtain ⟨token, ts, begins, isBegin⟩ := exists_blockTokens .afterIndicator v
      have isBegin : beginsNode token = true := isBegin.resolve_right fun h => by cases h.1
      have some : 0 < (blockTokens .afterIndicator v).length := by rw [begins]; simp
      have step : (do List.cons (← node turns false) <$> blockItems turns)
          ⟨blockTokens .afterIndicator v ++ (blockItemTokens more ++ rest), nodes, names, handles⟩ =
          .ok (itemNumbers nodes.length (Json.mapTextsOfItems readBack (v :: more)),
            ⟨rest, nodes ++ itemNodes nodes.length (Json.mapTextsOfItems readBack (v :: more)),
              names, handles⟩) := by
        rw [bind_ok (first turns false _ nodes names handles (by omega)),
          map_ok (ih others (by omega) (by omega) _), Json.mapTextsOfItems, itemNumbers, itemNodes,
          List.length_append, List.append_assoc]
      rw [begins] at step
      rw [blockItemTokens, begins, ← step]
      simp only [List.cons_append, List.append_assoc]
      exact blockItems_more isBegin

/-- Members of a block make their nodes one after another. -/
theorem blockEntries_ok {ms : List (Text × Json)}
    (each : ∀ p ∈ ms, MakesFree (blockTokens (placeOfValue p.1) p.2) (p.2.mapTexts readBack))
    (enough : 2 * (blockMemberTokens ms).length + 1 ≤ turns) (nodes : List Node) :
    blockEntries turns ⟨blockMemberTokens ms ++ .blockEnd :: rest, nodes, names, handles⟩ =
      .ok (memberNumbers nodes.length (Json.mapTextsOfMembers readBack ms),
        ⟨.blockEnd :: rest, nodes ++ memberNodes nodes.length (Json.mapTextsOfMembers readBack ms),
          names, handles⟩) := by
  induction ms generalizing turns nodes with
  | nil =>
      obtain ⟨turns, rfl⟩ := Nat.exists_eq_add_of_le' (Nat.le_of_add_left_le enough)
      rw [Json.mapTextsOfMembers, memberNodes, List.append_nil]
      rfl
  | cons p more ih =>
      obtain ⟨k, v⟩ := p
      obtain ⟨first, others⟩ := List.forall_mem_cons.mp each
      dsimp only at first
      rw [blockMemberTokens] at enough
      simp only [List.length_cons, List.length_append] at enough
      obtain ⟨turns, rfl⟩ := Nat.exists_eq_add_of_le' (show 2 ≤ turns by omega)
      obtain ⟨token, ts, begins, isBegin⟩ := exists_blockTokens (placeOfValue k) v
      have noItem : (blockMemberTokens more ++ Token.blockEnd :: rest).head? ≠ some .blockEntry := by
        cases more <;> simp [blockMemberTokens]
      have length : (nodes ++ [Node.mk .text (.scalar (readBack k))]).length = nodes.length + 1 := by
        simp
      have step : (do
          let value ← node (turns + 1) true
          List.cons (nodes.length, value) <$> blockEntries (turns + 1))
          ⟨blockTokens (placeOfValue k) v ++ (blockMemberTokens more ++ Token.blockEnd :: rest),
            nodes ++ [Node.mk .text (.scalar (readBack k))], names, handles⟩ =
          .ok (memberNumbers nodes.length (Json.mapTextsOfMembers readBack ((k, v) :: more)),
            ⟨.blockEnd :: rest,
              nodes ++ memberNodes nodes.length (Json.mapTextsOfMembers readBack ((k, v) :: more)),
              names, handles⟩) := by
        rw [bind_ok (first (turns + 1) _ _ names handles (by omega) noItem),
          map_ok (ih others (by omega) _), Json.mapTextsOfMembers, memberNumbers, memberNodes, length,
          List.length_append, length, List.append_assoc, List.append_assoc]
        rfl
      rw [begins] at step
      rw [blockMemberTokens, begins, ← step]
      simp only [List.cons_append, List.append_assoc]
      exact blockEntries_more (isBegin.imp_right And.right) k

variable {vs : List Json} {ms : List (Text × Json)}

/-- **A list in a block makes its nodes**, with marks of its start and end. -/
theorem makes_blockSequence
    (each : ∀ v ∈ vs, Makes (blockTokens .afterIndicator v) (v.mapTexts readBack)) :
    Makes (.blockSequenceStart :: (blockItemTokens vs ++ [.blockEnd]))
      ((Json.arr vs).mapTexts readBack) := by
  intro turns free rest nodes names handles enough
  rw [List.length_cons, List.length_append] at enough
  simp only [List.length_singleton] at enough
  obtain ⟨turns, rfl⟩ := Nat.exists_eq_add_of_le' (show 2 ≤ turns by omega)
  have numbers : nodes.length + 1 = (nodes ++ [(⟨.sequence, .sequence []⟩ : Node)]).length := by simp
  rw [List.cons_append, List.append_assoc, node_blockSequence, Json.mapTexts, nodesOf, numbers]
  exact collection_ok (map_ok (then_blockEnd (blockItems_ok each (by omega) (by omega) (by simp) _)))

/-- **A list at the level of its key makes its nodes**, with no such marks. -/
theorem makesFree_items
    (each : ∀ v ∈ vs, Makes (blockTokens .afterIndicator v) (v.mapTexts readBack))
    (some : vs ≠ []) : MakesFree (blockItemTokens vs) ((Json.arr vs).mapTexts readBack) := by
  intro turns rest nodes names handles enough other
  obtain ⟨v, more, rfl⟩ := List.exists_cons_of_ne_nil some
  have pos : 0 < (blockTokens .afterIndicator v).length := by
    obtain ⟨token, ts, begins, -⟩ := exists_blockTokens .afterIndicator v
    rw [begins]
    exact Nat.succ_pos _
  have length : (blockItemTokens (v :: more)).length =
      (blockTokens .afterIndicator v).length + (blockItemTokens more).length + 1 := by
    rw [blockItemTokens, List.length_cons, List.length_append]
  obtain ⟨turns, rfl⟩ := Nat.exists_eq_add_of_le' (show 1 ≤ turns by omega)
  have numbers : nodes.length + 1 = (nodes ++ [(⟨.sequence, .sequence []⟩ : Node)]).length := by simp
  rw [Json.mapTexts, nodesOf, numbers]
  refine Eq.trans ?_ (collection_ok (map_ok (blockItems_ok each (by omega) (by omega) other _)))
  rw [blockItemTokens, List.cons_append]
  exact node_freeSequence

/-- **An object in a block makes its nodes.** -/
theorem makes_blockMapping
    (each : ∀ p ∈ ms, MakesFree (blockTokens (placeOfValue p.1) p.2) (p.2.mapTexts readBack)) :
    Makes (.blockMappingStart :: (blockMemberTokens ms ++ [.blockEnd]))
      ((Json.obj ms).mapTexts readBack) := by
  intro turns free rest nodes names handles enough
  rw [List.length_cons, List.length_append] at enough
  simp only [List.length_singleton] at enough
  obtain ⟨turns, rfl⟩ := Nat.exists_eq_add_of_le' (show 1 ≤ turns by omega)
  have numbers : nodes.length + 1 = (nodes ++ [(⟨.mapping, .sequence []⟩ : Node)]).length := by simp
  rw [List.cons_append, List.append_assoc, node_blockMapping, Json.mapTexts, nodesOf, numbers]
  exact collection_ok (map_ok (then_blockEnd (blockEntries_ok each (by omega) _)))

/-- **The tokens of a value in a block make the nodes of what is read of it.** -/
theorem makes_blockTokens {texts keys : Text → Prop} (made : Json.MadeOf texts keys v) :
    Makes (blockTokens .afterIndicator v) (v.mapTexts readBack) ∧
      ∀ place, MakesFree (blockTokens place v) (v.mapTexts readBack) := by
  have same {v w : Json} (all : ∀ place, blockTokens place v = blockTokens .afterIndicator v)
      (makes : Makes (blockTokens .afterIndicator v) w) :
      Makes (blockTokens .afterIndicator v) w ∧ ∀ place, MakesFree (blockTokens place v) w :=
    ⟨makes, fun place => (all place).symm ▸ makes.free⟩
  induction made with
  | null => exact same (fun _ => rfl) makes_null
  | bool b => exact same (fun _ => rfl) (makes_bool b)
  | @int i _ => exact same (fun _ => rfl) (makes_int i)
  | @str t _ => exact same (fun _ => rfl) (makes_scalar (fun _ => rfl) (scalarTag_style t))
  | @arr vs _ ih =>
      have items : ∀ v ∈ vs, Makes (blockTokens .afterIndicator v) (v.mapTexts readBack) :=
        fun v hv => (ih v hv).1
      cases vs with
      | nil => exact same (fun _ => rfl) (makes_flowSequence (List.forall_mem_nil _))
      | cons v more =>
          refine ⟨makes_blockSequence items, fun place => ?_⟩
          cases place with
          | afterKey => exact makesFree_items items (List.cons_ne_nil v more)
          | afterIndicator => exact (makes_blockSequence items).free
  | @obj ms _ _ ih =>
      cases ms with
      | nil => exact same (fun _ => rfl) (makes_flowMapping (List.forall_mem_nil _))
      | cons p more =>
          exact same (fun _ => rfl) (makes_blockMapping fun p hp => (ih p hp).2 _)

/-! ### Documents -/

/-- The handles of a document without directives. -/
def usualHandles : Assoc Text :=
  defaultHandles.foldl (fun hs (name, meaning) => hs.putNew name meaning) []

theorem document_eq (begins : beginsNode token = true) :
    document turns ⟨token :: ts, [], [], []⟩ =
      (do
        let root ← node turns false
        documentEnds turns
        if (← peek?).isNone then pure (some root) else fail)
        ⟨token :: ts, [], [], usualHandles⟩ := by
  cases token <;> first | rfl | cases begins

end Composing

/-- **The tokens of a value form the document of its nodes.** -/
theorem Graph.ofTokens_of_makes {v : Json} {token : Token} {ts : List Token}
    (makes : Composing.Makes (token :: ts) v) (begins : Composing.beginsNode token = true) :
    Graph.ofTokens (token :: ts) = .ok ⟨nodesOf 0 v, some 0⟩ := by
  have root := makes (2 * (token :: ts).length + 4) false [] [] [] Composing.usualHandles
    (Nat.le_add_right _ _)
  rw [List.append_nil] at root
  rw [Graph.ofTokens, Composing.document_eq begins, Composing.bind_ok root]
  rfl

end Yaml

end RouteDocs
