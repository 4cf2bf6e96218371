import RouteDocs.Yaml.Value

/-!
# Which Texts Are Denied

A text can be well-formed and still denote no value, because of one of its scalars. Only escapes and
scalars with a tag do that: at each step to the value of a text it is said which faults the step can
have.

## Main Definitions

* `Yaml.FaultsIn`: the scalar faults of a result are of a kind
* `Yaml.IsEscape`: a fault of an escape
* `Yaml.Composing.Sound`: a step that has no scalar faults
* `Yaml.Denies`, `Yaml.Graph.HasFault`: a text denotes nothing under a tag, and a document has one
  that does so
* `Yaml.Denied`: a text denotes no value because of an escape or a scalar

## Main Statements

* `Yaml.faultsIn_tokens`: **cutting a text into tokens has faults in escapes only**
* `Yaml.Composing.soundTurns`: **making nodes of tokens has no scalar faults**
* `Yaml.ofScalar_eq_scalar_iff`: a scalar has a fault if it denotes nothing under its tag
* `Yaml.Graph.faultsIn_check`: **checking a document has faults in its scalars only**
* `Yaml.read_eq_scalar_iff`: **reading a text has a scalar fault exactly if the text is denied**

## Design Notes

The functions that make nodes call each other, each with one turn less than before, so that they are
sound is one statement about all of them for a number of turns. Down to the document a text is
denied whatever the depth is to which its value is made.
-/

namespace RouteDocs

namespace Yaml

/-- The scalar faults of a result, if it has one, are of a kind. -/
def FaultsIn {α : Type} (kind : ScalarFault → Prop) (x : Except Fault α) : Prop :=
  ∀ f, x = .error (.scalar f) → kind f

section

variable {α β : Type} {kind : ScalarFault → Prop} {x y : Except Fault α}

/-! ### Results -/

@[simp] theorem faultsIn_ok (a : α) : FaultsIn kind (.ok a : Except Fault α) := by
  rintro f ⟨⟩

@[simp] theorem faultsIn_malformed : FaultsIn kind (.error .malformed : Except Fault α) := by
  rintro f ⟨⟩

@[simp] theorem faultsIn_ite {p : Prop} [Decidable p] :
    FaultsIn kind (if p then x else y) ↔ (p → FaultsIn kind x) ∧ (¬ p → FaultsIn kind y) := by
  split <;> simp [*]

/-- What is done after a step has the faults of the step and its own. -/
@[simp] theorem faultsIn_bind {step : α → Except Fault β} :
    FaultsIn kind (x >>= step) ↔ FaultsIn kind x ∧ ∀ a, x = .ok a → FaultsIn kind (step a) := by
  cases x with
  | ok a => exact ⟨fun own => ⟨faultsIn_ok a, fun b same => Except.ok.inj same ▸ own⟩,
      fun own => own.2 a rfl⟩
  | error e =>
      refine ⟨fun own => ⟨fun f same => own f ?_, fun a same => ?_⟩, fun own f same => own.1 f ?_⟩
      · cases same
        rfl
      · cases same
      · cases same
        rfl

@[simp] theorem faultsIn_map {g : α → β} : FaultsIn kind (x.map g) ↔ FaultsIn kind x := by
  cases x with
  | ok a => exact ⟨fun _ => faultsIn_ok a, fun _ => faultsIn_ok (g a)⟩
  | error e =>
      refine ⟨fun own f same => own f ?_, fun own f same => own f ?_⟩ <;>
        cases same <;> rfl

theorem FaultsIn.mapM {step : α → Except Fault β} {as : List α}
    (each : ∀ a ∈ as, FaultsIn kind (step a)) : FaultsIn kind (as.mapM step) := by
  induction as with
  | nil => exact faultsIn_ok _
  | cons a more ih =>
      obtain ⟨first, others⟩ := List.forall_mem_cons.mp each
      rw [List.mapM_cons, faultsIn_bind]
      refine ⟨first, fun b _ => faultsIn_bind.mpr ⟨ih others, fun bs _ => faultsIn_ok _⟩⟩

theorem FaultsIn.forM {step : α → Except Fault PUnit} {as : List α}
    (each : ∀ a ∈ as, FaultsIn kind (step a)) : FaultsIn kind (as.forM step) := by
  induction as with
  | nil => exact faultsIn_ok _
  | cons a more ih =>
      obtain ⟨first, others⟩ := List.forall_mem_cons.mp each
      exact faultsIn_bind.mpr ⟨first, fun _ _ => ih others⟩

end

/-! ### Tokens -/

section

variable {kind : ScalarFault → Prop}

@[simp] theorem faultsIn_finishLine (c : Cursor) : FaultsIn kind c.finishLine := by
  simp [Cursor.finishLine]

@[simp] theorem faultsIn_readName (c : Cursor) : FaultsIn kind (readName c) := by
  simp [readName]

@[simp] theorem faultsIn_percentBytes (t : Text) : FaultsIn kind (TagSpelling.percentBytes t) := by
  fun_induction TagSpelling.percentBytes t <;> simp [*]

@[simp] theorem faultsIn_unescape (turns : Nat) (t : Text) :
    FaultsIn kind (TagSpelling.unescape turns t) := by
  fun_induction TagSpelling.unescape turns t with
  | case3 turns x t percent ih =>
      refine faultsIn_bind.mpr ⟨faultsIn_percentBytes _, ?_⟩
      rintro ⟨bytes, rest⟩ -
      dsimp only
      split
      · exact faultsIn_map.mpr (ih rest)
      · exact faultsIn_malformed
  | _ => simp [*]

@[simp] theorem faultsIn_readUri (c : Cursor) : FaultsIn kind (TagSpelling.readUri c) := by
  simp [TagSpelling.readUri]

@[simp] theorem faultsIn_readHandle (c : Cursor) : FaultsIn kind (TagSpelling.readHandle c) := by
  unfold TagSpelling.readHandle
  split <;> simp

@[simp] theorem faultsIn_readTag (c : Cursor) : FaultsIn kind (TagSpelling.read c) := by
  simp [TagSpelling.read]

@[simp] theorem faultsIn_readNumber (c : Cursor) : FaultsIn kind (Directive.readNumber c) := by
  simp [Directive.readNumber]

@[simp] theorem faultsIn_readVersion (c : Cursor) : FaultsIn kind (Directive.readVersion c) := by
  simp [Directive.readVersion]

@[simp] theorem faultsIn_readMeaning (c : Cursor) : FaultsIn kind (Directive.readMeaning c) := by
  simp [Directive.readMeaning]

@[simp] theorem faultsIn_readDirective (c : Cursor) : FaultsIn kind (Directive.read c) := by
  simp [Directive.read]

@[simp] theorem faultsIn_takeIncrement (c : Cursor) : FaultsIn kind (Block.takeIncrement c) := by
  unfold Block.takeIncrement
  split <;> simp

@[simp] theorem faultsIn_header (c : Cursor) : FaultsIn kind (Block.header c) := by
  simp [Block.header]

@[simp] theorem faultsIn_readBlock (folded : Bool) (least : Nat) (c : Cursor) :
    FaultsIn kind (Block.read folded least c) := by
  simp [Block.read]

@[simp] theorem faultsIn_breaks (turns : Nat) (c : Cursor) :
    FaultsIn kind (Quoted.breaks turns c) := by
  fun_induction Quoted.breaks turns c <;> simp [*]

@[simp] theorem faultsIn_gap (c : Cursor) : FaultsIn kind (Quoted.gap c) := by
  simp [Quoted.gap]

@[simp] theorem faultsIn_refreshKeyPlace (c : Cursor) (k : Option KeyPlace) :
    FaultsIn kind (Cutting.refreshKeyPlace c k) := by
  cases k <;> simp [Cutting.refreshKeyPlace]

@[simp] theorem faultsIn_refreshKeyPlaces (s : Cutting) :
    FaultsIn kind s.refreshKeyPlaces := by
  simp [Cutting.refreshKeyPlaces, FaultsIn.mapM]

@[simp] theorem faultsIn_dropKeyPlace (s : Cutting) : FaultsIn kind s.dropKeyPlace := by
  unfold Cutting.dropKeyPlace
  split <;> simp

@[simp] theorem faultsIn_markKeyPlace (s : Cutting) : FaultsIn kind s.markKeyPlace := by
  simp [Cutting.markKeyPlace]

@[simp] theorem faultsIn_closeFlow (s : Cutting) (token : Token) :
    FaultsIn kind (s.closeFlow token) := by
  refine faultsIn_bind.mpr ⟨faultsIn_dropKeyPlace s, fun s' _ => ?_⟩
  split <;> simp

@[simp] theorem faultsIn_value (s : Cutting) : FaultsIn kind s.value := by
  unfold Cutting.value
  split <;> simp

/-- A token that can begin a key has the faults of its own reading. -/
@[simp] theorem faultsIn_keyLike (s : Cutting) {read : Cursor → Except Fault (Token × Cursor)}
    (own : ∀ c, FaultsIn kind (read c)) : FaultsIn kind (s.keyLike read) := by
  simp [Cutting.keyLike, own]

end

/-- The fault of an escape in double quotation marks: it names no code point. -/
def IsEscape (f : ScalarFault) : Prop := ∃ n, 0x110000 ≤ n ∧ f = .codePoint n

@[simp] theorem faultsIn_hexEscape (width : Nat) (c : Cursor) :
    FaultsIn IsEscape (Quoted.hexEscape width c) := by
  unfold Quoted.hexEscape
  dsimp only
  split
  · exact faultsIn_malformed
  · next n _ =>
    split
    · exact faultsIn_ok _
    · next beyond =>
      rintro f ⟨⟩
      exact ⟨n, Nat.le_of_not_lt beyond, rfl⟩

@[simp] theorem faultsIn_escaped (c : Cursor) : FaultsIn IsEscape (Quoted.escaped c) := by
  unfold Quoted.escaped
  split
  · exact faultsIn_malformed
  · split <;> simp

@[simp] theorem faultsIn_content (isDouble : Bool) (turns : Nat) (c : Cursor) :
    FaultsIn IsEscape (Quoted.content isDouble turns c) := by
  induction turns generalizing c with
  | zero => exact faultsIn_malformed
  | succ turns ih =>
      unfold Quoted.content
      split
      · exact faultsIn_malformed
      · simp [ih]

@[simp] theorem faultsIn_readQuoted (isDouble : Bool) (c : Cursor) :
    FaultsIn IsEscape (Quoted.read isDouble c) :=
  faultsIn_content isDouble _ _

/-- A step to the next token has no faults but those of escapes. -/
@[simp] theorem faultsIn_step (a : CodePoint) (s : Cutting) : FaultsIn IsEscape (s.step a) := by
  simp [Cutting.step, Cutting.directive, Cutting.documentMark, Cutting.openFlow, Cutting.flowEntry,
    Cutting.blockEntry, Cutting.explicitKey, Cutting.plain, Cutting.block]

theorem faultsIn_run (steps : Nat) (s : Cutting) : FaultsIn IsEscape (s.run steps) := by
  induction steps generalizing s with
  | zero => exact faultsIn_malformed
  | succ steps ih =>
      refine faultsIn_bind.mpr ⟨faultsIn_refreshKeyPlaces _, fun s _ => ?_⟩
      dsimp only
      split
      · simp
      · exact faultsIn_bind.mpr ⟨faultsIn_step _ _, fun s _ => ih s⟩

/-- **Where a text is cut, only escapes have faults.** -/
theorem faultsIn_tokens (t : Text) : FaultsIn IsEscape (Token.ofText t) := by
  simp [Token.ofText, faultsIn_run]

/-! ### Nodes -/

namespace Composing

variable {α β : Type} {m : Composing α}

/-- A step in which nodes are made has no scalar faults. -/
def Sound (m : Composing α) : Prop := ∀ s kind, FaultsIn kind (m s)

theorem Sound.bind {step : α → Composing β} (first : m.Sound) (others : ∀ a, (step a).Sound) :
    Sound (m >>= step) :=
  fun s kind => faultsIn_bind.mpr ⟨first s kind, fun p _ => others p.1 p.2 kind⟩

theorem sound_pure (a : α) : Sound (pure a) := fun _ _ => faultsIn_ok _

theorem sound_fail : Sound (fail : Composing α) := fun _ _ => faultsIn_malformed

theorem sound_peek? : Sound peek? := fun _ _ => faultsIn_ok _

theorem sound_advance : Sound advance := fun _ _ => faultsIn_ok _

theorem sound_modify (change : Composition → Composition) :
    Sound (modify change : Composing PUnit) :=
  fun _ _ => faultsIn_ok _

theorem Sound.ite {p : Prop} [Decidable p] {m' : Composing α} (first : p → m.Sound)
    (second : ¬ p → m'.Sound) : Sound (if p then m else m') := by
  split
  · next holds => exact first holds
  · next holds => exact second holds

theorem Sound.map {f : α → β} (own : m.Sound) : Sound (f <$> m) :=
  own.bind fun a => sound_pure (f a)

theorem Sound.seqLeft {m' : Composing β} (own : m.Sound) (next : m'.Sound) : Sound (m <* m') :=
  own.bind fun a => next.bind fun _ => sound_pure a

theorem sound_expect (token : Token) : Sound (expect token) :=
  sound_peek?.bind fun _ => .ite (fun _ => sound_advance) fun _ => sound_fail

theorem sound_sees (tokens : List Token) : Sound (sees tokens) :=
  sound_peek?.bind fun _ => sound_pure _

theorem sound_add (name : Option Text) (node : Node) : Sound (add name node) := by
  intro s kind
  unfold add
  cases name <;> simp

theorem sound_empty : Sound empty := sound_add _ _

theorem Sound.collection {parts : Composing Content} (own : parts.Sound) (name : Option Text)
    (tag : Tag) : Sound (collection name tag parts) :=
  (sound_add name _).bind fun _ => own.bind fun _ _ _ => faultsIn_ok _

theorem sound_tagName (spelling : TagSpelling) : Sound (tagName spelling) := by
  intro s kind
  unfold tagName
  split
  · exact faultsIn_ok _
  · split <;> simp

theorem sound_anchor : Sound anchor := by
  refine sound_peek?.bind fun next => ?_
  split
  · exact sound_advance.bind fun _ => sound_pure _
  · exact sound_pure _

theorem sound_tag : Sound tag := by
  refine sound_peek?.bind fun next => ?_
  split
  · exact sound_advance.bind fun _ => sound_pure _
  · exact sound_pure _

theorem sound_properties : Sound properties := by
  refine sound_anchor.bind fun early => sound_tag.bind fun spelling => ?_
  -- an anchor may also stand behind the tag
  cases spelling with
  | none =>
      exact .ite (fun _ => sound_anchor.bind fun _ => sound_pure _) fun _ =>
        (sound_pure early).bind fun _ => sound_pure _
  | some spelling =>
      have named (name : Option Text) : Sound (do pure (name, some (← tagName spelling))) :=
        (sound_tagName spelling).bind fun _ => sound_pure _
      exact .ite (fun _ => sound_anchor.bind named) fun _ => (sound_pure early).bind named

/-- All steps of a number of turns are sound. -/
structure SoundTurns (turns : Nat) : Prop where
  node : ∀ free, Sound (node turns free)
  blockItems : Sound (blockItems turns)
  blockEntries : Sound (blockEntries turns)
  flowValue : ∀ followers, Sound (flowValue turns followers)
  flowItems : ∀ first, Sound (flowItems turns first)
  flowEntries : ∀ first, Sound (flowEntries turns first)

/-- An empty scalar or a node, and what is done with it. -/
theorem Sound.emptyOr {m : Composing Nat} {step : Nat → Composing α} (own : m.Sound)
    (others : ∀ n, (step n).Sound) (tokens : List Token) :
    Sound (sees tokens >>= fun seen => if seen then empty >>= step else m >>= step) :=
  (sound_sees tokens).bind fun _ =>
    .ite (fun _ => sound_empty.bind others) fun _ => own.bind others

variable {turns : Nat}

theorem sound_node_succ (h : SoundTurns turns) (free : Bool) : Sound (node (turns + 1) free) := by
  refine sound_peek?.bind fun next => ?_
  split
  · refine sound_advance.bind fun _ s kind => ?_
    split <;> simp
  · refine sound_properties.bind fun p => ?_
    dsimp only
    refine sound_peek?.bind fun next => ?_
    split
    · exact sound_advance.bind fun _ => sound_add _ _
    · exact sound_advance.bind fun _ => (h.flowItems true).map.collection _ _
    · exact sound_advance.bind fun _ => (h.flowEntries true).map.collection _ _
    · exact sound_advance.bind fun _ => (h.blockItems.seqLeft (sound_expect _)).map.collection _ _
    · exact sound_advance.bind fun _ => (h.blockEntries.seqLeft (sound_expect _)).map.collection _ _
    · exact .ite (fun _ => h.blockItems.map.collection _ _) fun _ =>
        .ite (fun _ => sound_add _ _) fun _ => sound_fail

theorem sound_blockItems_succ (h : SoundTurns turns) : Sound (blockItems (turns + 1)) := by
  refine (sound_sees _).bind fun _ => .ite (fun _ => ?_) fun _ => sound_pure _
  exact sound_advance.bind fun _ => .emptyOr (h.node false) (fun _ => h.blockItems.map) _

theorem sound_blockEntries_succ (h : SoundTurns turns) : Sound (blockEntries (turns + 1)) := by
  refine (sound_sees _).bind fun _ => .ite (fun _ => ?_) fun _ => sound_pure _
  refine sound_advance.bind fun _ => .emptyOr (h.node true) (fun key => ?_) _
  refine (sound_sees _).bind fun _ => .ite (fun _ => ?_) fun _ => sound_empty.bind fun _ =>
    h.blockEntries.map
  exact sound_advance.bind fun _ => .emptyOr (h.node true) (fun _ => h.blockEntries.map) _

theorem sound_flowValue_succ (h : SoundTurns turns) (followers : List Token) :
    Sound (flowValue (turns + 1) followers) := by
  refine (sound_sees _).bind fun _ => .ite (fun _ => ?_) fun _ => sound_empty
  exact sound_advance.bind fun _ => (sound_sees _).bind fun _ =>
    .ite (fun _ => sound_empty) fun _ => h.node false

/-- The parts between brackets: their end, or a comma unless they are the first, and further
parts. -/
theorem Sound.parts {more : Composing (List α)} (own : more.Sound) (first : Bool)
    (closing : Token) : Sound (do
      if ← sees [closing] then advance; pure []
      else
        if !first then expect .flowEntry
        if ← sees [closing] then advance; pure []
        else more) := by
  have atEnd : Sound (do advance; pure ([] : List α)) := sound_advance.bind fun _ => sound_pure _
  have rest : Sound (do if ← sees [closing] then advance; pure [] else more) :=
    (sound_sees _).bind fun _ => .ite (fun _ => atEnd) fun _ => own
  exact (sound_sees _).bind fun _ => .ite (fun _ => atEnd) fun _ =>
    .ite (fun _ => (sound_expect _).bind fun _ => rest) fun _ => rest

theorem sound_flowItems_succ (h : SoundTurns turns) (first : Bool) :
    Sound (flowItems (turns + 1) first) := by
  refine Sound.parts ?_ first _
  refine (sound_sees _).bind fun _ => .ite (fun _ => ?_) fun _ =>
    (h.node false).bind fun _ => (h.flowItems false).map
  refine Sound.bind (.collection ?_ _ _) fun _ => (h.flowItems false).map
  refine sound_advance.bind fun _ => .emptyOr (h.node false) (fun _ => ?_) _
  exact (h.flowValue _).bind fun _ => sound_pure _

theorem sound_flowEntries_succ (h : SoundTurns turns) (first : Bool) :
    Sound (flowEntries (turns + 1) first) := by
  refine Sound.parts ?_ first _
  refine (sound_sees _).bind fun _ => .ite (fun _ => ?_) fun _ => ?_
  · refine sound_advance.bind fun _ => .emptyOr (h.node false) (fun _ => ?_) _
    exact (h.flowValue _).bind fun _ => (h.flowEntries false).map
  · exact (h.node false).bind fun _ => sound_empty.bind fun _ => (h.flowEntries false).map

/-- **Where nodes are made of tokens, nothing has a fault in a scalar.** -/
theorem soundTurns (turns : Nat) : SoundTurns turns := by
  induction turns with
  | zero =>
      exact ⟨fun _ => sound_fail, sound_fail, sound_fail, fun _ => sound_fail, fun _ => sound_fail,
        fun _ => sound_fail⟩
  | succ turns ih =>
      exact ⟨sound_node_succ ih, sound_blockItems_succ ih, sound_blockEntries_succ ih,
        sound_flowValue_succ ih, sound_flowItems_succ ih, sound_flowEntries_succ ih⟩

theorem sound_get : Sound (get : Composing Composition) := fun _ _ => faultsIn_ok _

theorem sound_directives (turns : Nat) (hasVersion : Bool) :
    Sound (directives turns hasVersion) := by
  induction turns generalizing hasVersion with
  | zero => exact sound_fail
  | succ turns ih =>
      refine sound_peek?.bind fun next => ?_
      split
      · exact .ite (fun _ => sound_fail) fun _ => sound_advance.bind fun _ => ih true
      · refine sound_get.bind fun _ => .ite (fun _ => sound_fail) fun _ => ?_
        exact sound_advance.bind fun _ => (sound_modify _).bind fun _ => ih hasVersion
      · exact sound_advance.bind fun _ => ih hasVersion
      · exact sound_pure _

theorem sound_documentEnds (turns : Nat) : Sound (documentEnds turns) := by
  induction turns with
  | zero => exact sound_fail
  | succ turns ih =>
      exact (sound_sees _).bind fun _ => .ite (fun _ => sound_advance.bind fun _ => ih) fun _ =>
        sound_pure _

theorem sound_seesDocument : Sound seesDocument := by
  refine sound_peek?.bind fun next => ?_
  split <;> exact sound_pure _

theorem sound_document (turns : Nat) : Sound (document turns) := by
  refine sound_peek?.bind fun next => .ite (fun _ => sound_pure _) fun _ => ?_
  have ends (root : Nat) : Sound (do
      documentEnds turns
      if (← peek?).isNone then pure (some root) else fail) :=
    (sound_documentEnds turns).bind fun _ => sound_peek?.bind fun _ =>
      .ite (fun _ => sound_pure _) fun _ => sound_fail
  have root : Sound (node turns false) := (soundTurns turns).node false
  refine sound_seesDocument.bind fun _ => .ite (fun _ => ?_) fun _ =>
    (sound_modify _).bind fun _ => root.bind ends
  refine (sound_directives turns false).bind fun _ => (sound_modify _).bind fun _ =>
    (sound_expect _).bind fun _ => ?_
  exact sound_seesDocument.bind fun _ => (sound_sees _).bind fun _ => sound_peek?.bind fun _ =>
    .ite (fun _ => sound_empty.bind ends) fun _ => root.bind ends

end Composing

/-- **Where the document is found, only escapes have faults.** -/
theorem faultsIn_ofText (t : Text) : FaultsIn IsEscape (Graph.ofText t) :=
  faultsIn_bind.mpr ⟨faultsIn_tokens t, fun _ _ =>
    faultsIn_bind.mpr ⟨Composing.sound_document _ _ _, fun _ _ => faultsIn_ok _⟩⟩

/-! ### Values -/

/-- A text denotes nothing under a tag. -/
inductive Denies : Tag → Text → ScalarFault → Prop
  /-- It is no word for a truth value. -/
  | truth {t : Text} {f : ScalarFault} (fault : readTruth t = .error f) : Denies .truth t f
  /-- It is no integer, or one with too many digits. -/
  | integer {t : Text} {f : ScalarFault} (fault : readInteger t = .error f) : Denies .integer t f
  /-- It is no floating-point number. -/
  | float {t : Text} {f : ScalarFault} (fault : readFloat t = .error f) : Denies .float t f
  /-- It is no day of the calendar, or no time of a day. -/
  | timestamp {t : Text} {f : ScalarFault} (fault : checkTimestamp t = .error f) :
      Denies .timestamp t f

theorem mapError_eq_scalar_iff {α : Type} {x : Except ScalarFault α} {g : α → Value}
    {f : ScalarFault} : (x.map g).mapError Fault.scalar = .error (.scalar f) ↔ x = .error f := by
  cases x <;> constructor <;> rintro ⟨⟩ <;> rfl

/-- **A scalar fault is one of a text that denotes nothing under its tag.** -/
theorem ofScalar_eq_scalar_iff {tag : Tag} {t : Text} {f : ScalarFault} :
    Value.ofScalar tag t = .error (.scalar f) ↔ Denies tag t f := by
  constructor
  · intro fault
    cases tag with
    | truth => exact .truth (mapError_eq_scalar_iff.mp fault)
    | integer => exact .integer (mapError_eq_scalar_iff.mp fault)
    | float => exact .float (mapError_eq_scalar_iff.mp fault)
    | timestamp => exact .timestamp (mapError_eq_scalar_iff.mp fault)
    | binary =>
        rw [Value.ofScalar] at fault
        split at fault <;> cases fault
    | _ => cases fault
  · rintro (fault | fault | fault | fault) <;> exact mapError_eq_scalar_iff.mpr fault

namespace Graph

variable {g : Graph} {number : Nat}

/-- A scalar of the document denotes nothing under its tag. -/
def HasFault (g : Graph) (f : ScalarFault) : Prop :=
  ∃ number t, g.scalarText? g.size number = some t ∧ Denies (g.node number).tag t f

theorem faultsIn_scalar (number : Nat) :
    FaultsIn g.HasFault (g.scalar number (g.node number).tag) := by
  intro f fault
  unfold scalar at fault
  split at fault
  · next t held => exact ⟨number, t, held, ofScalar_eq_scalar_iff.mp fault⟩
  · cases fault

theorem faultsIn_checkPart (number : Nat) :
    FaultsIn g.HasFault (g.checkPart number (g.node number).tag) := by
  simp [checkPart, faultsIn_scalar]

/-- A key has the tag of its node, unless it is an equals sign, which is a text. -/
theorem faultsIn_checkKey (number : Nat) :
    FaultsIn g.HasFault (g.checkPart number (g.keyTag number)) := by
  unfold keyTag
  dsimp only
  split
  · refine faultsIn_map.mpr fun f fault => ?_
    unfold scalar at fault
    split at fault <;> cases fault
  · exact faultsIn_checkPart number

section

variable {kind : ScalarFault → Prop}

theorem faultsIn_pair (number : Nat) : FaultsIn kind (g.pair number) := by
  unfold pair
  split <;> simp

theorem faultsIn_entries (turns : Nat) (around : List Nat) (number : Nat) :
    FaultsIn kind (g.entries turns around number) := by
  induction turns generalizing around number with
  | zero => exact faultsIn_malformed
  | succ turns ih =>
      unfold entries
      split
      · refine faultsIn_ite.mpr ⟨fun _ => faultsIn_ok _, fun _ => faultsIn_bind.mpr
          ⟨.mapM fun source _ => ?_, fun _ _ => faultsIn_ok _⟩⟩
        split
        · exact ih _ _
        · exact faultsIn_map.mpr (.mapM fun _ _ => ih _ _)
        · exact faultsIn_malformed
      · exact faultsIn_malformed

end

/-- **A collection has faults in its scalars only.** -/
theorem faultsIn_checkParts (number : Nat) : FaultsIn g.HasFault (g.checkParts number) := by
  have entry (k v : Nat) : FaultsIn g.HasFault (do
      g.checkPart k (g.keyTag k)
      g.checkPart v (g.node v).tag) :=
    faultsIn_bind.mpr ⟨faultsIn_checkKey k, fun _ _ => faultsIn_checkPart v⟩
  have entries : FaultsIn g.HasFault (do
      let entries ← g.allEntries number
      entries.forM fun e => do
        if (g.keyTag e.1).isCollection then .error .malformed
        g.checkPart e.1 (g.keyTag e.1)
        g.checkPart e.2 (g.node e.2).tag
      .ok (entries.map (·.2))) := by
    refine faultsIn_bind.mpr ⟨faultsIn_entries _ _ _, fun es _ =>
      faultsIn_bind.mpr ⟨.forM fun e _ => ?_, fun _ _ => faultsIn_ok _⟩⟩
    exact faultsIn_ite.mpr ⟨fun _ => faultsIn_bind.mpr ⟨faultsIn_malformed, fun _ _ => entry _ _⟩,
      fun _ => entry _ _⟩
  -- the parts of pairs are not looked up as entries, and those of mappings and of sets are
  unfold checkParts
  dsimp only
  split
  · exact faultsIn_bind.mpr ⟨.forM fun i _ => faultsIn_checkPart i, fun _ _ => faultsIn_ok _⟩
  · refine faultsIn_bind.mpr ⟨.mapM fun i _ => ?_, fun _ _ => faultsIn_ok _⟩
    refine faultsIn_bind.mpr ⟨faultsIn_pair i, fun p _ => ?_⟩
    exact faultsIn_bind.mpr ⟨faultsIn_checkPart p.1, fun _ _ =>
      faultsIn_bind.mpr ⟨faultsIn_checkPart p.2, fun _ _ => faultsIn_ok _⟩⟩
  · exact entries
  · exact entries
  · exact faultsIn_malformed

theorem faultsIn_checkLevels (turns : Nat) (met queue : List Nat) :
    FaultsIn g.HasFault (g.checkLevels turns met queue) := by
  induction turns generalizing met queue with
  | zero => exact faultsIn_ok _
  | succ turns ih =>
      cases queue with
      | nil => exact faultsIn_ok _
      | cons number queue =>
          exact faultsIn_bind.mpr ⟨faultsIn_checkParts number, fun parts _ => ih _ _⟩

/-- **The nodes of a document have faults in scalars only.** -/
theorem faultsIn_check (number : Nat) : FaultsIn g.HasFault (g.check number) := by
  simp [check, faultsIn_checkLevels, faultsIn_checkPart]

end Graph

/-- **A text denotes no value although it is well-formed** up to where that is noticed. -/
inductive Denied (t : Text) : ScalarFault → Prop
  /-- An escape in double quotation marks names no code point. -/
  | escape {n : Nat} (beyond : 0x110000 ≤ n)
      (noDocument : Graph.ofText t = .error (.scalar (.codePoint n))) : Denied t (.codePoint n)
  /-- A scalar denotes nothing under its tag, and that is the first fault of the document. -/
  | scalar {g : Graph} {root : Nat} {f : ScalarFault} (document : Graph.ofText t = .ok g)
      (outermost : g.root = some root) (first : g.check root = .error (.scalar f))
      (own : g.HasFault f) : Denied t f

/-- **Which texts have scalar faults when they are read.** -/
theorem read_eq_scalar_iff {depth : Nat} {t : Text} {f : ScalarFault} :
    read depth t = .error (.scalar f) ↔ Denied t f := by
  constructor
  · intro fault
    cases document : Graph.ofText t with
    | error e =>
        rw [read, document] at fault
        obtain rfl : e = .scalar f := Except.error.inj fault
        obtain ⟨n, beyond, rfl⟩ := faultsIn_ofText t f document
        exact .escape beyond document
    | ok g =>
        cases outermost : g.root with
        | none =>
            simp only [read, document, outermost, bind, Except.bind] at fault
            cases fault
        | some root =>
            have first : g.check root = .error (.scalar f) := by
              cases check : g.check root with
              | ok => simp [read, document, outermost, bind, Except.bind, check] at fault
              | error e =>
                  simp only [read, document, outermost, bind, Except.bind, check] at fault
                  exact congrArg Except.error (Except.error.inj fault)
            exact .scalar document outermost first (Graph.faultsIn_check root f first)
  · rintro (⟨-, document⟩ | ⟨document, outermost, first, -⟩)
    · rw [read, document]
      rfl
    · simp only [read, document, outermost, bind, Except.bind, first]

/-- Whether a result is a certain error can be computed, whatever the other results are. -/
instance decidableEqError {ε α : Type} [DecidableEq ε] (x : Except ε α) (e : ε) :
    Decidable (x = .error e) :=
  match x with
  | .ok _ => isFalse (by rintro ⟨⟩)
  | .error e' => decidable_of_iff (e' = e) (by rw [Except.error.injEq])

/-- Whether a text is denied can be computed. -/
instance decidableDenied (t : Text) (f : ScalarFault) : Decidable (Denied t f) :=
  decidable_of_iff (read 0 t = .error (.scalar f)) read_eq_scalar_iff

end Yaml

end RouteDocs
