import RouteDocs.Proofs.Json.Texts
import RouteDocs.Proofs.Yaml.Quoted
import RouteDocs.Yaml.Token

/-!
# Tokens of Values

The tokens into which the text of a value is cut, in brackets and in blocks.

## Main Definitions

* `Yaml.word`: the plain scalar of a value that is neither a text nor a collection
* `Yaml.flowTokens`: the tokens of a value in brackets, where every text is quoted
* `Yaml.blockTokens`: the tokens of a value in a block, where texts are in their plainest style and
  some are not read back

## Design Notes

A list that is the value of a key stands at the level of the key, where no token says that it begins
or ends.
-/

namespace RouteDocs

namespace Yaml

/-- The plain scalar of a value that is neither a text nor a collection. -/
def word : Json → Text
  | .null => "null"
  | .bool b => if b then "true" else "false"
  | .int i => Text.ofInt i
  | _ => []

mutual

/-- The tokens of a value in brackets. -/
def flowTokens : Json → List Token
  | .str t => [.scalar false t]
  | .arr vs => .flowSequenceStart :: (flowItemTokens vs ++ [.flowSequenceEnd])
  | .obj ms => .flowMappingStart :: (flowMemberTokens ms ++ [.flowMappingEnd])
  | .null => [.scalar true (word .null)]
  | .bool b => [.scalar true (word (.bool b))]
  | .int i => [.scalar true (word (.int i))]
  | .float x => [.scalar true (word (.float x))]

/-- The tokens of items between brackets. -/
def flowItemTokens : List Json → List Token
  | [] => []
  | v :: more =>
    flowTokens v ++ if more.isEmpty then [] else .flowEntry :: flowItemTokens more

/-- The tokens of members between braces. -/
def flowMemberTokens : List (Text × Json) → List Token
  | [] => []
  | (k, v) :: more =>
    .key :: .scalar false k :: .value ::
      (flowTokens v ++ if more.isEmpty then [] else .flowEntry :: flowMemberTokens more)

end

/-- The token of a text in its plainest style, with what is read of it. -/
def textToken (t : Text) : Token := .scalar (style t == .plain) (readBack t)

mutual

/-- The tokens of a value in a block, which depend on what precedes it. -/
def blockTokens (place : Place) : Json → List Token
  | .str t => [textToken t]
  | .arr vs =>
    if vs.isEmpty then [.flowSequenceStart, .flowSequenceEnd]
    else match place with
      | .afterKey => blockItemTokens vs
      | .afterIndicator => .blockSequenceStart :: (blockItemTokens vs ++ [.blockEnd])
  | .obj ms =>
    if ms.isEmpty then [.flowMappingStart, .flowMappingEnd]
    else .blockMappingStart :: (blockMemberTokens ms ++ [.blockEnd])
  | .null => [.scalar true (word .null)]
  | .bool b => [.scalar true (word (.bool b))]
  | .int i => [.scalar true (word (.int i))]
  | .float x => [.scalar true (word (.float x))]

/-- The tokens of items after hyphens. -/
def blockItemTokens : List Json → List Token
  | [] => []
  | v :: more => .blockEntry :: (blockTokens .afterIndicator v ++ blockItemTokens more)

/-- The tokens of members of a block. -/
def blockMemberTokens : List (Text × Json) → List Token
  | [] => []
  | (k, v) :: more =>
    .key :: textToken k :: .value :: (blockTokens (placeOfValue k) v ++ blockMemberTokens more)

end

end Yaml

end RouteDocs
