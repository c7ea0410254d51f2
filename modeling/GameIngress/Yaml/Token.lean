/-!
# Tokens of a YAML stream

Tokens carry the structure of the text: indentation has become starts and ends of blocks, and a key
is marked before it begins, even where only a later colon makes it one.
-/
namespace GameIngress.Yaml

inductive Style where
  | plain
  | singleQuoted
  | doubleQuoted
  | literal
  | folded
  deriving DecidableEq, Repr

inductive Token where
  | streamEnd
  | versionDirective (major minor : Nat)
  | tagDirective (handle lead : String)
  | documentStart
  | documentEnd
  | blockSequenceStart
  | blockMappingStart
  | blockEnd
  | flowSequenceStart
  | flowSequenceEnd
  | flowMappingStart
  | flowMappingEnd
  | blockEntry
  | flowEntry
  | key
  | value
  | alias (name : String)
  | anchor (name : String)
  | tag (handle suffix : String)
  | scalar (style : Style) (text : String)
  deriving DecidableEq, Repr

/-- Why a text is no YAML stream. -/
inductive Problem where
  | controlCharacter
  | unexpectedCharacter
  | unexpectedEnd
  | unexpectedIndicator
  | badDirective
  | unknownVersion
  | badAnchor
  | badTag
  | badEscape
  | badBlockHeader
  | tabInIndentation
  | missingColon
  | misplacedEntry
  | misplacedKey
  | misplacedValue
  | missingContent
  | missingKey
  | missingDash
  | missingComma
  | missingDocumentStart
  deriving DecidableEq, Repr

end GameIngress.Yaml
