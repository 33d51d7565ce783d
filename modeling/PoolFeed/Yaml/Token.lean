/-!
# Tokens

| here | there |
| --- | --- |
| `Token` | the tokens of `safe_load` |

The units of a YAML text. Indentation appears as tokens that open and close block collections, and a
key that is only known by the colon after it still has its own token in front.
-/

namespace PoolFeed.Yaml

inductive Token where
  /-- A version directive, with the major version. -/
  | version (major : Nat)
  /-- A directive that shortens tags: a handle and what it stands for. -/
  | shorthand (handle lead : String)
  | otherDirective
  | documentStart
  | documentEnd
  | streamEnd
  | blockSequenceStart
  | blockMappingStart
  | blockEnd
  | flowSequenceStart
  | flowSequenceEnd
  | flowMappingStart
  | flowMappingEnd
  | blockEntry
  | flowEntry
  | key
  | value
  | alias (name : String)
  | anchor (name : String)
  | tag (handle : Option String) (suffix : String)
  | scalar (text : String) (plain : Bool)
  deriving DecidableEq

end PoolFeed.Yaml
