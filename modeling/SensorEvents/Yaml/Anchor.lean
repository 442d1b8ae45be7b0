import SensorEvents.Yaml.Token

/-!
# Anchors and aliases of a YAML stream

An anchor gets as its number how many names were in use before it, so that a name that is used
again shares its number with the next new name. An alias stands for the last node of the document
with the number that its name has where the alias stands; this can be a node that comes after it.
-/
namespace SensorEvents.Yaml

/-- The numbers of anchors and of aliases, each in their order. -/
structure Numbering where
  anchors : List Nat := []
  aliases : List Nat := []

namespace Numbering

/-- Number the anchors and aliases of some tokens, under names that have their numbers already. An
alias has to be of a name in use. -/
def ofTokens? (names : List (String × Nat)) : List Token → Option Numbering
  | [] => some {}
  | .anchor name :: tokens => do
    let number := names.length
    let later ← ofTokens? ((name, number) :: names.filter (·.1 ≠ name)) tokens
    return { later with anchors := number :: later.anchors }
  | .alias name :: tokens => do
    let number ← names.lookup name
    let later ← ofTokens? names tokens
    return { later with aliases := number :: later.aliases }
  | _ :: tokens => ofTokens? names tokens

/-- The places, among all anchors, of those that the aliases stand for. -/
def targets? (n : Numbering) : Option (List Nat) :=
  let places := n.anchors.zipIdx.reverse
  n.aliases.mapM (places.lookup ·)

end Numbering

/-- For each alias among some tokens the place of its anchor among all anchors. -/
def aliasTargets? (tokens : List Token) : Option (List Nat) := do
  (← Numbering.ofTokens? [] tokens).targets?

end SensorEvents.Yaml
