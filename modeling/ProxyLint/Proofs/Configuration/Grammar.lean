import ProxyLint.Configuration.Token

/-!
# The grammar of configurations

A configuration is a list of items.  An item is one word or more, followed by
a semicolon or by a configuration in braces.  The derivation of a list of
tokens is kept as the tree of its items.  Tokens that leave some blocks open
are described as well, because that is what a reader has seen at any moment.
-/

namespace ProxyLint

/-- An item with its first word, its further words and what its braces hold. -/
inductive ConfigItem where
  | simple (name : String) (arguments : List String)
  | block (name : String) (arguments : List String) (body : List ConfigItem)

/-- The tokens of one word or more. -/
def wordTokens (name : String) (arguments : List String) : List Token :=
  (name :: arguments).map .word

/-- The derivations of a list of tokens from the grammar. -/
inductive ConfigText : List ConfigItem → List Token → Prop where
  | empty : ConfigText [] []
  | simple {items : List ConfigItem} {tokens : List Token} (name : String)
      (arguments : List String) (rest : ConfigText items tokens) :
      ConfigText (.simple name arguments :: items)
        (wordTokens name arguments ++ .semicolon :: tokens)
  | block {body items : List ConfigItem} {inner tokens : List Token}
      (name : String) (arguments : List String)
      (inside : ConfigText body inner) (rest : ConfigText items tokens) :
      ConfigText (.block name arguments body :: items)
        (wordTokens name arguments ++
          .opening :: (inner ++ .closing :: tokens))

/-- Tokens that leave a number of blocks open and no word pending. -/
inductive OpenText : Nat → List Token → Prop where
  | top {items : List ConfigItem} {tokens : List Token}
      (text : ConfigText items tokens) : OpenText 0 tokens
  | inside {depth : Nat} {items : List ConfigItem}
      {before tokens : List Token} (outer : OpenText depth before)
      (name : String) (arguments : List String)
      (text : ConfigText items tokens) :
      OpenText (depth + 1)
        (before ++ (wordTokens name arguments ++ .opening :: tokens))

theorem ConfigText.append {items later : List ConfigItem}
    {tokens laterTokens : List Token} (text : ConfigText items tokens)
    (laterText : ConfigText later laterTokens) :
    ConfigText (items ++ later) (tokens ++ laterTokens) := by
  induction text with
  | empty => exact laterText
  | simple name arguments _ ih =>
      simpa using ConfigText.simple name arguments ih
  | block name arguments inside _ _ ih =>
      simpa using ConfigText.block name arguments inside ih

/-- Items are added inside the innermost open block. -/
theorem OpenText.append {depth : Nat} {items : List ConfigItem}
    {tokens laterTokens : List Token} (opened : OpenText depth tokens)
    (laterText : ConfigText items laterTokens) :
    OpenText depth (tokens ++ laterTokens) := by
  cases opened with
  | top text => exact .top (text.append laterText)
  | inside outer name arguments text =>
      simpa using OpenText.inside outer name arguments (text.append laterText)

/-- Closing the innermost block makes it an item of the block around it. -/
theorem OpenText.close {depth : Nat} {tokens : List Token}
    (opened : OpenText (depth + 1) tokens) :
    OpenText depth (tokens ++ [.closing]) := by
  cases opened with
  | inside outer name arguments text =>
      simpa using outer.append (.block name arguments text .empty)

end ProxyLint
