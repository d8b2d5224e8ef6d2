set_option autoImplicit false

/-!
# Text: finding and cutting

Searching, cutting and joining lists of characters or bytes.  Each function is given by recursion on
the text, so that its behaviour can be read off case by case.
-/

namespace ApiAtlas.Text

/-- `needle` occurs somewhere in the text. -/
def occursIn (needle : List Char) : List Char → Bool
  | [] => needle.isEmpty
  | c :: rest => needle.isPrefixOf (c :: rest) || occursIn needle rest

/-- The part before the first `sep` and the part after it. -/
def cutAt? {α : Type} [BEq α] (sep : α) : List α → Option (List α × List α)
  | [] => none
  | c :: rest =>
      if c == sep then some ([], rest)
      else (cutAt? sep rest).map fun parts => (c :: parts.1, parts.2)

/-- The part before the last `sep` and the part after it. -/
def cutAtLast? {α : Type} [BEq α] (sep : α) (text : List α) : Option (List α × List α) :=
  (cutAt? sep text.reverse).map fun parts => (parts.2.reverse, parts.1.reverse)

/-- The pieces between the occurrences of `sep`; there is always at least one. -/
def splitBy {α : Type} [BEq α] (sep : α) : List α → List (List α)
  | [] => [[]]
  | c :: rest =>
      if c == sep then [] :: splitBy sep rest
      else
        match splitBy sep rest with
        | [] => [[c]]
        | piece :: pieces => (c :: piece) :: pieces

/-- The text ends in `tail`. -/
def endsIn (text tail : List Char) : Bool := tail.isSuffixOf text

/-- What is left of the text when `head` is taken off its front. -/
def dropHead? (head text : List Char) : Option (List Char) := head.isPrefixOf? text

/-- The part of `whole` that stands before its suffix `rest`. -/
def upTo (whole rest : List Char) : List Char := whole.take (whole.length - rest.length)

/-- The elements in order of first occurrence. -/
def distinct {α : Type} [BEq α] (items : List α) : List α :=
  items.foldl (fun seen a => if seen.contains a then seen else seen ++ [a]) []

end ApiAtlas.Text
