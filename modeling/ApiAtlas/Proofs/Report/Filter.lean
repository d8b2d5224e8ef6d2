import Mathlib.Data.List.Forall2
import ApiAtlas.Proofs.Regex.Matching
import ApiAtlas.Proofs.Regex.Reading
import ApiAtlas.Report.Filter
set_option autoImplicit false

/-!
# Screen filters cut labels into parts

A pattern matches a label if the label can be cut into consecutive parts, one for each character of
the pattern: a star takes any run without a line feed, a question mark one character other than a
line feed, and every other character itself.  On the way there the pattern is written as a regular
expression and read again: whatever it holds, each of its characters is read as one item between the
two anchors, and what the items take one after the other are the parts.  Nodes of other kinds than
screens are never rejected.
-/

namespace ApiAtlas

namespace ScreenFilter

/-- The part of a label that a character of a pattern may take. -/
inductive Takes : Char → List Char → Prop
  | run {part : List Char} (h : '\n' ∉ part) : Takes '*' part
  | one {c : Char} (h : c ≠ '\n') : Takes '?' [c]
  | same {c : Char} (hrun : c ≠ '*') (hone : c ≠ '?') : Takes c [c]

/-- The label can be cut into one part for each character of the pattern, which takes it. -/
def Cuts (pattern label : List Char) : Prop :=
  ∃ parts : List (List Char), List.Forall₂ Takes pattern parts ∧ parts.flatten = label

theorem cuts_nil_iff {label : List Char} : Cuts [] label ↔ label = [] := by
  constructor
  · rintro ⟨parts, hparts, rfl⟩
    cases hparts
    rfl
  · rintro rfl
    exact ⟨[], .nil, rfl⟩

theorem cuts_cons_iff {c : Char} {pattern label : List Char} :
    Cuts (c :: pattern) label ↔
      ∃ part rest, Takes c part ∧ Cuts pattern rest ∧ part ++ rest = label := by
  constructor
  · rintro ⟨parts, hparts, rfl⟩
    cases hparts with
    | cons hpart hrest => exact ⟨_, _, hpart, ⟨_, hrest, rfl⟩, rfl⟩
  · rintro ⟨part, rest, hpart, ⟨parts, hparts, rfl⟩, rfl⟩
    exact ⟨part :: parts, .cons hpart hparts, rfl⟩

end ScreenFilter

/-! ## Reading the regular expression of a pattern -/

namespace Wildcard

open Regex (Token tokens? ofTokens? inSequence)

/-- What is read for a character of a pattern. -/
def partTokens (c : Char) : List Token :=
  if c = '*' then [.any, .star] else if c = '?' then [.any] else [.char c]

/-- What a character of a pattern stands for. -/
def partRegex (c : Char) : Regex :=
  if c = '*' then .star .any else if c = '?' then .any else .char c

theorem tokens?_regexPart (c : Char) (rest : List Char) :
    tokens? (regexPart c ++ rest) = (tokens? rest).map (partTokens c ++ ·) := by
  unfold regexPart partTokens
  by_cases hrun : c = '*'
  · subst hrun
    simp [tokens?, Token.ofChar?, Function.comp_def]
  · by_cases hone : c = '?'
    · subst hone
      simp [tokens?, Token.ofChar?]
    · simp [hrun, hone, Regex.tokens?_escape]

theorem tokens?_flatMap (pattern rest : List Char) :
    tokens? (pattern.flatMap regexPart ++ rest) =
      (tokens? rest).map (pattern.flatMap partTokens ++ ·) := by
  induction pattern with
  | nil => simp
  | cons c pattern ih =>
      rw [List.flatMap_cons, List.append_assoc, tokens?_regexPart, ih, Option.map_map]
      simp [Function.comp_def]

theorem tokens?_regexText (pattern : String) :
    tokens? (regexText pattern) =
      some (.start :: .opening :: (pattern.toList.flatMap partTokens ++ [.closing, .stop])) := by
  have hfront : ∀ rest, tokens? ("^(?:".toList ++ rest) =
      (tokens? rest).map fun tokens => .start :: .opening :: tokens := by
    intro rest
    simp [tokens?, Token.ofChar?, Function.comp_def]
  have hback : tokens? ")$".toList = some [.closing, .stop] := by decide
  rw [regexText, List.append_assoc, hfront, tokens?_flatMap, hback]
  rfl

theorem ofTokens?_partTokens (c : Char) (group : Regex.Group) (outer : List Regex.Group)
    (rest : List Token) :
    ofTokens? group outer (partTokens c ++ rest) =
      ofTokens? (group.push (partRegex c)) outer rest := by
  unfold partTokens partRegex
  split
  · rfl
  · split
    · rfl
    · rfl

theorem ofTokens?_flatMap (pattern : List Char) (items : List Regex) (outer : List Regex.Group)
    (rest : List Token) :
    ofTokens? ⟨[], items⟩ outer (pattern.flatMap partTokens ++ rest) =
      ofTokens? ⟨[], (pattern.map partRegex).reverse ++ items⟩ outer rest := by
  induction pattern generalizing items with
  | nil => rfl
  | cons c pattern ih =>
      rw [List.flatMap_cons, List.append_assoc, ofTokens?_partTokens]
      exact (ih _).trans (by simp)

/-- The parts of a pattern one behind the other. -/
def partsRegex (pattern : List Char) : Regex := (pattern.map partRegex).foldr .seq .empty

theorem parse?_regexText (pattern : String) :
    Regex.parse? (regexText pattern) =
      some (.seq .start (.seq (partsRegex pattern.toList) (.seq .stop .empty))) := by
  rw [Regex.parse?, tokens?_regexText, Option.bind_some]
  show ofTokens? ⟨[], []⟩ [⟨[], [.start]⟩]
    (pattern.toList.flatMap partTokens ++ [.closing, .stop]) = _
  rw [ofTokens?_flatMap, List.append_nil]
  show some (Regex.seq .start (.seq (inSequence (pattern.toList.map partRegex).reverse) _)) = _
  rw [Regex.inSequence_reverse]
  rfl

theorem takes_partRegex_iff {c : Char} {front here rest : List Char} :
    Regex.Takes (partRegex c) front here rest ↔ ScreenFilter.Takes c here := by
  unfold partRegex
  split
  · next hrun =>
    subst hrun
    rw [Regex.takes_star_any_iff]
    constructor
    · exact .run
    · intro h
      cases h with
      | run hpart => exact hpart
      | same hrun _ => exact absurd rfl hrun
  · next hrun =>
    split
    · next hone =>
      subst hone
      constructor
      · intro h
        cases h with
        | any hc => exact .one hc
      · intro h
        cases h with
        | one hc => exact .any hc
        | same _ hone => exact absurd rfl hone
    · next hone =>
      constructor
      · intro h
        cases h
        exact .same hrun hone
      · intro h
        cases h with
        | run => exact absurd rfl hrun
        | one => exact absurd rfl hone
        | same => exact .char

theorem takes_partsRegex_iff {pattern front here rest : List Char} :
    Regex.Takes (partsRegex pattern) front here rest ↔ ScreenFilter.Cuts pattern here := by
  induction pattern generalizing front here with
  | nil =>
      rw [ScreenFilter.cuts_nil_iff]
      constructor
      · intro h
        cases h
        rfl
      · rintro rfl
        exact .empty
  | cons c pattern ih =>
      rw [ScreenFilter.cuts_cons_iff]
      constructor
      · intro h
        cases h with
        | seq hfirst hsecond =>
            exact ⟨_, _, takes_partRegex_iff.mp hfirst, ih.mp hsecond, rfl⟩
      · rintro ⟨part, more, hpart, hmore, rfl⟩
        exact .seq (takes_partRegex_iff.mpr hpart) (ih.mpr hmore)

end Wildcard

/-! ## Compiling and matching -/

namespace ScreenFilter

theorem matchesLabel_iff_cuts (filter : ScreenFilter) (label : String) :
    filter.matchesLabel label = true ↔ Cuts filter.pattern.toList label.toList := by
  have hregex := filter.compiled.symm.trans (Wildcard.parse?_regexText filter.pattern)
  rw [matchesLabel, Option.some.inj hregex, Regex.isMatch_anchored_iff,
    Wildcard.takes_partsRegex_iff]

/-- The filter of a pattern. -/
def ofPattern (pattern : String) : ScreenFilter := ⟨pattern, _, Wildcard.parse?_regexText pattern⟩

/-- Only the room of the engine decides whether a pattern compiles. -/
theorem compile_eq (engine : RegexEngine) (pattern : String) :
    compile engine pattern =
      if engine.admits (String.ofList (Wildcard.regexText pattern)) then .ok (ofPattern pattern)
      else .error .filter := by
  unfold compile
  split
  · split
    · next regex hregex =>
      obtain rfl := Option.some.inj (hregex.symm.trans (Wildcard.parse?_regexText pattern))
      rfl
    · next hnone =>
      rw [Wildcard.parse?_regexText] at hnone
      exact absurd hnone (Option.some_ne_none _)
  · rfl

/-- **A filter matches exactly the labels that its pattern cuts into parts**: one part for each
character of the pattern, in order, and nothing of the label left over.  Every pattern that the
engine has room for has a filter. -/
theorem matchesLabel_iff (engine : RegexEngine) (pattern : String) :
    ((∃ filter, compile engine pattern = .ok filter) ↔
      engine.admits (String.ofList (Wildcard.regexText pattern)) = true) ∧
    ∀ filter, compile engine pattern = .ok filter → ∀ label : String,
      filter.matchesLabel label = true ↔
        ∃ parts : List (List Char),
          List.Forall₂ Takes pattern.toList parts ∧ parts.flatten = label.toList := by
  rw [compile_eq]
  by_cases hadmits : engine.admits (String.ofList (Wildcard.regexText pattern)) = true
  · rw [if_pos hadmits]
    refine ⟨iff_of_true ⟨_, rfl⟩ hadmits, ?_⟩
    intro filter hfilter label
    obtain rfl := Except.ok.inj hfilter
    exact matchesLabel_iff_cuts _ label
  · rw [if_neg hadmits]
    refine ⟨iff_of_false ?_ hadmits, ?_⟩
    · rintro ⟨filter, hfilter⟩
      cases hfilter
    · intro filter hfilter
      cases hfilter

theorem matchesLabel_iff_stars :
    compile .roomy "/(*.?" = .ok (ofPattern "/(*.?") ∧
      (ofPattern "/(*.?").matchesLabel "/(.a.é" = true ∧
      (∃ parts : List (List Char),
        List.Forall₂ Takes "/(*.?".toList parts ∧ parts.flatten = "/(.a.é".toList) ∧
      (ofPattern "/(*.?").matchesLabel "/(.a.\n" = false ∧
      ¬ ∃ parts : List (List Char),
        List.Forall₂ Takes "/(*.?".toList parts ∧ parts.flatten = "/(.a.\n".toList := by
  have hcompile : compile .roomy "/(*.?" = .ok (ofPattern "/(*.?") := compile_eq .roomy "/(*.?"
  have hmatch : (ofPattern "/(*.?").matchesLabel "/(.a.é" = true := by decide +kernel
  have hother : (ofPattern "/(*.?").matchesLabel "/(.a.\n" = false := by decide +kernel
  have hiff := (matchesLabel_iff .roomy "/(*.?").2 _ hcompile
  exact ⟨hcompile, hmatch, (hiff _).mp hmatch, hother,
    (hiff _).not.mp (Bool.eq_false_iff.mp hother)⟩

/-! ## Rejected screens -/

/-- The node is a screen and its label does not match; an absent filter rejects nothing. -/
def Rejects (filter : Option ScreenFilter) (node : GraphNode) : Prop :=
  ∃ f ∈ filter, node.kind = .screen ∧ f.matchesLabel node.label = false

theorem acceptsAll_eq_false_iff {filter : Option ScreenFilter} {node : GraphNode} :
    acceptsAll filter node = false ↔ Rejects filter node := by
  cases filter with
  | none => simp [acceptsAll, Rejects]
  | some f => simp [acceptsAll, accepts, Rejects]

instance (filter : Option ScreenFilter) (node : GraphNode) : Decidable (Rejects filter node) :=
  decidable_of_iff _ acceptsAll_eq_false_iff

/-- A filter keeps the nodes that it does not reject. -/
theorem filter_acceptsAll (filter : Option ScreenFilter) (nodes : List GraphNode) :
    nodes.filter (acceptsAll filter) = nodes.filter fun n => ¬ Rejects filter n := by
  refine List.filter_congr fun n _ => ?_
  rw [Bool.eq_iff_iff, decide_eq_true_iff, ← acceptsAll_eq_false_iff, Bool.not_eq_false]

/-- Only screens are filtered. -/
theorem acceptsAll_of_not_screen (filter : Option ScreenFilter) {n : GraphNode}
    (h : n.kind ≠ .screen) : acceptsAll filter n = true := by
  rw [← Bool.not_eq_false, acceptsAll_eq_false_iff]
  rintro ⟨_, _, hscreen, _⟩
  exact h hscreen

end ScreenFilter

end ApiAtlas
