import ApiAtlas.Regex
set_option autoImplicit false

/-!
# Regular expressions: reading

An escaped text is read as itself, whatever follows: a character with a meaning stands behind a
backslash, and any other character has no meaning to lose.  The items of a group are kept with the
latest in front, and become a pattern in the order of the text.
-/

namespace ApiAtlas.Regex

/-- A character that needs no escape is read as itself. -/
theorem Token.ofChar?_of_plain {c : Char} (hc : isMeta c = false) :
    Token.ofChar? c = some (.char c) := by
  have hne : ∀ d, isMeta d = true → c ≠ d := by
    rintro d hd rfl
    rw [hc] at hd
    exact Bool.false_ne_true hd
  have hothers : "\\(+?[\x7b".toList.contains c = false := by
    rw [← Bool.not_eq_true, List.contains_iff_mem]
    intro hmem
    have hall : ∀ d ∈ "\\(+?[\x7b".toList, isMeta d = true := List.all_eq_true.mp (by decide)
    exact hne c (hall c hmem) rfl
  simp only [Token.ofChar?, beq_iff_eq, hne '.' rfl, hne '^' rfl, hne '$' rfl, hne ')' rfl,
    hne '|' rfl, hne '*' rfl, hothers, if_false, Bool.false_eq_true]

theorem tokens?_cons_of_plain {c : Char} (hc : isMeta c = false) (rest : List Char) :
    tokens? (c :: rest) = (tokens? rest).map (.char c :: ·) := by
  have hslash : c ≠ '\\' := by
    rintro rfl
    exact absurd hc (by decide)
  have hopen : c ≠ '(' := by
    rintro rfl
    exact absurd hc (by decide)
  rw [tokens?, Token.ofChar?_of_plain hc, Option.bind_some]
  · intro d more h _
    exact hslash h
  · intro more h _
    exact hopen h

/-- **An escaped text is read as itself.** -/
theorem tokens?_escape (text rest : List Char) :
    tokens? (escape text ++ rest) = (tokens? rest).map (text.map .char ++ ·) := by
  induction text with
  | nil => exact Option.map_id_apply.symm
  | cons c text ih =>
      have hfront : tokens? (escape (c :: text) ++ rest) =
          (tokens? (escape text ++ rest)).map (.char c :: ·) := by
        rw [escape, List.flatMap_cons, List.append_assoc]
        cases hmeta : isMeta c with
        | true => exact if_pos hmeta
        | false => exact tokens?_cons_of_plain hmeta _
      rw [hfront, ih, Option.map_map]
      rfl

theorem inSequence_reverse (items : List Regex) :
    inSequence items.reverse = items.foldr .seq .empty := by
  rw [inSequence, List.foldl_reverse]

end ApiAtlas.Regex
