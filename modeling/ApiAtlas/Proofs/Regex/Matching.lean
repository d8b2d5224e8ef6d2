import ApiAtlas.Regex
set_option autoImplicit false

/-!
# Regular expressions: marks and readings

What a pattern takes of a text is a relation: a part of the text between what stands before it and
what stands behind it, since the anchors look there.  Matching computes no readings.  It keeps one
mark for each place of the text and takes the marks back through the pattern.  Both agree: if the
marks tell where a property holds, then the marks before a pattern tell from where a reading of the
pattern leads to such a place.  A repetition needs no more rounds than the text has characters,
because rounds that take nothing can be left out.
-/

namespace ApiAtlas.Regex

/-! ## Readings -/

/-- The pattern can take the part `here` of a text, between `front` and `rest`. -/
inductive Takes : Regex → List Char → List Char → List Char → Prop
  | empty {front rest : List Char} : Takes .empty front [] rest
  | char {c : Char} {front rest : List Char} : Takes (.char c) front [c] rest
  | any {c : Char} {front rest : List Char} (h : c ≠ '\n') : Takes .any front [c] rest
  | start {rest : List Char} : Takes .start [] [] rest
  | stop {front : List Char} : Takes .stop front [] []
  | seq {first second : Regex} {front here more rest : List Char}
      (hfirst : Takes first front here (more ++ rest))
      (hsecond : Takes second (front ++ here) more rest) :
      Takes (.seq first second) front (here ++ more) rest
  | left {first second : Regex} {front here rest : List Char}
      (h : Takes first front here rest) : Takes (.alt first second) front here rest
  | right {first second : Regex} {front here rest : List Char}
      (h : Takes second front here rest) : Takes (.alt first second) front here rest
  | done {body : Regex} {front rest : List Char} : Takes (.star body) front [] rest
  | again {body : Regex} {front here more rest : List Char}
      (hbody : Takes body front here (more ++ rest))
      (hmore : Takes (.star body) (front ++ here) more rest) :
      Takes (.star body) front (here ++ more) rest

/-- The dot repeated takes any run without a line feed. -/
theorem takes_star_any_iff {front here rest : List Char} :
    Takes (.star .any) front here rest ↔ '\n' ∉ here := by
  constructor
  · intro h
    generalize hstar : Regex.star .any = r at h
    induction h with
    | done => exact List.not_mem_nil
    | again hbody _ _ ih =>
        cases hstar
        cases hbody with
        | any hc =>
            intro hmem
            rcases List.mem_cons.mp hmem with rfl | hmem
            · exact hc rfl
            · exact ih rfl hmem
    | _ => cases hstar
  · intro h
    induction here generalizing front with
    | nil => exact .done
    | cons c here ih =>
        rw [List.mem_cons, not_or] at h
        have hone : Takes .any front [c] (here ++ rest) := .any (Ne.symm h.1)
        exact .again hone (ih h.2)

/-- A property of places of a text, each given by what stands before it and behind it. -/
abbrev Place := List Char → List Char → Prop

/-- A reading of the pattern leads from here to a place with the property. -/
def Leads (r : Regex) (P : Place) (front rest : List Char) : Prop :=
  ∃ here behind, rest = here ++ behind ∧ Takes r front here behind ∧ P (front ++ here) behind

section Leads

variable {P : Place} {front rest : List Char} {first second body : Regex} {c : Char}

theorem leads_empty_iff : Leads .empty P front rest ↔ P front rest := by
  constructor
  · rintro ⟨_, behind, rfl, htakes, h⟩
    cases htakes
    rwa [List.append_nil] at h
  · intro h
    exact ⟨[], rest, rfl, .empty, by rwa [List.append_nil]⟩

theorem leads_char_iff :
    Leads (.char c) P front rest ↔ ∃ behind, rest = c :: behind ∧ P (front ++ [c]) behind := by
  constructor
  · rintro ⟨_, behind, rfl, htakes, h⟩
    cases htakes
    exact ⟨behind, rfl, h⟩
  · rintro ⟨behind, rfl, h⟩
    exact ⟨[c], behind, rfl, .char, h⟩

theorem leads_any_iff :
    Leads .any P front rest ↔
      ∃ d behind, rest = d :: behind ∧ d ≠ '\n' ∧ P (front ++ [d]) behind := by
  constructor
  · rintro ⟨_, behind, rfl, htakes, h⟩
    cases htakes with
    | any hd => exact ⟨_, behind, rfl, hd, h⟩
  · rintro ⟨d, behind, rfl, hd, h⟩
    exact ⟨[d], behind, rfl, .any hd, h⟩

theorem leads_start_iff : Leads .start P front rest ↔ front = [] ∧ P front rest := by
  constructor
  · rintro ⟨_, behind, rfl, htakes, h⟩
    cases htakes
    exact ⟨rfl, h⟩
  · rintro ⟨rfl, h⟩
    exact ⟨[], rest, rfl, .start, h⟩

theorem leads_stop_iff : Leads .stop P front rest ↔ rest = [] ∧ P front rest := by
  constructor
  · rintro ⟨_, behind, rfl, htakes, h⟩
    cases htakes
    rw [List.append_nil] at h
    exact ⟨rfl, h⟩
  · rintro ⟨rfl, h⟩
    exact ⟨[], [], rfl, .stop, by rwa [List.append_nil]⟩

theorem leads_seq_iff :
    Leads (.seq first second) P front rest ↔ Leads first (Leads second P) front rest := by
  constructor
  · rintro ⟨_, behind, rfl, htakes, h⟩
    cases htakes with
    | seq hfirst hsecond =>
        rw [← List.append_assoc] at h
        exact ⟨_, _, List.append_assoc _ _ _, hfirst, _, _, rfl, hsecond, h⟩
  · rintro ⟨here, _, rfl, hfirst, more, behind, rfl, hsecond, h⟩
    rw [List.append_assoc] at h
    exact ⟨here ++ more, behind, (List.append_assoc _ _ _).symm, .seq hfirst hsecond, h⟩

theorem leads_alt_iff :
    Leads (.alt first second) P front rest ↔
      Leads first P front rest ∨ Leads second P front rest := by
  constructor
  · rintro ⟨here, behind, rfl, htakes, h⟩
    cases htakes with
    | left hfirst => exact .inl ⟨here, behind, rfl, hfirst, h⟩
    | right hsecond => exact .inr ⟨here, behind, rfl, hsecond, h⟩
  · rintro (⟨here, behind, rfl, hfirst, h⟩ | ⟨here, behind, rfl, hsecond, h⟩)
    · exact ⟨here, behind, rfl, .left hfirst, h⟩
    · exact ⟨here, behind, rfl, .right hsecond, h⟩

/-! ## Rounds of a repetition -/

/-- At most so many rounds of the pattern lead from here to a place with the property. -/
def Rounds (body : Regex) (P : Place) : Nat → Place
  | 0 => P
  | n + 1 => fun front rest => P front rest ∨ Leads body (Rounds body P n) front rest

theorem Rounds.of_here {n : Nat} (h : P front rest) : Rounds body P n front rest := by
  cases n with
  | zero => exact h
  | succ n => exact .inl h

theorem Rounds.leads {n : Nat} (h : Rounds body P n front rest) :
    Leads (.star body) P front rest := by
  induction n generalizing front rest with
  | zero => exact ⟨[], rest, rfl, .done, by rwa [List.append_nil]⟩
  | succ n ih =>
      rcases h with h | ⟨here, _, rfl, hbody, hrounds⟩
      · exact ⟨[], rest, rfl, .done, by rwa [List.append_nil]⟩
      · obtain ⟨more, behind, rfl, hmore, h⟩ := ih hrounds
        rw [List.append_assoc] at h
        exact ⟨here ++ more, behind, (List.append_assoc _ _ _).symm, .again hbody hmore, h⟩

/-- A repetition needs at most as many rounds as it takes characters: a round that takes nothing
leads nowhere else. -/
theorem Rounds.of_takes {n : Nat} {here behind : List Char} (hn : here.length ≤ n)
    (htakes : Takes (.star body) front here behind) (h : P (front ++ here) behind) :
    Rounds body P n front (here ++ behind) := by
  generalize hstar : Regex.star body = r at htakes
  induction htakes generalizing n with
  | done => exact .of_here (by rwa [List.append_nil] at h)
  | @again _ front here more rest hbody _ _ ih =>
      cases hstar
      rw [← List.append_assoc] at h
      cases here with
      | nil =>
          rw [List.append_nil] at ih h
          exact ih hn h rfl
      | cons c here =>
          rw [List.length_append, List.length_cons] at hn
          obtain ⟨m, rfl⟩ : ∃ m, n = m + 1 := ⟨n - 1, by omega⟩
          rw [List.append_assoc]
          exact .inr ⟨c :: here, more ++ rest, rfl, hbody, ih (by omega) h rfl⟩
  | _ => cases hstar

end Leads

/-! ## Marks -/

/-- The marks tell of each place of the text whether it has the property. -/
structure Describes (text : List Char) (P : Place) (marks : List Bool) : Prop where
  length_eq : marks.length = text.length + 1
  mark_iff : ∀ front rest, text = front ++ rest →
    (marks[front.length]? = some true ↔ P front rest)

namespace Describes

variable {text : List Char} {P Q : Place} {marks others : List Bool}

theorem congr (h : Describes text P marks)
    (hPQ : ∀ front rest, text = front ++ rest → (P front rest ↔ Q front rest)) :
    Describes text Q marks :=
  ⟨h.length_eq, fun front rest htext => (h.mark_iff front rest htext).trans (hPQ front rest htext)⟩

theorem exists_mark (h : Describes text P marks) {front rest : List Char}
    (htext : text = front ++ rest) : ∃ mark, marks[front.length]? = some mark := by
  have hlt : front.length < marks.length := by
    rw [h.length_eq, htext, List.length_append]
    omega
  exact ⟨_, List.getElem?_eq_getElem hlt⟩

/-- All places are marked. -/
theorem everywhere (text : List Char) :
    Describes text (fun _ _ => True) (List.replicate (text.length + 1) true) := by
  refine ⟨List.length_replicate, fun front rest htext => iff_of_true ?_ trivial⟩
  rw [List.getElem?_replicate, if_pos]
  rw [htext, List.length_append]
  omega

theorem before_one (h : Describes text P marks) (accepts : Char → Bool) :
    Describes text
      (fun front rest =>
        ∃ c behind, rest = c :: behind ∧ accepts c = true ∧ P (front ++ [c]) behind)
      (beforeOne accepts text marks) := by
  have hzip : (List.zipWith (fun c mark => accepts c && mark) text marks.tail).length =
      text.length := by
    rw [List.length_zipWith, List.length_tail, h.length_eq]
    omega
  refine ⟨by rw [beforeOne, List.length_append, hzip]; rfl, ?_⟩
  intro front rest htext
  unfold beforeOne
  cases rest with
  | nil =>
      -- no character is left at the end of the text
      rw [List.append_nil] at htext
      rw [List.getElem?_append_right (Nat.le_of_eq (by rw [hzip, htext])), hzip, htext,
        Nat.sub_self]
      simp
  | cons c behind =>
      have hc : text[front.length]? = some c := by
        rw [htext, List.getElem?_append_right (Nat.le_refl _), Nat.sub_self]
        rfl
      have hlt : front.length < text.length := (List.getElem?_eq_some_iff.mp hc).1
      have hmark := h.mark_iff (front ++ [c]) behind (by rw [htext]; simp)
      rw [List.length_append, List.length_singleton] at hmark
      rw [List.getElem?_append_left (by rwa [hzip]), List.getElem?_zipWith_eq_some,
        List.getElem?_tail]
      constructor
      · rintro ⟨d, mark, hd, hmarked, hboth⟩
        obtain rfl := Option.some.inj (hc.symm.trans hd)
        obtain ⟨haccepts, rfl⟩ := Bool.and_eq_true_iff.mp hboth
        exact ⟨c, behind, rfl, haccepts, hmark.mp hmarked⟩
      · rintro ⟨d, others, hrest, haccepts, hP⟩
        obtain ⟨rfl, rfl⟩ := List.cons.inj hrest
        exact ⟨c, true, hc, hmark.mpr hP, by rw [haccepts]; rfl⟩

theorem either (h : Describes text P marks) (hothers : Describes text Q others) :
    Describes text (fun front rest => P front rest ∨ Q front rest)
      (Regex.either marks others) := by
  refine ⟨by rw [Regex.either, List.length_zipWith, h.length_eq, hothers.length_eq, Nat.min_self],
    ?_⟩
  intro front rest htext
  rw [Regex.either, List.getElem?_zipWith_eq_some, ← h.mark_iff front rest htext,
    ← hothers.mark_iff front rest htext]
  constructor
  · rintro ⟨mark, other, hmark, hother, hor⟩
    rcases Bool.or_eq_true_iff.mp hor with rfl | rfl
    · exact .inl hmark
    · exact .inr hother
  · rintro (hmark | hother)
    · obtain ⟨other, hother⟩ := hothers.exists_mark htext
      exact ⟨true, other, hmark, hother, Bool.true_or other⟩
    · obtain ⟨mark, hmark⟩ := h.exists_mark htext
      exact ⟨mark, true, hmark, hother, Bool.or_true mark⟩

/-- No place is marked where nothing marks one. -/
theorem getElem?_unmarked (text : List Char) (k : Nat) :
    (text.map fun _ => false)[k]? ≠ some true := by
  rw [List.getElem?_map]
  cases text[k]? with
  | none => exact Option.some_ne_none true |>.symm
  | some c => exact fun h => Bool.false_ne_true (Option.some.inj h)

theorem at_start (h : Describes text P marks) :
    Describes text (fun front rest => front = [] ∧ P front rest)
      (marks.take 1 ++ text.map fun _ => false) := by
  obtain ⟨mark, more, rfl⟩ := List.exists_cons_of_length_eq_add_one h.length_eq
  refine ⟨by simp, ?_⟩
  intro front rest htext
  cases front with
  | nil => simpa using h.mark_iff [] rest htext
  | cons c front =>
      refine iff_of_false (getElem?_unmarked text front.length) ?_
      rintro ⟨hfront, _⟩
      cases hfront

theorem at_stop (h : Describes text P marks) :
    Describes text (fun front rest => rest = [] ∧ P front rest)
      ((text.map fun _ => false) ++ marks.drop text.length) := by
  refine ⟨by rw [List.length_append, List.length_map, List.length_drop, h.length_eq]; omega, ?_⟩
  intro front rest htext
  cases rest with
  | nil =>
      have hlength : text.length = front.length := by rw [htext, List.append_nil]
      rw [List.getElem?_append_right (by rw [List.length_map]; exact Nat.le_of_eq hlength),
        List.length_map, List.getElem?_drop, hlength, Nat.sub_self, Nat.add_zero,
        h.mark_iff front [] htext]
      simp
  | cons c behind =>
      have hlt : front.length < (text.map fun _ => false).length := by
        rw [List.length_map, htext, List.length_append, List.length_cons]
        omega
      rw [List.getElem?_append_left hlt]
      refine iff_of_false (getElem?_unmarked text front.length) ?_
      rintro ⟨hbehind, _⟩
      cases hbehind

theorem rounds {body : Regex}
    (hbody : ∀ {Q : Place} {marks : List Bool}, Describes text Q marks →
      Describes text (Leads body Q) (before text body marks))
    (h : Describes text P marks) (n : Nat) :
    Describes text (Rounds body P n)
      (Nat.repeat (fun found => Regex.either marks (before text body found)) n marks) := by
  induction n with
  | zero => exact h
  | succ n ih => exact h.either (hbody ih)

end Describes

/-- **Marks are taken back along readings**: what `before` marks are the places from which a reading
of the pattern leads to a marked place. -/
theorem before_describes (text : List Char) (r : Regex) {P : Place} {marks : List Bool}
    (h : Describes text P marks) : Describes text (Leads r P) (before text r marks) := by
  induction r generalizing P marks with
  | empty => exact h.congr fun _ _ _ => leads_empty_iff.symm
  | char c =>
      refine (h.before_one (· == c)).congr fun front rest _ => ?_
      rw [leads_char_iff]
      constructor
      · rintro ⟨d, behind, rfl, hd, hP⟩
        obtain rfl := beq_iff_eq.mp hd
        exact ⟨behind, rfl, hP⟩
      · rintro ⟨behind, rfl, hP⟩
        exact ⟨c, behind, rfl, beq_self_eq_true c, hP⟩
  | any =>
      refine (h.before_one (· != '\n')).congr fun front rest _ => ?_
      simp only [leads_any_iff, bne_iff_ne]
  | start => exact h.at_start.congr fun _ _ _ => leads_start_iff.symm
  | stop => exact h.at_stop.congr fun _ _ _ => leads_stop_iff.symm
  | seq first second hfirst hsecond =>
      exact (hfirst (hsecond h)).congr fun _ _ _ => leads_seq_iff.symm
  | alt first second hfirst hsecond =>
      exact ((hfirst h).either (hsecond h)).congr fun _ _ _ => leads_alt_iff.symm
  | star body hbody =>
      refine (h.rounds hbody text.length).congr fun front rest htext => ⟨Rounds.leads, ?_⟩
      rintro ⟨here, behind, rfl, htakes, hP⟩
      refine .of_takes ?_ htakes hP
      rw [htext, List.length_append, List.length_append]
      omega

/-- **A pattern matches a text exactly if it can take a part of it**, from some place on. -/
theorem isMatch_iff {r : Regex} {text : List Char} :
    r.isMatch text = true ↔
      ∃ front rest, text = front ++ rest ∧ Leads r (fun _ _ => True) front rest := by
  have hmarks := before_describes text r (.everywhere text)
  rw [isMatch, List.contains_iff_mem, List.mem_iff_getElem?]
  constructor
  · rintro ⟨k, hk⟩
    have hlength : (text.take k).length = k := by
      have hlt := (List.getElem?_eq_some_iff.mp hk).1
      rw [hmarks.length_eq] at hlt
      rw [List.length_take]
      omega
    have htext : text = text.take k ++ text.drop k := (List.take_append_drop k text).symm
    have hplace := hmarks.mark_iff _ _ htext
    rw [hlength] at hplace
    exact ⟨_, _, htext, hplace.mp hk⟩
  · rintro ⟨front, rest, htext, hleads⟩
    exact ⟨front.length, (hmarks.mark_iff front rest htext).mpr hleads⟩

/-- A pattern between the two anchors matches the texts that it takes as a whole. -/
theorem isMatch_anchored_iff {r : Regex} {text : List Char} :
    (seq start (seq r (seq stop empty))).isMatch text = true ↔ Takes r [] text [] := by
  simp only [isMatch_iff, leads_seq_iff, leads_start_iff]
  constructor
  · rintro ⟨_, rest, rfl, rfl, here, behind, rfl, htakes, hstop⟩
    obtain ⟨rfl, _⟩ := leads_stop_iff.mp (leads_seq_iff.mp hstop)
    rwa [List.nil_append, List.append_nil]
  · intro htakes
    refine ⟨[], text, rfl, rfl, text, [], (List.append_nil text).symm, htakes, ?_⟩
    exact leads_seq_iff.mpr (leads_stop_iff.mpr ⟨rfl, leads_empty_iff.mpr trivial⟩)

end ApiAtlas.Regex
