import Mathlib.Data.List.Infix
import Mathlib.Data.List.TakeWhile
import ApiAtlas.Text.Blank
import ApiAtlas.Text.Search
import ApiAtlas.Text.Word
set_option autoImplicit false

/-!
# Runs of characters

Readers take the longest run of a class of characters.  A run is taken whole when the text behind it
does not go on with the class; since blanks, word characters and marks have nothing in common, each
of them ends a run of the others.
-/

namespace ApiAtlas.Text

/-! ## Where a run ends -/

/-- The text does not go on with the class. -/
def Stops (p : Char → Bool) (rest : List Char) : Prop := ∀ c ∈ rest.head?, p c = false

theorem stops_cons {p : Char → Bool} {c : Char} {rest : List Char} :
    Stops p (c :: rest) ↔ p c = false := by
  simp [Stops]

/-- A text of one class has no character of another. -/
theorem not_mem_of_forall {p : Char → Bool} {text : List Char} (h : ∀ c ∈ text, p c = true)
    {c : Char} (hc : p c = false) : c ∉ text := by
  intro hmem
  rw [h c hmem] at hc
  exact Bool.false_ne_true hc.symm

/-- A nonempty part of another class stops a run, whatever follows it. -/
theorem Stops.of_forall {p : Char → Bool} {front : List Char} (hne : front ≠ [])
    (h : ∀ c ∈ front, p c = false) (rest : List Char) : Stops p (front ++ rest) := by
  cases front with
  | nil => exact absurd rfl hne
  | cons c front => exact stops_cons.mpr (h c List.mem_cons_self)

theorem Stops.of_any {p : Char → Bool} {front : List Char} (hne : front ≠ [])
    (h : front.any p = false) (rest : List Char) : Stops p (front ++ rest) := by
  refine Stops.of_forall hne ?_ rest
  intro c hc
  rw [← Bool.not_eq_true]
  exact List.any_eq_false.mp h c hc

variable {p : Char → Bool} {run rest : List Char}

theorem dropWhile_of_stops (hrest : Stops p rest) : rest.dropWhile p = rest := by
  cases rest with
  | nil => rfl
  | cons c rest => exact List.dropWhile_cons_of_neg (by simp [stops_cons.mp hrest])

theorem takeWhile_of_stops (hrest : Stops p rest) : rest.takeWhile p = [] := by
  cases rest with
  | nil => rfl
  | cons c rest => exact List.takeWhile_cons_of_neg (by simp [stops_cons.mp hrest])

theorem dropWhile_run (hrun : ∀ c ∈ run, p c = true) (hrest : Stops p rest) :
    (run ++ rest).dropWhile p = rest := by
  rw [List.dropWhile_append_of_pos hrun, dropWhile_of_stops hrest]

theorem takeWhile_run (hrun : ∀ c ∈ run, p c = true) (hrest : Stops p rest) :
    (run ++ rest).takeWhile p = run := by
  rw [List.takeWhile_append_of_pos hrun, takeWhile_of_stops hrest, List.append_nil]

theorem dropHead?_eq_some_iff {head text rest : List Char} :
    dropHead? head text = some rest ↔ text = head ++ rest := by
  unfold dropHead?
  rw [List.isPrefixOf?_eq_some_iff_append_eq]
  exact eq_comm

theorem dropHead?_append (head rest : List Char) : dropHead? head (head ++ rest) = some rest :=
  dropHead?_eq_some_iff.mpr rfl

/-- What stands before the first mark stands in any part that the mark ends. -/
theorem mem_of_append_eq {front rest head tail : List Char} {mark c : Char}
    (h : front ++ rest = head ++ mark :: tail) (hmark : mark ∉ front) (hc : c ∈ front) :
    c ∈ head := by
  rcases List.append_eq_append_iff.mp h with ⟨more, rfl, _⟩ | ⟨more, rfl, hrest⟩
  · exact List.mem_append_left more hc
  · cases more with
    | nil => rwa [List.append_nil] at hc
    | cons d more =>
        obtain ⟨rfl, _⟩ := List.cons.inj hrest
        exact absurd (List.mem_append_right head List.mem_cons_self) hmark

/-- The first mark cuts a text in one way. -/
theorem append_cons_inj {front rest head tail : List Char} {mark : Char}
    (h : front ++ mark :: rest = head ++ mark :: tail) (hfront : mark ∉ front)
    (hhead : mark ∉ head) : front = head ∧ rest = tail := by
  have htake : ∀ {a b : List Char}, mark ∉ a → (a ++ mark :: b).takeWhile (· != mark) = a := by
    intro a b ha
    refine takeWhile_run ?_ (stops_cons.mpr (by simp))
    intro c hc
    rw [bne_iff_ne]
    rintro rfl
    exact ha hc
  have hsame : front = head := by rw [← htake hfront, h, htake hhead]
  subst hsame
  exact ⟨rfl, (List.cons.inj (List.append_cancel_left h)).2⟩

theorem cutAt?_append {α : Type} [BEq α] [LawfulBEq α] {sep : α} {front : List α}
    (h : sep ∉ front) (rest : List α) :
    cutAt? sep (front ++ sep :: rest) = some (front, rest) := by
  induction front with
  | nil => simp [cutAt?]
  | cons c front ih =>
      have hc : c ≠ sep := fun hc => h (hc ▸ List.mem_cons_self)
      have hfront := ih fun hmem => h (List.mem_cons_of_mem c hmem)
      simp [cutAt?, hc, hfront]

theorem occursIn_iff {needle text : List Char} :
    occursIn needle text = true ↔ needle <:+: text := by
  induction text with
  | nil => simp [occursIn]
  | cons c text ih =>
      rw [occursIn, Bool.or_eq_true, List.isPrefixOf_iff_prefix, ih, List.infix_cons_iff]

/-! ## Blanks and words -/

/-- A word: word characters, at least one. -/
structure Word where
  chars : List Char
  ne_nil : chars ≠ []
  isWord : ∀ c ∈ chars, Text.isWord c = true

/-- Every character is a blank. -/
def Blank (text : List Char) : Prop := ∀ c ∈ text, isBlank c = true

theorem Blank.append {a b : List Char} (ha : Blank a) (hb : Blank b) : Blank (a ++ b) := by
  intro c hc
  exact (List.mem_append.mp hc).elim (ha c) (hb c)

theorem Blank.not_mem {text : List Char} (h : Blank text) {c : Char} (hc : isBlank c = false) :
    c ∉ text :=
  not_mem_of_forall h hc

/-- No word character is a blank. -/
theorem not_isWord_of_isBlank {c : Char} (hc : isBlank c = true) : isWord c = false := by
  obtain ⟨r, hr, hlow, hhigh⟩ := inRanges_iff.mp hc
  unfold isWord
  split
  · next hascii =>
    have hcode : c.toNat ∈ [9, 10, 11, 12, 13, 32] := by
      have hranges : ∀ r ∈ blankRanges,
          (r.1 = 9 ∧ r.2 = 13) ∨ (r.1 = 32 ∧ r.2 = 32) ∨ 128 ≤ r.1 := by
        decide
      have := hranges r hr
      simp only [List.mem_cons, List.not_mem_nil, or_false]
      omega
    have hword : ∀ n ∈ [9, 10, 11, 12, 13, 32], isAsciiWord (Char.ofNat n) = false := by decide
    have := hword c.toNat hcode
    rwa [Char.ofNat_toNat] at this
  · -- beyond ASCII the two tables of ranges are apart
    have hapart : ∀ r ∈ blankRanges, ∀ s ∈ wordRanges, r.2 < s.1 ∨ s.2 < r.1 := by
      decide +kernel
    rw [← Bool.not_eq_true]
    intro hword
    obtain ⟨s, hs, hlow', hhigh'⟩ := inRanges_iff.mp hword
    have := hapart r hr s hs
    omega

theorem not_isBlank_of_isWord {c : Char} (hc : isWord c = true) : isBlank c = false := by
  rw [← Bool.not_eq_true]
  intro hblank
  rw [not_isWord_of_isBlank hblank] at hc
  exact Bool.false_ne_true hc

theorem Word.stops_isBlank (w : Word) (rest : List Char) : Stops isBlank (w.chars ++ rest) :=
  Stops.of_forall w.ne_nil (fun c hc => not_isBlank_of_isWord (w.isWord c hc)) rest

/-- Blanks at both ends of a text that has none there are what trimming takes away. -/
theorem trim_of_blank {front text back : List Char} (hfront : Blank front) (hback : Blank back)
    (hhead : Stops isBlank text) (hlast : Stops isBlank text.reverse) (hne : text ≠ []) :
    trim (front ++ (text ++ back)) = text := by
  have hstart : Stops isBlank (text ++ back) := by
    cases text with
    | nil => exact absurd rfl hne
    | cons c text => exact stops_cons.mpr (stops_cons.mp hhead)
  have hreverse : ∀ c ∈ back.reverse, isBlank c = true := by
    intro c hc
    exact hback c (List.mem_reverse.mp hc)
  unfold trim trimEnd trimStart
  rw [dropWhile_run hfront hstart, List.reverse_append, dropWhile_run hreverse hlast,
    List.reverse_reverse]

theorem wordsFrom_of_visible {text : List Char} (h : ∀ c ∈ text, isBlank c = false) :
    ∀ current : List Char, current ≠ [] ∨ text ≠ [] →
      wordsFrom current text = [current.reverse ++ text] := by
  induction text with
  | nil =>
      intro current hne
      have hcurrent : current ≠ [] := hne.resolve_right fun h => h rfl
      simp [wordsFrom, hcurrent]
  | cons c text ih =>
      intro current _
      have hc : isBlank c = false := h c List.mem_cons_self
      have hrest := ih (fun d hd => h d (List.mem_cons_of_mem c hd)) (c :: current)
        (.inl (List.cons_ne_nil c current))
      unfold wordsFrom
      rw [if_neg (by simp [hc]), hrest]
      simp

/-- A text without blanks is one word. -/
theorem words_of_visible {text : List Char} (h : ∀ c ∈ text, isBlank c = false) (hne : text ≠ []) :
    words text = [text] := by
  unfold words
  rw [wordsFrom_of_visible h [] (.inr hne)]
  rfl

/-! ## What trimming and splitting keep -/

theorem mem_dropWhile {p : Char → Bool} {c : Char} (hc : p c = false) {text : List Char}
    (h : c ∈ text) : c ∈ text.dropWhile p := by
  rw [← List.takeWhile_append_dropWhile (p := p) (l := text), List.mem_append] at h
  apply h.resolve_left
  intro htake
  rw [List.mem_takeWhile_imp htake] at hc
  cases hc

theorem mem_trim {c : Char} (hc : isBlank c = false) {text : List Char} (h : c ∈ text) :
    c ∈ trim text := by
  unfold trim trimEnd trimStart
  rw [List.mem_reverse]
  apply mem_dropWhile hc
  rw [List.mem_reverse]
  exact mem_dropWhile hc h

theorem mem_wordsFrom {c : Char} (hc : isBlank c = false) {text : List Char} :
    ∀ current : List Char, c ∈ current ∨ c ∈ text → ∃ word ∈ wordsFrom current text, c ∈ word := by
  induction text with
  | nil =>
      intro current h
      have hmem : c ∈ current := h.resolve_right List.not_mem_nil
      have hne : current.isEmpty = false := by
        cases current with
        | nil => cases hmem
        | cons => rfl
      exact ⟨current.reverse, by simp [wordsFrom, hne], List.mem_reverse.mpr hmem⟩
  | cons d text ih =>
      intro current h
      unfold wordsFrom
      split
      · next hblank =>
        have hne : c ≠ d := by
          rintro rfl
          rw [hblank] at hc
          cases hc
        have h' : c ∈ current ∨ c ∈ text :=
          h.imp_right fun hm => (List.mem_cons.mp hm).resolve_left hne
        split
        · next hempty =>
          rw [List.isEmpty_iff.mp hempty] at h'
          exact ih [] h'
        · rcases h' with hmem | hmem
          · exact ⟨_, List.mem_cons_self, List.mem_reverse.mpr hmem⟩
          · obtain ⟨word, hword, hin⟩ := ih [] (.inr hmem)
            exact ⟨word, List.mem_cons_of_mem _ hword, hin⟩
      · apply ih
        rcases h with hmem | hmem
        · exact .inl (List.mem_cons_of_mem d hmem)
        · rcases List.mem_cons.mp hmem with rfl | hmem
          · exact .inl List.mem_cons_self
          · exact .inr hmem

theorem mem_intercalate {sep word : List Char} {c : Char} (hc : c ∈ word) :
    ∀ {ws : List (List Char)}, word ∈ ws → c ∈ sep.intercalate ws
  | [w], h => by
      obtain rfl := List.mem_singleton.mp h
      simpa [List.intercalate] using hc
  | w :: w' :: ws, h => by
      rw [List.intercalate_cons_cons, List.mem_append, List.mem_append]
      rcases List.mem_cons.mp h with rfl | h
      · exact .inl (.inl hc)
      · exact .inr (mem_intercalate hc h)

end ApiAtlas.Text
