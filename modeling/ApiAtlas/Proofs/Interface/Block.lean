import ApiAtlas.Proofs.Interface.Body
set_option autoImplicit false

/-!
# Interface: the blocks of services

The services of a stripped text are found by a search that goes on behind each body.  Here the heads
of services and the bodies they open are described by their places in the text, without the search:
a head stands at a word start, and its block ends where the braces that it opened are closed for the
first time.  The search finds blocks that lie one behind the other; it passes over no head but those
inside a block, and it ends at the first block that never closes.
-/

namespace ApiAtlas.Interface

/-! ## Braces -/

/-- The number of braces that are open behind a text if `depth` are open before it. -/
def openBraces (depth : Nat) (text : List Char) : Int := depth + text.count '{' - text.count '}'

/-- The braces are never all closed in the text. -/
def StaysOpen (depth : Nat) (text : List Char) : Prop :=
  ∀ front, front <+: text → openBraces depth front ≠ 0

/-- The brace behind the text is the first to leave none open. -/
structure EndsAtBrace (depth : Nat) (body : List Char) : Prop where
  open_before : StaysOpen depth body
  closed_behind : openBraces depth (body ++ ['}']) = 0

/-- The number of braces open behind one more character. -/
def depthBehind (depth : Nat) (c : Char) : Nat :=
  if c == '{' then depth + 1 else if c == '}' then depth - 1 else depth

theorem depthBehind_open (depth : Nat) : depthBehind depth '{' = depth + 1 := rfl

theorem depthBehind_close (depth : Nat) : depthBehind depth '}' = depth - 1 := rfl

theorem depthBehind_of_ne {c : Char} (hopen : c ≠ '{') (hclose : c ≠ '}') (depth : Nat) :
    depthBehind depth c = depth := by
  simp [depthBehind, hopen, hclose]

theorem openBraces_cons {depth : Nat} (hdepth : 0 < depth) (c : Char) (text : List Char) :
    openBraces depth (c :: text) = openBraces (depthBehind depth c) text := by
  unfold openBraces
  by_cases hopen : c = '{'
  · rw [hopen, depthBehind_open, List.count_cons_self, List.count_cons_of_ne (by decide)]
    omega
  · by_cases hclose : c = '}'
    · rw [hclose, depthBehind_close, List.count_cons_self, List.count_cons_of_ne (by decide)]
      omega
    · rw [depthBehind_of_ne hopen hclose, List.count_cons_of_ne hopen, List.count_cons_of_ne hclose]

theorem openBraces_nil {depth : Nat} (hdepth : 0 < depth) : openBraces depth [] ≠ 0 := by
  simp only [openBraces, List.count_nil]
  omega

theorem StaysOpen.cons {depth : Nat} (hdepth : 0 < depth) {c : Char} {text : List Char}
    (h : StaysOpen (depthBehind depth c) text) : StaysOpen depth (c :: text) := by
  intro front hfront
  rcases List.prefix_cons_iff.mp hfront with rfl | ⟨more, rfl, hmore⟩
  · exact openBraces_nil hdepth
  · rw [openBraces_cons hdepth]
    exact h more hmore

theorem bodyEnd?_cons {depth : Nat} {c : Char} (hend : ¬ (c = '}' ∧ depth ≤ 1))
    (text : List Char) :
    bodyEnd? depth (c :: text) =
      (bodyEnd? (depthBehind depth c) text).map fun r => (c :: r.1, r.2) := by
  rw [bodyEnd?, if_neg (by simpa using hend)]
  rfl

theorem depthBehind_pos {depth : Nat} {c : Char} (hdepth : 0 < depth)
    (hend : ¬ (c = '}' ∧ depth ≤ 1)) : 0 < depthBehind depth c := by
  by_cases hclose : c = '}'
  · rw [hclose, depthBehind_close]
    have hdeep : ¬ depth ≤ 1 := fun hle => hend ⟨hclose, hle⟩
    omega
  · simp only [depthBehind, beq_iff_eq, hclose, if_false]
    split <;> omega

/-- A body is followed by the brace that closes it. -/
theorem bodyEnd?_eq_some {depth : Nat} (hdepth : 0 < depth) {text body after : List Char}
    (h : bodyEnd? depth text = some (body, after)) :
    text = body ++ '}' :: after ∧ EndsAtBrace depth body := by
  induction text generalizing depth body with
  | nil => cases h
  | cons c text ih =>
      by_cases hend : c = '}' ∧ depth ≤ 1
      · obtain ⟨rfl, hle⟩ := hend
        obtain rfl : depth = 1 := by omega
        obtain ⟨rfl, rfl⟩ := Prod.mk.inj (Option.some.inj h)
        refine ⟨rfl, ?_, by decide⟩
        intro front hfront
        obtain rfl := List.prefix_nil.mp hfront
        exact openBraces_nil hdepth
      · rw [bodyEnd?_cons hend] at h
        obtain ⟨⟨body', after'⟩, hbody, heq⟩ := Option.map_eq_some_iff.mp h
        obtain ⟨rfl, rfl⟩ := Prod.mk.inj heq
        obtain ⟨rfl, hopen, hclosed⟩ := ih (depthBehind_pos hdepth hend) hbody
        refine ⟨rfl, hopen.cons hdepth, ?_⟩
        rw [List.cons_append, openBraces_cons hdepth]
        exact hclosed

theorem bodyEnd?_eq_none {depth : Nat} (hdepth : 0 < depth) {text : List Char}
    (h : bodyEnd? depth text = none) : StaysOpen depth text := by
  induction text generalizing depth with
  | nil =>
      intro front hfront
      obtain rfl := List.prefix_nil.mp hfront
      exact openBraces_nil hdepth
  | cons c text ih =>
      by_cases hend : c = '}' ∧ depth ≤ 1
      · rw [bodyEnd?, if_pos (by simpa using hend)] at h
        cases h
      · rw [bodyEnd?_cons hend, Option.map_eq_none_iff] at h
        exact (ih (depthBehind_pos hdepth hend) h).cons hdepth

/-! ## Heads of services -/

/-- A word can start behind the text: no word character stands at its end. -/
def WordStart (front : List Char) : Prop := front.getLast?.any Text.isWord = false

/-- The text is the head of a service: the keyword, blanks, the name, and a brace that blanks may
stand before. -/
def IsHead (name head : List Char) : Prop :=
  ∃ gap gap', head = "service".toList ++ (gap ++ (name ++ (gap' ++ ['{']))) ∧
    gap ≠ [] ∧ Text.Blank gap ∧ Text.Blank gap' ∧ name ≠ [] ∧ ∀ c ∈ name, Text.isWord c = true

theorem behindBlanks?_ne_nil {b rest : List Char} (h : behindBlanks? (b ++ rest) = some rest) :
    b ≠ [] := by
  rintro rfl
  cases rest with
  | nil => cases h
  | cons c rest =>
      simp only [List.nil_append, behindBlanks?] at h
      split at h
      · have hlength := congrArg List.length (Option.some.inj h)
        have hle := (List.dropWhile_suffix (l := rest) Text.isBlank).length_le
        rw [hlength, List.length_cons] at hle
        omega
      · cases h

theorem word?_ne_nil {text word rest : List Char} (h : word? text = some (word, rest)) :
    word ≠ [] := by
  simp only [word?] at h
  split at h
  · cases h
  · next hne =>
    obtain ⟨rfl, rfl⟩ := Prod.mk.inj (Option.some.inj h)
    simpa using hne

theorem behindMark?_append {b : List Char} (hb : Text.Blank b) {mark : Char}
    (hmark : Text.isBlank mark = false) (rest : List Char) :
    behindMark? mark (b ++ mark :: rest) = some rest := by
  unfold behindMark?
  rw [Text.dropWhile_run hb (Text.stops_cons.mpr hmark)]
  exact if_pos (beq_self_eq_true mark)

theorem word?_append {word rest : List Char} (hne : word ≠ [])
    (hword : ∀ c ∈ word, Text.isWord c = true) (hrest : Text.Stops Text.isWord rest) :
    word? (word ++ rest) = some (word, rest) := by
  simp only [word?, Text.takeWhile_run hword hrest, Text.dropWhile_run hword hrest]
  rw [if_neg (by simpa using hne)]

/-- A head at the front of a text is read, with what is behind its brace, and nothing else is. -/
theorem serviceHere?_eq_some_iff {text name behind : List Char} :
    serviceHere? text = some (name, behind) ↔ ∃ head, IsHead name head ∧ text = head ++ behind := by
  unfold serviceHere?
  constructor
  · intro h
    simp only [Option.bind_eq_bind, Option.bind_eq_some_iff] at h
    obtain ⟨r₁, hkeyword, r₂, hblanks, ⟨word, r₃⟩, hword, r₄, hmark, hresult⟩ := h
    obtain ⟨rfl, rfl⟩ := Prod.mk.inj (Option.some.inj hresult)
    obtain ⟨gap, rfl, hgap⟩ := behindBlanks?_eq_some hblanks
    obtain ⟨rfl, hchars⟩ := word?_eq_some hword
    obtain ⟨gap', rfl, hgap'⟩ := behindMark?_eq_some hmark
    refine ⟨_, ⟨gap, gap', rfl, behindBlanks?_ne_nil hblanks, hgap, hgap', word?_ne_nil hword,
      hchars⟩, ?_⟩
    rw [Text.dropHead?_eq_some_iff.mp hkeyword]
    simp
  · rintro ⟨head, ⟨gap, gap', rfl, hne, hgap, hgap', hname, hchars⟩, rfl⟩
    have hstart : Text.Stops Text.isBlank (name ++ (gap' ++ '{' :: behind)) :=
      .of_forall hname (fun c hc => Text.not_isBlank_of_isWord (hchars c hc)) _
    have hmark : behindMark? '{' (gap' ++ '{' :: behind) = some behind :=
      behindMark?_append hgap' (by decide) behind
    have hend : Text.Stops Text.isWord (gap' ++ '{' :: behind) := by
      cases gap' with
      | nil => exact Text.stops_cons.mpr (by decide)
      | cons c gap' =>
          exact Text.stops_cons.mpr (Text.not_isWord_of_isBlank (hgap' c List.mem_cons_self))
    simp only [List.append_assoc, List.cons_append, List.nil_append, Text.dropHead?_append,
      Option.bind_eq_bind, Option.bind_some, behindBlanks?_append hgap hne hstart,
      word?_append hname hchars hend, hmark]
    rfl

/-- A head of a service in a text. -/
structure Opening where
  /-- All of the text before the head. -/
  front : List Char
  head : List Char
  name : List Char
  /-- All of the text behind the brace. -/
  behind : List Char
  wordStart : WordStart front
  isHead : IsHead name head

namespace Opening

/-- The text that the head stands in. -/
def text (o : Opening) : List Char := o.front ++ (o.head ++ o.behind)

/-- The place of the head in the text. -/
def start (o : Opening) : Nat := o.front.length

theorem serviceHere?_eq (o : Opening) :
    serviceHere? (o.head ++ o.behind) = some (o.name, o.behind) :=
  serviceHere?_eq_some_iff.mpr ⟨o.head, o.isHead, rfl⟩

theorem head_ne_nil (o : Opening) : o.head ≠ [] := by
  obtain ⟨gap, gap', hhead, _⟩ := o.isHead
  rw [hhead]
  simp

/-- The head is the first in the text from a place on. -/
structure IsFirst (o : Opening) (start : Nat) (text : List Char) : Prop where
  text_eq : o.text = text
  start_le : start ≤ o.start
  first : ∀ o' : Opening, o'.text = text → start ≤ o'.start → o.start ≤ o'.start

end Opening

theorem concat_append (front : List Char) (c : Char) (rest : List Char) :
    front ++ [c] ++ rest = front ++ c :: rest := by
  rw [List.append_assoc, List.singleton_append]

/-- A head from a place on stands there or behind the next character. -/
theorem Opening.start_cases {o : Opening} {front rest : List Char} {c : Char}
    (htext : o.text = front ++ c :: rest) (hstart : front.length ≤ o.start) :
    (WordStart front ∧ serviceHere? (c :: rest) = some (o.name, o.behind)) ∨
      (front ++ [c]).length ≤ o.start := by
  by_cases hhere : o.start = front.length
  · obtain ⟨hfront, hrest⟩ := List.append_inj htext hhere
    left
    rw [← hfront, ← hrest]
    exact ⟨o.wordStart, o.serviceHere?_eq⟩
  · right
    rw [List.length_append, List.length_singleton]
    omega

theorem nextService?_cons (before : Option Char) (c : Char) (rest : List Char) :
    nextService? before (c :: rest) =
      (if before.any Text.isWord then none else serviceHere? (c :: rest)).or
        (nextService? (some c) rest) := by
  rw [nextService?]
  cases (if before.any Text.isWord then none else serviceHere? (c :: rest)) <;> rfl

/-- If no service is found from a place on, no head stands there. -/
theorem nextService?_eq_none {front rest : List Char}
    (h : nextService? front.getLast? rest = none) {o : Opening} (htext : o.text = front ++ rest) :
    o.start < front.length := by
  induction rest generalizing front with
  | nil =>
      have hlength := congrArg List.length htext
      have hhead := List.length_pos_iff.mpr o.head_ne_nil
      simp only [Opening.text, List.length_append, List.length_nil] at hlength
      unfold Opening.start
      omega
  | cons c rest ih =>
      rw [nextService?_cons, Option.or_eq_none_iff] at h
      by_contra hstart
      rcases Opening.start_cases htext (Nat.le_of_not_lt hstart) with ⟨hword, hhere⟩ | hbehind
      · rw [hword, if_neg Bool.false_ne_true, hhere] at h
        exact Option.some_ne_none _ h.1
      · have hnone : nextService? (front ++ [c]).getLast? rest = none := by
          rw [List.getLast?_concat]
          exact h.2
        exact absurd (ih hnone (by rw [htext, concat_append])) (Nat.not_lt.mpr hbehind)

/-- If a service is found from a place on, its head is the first that stands there. -/
theorem nextService?_eq_some {front rest name behind : List Char}
    (h : nextService? front.getLast? rest = some (name, behind)) :
    ∃ o : Opening, o.IsFirst front.length (front ++ rest) ∧ o.name = name ∧ o.behind = behind := by
  induction rest generalizing front with
  | nil => cases h
  | cons c rest ih =>
      rw [nextService?_cons, Option.or_eq_some_iff] at h
      rcases h with hhere | ⟨hhere, hlater⟩
      · split at hhere
        · cases hhere
        · next hword =>
          obtain ⟨head, hhead, htext⟩ := serviceHere?_eq_some_iff.mp hhere
          rw [htext]
          refine ⟨⟨front, head, name, behind, Bool.eq_false_iff.mpr hword, hhead⟩,
            ⟨rfl, Nat.le_refl _, fun _ _ hstart => hstart⟩, rfl, rfl⟩
      · have hnext : nextService? (front ++ [c]).getLast? rest = some (name, behind) := by
          rw [List.getLast?_concat]
          exact hlater
        obtain ⟨o, ho, hname, hbehind⟩ := ih hnext
        rw [concat_append] at ho
        refine ⟨o, ⟨ho.text_eq, ?_, fun o' htext hstart => ?_⟩, hname, hbehind⟩
        · have hstart := ho.start_le
          rw [List.length_append] at hstart
          exact Nat.le_of_add_right_le hstart
        · rcases Opening.start_cases htext hstart with ⟨hword, hhere'⟩ | hbehind'
          · rw [hword, if_neg Bool.false_ne_true, hhere'] at hhere
            exact absurd hhere (Option.some_ne_none _)
          · exact ho.first o' htext hbehind'

/-! ## Blocks -/

/-- A head of a service with the body that it opens. -/
structure Block extends Opening where
  body : List Char
  /-- All of the text behind the closing brace. -/
  after : List Char
  behind_eq : behind = body ++ '}' :: after
  closes : EndsAtBrace 1 body

namespace Block

/-- The place behind the closing brace. -/
def stop (b : Block) : Nat := b.start + b.head.length + b.body.length + 1

/-- The service of the block. -/
def service (b : Block) : Service := ⟨b.name, b.body⟩

/-- The text up to the closing brace. -/
def upTo (b : Block) : List Char := b.front ++ (b.head ++ (b.body ++ ['}']))

theorem upTo_append (b : Block) : b.upTo ++ b.after = b.text := by
  simp [upTo, Opening.text, b.behind_eq]

theorem length_upTo (b : Block) : b.upTo.length = b.stop := by
  simp only [upTo, stop, Opening.start, List.length_append, List.length_singleton]
  omega

theorem getLast?_upTo (b : Block) : b.upTo.getLast? = some '}' := by
  have hconcat : b.upTo = b.front ++ (b.head ++ b.body) ++ ['}'] := by simp [upTo]
  rw [hconcat, List.getLast?_concat]

theorem le_stop_of_isFirst {b : Block} {start : Nat} {text : List Char}
    (h : b.IsFirst start text) : start ≤ b.stop := by
  have hstart := h.start_le
  unfold stop
  omega

end Block

/-- From a place of the text on, the blocks are its services and the head is that of a service that
never closes. The blocks lie one behind the other, and all of them before that head; every other
head stands inside a block or behind that head. -/
structure Scanned (start : Nat) (text : List Char) (blocks : List Block)
    (unclosed : Option Opening) : Prop where
  located : ∀ b ∈ blocks, b.text = text ∧ start ≤ b.start
  apart : blocks.Pairwise fun a b => a.stop ≤ b.start
  open_last : ∀ u ∈ unclosed, u.text = text ∧ start ≤ u.start ∧ StaysOpen 1 u.behind ∧
    ∀ b ∈ blocks, b.stop ≤ u.start
  complete : ∀ o : Opening, o.text = text → start ≤ o.start →
    (∃ b ∈ blocks, b.start ≤ o.start ∧ o.start < b.stop) ∨ ∃ u ∈ unclosed, u.start ≤ o.start

namespace Scanned

variable {start : Nat} {text : List Char}

/-- Nothing is there without a head. -/
theorem nil (h : ∀ o : Opening, o.text = text → o.start < start) : Scanned start text [] none where
  located := by simp
  apart := .nil
  open_last := by simp
  complete o htext hstart := absurd (h o htext) (Nat.not_lt.mpr hstart)

/-- The first head opens a body that never closes. -/
theorem broken {u : Opening} (hfirst : u.IsFirst start text) (hopen : StaysOpen 1 u.behind) :
    Scanned start text [] (some u) where
  located := by simp
  apart := .nil
  open_last u' hu := by
    obtain rfl := Option.some.inj hu
    exact ⟨hfirst.text_eq, hfirst.start_le, hopen, by simp⟩
  complete o htext hstart := .inr ⟨u, rfl, hfirst.first o htext hstart⟩

/-- The first head opens a block, and the rest is behind it. -/
theorem cons {b : Block} {blocks : List Block} {unclosed : Option Opening}
    (hfirst : b.IsFirst start text) (h : Scanned b.stop text blocks unclosed) :
    Scanned start text (b :: blocks) unclosed where
  located := by
    intro b' hb'
    rcases List.mem_cons.mp hb' with rfl | hb'
    · exact ⟨hfirst.text_eq, hfirst.start_le⟩
    · obtain ⟨htext, hstop⟩ := h.located b' hb'
      exact ⟨htext, Nat.le_trans (Block.le_stop_of_isFirst hfirst) hstop⟩
  apart := List.pairwise_cons.mpr ⟨fun b' hb' => (h.located b' hb').2, h.apart⟩
  open_last := by
    intro u hu
    obtain ⟨htext, hstop, hopen, hbefore⟩ := h.open_last u hu
    refine ⟨htext, Nat.le_trans (Block.le_stop_of_isFirst hfirst) hstop, hopen, ?_⟩
    intro b' hb'
    rcases List.mem_cons.mp hb' with rfl | hb'
    · exact hstop
    · exact hbefore b' hb'
  complete := by
    intro o htext hstart
    by_cases hinside : o.start < b.stop
    · exact .inl ⟨b, List.mem_cons_self, hfirst.first o htext hstart, hinside⟩
    · rcases h.complete o htext (Nat.le_of_not_lt hinside) with ⟨b', hb', hin⟩ | hu
      · exact .inl ⟨b', List.mem_cons_of_mem b hb', hin⟩
      · exact .inr hu

end Scanned

/-- The search from a place on finds the services that are there. -/
theorem servicesFrom_scanned (front rest : List Char) :
    ∃ blocks unclosed, Scanned front.length (front ++ rest) blocks unclosed ∧
      servicesFrom front.getLast? rest =
        (blocks.map Block.service, unclosed.map Opening.name) := by
  induction hlength : rest.length using Nat.strongRecOn generalizing front rest with
  | _ length ih =>
      rw [servicesFrom_eq]
      cases hnext : nextService? front.getLast? rest with
      | none => exact ⟨[], none, .nil fun o htext => nextService?_eq_none hnext htext, rfl⟩
      | some found =>
          obtain ⟨name, behind⟩ := found
          obtain ⟨o, hfirst, rfl, rfl⟩ := nextService?_eq_some hnext
          cases hbody : bodyEnd? 1 o.behind with
          | none =>
              refine ⟨[], some o, .broken hfirst (bodyEnd?_eq_none Nat.one_pos hbody), ?_⟩
              simp only [servicesInBody, hbody]
              rfl
          | some parts =>
              obtain ⟨body, after⟩ := parts
              obtain ⟨hbehind, hcloses⟩ := bodyEnd?_eq_some Nat.one_pos hbody
              have hshort : after.length < length := by
                have hafter := bodyEnd?_length hbody
                have hrest := nextService?_length hnext
                omega
              -- the search goes on behind the closing brace
              let b : Block := ⟨o, body, after, hbehind, hcloses⟩
              obtain ⟨blocks, unclosed, hscanned, hmore⟩ := ih _ hshort b.upTo after rfl
              have htext : b.upTo ++ after = front ++ rest := b.upTo_append.trans hfirst.text_eq
              rw [b.length_upTo, htext] at hscanned
              rw [b.getLast?_upTo] at hmore
              refine ⟨b :: blocks, unclosed, .cons hfirst hscanned, ?_⟩
              simp only [servicesInBody, hbody, hmore]
              rfl

end ApiAtlas.Interface
