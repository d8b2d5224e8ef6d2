import Mathlib.Data.List.Induction
import ApiAtlas.Matching
set_option autoImplicit false

/-!
# Ranking of matchers

A chain is made by installing matchers one after the other.  After each guessing matcher all are
sorted again, which puts it into its place behind all that rank at least as high, and what results
in the end is what one stable sort by priority makes of all guessing matchers in the order in which
they were added.  So a candidate is matched exactly by the exact matcher installed last, else
guessed by the hit of highest priority, the earliest of several, and left unmatched only if every
matcher of the chain misses it.
-/

namespace ApiAtlas

/-! ## What a chain answers -/

namespace MatcherChain

theorem guess?_eq_findSome? (candidate : String) (methods : List RpcMethod)
    (matchers : List Matcher) :
    guess? candidate methods matchers =
      matchers.findSome? fun m => (m.find candidate methods).map (.guessed · m.name) := by
  induction matchers with
  | nil => rfl
  | cons m rest ih =>
      rw [guess?, List.findSome?_cons]
      cases m.find candidate methods with
      | none => exact ih
      | some method => rfl

/-- The guesses are tried in order: all before the one that is taken found nothing. -/
theorem guess?_eq_some_iff {candidate : String} {methods : List RpcMethod}
    {matchers : List Matcher} {outcome : MatchOutcome} :
    guess? candidate methods matchers = some outcome ↔
      ∃ earlier matcher later m, matchers = earlier ++ matcher :: later ∧
        (∀ other ∈ earlier, other.find candidate methods = none) ∧
        matcher.find candidate methods = some m ∧ outcome = .guessed m matcher.name := by
  simp only [guess?_eq_findSome?, List.findSome?_eq_some_iff, Option.map_eq_some_iff,
    Option.map_eq_none_iff]
  constructor
  · rintro ⟨earlier, matcher, later, hsplit, ⟨m, hm, rfl⟩, hearlier⟩
    exact ⟨earlier, matcher, later, m, hsplit, hearlier, hm, rfl⟩
  · rintro ⟨earlier, matcher, later, m, hsplit, hearlier, hm, rfl⟩
    exact ⟨earlier, matcher, later, hsplit, ⟨m, hm, rfl⟩, hearlier⟩

theorem guess?_eq_none_iff {candidate : String} {methods : List RpcMethod}
    {matchers : List Matcher} :
    guess? candidate methods matchers = none ↔
      ∀ matcher ∈ matchers, matcher.find candidate methods = none := by
  simp only [guess?_eq_findSome?, List.findSome?_eq_none_iff, Option.map_eq_none_iff]

section Outcomes

variable {chain : MatcherChain} {candidate : String} {methods : List RpcMethod}

/-- The three ways in which a chain answers. -/
theorem resolve_cases (chain : MatcherChain) (candidate : String) (methods : List RpcMethod) :
    (∃ m, chain.exact.find candidate methods = some m ∧
        chain.resolve candidate methods = .exact m) ∨
      (chain.exact.find candidate methods = none ∧
        ∃ m name, guess? candidate methods chain.guesses = some (.guessed m name) ∧
          chain.resolve candidate methods = .guessed m name) ∨
      chain.exact.find candidate methods = none ∧
        guess? candidate methods chain.guesses = none ∧
          chain.resolve candidate methods = .unmatched := by
  unfold resolve
  cases chain.exact.find candidate methods with
  | some m => exact .inl ⟨m, rfl, rfl⟩
  | none =>
      cases hguess : guess? candidate methods chain.guesses with
      | none => exact .inr (.inr ⟨rfl, rfl, rfl⟩)
      | some outcome =>
          obtain ⟨_, matcher, _, m, _, _, _, rfl⟩ := guess?_eq_some_iff.mp hguess
          exact .inr (.inl ⟨rfl, m, matcher.name, rfl, rfl⟩)

theorem resolve_eq_exact_iff {m : RpcMethod} :
    chain.resolve candidate methods = .exact m ↔
      chain.exact.find candidate methods = some m := by
  rcases chain.resolve_cases candidate methods with
    ⟨found, hexact, h⟩ | ⟨hexact, found, name, _, h⟩ | ⟨hexact, _, h⟩
  all_goals simp [hexact, h]

theorem resolve_eq_guessed_iff {m : RpcMethod} {name : String} :
    chain.resolve candidate methods = .guessed m name ↔
      chain.exact.find candidate methods = none ∧
        guess? candidate methods chain.guesses = some (.guessed m name) := by
  rcases chain.resolve_cases candidate methods with
    ⟨found, hexact, h⟩ | ⟨hexact, found, name, hguess, h⟩ | ⟨hexact, hguess, h⟩
  · simp [hexact, h]
  all_goals simp [hexact, hguess, h]

theorem resolve_eq_unmatched_iff :
    chain.resolve candidate methods = .unmatched ↔
      ∀ matcher ∈ chain.exact :: chain.guesses, matcher.find candidate methods = none := by
  rw [List.forall_mem_cons, ← guess?_eq_none_iff]
  rcases chain.resolve_cases candidate methods with
    ⟨found, hexact, h⟩ | ⟨hexact, found, name, hguess, h⟩ | ⟨hexact, hguess, h⟩
  · simp [hexact, h]
  all_goals simp [hexact, hguess, h]

end Outcomes

end MatcherChain

/-! ## Ranking is stable sorting -/

namespace MatcherChain

theorem ranked_iff {a b : Matcher} : ranked a b = true ↔ b.priority ≤ a.priority :=
  decide_eq_true_iff

theorem ranked_trans (a b c : Matcher) (hab : ranked a b = true) (hbc : ranked b c = true) :
    ranked a c = true := by
  rw [ranked_iff] at hab hbc ⊢
  exact Int.le_trans hbc hab

theorem ranked_total (a b : Matcher) : (ranked a b || ranked b a) = true := by
  rw [Bool.or_eq_true, ranked_iff, ranked_iff]
  exact Int.le_total b.priority a.priority

/-- Put a matcher into its place among ranked ones, behind all that rank at least as high. -/
def rankIn (matcher : Matcher) : List Matcher → List Matcher
  | [] => [matcher]
  | m :: rest =>
      if m.priority < matcher.priority then matcher :: m :: rest else m :: rankIn matcher rest

/-- A matcher is put behind the front part that ranks at least as high. -/
theorem rankIn_splits {matchers : List Matcher}
    (hsorted : matchers.Pairwise fun a b => ranked a b = true) (m : Matcher) :
    ∃ higher lower, matchers = higher ++ lower ∧ rankIn m matchers = higher ++ m :: lower ∧
      (∀ a ∈ higher, m.priority ≤ a.priority) ∧ ∀ b ∈ lower, b.priority < m.priority := by
  induction matchers with
  | nil => exact ⟨[], [], rfl, rfl, by simp, by simp⟩
  | cons first rest ih =>
      obtain ⟨hfirst, hrest⟩ := List.pairwise_cons.mp hsorted
      by_cases hlt : first.priority < m.priority
      · refine ⟨[], first :: rest, rfl, by simp [rankIn, hlt], by simp, ?_⟩
        intro b hb
        rcases List.mem_cons.mp hb with rfl | hb
        · exact hlt
        · exact Int.lt_of_le_of_lt (ranked_iff.mp (hfirst b hb)) hlt
      · obtain ⟨higher, lower, hsplit, hrank, hhigher, hlower⟩ := ih hrest
        refine ⟨first :: higher, lower, by rw [hsplit]; rfl, by simp [rankIn, hlt, hrank], ?_,
          hlower⟩
        intro a ha
        rcases List.mem_cons.mp ha with rfl | ha
        · exact Int.not_lt.mp hlt
        · exact hhigher a ha

/-! A matcher together with the position at which it was added ranks apart from every other, so the
ranking of such pairs is the only sorted one, and the ranking of the matchers is its first half. -/

/-- The first entry is asked no later than the second: it has the higher priority, or the same and
was not added later. -/
def Precedes (a b : Matcher × Nat) : Prop :=
  b.1.priority < a.1.priority ∨ b.1.priority = a.1.priority ∧ a.2 ≤ b.2

theorem Precedes.position_eq {a b : Matcher × Nat} (hab : Precedes a b) (hba : Precedes b a) :
    a.2 = b.2 := by
  unfold Precedes at hab hba
  omega

theorem zipIdxLE_ranked_iff {a b : Matcher × Nat} :
    List.zipIdxLE ranked a b = true ↔ Precedes a b := by
  simp only [List.zipIdxLE, ranked, decide_eq_true_eq, Precedes]
  split
  · split
    · rw [decide_eq_true_iff]
      omega
    · simp only [true_iff]
      omega
  · simp only [Bool.false_eq_true, false_iff]
    omega

/-- Matchers with the positions at which they were added, in order of rank. -/
def ranking (matchers : List Matcher) : List (Matcher × Nat) :=
  matchers.zipIdx.mergeSort (List.zipIdxLE ranked)

theorem map_ranking (matchers : List Matcher) :
    (ranking matchers).map (·.1) = matchers.mergeSort ranked :=
  List.mergeSort_zipIdx

theorem ranking_perm (matchers : List Matcher) : (ranking matchers).Perm matchers.zipIdx :=
  List.mergeSort_perm _ _

theorem mem_ranking {matchers : List Matcher} {entry : Matcher × Nat} :
    entry ∈ ranking matchers ↔ matchers[entry.2]? = some entry.1 :=
  (ranking_perm matchers).mem_iff.trans List.mem_zipIdx_iff_getElem?

theorem ranking_pairwise (matchers : List Matcher) : (ranking matchers).Pairwise Precedes := by
  have hsorted : (ranking matchers).Pairwise fun a b => List.zipIdxLE ranked a b = true :=
    List.pairwise_mergeSort (List.zipIdxLE_trans ranked_trans)
      (List.zipIdxLE_total ranked_total) matchers.zipIdx
  exact hsorted.imp zipIdxLE_ranked_iff.mp

/-- The ranking is the only order of the entries in which each precedes all that follow. -/
theorem eq_ranking {matchers : List Matcher} {entries : List (Matcher × Nat)}
    (hperm : entries.Perm matchers.zipIdx) (hsorted : entries.Pairwise Precedes) :
    entries = ranking matchers := by
  refine List.Perm.eq_of_pairwise ?_ hsorted (ranking_pairwise matchers)
    (hperm.trans (ranking_perm matchers).symm)
  intro a b ha hb hab hba
  have hposition : a.2 = b.2 := hab.position_eq hba
  have hleft : matchers[a.2]? = some a.1 := List.mem_zipIdx_iff_getElem?.mp (hperm.mem_iff.mp ha)
  have hright : matchers[b.2]? = some b.1 := mem_ranking.mp hb
  rw [hposition, hright] at hleft
  exact Prod.ext (Option.some.inj hleft).symm hposition

/-- Putting a matcher into its place among sorted ones is sorting all of them with it added last. -/
theorem rankIn_mergeSort (matchers : List Matcher) (m : Matcher) :
    rankIn m (matchers.mergeSort ranked) = (matchers ++ [m]).mergeSort ranked := by
  obtain ⟨higher, lower, hsplit, hrank, hhigher, hlower⟩ :=
    rankIn_splits (List.pairwise_mergeSort ranked_trans ranked_total matchers) m
  rw [← map_ranking] at hsplit
  obtain ⟨front, back, hentries, rfl, rfl⟩ := List.map_eq_append_iff.mp hsplit
  have hmem : ∀ a ∈ front ++ back, matchers[a.2]? = some a.1 := fun a ha =>
    mem_ranking.mp (hentries ▸ ha)
  have hperm : (front ++ (m, matchers.length) :: back).Perm (matchers ++ [m]).zipIdx := by
    rw [List.zipIdx_append, Nat.zero_add]
    refine List.perm_middle.trans (List.Perm.trans ?_ (List.perm_append_singleton _ _).symm)
    exact (hentries ▸ ranking_perm matchers).cons _
  have hsorted : (front ++ (m, matchers.length) :: back).Pairwise Precedes := by
    have hold : (front ++ back).Pairwise Precedes := hentries ▸ ranking_pairwise matchers
    obtain ⟨hfront, hback, hcross⟩ := List.pairwise_append.mp hold
    refine List.pairwise_append.mpr ⟨hfront, List.pairwise_cons.mpr ⟨?_, hback⟩, ?_⟩
    · intro b hb
      exact .inl (hlower b.1 (List.mem_map_of_mem hb))
    · intro a ha b hb
      rcases List.mem_cons.mp hb with rfl | hb
      · -- what was added before stands before, unless its priority is lower
        have hpriority := hhigher a.1 (List.mem_map_of_mem ha)
        have hposition : a.2 < matchers.length :=
          (List.getElem?_eq_some_iff.mp (hmem a (List.mem_append_left back ha))).1
        rcases Int.lt_or_eq_of_le hpriority with hlower | hsame
        · exact .inl hlower
        · exact .inr ⟨hsame, Nat.le_of_lt hposition⟩
      · exact hcross a ha b hb
  rw [hrank, ← map_ranking, ← eq_ranking hperm hsorted, List.map_append, List.map_cons]

/-- Sorting after each matcher that is added comes to the same as sorting once in the end. -/
theorem mergeSort_mergeSort_concat (matchers : List Matcher) (m : Matcher) :
    (matchers.mergeSort ranked ++ [m]).mergeSort ranked =
      (matchers ++ [m]).mergeSort ranked := by
  have hsorted : (matchers.mergeSort ranked).Pairwise fun a b => ranked a b = true :=
    List.pairwise_mergeSort ranked_trans ranked_total matchers
  rw [← rankIn_mergeSort, ← rankIn_mergeSort, List.mergeSort_of_pairwise hsorted]

end MatcherChain

/-! ## Chains made by installing matchers -/

/-- One step in making a chain. -/
inductive Installation
  | exact (matcher : Matcher)
  | guess (matcher : Matcher)

namespace Installation

/-- The exact matcher that a step installs. -/
def exactMatcher? : Installation → Option Matcher
  | exact matcher => some matcher
  | guess _ => none

/-- The guessing matcher that a step adds. -/
def guessMatcher? : Installation → Option Matcher
  | exact _ => none
  | guess matcher => some matcher

/-- The exact matcher installed last; at first identifiers are compared. -/
def lastExact (steps : List Installation) : Matcher :=
  ((steps.filterMap exactMatcher?).getLast?).getD .exact

theorem lastExact_concat (steps : List Installation) (step : Installation) :
    lastExact (steps ++ [step]) = step.exactMatcher?.getD (lastExact steps) := by
  cases step with
  | exact matcher => simp [lastExact, exactMatcher?]
  | guess matcher => simp [lastExact, exactMatcher?]

/-- The guessing matchers in the order in which they were added. -/
def added (steps : List Installation) : List Matcher := steps.filterMap guessMatcher?

theorem added_concat (steps : List Installation) (step : Installation) :
    added (steps ++ [step]) = added steps ++ step.guessMatcher?.toList := by
  cases step with
  | exact matcher => simp [added, guessMatcher?]
  | guess matcher => simp [added, guessMatcher?]

end Installation

namespace MatcherChain

open Installation (lastExact added)

/-- The chain after one more step. -/
def install (chain : MatcherChain) : Installation → MatcherChain
  | .exact matcher => chain.withExact matcher
  | .guess matcher => chain.withGuess matcher

/-- The chain that steps make of the strict one. -/
def installed (steps : List Installation) : MatcherChain := steps.foldl install strict

theorem installed_concat (steps : List Installation) (step : Installation) :
    installed (steps ++ [step]) = (installed steps).install step := by
  simp [installed]

theorem exact_installed (steps : List Installation) :
    (installed steps).exact = lastExact steps := by
  induction steps using List.reverseRecOn with
  | nil => rfl
  | append_singleton steps step ih =>
      rw [installed_concat, Installation.lastExact_concat]
      cases step with
      | exact matcher => rfl
      | guess matcher => exact ih

/-- **Ranking one by one is one stable sort** of the guessing matchers by priority. -/
theorem guesses_installed (steps : List Installation) :
    (installed steps).guesses = (added steps).mergeSort ranked := by
  induction steps using List.reverseRecOn with
  | nil => exact List.mergeSort_nil.symm
  | append_singleton steps step ih =>
      rw [installed_concat, Installation.added_concat]
      cases step with
      | exact matcher =>
          rw [Installation.guessMatcher?, Option.toList_none, List.append_nil]
          exact ih
      | guess matcher =>
          calc ((installed steps).install (.guess matcher)).guesses
              = ((installed steps).guesses ++ [matcher]).mergeSort ranked := rfl
            _ = ((added steps).mergeSort ranked ++ [matcher]).mergeSort ranked := by rw [ih]
            _ = (added steps ++ [matcher]).mergeSort ranked := mergeSort_mergeSort_concat _ _

/-- The matcher at a position is the one that guesses: it hits, and it precedes every hit. -/
structure Leads (candidate : String) (methods : List RpcMethod) (matchers : List Matcher)
    (position : Nat) (matcher : Matcher) : Prop where
  added : matchers[position]? = some matcher
  hits : matcher.find candidate methods ≠ none
  precedes : ∀ j other, matchers[j]? = some other → other.find candidate methods ≠ none →
    Precedes (matcher, position) (other, j)

variable {candidate : String} {methods : List RpcMethod}

/-- At most one position leads. -/
theorem Leads.unique {matchers : List Matcher} {j k : Nat} {a b : Matcher}
    (ha : Leads candidate methods matchers j a) (hb : Leads candidate methods matchers k b) :
    j = k ∧ a = b := by
  have hab := ha.precedes k b hb.added hb.hits
  have hba := hb.precedes j a ha.added ha.hits
  obtain rfl : j = k := hab.position_eq hba
  exact ⟨rfl, Option.some.inj (ha.added.symm.trans hb.added)⟩

/-- The first hit of the sorted matchers leads: what stands behind it has a lower priority or was
added later, and what stands before it misses. -/
theorem leads_of_mergeSort {matchers earlier later : List Matcher} {matcher : Matcher}
    (hsplit : matchers.mergeSort ranked = earlier ++ matcher :: later)
    (hearlier : ∀ other ∈ earlier, other.find candidate methods = none)
    (hits : matcher.find candidate methods ≠ none) :
    ∃ k, Leads candidate methods matchers k matcher := by
  rw [← map_ranking] at hsplit
  obtain ⟨front, rest, hentries, rfl, hrest⟩ := List.map_eq_append_iff.mp hsplit
  obtain ⟨⟨matcher, k⟩, back, rfl, rfl, rfl⟩ := List.map_eq_cons_iff.mp hrest
  have hsorted : (front ++ (matcher, k) :: back).Pairwise Precedes :=
    hentries ▸ ranking_pairwise matchers
  have hmem : ∀ j other, (other, j) ∈ front ++ (matcher, k) :: back ↔
      matchers[j]? = some other := fun j other => by rw [← hentries, mem_ranking]
  refine ⟨k, (hmem k matcher).mp (List.mem_append_right _ List.mem_cons_self), hits, ?_⟩
  intro j other hother hhit
  rcases List.mem_append.mp ((hmem j other).mpr hother) with hfront | hbehind
  · exact absurd (hearlier other (List.mem_map_of_mem hfront)) hhit
  · rcases List.mem_cons.mp hbehind with hsame | hback
    · cases hsame
      exact .inr ⟨rfl, Nat.le_refl k⟩
    · exact (List.pairwise_cons.mp (List.pairwise_append.mp hsorted).2.1).1 (other, j) hback

/-- The guess of sorted matchers is that of the matcher that leads. -/
theorem guess?_mergeSort_eq_some_iff {matchers : List Matcher} {outcome : MatchOutcome} :
    guess? candidate methods (matchers.mergeSort ranked) = some outcome ↔
      ∃ k matcher m, Leads candidate methods matchers k matcher ∧
        matcher.find candidate methods = some m ∧ outcome = .guessed m matcher.name := by
  constructor
  · intro h
    obtain ⟨earlier, matcher, later, m, hsplit, hearlier, hm, houtcome⟩ :=
      guess?_eq_some_iff.mp h
    obtain ⟨k, hleads⟩ := leads_of_mergeSort hsplit hearlier (by simp [hm])
    exact ⟨k, matcher, m, hleads, hm, houtcome⟩
  · rintro ⟨k, matcher, m, hleads, hm, rfl⟩
    -- some matcher is taken, because this one hits, and only one can lead
    cases hguess : guess? candidate methods (matchers.mergeSort ranked) with
    | none =>
        have hmatcher : matcher ∈ matchers.mergeSort ranked :=
          List.mem_mergeSort.mpr (List.mem_of_getElem? hleads.added)
        exact absurd (guess?_eq_none_iff.mp hguess matcher hmatcher) hleads.hits
    | some outcome =>
        obtain ⟨earlier, taken, later, found, hsplit, hearlier, hfound, rfl⟩ :=
          guess?_eq_some_iff.mp hguess
        obtain ⟨j, htaken⟩ := leads_of_mergeSort hsplit hearlier (by simp [hfound])
        obtain ⟨rfl, rfl⟩ := htaken.unique hleads
        rw [Option.some.inj (hfound.symm.trans hm)]

/-- **A chain answers by rank**, whatever was installed in whatever order: exactly if the exact
matcher installed last finds a method; else by the guessing matcher that leads, with the method that
it finds and its name; and not at all exactly if no matcher of the chain finds anything. -/
theorem resolve_installed (steps : List Installation) (candidate : String)
    (methods : List RpcMethod) :
    (∀ m, (installed steps).resolve candidate methods = .exact m ↔
        (lastExact steps).find candidate methods = some m) ∧
      (∀ m name, (installed steps).resolve candidate methods = .guessed m name ↔
        (lastExact steps).find candidate methods = none ∧
          ∃ k matcher, Leads candidate methods (added steps) k matcher ∧
            matcher.find candidate methods = some m ∧ matcher.name = name) ∧
      ((installed steps).resolve candidate methods = .unmatched ↔
        ∀ matcher ∈ lastExact steps :: added steps, matcher.find candidate methods = none) := by
  refine ⟨fun m => ?_, fun m name => ?_, ?_⟩
  · rw [resolve_eq_exact_iff, exact_installed]
  · rw [resolve_eq_guessed_iff, exact_installed, guesses_installed, guess?_mergeSort_eq_some_iff]
    refine and_congr_right fun _ => ?_
    constructor
    · rintro ⟨k, matcher, found, hleads, hfound, houtcome⟩
      cases houtcome
      exact ⟨k, matcher, hleads, hfound, rfl⟩
    · rintro ⟨k, matcher, hleads, hm, rfl⟩
      exact ⟨k, matcher, m, hleads, hm, rfl⟩
  · rw [resolve_eq_unmatched_iff, exact_installed, guesses_installed]
    simp only [List.forall_mem_cons, List.mem_mergeSort]

end MatcherChain

end ApiAtlas
