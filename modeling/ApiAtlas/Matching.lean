import ApiAtlas.Interface.Basic
import ApiAtlas.Text.Quoted
set_option autoImplicit false

/-!
# Matching calls with gRPC methods

A call is known by the identifier of the method it is taken to reach.  A chain of matchers decides
which declared method that is: first one matcher whose hits count as exact, then others by rank,
whose hits are guesses.
-/

namespace ApiAtlas

/-- One way to find the method that an identifier refers to. -/
structure Matcher where
  name : String
  /-- Of two guessing matchers the one with the higher priority is asked first. -/
  priority : Int := 0
  find : String → List RpcMethod → Option RpcMethod

/-- The matcher that compares identifiers. -/
def Matcher.exact : Matcher where
  name := "exact"
  find candidate methods := methods.find? (·.id == candidate)

/-- The matcher that looks for the service of the candidate, in lower case, anywhere in the
identifier of a method. -/
def Matcher.serviceSubstring : Matcher where
  name := "service-substring"
  find candidate methods := do
    let segment ← Identifier.serviceSegment? (String.ofList (Text.lowered candidate.toList))
    methods.find? fun m => Text.occursIn segment.toList (Text.lowered m.id.toList)

/-- One exact matcher and guessing matchers by rank. -/
structure MatcherChain where
  exact : Matcher
  guesses : List Matcher

/-- The method that a candidate was matched with. -/
inductive MatchOutcome
  | exact (method : RpcMethod)
  | guessed (method : RpcMethod) (matcher : String)
  | unmatched
  deriving DecidableEq, Repr, Inhabited

namespace MatcherChain

/-- Exact matching only. -/
def strict : MatcherChain := ⟨.exact, []⟩

/-- Replace the exact matcher. -/
def withExact (chain : MatcherChain) (matcher : Matcher) : MatcherChain :=
  { chain with exact := matcher }

/-- The first is ranked at least as high as the second. -/
def ranked (first second : Matcher) : Bool := second.priority ≤ first.priority

/-- Add a guessing matcher. Among equal priorities the one added first is asked first, since the
sort is stable. -/
def withGuess (chain : MatcherChain) (matcher : Matcher) : MatcherChain :=
  { chain with guesses := (chain.guesses ++ [matcher]).mergeSort ranked }

/-- The chain of an ordinary analysis. -/
def standard : MatcherChain := strict.withGuess .serviceSubstring

instance : Inhabited MatcherChain := ⟨standard⟩

/-- The first guess in order of rank. -/
def guess? (candidate : String) (methods : List RpcMethod) : List Matcher → Option MatchOutcome
  | [] => none
  | m :: rest =>
      match m.find candidate methods with
      | some method => some (.guessed method m.name)
      | none => guess? candidate methods rest

/-- Match a candidate. -/
def resolve (chain : MatcherChain) (candidate : String) (methods : List RpcMethod) : MatchOutcome :=
  match chain.exact.find candidate methods with
  | some method => .exact method
  | none => (guess? candidate methods chain.guesses).getD .unmatched

/-- The chain by the names of its matchers. -/
def describe (chain : MatcherChain) : String :=
  "MatcherChain \x7b exact: " ++ Text.quoted chain.exact.name ++ ", fuzzy: ["
    ++ String.intercalate ", " (chain.guesses.map fun m => Text.quoted m.name) ++ "] \x7d"

end MatcherChain

end ApiAtlas
