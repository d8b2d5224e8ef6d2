import Mathlib.Data.List.Basic
import ApiAtlas.Syntax.Visit
set_option autoImplicit false

/-!
# Syntax: places in a tree

A place is a way down a tree: the number of a top-level node, the number of a child of it, and so
on.  In the lexicographic order of places a node comes before everything below it, and what is below
a child before the children behind that child.  A walk meets the constructs of a tree in this order
and each of them once, so what a scan finds is settled by saying what it finds at a single node.
-/

namespace ApiAtlas.Syntax

/-! ## Children and places -/

/-- The nodes directly below a node in the order of the source. The arguments of decorators come
before what is decorated, and what is called or tagged before what it is given. -/
def Node.children : Node → List Node
  | .importing _ _ => []
  | .classNode _ decorators members => decorators.flatMap (·.args) ++ members
  | .method _ decorators body => decorators.flatMap (·.args) ++ body
  | .call callee args => callee :: args
  | .member base _ => [base]
  | .template tag _ expressions => tag :: expressions
  | .identifier _ => []
  | .text _ => []
  | .object properties => properties.map (·.value)
  | .self => []
  | .other children => children

/-- The node is a class. -/
def Node.isClass : Node → Bool
  | .classNode .. => true
  | _ => false

/-- A way down a tree: the number of a node, of a child of it, and so on. -/
abbrev Place := List Nat

/-- The place comes first in pre-order: the other lies below it, or branches off behind it. -/
def Place.Before : Place → Place → Prop := List.Lex (· < ·)

/-- The node stands at the place below the nodes, and the way down to it goes only through nodes
that are entered. -/
inductive Located (enters : Node → Bool) : List Node → Place → Node → Prop
  | here {nodes : List Node} {i : Nat} {n : Node} (h : nodes[i]? = some n) :
      Located enters nodes [i] n
  | deeper {nodes : List Node} {i : Nat} {n m : Node} {place : Place} (h : nodes[i]? = some n)
      (hn : enters n = true) (hm : Located enters n.children place m) :
      Located enters nodes (i :: place) m

/-- The node stands at the place. -/
abbrev LocatedAt : List Node → Place → Node → Prop := Located fun _ => true

/-- The node stands at the place, and not inside a class. -/
abbrev LocatedOutsideClasses : List Node → Place → Node → Prop := Located fun n => !n.isClass

/-! ## Induction over children -/

/-- A property is inherited if a node has it whenever all its children do. -/
def Inherited (motive : Node → Prop) : Prop :=
  ∀ n : Node, (∀ m ∈ n.children, motive m) → motive n

-- `Node` is nested in lists of three kinds; each of them has its own statement here, so that later
-- proofs need only the children
mutual

theorem Inherited.node {motive : Node → Prop} (h : Inherited motive) : ∀ n : Node, motive n
  | .importing _ _ => h _ (by simp [Node.children])
  | .classNode _ decorators members => by
      apply h
      exact List.forall_mem_append.mpr ⟨h.args decorators, h.list members⟩
  | .method _ decorators body => by
      apply h
      exact List.forall_mem_append.mpr ⟨h.args decorators, h.list body⟩
  | .call callee args => by
      apply h
      exact List.forall_mem_cons.mpr ⟨h.node callee, h.list args⟩
  | .member base _ => by
      apply h
      exact List.forall_mem_singleton.mpr (h.node base)
  | .template tag _ expressions => by
      apply h
      exact List.forall_mem_cons.mpr ⟨h.node tag, h.list expressions⟩
  | .identifier _ => h _ (by simp [Node.children])
  | .text _ => h _ (by simp [Node.children])
  | .object properties => h _ (h.values properties)
  | .self => h _ (by simp [Node.children])
  | .other children => h _ (h.list children)

theorem Inherited.list {motive : Node → Prop} (h : Inherited motive) :
    ∀ nodes : List Node, ∀ m ∈ nodes, motive m
  | [] => by simp
  | n :: rest => List.forall_mem_cons.mpr ⟨h.node n, h.list rest⟩

theorem Inherited.args {motive : Node → Prop} (h : Inherited motive) :
    ∀ decorators : List Decorator, ∀ m ∈ decorators.flatMap (·.args), motive m
  | [] => by simp
  | .mk _ args :: rest => by
      rw [List.flatMap_cons]
      exact List.forall_mem_append.mpr ⟨h.list args, h.args rest⟩

theorem Inherited.values {motive : Node → Prop} (h : Inherited motive) :
    ∀ properties : List Property, ∀ m ∈ properties.map (·.value), motive m
  | [] => by simp
  | .mk _ value :: rest => by
      rw [List.map_cons]
      exact List.forall_mem_cons.mpr ⟨h.node value, h.values rest⟩

end

/-! ## Findings in pre-order -/

/-- The entries are what is found at the places of a tree: one for each finding, in pre-order. -/
structure InPreorder {β : Type} (enters : Node → Bool) (Finds : Node → β → Prop)
    (nodes : List Node) (entries : List (Place × β)) : Prop where
  sorted : entries.Pairwise fun a b => a.1.Before b.1
  mem_iff : ∀ place b, (place, b) ∈ entries ↔ ∃ n, Located enters nodes place n ∧ Finds n b

theorem InPreorder.congr {β : Type} {enters : Node → Bool} {Finds Holds : Node → β → Prop}
    {nodes : List Node} {entries : List (Place × β)} (h : InPreorder enters Finds nodes entries)
    (heq : ∀ n b, Finds n b ↔ Holds n b) : InPreorder enters Holds nodes entries where
  sorted := h.sorted
  mem_iff place b := by
    rw [h.mem_iff]
    simp only [heq]

theorem Located.exists_cons {enters : Node → Bool} {nodes : List Node} {place : Place} {n : Node}
    (h : Located enters nodes place n) : ∃ i rest, place = i :: rest := by
  cases h with
  | here => exact ⟨_, _, rfl⟩
  | deeper => exact ⟨_, _, rfl⟩

theorem located_nil {enters : Node → Bool} {place : Place} {n : Node} :
    ¬ Located enters [] place n := by
  intro h
  cases h with
  | here h => simp at h
  | deeper h => simp at h

/-- The places in front of a list of nodes: that of the first node, those below it, and those of the
others. -/
theorem located_cons {enters : Node → Bool} {n m : Node} {rest : List Node} {place : Place} :
    Located enters (n :: rest) place m ↔
      (place = [0] ∧ m = n) ∨
      (∃ p, place = 0 :: p ∧ enters n = true ∧ Located enters n.children p m) ∨
      ∃ i p, place = (i + 1) :: p ∧ Located enters rest (i :: p) m := by
  constructor
  · intro h
    cases h with
    | @here _ i _ h =>
        cases i with
        | zero => exact .inl ⟨rfl, (Option.some.inj h).symm⟩
        | succ i => exact .inr (.inr ⟨i, [], rfl, .here h⟩)
    | @deeper _ i k _ p h hk hm =>
        cases i with
        | zero =>
            obtain rfl : n = k := Option.some.inj h
            exact .inr (.inl ⟨p, rfl, hk, hm⟩)
        | succ i => exact .inr (.inr ⟨i, p, rfl, .deeper h hk hm⟩)
  · rintro (⟨rfl, rfl⟩ | ⟨p, rfl, hn, hm⟩ | ⟨i, p, rfl, h⟩)
    · exact .here rfl
    · exact .deeper rfl hn hm
    · cases h with
      | here h => exact .here h
      | deeper h hk hm => exact .deeper h hk hm

/-- The same place among nodes with one more node in front. -/
def Place.next : Place → Place
  | [] => []
  | i :: rest => (i + 1) :: rest

section Entries

variable {β : Type}

/-- The entry, with its place below the first of several nodes. -/
def entryBelow (e : Place × β) : Place × β := (0 :: e.1, e.2)

/-- The entry, with its place behind the first of several nodes. -/
def entryBehind (e : Place × β) : Place × β := (e.1.next, e.2)

/-- The entries of a list of nodes from what is found at the first node, the entries below it and
those of the other nodes. -/
def entriesCons (entered : Bool) (own : Option β) (below behind : List (Place × β)) :
    List (Place × β) :=
  own.toList.map (fun b => ([0], b))
    ++ ((if entered then below.map entryBelow else []) ++ behind.map entryBehind)

variable {enters : Node → Bool} {finds : Node → Option β}

theorem mem_entriesCons {entered : Bool} {own : Option β} {below behind : List (Place × β)}
    {e : Place × β} :
    e ∈ entriesCons entered own below behind ↔
      (∃ b, own = some b ∧ e = ([0], b)) ∨
      (entered = true ∧ ∃ d ∈ below, e = entryBelow d) ∨ ∃ d ∈ behind, e = entryBehind d := by
  unfold entriesCons
  cases own <;> cases entered <;> simp [eq_comm]

namespace InPreorder

theorem exists_cons {nodes : List Node} {entries : List (Place × β)}
    (h : InPreorder enters (fun n b => finds n = some b) nodes entries) {e : Place × β}
    (he : e ∈ entries) : ∃ i rest b, e = (i :: rest, b) := by
  obtain ⟨n, hn, _⟩ := (h.mem_iff e.1 e.2).mp he
  obtain ⟨i, rest, hplace⟩ := hn.exists_cons
  exact ⟨i, rest, e.2, by rw [← hplace]⟩

theorem nil : InPreorder enters (fun n b => finds n = some b) [] [] where
  sorted := List.Pairwise.nil
  mem_iff place b := by
    constructor
    · intro h
      exact absurd h List.not_mem_nil
    · rintro ⟨n, hn, _⟩
      exact absurd hn located_nil

variable {n : Node} {rest : List Node} {below behind : List (Place × β)}

theorem cons (hbelow : InPreorder enters (fun n b => finds n = some b) n.children below)
    (hbehind : InPreorder enters (fun n b => finds n = some b) rest behind) :
    InPreorder enters (fun n b => finds n = some b) (n :: rest)
      (entriesCons (enters n) (finds n) below behind) where
  sorted := by
    have hdown : (below.map entryBelow).Pairwise fun a b => a.1.Before b.1 := by
      rw [List.pairwise_map]
      exact hbelow.sorted.imp fun h => List.Lex.cons h
    have hnext : (behind.map entryBehind).Pairwise fun a b => a.1.Before b.1 := by
      rw [List.pairwise_map]
      refine hbehind.sorted.imp_of_mem ?_
      intro a b ha hb hab
      obtain ⟨i, p, _, rfl⟩ := hbehind.exists_cons ha
      obtain ⟨j, q, _, rfl⟩ := hbehind.exists_cons hb
      cases hab with
      | cons h => exact List.Lex.cons h
      | rel h => exact List.Lex.rel (Nat.succ_lt_succ h)
    -- what is below the first node comes before what is behind it
    have hacross : ∀ a ∈ below.map entryBelow, ∀ b ∈ behind.map entryBehind,
        a.1.Before b.1 := by
      intro a ha b hb
      obtain ⟨d, _, rfl⟩ := List.mem_map.mp ha
      obtain ⟨e, he, rfl⟩ := List.mem_map.mp hb
      obtain ⟨i, p, _, rfl⟩ := hbehind.exists_cons he
      exact List.Lex.rel (Nat.succ_pos i)
    have hrest : ((if enters n then below.map entryBelow else [])
        ++ behind.map entryBehind).Pairwise fun a b => a.1.Before b.1 := by
      split
      · exact List.pairwise_append.mpr ⟨hdown, hnext, hacross⟩
      · exact hnext
    refine List.pairwise_append.mpr ⟨?_, hrest, ?_⟩
    · cases finds n <;> simp
    · intro a ha b hb
      obtain ⟨_, _, rfl⟩ := List.mem_map.mp ha
      rcases List.mem_append.mp hb with hb | hb
      · split at hb
        · obtain ⟨d, hd, rfl⟩ := List.mem_map.mp hb
          obtain ⟨i, p, _, rfl⟩ := hbelow.exists_cons hd
          exact List.Lex.cons List.Lex.nil
        · exact absurd hb List.not_mem_nil
      · obtain ⟨d, hd, rfl⟩ := List.mem_map.mp hb
        obtain ⟨i, p, _, rfl⟩ := hbehind.exists_cons hd
        exact List.Lex.rel (Nat.succ_pos i)
  mem_iff place b := by
    rw [mem_entriesCons]
    constructor
    · rintro (⟨_, hown, heq⟩ | ⟨hn, d, hd, heq⟩ | ⟨d, hd, heq⟩)
      · obtain ⟨rfl, rfl⟩ := Prod.mk.inj heq
        exact ⟨n, located_cons.mpr (.inl ⟨rfl, rfl⟩), hown⟩
      · obtain ⟨rfl, rfl⟩ := Prod.mk.inj heq
        obtain ⟨m, hm, hfinds⟩ := (hbelow.mem_iff d.1 d.2).mp hd
        exact ⟨m, located_cons.mpr (.inr (.inl ⟨d.1, rfl, hn, hm⟩)), hfinds⟩
      · obtain ⟨i, p, _, rfl⟩ := hbehind.exists_cons hd
        obtain ⟨rfl, rfl⟩ := Prod.mk.inj heq
        obtain ⟨m, hm, hfinds⟩ := (hbehind.mem_iff _ _).mp hd
        exact ⟨m, located_cons.mpr (.inr (.inr ⟨i, p, rfl, hm⟩)), hfinds⟩
    · rintro ⟨m, hm, hfinds⟩
      rcases located_cons.mp hm with ⟨rfl, rfl⟩ | ⟨p, rfl, hn, hchild⟩ | ⟨i, p, rfl, hrest⟩
      · exact .inl ⟨b, hfinds, rfl⟩
      · exact .inr (.inl ⟨hn, (p, b), (hbelow.mem_iff p b).mpr ⟨m, hchild, hfinds⟩, rfl⟩)
      · exact .inr (.inr ⟨(i :: p, b), (hbehind.mem_iff _ b).mpr ⟨m, hrest, hfinds⟩, rfl⟩)

end InPreorder

end Entries

/-! ## Walks -/

/-- The visit that a walk makes at the node itself. -/
def Node.visit? : Node → Option Visit
  | .importing source specifiers => some (.importing source specifiers)
  | .classNode name decorators members => some (.classNode name decorators members)
  | .method name decorators body => some (.method name decorators body)
  | .call callee args => some (.call callee args)
  | .member base property => some (.member base property)
  | .template tag quasis expressions => some (.template tag quasis expressions)
  | .identifier _ => none
  | .text _ => none
  | .object _ => none
  | .self => none
  | .other _ => none

/-- The visit is of a decorator. -/
def Visit.isDecorator : Visit → Bool
  | .decorator _ => true
  | _ => false

/-- Visits are entered as their nodes are; decorators, and nodes without a visit, always. -/
structure EntersAs (enter : Visit → Bool) (enters : Node → Bool) : Prop where
  decorator : ∀ d, enter (.decorator d) = true
  visit : ∀ n v, n.visit? = some v → enter v = enters n
  silent : ∀ n : Node, n.visit? = none → enters n = true

theorem entersAs_all : EntersAs (fun _ => true) fun _ => true :=
  ⟨fun _ => rfl, fun _ _ _ => rfl, fun _ _ => rfl⟩

theorem entersAs_outsideClasses : EntersAs (fun v => !v.isClass) fun n => !n.isClass where
  decorator _ := rfl
  visit n v h := by
    cases n <;> cases h <;> rfl
  silent n h := by
    cases n <;> first | rfl | cases h

section Walks

variable (enter : Visit → Bool)

theorem listVisits_append (a b : List Node) :
    listVisits enter (a ++ b) = listVisits enter a ++ listVisits enter b := by
  induction a with
  | nil => rfl
  | cons n a ih => simp [listVisits, ih]

theorem propertyVisits_eq (properties : List Property) :
    propertyVisits enter properties = listVisits enter (properties.map (·.value)) := by
  induction properties with
  | nil => rfl
  | cons p properties ih =>
      obtain ⟨key, value⟩ := p
      simp only [propertyVisits, listVisits, List.map_cons, ih, Property.value]

variable {enter} {β : Type} {enters : Node → Bool} (h : EntersAs enter enters)
  {f : Visit → Option β} (hf : ∀ d, f (.decorator d) = none)
include h hf

/-- Where decorators say nothing themselves, a walk through them finds what is in their
arguments. -/
theorem filterMap_decoratorVisits (decorators : List Decorator) :
    (decoratorVisits enter decorators).filterMap f =
      (listVisits enter (decorators.flatMap (·.args))).filterMap f := by
  induction decorators with
  | nil => rfl
  | cons d decorators ih =>
      obtain ⟨name, args⟩ := d
      have hown : f (.decorator (.mk name args)) = none := hf _
      simp only [decoratorVisits, h.decorator, if_true, List.cons_append, List.filterMap_cons, hown,
        List.filterMap_append, ih, List.flatMap_cons, listVisits_append, Decorator.args]

omit h hf in
/-- What a walk finds from a visit on, if the walk goes on to what is found in `nodes`. -/
theorem filterMap_visit {v : Visit} {inside : List Visit} {nodes : List Node}
    (hinside : inside.filterMap f = (listVisits enter nodes).filterMap f) :
    (v :: if enter v then inside else []).filterMap f =
      (f v).toList ++ if enter v then (listVisits enter nodes).filterMap f else [] := by
  rw [← hinside]
  cases hv : f v <;> split <;> simp [hv]

/-- What a walk finds in a node: what its own visit says, then what is found in its children. -/
theorem filterMap_visits (n : Node) :
    (n.visits enter).filterMap f =
      (n.visit?.bind f).toList ++
        if enters n then (listVisits enter n.children).filterMap f else [] := by
  cases hvisit : n.visit? with
  | none =>
      rw [h.silent n hvisit, if_pos rfl]
      cases n with
      | object properties => simp [Node.visits, Node.children, propertyVisits_eq]
      | other children => simp [Node.visits, Node.children]
      | identifier | text | self => simp [Node.visits, Node.children, listVisits]
      | importing | classNode | method | call | member | template => cases hvisit
  | some v =>
      rw [← h.visit n v hvisit, Option.bind_some]
      cases n with
      | importing source specifiers =>
          cases hvisit
          have hnone : ([] : List Visit).filterMap f = (listVisits enter []).filterMap f := by
            simp [listVisits]
          have hwalk := filterMap_visit (v := .importing source specifiers) hnone
          simpa [Node.visits, Node.children] using hwalk
      | classNode name decorators members =>
          cases hvisit
          apply filterMap_visit
          rw [List.filterMap_append, filterMap_decoratorVisits h hf, Node.children,
            listVisits_append, List.filterMap_append]
      | method name decorators body =>
          cases hvisit
          apply filterMap_visit
          rw [List.filterMap_append, filterMap_decoratorVisits h hf, Node.children,
            listVisits_append, List.filterMap_append]
      | call callee args =>
          cases hvisit
          exact filterMap_visit rfl
      | member base property =>
          cases hvisit
          apply filterMap_visit
          simp [Node.children, listVisits]
      | template tag quasis expressions =>
          cases hvisit
          exact filterMap_visit rfl
      | object | other | identifier | text | self => cases hvisit

/-- **A walk finds everything once and in pre-order.**  What is found at the visits of a walk is
what is found at the places that the walk reaches. -/
theorem exists_entries (nodes : List Node) :
    ∃ entries, InPreorder enters (fun n b => n.visit?.bind f = some b) nodes entries ∧
      (listVisits enter nodes).filterMap f = entries.map (·.2) := by
  have hlist : ∀ nodes : List Node,
      (∀ n ∈ nodes, ∃ below, InPreorder enters (fun n b => n.visit?.bind f = some b)
        n.children below ∧ (listVisits enter n.children).filterMap f = below.map (·.2)) →
      ∃ entries, InPreorder enters (fun n b => n.visit?.bind f = some b) nodes entries ∧
        (listVisits enter nodes).filterMap f = entries.map (·.2) := by
    intro nodes hnodes
    induction nodes with
    | nil => exact ⟨[], .nil, rfl⟩
    | cons n rest ih =>
        obtain ⟨below, hbelow, hbelowEq⟩ := hnodes n List.mem_cons_self
        obtain ⟨behind, hbehind, hbehindEq⟩ := ih fun m hm => hnodes m (List.mem_cons_of_mem n hm)
        refine ⟨_, hbelow.cons hbehind, ?_⟩
        rw [listVisits, List.filterMap_append, filterMap_visits h hf, hbelowEq, hbehindEq]
        cases n.visit?.bind f <;> cases enters n <;>
          simp [entriesCons, entryBelow, entryBehind, Function.comp_def]
  have hchildren : Inherited fun n => ∃ below, InPreorder enters
      (fun n b => n.visit?.bind f = some b) n.children below ∧
        (listVisits enter n.children).filterMap f = below.map (·.2) :=
    fun n hn => hlist n.children hn
  exact hlist nodes (hchildren.list nodes)

omit hf in
/-- A walk makes the visit of every node that it reaches. -/
theorem Located.mem_listVisits {nodes : List Node} {place : Place} {n : Node} {v : Visit}
    (hn : Located enters nodes place n) (hv : n.visit? = some v) : v ∈ listVisits enter nodes := by
  obtain ⟨entries, hentries, hfound⟩ := exists_entries h
    (f := fun v => if v.isDecorator then none else some v) (fun _ => rfl) nodes
  have hmem : v ∈ entries.map (·.2) := by
    refine List.mem_map.mpr ⟨(place, v), (hentries.mem_iff place v).mpr ⟨n, hn, ?_⟩, rfl⟩
    cases n <;> cases hv <;> rfl
  rw [← hfound] at hmem
  obtain ⟨u, hu, heq⟩ := List.mem_filterMap.mp hmem
  split at heq
  · cases heq
  · rwa [← Option.some.inj heq]

end Walks

end ApiAtlas.Syntax
