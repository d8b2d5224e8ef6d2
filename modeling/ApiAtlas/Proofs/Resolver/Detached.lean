import ApiAtlas.Proofs.Syntax.Replace
import ApiAtlas.Resolver.Files
import ApiAtlas.Script.ClassBody
set_option autoImplicit false

/-!
# Resolvers: comments before a decorated method

Where types are written, a comment in the body of a class is an item of its row, and it parts a
method from the decorators before it.  So one more comment changes the row of members in one method
at most: the next one, if only decorators stand between.  That method keeps the decorators behind
the comment and loses those that stand directly before it.  The resolvers of the file change exactly
if the class is searched for resolvers and the method is marked otherwise with all its decorators
than with those it keeps.
-/

namespace ApiAtlas.Script

open Syntax

/-! ## Rows with one more comment -/

/-- The decorators that stand directly before what follows a row. `held` stands directly before the
row. -/
def ClassItem.pendingFrom (held : List Decorator) : List ClassItem → List Decorator
  | [] => held
  | .decoration expression :: rest =>
      pendingFrom (held ++ (decoratorOf? expression).toList) rest
  | _ :: rest => pendingFrom [] rest

/-- The decorators that stand directly before what follows a row. -/
def ClassItem.pending (items : List ClassItem) : List Decorator := pendingFrom [] items

theorem ClassItem.membersFrom_append (held : List Decorator) (front back : List ClassItem) :
    membersFrom held (front ++ back) =
      membersFrom held front ++ membersFrom (pendingFrom held front) back := by
  induction front generalizing held with
  | nil => rfl
  | cons item front ih =>
      cases item with
      | decoration expression => exact ih _
      | comment => exact ih []
      | method name own body =>
          exact congrArg (Node.method name (held ++ own) body :: ·) (ih [])
      | other trace =>
          simp only [List.cons_append, membersFrom, pendingFrom, ih, List.append_assoc]

/-- The items are decorators and then a method. -/
structure ClassItem.Decorated (items : List ClassItem) where
  expressions : List Node
  name : String
  own : List Decorator
  body : List Node
  rest : List ClassItem
  items_eq : items = expressions.map .decoration ++ .method name own body :: rest

/-- The decorators of the method that stand in the items. -/
def ClassItem.Decorated.decorators {items : List ClassItem} (m : Decorated items) :
    List Decorator :=
  m.expressions.filterMap decoratorOf? ++ m.own

/-- The method has the decorators before the items, and its own. -/
theorem ClassItem.Decorated.membersFrom_eq {items : List ClassItem} (m : Decorated items)
    (held : List Decorator) :
    membersFrom held items = .method m.name (held ++ m.decorators) m.body :: members m.rest := by
  obtain ⟨expressions, name, own, body, rest, rfl⟩ := m
  unfold decorators
  induction expressions generalizing held with
  | nil => rfl
  | cons e expressions ih =>
      have hfirst : (e :: expressions).filterMap decoratorOf? =
          (decoratorOf? e).toList ++ expressions.filterMap decoratorOf? := by
        cases hd : decoratorOf? e <;> simp [hd]
      have hrest := ih (held ++ (decoratorOf? e).toList)
      simp only [hfirst, List.append_assoc] at hrest ⊢
      exact hrest

/-- Before anything else, decorators do not matter. -/
theorem ClassItem.decorated_or_membersFrom (items : List ClassItem) :
    Nonempty (Decorated items) ∨ ∀ held, membersFrom held items = members items := by
  induction items with
  | nil => exact .inr fun _ => rfl
  | cons item items ih =>
      cases item with
      | method name own body => exact .inl ⟨⟨[], name, own, body, items, rfl⟩⟩
      | comment => exact .inr fun _ => rfl
      | other trace => exact .inr fun _ => rfl
      | decoration e =>
          refine ih.imp ?_ fun h held => ?_
          · rintro ⟨expressions, name, own, body, rest, rfl⟩
            exact ⟨⟨e :: expressions, name, own, body, rest, rfl⟩⟩
          · exact (h _).trans (h _).symm

theorem ClassItem.members_append (front back : List ClassItem) :
    members (front ++ back) = members front ++ membersFrom (pending front) back :=
  membersFrom_append [] front back

/-- A comment parts what follows it from the decorators before it. -/
theorem ClassItem.members_comment (front back : List ClassItem) :
    members (front ++ .comment :: back) = members front ++ membersFrom [] back :=
  membersFrom_append [] front (.comment :: back)

end ApiAtlas.Script

namespace ApiAtlas.Syntax

/-! ## Hollow arguments -/

theorem Node.text?_hollow (n : Node) : n.hollow.text? = n.text? := by
  cases n <;> rfl

theorem Node.textUnder?_hollow (key : String) (n : Node) :
    n.hollow.textUnder? key = n.textUnder? key := by
  cases n with
  | object properties =>
      simp only [Node.hollow, Node.textUnder?]
      induction properties with
      | nil => rfl
      | cons p properties ih =>
          obtain ⟨k, value⟩ := p
          have hkey : ∀ v : Node, (Property.mk k v).key = k := fun _ => rfl
          rw [hollowProperties, List.find?_cons, List.find?_cons, hkey, hkey]
          split
          · exact value.text?_hollow
          · exact ih
  | importing | classNode | method | call | member | template | identifier | text | self | other =>
      rfl

theorem findSome?_hollowNodes {β : Type} {f : Node → Option β} (hf : ∀ n, f n.hollow = f n)
    (nodes : List Node) : (hollowNodes nodes).findSome? f = nodes.findSome? f := by
  have hcomp : f ∘ Node.hollow = f := funext hf
  rw [hollowNodes_eq_map, List.findSome?_map, hcomp]

/-- The decorator with hollow classes in its arguments. -/
def Decorator.hollow (d : Decorator) : Decorator := .mk d.name (hollowNodes d.args)

theorem hollowDecorators_eq_map (decorators : List Decorator) :
    hollowDecorators decorators = decorators.map Decorator.hollow := by
  induction decorators with
  | nil => rfl
  | cons d decorators ih =>
      obtain ⟨name, args⟩ := d
      rw [hollowDecorators, ih]
      rfl

theorem Decorator.textArgument?_hollow (d : Decorator) :
    d.hollow.textArgument? = d.textArgument? :=
  findSome?_hollowNodes Node.text?_hollow d.args

theorem Decorator.option?_hollow (d : Decorator) (key : String) :
    d.hollow.option? key = d.option? key :=
  findSome?_hollowNodes (Node.textUnder?_hollow key) d.args

end ApiAtlas.Syntax

namespace ApiAtlas.Resolver

open Syntax Script

/-! ## Resolvers of hollow classes -/

theorem marking?_hollow (markers : Markers) (decorators : List Decorator) :
    markers.marking? (hollowDecorators decorators) =
      (markers.marking? decorators).map fun r => (r.1, r.2.hollow) := by
  have hfind : ∀ kind : ResolverKind,
      (decorators.map Decorator.hollow).find? (fun d => markers.kind? d.name == some kind) =
        (decorators.find? fun d => markers.kind? d.name == some kind).map Decorator.hollow := by
    intro kind
    rw [List.find?_map]
    rfl
  unfold Markers.marking?
  rw [hollowDecorators_eq_map, List.map_findSome?]
  congr 1
  funext kind
  rw [hfind, Function.comp_apply, Option.map_map, Option.map_map]
  rfl

section Calls

variable (settings : ResolverSettings)

theorem clientMember?_hollow (n : Node) :
    clientMember? settings n.hollow = clientMember? settings n := by
  cases n with
  | member base property => cases base <;> rfl
  | importing | classNode | method | call | template | identifier | text | object | self | other =>
      rfl

theorem lookedUpService?_hollow (n : Node) :
    lookedUpService? settings n.hollow = lookedUpService? settings n := by
  cases n with
  | call callee args =>
      cases callee with
      | member base property =>
          have hfirst : (hollowNodes args).head?.bind Node.text? = args.head?.bind Node.text? := by
            cases args with
            | nil => rfl
            | cons n args => exact n.text?_hollow
          simp only [Node.hollow, lookedUpService?, hfirst]
      | importing | classNode | method | call | template | identifier | text | object | self
      | other => rfl
  | importing | classNode | method | member | template | identifier | text | object | self
  | other => rfl

theorem outbound?_hollow (n : Node) :
    n.hollow.visit?.bind (outbound? settings) = n.visit?.bind (outbound? settings) := by
  cases n with
  | call callee args =>
      cases callee with
      | member receiver property =>
          simp only [Node.hollow, Node.visit?, Option.bind_some, outbound?,
            clientMember?_hollow settings receiver]
      | importing | classNode | method | call | template | identifier | text | object | self
      | other => rfl
  | member receiver property =>
      simp only [Node.hollow, Node.visit?, Option.bind_some, outbound?,
        lookedUpService?_hollow settings receiver]
  | importing | classNode | method | template | identifier | text | object | self | other => rfl

/-- The calls of a body are outside of its classes. -/
theorem filterMap_outbound?_hollow (nodes : List Node) :
    (visitsOutsideClasses (hollowNodes nodes)).filterMap (outbound? settings) =
      (visitsOutsideClasses nodes).filterMap (outbound? settings) := by
  have hlist : ∀ nodes : List Node,
      (∀ n ∈ nodes, (visitsOutsideClasses (hollowNodes n.children)).filterMap (outbound? settings) =
        (visitsOutsideClasses n.children).filterMap (outbound? settings)) →
      (visitsOutsideClasses (hollowNodes nodes)).filterMap (outbound? settings) =
        (visitsOutsideClasses nodes).filterMap (outbound? settings) := by
    intro nodes hnodes
    induction nodes with
    | nil => rfl
    | cons n rest ih =>
        have hbelow := hnodes n List.mem_cons_self
        have hbehind := ih fun m hm => hnodes m (List.mem_cons_of_mem n hm)
        unfold visitsOutsideClasses at hbelow hbehind ⊢
        rw [hollowNodes, listVisits, listVisits, List.filterMap_append, List.filterMap_append,
          hbehind, filterMap_visits entersAs_outsideClasses (fun _ => rfl) n,
          filterMap_visits entersAs_outsideClasses (fun _ => rfl) n.hollow, outbound?_hollow,
          n.isClass_hollow]
        cases hclass : n.isClass with
        | true => rfl
        | false => rw [Node.children_hollow hclass, hbelow]
  have hchildren : Inherited fun n =>
      (visitsOutsideClasses (hollowNodes n.children)).filterMap (outbound? settings) =
        (visitsOutsideClasses n.children).filterMap (outbound? settings) :=
    fun n hn => hlist n.children hn
  exact hlist nodes (hchildren.list nodes)

theorem callsOf_hollowNodes (body : List Node) :
    callsOf settings (hollowNodes body) = callsOf settings body := by
  unfold callsOf
  rw [filterMap_outbound?_hollow]

end Calls

theorem ofMember?_hollow (settings : ResolverSettings) (file : RawText) (owner : String)
    (n : Node) :
    ofMember? settings file owner n.hollow = ofMember? settings file owner n := by
  cases n with
  | method name decorators body =>
      simp only [Node.hollow, ofMember?, ofMethod?, callsOf_hollowNodes, marking?_hollow]
      cases settings.markers.marking? decorators with
      | none => rfl
      | some r =>
          simp only [Option.map_some, Option.bind_eq_bind, Option.bind_some,
            Decorator.textArgument?_hollow, Decorator.option?_hollow]
  | importing | classNode | call | member | template | identifier | text | object | self | other =>
      rfl

/-- What lies inside the classes of a class does not matter. -/
theorem ofVisit_hollowInside (settings : ResolverSettings) (file : RawText) (v : Visit) :
    ofVisit settings file v.hollowInside = ofVisit settings file v := by
  cases v with
  | classNode name decorators members =>
      cases name with
      | none => rfl
      | some owner =>
          have hmark : (hollowDecorators decorators).any (·.isAny settings.markers.resolver) =
              decorators.any (·.isAny settings.markers.resolver) := by
            rw [hollowDecorators_eq_map, List.any_map]
            rfl
          have hmembers : (hollowNodes members).filterMap (ofMember? settings file owner) =
              members.filterMap (ofMember? settings file owner) := by
            rw [hollowNodes_eq_map, List.filterMap_map]
            congr 1
            exact funext (ofMember?_hollow settings file owner)
          simp only [Visit.hollowInside, ofVisit, hmark, hmembers]
  | importing | method | decorator | call | member | template => rfl

theorem ofProgram_eq (settings : ResolverSettings) (file : RawText) (program : Program) :
    ofProgram settings file program = (outerClasses program).flatMap (ofVisit settings file) := by
  unfold ofProgram outerClasses
  induction visitsOutsideClasses program with
  | nil => rfl
  | cons v visits ih =>
      rw [List.flatMap_cons, ih]
      cases v <;> rfl

/-! ## Programs with one more comment -/

section Comment

variable {settings : ResolverSettings} {file : RawText} {program : Program} {place : Place}
  {name : Option String} {decorators : List Decorator} {front back : List ClassItem}

/-- The class at the place is searched for resolvers of `owner`: it is in no other class, has this
name and is marked. -/
structure Searched (settings : ResolverSettings) (program : Program) (place : Place)
    (name : Option String) (decorators : List Decorator) (members : List Node) (owner : String) :
    Prop where
  outside : LocatedOutsideClasses program place (.classNode name decorators members)
  named : name = some owner
  marked : decorators.any (·.isAny settings.markers.resolver) = true

/-- The program with another row of members in the class at the place. -/
def withMembers (program : Program) (place : Place) (name : Option String)
    (decorators : List Decorator) (items : List ClassItem) : Program :=
  replaceAt (.classNode name decorators (ClassItem.members items)) place program

/-- In a class that is searched, the comment changes what the next method is marked with. -/
theorem ofProgram_comment_of_searched {owner : String}
    (h : Searched settings program place name decorators (ClassItem.members (front ++ back)) owner)
    (m : ClassItem.Decorated back) :
    ∃ before behind,
      ofProgram settings file program = before ++ ((ofMethod? settings file owner m.name
        (ClassItem.pending front ++ m.decorators) m.body).toList ++ behind) ∧
      ofProgram settings file (withMembers program place name decorators
          (front ++ .comment :: back)) =
        before ++ ((ofMethod? settings file owner m.name m.decorators m.body).toList
          ++ behind) := by
  obtain ⟨houtside, rfl, hmarked⟩ := h
  obtain ⟨before, behind, hclasses⟩ := houtside.outerClasses_replaceAt
  have hmember : ∀ ds rest, ((.method m.name ds m.body :: rest).filterMap
      (ofMember? settings file owner)) = (ofMethod? settings file owner m.name ds m.body).toList ++
        rest.filterMap (ofMember? settings file owner) := by
    intro ds rest
    rw [List.filterMap_cons, ofMember?]
    cases ofMethod? settings file owner m.name ds m.body <;> rfl
  have hresolvers : ∀ ds, ofProgram settings file (replaceAt (.classNode (some owner) decorators
      (ClassItem.members front ++ .method m.name ds m.body :: ClassItem.members m.rest)) place
        program) =
      (before.flatMap (ofVisit settings file)
          ++ (ClassItem.members front).filterMap (ofMember? settings file owner))
        ++ ((ofMethod? settings file owner m.name ds m.body).toList
          ++ ((ClassItem.members m.rest).filterMap (ofMember? settings file owner)
            ++ behind.flatMap (ofVisit settings file))) := by
    intro ds
    rw [ofProgram_eq, hclasses, outerClasses_singleton]
    simp only [Node.isClass, if_true, Node.visit?, Option.toList_some, List.flatMap_append,
      List.flatMap_cons, List.flatMap_nil, ofVisit, hmarked, List.filterMap_append, hmember,
      List.append_nil, List.append_assoc]
  have hself := hresolvers (ClassItem.pending front ++ m.decorators)
  have hchanged := hresolvers ([] ++ m.decorators)
  rw [← m.membersFrom_eq, ← ClassItem.members_append, houtside.replaceAt_self] at hself
  rw [← m.membersFrom_eq, ← ClassItem.members_comment] at hchanged
  exact ⟨_, _, hself, hchanged⟩

/-- In a class that is not searched, members do not matter. -/
theorem ofProgram_withMembers_of_not_searched {members : List Node}
    (hclass : LocatedAt program place (.classNode name decorators members))
    (h : ∀ owner, ¬ Searched settings program place name decorators members owner)
    (items : List ClassItem) :
    ofProgram settings file (withMembers program place name decorators items) =
      ofProgram settings file program := by
  rw [ofProgram_eq, ofProgram_eq, withMembers]
  have hinside : ∀ visits : List Visit,
      visits.flatMap (ofVisit settings file) =
        (visits.map Visit.hollowInside).flatMap (ofVisit settings file) := by
    intro visits
    rw [List.flatMap_map]
    congr 1
    exact funext fun v => (ofVisit_hollowInside settings file v).symm
  have hnew : (Node.classNode name decorators (ClassItem.members items)).isClass = true := rfl
  rcases hclass.outside_or_inside rfl hnew with houtside | hsame
  · obtain ⟨before, behind, hclasses⟩ := houtside.outerClasses_replaceAt
    have hnone : ∀ members', (outerClasses [.classNode name decorators members']).flatMap
        (ofVisit settings file) = [] := by
      intro members'
      rw [outerClasses_singleton]
      cases name with
      | none => rfl
      | some owner =>
          have hunmarked : ¬ decorators.any (·.isAny settings.markers.resolver) = true :=
            fun hmarked => h owner ⟨houtside, rfl, hmarked⟩
          simp only [Node.isClass, if_true, Node.visit?, Option.toList_some, List.flatMap_cons,
            List.flatMap_nil, ofVisit, if_neg hunmarked, List.append_nil]
    have hself := hclasses (.classNode name decorators members)
    rw [houtside.replaceAt_self] at hself
    simp only [hclasses, hself, List.flatMap_append, hnone]
  · rw [hinside, hsame, ← hinside]

theorem toList_append_inj {x y : Option Resolver} {before behind : List Resolver} :
    before ++ (x.toList ++ behind) = before ++ (y.toList ++ behind) ↔ x = y := by
  rw [List.append_cancel_left_eq, List.append_cancel_right_eq]
  cases x <;> cases y <;> simp

theorem entities_ofFiles {file : SourceFile} (hkind : file.kind = .script)
    (htree : file.tree = some program) :
    ofFiles settings [file] = ⟨ofProgram settings file.path program, []⟩ := by
  simp [ofFiles, ofFile, hkind, htree]

/-- One more comment in the body of a class leaves the resolvers of a file as they are exactly if
the class is not searched, or no method follows behind decorators only, or the method is the same
resolver with the decorators behind the comment as with all of them.  What the file loses otherwise
is that one resolver, or what its lost decorators said about it. -/
theorem ofFiles_comment_iff {file : SourceFile} (hkind : file.kind = .script)
    (htree : file.tree = some program)
    (hclass : LocatedAt program place
      (.classNode name decorators (ClassItem.members (front ++ back)))) :
    let changed := { file with
      tree := some (withMembers program place name decorators (front ++ .comment :: back)) }
    (ofFiles settings [changed] = ofFiles settings [file] ↔
      ∀ owner, Searched settings program place name decorators
          (ClassItem.members (front ++ back)) owner →
        ∀ m : ClassItem.Decorated back,
          ofMethod? settings file.path owner m.name m.decorators m.body =
            ofMethod? settings file.path owner m.name (ClassItem.pending front ++ m.decorators)
              m.body) ∧
      ∀ owner, Searched settings program place name decorators
          (ClassItem.members (front ++ back)) owner →
        ∀ m : ClassItem.Decorated back, ∃ before behind,
          (ofFiles settings [file]).entities = before ++ ((ofMethod? settings file.path owner m.name
            (ClassItem.pending front ++ m.decorators) m.body).toList ++ behind) ∧
          (ofFiles settings [changed]).entities = before ++ ((ofMethod? settings file.path owner
            m.name m.decorators m.body).toList ++ behind) := by
  intro changed
  have hfile : ofFiles settings [file] = ⟨ofProgram settings file.path program, []⟩ :=
    entities_ofFiles hkind htree
  have hchanged : ofFiles settings [changed] = ⟨ofProgram settings file.path (withMembers program
      place name decorators (front ++ .comment :: back)), []⟩ :=
    entities_ofFiles hkind rfl
  rw [hfile, hchanged, Layer.mk.injEq]
  refine ⟨⟨?_, fun hkeeps => ⟨?_, rfl⟩⟩, fun owner h m => ofProgram_comment_of_searched h m⟩
  · rintro ⟨hsame, -⟩ owner h m
    obtain ⟨before, behind, hall, hkept⟩ := ofProgram_comment_of_searched h m
    rw [hall, hkept] at hsame
    exact toList_append_inj.mp hsame
  · by_cases hsearched : ∃ owner, Searched settings program place name decorators
        (ClassItem.members (front ++ back)) owner
    · obtain ⟨owner, h⟩ := hsearched
      rcases ClassItem.decorated_or_membersFrom back with ⟨⟨m⟩⟩ | hfree
      · obtain ⟨before, behind, hall, hkept⟩ := ofProgram_comment_of_searched h m
        rw [hall, hkept, hkeeps owner h m]
      · -- nothing waits for the decorators, so the row of members is the same
        rw [withMembers, ClassItem.members_comment, hfree, ← hfree (ClassItem.pending front),
          ← ClassItem.members_append, hclass.replaceAt_self]
    · exact ofProgram_withMembers_of_not_searched hclass (not_exists.mp hsearched) _

end Comment

/-- A script with one resolver class. -/
def ordersFile (items : List ClassItem) : SourceFile :=
  { path := "orders.ts"
    content := ""
    kind := .script
    tree := some [.classNode (some "Orders") [.mk "Resolver" []] (ClassItem.members items)] }

/-- A guard and a query decorator. -/
def guardedQuery : List ClassItem :=
  [.decoration (.call (.identifier "UseGuards") []), .decoration (.call (.identifier "Query") [])]

theorem ofFiles_comment_iff_orders :
    ofFiles {} [ordersFile (guardedQuery ++ .comment :: [.method "order" [] []])] ≠
      ofFiles {} [ordersFile (guardedQuery ++ [.method "order" [] []])] := by
  intro hsame
  have hiff := @ofFiles_comment_iff {} _ [0] (some "Orders") [.mk "Resolver" []] guardedQuery
    [.method "order" [] []] (ordersFile (guardedQuery ++ [.method "order" [] []])) rfl rfl
    (.here rfl)
  have hkept := hiff.1.mp hsame "Orders" ⟨.here rfl, rfl, by decide⟩ ⟨[], "order", [], [], [], rfl⟩
  exact absurd hkept (by decide)

/-- A comment before the query decorator is harmless: the guard that it detaches marks nothing. -/
example :
    ofFiles {} [ordersFile (guardedQuery.take 1 ++ .comment :: guardedQuery.drop 1
      ++ [.method "order" [] []])] =
      ofFiles {} [ordersFile (guardedQuery ++ [.method "order" [] []])] := by
  decide +kernel

end ApiAtlas.Resolver
