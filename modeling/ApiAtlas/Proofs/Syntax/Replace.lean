import ApiAtlas.Proofs.Syntax.Place
set_option autoImplicit false

/-!
# Syntax: another node at a place

Putting another node at a place of a tree leaves everything else as it is.  A walk that enters no
class meets the classes before the place, what it meets in the new node, and the classes behind.
Below a class the walk meets nothing, so there a class may be exchanged for another one: the trees
are the same once their classes are made hollow.
-/

namespace ApiAtlas.Syntax

/-! ## Other children -/

/-- The decorators with other arguments, taken in order and as many for each. -/
def withArgs : List Decorator → List Node → List Decorator
  | [], _ => []
  | .mk name args :: rest, nodes =>
      .mk name (nodes.take args.length) :: withArgs rest (nodes.drop args.length)

/-- The properties with other values, taken in order. -/
def withValues (properties : List Property) (nodes : List Node) : List Property :=
  List.zipWith (fun p value => .mk p.key value) properties nodes

/-- The node with other children, which must be as many. -/
def Node.withChildren (n : Node) (nodes : List Node) : Node :=
  match n, nodes with
  | .classNode name decorators _, nodes =>
      let count := (decorators.flatMap (·.args)).length
      .classNode name (withArgs decorators (nodes.take count)) (nodes.drop count)
  | .method name decorators _, nodes =>
      let count := (decorators.flatMap (·.args)).length
      .method name (withArgs decorators (nodes.take count)) (nodes.drop count)
  | .call _ _, callee :: args => .call callee args
  | .member _ property, base :: _ => .member base property
  | .template _ quasis _, tag :: expressions => .template tag quasis expressions
  | .object properties, nodes => .object (withValues properties nodes)
  | .other _, nodes => .other nodes
  | n, _ => n

theorem args_withArgs {decorators : List Decorator} {nodes : List Node}
    (h : nodes.length = (decorators.flatMap (·.args)).length) :
    (withArgs decorators nodes).flatMap (·.args) = nodes := by
  induction decorators generalizing nodes with
  | nil => exact (List.length_eq_zero_iff.mp h).symm
  | cons d decorators ih =>
      obtain ⟨name, args⟩ := d
      rw [List.flatMap_cons, List.length_append] at h
      have hargs : (Decorator.mk name args).args = args := rfl
      have hdrop : (nodes.drop args.length).length = (decorators.flatMap (·.args)).length := by
        rw [List.length_drop, h, hargs, Nat.add_sub_cancel_left]
      rw [withArgs, List.flatMap_cons, ih hdrop]
      exact List.take_append_drop _ _

theorem values_withValues {properties : List Property} {nodes : List Node}
    (h : nodes.length = properties.length) :
    (withValues properties nodes).map (·.value) = nodes := by
  unfold withValues
  induction properties generalizing nodes with
  | nil => exact (List.length_eq_zero_iff.mp h).symm
  | cons p properties ih =>
      cases nodes with
      | nil => cases h
      | cons n nodes =>
          rw [List.zipWith_cons_cons, List.map_cons, ih (Nat.succ.inj h)]
          rfl

/-- The children are the given ones. -/
theorem Node.children_withChildren {n : Node} {nodes : List Node}
    (h : nodes.length = n.children.length) : (n.withChildren nodes).children = nodes := by
  cases n with
  | classNode name decorators members | method name decorators members =>
      simp only [Node.children, List.length_append] at h
      simp only [Node.withChildren, Node.children]
      rw [args_withArgs, List.take_append_drop]
      rw [List.length_take]
      omega
  | call callee args | template tag quasis expressions =>
      cases nodes with
      | nil => cases h
      | cons => rfl
  | member base property =>
      obtain ⟨m, rfl⟩ := List.length_eq_one_iff.mp h
      rfl
  | object properties =>
      simp only [Node.children, List.length_map] at h
      exact values_withValues h
  | other children => rfl
  | importing | identifier | text | self => exact (List.length_eq_zero_iff.mp h).symm

theorem withArgs_args (decorators : List Decorator) :
    withArgs decorators (decorators.flatMap (·.args)) = decorators := by
  induction decorators with
  | nil => rfl
  | cons d decorators ih =>
      obtain ⟨name, args⟩ := d
      rw [List.flatMap_cons, withArgs]
      have hargs : (Decorator.mk name args).args = args := rfl
      rw [hargs, List.take_left, List.drop_left, ih]

theorem withValues_values (properties : List Property) :
    withValues properties (properties.map (·.value)) = properties := by
  unfold withValues
  induction properties with
  | nil => rfl
  | cons p properties ih =>
      obtain ⟨key, value⟩ := p
      rw [List.map_cons, List.zipWith_cons_cons, ih]
      rfl

/-- With its own children a node is itself. -/
theorem Node.withChildren_children (n : Node) : n.withChildren n.children = n := by
  cases n with
  | classNode name decorators members | method name decorators members =>
      simp only [Node.withChildren, Node.children]
      rw [List.take_left, List.drop_left, withArgs_args]
  | object properties =>
      simp only [Node.withChildren, Node.children]
      rw [withValues_values]
  | importing | call | member | template | identifier | text | self | other => rfl

theorem Node.isClass_withChildren (n : Node) (nodes : List Node) :
    (n.withChildren nodes).isClass = n.isClass := by
  cases n with
  | call | member | template => cases nodes <;> rfl
  | importing | classNode | method | identifier | text | object | self | other => rfl

/-! ## Another node at a place -/

/-- The node with another one at a place below it. -/
def Node.replaceAt (new : Node) : Place → Node → Node
  | [], _ => new
  | i :: place, n => n.withChildren (n.children.modify i (Node.replaceAt new place))

/-- The nodes with another one at a place. -/
def replaceAt (new : Node) : Place → List Node → List Node
  | [], nodes => nodes
  | i :: place, nodes => nodes.modify i (Node.replaceAt new place)

theorem Node.replaceAt_of_ne_nil (new : Node) {place : Place} (h : place ≠ []) (n : Node) :
    Node.replaceAt new place n = n.withChildren (Syntax.replaceAt new place n.children) := by
  cases place with
  | nil => exact absurd rfl h
  | cons => rfl

theorem length_replaceAt (new : Node) (place : Place) (nodes : List Node) :
    (replaceAt new place nodes).length = nodes.length := by
  cases place with
  | nil => rfl
  | cons i place => exact List.length_modify _ _ _

theorem Located.ne_nil {enters : Node → Bool} {nodes : List Node} {place : Place} {n : Node}
    (h : Located enters nodes place n) : place ≠ [] := by
  obtain ⟨i, rest, rfl⟩ := h.exists_cons
  exact List.cons_ne_nil i rest

/-- The nodes before and behind the one that a place starts with. -/
theorem exists_around {nodes : List Node} {i : Nat} {n : Node} (h : nodes[i]? = some n) :
    ∃ front back, nodes = front ++ n :: back ∧ ∀ (new : Node) (place : Place),
      replaceAt new (i :: place) nodes = front ++ Node.replaceAt new place n :: back := by
  obtain ⟨hi, rfl⟩ := List.getElem?_eq_some_iff.mp h
  refine ⟨nodes.take i, nodes.drop (i + 1), ?_, fun new place => ?_⟩
  · rw [← List.drop_eq_getElem_cons hi, List.take_append_drop]
  · exact List.modify_eq_take_cons_drop hi

section Located

variable {enters : Node → Bool} {nodes : List Node} {place : Place} {old : Node}

/-- The children of a node through which the way leads to a place. -/
theorem Located.children_replaceAt {n : Node} (h : Located enters n.children place old)
    (new : Node) : (Node.replaceAt new place n).children = replaceAt new place n.children := by
  rw [Node.replaceAt_of_ne_nil new h.ne_nil, Node.children_withChildren (length_replaceAt _ _ _)]

theorem Located.isClass_replaceAt {n : Node} (h : Located enters n.children place old)
    (new : Node) : (Node.replaceAt new place n).isClass = n.isClass := by
  rw [Node.replaceAt_of_ne_nil new h.ne_nil, Node.isClass_withChildren]

/-- With the node that stands there nothing changes. -/
theorem Located.replaceAt_self (h : Located enters nodes place old) :
    replaceAt old place nodes = nodes := by
  induction h with
  | here h =>
      obtain ⟨front, back, hnodes, hreplace⟩ := exists_around h
      rw [hreplace, hnodes]
      rfl
  | @deeper nodes i n m place h hn hm ih =>
      obtain ⟨front, back, hnodes, hreplace⟩ := exists_around h
      rw [hreplace, Node.replaceAt_of_ne_nil _ hm.ne_nil, ih, Node.withChildren_children, ← hnodes]

end Located

/-! ## Classes outside of classes -/

/-- The classes that a walk meets when it enters none. -/
def outerClasses (nodes : List Node) : List Visit :=
  (visitsOutsideClasses nodes).filter Visit.isClass

theorem outerClasses_append (a b : List Node) :
    outerClasses (a ++ b) = outerClasses a ++ outerClasses b := by
  simp only [outerClasses, visitsOutsideClasses, listVisits_append, List.filter_append]

theorem outerClasses_around (front back : List Node) (n : Node) :
    outerClasses (front ++ n :: back) =
      outerClasses front ++ (outerClasses [n] ++ outerClasses back) := by
  rw [outerClasses_append, ← List.singleton_append, outerClasses_append]

/-- The classes of a node are the node itself, or those of its children. -/
theorem outerClasses_singleton (n : Node) :
    outerClasses [n] = if n.isClass then n.visit?.toList else outerClasses n.children := by
  have hguard : n.visit?.bind (Option.guard Visit.isClass) =
      if n.isClass then n.visit? else none := by
    cases n <;> rfl
  unfold outerClasses visitsOutsideClasses
  rw [listVisits, listVisits, List.append_nil, ← List.filterMap_eq_filter,
    filterMap_visits entersAs_outsideClasses fun _ => rfl, hguard]
  cases n.isClass with
  | false => rfl
  | true => exact List.append_nil _

/-- The classes around a place that is in no class do not depend on what stands there. -/
theorem Located.outerClasses_replaceAt {nodes : List Node} {place : Place} {old : Node}
    (h : LocatedOutsideClasses nodes place old) :
    ∃ front back, ∀ new : Node,
      outerClasses (replaceAt new place nodes) = front ++ (outerClasses [new] ++ back) := by
  induction h with
  | here h =>
      obtain ⟨front, back, -, hreplace⟩ := exists_around h
      refine ⟨outerClasses front, outerClasses back, fun new => ?_⟩
      rw [hreplace, outerClasses_around]
      rfl
  | @deeper nodes i n m place h hn hm ih =>
      obtain ⟨before, behind, hclasses⟩ := ih
      obtain ⟨front, back, -, hreplace⟩ := exists_around h
      refine ⟨outerClasses front ++ before, behind ++ outerClasses back, fun new => ?_⟩
      have hopen : (Node.replaceAt new place n).isClass = false := by
        rw [hm.isClass_replaceAt]
        simpa using hn
      rw [hreplace, outerClasses_around, outerClasses_singleton, hopen, if_neg Bool.false_ne_true,
        hm.children_replaceAt, hclasses]
      simp only [List.append_assoc]

/-! ## Hollow classes -/

mutual

/-- The tree with nothing left of its classes but that they are there. -/
def Node.hollow : Node → Node
  | .importing source specifiers => .importing source specifiers
  | .classNode _ _ _ => .classNode none [] []
  | .method name decorators body => .method name (hollowDecorators decorators) (hollowNodes body)
  | .call callee args => .call callee.hollow (hollowNodes args)
  | .member base property => .member base.hollow property
  | .template tag quasis expressions => .template tag.hollow quasis (hollowNodes expressions)
  | .identifier name => .identifier name
  | .text value => .text value
  | .object properties => .object (hollowProperties properties)
  | .self => .self
  | .other children => .other (hollowNodes children)

/-- The trees with hollow classes. -/
def hollowNodes : List Node → List Node
  | [] => []
  | n :: rest => n.hollow :: hollowNodes rest

/-- The decorators with hollow classes in their arguments. -/
def hollowDecorators : List Decorator → List Decorator
  | [] => []
  | .mk name args :: rest => .mk name (hollowNodes args) :: hollowDecorators rest

/-- The properties with hollow classes in their values. -/
def hollowProperties : List Property → List Property
  | [] => []
  | .mk key value :: rest => .mk key value.hollow :: hollowProperties rest

end

theorem hollowNodes_eq_map (nodes : List Node) : hollowNodes nodes = nodes.map Node.hollow := by
  induction nodes with
  | nil => rfl
  | cons n nodes ih => rw [hollowNodes, ih, List.map_cons]

theorem hollowNodes_append (a b : List Node) :
    hollowNodes (a ++ b) = hollowNodes a ++ hollowNodes b := by
  simp only [hollowNodes_eq_map, List.map_append]

/-- Nodes that are cut where the others are. -/
theorem hollowNodes_take_drop {front back nodes : List Node}
    (h : hollowNodes nodes = hollowNodes (front ++ back)) :
    hollowNodes (nodes.take front.length) = hollowNodes front ∧
      hollowNodes (nodes.drop front.length) = hollowNodes back := by
  rw [hollowNodes_append] at h
  simp only [hollowNodes_eq_map, List.map_take, List.map_drop] at h ⊢
  rw [h]
  exact ⟨List.take_left' (List.length_map _), List.drop_left' (List.length_map _)⟩

theorem Node.hollow_of_isClass {n : Node} (h : n.isClass = true) :
    n.hollow = .classNode none [] [] := by
  cases n <;> first | rfl | cases h

theorem Node.isClass_hollow (n : Node) : n.hollow.isClass = n.isClass := by
  cases n <;> rfl

theorem args_hollowDecorators (decorators : List Decorator) :
    (hollowDecorators decorators).flatMap (·.args) =
      hollowNodes (decorators.flatMap (·.args)) := by
  induction decorators with
  | nil => rfl
  | cons d decorators ih =>
      obtain ⟨name, args⟩ := d
      rw [hollowDecorators, List.flatMap_cons, List.flatMap_cons, ih, hollowNodes_append]
      rfl

theorem values_hollowProperties (properties : List Property) :
    (hollowProperties properties).map (·.value) = hollowNodes (properties.map (·.value)) := by
  induction properties with
  | nil => rfl
  | cons p properties ih =>
      obtain ⟨key, value⟩ := p
      rw [hollowProperties, List.map_cons, List.map_cons, ih]
      rfl

/-- Outside of classes, the children of a hollow tree are the hollow children. -/
theorem Node.children_hollow {n : Node} (h : n.isClass = false) :
    n.hollow.children = hollowNodes n.children := by
  cases n with
  | classNode => cases h
  | method name decorators body =>
      simp only [Node.hollow, Node.children, args_hollowDecorators, hollowNodes_append]
  | object properties => exact values_hollowProperties properties
  | importing | call | member | template | identifier | text | self | other => rfl

theorem hollowDecorators_withArgs {decorators : List Decorator} {nodes : List Node}
    (h : hollowNodes nodes = hollowNodes (decorators.flatMap (·.args))) :
    hollowDecorators (withArgs decorators nodes) = hollowDecorators decorators := by
  induction decorators generalizing nodes with
  | nil => rfl
  | cons d decorators ih =>
      obtain ⟨name, args⟩ := d
      rw [List.flatMap_cons] at h
      obtain ⟨htake, hdrop⟩ := hollowNodes_take_drop h
      have hargs : (Decorator.mk name args).args = args := rfl
      rw [hargs] at htake hdrop
      rw [withArgs, hollowDecorators, hollowDecorators, htake, ih hdrop]

theorem hollowProperties_withValues {properties : List Property} {nodes : List Node}
    (h : hollowNodes nodes = hollowNodes (properties.map (·.value))) :
    hollowProperties (withValues properties nodes) = hollowProperties properties := by
  unfold withValues
  induction properties generalizing nodes with
  | nil => rfl
  | cons p properties ih =>
      obtain ⟨key, value⟩ := p
      cases nodes with
      | nil => cases h
      | cons n nodes =>
          obtain ⟨hvalue, hrest⟩ := List.cons.inj h
          rw [List.zipWith_cons_cons, hollowProperties, hollowProperties, ih hrest, hvalue]
          rfl

/-- Children that differ only in their classes make no other difference. -/
theorem Node.hollow_withChildren {n : Node} {nodes : List Node}
    (h : hollowNodes nodes = hollowNodes n.children) :
    (n.withChildren nodes).hollow = n.hollow := by
  cases n with
  | classNode | importing | identifier | text | self => rfl
  | method name decorators body =>
      obtain ⟨hargs, hbody⟩ := hollowNodes_take_drop h
      simp only [Node.withChildren, Node.hollow, hollowDecorators_withArgs hargs, hbody]
  | call callee args =>
      cases nodes with
      | nil => cases h
      | cons m nodes =>
          obtain ⟨hcallee, hargs⟩ := List.cons.inj h
          simp only [Node.withChildren, Node.hollow, hcallee, hargs]
  | member base property =>
      cases nodes with
      | nil => cases h
      | cons m nodes => simp only [Node.withChildren, Node.hollow, (List.cons.inj h).1]
  | template tag quasis expressions =>
      cases nodes with
      | nil => cases h
      | cons m nodes =>
          obtain ⟨htag, hrest⟩ := List.cons.inj h
          simp only [Node.withChildren, Node.hollow, htag, hrest]
  | object properties =>
      simp only [Node.withChildren, Node.hollow, hollowProperties_withValues h]
  | other children => simp only [Node.withChildren, Node.hollow, h, Node.children]

/-- A class in the place of a class makes no difference outside of it. -/
theorem Located.hollow_replaceAt {enters : Node → Bool} {nodes : List Node} {place : Place}
    {old new : Node} (h : Located enters nodes place old) (hold : old.isClass = true)
    (hnew : new.isClass = true) : hollowNodes (replaceAt new place nodes) = hollowNodes nodes := by
  induction h with
  | here h =>
      obtain ⟨front, back, hnodes, hreplace⟩ := exists_around h
      have hsame := (Node.hollow_of_isClass hnew).trans (Node.hollow_of_isClass hold).symm
      rw [hreplace, hnodes]
      simp only [hollowNodes_eq_map, List.map_append, List.map_cons, Node.replaceAt, hsame]
  | @deeper nodes i n m place h hn hm ih =>
      obtain ⟨front, back, hnodes, hreplace⟩ := exists_around h
      have hsame : (Node.replaceAt new place n).hollow = n.hollow := by
        rw [Node.replaceAt_of_ne_nil _ hm.ne_nil]
        exact Node.hollow_withChildren (ih hold)
      rw [hreplace, hnodes]
      simp only [hollowNodes_eq_map, List.map_append, List.map_cons, hsame]

/-- The visit, with hollow classes inside a class. -/
def Visit.hollowInside : Visit → Visit
  | .classNode name decorators members =>
      .classNode name (hollowDecorators decorators) (hollowNodes members)
  | v => v

theorem Node.hollowInside_withChildren {n : Node} (hn : n.isClass = true) {nodes : List Node}
    (h : hollowNodes nodes = hollowNodes n.children) :
    (outerClasses [n.withChildren nodes]).map Visit.hollowInside =
      (outerClasses [n]).map Visit.hollowInside := by
  cases n with
  | classNode name decorators members =>
      obtain ⟨hargs, hmembers⟩ := hollowNodes_take_drop h
      rw [outerClasses_singleton, outerClasses_singleton]
      simp only [Node.isClass, if_true, Node.withChildren, Node.visit?, Option.toList_some,
        List.map_cons, List.map_nil, Visit.hollowInside, hollowDecorators_withArgs hargs, hmembers]
  | importing | method | call | member | template | identifier | text | object | self | other =>
      cases hn

/-- A class that is put in the place of another one stands outside of classes, or makes no
difference to them but in classes that lie inside. -/
theorem Located.outside_or_inside {nodes : List Node} {place : Place} {old new : Node}
    (h : LocatedAt nodes place old) (hold : old.isClass = true) (hnew : new.isClass = true) :
    LocatedOutsideClasses nodes place old ∨
      (outerClasses (replaceAt new place nodes)).map Visit.hollowInside =
        (outerClasses nodes).map Visit.hollowInside := by
  induction h with
  | here h => exact .inl (.here h)
  | @deeper nodes i n m place h _ hm ih =>
      obtain ⟨front, back, hnodes, hreplace⟩ := exists_around h
      have haround : (outerClasses [Node.replaceAt new place n]).map Visit.hollowInside =
          (outerClasses [n]).map Visit.hollowInside →
          (outerClasses (replaceAt new (i :: place) nodes)).map Visit.hollowInside =
            (outerClasses nodes).map Visit.hollowInside := by
        intro hsame
        rw [hreplace, hnodes, outerClasses_around, outerClasses_around]
        simp only [List.map_append, hsame]
      cases hclass : n.isClass with
      | true =>
          right
          apply haround
          rw [Node.replaceAt_of_ne_nil _ hm.ne_nil]
          exact Node.hollowInside_withChildren hclass (hm.hollow_replaceAt hold hnew)
      | false =>
          have hentered : (!n.isClass) = true := by rw [hclass]; rfl
          refine (ih hold).imp (fun hin => .deeper h hentered hin) fun hsame => haround ?_
          rw [outerClasses_singleton, outerClasses_singleton, hm.isClass_replaceAt, hclass,
            if_neg Bool.false_ne_true, if_neg Bool.false_ne_true, hm.children_replaceAt, hsame]

end ApiAtlas.Syntax
