import ApiAtlas.Document.Parse
import ApiAtlas.Proofs.Document.Naming
import ApiAtlas.Proofs.Document.Trimming
set_option autoImplicit false

/-!
# Document: what is accepted

An accepted text gives its operations sorted by position, that is, the operations that the grammar
finds in it in some order.  A text of one definition is accepted if the definition is an operation
that passes its checks; one of a fragment needs an operation beside it.
-/

namespace ApiAtlas.Document

/-- The operations among definitions, in their order. -/
def operationsOf (ds : List (Definition × List Char)) : List Operation :=
  ds.filterMap fun d =>
    match d.1 with
    | .operation op => some op
    | .fragment _ => none

/-- The definitions that the grammar finds in a text, each with the text it starts at. -/
def parsed (text : List Char) : List (Definition × List Char) := (Rule.document text).getD []

/-- The operations of a text in the order in which they are written. -/
def written (text : List Char) : List Operation := operationsOf (parsed text)

@[simp] theorem operationsOf_operation (op : Operation) (s : List Char)
    (ds : List (Definition × List Char)) :
    operationsOf ((.operation op, s) :: ds) = op :: operationsOf ds := rfl

@[simp] theorem operationsOf_fragment (f : Fragment) (s : List Char)
    (ds : List (Definition × List Char)) :
    operationsOf ((.fragment f, s) :: ds) = operationsOf ds := rfl

/-- The operations of a chain of definitions are named. -/
theorem Defines.isNamed {fuel : Nat} {x : List Char} {ds : List (Definition × List Char)}
    (h : Defines fuel x ds) : ∀ op ∈ operationsOf ds, op.IsNamed := by
  induction h with
  | done _ => exact fun op hop => absurd hop List.not_mem_nil
  | more hbody _ ih =>
      rcases Rule.body_cases hbody with ⟨op', rfl, hoperation⟩ | ⟨f, rfl, _⟩
      · intro op hop
        rw [operationsOf_operation] at hop
        rcases List.mem_cons.mp hop with rfl | hop
        · exact Rule.operation_isNamed hoperation
        · exact ih op hop
      · rw [operationsOf_fragment]
        exact ih

/-- Each definition starts behind those before it. -/
def InSourceOrder (ds : List (Definition × List Char)) : Prop :=
  ds.Pairwise fun d e => e.2 <:+ d.2 ∧ e.2.length < d.2.length

/-- A chain of definitions is in the order of its text. -/
theorem Defines.inSourceOrder {fuel : Nat} {x : List Char} {ds : List (Definition × List Char)}
    (h : Defines fuel x ds) (hx : Faithful x) (hfuel : 3 * x.length + 1 ≤ fuel) :
    (∀ d ∈ ds, d.2 <:+ x) ∧ InSourceOrder ds := by
  induction h with
  | done _ => exact ⟨fun d hd => absurd hd List.not_mem_nil, List.Pairwise.nil⟩
  | @more x y a ds hbody _ ih =>
      obtain ⟨gs, ls, u, hbegins⟩ := begins_of_body hx hfuel hbody
      have hlength := hbegins.length_lt
      obtain ⟨hinside, horder⟩ := ih hbegins.faithful (by omega)
      obtain ⟨w, hw⟩ := (walk_skip 0 hx).suffix
      have hskip : skip x <:+ x := ⟨w, hw.symm⟩
      have hrest : ∀ d ∈ ds, d.2 <:+ skip x ∧ d.2.length < (skip x).length := by
        intro d hd
        have hsuffix := hinside d hd
        have hle := hsuffix.length_le
        rw [hbegins.skip_eq]
        refine ⟨hsuffix.trans ⟨u ++ ['}'], by simp⟩, ?_⟩
        simp only [List.length_append, List.length_cons]
        omega
      refine ⟨?_, List.pairwise_cons.mpr ⟨hrest, horder⟩⟩
      intro d hd
      rcases List.mem_cons.mp hd with rfl | hd
      · exact hskip
      · exact (hrest d hd).1.trans hskip

/-- The operations among definitions with their positions in the text. -/
def placed (text : List Char) (ds : List (Definition × List Char)) :
    List (Position × Operation) :=
  ds.filterMap fun d =>
    match d.1 with
    | .operation op => some (Position.of text d.2, op)
    | .fragment _ => none

theorem map_placed (text : List Char) (ds : List (Definition × List Char)) :
    (placed text ds).map (·.2) = operationsOf ds := by
  simp only [placed, operationsOf, List.map_filterMap]
  congr 1
  funext d
  cases d.1 <;> rfl

theorem forM_check_iff (ds : List (Definition × List Char)) :
    (ds.forM fun d => d.1.check) = Except.ok () ↔ ∀ d ∈ ds, d.1.check = .ok () := by
  induction ds with
  | nil => exact ⟨fun _ d hd => absurd hd List.not_mem_nil, fun _ => rfl⟩
  | cons d ds ih =>
      rw [List.forall_mem_cons, ← ih]
      change (d.1.check >>= fun _ => ds.forM fun d => d.1.check) = Except.ok () ↔ _
      cases d.1.check with
      | error fault => simp [bind, Except.bind]
      | ok u => simp [bind, Except.bind]

/-- Once the definitions pass their checks, their names decide. -/
theorem parse_of_check {text : List Char} {ds : List (Definition × List Char)}
    (h : Rule.document text = some ds) (hcheck : ∀ d ∈ ds, d.1.check = .ok ()) :
    parse text =
      match ds.foldlM (fun (seen : Names) d => seen.add d.1) ⟨[], []⟩ with
      | .error fault => .error fault
      | .ok names =>
          if names.operations.isEmpty then .error .noOperation
          else .ok (((placed text ds).mergeSort fun a b => a.1.le b.1).map (·.2)) := by
  simp only [parse, h, bind, Except.bind, pure, Except.pure, (forM_check_iff ds).mpr hcheck]
  cases ds.foldlM (fun (seen : Names) d => seen.add d.1) ⟨[], []⟩ with
  | error fault => rfl
  | ok names =>
      dsimp only
      split <;> rfl

/-- Whether a text is accepted is decided without naming its operations. -/
theorem exists_parse_of_isOk (text : List Char) (h : (parse text).isOk = true) :
    ∃ ops, parse text = .ok ops := by
  cases hparse : parse text with
  | error fault =>
      rw [hparse] at h
      cases h
  | ok ops => exact ⟨ops, rfl⟩

/-- An accepted text has definitions that pass their checks, and its operations are theirs. -/
theorem of_parse {text : List Char} {ops : List Operation} (h : parse text = .ok ops) :
    ∃ ds, Rule.document text = some ds ∧ (∀ d ∈ ds, d.1.check = .ok ()) ∧
      ops.Perm (operationsOf ds) := by
  cases hdocument : Rule.document text with
  | none => simp [parse, hdocument, bind, Except.bind, throw, throwThe, MonadExceptOf.throw] at h
  | some ds =>
      have hcheck : (ds.forM fun d => d.1.check) = Except.ok () := by
        simp only [parse, hdocument, bind, Except.bind, pure, Except.pure] at h
        cases hcheck : ds.forM fun d => d.1.check with
        | error fault => simp [hcheck] at h
        | ok u => rfl
      rw [forM_check_iff] at hcheck
      refine ⟨ds, rfl, hcheck, ?_⟩
      rw [parse_of_check hdocument hcheck] at h
      split at h
      · exact absurd h (by simp)
      · split at h
        · exact absurd h (by simp)
        · rw [Except.ok.injEq] at h
          rw [← h, ← map_placed text ds]
          exact (List.mergeSort_perm _ _).map _

theorem parse_operation {text s : List Char} {op : Operation}
    (h : Rule.document text = some [(.operation op, s)])
    (hcheck : (Definition.operation op).check = .ok ()) : parse text = .ok [op] := by
  rw [parse_of_check h (by simpa using hcheck)]
  cases hname : op.name <;>
    simp [Names.add, hname, placed, List.mergeSort_singleton]

/-- A fragment alone is no document. -/
theorem parse_fragment {text s : List Char} {f : Fragment}
    (h : Rule.document text = some [(.fragment f, s)]) : ∃ fault, parse text = .error fault := by
  cases hparse : parse text with
  | error fault => exact ⟨fault, rfl⟩
  | ok ops =>
      obtain ⟨ds, hds, hcheck, _⟩ := of_parse hparse
      obtain rfl : [(Definition.fragment f, s)] = ds := by simpa [h] using hds
      rw [parse_of_check h hcheck] at hparse
      simp [Names.add] at hparse

theorem parse_fragment_operation {text s t : List Char} {f : Fragment} {op : Operation}
    (h : Rule.document text = some [(.fragment f, s), (.operation op, t)])
    (hf : (Definition.fragment f).check = .ok ()) (hop : (Definition.operation op).check = .ok ()) :
    parse text = .ok [op] := by
  rw [parse_of_check h (by simpa using ⟨hf, hop⟩)]
  cases hname : op.name <;>
    simp [Names.add, hname, placed, bind, Except.bind, pure, Except.pure]

end ApiAtlas.Document
