import Mathlib.Data.List.Basic
import ApiAtlas.Operation.Script
import ApiAtlas.Proofs.Layer
import ApiAtlas.Proofs.Syntax.Place
set_option autoImplicit false

/-!
# Operations in scripts: nothing is missed or repeated

A scan says at each visit what it found there, and walks on.  What is found at a node depends on
that node alone, so a template that is given to a hook is found once, as a template, and a hook that
is called inside the tag, the callee or a decorator is found like any other.  Hence the operations
of a script are read off its places in pre-order, and so are the identifiers that it depends on.
-/

namespace ApiAtlas.ApiOperation

open Syntax

/-- The node is a template with a known tag whose text holds the operation, or a call of a hook with
the name of the operation. -/
inductive Holds (settings : GraphqlSettings) (file : RawText) : Node → ApiOperation → Prop
  | template {name : String} {quasis : List String} {expressions : List Node} {op : ApiOperation}
      (hname : name ∈ settings.tagNames) (htext : embedded? file (templateText quasis) = some op) :
      Holds settings file (.template (.identifier name) quasis expressions) op
  | hook {hook reference : String} {rest : List Node} (hhook : isHook hook = true) :
      Holds settings file (.call (.identifier hook) (.identifier reference :: rest))
        (ofHook file hook reference)

/-- The node makes the script depend on the identifiers: that of the operation it holds, or those of
the names that it imports from a document. -/
inductive Mentions (settings : GraphqlSettings) (file : RawText) : Node → List String → Prop
  | operation {n : Node} {op : ApiOperation} (h : Holds settings file n op) :
      Mentions settings file n [op.id]
  | imported {source : String} {specifiers : List Specifier} {ext : String}
      (hext : ext ∈ settings.documentExtensions) (hends : ext.toList <:+ source.toList) :
      Mentions settings file (.importing source specifiers) (specifiers.filterMap ofSpecifier?)

/-- The operation of a finding. -/
def Finding.operation? : Finding → Option ApiOperation
  | .operation op => some op
  | .reference _ => none

section Visits

variable (settings : GraphqlSettings) (file : RawText)

/-- The operation that a visit contributes. -/
def operationOf? : Visit → Option ApiOperation
  | .importing _ _ => none
  | v => (findings settings file v).findSome? Finding.operation?

/-- The identifiers that a visit contributes. -/
def mentionsOf? : Visit → Option (List String)
  | .importing source specifiers =>
      if isDocumentSource settings source then some (specifiers.filterMap ofSpecifier?) else none
  | v => (operationOf? settings file v).map fun op => [op.id]

/-- An import contributes references, any other visit one operation or nothing. -/
theorem findings_cases (v : Visit) :
    (operationOf? settings file v = none ∧
      findings settings file v = ((mentionsOf? settings file v).getD []).map .reference) ∨
    (mentionsOf? settings file v = (operationOf? settings file v).map (fun op => [op.id]) ∧
      findings settings file v = ((operationOf? settings file v).map .operation).toList) := by
  cases v with
  | importing source specifiers =>
      refine .inl ⟨rfl, ?_⟩
      simp only [findings, mentionsOf?]
      split <;> simp
  | template tag quasis expressions =>
      refine .inr ⟨rfl, ?_⟩
      simp only [operationOf?, findings]
      split
      · split
        · cases embedded? file (templateText quasis) <;> simp [Finding.operation?]
        · simp
      · simp
  | call callee args =>
      refine .inr ⟨rfl, ?_⟩
      simp only [operationOf?, findings]
      split
      · split <;> simp [Finding.operation?]
      · simp
  | classNode | method | decorator | member => exact .inr ⟨rfl, rfl⟩

theorem filterMap_findings (v : Visit) :
    (findings settings file v).filterMap Finding.operation? =
      (operationOf? settings file v).toList := by
  rcases findings_cases settings file v with ⟨hnone, hfindings⟩ | ⟨_, hfindings⟩
  · rw [hnone, hfindings, List.filterMap_map]
    exact List.filterMap_eq_nil_iff.mpr fun _ _ => rfl
  · rw [hfindings]
    cases operationOf? settings file v <;> simp [Finding.operation?]

theorem map_id_findings (v : Visit) :
    (findings settings file v).map Finding.id = (mentionsOf? settings file v).getD [] := by
  rcases findings_cases settings file v with ⟨_, hfindings⟩ | ⟨hmentions, hfindings⟩
  · rw [hfindings, List.map_map]
    exact List.map_id _
  · rw [hfindings, hmentions]
    cases operationOf? settings file v <;> rfl

variable {settings file}

theorem isDocumentSource_iff {source : String} :
    isDocumentSource settings source = true ↔
      ∃ ext ∈ settings.documentExtensions, ext.toList <:+ source.toList := by
  simp [isDocumentSource, Text.endsIn]

theorem identifier?_eq_some {n : Node} {name : String} (h : n.identifier? = some name) :
    n = .identifier name := by
  cases n with
  | identifier => rw [Option.some.inj h]
  | _ => cases h

theorem mem_findings {v : Visit} {op : ApiOperation} (h : operationOf? settings file v = some op) :
    Finding.operation op ∈ findings settings file v := by
  rcases findings_cases settings file v with ⟨hnone, _⟩ | ⟨_, hfindings⟩
  · rw [hnone] at h
    cases h
  · rw [hfindings, h]
    exact List.mem_singleton_self _

/-- What a visit contributes is what its node holds. -/
theorem operationOf?_iff {n : Node} {op : ApiOperation} :
    n.visit?.bind (operationOf? settings file) = some op ↔ Holds settings file n op := by
  constructor
  · intro h
    cases n with
    | template tag quasis expressions =>
        have hmem := mem_findings (v := .template tag quasis expressions) h
        simp only [findings] at hmem
        split at hmem
        · next name hname =>
          split at hmem
          · next htag =>
            rw [identifier?_eq_some hname]
            apply Holds.template (List.contains_iff_mem.mp htag)
            simpa [eq_comm] using hmem
          · cases hmem
        · cases hmem
    | call callee args =>
        have hmem := mem_findings (v := .call callee args) h
        simp only [findings] at hmem
        split at hmem
        · next hook reference hhook hreference =>
          split at hmem
          · next hisHook =>
            obtain ⟨first, hfirst, hname⟩ := Option.bind_eq_some_iff.mp hreference
            obtain ⟨rest, rfl⟩ := List.head?_eq_some_iff.mp hfirst
            rw [identifier?_eq_some hhook, identifier?_eq_some hname]
            obtain rfl : op = ofHook file hook reference := by simpa using hmem
            exact Holds.hook hisHook
          · cases hmem
        · cases hmem
    | importing | classNode | method | member => cases h
    | identifier | text | object | self | other => cases h
  · intro h
    cases h with
    | template hname htext =>
        simp [Node.visit?, operationOf?, findings, Node.identifier?, hname, htext,
          Finding.operation?]
    | hook hhook =>
        simp [Node.visit?, operationOf?, findings, Node.identifier?, hhook, Finding.operation?]

theorem mentionsOf?_iff {n : Node} {ids : List String} :
    n.visit?.bind (mentionsOf? settings file) = some ids ↔ Mentions settings file n ids := by
  by_cases himport : ∃ source specifiers, n = .importing source specifiers
  · obtain ⟨source, specifiers, rfl⟩ := himport
    simp only [Node.visit?, Option.bind_some, mentionsOf?]
    constructor
    · intro h
      split at h
      · next hsource =>
        obtain ⟨ext, hext, hends⟩ := isDocumentSource_iff.mp hsource
        obtain rfl := Option.some.inj h
        exact .imported hext hends
      · cases h
    · intro h
      cases h with
      | operation h => cases h
      | imported hext hends => rw [if_pos (isDocumentSource_iff.mpr ⟨_, hext, hends⟩)]
  · have hvisit : n.visit?.bind (mentionsOf? settings file) =
        (n.visit?.bind (operationOf? settings file)).map fun op => [op.id] := by
      cases n with
      | importing source specifiers => exact absurd ⟨source, specifiers, rfl⟩ himport
      | _ => rfl
    rw [hvisit, Option.map_eq_some_iff]
    constructor
    · rintro ⟨op, hop, rfl⟩
      exact .operation (operationOf?_iff.mp hop)
    · intro h
      cases h with
      | operation h => exact ⟨_, operationOf?_iff.mpr h, rfl⟩
      | imported => exact absurd ⟨_, _, rfl⟩ himport

end Visits

theorem flatten_filterMap {α β : Type} (f : α → Option (List β)) (items : List α) :
    (items.filterMap f).flatten = items.flatMap fun a => (f a).getD [] := by
  induction items with
  | nil => rfl
  | cons a items ih => cases h : f a <;> simp [h, ih]

/-- **Scanning a script misses and repeats nothing.**  For every tree, the operations of the script
are those that its nodes hold, one for each place and in pre-order, and the script depends on what
its nodes mention, read in pre-order and with each identifier kept where it occurs first. -/
theorem scan_exact (settings : GraphqlSettings) (file : SourceFile) (program : Program) :
    (∃ entries, InPreorder (fun _ => true) (Holds settings file.path) program entries ∧
      ofScript settings { file with tree := some program } = entries.map (·.2)) ∧
    ∃ mentions, InPreorder (fun _ => true) (Mentions settings file.path) program mentions ∧
      dependencies settings { file with tree := some program } =
        (mentions.flatMap (·.2)).eraseDups := by
  have hvisits : Program.visits program = listVisits (fun _ => true) program := rfl
  constructor
  · obtain ⟨entries, hentries, hfound⟩ := exists_entries entersAs_all
      (f := operationOf? settings file.path) (fun _ => rfl) program
    refine ⟨entries, hentries.congr fun _ _ => operationOf?_iff, ?_⟩
    have hscript : ofScript settings { file with tree := some program } =
        ((Program.visits program).flatMap (findings settings file.path)).filterMap
          Finding.operation? := rfl
    rw [hscript, List.filterMap_flatMap, hvisits, ← hfound, List.filterMap_eq_flatMap_toList]
    simp only [filterMap_findings]
  · obtain ⟨mentions, hmentions, hfound⟩ := exists_entries entersAs_all
      (f := mentionsOf? settings file.path) (fun _ => rfl) program
    refine ⟨mentions, hmentions.congr fun _ _ => mentionsOf?_iff, ?_⟩
    have hall : dependencies settings { file with tree := some program } =
        Text.distinct (((Program.visits program).flatMap (findings settings file.path)).map
          Finding.id) := rfl
    have hids : mentions.flatMap (·.2) =
        (listVisits (fun _ => true) program).flatMap fun v =>
          (mentionsOf? settings file.path v).getD [] := by
      rw [List.flatMap_def, ← hfound, flatten_filterMap]
    rw [hall, Text.distinct_eq_eraseDups, List.map_flatMap, hvisits, hids]
    simp only [map_id_findings]

end ApiAtlas.ApiOperation
