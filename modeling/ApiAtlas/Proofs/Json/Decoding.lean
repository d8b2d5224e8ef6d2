import Mathlib.Data.List.Forall2
import ApiAtlas.Json.Decoder
import ApiAtlas.Proofs.Json.Reading
set_option autoImplicit false

/-!
# Json: decoding what was written

A decoder restores a value of the domain from a JSON value when the latter is read back exactly and
decodes to the former.  Every decoder has one lemma that says from which parts it restores; a record
is restored when its members follow the declaration of its fields, with nothing left out that is
required.
-/

namespace ApiAtlas.Json

/-- `v` is a written form of `a` for the decoder. -/
structure Decoder.Restores {α : Type} (decode : Decoder α) (v : Json) (a : α) : Prop where
  isExact : v.Exact
  decodes : ∀ origin, decode origin (Draft.ofJson v) = .ok a

variable {α σ : Type}

/-- The text is the value and nothing else, in whatever layout. -/
def IsTextOf (text : String) (v : Json) : Prop := Draft.read text = ⟨Draft.ofJson v, true⟩

/-- A text is decoded as the value that it is. -/
theorem IsTextOf.decodeText_eq {text : String} {v : Json} (h : IsTextOf text v)
    (decode : Decoder α) : decodeText decode text = decode .text (Draft.ofJson v) := by
  have hread : Draft.read text = ⟨Draft.ofJson v, true⟩ := h
  unfold decodeText
  simp only [hread]
  cases decode .text (Draft.ofJson v) <;> rfl

/-- What a decoder restores from a value, it decodes from the pretty form of the value. -/
theorem decodeText_pretty {decode : Decoder α} {v : Json} {a : α}
    (h : Decoder.Restores decode v a) : decodeText decode v.pretty = .ok a := by
  have htext : IsTextOf v.pretty v := read_pretty h.isExact
  rw [htext.decodeText_eq, h.decodes]

/-! ## Single values -/

namespace Decoder

theorem textAs_restores (expected t : String) : Restores (textAs expected) (.text t) t :=
  ⟨trivial, fun _ => rfl⟩

theorem text_restores (t : String) : Restores text (.text t) t := textAs_restores _ t

theorem path_restores (t : String) : Restores path (.text t) t := textAs_restores _ t

theorem bool_restores (b : Bool) : Restores bool (.bool b) b := ⟨trivial, fun _ => rfl⟩

theorem nat64_restores {n : Nat} (h : n < 0x10000000000000000) : Restores nat64 (nat n) n where
  isExact := by
    change -0x8000000000000000 ≤ (n : Int) ∧ (n : Int) < 0x10000000000000000
    omega
  decodes := by
    intro origin
    unfold nat
    rw [Draft.ofJson, nat64, if_pos (Int.natCast_nonneg n)]
    rfl

theorem variant_restores {variants : List (String × α)} {name : String} {a : α}
    (h : variants.lookup name = some a) : Restores (variant variants) (.text name) a where
  isExact := trivial
  decodes := by
    intro origin
    rw [Draft.ofJson, variant, named, h]

theorem optional_restores {decode : Decoder α} {v : Json} {a : α} (h : Restores decode v a)
    (hnull : v ≠ .null) : Restores (optional decode) v (some a) where
  isExact := h.isExact
  decodes := by
    intro origin
    have hdraft : Draft.ofJson v ≠ .null := by
      cases v with
      | null => exact absurd rfl hnull
      | _ => simp [Draft.ofJson]
    rw [optional, h.decodes]
    · rfl
    · exact hdraft

/-! ## Containers -/

theorem list_restores {decode : Decoder α} {encode : α → Json} {values : List α}
    (h : ∀ a ∈ values, Restores decode (encode a) a) :
    Restores (list decode) (.array (values.map encode)) values where
  isExact := by
    rw [exact_array, List.forall_mem_map]
    exact fun a ha => (h a ha).isExact
  decodes := by
    intro origin
    have hitems : items decode origin (Draft.ofItems (values.map encode)) = .ok values := by
      induction values with
      | nil => rfl
      | cons a values ih =>
          have hrest := ih fun b hb => h b (List.mem_cons_of_mem a hb)
          rw [List.map_cons, Draft.ofItems, items, (h a List.mem_cons_self).decodes, hrest]
          rfl
    rw [Draft.ofJson, list, hitems]
    rfl

theorem texts_restores (values : List String) : Restores (list text) (texts values) values :=
  list_restores fun t _ => text_restores t

/-- A dictionary is decoded from members that decode one by one to its entries. -/
theorem dict_decodes {decode : Decoder α} {origin : Origin} {d : Dict α}
    {members : List (String × Json)}
    (h : List.Forall₂ (fun m e => m.1 = e.1 ∧ decode origin (Draft.ofJson m.2) = .ok e.2)
      members d.entries) :
    dict decode origin (Draft.ofJson (.object members)) = .ok d := by
  have hentries : ∀ (members : List (String × Json)) (l : List (String × α)),
      List.Forall₂ (fun m e => m.1 = e.1 ∧ decode origin (Draft.ofJson m.2) = .ok e.2) members l →
      ∀ start : Dict α, entries decode origin start (Draft.ofMembers members) =
        .ok (l.foldl (fun d e => d.insert e.1 e.2) start) := by
    intro members l hall
    induction hall with
    | nil => exact fun _ => rfl
    | @cons m e members l hm _ ih =>
        intro start
        obtain ⟨key, v⟩ := m
        obtain ⟨rfl, hvalue⟩ := hm
        rw [Draft.ofMembers, entries, hvalue]
        exact ih _
  rw [Draft.ofJson, dict, hentries members d.entries h .empty]
  exact congrArg Except.ok d.ofList_entries

/-- A dictionary is refused for one of its members, if there is one that is refused. -/
theorem dict_refuses {decode : Decoder α} {origin : Origin} {members : List (String × Json)}
    (h : ∃ m ∈ members, ∃ fault, decode origin (Draft.ofJson m.2) = .error fault) :
    ∃ m ∈ members, ∃ fault, decode origin (Draft.ofJson m.2) = .error fault ∧
      dict decode origin (Draft.ofJson (.object members)) = .error fault := by
  have hentries : ∀ members : List (String × Json),
      (∃ m ∈ members, ∃ fault, decode origin (Draft.ofJson m.2) = .error fault) →
      ∃ m ∈ members, ∃ fault, decode origin (Draft.ofJson m.2) = .error fault ∧
        ∀ start : Dict α, entries decode origin start (Draft.ofMembers members) = .error fault := by
    intro members
    induction members with
    | nil => simp
    | cons m members ih =>
        intro hsome
        obtain ⟨key, v⟩ := m
        cases hvalue : decode origin (Draft.ofJson v) with
        | error fault =>
            refine ⟨(key, v), List.mem_cons_self, fault, hvalue, fun start => ?_⟩
            rw [Draft.ofMembers, entries, hvalue]
            rfl
        | ok a =>
            have hrest : ∃ m ∈ members, ∃ fault,
                decode origin (Draft.ofJson m.2) = .error fault := by
              obtain ⟨m, hm, fault, hfault⟩ := hsome
              rcases List.mem_cons.mp hm with rfl | hm
              · rw [hvalue] at hfault
                exact absurd hfault (by simp)
              · exact ⟨m, hm, fault, hfault⟩
            obtain ⟨m, hm, fault, hfault, hall⟩ := ih hrest
            refine ⟨m, List.mem_cons_of_mem _ hm, fault, hfault, fun start => ?_⟩
            rw [Draft.ofMembers, entries, hvalue]
            exact hall _
  obtain ⟨m, hm, fault, hfault, hall⟩ := hentries members h
  refine ⟨m, hm, fault, hfault, ?_⟩
  rw [Draft.ofJson, dict, hall .empty]
  rfl

/-- The entries of a dictionary are put back in their order. -/
theorem dict_restores {decode : Decoder α} {encode : α → Json} {d : Dict α}
    (h : ∀ e ∈ d.entries, Restores decode (encode e.2) e.2) :
    Restores (dict decode) (.object (d.entries.map fun e => (e.1, encode e.2))) d where
  isExact := by
    rw [exact_object, List.forall_mem_map]
    exact fun e he => (h e he).isExact
  decodes := by
    intro origin
    refine dict_decodes ?_
    rw [List.forall₂_map_left_iff, List.forall₂_same]
    exact fun e he => ⟨rfl, (h e he).decodes origin⟩

end Decoder

/-! ## Values of any shape -/

mutual

/-- How many containers stand inside each other. -/
def nesting : Json → Nat
  | .array items => nestingOfItems items + 1
  | .object members => nestingOfMembers members + 1
  | _ => 0

/-- The deepest nesting of the items. -/
def nestingOfItems : List Json → Nat
  | [] => 0
  | v :: rest => max v.nesting (nestingOfItems rest)

/-- The deepest nesting of the members. -/
def nestingOfMembers : List (String × Json) → Nat
  | [] => 0
  | (_, v) :: rest => max v.nesting (nestingOfMembers rest)

end

mutual

/-- The draft of a value has that value, as long as it does not nest too deep. -/
theorem value?_ofJson : ∀ (v : Json) (depth : Nat), v.nesting < depth →
    (Draft.ofJson v).value? depth = some v
  | .null, _, _ => by rw [Draft.ofJson, Draft.value?]
  | .bool _, _, _ => by rw [Draft.ofJson, Draft.value?]
  | .number _, _, _ => by rw [Draft.ofJson, Draft.value?]; rfl
  | .text _, _, _ => by rw [Draft.ofJson, Draft.value?]; rfl
  | .array items, depth, h => by
      rw [nesting] at h
      have hitems := items?_ofItems items (depth - 1) (by omega)
      have hdepth : (decide (depth ≤ 1) || !true) = false := by simp; omega
      rw [Draft.ofJson, Draft.value?, hdepth, hitems]
      rfl
  | .object members, depth, h => by
      rw [nesting] at h
      have hmembers := members?_ofMembers members (depth - 1) (by omega)
      have hdepth : (decide (depth ≤ 1) || !true) = false := by simp; omega
      rw [Draft.ofJson, Draft.value?, hdepth, hmembers]
      rfl

theorem items?_ofItems : ∀ (items : List Json) (depth : Nat), nestingOfItems items < depth →
    Draft.items? depth (Draft.ofItems items) = some items
  | [], _, _ => by rw [Draft.ofItems, Draft.items?]
  | v :: items, depth, h => by
      rw [nestingOfItems] at h
      have hvalue := value?_ofJson v depth (by omega)
      have hitems := items?_ofItems items depth (by omega)
      rw [Draft.ofItems, Draft.items?, hvalue, hitems]
      rfl

theorem members?_ofMembers : ∀ (members : List (String × Json)) (depth : Nat),
    nestingOfMembers members < depth →
      Draft.members? depth (Draft.ofMembers members) = some members
  | [], _, _ => by rw [Draft.ofMembers, Draft.members?]
  | (k, v) :: members, depth, h => by
      rw [nestingOfMembers] at h
      have hvalue := value?_ofJson v depth (by omega)
      have hmembers := members?_ofMembers members depth (by omega)
      rw [Draft.ofMembers, Draft.members?, hvalue, hmembers]
      rfl

end

/-- A value in canonical form is restored as it is. -/
theorem Decoder.any_restores {depth : Nat} {v : Json} (hexact : v.Exact)
    (hcanonical : v.canonical = v) (hnesting : v.nesting < depth) :
    Restores (any depth) v v where
  isExact := hexact
  decodes := by
    intro origin
    rw [any, value?_ofJson v depth hnesting]
    exact congrArg Except.ok hcanonical

/-! ## Records -/

namespace Record

theorem find?_key {front fields : List (Field σ)} {f : Field σ}
    (h : f.key ∉ front.map Field.key) :
    (front ++ f :: fields).find? (·.key == f.key) = some f := by
  have hfront : front.find? (·.key == f.key) = none := by
    rw [List.find?_eq_none]
    intro g hg hkey
    exact h (List.mem_map.mpr ⟨g, hg, beq_iff_eq.mp hkey⟩)
  rw [List.find?_append, hfront]
  simp

/-- The members stand in the order of the fields, of which some may be left out.  Setting them takes
the first record to the second, or to the first fault. -/
inductive Sets (origin : Origin) :
    List (Field σ) → σ → List (String × Json) → Except Fault σ → Prop
  | nil (s : σ) : Sets origin [] s [] (.ok s)
  | present {f : Field σ} {fields : List (Field σ)} {s t : σ} {v : Json}
      {members : List (String × Json)} {result : Except Fault σ}
      (hset : f.set origin (Draft.ofJson v) s = .ok t)
      (hrest : Sets origin fields t members result) :
      Sets origin (f :: fields) s ((f.key, v) :: members) result
  | refused {f : Field σ} {fields : List (Field σ)} {s : σ} {v : Json}
      {members : List (String × Json)} {fault : Fault}
      (hset : f.set origin (Draft.ofJson v) s = .error fault) :
      Sets origin (f :: fields) s ((f.key, v) :: members) (.error fault)
  | absent {f : Field σ} {fields : List (Field σ)} {s : σ} {members : List (String × Json)}
      {result : Except Fault σ} (hrest : Sets origin fields s members result) :
      Sets origin (f :: fields) s members result

/-- Members that set the fields behind `front` are all seen, unless a fault comes first. -/
theorem Sets.setMembers {origin : Origin} {fields : List (Field σ)} {s : σ}
    {members : List (String × Json)} {result : Except Fault σ}
    (h : Sets origin fields s members result) :
    ∀ (front : List (Field σ)) (seen : List String),
      ((front ++ fields).map Field.key).Nodup → (∀ k ∈ seen, k ∈ front.map Field.key) →
      Record.setMembers (front ++ fields) origin seen s (Draft.ofMembers members) =
        result.map fun u => ((members.map Prod.fst).reverse ++ seen, u) := by
  -- The key of the next field is not among those in front of it, so it is neither found there nor
  -- seen before.
  have hnew : ∀ {front fields : List (Field σ)} {f : Field σ} {seen : List String},
      ((front ++ f :: fields).map Field.key).Nodup → (∀ k ∈ seen, k ∈ front.map Field.key) →
        f.key ∉ front.map Field.key ∧ seen.contains f.key = false := by
    intro front fields f seen hnodup hseen
    have hkey : f.key ∉ front.map Field.key := by
      rw [List.map_append, List.nodup_append] at hnodup
      intro hmem
      exact hnodup.2.2 _ hmem _ (by simp) rfl
    refine ⟨hkey, ?_⟩
    rw [← Bool.not_eq_true, List.contains_iff_mem]
    exact fun hmem => hkey (hseen _ hmem)
  have hbehind : ∀ {front : List (Field σ)} {f : Field σ} {k : String},
      k ∈ front.map Field.key → k ∈ (front ++ [f]).map Field.key := by
    intro front f k hk
    rw [List.map_append]
    exact List.mem_append_left _ hk
  induction h with
  | nil s =>
      intro front seen _ _
      rfl
  | @present f fields s t v members result hset _ ih =>
      intro front seen hnodup hseen
      obtain ⟨hkey, hunseen⟩ := hnew hnodup hseen
      have hsplit : front ++ f :: fields = (front ++ [f]) ++ fields := by simp
      have hkeys : ∀ k ∈ f.key :: seen, k ∈ (front ++ [f]).map Field.key := by
        intro k hk
        rcases List.mem_cons.mp hk with rfl | hk
        · simp
        · exact hbehind (hseen k hk)
      have hafter := ih (front ++ [f]) (f.key :: seen) (hsplit ▸ hnodup) hkeys
      rw [Draft.ofMembers, Record.setMembers, find?_key hkey]
      simp only [hunseen, hset, Bool.false_eq_true, if_false]
      rw [hsplit]
      refine hafter.trans ?_
      rw [List.map_cons, List.reverse_cons, List.append_assoc]
      rfl
  | @refused f fields s v members fault hset =>
      intro front seen hnodup hseen
      obtain ⟨hkey, hunseen⟩ := hnew hnodup hseen
      rw [Draft.ofMembers, Record.setMembers, find?_key hkey]
      simp only [hunseen, hset, Bool.false_eq_true, if_false]
      rfl
  | @absent f fields s members result _ ih =>
      intro front seen hnodup hseen
      have hsplit : front ++ f :: fields = (front ++ [f]) ++ fields := by simp
      rw [hsplit]
      exact ih (front ++ [f]) seen (hsplit ▸ hnodup) fun k hk => hbehind (hseen k hk)

/-- A required field whose key is not among the members. -/
def Lacks (members : List (String × Json)) (f : Field σ) : Prop :=
  f.presence = .required ∧ f.key ∉ members.map Prod.fst

/-- A record has what its members set, if no required field is lacking. -/
theorem Sets.decode {origin : Origin} {r : Record σ} {members : List (String × Json)}
    {result : Except Fault σ} (h : Sets origin r.fields r.start members result)
    (hkeys : (r.fields.map Field.key).Nodup) (hfull : ∀ f ∈ r.fields, ¬ Lacks members f) :
    r.decode origin (Draft.ofJson (.object members)) = result := by
  have hset := h.setMembers [] [] hkeys (by simp)
  rw [List.nil_append] at hset
  rw [Draft.ofJson, Record.decode, hset]
  cases result with
  | error fault => rfl
  | ok u =>
      have hnone : (r.fields.find? fun f => f.presence == .required &&
          !((members.map Prod.fst).reverse ++ []).contains f.key) = none := by
        rw [List.find?_eq_none]
        intro f hf hmissing
        exact hfull f hf (by simpa [Lacks] using hmissing)
      simp only [Except.map, bind, Except.bind, hnone]
      rfl

/-- A record without required fields has what its members set. -/
theorem Sets.decode_of_free {origin : Origin} {r : Record σ} {members : List (String × Json)}
    {result : Except Fault σ} (h : Sets origin r.fields r.start members result)
    (hkeys : (r.fields.map Field.key).Nodup)
    (hfree : r.fields.all (fun f => f.presence != .required) = true) :
    r.decode origin (Draft.ofJson (.object members)) = result := by
  refine h.decode hkeys fun f hf hlacks => ?_
  have hpresence := List.all_eq_true.mp hfree f hf
  rw [hlacks.1] at hpresence
  exact absurd hpresence (by decide)

/-- A record that lacks a required field is refused for the first of them. -/
theorem Sets.decode_lacks {origin : Origin} {r : Record σ} {members : List (String × Json)} {u : σ}
    (h : Sets origin r.fields r.start members (.ok u)) (hkeys : (r.fields.map Field.key).Nodup)
    (hlacks : ∃ f ∈ r.fields, Lacks members f) :
    ∃ f ∈ r.fields, Lacks members f ∧
      r.decode origin (Draft.ofJson (.object members)) =
        .error (.mismatch (.missingField f.key)) := by
  have hfound : ∃ f ∈ r.fields, (f.presence == .required &&
      !((members.map Prod.fst).reverse ++ []).contains f.key) = true := by
    obtain ⟨f, hf, hlack⟩ := hlacks
    exact ⟨f, hf, by simpa [Lacks] using hlack⟩
  obtain ⟨f, hf⟩ := Option.isSome_iff_exists.mp (List.find?_isSome.mpr hfound)
  refine ⟨f, List.mem_of_find?_eq_some hf, by simpa [Lacks] using List.find?_some hf, ?_⟩
  have hset := h.setMembers [] [] hkeys (by simp)
  rw [List.nil_append] at hset
  rw [Draft.ofJson, Record.decode, hset]
  simp only [Except.map, bind, Except.bind, hf]
  rfl

/-- The members write the fields in the order of their declaration and take the first record to the
second.  Only a field that is not required may be left out. -/
inductive Writes : List (Field σ) → σ → List (String × Json) → σ → Prop
  | nil (s : σ) : Writes [] s [] s
  | present {f : Field σ} {fields : List (Field σ)} {s t u : σ} {v : Json}
      {members : List (String × Json)} (hexact : v.Exact)
      (hset : ∀ origin, f.set origin (Draft.ofJson v) s = .ok t)
      (hrest : Writes fields t members u) : Writes (f :: fields) s ((f.key, v) :: members) u
  | absent {f : Field σ} {fields : List (Field σ)} {s u : σ} {members : List (String × Json)}
      (hfree : f.presence ≠ .required) (hrest : Writes fields s members u) :
      Writes (f :: fields) s members u

theorem Writes.isExact {fields : List (Field σ)} {s u : σ} {members : List (String × Json)}
    (h : Writes fields s members u) : (Json.object members).Exact := by
  rw [exact_object]
  induction h with
  | nil => simp
  | present hexact _ _ ih => exact List.forall_mem_cons.mpr ⟨hexact, ih⟩
  | absent _ _ ih => exact ih

theorem Writes.sets {fields : List (Field σ)} {s u : σ} {members : List (String × Json)}
    (h : Writes fields s members u) (origin : Origin) :
    Sets origin fields s members (.ok u) := by
  induction h with
  | nil s => exact .nil s
  | present _ hset _ ih => exact .present (hset origin) ih
  | absent _ _ ih => exact .absent ih

theorem Writes.not_lacks {fields : List (Field σ)} {s u : σ} {members : List (String × Json)}
    (h : Writes fields s members u) : ∀ f ∈ fields, ¬ Lacks members f := by
  induction h with
  | nil => simp
  | present _ _ _ ih =>
      intro g hg hlacks
      rw [Lacks, List.map_cons, List.mem_cons, not_or] at hlacks
      rcases List.mem_cons.mp hg with rfl | hg
      · exact hlacks.2.1 rfl
      · exact ih g hg ⟨hlacks.1, hlacks.2.2⟩
  | absent hfree _ ih =>
      intro g hg hlacks
      rcases List.mem_cons.mp hg with rfl | hg
      · exact hfree hlacks.1
      · exact ih g hg hlacks

/-- A record is restored from members that write its fields. -/
theorem restores {r : Record σ} {members : List (String × Json)} {a : σ}
    (h : Writes r.fields r.start members a) (hkeys : (r.fields.map Field.key).Nodup) :
    Decoder.Restores r.decode (.object members) a :=
  ⟨h.isExact, fun origin => (h.sets origin).decode hkeys h.not_lacks⟩

/-- A field with its decoder. -/
theorem Writes.field {key : String} {presence : Presence} {decode : Decoder α} {update : σ → α → σ}
    {fields : List (Field σ)} {s u : σ} {v : Json} {a : α} {members : List (String × Json)}
    (hvalue : Decoder.Restores decode v a) (hrest : Writes fields (update s a) members u) :
    Writes (Field.of key presence decode update :: fields) s ((key, v) :: members) u := by
  refine .present hvalue.isExact (fun origin => ?_) hrest
  change (decode origin (Draft.ofJson v)).map (update s) = _
  rw [hvalue.decodes]
  rfl

end Record

end ApiAtlas.Json
