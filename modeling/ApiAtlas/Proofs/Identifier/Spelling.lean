import Mathlib.Data.List.Infix
import ApiAtlas.Identifier
set_option autoImplicit false

/-!
# Identifiers: the spellings of a client

A client of one service goes by many names: with `grpc` before it or not, with `service` and then
`client` behind it or not, in any case.  The affixes are taken off in one fixed order, `client`
before `service` before `grpc`, each at most once.  A name that shows none of them, also not where
`grpc` meets it, is therefore what is left of all its spellings, and they all lead to one method.
-/

namespace ApiAtlas.Identifier

/-! ## Texts up to ASCII case -/

/-- The text with its ASCII letters in lower case. -/
def folded (text : List Char) : List Char := text.map Char.toLower

/-- The text is the word, up to ASCII case. -/
def IsCasing (word text : List Char) : Prop := folded text = folded word

/-- The text begins with the word, up to ASCII case. -/
def BeginsLike (word text : List Char) : Prop := folded word <+: folded text

/-- The text ends in the word, up to ASCII case. -/
def EndsLike (word text : List Char) : Prop := folded word <:+ folded text

instance (word text : List Char) : Decidable (IsCasing word text) :=
  inferInstanceAs (Decidable (folded text = folded word))

instance (word text : List Char) : Decidable (BeginsLike word text) :=
  inferInstanceAs (Decidable (folded word <+: folded text))

instance (word text : List Char) : Decidable (EndsLike word text) :=
  inferInstanceAs (Decidable (folded word <:+ folded text))

theorem folded_append (a b : List Char) : folded (a ++ b) = folded a ++ folded b :=
  List.map_append

theorem length_folded (text : List Char) : (folded text).length = text.length :=
  List.length_map Char.toLower

theorem eqIgnoringAsciiCase_iff {text word : List Char} :
    Text.eqIgnoringAsciiCase text word = true ↔ IsCasing word text := by
  rw [Text.eqIgnoringAsciiCase, beq_iff_eq]
  rfl

theorem IsCasing.length_eq {word text : List Char} (h : IsCasing word text) :
    text.length = word.length := by
  rw [← length_folded text, h, length_folded]

/-- Two words that a text ends in overlap: the shorter one ends the longer one. -/
theorem EndsLike.of_length_le {short long text : List Char} (hshort : EndsLike short text)
    (hlong : EndsLike long text) (hle : short.length ≤ long.length) : EndsLike short long :=
  List.suffix_of_suffix_length_le hshort hlong (by rwa [length_folded, length_folded])

/-! ## Taking affixes off -/

theorem withoutTail_append {word last : List Char} (h : IsCasing word last) (text : List Char) :
    withoutTail word (text ++ last) = text := by
  have hcut : (text ++ last).length - word.length = text.length := by
    rw [List.length_append, h.length_eq, Nat.add_sub_cancel]
  simp only [withoutTail]
  rw [hcut, List.drop_left, List.take_left, if_pos (eqIgnoringAsciiCase_iff.mpr h)]

theorem withoutTail_of_not_endsLike {word text : List Char} (h : ¬ EndsLike word text) :
    withoutTail word text = text := by
  simp only [withoutTail]
  rw [if_neg]
  intro heq
  refine h ⟨folded (text.take (text.length - word.length)), ?_⟩
  rw [← eqIgnoringAsciiCase_iff.mp heq, ← folded_append, List.take_append_drop]

theorem withoutHead_append {word first : List Char} (h : IsCasing word first) (text : List Char) :
    withoutHead word (first ++ text) = text := by
  unfold withoutHead
  rw [← h.length_eq, List.take_left, List.drop_left, if_pos (eqIgnoringAsciiCase_iff.mpr h)]

theorem withoutHead_of_not_beginsLike {word text : List Char} (h : ¬ BeginsLike word text) :
    withoutHead word text = text := by
  unfold withoutHead
  rw [if_neg]
  intro heq
  refine h ⟨folded (text.drop word.length), ?_⟩
  rw [← eqIgnoringAsciiCase_iff.mp heq, ← folded_append, List.take_append_drop]

/-! ## Spellings -/

/-- The text is the word in some case, or is left out. -/
def IsAffix (word : String) (text : List Char) : Prop := text = [] ∨ IsCasing word.toList text

/-- The member is a spelling of the base: `grpc` may stand before it, `service` behind it, and
`client` at the end, each in any case. -/
def Spells (base member : List Char) : Prop :=
  ∃ first tail last, IsAffix "grpc" first ∧ IsAffix "service" tail ∧ IsAffix "client" last ∧
    member = first ++ base ++ tail ++ last

/-- The base shows no affix: it does not begin with `grpc`, and does not end in `client` or
`service`, by itself or with `grpc` before it. -/
structure IsBase (base : List Char) : Prop where
  head : ¬ BeginsLike "grpc".toList base
  client : ¬ EndsLike "client".toList base
  service : ¬ EndsLike "service".toList base
  headed_client : ¬ EndsLike "client".toList ("grpc".toList ++ base)
  headed_service : ¬ EndsLike "service".toList ("grpc".toList ++ base)

instance (base : List Char) : Decidable (IsBase base) :=
  decidable_of_iff
    (¬ BeginsLike "grpc".toList base ∧ ¬ EndsLike "client".toList base ∧
      ¬ EndsLike "service".toList base ∧ ¬ EndsLike "client".toList ("grpc".toList ++ base) ∧
      ¬ EndsLike "service".toList ("grpc".toList ++ base))
    ⟨fun ⟨h₁, h₂, h₃, h₄, h₅⟩ => ⟨h₁, h₂, h₃, h₄, h₅⟩,
      fun ⟨h₁, h₂, h₃, h₄, h₅⟩ => ⟨h₁, h₂, h₃, h₄, h₅⟩⟩

theorem isBase_nil : IsBase [] := by decide

section Stripping

variable {base first tail last : List Char}

/-- A base with or without `grpc` before it ends in neither suffix. -/
theorem IsBase.not_endsLike (h : IsBase base) (hfirst : IsAffix "grpc" first) :
    ¬ EndsLike "client".toList (first ++ base) ∧ ¬ EndsLike "service".toList (first ++ base) := by
  rcases hfirst with rfl | hfirst
  · exact ⟨h.client, h.service⟩
  · have hfolded : folded (first ++ base) = folded ("grpc".toList ++ base) := by
      rw [folded_append, folded_append, hfirst]
    unfold EndsLike
    rw [hfolded]
    exact ⟨h.headed_client, h.headed_service⟩

/-- The first step: `client` is taken off where it was added, and nowhere else. -/
theorem IsBase.withoutTail_client (h : IsBase base) (hfirst : IsAffix "grpc" first)
    (htail : IsAffix "service" tail) (hlast : IsAffix "client" last) :
    withoutTail "client".toList (first ++ base ++ tail ++ last) = first ++ base ++ tail := by
  rcases hlast with rfl | hlast
  · rw [List.append_nil]
    apply withoutTail_of_not_endsLike
    rcases htail with rfl | htail
    · rw [List.append_nil]
      exact (h.not_endsLike hfirst).1
    · -- a text that ends in `service` does not end in `client`
      intro hclient
      have hservice : EndsLike "service".toList (first ++ base ++ tail) :=
        ⟨folded (first ++ base), by rw [← htail, ← folded_append]⟩
      exact absurd (hclient.of_length_le hservice (by decide)) (by decide)
  · exact withoutTail_append hlast _

/-- The second step: `service` is taken off where it was added, and nowhere else. -/
theorem IsBase.withoutTail_service (h : IsBase base) (hfirst : IsAffix "grpc" first)
    (htail : IsAffix "service" tail) :
    withoutTail "service".toList (first ++ base ++ tail) = first ++ base := by
  rcases htail with rfl | htail
  · rw [List.append_nil]
    exact withoutTail_of_not_endsLike (h.not_endsLike hfirst).2
  · exact withoutTail_append htail _

/-- The third step: `grpc` is taken off where it was added, and nowhere else. -/
theorem IsBase.withoutHead_grpc (h : IsBase base) (hfirst : IsAffix "grpc" first) :
    withoutHead "grpc".toList (first ++ base) = base := by
  rcases hfirst with rfl | hfirst
  · exact withoutHead_of_not_beginsLike h.head
  · exact withoutHead_append hfirst base

end Stripping

/-- A base is what is left of each of its spellings. -/
theorem memberBase_of_spells {base member : List Char} (hbase : IsBase base)
    (h : Spells base member) : memberBase member = base := by
  obtain ⟨first, tail, last, hfirst, htail, hlast, rfl⟩ := h
  unfold memberBase
  rw [hbase.withoutTail_client hfirst htail hlast, hbase.withoutTail_service hfirst htail,
    hbase.withoutHead_grpc hfirst]

/-- **All spellings of a client lead to the same method.**  A base that shows no affix gives the
service its name, and where there is no base there is no method. -/
theorem rpcOfMember?_spelling (member method : String) :
    (∀ base : String, base ≠ "" → IsBase base.toList → Spells base.toList member.toList →
      rpcOfMember? member method =
        some ("grpc:" ++ titled base ++ "Service." ++ titled method)) ∧
    (Spells [] member.toList → rpcOfMember? member method = none) := by
  constructor
  · intro base hne hbase hspells
    have hleft : (memberBase member.toList).isEmpty = false := by
      rw [memberBase_of_spells hbase hspells, List.isEmpty_eq_false_iff]
      exact fun hnil => hne (String.toList_inj.mp hnil)
    simp only [rpcOfMember?, hleft, Bool.false_eq_true, if_false, rpc]
    rw [memberBase_of_spells hbase hspells]
    simp only [titled, String.append_assoc]
    rfl
  · intro hspells
    simp only [rpcOfMember?, memberBase_of_spells isBase_nil hspells, List.isEmpty_nil, if_true]

theorem rpcOfMember?_spelling_street :
    IsBase "ßclientele".toList ∧
      Spells "ßclientele".toList "GrPCßclienteleSERVICEClient".toList ∧
      rpcOfMember? "GrPCßclienteleSERVICEClient" "find" =
        some "grpc:SSclienteleService.Find" ∧
      Spells [] "grpcSERVICEclient".toList ∧ rpcOfMember? "grpcSERVICEclient" "find" = none := by
  have hbase : IsBase "ßclientele".toList := by decide +kernel
  have hspells : Spells "ßclientele".toList "GrPCßclienteleSERVICEClient".toList :=
    ⟨"GrPC".toList, "SERVICE".toList, "Client".toList, .inr (by decide), .inr (by decide),
      .inr (by decide), by decide⟩
  have hnone : Spells [] "grpcSERVICEclient".toList :=
    ⟨"grpc".toList, "SERVICE".toList, "client".toList, .inr (by decide), .inr (by decide),
      .inr (by decide), by decide⟩
  have htitled : "grpc:" ++ titled "ßclientele" ++ "Service." ++ titled "find" =
      "grpc:SSclienteleService.Find" := by decide +kernel
  refine ⟨hbase, hspells, ?_, hnone, (rpcOfMember?_spelling _ "find").2 hnone⟩
  rw [← htitled]
  exact (rpcOfMember?_spelling _ "find").1 "ßclientele" (by decide) hbase hspells

/-- With `grpc` before it, `lient` ends in `client`, and the spellings part. -/
example : ¬ IsBase "lient".toList ∧ Spells "lient".toList "grpclient".toList ∧
    memberBase "grpclient".toList ≠ memberBase "lient".toList :=
  ⟨by decide, ⟨"grpc".toList, [], [], .inr (by decide), .inl rfl, .inl rfl, by decide⟩, by decide⟩

end ApiAtlas.Identifier
