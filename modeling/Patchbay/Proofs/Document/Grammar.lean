import Patchbay.Proofs.Document.Reading
import Patchbay.Proofs.Json.Made
import Mathlib.Data.List.Duplicate

/-!
# The grammar of page documents

A text is read as a page document exactly if it obeys the grammar of `Document.Grammar`, which is
put in terms of the value that the text stands for: how long and how high it is, its two sections,
the fields of their items, and their ids. What has been read has the parts that the items describe,
in their order, and a text that is refused is refused for the first rule that it breaks
(`Document.ofText_grammar`).
-/

namespace Patchbay

open Schema

/-! ## Items -/

/-- What an item has to be to describe a component. -/
structure Component.Wellformed (item : Value) : Prop where
  id : ∃ id, item.field? "id" = some (.text id)
  type : ∃ type : ComponentType, item.field? "type" = some (.text type.name)
  props : item.field? "props" = none ∨ ∃ entries, item.field? "props" = some (.map entries)

theorem Component.wellformed_iff {item : Value} (textual : item.Textual) :
    Wellformed item ↔ ∃ c : Component, c.DescribedBy item := by
  constructor
  · rintro ⟨⟨id, identified⟩, ⟨type, typed⟩, absent | ⟨entries, found⟩⟩
    · exact ⟨⟨id, type, []⟩, identified, typed, .inl ⟨absent, rfl⟩⟩
    · -- all keys of a map that has been read are texts
      obtain ⟨props, same⟩ := (textual.field? found).eq_record
      rw [same] at found
      exact ⟨⟨id, type, props⟩, identified, typed, .inr found⟩
  · rintro ⟨c, identified, typed, props⟩
    exact ⟨⟨_, identified⟩, ⟨_, typed⟩, props.imp And.left fun found => ⟨_, found⟩⟩

/-- What an item has to be to describe a binding. -/
structure Binding.Wellformed (item : Value) : Prop where
  source : ∃ source, item.field? "source" = some (.text source)
  target : ∃ target, item.field? "target" = some (.text target)
  mode : ∃ mode : Mode, item.field? "mode" = some (.text mode.name)
  via : ∃ via, OptionalText (item.field? "via") via
  sourceProperty : ∃ name, OptionalText
    ((item.field? "source-property").or (item.field? "source_property")) name
  targetProperty : ∃ name, OptionalText
    ((item.field? "target-property").or (item.field? "target_property")) name

theorem Binding.wellformed_iff {item : Value} :
    Wellformed item ↔ ∃ b : Binding, b.DescribedBy item := by
  constructor
  · rintro ⟨⟨source, first⟩, ⟨target, second⟩, ⟨mode, third⟩, ⟨via, fourth⟩, ⟨given, fifth⟩,
      ⟨taken, sixth⟩⟩
    exact ⟨⟨source, target, mode, via, given, taken⟩, first, second, third, fourth, fifth, sixth⟩
  · rintro ⟨b, first, second, third, fourth, fifth, sixth⟩
    exact ⟨⟨_, first⟩, ⟨_, second⟩, ⟨_, third⟩, ⟨_, fourth⟩, ⟨_, fifth⟩, ⟨_, sixth⟩⟩

/-- All elements of a list have a relative exactly if a list of relatives exists. -/
theorem forall_exists_iff_forall₂ {α β : Type} {R : α → β → Prop} {xs : List α} :
    (∀ x ∈ xs, ∃ y, R x y) ↔ ∃ ys, List.Forall₂ R xs ys := by
  induction xs with
  | nil => simp
  | cons x xs ih =>
    rw [List.forall_mem_cons, ih]
    constructor
    · rintro ⟨⟨y, first⟩, ys, later⟩
      exact ⟨y :: ys, .cons first later⟩
    · rintro ⟨_, _ | ⟨first, later⟩⟩
      exact ⟨⟨_, first⟩, _, later⟩

namespace Document

/-! ## Texts -/

/-- A text stands for a map, and both are within their limits. -/
structure Bounded (limits : Limits) (text : String) (entries : List (Key × Value)) : Prop where
  decoded : Json.read? (Text.trim text.toList) = some (.map entries)
  size : text.utf8ByteSize ≤ limits.size
  depth : Json.height (.map entries) ≤ limits.depth

/-- The map has both sections, which are lists. -/
structure Sectioned (limits : Limits) (text : String) (entries : List (Key × Value))
    (components bindings : List Value) : Prop extends Bounded limits text entries where
  first : (Value.map entries).field? "components" = some (.list components)
  second : (Value.map entries).field? "bindings" = some (.list bindings)

/-- All items are what those of their section have to be. -/
structure Typed (limits : Limits) (text : String) (entries : List (Key × Value))
    (components bindings : List Value) : Prop
    extends Sectioned limits text entries components bindings where
  parts : ∀ item ∈ components, Component.Wellformed item
  wires : ∀ item ∈ bindings, Binding.Wellformed item

/-- A page document, as a text with the items of its two sections. -/
structure Grammar (limits : Limits) (text : String) (entries : List (Key × Value))
    (components bindings : List Value) : Prop
    extends Typed limits text entries components bindings where
  distinct : (components.map (Value.field? "id")).Nodup

/-- The sections are looked for one after the other. -/
inductive Reached (entries : List (Key × Value)) : String → Prop
  | components : Reached entries "components"
  | bindings {items : List Value}
    (first : (Value.map entries).field? "components" = some (.list items)) :
    Reached entries "bindings"

/-- Why a text is refused: there is one case for each rule, and it supposes the rules before. -/
inductive Refused (limits : Limits) (text : String) : Invalid → Prop
  | malformed (unread : Json.read? (Text.trim text.toList) = none) :
    Refused limits text (.documentText .malformed)
  | notMap {v : Value} (decoded : Json.read? (Text.trim text.toList) = some v)
    (other : v.kind ≠ .map) : Refused limits text (.documentText (.notMap v.kind))
  | tooLarge {entries : List (Key × Value)}
    (decoded : Json.read? (Text.trim text.toList) = some (.map entries))
    (exceeds : limits.size < text.utf8ByteSize) : Refused limits text
      (.documentLimit (.tooLarge "Page config" text.utf8ByteSize limits.size))
  | tooDeep {entries : List (Key × Value)}
    (decoded : Json.read? (Text.trim text.toList) = some (.map entries))
    (size : text.utf8ByteSize ≤ limits.size) (exceeds : limits.depth < Json.height (.map entries)) :
    Refused limits text (.documentLimit (.tooDeep (max (limits.depth + 1) 0) limits.depth))
  | sectionMissing {entries : List (Key × Value)} {name : String}
    (bounded : Bounded limits text entries) (reached : Reached entries name)
    (absent : (Value.map entries).field? name = none) :
    Refused limits text (.sectionMissing name)
  | sectionNotList {entries : List (Key × Value)} {name : String} {v : Value}
    (bounded : Bounded limits text entries) (reached : Reached entries name)
    (found : (Value.map entries).field? name = some v) (other : v.kind ≠ .list) :
    Refused limits text (.sectionNotList name)
  | illTyped {entries : List (Key × Value)} {components bindings : List Value}
    {issues : List Issue} (sectioned : Sectioned limits text entries components bindings)
    (broken : (∃ item ∈ components, ¬Component.Wellformed item) ∨
      ∃ item ∈ bindings, ¬Binding.Wellformed item)
    (listed : check (.map entries) = .error issues) : Refused limits text (.document issues)
  | sharedIds {entries : List (Key × Value)} {components bindings : List Value}
    {shared : List String} (typed : Typed limits text entries components bindings)
    (nonempty : shared ≠ []) (sorted : shared.Pairwise (· < ·))
    (repeated : ∀ id, id ∈ shared ↔
      List.Duplicate (some (.text id)) (components.map (Value.field? "id"))) :
    Refused limits text (.sharedIds shared)

/-! ## Limits and sections -/

section

variable {limits : Limits} {text : String} {entries : List (Key × Value)}

theorem checkHasSection_eq_ok_iff {v : Value} {name : String} :
    checkHasSection v name = .ok () ↔ ∃ items, v.field? name = some (.list items) := by
  unfold checkHasSection
  split <;> simp_all

theorem checkShape_eq (limits : Limits) (v : Value) (text : String) :
    checkShape limits v text =
      if limits.size < text.utf8ByteSize then
        .error (.documentLimit (.tooLarge "Page config" text.utf8ByteSize limits.size))
      else if limits.depth < Json.height v then
        .error (.documentLimit (.tooDeep (max (limits.depth + 1) 0) limits.depth))
      else
        match checkHasSection v "components" with
        | .error cause => .error cause
        | .ok () => checkHasSection v "bindings" := by
  simp only [checkShape, Json.checkSize, Json.checkDepth]
  by_cases size : limits.size < text.utf8ByteSize
  · rw [if_pos size, if_pos size]
    rfl
  · rw [if_neg size, if_neg size]
    by_cases depth : limits.depth < Json.height v
    · rw [if_pos depth, if_pos depth]
      rfl
    · rw [if_neg depth, if_neg depth]
      cases checkHasSection v "components" <;> rfl

theorem checkShape_eq_ok_iff (decoded : Json.read? (Text.trim text.toList) = some (.map entries)) :
    checkShape limits (.map entries) text = .ok () ↔
      ∃ components bindings, Sectioned limits text entries components bindings := by
  rw [checkShape_eq]
  constructor
  · intro checked
    split at checked
    · cases checked
    next size =>
      split at checked
      · cases checked
      next depth =>
        split at checked
        · cases checked
        next first =>
          obtain ⟨components, first⟩ := checkHasSection_eq_ok_iff.mp first
          obtain ⟨bindings, second⟩ := checkHasSection_eq_ok_iff.mp checked
          exact ⟨components, bindings, ⟨decoded, by omega, by omega⟩, first, second⟩
  · rintro ⟨components, bindings, ⟨-, size, depth⟩, first, second⟩
    rw [if_neg (by omega), if_neg (by omega), checkHasSection_eq_ok_iff.mpr ⟨_, first⟩]
    exact checkHasSection_eq_ok_iff.mpr ⟨_, second⟩

theorem refused_of_checkHasSection {name : String} {cause : Invalid}
    (bounded : Bounded limits text entries) (reached : Reached entries name)
    (refused : checkHasSection (.map entries) name = .error cause) :
    Refused limits text cause := by
  unfold checkHasSection at refused
  split at refused
  · next absent =>
    cases refused
    exact .sectionMissing bounded reached absent
  · cases refused
  · next v found other =>
    cases refused
    refine .sectionNotList bounded reached other fun list => ?_
    cases v <;> simp_all [Value.kind]

theorem refused_of_checkShape {cause : Invalid}
    (decoded : Json.read? (Text.trim text.toList) = some (.map entries))
    (refused : checkShape limits (.map entries) text = .error cause) :
    Refused limits text cause := by
  rw [checkShape_eq] at refused
  split at refused
  · next exceeds =>
    cases refused
    exact .tooLarge decoded exceeds
  next size =>
    split at refused
    · next exceeds =>
      cases refused
      exact .tooDeep decoded (by omega) exceeds
    next depth =>
      have bounded : Bounded limits text entries := ⟨decoded, by omega, by omega⟩
      split at refused
      · next first =>
        cases refused
        exact refused_of_checkHasSection bounded .components first
      · next first =>
        obtain ⟨components, first⟩ := checkHasSection_eq_ok_iff.mp first
        exact refused_of_checkHasSection bounded (.bindings first) refused

/-! ## Items and ids -/

/-- The parts of a document whose sections are there are described by their items. -/
theorem DescribedBy.items {document : Document} {components bindings : List Value}
    (described : document.DescribedBy (.map entries))
    (sectioned : Sectioned limits text entries components bindings) :
    List.Forall₂ (fun item c => Component.DescribedBy c item) components document.components ∧
      List.Forall₂ (fun item b => Binding.DescribedBy b item) bindings document.bindings := by
  obtain ⟨-, first, second⟩ := described
  simp only [SectionOf, sectioned.first, sectioned.second, reduceCtorEq, false_and, false_or,
    Option.some.injEq, Value.list.injEq, exists_eq_left'] at first second
  exact ⟨first, second⟩

theorem exists_described_iff {components bindings : List Value}
    (sectioned : Sectioned limits text entries components bindings) :
    (∃ document : Document, document.DescribedBy (.map entries)) ↔
      Typed limits text entries components bindings := by
  have textual := Json.read?_textual sectioned.decoded
  have parts : ∀ item ∈ components, item.Textual := (textual.field? sectioned.first).items
  constructor
  · rintro ⟨document, described⟩
    obtain ⟨first, second⟩ := described.items sectioned
    refine ⟨sectioned, fun item member => ?_, fun item member => ?_⟩
    · exact (Component.wellformed_iff (parts item member)).mpr
        (forall_exists_iff_forall₂.mpr ⟨_, first⟩ item member)
    · exact Binding.wellformed_iff.mpr (forall_exists_iff_forall₂.mpr ⟨_, second⟩ item member)
  · intro typed
    obtain ⟨made, first⟩ := forall_exists_iff_forall₂.mp fun item member =>
      (Component.wellformed_iff (parts item member)).mp (typed.parts item member)
    obtain ⟨wired, second⟩ := forall_exists_iff_forall₂.mp fun item member =>
      Binding.wellformed_iff.mp (typed.wires item member)
    exact ⟨⟨made, wired⟩, rfl, .inr ⟨_, sectioned.first, first⟩, .inr ⟨_, sectioned.second, second⟩⟩

/-- The ids of components are the fields of that name. -/
theorem map_field?_id {components : List Component} {items : List Value}
    (described : List.Forall₂ (fun item c => Component.DescribedBy c item) items components) :
    items.map (Value.field? "id") =
      (components.map Component.id).map fun id => some (.text id) := by
  induction described with
  | nil => rfl
  | cons first _ ih => simp only [List.map_cons, first.id, ih]

theorem some_text_injective : Function.Injective fun id : String => some (Value.text id) := by
  intro a b same
  simpa using same

theorem duplicate_map_iff {α β : Type} {f : α → β} (injective : Function.Injective f) {x : α}
    {xs : List α} : List.Duplicate (f x) (xs.map f) ↔ List.Duplicate x xs := by
  simp only [List.duplicate_iff_sublist, List.sublist_map_iff]
  constructor
  · rintro ⟨pair, inside, same⟩
    have pair_eq : pair = [x, x] := by
      apply List.map_injective_iff.mpr injective
      exact same.symm
    rwa [← pair_eq]
  · intro inside
    exact ⟨[x, x], inside, rfl⟩

/-! ## Reading a text -/

theorem ofText_of_read (decoded : Json.read? (Text.trim text.toList) = some (.map entries)) :
    ofText limits false text = accept limits (.map entries) text := by
  have nonempty : text.isEmpty = false := by
    by_contra empty
    rw [Bool.not_eq_false, String.isEmpty_iff] at empty
    subst empty
    cases decoded
  have read : Json.readMapOrRepair false text = .ok (.map entries) := by
    simp [Json.readMapOrRepair, Json.readMap, decoded, Json.asMap]
  simp [ofText, read, ofValue_eq, nonempty]

theorem accept_eq_ok_iff_grammar {document : Document}
    (decoded : Json.read? (Text.trim text.toList) = some (.map entries)) :
    accept limits (.map entries) text = .ok document ↔ ∃ components bindings,
      Grammar limits text entries components bindings ∧ document.DescribedBy (.map entries) := by
  rw [accept_eq_ok_iff, checkShape_eq_ok_iff decoded, check_eq_ok_iff]
  constructor
  · rintro ⟨⟨components, bindings, sectioned⟩, described, distinct⟩
    have typed := (exists_described_iff sectioned).mp ⟨document, described⟩
    refine ⟨components, bindings, ⟨typed, ?_⟩, described⟩
    rw [map_field?_id (described.items sectioned).1]
    exact distinct.map some_text_injective
  · rintro ⟨components, bindings, grammar, described⟩
    refine ⟨⟨components, bindings, grammar.toSectioned⟩, described, ?_⟩
    have distinct := grammar.distinct
    rw [map_field?_id (described.items grammar.toSectioned).1] at distinct
    exact distinct.of_map

theorem refused_of_not_map (undecoded : ¬∃ entries,
    Json.read? (Text.trim text.toList) = some (.map entries)) :
    ∃ cause, ofText limits false text = .error cause ∧ Refused limits text cause := by
  cases decoded : Json.read? (Text.trim text.toList) with
  | none =>
    refine ⟨_, ?_, .malformed decoded⟩
    simp [ofText, Json.readMapOrRepair, Json.readMap, decoded]
  | some v =>
    cases v with
    | map entries => exact absurd ⟨entries, decoded⟩ undecoded
    | null | bool | int | float | text | list =>
      refine ⟨_, ?_, .notMap decoded nofun⟩
      simp [ofText, Json.readMapOrRepair, Json.readMap, decoded, Json.asMap]

/-- The shared ids are the ones that two components have. -/
theorem mem_sharedIds_iff_duplicate {components : List Component} {items : List Value}
    (described : List.Forall₂ (fun item c => Component.DescribedBy c item) items components)
    (id : String) : id ∈ Document.sharedIds (components.map Component.id) ↔
      List.Duplicate (some (.text id)) (items.map (Value.field? "id")) := by
  rw [mem_sharedIds_iff, map_field?_id described, duplicate_map_iff some_text_injective,
    List.duplicate_iff_two_le_count]
  omega

theorem refused_of_accept {cause : Invalid}
    (decoded : Json.read? (Text.trim text.toList) = some (.map entries))
    (refused : accept limits (.map entries) text = .error cause) : Refused limits text cause := by
  unfold accept at refused
  split at refused
  · next shape =>
    cases refused
    exact refused_of_checkShape decoded shape
  next shape =>
    obtain ⟨components, bindings, sectioned⟩ := (checkShape_eq_ok_iff decoded).mp shape
    have typed_iff := exists_described_iff sectioned
    split at refused
    · next issues checked =>
      cases refused
      refine .illTyped sectioned ?_ checked
      -- if all items were well-formed, the check would have made a document of them
      by_contra sound
      push Not at sound
      obtain ⟨document, described⟩ := typed_iff.mpr ⟨sectioned, sound.1, sound.2⟩
      rw [check_eq_ok_iff.mpr described] at checked
      cases checked
    · next document checked =>
      have described := check_eq_ok_iff.mp checked
      dsimp only at refused
      split at refused
      · cases refused
      next nonempty =>
        cases refused
        exact .sharedIds (typed_iff.mp ⟨document, described⟩)
          (fun none => nonempty (List.isEmpty_iff.mpr none)) (sharedIds_increasing _)
          (mem_sharedIds_iff_duplicate (described.items sectioned).1)

end

/-- **A text is read as a page document exactly if it obeys the grammar.** The parts of the
document are described by the items of the two sections, in their order; any other text is refused
for the first rule that it breaks. -/
theorem ofText_grammar (limits : Limits) (text : String) :
    ((∃ document, ofText limits false text = .ok document) ↔
      ∃ entries components bindings, Grammar limits text entries components bindings) ∧
    (∀ document, ofText limits false text = .ok document →
      ∀ entries components bindings, Grammar limits text entries components bindings →
        List.Forall₂ (fun item c => Component.DescribedBy c item) components document.components ∧
        List.Forall₂ (fun item b => Binding.DescribedBy b item) bindings document.bindings) ∧
    ∀ cause, ofText limits false text = .error cause → Refused limits text cause := by
  by_cases decoded : ∃ entries, Json.read? (Text.trim text.toList) = some (.map entries)
  · obtain ⟨entries, decoded⟩ := decoded
    rw [ofText_of_read decoded]
    -- a text stands for one map only
    have same {entries' components bindings} (grammar : Grammar limits text entries' components
        bindings) : entries' = entries := by
      simpa [decoded, eq_comm] using grammar.decoded
    refine ⟨⟨?_, ?_⟩, ?_, fun cause => refused_of_accept decoded⟩
    · rintro ⟨document, read⟩
      obtain ⟨components, bindings, grammar, -⟩ := (accept_eq_ok_iff_grammar decoded).mp read
      exact ⟨entries, components, bindings, grammar⟩
    · rintro ⟨entries', components, bindings, grammar⟩
      obtain rfl := same grammar
      obtain ⟨document, described⟩ := (exists_described_iff grammar.toSectioned).mpr grammar.toTyped
      exact ⟨document, (accept_eq_ok_iff_grammar decoded).mpr ⟨_, _, grammar, described⟩⟩
    · intro document read entries' components bindings grammar
      obtain rfl := same grammar
      obtain ⟨-, -, -, described⟩ := (accept_eq_ok_iff_grammar decoded).mp read
      exact described.items grammar.toSectioned
  · obtain ⟨cause, refusal, refused⟩ := refused_of_not_map decoded
    rw [refusal]
    refine ⟨⟨?_, ?_⟩, nofun, fun cause' same => ?_⟩
    · rintro ⟨document, ⟨⟩⟩
    · rintro ⟨entries, components, bindings, grammar⟩
      exact absurd ⟨entries, grammar.decoded⟩ decoded
    · cases same
      exact refused

end Document
end Patchbay
