import Patchbay.Document
import Mathlib.Data.List.Forall2

/-!
# What the parts of a document look like

A check takes exactly the values of one shape, and what it makes of them is determined by their
fields (`Component.check_eq_ok_iff`, `Binding.check_eq_ok_iff`, `Document.check_eq_ok_iff`). Names
that are not asked for do not matter.
-/

namespace Patchbay

/-- Of two lists that are related place by place, each on the right has one on the left. -/
theorem exists_of_forall₂ {α β : Type} {R : α → β → Prop} {xs : List α} {ys : List β}
    (related : List.Forall₂ R xs ys) {y : β} (member : y ∈ ys) : ∃ x ∈ xs, R x y := by
  induction related with
  | nil => cases member
  | @cons x _ xs _ first later ih =>
    rcases List.mem_cons.mp member with rfl | inside
    · exact ⟨x, List.mem_cons_self, first⟩
    · obtain ⟨x', inside, own⟩ := ih inside
      exact ⟨x', List.mem_cons_of_mem x inside, own⟩

namespace Schema

/-! ## Checks of parts -/

theorem Checked.both_eq_ok_iff {α β γ : Type} {f : α → β → γ} {first : Checked α}
    {second : Checked β} {c : γ} :
    both f first second = .ok c ↔ ∃ a b, first = .ok a ∧ second = .ok b ∧ f a b = c := by
  cases first <;> cases second <;> simp [both]

theorem Checked.part_eq_ok_iff {α β : Type} {next : Checked α} {parts : Checked (α → β)} {b : β} :
    part next parts = .ok b ↔ ∃ make a, parts = .ok make ∧ next = .ok a ∧ make a = b :=
  both_eq_ok_iff

theorem Checked.build_eq_ok_iff {α : Type} {make made : α} :
    build make = .ok made ↔ make = made := by
  simp [build]

theorem Checked.within_eq_ok_iff {α : Type} {step : Step} {checked : Checked α} {a : α} :
    checked.within step = .ok a ↔ checked = .ok a := by
  cases checked <;> simp [within]

theorem Checked.each_eq_ok_iff {α β : Type} {check : α → Checked β} {start : Nat} {items : List α}
    {results : List β} :
    each check start items = .ok results ↔
      List.Forall₂ (fun item result => check item = .ok result) items results := by
  induction items generalizing start results with
  | nil => simp [each, eq_comm]
  | cons item rest ih =>
    simp only [each, both_eq_ok_iff, within_eq_ok_iff, ih, List.forall₂_cons_left_iff]
    constructor
    · rintro ⟨b, others, first, later, rfl⟩
      exact ⟨b, others, first, later, rfl⟩
    · rintro ⟨b, others, first, later, rfl⟩
      exact ⟨b, others, first, later, rfl⟩

section

variable {entries : List (Key × Value)} {name : String} {α : Type} {a : α}
  {check : Value → Checked α}

theorem required_eq_ok_iff : required entries name check = .ok a ↔
    ∃ v, (Value.map entries).field? name = some v ∧ check v = .ok a := by
  rw [required, Checked.within_eq_ok_iff, Value.field?]
  cases Entries.get? (Key.text name) entries <;> simp [refuse]

theorem optional_eq_ok_iff {default : α} : optional entries name default check = .ok a ↔
    (Value.map entries).field? name = none ∧ a = default ∨
      ∃ v, (Value.map entries).field? name = some v ∧ check v = .ok a := by
  rw [optional, Value.field?]
  cases Entries.get? (Key.text name) entries with
  | none => simp [eq_comm]
  | some v => simp [Checked.within_eq_ok_iff]

end

theorem text_eq_ok_iff {v : Value} {s : String} : text v = .ok s ↔ v = .text s := by
  cases v <;> simp [text, refuse]

/-- A text that may be left out, or null. -/
inductive OptionalText : Option Value → Option String → Prop
  | absent : OptionalText none none
  | null : OptionalText (some .null) none
  | text (s : String) : OptionalText (some (.text s)) (some s)

theorem textOrNull_eq_ok_iff {v : Value} {s : Option String} :
    textOrNull v = .ok s ↔ OptionalText (some v) s := by
  constructor
  · intro checked
    cases v with
    | null => cases checked; exact .null
    | text s => cases checked; exact .text s
    | bool | int | float | list | map => cases checked
  · rintro (_ | _) <;> rfl

/-- A text that may be left out is read as one. -/
theorem optionalText_iff {entries : List (Key × Value)} {name : String} {s : Option String} :
    optional entries name none textOrNull = .ok s ↔
      OptionalText ((Value.map entries).field? name) s := by
  rw [optional_eq_ok_iff]
  cases (Value.map entries).field? name with
  | none =>
    simp only [true_and, reduceCtorEq, false_and, exists_false, or_false]
    constructor
    · rintro rfl
      exact .absent
    · rintro ⟨⟩
      rfl
  | some v => simp [textOrNull_eq_ok_iff]

/-- The fields of a map are read if all its keys are texts, and no others. -/
theorem fields_eq_ok_iff {v : Value} {props : Entries String Value} :
    fields v = .ok props ↔ v = .record props := by
  constructor
  · intro checked
    cases v with
    | map entries =>
      simp only [fields, List.isEmpty_iff] at checked
      split at checked
      · next texts =>
        cases checked
        refine congrArg Value.map ?_
        -- with no issue to report, no entry is passed over
        induction entries with
        | nil => rfl
        | cons entry rest ih =>
          obtain ⟨key, item⟩ := entry
          cases key with
          | text name => exact congrArg _ (ih texts)
          | int | bool | null | float | tuple => simp [keyIssues] at texts
      · cases checked
    | null | bool | int | float | text | list => cases checked
  · rintro rfl
    have texts : keyIssues (props.map fun field => (Key.text field.1, field.2)) = [] := by
      simp [keyIssues]
    simp [Value.record, fields, texts, List.filterMap_map]

end Schema

open Schema

/-! ## Components -/

theorem ComponentType.ofName?_eq_some_iff {s : String} {t : ComponentType} :
    ofName? s = some t ↔ s = t.name := by
  constructor
  · intro named
    unfold ofName? at named
    split at named <;> cases named <;> rfl
  · rintro rfl
    cases t <;> rfl

theorem ComponentType.check_eq_ok_iff {v : Value} {t : ComponentType} :
    check v = .ok t ↔ v = .text t.name := by
  cases v with
  | text s =>
    rw [Value.text.injEq, ← ofName?_eq_some_iff]
    cases named : ofName? s <;> simp [check, named, refuse]
  | null | bool | int | float | list | map => simp [check, refuse]

/-- A value has the parts of a component as its fields; properties may be left out if there are
none. -/
@[mk_iff]
structure Component.DescribedBy (c : Component) (v : Value) : Prop where
  id : v.field? "id" = some (.text c.id)
  type : v.field? "type" = some (.text c.type.name)
  props : v.field? "props" = none ∧ c.props = [] ∨ v.field? "props" = some (.record c.props)

theorem Component.check_eq_ok_iff {v : Value} {c : Component} :
    check v = .ok c ↔ c.DescribedBy v := by
  obtain ⟨id, type, props⟩ := c
  rw [describedBy_iff]
  cases v with
  | map entries =>
    simp [check, object, Checked.part_eq_ok_iff, Checked.build_eq_ok_iff, required_eq_ok_iff,
      optional_eq_ok_iff, text_eq_ok_iff, ComponentType.check_eq_ok_iff, fields_eq_ok_iff]
  | null | bool | int | float | text | list => simp [check, object, refuse, Value.field?]

/-! ## Bindings -/

theorem Mode.check_eq_ok_iff {v : Value} {m : Mode} : check v = .ok m ↔ v = .text m.name := by
  constructor
  · intro checked
    unfold check at checked
    split at checked <;> cases checked <;> rfl
  · rintro rfl
    cases m <;> rfl

/-- A value has the parts of a binding as its fields. Of the two spellings of a property, the
hyphenated one counts if it is there. -/
@[mk_iff]
structure Binding.DescribedBy (b : Binding) (v : Value) : Prop where
  source : v.field? "source" = some (.text b.source)
  target : v.field? "target" = some (.text b.target)
  mode : v.field? "mode" = some (.text b.mode.name)
  via : OptionalText (v.field? "via") b.via
  sourceProperty : OptionalText
    ((v.field? "source-property").or (v.field? "source_property")) b.sourceProperty
  targetProperty : OptionalText
    ((v.field? "target-property").or (v.field? "target_property")) b.targetProperty

theorem Binding.checkProperty_eq_ok_iff {entries : List (Key × Value)}
    {hyphenated plain : String} {s : Option String} :
    checkProperty entries hyphenated plain = .ok s ↔ OptionalText
      (((Value.map entries).field? hyphenated).or ((Value.map entries).field? plain)) s := by
  have known : Entries.has (Key.text hyphenated) entries =
      ((Value.map entries).field? hyphenated).isSome := rfl
  rw [checkProperty, known]
  cases found : (Value.map entries).field? hyphenated with
  | none => simp [optionalText_iff]
  | some v => simp [optionalText_iff, found]

theorem Binding.check_eq_ok_iff {v : Value} {b : Binding} : check v = .ok b ↔ b.DescribedBy v := by
  obtain ⟨source, target, mode, via, sourceProperty, targetProperty⟩ := b
  rw [describedBy_iff]
  cases v with
  | map entries =>
    simp [check, object, Checked.part_eq_ok_iff, Checked.build_eq_ok_iff, required_eq_ok_iff,
      text_eq_ok_iff, Mode.check_eq_ok_iff, optionalText_iff, checkProperty_eq_ok_iff, and_assoc]
  | null | bool | int | float | text | list => simp [check, object, refuse, Value.field?]

/-! ## Documents -/

namespace Document

theorem checkSection_eq_ok_iff {α : Type} {check : Value → Checked α} {v : Value}
    {results : List α} :
    checkSection check v = .ok results ↔ ∃ items, v = .list items ∧
      List.Forall₂ (fun item result => check item = .ok result) items results := by
  cases v with
  | list items => simp [checkSection, Checked.each_eq_ok_iff]
  | null | bool | int | float | text | map => simp [checkSection, refuse]

/-- A section is a list whose items describe the parts of a document in order, or is left out if
there are none. -/
def SectionOf {α : Type} (described : Value → α → Prop) (found : Option Value) (parts : List α) :
    Prop :=
  found = none ∧ parts = [] ∨
    ∃ items, found = some (.list items) ∧ List.Forall₂ described items parts

@[mk_iff]
structure DescribedBy (document : Document) (v : Value) : Prop where
  map : v.kind = .map
  components : SectionOf (fun item c => Component.DescribedBy c item) (v.field? "components")
    document.components
  bindings : SectionOf (fun item b => Binding.DescribedBy b item) (v.field? "bindings")
    document.bindings

theorem section_eq_ok_iff {α : Type} {check : Value → Checked α} {described : Value → α → Prop}
    (checks : ∀ {v a}, check v = .ok a ↔ described v a) {entries : List (Key × Value)}
    {name : String} {parts : List α} :
    optional entries name [] (checkSection check) = .ok parts ↔
      SectionOf described ((Value.map entries).field? name) parts := by
  simp only [optional_eq_ok_iff, checkSection_eq_ok_iff, checks, SectionOf]
  refine or_congr_right ⟨?_, ?_⟩
  · rintro ⟨_, found, items, rfl, parts⟩
    exact ⟨items, found, parts⟩
  · rintro ⟨items, found, parts⟩
    exact ⟨_, found, items, rfl, parts⟩

theorem check_eq_ok_iff {v : Value} {document : Document} :
    check v = .ok document ↔ document.DescribedBy v := by
  obtain ⟨components, bindings⟩ := document
  rw [describedBy_iff]
  cases v with
  | map entries =>
    simp [check, object, Checked.part_eq_ok_iff, Checked.build_eq_ok_iff, Value.kind,
      section_eq_ok_iff Component.check_eq_ok_iff, section_eq_ok_iff Binding.check_eq_ok_iff]
  | null | bool | int | float | text | list => simp [check, object, refuse, Value.kind]

end Document
end Patchbay
