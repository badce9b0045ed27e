import Patchbay.Binding
import Patchbay.Proofs.Resolve.Filling
import Patchbay.Proofs.Resolve.Pieces
import Mathlib.Data.List.TakeWhile

/-!
# What compiled bindings stand for

The template of a binding is a single token, provided that the names in it are plain. It is
replaced by the text of the property of the source that the binding names
(`Binding.fillAll_action`). The trigger of a direct binding is that of its source, and no other
(`Binding.trigger_eq_iff`).
-/

namespace Patchbay

/-! ## Templates of a single token -/

namespace Template

theorem parse_token {body : List Char} (filled : body ≠ []) (within : '\x7d' ∉ body) :
    parse (token body) = ⟨[], [(body, [])]⟩ := by
  have whole : print ⟨[], [(body, [])]⟩ = token body := by simp [print]
  exact Decomposes.parse_eq ⟨whole, bare_nil _, ⟨filled, within⟩, bare_nil _, trivial⟩

end Template

/-- A name that is one part of a token: it has no point and no closing brace. -/
def Plain (name : String) : Prop :=
  '.' ∉ name.toList ∧ '\x7d' ∉ name.toList

theorem Reference.ofBody_join {widget property : String} (plain : Plain widget)
    (plain' : Plain property) :
    ofBody (widget.toList ++ '.' :: property.toList) = ⟨widget, some property⟩ := by
  have before {name : String} (plain : Plain name) : ∀ c ∈ name.toList, (c != '.') = true := by
    intro c member
    simp only [bne_iff_ne, ne_eq]
    rintro rfl
    exact plain.1 member
  have whole : property.toList.takeWhile (· != '.') = property.toList :=
    List.takeWhile_eq_self_iff.mpr (before plain')
  simp only [ofBody, List.takeWhile_append_of_pos (before plain),
    List.dropWhile_append_of_pos (before plain)]
  simp [whole]

namespace Binding

/-! ## The expression -/

theorem propertyName_ne_empty (given : Option String) : propertyName given ≠ "" := by
  unfold propertyName
  dsimp only
  split
  · decide
  · next filled =>
    intro empty
    rw [empty] at filled
    exact filled rfl

theorem plain_propertyName {given : Option String} (plain : Plain (Text.trimmed (given.getD ""))) :
    Plain (propertyName given) := by
  unfold propertyName
  dsimp only
  split
  · constructor <;> decide
  · exact plain

/-- The property of a source that a binding reads. -/
def reference (b : Binding) : Reference :=
  ⟨b.source, some (propertyName b.sourceProperty)⟩

/-- The argument that the action of a binding gives. -/
def argumentName (b : Binding) : String :=
  if propertyName b.targetProperty = "text" then "text" else "value"

theorem fill_expression {b : Binding} (source : Plain b.source)
    (property : Plain (propertyName b.sourceProperty)) (read : Reading) :
    (Value.text b.expression).fill read = (read b.reference).toText.map .text := by
  have filled : b.source.toList ++ '.' :: (propertyName b.sourceProperty).toList ≠ [] := by simp
  have within : '\x7d' ∉ b.source.toList ++ '.' :: (propertyName b.sourceProperty).toList := by
    simp [source.2, property.2]
  have parsed := Template.parse_token filled within
  have refers := Reference.ofBody_join source property
  simp only [Value.fill, expression, String.toList_ofList, parsed, Template.fill,
    Template.fillParts, refers, reference]
  cases (read ⟨b.source, some (propertyName b.sourceProperty)⟩).toText with
  | error fault => rfl
  | ok text => simp [bind, Except.bind, pure, Except.pure, Except.map]

theorem action_args (b : Binding) : b.action.args = [(b.argumentName, .text b.expression)] := by
  unfold action argumentName
  split <;> rfl

theorem action_target (b : Binding) : b.action.target = b.target := by
  unfold action
  split <;> rfl

theorem action_type (b : Binding) : b.action.type =
    if propertyName b.targetProperty = "text" then "setText" else "setValue" := by
  unfold action
  split <;> rfl

/-- The action of a binding gives the text of the property that the binding reads. -/
theorem fillAll_action {b : Binding} (source : Plain b.source)
    (property : Plain (propertyName b.sourceProperty)) (read : Reading) :
    Value.fillAll read b.action.args =
      (read b.reference).toText.map fun text => [(b.argumentName, .text text)] := by
  simp only [action_args, Value.fillAll, fill_expression source property]
  cases (read b.reference).toText with
  | error fault => rfl
  | ok text => rfl

/-! ## The trigger -/

/-- A binding that a change of a widget sets off. -/
def Follows (b : Binding) (id : String) : Prop :=
  b.mode = .direct ∧ b.source = id

instance (b : Binding) (id : String) : Decidable (b.Follows id) :=
  inferInstanceAs (Decidable (_ ∧ _))

private theorem append_eq_append_iff (s t event other : String) : s ++ event = t ++ other ↔
    s.toList ++ event.toList = t.toList ++ other.toList := by
  rw [← String.toList_append, ← String.toList_append, String.toList_inj]

theorem trigger_eq_iff (b : Binding) (id : String) :
    b.trigger = s!"{id}.onChange" ↔ b.Follows id := by
  unfold Follows trigger
  cases b.mode with
  | direct =>
    simp only [toString, append_eq_append_iff, true_and]
    rw [List.append_left_inj, String.toList_inj]
  | indirect =>
    -- the two events have the same number of letters, and differ in the last but four
    simp only [toString, append_eq_append_iff, reduceCtorEq, false_and, iff_false]
    intro same
    have reversed := congrArg List.reverse same
    simp at reversed

/-- A click sets off the indirect bindings that name the widget, and also those that name none if
the widget is called `None`. -/
theorem trigger_eq_click_iff (b : Binding) (id : String) :
    b.trigger = s!"{id}.onClick" ↔ b.mode = .indirect ∧ b.via.getD "None" = id := by
  unfold trigger
  cases b.mode with
  | direct =>
    simp only [toString, append_eq_append_iff, reduceCtorEq, false_and, iff_false]
    intro same
    have reversed := congrArg List.reverse same
    simp at reversed
  | indirect =>
    simp only [toString, append_eq_append_iff, true_and]
    rw [List.append_left_inj, String.toList_inj]

end Binding
end Patchbay
