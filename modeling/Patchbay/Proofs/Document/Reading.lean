import Patchbay.Proofs.Document.Shapes
import Patchbay.Proofs.Document.SharedIds
import Patchbay.Proofs.Json.Encodable

/-!
# Documents that have been read

A page document is made of encodable values, in whichever way it was read
(`Document.Reads.encodable`): a text only has text keys, and a value that is no text is refused if
it has no JSON text.
-/

namespace Patchbay

theorem Component.DescribedBy.encodable {c : Component} {v : Value} (described : c.DescribedBy v)
    (encodable : v.Encodable) : (Value.record c.props).Encodable := by
  rcases described.props with ⟨-, none⟩ | found
  · rw [none]
    exact Value.encodable_record (List.forall_mem_nil _)
  · exact encodable.field? found

namespace Document

/-- All properties of all components are encodable. -/
def Encodable (document : Document) : Prop :=
  ∀ c ∈ document.components, (Value.record c.props).Encodable

/-- A document has been read from a text, or from a value that has no text of its own. -/
inductive Reads (document : Document) : Prop
  | text (limits : Limits) (repair : Bool) (text : String)
    (read : ofText limits repair text = .ok document)
  | value (limits : Limits) (value : Value) (read : ofValue limits value "" = .ok document)

theorem check_encodable {v : Value} (encodable : v.Encodable) {document : Document}
    (checked : check v = .ok document) : document.Encodable := by
  intro c member
  rcases (check_eq_ok_iff.mp checked).components with ⟨-, none⟩ | ⟨items, found, described⟩
  · rw [none] at member
    cases member
  · obtain ⟨item, inside, own⟩ := exists_of_forall₂ described member
    have parts := (Value.encodable_list_iff items).mp (encodable.field? found)
    exact own.encodable (parts item inside)

/-- Reads a document whose JSON text is known. -/
def accept (limits : Limits) (value : Value) (text : String) : Except Invalid Document :=
  match checkShape limits value text with
  | .error cause => .error cause
  | .ok () => match check value with
    | .error issues => .error (.document issues)
    | .ok document =>
      let shared := sharedIds (document.components.map Component.id)
      if shared.isEmpty then .ok document else .error (.sharedIds shared)

/-- A value that comes without a text is accepted with its own, if it has one. -/
theorem ofValue_eq (limits : Limits) (value : Value) (text : String) :
    ofValue limits value text = if text.isEmpty then
        match Json.text? value 0 with
        | some text => accept limits value text
        | none => .error .documentKeys
      else accept limits value text := by
  unfold ofValue accept
  cases text.isEmpty with
  | false =>
    simp only [Bool.false_eq_true, ↓reduceIte, pure_bind]
    cases checkShape limits value text <;> rfl
  | true =>
    cases Json.text? value 0 with
    | none => rfl
    | some text =>
      simp only [↓reduceIte, pure_bind]
      cases checkShape limits value text <;> rfl

theorem accept_eq_ok_iff {limits : Limits} {value : Value} {text : String} {document : Document} :
    accept limits value text = .ok document ↔ checkShape limits value text = .ok () ∧
      check value = .ok document ∧ (document.components.map Component.id).Nodup := by
  rw [← sharedIds_isEmpty_iff]
  unfold accept
  cases checkShape limits value text with
  | error cause => simp
  | ok =>
    cases check value with
    | error issues => simp
    | ok read =>
      by_cases distinct : (sharedIds (read.components.map Component.id)).isEmpty = true
      · simp only [distinct, ↓reduceIte, Except.ok.injEq, true_and, iff_self_and]
        rintro rfl
        exact distinct
      · simp only [distinct, Bool.false_eq_true, ↓reduceIte, reduceCtorEq, Except.ok.injEq,
          true_and, false_iff, not_and]
        rintro rfl
        exact distinct

theorem accepted_of_ofValue {limits : Limits} {value : Value} {text : String} {document : Document}
    (read : ofValue limits value text = .ok document) :
    (∃ size, accept limits value size = .ok document) ∧ (text = "" → value.Encodable) := by
  rw [ofValue_eq] at read
  split at read
  · -- a value without a text is refused for its keys
    cases named : Json.text? value 0 with
    | none =>
      rw [named] at read
      cases read
    | some text' =>
      rw [named] at read
      refine ⟨⟨text', read⟩, fun _ tupled => ?_⟩
      rw [(Json.text?_eq_none_iff value 0).mpr tupled] at named
      cases named
  next full =>
    refine ⟨⟨text, read⟩, ?_⟩
    rintro rfl
    exact absurd rfl full

theorem check_of_ofValue {limits : Limits} {value : Value} {text : String} {document : Document}
    (read : ofValue limits value text = .ok document) :
    check value = .ok document ∧ (text = "" → value.Encodable) := by
  obtain ⟨⟨size, accepted⟩, encodable⟩ := accepted_of_ofValue read
  exact ⟨(accept_eq_ok_iff.mp accepted).2.1, encodable⟩

theorem distinct_of_ofValue {limits : Limits} {value : Value} {text : String} {document : Document}
    (read : ofValue limits value text = .ok document) :
    (document.components.map Component.id).Nodup := by
  obtain ⟨⟨size, accepted⟩, -⟩ := accepted_of_ofValue read
  exact (accept_eq_ok_iff.mp accepted).2.2

theorem distinct_of_ofText {limits : Limits} {repair : Bool} {text : String} {document : Document}
    (read : ofText limits repair text = .ok document) :
    (document.components.map Component.id).Nodup := by
  unfold ofText at read
  split at read
  · cases read
  · exact distinct_of_ofValue read

/-- No two components of a document that has been read share an id. -/
theorem Reads.distinct {document : Document} (reads : document.Reads) :
    (document.components.map Component.id).Nodup := by
  cases reads with
  | value limits value read => exact distinct_of_ofValue read
  | text limits repair text read => exact distinct_of_ofText read

/-- Whatever a document was read from, it is encodable. -/
theorem Reads.encodable {document : Document} (reads : document.Reads) : document.Encodable := by
  cases reads with
  | value limits value read =>
    obtain ⟨checked, encodable⟩ := check_of_ofValue read
    exact check_encodable (encodable rfl) checked
  | text limits repair text read =>
    unfold ofText at read
    split at read
    · cases read
    · next value found =>
      exact check_encodable (Json.readMapOrRepair_encodable found) (check_of_ofValue read).1

/-- A value with a text and both sections that passes its check is read under limits that are wide
enough. -/
theorem reads_of_check {value : Value} {document : Document} {components bindings : List Value}
    (written : (Json.text? value 0).isSome = true) (checked : check value = .ok document)
    (first : value.field? "components" = some (.list components))
    (second : value.field? "bindings" = some (.list bindings))
    (distinct : (sharedIds (document.components.map Component.id)).isEmpty = true) :
    document.Reads := by
  obtain ⟨text, named⟩ := Option.isSome_iff_exists.mp written
  -- limits that the document reaches exactly
  refine .value ⟨text.utf8ByteSize, Json.height value⟩ value ?_
  have shape : checkShape ⟨text.utf8ByteSize, Json.height value⟩ value text = .ok () := by
    simp only [checkShape, Json.checkSize, Json.checkDepth, checkHasSection, first, second,
      Int.lt_irrefl, ↓reduceIte]
    rfl
  simp only [ofValue, named, bind, Except.bind, pure, Except.pure, shape, checked, distinct]
  rfl

end Document
end Patchbay
