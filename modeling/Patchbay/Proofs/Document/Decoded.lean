import Patchbay.Engine.Opening
import Patchbay.Proofs.Document.Reading
import Patchbay.Proofs.Json.RoundTrip

/-!
# Documents given as texts and as values

A page document may be given as a JSON text or as a value. A value is measured by its own JSON
text and a text by itself, and from the text of a value the value is read back; so it makes no
difference which of the two is given.
-/

namespace Patchbay

/-- Keys that are texts are exact. -/
theorem Value.exact_record {fields : List (String × Value)}
    (parts : ∀ field ∈ fields, field.2.Exact) : (record fields).Exact := by
  refine .map ?_ ?_
  · simp only [List.forall_mem_map]
    exact fun field _ => .text field.1
  · simpa only [List.forall_mem_map] using parts

namespace Json

/-- A text that is a map as it stands is not repaired. -/
theorem readMapOrRepair_of_readMap {text : String} {value : Value}
    (read : readMap text = .ok value) (repair : Bool) :
    readMapOrRepair repair text = .ok value := by
  simp [readMapOrRepair, read]

theorem isEmpty_of_readMap {text : String} {value : Value} (read : readMap text = .ok value) :
    text.isEmpty = false := by
  by_contra empty
  rw [Bool.not_eq_false, String.isEmpty_iff] at empty
  subst empty
  -- nothing can be read from no text
  have refused : readMap "" = .error .malformed := rfl
  rw [refused] at read
  cases read

/-- A map with text keys and without floating point numbers has a text, from which it is read. -/
theorem own_text {v : Value} (exact_value : v.Exact) (textual : v.Textual)
    (map : v.kind = .map) : ∃ text, text? v 0 = some text ∧ readMap text = .ok v := by
  cases v with
  | map entries =>
    obtain ⟨text, written, read⟩ := readMap_text? exact_value 0
    rw [textual.reread_eq] at read
    exact ⟨text, written, read⟩
  | null | bool | int | float | text | list => cases map

end Json

namespace Document

/-- A text is read like the value that it stands for, provided it is the text of that value. -/
theorem ofText_own_text {v : Value} {text : String} (written : Json.text? v 0 = some text)
    (read : Json.readMap text = .ok v) (limits : Limits) (repair : Bool) :
    ofText limits repair text = ofValue limits v "" := by
  have given : ofText limits repair text = ofValue limits v text := by
    rw [ofText, Json.readMapOrRepair_of_readMap read]
  rw [given, ofValue_eq, ofValue_eq, Json.isEmpty_of_readMap read, written]
  rfl

/-- **It makes no difference whether a document is given as a value or as the JSON text of that
value**: both are read as the same document, or refused for the same cause; and the page that is
opened from either is the same, with the same lines in the log. The value is a map with text keys
at every depth and without floating point numbers. -/
theorem text_and_value_agree {v : Value} (exact_value : v.Exact) (textual : v.Textual)
    (map : v.kind = .map) : ∃ text, Json.text? v 0 = some text ∧
      ∀ limits, (∀ repair, ofText limits repair text = ofValue limits v "") ∧
        ∀ strict (e : Engine), e.openDocument strict (ofText limits false text) =
          e.openValue strict limits v := by
  obtain ⟨text, written, read⟩ := Json.own_text exact_value textual map
  refine ⟨text, written, fun limits => ⟨ofText_own_text written read limits, fun strict e => ?_⟩⟩
  have entries : asMap v = .ok v := by
    cases v with
    | map entries => rfl
    | null | bool | int | float | text | list => cases map
  rw [ofText_own_text written read, Engine.openValue, entries]

/-- The properties of a text box whose width does not fit 64 bits. -/
def wideProps : Value :=
  .record [("width", .int 18446744073709551616)]

def wideBox : Value :=
  .record [("id", .text "é"), ("type", .text "textbox"), ("props", wideProps)]

def wide : Value :=
  .record [("components", .list [wideBox]), ("bindings", .list [])]

theorem wide_exact : wide.Exact := by
  have props : wideProps.Exact := Value.exact_record (by simpa using .int _)
  have box : wideBox.Exact := Value.exact_record (by simpa using ⟨.text _, .text _, props⟩)
  exact Value.exact_record
    (by simpa using ⟨.list (by simpa using box), .list (List.forall_mem_nil _)⟩)

theorem wide_textual : wide.Textual := by
  have props : wideProps.Textual := .map (by decide) (by simpa using .int _)
  have box : wideBox.Textual := .map (by decide) (by simpa using ⟨.text _, .text _, props⟩)
  exact .map (by decide)
    (by simpa using ⟨.list (by simpa using box), .list (List.forall_mem_nil _)⟩)

/-- The compact layout does not take such a width, so the text names the letter by its code. -/
theorem text_and_value_agree_wide : ∃ text, Json.text? wide 0 = some text ∧
    ofText .standard false text =
      .ok ⟨[⟨"é", .textbox, [("width", .int 18446744073709551616)]⟩], []⟩ := by
  obtain ⟨text, written, agree⟩ := text_and_value_agree wide_exact wide_textual rfl
  refine ⟨text, written, ?_⟩
  have size : text.utf8ByteSize = 111 := by
    have known : (Json.text? wide 0).map String.utf8ByteSize = some 111 := by decide +kernel
    simpa [written] using known
  rw [(agree .standard).1 false, ofValue_eq, written]
  refine accept_eq_ok_iff.mpr ⟨?_, rfl, by decide⟩
  rw [checkShape, Json.checkSize, size]
  rfl

end Document
end Patchbay
