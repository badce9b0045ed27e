import Patchbay.Store
import Patchbay.Proofs.Binding.Compiled
import Patchbay.Proofs.Document.Reading

/-!
# Which bindings read what they name

The compiler writes the source of a binding and its property into a token, and the resolver takes
the token apart again. The resolver gives back what was written in exactly if both names are
plain (`Binding.reads_source_iff`). The names that it finds are always plain, whatever the text,
so that a store in which only the named property varies tells the two apart.
-/

namespace Patchbay

/-! ## The names that tokens can hold -/

theorem Template.closing_not_mem_of_mem_cut {taken : Nat} {cs body : List Char}
    (member : body ∈ (cut taken cs).bodies) : '\x7d' ∉ body := by
  obtain ⟨part, inside, rfl⟩ := List.mem_map.mp member
  exact ((cut_exact taken cs).2.isBody part inside).2

theorem Template.head?_bodies_parse {cs body : List Char} (found : token? cs = some body) :
    (parse cs).bodies.head? = some body := by
  cases cs with
  | nil => simp [token?] at found
  | cons c rest => simp [parse, cut, found, bodies]

private theorem plain_takeWhile {cs : List Char} (within : '\x7d' ∉ cs) :
    Plain (String.ofList (cs.takeWhile (· != '.'))) := by
  have before : ∀ c ∈ cs.takeWhile (· != '.'), (c != '.') = true :=
    List.all_eq_true.mp List.all_takeWhile
  constructor
  · intro point
    simpa using before '.' (by simpa using point)
  · intro closing
    exact within ((List.takeWhile_sublist _).mem (by simpa using closing))

theorem Reference.plain_ofBody {body : List Char} (within : '\x7d' ∉ body) :
    Plain (ofBody body).widget ∧ ∀ name, (ofBody body).property = some name → Plain name := by
  refine ⟨plain_takeWhile within, fun name second => ?_⟩
  cases after : body.dropWhile (· != '.') with
  | nil => simp [ofBody, after] at second
  | cons c rest =>
    have inside : rest.Sublist body :=
      (List.sublist_cons_self c rest).trans (after ▸ List.dropWhile_sublist _)
    simp only [ofBody, after, Option.some.injEq] at second
    rw [← second]
    exact plain_takeWhile fun closing => within (inside.mem closing)

/-! ## A scope that tells one property from all others -/

/-- The context knows the source, but none of its properties; so that is where all other
references to the source end. -/
def Scope.exposing (source name shown : String) : Scope where
  context := .record [(source, .map [])]
  store := [(source, .record [(name, .text shown)])]

namespace Scope

theorem askable_exposing (source name shown : String) : (exposing source name shown).Askable :=
  .inr ⟨_, rfl⟩

theorem reading_exposing (source : String) {name : String} (filled : name ≠ "") (shown : String) :
    (exposing source name shown).reading ⟨source, some name⟩ = .text shown := by
  simp [reading, given, stored, exposing, Value.record, Value.field?, Value.property, filled,
    Entries.get?, Key.beq_text_iff, Value.isNull]

theorem reading_exposing_of_ne {source name : String} {ref : Reference}
    (other : ref ≠ ⟨source, some name⟩) (shown shown' : String) :
    (exposing source name shown).reading ref = (exposing source name shown').reading ref := by
  obtain ⟨widget, property⟩ := ref
  by_cases here : source = widget
  · subst here
    cases property with
    | none =>
      simp [reading, given, exposing, Value.record, Value.field?, Value.property, Entries.get?,
        Key.beq_text_iff, Value.isNull]
    | some q =>
      have ne : name ≠ q := fun same => other (by rw [same])
      by_cases whole : q = ""
      · simp [reading, given, exposing, Value.record, Value.field?, Value.property, whole,
          Entries.get?, Key.beq_text_iff, Value.isNull]
      · simp [reading, given, stored, exposing, Value.record, Value.field?, Value.property, whole,
          ne, Entries.get?, Key.beq_text_iff]
  · simp [reading, given, stored, exposing, Entries.get?, here]

end Scope

namespace Binding

/-- What a binding is meant to read: the property of its source in the context, or in the store if
the context has none. -/
def found (b : Binding) (store : Store) (context : Value) : Value :=
  let name := some (propertyName b.sourceProperty)
  let own := ((context.field? b.source).getD .null).property name
  if own.isNull then store.getProperty b.source name else own

/-- Resolving an argument gives the text of what a binding is meant to read, wherever it is
resolved. -/
def ReadBy (b : Binding) (arg : Value) : Prop :=
  ∀ (store : Store) (context : Value), (context = .null ∨ ∃ entries, context = .map entries) →
    (Scope.resolve ⟨context, store.values⟩ arg).outcome =
      (b.found store context).toText.map .text

theorem readBy_of_plain {b : Binding} (source : Plain b.source)
    (property : Plain (propertyName b.sourceProperty)) : b.ReadBy (.text b.expression) := by
  intro store context askable
  have askable : Scope.Askable ⟨context, store.values⟩ := askable
  rw [Scope.resolve_outcome askable, fill_expression source property]
  rfl

theorem ne_reference_of_mem {b : Binding}
    (bad : ¬(Plain b.source ∧ Plain (propertyName b.sourceProperty))) {body : List Char}
    (member : body ∈ (Value.text b.expression).tokens) : Reference.ofBody body ≠ b.reference := by
  intro same
  obtain ⟨widget, property⟩ :=
    Reference.plain_ofBody (Template.closing_not_mem_of_mem_cut member)
  rw [same] at widget property
  exact bad ⟨widget, property _ rfl⟩

/-- A name that is not plain is in no token, so no text depends on what is stored under it. -/
theorem plain_of_readBy {b : Binding} (read : b.ReadBy (.text b.expression)) :
    Plain b.source ∧ Plain (propertyName b.sourceProperty) := by
  by_contra bad
  have filled := propertyName_ne_empty b.sourceProperty
  -- the same text for every value that the source may have
  have outcome (shown : String) : (Value.text b.expression).fill
      (Scope.exposing b.source (propertyName b.sourceProperty) shown).reading =
        .ok (.text shown) := by
    rw [← Scope.resolve_outcome (Scope.askable_exposing _ _ shown)]
    have given := read ⟨[(b.source, .record [(propertyName b.sourceProperty, .text shown)])], []⟩
      (.record [(b.source, .map [])]) (.inr ⟨_, rfl⟩)
    have value := Scope.reading_exposing b.source filled shown
    exact given.trans (congrArg (fun v => v.toText.map Value.text) value)
  have same := Value.fill_congr (.text b.expression) fun body member =>
    Scope.reading_exposing_of_ne (ne_reference_of_mem bad member) "0" "1"
  rw [outcome, outcome] at same
  simp at same

/-! ## Names with a point -/

/-- The part of a name before its first point. -/
def upToPoint (name : String) : String :=
  String.ofList (name.toList.takeWhile (· != '.'))

private theorem takeWhile_point_append (front rest : List Char) :
    (front ++ '.' :: rest).takeWhile (· != '.') = front.takeWhile (· != '.') := by
  induction front with
  | nil => simp
  | cons c front ih =>
    by_cases point : c = '.'
    · simp [point]
    · simp [point, ih]

/-- The first token begins with the source, but only the part before the first point counts. -/
theorem head_referencedIds {b : Binding} (within : '\x7d' ∉ b.source.toList) :
    (Value.text b.expression).referencedIds.head? = some (upToPoint b.source) := by
  have inside : ∀ c ∈ b.source.toList, (c != '\x7d') = true := by
    intro c member
    simp only [bne_iff_ne, ne_eq]
    rintro rfl
    exact within member
  -- the token ends in the property, or behind it
  obtain ⟨rest, found⟩ : ∃ rest, Template.token? (Template.token
      (b.source.toList ++ '.' :: (propertyName b.sourceProperty).toList)) =
        some (b.source.toList ++ '.' :: rest) := by
    simp [Template.token, Template.token?, List.takeWhile_append_of_pos inside,
      List.dropWhile_append_of_pos inside]
  have first := Template.head?_bodies_parse found
  simp only [Value.referencedIds, expression, String.toList_ofList, List.head?_map, first,
    Option.map_some, Reference.ofBody, takeWhile_point_append, upToPoint]

/-- A binding becomes a single rule with a single argument. That argument reads what the binding
names if and only if the names are plain; a source with a point is never looked up itself. -/
theorem reads_source_iff (b : Binding) : ∃ type name arg,
    compile false [b] = .ok [⟨b.trigger, [⟨type, b.target, [(name, arg)]⟩]⟩] ∧
    (b.ReadBy arg ↔ Plain b.source ∧ Plain (propertyName b.sourceProperty)) ∧
    ('.' ∈ b.source.toList → b.source ∉ arg.referencedIds) ∧
    ('\x7d' ∉ b.source.toList → arg.referencedIds.head? = some (upToPoint b.source)) := by
  refine ⟨b.action.type, b.argumentName, .text b.expression, ?_, ?_, fun dotted => ?_,
    head_referencedIds⟩
  · simp [compile, rule, ← action_target, ← action_args]
  · exact ⟨plain_of_readBy, fun plain => readBy_of_plain plain.1 plain.2⟩
  · rw [Value.referencedIds_eq]
    intro member
    obtain ⟨body, token, own⟩ := List.mem_map.mp member
    have plain := (Reference.plain_ofBody (Template.closing_not_mem_of_mem_cut token)).1
    rw [own] at plain
    exact plain.1 dotted

/-- A page with a point in an id. -/
def northDocument : Document where
  components := [⟨"room.north", .textbox, []⟩, ⟨"title", .textbox, []⟩]
  bindings := [⟨"room.north", "title", .direct, none, none, none⟩]

/-- The page is read, and its binding asks for another widget than the one that it names. -/
theorem reads_source_iff_north : northDocument.Reads ∧ ∃ b arg,
    northDocument.bindings = [b] ∧ (∃ type name,
      compile false [b] = .ok [⟨b.trigger, [⟨type, b.target, [(name, arg)]⟩]⟩]) ∧
    ¬b.ReadBy arg ∧ "room.north" ∉ arg.referencedIds ∧
    arg.referencedIds.head? = some "room" := by
  have reads : northDocument.Reads := by
    have checked : Document.check northDocument.toValue = .ok northDocument := by rfl
    exact Document.reads_of_check (by decide +kernel) checked rfl rfl (by decide +kernel)
  obtain ⟨type, name, arg, compiled, iff, never, head⟩ :=
    reads_source_iff ⟨"room.north", "title", .direct, none, none, none⟩
  exact ⟨reads, _, arg, rfl, ⟨type, name, compiled⟩, fun read => (iff.mp read).1.1 (by decide),
    never (by decide), head (by decide)⟩

end Binding
end Patchbay
