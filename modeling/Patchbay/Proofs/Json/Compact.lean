import Patchbay.Proofs.Json.RoundTrip
import Mathlib.Data.List.TakeWhile
import Mathlib.Data.String.Basic

/-!
# The compact encoding

The compact encoding of a value has no blanks outside of texts, leaves characters as they are and
escapes no more of them than JSON requires (`Json.encoding`). It is what the compact layout writes
(`Json.print?_compact`), and it is the shortest: no text from which the value is read takes fewer
bytes (`Json.encoding_least`).
-/

namespace Patchbay.Json

open String (utf8Len utf8Len_append utf8Len_cons utf8Len_nil utf8Len_toList
  utf8Len_le_of_sublist utf8Len_le_of_suffix)

/-! ## The encoding -/

/-- The letter that stands behind a backslash for a character, if the character has one and cannot
stand in a text itself. -/
def escapeLetter? : Char → Option Char
  | '"' => some '"'
  | '\\' => some '\\'
  | '\x08' => some 'b'
  | '\x0c' => some 'f'
  | '\n' => some 'n'
  | '\r' => some 'r'
  | '\t' => some 't'
  | _ => none

/-- A character of a text. The other control characters are escaped by their codes, and all else
stands for itself. -/
def encodeChar (c : Char) : List Char :=
  match escapeLetter? c with
  | some letter => ['\\', letter]
  | none =>
    if c.toNat < 0x20 then
      ['\\', 'u', '0', '0', (c.toNat / 16).digitChar, (c.toNat % 16).digitChar]
    else [c]

def encodeText (s : String) : List Char :=
  '"' :: (s.toList.flatMap encodeChar ++ ['"'])

/-- Texts between two brackets, with commas and nothing else between them. -/
def enclose (opening closing : Char) (texts : List (List Char)) : List Char :=
  opening :: ([','].intercalate texts ++ [closing])

mutual

/-- The compact encoding of a value. Floating point numbers are left out. -/
def encoding : Value → List Char
  | .null => "null".toList
  | .bool b => if b then "true".toList else "false".toList
  | .int n => (toString n).toList
  | .float _ => []
  | .text s => encodeText s
  | .list items => enclose '[' ']' (itemEncodings items)
  | .map entries => enclose '\x7b' '\x7d' (entryEncodings entries)

def itemEncodings : List Value → List (List Char)
  | [] => []
  | v :: rest => encoding v :: itemEncodings rest

def entryEncodings : List (Key × Value) → List (List Char)
  | [] => []
  | (k, v) :: rest => (encodeText k.label ++ ':' :: encoding v) :: entryEncodings rest

end

/-! ## What the compact layout writes -/

theorem escapeUnit_of_control {n : Nat} (control : n < 0x20) :
    escapeUnit n = ['\\', 'u', '0', '0', (n / 16).digitChar, (n % 16).digitChar] := by
  have all : ∀ n < 0x20,
      escapeUnit n = ['\\', 'u', '0', '0', (n / 16).digitChar, (n % 16).digitChar] := by decide
  exact all n control

theorem escape_eq (c : Char) : escape false c = encodeChar c := by
  by_cases letter : c ∈ ['"', '\\', '\n', '\r', '\t', '\x08', '\x0c']
  · simp only [List.mem_cons, List.not_mem_nil, or_false] at letter
    rcases letter with rfl | rfl | rfl | rfl | rfl | rfl | rfl <;> rfl
  · simp only [List.mem_cons, List.not_mem_nil, or_false, not_or] at letter
    have none : escapeLetter? c = none := by
      unfold escapeLetter?
      split <;> simp_all
    simp only [escape, encodeChar, none, letter, beq_iff_eq, ↓reduceIte, Bool.false_and,
      Bool.false_eq_true]
    split
    · next control => exact escapeUnit_of_control control
    · rfl

theorem printText_eq (s : String) : printText false s = encodeText s := by
  rw [printText, encodeText, funext escape_eq]

theorem bracket_compact (level : Nat) (opening closing : Char) (texts : List (List Char)) :
    bracket compact level opening closing texts = enclose opening closing texts := by
  cases texts with
  | nil => rfl
  | cons text rest => simp [bracket, enclose, compact, lineBreak]

mutual

/-- The compact layout writes the compact encoding. -/
theorem print?_compact (level : Nat) (v : Value) (exact_value : v.Exact) :
    print? compact level v = some (encoding v) := by
  match v with
  | .null => rfl
  | .bool b => cases b <;> rfl
  | .int n => rw [print?, encoding, ← ofList_integer, String.toList_ofList]
  | .float _ => cases exact_value
  | .text s => rw [print?, encoding, ← printText_eq]; rfl
  | .list items =>
    have parts : ∀ v ∈ items, v.Exact := by
      cases exact_value with
      | list parts => exact parts
    rw [print?, printItems?_compact (level + 1) items parts, Option.map_some, bracket_compact,
      encoding]
  | .map entries =>
    have parts : ∀ entry ∈ entries, entry.1.Exact ∧ entry.2.Exact := by
      cases exact_value with
      | map keys parts => exact fun entry member => ⟨keys entry member, parts entry member⟩
    rw [print?, printEntries?_compact (level + 1) entries parts, Option.map_some, bracket_compact,
      encoding]

theorem printItems?_compact (level : Nat) (items : List Value) (parts : ∀ v ∈ items, v.Exact) :
    printItems? compact level items = some (itemEncodings items) := by
  match items with
  | [] => rfl
  | v :: rest =>
    rw [List.forall_mem_cons] at parts
    rw [printItems?, print?_compact level v parts.1, printItems?_compact level rest parts.2,
      itemEncodings]

theorem printEntries?_compact (level : Nat) (entries : List (Key × Value))
    (parts : ∀ entry ∈ entries, entry.1.Exact ∧ entry.2.Exact) :
    printEntries? compact level entries = some (entryEncodings entries) := by
  match entries with
  | [] => rfl
  | (k, v) :: rest =>
    rw [List.forall_mem_cons] at parts
    obtain ⟨⟨exact_key, exact_value⟩, others⟩ := parts
    have colon : compact.colon.toList = [':'] := rfl
    have ascii : compact.ascii = false := rfl
    rw [printEntries?, keyText?_eq_label exact_key, print?_compact level v exact_value,
      printEntries?_compact level rest others, entryEncodings, colon, ascii]
    simp [printText_eq]

end

/-! ## Bytes -/

theorem length_le_utf8Len (cs : List Char) : cs.length ≤ utf8Len cs := by
  induction cs with
  | nil => exact Nat.le_refl 0
  | cons c cs ih =>
    have pos := c.utf8Size_pos
    rw [List.length_cons, utf8Len_cons]
    omega

theorem utf8Size_of_isDigit {c : Char} (digit : isDigit c = true) : c.utf8Size = 1 := by
  rw [Char.utf8Size_eq_one_iff]
  simp only [isDigit, Bool.and_eq_true, decide_eq_true_eq, Char.le_def] at digit
  exact UInt32.le_trans digit.2 (by decide)

theorem utf8Len_of_digits {cs : List Char} (digits : ∀ c ∈ cs, isDigit c = true) :
    utf8Len cs = cs.length := by
  induction cs with
  | nil => rfl
  | cons c cs ih =>
    rw [List.forall_mem_cons] at digits
    rw [utf8Len_cons, ih digits.2, utf8Size_of_isDigit digits.1, List.length_cons]

/-- No escape is longer than one by a code. -/
theorem utf8Len_encodeChar_le (c : Char) : utf8Len (encodeChar c) ≤ 6 := by
  have digit : ∀ n < 16, n.digitChar.utf8Size = 1 := by decide
  unfold encodeChar
  split
  · next letter found =>
    unfold escapeLetter? at found
    split at found <;> cases found <;> decide
  · split
    · next control =>
      simp only [utf8Len_cons, utf8Len_nil, digit (c.toNat / 16) (by omega),
        digit (c.toNat % 16) (by omega)]
      decide
    · have four := c.utf8Size_le_four
      simp only [utf8Len_cons, utf8Len_nil]
      omega

/-- What is escaped by a letter may be encoded so. -/
theorem utf8Len_encodeChar_of_unescape? {letter c : Char} (escaped : unescape? letter = some c) :
    utf8Len (encodeChar c) ≤ 2 := by
  unfold unescape? at escaped
  split at escaped <;> cases escaped <;> decide

/-- What may stand in a text is not escaped. -/
theorem encodeChar_of_visible {c : Char} (visible : 0x20 ≤ c.toNat) (quote : c ≠ '"')
    (slash : c ≠ '\\') : encodeChar c = [c] := by
  have none : escapeLetter? c = none := by
    unfold escapeLetter?
    split
    · exact absurd rfl quote
    · exact absurd rfl slash
    -- the others with a letter are control characters
    iterate 5 next => exact absurd visible (by decide)
    · rfl
  rw [encodeChar, none]
  exact if_neg (by omega)

/-- The rest of a text, with its closing quote, is encoded in no more bytes than those from `cs` to
`rest`. The characters in `read` were read before. -/
def TextFits (s : String) (read cs rest : List Char) : Prop :=
  ∃ chars, s = String.ofList (read.reverse ++ chars) ∧
    utf8Len (chars.flatMap encodeChar) + 1 + utf8Len rest ≤ utf8Len cs

theorem TextFits.mono {s : String} {read cs cs' rest : List Char}
    (fits : TextFits s read cs' rest) (shorter : utf8Len cs' ≤ utf8Len cs) :
    TextFits s read cs rest := by
  obtain ⟨chars, whole, bytes⟩ := fits
  exact ⟨chars, whole, bytes.trans shorter⟩

theorem TextFits.cons {s : String} {c : Char} {read cs cs' rest : List Char}
    (fits : TextFits s (c :: read) cs' rest)
    (bytes : utf8Len (encodeChar c) + utf8Len cs' ≤ utf8Len cs) : TextFits s read cs rest := by
  obtain ⟨chars, whole, later⟩ := fits
  refine ⟨c :: chars, by simp [whole], ?_⟩
  rw [List.flatMap_cons, utf8Len_append]
  omega

theorem six_le_utf8Len_unit (a b c d : Char) (cs : List Char) :
    6 + utf8Len cs ≤ utf8Len ('\\' :: 'u' :: a :: b :: c :: d :: cs) := by
  have six := length_le_utf8Len ['\\', 'u', a, b, c, d]
  have split : '\\' :: 'u' :: a :: b :: c :: d :: cs = ['\\', 'u', a, b, c, d] ++ cs := rfl
  rw [split, utf8Len_append]
  exact Nat.add_le_add_right six _

/-- Whatever escapes a text is written with, it takes no fewer bytes than its encoding. -/
theorem textFits_of_textRest {high : Option Nat} {read cs rest : List Char} {s : String}
    (found : textRest high read cs = some (s, rest)) : TextFits s read cs rest := by
  fun_induction textRest high read cs with
  | case1 | case2 | case4 | case6 | case9 | case10 | case12 => cases found
  | case3 read a b c d cs first n _ _ ih =>
    refine (ih found).cons ?_
    have bytes := utf8Len_encodeChar_le (joinHalves first n)
    have there := six_le_utf8Len_unit a b c d cs
    omega
  | case5 read a b c d cs n _ _ ih =>
    -- the first half of a pair is paid for by the second
    refine (ih found).mono ?_
    have there := six_le_utf8Len_unit a b c d cs
    omega
  | case7 read a b c d cs n _ _ _ ih =>
    refine (ih found).cons ?_
    have bytes := utf8Len_encodeChar_le (Char.ofNat n)
    have there := six_le_utf8Len_unit a b c d cs
    omega
  | case8 read letter cs _ c escaped ih =>
    refine (ih found).cons ?_
    have bytes := utf8Len_encodeChar_of_unescape? escaped
    have two := length_le_utf8Len ['\\', letter]
    simp only [List.length_cons, List.length_nil, utf8Len_cons, utf8Len_nil] at two ⊢
    omega
  | case11 high read c cs _ _ _ quote =>
    cases found
    obtain rfl : c = '"' := by simpa using quote
    refine ⟨[], by simp, ?_⟩
    rw [List.flatMap_nil, utf8Len_nil, utf8Len_cons]
    have one : '"'.utf8Size = 1 := rfl
    omega
  | case13 high read c cs _ _ _ other visible ih =>
    refine (ih found).cons ?_
    simp only [Bool.or_eq_true, decide_eq_true_eq, beq_iff_eq, not_or] at other visible
    rw [encodeChar_of_visible (by omega) other visible.2, utf8Len_cons, utf8Len_cons, utf8Len_nil]
    omega

/-- A text with its quotes is encoded in no more bytes than it is read from. -/
theorem encodeText_bytes {cs rest : List Char} {s : String}
    (found : textRest none [] cs = some (s, rest)) :
    utf8Len (encodeText s) + utf8Len rest ≤ utf8Len ('"' :: cs) := by
  obtain ⟨chars, whole, bytes⟩ := textFits_of_textRest found
  have quote : '"'.utf8Size = 1 := rfl
  simp only [encodeText, whole, List.reverse_nil, List.nil_append, String.toList_ofList,
    utf8Len_cons, utf8Len_append, utf8Len_nil, quote]
  omega

/-! ## Numbers -/

theorem natural_lt {ds : List Char} (digits : ∀ c ∈ ds, isDigit c = true) :
    natural ds < 10 ^ ds.length := by
  -- for whatever has been read before
  have further (n : Nat) : ds.foldl (fun n c => n * 10 + (c.toNat - 48)) n <
      (n + 1) * 10 ^ ds.length := by
    induction ds generalizing n with
    | nil => simp
    | cons c ds ih =>
      rw [List.forall_mem_cons] at digits
      have nine : c.toNat ≤ 57 := by
        have digit := digits.1
        simp only [isDigit, Bool.and_eq_true, decide_eq_true_eq, Char.le_def] at digit
        exact UInt32.le_iff_toNat_le.mp digit.2
      calc ds.foldl (fun n c => n * 10 + (c.toNat - 48)) (n * 10 + (c.toNat - 48))
          < (n * 10 + (c.toNat - 48) + 1) * 10 ^ ds.length := ih digits.2 _
        _ ≤ ((n + 1) * 10) * 10 ^ ds.length := Nat.mul_le_mul_right _ (by omega)
        _ = (n + 1) * 10 ^ (c :: ds).length := by
          rw [List.length_cons, Nat.pow_succ', Nat.mul_assoc]
  simpa [natural] using further 0

/-- No number has more digits than it is read from. -/
theorem length_digits_natural_le {ds : List Char} (digits : ∀ c ∈ ds, isDigit c = true)
    (nonempty : ds ≠ []) : (Decimal.digits (natural ds)).length ≤ ds.length :=
  (Nat.length_toDigits_le_iff (by omega) (List.length_pos_iff.mpr nonempty)).mpr (natural_lt digits)

theorem utf8Len_integer_le (negative : Bool) (n : Nat) :
    utf8Len (encoding (.int (if negative then -n else n))) ≤
      (if negative then 1 else 0) + (Decimal.digits n).length := by
  have digits : utf8Len (Decimal.digits n) = (Decimal.digits n).length :=
    utf8Len_of_digits fun c => isDigit_of_mem_digits
  have dash : '-'.utf8Size = 1 := rfl
  rw [encoding, ← ofList_integer, String.toList_ofList, Decimal.integer]
  cases negative with
  | false =>
    have sign : ¬(n : Int) < 0 := by omega
    simp [sign, digits]
  | true =>
    simp only [↓reduceIte, Int.natAbs_neg, Int.natAbs_natCast]
    split
    · rw [utf8Len_cons, digits, dash]
      omega
    · omega

theorem fraction?_suffix {cs rest : List Char} {places : Option (List Char)}
    (found : fraction? cs = some (places, rest)) : rest <:+ cs := by
  unfold fraction? at found
  split at found
  · dsimp only at found
    split at found
    · cases found
    · cases found
      exact (List.dropWhile_suffix _).trans (List.suffix_cons _ _)
  · cases found
    exact List.suffix_rfl

theorem exponent?_suffix {cs rest : List Char} {n : Option Int}
    (found : exponent? cs = some (n, rest)) : rest <:+ cs := by
  unfold exponent? at found
  split at found
  · cases found
    exact List.suffix_rfl
  next mark behind =>
    -- the digits, behind a sign or not
    have digits {negative : Bool} {after : List Char} (inside : after <:+ behind)
        (read : (if (after.takeWhile isDigit).isEmpty then none
          else some (some (if negative then -(natural (after.takeWhile isDigit) : Int)
            else natural (after.takeWhile isDigit)), after.dropWhile isDigit)) = some (n, rest)) :
        rest <:+ mark :: behind := by
      split at read
      · cases read
      · cases read
        exact ((List.dropWhile_suffix _).trans inside).trans (List.suffix_cons _ _)
    split at found
    · dsimp only at found
      split at found
      · exact digits (List.suffix_cons _ _) found
      · exact digits (List.suffix_cons _ _) found
      · exact digits List.suffix_rfl found
    · cases found
      exact List.suffix_rfl

theorem unsigned?_bytes {negative : Bool} {cs rest : List Char} {v : Value}
    (found : unsigned? negative cs = some (v, rest)) :
    utf8Len (encoding v) + utf8Len rest ≤ (if negative then 1 else 0) + utf8Len cs := by
  have whole : ∀ c ∈ cs.takeWhile isDigit, isDigit c = true := fun c => List.mem_takeWhile_imp
  have split := congrArg utf8Len (List.takeWhile_append_dropWhile (p := isDigit) (l := cs))
  rw [utf8Len_append, utf8Len_of_digits whole] at split
  unfold unsigned? at found
  dsimp only at found
  split at found
  · cases found
  next leading =>
    simp only [Option.bind_eq_bind, Option.bind_eq_some_iff] at found
    obtain ⟨⟨fraction, after⟩, first, ⟨exponent, last⟩, second, found⟩ := found
    have left := utf8Len_le_of_suffix
      ((exponent?_suffix second).trans (fraction?_suffix first))
    dsimp only at found
    split at found
    · cases found
      have nonempty : cs.takeWhile isDigit ≠ [] := by
        rintro none
        simp [none] at leading
      have fewer := length_digits_natural_le whole nonempty
      have bytes := utf8Len_integer_le negative (natural (cs.takeWhile isDigit))
      omega
    · split at found
      · cases found
      · -- nothing is counted for a floating point number
        cases found
        rw [encoding, utf8Len_nil]
        omega

theorem number?_bytes {cs rest : List Char} {v : Value} (found : number? cs = some (v, rest)) :
    utf8Len (encoding v) + utf8Len rest ≤ utf8Len cs := by
  unfold number? at found
  split at found
  · next cs =>
    have bytes := unsigned?_bytes found
    have dash : '-'.utf8Size = 1 := rfl
    rw [utf8Len_cons, dash]
    simp only [↓reduceIte] at bytes
    omega
  · simpa using unsigned?_bytes found

/-! ## Lists and maps -/

theorem itemEncodings_eq (items : List Value) : itemEncodings items = items.map encoding := by
  induction items with
  | nil => rfl
  | cons v rest ih => rw [itemEncodings, ih, List.map_cons]

theorem entryEncodings_eq (entries : List (Key × Value)) : entryEncodings entries =
    entries.map fun entry => encodeText entry.1.label ++ ':' :: encoding entry.2 := by
  induction entries with
  | nil => rfl
  | cons entry rest ih => rw [entryEncodings, ih, List.map_cons]

/-- The bytes of texts, each with a comma or a closing bracket behind it. -/
def closedBytes (texts : List (List Char)) : Nat :=
  (texts.map fun text => utf8Len text + 1).sum

theorem utf8Len_intercalate {texts : List (List Char)} (nonempty : texts ≠ []) :
    utf8Len ([','].intercalate texts) + 1 = closedBytes texts := by
  have comma : ','.utf8Size = 1 := rfl
  induction texts with
  | nil => exact absurd rfl nonempty
  | cons text rest ih =>
    cases rest with
    | nil => simp [closedBytes]
    | cons next others =>
      have later := ih (by simp)
      simp only [closedBytes, List.map_cons, List.sum_cons] at later ⊢
      simp only [List.intercalate_cons_cons, utf8Len_append, utf8Len_cons, utf8Len_nil, comma]
      omega

theorem utf8Len_enclose {opening closing : Char} (opens : opening.utf8Size = 1)
    (closes : closing.utf8Size = 1) (texts : List (List Char)) :
    utf8Len (enclose opening closing texts) = 1 + max 1 (closedBytes texts) := by
  simp only [enclose, utf8Len_cons, utf8Len_append, utf8Len_nil, opens, closes]
  by_cases nonempty : texts = []
  · subst nonempty
    rfl
  · have inside := utf8Len_intercalate nonempty
    omega

/-- The bytes of an entry with a comma or a closing bracket behind it. -/
def fieldBytes (field : String × Value) : Nat :=
  utf8Len (encodeText field.1) + 1 + utf8Len (encoding field.2) + 1

theorem fieldBytes_pos (field : String × Value) : 1 ≤ fieldBytes field :=
  Nat.succ_pos _

theorem utf8Len_record (fields : List (String × Value)) :
    utf8Len (encoding (.record fields)) = 1 + max 1 (fields.map fieldBytes).sum := by
  have colon : ':'.utf8Size = 1 := rfl
  have parts : closedBytes (entryEncodings (fields.map fun field => (.text field.1, field.2))) =
      (fields.map fieldBytes).sum := by
    rw [entryEncodings_eq, closedBytes, List.map_map, List.map_map]
    congr 1
    refine List.map_congr_left fun field _ => ?_
    simp only [Function.comp_apply, Key.label, fieldBytes, utf8Len_append, utf8Len_cons, colon]
    omega
  rw [Value.record, encoding, utf8Len_enclose rfl rfl, parts]

theorem utf8Len_list (items : List Value) : utf8Len (encoding (.list items)) =
    1 + max 1 (items.map fun v => utf8Len (encoding v) + 1).sum := by
  rw [encoding, utf8Len_enclose rfl rfl, itemEncodings_eq, closedBytes, List.map_map]
  rfl

theorem utf8Len_skip_le (cs : List Char) : utf8Len (skip cs) ≤ utf8Len cs :=
  utf8Len_le_of_suffix (List.dropWhile_suffix _)

theorem bytes_of_skip {cs after : List Char} {c : Char} (found : skip cs = c :: after) :
    utf8Len after + 1 ≤ utf8Len cs := by
  have shorter := utf8Len_skip_le cs
  have pos := c.utf8Size_pos
  rw [found, utf8Len_cons] at shorter
  omega

/-- What is read with so much fuel is encoded in no more bytes than it is read from. What has been
read before, in a list or a map, does not count. -/
structure Spends (fuel : Nat) : Prop where
  value : ∀ {cs rest : List Char} {v : Value}, value? fuel cs = some (v, rest) →
    utf8Len (encoding v) + utf8Len rest ≤ utf8Len cs
  items : ∀ {read : List Value} {cs rest : List Char} {v : Value},
    items? fuel read cs = some (v, rest) → ∃ more : List Value, v = .list (read.reverse ++ more) ∧
      max 1 (more.map fun v => utf8Len (encoding v) + 1).sum + utf8Len rest ≤ utf8Len cs
  entries : ∀ {read : List (Key × Value)} {cs rest : List Char} {v : Value},
    entries? fuel read cs = some (v, rest) → ∃ fields : List (String × Value),
      v = .ofPairs (read.reverse ++ fields.map fun field => (.text field.1, field.2)) ∧
      max 1 (fields.map fieldBytes).sum + utf8Len rest ≤ utf8Len cs

theorem Spends.zero : Spends 0 := by
  constructor
  · intro cs rest v read
    simp [value?] at read
  · intro _ cs rest v read
    simp [items?] at read
  · intro _ cs rest v read
    simp [entries?] at read

theorem literal_bytes {literal rest rest' : List Char} {v v' : Value}
    (whole : encoding v = literal) (found : some (v, rest) = some (v', rest')) :
    utf8Len (encoding v') + utf8Len rest' ≤ utf8Len (literal ++ rest) := by
  cases found
  rw [whole, utf8Len_append]

theorem Spends.value_succ {fuel : Nat} (spends : Spends fuel) {cs rest : List Char} {v : Value}
    (read : value? (fuel + 1) cs = some (v, rest)) :
    utf8Len (encoding v) + utf8Len rest ≤ utf8Len cs := by
  unfold value? at read
  split at read
  · next cs =>
    have brace : '\x7b'.utf8Size = 1 := rfl
    rw [utf8Len_cons, brace]
    split at read
    · next after found =>
      cases read
      have closed := bytes_of_skip found
      have empty := utf8Len_record []
      simp only [Value.record, List.map_nil, List.sum_nil] at empty
      omega
    · obtain ⟨fields, rfl, bytes⟩ := spends.entries read
      -- entries that are overwritten are read for nothing
      have fewer := Entries.sum_ofPairs_le fieldBytes fields
      have shorter := utf8Len_skip_le cs
      rw [List.reverse_nil, List.nil_append, Value.ofPairs_text, utf8Len_record]
      omega
  · next cs =>
    have bracket : '['.utf8Size = 1 := rfl
    rw [utf8Len_cons, bracket]
    split at read
    · next after found =>
      cases read
      have closed := bytes_of_skip found
      have empty := utf8Len_list []
      simp only [List.map_nil, List.sum_nil] at empty
      omega
    · obtain ⟨more, rfl, bytes⟩ := spends.items read
      have shorter := utf8Len_skip_le cs
      rw [List.reverse_nil, List.nil_append, utf8Len_list]
      omega
  · next cs =>
    simp only [Option.map_eq_some_iff, Prod.mk.injEq] at read
    obtain ⟨⟨s, after⟩, found, rfl, rfl⟩ := read
    exact encodeText_bytes found
  · exact literal_bytes rfl read
  · exact literal_bytes rfl read
  · exact literal_bytes rfl read
  · exact number?_bytes read

theorem Spends.items_succ {fuel : Nat} (spends : Spends fuel) {before : List Value}
    {cs rest : List Char} {v : Value} (read : items? (fuel + 1) before cs = some (v, rest)) :
    ∃ more : List Value, v = .list (before.reverse ++ more) ∧
      max 1 (more.map fun v => utf8Len (encoding v) + 1).sum + utf8Len rest ≤ utf8Len cs := by
  unfold items? at read
  split at read
  · cases read
  · next item after found =>
    have first := spends.value found
    split at read
    · next behind comma =>
      obtain ⟨more, rfl, bytes⟩ := spends.items read
      have shorter := utf8Len_skip_le behind
      have comma := bytes_of_skip comma
      refine ⟨item :: more, by simp, ?_⟩
      rw [List.map_cons, List.sum_cons]
      omega
    · next behind closed =>
      cases read
      have closed := bytes_of_skip closed
      refine ⟨[item], by simp, ?_⟩
      simp only [List.map_cons, List.map_nil, List.sum_cons, List.sum_nil]
      omega
    · cases read

theorem Spends.entries_succ {fuel : Nat} (spends : Spends fuel) {before : List (Key × Value)}
    {cs rest : List Char} {v : Value} (read : entries? (fuel + 1) before cs = some (v, rest)) :
    ∃ fields : List (String × Value),
      v = .ofPairs (before.reverse ++ fields.map fun field => (.text field.1, field.2)) ∧
      max 1 (fields.map fieldBytes).sum + utf8Len rest ≤ utf8Len cs := by
  unfold entries? at read
  split at read
  · next cs =>
    split at read
    · cases read
    · next key named found =>
      have quoted := encodeText_bytes found
      split at read
      · next behind colon =>
        have shorter := utf8Len_skip_le behind
        have colon := bytes_of_skip colon
        split at read
        · cases read
        · next item after found =>
          -- the key, a colon and the value are there, what closes the entry is yet to come
          have field : fieldBytes (key, item) + utf8Len after ≤ utf8Len ('"' :: cs) + 1 := by
            have value := spends.value found
            dsimp only [fieldBytes]
            omega
          split at read
          · next later comma =>
            obtain ⟨fields, rfl, bytes⟩ := spends.entries read
            have shorter := utf8Len_skip_le later
            have comma := bytes_of_skip comma
            refine ⟨(key, item) :: fields, by simp, ?_⟩
            rw [List.map_cons, List.sum_cons]
            omega
          · next later closed =>
            cases read
            have closed := bytes_of_skip closed
            have pos := fieldBytes_pos (key, item)
            refine ⟨[(key, item)], by simp, ?_⟩
            simp only [List.map_cons, List.map_nil, List.sum_cons, List.sum_nil]
            omega
          · cases read
      · cases read
  · cases read

theorem spends (fuel : Nat) : Spends fuel := by
  -- the three readers call one another with less fuel
  induction fuel with
  | zero => exact Spends.zero
  | succ fuel ih => exact ⟨ih.value_succ, ih.items_succ, ih.entries_succ⟩

/-! ## The least of all texts -/

theorem Reads.bytes {cs : List Char} {v : Value} (reads : Reads cs v) :
    utf8Len (encoding v) ≤ utf8Len cs := by
  have whole : value? (2 * cs.length) (cs ++ []) = some (v, []) := reads.read (by omega) Ends.nil
  rw [List.append_nil] at whole
  exact (spends _).value whole

theorem utf8Len_trim_le (cs : List Char) : utf8Len (Text.trim cs) ≤ utf8Len cs := by
  rw [Text.trim, String.utf8Len_reverse]
  calc utf8Len (((cs.dropWhile Text.isBlank).reverse).dropWhile Text.isBlank)
      ≤ utf8Len (cs.dropWhile Text.isBlank).reverse :=
        utf8Len_le_of_suffix (List.dropWhile_suffix _)
    _ = utf8Len (cs.dropWhile Text.isBlank) := String.utf8Len_reverse _
    _ ≤ utf8Len cs := utf8Len_le_of_suffix (List.dropWhile_suffix _)

/-- No text takes fewer bytes than the encoding of the map that is read from it. -/
theorem encoding_least {text : String} {v : Value} (read : readMap text = .ok v) :
    utf8Len (encoding v) ≤ text.utf8ByteSize := by
  unfold readMap at read
  split at read
  · next value found =>
    obtain rfl : value = v := by
      unfold asMap at read
      split at read <;> cases read
      rfl
    unfold read? at found
    split at found
    · next v' rest found' =>
      split at found
      · cases found
        have bytes := (spends _).value found'
        have shorter := utf8Len_skip_le (Text.trim text.toList)
        have trimmed := utf8Len_trim_le text.toList
        rw [utf8Len_toList] at trimmed
        omega
      · cases found
    · cases found
  · cases read

end Patchbay.Json
