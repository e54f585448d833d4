import PaperFolding.Proofs.Json.Rereading

/-!
All the ways to write a JSON text: with white space between the tokens, with or without escapes, with any
form of a number. Each of them is read as the value it lays out.
-/

namespace PaperFolding.Json

/-! ## White space -/

inductive Blank where
  | space
  | tab
  | lineFeed
  | carriageReturn
deriving DecidableEq, Repr

def Blank.char : Blank → Char
  | space => ' '
  | tab => '\t'
  | lineFeed => '\n'
  | carriageReturn => '\r'

abbrev Gap := List Blank

def Gap.chars (gap : Gap) : List Char := gap.map Blank.char

theorem Blank.isBlank_char (blank : Blank) : isBlank blank.char = true := by
  cases blank <;> rfl

theorem skipBlank_gap (gap : Gap) (text : List Char) :
    skipBlank (gap.chars ++ text) = skipBlank text := by
  apply List.dropWhile_append_of_pos
  intro c among
  obtain ⟨blank, -, rfl⟩ := List.mem_map.1 among
  exact blank.isBlank_char

/-- Behind the white space the text goes on with what can be seen. -/
theorem skipBlank_gap_of_visible {c : Char} (visible : isBlank c = false) (gap : Gap)
    (text : List Char) : skipBlank (gap.chars ++ c :: text) = c :: text := by
  rw [skipBlank_gap]
  exact List.dropWhile_cons_of_neg (by simp [visible])

theorem value?_gap (fuel : Nat) (gap : Gap) (text : List Char) :
    value? fuel (gap.chars ++ text) = value? fuel text := by
  cases fuel with
  | zero => rfl
  | succ fuel => rw [value?, value?, skipBlank_gap]

/-- White space does not go on with a number. -/
theorem Closes.gap {text : List Char} (closes : Closes text) (gap : Gap) :
    Closes (gap.chars ++ text) := by
  cases gap with
  | nil => exact closes
  | cons blank gap =>
      have first : ∀ c ∈ ((Gap.chars (blank :: gap)) ++ text).head?, c = blank.char :=
        fun c among => (Option.some.inj among).symm
      constructor
      · intro c among
        rw [first c among]
        cases blank <;> decide
      · intro c among
        rw [first c among]
        cases blank <;> decide

/-! ## Numbers -/

inductive Sign where
  | none
  | plus
  | minus
deriving DecidableEq, Repr

namespace Sign

def chars : Sign → List Char
  | none => []
  | plus => ['+']
  | minus => ['-']

def apply (sign : Sign) (n : Nat) : Int :=
  match sign with
  | minus => -n
  | _ => n

end Sign

/-- The exponent of a number, with a small or a large letter. -/
structure Exponent where
  large : Bool
  sign : Sign
  digits : List Char
  legal : Digits digits

namespace Exponent

def chars (exponent : Exponent) : List Char :=
  (if exponent.large then 'E' else 'e') :: (exponent.sign.chars ++ exponent.digits)

def value (exponent : Exponent) : Int := exponent.sign.apply (Text.digitsValue exponent.digits)

end Exponent

def exponentSpelled : Option Exponent → List Char
  | none => []
  | some exponent => exponent.chars

/-- A number with any digits JSON allows, padded and signed in the exponent as one likes. -/
structure Numeral where
  negative : Bool
  whole : List Char
  fraction : Option (List Char)
  exponent : Option Exponent
  legal : Number.Legal ⟨negative, whole, fraction, none⟩

namespace Numeral

def chars (numeral : Numeral) : List Char :=
  (if numeral.negative then ['-'] else []) ++
    (numeral.whole ++ (Number.fractionChars numeral.fraction ++ exponentSpelled numeral.exponent))

def value (numeral : Numeral) : Number :=
  ⟨numeral.negative, numeral.whole, numeral.fraction, numeral.exponent.map Exponent.value⟩

end Numeral

variable {rest : List Char}

theorem exponent?_signed {letter : Char} (marks : letter = 'e' ∨ letter = 'E') (sign : Sign)
    {digits : List Char} (legal : Digits digits) (closes : Closes rest) :
    exponent? (letter :: (sign.chars ++ (digits ++ rest))) =
      some (some (sign.apply (Text.digitsValue digits)), rest) := by
  obtain ⟨taken, left⟩ := span_digits legal.2 fun c first => (closes.1 c first).1
  obtain ⟨c, others, rfl⟩ := List.exists_cons_of_ne_nil legal.1
  have digit : Text.isDigit c = true := legal.2 c (List.mem_cons_self ..)
  cases sign with
  | plus =>
      simp only [Sign.chars, List.cons_append, List.nil_append] at taken left ⊢
      simp only [exponent?, marks, if_true, taken, left]
      rfl
  | minus =>
      simp only [Sign.chars, List.cons_append, List.nil_append] at taken left ⊢
      simp only [exponent?, marks, if_true, taken, left]
      rfl
  | none =>
      simp only [Sign.chars, List.cons_append, List.nil_append] at taken left ⊢
      rw [exponent?]
      · simp only [marks, if_true, taken, left]
        rfl
      all_goals
        rintro body same
        obtain ⟨rfl, -⟩ := List.cons.inj same
        exact absurd digit (by decide)

theorem exponent?_spelled (closes : Closes rest) (exponent : Option Exponent) :
    exponent? (exponentSpelled exponent ++ rest) = some (exponent.map Exponent.value, rest) := by
  cases exponent with
  | none => exact exponent?_chars closes none
  | some exponent =>
      rw [exponentSpelled, Exponent.chars, List.cons_append, List.append_assoc]
      refine exponent?_signed ?_ exponent.sign exponent.legal closes
      cases exponent.large
      · exact .inl rfl
      · exact .inr rfl

theorem undigited_spelled (closes : Closes rest) (exponent : Option Exponent) :
    Undigited (exponentSpelled exponent ++ rest) := by
  cases exponent with
  | none => exact closes.1
  | some exponent =>
      intro c first
      obtain rfl : (if exponent.large then 'E' else 'e') = c := Option.some.inj first
      cases exponent.large <;> decide

theorem number?_numeral (numeral : Numeral) (closes : Closes rest) :
    number? (numeral.chars ++ rest) = some (numeral.value, rest) := by
  rw [Numeral.chars, List.append_assoc, List.append_assoc, List.append_assoc]
  exact number?_of_parts numeral.legal (undigited_spelled closes numeral.exponent)
    (exponent?_spelled closes numeral.exponent)

theorem Numeral.exists_first (numeral : Numeral) :
    ∃ c tail, numeral.chars = c :: tail ∧ (c = '-' ∨ Text.isDigit c = true) := by
  obtain ⟨negative, whole, fraction, exponent, legal⟩ := numeral
  obtain ⟨c, places, rfl⟩ := List.exists_cons_of_ne_nil legal.whole.1
  cases negative with
  | true => exact ⟨'-', _, rfl, .inl rfl⟩
  | false => exact ⟨c, _, rfl, .inr (legal.whole.2 c (List.mem_cons_self ..))⟩

/-! ## Texts -/

/-- The escapes of one letter. -/
inductive Mark where
  | quote
  | backslash
  | slash
  | backspace
  | formFeed
  | lineFeed
  | carriageReturn
  | tab
deriving DecidableEq, Repr

namespace Mark

def char : Mark → Char
  | quote => '\"'
  | backslash => '\\'
  | slash => '/'
  | backspace => 'b'
  | formFeed => 'f'
  | lineFeed => 'n'
  | carriageReturn => 'r'
  | tab => 't'

def meaning : Mark → Char
  | quote => '\"'
  | backslash => '\\'
  | slash => '/'
  | backspace => '\x08'
  | formFeed => '\x0c'
  | lineFeed => '\n'
  | carriageReturn => '\r'
  | tab => '\t'

end Mark

structure HexDigit where
  large : Bool
  value : Fin 16
deriving DecidableEq, Repr

def HexDigit.char (digit : HexDigit) : Char :=
  if digit.large then (Nat.digitChar digit.value).toUpper else Nat.digitChar digit.value

theorem hexDigit?_char (digit : HexDigit) : hexDigit? digit.char = some digit.value.val := by
  have every : ∀ (large : Bool) (value : Fin 16),
      hexDigit? (HexDigit.char ⟨large, value⟩) = some value.val := by decide
  exact every digit.large digit.value

/-- One character of a text as it may be written. -/
inductive Stroke where
  | plain (c : Char) (quote : c ≠ '\"') (slash : c ≠ '\\') (visible : ¬ c.toNat < 0x20)
  | escaped (mark : Mark)
  | unit (a b c d : HexDigit)

namespace Stroke

def chars : Stroke → List Char
  | plain c _ _ _ => [c]
  | escaped mark => ['\\', mark.char]
  | unit a b c d => ['\\', 'u', a.char, b.char, c.char, d.char]

def piece : Stroke → Piece
  | plain c _ _ _ => .plain c
  | escaped mark => .plain mark.meaning
  | unit a b c d => .unit (((a.value * 16 + b.value.val) * 16 + c.value) * 16 + d.value)

theorem yields (stroke : Stroke) : Yields stroke.chars stroke.piece := by
  cases stroke with
  | plain c quote slash visible => exact yields_plain quote slash visible
  | escaped mark => exact yields_escaped (by cases mark <;> rfl) (by cases mark <;> decide)
  | unit a b c d =>
      intro rest
      simp only [chars, List.cons_append, List.nil_append, pieces?, hexDigit?_char, bind,
        Option.bind_some, Option.map_eq_bind]
      rfl

end Stroke

/-- A text after its opening quote. -/
def strokeChars (strokes : List Stroke) : List Char := strokes.flatMap Stroke.chars ++ ['\"']

def strokeText (strokes : List Stroke) : Option String :=
  (decode? (strokes.map Stroke.piece)).map String.ofList

theorem quoted?_strokes (strokes : List Stroke) (rest : List Char) :
    quoted? (strokeChars strokes ++ rest) = some (strokeText strokes, rest) := by
  have read : pieces? (strokeChars strokes ++ rest) = some (strokes.map Stroke.piece, rest) := by
    induction strokes with
    | nil => rfl
    | cons stroke strokes induction =>
        rw [strokeChars, List.flatMap_cons, List.append_assoc, List.append_assoc, stroke.yields,
          ← List.append_assoc, ← strokeChars, induction]
        rfl
  rw [quoted?, read]
  rfl

/-! ## Values -/

/-- The name of a field with the white space around it. -/
structure Label where
  front : Gap
  name : List Stroke
  back : Gap

mutual

inductive Layout where
  | null
  | bool (value : Bool)
  | number (numeral : Numeral)
  | text (strokes : List Stroke)
  | emptyList (gap : Gap)
  | list (items : Items)
  | emptyObject (gap : Gap)
  | object (fields : Fields)

inductive Items where
  | last (front : Gap) (item : Layout) (back : Gap)
  | more (front : Gap) (item : Layout) (back : Gap) (items : Items)

inductive Fields where
  | last (label : Label) (front : Gap) (value : Layout) (back : Gap)
  | more (label : Label) (front : Gap) (value : Layout) (back : Gap) (fields : Fields)

end

def Label.chars (label : Label) : List Char :=
  label.front.chars ++ '\"' :: (strokeChars label.name ++ (label.back.chars ++ [':']))

mutual

def Layout.chars : Layout → List Char
  | .null => ['n', 'u', 'l', 'l']
  | .bool true => ['t', 'r', 'u', 'e']
  | .bool false => ['f', 'a', 'l', 's', 'e']
  | .number numeral => numeral.chars
  | .text strokes => '\"' :: strokeChars strokes
  | .emptyList gap => '[' :: (gap.chars ++ [']'])
  | .list items => '[' :: items.chars
  | .emptyObject gap => '\x7b' :: (gap.chars ++ ['\x7d'])
  | .object fields => '\x7b' :: fields.chars

def Items.chars : Items → List Char
  | .last front item back => front.chars ++ (item.chars ++ (back.chars ++ [']']))
  | .more front item back items =>
      front.chars ++ (item.chars ++ (back.chars ++ ',' :: items.chars))

def Fields.chars : Fields → List Char
  | .last label front value back =>
      label.chars ++ (front.chars ++ (value.chars ++ (back.chars ++ ['\x7d'])))
  | .more label front value back fields =>
      label.chars ++ (front.chars ++ (value.chars ++ (back.chars ++ ',' :: fields.chars)))

end

mutual

def Layout.value : Layout → Json
  | .null => .null
  | .bool value => .bool value
  | .number numeral => .number numeral.value
  | .text strokes => .text (strokeText strokes)
  | .emptyList _ => .list []
  | .list items => .list items.values
  | .emptyObject _ => .object []
  | .object fields => .object fields.values

def Items.values : Items → List Json
  | .last _ item _ => [item.value]
  | .more _ item _ items => item.value :: items.values

def Fields.values : Fields → List (Option String × Json)
  | .last label _ value _ => [(strokeText label.name, value.value)]
  | .more label _ value _ fields => (strokeText label.name, value.value) :: fields.values

end

/-- What a laid out value begins with is neither blank nor the end of a list. -/
theorem Layout.exists_first (layout : Layout) :
    ∃ c tail, layout.chars = c :: tail ∧ isBlank c = false ∧ c ≠ ']' := by
  cases layout with
  | number numeral =>
      obtain ⟨c, tail, written, first⟩ := numeral.exists_first
      obtain ⟨visible, inhabited, -⟩ := inside_of_sign_or_digit first
      exact ⟨c, tail, by rw [chars, written], visible, inhabited⟩
  | null => exact ⟨'n', _, rfl, by decide⟩
  | bool value => cases value <;> exact ⟨_, _, rfl, by decide⟩
  | text strokes => exact ⟨'\"', _, rfl, by decide⟩
  | emptyList gap => exact ⟨'[', _, rfl, by decide⟩
  | list items => exact ⟨'[', _, rfl, by decide⟩
  | emptyObject gap => exact ⟨'\x7b', _, rfl, by decide⟩
  | object fields => exact ⟨'\x7b', _, rfl, by decide⟩

theorem Items.exists_found (items : Items) (rest : List Char) :
    ∃ c tail, skipBlank (items.chars ++ rest) = c :: tail ∧ c ≠ ']' := by
  have found (front : Gap) (item : Layout) (tail : List Char) :
      ∃ c others, skipBlank (front.chars ++ (item.chars ++ tail)) = c :: others ∧ c ≠ ']' := by
    obtain ⟨c, others, written, visible, inhabited⟩ := item.exists_first
    refine ⟨c, others ++ tail, ?_, inhabited⟩
    rw [written, List.cons_append, skipBlank_gap_of_visible visible]
  cases items with
  | last front item back =>
      rw [chars, List.append_assoc, List.append_assoc]
      exact found front item _
  | more front item back items =>
      rw [chars, List.append_assoc, List.append_assoc]
      exact found front item _

theorem skipBlank_label (label : Label) (rest : List Char) :
    skipBlank (label.chars ++ rest) =
      '\"' :: (strokeChars label.name ++ (label.back.chars ++ ':' :: rest)) := by
  rw [Label.chars, List.append_assoc, List.cons_append, skipBlank_gap_of_visible rfl,
    List.append_assoc, List.append_assoc]
  rfl

theorem Fields.exists_found (fields : Fields) (rest : List Char) :
    ∃ tail, skipBlank (fields.chars ++ rest) = '\"' :: tail := by
  cases fields with
  | last label front value back =>
      rw [chars, List.append_assoc]
      exact ⟨_, skipBlank_label label _⟩
  | more label front value back fields =>
      rw [chars, List.append_assoc]
      exact ⟨_, skipBlank_label label _⟩

theorem closes_end {c : Char} (ends : c = ']' ∨ c = '\x7d') (text : List Char) :
    Closes (c :: text) := by
  rcases ends with rfl | rfl
  all_goals
    exact ⟨fun _ first => Option.some.inj first ▸ ⟨rfl, by decide⟩,
      fun _ first => Option.some.inj first ▸ by decide⟩

theorem Label.length_chars (label : Label) : 3 ≤ label.chars.length := by
  simp only [chars, strokeChars, List.length_append, List.length_cons, List.length_nil]
  omega

theorem value?_numeral (numeral : Numeral) (fuel : Nat) (closes : Closes rest) :
    value? (fuel + 1) (numeral.chars ++ rest) = some (.number numeral.value, rest) := by
  obtain ⟨c, tail, written, first⟩ := numeral.exists_first
  have reads := number?_numeral numeral closes
  rw [written, List.cons_append] at reads ⊢
  exact value?_of_number first reads fuel

theorem value?_strokes (strokes : List Stroke) (fuel : Nat) (rest : List Char) :
    value? (fuel + 1) ('\"' :: (strokeChars strokes ++ rest)) =
      some (.text (strokeText strokes), rest) := by
  rw [value?]
  show (quoted? _).map _ = _
  rw [quoted?_strokes, Option.map_some]

theorem value?_emptyList (gap : Gap) (fuel : Nat) (rest : List Char) :
    value? (fuel + 1) ('[' :: (gap.chars ++ ']' :: rest)) = some (.list [], rest) := by
  have opened : skipBlank ('[' :: (gap.chars ++ ']' :: rest)) = '[' :: (gap.chars ++ ']' :: rest) :=
    rfl
  have found : skipBlank (gap.chars ++ ']' :: rest) = ']' :: rest := skipBlank_gap_of_visible rfl ..
  simp only [value?, opened, found]

theorem value?_emptyObject (gap : Gap) (fuel : Nat) (rest : List Char) :
    value? (fuel + 1) ('\x7b' :: (gap.chars ++ '\x7d' :: rest)) = some (.object [], rest) := by
  have opened : skipBlank ('\x7b' :: (gap.chars ++ '\x7d' :: rest)) =
      '\x7b' :: (gap.chars ++ '\x7d' :: rest) := rfl
  have found : skipBlank (gap.chars ++ '\x7d' :: rest) = '\x7d' :: rest :=
    skipBlank_gap_of_visible rfl ..
  simp only [value?, opened, found]

mutual

/-- Two units of fuel for each character are enough: the reader of a value and the one of the items or fields
around it take one each. -/
theorem value?_layout (layout : Layout) {fuel : Nat} {rest : List Char} (closes : Closes rest)
    (enough : 2 * layout.chars.length < fuel) :
    value? fuel (layout.chars ++ rest) = some (layout.value, rest) := by
  obtain ⟨fuel, rfl⟩ : ∃ less, fuel = less + 1 := ⟨fuel - 1, by omega⟩
  match layout with
  | .null => rfl
  | .bool true => rfl
  | .bool false => rfl
  | .number numeral => exact value?_numeral numeral fuel closes
  | .text strokes => exact value?_strokes strokes fuel rest
  | .emptyList gap =>
      rw [Layout.chars, List.cons_append, List.append_assoc]
      exact value?_emptyList gap fuel rest
  | .list items =>
      obtain ⟨c, tail, found, inhabited⟩ := items.exists_found rest
      have read := @items?_layout items fuel rest (by
        simp only [Layout.chars, List.length_cons] at enough
        omega)
      rw [Layout.chars, List.cons_append, value?_list found inhabited, read]
      rfl
  | .emptyObject gap =>
      rw [Layout.chars, List.cons_append, List.append_assoc]
      exact value?_emptyObject gap fuel rest
  | .object fields =>
      obtain ⟨tail, found⟩ := fields.exists_found rest
      have read := @fields?_layout fields fuel rest (by
        simp only [Layout.chars, List.length_cons] at enough
        omega)
      rw [Layout.chars, List.cons_append, value?_object found (by decide), read]
      rfl

theorem items?_layout (items : Items) {fuel : Nat} {rest : List Char}
    (enough : 2 * items.chars.length < fuel) :
    items? fuel (items.chars ++ rest) = some (items.values, rest) := by
  obtain ⟨fuel, rfl⟩ : ∃ less, fuel = less + 1 := ⟨fuel - 1, by omega⟩
  match items with
  | .last front item back =>
      simp only [Items.chars, List.length_append, List.length_cons, List.length_nil] at enough
      have read := @value?_layout item fuel _ ((closes_end (.inl rfl) rest).gap back) (by omega)
      have found : skipBlank (back.chars ++ ']' :: rest) = ']' :: rest :=
        skipBlank_gap_of_visible rfl ..
      simp only [Items.chars, List.append_assoc, List.cons_append, List.nil_append]
      rw [items?, value?_gap, read]
      simp only [bind, Option.bind_some, found]
      rfl
  | .more front item back items =>
      simp only [Items.chars, List.length_append, List.length_cons] at enough
      have read := @value?_layout item fuel _ ((closes_comma (items.chars ++ rest)).gap back)
        (by omega)
      have found : skipBlank (back.chars ++ ',' :: (items.chars ++ rest)) =
          ',' :: (items.chars ++ rest) := skipBlank_gap_of_visible rfl ..
      have more := @items?_layout items fuel rest (by omega)
      simp only [Items.chars, List.append_assoc, List.cons_append]
      rw [items?, value?_gap, read]
      simp only [bind, Option.bind_some, found, more]
      rfl

theorem fields?_layout (fields : Fields) {fuel : Nat} {rest : List Char}
    (enough : 2 * fields.chars.length < fuel) :
    fields? fuel (fields.chars ++ rest) = some (fields.values, rest) := by
  obtain ⟨fuel, rfl⟩ : ∃ less, fuel = less + 1 := ⟨fuel - 1, by omega⟩
  match fields with
  | .last label front value back =>
      have named := label.length_chars
      simp only [Fields.chars, List.length_append, List.length_cons, List.length_nil] at enough
      have read := @value?_layout value fuel _ ((closes_end (.inr rfl) rest).gap back) (by omega)
      have found : skipBlank (back.chars ++ '\x7d' :: rest) = '\x7d' :: rest :=
        skipBlank_gap_of_visible rfl ..
      have colon (tail : List Char) : skipBlank (label.back.chars ++ ':' :: tail) = ':' :: tail :=
        skipBlank_gap_of_visible rfl ..
      simp only [Fields.chars, List.append_assoc, List.cons_append, List.nil_append]
      rw [fields?, skipBlank_label]
      simp only [quoted?_strokes, bind, Option.bind_some, colon, value?_gap, read, found]
      rfl
  | .more label front value back fields =>
      have named := label.length_chars
      simp only [Fields.chars, List.length_append, List.length_cons] at enough
      have read := @value?_layout value fuel _ ((closes_comma (fields.chars ++ rest)).gap back)
        (by omega)
      have found : skipBlank (back.chars ++ ',' :: (fields.chars ++ rest)) =
          ',' :: (fields.chars ++ rest) := skipBlank_gap_of_visible rfl ..
      have colon (tail : List Char) : skipBlank (label.back.chars ++ ':' :: tail) = ':' :: tail :=
        skipBlank_gap_of_visible rfl ..
      have more := @fields?_layout fields fuel rest (by omega)
      simp only [Fields.chars, List.append_assoc, List.cons_append]
      rw [fields?, skipBlank_label]
      simp only [quoted?_strokes, bind, Option.bind_some, colon, value?_gap, read, found, more]
      rfl

end

/-! ## Whole texts -/

/-- A JSON text, with white space at both ends. -/
structure Page where
  front : Gap
  body : Layout
  back : Gap

namespace Page

def text (page : Page) : String :=
  String.ofList (page.front.chars ++ (page.body.chars ++ page.back.chars))

def value (page : Page) : Json := page.body.value

end Page

/-- However a value is laid out, it is read. -/
theorem read?_page (page : Page) : read? page.text = some page.value := by
  have stops : Closes [] := ⟨nofun, nofun⟩
  have ends := stops.gap page.back
  have spare := skipBlank_gap page.back []
  rw [List.append_nil] at ends spare
  have read (fuel : Nat) (enough : 2 * page.body.chars.length < fuel) :=
    value?_layout page.body ends enough
  simp only [read?, Page.text, String.toList_ofList, value?_gap, bind]
  rw [read _ (by simp only [List.length_append]; omega)]
  simp only [Option.bind_some, spare]
  rfl

end PaperFolding.Json
