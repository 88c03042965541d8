import Mathlib.Data.List.Basic
import QueryPaging.Json.Reading
import QueryPaging.Json.Writing
import QueryPaging.Proofs.StringText

/-!
# JSON written and read

A value that was written as compact text is read back from it, unless it holds a decimal or a text
that spells nothing: of these only part is kept.

- `Json.number?_integer`: integers, up to where their digits end.
- `Json.textBody?_flatMap_escape`: what stands between quotes.
- `Json.IsExact.roundTrips`: a value in front of whatever may stand behind it.
- `Json.IsExact.ofText?_render`: whole texts.
-/

namespace QueryPaging

/-! ## Digits -/

namespace Decimal

theorem magnitude_toDigits (n : Nat) :
    magnitude (Nat.toDigits 10 n) = n := by
  have value := Nat.ofDigitChars_ten_toDigits (n := n)
  rw [Nat.ofDigitChars_eq_foldl] at value
  rw [magnitude]
  simpa only [Nat.mul_comm] using value

theorem isDigit_of_mem_toDigits {n : Nat} {c : Char}
    (member : c ∈ Nat.toDigits 10 n) :
    c.isDigit = true :=
  Nat.isDigit_of_mem_toDigits (by decide) (by decide) member

/-- Zero is not written in front of other digits. -/
theorem head?_toDigits {n : Nat}
    (opensZero : (Nat.toDigits 10 n).head? = some '0') :
    n = 0 := by
  induction n using Nat.base_induction 10 (by decide) with
  | single digit small =>
      rw [Nat.toDigits_of_lt_base small, List.head?_cons, Option.some.injEq] at opensZero
      have digits : ∀ digit < 10, Nat.digitChar digit = '0' → digit = 0 := by decide
      exact digits digit small opensZero
  | digit high low small positive inductionHypothesis =>
      rw [← Nat.toDigits_append_toDigits (by decide) positive small,
        List.head?_append_of_ne_nil _ Nat.toDigits_ne_nil] at opensZero
      have noHigh := inductionHypothesis opensZero
      omega

end Decimal

namespace Json

/-! ## Integers -/

/-- What may stand behind a number without going on with it. -/
def EndsNumber (rest : List Char) : Prop :=
  ∀ c, rest.head? = some c → c.isDigit = false ∧ c ≠ '.' ∧ c ≠ 'e' ∧ c ≠ 'E'

theorem someDigits?_toDigits (n : Nat) {rest : List Char}
    (ends : EndsNumber rest) :
    someDigits? (Nat.toDigits 10 n ++ rest) = some (Nat.toDigits 10 n, rest) := by
  have all : ∀ c ∈ Nat.toDigits 10 n, c.isDigit = true :=
    fun _ member => Decimal.isDigit_of_mem_toDigits member
  have nothing : rest.takeWhile Char.isDigit = [] ∧ rest.dropWhile Char.isDigit = rest := by
    cases rest with
    | nil => exact ⟨rfl, rfl⟩
    | cons c others =>
        have noDigit : ¬ c.isDigit = true := by simp [(ends c rfl).1]
        exact ⟨List.takeWhile_cons_of_neg noDigit, List.dropWhile_cons_of_neg noDigit⟩
  have nonempty : (Nat.toDigits 10 n).isEmpty = false := by
    simp [Nat.toDigits_ne_nil]
  simp only [someDigits?, List.takeWhile_append_of_pos all, List.dropWhile_append_of_pos all,
    nothing, List.append_nil, nonempty, Bool.false_eq_true, if_false]

theorem decimalPart?_of_endsNumber {rest : List Char}
    (ends : EndsNumber rest) :
    decimalPart? rest = some ([], rest) := by
  cases rest with
  | nil => rfl
  | cons c others =>
      obtain ⟨_, noPoint, noSmall, noCapital⟩ := ends c rfl
      have noExponent : ¬ (c = 'e' ∨ c = 'E') := by simp [noSmall, noCapital]
      unfold decimalPart?
      split
      · next opening => exact absurd (List.cons.inj opening).1 noPoint
      · simp only [Option.pure_def, Option.bind_eq_bind, Option.bind_some, if_neg noExponent]

/-- Digits behind a sign, if they open with no sign, are told from it. -/
theorem sign_of_digits {sign digits : List Char} (rest : List Char)
    (isSign : sign = [] ∨ sign = ['-'])
    (nonempty : digits ≠ [])
    (noSign : digits.head? ≠ some '-') :
    ((sign ++ (digits ++ rest)).take 1).filter (· == '-') = sign := by
  rcases isSign with rfl | rfl
  · obtain ⟨first, others, rfl⟩ := List.exists_cons_of_ne_nil nonempty
    have differs : (first == '-') = false := by simpa using noSign
    simp [differs]
  · rfl

theorem head?_toDigits_ne (n : Nat) :
    (Nat.toDigits 10 n).head? ≠ some '-' := by
  intro opens
  have isDigit := Decimal.isDigit_of_mem_toDigits (List.mem_of_head? opens)
  cases isDigit

/-- Digits without a zero too many make up an integer, behind a sign only if they are not zero. -/
theorem number?_digits {sign rest : List Char} (n : Nat)
    (isSign : sign = [] ∨ sign = ['-'])
    (notZero : sign ≠ [] → n ≠ 0)
    (ends : EndsNumber rest) :
    number? (sign ++ (Nat.toDigits 10 n ++ rest)) =
      some (.integer (Decimal.integer (sign ++ Nat.toDigits 10 n)), rest) := by
  have canonical : ¬ ((Nat.toDigits 10 n).head? = some '0' ∧ 1 < (Nat.toDigits 10 n).length) := by
    rintro ⟨opensZero, long⟩
    rw [Decimal.head?_toDigits opensZero] at long
    exact absurd long (by decide)
  have whole : sign ++ Nat.toDigits 10 n ≠ ['-', '0'] := by
    intro same
    rcases isSign with rfl | rfl
    · rw [List.nil_append] at same
      apply head?_toDigits_ne n
      rw [same]
      rfl
    · have digits : Nat.toDigits 10 n = ['0'] := (List.cons.inj same).2
      have opensZero : (Nat.toDigits 10 n).head? = some '0' := by
        rw [digits]
        rfl
      exact notZero (List.cons_ne_nil _ _) (Decimal.head?_toDigits opensZero)
  have signed := sign_of_digits rest isSign Nat.toDigits_ne_nil (head?_toDigits_ne n)
  simp only [number?, signed, List.drop_left, someDigits?_toDigits n ends, Option.bind_eq_bind,
    Option.bind_some, if_neg canonical, decimalPart?_of_endsNumber ends, Option.pure_def,
    List.isEmpty_nil, ne_eq, whole, not_false_eq_true, and_self, if_true]

theorem toList_toString (value : Int) :
    (toString value).toList =
      if 0 ≤ value then Nat.toDigits 10 value.toNat
      else '-' :: Nat.toDigits 10 (-value).toNat := by
  rw [Int.toString_eq_repr, Int.repr_eq_if]
  split <;> simp

theorem integer_toDigits (n : Nat) :
    Decimal.integer (Nat.toDigits 10 n) = n := by
  rw [Decimal.integer, Decimal.magnitude_toDigits]
  rintro digits same
  exact head?_toDigits_ne n (by rw [same]; rfl)

/-- An integer is read up to its last digit. -/
theorem number?_integer (value : Int) {rest : List Char}
    (ends : EndsNumber rest) :
    number? ((toString value).toList ++ rest) = some (.integer value, rest) := by
  rw [toList_toString]
  by_cases positive : 0 ≤ value
  · have read := number?_digits value.toNat (.inl rfl) (fun signed => absurd rfl signed) ends
    rw [if_pos positive]
    rw [List.nil_append, List.nil_append, integer_toDigits, Int.toNat_of_nonneg positive] at read
    exact read
  · have read := number?_digits (-value).toNat (.inr rfl) (fun _ => by omega) ends
    have negated : -((-value).toNat : Int) = value := by omega
    rw [if_neg positive]
    rw [List.singleton_append, List.singleton_append, Decimal.integer,
      Decimal.magnitude_toDigits, negated] at read
    exact read

/-! ## Between quotes -/

/-- A character stands for itself, or behind a backslash for what is read there. -/
theorem escape_cases (c : Char) :
    (escape c = [c] ∧ c ≠ '"' ∧ c ≠ '\\' ∧ ¬ c.toNat < 0x20) ∨
      ∃ code, escape c = '\\' :: code ∧
        ∀ rest, escape? (code ++ rest) = some (some c, code.length) := by
  unfold escape
  split
  · next same => exact .inr ⟨['"'], rfl, fun _ => by rw [same]; rfl⟩
  split
  · next same => exact .inr ⟨['\\'], rfl, fun _ => by rw [same]; rfl⟩
  split
  · next same => exact .inr ⟨['b'], rfl, fun _ => by rw [same]; rfl⟩
  split
  · next same => exact .inr ⟨['f'], rfl, fun _ => by rw [same]; rfl⟩
  split
  · next same => exact .inr ⟨['n'], rfl, fun _ => by rw [same]; rfl⟩
  split
  · next same => exact .inr ⟨['r'], rfl, fun _ => by rw [same]; rfl⟩
  split
  · next same => exact .inr ⟨['t'], rfl, fun _ => by rw [same]; rfl⟩
  split
  · next control =>
      refine .inr ⟨_, rfl, fun rest => ?_⟩
      rw [List.cons_append, escape?, Escape.units?_fourDigits rest (.inl rfl) control]
      rfl
  · next noQuote noBackslash _ _ _ _ _ plain => exact .inl ⟨rfl, noQuote, noBackslash, plain⟩

theorem textBody?_escape (c : Char) (text : List Char) :
    textBody? (escape c ++ text) =
      (textBody? text).map fun read => (read.1.map (c :: ·), read.2) := by
  rcases escape_cases c with ⟨plain, noQuote, noBackslash, noControl⟩ | ⟨code, escaped, read⟩
  · rw [plain, List.singleton_append, textBody?]
    · rw [if_neg noControl]
      cases textBody? text <;> rfl
    · exact noQuote
    · exact noBackslash
  · rw [escaped, List.cons_append, textBody?, read]
    simp only [Option.bind_eq_bind, Option.bind_some, List.drop_left]
    cases textBody? text with
    | none => rfl
    | some result =>
        obtain ⟨body, rest⟩ := result
        cases body <;> rfl

theorem textBody?_flatMap_escape (text rest : List Char) :
    textBody? (text.flatMap escape ++ '"' :: rest) = some (some text, rest) := by
  induction text with
  | nil => rw [List.flatMap_nil, List.nil_append, textBody?]
  | cons c text inductionHypothesis =>
      rw [List.flatMap_cons, List.append_assoc, textBody?_escape, inductionHypothesis]
      rfl

/-! ## Values -/

/-- A value that holds no decimal and no text that spells nothing. -/
inductive IsExact : Json → Prop where
  | null : IsExact .null
  | boolean (truth : Bool) : IsExact (.boolean truth)
  | integer (value : Int) : IsExact (.integer value)
  | string (text : String) : IsExact (.string text)
  | array {items : List Json} (exact : ∀ item ∈ items, IsExact item) : IsExact (.array items)
  | object {entries : List (String × Json)} (exact : ∀ entry ∈ entries, IsExact entry.2) :
      IsExact (.object entries)

/-- That a value is read from its text, whatever stands behind it. -/
def RoundTrips (value : Json) : Prop :=
  ∀ fuel rest, value.render.toList.length ≤ fuel → EndsNumber rest →
    value? fuel (value.render.toList ++ rest) = some (value, rest)

/-- Texts with a comma between each two. -/
def commaSeparated (texts : List (List Char)) : List Char :=
  List.intercalate [','] texts

theorem commaSeparated_singleton (text : List Char) :
    commaSeparated [text] = text := by
  simp [commaSeparated, List.intercalate]

theorem commaSeparated_cons (text : List Char) {others : List (List Char)}
    (more : others ≠ []) :
    commaSeparated (text :: others) = text ++ ',' :: commaSeparated others := by
  obtain ⟨second, others, rfl⟩ := List.exists_cons_of_ne_nil more
  rw [commaSeparated, List.intercalate_cons_cons, List.append_assoc]
  rfl

def itemText (item : Json) : List Char :=
  item.render.toList

def entryText (entry : String × Json) : List Char :=
  (quote entry.1).toList ++ ':' :: entry.2.render.toList

theorem toList_quote (text : String) :
    (quote text).toList = '"' :: (text.toList.flatMap escape ++ ['"']) := by
  rw [quote, String.toList_ofList, List.cons_append]

theorem toList_render_array (items : List Json) :
    (Json.array items).render.toList =
      '[' :: (commaSeparated (items.map itemText) ++ [']']) := by
  have texts : renderItems items = items.map render := by
    induction items with
    | nil => rfl
    | cons item items inductionHypothesis => rw [renderItems, inductionHypothesis, List.map_cons]
  rw [render, texts, String.toList_append, String.toList_append, String.toList_intercalate,
    List.map_map]
  rfl

theorem toList_render_object (entries : List (String × Json)) :
    (Json.object entries).render.toList =
      '{' :: (commaSeparated (entries.map entryText) ++ ['}']) := by
  have texts : (renderEntries entries).map String.toList = entries.map entryText := by
    induction entries with
    | nil => rfl
    | cons entry entries inductionHypothesis =>
        rw [renderEntries, List.map_cons, inductionHypothesis, List.map_cons, entryText,
          String.toList_append, String.toList_append, List.append_assoc]
        rfl
  rw [render, String.toList_append, String.toList_append, String.toList_intercalate, texts]
  rfl

theorem skipBlanks_cons {c : Char} (rest : List Char)
    (notBlank : isBlank c = false) :
    skipBlanks (c :: rest) = c :: rest :=
  List.dropWhile_cons_of_neg (by simp [notBlank])

theorem endsNumber_cons {c : Char} (rest : List Char)
    (ends : c = ',' ∨ c = ']' ∨ c = '}') :
    EndsNumber (c :: rest) := by
  intro other first
  obtain rfl : c = other := Option.some.inj first
  rcases ends with rfl | rfl | rfl <;> decide

theorem ne_of_opensInteger {c d : Char}
    (opens : c.isDigit = true ∨ c = '-')
    (noDigit : d.isDigit = false)
    (noSign : d ≠ '-') :
    c ≠ d := by
  rintro rfl
  rcases opens with digit | sign
  · rw [digit] at noDigit
    cases noDigit
  · exact noSign sign

theorem isBlank_of_opensInteger {c : Char}
    (opens : c.isDigit = true ∨ c = '-') :
    isBlank c = false := by
  simp only [isBlank, Bool.or_eq_false_iff, beq_eq_false_iff_ne]
  refine ⟨⟨⟨?_, ?_⟩, ?_⟩, ?_⟩
  all_goals exact ne_of_opensInteger opens (by decide) (by decide)

/-- What opens like an integer is read as a number. -/
theorem value?_number {c : Char} (fuel : Nat) (rest : List Char)
    (opens : c.isDigit = true ∨ c = '-') :
    value? (fuel + 1) (c :: rest) = number? (c :: rest) := by
  have apart : ∀ {d : Char} {others : List Char}, d.isDigit = false → d ≠ '-' →
      c :: rest ≠ d :: others :=
    fun noDigit noSign opening =>
      ne_of_opensInteger opens noDigit noSign (List.cons.inj opening).1
  rw [value?, skipBlanks_cons rest (isBlank_of_opensInteger opens)]
  split
  · next opening => exact absurd opening (apart (by decide) (by decide))
  · next opening => exact absurd opening (apart (by decide) (by decide))
  · next opening => exact absurd opening (apart (by decide) (by decide))
  · next opening => exact absurd opening (apart (by decide) (by decide))
  · next opening => exact absurd opening (apart (by decide) (by decide))
  · next opening => exact absurd opening (apart (by decide) (by decide))
  · rfl

theorem exists_head_toString (value : Int) :
    ∃ c others, (toString value).toList = c :: others ∧ (c.isDigit = true ∨ c = '-') := by
  rw [toList_toString]
  by_cases positive : 0 ≤ value
  · rw [if_pos positive]
    obtain ⟨c, others, digits⟩ :=
      List.exists_cons_of_ne_nil (Nat.toDigits_ne_nil : Nat.toDigits 10 value.toNat ≠ [])
    have member : c ∈ Nat.toDigits 10 value.toNat := by
      rw [digits]
      exact List.mem_cons_self
    exact ⟨c, others, digits, .inl (Decimal.isDigit_of_mem_toDigits member)⟩
  · rw [if_neg positive]
    exact ⟨_, _, rfl, .inr rfl⟩

/-- The text of a value opens with no blank and with no bracket that closes. -/
theorem IsExact.exists_head {value : Json}
    (exact : IsExact value) :
    ∃ c others, value.render.toList = c :: others ∧ isBlank c = false ∧ c ≠ ']' := by
  cases exact with
  | null => exact ⟨_, _, rfl, by decide⟩
  | boolean truth =>
      cases truth with
      | false => exact ⟨_, _, rfl, by decide⟩
      | true => exact ⟨_, _, rfl, by decide⟩
  | integer value =>
      obtain ⟨c, others, text, opens⟩ := exists_head_toString value
      refine ⟨c, others, ?_, isBlank_of_opensInteger opens,
        ne_of_opensInteger opens (by decide) (by decide)⟩
      rw [render, text]
  | string text => exact ⟨_, _, toList_quote text, by decide⟩
  | array => exact ⟨_, _, toList_render_array _, by decide⟩
  | object => exact ⟨_, _, toList_render_object _, by decide⟩

/-! ## Items and entries -/

theorem items?_commaSeparated {items : List Json} {fuel : Nat} (rest : List Char)
    (roundTrip : ∀ item ∈ items, RoundTrips item)
    (nonempty : items ≠ [])
    (enough : (commaSeparated (items.map itemText)).length < fuel) :
    items? fuel (commaSeparated (items.map itemText) ++ ']' :: rest) = some (items, rest) := by
  induction items generalizing fuel with
  | nil => exact absurd rfl nonempty
  | cons item others inductionHypothesis =>
      obtain ⟨more, rfl⟩ : ∃ more, fuel = more + 1 := ⟨fuel - 1, by omega⟩
      have here := roundTrip item List.mem_cons_self more
      rw [← itemText] at here
      by_cases last : others = []
      · subst last
        rw [List.map_singleton, commaSeparated_singleton] at enough ⊢
        rw [items?, here (']' :: rest) (by omega) (endsNumber_cons rest (by decide))]
        rfl
      · have moreTexts : others.map itemText ≠ [] := mt List.map_eq_nil_iff.mp last
        rw [List.map_cons, commaSeparated_cons _ moreTexts] at enough ⊢
        rw [List.length_append, List.length_cons] at enough
        have behind : items? more (commaSeparated (others.map itemText) ++ ']' :: rest) =
            some (others, rest) :=
          inductionHypothesis
            (fun other member => roundTrip other (List.mem_cons_of_mem item member)) last (by omega)
        rw [List.append_assoc, List.cons_append, items?,
          here _ (by omega) (endsNumber_cons _ (by decide))]
        simp only [Option.bind_eq_bind, Option.bind_some,
          skipBlanks_cons _ (by decide : isBlank ',' = false), behind]
        rfl

theorem entryText_append (entry : String × Json) (rest : List Char) :
    entryText entry ++ rest =
      '"' :: (entry.1.toList.flatMap escape ++ '"' :: ':' :: (entry.2.render.toList ++ rest)) := by
  simp [entryText, toList_quote]

theorem entries?_commaSeparated {entries : List (String × Json)} {fuel : Nat} (rest : List Char)
    (roundTrip : ∀ entry ∈ entries, RoundTrips entry.2)
    (nonempty : entries ≠ [])
    (enough : (commaSeparated (entries.map entryText)).length < fuel) :
    entries? fuel (commaSeparated (entries.map entryText) ++ '}' :: rest) =
      some (some entries, rest) := by
  induction entries generalizing fuel with
  | nil => exact absurd rfl nonempty
  | cons entry others inductionHypothesis =>
      obtain ⟨more, rfl⟩ : ∃ more, fuel = more + 1 := ⟨fuel - 1, by omega⟩
      have shorter : entry.2.render.toList.length < (entryText entry).length := by
        rw [entryText, List.length_append, List.length_cons]
        omega
      have here := roundTrip entry List.mem_cons_self more
      by_cases last : others = []
      · subst last
        rw [List.map_singleton, commaSeparated_singleton] at enough ⊢
        have value := here ('}' :: rest) (by omega) (endsNumber_cons rest (by decide))
        rw [entryText_append, entries?, skipBlanks_cons _ (by decide)]
        simp only [textBody?_flatMap_escape, Option.bind_eq_bind, Option.bind_some,
          skipBlanks_cons _ (by decide : isBlank ':' = false), value, Option.map_some,
          String.ofList_toList]
        rfl
      · have moreTexts : others.map entryText ≠ [] := mt List.map_eq_nil_iff.mp last
        rw [List.map_cons, commaSeparated_cons _ moreTexts] at enough ⊢
        rw [List.length_append, List.length_cons] at enough
        have behind : entries? more (commaSeparated (others.map entryText) ++ '}' :: rest) =
            some (some others, rest) :=
          inductionHypothesis
            (fun other member => roundTrip other (List.mem_cons_of_mem entry member)) last
            (by omega)
        have value := here (',' :: (commaSeparated (others.map entryText) ++ '}' :: rest))
          (by omega) (endsNumber_cons _ (by decide))
        rw [List.append_assoc, List.cons_append, entryText_append, entries?,
          skipBlanks_cons _ (by decide)]
        simp only [textBody?_flatMap_escape, Option.bind_eq_bind, Option.bind_some,
          skipBlanks_cons _ (by decide : isBlank ':' = false), value, Option.map_some,
          String.ofList_toList, skipBlanks_cons _ (by decide : isBlank ',' = false), behind]
        rfl

/-! ## Whole texts -/

theorem roundTrips_integer (value : Int) :
    RoundTrips (.integer value) := by
  intro fuel rest enough ends
  obtain ⟨c, others, text, opens⟩ := exists_head_toString value
  have read := number?_integer value ends
  rw [render] at enough ⊢
  rw [text, List.length_cons] at enough
  obtain ⟨more, rfl⟩ : ∃ more, fuel = more + 1 := ⟨fuel - 1, by omega⟩
  rw [text, List.cons_append] at read ⊢
  rw [value?_number more _ opens, read]

theorem roundTrips_string (text : String) :
    RoundTrips (.string text) := by
  intro fuel rest enough ends
  rw [render, toList_quote] at enough ⊢
  rw [List.length_cons] at enough
  obtain ⟨more, rfl⟩ : ∃ more, fuel = more + 1 := ⟨fuel - 1, by omega⟩
  rw [List.cons_append, List.append_assoc, List.singleton_append, value?,
    skipBlanks_cons _ (by decide)]
  simp only [textBody?_flatMap_escape, Option.bind_eq_bind, Option.bind_some, ofBody,
    String.ofList_toList]
  rfl

theorem exists_commaSeparated_cons (c : Char) (text : List Char) (texts : List (List Char)) :
    ∃ more, commaSeparated ((c :: text) :: texts) = c :: more := by
  by_cases last : texts = []
  · rw [last, commaSeparated_singleton]
    exact ⟨text, rfl⟩
  · rw [commaSeparated_cons _ last]
    exact ⟨_, rfl⟩

theorem roundTrips_array {items : List Json}
    (exact : ∀ item ∈ items, IsExact item)
    (roundTrip : ∀ item ∈ items, RoundTrips item) :
    RoundTrips (.array items) := by
  intro fuel rest enough ends
  rw [toList_render_array] at enough ⊢
  rw [List.length_cons, List.length_append, List.length_singleton] at enough
  obtain ⟨more, rfl⟩ : ∃ more, fuel = more + 1 := ⟨fuel - 1, by omega⟩
  rw [List.cons_append, List.append_assoc, List.singleton_append, value?,
    skipBlanks_cons _ (by decide)]
  cases items with
  | nil => rfl
  | cons item others =>
      have read := items?_commaSeparated rest roundTrip (List.cons_ne_nil item others)
        (by omega : _ < more)
      obtain ⟨c, text, opening, notBlank, notClosing⟩ := (exact item List.mem_cons_self).exists_head
      obtain ⟨behind, joined⟩ := exists_commaSeparated_cons c text (others.map itemText)
      rw [List.map_cons, itemText, opening, joined, List.cons_append] at read ⊢
      simp only [skipBlanks_cons _ notBlank]
      split
      · next closing => exact absurd (List.cons.inj closing).1 notClosing
      · rw [read]
        rfl

theorem roundTrips_object {entries : List (String × Json)}
    (roundTrip : ∀ entry ∈ entries, RoundTrips entry.2) :
    RoundTrips (.object entries) := by
  intro fuel rest enough ends
  rw [toList_render_object] at enough ⊢
  rw [List.length_cons, List.length_append, List.length_singleton] at enough
  obtain ⟨more, rfl⟩ : ∃ more, fuel = more + 1 := ⟨fuel - 1, by omega⟩
  rw [List.cons_append, List.append_assoc, List.singleton_append, value?,
    skipBlanks_cons _ (by decide)]
  cases entries with
  | nil => rfl
  | cons entry others =>
      have read := entries?_commaSeparated rest roundTrip (List.cons_ne_nil entry others)
        (by omega : _ < more)
      obtain ⟨text, opening⟩ : ∃ text, entryText entry = '"' :: text := by
        rw [entryText, toList_quote]
        exact ⟨_, rfl⟩
      obtain ⟨behind, joined⟩ := exists_commaSeparated_cons '"' text (others.map entryText)
      rw [List.map_cons, opening, joined, List.cons_append] at read ⊢
      simp only [skipBlanks_cons _ (by decide : isBlank '"' = false)]
      split
      · next closing => exact absurd (List.cons.inj closing).1 (by decide)
      · rw [read]
        rfl

theorem IsExact.roundTrips {value : Json}
    (exact : IsExact value) :
    RoundTrips value := by
  induction exact with
  | null =>
      rintro (_ | fuel) rest enough ends
      · contradiction
      · rfl
  | boolean truth =>
      rintro (_ | fuel) rest enough ends
      · cases truth <;> contradiction
      · cases truth <;> rfl
  | integer value => exact roundTrips_integer value
  | string text => exact roundTrips_string text
  | array exact roundTrip => exact roundTrips_array exact roundTrip
  | object _ roundTrip => exact roundTrips_object roundTrip

theorem IsExact.ofText?_render {value : Json}
    (exact : IsExact value) :
    ofText? value.render = some value := by
  have read := exact.roundTrips (2 * value.render.toList.length + 1) [] (by omega)
    (fun _ nothing => by cases nothing)
  rw [List.append_nil] at read
  rw [ofText?, read]
  rfl

end Json

end QueryPaging
