import QueryPaging.Graphql.Printing
import QueryPaging.Proofs.TypeText

/-!
# The texts of strings

A string is printed between quotes, or as a block where it spans lines. Either way its text says
where it ends and which string it is: no two strings are printed alike, whatever stands behind.

- `eq_of_flatMap_escape_append_eq`: between quotes.
- `eq_of_block_append_eq`: between triple quotes, line by line.
- `Value.eq_of_renderText_append_eq`: as printed at some indentation.
-/

namespace QueryPaging

/-- Two texts that each end where their own characters do are told apart. -/
theorem eq_of_boundary_append_eq {inside : Char → Bool} {left right rest after : List Char}
    (leftInside : ∀ c ∈ left, inside c = true)
    (rightInside : ∀ c ∈ right, inside c = true)
    (restOutside : ∀ c ∈ rest.head?, inside c = false)
    (afterOutside : ∀ c ∈ after.head?, inside c = false)
    (same : left ++ rest = right ++ after) :
    left = right ∧ rest = after := by
  induction left generalizing right with
  | nil =>
      cases right with
      | nil => exact ⟨rfl, same⟩
      | cons c right =>
          rw [List.nil_append] at same
          have outside := restOutside c (by rw [same]; rfl)
          rw [rightInside c List.mem_cons_self] at outside
          cases outside
  | cons c left inductionHypothesis =>
      cases right with
      | nil =>
          rw [List.nil_append] at same
          have outside := afterOutside c (by rw [← same]; rfl)
          rw [leftInside c List.mem_cons_self] at outside
          cases outside
      | cons d right =>
          rw [List.cons_append, List.cons_append] at same
          obtain ⟨rfl, behind⟩ := List.cons.inj same
          obtain ⟨rfl, alike⟩ := inductionHypothesis
            (fun other later => leftInside other (List.mem_cons_of_mem c later))
            (fun other later => rightInside other (List.mem_cons_of_mem c later)) behind
          exact ⟨rfl, alike⟩

/-! ## Escapes of control characters -/

namespace Escape

theorem hexNumber?_fourDigits {a : Char}
    (cased : a = 'a' ∨ a = 'A') :
    ∀ code < 0x20, hexNumber? (fourDigits a (Char.ofNat code)) = some code := by
  rcases cased with rfl | rfl <;> decide

/-- Control characters are no surrogates: four digits make up the whole of their code. -/
theorem units?_fourDigits {a c : Char} (rest : List Char)
    (cased : a = 'a' ∨ a = 'A')
    (control : c.toNat < 0x20) :
    units? (fourDigits a c ++ rest) = some (c, 4) := by
  have number : hexNumber? (fourDigits a c) = some c.toNat := by
    have read := hexNumber?_fourDigits cased c.toNat control
    rwa [Char.ofNat_toNat] at read
  have low : ¬ (0xD800 ≤ c.toNat ∧ c.toNat ≤ 0xDBFF) := by omega
  have plain : c.toNat < 0xD800 := by omega
  have four : hexPrefix? 4 (fourDigits a c ++ rest) = some c.toNat := number
  rw [units?, four]
  simp only [Option.bind_eq_bind, Option.bind_some, if_neg low, scalar?, plain, true_or, if_true,
    Char.ofNat_toNat]
  rfl

end Escape

namespace StringLiteral

/-! ## Between quotes -/

theorem escape?_fourDigits {c : Char} (rest : List Char)
    (control : c.toNat < 0x20) :
    escape? ('u' :: Escape.fourDigits 'A' c ++ rest) = some (c, 5) := by
  rw [List.cons_append, escape?, Escape.units?_fourDigits rest (.inr rfl) control]
  · rfl
  · rintro other opening
    have first := (List.cons.inj opening).1
    cases first

/-- A character stands for itself, or behind a backslash for what is read there. -/
theorem escape_cases (c : Char) :
    (escape c = [c] ∧ c ≠ '"' ∧ c ≠ '\\') ∨
      ∃ code, escape c = '\\' :: code ∧ ∀ rest, escape? (code ++ rest) = some (c, code.length) := by
  unfold escape
  split
  · next same => exact .inr ⟨['"'], rfl, fun _ => by rw [same]; rfl⟩
  split
  · next same => exact .inr ⟨['\\'], rfl, fun _ => by rw [same]; rfl⟩
  split
  · next same => exact .inr ⟨['n'], rfl, fun _ => by rw [same]; rfl⟩
  split
  · next same => exact .inr ⟨['r'], rfl, fun _ => by rw [same]; rfl⟩
  split
  · next same => exact .inr ⟨['b'], rfl, fun _ => by rw [same]; rfl⟩
  split
  · next same => exact .inr ⟨['f'], rfl, fun _ => by rw [same]; rfl⟩
  split
  · next control => exact .inr ⟨_, rfl, fun rest => escape?_fourDigits rest control.1⟩
  · next noQuote noBackslash _ _ _ _ _ => exact .inl ⟨rfl, noQuote, noBackslash⟩

/-- The characters of a text are told apart where they stand between quotes. -/
theorem eq_of_escape_append_eq {c d : Char} {rest after : List Char}
    (same : escape c ++ rest = escape d ++ after) :
    c = d ∧ rest = after := by
  have alike : c = d := by
    rcases escape_cases c with ⟨plain, _, noBackslash⟩ | ⟨code, escaped, read⟩
    · rcases escape_cases d with ⟨otherPlain, _, _⟩ | ⟨code, escaped, _⟩
      · rw [plain, otherPlain] at same
        exact (List.cons.inj same).1
      · rw [plain, escaped] at same
        exact absurd (List.cons.inj same).1 noBackslash
    · rcases escape_cases d with ⟨plain, _, noBackslash⟩ | ⟨otherCode, otherEscaped, otherRead⟩
      · rw [plain, escaped] at same
        exact absurd (List.cons.inj same).1.symm noBackslash
      · rw [escaped, otherEscaped] at same
        have behind : code ++ rest = otherCode ++ after := (List.cons.inj same).2
        have both := (read rest).symm.trans (behind ▸ otherRead after)
        exact congrArg Prod.fst (Option.some.inj both)
  subst alike
  exact ⟨rfl, List.append_cancel_left same⟩

theorem escape_ne_quote_cons (c : Char) (rest after : List Char) :
    escape c ++ rest ≠ '"' :: after := by
  intro same
  rcases escape_cases c with ⟨plain, noQuote, _⟩ | ⟨code, escaped, _⟩
  · rw [plain] at same
    exact noQuote (List.cons.inj same).1
  · rw [escaped] at same
    cases (List.cons.inj same).1

/-- What stands between quotes ends at the closing one. -/
theorem eq_of_flatMap_escape_append_eq {text other rest after : List Char}
    (same : text.flatMap escape ++ '"' :: rest = other.flatMap escape ++ '"' :: after) :
    text = other ∧ rest = after := by
  induction text generalizing other with
  | nil =>
      cases other with
      | nil => exact ⟨rfl, (List.cons.inj same).2⟩
      | cons d other =>
          rw [List.flatMap_nil, List.nil_append, List.flatMap_cons, List.append_assoc] at same
          exact absurd same.symm (escape_ne_quote_cons d _ rest)
  | cons c text inductionHypothesis =>
      cases other with
      | nil =>
          rw [List.flatMap_nil, List.nil_append, List.flatMap_cons, List.append_assoc] at same
          exact absurd same (escape_ne_quote_cons c _ after)
      | cons d other =>
          rw [List.flatMap_cons, List.flatMap_cons, List.append_assoc, List.append_assoc] at same
          obtain ⟨rfl, behind⟩ := eq_of_escape_append_eq same
          obtain ⟨rfl, alike⟩ := inductionHypothesis behind
          exact ⟨rfl, alike⟩

/-! ## Between triple quotes -/

theorem exists_of_escapeTripleQuotes_eq_quote_cons {line rest : List Char}
    (opens : escapeTripleQuotes line = '"' :: rest) :
    ∃ others, line = '"' :: others ∧ rest = escapeTripleQuotes others := by
  unfold escapeTripleQuotes at opens
  split at opens
  · cases opens
  · cases (List.cons.inj opens).1
  · next c others _ =>
      obtain ⟨rfl, rfl⟩ := List.cons.inj opens
      exact ⟨others, rfl, rfl⟩

/-- No written line opens with a triple quote, whatever but a quote stands behind it. -/
theorem escapeTripleQuotes_append_ne {line behind rest : List Char}
    (noQuote : behind.head? ≠ some '"') :
    escapeTripleQuotes line ++ behind ≠ '"' :: '"' :: '"' :: rest := by
  intro same
  -- What stands behind opens with no quote, so each of the three quotes is one of the line. But a
  -- line that opens with three is written with a backslash before them.
  have step : ∀ {line rest : List Char}, escapeTripleQuotes line ++ behind = '"' :: rest →
      ∃ others, line = '"' :: others ∧ escapeTripleQuotes others ++ behind = rest := by
    intro line rest same
    cases written : escapeTripleQuotes line with
    | nil =>
        rw [written, List.nil_append] at same
        rw [same] at noQuote
        exact absurd rfl noQuote
    | cons c more =>
        rw [written, List.cons_append] at same
        obtain ⟨rfl, rfl⟩ := List.cons.inj same
        obtain ⟨others, isLine, rfl⟩ := exists_of_escapeTripleQuotes_eq_quote_cons written
        exact ⟨others, isLine, rfl⟩
  obtain ⟨second, isFirst, afterFirst⟩ := step same
  obtain ⟨third, rfl, afterSecond⟩ := step afterFirst
  obtain ⟨others, rfl, _⟩ := step afterSecond
  rw [isFirst, escapeTripleQuotes] at same
  cases (List.cons.inj same).1

theorem bareTripleQuotes_escapeTripleQuotes (line : List Char) :
    bareTripleQuotes (escapeTripleQuotes line) = line := by
  induction line using escapeTripleQuotes.induct with
  | case1 => rfl
  | case2 rest inductionHypothesis =>
      rw [escapeTripleQuotes, bareTripleQuotes, inductionHypothesis]
  | case3 c rest noTriple inductionHypothesis =>
      rw [escapeTripleQuotes.eq_3 c rest noTriple, bareTripleQuotes, inductionHypothesis]
      intro others _ opens
      have noOpening := @escapeTripleQuotes_append_ne rest [] others (by simp)
      rw [List.append_nil] at noOpening
      exact noOpening opens

theorem escapeTripleQuotes_injective {left right : List Char}
    (same : escapeTripleQuotes left = escapeTripleQuotes right) :
    left = right := by
  rw [← bareTripleQuotes_escapeTripleQuotes left, same, bareTripleQuotes_escapeTripleQuotes]

theorem mem_of_mem_escapeTripleQuotes {line : List Char} {c : Char}
    (member : c ∈ escapeTripleQuotes line)
    (plain : c ≠ '\\') :
    c ∈ line := by
  induction line using escapeTripleQuotes.induct with
  | case1 => cases member
  | case2 rest inductionHypothesis =>
      rw [escapeTripleQuotes] at member
      simp only [List.mem_cons, plain, false_or] at member ⊢
      exact member.imp_right (Or.imp_right (Or.imp_right inductionHypothesis))
  | case3 d rest noTriple inductionHypothesis =>
      rw [escapeTripleQuotes.eq_3 d rest noTriple, List.mem_cons] at member
      exact List.mem_cons.mpr (member.imp_right inductionHypothesis)

/-! ## The lines of a text -/

theorem noNewline_of_mem_lines {text line : List Char}
    (member : line ∈ lines text) :
    '\n' ∉ line := by
  induction text using lines.induct generalizing line with
  | case1 =>
      rw [lines, List.mem_singleton] at member
      rw [member]
      exact List.not_mem_nil
  | case2 rest inductionHypothesis =>
      rw [lines, List.mem_cons] at member
      rcases member with rfl | later
      · exact List.not_mem_nil
      · exact inductionHypothesis later
  | case3 rest inductionHypothesis =>
      rw [lines, List.mem_cons] at member
      rcases member with rfl | later
      · exact List.not_mem_nil
      · exact inductionHypothesis later
  | case4 rest single inductionHypothesis =>
      rw [lines.eq_4 rest single, List.mem_cons] at member
      rcases member with rfl | later
      · exact List.not_mem_nil
      · exact inductionHypothesis later
  | case5 c rest noPair noFeed noReturn empty inductionHypothesis =>
      rw [lines.eq_5 c rest noPair noFeed noReturn, empty, List.mem_singleton] at member
      rw [member, List.mem_singleton]
      exact fun same => noFeed same.symm
  | case6 c rest noPair noFeed noReturn first others isLines inductionHypothesis =>
      rw [lines.eq_5 c rest noPair noFeed noReturn, isLines, List.mem_cons] at member
      rw [isLines] at inductionHypothesis
      rcases member with rfl | later
      · rw [List.mem_cons, not_or]
        exact ⟨fun same => noFeed same.symm, inductionHypothesis List.mem_cons_self⟩
      · exact inductionHypothesis (List.mem_cons_of_mem first later)

theorem lines_ne_nil (text : List Char) :
    lines text ≠ [] := by
  induction text using lines.induct with
  | case5 c rest noPair noFeed noReturn empty =>
      rw [lines.eq_5 c rest noPair noFeed noReturn, empty]
      exact List.cons_ne_nil _ _
  | case6 c rest noPair noFeed noReturn first others isLines =>
      rw [lines.eq_5 c rest noPair noFeed noReturn, isLines]
      exact List.cons_ne_nil _ _
  | case4 rest single =>
      rw [lines.eq_4 rest single]
      exact List.cons_ne_nil _ _
  | _ =>
      rw [lines]
      exact List.cons_ne_nil _ _

/-- A text without carriage returns is put together of its lines again. -/
theorem intercalate_lines {text : List Char}
    (noReturn : '\r' ∉ text) :
    List.intercalate ['\n'] (lines text) = text := by
  induction text using lines.induct with
  | case1 => rfl
  | case2 rest => exact absurd List.mem_cons_self noReturn
  | case3 rest inductionHypothesis =>
      obtain ⟨first, others, isLines⟩ := List.exists_cons_of_ne_nil (lines_ne_nil rest)
      have behind := inductionHypothesis fun member => noReturn (List.mem_cons_of_mem _ member)
      rw [lines, isLines, List.intercalate_cons_cons, ← isLines, behind]
      rfl
  | case4 rest single => exact absurd List.mem_cons_self noReturn
  | case5 c rest _ _ _ empty => exact absurd empty (lines_ne_nil rest)
  | case6 c rest noPair noFeed isReturn first others isLines inductionHypothesis =>
      have behind := inductionHypothesis fun member => noReturn (List.mem_cons_of_mem _ member)
      rw [isLines] at behind
      rw [lines.eq_5 c rest noPair noFeed isReturn, isLines, ← behind]
      cases others with
      | nil => simp [List.intercalate]
      | cons second others => simp [List.intercalate_cons_cons]

/-! ## Blocks -/

/-- The blanks at the start of a line. -/
def indentation (level : Nat) : List Char :=
  List.replicate (2 * level) ' '

theorem toList_newline (level : Nat) :
    (Layout.newline level).toList = '\n' :: indentation level := by
  simp [Layout.newline, indentation]

/-- A line of a block as it is written behind its line break. An empty line is not indented. -/
def blockLine (level : Nat) (line : List Char) : List Char :=
  if line = [] then [] else indentation level ++ escapeTripleQuotes line

theorem escapeTripleQuotes_eq_nil_iff {line : List Char} :
    escapeTripleQuotes line = [] ↔ line = [] := by
  constructor
  · intro empty
    exact escapeTripleQuotes_injective (empty.trans rfl)
  · rintro rfl
    rfl

theorem noNewline_of_mem_blockLine {level : Nat} {line : List Char}
    (noNewline : '\n' ∉ line) :
    ∀ c ∈ blockLine level line, (c != '\n') = true := by
  intro c member
  rw [bne_iff_ne]
  rintro rfl
  rw [blockLine] at member
  split at member
  · cases member
  · rcases List.mem_append.mp member with blank | written
    · exact absurd (List.eq_of_mem_replicate blank) (by decide)
    · exact noNewline (mem_of_mem_escapeTripleQuotes written (by decide))

theorem blockLine_injective {level : Nat} {left right : List Char}
    (same : blockLine level left = blockLine level right) :
    left = right := by
  unfold blockLine at same
  by_cases leftEmpty : left = []
  · by_cases rightEmpty : right = []
    · rw [leftEmpty, rightEmpty]
    · rw [if_pos leftEmpty, if_neg rightEmpty] at same
      have nothing := (List.append_eq_nil_iff.mp same.symm).2
      exact absurd (escapeTripleQuotes_eq_nil_iff.mp nothing) rightEmpty
  · by_cases rightEmpty : right = []
    · rw [if_neg leftEmpty, if_pos rightEmpty] at same
      have nothing := (List.append_eq_nil_iff.mp same).2
      exact absurd (escapeTripleQuotes_eq_nil_iff.mp nothing) leftEmpty
    · rw [if_neg leftEmpty, if_neg rightEmpty] at same
      exact escapeTripleQuotes_injective (List.append_cancel_left same)

/-- The closing triple quote is no line of a block. -/
theorem blockLine_append_ne_closing {level : Nat} {line behind rest : List Char} :
    blockLine level line ++ '\n' :: behind ≠ indentation level ++ '"' :: '"' :: '"' :: rest := by
  intro same
  rw [blockLine] at same
  split at same
  · cases level with
    | zero => cases (List.cons.inj same).1
    | succ level => cases (List.cons.inj same).1
  · rw [List.append_assoc] at same
    exact escapeTripleQuotes_append_ne (by simp) (List.append_cancel_left same)

/-- A block ends at its closing triple quote, and its lines are told by its text. -/
theorem eq_of_block_append_eq {level : Nat} {left right : List (List Char)}
    {rest after : List Char}
    (leftLines : ∀ line ∈ left, '\n' ∉ line)
    (rightLines : ∀ line ∈ right, '\n' ∉ line)
    (same : (left.flatMap fun line => '\n' :: blockLine level line)
        ++ '\n' :: (indentation level ++ '"' :: '"' :: '"' :: rest) =
      (right.flatMap fun line => '\n' :: blockLine level line)
        ++ '\n' :: (indentation level ++ '"' :: '"' :: '"' :: after)) :
    left = right ∧ rest = after := by
  -- Whatever lines are left, a line break comes next, and it ends the line before it.
  have goesOn : ∀ (lines : List (List Char)) (rest : List Char), ∃ behind,
      (lines.flatMap fun line => '\n' :: blockLine level line) ++ '\n' :: rest =
        '\n' :: behind := by
    intro lines rest
    cases lines with
    | nil => exact ⟨rest, rfl⟩
    | cons line others => exact ⟨_, rfl⟩
  induction left generalizing right with
  | nil =>
      cases right with
      | nil =>
          have closing := List.append_cancel_left (List.cons.inj same).2
          simp only [List.cons.injEq, true_and] at closing
          exact ⟨rfl, closing⟩
      | cons line right =>
          obtain ⟨behind, more⟩ := goesOn right (indentation level ++ '"' :: '"' :: '"' :: after)
          rw [List.flatMap_cons, List.append_assoc, more] at same
          exact absurd (List.cons.inj same).2.symm blockLine_append_ne_closing
  | cons line left inductionHypothesis =>
      obtain ⟨behind, more⟩ := goesOn left (indentation level ++ '"' :: '"' :: '"' :: rest)
      cases right with
      | nil =>
          rw [List.flatMap_cons, List.append_assoc, more] at same
          exact absurd (List.cons.inj same).2 blockLine_append_ne_closing
      | cons other right =>
          obtain ⟨otherBehind, otherMore⟩ :=
            goesOn right (indentation level ++ '"' :: '"' :: '"' :: after)
          rw [List.flatMap_cons, List.flatMap_cons, List.append_assoc, List.append_assoc, more,
            otherMore, List.cons_append, List.cons_append] at same
          obtain ⟨sameLine, alike⟩ := eq_of_boundary_append_eq
            (noNewline_of_mem_blockLine (leftLines line List.mem_cons_self))
            (noNewline_of_mem_blockLine (rightLines other List.mem_cons_self))
            (by simp) (by simp) (List.cons.inj same).2
          rw [← more, ← otherMore] at alike
          obtain ⟨rfl, ended⟩ := inductionHypothesis
            (fun line later => leftLines line (List.mem_cons_of_mem _ later))
            (fun line later => rightLines line (List.mem_cons_of_mem _ later)) alike
          exact ⟨by rw [blockLine_injective sameLine], ended⟩

/-! ## As printed -/

theorem toList_quote (text : String) :
    (quote text).toList = '"' :: (text.toList.flatMap escape ++ ['"']) := by
  rw [quote, String.toList_ofList, List.cons_append]

theorem toList_blockLine (level : Nat) (line : List Char) :
    (if String.ofList (escapeTripleQuotes line) = "" then "\n"
        else Layout.newline level ++ String.ofList (escapeTripleQuotes line)).toList =
      '\n' :: blockLine level line := by
  have isEmpty : String.ofList (escapeTripleQuotes line) = "" ↔ line = [] := by
    rw [← escapeTripleQuotes_eq_nil_iff, ← String.toList_inj, String.toList_ofList]
    rfl
  rw [blockLine]
  by_cases empty : line = []
  · rw [if_pos (isEmpty.mpr empty), if_pos empty]
    rfl
  · rw [if_neg (mt isEmpty.mp empty), if_neg empty, String.toList_append, toList_newline,
      String.toList_ofList, List.cons_append]

end StringLiteral

open StringLiteral

theorem toList_join (texts : List String) :
    ("".intercalate texts).toList = texts.flatMap String.toList := by
  rw [String.toList_intercalate, List.flatMap_def]
  induction texts.map String.toList with
  | nil => rfl
  | cons first others inductionHypothesis =>
      cases others with
      | nil => simp [List.intercalate]
      | cons second others =>
          rw [String.toList_empty] at inductionHypothesis ⊢
          rw [List.intercalate_cons_cons, inductionHypothesis, List.append_nil,
            ← List.flatten_cons]

namespace Value

/-- A string is printed between quotes, or as a block of its lines. -/
theorem toList_renderText_cases (level : Nat) (text : String) :
    (renderText level text).toList = '"' :: (text.toList.flatMap escape ++ ['"']) ∨
      '\r' ∉ text.toList ∧ (renderText level text).toList =
        '"' :: '"' :: '"' :: (((lines text.toList).flatMap fun line => '\n' :: blockLine level line)
          ++ '\n' :: (indentation level ++ ['"', '"', '"'])) := by
  rw [renderText]
  split
  · exact .inl (toList_quote text)
  · next written isBlock =>
      refine .inr ?_
      rw [blockLines?] at isBlock
      split at isBlock
      · next fits =>
          have noReturn : '\r' ∉ text.toList := by
            simp only [fitsBlock, Bool.and_eq_true, Bool.not_eq_true', List.contains_iff_mem,
              ← Bool.not_eq_true] at fits
            exact fits.2.1.1.1
          obtain rfl := Option.some.inj isBlock
          refine ⟨noReturn, ?_⟩
          simp only [String.toList_append, toList_join, List.map_map, List.flatMap_map,
            toList_newline, Function.comp_def, toList_blockLine]
          simp
      · cases isBlock

/-- The text of a string says where it ends, if no quote stands behind it, and which string it
is. -/
theorem eq_of_renderText_append_eq {level : Nat} {text other : String} {rest after : List Char}
    (restApart : rest.head? ≠ some '"')
    (afterApart : after.head? ≠ some '"')
    (same : (renderText level text).toList ++ rest = (renderText level other).toList ++ after) :
    text = other ∧ rest = after := by
  -- The empty text between quotes would open a block if a third quote stood behind it.
  have unlike : ∀ {text block rest after : List Char}, rest.head? ≠ some '"' →
      '"' :: (text.flatMap escape ++ ['"']) ++ rest ≠ '"' :: '"' :: '"' :: block ++ after := by
    intro text block rest after apart same
    rw [List.cons_append, List.cons_append, List.append_assoc] at same
    have behind := (List.cons.inj same).2
    cases text with
    | nil =>
        have third : rest = '"' :: (block ++ after) := (List.cons.inj behind).2
        exact apart (by rw [third]; rfl)
    | cons c text =>
        rw [List.flatMap_cons, List.append_assoc] at behind
        exact escape_ne_quote_cons _ _ _ behind
  rcases toList_renderText_cases level text with quoted | ⟨noReturn, block⟩
  · rcases toList_renderText_cases level other with otherQuoted | ⟨_, otherBlock⟩
    · rw [quoted, otherQuoted, List.cons_append, List.cons_append, List.append_assoc,
        List.append_assoc] at same
      obtain ⟨alike, ended⟩ := eq_of_flatMap_escape_append_eq (List.cons.inj same).2
      exact ⟨String.toList_inj.mp alike, ended⟩
    · rw [quoted, otherBlock] at same
      exact absurd same (unlike restApart)
  · rcases toList_renderText_cases level other with otherQuoted | ⟨otherNoReturn, otherBlock⟩
    · rw [block, otherQuoted] at same
      exact absurd same.symm (unlike afterApart)
    · rw [block, otherBlock] at same
      simp only [List.cons_append, List.append_assoc, List.cons.injEq, true_and,
        List.nil_append] at same
      obtain ⟨alike, ended⟩ := eq_of_block_append_eq (fun _ => noNewline_of_mem_lines)
        (fun _ => noNewline_of_mem_lines) same
      rw [← String.toList_inj, ← intercalate_lines noReturn, alike,
        intercalate_lines otherNoReturn]
      exact ⟨rfl, ended⟩

end Value

end QueryPaging
