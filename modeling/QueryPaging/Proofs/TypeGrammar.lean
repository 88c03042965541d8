import Mathlib.Data.List.Basic
import Mathlib.Data.List.TakeWhile
import QueryPaging.Proofs.TypeText

/-!
# The spellings of type references

A type reference is spelled by its tokens in order, with blanks wherever a token begins or ends,
and by no other text. Reading takes marks and brackets off both ends of a text and never looks at
its tokens; that it still meets just these texts is shown level by level, along the reference.

- `Spaced`: tokens in order with blanks before, between and after them.
- `TypeRef.IsCore`: what is left of a spelling without its outermost mark and the blanks around.
- `TypeRef.ofText?_eq_some_iff_spaced`: a text is read as a reference exactly if it spells it.
-/

namespace QueryPaging

/-! ## Trimming -/

namespace Blank

/-- A text of blanks alone. -/
def AllBlank (text : List Char) : Prop :=
  ∀ c ∈ text, isBlank c = true

instance (text : List Char) : Decidable (AllBlank text) :=
  decidable_of_iff (text.all isBlank = true) List.all_eq_true

theorem AllBlank.append {left right : List Char}
    (leftBlank : AllBlank left)
    (rightBlank : AllBlank right) :
    AllBlank (left ++ right) := by
  intro c member
  rcases List.mem_append.mp member with here | there
  · exact leftBlank c here
  · exact rightBlank c there

theorem exists_trimStart (text : List Char) :
    ∃ blanks, AllBlank blanks ∧ text = blanks ++ trimStart text :=
  ⟨text.takeWhile isBlank, fun _ member => List.mem_takeWhile_imp member,
    List.takeWhile_append_dropWhile.symm⟩

theorem exists_trimEnd (text : List Char) :
    ∃ blanks, AllBlank blanks ∧ text = trimEnd text ++ blanks := by
  obtain ⟨blanks, allBlank, whole⟩ := exists_trimStart text.reverse
  refine ⟨blanks.reverse, fun c member => allBlank c (List.mem_reverse.mp member), ?_⟩
  apply List.reverse_injective
  rw [List.reverse_append, List.reverse_reverse, trimEnd, List.reverse_reverse]
  exact whole

/-- Only blanks are trimmed. -/
theorem exists_trim (text : List Char) :
    ∃ before after, AllBlank before ∧ AllBlank after ∧ text = before ++ (trim text ++ after) := by
  obtain ⟨before, beforeBlank, opened⟩ := exists_trimStart text
  obtain ⟨after, afterBlank, closed⟩ := exists_trimEnd (trimStart text)
  exact ⟨before, after, beforeBlank, afterBlank, opened.trans (congrArg (before ++ ·) closed)⟩

theorem trimEnd_append {core blanks : List Char}
    (closing : ∀ c, core.getLast? = some c → isBlank c = false)
    (allBlank : AllBlank blanks) :
    trimEnd (core ++ blanks) = core := by
  have reversed : ∀ c ∈ blanks.reverse, isBlank c = true :=
    fun c member => allBlank c (List.mem_reverse.mp member)
  rw [trimEnd, List.reverse_append, List.dropWhile_append_of_pos reversed]
  exact trimEnd_eq_self closing

/-- All blanks are trimmed. -/
theorem trim_append {before core after : List Char}
    (beforeBlank : AllBlank before)
    (tight : Tight core)
    (afterBlank : AllBlank after) :
    trim (before ++ (core ++ after)) = core := by
  rw [trim, trimStart, List.dropWhile_append_of_pos beforeBlank]
  by_cases empty : core = []
  · subst empty
    have nothing : after.dropWhile isBlank = [] := List.dropWhile_eq_nil_iff.mpr afterBlank
    rw [List.nil_append, nothing]
    rfl
  · have opening : ∀ c, (core ++ after).head? = some c → isBlank c = false := by
      intro c first
      apply tight.opening c
      rwa [List.head?_append_of_ne_nil core empty] at first
    rw [dropWhile_eq_self opening]
    exact trimEnd_append tight.closing afterBlank

end Blank

open Blank

/-! ## Tokens and the blanks around them -/

/-- That a text holds the given tokens in order, with blanks before, between and after them. -/
inductive Spaced : List (List Char) → List Char → Prop where
  | nil {blanks : List Char} (allBlank : AllBlank blanks) : Spaced [] blanks
  | cons {blanks token rest : List Char} {tokens : List (List Char)}
      (allBlank : AllBlank blanks) (behind : Spaced tokens rest) :
      Spaced (token :: tokens) (blanks ++ (token ++ rest))

namespace Spaced

theorem blanks_append {blanks text : List Char} {tokens : List (List Char)}
    (allBlank : AllBlank blanks)
    (spaced : Spaced tokens text) :
    Spaced tokens (blanks ++ text) := by
  cases spaced with
  | nil others => exact .nil (allBlank.append others)
  | cons others behind =>
      rw [← List.append_assoc]
      exact .cons (allBlank.append others) behind

theorem append {text rest : List Char} {tokens others : List (List Char)}
    (spaced : Spaced tokens text)
    (behind : Spaced others rest) :
    Spaced (tokens ++ others) (text ++ rest) := by
  induction spaced with
  | nil allBlank => exact blanks_append allBlank behind
  | cons allBlank _ inductionHypothesis =>
      rw [List.append_assoc, List.append_assoc]
      exact .cons allBlank inductionHypothesis

theorem exists_of_append {text : List Char} {tokens others : List (List Char)}
    (spaced : Spaced (tokens ++ others) text) :
    ∃ start rest, text = start ++ rest ∧ Spaced tokens start ∧ Spaced others rest := by
  induction tokens generalizing text with
  | nil => exact ⟨[], text, rfl, .nil (by decide), spaced⟩
  | cons token tokens inductionHypothesis =>
      cases spaced with
      | cons allBlank behind =>
          obtain ⟨start, rest, rfl, inside, outside⟩ := inductionHypothesis behind
          refine ⟨_, rest, ?_, .cons allBlank inside, outside⟩
          rw [List.append_assoc, List.append_assoc]

theorem singleton_iff {token text : List Char} :
    Spaced [token] text ↔
      ∃ before after, AllBlank before ∧ AllBlank after ∧ text = before ++ (token ++ after) := by
  constructor
  · rintro (_ | ⟨beforeBlank, behind⟩)
    cases behind with
    | nil afterBlank => exact ⟨_, _, beforeBlank, afterBlank, rfl⟩
  · rintro ⟨before, after, beforeBlank, afterBlank, rfl⟩
    exact .cons beforeBlank (.nil afterBlank)

end Spaced

namespace TypeRef

/-- The tokens of a mark. -/
def markTokens (required : Bool) : List (List Char) :=
  if required then [['!']] else []

/-- The tokens of a reference: a name, or a reference between brackets, and at most one mark. -/
def tokens : TypeRef → List (List Char)
  | .named name required => [name.text.toList] ++ markTokens required
  | .list item required => (['['] :: item.tokens ++ [[']']]) ++ markTokens required

/-! ## Taking a text apart -/

theorem beforeLast?_eq_some_iff {last : Char} {text rest : List Char} :
    beforeLast? last text = some rest ↔ text = rest ++ [last] := by
  unfold beforeLast?
  constructor
  · intro found
    split at found
    · next closes =>
        rw [← Option.some.inj found]
        exact (List.dropLast_append_getLast? last (by rw [closes]; rfl)).symm
    · cases found
  · rintro rfl
    simp

theorem afterFirst?_eq_some_iff {first : Char} {text rest : List Char} :
    afterFirst? first text = some rest ↔ text = first :: rest := by
  cases text with
  | nil => simp [afterFirst?]
  | cons c others =>
      by_cases same : c = first
      · simp [afterFirst?, same]
      · simp [afterFirst?, same]

/-- A bracket that opens a text and is not closed at its end spells nothing. -/
theorem ofChars?_of_unclosed {text core inside : List Char} {required : Bool}
    (marked : withoutMark (trim text) = (core, required))
    (opening : afterFirst? '[' core = some inside)
    (unclosed : beforeLast? ']' inside = none) :
    ofChars? text = none := by
  rw [ofChars?]
  split
  · next found =>
      rw [marked, opening, Option.some.injEq] at found
      subst found
      split
      · next closed => simp [unclosed] at closed
      · rfl
  · next found => simp [marked, opening] at found

/-! ## The core of a spelling -/

/-- That a text spells a reference but for its outermost mark, with no blanks around. -/
inductive IsCore : TypeRef → List Char → Prop where
  | named (name : Name) (required : Bool) : IsCore (.named name required) name.text.toList
  | list {item : TypeRef} {inside : List Char} (required : Bool)
      (spaced : Spaced item.tokens inside) :
      IsCore (.list item required) ('[' :: (inside ++ [']']))

namespace IsCore

variable {type : TypeRef} {core : List Char}

theorem ne_nil (isCore : IsCore type core) :
    core ≠ [] := by
  cases isCore with
  | named name required =>
      obtain ⟨first, others, characters, _⟩ := toList_eq_cons name
      rw [characters]
      exact List.cons_ne_nil first others
  | list required spaced => exact List.cons_ne_nil _ _

theorem tight (isCore : IsCore type core) :
    Tight core := by
  cases isCore with
  | named name required => exact tight_name name
  | list required spaced =>
      constructor
      · intro c first
        rw [← Option.some.inj first]
        decide
      · intro c last
        rw [← List.cons_append, List.getLast?_concat, Option.some.injEq] at last
        rw [← last]
        decide

theorem getLast?_ne (isCore : IsCore type core) :
    core.getLast? ≠ some '!' := by
  cases isCore with
  | named name required =>
      intro last
      exact (ne_of_continuesName (continuesName_of_mem (List.mem_of_getLast? last))).2.2 rfl
  | list required spaced =>
      rw [← List.cons_append, List.getLast?_concat]
      decide

/-- The core is found again under its mark and the blanks around. -/
theorem withoutMark_trim {before between after marks : List Char} (required : Bool)
    (isCore : IsCore type core)
    (beforeBlank : AllBlank before)
    (betweenBlank : AllBlank between)
    (afterBlank : AllBlank after)
    (marked : marks = if required then between ++ ['!'] else []) :
    withoutMark (trim (before ++ ((core ++ marks) ++ after))) = (core, required) := by
  cases required with
  | false =>
      obtain rfl : marks = [] := marked
      rw [List.append_nil, trim_append beforeBlank isCore.tight afterBlank, withoutMark,
        beforeLast?, if_neg isCore.getLast?_ne]
  | true =>
      obtain rfl : marks = between ++ ['!'] := marked
      have tight : Tight (core ++ (between ++ ['!'])) := by
        constructor
        · intro c first
          rw [List.head?_append_of_ne_nil core isCore.ne_nil] at first
          exact isCore.tight.opening c first
        · intro c last
          rw [← List.append_assoc, List.getLast?_concat, Option.some.injEq] at last
          rw [← last]
          decide
      have closes : beforeLast? '!' (core ++ (between ++ ['!'])) = some (core ++ between) :=
        beforeLast?_eq_some_iff.mpr (List.append_assoc core between ['!']).symm
      rw [trim_append beforeBlank tight afterBlank, withoutMark, closes]
      simp only [trimEnd_append isCore.tight.closing betweenBlank]

end IsCore

/-- The tokens before the outermost mark. -/
def coreTokens : TypeRef → List (List Char)
  | .named name _ => [name.text.toList]
  | .list item _ => ['['] :: item.tokens ++ [[']']]

theorem tokens_eq (type : TypeRef) :
    type.tokens = type.coreTokens ++ markTokens type.isRequired := by
  cases type <;> rfl

theorem spaced_coreTokens_iff {type : TypeRef} {text : List Char} :
    Spaced type.coreTokens text ↔
      ∃ before core after, AllBlank before ∧ AllBlank after ∧ IsCore type core ∧
        text = before ++ (core ++ after) := by
  cases type with
  | named name required =>
      rw [coreTokens, Spaced.singleton_iff]
      constructor
      · rintro ⟨before, after, beforeBlank, afterBlank, whole⟩
        exact ⟨before, _, after, beforeBlank, afterBlank, .named name required, whole⟩
      · rintro ⟨before, _, after, beforeBlank, afterBlank, ⟨_, _⟩, whole⟩
        exact ⟨before, after, beforeBlank, afterBlank, whole⟩
  | list item required =>
      constructor
      · intro whole
        obtain ⟨start, rest, rfl, opened, closed⟩ := whole.exists_of_append
        obtain ⟨between, after, betweenBlank, afterBlank, rfl⟩ := Spaced.singleton_iff.mp closed
        cases opened with
        | @cons before _ inside _ beforeBlank spaced =>
            -- Blanks before the closing bracket belong to what the brackets enclose.
            have enclosed : Spaced item.tokens (inside ++ between) := by
              simpa only [List.append_nil] using spaced.append (.nil betweenBlank)
            refine ⟨before, _, after, beforeBlank, afterBlank, .list required enclosed, ?_⟩
            simp
      · rintro ⟨before, core, after, beforeBlank, afterBlank, isCore, rfl⟩
        cases isCore with | @list _ inside _ spaced
        have closed : Spaced [[']']] ([']'] ++ after) :=
          Spaced.singleton_iff.mpr ⟨[], after, by decide, afterBlank, rfl⟩
        have opened : Spaced (['['] :: item.tokens) (before ++ (['['] ++ inside)) :=
          .cons beforeBlank spaced
        simpa [coreTokens] using opened.append closed

/-- Under its mark and its blanks a spelling holds the core of its reference. -/
theorem exists_isCore_of_spaced {type : TypeRef} {text : List Char}
    (whole : Spaced type.tokens text) :
    ∃ core, IsCore type core ∧ withoutMark (trim text) = (core, type.isRequired) := by
  rw [tokens_eq] at whole
  obtain ⟨start, rest, rfl, inside, marks⟩ := whole.exists_of_append
  obtain ⟨before, core, between, beforeBlank, betweenBlank, isCore, rfl⟩ :=
    spaced_coreTokens_iff.mp inside
  refine ⟨core, isCore, ?_⟩
  cases required : type.isRequired with
  | false =>
      rw [required] at marks
      cases marks with
      | nil restBlank =>
          have afterBlank := betweenBlank.append restBlank
          simpa using isCore.withoutMark_trim false beforeBlank betweenBlank afterBlank rfl
  | true =>
      rw [required] at marks
      obtain ⟨more, after, moreBlank, afterBlank, rfl⟩ := Spaced.singleton_iff.mp marks
      simpa using isCore.withoutMark_trim true beforeBlank (betweenBlank.append moreBlank)
        afterBlank rfl

theorem spaced_of_isCore {type : TypeRef} {core text : List Char}
    (isCore : IsCore type core)
    (unmarked : withoutMark (trim text) = (core, type.isRequired)) :
    Spaced type.tokens text := by
  obtain ⟨before, after, beforeBlank, afterBlank, whole⟩ := exists_trim text
  rw [tokens_eq, whole]
  unfold withoutMark at unmarked
  split at unmarked
  · next rest closes =>
      obtain ⟨isTrimmed, required⟩ := Prod.mk.inj unmarked
      obtain ⟨between, betweenBlank, isRest⟩ := exists_trimEnd rest
      rw [isTrimmed] at isRest
      have inside : Spaced type.coreTokens (before ++ (core ++ between)) :=
        spaced_coreTokens_iff.mpr ⟨before, core, between, beforeBlank, betweenBlank, isCore, rfl⟩
      have mark : Spaced (markTokens type.isRequired) (['!'] ++ after) := by
        rw [← required]
        exact Spaced.singleton_iff.mpr ⟨[], after, by decide, afterBlank, rfl⟩
      rw [beforeLast?_eq_some_iff.mp closes, isRest]
      simpa using inside.append mark
  · obtain ⟨isTrimmed, required⟩ := Prod.mk.inj unmarked
    have inside : Spaced type.coreTokens (before ++ (core ++ after)) :=
      spaced_coreTokens_iff.mpr ⟨before, core, after, beforeBlank, afterBlank, isCore, rfl⟩
    rw [isTrimmed, ← required]
    simpa [markTokens] using inside

/-! ## Reading -/

/-- A reference is read from a name, or between brackets from what spells its item. -/
theorem cases_of_ofChars? {text : List Char} {type : TypeRef}
    (read : ofChars? text = some type) :
    ∃ core required, withoutMark (trim text) = (core, required) ∧
      ((∃ name : Name, core = name.text.toList ∧ type = .named name required) ∨
        ∃ inside item, core = '[' :: (inside ++ [']']) ∧ ofChars? inside = some item ∧
          type = .list item required) := by
  cases marked : withoutMark (trim text) with | mk core required
  refine ⟨core, required, rfl, ?_⟩
  cases opening : afterFirst? '[' core with
  | none =>
      rw [ofChars?_of_named marked opening, Option.map_eq_some_iff] at read
      obtain ⟨name, spelled, rfl⟩ := read
      refine .inl ⟨name, ?_, rfl⟩
      rw [Name.text_of_ofText?_eq_some spelled, String.toList_ofList]
  | some rest =>
      cases closing : beforeLast? ']' rest with
      | none =>
          rw [ofChars?_of_unclosed marked opening closing] at read
          cases read
      | some inside =>
          rw [ofChars?_of_list marked opening closing, Option.map_eq_some_iff] at read
          obtain ⟨item, itemRead, rfl⟩ := read
          refine .inr ⟨inside, item, ?_, itemRead, rfl⟩
          rw [afterFirst?_eq_some_iff.mp opening, beforeLast?_eq_some_iff.mp closing]

theorem spaced_of_ofChars? {text : List Char} {type : TypeRef}
    (read : ofChars? text = some type) :
    Spaced type.tokens text := by
  induction type generalizing text with
  | named name required =>
      obtain ⟨core, isMarked, marked, ⟨other, isName, same⟩ | ⟨_, _, _, _, same⟩⟩ :=
        cases_of_ofChars? read
      · cases same
        subst isName
        exact spaced_of_isCore (.named name required) marked
      · cases same
  | list item required inductionHypothesis =>
      obtain ⟨core, isMarked, marked, ⟨_, _, same⟩ | ⟨inside, other, isList, itemRead, same⟩⟩ :=
        cases_of_ofChars? read
      · cases same
      · cases same
        subst isList
        exact spaced_of_isCore (.list required (inductionHypothesis itemRead)) marked

theorem ofChars?_of_spaced {text : List Char} {type : TypeRef}
    (spaced : Spaced type.tokens text) :
    ofChars? text = some type := by
  induction type generalizing text with
  | named name required =>
      obtain ⟨core, isCore, marked⟩ := exists_isCore_of_spaced spaced
      cases isCore
      rw [ofChars?_of_named marked (afterFirst?_name name), String.ofList_toList,
        Name.ofText?_text]
      rfl
  | list item required inductionHypothesis =>
      obtain ⟨core, isCore, marked⟩ := exists_isCore_of_spaced spaced
      cases isCore with | @list _ inside _ itemSpaced
      have opening : afterFirst? '[' ('[' :: (inside ++ [']'])) = some (inside ++ [']']) :=
        afterFirst?_eq_some_iff.mpr rfl
      have closing : beforeLast? ']' (inside ++ [']']) = some inside :=
        beforeLast?_eq_some_iff.mpr rfl
      rw [ofChars?_of_list marked opening closing, inductionHypothesis itemSpaced]
      rfl

/-- A text is read as a reference exactly if it holds the tokens of that reference in order, with
blanks before, between and after them. So no text spells two references, and one that spells none
is refused. -/
theorem ofText?_eq_some_iff_spaced (text : String) :
    (∀ type, ofText? text = some type ↔ Spaced type.tokens text.toList) ∧
      (ofText? text = none ↔ ∀ type : TypeRef, ¬ Spaced type.tokens text.toList) ∧
      ∀ left right : TypeRef, Spaced left.tokens text.toList →
        Spaced right.tokens text.toList → left = right := by
  have reads : ∀ type, ofText? text = some type ↔ Spaced type.tokens text.toList :=
    fun type => ⟨spaced_of_ofChars?, ofChars?_of_spaced⟩
  refine ⟨reads, ?_, ?_⟩
  · rw [Option.eq_none_iff_forall_ne_some]
    exact forall_congr' fun type => not_congr (reads type)
  · intro left right leftSpelled rightSpelled
    have readLeft := (reads left).mpr leftSpelled
    rw [(reads right).mpr rightSpelled] at readLeft
    exact (Option.some.inj readLeft).symm

/-- Blanks of several kinds stand around each token here; after a second mark nothing is spelled. -/
theorem ofText?_eq_some_iff_spaced_list :
    Spaced (TypeRef.list (.named Name.intType true) true).tokens "\t[ Int\n! ] !\u2003".toList ∧
      ofText? "\t[ Int\n! ] !\u2003" = some (.list (.named Name.intType true) true) ∧
      (∀ type : TypeRef, Spaced type.tokens "\t[ Int\n! ] !\u2003".toList →
        type = .list (.named Name.intType true) true) ∧
      ∀ type : TypeRef, ¬ Spaced type.tokens "Int! !".toList := by
  have spelled : Spaced (TypeRef.list (.named Name.intType true) true).tokens
      "\t[ Int\n! ] !\u2003".toList :=
    @Spaced.cons ['\t'] _ _ _ (by decide) <| @Spaced.cons [' '] _ _ _ (by decide) <|
      @Spaced.cons ['\n'] _ _ _ (by decide) <| @Spaced.cons [' '] _ _ _ (by decide) <|
        @Spaced.cons [' '] _ _ _ (by decide) <| @Spaced.nil ['\u2003'] (by decide)
  obtain ⟨reads, _, spellsOne⟩ := ofText?_eq_some_iff_spaced "\t[ Int\n! ] !\u2003"
  refine ⟨spelled, (reads _).mpr spelled, fun type other => spellsOne type _ other spelled, ?_⟩
  exact (ofText?_eq_some_iff_spaced "Int! !").2.1.mp (by decide +kernel)

end TypeRef

end QueryPaging
