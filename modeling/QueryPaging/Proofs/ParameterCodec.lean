import QueryPaging.Proofs.Batches
import QueryPaging.Proofs.Scoping

/-!
# Parameters written and read

A directive that declares parameters may give the type and the default of one over and over, in any
order and with blanks in the text of the type. It is read as the last of each. Written anew it gives
each once, and that is what it stays.

- `Describes`: what an argument of the directive has to be like for a parameter to be read from it.
- `decode_roundTrips`: what is written is read, and what is read and written is settled.
-/

namespace QueryPaging.PassDirective

/-! ## Entries -/

/-- The type that an entry gives: the one its text spells, under the key for types. -/
def typeOf? : Name × Value → Option TypeRef
  | (key, .string text) => if key = Name.typeKey then TypeRef.ofText? text else none
  | _ => none

def defaultOf? (entry : Name × Value) : Option Value :=
  if entry.1 = defaultKey then some entry.2 else none

/-- That an entry may be given for a parameter. -/
def IsEntry (entry : Name × Value) : Prop :=
  (typeOf? entry).isSome = true ∨ (defaultOf? entry).isSome = true

/-- That a parameter is read from an argument: an object of entries, the last type among which is
that of the parameter, and the last default, if there is one, is its default. -/
inductive Describes : Argument → FragmentParameter → Prop where
  | object (name : Name) (entries : List (Name × Value)) (type : TypeRef)
      (allowed : ∀ entry ∈ entries, IsEntry entry)
      (isType : (entries.filterMap typeOf?).getLast? = some type) :
      Describes ⟨name, .object entries⟩ ⟨name, type, (entries.filterMap defaultOf?).getLast?⟩

theorem typeOf?_eq_some_iff {key : Name} {value : Value} {type : TypeRef} :
    typeOf? (key, value) = some type ↔
      key = Name.typeKey ∧ ∃ text, value = .string text ∧ TypeRef.ofText? text = some type := by
  cases value <;> simp [typeOf?]

theorem defaultOf?_eq_some_iff {key : Name} {value default : Value} :
    defaultOf? (key, value) = some default ↔ key = defaultKey ∧ value = default := by
  simp [defaultOf?]

/-- What an entry gives takes the place of what was drafted; the rest stays. -/
theorem draftStep_of_isEntry {entry : Name × Value} (parameter : Name) (draft : ParameterDraft)
    (isEntry : IsEntry entry) :
    draftStep parameter draft entry =
      .ok ⟨(typeOf? entry).or draft.type, (defaultOf? entry).or draft.default⟩ := by
  obtain ⟨key, value⟩ := entry
  have differ : Name.typeKey ≠ defaultKey := by decide
  rcases isEntry with isType | isDefault
  · obtain ⟨type, given⟩ := Option.isSome_iff_exists.mp isType
    obtain ⟨rfl, text, rfl, spelled⟩ := typeOf?_eq_some_iff.mp given
    have noDefault : defaultOf? (Name.typeKey, .string text) = none := if_neg differ
    rw [given, noDefault]
    simp [draftStep, differ, spelled]
  · obtain ⟨default, given⟩ := Option.isSome_iff_exists.mp isDefault
    obtain ⟨rfl, rfl⟩ := defaultOf?_eq_some_iff.mp given
    have noType : typeOf? (defaultKey, value) = none := by
      cases value <;> simp [typeOf?, differ.symm]
    rw [given, noType]
    simp [draftStep]

theorem isEntry_of_draftStep {parameter : Name} {draft next : ParameterDraft}
    {entry : Name × Value}
    (stepped : draftStep parameter draft entry = .ok next) :
    IsEntry entry := by
  obtain ⟨key, value⟩ := entry
  by_cases isDefault : key = defaultKey
  · right
    rw [defaultOf?_eq_some_iff.mpr ⟨isDefault, rfl⟩]
    rfl
  · left
    unfold draftStep at stepped
    rw [if_neg isDefault] at stepped
    cases value with
    | string text =>
        by_cases isType : key = Name.typeKey
        · cases spelled : TypeRef.ofText? text with
          | none => simp [isType, spelled] at stepped
          | some type =>
              rw [typeOf?_eq_some_iff.mpr ⟨isType, text, rfl, spelled⟩]
              rfl
        · simp [isType] at stepped
    | _ => cases stepped

theorem getLast?_filterMap_cons_or {Item Result : Type} (given? : Item → Option Result)
    (first : Item) (others : List Item) (before : Option Result) :
    ((first :: others).filterMap given?).getLast?.or before =
      (others.filterMap given?).getLast?.or ((given? first).or before) := by
  cases given : given? first with
  | none => rw [List.filterMap_cons_none given, Option.none_or]
  | some result =>
      rw [List.filterMap_cons_some given, List.getLast?_cons, Option.some_or, Option.some_or]
      cases (others.filterMap given?).getLast? <;> rfl

/-- All entries are met, and of each kind the last one counts. -/
theorem foldlM_draftStep_eq_ok_iff {parameter : Name} {entries : List (Name × Value)}
    {draft result : ParameterDraft} :
    entries.foldlM (draftStep parameter) draft = .ok result ↔
      (∀ entry ∈ entries, IsEntry entry) ∧
        result = ⟨(entries.filterMap typeOf?).getLast?.or draft.type,
          (entries.filterMap defaultOf?).getLast?.or draft.default⟩ := by
  induction entries generalizing draft with
  | nil => simp [pure, Except.pure, eq_comm]
  | cons first others inductionHypothesis =>
      rw [List.foldlM_cons, Pipeline.bind_eq_ok_iff, List.forall_mem_cons,
        getLast?_filterMap_cons_or, getLast?_filterMap_cons_or]
      constructor
      · rintro ⟨next, stepped, later⟩
        have isEntry := isEntry_of_draftStep stepped
        rw [draftStep_of_isEntry parameter draft isEntry] at stepped
        cases stepped
        obtain ⟨allowed, whole⟩ := inductionHypothesis.mp later
        exact ⟨⟨isEntry, allowed⟩, whole⟩
      · rintro ⟨⟨isEntry, allowed⟩, whole⟩
        have stepped := draftStep_of_isEntry parameter draft isEntry
        exact ⟨_, stepped, inductionHypothesis.mpr ⟨allowed, whole⟩⟩

/-! ## Arguments -/

theorem parameterOf_eq_ok_iff {argument : Argument} {parameter : FragmentParameter} :
    parameterOf argument = .ok parameter ↔ Describes argument parameter := by
  constructor
  · intro read
    obtain ⟨name, value⟩ := argument
    cases value with
    | object entries =>
        obtain ⟨draft, drafted, isRead⟩ := Pipeline.bind_eq_ok_iff.mp read
        obtain ⟨allowed, rfl⟩ := foldlM_draftStep_eq_ok_iff.mp drafted
        simp only [Option.or_none] at isRead
        cases isType : (entries.filterMap typeOf?).getLast? with
        | none =>
            rw [isType] at isRead
            cases isRead
        | some type =>
            rw [isType] at isRead
            cases isRead
            exact .object name entries type allowed isType
    | _ => cases read
  · intro describes
    cases describes with
    | object name entries type allowed isType =>
        have drafted : entries.foldlM (draftStep name) ⟨none, none⟩ =
            .ok ⟨some type, (entries.filterMap defaultOf?).getLast?⟩ := by
          rw [foldlM_draftStep_eq_ok_iff]
          refine ⟨allowed, ?_⟩
          simp only [isType, Option.or_none]
        simp only [parameterOf, drafted]
        rfl

theorem mapM_parameterOf_eq_ok_iff {arguments : List Argument}
    {parameters : List FragmentParameter} :
    arguments.mapM parameterOf = .ok parameters ↔ List.Forall₂ Describes arguments parameters := by
  induction arguments generalizing parameters with
  | nil => simp [pure, Except.pure, eq_comm]
  | cons first others inductionHypothesis =>
      rw [List.mapM_cons, Pipeline.bind_eq_ok_iff, List.forall₂_cons_left_iff]
      constructor
      · rintro ⟨parameter, here, behind⟩
        obtain ⟨rest, later, whole⟩ := Pipeline.bind_eq_ok_iff.mp behind
        cases whole
        exact ⟨parameter, rest, parameterOf_eq_ok_iff.mp here, inductionHypothesis.mp later, rfl⟩
      · rintro ⟨parameter, rest, here, later, rfl⟩
        refine ⟨parameter, parameterOf_eq_ok_iff.mpr here, ?_⟩
        rw [inductionHypothesis.mpr later]
        rfl

/-! ## Directives -/

/-- The directives that parameters are read from, and which ones. -/
theorem decode_eq_arguments_iff {directive : Directive} {parameters : List FragmentParameter} :
    decode directive = .ok (some (.arguments parameters)) ↔
      directive.name = argumentsName ∧
        List.Forall₂ Describes directive.arguments parameters := by
  have differ : argumentsName ≠ paginateName := by decide
  constructor
  · intro decoded
    refine ⟨?_, mapM_parameterOf_eq_ok_iff.mp (mapM_parameterOf_of_decode decoded)⟩
    by_contra notArguments
    unfold decode at decoded
    rw [if_neg notArguments] at decoded
    split at decoded
    · obtain ⟨size, _, isSize⟩ := Pipeline.bind_eq_ok_iff.mp decoded
      cases isSize
    · split at decoded <;> cases decoded
  · rintro ⟨isArguments, describe⟩
    unfold decode
    rw [isArguments, if_neg differ, if_pos rfl, mapM_parameterOf_eq_ok_iff.mpr describe]
    rfl

/-- A directive that parameters can be read from, written anew with these. -/
def rewritten? (directive : Directive) : Option Directive :=
  match decode directive with
  | .ok (some (.arguments parameters)) => some (encodeArguments parameters)
  | _ => none

theorem rewritten?_eq_some_iff {directive rewritten : Directive} :
    rewritten? directive = some rewritten ↔
      ∃ parameters, decode directive = .ok (some (.arguments parameters)) ∧
        rewritten = encodeArguments parameters := by
  unfold rewritten?
  split
  · next parameters decoded => simp [decoded, eq_comm]
  · next other => simpa using fun parameters decoded => absurd decoded (other parameters)

/-- Parameters are read as they are written, whatever their names, types and defaults. They can be
read from just those directives whose arguments describe them; written anew, such a directive is
read as before, and written anew once more it stays what it is. Names that are passed on are read as
they are written, too. -/
theorem decode_roundTrips :
    (∀ parameters, decode (encodeArguments parameters) = .ok (some (.arguments parameters))) ∧
      (∀ directive parameters,
        decode directive = .ok (some (.arguments parameters)) ↔
          directive.name = argumentsName ∧
            List.Forall₂ Describes directive.arguments parameters) ∧
      (∀ directive rewritten, rewritten? directive = some rewritten →
        decode rewritten = decode directive ∧ rewritten? rewritten = some rewritten) ∧
      ∀ names, decode (encodeWith names) =
        .ok (some (.passed (names.map fun name => ⟨name, .reference name⟩))) := by
  refine ⟨decode_encodeArguments, fun _ _ => decode_eq_arguments_iff, ?_, ?_⟩
  · intro directive rewritten isRewritten
    obtain ⟨parameters, decoded, rfl⟩ := rewritten?_eq_some_iff.mp isRewritten
    have again := decode_encodeArguments parameters
    constructor
    · rw [again, decoded]
    · exact rewritten?_eq_some_iff.mpr ⟨parameters, again, rfl⟩
  · intro names
    have notPaginate : withName ≠ paginateName := by decide
    have notArguments : withName ≠ argumentsName := by decide
    unfold decode encodeWith
    rw [if_neg notPaginate, if_neg notArguments, if_pos rfl]
    rfl

end QueryPaging.PassDirective

namespace QueryPaging

/-! ## Entries that are repeated -/

namespace Sample

/-- A directive that gives types and defaults repeatedly, and texts with blanks. -/
def looseArguments : Directive :=
  ⟨PassDirective.argumentsName,
    [⟨size, .object [(PassDirective.defaultKey, .int "1"), (Name.typeKey, .string "String"),
        (Name.typeKey, .string " [ Int! ] "), (PassDirective.defaultKey, .int "2")]⟩,
      ⟨items, .object [(Name.typeKey, .string "[[ID!]]!")]⟩]⟩

/-- What is read from it. -/
def settledParameters : List FragmentParameter :=
  [⟨size, .list (.named Name.intType true) false, some (.int "2")⟩,
    ⟨items, .list (.list (.named Name.idType true) false) true, none⟩]

end Sample

theorem PassDirective.decode_roundTrips_loose :
    rewritten? Sample.looseArguments = some (encodeArguments Sample.settledParameters) ∧
      decode (encodeArguments Sample.settledParameters) = decode Sample.looseArguments ∧
      rewritten? (encodeArguments Sample.settledParameters) =
        some (encodeArguments Sample.settledParameters) := by
  have isRewritten : rewritten? Sample.looseArguments =
      some (encodeArguments Sample.settledParameters) := by
    decide +kernel
  exact ⟨isRewritten, decode_roundTrips.2.2.1 _ _ isRewritten⟩

end QueryPaging
