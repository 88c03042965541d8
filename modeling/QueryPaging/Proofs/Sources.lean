import QueryPaging.Document.Collecting
import QueryPaging.Proofs.Selections
import QueryPaging.Proofs.Spelling

/-!
# What a source text holds

All values in a document that is collected from a source text are written, wherever they stand: in
the arguments of fields, in directives, and as the defaults of variables.

- `Reader.gives_selectionSet`, `Reader.gives_operation`, `Reader.gives_fragment`: what may be
  executed.
- `Reader.leaves_systemDefinition`: what is read around it.
- `Document.IsSourced.isWritten`: the documents of a source text.
-/

namespace QueryPaging

/-! ## Written documents -/

def Argument.IsWritten (argument : Argument) : Prop :=
  argument.value.isWritten = true

def Directive.IsWritten (directive : Directive) : Prop :=
  ∀ argument ∈ directive.arguments, argument.IsWritten

def VariableDefinition.IsWritten (declared : VariableDefinition) : Prop :=
  ∀ value ∈ declared.default, value.isWritten = true

/-- That all values in a selection and below it are written. -/
inductive Selection.IsWritten : Selection → Prop where
  | field {body : Field}
      (arguments : ∀ argument ∈ body.arguments, argument.IsWritten)
      (directives : ∀ directive ∈ body.directives, directive.IsWritten)
      (selections : ∀ selection ∈ body.selections, Selection.IsWritten selection) :
      Selection.IsWritten (.field body)
  | spread {body : Spread}
      (directives : ∀ directive ∈ body.directives, directive.IsWritten) :
      Selection.IsWritten (.spread body)
  | inline {body : InlineFragment}
      (directives : ∀ directive ∈ body.directives, directive.IsWritten)
      (selections : ∀ selection ∈ body.selections, Selection.IsWritten selection) :
      Selection.IsWritten (.inline body)

/-- That all values in a definition are written. -/
inductive Definition.IsWritten : Definition → Prop where
  | operation {body : Operation}
      (declarations : ∀ declared ∈ body.declarations, declared.IsWritten)
      (directives : ∀ directive ∈ body.directives, directive.IsWritten)
      (selections : ∀ selection ∈ body.selections, selection.IsWritten) :
      Definition.IsWritten (.operation body)
  | fragment {body : Fragment}
      (directives : ∀ directive ∈ body.directives, directive.IsWritten)
      (selections : ∀ selection ∈ body.selections, selection.IsWritten) :
      Definition.IsWritten (.fragment body)

def Document.IsWritten (document : Document) : Prop :=
  ∀ definition ∈ document.definitions, definition.IsWritten

namespace Reader

variable {α : Type} {good : α → Prop}

theorem Gives.seqRight {β : Type} {first : Reader β} {second : Reader α}
    (before : Leaves first)
    (gives : Gives good second) :
    Gives good (first *> second) := by
  rw [seqRight_eq_bind]
  exact before.bind fun _ _ => gives

theorem Gives.seqLeft {β : Type} {first : Reader α} {second : Reader β}
    (gives : Gives good first)
    (behind : Leaves second) :
    Gives good (first <* second) := by
  rw [seqLeft_eq_bind]
  exact gives.bind fun _ isGood => behind.bind fun _ _ => .result isGood

/-- Readers that are chosen between and go on alike. -/
theorem Gives.branch {β : Type} {condition : Prop} [Decidable condition] {first second : Reader β}
    {next : β → Reader α}
    (one : Leaves first)
    (other : Leaves second)
    (behind : ∀ value, Gives good (next value)) :
    Gives good (if condition then first >>= next else second >>= next) := by
  split
  · exact one.bind fun value _ => behind value
  · exact other.bind fun value _ => behind value

/-! ## Parts -/

theorem leaves_position :
    Leaves position :=
  Gives.get.bind fun _ _ => .result trivial

theorem leaves_peekSecond :
    Leaves peekSecond :=
  Gives.get.bind fun _ _ => .result trivial

theorem leaves_joined :
    Leaves joined := by
  refine Gives.get.bind fun cursor _ => ?_
  split
  · exact .failure
  · exact .result trivial

theorem leaves_peekName :
    Leaves peekName := by
  refine leaves_peek.bind fun next _ => ?_
  split
  · exact .result trivial
  · exact .result trivial

theorem leaves_seesWord (word : String) :
    Leaves (seesWord word) :=
  leaves_peekName.bind fun _ _ => .result trivial

theorem leaves_word (word : String) :
    Leaves (Reader.word word) := by
  refine leaves_name.bind fun found _ => ?_
  split
  · exact .result trivial
  · exact .failure

theorem gives_whenSees {part : Reader α} (lexeme : Lexeme)
    (inside : Gives good part) :
    Gives (fun found => ∀ value ∈ found, good value) (whenSees lexeme part) := by
  refine (leaves_sees lexeme).bind fun seen _ => ?_
  split
  · refine inside.map fun value isGood found same => ?_
    rwa [← Option.some.inj same]
  · exact .result fun value absent => by cases absent

/-- What holds of all parts if there are any holds of those there are. -/
theorem forall_mem_getD {found : Option (List α)}
    (each : ∀ values ∈ found, ∀ value ∈ values, good value) :
    ∀ value ∈ found.getD [], good value := by
  cases found with
  | none => exact List.forall_mem_nil _
  | some values => exact each values rfl

theorem leaves_typeOver {item : Reader TypeRef}
    (inside : Leaves item) :
    Leaves (typeOver item) := by
  refine gives_advance.bind fun lexeme _ => ?_
  split
  · exact (leaves_accept _).bind fun _ _ => .result trivial
  · exact inside.bind fun _ _ => (leaves_expect _).bind fun _ _ =>
      (leaves_accept _).bind fun _ _ => .result trivial
  · exact .failure

theorem leaves_typeRef (levels : Nat) :
    Leaves (typeRef levels) := by
  induction levels with
  | zero => exact leaves_typeOver .failure
  | succ levels inductionHypothesis => exact leaves_typeOver inductionHypothesis

theorem gives_optionalArguments (constant : Bool) (levels : Nat) :
    Gives (fun arguments => ∀ argument ∈ arguments, argument.IsWritten)
      (optionalArguments constant levels) := by
  exact (gives_whenSees _ (gives_arguments constant levels)).bind fun _ written =>
    .result (forall_mem_getD written)

theorem gives_directive (constant : Bool) (levels : Nat) :
    Gives Directive.IsWritten (directive constant levels) :=
  (leaves_expect _).bind fun _ _ => leaves_name.bind fun _ _ =>
    (gives_optionalArguments constant levels).bind fun _ written => .result written

theorem gives_directives (constant : Bool) (levels : Nat) :
    Gives (fun directives => ∀ directive ∈ directives, directive.IsWritten)
      (directives constant levels) :=
  gives_parts _ (gives_directive constant levels)

theorem gives_optionalDefault (levels : Nat) :
    Gives (fun default => ∀ value ∈ default, value.isWritten = true) (optionalDefault levels) :=
  gives_whenSees _ (.seqRight (leaves_expect _) (gives_value true levels))

/-! ## Selections -/

theorem leaves_condition :
    Leaves condition :=
  (leaves_word _).bind fun _ _ => leaves_name

theorem leaves_fragmentName :
    Leaves fragmentName := by
  refine leaves_name.bind fun called _ => ?_
  split
  · exact .failure
  · exact .result trivial

section Nested

variable {nested : Reader (List Selection)}
  (inside : Gives (fun selections => ∀ selection ∈ selections, selection.IsWritten) nested)

include inside

theorem gives_afterEllipsis (levels : Nat) :
    Gives Selection.IsWritten (afterEllipsis levels nested) := by
  refine leaves_peekName.bind fun following _ => ?_
  split
  · split
    · refine leaves_condition.bind fun type _ => ?_
      refine (gives_directives false levels).bind fun applied directives => ?_
      exact inside.bind fun selections written => .result (.inline directives written)
    · refine leaves_fragmentName.bind fun called _ => ?_
      exact (gives_directives false levels).bind fun applied directives =>
        .result (.spread directives)
  · refine (gives_directives false levels).bind fun applied directives => ?_
    exact inside.bind fun selections written => .result (.inline directives written)

theorem gives_field (levels : Nat) :
    Gives (fun field => (Selection.field field).IsWritten) (field levels nested) := by
  refine leaves_position.bind fun start _ => leaves_peekSecond.bind fun second _ => ?_
  refine .branch (.map (.seqLeft leaves_name (leaves_expect _)) fun _ _ => trivial)
    (.result trivial) fun renamed => ?_
  refine leaves_name.bind fun called _ => ?_
  refine (gives_optionalArguments false levels).bind fun passed arguments => ?_
  refine (gives_directives false levels).bind fun applied directives => ?_
  refine (gives_whenSees _ inside).bind fun found written => ?_
  exact Gives.get.bind fun _ _ => .result (.field arguments directives (forall_mem_getD written))

theorem gives_selection (levels : Nat) :
    Gives Selection.IsWritten (selection levels nested) := by
  refine (leaves_accept _).bind fun accepted _ => ?_
  split
  · exact leaves_joined.bind fun _ _ => gives_afterEllipsis inside levels
  · exact (gives_field inside levels).bind fun _ written => .result written

end Nested

theorem gives_selectionSet (levels : Nat) :
    Gives (fun selections => ∀ selection ∈ selections, selection.IsWritten)
      (selectionSet levels) := by
  induction levels with
  | zero => exact .failure
  | succ levels inductionHypothesis =>
      exact (leaves_expect _).bind fun _ _ =>
        (gives_someParts _ (gives_selection inductionHypothesis levels)).bind fun _ written =>
          (leaves_expect _).bind fun _ _ => .result written

/-! ## Operations and fragments -/

theorem gives_variableDefinition :
    Gives VariableDefinition.IsWritten variableDefinition :=
  (leaves_expect _).bind fun _ _ => leaves_name.bind fun _ _ => (leaves_expect _).bind fun _ _ =>
    (leaves_typeRef _).bind fun _ _ => (gives_optionalDefault _).bind fun _ written =>
      (gives_directives true _).bind fun _ _ => .result written

theorem gives_variableDefinitions :
    Gives (fun definitions => ∀ declared ∈ definitions, declared.IsWritten) variableDefinitions :=
  (leaves_expect _).bind fun _ _ =>
    (gives_someParts _ gives_variableDefinition).bind fun _ written =>
      (leaves_expect _).bind fun _ _ => .result written

theorem gives_operation :
    Gives (fun body => (Definition.operation body).IsWritten) operation := by
  refine leaves_position.bind fun start _ => (leaves_sees _).bind fun seen _ => ?_
  split
  · refine (gives_selectionSet _).bind fun selections written => Gives.get.bind fun _ _ => ?_
    exact .result (.operation (List.forall_mem_nil _) (List.forall_mem_nil _) written)
  · refine leaves_name.bind fun keyword _ => ?_
    split
    · refine leaves_peekName.bind fun next _ => ?_
      -- An operation is read alike with a name and without one.
      split
      all_goals
        refine Gives.bind (?_ : Leaves _) fun called _ => ?_
        rotate_left
        · refine (gives_whenSees _ gives_variableDefinitions).bind fun found declared => ?_
          refine (gives_directives false _).bind fun applied directives => ?_
          refine (gives_selectionSet _).bind fun selections written => ?_
          exact Gives.get.bind fun _ _ =>
            .result (.operation (forall_mem_getD declared) directives written)
      · exact leaves_name.map fun _ _ => trivial
      · exact .result trivial
    · exact .failure

theorem leaves_seesFragment :
    Leaves seesFragment := by
  refine leaves_peek.bind fun next _ => ?_
  split
  · exact leaves_peekSecond.bind fun _ _ => .result trivial
  · exact .result trivial

theorem gives_fragment :
    Gives (fun body => (Definition.fragment body).IsWritten) fragment := by
  refine leaves_position.bind fun start _ => gives_advance.bind fun keyword _ => ?_
  refine leaves_fragmentName.bind fun called _ => leaves_condition.bind fun type _ => ?_
  refine (gives_directives false _).bind fun applied directives => ?_
  refine (gives_selectionSet _).bind fun selections written => Gives.get.bind fun _ _ => ?_
  exact .result (.fragment directives written)

/-! ## Type systems -/

theorem leaves_description :
    Leaves description := by
  refine leaves_peek.bind fun next _ => ?_
  split
  · exact gives_advance.bind fun _ _ => .result trivial
  · exact .result trivial

theorem leaves_leadingDescription :
    Leaves leadingDescription := by
  refine leaves_peek.bind fun next _ => ?_
  split
  · exact gives_advance.bind fun _ _ => leaves_joined
  · exact .result trivial

theorem leaves_skipDirectives :
    Leaves skipDirectives :=
  (gives_directives true _).bind fun _ _ => .result trivial

theorem leaves_enclosed {part : Reader α} (opening closing : Char) (opens : Lexeme → Bool)
    (each : Leaves part) :
    Leaves (enclosed opening closing opens part) :=
  (leaves_expect _).bind fun _ _ => (gives_someParts opens each).bind fun _ _ =>
    (leaves_expect _).bind fun _ _ => .result trivial

theorem leaves_optionallyEnclosed {part : Reader α} (opening closing : Char)
    (opens : Lexeme → Bool)
    (each : Leaves part) :
    Leaves (optionallyEnclosed opening closing opens part) :=
  (gives_whenSees _ (leaves_enclosed opening closing opens each)).bind fun _ _ => .result trivial

theorem leaves_separated {part : Reader α} (separator : Char)
    (each : Leaves part) :
    Leaves (separated separator part) :=
  (leaves_accept _).bind fun _ _ => each.bind fun _ _ =>
    (gives_parts _ (.seqRight (leaves_expect _) each)).bind fun _ _ => .result trivial

theorem leaves_inputValue :
    Leaves inputValue :=
  leaves_description.bind fun _ _ => leaves_name.bind fun _ _ => (leaves_expect _).bind fun _ _ =>
    (leaves_typeRef _).bind fun _ _ => (gives_optionalDefault _).bind fun _ _ =>
      leaves_skipDirectives.bind fun _ _ => .result trivial

theorem leaves_fieldDefinition :
    Leaves fieldDefinition :=
  leaves_description.bind fun _ _ => leaves_name.bind fun _ _ =>
    (leaves_optionallyEnclosed _ _ _ leaves_inputValue).bind fun _ _ =>
      (leaves_expect _).bind fun _ _ => (leaves_typeRef _).bind fun _ _ =>
        leaves_skipDirectives.bind fun _ _ => .result trivial

theorem leaves_fieldDefinitions :
    Leaves fieldDefinitions :=
  leaves_optionallyEnclosed _ _ _ leaves_fieldDefinition

theorem leaves_interfaces :
    Leaves interfaces := by
  refine (leaves_seesWord _).bind fun seen _ => ?_
  split
  · exact (leaves_word _).bind fun _ _ => leaves_separated _ leaves_name
  · exact .result trivial

theorem leaves_enumValue :
    Leaves enumValue := by
  refine leaves_description.bind fun _ _ => leaves_name.bind fun called _ => ?_
  refine leaves_skipDirectives.bind fun _ _ => ?_
  split
  · exact .result trivial
  · exact .failure

theorem leaves_rootOperation :
    Leaves rootOperation := by
  refine leaves_name.bind fun keyword _ => ?_
  split
  · refine (leaves_expect _).bind fun _ _ => leaves_peekName.bind fun next _ => ?_
    split
    · exact leaves_name.bind fun _ _ => .result trivial
    · exact .result trivial
  · exact .failure

theorem leaves_directiveLocation :
    Leaves directiveLocation := by
  refine leaves_name.bind fun called _ => ?_
  split
  · exact .result trivial
  · exact .failure

theorem leaves_directiveDefinition :
    Leaves directiveDefinition := by
  refine (leaves_word _).bind fun _ _ => (leaves_expect _).bind fun _ _ => ?_
  refine leaves_name.bind fun called _ => ?_
  refine (leaves_optionallyEnclosed _ _ _ leaves_inputValue).bind fun declared _ => ?_
  refine (leaves_seesWord _).bind fun seen _ => ?_
  have behind : Leaves (do
      word "on"
      let _ ← separated '|' directiveLocation
      return SystemDefinition.directive ⟨called, declared⟩) :=
    (leaves_word _).bind fun _ _ =>
      (leaves_separated _ leaves_directiveLocation).bind fun _ _ => .result trivial
  split
  · exact (leaves_word _).bind fun _ _ => behind
  · exact behind

theorem leaves_typeDefinition :
    Leaves typeDefinition := by
  refine leaves_name.bind fun keyword _ => leaves_name.bind fun called _ => ?_
  -- One case for each keyword, in the order of the reader.
  split
  · exact leaves_skipDirectives.bind fun _ _ => .result trivial
  split
  · exact leaves_interfaces.bind fun _ _ => leaves_skipDirectives.bind fun _ _ =>
      leaves_fieldDefinitions.bind fun _ _ => .result trivial
  split
  · exact leaves_interfaces.bind fun _ _ => leaves_skipDirectives.bind fun _ _ =>
      leaves_fieldDefinitions.bind fun _ _ => .result trivial
  split
  · refine leaves_skipDirectives.bind fun _ _ => ?_
    exact (gives_whenSees _ (.seqRight (leaves_expect _) (leaves_separated _ leaves_name))).bind
      fun _ _ => .result trivial
  split
  · exact leaves_skipDirectives.bind fun _ _ =>
      (leaves_optionallyEnclosed _ _ _ leaves_enumValue).bind fun _ _ => .result trivial
  split
  · exact leaves_skipDirectives.bind fun _ _ =>
      (leaves_optionallyEnclosed _ _ _ leaves_inputValue).bind fun _ _ => .result trivial
  · exact .failure

theorem leaves_rootOperations :
    Leaves rootOperations :=
  (leaves_optionallyEnclosed _ _ _ leaves_rootOperation).bind fun _ _ => .result trivial

theorem leaves_schemaExtension :
    Leaves schemaExtension := by
  refine (leaves_word _).bind fun _ _ => leaves_skipDirectives.bind fun directed _ => ?_
  split
  · have listed := Gives.seqLeft (.seqRight (leaves_expect (.mark '\x7b'))
      (gives_parts opensName leaves_rootOperation)) (leaves_expect (.mark '\x7d'))
    exact (gives_whenSees _ listed).bind fun _ _ => .result trivial
  · exact (leaves_enclosed _ _ _ leaves_rootOperation).bind fun _ _ => .result trivial

theorem leaves_extension :
    Leaves extension := by
  refine (leaves_word _).bind fun _ _ => leaves_joined.bind fun _ _ => ?_
  refine (leaves_seesWord _).bind fun seen _ => ?_
  split
  · exact leaves_schemaExtension
  · refine leaves_typeDefinition.bind fun (_, saysMore) _ => ?_
    change Leaves (if saysMore then _ else _)
    split
    · exact .result trivial
    · exact .failure

theorem leaves_systemDefinition :
    Leaves systemDefinition := by
  refine (leaves_seesWord _).bind fun extending _ => ?_
  split
  · exact leaves_extension
  · refine leaves_leadingDescription.bind fun _ _ => (leaves_seesWord _).bind fun isSchema _ => ?_
    split
    · exact (leaves_word _).bind fun _ _ => leaves_skipDirectives.bind fun _ _ =>
        leaves_rootOperations.bind fun _ _ => .result trivial
    · refine (leaves_seesWord _).bind fun isDirective _ => ?_
      split
      · exact leaves_directiveDefinition
      · exact leaves_typeDefinition.bind fun _ _ => .result trivial

/-! ## Source texts -/

/-- Whether what may be executed of a definition is written. -/
def WrittenDefinition (source : SourceDefinition) : Prop :=
  ∀ definition ∈ source.executable?, definition.IsWritten

theorem gives_definition :
    Gives WrittenDefinition definition := by
  refine leaves_peekName.bind fun opening _ => (leaves_sees _).bind fun seen _ => ?_
  split
  · refine gives_operation.bind fun body written => .result ?_
    intro definition same
    rwa [← Option.some.inj same]
  · refine leaves_seesFragment.bind fun isFragment _ => ?_
    split
    · refine gives_fragment.bind fun body written => .result ?_
      intro definition same
      rwa [← Option.some.inj same]
    · refine leaves_systemDefinition.bind fun _ _ => .result ?_
      intro definition absent
      cases absent

end Reader

theorem isWritten_of_executableDefinitions? {text : String} {definitions : List Definition}
    (read : executableDefinitions? text = some definitions) :
    ∀ definition ∈ definitions, definition.IsWritten := by
  obtain ⟨sources, isRead, rfl⟩ := Option.map_eq_some_iff.mp read
  have written := (Reader.gives_someParts _ Reader.gives_definition).of_run isRead
  intro definition member
  obtain ⟨source, among, isExecutable⟩ := List.mem_filterMap.mp member
  exact written source among definition isExecutable

/-- That a document is one of those in some source text. -/
def Document.IsSourced (document : Document) : Prop :=
  ∃ source text documents, collect? source text = some documents ∧ document ∈ documents

/-- The documents of a source text are written. -/
theorem Document.IsSourced.isWritten {document : Document}
    (sourced : document.IsSourced) :
    document.IsWritten := by
  obtain ⟨source, text, documents, collecting, member⟩ := sourced
  obtain ⟨definitions, read, rfl⟩ := Option.map_eq_some_iff.mp collecting
  obtain ⟨definition, among, rfl⟩ := List.mem_map.mp member
  exact List.forall_mem_singleton.mpr (isWritten_of_executableDefinitions? read definition among)

/-! ## Fields -/

theorem Definition.IsWritten.selections {definition : Definition}
    (written : definition.IsWritten) :
    ∀ selection ∈ definition.selections, selection.IsWritten := by
  cases written with
  | operation _ _ selections => exact selections
  | fragment _ selections => exact selections

theorem Selection.IsWritten.children {selection : Selection}
    (written : selection.IsWritten) :
    ∀ child ∈ selection.children, child.IsWritten := by
  cases written with
  | field _ _ selections => exact selections
  | spread _ => exact List.forall_mem_nil _
  | inline _ selections => exact selections

/-- A field of written selections is written wherever it stands. -/
theorem isWritten_of_fieldAt? {field : Field} :
    ∀ {steps : List Nat} {selections : List Selection},
      (∀ selection ∈ selections, selection.IsWritten) →
        fieldAt? selections steps = some field → (Selection.field field).IsWritten
  | [], _, _, found => by cases found
  | [_], _, written, found =>
      written _ (List.mem_of_getElem? (fieldAt?_single_eq_some_iff.mp found))
  | _ :: _ :: _, _, written, found => by
      rw [fieldAt?_step, Option.bind_eq_some_iff] at found
      obtain ⟨selection, present, below⟩ := found
      exact isWritten_of_fieldAt? (written _ (List.mem_of_getElem? present)).children below

end QueryPaging
