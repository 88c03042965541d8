import QueryPaging.Proofs.Batches
import QueryPaging.Proofs.Framing

/-!
# Variables written back

The variables of a document are read, merged with requests, written back, and read again.

- `Definition.Receives`: all that writing a set does to a definition.
- `Document.rereads_declare`: what was merged is read again, and nothing else has changed.
-/

namespace QueryPaging

/-- That a definition of some variables receives those of a set. An operation gains at its end a
declaration for each variable it had none of, whatever it declares already; of a fragment the first
`@arguments` is replaced where it stands, or else one comes last if there is anything to declare. -/
inductive Definition.Receives (existing set : VariableSet) : Definition → Definition → Prop where
  | operation (body : Operation) :
      Receives existing set (.operation body)
        (.operation { body with
          declarations :=
            body.declarations ++ (set.addedSince existing).map VariableSet.toDefinition })
  | replaced (body : Fragment) (before after : List Directive) (mark : Directive)
      (whole : body.directives = before ++ mark :: after)
      (isMark : mark.name = PassDirective.argumentsName)
      (isFirst : ∀ directive ∈ before, directive.name ≠ PassDirective.argumentsName) :
      Receives existing set (.fragment body)
        (.fragment { body with
          directives := before ++ PassDirective.encodeArguments set.parameters :: after })
  | appended (body : Fragment)
      (occupied : set.isEmpty = false)
      (unmarked : ∀ directive ∈ body.directives, directive.name ≠ PassDirective.argumentsName) :
      Receives existing set (.fragment body)
        (.fragment { body with
          directives := body.directives ++ [PassDirective.encodeArguments set.parameters] })
  | untouched (body : Fragment)
      (isEmpty : set.isEmpty = true)
      (unmarked : ∀ directive ∈ body.directives, directive.name ≠ PassDirective.argumentsName) :
      Receives existing set (.fragment body) (.fragment body)

namespace Document

variable {definition : Definition} {existing : VariableSet}

/-! ## Writing -/

/-- A variable is lacking from the declarations of an operation just if it is not bound by them. -/
theorem isNone_get?_ofOperation (body : Operation) (name : Name) :
    ((VariableSet.ofOperation body).get? name).isNone =
      !body.declarations.any (·.name == name) := by
  by_cases declared : body.declarations.any (·.name == name) = true
  · have isBound : name ∈ (VariableSet.ofOperation body).names :=
      mem_names_ofOperation.mpr declared
    obtain ⟨binding, bound⟩ := VariableSet.exists_get?_eq_some_iff.mpr isBound
    rw [bound, declared]
    rfl
  · have unbound : name ∉ (VariableSet.ofOperation body).names :=
      fun isBound => declared (mem_names_ofOperation.mp isBound)
    rw [VariableSet.get?_eq_none_iff.mpr unbound, eq_false_of_ne_true declared]
    rfl

/-- The declarations an operation lacks are looked for by name, so that a variable it declares twice
is not taken for a new one. -/
theorem missing_eq_addedSince (body : Operation) (set : VariableSet) :
    (set.bindings.filter fun binding => !body.declarations.any (·.name == binding.name)) =
      set.addedSince (VariableSet.ofOperation body) := by
  rw [VariableSet.addedSince]
  apply List.filter_congr
  intro binding _
  rw [isNone_get?_ofOperation]

theorem receives_declareIn
    (read : variableSetOf definition = .ok existing)
    (set : VariableSet) :
    definition.Receives existing set (declareIn set definition) := by
  cases definition with
  | operation body =>
      cases read
      rw [declareIn, missing_eq_addedSince]
      exact .operation body
  | fragment body =>
      rw [declareIn]
      rcases unmarked_or_exists_first body.directives with
        unmarked | ⟨before, mark, after, whole, isMark, isFirst⟩
      · rw [declareParameters_of_unmarked unmarked]
        by_cases isEmpty : set.isEmpty = true
        · rw [if_pos isEmpty, List.append_nil]
          exact .untouched body isEmpty unmarked
        · rw [if_neg isEmpty]
          exact .appended body (eq_false_of_ne_true isEmpty) unmarked
      · rw [whole, declareParameters_append_cons isMark isFirst]
        exact .replaced body before after mark whole isMark isFirst

/-! ## Reading again -/

theorem declare_of_definitions_eq_cons {document : Document} {others : List Definition}
    (parts : document.definitions = definition :: others)
    (set : VariableSet) :
    document.declare set = { document with definitions := declareIn set definition :: others } := by
  rw [declare, mapPrimary, parts]

/-- The variables that a document has after a merge are those it is read to have once they are
written into it, as if its author had declared them all. The first definition receives them, and
nothing else in the document changes. -/
theorem rereads_declare {document : Document} {others : List Definition}
    {requests : List VariableRequest} {merged : VariableSet}
    (parts : document.definitions = definition :: others)
    (read : document.variableSet = .ok existing)
    (result : existing.merge requests = .ok merged) :
    (document.declare merged).variableSet = .ok merged.asDeclared ∧
      ∃ written, definition.Receives existing merged written ∧
        document.declare merged = { document with definitions := written :: others } := by
  have primary : document.primary? = some definition := by
    rw [primary?, parts]
    rfl
  have isRead : variableSetOf definition = .ok existing := by
    rw [← variableSet_eq primary]
    exact read
  have written := declare_of_definitions_eq_cons parts merged
  constructor
  · obtain ⟨added, extended, _⟩ := (VariableSet.merge_extends result).bindings
    have primaryNow : (document.declare merged).primary? = some (declareIn merged definition) := by
      rw [written, primary?]
      rfl
    rw [variableSet_eq primaryNow]
    exact variableSetOf_declareIn isRead extended
  · exact ⟨declareIn merged definition, receives_declareIn isRead merged, written⟩

end Document

/-! ## An operation that repeats a declaration -/

namespace Sample

def requestOf (name : Name) : VariableRequest :=
  ⟨name, .named Name.intType false, name, .promoted, .absent (some (.int "20"))⟩

/-- An operation that declares its size twice, the first time with a directive. -/
def repeatingOperation : Operation where
  kind := .query
  name := some twice
  declarations :=
    [⟨size, .named Name.stringType false, some (.string "m"), [⟨rest, []⟩]⟩,
      ⟨size, .named Name.intType true, none, []⟩]
  directives := []
  selections := [.field (FieldOf.plain items [])]
  span := none

/-- A fragment that declares parameters twice, of which only the first count. -/
def repeatingFragment : Fragment where
  name := part
  condition := queryType
  directives :=
    [⟨rest, []⟩, PassDirective.encodeArguments [⟨size, .named Name.intType false, none⟩],
      ⟨rest, []⟩, PassDirective.encodeArguments [⟨items, .named Name.intType false, none⟩]]
  selections := [.field (FieldOf.plain items [])]
  span := none

end Sample

/-- The size is read as it is declared last and met by a request; the limit comes last. -/
theorem Document.rereads_declare_repeating :
    let definition := Definition.operation Sample.repeatingOperation
    let document := Document.ofDefinition "sample.graphql" definition
    let existing := VariableSet.ofOperation Sample.repeatingOperation
    let requests := [Sample.requestOf Sample.size, Sample.requestOf PagingArgument.limit.name]
    ∃ merged, existing.merge requests = .ok merged ∧
      merged.names = [Sample.size, PagingArgument.limit.name] ∧
      document.definitions = [definition] ∧
      document.variableSet = .ok existing ∧
      (document.declare merged).variableSet = .ok merged.asDeclared ∧
      ∃ written, definition.Receives existing merged written ∧
        document.declare merged = { document with definitions := [written] } := by
  intro definition document existing requests
  have result : existing.merge requests =
      .ok (existing.insert (Sample.requestOf PagingArgument.limit.name).binding) := rfl
  have parts : document.definitions = [definition] := rfl
  have read : document.variableSet = .ok existing := rfl
  exact ⟨_, result, rfl, parts, read, Document.rereads_declare parts read result⟩

/-- Of two directives with parameters the first is replaced, and both stay where they are. -/
example (set : VariableSet) :
    Document.declareParameters set Sample.repeatingFragment.directives =
      [⟨Sample.rest, []⟩, PassDirective.encodeArguments set.parameters, ⟨Sample.rest, []⟩,
        PassDirective.encodeArguments [⟨Sample.items, .named Name.intType false, none⟩]] :=
  rfl

end QueryPaging
