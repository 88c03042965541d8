import QueryPaging.Fault
import QueryPaging.Graphql.TypeRef.Text

/-!
# Directives of the pass

- `@paginate` marks the field to page through.
- `@arguments` declares the parameters of a fragment, with their types as texts.
- `@with` passes values for those parameters at a spread.

Each directive is decoded once; nothing else looks at its raw arguments.
-/

namespace QueryPaging

/-- A typed parameter of a fragment, with an optional default. -/
structure FragmentParameter where
  name : Name
  type : TypeRef
  default : Option Value
deriving DecidableEq

inductive PassDirective where
  | paginate (pageSize : Option Value)
  | arguments (parameters : List FragmentParameter)
  | passed (values : List Argument)
deriving DecidableEq

namespace PassDirective

def paginateName : Name := ⟨"paginate", by decide⟩
def argumentsName : Name := ⟨"arguments", by decide⟩
def withName : Name := ⟨"with", by decide⟩
def defaultKey : Name := ⟨"default", by decide⟩

/-- Whether a directive belongs to the pass. -/
def isOwn (directive : Directive) : Bool :=
  directive.name == paginateName || directive.name == argumentsName
    || directive.name == withName

/-! ## Decoding -/

/-- The page size after one more argument of `@paginate`. The last page size counts. -/
def pageSizeStep (_ : Option Value) (argument : Argument) : Except Fault (Option Value) :=
  if argument.name.text = "pageSize" then
    if argument.value.int32?.isSome then
      .ok (some argument.value)
    else
      .error (.malformedDirective .pageSizeNotInteger)
  else
    .error (.malformedDirective (.unknownArgument argument.name))

/-- What has been read of a parameter so far. -/
structure ParameterDraft where
  type : Option TypeRef
  default : Option Value

/-- The draft after one more entry. The last type and the last default count. -/
def draftStep (parameter : Name) (draft : ParameterDraft) (entry : Name × Value) :
    Except Fault ParameterDraft :=
  if entry.1 = defaultKey then
    .ok { draft with default := some entry.2 }
  else
    match entry with
    | (key, .string text) =>
        if key = Name.typeKey then
          match TypeRef.ofText? text with
          | some type => .ok { draft with type := some type }
          | none => .error (.malformedDirective (.invalidType parameter text))
        else
          .error (.malformedDirective (.unexpectedKey parameter key))
    | (key, _) => .error (.malformedDirective (.unexpectedKey parameter key))

def parameterOf (argument : Argument) : Except Fault FragmentParameter :=
  match argument.value with
  | .object entries => do
      let draft ← entries.foldlM (draftStep argument.name) ⟨none, none⟩
      match draft.type with
      | some type => return ⟨argument.name, type, draft.default⟩
      | none => throw (.malformedDirective (.missingType argument.name))
  | _ => .error (.malformedDirective (.notObject argument.name))

/-- The directive decoded, or nothing if it does not belong to the pass. -/
def decode (directive : Directive) : Except Fault (Option PassDirective) := do
  if directive.name = paginateName then
    return some (.paginate (← directive.arguments.foldlM pageSizeStep none))
  else if directive.name = argumentsName then
    return some (.arguments (← directive.arguments.mapM parameterOf))
  else if directive.name = withName then
    return some (.passed directive.arguments)
  else
    return none

/-! ## Encoding -/

def encodeParameter (parameter : FragmentParameter) : Argument :=
  { name := parameter.name
    value := .object ((Name.typeKey, .string parameter.type.render)
      :: (parameter.default.map fun value => (defaultKey, value)).toList) }

def encodeArguments (parameters : List FragmentParameter) : Directive :=
  ⟨argumentsName, parameters.map encodeParameter⟩

/-- The directive that passes each name as the variable of that name. -/
def encodeWith (names : List Name) : Directive :=
  ⟨withName, names.map fun name => ⟨name, .reference name⟩⟩

def findPaginate? (directives : List Directive) : Option Directive :=
  findDirective? paginateName directives

def findArguments? (directives : List Directive) : Option Directive :=
  findDirective? argumentsName directives

end PassDirective

end QueryPaging
