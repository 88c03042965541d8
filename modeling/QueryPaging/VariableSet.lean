import QueryPaging.PassDirective

/-!
# Variable sets

The variables a document declares, in order. Operations declare them as variable definitions and
fragments as parameters; both are read into a `VariableSet`, which holds each name once.

`VariableSet.merge` adds the variables some requests ask for, or reuses those already there.
-/

namespace QueryPaging

inductive VariableOrigin where
  /-- The author of the document. -/
  | declared
  /-- The promotion of a pagination argument. -/
  | promoted
  /-- The lookup of an object. -/
  | identity
deriving DecidableEq

/-- A variable with its type, its default and its origin. -/
structure VariableBinding where
  name : Name
  type : TypeRef
  default : Option Value
  origin : VariableOrigin
deriving DecidableEq

/-- The variables of one document, each name once. -/
structure VariableSet where
  bindings : List VariableBinding
  distinct : (bindings.map (·.name)).Nodup

namespace VariableSet

instance : DecidableEq VariableSet := fun left right =>
  decidable_of_iff (left.bindings = right.bindings) <| by
    cases left
    cases right
    simp

def empty : VariableSet :=
  ⟨[], by simp⟩

def size (set : VariableSet) : Nat :=
  set.bindings.length

def isEmpty (set : VariableSet) : Bool :=
  set.bindings.isEmpty

def names (set : VariableSet) : List Name :=
  set.bindings.map (·.name)

def get? (set : VariableSet) (name : Name) : Option VariableBinding :=
  set.bindings.find? (·.name == name)

/-- The default of a variable, if it is bound and has one. -/
def default? (set : VariableSet) (name : Name) : Option Value :=
  (set.get? name).bind (·.default)

/-! ## Insertion -/

/-- The bindings with one more. A name already bound keeps its place and takes the new binding. -/
def insertBinding (binding : VariableBinding) : List VariableBinding → List VariableBinding
  | [] => [binding]
  | first :: others =>
      if first.name = binding.name then binding :: others
      else first :: insertBinding binding others

theorem names_insertBinding (binding : VariableBinding) (bindings : List VariableBinding) :
    (insertBinding binding bindings).map (·.name) =
      if binding.name ∈ bindings.map (·.name) then bindings.map (·.name)
      else bindings.map (·.name) ++ [binding.name] := by
  induction bindings with
  | nil => simp [insertBinding]
  | cons first others ih =>
      by_cases same : first.name = binding.name
      · simp [insertBinding, same]
      · have other : binding.name ≠ first.name := Ne.symm same
        simp only [insertBinding, same, if_false, List.map_cons, ih, List.mem_cons, other,
          false_or]
        split <;> simp_all

theorem nodup_names_insertBinding {binding : VariableBinding} {bindings : List VariableBinding}
    (distinct : (bindings.map (·.name)).Nodup) :
    ((insertBinding binding bindings).map (·.name)).Nodup := by
  rw [names_insertBinding]
  split
  · exact distinct
  · next absent =>
      rw [List.nodup_append]
      refine ⟨distinct, by simp, ?_⟩
      intro left present right equality same
      simp only [List.mem_singleton] at equality
      subst equality
      subst same
      exact absent present

def insert (set : VariableSet) (binding : VariableBinding) : VariableSet :=
  ⟨insertBinding binding set.bindings, nodup_names_insertBinding set.distinct⟩

/-- The set of some bindings, where the last binding of a name counts and the first gives its
place. -/
def ofBindings (bindings : List VariableBinding) : VariableSet :=
  bindings.foldl insert empty

/-! ## Reading declarations -/

def ofDefinition (definition : VariableDefinition) : VariableBinding :=
  ⟨definition.name, definition.type, definition.default, .declared⟩

def ofParameter (parameter : FragmentParameter) : VariableBinding :=
  ⟨parameter.name, parameter.type, parameter.default, .declared⟩

def ofOperation (operation : Operation) : VariableSet :=
  ofBindings (operation.declarations.map ofDefinition)

/-- The parameters a fragment declares. -/
def ofFragment (fragment : Fragment) : Except Fault VariableSet :=
  match PassDirective.findArguments? fragment.directives with
  | none => .ok empty
  | some directive => do
      match ← PassDirective.decode directive with
      | some (.arguments parameters) => return ofBindings (parameters.map ofParameter)
      | _ => return empty

/-! ## Writing declarations -/

def toDefinition (binding : VariableBinding) : VariableDefinition :=
  ⟨binding.name, binding.type, binding.default, []⟩

def toParameter (binding : VariableBinding) : FragmentParameter :=
  ⟨binding.name, binding.type, binding.default⟩

/-- One variable definition for each binding, in order. -/
def definitions (set : VariableSet) : List VariableDefinition :=
  set.bindings.map toDefinition

/-- The bindings as parameters of a fragment, in order. -/
def parameters (set : VariableSet) : List FragmentParameter :=
  set.bindings.map toParameter

def canonicalBinding (binding : VariableBinding) : String :=
  binding.name.text ++ ":" ++ binding.type.render
    ++ (binding.default.map fun value => "=" ++ value.render).getD ""

/-- The text from which names are derived: each binding with its type and its default, in order. -/
def canonicalText (set : VariableSet) : String :=
  ",".intercalate (set.bindings.map canonicalBinding)

end VariableSet

/-! ## Requests -/

/-- How a field supplies the argument that a variable is requested for. -/
inductive RequestKind where
  /-- It passes a variable. -/
  | reference
  /-- It passes a literal, which has to be the default. -/
  | literal (value : Value)
  /-- It passes nothing; a variable that has to be added gets the fallback. -/
  | absent (fallback : Option Value)
deriving DecidableEq

/-- A variable that has to be bound for an argument. -/
structure VariableRequest where
  name : Name
  type : TypeRef
  argument : Name
  origin : VariableOrigin
  kind : RequestKind
deriving DecidableEq

namespace VariableRequest

def default (request : VariableRequest) : Option Value :=
  match request.kind with
  | .reference => none
  | .literal value => some value
  | .absent fallback => fallback

def binding (request : VariableRequest) : VariableBinding :=
  ⟨request.name, request.type, request.default, request.origin⟩

/-- Whether a variable that looks up an object would be shared with anything else. -/
def crossesIdentity (request : VariableRequest) (existing : VariableBinding) : Bool :=
  existing.origin != request.origin
    && (existing.origin == .identity || request.origin == .identity)

/-- Whether the request can be met by a binding already there. -/
def isMetBy (request : VariableRequest) (existing : VariableBinding) : Bool :=
  !request.crossesIdentity existing
    && existing.type.inner == request.type.inner
    && match request.kind with
      | .literal value => existing.default == some value
      | _ => true

end VariableRequest

namespace VariableSet

def meet (set : VariableSet) (request : VariableRequest) : Except Fault VariableSet :=
  match set.get? request.name with
  | none => .ok (set.insert request.binding)
  | some existing =>
      if request.isMetBy existing then
        .ok set
      else
        .error (.variableCollision request.name request.argument existing.type request.type)

/-- The set with all requests met, in order. -/
def merge (set : VariableSet) (requests : List VariableRequest) : Except Fault VariableSet :=
  requests.foldlM meet set

/-- The bindings whose names are not bound in an earlier set. -/
def addedSince (set before : VariableSet) : List VariableBinding :=
  set.bindings.filter fun binding => (before.get? binding.name).isNone

end VariableSet

end QueryPaging
