import QueryPaging.Embedding
import QueryPaging.Metadata.Basic
import QueryPaging.PagingMode

/-!
# Building selection metadata

Spreads are replaced by the fragments they name, and what remains is a tree of fields and inline
fragments; spreads of unknown fragments stay and select nothing. Level by level, its fields are
gathered by response key; fields that share a key share their selections.
-/

namespace QueryPaging

/-! ## Expansion of spreads -/

mutual

/-- A selection with every spread in it replaced. -/
def Selection.expandWith (resolve : Name → List Selection) : Selection → List Selection
  | .field ⟨aliasName, name, arguments, directives, selections, span⟩ =>
      [.field ⟨aliasName, name, arguments, directives, expandAllWith resolve selections, span⟩]
  | .spread ⟨fragment, _⟩ => resolve fragment
  | .inline ⟨condition, directives, selections⟩ =>
      [.inline ⟨condition, directives, expandAllWith resolve selections⟩]

def expandAllWith (resolve : Name → List Selection) : List Selection → List Selection
  | [] => []
  | selection :: others => selection.expandWith resolve ++ expandAllWith resolve others

end

/-- What a spread stands for: an inline fragment with the condition and the selections of the
fragment it names. The spread of an unknown fragment stays. Fragments may spread each other `depth`
deep. -/
def FragmentIndex.resolve (index : FragmentIndex) : (depth : Nat) → Name → List Selection
  | 0, _ => []
  | depth + 1, name =>
      match index.get? name with
      | some fragment =>
          [.inline ⟨some fragment.condition, [],
            expandAllWith (index.resolve depth) fragment.selections⟩]
      | none => [.spread ⟨name, []⟩]

/-- Selections without spreads of known fragments. Fragments that do not reach themselves spread
each other no deeper than there are fragments, and the last of them may still spread an unknown
one. -/
def FragmentIndex.expand (index : FragmentIndex) (selections : List Selection) : List Selection :=
  expandAllWith (index.resolve (index.length + 1)) selections

mutual

/-- How many fields lie on top of each other in a selection. -/
def Selection.nesting : Selection → Nat
  | .field ⟨_, _, _, _, selections, _⟩ => nestingOf selections + 1
  | .spread _ => 0
  | .inline ⟨_, _, selections⟩ => nestingOf selections

def nestingOf : List Selection → Nat
  | [] => 0
  | selection :: others => max selection.nesting (nestingOf others)

end

/-! ## Occurrences -/

/-- A field with the innermost type condition it stands under. -/
structure Occurrence where
  condition : Option Name
  field : Field

mutual

/-- The fields of a selection under a condition, in order. -/
def Selection.occurrences (condition : Option Name) : Selection → List Occurrence
  | .field field => [⟨condition, field⟩]
  | .spread _ => []
  | .inline ⟨inner, _, selections⟩ => occurrencesOf (inner <|> condition) selections

def occurrencesOf (condition : Option Name) : List Selection → List Occurrence
  | [] => []
  | selection :: others =>
      selection.occurrences condition ++ occurrencesOf condition others

end

namespace Occurrence

def isPaginated (occurrence : Occurrence) : Bool :=
  (PassDirective.findPaginate? occurrence.field.directives).isSome

/-- The condition of an occurrence that does not apply to every object of the parent. -/
def specificTo? (schema : Schema) (parent : String) (occurrence : Occurrence) : Option Name :=
  match occurrence.condition with
  | some condition =>
      if schema.isAbstract parent && condition.text != parent then some condition else none
  | none => none

end Occurrence

/-! ## Cache keys -/

/-- The arguments of a field that tell its answers apart. A paginated field leaves out those that
page, since all its pages go into one list. -/
def keyArguments (field : Field) (paginated : Bool) : List Argument :=
  let kept := field.arguments.filter fun argument =>
    !(paginated && PagingArgument.areNamed PagingArgument.all argument.name)
  kept.mergeSort fun left right => left.name.text ≤ right.name.text

def keyRaw (field : Field) (paginated : Bool) : String :=
  let arguments := keyArguments field paginated
  let printed := arguments.map fun argument =>
    argument.name.text ++ ": " ++ argument.value.render
  field.name.text
    ++ (if arguments.isEmpty then "" else "(" ++ ", ".intercalate printed ++ ")")
    ++ (if paginated then "::paginated" else "")

/-! ## Levels -/

/-- Where a level lies as seen from the paginated field. -/
inductive LevelContext where
  | plain
  /-- Directly under the paginated field. -/
  | connection
  | pageInfo
deriving DecidableEq

/-- What the metadata of a document is built with. -/
structure MetadataBuilder where
  schema : Schema
  method : Option PagingMethod
  hints : List MergeHint

namespace MetadataBuilder

/-- How the selections under some fields of one response key become metadata. -/
abbrev Below := String → List Selection → LevelContext → SelectionMetadata

/-- Where the level under a field lies. -/
def contextBelow (context : LevelContext) (paginated : Bool) (name : Name) : LevelContext :=
  if paginated then .connection
  else if context = .connection ∧ name = Augmentation.pageInfo then .pageInfo
  else .plain

def updates (builder : MetadataBuilder) (context : LevelContext) (paginated : Bool) (name : Name) :
    List MergeHint :=
  match builder.method with
  | none => []
  | some .offset => if paginated then builder.hints else []
  | some .cursor =>
      if context = .pageInfo ∨ (context = .connection ∧ name = Augmentation.edges) then
        builder.hints
      else
        []

/-- The metadata of the fields that share a response key, read off the first of them. A field that
the schema does not know has none. -/
def field? (builder : MetadataBuilder) (below : Below) (parent : String) (context : LevelContext)
    (group : List Occurrence) : Option FieldMetadata := do
  let first ← group.head?
  let name := first.field.name
  let type ← builder.schema.fieldType? ((first.condition.map Name.text).getD parent) name
  let paginated := group.any Occurrence.isPaginated
  let selections := group.flatMap (·.field.selections)
  return {
    type := type.inner
    keyRaw := QueryPaging.keyRaw first.field paginated
    updates := builder.updates context paginated name
    nullable := !type.isRequired
    selection :=
      if selections.isEmpty then none
      else some (below type.inner selections (contextBelow context paginated name))
    isAbstract := builder.schema.isAbstract type.inner }

/-- The metadata of some fields, response key by response key. -/
def fields (builder : MetadataBuilder) (below : Below) (parent : String) (context : LevelContext)
    (occurrences : List Occurrence) : Table String FieldMetadata :=
  let groups := Table.groupBy (fun occurrence => occurrence.field.responseKey.text) occurrences
  groups.filterMap fun (key, group) =>
    (builder.field? below parent context group).map (key, ·)

/-- The abstract condition each object type falls under that has no fields of its own. -/
def typeMap (schema : Schema) (conditions : List Name) : Table String String :=
  let abstract := conditions.filter (schema.isAbstract ·.text)
  let entries := abstract.flatMap fun condition =>
    ((schema.possibleTypes condition.text).filter (!conditions.contains ·)).map fun type =>
      (type.text, condition.text)
  entries.foldl (fun map entry => Table.putNew entry.1 entry.2 map) []

/-- One level: the fields every object answers, and the fields that some types answer as well. -/
def level (builder : MetadataBuilder) (below : Below) (parent : String)
    (selections : List Selection) (context : LevelContext) : SelectionMetadata :=
  let occurrences := occurrencesOf none selections
  let specificTo := Occurrence.specificTo? builder.schema parent
  let common := builder.fields below parent context
    (occurrences.filter fun occurrence => (specificTo occurrence).isNone)
  let specific : Table Name (List Occurrence) :=
    (occurrences.filterMap fun occurrence =>
      (specificTo occurrence).map (·, occurrence)).foldl
        (fun groups entry => Table.push entry.1 entry.2 groups) []
  let conditionFields := specific.map fun (condition, group) =>
    (condition.text,
      common.foldl (fun fields entry => Table.putNew entry.1 entry.2 fields)
        (builder.fields below condition context group))
  { fields := common
    abstractFields :=
      if specific.isEmpty then none
      else some ⟨conditionFields, typeMap builder.schema specific.keys⟩ }

def levels (builder : MetadataBuilder) : (depth : Nat) → Below
  | 0 => fun _ _ _ => ⟨[], none⟩
  | depth + 1 => fun parent selections context =>
      builder.level (builder.levels depth) parent selections context

/-- The metadata of selections in which spreads have been replaced. -/
def build (builder : MetadataBuilder) (parent : String) (selections : List Selection) :
    SelectionMetadata :=
  builder.levels (nestingOf selections) parent selections .plain

end MetadataBuilder

/-- The metadata of the first operation among some definitions. `variants` is the number of
generated definitions that lead to the paginated field; its hints are repeated as often. -/
def selectionMetadata (schema : Schema) (definitions : List Definition) (rootType : String)
    (refetch : Option RefetchSpec) (variants : Nat) : SelectionMetadata :=
  let index := FragmentIndex.ofFragments (definitions.filterMap Definition.fragment?)
  let selections := ((definitions.findSome? Definition.operation?).map (·.selections)).getD []
  let hints := ((refetch.map MergeHint.forSpec).map fun hints =>
    (List.replicate variants hints).flatten).getD []
  MetadataBuilder.build ⟨schema, refetch.map (·.method), hints⟩ rootType (index.expand selections)

end QueryPaging
