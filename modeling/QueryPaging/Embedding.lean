import QueryPaging.Identity
import QueryPaging.NameRegistry
import QueryPaging.RawText

/-!
# Embedding of fragments

A fragment cannot be sent by itself. For every paginated fragment a query is generated that looks
its parent object up and spreads a renamed copy of the fragment, the wrapper. The query also holds
every fragment that the wrapper reaches.

- `FragmentIndex.reachable` finds those fragments.
- `Embedding.generate` builds the query, and `Embedding.embed` also claims its names.
-/

namespace QueryPaging

/-! ## Reachable fragments -/

mutual

/-- The fragments a selection spreads, in order. -/
def Selection.spreadNames : Selection → List Name
  | .field ⟨_, _, _, _, selections, _⟩ => spreadNamesOf selections
  | .spread ⟨fragment, _⟩ => [fragment]
  | .inline ⟨_, _, selections⟩ => spreadNamesOf selections

def spreadNamesOf : List Selection → List Name
  | [] => []
  | selection :: others => selection.spreadNames ++ spreadNamesOf others

end

abbrev FragmentIndex := Table Name Fragment

namespace FragmentIndex

/-- The index of some fragments. Of several with one name the last counts. -/
def ofFragments (fragments : List Fragment) : FragmentIndex :=
  Table.ofList (fragments.map fun fragment => (fragment.name, fragment))

def without (name : Name) (index : FragmentIndex) : FragmentIndex :=
  index.filter (·.1 != name)

theorem length_without_lt {index : FragmentIndex} {name : Name} {fragment : Fragment}
    (found : index.get? name = some fragment) :
    (without name index).length < index.length := by
  induction index with
  | nil => simp [Table.get?] at found
  | cons entry others ih =>
      obtain ⟨first, body⟩ := entry
      by_cases same : first = name
      · have bound := List.length_filter_le (fun entry => entry.1 != name) others
        simp only [without, same, bne_self_eq_false, Bool.false_eq_true, not_false_eq_true,
          List.filter_cons_of_neg, List.length_cons]
        omega
      · rw [Table.get?, if_neg same] at found
        have shorter := ih found
        have kept : (first != name) = true := by simpa using same
        simp only [without] at shorter
        simpa [without, kept] using shorter

/-- The fragments reached from pending spreads, in depth-first order, each once. Names in `seen`
have been reached before, and `index` holds the fragments not reached yet. -/
def reach (index : FragmentIndex) (seen : List Name) (pending : List Name) :
    Except Fault (List Fragment) :=
  match pending with
  | [] => .ok []
  | name :: others =>
      if name ∈ seen then
        reach index seen others
      else
        match _found : index.get? name with
        | none => .error (.unsupportedShape ("..." ++ name.text) (.missingFragment name))
        | some fragment => do
            let nested := spreadNamesOf fragment.selections
            let later ← reach (without name index) (name :: seen) (nested ++ others)
            return fragment :: later
termination_by (index.length, pending.length)
decreasing_by
  · exact Prod.Lex.right _ (by simp)
  · exact Prod.Lex.left _ _ (length_without_lt _found)

/-- The fragments other than `root` that can be reached from it. -/
def reachable (index : FragmentIndex) (root : Fragment) : Except Fault (List Fragment) :=
  reach index [root.name] (spreadNamesOf root.selections)

end FragmentIndex

/-! ## Generated names -/

/-- How many digits of a hash a wrapper is told apart by. -/
def shortDigestLength : Nat := 8

/-- The first digits of the hash of a text. -/
def shortDigest (text : String) : String :=
  String.ofList ((contentHash text).toList.take shortDigestLength)

def paginationQueryName (fragment : String) : String :=
  fragment ++ "_Pagination_Query"

/-- The name of the copy of a fragment with some parameters. -/
def wrapperName (fragment parameters : String) : String :=
  fragment ++ "_" ++ shortDigest parameters

/-! ## The lookup -/

namespace Identity

structure LookupVariable where
  argument : Name
  type : TypeRef

/-- The variables that the lookup of an object passes, each called like its argument. -/
def lookupVariables : Identity → List LookupVariable
  | .root _ => []
  | .node => [⟨idField, idType⟩]
  | .resolver _ _ arguments => arguments.map fun argument => ⟨argument.argument, argument.type⟩

/-- The field of the query root that looks an object up. -/
def lookupField? : Identity → Option Name
  | .root _ => none
  | .node => some Name.node
  | .resolver _ queryField _ => some queryField

def lookupRequests (identity : Identity) : List VariableRequest :=
  identity.lookupVariables.map fun wanted =>
    ⟨wanted.argument, wanted.type, wanted.argument, .identity, .absent none⟩

/-- The root selections of a generated query around the spread of the wrapper. -/
def lookupSelections (identity : Identity) (spread : Selection) : List Selection :=
  match identity.lookupField? with
  | none => [spread]
  | some lookup =>
      let passed := identity.lookupVariables.map fun wanted =>
        Argument.mk wanted.argument (.reference wanted.argument)
      let keys := identity.keyFields.filter (· != Name.typename)
      let selections :=
        (Name.typename :: keys).map (fun key => Selection.field (FieldOf.plain key []))
          ++ [spread]
      [.field { FieldOf.plain lookup selections with arguments := passed }]

end Identity

/-! ## Generated queries -/

/-- A generated query before its names are claimed. -/
structure Embedding where
  query : Name
  wrapper : Name
  hash : String
  document : Document

namespace Embedding

/-- The spread of the wrapper, forwarding the parameters of the fragment. -/
def wrapperSpread (wrapper : Name) (parameters : VariableSet) : Selection :=
  .spread ⟨wrapper,
    if parameters.isEmpty then [] else [PassDirective.encodeWith parameters.names]⟩

def queryOperation (query wrapper : Name) (parameters declared : VariableSet)
    (identity : Identity) : Operation :=
  { kind := .query
    name := some query
    declarations := declared.definitions
    directives := []
    selections := identity.lookupSelections (wrapperSpread wrapper parameters)
    span := none }

/-- The query of a paginated fragment. -/
def generate (document : Document) (identity : Identity) (index : FragmentIndex) :
    Except Fault Embedding :=
  match document.fragment? with
  | none => .error (.unsupportedShape document.name .notFragment)
  | some fragment => do
      let parameters ← document.variableSet
      let query ← Name.require (paginationQueryName fragment.name)
      let wrapper ← Name.require (wrapperName fragment.name parameters.canonicalText)
      let declared ← parameters.merge identity.lookupRequests
      let operation := queryOperation query wrapper parameters declared identity
      let included ← index.reachable fragment
      let definitions :=
        .operation operation :: .fragment { fragment with name := wrapper }
          :: included.map Definition.fragment
      let hash := contentHash (normalizedText definitions)
      return {
        query
        wrapper
        hash
        document := {
          name := query
          source := document.source
          definitions
          refetch := document.refetch
          generated := some ⟨fragment.name, wrapper, hash⟩ } }

/-- Claim both names of a generated query. When the second cannot be had, the first is given
up. -/
def claimNames (embedding : Embedding) (registry : NameRegistry) :
    Except Fault Unit × NameRegistry :=
  match registry.claim embedding.query embedding.hash with
  | .error fault => (.error fault, registry)
  | .ok claimed =>
      match claimed.claim embedding.wrapper embedding.hash with
      | .error fault => (.error fault, claimed.release embedding.query)
      | .ok both => (.ok (), both)

/-- The query of a paginated fragment with its names claimed, and the registry afterwards. -/
def embed (document : Document) (identity : Identity) (index : FragmentIndex)
    (registry : NameRegistry) : Except Fault Document × NameRegistry :=
  match generate document identity index with
  | .error fault => (.error fault, registry)
  | .ok embedding =>
      match embedding.claimNames registry with
      | (.error fault, registry) => (.error fault, registry)
      | (.ok (), registry) => (.ok embedding.document, registry)

end Embedding

end QueryPaging
