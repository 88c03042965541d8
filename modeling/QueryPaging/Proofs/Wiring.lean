import QueryPaging.Proofs.Faulting
import QueryPaging.Proofs.Hygiene

/-!
# The wiring of generated queries

A generated query declares the parameters of its fragment and behind them the variables of the
lookup. The parameters go to the wrapper by their own names, and the variables of the lookup to its
arguments.

- `Identity.Resolves`: what is known of an identity that was resolved.
- `Embedding.Wiring`: how the variables of a generated query are declared and passed on.
- `Embedding.wiring_of_resolve`: every query that is embedded is wired, and one whose lookup would
  share a variable with the fragment is refused.
-/

namespace QueryPaging

/-! ## Identities that were resolved -/

namespace Identity

/-- The ways to find an object of a type again from the query root. -/
inductive Resolves (schema : Schema) (queryRoot : Name) (type : String) : Identity → Prop where
  | root (isRoot : queryRoot.text = type) : Resolves schema queryRoot type (.root queryRoot)
  | node (below : queryRoot.text ≠ type) : Resolves schema queryRoot type .node
  | resolver {name queryField : Name} {arguments : List IdentityArgument}
      {lookup : FieldDefinition}
      (below : queryRoot.text ≠ type)
      (isNamed : name.text = type)
      (isLookup : schema.field? queryRoot queryField = some lookup)
      (typed : ∀ argument ∈ arguments,
        (lookup.argument? argument.argument).map (·.type) = some argument.type) :
      Resolves schema queryRoot type (.resolver name queryField arguments)

/-- What passes a key to a field: the argument that the key is mapped to, with the type that the
field declares for it. -/
structure Passes (resolver : ResolverConfig) (lookup : FieldDefinition) (key : String)
    (argument : IdentityArgument) : Prop where
  keyed : argument.key.text = key
  mapped : argument.argument.text = resolver.argumentFor key
  typed : (lookup.argument? argument.argument).map (·.type) = some argument.type

variable {schema : Schema} {config : IdentityConfig} {type : String} {identity : Identity}

theorem passes_of_argumentFor {root : Name} {resolver : ResolverConfig} {lookup : FieldDefinition}
    {key : String} {argument : IdentityArgument}
    (result : argumentFor type root resolver lookup key = .ok argument) :
    Passes resolver lookup key argument := by
  unfold argumentFor at result
  simp only at result
  split at result
  · cases result
  · next declared isDeclared =>
      obtain ⟨name, isName, made⟩ := Pipeline.bind_eq_ok_iff.mp result
      cases made
      have called : declared.name.text = resolver.argumentFor key := by
        simpa using List.find?_some isDeclared
      refine ⟨Name.require_eq_ok_iff.mp isName, called, ?_⟩
      rw [called, isDeclared, Option.map_some]

theorem resolves_of_resolve
    (result : resolve schema config type = .ok identity) :
    ∃ queryRoot, schema.queryRoot? = some queryRoot ∧ Resolves schema queryRoot type identity := by
  unfold resolve at result
  split at result
  · cases result
  next queryRoot hasRoot =>
  refine ⟨queryRoot, hasRoot, ?_⟩
  split at result
  · next isRoot =>
      cases result
      exact .root isRoot
  next below =>
  split at result
  · next resolver _ =>
      obtain ⟨queryField, _, result⟩ := Pipeline.bind_eq_ok_iff.mp result
      split at result
      · cases result
      next lookup isLookup =>
      obtain ⟨arguments, isMapped, result⟩ := Pipeline.bind_eq_ok_iff.mp result
      obtain ⟨name, isName, result⟩ := Pipeline.bind_eq_ok_iff.mp result
      cases result
      refine .resolver below (Name.require_eq_ok_iff.mp isName) isLookup fun argument member => ?_
      obtain ⟨key, _, made⟩ := Pipeline.exists_of_mem_mapM isMapped member
      exact (passes_of_argumentFor made).typed
  · split at result
    · cases result
      exact .node below
    · cases result

end Identity

/-! ## Lookups and their variables -/

namespace Identity

/-- The type that the schema declares for an argument of the field that looks objects up. -/
def declaredType? (schema : Schema) (identity : Identity) (argument : Name) : Option TypeRef := do
  let queryRoot ← schema.queryRoot?
  let lookup ← schema.field? queryRoot (← identity.lookupField?)
  (lookup.argument? argument).map (·.type)

/-- How the root selections of a query lead to a spread: at once, or by the field that looks the
object up, where the keys of the object are selected before the spread. -/
inductive Selects (identity : Identity) (spread : Spread) : List Selection → Prop where
  | root (isRoot : identity.lookupField? = none) : Selects identity spread [.spread spread]
  | lookup {field : Field}
      (isLookup : identity.lookupField? = some field.name)
      (named : field.arguments.map (·.name) = identity.lookupNames)
      (passes : ∀ argument ∈ field.arguments, argument.value = .reference argument.name)
      (selects : field.selections =
        (Name.typename :: identity.keyFields.filter (· != Name.typename)).map
            (fun key => Selection.field (FieldOf.plain key [])) ++ [.spread spread]) :
      Selects identity spread [.field field]

theorem selects_lookupSelections (identity : Identity) (spread : Spread) :
    identity.Selects spread (identity.lookupSelections (.spread spread)) := by
  unfold lookupSelections
  split
  · next isRoot => exact .root isRoot
  · next lookup isLookup =>
      refine .lookup isLookup ?_ ?_ rfl
      · simp [lookupNames]
      · intro argument member
        obtain ⟨wanted, _, rfl⟩ := List.mem_map.mp member
        rfl

variable {schema : Schema} {config : IdentityConfig} {type : String} {identity : Identity}

/-- The variables of a lookup by a configured field have the types that the schema declares. -/
theorem declaredType?_of_resolve {wanted : LookupVariable}
    (result : resolve schema config type = .ok identity)
    (other : identity ≠ .node)
    (member : wanted ∈ identity.lookupVariables) :
    identity.declaredType? schema wanted.argument = some wanted.type := by
  obtain ⟨queryRoot, hasRoot, resolves⟩ := resolves_of_resolve result
  cases resolves with
  | root isRoot => cases member
  | node below => exact absurd rfl other
  | resolver below isNamed isLookup typed =>
      obtain ⟨argument, among, rfl⟩ := List.mem_map.mp member
      simp only [declaredType?, hasRoot, lookupField?, Option.bind_eq_bind, Option.bind_some,
        isLookup]
      exact typed argument among

end Identity

/-! ## Generated queries -/

namespace Embedding

/-- The directives that pass variables on by their own names. -/
def forwarding (names : List Name) : List Directive :=
  if names = [] then []
  else [⟨PassDirective.withName, names.map fun name => ⟨name, .reference name⟩⟩]

/-- How the operation of a generated query declares its variables and passes them on: to a wrapper
those of the fragment, and those of the lookup behind them to the arguments of the lookup. -/
structure Wiring (schema : Schema) (parameters : VariableSet) (identity : Identity)
    (wrapper : Name) (operation : Operation) (lookups : List VariableDefinition) : Prop where
  declares : operation.declarations = parameters.definitions ++ lookups
  named : lookups.map (·.name) = identity.lookupNames.eraseDups
  bare : ∀ lookup ∈ lookups, lookup.default = none ∧ lookup.directives = []
  typed : identity ≠ .node → ∀ lookup ∈ lookups,
    identity.declaredType? schema lookup.name = some lookup.type
  node : identity = .node → lookups = [⟨Identity.idField, Identity.idType, none, []⟩]
  /-- The variables that the arguments of the lookup pass are no parameters of the fragment. -/
  apart : ∀ name ∈ identity.lookupNames,
    name ∈ operation.declarations.map (·.name) ∧ name ∉ parameters.names
  selects : identity.Selects ⟨wrapper, forwarding parameters.names⟩ operation.selections

theorem wrapperSpread_eq (wrapper : Name) (parameters : VariableSet) :
    wrapperSpread wrapper parameters = .spread ⟨wrapper, forwarding parameters.names⟩ := by
  have sameEmpty : parameters.isEmpty = true ↔ parameters.names = [] := by
    rw [VariableSet.isEmpty, List.isEmpty_iff, VariableSet.names, List.map_eq_nil_iff]
  unfold wrapperSpread forwarding
  by_cases empty : parameters.names = []
  · rw [if_pos (sameEmpty.mpr empty), if_pos empty]
  · rw [if_neg (sameEmpty.not.mpr empty), if_neg empty]
    rfl

end Embedding

namespace Generation

variable {document : Document} {identity : Identity} {index : FragmentIndex}
  (generation : Generation document identity index)

/-- Behind the parameters, a generated query binds the variables of the lookup, each once. -/
theorem exists_lookups :
    ∃ added, generation.declared.bindings = generation.parameters.bindings ++ added ∧
      added.map (·.name) = identity.lookupNames.eraseDups ∧
      ∀ binding ∈ added, ∃ request ∈ identity.lookupRequests, binding = request.binding := by
  obtain ⟨added, extended, fromRequests⟩ :=
    (VariableSet.merge_extends generation.isDeclared).bindings
  refine ⟨added, extended, ?_, fromRequests⟩
  have names := VariableSet.names_merge generation.isDeclared
  have apart : identity.lookupNames.filter (· ∉ generation.parameters.names) =
      identity.lookupNames := by
    rw [List.filter_eq_self]
    exact fun name isLookup => decide_eq_true (generation.not_mem_names_parameters isLookup)
  rw [identity.names_lookupRequests, apart, VariableSet.names, extended, List.map_append,
    ← VariableSet.names] at names
  exact List.append_cancel_left names

theorem wiring {schema : Schema} {config : IdentityConfig} {type : String}
    (resolved : Identity.resolve schema config type = .ok identity) :
    ∃ lookups, Embedding.Wiring schema generation.parameters identity generation.wrapper
      (Embedding.queryOperation generation.query generation.wrapper generation.parameters
        generation.declared identity) lookups := by
  obtain ⟨added, extended, named, fromRequests⟩ := generation.exists_lookups
  have declares : generation.declared.definitions =
      generation.parameters.definitions ++ added.map VariableSet.toDefinition := by
    rw [VariableSet.definitions, extended, List.map_append, ← VariableSet.definitions]
  have fromVariables : ∀ binding ∈ added, ∃ wanted ∈ identity.lookupVariables,
      binding = ⟨wanted.argument, wanted.type, none, .identity⟩ := by
    intro binding member
    obtain ⟨request, isRequest, rfl⟩ := fromRequests binding member
    obtain ⟨wanted, isWanted, rfl⟩ := List.mem_map.mp isRequest
    exact ⟨wanted, isWanted, rfl⟩
  refine ⟨added.map VariableSet.toDefinition, ?_⟩
  constructor
  case declares => exact declares
  case named =>
    rw [List.map_map]
    exact named
  case bare =>
    intro lookup member
    obtain ⟨binding, among, rfl⟩ := List.mem_map.mp member
    obtain ⟨wanted, _, rfl⟩ := fromVariables binding among
    exact ⟨rfl, rfl⟩
  case typed =>
    intro other lookup member
    obtain ⟨binding, among, rfl⟩ := List.mem_map.mp member
    obtain ⟨wanted, isWanted, rfl⟩ := fromVariables binding among
    exact Identity.declaredType?_of_resolve resolved other isWanted
  case node =>
    rintro rfl
    have single : added.map (·.name) = [Identity.idField] := named
    obtain ⟨binding, rest, rfl, _, none⟩ := List.map_eq_cons_iff.mp single
    rw [List.map_eq_nil_iff] at none
    subst none
    obtain ⟨wanted, isWanted, rfl⟩ := fromVariables binding List.mem_cons_self
    rw [List.mem_singleton.mp isWanted]
    rfl
  case apart =>
    intro name isLookup
    refine ⟨?_, generation.not_mem_names_parameters isLookup⟩
    have isDeclared := generation.mem_names_declared_iff.mpr (Or.inr isLookup)
    rw [Embedding.queryOperation, VariableSet.definitions, List.map_map]
    exact isDeclared
  case selects =>
    rw [Embedding.queryOperation, Embedding.wrapperSpread_eq]
    exact identity.selects_lookupSelections _

end Generation

namespace Embedding

variable {schema : Schema} {config : IdentityConfig} {type : String} {identity : Identity}
  {document : Document} {fragment : Fragment} {parameters : VariableSet}

/-- A lookup cannot share a variable with the fragment. -/
theorem exists_collision_of_shared {name : Name} (index : FragmentIndex)
    (isFragment : document.fragment? = some fragment)
    (isRead : document.variableSet = .ok parameters)
    (isLookup : name ∈ identity.lookupNames)
    (isParameter : name ∈ parameters.names) :
    ∃ variableName argument existing requested, generate document identity index =
      .error (.variableCollision variableName argument existing requested) := by
  have read := Document.variableSetOf_of_fragment? isFragment isRead
  cases merged : parameters.merge identity.lookupRequests with
  | ok declared =>
      exact absurd isParameter (identity.not_mem_names_of_merge read merged isLookup)
  | error fault =>
      obtain ⟨variableName, argument, existing, requested, rfl⟩ :=
        VariableSet.exists_collision_of_merge merged
      have isQuery := Name.require_eq_ok_iff.mpr
        (rfl : (⟨_, isNameText_paginationQueryName fragment.name⟩ : Name).text = _)
      have isWrapper := Name.require_eq_ok_iff.mpr
        (rfl : (⟨_, isNameText_wrapperName fragment.name parameters.canonicalText⟩ : Name).text = _)
      refine ⟨variableName, argument, existing, requested, ?_⟩
      simp only [generate, isFragment, isRead, isQuery, isWrapper, merged, bind, Except.bind]

/-- A query that is embedded declares the parameters of its fragment as they are, and behind them
the variables of the lookup, each once: with the types of the arguments that a configured field
declares, or `ID!` for `node`. The wrapper is the fragment but for its name. A lookup that would
share a variable with the fragment is refused. -/
theorem wiring_of_resolve (index : FragmentIndex) (registry : NameRegistry)
    (resolved : Identity.resolve schema config type = .ok identity)
    (isFragment : document.fragment? = some fragment)
    (isRead : document.variableSet = .ok parameters) :
    (∀ query later, embed document identity index registry = (.ok query, later) →
      ∃ operation wrapper lookups, ∃ included : List Fragment,
        query.definitions = .operation operation :: .fragment { fragment with name := wrapper } ::
          included.map Definition.fragment ∧
        Wiring schema parameters identity wrapper operation lookups) ∧
    ∀ name ∈ identity.lookupNames, name ∈ parameters.names →
      ∃ variableName argument existing requested, embed document identity index registry =
        (.error (.variableCollision variableName argument existing requested), registry) := by
  constructor
  · intro query later result
    obtain ⟨generation, rfl⟩ := exists_generation_of_embed result
    have sameFragment : generation.fragment = fragment := by
      have found := generation.isFragment
      rw [isFragment, Option.some.injEq] at found
      exact found.symm
    have sameParameters : generation.parameters = parameters := by
      have read := generation.isRead
      rw [isRead, Except.ok.injEq] at read
      exact read.symm
    obtain ⟨lookups, wiring⟩ := generation.wiring resolved
    rw [sameParameters] at wiring
    refine ⟨_, generation.wrapper, lookups, generation.included, ?_, wiring⟩
    rw [← sameFragment, ← sameParameters]
    rfl
  · intro name isLookup isParameter
    obtain ⟨variableName, argument, existing, requested, failed⟩ :=
      exists_collision_of_shared index isFragment isRead isLookup isParameter
    exact ⟨variableName, argument, existing, requested, by rw [embed, failed]⟩

end Embedding

/-! ## Two keys for one argument -/

namespace Sample

def userField : Name := ⟨"user", by decide⟩
def loginKey : Name := ⟨"login", by decide⟩
def akaKey : Name := ⟨"aka", by decide⟩

/-- A schema that looks users up by their login or by a key that may be null. -/
def userSchema : Schema where
  types := Schema.BuiltIn.types ++
    [⟨⟨Identity.nodeInterface, by decide⟩, .interface []
        [⟨Identity.idField, [], .named Name.idType true⟩]⟩,
      ⟨user, .object [⟨Identity.nodeInterface, by decide⟩]
        [⟨items,
          PagingArgument.offsets.map fun argument =>
            ⟨argument.name, .named Name.intType false, none⟩,
          .list (.named Name.stringType false) false⟩]⟩,
      ⟨queryType, .object []
        [⟨Name.node, [⟨Identity.idField, .named Name.idType false, none⟩],
            .named ⟨Identity.nodeInterface, by decide⟩ false⟩,
          ⟨userField, [⟨loginKey, .named Name.stringType true, none⟩], .named user false⟩]⟩]
  roots := [⟨.query, queryType⟩]
  directives := []

/-- Users are told apart by two keys, and both are passed as the login. -/
def userConfig : IdentityConfig :=
  ⟨["id"], [("User", ⟨["login", "aka"], some ⟨"user", [("aka", "login")]⟩⟩)]⟩

def userIdentity : Identity :=
  .resolver user userField
    [⟨loginKey, loginKey, .named Name.stringType true⟩,
      ⟨akaKey, loginKey, .named Name.stringType true⟩]

def keyed : Document :=
  Document.ofDefinition "sample.graphql" (.fragment keyedPart)

def keyedParameters : VariableSet :=
  ⟨[⟨Identity.idField, Identity.idType, none, .declared⟩], by decide⟩

theorem variableSet_keyed :
    keyed.variableSet = .ok keyedParameters := by
  have found : PassDirective.findArguments? keyedPart.directives =
      some (PassDirective.encodeArguments [⟨Identity.idField, Identity.idType, none⟩]) := rfl
  have isRead : keyed.variableSet = VariableSet.ofFragment keyedPart := rfl
  rw [isRead, VariableSet.ofFragment, found]
  simp only [PassDirective.decode_encodeArguments]
  rfl

def keyedGeneration : Generation keyed userIdentity [] where
  fragment := keyedPart
  parameters := keyedParameters
  query := ⟨paginationQueryName part, isNameText_paginationQueryName part⟩
  wrapper := ⟨wrapperName part keyedParameters.canonicalText, isNameText_wrapperName part _⟩
  declared := ⟨[⟨Identity.idField, Identity.idType, none, .declared⟩,
    ⟨loginKey, .named Name.stringType true, none, .identity⟩], by decide⟩
  included := []
  isFragment := by rfl
  isRead := variableSet_keyed
  isQuery := Name.require_eq_ok_iff.mpr rfl
  isWrapper := Name.require_eq_ok_iff.mpr rfl
  isDeclared := by rfl
  isIncluded := by
    have toNone : spreadNamesOf keyedPart.selections = [] := by rfl
    rw [FragmentIndex.reachable, toNone, FragmentIndex.reach]

end Sample

namespace Embedding

/-- The login is declared once behind the parameter, and `node` would share the parameter. -/
theorem wiring_of_resolve_user :
    Identity.resolve Sample.userSchema Sample.userConfig "User" = .ok Sample.userIdentity ∧
    Identity.resolve Sample.userSchema .standard "User" = .ok .node ∧
    Sample.keyed.fragment? = some Sample.keyedPart ∧
    Sample.keyed.variableSet = .ok Sample.keyedParameters ∧
    (∃ query later, embed Sample.keyed Sample.userIdentity [] (NameRegistry.seeded []) =
        (.ok query, later) ∧
      ∃ operation wrapper lookups, ∃ included : List Fragment,
        query.definitions = .operation operation ::
          .fragment { Sample.keyedPart with name := wrapper } ::
            included.map Definition.fragment ∧
        Wiring Sample.userSchema Sample.keyedParameters Sample.userIdentity wrapper operation
          lookups) ∧
    ∃ variableName argument existing requested,
      embed Sample.keyed .node [] (NameRegistry.seeded []) =
        (.error (.variableCollision variableName argument existing requested),
          NameRegistry.seeded []) := by
  have resolved : Identity.resolve Sample.userSchema Sample.userConfig "User" =
      .ok Sample.userIdentity := rfl
  have resolvedNode : Identity.resolve Sample.userSchema .standard "User" = .ok .node := rfl
  obtain ⟨later, embedded⟩ : ∃ later, embed Sample.keyed Sample.userIdentity []
      (NameRegistry.seeded []) = (.ok Sample.keyedGeneration.outcome, later) :=
    exists_embed_of_free Sample.keyedGeneration
      (NameRegistry.get?_seeded_eq_none (by simp)) (NameRegistry.get?_seeded_eq_none (by simp))
  refine ⟨resolved, resolvedNode, rfl, Sample.variableSet_keyed, ⟨_, later, embedded, ?_⟩, ?_⟩
  · exact (wiring_of_resolve [] _ resolved rfl Sample.variableSet_keyed).1 _ later embedded
  · exact (wiring_of_resolve [] _ resolvedNode rfl Sample.variableSet_keyed).2 Identity.idField
      List.mem_cons_self (by decide)

/-- The variable of `node` need not have the type that the schema declares for its argument. -/
theorem not_forall_typedAsDeclared :
    ¬ ∀ (schema : Schema) (config : IdentityConfig) (type : String) (identity : Identity)
      (document query : Document) (index : FragmentIndex) (registry later : NameRegistry)
      (operation : Operation),
      Identity.resolve schema config type = .ok identity →
      embed document identity index registry = (.ok query, later) →
      query.operation? = some operation →
        ∀ name ∈ identity.lookupNames, ∀ declaration ∈ operation.declarations,
          declaration.name = name →
            identity.declaredType? schema name = some declaration.type := by
  intro always
  obtain ⟨later, embedded⟩ := Sample.exists_embed_passing
  have same := always Sample.userSchema .standard "User" .node Sample.passing _ _ _ later _ rfl
    embedded rfl Identity.idField List.mem_cons_self
    ⟨Identity.idField, Identity.idType, none, []⟩ List.mem_cons_self rfl
  exact absurd same (by decide)

end Embedding

end QueryPaging
