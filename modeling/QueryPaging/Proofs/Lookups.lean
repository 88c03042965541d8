import Mathlib.Data.List.Nodup
import QueryPaging.Config.Loading
import QueryPaging.Proofs.Wiring

/-!
# Lookups that the schema allows

A generated query looks its object up by a field of the query root. Where the field is configured,
the keys of the type are passed as arguments that the field declares, by variables of the declared
types; nothing asks whether the field requires more than that. Where it is `node`, its arguments are
not looked at.

- `FieldDefinition.Takes`, `FieldDefinition.Allows`: an argument, and a list of them, that a field
  can be called with.
- `Identity.Configured`: what is known of a lookup by a configured field.
- `Embedding.IsLookup`: what the lookup of a query passes, and when that is allowed.
- `Embedding.lookup_of_resolve`: every query that is embedded looks its object up so.
-/

namespace QueryPaging

/-! ## Calls -/

namespace FieldDefinition

/-- The argument is declared, and passes a variable that is declared with the very same type. -/
def Takes (definition : FieldDefinition) (declarations : List VariableDefinition)
    (argument : Argument) : Prop :=
  ∃ input declaration, definition.argument? argument.name = some input ∧
    declaration ∈ declarations ∧ argument.value = .reference declaration.name ∧
    declaration.type = input.type

/-- The field can be called with these arguments: each is passed once and taken, and all that are
required are among them. -/
structure Allows (definition : FieldDefinition) (declarations : List VariableDefinition)
    (arguments : List Argument) : Prop where
  once : (arguments.map (·.name)).Nodup
  taken : ∀ argument ∈ arguments, definition.Takes declarations argument
  complete : ∀ input ∈ definition.arguments, input.isRequired = true →
    input.name ∈ arguments.map (·.name)

end FieldDefinition

/-! ## Lookups by a configured field -/

namespace Identity

/-- The arguments that the keys of a type are passed as, in the order of the keys. -/
def mappedArguments (config : IdentityConfig) (type : String) (resolver : ResolverConfig) :
    List String :=
  (config.keysFor type).map resolver.argumentFor

/-- How a type that is not the query root is looked up: by its configured field, with an argument
for each of its keys, or by `node` if it has no such field. -/
inductive Configured (schema : Schema) (config : IdentityConfig) (queryRoot : Name)
    (type : String) : Identity → Prop where
  | node
      (bare : (config.type? type).bind (·.resolver) = none)
      (answers : schema.hasField queryRoot Name.node = true) :
      Configured schema config queryRoot type .node
  | resolver {resolver : ResolverConfig} {name queryField : Name}
      {arguments : List IdentityArgument}
      (isResolver : (config.type? type).bind (·.resolver) = some resolver)
      (keyed : arguments.map (·.key.text) = config.keysFor type)
      (mapped : arguments.map (·.argument.text) = mappedArguments config type resolver) :
      Configured schema config queryRoot type (.resolver name queryField arguments)

variable {schema : Schema} {config : IdentityConfig} {type : String} {identity : Identity}

theorem configured_of_resolve {queryRoot : Name}
    (hasRoot : schema.queryRoot? = some queryRoot)
    (below : queryRoot.text ≠ type)
    (result : resolve schema config type = .ok identity) :
    Configured schema config queryRoot type identity := by
  simp only [resolve, hasRoot, if_neg below] at result
  split at result
  · next resolver isResolver =>
      obtain ⟨queryField, _, result⟩ := Pipeline.bind_eq_ok_iff.mp result
      split at result
      · cases result
      next lookup _ =>
      obtain ⟨arguments, isMapped, result⟩ := Pipeline.bind_eq_ok_iff.mp result
      obtain ⟨name, _, result⟩ := Pipeline.bind_eq_ok_iff.mp result
      cases result
      have keyed : arguments.map (·.key.text) = (config.keysFor type).map id :=
        Pipeline.map_eq_of_mapM (fun _ _ made => (passes_of_argumentFor made).keyed) isMapped
      have mapped : arguments.map (·.argument.text) = mappedArguments config type resolver :=
        Pipeline.map_eq_of_mapM (fun _ _ made => (passes_of_argumentFor made).mapped) isMapped
      exact .resolver isResolver (by rw [keyed, List.map_id]) mapped
  · next bare =>
      split at result
      · next answers =>
          cases result
          exact .node bare (Bool.and_eq_true_iff.mp answers).2
      · cases result

/-- The fields that an object of a type is told by: the keys of the type where a field is configured
for it, and else the identifier that `node` takes. -/
def configuredKeys (config : IdentityConfig) (type : String) : List String :=
  match (config.type? type).bind (·.resolver) with
  | some _ => config.keysFor type
  | none => [idField]

theorem Configured.map_keyFields {queryRoot : Name}
    (configured : Configured schema config queryRoot type identity) :
    identity.keyFields.map (·.text) = configuredKeys config type := by
  cases configured with
  | node bare _ =>
      rw [configuredKeys, bare]
      rfl
  | resolver isResolver keyed _ =>
      rw [configuredKeys, isResolver, ← keyed, keyFields, List.map_map]
      rfl

end Identity

/-! ## The lookups of embedded queries -/

namespace Embedding

variable {schema : Schema} {config : IdentityConfig} {type : String} {identity : Identity}
  {document query : Document} {index : FragmentIndex} {registry later : NameRegistry}

/-- An object is looked up by a single field, with a variable for each argument. -/
theorem exists_lookup {spread : Spread} {selections : List Selection}
    (selects : identity.Selects spread selections)
    (looksUp : identity.lookupField?.isSome = true) :
    ∃ lookup : Field, selections = [.field lookup] ∧
      identity.lookupField? = some lookup.name ∧
      lookup.arguments = identity.lookupNames.map fun name => ⟨name, .reference name⟩ := by
  cases selects with
  | root isRoot =>
      rw [isRoot] at looksUp
      cases looksUp
  | @lookup lookup isLookup named passes _ =>
      refine ⟨lookup, rfl, isLookup, ?_⟩
      have each : ∀ argument ∈ lookup.arguments,
          (⟨argument.name, .reference argument.name⟩ : Argument) = argument := by
        intro argument member
        rw [← passes argument member]
      have whole :
          (lookup.arguments.map fun argument => ⟨argument.name, .reference argument.name⟩) =
            lookup.arguments := (List.map_congr_left each).trans (List.map_id' _)
      rw [← named, List.map_map, ← whole, List.map_map]
      rfl

/-- What a lookup by a configured field passes is taken. -/
theorem takes_of_wiring {parameters : VariableSet} {wrapper queryRoot lookup : Name}
    {operation : Operation} {lookups : List VariableDefinition} {definition : FieldDefinition}
    {argument : Argument}
    (wiring : Wiring schema parameters identity wrapper operation lookups)
    (other : identity ≠ .node)
    (hasRoot : schema.queryRoot? = some queryRoot)
    (isLookup : identity.lookupField? = some lookup)
    (declared : schema.field? queryRoot lookup = some definition)
    (isArgument : argument.name ∈ identity.lookupNames)
    (passes : argument.value = .reference argument.name) :
    definition.Takes operation.declarations argument := by
  have isIsLookup : argument.name ∈ lookups.map (·.name) := by
    rw [wiring.named]
    exact List.mem_eraseDups.mpr isArgument
  obtain ⟨declaration, isDeclared, sameName⟩ := List.mem_map.mp isIsLookup
  have typed := wiring.typed other declaration isDeclared
  rw [Identity.declaredType?, hasRoot, isLookup] at typed
  simp only [Option.bind_eq_bind, Option.bind_some, declared] at typed
  obtain ⟨input, isInput, sameType⟩ := Option.map_eq_some_iff.mp typed
  refine ⟨input, declaration, ?_, ?_, ?_, sameType.symm⟩
  · rw [← sameName, isInput]
  · rw [wiring.declares]
    exact List.mem_append_right _ isDeclared
  · rw [passes, sameName]

/-- The identifier that `node` is passed is a variable of type `ID!`. -/
theorem takes_idField_iff {parameters : VariableSet} {wrapper : Name} {operation : Operation}
    {lookups : List VariableDefinition} {definition : FieldDefinition}
    (wiring : Wiring schema parameters .node wrapper operation lookups) :
    definition.Takes operation.declarations ⟨Identity.idField, .reference Identity.idField⟩ ↔
      (definition.argument? Identity.idField).map (·.type) = some Identity.idType := by
  have declares := wiring.declares
  rw [wiring.node rfl] at declares
  have apart := (wiring.apart Identity.idField List.mem_cons_self).2
  constructor
  · rintro ⟨input, declaration, isInput, isDeclared, passes, sameType⟩
    have sameName : declaration.name = Identity.idField := (Value.reference.inj passes).symm
    rw [declares] at isDeclared
    rcases List.mem_append.mp isDeclared with isParameter | isLookup
    · obtain ⟨binding, isBinding, rfl⟩ := List.mem_map.mp isParameter
      refine absurd ?_ apart
      rw [← sameName]
      exact List.mem_map_of_mem isBinding
    · rw [List.mem_singleton.mp isLookup] at sameType
      rw [isInput, Option.map_some, ← sameType]
  · intro typed
    obtain ⟨input, isInput, sameType⟩ := Option.map_eq_some_iff.mp typed
    refine ⟨input, ⟨Identity.idField, Identity.idType, none, []⟩, isInput, ?_, rfl, sameType.symm⟩
    rw [declares]
    exact List.mem_append_right _ (List.mem_singleton_self _)

/-- A call with taken arguments of different names is allowed if all that are required are there. -/
theorem allows_iff {definition : FieldDefinition} {declarations : List VariableDefinition}
    {arguments : List Argument} {mapped : List String}
    (taken : ∀ argument ∈ arguments, definition.Takes declarations argument)
    (named : arguments.map (·.name.text) = mapped)
    (different : mapped.Nodup) :
    definition.Allows declarations arguments ↔
      ∀ input ∈ definition.arguments, input.isRequired = true → input.name.text ∈ mapped := by
  have texts : (arguments.map (·.name)).map Name.text = mapped := by
    rw [← named, List.map_map]
    rfl
  have mem_iff : ∀ name : Name, name ∈ arguments.map (·.name) ↔ name.text ∈ mapped := by
    intro name
    rw [← texts, List.mem_map_of_injective fun _ _ => Name.eq_of_text_eq]
  constructor
  · intro allows input member required
    exact (mem_iff input.name).mp (allows.complete input member required)
  · intro complete
    refine ⟨List.Nodup.of_map Name.text (texts ▸ different), taken, fun input member required => ?_⟩
    exact (mem_iff input.name).mpr (complete input member required)

/-- A call of `node` with an identifier is allowed if that is taken and nothing else is required. -/
theorem allows_idField_iff {definition : FieldDefinition} {declarations : List VariableDefinition}
    {argument : Argument}
    (isIdentifier : argument.name = Identity.idField) :
    definition.Allows declarations [argument] ↔
      definition.Takes declarations argument ∧
        ∀ input ∈ definition.arguments, input.isRequired = true →
          input.name = Identity.idField := by
  constructor
  · intro allows
    refine ⟨allows.taken argument (List.mem_singleton_self _), fun input member required => ?_⟩
    have only := allows.complete input member required
    rwa [List.map_singleton, List.mem_singleton, isIdentifier] at only
  · rintro ⟨taken, complete⟩
    refine ⟨List.nodup_singleton _, ?_, fun input member required => ?_⟩
    · intro other member
      rw [List.mem_singleton.mp member]
      exact taken
    · rw [List.map_singleton, List.mem_singleton, isIdentifier]
      exact complete input member required

/-! ## What a lookup passes -/

section Calls

variable (definition : FieldDefinition) (declarations : List VariableDefinition) (lookup : Field)

/-- A lookup that passes keys: just the arguments that they are mapped to, all of them taken. Where
these are different each is passed once, and then the call is allowed just where every argument that
the field requires is one of them. -/
structure PassesKeys (mapped : List String) : Prop where
  taken : ∀ argument ∈ lookup.arguments, definition.Takes declarations argument
  mem_iff : ∀ text, text ∈ lookup.arguments.map (·.name.text) ↔ text ∈ mapped
  once : mapped.Nodup → lookup.arguments.map (·.name.text) = mapped
  allowed_iff : mapped.Nodup →
    (definition.Allows declarations lookup.arguments ↔
      ∀ input ∈ definition.arguments, input.isRequired = true → input.name.text ∈ mapped)

/-- A lookup by `node`: it passes an identifier, which is allowed just where the field declares one
of type `ID!` and requires nothing else. -/
structure PassesIdentifier : Prop where
  called : lookup.name = Name.node
  passed : lookup.arguments = [⟨Identity.idField, .reference Identity.idField⟩]
  allowed_iff : definition.Allows declarations lookup.arguments ↔
    (definition.argument? Identity.idField).map (·.type) = some Identity.idType ∧
      ∀ input ∈ definition.arguments, input.isRequired = true → input.name = Identity.idField

end Calls

/-- How a query looks up an object of a type: by a field of the query root that stands alone in its
operation, and is the configured one if there is any. -/
structure IsLookup (schema : Schema) (config : IdentityConfig) (type : String) (query : Document)
    (queryRoot : Name) (operation : Operation) (lookup : Field) (definition : FieldDefinition) :
    Prop where
  hasRoot : schema.queryRoot? = some queryRoot
  isOperation : query.operation? = some operation
  only : operation.selections = [.field lookup]
  declared : schema.field? queryRoot lookup.name = some definition
  configured : ∀ resolver, (config.type? type).bind (·.resolver) = some resolver →
    PassesKeys definition operation.declarations lookup
      (Identity.mappedArguments config type resolver)
  bare : (config.type? type).bind (·.resolver) = none →
    PassesIdentifier definition operation.declarations lookup

section Wired

variable {parameters : VariableSet} {wrapper queryRoot : Name} {operation : Operation}
  {lookups : List VariableDefinition} {definition : FieldDefinition} {lookup : Field}

theorem passesKeys_of_wiring {name queryField : Name} {arguments : List IdentityArgument}
    {mapped : List String}
    (wiring : Wiring schema parameters (.resolver name queryField arguments) wrapper operation
      lookups)
    (hasRoot : schema.queryRoot? = some queryRoot)
    (called : queryField = lookup.name)
    (declared : schema.field? queryRoot lookup.name = some definition)
    (isMapped : arguments.map (·.argument.text) = mapped)
    (passed : lookup.arguments =
      (Identity.resolver name queryField arguments).lookupNames.map
        fun name => ⟨name, .reference name⟩) :
    PassesKeys definition operation.declarations lookup mapped := by
  have named : lookup.arguments.map (·.name.text) = mapped := by
    rw [passed, ← isMapped, Identity.lookupNames, Identity.lookupVariables]
    simp
  have taken : ∀ argument ∈ lookup.arguments,
      definition.Takes operation.declarations argument := by
    intro argument member
    rw [passed] at member
    obtain ⟨wanted, isWanted, rfl⟩ := List.mem_map.mp member
    exact takes_of_wiring wiring (by simp) hasRoot (congrArg some called) declared isWanted rfl
  constructor
  case taken => exact taken
  case mem_iff => exact fun text => by rw [named]
  case once => exact fun _ => named
  case allowed_iff => exact allows_iff taken named

theorem passesIdentifier_of_wiring
    (wiring : Wiring schema parameters .node wrapper operation lookups)
    (called : lookup.name = Name.node)
    (passed : lookup.arguments = [⟨Identity.idField, .reference Identity.idField⟩]) :
    PassesIdentifier definition operation.declarations lookup := by
  refine ⟨called, passed, ?_⟩
  rw [passed, allows_idField_iff rfl, takes_idField_iff wiring]

end Wired

/-- The field `node` of the query root, where objects are looked up by it. -/
theorem exists_field_of_hasField {queryRoot : Name}
    (answers : schema.hasField queryRoot Name.node = true) :
    ∃ definition, schema.field? queryRoot Name.node = some definition := by
  rw [Schema.hasField, Bool.or_eq_true] at answers
  exact Option.isSome_iff_exists.mp (answers.resolve_left (by decide))

/-- Every query that is embedded for a type which is not the query root looks up its object. -/
theorem lookup_of_resolve
    (resolved : Identity.resolve schema config type = .ok identity)
    (looksUp : identity.lookupField?.isSome = true)
    (embedded : embed document identity index registry = (.ok query, later)) :
    ∃ queryRoot operation lookup definition,
      IsLookup schema config type query queryRoot operation lookup definition := by
  obtain ⟨generation, rfl⟩ := exists_generation_of_embed embedded
  obtain ⟨lookups, wiring⟩ := generation.wiring resolved
  obtain ⟨queryRoot, hasRoot, resolves⟩ := Identity.resolves_of_resolve resolved
  have configured := fun below => Identity.configured_of_resolve hasRoot below resolved
  obtain ⟨lookup, only, called, passed⟩ := exists_lookup wiring.selects looksUp
  cases resolves with
  | root => cases looksUp
  | node below =>
      cases configured below with
      | node bare answers =>
          have isNode : lookup.name = Name.node := (Option.some.inj called).symm
          obtain ⟨definition, declared⟩ := exists_field_of_hasField answers
          refine ⟨queryRoot, _, lookup, definition, hasRoot, rfl, only,
            by rw [isNode, declared], ?_, ?_⟩
          · intro resolver isResolver
            rw [bare] at isResolver
            cases isResolver
          · exact fun _ => passesIdentifier_of_wiring wiring isNode passed
  | @resolver name queryField arguments definition below isNamed isField typed =>
      cases configured below with
      | @resolver resolver _ _ _ isResolver _ mapped =>
          have sameField : queryField = lookup.name := Option.some.inj called
          have declared := sameField ▸ isField
          refine ⟨queryRoot, _, lookup, definition, hasRoot, rfl, only, declared, ?_, ?_⟩
          · intro other isOther
            rw [isResolver, Option.some.injEq] at isOther
            subst isOther
            exact passesKeys_of_wiring wiring hasRoot sameField declared mapped passed
          · intro bare
            rw [isResolver] at bare
            cases bare

end Embedding

/-! ## Users of a site -/

namespace Sample

/-- A schema in which a user is found by a login and by some further arguments. -/
def loginSchema (further : List InputValue) : Schema where
  types := Schema.BuiltIn.types ++
    [⟨user, .object []
        [⟨items,
          PagingArgument.offsets.map fun argument =>
            ⟨argument.name, .named Name.intType false, none⟩,
          .list (.named Name.stringType false) false⟩]⟩,
      ⟨queryType, .object []
        [⟨userField, ⟨loginKey, .named Name.stringType true, none⟩ :: further,
          .named user false⟩]⟩]
  roots := [⟨.query, queryType⟩]
  directives := []

def siteArgument : InputValue :=
  ⟨⟨"site", by decide⟩, .named Name.stringType true, none⟩

def loginText : String :=
  "\x7b\"schema\": \"schema.graphql\", \"types\": \x7b\"User\": " ++
    "\x7b\"keys\": [\"login\"], \"resolve\": \x7b\"queryField\": \"user\"\x7d\x7d\x7d\x7d"

def loginConfig : Config :=
  ⟨.one "schema.graphql", none, ⟨["id"], [("User", ⟨["login"], some ⟨"user", []⟩⟩)]⟩⟩

theorem load_loginText :
    Config.load "config.json" loginText = .ok loginConfig := by
  have read : (Config.load "config.json" loginText).toOption = some loginConfig := by
    decide +kernel
  cases loaded : Config.load "config.json" loginText with
  | error fault =>
      rw [loaded] at read
      cases read
  | ok config =>
      rw [loaded] at read
      cases read
      rfl

def loginIdentity : Identity :=
  .resolver user userField [⟨loginKey, loginKey, .named Name.stringType true⟩]

/-- A fragment on users that has no parameters. -/
def bareFragment : Fragment :=
  ⟨part, user, [], [itemsField none (.int "10") []], none⟩

def bare : Document :=
  Document.ofDefinition "sample.graphql" (.fragment bareFragment)

def bareGeneration : Generation bare loginIdentity [] where
  fragment := bareFragment
  parameters := .empty
  query := ⟨paginationQueryName part, isNameText_paginationQueryName part⟩
  wrapper := ⟨wrapperName part "", isNameText_wrapperName part _⟩
  declared := ⟨[⟨loginKey, .named Name.stringType true, none, .identity⟩], by decide⟩
  included := []
  isFragment := by rfl
  isRead := by rfl
  isQuery := Name.require_eq_ok_iff.mpr rfl
  isWrapper := Name.require_eq_ok_iff.mpr rfl
  isDeclared := by rfl
  isIncluded := by
    have toNone : spreadNamesOf bareFragment.selections = [] := by rfl
    rw [FragmentIndex.reachable, toNone, FragmentIndex.reach]

theorem exists_embed_bare :
    ∃ later, Embedding.embed bare loginIdentity [] (NameRegistry.seeded []) =
      (.ok bareGeneration.outcome, later) :=
  Embedding.exists_embed_of_free bareGeneration
    (NameRegistry.get?_seeded_eq_none (by simp)) (NameRegistry.get?_seeded_eq_none (by simp))

end Sample

namespace Embedding

/-- Where a login is all that is required, the user may be looked up by it. -/
theorem lookup_of_resolve_login :
    Identity.resolve (Sample.loginSchema []) Sample.loginConfig.identity "User" =
        .ok Sample.loginIdentity ∧
      Sample.loginIdentity.lookupField?.isSome = true ∧
      ∃ query later, embed Sample.bare Sample.loginIdentity [] (NameRegistry.seeded []) =
          (.ok query, later) ∧
        ∃ operation lookup definition,
          query.operation? = some operation ∧ operation.selections = [.field lookup] ∧
          (Sample.loginSchema []).field? Sample.queryType lookup.name = some definition ∧
          definition.Allows operation.declarations lookup.arguments := by
  have resolved : Identity.resolve (Sample.loginSchema []) Sample.loginConfig.identity "User" =
      .ok Sample.loginIdentity := rfl
  obtain ⟨later, embedded⟩ := Sample.exists_embed_bare
  refine ⟨resolved, rfl, _, later, embedded, ?_⟩
  obtain ⟨queryRoot, operation, lookup, definition, hasRoot, isOperation, only, declared,
    configured, _⟩ := lookup_of_resolve resolved rfl embedded
  cases hasRoot
  refine ⟨operation, lookup, definition, isOperation, only, declared, ?_⟩
  apply ((configured ⟨"user", []⟩ rfl).allowed_iff (by decide)).mpr
  cases isOperation
  cases only
  cases declared
  decide

/-- A user that is found by a login and a site cannot be looked up by the login alone. -/
theorem not_forall_allows :
    ¬ ∀ (schema : Schema) (path text : String) (config : Config) (type : String)
      (identity : Identity) (document query : Document) (index : FragmentIndex)
      (registry later : NameRegistry) (queryRoot : Name) (operation : Operation) (lookup : Field)
      (definition : FieldDefinition),
      Config.load path text = .ok config →
      Identity.resolve schema config.identity type = .ok identity →
      document.fragment?.map (·.condition.text) = some type →
      embed document identity index registry = (.ok query, later) →
      schema.queryRoot? = some queryRoot →
      query.operation? = some operation →
      operation.selections = [.field lookup] →
      schema.field? queryRoot lookup.name = some definition →
        definition.Allows operation.declarations lookup.arguments := by
  intro always
  obtain ⟨later, embedded⟩ := Sample.exists_embed_bare
  have allows := always (Sample.loginSchema [Sample.siteArgument]) "config.json" Sample.loginText
    Sample.loginConfig "User" Sample.loginIdentity Sample.bare _ [] _ later Sample.queryType _ _ _
    Sample.load_loginText rfl rfl embedded rfl rfl rfl rfl
  have passed := allows.complete Sample.siteArgument (by simp) rfl
  exact absurd passed (by decide)

end Embedding

end QueryPaging
