import QueryPaging.Proofs.Lookups
import QueryPaging.Proofs.Reporting
import QueryPaging.Proofs.Traversal

/-!
# Names that a configuration spells

A configuration spells its names as texts, and each of them is checked when it is loaded. So no
stage of a run comes upon a text that it has to take for a name and that is none.

- `IdentityConfig.SpellsNames`: what was checked.
- `Pipeline.ConvertsNames`: every text that a stage reads as a name can be read.
- `Pipeline.convertsNames_of_load`: with a loaded configuration no run reports an invalid name.
-/

namespace QueryPaging

/-- That a text can be read as a name. -/
def Name.Converts (text : String) : Prop :=
  ∃ name, Name.require text = .ok name

theorem Name.converts_of_isNameText {text : String}
    (wellFormed : isNameText text = true) :
    Name.Converts text :=
  ⟨⟨text, wellFormed⟩, Name.require_eq_ok_iff.mpr rfl⟩

theorem Name.converts_of_isSome {text : String}
    (isName : (Name.ofText? text).isSome = true) :
    Name.Converts text := by
  obtain ⟨name, read⟩ := Option.isSome_iff_exists.mp isName
  exact ⟨name, by rw [require, read]⟩

/-! ## What is checked -/

/-- That all texts which a configuration has for names can be read as such. -/
structure IdentityConfig.SpellsNames (config : IdentityConfig) : Prop where
  defaultKeys : ∀ key ∈ config.defaultKeys, Name.Converts key
  types : ∀ entry ∈ config.types, Name.Converts entry.1
  keys : ∀ entry ∈ config.types, ∀ key ∈ entry.2.keys, Name.Converts key
  queryFields : ∀ entry ∈ config.types, ∀ resolver, entry.2.resolver = some resolver →
    Name.Converts resolver.queryField

namespace Config

@[simp]
theorem flawUnless_eq_nil_iff {holds : Bool} {flaw : ConfigFlaw} :
    flawUnless holds flaw = [] ↔ holds = true := by
  cases holds <;> simp [flawUnless]

theorem converts_of_notNames {texts : List String}
    (allNames : notNames texts = []) :
    ∀ text ∈ texts, Name.Converts text := by
  intro text member
  have isName := List.filter_eq_nil_iff.mp allNames text member
  rw [Bool.not_eq_true, Option.isNone_eq_false_iff] at isName
  exact Name.converts_of_isSome isName

variable {config : Config}

theorem spellsNames_of_flaws
    (flawless : config.flaws = []) :
    config.identity.SpellsNames := by
  simp only [flaws, List.append_eq_nil_iff, List.map_eq_nil_iff, List.flatMap_eq_nil_iff]
    at flawless
  obtain ⟨⟨_, defaultKeys⟩, types⟩ := flawless
  have ofEntry : ∀ entry ∈ config.identity.types,
      Name.Converts entry.1 ∧ (∀ key ∈ entry.2.keys, Name.Converts key) ∧
        ∀ resolver, entry.2.resolver = some resolver → Name.Converts resolver.queryField := by
    intro entry member
    have sound := types entry member
    simp only [typeFlaws, List.append_eq_nil_iff, List.map_eq_nil_iff, List.flatMap_eq_nil_iff,
      flawUnless_eq_nil_iff] at sound
    obtain ⟨⟨isType, keys⟩, resolvers⟩ := sound
    refine ⟨Name.converts_of_isSome isType, converts_of_notNames keys, ?_⟩
    intro resolver isResolver
    have fetches := resolvers resolver (by rw [isResolver]; exact List.mem_singleton_self _)
    simp only [resolverFlaws, List.append_eq_nil_iff, flawUnless_eq_nil_iff] at fetches
    exact Name.converts_of_isSome fetches.1
  exact ⟨converts_of_notNames defaultKeys, fun entry member => (ofEntry entry member).1,
    fun entry member => (ofEntry entry member).2.1,
    fun entry member => (ofEntry entry member).2.2⟩

/-- A configuration that was loaded has no flaws. -/
theorem flaws_eq_nil_of_load {path text : String}
    (loaded : load path text = .ok config) :
    config.flaws = [] := by
  obtain ⟨read, _, valid⟩ := Pipeline.bind_eq_ok_iff.mp loaded
  unfold validated at valid
  split at valid
  · next flawless =>
      cases valid
      exact flawless
  · cases valid

end Config

/-! ## What is read as a name -/

namespace Pipeline

/-- That every text which some stage reads as a name can be read: what finds the objects of a type
again, the names of the variables that are promoted, and the names of a generated query. -/
structure ConvertsNames (config : IdentityConfig) : Prop where
  type : ∀ type held, config.type? type = some held → Name.Converts type
  queryField : ∀ type held resolver, config.type? type = some held →
    held.resolver = some resolver → Name.Converts resolver.queryField
  keys : ∀ type, ∀ key ∈ config.keysFor type, Name.Converts key
  promoted : ∀ argument : PagingArgument, Name.Converts argument.name
  query : ∀ fragment : Name, Name.Converts (paginationQueryName fragment)
  wrapper : ∀ (fragment : Name) (parameters : String),
    Name.Converts (wrapperName fragment parameters)

theorem convertsNames_of_spellsNames {config : IdentityConfig}
    (spells : config.SpellsNames) :
    ConvertsNames config where
  type _ _ found := spells.types _ (Table.mem_of_get?_eq_some found)
  queryField _ _ resolver found isResolver :=
    spells.queryFields _ (Table.mem_of_get?_eq_some found) resolver isResolver
  keys := by
    intro type key member
    unfold IdentityConfig.keysFor at member
    split at member
    · next first others resolver found =>
        exact spells.keys _ (Table.mem_of_get?_eq_some found) key member
    · exact spells.defaultKeys key member
  promoted argument := Name.converts_of_isNameText argument.name.wellFormed
  query fragment := Name.converts_of_isNameText (isNameText_paginationQueryName fragment)
  wrapper fragment parameters :=
    Name.converts_of_isNameText (isNameText_wrapperName fragment parameters)

end Pipeline

theorem Name.Converts.require_ne_error {text : String} {fault : Fault}
    (converts : Name.Converts text) :
    Name.require text ≠ .error fault := by
  obtain ⟨name, read⟩ := converts
  rw [read]
  exact nofun

/-! ## The first phase -/

namespace Identity

variable {config : IdentityConfig} {type : String} {fault : Fault}

theorem exists_cause_of_argumentFor {root : Name} {resolver : ResolverConfig}
    {lookup : FieldDefinition} {key : String}
    (isName : Name.Converts key)
    (failed : argumentFor type root resolver lookup key = .error fault) :
    ∃ cause, fault = .unresolvableIdentity type cause := by
  unfold argumentFor at failed
  simp only at failed
  split at failed
  · cases failed
    exact ⟨_, rfl⟩
  · rcases Pipeline.bind_eq_error_iff.mp failed with unnamed | ⟨name, _, whole⟩
    · exact absurd unnamed isName.require_ne_error
    · cases whole

variable {schema : Schema} (names : Pipeline.ConvertsNames config)

include names

theorem exists_cause_of_resolveBy {root : Name} {held : TypeConfig} {resolver : ResolverConfig}
    (found : config.type? type = some held)
    (isResolver : held.resolver = some resolver)
    (failed : resolveBy schema config type root resolver = .error fault) :
    ∃ cause, fault = .unresolvableIdentity type cause := by
  rcases Pipeline.bind_eq_error_iff.mp failed with unnamed | ⟨queryField, _, failed⟩
  · exact absurd unnamed (names.queryField type held resolver found isResolver).require_ne_error
  split at failed
  · cases failed
    exact ⟨_, rfl⟩
  rcases Pipeline.bind_eq_error_iff.mp failed with missing | ⟨arguments, _, failed⟩
  · obtain ⟨key, isKey, step⟩ := Pipeline.exists_failed_of_mapM missing
    exact exists_cause_of_argumentFor (names.keys type key isKey) step
  rcases Pipeline.bind_eq_error_iff.mp failed with unnamed | ⟨name, _, whole⟩
  · exact absurd unnamed (names.type type held found).require_ne_error
  · cases whole

/-- Where objects of a type cannot be found again, it is never for a name. -/
theorem exists_cause_of_resolve
    (failed : resolve schema config type = .error fault) :
    ∃ cause, fault = .unresolvableIdentity type cause := by
  unfold resolve at failed
  split at failed
  · cases failed
    exact ⟨_, rfl⟩
  split at failed
  · cases failed
  split at failed
  · next resolver configured =>
      obtain ⟨held, found, isResolver⟩ := Option.bind_eq_some_iff.mp configured
      exact exists_cause_of_resolveBy names found isResolver failed
  split at failed
  · cases failed
  · cases failed
    exact ⟨_, rfl⟩

end Identity

theorem Stage.Raises.ne_invalidName {stage : Stage} {fault : Fault} {text : String}
    (raises : stage.Raises fault)
    (other : stage ≠ .buildSpec) :
    fault ≠ .invalidName text := by
  rintro rfl
  cases raises
  exact other rfl

namespace Pipeline

variable {schema : Schema} {config : IdentityConfig} {diagnostic : Diagnostic} {text : String}

theorem ne_invalidName_of_process {document : Document}
    (names : ConvertsNames config)
    (failed : process schema config document = .error diagnostic) :
    diagnostic.fault ≠ .invalidName text := by
  have raises := raises_of_process failed
  obtain ⟨span, stage, fault, fails, rfl⟩ := failsAt_of_process failed
  cases fails with
  | identifying failed =>
      unfold identityOf at failed
      split at failed
      · next fragment _ =>
          cases resolved : Identity.resolve schema config fragment.condition with
          | ok identity =>
              rw [resolved] at failed
              cases failed
          | error fault =>
              rw [resolved] at failed
              cases failed
              obtain ⟨cause, rfl⟩ := Identity.exists_cause_of_resolve names resolved
              exact nofun
      · cases failed
  | finding | reading | detecting | promoting | editing => exact raises.ne_invalidName nofun

end Pipeline

/-! ## The second phase -/

theorem FragmentIndex.exists_missing_of_reachable {index : FragmentIndex} {root : Fragment}
    {fault : Fault}
    (failed : index.reachable root = .error fault) :
    ∃ subject name, fault = .unsupportedShape subject (.missingFragment name) := by
  rw [reachable_eq_order] at failed
  obtain ⟨name, _, lacking⟩ := Pipeline.exists_failed_of_mapM failed
  unfold require at lacking
  split at lacking
  · cases lacking
    exact ⟨_, _, rfl⟩
  · cases lacking

namespace Embedding

variable {document : Document} {identity : Identity} {index : FragmentIndex}
  {registry later : NameRegistry} {fault : Fault} {text : String}

theorem ne_invalidName_of_generate {config : IdentityConfig}
    (names : Pipeline.ConvertsNames config)
    (failed : generate document identity index = .error fault) :
    fault ≠ .invalidName text := by
  unfold generate at failed
  split at failed
  · cases failed
    exact nofun
  rcases Pipeline.bind_eq_error_iff.mp failed with unread | ⟨parameters, _, failed⟩
  · exact (Document.raises_of_variableSet unread).ne_invalidName nofun
  rcases Pipeline.bind_eq_error_iff.mp failed with unnamed | ⟨query, _, failed⟩
  · exact absurd unnamed (names.query _).require_ne_error
  rcases Pipeline.bind_eq_error_iff.mp failed with unnamed | ⟨wrapper, _, failed⟩
  · exact absurd unnamed (names.wrapper _ _).require_ne_error
  rcases Pipeline.bind_eq_error_iff.mp failed with collides | ⟨declared, _, failed⟩
  · obtain ⟨_, _, _, _, rfl⟩ := VariableSet.exists_collision_of_merge collides
    exact nofun
  rcases Pipeline.bind_eq_error_iff.mp failed with lacking | ⟨included, _, whole⟩
  · obtain ⟨_, _, rfl⟩ := FragmentIndex.exists_missing_of_reachable lacking
    exact nofun
  · cases whole

theorem ne_invalidName_of_embed {config : IdentityConfig}
    (names : Pipeline.ConvertsNames config)
    (failed : embed document identity index registry = (.error fault, later)) :
    fault ≠ .invalidName text := by
  unfold embed at failed
  split at failed
  · next generated =>
      cases failed
      exact ne_invalidName_of_generate names generated
  · next embedding _ =>
      split at failed
      · next taken =>
          cases failed
          have claims := claims_claimNames embedding registry
          rw [taken] at claims
          cases claims with
          | queryTaken first =>
              rw [(NameRegistry.claim_eq_error_iff.mp first).1]
              exact nofun
          | wrapperTaken first second =>
              rw [(NameRegistry.claim_eq_error_iff.mp second).1]
              exact nofun
      · cases failed

end Embedding

/-! ## Reports -/

namespace Pipeline

open Interleaving

theorem ne_invalidName_of_alone {config : IdentityConfig} {index : FragmentIndex}
    {taken : List String} {item : Item} {diagnostic : Diagnostic} {text : String}
    (names : ConvertsNames config)
    (failed : alone index taken item = .error diagnostic) :
    diagnostic.fault ≠ .invalidName text := by
  unfold alone embedOne at failed
  obtain ⟨fault, unembedded, rfl⟩ := atStage_eq_error_iff.mp failed
  exact Embedding.ne_invalidName_of_embed names (Prod.ext unembedded rfl)

/-- Names that loading has checked never fail later: whatever the stages read as a name can be read,
and neither a run nor workers that take turns in any way report an invalid name. -/
theorem convertsNames_of_load {path text : String} {config : Config}
    (loaded : Config.load path text = .ok config) :
    ConvertsNames config.identity ∧
      ∀ (schema : Schema) (workers : Nat) (batch : List Document) (report : Report),
        (run schema config.identity workers batch = .ok report ∨
          ∃ accounts, MayReport schema config.identity workers batch report accounts) →
        ∀ diagnostic ∈ report.diagnostics, ∀ text, diagnostic.fault ≠ .invalidName text := by
  have names := convertsNames_of_spellsNames
    (Config.spellsNames_of_flaws (Config.flaws_eq_nil_of_load loaded))
  refine ⟨names, ?_⟩
  intro schema workers batch report reported diagnostic among text
  have mayReport : ∃ accounts, MayReport schema config.identity workers batch report accounts :=
    reported.elim exists_mayReport_of_run id
  obtain ⟨_, crew, stands, isDone, rfl, _⟩ := mayReport
  rcases List.mem_append.mp among with early | late
  · obtain ⟨document, _, isDiagnostic⟩ := List.mem_filterMap.mp early
    cases result : process schema config.identity document with
    | ok processed =>
        rw [result] at isDiagnostic
        cases isDiagnostic
    | error failure =>
        rw [result] at isDiagnostic
        cases isDiagnostic
        exact ne_invalidName_of_process names result
  · obtain ⟨outcome, isOutcome, isDiagnostic⟩ := List.mem_filterMap.mp late
    rw [← Crew.map_snd_results] at isOutcome
    obtain ⟨each, isResult, rfl⟩ := List.mem_map.mp isOutcome
    obtain ⟨taken, isAlone⟩ := ((results_of_done stands isDone).2 each isResult).somewhere
    rw [isAlone] at isDiagnostic
    cases result : alone (indexOf schema config.identity (authored batch)) taken each.1 with
    | ok query =>
        rw [result] at isDiagnostic
        cases isDiagnostic
    | error failure =>
        rw [result] at isDiagnostic
        cases isDiagnostic
        exact ne_invalidName_of_alone names result

/-- A fragment on users, which are found by their login. -/
theorem convertsNames_of_load_login :
    Config.load "config.json" Sample.loginText = .ok Sample.loginConfig ∧
      ConvertsNames Sample.loginConfig.identity ∧
      ∃ report, run (Sample.loginSchema []) Sample.loginConfig.identity 2 [Sample.passing] =
          .ok report ∧
        ∀ diagnostic ∈ report.diagnostics, ∀ text, diagnostic.fault ≠ .invalidName text := by
  obtain ⟨names, never⟩ := convertsNames_of_load Sample.load_loginText
  have hasRoot : (Sample.loginSchema []).queryRoot? = some Sample.queryType := rfl
  have reported := run_eq hasRoot Sample.loginConfig.identity 2 [Sample.passing]
  exact ⟨Sample.load_loginText, names, _, reported, never _ _ _ _ (Or.inl reported)⟩

/-- Without the check a key that is no name fails when the object is looked for. -/
example :
    Identity.resolve (Sample.loginSchema [])
        ⟨[], [("User", ⟨["log in"], some ⟨"user", [("log in", "login")]⟩⟩)]⟩ "User" =
      .error (.invalidName "log in") :=
  rfl

end Pipeline

end QueryPaging
