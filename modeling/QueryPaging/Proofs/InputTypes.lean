import QueryPaging.Artifact
import QueryPaging.Proofs.Tables

/-!
# The input types of an artifact

An artifact lists the input types that its variables lead to. Input types may refer to each other
in circles, so a type is entered before the types of its fields are looked at.

- `ReachesInput`: the input types that some types lead to.
- `CollectsInputs`: the depth-first collection, call by call, with one table for all of them.
- `Artifact.exists_listsInputs`: the collection of a query ends, and lists just what is reached.
-/

namespace QueryPaging

/-! ## Reaching and collecting -/

/-- An input type with its fields and the named type of each, as an artifact lists it. -/
def inputEntry (type : Name) (fields : List InputValue) : String × Table String String :=
  (type.text, fields.map fun field => (field.name.text, field.type.inner.text))

section Inputs

variable (fieldsOf? : Name → Option (List InputValue))

/-- The input types among some types, and those that the fields of reached ones lead to. -/
inductive ReachesInput (starts : List Name) : Name → Prop where
  | start {type : Name} {fields : List InputValue}
      (member : type ∈ starts)
      (isInput : fieldsOf? type = some fields) :
      ReachesInput starts type
  | field {outer : Name} {field : InputValue} {outerFields fields : List InputValue}
      (reached : ReachesInput starts outer)
      (declares : fieldsOf? outer = some outerFields)
      (member : field ∈ outerFields)
      (isInput : fieldsOf? field.type.inner = some fields) :
      ReachesInput starts field.type.inner

/-- What the collection of some types, one after the other, makes of a table. A type that is listed
already or takes no input is passed over. Another is entered first, and then the types of its fields
are collected. -/
inductive CollectsInputs :
    Table String (Table String String) → List Name → Table String (Table String String) → Prop where
  | done {table : Table String (Table String String)} :
      CollectsInputs table [] table
  | passed {table after : Table String (Table String String)} {type : Name} {others : List Name}
      (settled : type.text ∈ table.keys ∨ fieldsOf? type = none)
      (behind : CollectsInputs table others after) :
      CollectsInputs table (type :: others) after
  | entered {table between after : Table String (Table String String)} {type : Name}
      {others : List Name} {fields : List InputValue}
      (unlisted : type.text ∉ table.keys)
      (isInput : fieldsOf? type = some fields)
      (inside : CollectsInputs (table ++ [inputEntry type fields])
        (fields.map (·.type.inner)) between)
      (behind : CollectsInputs between others after) :
      CollectsInputs table (type :: others) after

end Inputs

theorem ReachesInput.mono {fieldsOf? : Name → Option (List InputValue)} {starts more : List Name}
    {type : Name}
    (among : starts ⊆ more)
    (reached : ReachesInput fieldsOf? starts type) :
    ReachesInput fieldsOf? more type := by
  induction reached with
  | start member isInput => exact .start (among member) isInput
  | field _ declares member isInput inductionHypothesis =>
      exact .field inductionHypothesis declares member isInput

/-! ## Types that are left to visit -/

namespace ArtifactInput

section Visits

variable {unvisited : List TypeDefinition} {name other : Name} {pending others : List Name}
  {fields inputs : List InputValue}

theorem inputFields?_filter_iff (keep : Name → Bool) :
    inputFields? (unvisited.filter (keep ·.name)) other = some fields ↔
      keep other = true ∧ inputFields? unvisited other = some fields := by
  rw [inputFields?, inputFields?, List.find?_filter]
  by_cases kept : keep other = true
  · have alike : ∀ type : TypeDefinition,
        decide (keep type.name = true ∧ (type.name == other) = true) = (type.name == other) := by
      intro type
      by_cases isOther : type.name = other <;> simp [isOther, kept]
    simp only [alike, kept, true_and]
  · have missed : ∀ type ∈ unvisited,
        ¬ decide (keep type.name = true ∧ (type.name == other) = true) = true := by
      intro type _
      by_cases isOther : type.name = other <;> simp [isOther, kept]
    rw [List.find?_eq_none.mpr missed, Option.bind_none]
    simp [kept]

theorem inputFields?_withoutType_iff :
    inputFields? (withoutType name unvisited) other = some fields ↔
      other ≠ name ∧ inputFields? unvisited other = some fields := by
  rw [withoutType, inputFields?_filter_iff (· != name), bne_iff_ne]

/-- The types whose names are not among some texts. -/
def unlisted (keys : List String) (types : List TypeDefinition) : List TypeDefinition :=
  types.filter (·.name.text ∉ keys)

theorem inputFields?_unlisted_iff {keys : List String} :
    inputFields? (unlisted keys unvisited) other = some fields ↔
      other.text ∉ keys ∧ inputFields? unvisited other = some fields := by
  rw [unlisted, inputFields?_filter_iff (·.text ∉ keys), decide_eq_true_eq]

/-! ## Reaching through what is left -/

/-- A type that takes no input leads nowhere. -/
theorem reachesInput_cons_of_none
    (absent : inputFields? unvisited name = none) :
    ReachesInput (inputFields? unvisited) (name :: others) other ↔
      ReachesInput (inputFields? unvisited) others other := by
  constructor
  · intro reached
    induction reached with
    | start member isInput =>
        rcases List.mem_cons.mp member with rfl | later
        · rw [absent] at isInput
          cases isInput
        · exact .start later isInput
    | field _ declares member isInput inductionHypothesis =>
        exact .field inductionHypothesis declares member isInput
  · intro reached
    induction reached with
    | start member isInput => exact .start (List.mem_cons_of_mem name member) isInput
    | field _ declares member isInput inductionHypothesis =>
        exact .field inductionHypothesis declares member isInput

/-- After a type is visited, the rest is reached from its fields or from what was pending, by ways
that do not come by it again. -/
theorem reachesInput_cons_iff
    (found : inputFields? unvisited name = some fields) :
    ReachesInput (inputFields? unvisited) (name :: others) other ↔
      other = name ∨ ReachesInput (inputFields? (withoutType name unvisited))
        (fields.map (·.type.inner) ++ others) other := by
  constructor
  · intro reached
    induction reached with
    | @start type _ member isInput =>
        by_cases same : type = name
        · exact .inl same
        · have later := (List.mem_cons.mp member).resolve_left same
          exact .inr (.start (List.mem_append_right _ later)
            (inputFields?_withoutType_iff.mpr ⟨same, isInput⟩))
    | @field outer field _ _ _ declares member isInput inductionHypothesis =>
        by_cases same : field.type.inner = name
        · exact .inl same
        · have stillInput := inputFields?_withoutType_iff.mpr ⟨same, isInput⟩
          by_cases isName : outer = name
          · subst isName
            obtain rfl := Option.some.inj (declares.symm.trans found)
            exact .inr (.start (List.mem_append_left _ (List.mem_map_of_mem member)) stillInput)
          · exact .inr (.field (inductionHypothesis.resolve_left isName)
              (inputFields?_withoutType_iff.mpr ⟨isName, declares⟩) member stillInput)
  · rintro (rfl | reached)
    · exact .start List.mem_cons_self found
    · induction reached with
      | start member isInput =>
          have known := (inputFields?_withoutType_iff.mp isInput).2
          rcases List.mem_append.mp member with ofField | later
          · obtain ⟨field, isField, rfl⟩ := List.mem_map.mp ofField
            exact .field (.start List.mem_cons_self found) found isField known
          · exact .start (List.mem_cons_of_mem name later) known
      | field _ declares member isInput inductionHypothesis =>
          exact .field inductionHypothesis (inputFields?_withoutType_iff.mp declares).2 member
            (inputFields?_withoutType_iff.mp isInput).2

/-! ## What is listed -/

theorem reach_cons_of_none
    (absent : inputFields? unvisited name = none) :
    reach unvisited (name :: others) = reach unvisited others := by
  rw [reach]
  split
  · rfl
  · next found =>
      rw [absent] at found
      cases found

theorem reach_cons_of_some
    (found : inputFields? unvisited name = some fields) :
    reach unvisited (name :: others) =
      inputEntry name fields
        :: reach (withoutType name unvisited) (fields.map (·.type.inner) ++ others) := by
  rw [reach]
  split
  · next absent =>
      rw [found] at absent
      cases absent
  · next inputs isInput =>
      obtain rfl := Option.some.inj (isInput.symm.trans found)
      rfl

/-- Just the reached input types are listed, each with all its fields. -/
theorem mem_reach_iff {entry : String × Table String String} :
    entry ∈ reach unvisited pending ↔
      ∃ type inputs, ReachesInput (inputFields? unvisited) pending type ∧
        inputFields? unvisited type = some inputs ∧ entry = inputEntry type inputs := by
  induction unvisited, pending using reach.induct with
  | case1 unvisited =>
      rw [reach]
      refine iff_of_false List.not_mem_nil ?_
      rintro ⟨_, _, reached, -, -⟩
      induction reached with
      | start member => cases member
      | field _ _ _ _ inductionHypothesis => exact inductionHypothesis
  | case2 unvisited name others absent inductionHypothesis =>
      rw [reach_cons_of_none absent, inductionHypothesis]
      simp only [reachesInput_cons_of_none absent]
  | case3 unvisited name others fields found inductionHypothesis =>
      rw [reach_cons_of_some found, List.mem_cons, inductionHypothesis]
      simp only [reachesInput_cons_iff found, inputFields?_withoutType_iff]
      constructor
      · rintro (rfl | ⟨type, inputs, reached, ⟨_, isInput⟩, rfl⟩)
        · exact ⟨name, fields, .inl rfl, found, rfl⟩
        · exact ⟨type, inputs, .inr reached, isInput, rfl⟩
      · rintro ⟨type, inputs, reached, isInput, rfl⟩
        by_cases same : type = name
        · subst same
          obtain rfl := Option.some.inj (isInput.symm.trans found)
          exact .inl rfl
        · exact .inr ⟨type, inputs, reached.resolve_left same, ⟨same, isInput⟩, rfl⟩

theorem nodup_keys_reach (unvisited : List TypeDefinition) (pending : List Name) :
    (reach unvisited pending).keys.Nodup := by
  induction unvisited, pending using reach.induct with
  | case1 unvisited =>
      rw [reach]
      exact List.nodup_nil
  | case2 unvisited name others absent inductionHypothesis =>
      rw [reach_cons_of_none absent]
      exact inductionHypothesis
  | case3 unvisited name others fields found inductionHypothesis =>
      rw [reach_cons_of_some found]
      refine List.nodup_cons.mpr ⟨fun listed => ?_, inductionHypothesis⟩
      obtain ⟨entry, member, same⟩ := List.mem_map.mp listed
      obtain ⟨type, inputs, _, isInput, rfl⟩ := mem_reach_iff.mp member
      exact (inputFields?_withoutType_iff.mp isInput).1 (Name.eq_of_text_eq same)

/-! ## The collection -/

/-- What pending types lead to is listed part by part; a later part lists what no earlier one
did. -/
theorem reach_append (unvisited : List TypeDefinition) (pending later : List Name) :
    reach unvisited (pending ++ later) =
      reach unvisited pending
        ++ reach (unlisted (reach unvisited pending).keys unvisited) later := by
  induction unvisited, pending using reach.induct with
  | case1 unvisited =>
      have all : unlisted (reach unvisited []).keys unvisited = unvisited := by
        rw [reach, unlisted, List.filter_eq_self]
        intro type _
        simp [Table.keys]
      rw [all, reach, List.nil_append, List.nil_append]
  | case2 unvisited name others absent inductionHypothesis =>
      rw [List.cons_append, reach_cons_of_none absent, reach_cons_of_none absent,
        inductionHypothesis]
  | case3 unvisited name others fields found inductionHypothesis =>
      rw [List.append_assoc] at inductionHypothesis
      rw [List.cons_append, reach_cons_of_some found, reach_cons_of_some found,
        inductionHypothesis, List.cons_append]
      generalize reach (withoutType name unvisited) (fields.map (·.type.inner) ++ others) = inside
      have left : unlisted (Table.keys (inputEntry name fields :: inside)) unvisited =
          unlisted inside.keys (withoutType name unvisited) := by
        rw [unlisted, unlisted, withoutType, List.filter_filter]
        refine List.filter_congr fun type _ => ?_
        have same : type.name.text = name.text ↔ type.name = name :=
          ⟨Name.eq_of_text_eq, congrArg Name.text⟩
        simp only [Table.keys_cons, inputEntry, List.mem_cons, same, not_or, Bool.decide_and]
        rw [Bool.and_comm]
        by_cases isName : type.name = name <;> simp [isName]
      rw [left]

/-- The collection from a table on ends, with what is reached through the types that the table does
not list. -/
theorem collectsInputs_reach {fieldsOf? : Name → Option (List InputValue)}
    {table : Table String (Table String String)}
    (left : ∀ type fields, inputFields? unvisited type = some fields ↔
      type.text ∉ table.keys ∧ fieldsOf? type = some fields) :
    CollectsInputs fieldsOf? table pending (table ++ reach unvisited pending) := by
  -- The fields of a type are collected with fewer types left, and so is what is behind it.
  induction size : unvisited.length using Nat.strongRecOn
    generalizing unvisited table pending with
  | ind size fewer =>
  induction pending with
  | nil =>
      rw [reach, List.append_nil]
      exact .done
  | cons name others behind =>
      cases found : inputFields? unvisited name with
      | none =>
          rw [reach_cons_of_none found]
          refine .passed ?_ behind
          by_cases listed : name.text ∈ table.keys
          · exact .inl listed
          · refine .inr (Option.eq_none_iff_forall_ne_some.mpr fun fields isInput => ?_)
            rw [(left name fields).mpr ⟨listed, isInput⟩] at found
            cases found
      | some fields =>
          obtain ⟨unentered, isInput⟩ := (left name fields).mp found
          have less := length_withoutType_lt found
          have stillLeft : ∀ type fields',
              inputFields? (withoutType name unvisited) type = some fields' ↔
                type.text ∉ (table ++ [inputEntry name fields]).keys ∧
                  fieldsOf? type = some fields' := by
            intro type fields'
            have single : Table.keys [inputEntry name fields] = [name.text] := rfl
            have same : type.text = name.text ↔ type = name :=
              ⟨Name.eq_of_text_eq, congrArg Name.text⟩
            rw [inputFields?_withoutType_iff, left, Table.keys_append, single, List.mem_append,
              List.mem_singleton, same, not_or, and_comm (b := type ≠ name), and_assoc]
          have inside : CollectsInputs fieldsOf? (table ++ [inputEntry name fields])
              (fields.map (·.type.inner)) (table ++ [inputEntry name fields]
                ++ reach (withoutType name unvisited) (fields.map (·.type.inner))) :=
            fewer _ (size ▸ less) stillLeft rfl
          rw [reach_cons_of_some found, reach_append, List.append_cons, ← List.append_assoc]
          refine .entered unentered isInput inside (fewer _ ?_ ?_ rfl)
          · exact size ▸ Nat.lt_of_le_of_lt (List.length_filter_le ..) less
          · intro type fields'
            rw [inputFields?_unlisted_iff, stillLeft,
              Table.keys_append (table ++ [inputEntry name fields]), List.mem_append, not_or,
              and_left_comm, and_assoc]

end Visits

/-! ## Artifacts -/

/-- The input fields that a schema declares for a type. -/
theorem inputFields?_types (schema : Schema) (type : Name) :
    inputFields? schema.types type = schema.inputFields? type := by
  have alike : ∀ definition : TypeDefinition,
      (definition.name == type) = (definition.name.text == type.text) := by
    intro definition
    rw [Bool.eq_iff_iff, beq_iff_eq, beq_iff_eq]
    exact ⟨congrArg Name.text, Name.eq_of_text_eq⟩
  rw [inputFields?, Schema.inputFields?, Schema.type?]
  simp only [alike, bind, Option.bind_map]
  rfl

/-- Whether the input types of an artifact are those that some variables lead to. -/
structure ListsInputs (schema : Schema) (declarations : List VariableDefinition)
    (input : ArtifactInput) : Prop where
  /-- The collection of the named types of the variables, in their order, ends with this table. -/
  collected : CollectsInputs (fun type => schema.inputFields? type) []
    (declarations.map (·.type.inner)) input.types
  distinct : input.types.keys.Nodup
  mem_iff : ∀ entry, entry ∈ input.types ↔
    ∃ type fields,
      ReachesInput (fun type => schema.inputFields? type) (declarations.map (·.type.inner)) type ∧
        schema.inputFields? type = some fields ∧ entry = inputEntry type fields
  anyOrder : ∀ reordered : List VariableDefinition, reordered.Perm declarations →
    (ofDeclarations schema reordered).types.Perm input.types

theorem mem_types_ofDeclarations_iff {schema : Schema} {declarations : List VariableDefinition}
    {entry : String × Table String String} :
    entry ∈ (ofDeclarations schema declarations).types ↔
      ∃ type fields,
        ReachesInput (fun type => schema.inputFields? type) (declarations.map (·.type.inner))
            type ∧
          schema.inputFields? type = some fields ∧ entry = inputEntry type fields := by
  rw [ofDeclarations, mem_reach_iff, funext (inputFields?_types schema)]

/-- The order of the variables decides the order of the types alone. -/
theorem perm_types_ofDeclarations (schema : Schema)
    {declarations reordered : List VariableDefinition}
    (same : reordered.Perm declarations) :
    (ofDeclarations schema reordered).types.Perm (ofDeclarations schema declarations).types := by
  have nodup : ∀ declared, (ofDeclarations schema declared).types.Nodup := by
    intro declared
    have distinct := nodup_keys_reach schema.types (declared.map (·.type.inner))
    exact (List.pairwise_map.mp distinct).imp fun different same =>
      different (congrArg Prod.fst same)
  refine (List.perm_ext_iff_of_nodup (nodup reordered) (nodup declarations)).mpr fun entry => ?_
  have starts := same.map (·.type.inner)
  rw [mem_types_ofDeclarations_iff, mem_types_ofDeclarations_iff]
  constructor
  · rintro ⟨type, fields, reached, listed⟩
    exact ⟨type, fields, reached.mono starts.subset, listed⟩
  · rintro ⟨type, fields, reached, listed⟩
    exact ⟨type, fields, reached.mono starts.symm.subset, listed⟩

theorem listsInputs_ofDeclarations (schema : Schema) (declarations : List VariableDefinition) :
    ListsInputs schema declarations (ofDeclarations schema declarations) where
  collected := by
    have all := @collectsInputs_reach schema.types (declarations.map (·.type.inner))
      (fun type => schema.inputFields? type) []
    refine all fun type fields => ?_
    rw [inputFields?_types]
    exact ⟨fun isInput => ⟨List.not_mem_nil, isInput⟩, And.right⟩
  distinct := nodup_keys_reach ..
  mem_iff := fun _ => mem_types_ofDeclarations_iff
  anyOrder := fun _ => perm_types_ofDeclarations schema

end ArtifactInput

/-- Each query has an artifact, with the input types that the variables of the query lead to:
each once, with all its fields, and no others. -/
theorem Artifact.exists_listsInputs {schema : Schema} {document : Document}
    {operation : Operation} {root : Name}
    (isOperation : document.operation? = some operation)
    (isQuery : operation.kind = .query)
    (hasRoot : schema.queryRoot? = some root) :
    ∃ artifact, build? schema document = some artifact ∧
      artifact.input.ListsInputs schema operation.declarations := by
  have built : (build? schema document).map (·.input) =
      some (ArtifactInput.ofDeclarations schema operation.declarations) := by
    rw [build?, isOperation, hasRoot]
    simp [isQuery]
  obtain ⟨artifact, isBuilt, isInput⟩ := Option.map_eq_some_iff.mp built
  refine ⟨artifact, isBuilt, ?_⟩
  rw [isInput]
  exact ArtifactInput.listsInputs_ofDeclarations schema operation.declarations

/-! ## Input types that refer to each other -/

namespace Filters

def clubType : Name := ⟨"Club", by decide⟩
def memberFilter : Name := ⟨"MemberFilter", by decide⟩
def roleFilter : Name := ⟨"RoleFilter", by decide⟩
def named : Name := ⟨"named", by decide⟩
def role : Name := ⟨"role", by decide⟩
def members : Name := ⟨"members", by decide⟩

/-- A schema in which members are filtered by their roles, and roles by their members. -/
def schema : Schema where
  types :=
    [⟨clubType, .object [] [⟨members, [], .named Name.stringType false⟩]⟩,
      ⟨Name.stringType, .scalar⟩,
      ⟨memberFilter, .input
        [⟨named, .named Name.stringType false, none⟩, ⟨role, .named roleFilter false, none⟩]⟩,
      ⟨roleFilter, .input [⟨members, .list (.named memberFilter true) false, none⟩]⟩]
  roots := [⟨.query, clubType⟩]
  directives := []

/-- A query with a filter for roles and a text. -/
def operation : Operation where
  kind := .query
  name := none
  declarations :=
    [⟨role, .named roleFilter true, none, []⟩, ⟨named, .named Name.stringType false, none, []⟩]
  directives := []
  selections := [.field (FieldOf.plain members [])]
  span := none

def document : Document where
  name := "Members"
  source := "sample.graphql"
  definitions := [.operation operation]
  refetch := none
  generated := none

end Filters

/-- The query has a variable whose type leads back to itself. -/
theorem Artifact.exists_listsInputs_filters :
    Filters.document.operation? = some Filters.operation ∧
      Filters.operation.kind = .query ∧ Filters.schema.queryRoot? = some Filters.clubType ∧
      ∃ artifact, build? Filters.schema Filters.document = some artifact ∧
        artifact.input.ListsInputs Filters.schema Filters.operation.declarations :=
  ⟨rfl, rfl, by decide, @exists_listsInputs _ _ _ Filters.clubType rfl rfl (by decide)⟩

example :
    (ArtifactInput.ofDeclarations Filters.schema Filters.operation.declarations).types =
      [("RoleFilter", [("members", "MemberFilter")]),
        ("MemberFilter", [("named", "String"), ("role", "RoleFilter")])] := by
  cbv

end QueryPaging
