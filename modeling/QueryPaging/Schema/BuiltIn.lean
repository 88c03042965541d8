import QueryPaging.Schema.Basic

/-!
# Built-in types

The scalars and introspection types that every schema has before any of its own.
-/

namespace QueryPaging.Schema.BuiltIn

/-- A type reference with null excluded. -/
def required (name : Name) : TypeRef :=
  .named name true

def optional (name : Name) : TypeRef :=
  .named name false

/-- A list of items, none of them null. -/
def listOf (name : Name) (required : Bool) : TypeRef :=
  .list (.named name true) required

def boolean : Name := ⟨"Boolean", by decide⟩
def schemaType : Name := ⟨"__Schema", by decide⟩
def typeType : Name := ⟨"__Type", by decide⟩
def typeKind : Name := ⟨"__TypeKind", by decide⟩
def fieldType : Name := ⟨"__Field", by decide⟩
def inputValueType : Name := ⟨"__InputValue", by decide⟩
def enumValueType : Name := ⟨"__EnumValue", by decide⟩
def directiveType : Name := ⟨"__Directive", by decide⟩
def directiveLocation : Name := ⟨"__DirectiveLocation", by decide⟩

def name : Name := ⟨"name", by decide⟩
def description : Name := ⟨"description", by decide⟩

/-- A field without arguments. -/
def plain (name : Name) (type : TypeRef) : FieldDefinition :=
  ⟨name, [], type⟩

/-- A field that leaves out deprecated items unless told otherwise. -/
def filtered (name : Name) (type : TypeRef) : FieldDefinition :=
  ⟨name, [⟨⟨"includeDeprecated", by decide⟩, optional boolean, some (.boolean false)⟩], type⟩

/-- The fields that tell whether and why a part of a schema is deprecated. -/
def deprecation : List FieldDefinition :=
  [plain ⟨"isDeprecated", by decide⟩ (required boolean),
    plain ⟨"deprecationReason", by decide⟩ (optional Name.stringType)]

def scalars : List TypeDefinition :=
  [⟨Name.intType, .scalar⟩,
    ⟨⟨"Float", by decide⟩, .scalar⟩,
    ⟨Name.stringType, .scalar⟩,
    ⟨boolean, .scalar⟩,
    ⟨Name.idType, .scalar⟩]

def introspection : List TypeDefinition :=
  [⟨schemaType, .object []
      [plain description (optional Name.stringType),
        plain ⟨"types", by decide⟩ (listOf typeType true),
        plain ⟨"queryType", by decide⟩ (required typeType),
        plain ⟨"mutationType", by decide⟩ (optional typeType),
        plain ⟨"subscriptionType", by decide⟩ (optional typeType),
        plain ⟨"directives", by decide⟩ (listOf directiveType true)]⟩,
    ⟨typeType, .object []
      [plain ⟨"kind", by decide⟩ (required typeKind),
        plain name (optional Name.stringType),
        plain description (optional Name.stringType),
        filtered ⟨"fields", by decide⟩ (listOf fieldType false),
        plain ⟨"interfaces", by decide⟩ (listOf typeType false),
        plain ⟨"possibleTypes", by decide⟩ (listOf typeType false),
        filtered ⟨"enumValues", by decide⟩ (listOf enumValueType false),
        filtered ⟨"inputFields", by decide⟩ (listOf inputValueType false),
        plain ⟨"ofType", by decide⟩ (optional typeType),
        plain ⟨"specifiedByURL", by decide⟩ (optional Name.stringType)]⟩,
    ⟨typeKind, .enum
      [⟨"SCALAR", by decide⟩, ⟨"OBJECT", by decide⟩, ⟨"INTERFACE", by decide⟩,
        ⟨"UNION", by decide⟩, ⟨"ENUM", by decide⟩, ⟨"INPUT_OBJECT", by decide⟩,
        ⟨"LIST", by decide⟩, ⟨"NON_NULL", by decide⟩]⟩,
    ⟨fieldType, .object []
      ([plain name (required Name.stringType),
        plain description (optional Name.stringType),
        filtered ⟨"args", by decide⟩ (listOf inputValueType true),
        plain Name.typeKey (required typeType)] ++ deprecation)⟩,
    ⟨inputValueType, .object []
      ([plain name (required Name.stringType),
        plain description (optional Name.stringType),
        plain Name.typeKey (required typeType),
        plain ⟨"defaultValue", by decide⟩ (optional Name.stringType)] ++ deprecation)⟩,
    ⟨enumValueType, .object []
      ([plain name (required Name.stringType),
        plain description (optional Name.stringType)] ++ deprecation)⟩,
    ⟨directiveType, .object []
      [plain name (required Name.stringType),
        plain description (optional Name.stringType),
        plain ⟨"locations", by decide⟩ (listOf directiveLocation true),
        filtered ⟨"args", by decide⟩ (listOf inputValueType true),
        plain ⟨"isRepeatable", by decide⟩ (required boolean)]⟩,
    ⟨directiveLocation, .enum
      [⟨"QUERY", by decide⟩, ⟨"MUTATION", by decide⟩, ⟨"SUBSCRIPTION", by decide⟩,
        ⟨"FIELD", by decide⟩, ⟨"FRAGMENT_DEFINITION", by decide⟩,
        ⟨"FRAGMENT_SPREAD", by decide⟩, ⟨"INLINE_FRAGMENT", by decide⟩,
        ⟨"VARIABLE_DEFINITION", by decide⟩, ⟨"SCHEMA", by decide⟩, ⟨"SCALAR", by decide⟩,
        ⟨"OBJECT", by decide⟩, ⟨"FIELD_DEFINITION", by decide⟩,
        ⟨"ARGUMENT_DEFINITION", by decide⟩, ⟨"INTERFACE", by decide⟩, ⟨"UNION", by decide⟩,
        ⟨"ENUM", by decide⟩, ⟨"ENUM_VALUE", by decide⟩, ⟨"INPUT_OBJECT", by decide⟩,
        ⟨"INPUT_FIELD_DEFINITION", by decide⟩]⟩]

/-- All types a schema has before its own. -/
def types : List TypeDefinition :=
  introspection ++ scalars

end QueryPaging.Schema.BuiltIn
