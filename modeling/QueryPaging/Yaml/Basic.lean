import QueryPaging.Yaml.Meaning

/-!
# YAML values

A scalar keeps its text, and whether it was written plainly. What a plain scalar means is decided
by whoever reads it: where a text is due every scalar is a text, and elsewhere a plain one may be
nothing, a truth value or a number. A tag tells what a scalar means there; a tag that is local to
the document means nothing to anyone.

A reference stands for a value that stands elsewhere in the document, so the views of a value are
views of the document.
-/

namespace QueryPaging

inductive Yaml where
  | scalar (tag : Option String) (isPlain : Bool) (text : String)
  | sequence (tag : Option String) (items : List Yaml)
  | mapping (tag : Option String) (entries : List (Yaml × Yaml))
  | reference (anchor : Nat)

namespace Yaml

/-- What stands where nothing was written. -/
def absent : Yaml := .scalar none true ""

/-- The namespace of the tags that everyone knows. -/
def coreTags : String := "tag:yaml.org,2002:"

def nullTag : String := coreTags ++ "null"

/-- The tags of scalars that are no texts. -/
def typedTags : List String :=
  [nullTag, coreTags ++ "bool", coreTags ++ "int", coreTags ++ "float"]

def isLocalTag (tag : String) : Bool :=
  tag.toList.head? == some '!'

/-- A document: a value, and the values that references in it stand for. -/
structure Document where
  root : Yaml
  anchored : List (Nat × Yaml)

namespace Document

/-- The value itself that a value stands for. -/
def follow (document : Document) : Yaml → Yaml
  | .reference anchor => (document.anchored.lookup anchor).getD absent
  | value => value

def scalar? (document : Document) (value : Yaml) : Option String :=
  match document.follow value with
  | .scalar _ _ text => some text
  | _ => none

/-- The text of a scalar that cannot be taken for anything else. -/
def string? (document : Document) (value : Yaml) : Option String :=
  match document.follow value with
  | .scalar none isPlain text => if isPlain && !meansText text then none else some text
  | .scalar (some tag) _ text =>
      if isLocalTag tag || typedTags.contains tag then none else some text
  | _ => none

def isNull (document : Document) (value : Yaml) : Bool :=
  match document.follow value with
  | .scalar none true text => meansNull text
  | .scalar (some tag) true text => tag == nullTag && isNullWord text
  | _ => false

/-- The items of a sequence. Where nothing was written there are none. -/
def items? (document : Document) (value : Yaml) : Option (List Yaml) :=
  match document.follow value with
  | .sequence _ items => some items
  | .scalar _ true "" => some []
  | _ => none

/-- The items of a sequence that cannot be taken for anything else. -/
def sequence? (document : Document) (value : Yaml) : Option (List Yaml) :=
  match document.follow value with
  | .sequence tag items => if tag.any isLocalTag then none else some items
  | _ => none

/-- The entries of a mapping, all of whose keys have to be scalars. Where nothing was written
there are none. -/
def entries? (document : Document) (value : Yaml) : Option (List (String × Yaml)) :=
  match document.follow value with
  | .mapping _ entries =>
      entries.mapM fun (key, held) => (document.scalar? key).map fun text => (text, held)
  | .scalar _ true "" => some []
  | _ => none

end Document

end Yaml

end QueryPaging
