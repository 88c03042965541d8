/-!
# Names

A GraphQL name is a letter or an underscore followed by letters, digits and underscores, all of
them ASCII. `Name` holds such a text together with the proof that it is one, so a name never has
to be checked twice.
-/

namespace QueryPaging

def opensName (c : Char) : Bool :=
  c.isAlpha || c == '_'

/-- Whether a character may stand inside a name. -/
def continuesName (c : Char) : Bool :=
  c.isAlphanum || c == '_'

def isNameText (text : String) : Bool :=
  match text.toList with
  | [] => false
  | first :: rest => opensName first && rest.all continuesName

/-- A GraphQL name. -/
structure Name where
  text : String
  wellFormed : isNameText text = true
deriving DecidableEq

namespace Name

instance : Coe Name String :=
  ⟨Name.text⟩

/-- The name spelled by `text`, if it spells one. -/
def ofText? (text : String) : Option Name :=
  if wellFormed : isNameText text = true then some ⟨text, wellFormed⟩ else none

@[simp]
theorem ofText?_text (name : Name) :
    ofText? name.text = some name := by
  simp [ofText?, name.wellFormed]

theorem text_of_ofText?_eq_some {text : String} {name : Name}
    (read : ofText? text = some name) :
    name.text = text := by
  unfold ofText? at read
  split at read
  · cases read
    rfl
  · cases read

theorem eq_of_text_eq {left right : Name}
    (equality : left.text = right.text) :
    left = right := by
  cases left
  cases right
  cases equality
  rfl

/-! ## Well-known names -/

/-- The field every composite type has, whether it declares it or not. -/
def typename : Name :=
  ⟨"__typename", by decide⟩

def stringType : Name :=
  ⟨"String", by decide⟩

/-- The type of whole numbers. -/
def intType : Name :=
  ⟨"Int", by decide⟩

def idType : Name :=
  ⟨"ID", by decide⟩

/-- The field that leads to an object, from an edge or from the query root. -/
def node : Name :=
  ⟨"node", by decide⟩

/-- The word that opens a fragment. -/
def fragment : Name :=
  ⟨"fragment", by decide⟩

/-- What gives a type, both to a parameter and in introspection. -/
def typeKey : Name :=
  ⟨"type", by decide⟩

end Name

end QueryPaging
