import QueryPaging.Proofs.Batches
import QueryPaging.Proofs.Naming
import QueryPaging.Proofs.ValueText

/-!
# Canonical texts

The canonical text of a variable set joins its bindings by commas. Defaults vary freely and may hold
the very characters that join the parts; still the text says which variables there are, in which
order, and with which types and defaults. A wrapper is called after its fragment and the digest of
that text, so its name says all of this too, as far as digests tell texts apart.

- `TypeRef.eq_of_render_append_eq`: the text of a type says where it ends and which type it is.
- `VariableSet.eq_of_canonicalBinding_append_eq`: so does the text of a binding.
- `VariableSet.canonicalText_eq_iff_parameters_eq`: sets of one text have the same parameters.
- `VariableSet.wrapperName_eq_iff_parameters_eq`: wrappers of one name.
-/

namespace QueryPaging

/-! ## Types -/

namespace TypeRef

/-- Whether a character may stand in a type reference as it is written. -/
def isTypeCharacter (c : Char) : Bool :=
  continuesName c || "[]!".toList.contains c

theorem isTypeCharacter_of_mem_render {type : TypeRef} {c : Char}
    (member : c ∈ type.render.toList) :
    isTypeCharacter c = true := by
  have ofMark : ∀ required : Bool, c ∈ (if required then ['!'] else []) →
      isTypeCharacter c = true := by
    intro required inside
    cases required with
    | false => cases inside
    | true =>
        obtain rfl := List.mem_singleton.mp inside
        decide
  induction type with
  | named name required =>
      rw [toList_render, List.mem_append] at member
      rcases member with inside | inMark
      · rw [isTypeCharacter, continuesName_of_mem inside, Bool.true_or]
      · exact ofMark _ inMark
  | list item required inductionHypothesis =>
      rw [toList_render, List.mem_append, core, List.mem_append, List.mem_cons] at member
      rcases member with ((rfl | inside) | closing) | inMark
      · decide
      · exact inductionHypothesis inside
      · obtain rfl := List.mem_singleton.mp closing
        decide
      · exact ofMark _ inMark

theorem eq_of_render_eq {left right : TypeRef}
    (same : left.render = right.render) :
    left = right := by
  have read := ofText?_render left
  rw [same, ofText?_render right] at read
  exact (Option.some.inj read).symm

/-- The text of a type says where it ends and which type it is. -/
theorem eq_of_render_append_eq {left right : TypeRef} {rest after : List Char}
    (restOutside : ∀ c ∈ rest.head?, isTypeCharacter c = false)
    (afterOutside : ∀ c ∈ after.head?, isTypeCharacter c = false)
    (same : left.render.toList ++ rest = right.render.toList ++ after) :
    left = right ∧ rest = after := by
  obtain ⟨sameText, behind⟩ := eq_of_boundary_append_eq
    (fun _ => isTypeCharacter_of_mem_render) (fun _ => isTypeCharacter_of_mem_render)
    restOutside afterOutside same
  exact ⟨eq_of_render_eq (String.toList_inj.mp sameText), behind⟩

end TypeRef

namespace VariableSet

/-! ## Bindings -/

/-- What stands behind the type of a binding. -/
def defaultText : Option Value → List Char
  | none => []
  | some value => '=' :: value.render.toList

theorem toList_canonicalBinding (binding : VariableBinding) :
    (canonicalBinding binding).toList =
      binding.name.text.toList ++ ':' ::
        (binding.type.render.toList ++ defaultText binding.default) := by
  rw [canonicalBinding, String.toList_append, String.toList_append, String.toList_append,
    List.append_assoc, List.append_assoc]
  cases binding.default with
  | none => rfl
  | some value =>
      rw [defaultText, Option.map_some, Option.getD_some, String.toList_append]
      rfl

/-- Whether a binding may end before a text: nothing, or what opens with a comma. -/
def EndsBinding (rest : List Char) : Prop :=
  ∀ c ∈ rest.head?, c = ','

theorem EndsBinding.endsValue {rest : List Char}
    (ends : EndsBinding rest) :
    Value.EndsValue rest :=
  fun c first => .inl (ends c first)

/-- No type goes on behind itself, whether a default follows or the binding ends. -/
theorem isTypeCharacter_of_head?_defaultText {default : Option Value} {rest : List Char}
    (ends : EndsBinding rest) :
    ∀ c ∈ (defaultText default ++ rest).head?, TypeRef.isTypeCharacter c = false := by
  intro c first
  cases default with
  | none =>
      obtain rfl := ends c first
      decide
  | some value =>
      obtain rfl := Option.some.inj first
      decide

/-- The text of a default says which default it is, and whether there is any. -/
theorem eq_of_defaultText_append_eq {left right : Option Value} {rest after : List Char}
    (leftWritten : ∀ value ∈ left, value.isWritten = true)
    (rightWritten : ∀ value ∈ right, value.isWritten = true)
    (ends : EndsBinding rest)
    (afterEnds : EndsBinding after)
    (same : defaultText left ++ rest = defaultText right ++ after) :
    left = right ∧ rest = after := by
  have unlike : ∀ {value : Value} {rest after : List Char}, EndsBinding rest →
      defaultText none ++ rest ≠ defaultText (some value) ++ after := by
    intro value rest after ends same
    have first := ends '=' (by rw [← List.nil_append rest]; exact congrArg List.head? same)
    cases first
  cases left with
  | none =>
      cases right with
      | none => exact ⟨rfl, same⟩
      | some value => exact absurd same (unlike ends)
  | some value =>
      cases right with
      | none => exact absurd same.symm (unlike afterEnds)
      | some other =>
          obtain ⟨rfl, ended⟩ := Value.eq_of_renderAt_append_eq value (leftWritten value rfl)
            (rightWritten other rfl) ends.endsValue afterEnds.endsValue (List.cons.inj same).2
          exact ⟨rfl, ended⟩

/-- The text of a binding says where it ends and which parameter it declares. -/
theorem eq_of_canonicalBinding_append_eq {left right : VariableBinding} {rest after : List Char}
    (leftWritten : ∀ value ∈ left.default, value.isWritten = true)
    (rightWritten : ∀ value ∈ right.default, value.isWritten = true)
    (ends : EndsBinding rest)
    (afterEnds : EndsBinding after)
    (same : (canonicalBinding left).toList ++ rest = (canonicalBinding right).toList ++ after) :
    toParameter left = toParameter right ∧ rest = after := by
  rw [toList_canonicalBinding, toList_canonicalBinding, List.append_assoc, List.append_assoc,
    List.cons_append, List.cons_append, List.append_assoc, List.append_assoc] at same
  obtain ⟨sameName, behindName⟩ := Value.eq_of_name_append_eq same
  obtain ⟨sameType, behindType⟩ := TypeRef.eq_of_render_append_eq
    (isTypeCharacter_of_head?_defaultText ends) (isTypeCharacter_of_head?_defaultText afterEnds)
    behindName
  obtain ⟨sameDefault, ended⟩ :=
    eq_of_defaultText_append_eq leftWritten rightWritten ends afterEnds behindType
  exact ⟨by rw [toParameter, toParameter, sameName, sameType, sameDefault], ended⟩

/-! ## Sets -/

/-- Whether all defaults of a set are spelled by some text. -/
def IsWritten (set : VariableSet) : Prop :=
  ∀ binding ∈ set.bindings, ∀ value ∈ binding.default, value.isWritten = true

instance (set : VariableSet) : Decidable set.IsWritten :=
  inferInstanceAs (Decidable (∀ binding ∈ set.bindings, ∀ value ∈ binding.default,
    value.isWritten = true))

/-- Some bindings with a comma before each. -/
def laterText (bindings : List VariableBinding) : List Char :=
  bindings.flatMap fun binding => ',' :: (canonicalBinding binding).toList

theorem endsBinding_laterText (bindings : List VariableBinding) :
    EndsBinding (laterText bindings) := by
  intro c first
  cases bindings with
  | nil => cases first
  | cons binding others => exact (Option.some.inj first).symm

theorem laterText_cons (binding : VariableBinding) (others : List VariableBinding) :
    laterText (binding :: others) =
      ',' :: ((canonicalBinding binding).toList ++ laterText others) := by
  rw [laterText, List.flatMap_cons, List.cons_append]
  rfl

theorem parameters_eq_of_laterText_eq {left right : List VariableBinding}
    (leftWritten : ∀ binding ∈ left, ∀ value ∈ binding.default, value.isWritten = true)
    (rightWritten : ∀ binding ∈ right, ∀ value ∈ binding.default, value.isWritten = true)
    (same : laterText left = laterText right) :
    left.map toParameter = right.map toParameter := by
  induction left generalizing right with
  | nil =>
      cases right with
      | nil => rfl
      | cons other right => cases same
  | cons binding left inductionHypothesis =>
      cases right with
      | nil => cases same
      | cons other right =>
          obtain ⟨here, leftLater⟩ := List.forall_mem_cons.mp leftWritten
          obtain ⟨there, rightLater⟩ := List.forall_mem_cons.mp rightWritten
          rw [laterText_cons, laterText_cons] at same
          obtain ⟨sameFirst, behind⟩ := eq_of_canonicalBinding_append_eq here there
            (endsBinding_laterText left) (endsBinding_laterText right) (List.cons.inj same).2
          rw [List.map_cons, List.map_cons, sameFirst,
            inductionHypothesis leftLater rightLater behind]

/-- A comma before the first of some texts makes a comma before each of them. -/
theorem flatMap_comma {texts : List (List Char)}
    (nonempty : texts ≠ []) :
    texts.flatMap (',' :: ·) = ',' :: List.intercalate [','] texts := by
  induction texts with
  | nil => exact absurd rfl nonempty
  | cons text others inductionHypothesis =>
      cases others with
      | nil => simp [List.intercalate]
      | cons second others =>
          rw [List.flatMap_cons, inductionHypothesis (List.cons_ne_nil _ _),
            List.intercalate_cons_cons, List.append_assoc, List.cons_append]
          rfl

theorem laterText_bindings {set : VariableSet}
    (nonempty : set.bindings ≠ []) :
    laterText set.bindings = ',' :: set.canonicalText.toList := by
  rw [canonicalText, String.toList_intercalate, List.map_map,
    laterText, ← List.flatMap_map (fun binding => (canonicalBinding binding).toList) (',' :: ·)]
  exact flatMap_comma (mt List.map_eq_nil_iff.mp nonempty)

/-- No binding is written as nothing, so neither are several. -/
theorem canonicalText_eq_empty_iff {set : VariableSet} :
    set.canonicalText = "" ↔ set.bindings = [] := by
  constructor
  · intro empty
    cases some : set.bindings with
    | nil => rfl
    | cons binding others =>
        have nonempty : set.bindings ≠ [] := by
          rw [some]
          exact List.cons_ne_nil _ _
        have whole := laterText_bindings nonempty
        rw [empty, some, laterText_cons, toList_canonicalBinding, List.append_assoc] at whole
        cases (List.append_eq_nil_iff.mp (List.cons.inj whole).2).2
  · intro none
    rw [canonicalText, none]
    rfl

/-- Sets of written defaults have one canonical text exactly if they have the same parameters in
the same order. -/
theorem canonicalText_eq_iff_parameters_eq {left right : VariableSet}
    (leftWritten : left.IsWritten)
    (rightWritten : right.IsWritten) :
    left.canonicalText = right.canonicalText ↔ left.parameters = right.parameters := by
  constructor
  · intro same
    by_cases leftEmpty : left.bindings = []
    · have rightEmpty : right.bindings = [] := by
        rw [← canonicalText_eq_empty_iff, ← same, canonicalText_eq_empty_iff, leftEmpty]
      rw [parameters, parameters, leftEmpty, rightEmpty]
    · have rightNonempty : right.bindings ≠ [] := by
        rwa [Ne, ← canonicalText_eq_empty_iff, ← same, canonicalText_eq_empty_iff]
      refine parameters_eq_of_laterText_eq leftWritten rightWritten ?_
      rw [laterText_bindings leftEmpty, laterText_bindings rightNonempty, same]
  · intro same
    -- What is written of a binding is all in its parameter.
    have ofParameters : ∀ set : VariableSet, set.bindings.map canonicalBinding =
        set.parameters.map fun parameter => canonicalBinding (ofParameter parameter) := by
      intro set
      rw [parameters, List.map_map]
      rfl
    rw [canonicalText, canonicalText, ofParameters, ofParameters, same]

end VariableSet

/-! ## Wrappers -/

/-- That the digests of two texts tell these apart. -/
def DigestsTellApart (left right : String) : Prop :=
  shortDigest left = shortDigest right → left = right

/-- A wrapper is told by its fragment and by the digest of its parameters. -/
theorem wrapperName_eq_iff {left right parameters others : String} :
    wrapperName left parameters = wrapperName right others ↔
      left = right ∧ shortDigest parameters = shortDigest others := by
  constructor
  · intro same
    obtain rfl := eq_of_wrapperName_eq same
    have characters := congrArg String.toList same
    rw [toList_wrapperName, toList_wrapperName] at characters
    exact ⟨rfl, String.toList_inj.mp (List.append_cancel_left characters)⟩
  · rintro ⟨rfl, digits⟩
    rw [wrapperName, wrapperName, digits]

namespace VariableSet

variable {left right : VariableSet}

theorem wrapperName_eq_iff_parameters_eq
    (leftWritten : left.IsWritten)
    (rightWritten : right.IsWritten)
    (digests : DigestsTellApart left.canonicalText right.canonicalText)
    (fragment other : Name) :
    wrapperName fragment left.canonicalText = wrapperName other right.canonicalText ↔
      fragment = other ∧ left.parameters = right.parameters := by
  rw [wrapperName_eq_iff, ← canonicalText_eq_iff_parameters_eq leftWritten rightWritten]
  constructor
  · rintro ⟨sameName, sameDigits⟩
    exact ⟨Name.eq_of_text_eq sameName, digests sameDigits⟩
  · rintro ⟨rfl, same⟩
    exact ⟨rfl, congrArg shortDigest same⟩

/-- The canonical text of a set says which parameters it holds, in order, and so does the name of a
wrapper where digests tell texts apart; it says what fragment is wrapped even where they do not. -/
theorem canonicalText_and_wrapperName_eq_iff
    (leftWritten : left.IsWritten)
    (rightWritten : right.IsWritten) :
    (left.canonicalText = right.canonicalText ↔ left.parameters = right.parameters) ∧
      ∀ fragment other : Name,
        (DigestsTellApart left.canonicalText right.canonicalText →
          (wrapperName fragment left.canonicalText = wrapperName other right.canonicalText ↔
            fragment = other ∧ left.parameters = right.parameters)) ∧
        (fragment ≠ other →
          wrapperName fragment left.canonicalText ≠ wrapperName other right.canonicalText) := by
  refine ⟨canonicalText_eq_iff_parameters_eq leftWritten rightWritten, fun fragment other => ?_⟩
  refine ⟨fun digests => ?_, fun different same => ?_⟩
  · exact wrapperName_eq_iff_parameters_eq leftWritten rightWritten digests fragment other
  · exact different (Name.eq_of_text_eq (wrapperName_eq_iff.mp same).1)

end VariableSet

/-! ## A default that looks like a parameter -/

namespace Sample

def label : Name := ⟨"label", by decide⟩

def labelled (text : String) : VariableBinding :=
  ⟨label, .list (.named Name.stringType true) false, some (.string text), .declared⟩

/-- A parameter with a default that goes on like another parameter. -/
def joined : VariableSet where
  bindings := [labelled "a,size:Int!=1"]
  distinct := by decide

/-- The two parameters that the default looks like. -/
def separate : VariableSet where
  bindings := [labelled "a", ⟨size, .named Name.intType true, some (.int "1"), .declared⟩]
  distinct := by decide

end Sample

namespace VariableSet

open Sample

theorem canonicalText_and_wrapperName_eq_iff_lookalike :
    joined.IsWritten ∧ separate.IsWritten ∧
      DigestsTellApart joined.canonicalText separate.canonicalText ∧
      joined.canonicalText ≠ separate.canonicalText ∧
      wrapperName page joined.canonicalText ≠ wrapperName page separate.canonicalText ∧
      wrapperName page joined.canonicalText ≠ wrapperName part separate.canonicalText := by
  have joinedWritten : joined.IsWritten := by decide
  have separateWritten : separate.IsWritten := by decide
  have digests : DigestsTellApart joined.canonicalText separate.canonicalText :=
    fun same => absurd same (by decide +kernel)
  have different : joined.parameters ≠ separate.parameters := by decide
  obtain ⟨texts, wrappers⟩ :=
    canonicalText_and_wrapperName_eq_iff joinedWritten separateWritten
  refine ⟨joinedWritten, separateWritten, digests, ?_, ?_, ?_⟩
  · exact fun same => different (texts.mp same)
  · exact fun same => different (((wrappers page page).1 digests).mp same).2
  · exact (wrappers page part).2 (by decide)

end VariableSet

end QueryPaging
