import QueryPaging.Proofs.Generation
import QueryPaging.Proofs.Registries
import QueryPaging.Proofs.TypeText

/-!
# Generated names

The names made up for a fragment are always names, and the two of them differ. So a generated query
is embedded wherever nobody took its names before.
-/

namespace QueryPaging

/-! ## Texts that are names -/

/-- A name followed by characters that may stand inside a name is a name. -/
theorem isNameText_append {start suffix : String}
    (isName : isNameText start = true)
    (continues : ∀ c ∈ suffix.toList, continuesName c = true) :
    isNameText (start ++ suffix) = true := by
  unfold isNameText at isName ⊢
  rw [String.toList_append]
  cases characters : start.toList with
  | nil => simp [characters] at isName
  | cons first rest =>
      rw [characters] at isName
      simp only [Bool.and_eq_true, List.all_eq_true] at isName
      simp only [List.cons_append, Bool.and_eq_true, List.all_eq_true, List.mem_append]
      exact ⟨isName.1, fun c member => member.elim (isName.2 c) (continues c)⟩

theorem exists_digit_of_mem_hex {bytes : List UInt8} {c : Char}
    (member : c ∈ (Sha256.hex bytes).toList) :
    ∃ value < 16, c = Sha256.hexDigit value := by
  rw [Sha256.hex, String.toList_ofList] at member
  obtain ⟨byte, _, isDigit⟩ := List.mem_flatMap.mp member
  have bound : byte.toNat < 256 := byte.toNat_lt
  rcases List.mem_cons.mp isDigit with high | low
  · exact ⟨byte.toNat / 16, by omega, high⟩
  · exact ⟨byte.toNat % 16, by omega, List.mem_singleton.mp low⟩

theorem continuesName_hexDigit {value : Nat}
    (bound : value < 16) :
    continuesName (Sha256.hexDigit value) = true := by
  have every : ∀ digit : Fin 16, continuesName (Sha256.hexDigit digit.val) = true := by decide
  exact every ⟨value, bound⟩

theorem hexDigit_ne_y {value : Nat}
    (bound : value < 16) :
    Sha256.hexDigit value ≠ 'y' := by
  have every : ∀ digit : Fin 16, Sha256.hexDigit digit.val ≠ 'y' := by decide
  exact every ⟨value, bound⟩

/-- A hash has two digits for each of its thirty-two bytes. -/
theorem length_contentHash (text : String) :
    (contentHash text).toList.length = 64 := by
  have bytes : ∀ state : Sha256.State, state.bytes.length = 32 := by
    intro state
    simp [Sha256.State.bytes, Sha256.bigEndian]
  have digits : ∀ bytes : List UInt8, (Sha256.hex bytes).toList.length = bytes.length * 2 := by
    intro bytes
    simp [Sha256.hex, List.length_flatMap, List.map_const']
  rw [contentHash, Sha256.ofText, digits, Sha256.digest, bytes]

/-! ## The names of a query -/

theorem exists_digit_of_mem_shortDigest {text : String} {c : Char}
    (member : c ∈ (shortDigest text).toList) :
    ∃ value < 16, c = Sha256.hexDigit value := by
  rw [shortDigest, String.toList_ofList] at member
  exact exists_digit_of_mem_hex (List.mem_of_mem_take member)

theorem length_shortDigest (text : String) :
    (shortDigest text).toList.length = shortDigestLength := by
  rw [shortDigest, String.toList_ofList, List.length_take, length_contentHash]
  rfl

theorem isNameText_paginationQueryName (name : Name) :
    isNameText (paginationQueryName name) = true := by
  have suffix : "_Pagination_Query".toList.all continuesName = true := by rfl
  exact isNameText_append name.wellFormed (List.all_eq_true.mp suffix)

theorem isNameText_wrapperName (name : Name) (parameters : String) :
    isNameText (wrapperName name parameters) = true := by
  have underscore : "_".toList.all continuesName = true := by rfl
  have opening := isNameText_append name.wellFormed (List.all_eq_true.mp underscore)
  refine isNameText_append opening fun c member => ?_
  obtain ⟨value, bound, rfl⟩ := exists_digit_of_mem_shortDigest member
  exact continuesName_hexDigit bound

theorem toList_wrapperName (fragment parameters : String) :
    (wrapperName fragment parameters).toList =
      (fragment ++ "_").toList ++ (shortDigest parameters).toList := by
  rw [wrapperName, String.toList_append]

theorem paginationQueryName_inj {left right : String} :
    paginationQueryName left = paginationQueryName right ↔ left = right := by
  constructor
  · intro same
    have characters := congrArg String.toList same
    rw [paginationQueryName, paginationQueryName, String.toList_append, String.toList_append]
      at characters
    exact String.toList_inj.mp (List.append_cancel_right characters)
  · exact congrArg paginationQueryName

/-- The digits of all wrappers are equally many, so what stands before them is told apart. -/
theorem eq_of_wrapperName_eq {left right parameters others : String}
    (same : wrapperName left parameters = wrapperName right others) :
    left = right := by
  have characters := congrArg String.toList same
  rw [toList_wrapperName, toList_wrapperName] at characters
  have lengths : (shortDigest parameters).toList.length = (shortDigest others).toList.length := by
    rw [length_shortDigest, length_shortDigest]
  have opening := (List.append_inj' characters lengths).1
  rw [String.toList_append, String.toList_append] at opening
  exact String.toList_inj.mp (List.append_cancel_right opening)

/-- A wrapper ends in digits and the name of a query does not, whatever their fragments. -/
theorem wrapperName_ne_paginationQueryName (fragment parameters other : String) :
    wrapperName fragment parameters ≠ paginationQueryName other := by
  intro same
  have characters := congrArg String.toList same
  have ending : (paginationQueryName other).toList =
      (other.toList ++ "_Paginati".toList) ++ "on_Query".toList := by
    rw [paginationQueryName, String.toList_append, List.append_assoc]
    rfl
  rw [toList_wrapperName, ending] at characters
  have lengths : (shortDigest parameters).toList.length = "on_Query".toList.length := by
    rw [length_shortDigest]
    rfl
  have digits := (List.append_inj' characters lengths).2
  have inside : 'y' ∈ (shortDigest parameters).toList := by
    rw [digits]
    decide
  obtain ⟨value, bound, isDigit⟩ := exists_digit_of_mem_shortDigest inside
  exact hexDigit_ne_y bound isDigit.symm

/-! ## Free names -/

namespace NameRegistry

theorem get?_seeded_eq_none {authored : List String} {name : String}
    (absent : name ∉ authored) :
    (seeded authored).get? name = none := by
  rw [get?_seeded, if_neg absent]

theorem claim_of_free {registry : NameRegistry} {name : String} (hash : String)
    (free : registry.get? name = none) :
    registry.claim name hash = .ok ⟨registry.claims.put name (.generated hash)⟩ := by
  rw [claim, free]

end NameRegistry

theorem Name.require_eq_ok_iff {text : String} {name : Name} :
    Name.require text = .ok name ↔ name.text = text := by
  unfold Name.require
  constructor
  · intro result
    split at result
    · next read =>
        cases result
        exact text_of_ofText?_eq_some read
    · cases result
  · rintro rfl
    rw [ofText?_text]

/-- A query whose names are free is embedded as it was generated. -/
theorem Embedding.exists_embed_of_free {document : Document} {identity : Identity}
    {index : FragmentIndex} (generation : Generation document identity index)
    {registry : NameRegistry}
    (freeQuery : registry.get? generation.query = none)
    (freeWrapper : registry.get? generation.wrapper = none) :
    ∃ later, embed document identity index registry = (.ok generation.outcome, later) := by
  have generated := generate_eq_ok_iff.mpr ⟨generation, rfl⟩
  have sameQuery := Name.require_eq_ok_iff.mp generation.isQuery
  have sameWrapper := Name.require_eq_ok_iff.mp generation.isWrapper
  have different : generation.wrapper.text ≠ generation.query.text := by
    rw [sameQuery, sameWrapper]
    exact wrapperName_ne_paginationQueryName _ _ _
  have stillFree : ((⟨registry.claims.put generation.query (.generated generation.hash)⟩ :
      NameRegistry)).get? generation.wrapper = none := by
    rw [NameRegistry.get?, Table.get?_put_of_ne _ _ different]
    exact freeWrapper
  refine ⟨⟨Table.put generation.wrapper.text (.generated generation.hash)
    (Table.put generation.query.text (.generated generation.hash) registry.claims)⟩, ?_⟩
  rw [embed, generated]
  simp only [claimNames, NameRegistry.claim_of_free _ freeQuery,
    NameRegistry.claim_of_free _ stillFree]

end QueryPaging
