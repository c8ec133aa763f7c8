import Ambient.Proofs.TypeMarkers

/-!
# Types of another category

A type of another category is written with the display name of its owner in
front.  With the dot behind that name it is no primitive type, so a type without
markers passes through all steps (`Scope.typed_foreign`) but one: the table of
types that become `any` is asked for the qualified name.
-/

namespace Ambient

/-! ## Names with dots -/

/-- Whether a text can be the key of a type: identifiers with dots between
them, the last of which is not empty. -/
def IsTypePath (t : String) : Prop :=
  (∀ c ∈ t.toList, isIdentifierChar c = true ∨ c = '.') ∧
    ∃ c, t.toList.getLast? = some c ∧ isIdentifierChar c = true

/-! ## A type of another category -/

theorem lowerElement_of_dot {element : List Char} (h : '.' ∈ element) :
    lowerElement element = element := by
  have hprimitive : ∀ p ∈ primitiveNames, '.' ∉ p := by decide
  rw [lowerElement, if_neg fun hmem => hprimitive element hmem h]

theorem isIdentifierChar_of_mem_namespaceName {name : String} {c : Char}
    (h : c ∈ (namespaceName name).toList) : isIdentifierChar c = true := by
  rw [namespaceName, String.toList_ofList] at h
  obtain ⟨d, -, rfl⟩ := List.mem_map.mp h
  cases hd : isIdentifierChar d with
  | true => rw [if_pos rfl, hd]
  | false => rw [if_neg Bool.false_ne_true]; decide

theorem Category.isIdentifierChar_of_mem_displayName {c : Category} {x : Char}
    (h : x ∈ c.displayName.toList) : isIdentifierChar x = true := by
  unfold displayName at h
  cases hname : c.name with
  | none =>
      have hunknown : unknownCategory.toList.all isIdentifierChar = true := by rfl
      rw [hname] at h
      exact List.all_eq_true.mp hunknown x h
  | some name =>
      rw [hname] at h
      exact isIdentifierChar_of_mem_namespaceName h

theorem Scope.qualifiedName_of_ne (s : Scope) {owner : String} (type : String)
    (howner : owner ≠ s.category) :
    s.qualifiedName ⟨type, some owner⟩ = s.description.displayNameOf owner ++ "." ++ type := by
  have hforeign : s.foreignOwner? ⟨type, some owner⟩ = some owner := by
    rw [foreignOwner?, Option.filter_some, if_pos (bne_iff_ne.mpr howner)]
  rw [qualifiedName, hforeign]

/-- **A type of another category is written with the display name of its
owner**, at every site. -/
theorem Scope.typed_foreign (s : Scope) {owner type : String} (name : String) (site : Site)
    (howner : owner ≠ s.category) (htype : IsTypePath type)
    (hany : s.settings.overrides.isAny
      (s.description.displayNameOf owner ++ "." ++ type) = false) :
    s.typed name ⟨type, some owner⟩ site =
      name ++ ": " ++ (s.description.displayNameOf owner ++ "." ++ type) := by
  obtain ⟨-, hends⟩ := htype
  have hown : s.isOwn ⟨type, some owner⟩ = false := beq_eq_false_iff_ne.mpr howner
  have henum : s.isEnumField ⟨type, some owner⟩ site = false := by
    rw [isEnumField, hown, Bool.and_false, Bool.false_and]
  have hlast : EndsInIdentifier (s.description.displayNameOf owner ++ "." ++ type).toList := by
    rw [String.toList_append]
    exact EndsInIdentifier.append _ hends
  have hdot : '.' ∈ (s.description.displayNameOf owner ++ "." ++ type).toList := by
    rw [String.toList_append, String.toList_append]
    exact List.mem_append_left _ (List.mem_append_right _ (List.mem_singleton_self _))
  rw [typed, s.qualifiedName_of_ne type howner]
  -- The qualified name, of which only the end and the dot matter.
  generalize s.description.displayNameOf owner ++ "." ++ type = qualified at hany hlast hdot ⊢
  have hkept : s.settings.overrides.substituteElement qualified.toList = qualified.toList := by
    rw [Overrides.substituteElement, String.ofList_toList, hany, if_neg Bool.false_ne_true]
  have hwritten := s.annotate_markers name ⟨type, some owner⟩ site hlast 0 false
  have hmarkers : markers 0 false = [] := rfl
  have hdepth : arrayMarkers (arrayDepth 0 false) = [] := rfl
  rw [hkept, lowerElement_of_dot hdot, henum, hmarkers, hdepth, List.append_nil,
    String.ofList_toList] at hwritten
  simpa using hwritten

end Ambient
