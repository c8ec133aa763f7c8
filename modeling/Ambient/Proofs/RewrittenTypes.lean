import Ambient.Proofs.WrittenTypes

/-!
# Types that are written as they stand

Three steps rewrite the qualified name of a type: an element from the table
becomes `any`, a variadic type becomes an array, and a primitive type becomes
lowercase.  `Overrides.rewritten` is what they make of a name together.

They leave a name as it is exactly if none of them has anything to do
(`Overrides.rewritten_eq_self_iff`): no later step undoes an earlier one.  That
decides what stands behind `typeof`.  The rule for enums looks at the name in
the reference, which is the key of the enum, and the written type is that key
only if the steps leave it alone.
-/

namespace Ambient

/-! ## The steps together -/

/-- A variadic type as an array. -/
def unrolled (type : List Char) : List Char :=
  match variadicElement? type with
  | none => type
  | some element => element ++ arrayMarker

/-- What is written for the qualified name of a type. -/
def Overrides.rewritten (o : Overrides) (name : List Char) : List Char :=
  lowerPrimitive (unrolled (o.substituteAny name))

/-- The parts of a written member: the variadic marker of a parameter, the name,
`typeof` where the rule for enums asks for it, and the rewritten type. -/
theorem Scope.annotate_eq (s : Scope) (name : String) (t : TypeRef) (site : Site)
    (qualified : String) :
    s.annotate name t site qualified =
      (if site = .parameter ∧
          (variadicElement? (s.settings.overrides.substituteAny qualified.toList)).isSome = true then
        "..." else "") ++ name ++ ": " ++
        ((if s.isEnumField t site = true then "typeof " else "") ++
          String.ofList (s.settings.overrides.rewritten qualified.toList)) := by
  have htypeof : ∀ type : String, ": typeof " ++ type = ": " ++ ("typeof " ++ type) :=
    fun type => (String.append_assoc : ": " ++ "typeof " ++ type = _)
  cases hvariadic : variadicElement? (s.settings.overrides.substituteAny qualified.toList) with
  | none =>
      simp only [annotate, Overrides.rewritten, unrolled, hvariadic, Option.isSome_none,
        Bool.false_eq_true, and_false, if_false, String.empty_append]
      split_ifs <;> simp only [String.append_assoc, String.empty_append, htypeof]
  | some element =>
      simp only [annotate, Overrides.rewritten, unrolled, hvariadic, Option.isSome_some, and_true]
      split_ifs <;> simp only [String.append_assoc, String.empty_append, htypeof]

/-! ## Each step alone -/

theorem variadicElement?_eq_some_iff {name element : List Char} :
    variadicElement? name = some element ↔ element ≠ [] ∧ name = element ++ variadicMarker := by
  constructor
  · intro h
    unfold variadicElement? at h
    split at h
    · rename_i c rest heq
      obtain rfl := Option.some.inj h
      refine ⟨by simp, ?_⟩
      rw [← List.reverse_inj, heq, List.reverse_append, List.reverse_reverse]
      rfl
    · exact nomatch h
  · rintro ⟨hne, rfl⟩
    obtain ⟨c, rest, hrest⟩ := List.exists_cons_of_ne_nil (List.reverse_ne_nil_iff.mpr hne)
    rw [variadicElement?, List.reverse_append, hrest]
    show some (c :: rest).reverse = _
    rw [← hrest, List.reverse_reverse]

theorem isPrimitive_iff {name : List Char} :
    isPrimitive name = true ↔
      ∃ p ∈ primitiveNames, ∃ rest, name = p ++ rest ∧ ∀ c ∈ rest, isIdentifierChar c = false := by
  rw [isPrimitive, List.any_eq_true]
  constructor
  · rintro ⟨p, hp, hmatch⟩
    obtain ⟨hstart, hrest⟩ := Bool.and_eq_true_iff.mp hmatch
    obtain ⟨rest, rfl⟩ := List.isPrefixOf_iff_prefix.mp hstart
    rw [List.drop_left] at hrest
    exact ⟨p, hp, rest, rfl, by simpa using hrest⟩
  · rintro ⟨p, hp, rest, rfl, hrest⟩
    refine ⟨p, hp, Bool.and_eq_true_iff.mpr ⟨?_, ?_⟩⟩
    · exact List.isPrefixOf_iff_prefix.mpr (List.prefix_append _ _)
    · rw [List.drop_left]
      simpa using hrest

/-- The word that the table puts for an element. -/
def anyName : List Char :=
  ['a', 'n', 'y']

theorem Overrides.substituteAny_cases (o : Overrides) (name : List Char) :
    (o.isAny (String.ofList (splitMarkers name).1) = false ∧ o.substituteAny name = name) ∨
      (o.isAny (String.ofList (splitMarkers name).1) = true ∧
        o.substituteAny name = anyName ++ (splitMarkers name).2) := by
  cases hany : o.isAny (String.ofList (splitMarkers name).1) with
  | true => exact .inr ⟨rfl, if_pos hany⟩
  | false => exact .inl ⟨rfl, if_neg (Bool.eq_false_iff.mp hany)⟩

theorem unrolled_eq_self_iff {type : List Char} :
    unrolled type = type ↔ variadicElement? type = none := by
  unfold unrolled
  cases hvariadic : variadicElement? type with
  | none => simp
  | some element =>
      obtain ⟨-, htype⟩ := variadicElement?_eq_some_iff.mp hvariadic
      simp only [reduceCtorEq, iff_false]
      rw [htype, List.append_right_inj]
      decide

theorem head?_unrolled (type : List Char) : (unrolled type).head? = type.head? := by
  unfold unrolled
  cases hvariadic : variadicElement? type with
  | none => rfl
  | some element =>
      obtain ⟨hne, htype⟩ := variadicElement?_eq_some_iff.mp hvariadic
      rw [htype, List.head?_append_of_ne_nil _ hne, List.head?_append_of_ne_nil _ hne]

theorem head?_lowerPrimitive {type : List Char} (h : isPrimitive type = true) :
    ∃ c ∈ ['B', 'N', 'S'], type.head? = some c ∧
      (lowerPrimitive type).head? = some c.toLower := by
  obtain ⟨p, hp, rest, rfl, -⟩ := isPrimitive_iff.mp h
  rw [lowerPrimitive, if_pos h]
  simp only [primitiveNames, List.mem_cons, List.not_mem_nil, or_false] at hp
  rcases hp with rfl | rfl | rfl
  · exact ⟨'B', by decide, rfl, rfl⟩
  · exact ⟨'N', by decide, rfl, rfl⟩
  · exact ⟨'S', by decide, rfl, rfl⟩

/-! ## Names that are left as they are -/

/-- A name with which no step has anything to do: its element is not in the
table, or is `any` already; it is no element with a variadic marker behind it;
and it is no primitive type with only other characters than those of
identifiers behind it. -/
structure Overrides.Keeps (o : Overrides) (name : List Char) : Prop where
  element : o.isAny (String.ofList (splitMarkers name).1) = true →
    (splitMarkers name).1 = anyName
  noVariadic : ∀ element, name = element ++ variadicMarker → element = []
  noPrimitive : ∀ p ∈ primitiveNames, ∀ rest, name = p ++ rest →
    ∃ c ∈ rest, isIdentifierChar c = true

namespace Overrides

variable {o : Overrides} {name : List Char}

theorem substituteAny_eq_self_iff :
    o.substituteAny name = name ↔
      (o.isAny (String.ofList (splitMarkers name).1) = true → (splitMarkers name).1 = anyName) := by
  rcases o.substituteAny_cases name with ⟨hany, hsame⟩ | ⟨hany, hsubst⟩
  · simp [hany, hsame]
  · rw [hsubst]
    nth_rewrite 2 [← splitMarkers_eq name]
    rw [List.append_left_inj]
    exact ⟨fun h _ => h.symm, fun h => (h hany).symm⟩

theorem keeps_iff :
    o.Keeps name ↔
      o.substituteAny name = name ∧ unrolled name = name ∧ isPrimitive name = false := by
  rw [substituteAny_eq_self_iff, unrolled_eq_self_iff, Option.eq_none_iff_forall_ne_some,
    ← Bool.not_eq_true, isPrimitive_iff]
  constructor
  · rintro ⟨helement, hvariadic, hprimitive⟩
    refine ⟨helement, fun element hsome => ?_, ?_⟩
    · obtain ⟨hne, hname⟩ := variadicElement?_eq_some_iff.mp hsome
      exact hne (hvariadic element hname)
    · rintro ⟨p, hp, rest, hname, hrest⟩
      obtain ⟨c, hc, hidentifier⟩ := hprimitive p hp rest hname
      rw [hrest c hc] at hidentifier
      exact Bool.noConfusion hidentifier
  · rintro ⟨helement, hvariadic, hprimitive⟩
    refine ⟨helement, fun element hname => ?_, fun p hp rest hname => ?_⟩
    · by_contra hne
      exact hvariadic element (variadicElement?_eq_some_iff.mpr ⟨hne, hname⟩)
    · by_contra hnone
      exact hprimitive ⟨p, hp, rest, hname, by simpa using hnone⟩

/-- A name that is written as it stands is no primitive type after the first two
steps: its first letter would be a small one. -/
theorem isPrimitive_of_rewritten_eq_self (h : o.rewritten name = name) :
    isPrimitive (unrolled (o.substituteAny name)) = false := by
  by_contra hprimitive
  rw [Bool.not_eq_false] at hprimitive
  obtain ⟨c, hc, hbefore, hafter⟩ := head?_lowerPrimitive hprimitive
  rw [head?_unrolled] at hbefore
  have hname : name.head? = some c.toLower := h ▸ hafter
  rcases o.substituteAny_cases name with ⟨-, hsame⟩ | ⟨-, hsubst⟩
  · have hcapitals : ∀ c ∈ ['B', 'N', 'S'], c.toLower ≠ c := by simp
    rw [hsame, hname] at hbefore
    exact hcapitals c hc (Option.some.inj hbefore)
  · rw [hsubst] at hbefore
    have hsmall : 'a' = c := Option.some.inj hbefore
    rw [← hsmall] at hc
    exact absurd hc (by decide)

/-- It is no variadic type after the first step either: it would end in an array marker. -/
theorem unrolled_of_rewritten_eq_self (h : o.rewritten name = name) :
    unrolled (o.substituteAny name) = o.substituteAny name := by
  have hprimitive := isPrimitive_of_rewritten_eq_self h
  rw [rewritten, lowerPrimitive, hprimitive, if_neg Bool.false_ne_true] at h
  rw [unrolled_eq_self_iff, Option.eq_none_iff_forall_ne_some]
  intro element hvariadic
  obtain ⟨-, htype⟩ := variadicElement?_eq_some_iff.mp hvariadic
  have hlast : name.getLast? = some ']' := by
    rw [← h, unrolled, hvariadic]
    exact List.getLast?_append_of_ne_nil _ (by decide)
  have hdot : (o.substituteAny name).getLast? = some '.' := by
    rw [htype]
    exact List.getLast?_append_of_ne_nil _ (by decide)
  rcases o.substituteAny_cases name with ⟨-, hsame⟩ | ⟨-, hsubst⟩
  · rw [hsame, hlast] at hdot
    exact absurd hdot (by decide)
  · -- The last character is that of the markers, which are those of the name.
    rw [hsubst] at hdot
    rw [← splitMarkers_eq name] at hlast
    by_cases hmarkers : (splitMarkers name).2 = []
    · rw [hmarkers] at hdot
      exact absurd hdot (by decide)
    · rw [List.getLast?_append_of_ne_nil _ hmarkers] at hdot hlast
      rw [hlast] at hdot
      exact absurd hdot (by decide)

/-- **A name is written as it stands exactly if no step has anything to do with
it.** -/
theorem rewritten_eq_self_iff : o.rewritten name = name ↔ o.Keeps name := by
  rw [keeps_iff]
  constructor
  · intro h
    have hprimitive := isPrimitive_of_rewritten_eq_self h
    have hunrolled := unrolled_of_rewritten_eq_self h
    have hsubst : o.substituteAny name = name := by
      rw [rewritten, lowerPrimitive, hprimitive, if_neg Bool.false_ne_true, hunrolled] at h
      exact h
    rw [hsubst] at hunrolled hprimitive
    rw [hunrolled] at hprimitive
    exact ⟨hsubst, hunrolled, hprimitive⟩
  · rintro ⟨hsubst, hunrolled, hprimitive⟩
    rw [rewritten, hsubst, hunrolled, lowerPrimitive, hprimitive, if_neg Bool.false_ne_true]

instance (o : Overrides) (name : List Char) : Decidable (o.Keeps name) :=
  decidable_of_iff (o.rewritten name = name) rewritten_eq_self_iff

end Overrides

/-! ## The type of an enum -/

namespace Scope

/-- **What stands behind `typeof`.**  Where the rule for enums applies, the name
in the reference is the key of an enum of the category that is being written,
and behind `typeof` stands that name as the rewriting steps write it.  It is the
key itself exactly if no step has anything to do with it. -/
theorem typeof_names_key_iff (s : Scope) (r : References) (name : String) (t : TypeRef)
    (site : Site) (h : s.isEnumField t site = true) :
    s.DeclaresEnum t.name ∧
      ∃ type, ((s.typedName name t site).run r).1 = name ++ ": typeof " ++ type ∧
        type = String.ofList (s.settings.overrides.rewritten t.name.toList) ∧
        (type = t.name ↔ s.settings.overrides.Keeps t.name.toList) := by
  obtain ⟨rfl, hown, henum⟩ := (s.isEnumField_iff t site).mp h
  refine ⟨henum, String.ofList (s.settings.overrides.rewritten t.name.toList), ?_, rfl, ?_⟩
  · have hsite : ¬ (Site.field = .parameter ∧ (variadicElement?
        (s.settings.overrides.substituteAny t.name.toList)).isSome = true) :=
      fun hparameter => nomatch hparameter.1
    have hqualified : s.qualifiedName t = t.name := qualifiedName_of_isOwn hown
    have htypeof : ": typeof " = ": " ++ "typeof " := rfl
    rw [s.records_typedName name t .field r, typed, hqualified, annotate_eq, if_neg hsite, if_pos h,
      String.empty_append, htypeof]
    simp only [String.append_assoc]
  · rw [← Overrides.rewritten_eq_self_iff, ← String.toList_inj, String.toList_ofList]

/-- A category with two enums, one of which has a name from the built-in table. -/
def chartScope : Scope where
  description.categories := ⟨[
    ("charts", { declarations := ⟨[
      ("Legend", some { kind := .enum }),
      ("Object", some { kind := .enum })], by decide⟩ })], by decide⟩
  settings := {}
  category := "charts"

/-- The key that is not in the table stands behind `typeof`. -/
theorem legend_typeof :
    chartScope.isEnumField ⟨"Legend", none⟩ .field = true ∧
      chartScope.settings.overrides.Keeps "Legend".toList ∧
      ((chartScope.typedName "side" ⟨"Legend", none⟩ .field).run ⟨[]⟩).1 =
        "side: typeof Legend" := by
  have hfield : chartScope.isEnumField ⟨"Legend", none⟩ .field = true := by decide +kernel
  have hkeeps : chartScope.settings.overrides.Keeps "Legend".toList := by decide +kernel
  obtain ⟨-, type, hwritten, -, hkey⟩ :=
    chartScope.typeof_names_key_iff ⟨[]⟩ "side" ⟨"Legend", none⟩ .field hfield
  rw [hkey.mpr hkeeps] at hwritten
  exact ⟨hfield, hkeeps, hwritten⟩

/-- The key that is in the table does not, and no enum is declared under `any`. -/
theorem object_typeof_any :
    chartScope.isEnumField ⟨"Object", none⟩ .field = true ∧
      ((chartScope.typedName "kind" ⟨"Object", none⟩ .field).run ⟨[]⟩).1 = "kind: typeof any" ∧
      ¬ ∃ type, ((chartScope.typedName "kind" ⟨"Object", none⟩ .field).run ⟨[]⟩).1 =
          "kind: typeof " ++ type ∧ chartScope.DeclaresEnum type := by
  have hwritten : ((chartScope.typedName "kind" ⟨"Object", none⟩ .field).run ⟨[]⟩).1 =
      "kind: typeof any" := by decide +kernel
  refine ⟨by decide +kernel, hwritten, ?_⟩
  rintro ⟨type, htype, henum⟩
  have hany : "kind: typeof " ++ "any" = "kind: typeof " ++ type := hwritten.symm.trans htype
  obtain rfl : "any" = type := String.append_right_inj _ |>.mp hany
  exact absurd henum (by decide +kernel)

end Scope

end Ambient
