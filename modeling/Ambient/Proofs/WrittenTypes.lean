import Ambient.Proofs.QualifiedTypes
import Mathlib.Data.List.Chain

/-!
# How a type is written

The five steps on a type name read as one equation (`Scope.typedName_compositional`):
the element is written by itself, and its array markers stand behind it.

- The element is `any` if the table holds its qualified name, a primitive type
  of the own category in lowercase, and otherwise its qualified name.
- There are as many array markers as in the name, and one more for a variadic
  type, whose marker moves in front of the name of a parameter.
- In front of the type of a field stands `typeof` if the whole name is the key
  of an enum of the own category.

The equation is for elements that are dotted identifiers.  These end in an
identifier character, which is all that the steps need; that no part of them is
empty makes sure that nothing in the type reads as a variadic marker.
-/

namespace Ambient

/-! ## Names of elements -/

/-- One or more parts with dots between them, each of which holds an identifier
character or more and nothing else. -/
inductive IsBaseName : List Char → Prop where
  | part {cs : List Char} : cs ≠ [] → (∀ c ∈ cs, isIdentifierChar c = true) → IsBaseName cs
  | dot {cs rest : List Char} : cs ≠ [] → (∀ c ∈ cs, isIdentifierChar c = true) →
      IsBaseName rest → IsBaseName (cs ++ '.' :: rest)

theorem endsInIdentifier_of_forall {cs : List Char} (hne : cs ≠ [])
    (h : ∀ c ∈ cs, isIdentifierChar c = true) : EndsInIdentifier cs :=
  ⟨cs.getLast hne, List.getLast?_eq_some_getLast hne, h _ (List.getLast_mem hne)⟩

theorem IsBaseName.endsInIdentifier {cs : List Char} (h : IsBaseName cs) : EndsInIdentifier cs := by
  induction h with
  | part hne hall => exact endsInIdentifier_of_forall hne hall
  | @dot cs rest _ _ _ ih => exact (ih.append ['.']).append cs

/-! ## Dots -/

def NoTwoDots (cs : List Char) : Prop :=
  cs.IsChain fun a b => a = '.' → b ≠ '.'

namespace NoTwoDots

variable {cs ds : List Char}

theorem cons_of_not_mem (c : Char) (h : '.' ∉ cs) : NoTwoDots (c :: cs) := by
  induction cs generalizing c with
  | nil => exact .singleton c
  | cons d cs ih =>
      obtain ⟨hd, hcs⟩ : '.' ≠ d ∧ '.' ∉ cs := by simpa using h
      exact .cons_cons (fun _ => hd.symm) (ih d hcs)

theorem of_not_mem (h : '.' ∉ cs) : NoTwoDots cs := by
  cases cs with
  | nil => exact .nil
  | cons c cs => exact cons_of_not_mem c fun hmem => h (List.mem_cons_of_mem _ hmem)

theorem append (hcs : NoTwoDots cs) (hds : NoTwoDots ds) (hend : cs.getLast? ≠ some '.') :
    NoTwoDots (cs ++ ds) := by
  refine List.isChain_append.mpr ⟨hcs, hds, fun a ha b _ hdot => ?_⟩
  rw [hdot] at ha
  exact absurd ha hend

theorem not_isInfix (h : NoTwoDots cs) : ¬ variadicMarker <:+: cs := by
  intro hinfix
  have hmarker : NoTwoDots variadicMarker := h.infix hinfix
  simp [NoTwoDots, variadicMarker] at hmarker

end NoTwoDots

theorem EndsInIdentifier.getLast?_ne_dot {cs : List Char} (h : EndsInIdentifier cs) :
    cs.getLast? ≠ some '.' := by
  obtain ⟨c, hlast, hc⟩ := h
  rw [hlast]
  intro heq
  rw [Option.some.inj heq] at hc
  exact absurd hc (by decide)

theorem dot_not_mem_of_forall {cs : List Char} (h : ∀ c ∈ cs, isIdentifierChar c = true) :
    '.' ∉ cs :=
  fun hmem => absurd (h _ hmem) (by decide)

theorem IsBaseName.noTwoDots_cons {cs : List Char} (h : IsBaseName cs) : NoTwoDots ('.' :: cs) := by
  induction h with
  | part _ hall => exact .cons_of_not_mem _ (dot_not_mem_of_forall hall)
  | @dot cs rest hne hall _ ih =>
      have hstart : NoTwoDots ('.' :: cs) := .cons_of_not_mem _ (dot_not_mem_of_forall hall)
      have hend := ((endsInIdentifier_of_forall hne hall).append ['.']).getLast?_ne_dot
      exact hstart.append ih hend

theorem NoTwoDots.append_arrayMarkers {cs : List Char} (h : NoTwoDots cs)
    (hends : EndsInIdentifier cs) (k : Nat) : NoTwoDots (cs ++ arrayMarkers k) := by
  have hmarkers : '.' ∉ arrayMarkers k := by
    intro hmem
    rcases mem_arrayMarkers hmem with hc | hc
    · exact absurd hc (by decide)
    · exact absurd hc (by decide)
  exact h.append (.of_not_mem hmarkers) hends.getLast?_ne_dot

/-! ## The element of a type -/

theorem Category.isEnum_iff (c : Category) (key : String) :
    c.isEnum key = true ↔ ∃ d, c.declarations.get? key = some (some d) ∧ d.kind = .enum := by
  unfold isEnum
  constructor
  · intro h
    split at h
    · rename_i d hget
      exact ⟨d, hget, beq_iff_eq.mp h⟩
    · exact nomatch h
  · rintro ⟨d, hget, hkind⟩
    rw [hget]
    exact beq_iff_eq.mpr hkind

namespace Scope

/-- The category that is being written declares an enum under a key. -/
def DeclaresEnum (s : Scope) (key : String) : Prop :=
  ∃ c, s.description.category? s.category = some c ∧
    ∃ d, c.declarations.get? key = some (some d) ∧ d.kind = .enum

theorem isEnumField_iff (s : Scope) (t : TypeRef) (site : Site) :
    s.isEnumField t site = true ↔ site = .field ∧ s.isOwn t = true ∧ s.DeclaresEnum t.name := by
  rw [isEnumField, Bool.and_eq_true, Bool.and_eq_true, beq_iff_eq, and_assoc, DeclaresEnum]
  cases s.description.category? s.category with
  | none => simp
  | some c => simp [c.isEnum_iff]

instance (s : Scope) (key : String) : Decidable (s.DeclaresEnum key) :=
  decidable_of_iff (s.isEnumField ⟨key, none⟩ .field = true)
    ((s.isEnumField_iff _ _).trans ⟨fun h => h.2.2, fun h => ⟨rfl, rfl, h⟩⟩)

/-- The element of a type as it is written. -/
def elementName (s : Scope) (base : String) (owner : Option String) : String :=
  let qualified := s.qualifiedName ⟨base, owner⟩
  if s.settings.overrides.isAny qualified then "any"
  else if s.isOwn ⟨base, owner⟩ = true ∧ qualified ∈ ["Boolean", "Number", "String"] then
    qualified.toLower
  else qualified

variable {s : Scope} {base : String} {owner : Option String}

theorem qualifiedName_of_isOwn (h : s.isOwn ⟨base, owner⟩ = true) :
    s.qualifiedName ⟨base, owner⟩ = base := by
  have hforeign : s.foreignOwner? ⟨base, owner⟩ = none := by
    cases owner with
    | none => rfl
    | some o =>
        obtain rfl : o = s.category := beq_iff_eq.mp h
        simp [foreignOwner?]
  rw [qualifiedName, hforeign]

theorem qualifiedName_of_not_isOwn (h : s.isOwn ⟨base, owner⟩ = false) :
    ∃ o, s.qualifiedName ⟨base, owner⟩ = s.description.displayNameOf o ++ "." ++ base := by
  cases owner with
  | none => exact nomatch h
  | some o => exact ⟨o, s.qualifiedName_of_ne base (beq_eq_false_iff_ne.mp h)⟩

/-- What stands behind a name stays behind it. -/
theorem qualifiedName_append (s : Scope) (base markers : String) (owner : Option String) :
    s.qualifiedName ⟨base ++ markers, owner⟩ = s.qualifiedName ⟨base, owner⟩ ++ markers := by
  have hforeign : s.foreignOwner? ⟨base ++ markers, owner⟩ = s.foreignOwner? ⟨base, owner⟩ := rfl
  rw [qualifiedName, qualifiedName, hforeign]
  cases s.foreignOwner? ⟨base, owner⟩ with
  | none => rfl
  | some o => exact String.append_assoc.symm

end Scope

theorem Description.isIdentifierChar_of_mem_displayNameOf {d : Description} {owner : String}
    {x : Char} (h : x ∈ (d.displayNameOf owner).toList) : isIdentifierChar x = true := by
  unfold displayNameOf at h
  cases hc : d.category? owner with
  | none =>
      rw [hc] at h
      exact Category.isIdentifierChar_of_mem_displayName (c := {}) h
  | some c =>
      rw [hc] at h
      exact Category.isIdentifierChar_of_mem_displayName h

/-! ## The whole type -/

namespace Scope

variable {s : Scope} {base : String} {owner : Option String}

theorem endsInIdentifier_qualifiedName (hbase : IsBaseName base.toList) :
    EndsInIdentifier (s.qualifiedName ⟨base, owner⟩).toList := by
  cases hown : s.isOwn ⟨base, owner⟩ with
  | true =>
      rw [qualifiedName_of_isOwn hown]
      exact hbase.endsInIdentifier
  | false =>
      obtain ⟨o, hqualified⟩ := qualifiedName_of_not_isOwn hown
      rw [hqualified, String.toList_append]
      exact hbase.endsInIdentifier.append _

theorem noTwoDots_qualifiedName (hbase : IsBaseName base.toList) :
    NoTwoDots (s.qualifiedName ⟨base, owner⟩).toList := by
  cases hown : s.isOwn ⟨base, owner⟩ with
  | true =>
      rw [qualifiedName_of_isOwn hown]
      exact hbase.noTwoDots_cons.tail
  | false =>
      obtain ⟨o, hqualified⟩ := qualifiedName_of_not_isOwn hown
      have hdisplay : '.' ∉ (s.description.displayNameOf o).toList :=
        dot_not_mem_of_forall fun _ => Description.isIdentifierChar_of_mem_displayNameOf
      rw [hqualified, String.append_assoc, String.toList_append, String.toList_append]
      exact (NoTwoDots.of_not_mem hdisplay).append hbase.noTwoDots_cons
        fun hlast => hdisplay (List.mem_of_getLast? hlast)

/-- Only a type of the own category can be a primitive one. -/
theorem mem_primitiveNames_iff :
    (s.qualifiedName ⟨base, owner⟩).toList ∈ primitiveNames ↔
      s.isOwn ⟨base, owner⟩ = true ∧
        s.qualifiedName ⟨base, owner⟩ ∈ ["Boolean", "Number", "String"] := by
  have hnames : primitiveNames = ["Boolean", "Number", "String"].map String.toList := rfl
  rw [hnames, List.mem_map_of_injective fun _ _ => String.toList_injective]
  refine ⟨fun hmem => ⟨?_, hmem⟩, And.right⟩
  by_contra hown
  obtain ⟨o, hqualified⟩ := qualifiedName_of_not_isOwn (Bool.not_eq_true _ ▸ hown)
  have hprimitive : ∀ p ∈ ["Boolean", "Number", "String"], '.' ∉ p.toList := by decide
  refine hprimitive _ hmem ?_
  rw [hqualified, String.toList_append, String.toList_append]
  exact List.mem_append_left _ (List.mem_append_right _ (List.mem_singleton_self _))

theorem lowerElement_qualifiedName :
    lowerElement (s.settings.overrides.substituteElement
      (s.qualifiedName ⟨base, owner⟩).toList) = (s.elementName base owner).toList := by
  have hany : ['a', 'n', 'y'] ∉ primitiveNames := by decide
  rw [Overrides.substituteElement, String.ofList_toList, elementName]
  split_ifs with hsubst hprimitive
  · rw [lowerElement, if_neg hany]
    rfl
  · rw [lowerElement, if_pos (mem_primitiveNames_iff.mpr hprimitive)]
    exact String.toList_map.symm
  · rw [lowerElement, if_neg fun hmem => hprimitive (mem_primitiveNames_iff.mp hmem)]

/-- What is written for an element ends as an element does, and no dot in it
follows another one. -/
theorem elementName_shape (hbase : IsBaseName base.toList) :
    EndsInIdentifier (s.elementName base owner).toList ∧
      NoTwoDots (s.elementName base owner).toList := by
  unfold elementName
  dsimp only
  split_ifs with hsubst hprimitive
  · exact ⟨⟨'y', rfl, by decide⟩, .of_not_mem (by decide)⟩
  · have hlower : ∀ p ∈ primitiveNames, p.map Char.toLower ≠ [] ∧
        (p.map Char.toLower).all isIdentifierChar = true := by decide
    obtain ⟨hne, hall⟩ := hlower _ (mem_primitiveNames_iff.mpr hprimitive)
    rw [List.all_eq_true] at hall
    rw [← String.toList_map] at hne hall
    exact ⟨endsInIdentifier_of_forall hne hall, .of_not_mem (dot_not_mem_of_forall hall)⟩
  · exact ⟨endsInIdentifier_qualifiedName hbase, noTwoDots_qualifiedName hbase⟩

/-- **A type name is written part by part**: the element by itself, its array
markers behind it, and what the site asks for in front of the type or of the
member.  No variadic marker is left in the type. -/
theorem typedName_compositional (s : Scope) (r : References) (name base : String)
    (owner : Option String) (k : Nat) (variadic : Bool) (site : Site)
    (hbase : IsBaseName base.toList) :
    let t : TypeRef := ⟨base ++ String.ofList (markers k variadic), owner⟩
    let type := (if site = .field ∧ s.isOwn t = true ∧ s.DeclaresEnum t.name then "typeof " else "")
      ++ (s.elementName base owner ++ String.ofList (arrayMarkers (arrayDepth k variadic)))
    ((s.typedName name t site).run r).1 =
        (if variadic = true ∧ site = .parameter then "..." else "") ++ name ++ ": " ++ type ∧
      ¬ variadicMarker <:+: type.toList := by
  intro t type
  have hends : EndsInIdentifier (s.qualifiedName ⟨base, owner⟩).toList :=
    endsInIdentifier_qualifiedName hbase
  constructor
  · have hqualified : s.qualifiedName t = String.ofList
        ((s.qualifiedName ⟨base, owner⟩).toList ++ markers k variadic) := by
      rw [s.qualifiedName_append, String.ofList_append, String.ofList_toList]
    have henum : (if s.isEnumField t site = true then "typeof " else "") =
        if site = .field ∧ s.isOwn t = true ∧ s.DeclaresEnum t.name then "typeof " else "" :=
      if_congr (s.isEnumField_iff t site) rfl rfl
    rw [s.records_typedName name t site r, typed, hqualified,
      s.annotate_markers name t site hends k variadic, lowerElement_qualifiedName, henum,
      String.ofList_append, String.ofList_toList]
  · obtain ⟨helement, hdots⟩ : EndsInIdentifier (s.elementName base owner).toList ∧
        NoTwoDots (s.elementName base owner).toList := elementName_shape hbase
    have hwritten := hdots.append_arrayMarkers helement (arrayDepth k variadic)
    refine NoTwoDots.not_isInfix ?_
    show NoTwoDots (_ ++ _ : String).toList
    rw [String.toList_append, String.toList_append, String.toList_ofList]
    split_ifs
    · exact (NoTwoDots.of_not_mem (by decide)).append hwritten (by decide)
    · exact hwritten

/-- A category with an enum, beside one without declarations. -/
def paintScope : Scope where
  description.categories := ⟨[
    ("drive", { name := some "Drive" }),
    ("paint", { declarations := ⟨[("Color", some { kind := .enum })], by decide⟩ })], by decide⟩
  settings := {}
  category := "paint"

/-- A field with that enum, a parameter with a type of the other category, and
one with a primitive type. -/
theorem paint_types_written :
    IsBaseName "Color".toList ∧ IsBaseName "Some.Item".toList ∧ IsBaseName "String".toList ∧
      ((paintScope.typedName "tint" ⟨"Color", none⟩ .field).run ⟨[]⟩).1 = "tint: typeof Color" ∧
      ((paintScope.typedName "items" ⟨"Some.Item[]...", some "drive"⟩ .parameter).run ⟨[]⟩).1 =
        "...items: Drive.Some.Item[][]" ∧
      ((paintScope.typedName "names" ⟨"String...", some "paint"⟩ .parameter).run ⟨[]⟩).1 =
        "...names: string[]" := by
  have hcolor : IsBaseName "Color".toList := .part (by decide) (List.all_eq_true.mp rfl)
  have hitem : IsBaseName (['S', 'o', 'm', 'e'] ++ '.' :: ['I', 't', 'e', 'm']) :=
    .dot (by decide) (List.all_eq_true.mp rfl) (.part (by decide) (List.all_eq_true.mp rfl))
  have hstring : IsBaseName "String".toList := .part (by decide) (List.all_eq_true.mp rfl)
  have htint := (paintScope.typedName_compositional ⟨[]⟩ "tint" "Color" none 0 false .field hcolor).1
  have hitems := (paintScope.typedName_compositional ⟨[]⟩ "items" "Some.Item" (some "drive") 1 true
    .parameter hitem).1
  have hnames := (paintScope.typedName_compositional ⟨[]⟩ "names" "String" (some "paint") 0 true
    .parameter hstring).1
  have hlower : paintScope.elementName "String" (some "paint") = "string" := by
    refine String.toList_injective ?_
    show ("String".map Char.toLower).toList = _
    rw [String.toList_map]
    rfl
  rw [hlower] at hnames
  exact ⟨hcolor, hitem, hstring, htint, hitems, hnames⟩

end Scope

end Ambient
