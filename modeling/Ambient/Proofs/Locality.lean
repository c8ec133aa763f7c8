import Ambient.Proofs.Dependencies

/-!
# What a module reads of its description

The module of a category is made from the category itself and from two kinds of
look-up outside of it: whether the URLs of its declarations are services, and
the display names of the owners of the types that it refers to.

`Scope.Agrees` relates two scopes that answer alike for some references.  Each
rendering function gives the same lines in both, as long as the references it
writes are among them, and so do the two modules
(`emitCategory_eq_of_lookups_agree`), whatever else the two descriptions hold.
-/

namespace Ambient

namespace Scope

/-- Two scopes answer alike for some references to types: they write the same
category with the same settings, and the references have the same names. -/
structure Agrees (s s' : Scope) (ts : List TypeRef) : Prop where
  settings : s.settings = s'.settings
  category : s.category = s'.category
  displayName : s.displayName = s'.displayName
  isEnumField : ∀ t site, s.isEnumField t site = s'.isEnumField t site
  qualifiedName : ∀ t ∈ ts, s.qualifiedName t = s'.qualifiedName t

namespace Agrees

variable {s s' : Scope} {ts us : List TypeRef}

theorem mono (h : s.Agrees s' ts) (hsub : us ⊆ ts) : s.Agrees s' us :=
  { h with qualifiedName := fun t ht => h.qualifiedName t (hsub ht) }

/-! ## Members -/

theorem typed {t : TypeRef} (h : s.Agrees s' ts) (ht : t ∈ ts) (name : String) (site : Site) :
    s.typed name t site = s'.typed name t site := by
  unfold Scope.typed annotate
  rw [h.qualifiedName t ht, h.isEnumField t site, h.settings]

theorem propertyLine {p : Property} (h : s.Agrees s' ts) (hp : p.type ∈ ts) :
    s.propertyLine p = s'.propertyLine p := by
  unfold Scope.propertyLine
  rw [h.typed hp]

theorem parameterList {m : Method} (h : s.Agrees s' m.typeRefs) :
    s.parameterList m = s'.parameterList m := by
  have hparameters : s.typedParameters m = s'.typedParameters m := by
    refine List.map_congr_left fun p hp => h.typed ?_ p.name .parameter
    exact List.mem_append_left _ (List.mem_map_of_mem hp)
  unfold Scope.parameterList
  rw [hparameters, h.settings]

theorem methodLines {m : Method} (h : s.Agrees s' m.typeRefs) :
    s.methodLines m = s'.methodLines m := by
  have hresult : m.returnType ∈ m.typeRefs := List.mem_append_right _ List.mem_cons_self
  unfold Scope.methodLines Scope.signature
  rw [h.parameterList, h.typed hresult]

theorem memberLines {d : Declaration} (hkind : d.kind = .interface)
    (h : s.Agrees s' d.typeRefs) : s.memberLines d = s'.memberLines d := by
  have hrefs : d.typeRefs = d.properties.map (·.type) ++
      (d.methods.filter (!·.isDeprecated)).flatMap Method.typeRefs := by
    rw [Declaration.typeRefs, hkind]
  rw [hrefs] at h
  have hproperties : d.properties.map s.propertyLine = d.properties.map s'.propertyLine := by
    refine List.map_congr_left fun p hp => h.propertyLine ?_
    exact List.mem_append_left _ (List.mem_map_of_mem hp)
  have hmethods : (d.methods.filter (!·.isDeprecated)).map s.methodLines =
      (d.methods.filter (!·.isDeprecated)).map s'.methodLines := by
    refine List.map_congr_left fun m hm => (h.mono fun t ht => ?_).methodLines
    exact List.mem_append_right _ (List.mem_flatMap_of_mem hm ht)
  unfold Scope.memberLines
  rw [hproperties, hmethods]

/-! ## Declarations -/

theorem interfaceLines {d : Declaration} (hkind : d.kind = .interface)
    (h : s.Agrees s' d.typeRefs) (name : String) :
    s.interfaceLines name d = s'.interfaceLines name d := by
  have hhead : s.interfaceHead name = s'.interfaceHead name := by
    unfold interfaceHead
    rw [h.settings, h.displayName]
  unfold Scope.interfaceLines
  rw [h.memberLines hkind, hhead]

theorem declarationLines {d : Declaration} (h : s.Agrees s' d.typeRefs) (key : String) :
    s.declarationLines key d = s'.declarationLines key d := by
  have hbody : s.bodyLines (KeyPath.ofKey key).leaf d = s'.bodyLines (KeyPath.ofKey key).leaf d := by
    unfold bodyLines
    cases hkind : d.kind with
    | enum => rfl
    | interface => exact h.interfaceLines hkind _
  unfold Scope.declarationLines
  rw [hbody]

theorem map_block {c : Category} (h : s.Agrees s' c.typeRefs) :
    c.present.map s.block = c.present.map s'.block := by
  refine List.map_congr_left fun e he => ?_
  have hdeclaration : s.Agrees s' e.2.typeRefs :=
    h.mono fun t ht => List.mem_flatMap_of_mem he ht
  unfold block
  rw [hdeclaration.declarationLines]

end Agrees

theorem qualifiedName_congr {s s' : Scope} {t : TypeRef} (hcategory : s.category = s'.category)
    (howner : ∀ owner ∈ s.foreignOwner? t,
      s.description.displayNameOf owner = s'.description.displayNameOf owner) :
    s.qualifiedName t = s'.qualifiedName t := by
  have hforeign : s'.foreignOwner? t = s.foreignOwner? t := by
    unfold foreignOwner?
    rw [hcategory]
  unfold qualifiedName
  rw [hforeign]
  cases hfound : s.foreignOwner? t with
  | none => rfl
  | some owner => exact congrArg (· ++ "." ++ t.name) (howner owner hfound)

end Scope

theorem exportedNames_congr {services services' : ServiceIndex} {c : Category}
    (h : ∀ e ∈ c.present, services.isService e.2.url = services'.isService e.2.url) :
    exportedNames services c = exportedNames services' c := by
  unfold exportedNames
  rw [List.filter_congr h]

/-- **A module depends on nothing but its category and what it looks up.**  Two
descriptions that hold the same category under a key give the same module for
it, if they agree on which of the URLs of its declarations are services and on
the display names of the other categories whose types are written in it. -/
theorem emitCategory_eq_of_lookups_agree (d d' : Description) (s : Settings) {key : String}
    {c : Category} (hc : d.category? key = some c) (hc' : d'.category? key = some c)
    (hservices : ∀ e ∈ c.present,
      d.services.isService e.2.url = d'.services.isService e.2.url)
    (howners : ∀ owner ∈ c.foreignOwners key, d.displayNameOf owner = d'.displayNameOf owner) :
    ∃ m, emitCategory d s key = some m ∧ emitCategory d' s key = some m := by
  have hagrees : Scope.Agrees ⟨d, s, key⟩ ⟨d', s, key⟩ c.typeRefs :=
    { settings := rfl
      category := rfl
      displayName := by
        show d.displayNameOf key = d'.displayNameOf key
        unfold Description.displayNameOf
        rw [hc, hc']
      isEnumField := fun t site => by
        unfold Scope.isEnumField Scope.isOwn
        rw [hc, hc']
      qualifiedName := fun t ht => Scope.qualifiedName_congr rfl fun owner howner =>
        howners owner (List.mem_filterMap.mpr ⟨t, ht, howner⟩) }
  have hdraft : Scope.draft ⟨d, s, key⟩ c = Scope.draft ⟨d', s, key⟩ c := by
    rw [Scope.draft_eq, Scope.draft_eq, hagrees.map_block, exportedNames_congr hservices]
    rfl
  refine ⟨Scope.moduleFile ⟨d, s, key⟩ c, by rw [emitCategory, hc]; rfl, ?_⟩
  rw [emitCategory, hc']
  unfold Scope.moduleFile
  rw [hdraft]
  rfl

/-! ## One category in two descriptions -/

/-- A description of the category `drive` and of the owners of the types in it.
The categories `sheets` and `gmail` are named only where nothing is written. -/
def suiteDescription : Description where
  categories := ⟨[
    ("admin", { name := some "Admin" }),
    ("base", { name := some "Base" }),
    ("drive", driveCategory),
    ("gmail", { name := some "Gmail" }),
    ("sheets", { name := some "Spreadsheet" })], by decide⟩
  services := ⟨⟨[("", true), ("file", true)], by decide⟩⟩

/-- The same category beside others: one owner has different content, the owners
of what is not written have other names or are gone, and so are other services. -/
def strippedDescription : Description where
  categories := ⟨[
    ("admin", { name := some "Admin" }),
    ("base", { name := some "Base", declarations := ⟨[("Blob", some {})], by decide⟩ }),
    ("drive", driveCategory),
    ("gmail", { name := some "Mail" })], by decide⟩
  services := ⟨⟨[("", true), ("blob", true)], by decide⟩⟩

/-- The module of that category is the same in both. -/
theorem drive_same_in_both :
    suiteDescription.category? "drive" = some driveCategory ∧
      strippedDescription.category? "drive" = some driveCategory ∧
      (∀ e ∈ driveCategory.present, suiteDescription.services.isService e.2.url =
        strippedDescription.services.isService e.2.url) ∧
      (∀ owner ∈ driveCategory.foreignOwners "drive",
        suiteDescription.displayNameOf owner = strippedDescription.displayNameOf owner) ∧
      suiteDescription.displayNameOf "sheets" ≠ strippedDescription.displayNameOf "sheets" ∧
      ∃ m, emitCategory suiteDescription {} "drive" = some m ∧
        emitCategory strippedDescription {} "drive" = some m := by
  have hc : suiteDescription.category? "drive" = some driveCategory := by rfl
  have hc' : strippedDescription.category? "drive" = some driveCategory := by rfl
  have hservices : ∀ e ∈ driveCategory.present, suiteDescription.services.isService e.2.url =
      strippedDescription.services.isService e.2.url := by decide
  have howners : ∀ owner ∈ driveCategory.foreignOwners "drive",
      suiteDescription.displayNameOf owner = strippedDescription.displayNameOf owner := by decide
  exact ⟨hc, hc', hservices, howners, by decide,
    emitCategory_eq_of_lookups_agree _ _ {} hc hc' hservices howners⟩

end Ambient
