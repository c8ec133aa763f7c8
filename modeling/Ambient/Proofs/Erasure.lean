import Ambient.Proofs.Locality
import Ambient.Proofs.SortedContent

/-!
# What leaves no trace

An absent declaration, a deprecated method, the methods of an enum and all of
its constants but their names are in a description and not in its modules.
`Description.erased` is the description without them; its modules are the same
(`emitAll_erased`).

The two scopes agree on every reference, so the proof has only one thing left to
show for each rendering function: that what is erased is what it leaves out.
-/

namespace Ambient

/-! ## Erasing -/

/-- A constant of an enum with nothing but its name. -/
def Property.nameOnly (p : Property) : Property where
  name := p.name

/-- A declaration without its deprecated methods, or an enum with nothing but
the names of its constants. -/
def Declaration.erased (d : Declaration) : Declaration :=
  match d.kind with
  | .enum => { d with properties := d.properties.map Property.nameOnly, methods := [] }
  | .interface => { d with methods := d.methods.filter (!·.isDeprecated) }

/-- A category without its absent declarations, the others erased. -/
def Category.erased (c : Category) : Category :=
  { c with declarations := c.declarations.filterMap fun d => d.map fun d => some d.erased }

def Description.erased (d : Description) : Description :=
  { d with categories := d.categories.filterMap fun c => some c.erased }

/-! ## What is read of an erased description -/

namespace Declaration

theorem kind_erased (d : Declaration) : d.erased.kind = d.kind := by
  unfold erased
  cases d.kind with
  | enum => rfl
  | interface => rfl

theorem doc_erased (d : Declaration) : d.erased.doc = d.doc := by
  unfold erased
  cases d.kind with
  | enum => rfl
  | interface => rfl

theorem url_erased (d : Declaration) : d.erased.url = d.url := by
  unfold erased
  cases d.kind with
  | enum => rfl
  | interface => rfl

theorem properties_erased {d : Declaration} (h : d.kind = .interface) :
    d.erased.properties = d.properties := by
  rw [erased, h]

/-- The methods that are left are those that were rendered, also if the
deprecated ones are left out once more. -/
theorem filter_methods_erased {d : Declaration} (h : d.kind = .interface) :
    d.erased.methods.filter (!·.isDeprecated) = d.methods.filter (!·.isDeprecated) := by
  rw [erased, h]
  simp only [List.filter_filter, Bool.and_self]

theorem map_name_properties_erased (d : Declaration) :
    d.erased.properties.map (·.name) = d.properties.map (·.name) := by
  unfold erased
  cases d.kind with
  | enum => exact List.map_map
  | interface => rfl

theorem typeRefs_erased (d : Declaration) : d.erased.typeRefs = d.typeRefs := by
  unfold typeRefs
  rw [d.kind_erased]
  cases hkind : d.kind with
  | enum => rfl
  | interface => simp only [properties_erased hkind, filter_methods_erased hkind]

end Declaration

namespace Category

theorem present_erased (c : Category) :
    c.erased.present = c.present.map fun e => (e.1, e.2.erased) := by
  unfold present erased SortedMap.filterMap
  rw [List.filterMap_filterMap, List.map_filterMap]
  refine congrArg (List.filterMap · c.declarations.entries) (funext fun e => ?_)
  obtain ⟨key, d⟩ := e
  cases d with
  | none => rfl
  | some d => rfl

theorem typeRefs_erased (c : Category) : c.erased.typeRefs = c.typeRefs := by
  unfold typeRefs
  rw [c.present_erased, List.flatMap_map]
  exact List.flatMap_congr fun e _ => e.2.typeRefs_erased

theorem isEnum_erased (c : Category) (key : String) : c.erased.isEnum key = c.isEnum key := by
  unfold isEnum erased
  rw [SortedMap.get?_filterMap]
  match c.declarations.get? key with
  | none => rfl
  | some none => rfl
  | some (some d) => exact congrArg (· == DeclarationKind.enum) d.kind_erased

theorem exportedNames_erased (services : ServiceIndex) (c : Category) :
    exportedNames services c.erased = exportedNames services c := by
  have hservice : ((fun e => services.isService e.2.url) ∘
      fun e : String × Declaration => (e.1, e.2.erased)) = fun e => services.isService e.2.url :=
    funext fun e => congrArg services.isService e.2.url_erased
  unfold exportedNames
  rw [c.present_erased, List.filter_map, List.map_map, hservice]
  rfl

end Category

namespace Description

theorem category?_erased (d : Description) (key : String) :
    d.erased.category? key = (d.category? key).map Category.erased := by
  unfold category? erased
  rw [SortedMap.get?_filterMap, Option.map_eq_bind]
  rfl

theorem displayNameOf_erased (d : Description) (key : String) :
    d.erased.displayNameOf key = d.displayNameOf key := by
  unfold displayNameOf
  rw [d.category?_erased]
  cases d.category? key with
  | none => rfl
  | some c => rfl

theorem agrees_erased (d : Description) (s : Settings) (key : String) (ts : List TypeRef) :
    Scope.Agrees ⟨d.erased, s, key⟩ ⟨d, s, key⟩ ts where
  settings := rfl
  category := rfl
  displayName := d.displayNameOf_erased key
  isEnumField := by
    intro t site
    unfold Scope.isEnumField
    simp only [d.category?_erased]
    cases d.category? key with
    | none => rfl
    | some c => exact congrArg _ (c.isEnum_erased t.name)
  qualifiedName := fun t _ =>
    Scope.qualifiedName_congr rfl fun owner _ => d.displayNameOf_erased owner

end Description

/-! ## What is rendered -/

namespace Scope

theorem memberLines_erased (s : Scope) {d : Declaration} (h : d.kind = .interface) :
    s.memberLines d.erased = s.memberLines d := by
  unfold memberLines
  rw [Declaration.properties_erased h, Declaration.filter_methods_erased h]

theorem bodyLines_erased (s : Scope) (name : String) (d : Declaration) :
    s.bodyLines name d.erased = s.bodyLines name d := by
  unfold bodyLines
  rw [d.kind_erased]
  cases hkind : d.kind with
  | enum =>
      show [renderEnum name d.erased] = [renderEnum name d]
      unfold renderEnum
      rw [d.map_name_properties_erased]
  | interface =>
      show s.interfaceLines name d.erased = s.interfaceLines name d
      unfold interfaceLines
      rw [s.memberLines_erased hkind]

theorem declarationLines_erased (s : Scope) (key : String) (d : Declaration) :
    s.declarationLines key d.erased = s.declarationLines key d := by
  unfold declarationLines
  rw [d.doc_erased, s.bodyLines_erased]

theorem draft_erased (d : Description) (s : Settings) (key : String) (c : Category) :
    Scope.draft ⟨d.erased, s, key⟩ c.erased = Scope.draft ⟨d, s, key⟩ c := by
  have hblocks : c.erased.present.map (Scope.block ⟨d.erased, s, key⟩) =
      c.present.map (Scope.block ⟨d, s, key⟩) := by
    rw [(d.agrees_erased s key _).map_block, c.present_erased, List.map_map]
    refine List.map_congr_left fun e _ => ?_
    exact congrArg (Block.mk e.1) (declarationLines_erased _ e.1 e.2)
  rw [draft_eq, draft_eq, hblocks, c.typeRefs_erased, c.exportedNames_erased]
  rfl

end Scope

/-- **Suppressed content leaves no trace.**  A description and the description
without its absent declarations, its deprecated methods, the methods of its
enums and all of their constants but the names have the same modules: the same
keys, references, exports and texts. -/
theorem emitAll_erased (d : Description) (s : Settings) :
    emitAll d.erased s = emitAll d s := by
  have hmodule : ∀ key, emitCategory d.erased s key = emitCategory d s key := by
    intro key
    unfold emitCategory Scope.moduleFile
    rw [d.category?_erased, Option.map_map]
    refine congrArg (Option.map · (d.category? key)) (funext fun c => ?_)
    show ModuleFile.mk _ _ _ _ _ = ModuleFile.mk _ _ _ _ _
    rw [Scope.draft_erased]
  unfold emitAll
  rw [funext hmodule]
  exact congrArg (List.filterMap (emitCategory d s)) (SortedMap.keys_filterMap_some _ d.categories)

example : driveCategory.erased.present.map (fun e => (e.1, e.2.methods.map (·.name))) =
    [("DriveApp", ["create"]), ("Kind", [])] := by decide

end Ambient
