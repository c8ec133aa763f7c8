import Ambient.Proofs.Placement
import Ambient.Proofs.SortedContent

/-!
# Global exports

An exported name is the leaf of the key of a service, and its binding names the
path of two namespaces and that leaf.  The declaration itself stands in one
more namespace for each part of its key before the leaf.  So the binding
resolves exactly if the name is itself a key (`export_resolves_iff`): a service
with a dotted key is exported by a path at which nothing is declared
(`dotted_service_unresolved`), unless another declaration has that path.
-/

namespace Ambient

open Text

/-! ## Paths -/

/-- The path that the binding of an exported name names. -/
def Settings.bindingPath (s : Settings) (displayName name : String) : List String :=
  [s.outerNamespace, displayName, name]

/-- The path of a declaration: the namespaces around it, outermost first, and its name. -/
def Settings.declaredPath (s : Settings) (displayName key : String) : List String :=
  [s.outerNamespace, displayName] ++ (KeyPath.ofKey key).namespaces ++ [(KeyPath.ofKey key).leaf]

/-- The lines of a binding, from its path. -/
def Settings.bindingLines (s : Settings) (displayName name : String) : List String :=
  let line := "declare var " ++ name ++ ": " ++
    ".".intercalate (s.bindingPath displayName name) ++ ";"
  match s.overrides.exportNote? name with
  | some note => ["// " ++ note, "// " ++ line]
  | none => [line]

theorem Draft.binding_eq (d : Draft) (s : Settings) (name : String) :
    d.binding s name = s.bindingLines d.displayName name := by
  have hpath : ".".intercalate (s.bindingPath d.displayName name) =
      s.outerNamespace ++ "." ++ d.displayName ++ "." ++ name := by
    rfl
  have hline : "declare var " ++ name ++ ": " ++ s.outerNamespace ++ "." ++ d.displayName ++ "." ++
      name ++ ";" =
        "declare var " ++ name ++ ": " ++ ".".intercalate (s.bindingPath d.displayName name) ++
          ";" := by
    rw [hpath]
    simp only [String.append_assoc]
  unfold Draft.binding Settings.bindingLines
  cases s.overrides.exportNote? name with
  | none => exact congrArg ([·]) hline
  | some note => exact congrArg (fun line => ["// " ++ note, "// " ++ line]) hline

theorem Settings.declaredPath_eq_bindingPath {s : Settings} {displayName key name : String}
    (hname : '.' ∉ name.toList) :
    s.declaredPath displayName key = s.bindingPath displayName name ↔ key = name := by
  constructor
  · intro h
    have htail : (KeyPath.ofKey key).namespaces ++ [(KeyPath.ofKey key).leaf] = [name] := by
      simpa [declaredPath, bindingPath] using h
    obtain ⟨hnil, hleaf⟩ | ⟨-, hnil⟩ := List.append_eq_singleton_iff.mp htail
    · rw [← KeyPath.leaf_of_namespaces_eq_nil hnil]
      exact List.singleton_inj.mp hleaf
    · exact absurd hnil (List.cons_ne_nil _ _)
  · rintro rfl
    simp [declaredPath, bindingPath, KeyPath.ofKey_of_not_mem hname]

/-- Whether some declaration of a category has a path. -/
def Category.Declares (c : Category) (s : Settings) (path : List String) : Prop :=
  ∃ e ∈ c.present, s.declaredPath c.displayName e.1 = path

theorem Category.declares_bindingPath {c : Category} {s : Settings} {name : String}
    (hname : '.' ∉ name.toList) :
    c.Declares s (s.bindingPath c.displayName name) ↔
      ∃ decl, c.declarations.get? name = some (some decl) := by
  constructor
  · rintro ⟨⟨key, decl⟩, he, hpath⟩
    obtain rfl := (Settings.declaredPath_eq_bindingPath hname).mp hpath
    exact ⟨decl, Category.mem_present.mp he⟩
  · rintro ⟨decl, hdecl⟩
    exact ⟨(name, decl), Category.mem_present.mpr hdecl,
      (Settings.declaredPath_eq_bindingPath hname).mpr rfl⟩

/-! ## What is exported -/

theorem mem_exportedNames {services : ServiceIndex} {c : Category} {name : String} :
    name ∈ exportedNames services c ↔
      ∃ e ∈ c.present, services.isService e.2.url = true ∧ (KeyPath.ofKey e.1).leaf = name := by
  rw [exportedNames, SortedSet.mem_ofList, List.mem_map]
  constructor
  · rintro ⟨e, he, hleaf⟩
    obtain ⟨hpresent, hservice⟩ := List.mem_filter.mp he
    exact ⟨e, hpresent, hservice, hleaf⟩
  · rintro ⟨e, hpresent, hservice, hleaf⟩
    exact ⟨e, List.mem_filter.mpr ⟨hpresent, hservice⟩, hleaf⟩

theorem Settings.exists_bindingLine_last (s : Settings) (displayName name : String) :
    ∃ above last, (s.bindingLines displayName name).flatMap pieceLines = above ++ [last] ∧
      last.isEmpty = false := by
  have hpiece : ∀ line : String, ∃ above k, pieceLines (line ++ ";") = above ++ [k ++ [';']] :=
    fun line => exists_pieceLine_suffix String.toList_append ⟨by decide, ';', rfl, rfl⟩
  unfold Settings.bindingLines
  cases s.overrides.exportNote? name with
  | none =>
      obtain ⟨above, k, hlines⟩ := hpiece ("declare var " ++ name ++ ": " ++
        ".".intercalate (s.bindingPath displayName name))
      refine ⟨above, k ++ [';'], ?_, by simp⟩
      rw [← hlines]
      exact List.flatMap_singleton _ _
  | some note =>
      obtain ⟨above, k, hlines⟩ := hpiece ("// " ++ ("declare var " ++ name ++ ": " ++
        ".".intercalate (s.bindingPath displayName name)))
      refine ⟨pieceLines ("// " ++ note) ++ above, k ++ [';'], ?_, by simp⟩
      rw [List.append_assoc, ← hlines]
      simp only [List.flatMap_cons, List.flatMap_nil, List.append_nil, String.append_assoc]

/-- The text has the lines of every binding: none of them is dropped at the end. -/
theorem Draft.exists_bindingLines (d : Draft) (s : Settings) {name : String}
    (h : name ∈ d.exports.toList) :
    ∃ above below, splitLines (d.text s).toList =
      above ++ (s.bindingLines d.displayName name).flatMap pieceLines ++ below := by
  obtain ⟨before, after, hexports⟩ := List.append_of_mem h
  obtain ⟨front, last, hbinding, hne⟩ := s.exists_bindingLine_last d.displayName name
  have hkept := rdropWhile_append_cons ([] :: (before.flatMap (d.binding s)).flatMap pieceLines ++
    front) ((after.flatMap (d.binding s)).flatMap pieceLines) hne
  refine ⟨d.topLines s ++ pieceLines s.outerOpening ++ d.innerLines ++
    [] :: (before.flatMap (d.binding s)).flatMap pieceLines,
    ((after.flatMap (d.binding s)).flatMap pieceLines).rdropWhile List.isEmpty ++ [[]], ?_⟩
  rw [d.splitLines_text, Draft.closingLines, hexports, List.flatMap_append, List.flatMap_cons,
    List.flatMap_append, List.flatMap_append, d.binding_eq s name, hbinding]
  simp only [List.append_assoc, List.cons_append, List.nil_append] at hkept ⊢
  rw [hkept]
  simp only [List.append_assoc, List.cons_append]

/-- **What an exported name stands for.**  It is the name of a service of the
category, which is shown inside the namespace of the category and one more for
each part of its key before the name, and the text has its binding.  Something
is declared at the path of the binding exactly if the name is itself the key of
a declaration, and that declaration is shown directly inside the namespace of
the category. -/
theorem export_resolves_iff (d : Description) (s : Settings) {key : String} {c : Category}
    (hc : d.category? key = some c) :
    ∃ m, emitCategory d s key = some m ∧ ∀ name ∈ m.exports,
      (∃ e ∈ c.present, d.services.isService e.2.url = true ∧ (KeyPath.ofKey e.1).leaf = name ∧
        m.Shows ⟨d, s, key⟩ c e
          (insideLines (docBlock e.2.doc) ++
            insideLines ((KeyPath.ofKey e.1).namespaces.map Scope.wrapperOpening) ++
            insideLines (Scope.bodyLines ⟨d, s, key⟩ name e.2) ++
            insideLines ((KeyPath.ofKey e.1).namespaces.map fun _ => closeBrace))) ∧
      (∃ above below, splitLines m.text.toList =
        above ++ (s.bindingLines c.displayName name).flatMap pieceLines ++ below) ∧
      (c.Declares s (s.bindingPath c.displayName name) ↔
        ∃ decl, c.declarations.get? name = some (some decl)) ∧
      ∀ decl, c.declarations.get? name = some (some decl) →
        m.Shows ⟨d, s, key⟩ c (name, decl)
          (insideLines (docBlock decl.doc) ++
            insideLines (Scope.bodyLines ⟨d, s, key⟩ name decl)) := by
  refine ⟨Scope.moduleFile ⟨d, s, key⟩ c, by rw [emitCategory, hc]; rfl, ?_⟩
  intro name hname
  have hexported : name ∈ exportedNames d.services c := hname
  have hbinding := Draft.exists_bindingLines (Scope.draft ⟨d, s, key⟩ c) s hname
  obtain ⟨e, he, hservice, hleaf⟩ := mem_exportedNames.mp hexported
  have hdot : '.' ∉ name.toList := hleaf ▸ KeyPath.dot_not_mem_leaf e.1
  refine ⟨⟨e, he, hservice, hleaf, ?_⟩, hbinding, Category.declares_bindingPath hdot, ?_⟩
  · have hshown := Scope.shows_block ⟨d, s, key⟩ he
    rwa [Scope.insideLines_declarationLines, hleaf] at hshown
  · intro decl hdecl
    have hshown := Scope.shows_block ⟨d, s, key⟩ (Category.mem_present.mpr hdecl)
    rwa [Scope.declarationLines, KeyPath.ofKey_of_not_mem hdot, List.map_nil, List.map_nil,
      List.append_nil, List.append_nil, insideLines_append] at hshown

/-! ## Two services -/

/-- A category with two services, of which one has a dotted key. -/
def baseCategory : Category where
  name := some "Base"
  declarations := ⟨[
    ("Schema.Color", some { kind := .enum, url := "color" }),
    ("Session", some { url := "session" })], by decide⟩

/-- The description with that category, and both URLs in the index. -/
def baseDescription : Description where
  categories := ⟨[("base", baseCategory)], by decide⟩
  services := ⟨⟨[("color", true), ("session", true)], by decide⟩⟩

/-- Of the two exported names one is the name of a declaration, which is shown
directly inside the namespace of the category. -/
theorem base_exports_resolve :
    baseDescription.category? "base" = some baseCategory ∧
      ∃ m, emitCategory baseDescription {} "base" = some m ∧
        m.exports = ["Color", "Session"] ∧
        baseCategory.Declares {} ["GoogleAppsScript", "Base", "Session"] ∧
        ¬ baseCategory.Declares {} ["GoogleAppsScript", "Base", "Color"] ∧
        m.Shows ⟨baseDescription, {}, "base"⟩ baseCategory ("Session", { url := "session" })
          ["    /**".toList, "     *".toList, "     */".toList,
            "    interface Session \x7b \x7d".toList] := by
  have hc : baseDescription.category? "base" = some baseCategory := by rfl
  obtain ⟨m, hm, hnames⟩ := export_resolves_iff baseDescription {} hc
  have hexports : m.exports = ["Color", "Session"] := by
    rw [emitCategory, hc] at hm
    obtain rfl := Option.some.inj hm
    decide
  obtain ⟨-, -, hsession, hshown⟩ := hnames "Session" (by rw [hexports]; decide)
  obtain ⟨-, -, hcolor, -⟩ := hnames "Color" (by rw [hexports]; decide)
  have hlines : insideLines (docBlock "") ++ insideLines
      (Scope.bodyLines ⟨baseDescription, {}, "base"⟩ "Session" { url := "session" }) =
        ["    /**".toList, "     *".toList, "     */".toList,
          "    interface Session \x7b \x7d".toList] := by
    decide +kernel
  refine ⟨hc, m, hm, hexports, ?_, ?_, ?_⟩
  · exact hsession.mpr ⟨_, rfl⟩
  · intro h
    obtain ⟨decl, hdecl⟩ := hcolor.mp h
    exact absurd hdecl (by rw [show baseCategory.declarations.get? "Color" = none from rfl]; simp)
  · rw [← hlines]
    exact hshown _ rfl

/-- A binding need not resolve: the service with the dotted key is exported,
and no declaration outside of further namespaces has its name. -/
theorem dotted_service_unresolved :
    ∃ m, emitCategory baseDescription {} "base" = some m ∧ "Color" ∈ m.exports ∧
      ¬ ∃ e ∈ baseCategory.present,
        (KeyPath.ofKey e.1).namespaces = [] ∧ (KeyPath.ofKey e.1).leaf = "Color" := by
  refine ⟨_, rfl, ?_, ?_⟩
  · show "Color" ∈ exportedNames baseDescription.services baseCategory
    exact mem_exportedNames.mpr ⟨_, List.mem_cons_self, by decide, by decide⟩
  · rintro ⟨e, he, hnil, hleaf⟩
    have hkey : e.1 = "Color" := (KeyPath.leaf_of_namespaces_eq_nil hnil).symm.trans hleaf
    have hkeys : ∀ e ∈ baseCategory.present, e.1 ≠ "Color" := by decide
    exact hkeys e he hkey

end Ambient
