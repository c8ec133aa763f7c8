import Ambient.Proofs.Dependencies
import Ambient.Proofs.PatchMarks
import Ambient.Proofs.Placement
import Ambient.Proofs.QualifiedTypes
import Ambient.Proofs.SortedContent

/-!
# Modules fit together

Where a category uses a type of another one, two modules have to agree: the
name that the first one writes, the namespaces that the second one opens, and
the file that the first one refers to.  `cross_module_link` puts the three
together.

Of the first module it says what is printed at each place that can hold the
type (`Scope.prints_property`, `Scope.prints_method`).  In a parameter list the
patch may have put marks in front of the colon, and nothing else.
-/

namespace Ambient

open Text

/-! ## What a module prints -/

/-- The text has the lines of a piece, one after the other. -/
def ModuleFile.Prints (m : ModuleFile) (piece : String) : Prop :=
  pieceLines piece <:+: splitLines m.text.toList

theorem ModuleFile.Shows.isInfix {m : ModuleFile} {s : Scope} {c : Category}
    {e : String × Declaration} {lines : List (List Char)} (h : m.Shows s c e lines) :
    lines <:+: splitLines m.text.toList := by
  obtain ⟨before, after, -, htext⟩ := h
  refine ⟨(s.draft c).topLines s.settings ++ pieceLines s.settings.outerOpening ++
    pieceLines (innerOpening c.displayName) ++ s.blockLines before,
    s.blockLines after ++ ["  \x7d".toList, "\x7d".toList] ++
      (s.draft c).closingLines s.settings, ?_⟩
  rw [htext, Scope.enclosed]
  simp only [List.append_assoc]

theorem isInfix_insideLines {line : String} {lines : List String} (h : line ∈ lines) :
    pieceLines (indent line) <:+: insideLines lines := by
  obtain ⟨before, after, rfl⟩ := List.append_of_mem h
  refine ⟨insideLines before, insideLines after, ?_⟩
  rw [insideLines_append, List.append_assoc]
  rfl

namespace Scope

theorem prints_of_mem (s : Scope) {c : Category} {key line : String} {d : Declaration}
    (hd : (key, d) ∈ c.present) (hline : line ∈ s.bodyLines (KeyPath.ofKey key).leaf d) :
    (s.moduleFile c).Prints (indent line) := by
  have hmem : line ∈ s.declarationLines key d :=
    List.mem_append_left _ (List.mem_append_right _ hline)
  exact (isInfix_insideLines hmem).trans (s.shows_block hd).isInfix

theorem mem_bodyLines {s : Scope} {name line : String} {d : Declaration}
    (hkind : d.kind = .interface) (hline : line ∈ s.memberLines d) :
    line ∈ s.bodyLines name d := by
  have hne : (s.memberLines d).isEmpty = false :=
    List.isEmpty_eq_false_iff.mpr (List.ne_nil_of_mem hline)
  rw [bodyLines, hkind]
  show line ∈ s.interfaceLines name d
  rw [interfaceLines, hne, if_neg Bool.false_ne_true]
  exact List.mem_append_left _ (List.mem_append_right _ hline)

theorem indent_memberLine {line : String} : indent ("  " ++ line) = "      " ++ line := by
  have hmem : ' ' ∈ ("  " ++ line).toList := by
    rw [String.toList_append]
    exact List.mem_append_left _ (by decide)
  rw [indent_of_mem hmem, ← String.append_assoc]
  rfl

theorem prints_property (s : Scope) {c : Category} {key : String} {d : Declaration}
    (hd : (key, d) ∈ c.present) (hkind : d.kind = .interface) {p : Property}
    (hp : p ∈ d.properties) : (s.moduleFile c).Prints ("      " ++ s.propertyLine p) := by
  rw [← indent_memberLine]
  refine s.prints_of_mem hd (mem_bodyLines hkind ?_)
  exact List.mem_append_left _ (List.mem_map_of_mem (List.mem_map_of_mem hp))

theorem prints_method (s : Scope) {c : Category} {key : String} {d : Declaration}
    (hd : (key, d) ∈ c.present) (hkind : d.kind = .interface) {m : Method}
    (hm : m ∈ d.methods) (hdeprecated : m.isDeprecated = false) :
    (s.moduleFile c).Prints ("      " ++ (s.signature m ++ ";")) := by
  rw [← indent_memberLine]
  refine s.prints_of_mem hd (mem_bodyLines hkind (List.mem_append_right _ ?_))
  have hkept : m ∈ d.methods.filter (!·.isDeprecated) :=
    List.mem_filter.mpr ⟨hm, by rw [hdeprecated]; rfl⟩
  refine List.mem_flatMap.mpr ⟨_, List.mem_map_of_mem hkept, List.mem_cons_of_mem _ ?_⟩
  exact List.mem_map_of_mem (List.mem_append_right _ (List.mem_singleton_self _))

/-! ## Where a type of another category is used -/

theorem exists_typed_result (s : Scope) (name : String) (t : TypeRef) :
    ∃ result, s.typed name t .result = name ++ ": " ++ result := by
  have hsite : s.isEnumField t .result = false := rfl
  unfold typed annotate
  simp only [hsite, Bool.false_eq_true, if_false]
  cases variadicElement? (s.settings.overrides.substituteAny (s.qualifiedName t).toList) with
  | none => exact ⟨_, rfl⟩
  | some element => exact ⟨_, rfl⟩

/-- In a joined list an item stands behind some text and in front of the end or
a separator. -/
theorem exists_intercalate (sep : List Char) {x : List Char} {xs : List (List Char)} (h : x ∈ xs) :
    ∃ front back, sep.intercalate xs = front ++ x ++ back ∧
      (back = [] ∨ ∃ more, back = sep ++ more) := by
  induction xs with
  | nil => exact absurd h List.not_mem_nil
  | cons y ys ih =>
      by_cases hys : ys = []
      · subst hys
        obtain rfl := List.mem_singleton.mp h
        exact ⟨[], [], by simp, .inl rfl⟩
      · have hstep : sep.intercalate (y :: ys) = y ++ sep ++ sep.intercalate ys :=
          List.intercalate_cons_of_ne_nil hys
        rw [hstep]
        rcases List.mem_cons.mp h with rfl | hmem
        · exact ⟨[], sep ++ sep.intercalate ys, by simp, .inr ⟨_, rfl⟩⟩
        · obtain ⟨front, back, hlist, hback⟩ := ih hmem
          refine ⟨y ++ sep ++ front, back, ?_, hback⟩
          rw [hlist]
          simp only [List.append_assoc]

open ParameterPatch in
/-- In a patched parameter list a parameter is found with its type. -/
theorem exists_parameterList (s : Scope) {m : Method} {p : Parameter} {type : String}
    (hp : p ∈ m.parameters) (htyped : s.typed p.name p.type .parameter = p.name ++ ": " ++ type)
    (htype : ':' ∉ type.toList) :
    ∃ front before after : String,
      s.parameterList m = before ++ ": " ++ type ++ after ∧
      Marked (front ++ p.name ++ ":").toList (before ++ ":").toList ∧
      (after = "" ∨ ∃ more, after = ", " ++ more) := by
  have hmem : (p.name ++ ": " ++ type).toList ∈ (s.typedParameters m).map String.toList := by
    rw [← htyped]
    exact List.mem_map_of_mem (List.mem_map_of_mem (f := fun p : Parameter =>
      s.typed p.name p.type .parameter) hp)
  obtain ⟨front, back, hjoined, hback⟩ := exists_intercalate ", ".toList hmem
  have hmarked : Marked ((front ++ (p.name ++ ":").toList) ++ ((" " ++ type).toList ++ back))
      (s.parameterList m).toList := by
    have h := marked_applyAll s.settings.overrides.duplicateParameters
      (", ".intercalate (s.typedParameters m))
    have hliteral : ": ".toList = ":".toList ++ " ".toList := by decide
    rw [String.toList_intercalate, hjoined] at h
    rw [parameterList]
    simpa only [String.toList_append, hliteral, List.append_assoc] using h
  have htype' : ':' ∉ (" " ++ type).toList := not_mem_toList_append (by decide) htype
  obtain ⟨t₁, t₂, hlist, h₁, h₂⟩ := hmarked.exists_append
  obtain ⟨after, rfl, hafter⟩ := h₂.exists_append_of_not_mem htype'
  have hcolon : t₁.getLast? = some ':' := by
    rw [h₁.getLast?_eq, List.getLast?_append,
      getLast?_toList_append (c := ':') p.name (by decide)]
    rfl
  obtain ⟨before, rfl⟩ := List.getLast?_eq_some_iff.mp hcolon
  refine ⟨String.ofList front, String.ofList before, String.ofList after, ?_, ?_, ?_⟩
  · apply String.toList_injective
    rw [hlist]
    simp
  · simpa using h₁
  · rcases hback with rfl | ⟨more, rfl⟩
    · left
      rw [hafter.eq_of_not_mem List.not_mem_nil, String.ofList_nil]
    · right
      obtain ⟨more', rfl, -⟩ := hafter.exists_append_of_not_mem (by decide)
      exact ⟨String.ofList more', by rw [String.ofList_append, String.ofList_toList]⟩

theorem mem_references (s : Scope) {c : Category} {key owner type : String} {d : Declaration}
    (hd : (key, d) ∈ c.present) (huse : ⟨type, some owner⟩ ∈ d.typeRefs)
    (howner : owner ≠ s.category) : owner ∈ (s.moduleFile c).references := by
  have hforeign : owner ∈ c.foreignOwners s.category := by
    refine List.mem_filterMap.mpr ⟨⟨type, some owner⟩, ?_, ?_⟩
    · exact List.mem_flatMap.mpr ⟨(key, d), hd, huse⟩
    · rw [Option.filter_some, if_pos (bne_iff_ne.mpr howner)]
  show owner ∈ (s.draft c).references.keys
  rw [s.keys_references c, List.mem_eraseDups]
  exact List.mem_cons_of_mem _ hforeign

theorem directive_mem_splitLines (s : Scope) {c : Category} {owner : String}
    (howner : owner ∈ (s.moduleFile c).references) (hfile : '\n' ∉ s.settings.filePrefix.toList)
    (hkey : '\n' ∉ owner.toList) :
    (s.settings.directive owner).toList ∈ splitLines (s.moduleFile c).text.toList := by
  have hline : (s.settings.directive owner).toList ∈
      ((s.draft c).references.keys.map s.settings.directive).flatMap pieceLines := by
    refine List.mem_flatMap.mpr ⟨_, List.mem_map_of_mem howner, ?_⟩
    rw [s.settings.pieceLines_directive hfile hkey]
    exact List.mem_singleton_self _
  show _ ∈ splitLines ((s.draft c).text s.settings).toList
  rw [Draft.splitLines_text, Draft.topLines]
  simp only [List.mem_append]
  exact .inl (.inl (.inl (.inl (.inr hline))))

end Scope

/-! ## Two modules -/

theorem mem_emitAll {d : Description} (s : Settings) {key : String} {c : Category}
    (hc : d.category? key = some c) : Scope.moduleFile ⟨d, s, key⟩ c ∈ emitAll d s := by
  have hkey : key ∈ d.categories.keys :=
    List.mem_map_of_mem (SortedMap.get?_eq_some_iff.mp hc)
  refine List.mem_filterMap.mpr ⟨key, hkey, ?_⟩
  rw [emitCategory, hc]
  rfl

theorem not_mem_qualified {c : Category} {type : String} {x : Char} (htype : IsTypePath type)
    (hx : isIdentifierChar x = false) (hdot : x ≠ '.') :
    x ∉ (c.displayName ++ "." ++ type).toList := by
  refine not_mem_toList_append (not_mem_toList_append ?_ ?_) ?_
  · intro hmem
    rw [c.isIdentifierChar_of_mem_displayName hmem] at hx
    exact absurd hx (by decide)
  · intro hmem
    exact hdot (List.mem_singleton.mp hmem)
  · intro hmem
    rcases htype.1 x hmem with h | h
    · rw [h] at hx
      exact absurd hx (by decide)
    · exact hdot h

/-- The lines of a module around one declaration, where the names above it are
one line each. -/
theorem Scope.exists_splitLines (s : Scope) {c : Category} {key : String} {d : Declaration}
    (hd : (key, d) ∈ c.present) (hkey : '\n' ∉ key.toList)
    (houter : '\n' ∉ s.settings.outerNamespace.toList) :
    ∃ before after first rest, c.present = before ++ (key, d) :: after ∧
      insideLines (s.bodyLines (KeyPath.ofKey key).leaf d) = first :: rest ∧
      ("    " ++ s.bodyOpening (KeyPath.ofKey key).leaf d).toList <+: first ∧
      splitLines (s.moduleFile c).text.toList =
        (s.draft c).topLines s.settings ++
          [("declare namespace " ++ s.settings.outerNamespace ++ openBrace).toList,
            ("  namespace " ++ c.displayName ++ openBrace).toList] ++
          s.blockLines before ++
          insideLines (docBlock d.doc) ++
          (KeyPath.ofKey key).namespaces.map
            (fun n => ("    namespace " ++ n ++ openBrace).toList) ++
          (first :: rest) ++
          (KeyPath.ofKey key).namespaces.map (fun _ => ("    " ++ closeBrace).toList) ++
          s.blockLines after ++ ["  \x7d".toList, "\x7d".toList] ++
          (s.draft c).closingLines s.settings := by
  have hdisplay : '\n' ∉ c.displayName.toList := fun hmem =>
    absurd (c.isIdentifierChar_of_mem_displayName hmem) (by decide)
  have houterLine : pieceLines s.settings.outerOpening =
      [("declare namespace " ++ s.settings.outerNamespace ++ openBrace).toList] :=
    pieceLines_eq_singleton
      (isVisibleLine_append (not_mem_toList_append (by decide) houter) isVisibleLine_openBrace)
  have hinnerLine : pieceLines (innerOpening c.displayName) =
      [("  namespace " ++ c.displayName ++ openBrace).toList] :=
    pieceLines_eq_singleton
      (isVisibleLine_append (not_mem_toList_append (by decide) hdisplay) isVisibleLine_openBrace)
  have hwrapper : ∀ n, "    " ++ wrapperOpening n = "    namespace " ++ n ++ openBrace := by
    intro n
    have hliteral : "    " ++ "namespace " = "    namespace " := by rfl
    rw [← hliteral]
    simp only [wrapperOpening, String.append_assoc]
  have hleaf : '\n' ∉ (KeyPath.ofKey key).leaf.toList := fun hmem =>
    hkey ((KeyPath.mem_part (List.mem_append_right _ (List.mem_singleton_self _))).2 _ hmem)
  obtain ⟨before, after, hpresent, htext⟩ := s.shows_block hd
  obtain ⟨first, rest, hbody, hstart⟩ := s.exists_insideLines_bodyLines d hleaf
  refine ⟨before, after, first, rest, hpresent, hbody, hstart, ?_⟩
  rw [htext, enclosed, houterLine, hinnerLine,
    s.insideLines_declarationLines_of_not_mem d hkey, hbody]
  simp only [hwrapper, List.append_assoc, List.cons_append, List.nil_append]

/-- **Modules fit together.**  Let an interface of a category `a` use a type
`t` that another category `b` declares.

* Wherever the type is used it is printed as `D.t`, where `D` is the namespace
  that the module of `b` opens: behind a property, behind a parameter, which is
  followed by the next one or by the closing parenthesis, and as a result.
* The module of `a` refers to `b`, with a directive for the file of `b`.
* The module of `b` has the declaration inside the outer namespace, the
  namespace `D` and one more for each part of `t` before the last.  In `D` stand
  besides only the other declarations of `b`, in front of it and behind it. -/
theorem cross_module_link (d : Description) (s : Settings) {a b t userKey : String}
    {ca cb : Category} {user target : Declaration}
    (ha : d.category? a = some ca) (hb : d.category? b = some cb) (hne : b ≠ a)
    (houter : '\n' ∉ s.outerNamespace.toList) (hfile : '\n' ∉ s.filePrefix.toList)
    (hkey : '\n' ∉ b.toList) (htype : IsTypePath t)
    (hany : s.overrides.isAny (cb.displayName ++ "." ++ t) = false)
    (htarget : cb.declarations.get? t = some (some target))
    (huser : ca.declarations.get? userKey = some (some user))
    (huse : ⟨t, some b⟩ ∈ user.typeRefs) :
    ∃ ma ∈ emitAll d s, ∃ mb ∈ emitAll d s, ma.key = a ∧ mb.key = b ∧
      (∀ p ∈ user.properties, p.type = ⟨t, some b⟩ →
        ma.Prints ("      " ++ (if p.isDeprecated then deprecationNotice else "") ++ p.name ++
          ": " ++ (cb.displayName ++ "." ++ t) ++ ";")) ∧
      (∀ m ∈ user.methods, m.isDeprecated = false → ∃ parameters result,
        ma.Prints ("      " ++ m.name ++ "(" ++ parameters ++ "): " ++ result ++ ";") ∧
        (m.returnType = ⟨t, some b⟩ → result = cb.displayName ++ "." ++ t) ∧
        ∀ p ∈ m.parameters, p.type = ⟨t, some b⟩ → ∃ front before after : String,
          parameters = before ++ ": " ++ (cb.displayName ++ "." ++ t) ++ after ∧
          ParameterPatch.Marked (front ++ p.name ++ ":").toList (before ++ ":").toList ∧
          (after = "" ∨ ∃ more, after = ", " ++ more)) ∧
      b ∈ ma.references ∧
      ("/// <reference path=\"" ++ mb.fileName ++ "\" />").toList ∈ splitLines ma.text.toList ∧
      ".".intercalate ((KeyPath.ofKey t).namespaces ++ [(KeyPath.ofKey t).leaf]) = t ∧
      ∃ before after first rest, cb.present = before ++ (t, target) :: after ∧
        insideLines (Scope.bodyLines ⟨d, s, b⟩ (KeyPath.ofKey t).leaf target) = first :: rest ∧
        ("    " ++ Scope.bodyOpening ⟨d, s, b⟩ (KeyPath.ofKey t).leaf target).toList <+: first ∧
        splitLines mb.text.toList =
          (Scope.draft ⟨d, s, b⟩ cb).topLines s ++
            [("declare namespace " ++ s.outerNamespace ++ openBrace).toList,
              ("  namespace " ++ cb.displayName ++ openBrace).toList] ++
            Scope.blockLines ⟨d, s, b⟩ before ++
            insideLines (docBlock target.doc) ++
            (KeyPath.ofKey t).namespaces.map
              (fun n => ("    namespace " ++ n ++ openBrace).toList) ++
            (first :: rest) ++
            (KeyPath.ofKey t).namespaces.map (fun _ => ("    " ++ closeBrace).toList) ++
            Scope.blockLines ⟨d, s, b⟩ after ++ ["  \x7d".toList, "\x7d".toList] ++
            (Scope.draft ⟨d, s, b⟩ cb).closingLines s := by
  have hmember := Category.mem_present.mpr huser
  have hkind : user.kind = .interface := by
    cases hk : user.kind with
    | interface => rfl
    | enum =>
        rw [Declaration.typeRefs, hk] at huse
        exact absurd huse List.not_mem_nil
  have hdisplay : d.displayNameOf b = cb.displayName := by
    rw [Description.displayNameOf, hb]
  have htyped : ∀ name site, Scope.typed ⟨d, s, a⟩ name ⟨t, some b⟩ site =
      name ++ ": " ++ (cb.displayName ++ "." ++ t) := by
    intro name site
    have h := Scope.typed_foreign ⟨d, s, a⟩ name site hne htype (by rw [hdisplay]; exact hany)
    rw [hdisplay] at h
    exact h
  have hfeed : '\n' ∉ t.toList := by
    intro hmem
    rcases htype.1 _ hmem with h | h
    · exact absurd h (by decide)
    · exact absurd h (by decide)
  have hreference := Scope.mem_references ⟨d, s, a⟩ hmember huse hne
  refine ⟨_, mem_emitAll s ha, _, mem_emitAll s hb, rfl, rfl, ?_, ?_, hreference,
    Scope.directive_mem_splitLines ⟨d, s, a⟩ hreference hfile hkey, KeyPath.intercalate_parts t,
    Scope.exists_splitLines ⟨d, s, b⟩ (Category.mem_present.mpr htarget) hfeed houter⟩
  · intro p hp hpt
    have hprints := Scope.prints_property ⟨d, s, a⟩ hmember hkind hp
    rw [Scope.propertyLine, hpt, htyped] at hprints
    simpa only [String.append_assoc] using hprints
  · intro m hm hdeprecated
    have hprints := Scope.prints_method ⟨d, s, a⟩ hmember hkind hm hdeprecated
    obtain ⟨result, hresult⟩ := Scope.exists_typed_result ⟨d, s, a⟩
      (m.name ++ "(" ++ Scope.parameterList ⟨d, s, a⟩ m ++ ")") m.returnType
    refine ⟨Scope.parameterList ⟨d, s, a⟩ m, result, ?_, ?_, ?_⟩
    · rw [Scope.signature, hresult] at hprints
      have hliteral : "): " = ")" ++ ": " := by rfl
      rw [hliteral]
      simpa only [String.append_assoc] using hprints
    · intro hrt
      rw [hrt, htyped] at hresult
      exact (String.append_right_inj _).mp hresult.symm
    · intro p hp hpt
      exact Scope.exists_parameterList ⟨d, s, a⟩ hp (by rw [hpt]; exact htyped _ _)
        (not_mem_qualified htype (by decide) (by decide))

/-! ## Two modules of one description -/

def blobCategory : Category where
  name := some "Base Services"
  declarations := ⟨[("Schema.Blob", some {})], by decide⟩

/-- The type is used as a property, as a parameter and as a result. -/
def fileDeclaration : Declaration where
  properties := [{ name := "content", type := ⟨"Schema.Blob", some "base"⟩ }]
  methods := [
    { name := "replace"
      parameters := [{ name := "blob", type := ⟨"Schema.Blob", some "base"⟩ }]
      returnType := ⟨"Schema.Blob", some "base"⟩ }]

def fileCategory : Category where
  name := some "Drive"
  declarations := ⟨[("File", some fileDeclaration)], by decide⟩

def blobDescription : Description where
  categories := ⟨[("base", blobCategory), ("drive", fileCategory)], by decide⟩

/-- The type at its three places, the directive, and the namespaces around its
declaration. -/
theorem blob_modules_fit :
    ∃ ma ∈ emitAll blobDescription {}, ∃ mb ∈ emitAll blobDescription {},
      ma.key = "drive" ∧ mb.key = "base" ∧
      ma.Prints "      content: Base_Services.Schema.Blob;" ∧
      (∃ front before after : String,
        ma.Prints ("      replace(" ++ (before ++ ": " ++ "Base_Services.Schema.Blob" ++ after) ++
          "): " ++ "Base_Services.Schema.Blob" ++ ";") ∧
        ParameterPatch.Marked (front ++ "blob" ++ ":").toList (before ++ ":").toList ∧
        (after = "" ∨ ∃ more, after = ", " ++ more)) ∧
      "base" ∈ ma.references ∧
      ("/// <reference path=\"" ++ mb.fileName ++ "\" />").toList ∈ splitLines ma.text.toList ∧
      ∃ above below, splitLines mb.text.toList =
        above ++ ["declare namespace GoogleAppsScript \x7b".toList,
          "  namespace Base_Services \x7b".toList, "    /**".toList, "     *".toList,
          "     */".toList, "    namespace Schema \x7b".toList,
          "    interface Blob extends BlobSource \x7b \x7d".toList, "    \x7d".toList,
          "  \x7d".toList, "\x7d".toList] ++ below := by
  have hdrive : blobDescription.category? "drive" = some fileCategory := by rfl
  have hbase : blobDescription.category? "base" = some blobCategory := by rfl
  have hfile : fileCategory.declarations.get? "File" = some (some fileDeclaration) := by rfl
  have hblob : blobCategory.declarations.get? "Schema.Blob" = some (some {}) := by rfl
  have hpath : IsTypePath "Schema.Blob" := by
    have hall : "Schema.Blob".toList.all (fun c => isIdentifierChar c || c == '.') = true := by rfl
    refine ⟨fun c hc => ?_, 'b', rfl, rfl⟩
    rcases Bool.or_eq_true_iff.mp (List.all_eq_true.mp hall c hc) with h | h
    · exact .inl h
    · exact .inr (beq_iff_eq.mp h)
  have hcontent : ⟨"content", ⟨"Schema.Blob", some "base"⟩, false⟩ ∈ fileDeclaration.properties :=
    List.mem_cons_self
  obtain ⟨ma, hma, mb, hmb, hkeyA, hkeyB, hproperties, hmethods, hreference, hdirective, -,
    before, after, first, rest, hpresent, hbody, -, hlines⟩ :=
    cross_module_link blobDescription {} hdrive hbase (by decide) (by decide) (by decide)
      (by decide) hpath (by decide) hblob hfile (by decide)
  have htype : blobCategory.displayName ++ "." ++ "Schema.Blob" = "Base_Services.Schema.Blob" := by
    decide
  rw [htype] at hproperties hmethods
  have hproperty := hproperties _ hcontent rfl
  obtain ⟨parameters, result, hmethod, hresult, hparameters⟩ :=
    hmethods _ List.mem_cons_self rfl
  obtain ⟨front, start, stop, rfl, hmarked, hstop⟩ := hparameters _ List.mem_cons_self rfl
  obtain rfl := hresult rfl
  refine ⟨ma, hma, mb, hmb, hkeyA, hkeyB, hproperty, ⟨front, start, stop, hmethod, hmarked, hstop⟩,
    hreference, hdirective, ?_⟩
  -- The category has no other declaration, so nothing stands beside this one.
  have hone : blobCategory.present = [("Schema.Blob", {})] := by rfl
  obtain ⟨rfl, hafter⟩ | ⟨-, hnil⟩ :=
    List.append_eq_singleton_iff.mp (hpresent.symm.trans hone)
  · obtain rfl := (List.cons_eq_cons.mp hafter).2
    have hinner : "  namespace " ++ blobCategory.displayName ++ openBrace =
        "  namespace Base_Services \x7b" := by decide
    have hsegments : (KeyPath.ofKey "Schema.Blob").namespaces = ["Schema"] := by decide
    have hdoc : insideLines (docBlock "") =
        ["    /**".toList, "     *".toList, "     */".toList] := by
      decide
    have hdeclared :
        first :: rest = ["    interface Blob extends BlobSource \x7b \x7d".toList] := by
      rw [← hbody]
      decide +kernel
    rw [hinner, hsegments, hdoc, hdeclared] at hlines
    refine ⟨(Scope.draft ⟨blobDescription, {}, "base"⟩ blobCategory).topLines {},
      (Scope.draft ⟨blobDescription, {}, "base"⟩ blobCategory).closingLines {}, hlines.trans ?_⟩
    simp only [List.append_assoc]
    rfl
  · exact absurd hnil (List.cons_ne_nil _ _)

end Ambient
