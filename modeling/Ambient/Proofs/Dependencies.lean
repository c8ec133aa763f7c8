import Ambient.Proofs.ModuleText
import Ambient.Proofs.Recording

/-!
# What a module depends on

The references of a module are read off its category: the foundational
category, and then the owner of every reference to a type of another category,
each at its first occurrence.  The order is that of `Category.typeRefs`.
Declarations come in key order; in each, the properties, and then method by
method the parameters and the result.  A deprecated method, the constants of an
enum and an absent declaration do not occur in it at all.

The text then has one directive for each reference, between the header and the
empty line above the outer namespace.
-/

namespace Ambient

open Text

/-! ## Keys met in a row -/

/-- Meeting keys one after the other keeps the first occurrence of each. -/
theorem References.keys_insertAll_start (foundational : String) (keys : List String) :
    ((References.start foundational).insertAll keys).keys = (foundational :: keys).eraseDups := by
  induction keys using List.reverseRecOn with
  | nil => rfl
  | append_singleton keys key ih =>
      have hstep : (References.start foundational).insertAll (keys ++ [key]) =
          ((References.start foundational).insertAll keys).insert key :=
        References.insertAll_append _ _ _
      rw [hstep, References.keys_insert, ih, ← List.cons_append, List.eraseDups_append]
      by_cases hmem : key ∈ foundational :: keys
      · have hnothing : [key].removeAll (foundational :: keys) = [] := by
          simpa [List.removeAll, or_iff_not_imp_left] using hmem
        rw [hnothing, if_pos (by simpa using hmem)]
        rfl
      · have hkept : [key].removeAll (foundational :: keys) = [key] := by
          simpa [List.removeAll] using hmem
        rw [hkept, if_neg (by simpa using hmem)]
        rfl

/-! ## Owners -/

/-- The owners of the types that a category refers to, as far as they are not
the category with the given key itself, in the order of the references. -/
def Category.foreignOwners (c : Category) (key : String) : List String :=
  c.typeRefs.filterMap fun t => t.category.filter (· != key)

theorem Category.not_mem_foreignOwners (c : Category) (key : String) :
    key ∉ c.foreignOwners key := by
  intro h
  obtain ⟨t, -, ht⟩ := List.mem_filterMap.mp h
  have hne : (key != key) = true := (Option.filter_eq_some_iff.mp ht).2
  simp at hne

theorem Scope.keys_references (s : Scope) (c : Category) :
    (s.draft c).references.keys =
      (s.settings.foundational :: c.foreignOwners s.category).eraseDups := by
  rw [s.draft_eq c]
  exact References.keys_insertAll_start _ _

/-! ## Directives -/

theorem Settings.pieceLines_directive (s : Settings) {key : String}
    (hfile : '\n' ∉ s.filePrefix.toList) (hkey : '\n' ∉ key.toList) :
    pieceLines (s.directive key) = [(s.directive key).toList] := by
  have hname : '\n' ∉ (s.fileName key).toList :=
    not_mem_toList_append (not_mem_toList_append (not_mem_toList_append hfile (by decide)) hkey)
      (by decide)
  have hclosing : IsVisibleLine "\" />".toList := ⟨by decide, '>', rfl, rfl⟩
  exact pieceLines_eq_singleton
    (isVisibleLine_append (not_mem_toList_append (by decide) hname) hclosing)

theorem Settings.exists_outerOpening (s : Settings) :
    ∃ first rest, pieceLines s.outerOpening = first :: rest ∧
      "declare namespace".toList <+: first := by
  have hkeyword : IsVisibleLine "declare namespace".toList := ⟨by decide, 'e', rfl, rfl⟩
  have hpiece : s.outerOpening.toList =
      "declare namespace".toList ++ ' ' :: (s.outerNamespace ++ openBrace).toList := by
    have hliteral : "declare namespace ".toList = "declare namespace".toList ++ [' '] := by rfl
    unfold Settings.outerOpening
    rw [String.append_assoc, String.toList_append, hliteral, List.append_assoc,
      List.singleton_append]
  exact exists_pieceLine_prefix hpiece hkeyword

/-- **The dependencies of a module.**  Its references are the foundational
category and the foreign owners of its category, each once and in the order of
first occurrence; the category itself is among them exactly if it is the
foundational one.  Where no line feed stands in the way, the text has between
the header and the empty line above the outer namespace one directive for each
reference, in the same order, and nothing else. -/
theorem references_eq_firstOccurrences (d : Description) (s : Settings) {key : String}
    {c : Category} (hc : d.category? key = some c) :
    ∃ m, emitCategory d s key = some m ∧
      m.references = (s.foundational :: c.foreignOwners key).eraseDups ∧
      (key ∈ m.references ↔ key = s.foundational) ∧
      ('\n' ∉ s.filePrefix.toList → (∀ k ∈ m.references, '\n' ∉ k.toList) →
        ∃ first rest, "declare namespace".toList <+: first ∧
          splitLines m.text.toList =
            s.headerLines ++ m.references.map (fun k => (s.directive k).toList) ++
              [] :: first :: rest) := by
  have hreferences := Scope.keys_references ⟨d, s, key⟩ c
  refine ⟨Scope.moduleFile ⟨d, s, key⟩ c, by rw [emitCategory, hc]; rfl, hreferences, ?_, ?_⟩
  · show key ∈ (Scope.draft ⟨d, s, key⟩ c).references.keys ↔ _
    rw [hreferences, List.mem_eraseDups, List.mem_cons,
      or_iff_left (c.not_mem_foreignOwners key)]
  · intro hfile hkeys
    have hdirectives : ((Scope.draft ⟨d, s, key⟩ c).references.keys.map s.directive).flatMap
        pieceLines = (Scope.draft ⟨d, s, key⟩ c).references.keys.map
          fun k => (s.directive k).toList := by
      rw [List.flatMap_map, List.map_eq_flatMap]
      exact List.flatMap_congr fun k hk => s.pieceLines_directive hfile (hkeys k hk)
    obtain ⟨first, rest, hopening, hfirst⟩ := s.exists_outerOpening
    refine ⟨first, rest ++ (Scope.draft ⟨d, s, key⟩ c).innerLines ++
      (Scope.draft ⟨d, s, key⟩ c).closingLines s, hfirst, ?_⟩
    show splitLines ((Scope.draft ⟨d, s, key⟩ c).text s).toList = _
    rw [Draft.splitLines_text, Draft.topLines, hdirectives, hopening]
    simp only [List.append_assoc, List.cons_append]
    rfl

/-! ## One module -/

/-- A category that refers to others in members that count (a deprecated
property, parameters) and in some that do not (a deprecated method, a constant). -/
def driveCategory : Category where
  name := some "Drive"
  declarations := ⟨[
    ("Broken", none),
    ("DriveApp", some {
      properties := [
        { name := "root", type := ⟨"Blob", some "base"⟩, isDeprecated := true },
        { name := "files", type := ⟨"File[]", some "drive"⟩ }]
      methods := [
        { name := "old", returnType := ⟨"Range", some "sheets"⟩, isDeprecated := true },
        { name := "create"
          parameters := [
            { name := "owner", type := ⟨"User", some "admin"⟩ },
            { name := "blob", type := ⟨"Blob", some "base"⟩ }]
          returnType := ⟨"File", none⟩ }] }),
    ("Kind", some { kind := .enum, properties := [{ name := "A", type := ⟨"B", some "gmail"⟩ }] })],
    by decide⟩

/-- A description with that category alone: an owner need not be described. -/
def driveDescription : Description where
  categories := ⟨[("drive", driveCategory)], by decide⟩

/-- The references of that module, and the top of its text. -/
theorem drive_references :
    driveDescription.category? "drive" = some driveCategory ∧
      '\n' ∉ ({} : Settings).filePrefix.toList ∧
      (∀ k ∈ ["types", "base", "admin"], '\n' ∉ k.toList) ∧
      ∃ m, emitCategory driveDescription {} "drive" = some m ∧
        m.references = ["types", "base", "admin"] ∧
        ∃ first rest, "declare namespace".toList <+: first ∧
          splitLines m.text.toList =
            [ "/// <reference path=\"google-apps-script.types.d.ts\" />".toList,
              "/// <reference path=\"google-apps-script.base.d.ts\" />".toList,
              "/// <reference path=\"google-apps-script.admin.d.ts\" />".toList ] ++
              [] :: first :: rest := by
  have hc : driveDescription.category? "drive" = some driveCategory := by rfl
  have howners : ("types" :: driveCategory.foreignOwners "drive").eraseDups =
      ["types", "base", "admin"] := by decide
  have hfile : '\n' ∉ ({} : Settings).filePrefix.toList := by decide
  have hkeys : ∀ k ∈ ["types", "base", "admin"], '\n' ∉ k.toList := by decide
  refine ⟨hc, hfile, hkeys, ?_⟩
  obtain ⟨m, hm, hreferences, -, htext⟩ := references_eq_firstOccurrences driveDescription {} hc
  have hlist : m.references = ["types", "base", "admin"] := hreferences.trans howners
  obtain ⟨first, rest, hfirst, hlines⟩ := htext hfile (hlist ▸ hkeys)
  refine ⟨m, hm, hlist, first, rest, hfirst, ?_⟩
  rw [hlines, hlist]
  rfl

end Ambient
