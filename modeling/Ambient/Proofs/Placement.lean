import Ambient.Proofs.ModuleText
import Ambient.Proofs.Recording

/-!
# Where a declaration stands

Every declaration of a category has its block inside the two namespaces of the
module, and in the block the declaration stands inside one namespace for each
part of its key before the leaf, outermost first, each closed behind it.

`ModuleFile.Shows` says the first on the lines of the text: inside the two
namespaces stand the blocks of the declarations, in their order, and nothing
else.  `Scope.insideLines_declarationLines` says the second.
-/

namespace Ambient

open Text

/-! ## Dotted keys -/

namespace KeyPath

theorem parts_eq (key : String) :
    (key.toList.splitOn '.').map String.ofList = (ofKey key).namespaces ++ [(ofKey key).leaf] := by
  have hne : (key.toList.splitOn '.').map String.ofList ≠ [] := by
    simp
  have hleaf : (ofKey key).leaf = ((key.toList.splitOn '.').map String.ofList).getLast hne := by
    show ((key.toList.splitOn '.').map String.ofList).getLastD "" = _
    rw [List.getLastD_eq_getLast?, List.getLast?_eq_some_getLast hne, Option.getD_some]
  rw [hleaf]
  exact (List.dropLast_append_getLast hne).symm

theorem mem_part {key part : String}
    (h : part ∈ (ofKey key).namespaces ++ [(ofKey key).leaf]) :
    '.' ∉ part.toList ∧ ∀ c ∈ part.toList, c ∈ key.toList := by
  rw [← parts_eq] at h
  obtain ⟨piece, hpiece, rfl⟩ := List.mem_map.mp h
  rw [String.toList_ofList]
  exact mem_of_mem_splitOn hpiece

theorem dot_not_mem_leaf (key : String) : '.' ∉ (ofKey key).leaf.toList :=
  (mem_part (List.mem_append_right _ (List.mem_singleton_self _))).1

theorem ofKey_of_not_mem {key : String} (h : '.' ∉ key.toList) : ofKey key = ⟨[], key⟩ := by
  unfold ofKey
  rw [List.splitOn_eq_singleton h]
  simp

/-- The parts of a key, with dots between them, are the key. -/
theorem intercalate_parts (key : String) :
    ".".intercalate ((ofKey key).namespaces ++ [(ofKey key).leaf]) = key := by
  have hparts : ((ofKey key).namespaces ++ [(ofKey key).leaf]).map String.toList =
      key.toList.splitOn '.' := by
    rw [← parts_eq, List.map_map]
    simp
  have hkey : (".".intercalate ((ofKey key).namespaces ++ [(ofKey key).leaf])).toList =
      key.toList := by
    rw [String.toList_intercalate, hparts]
    exact List.intercalate_splitOn '.'
  exact String.toList_injective hkey

theorem leaf_of_namespaces_eq_nil {key : String} (h : (ofKey key).namespaces = []) :
    (ofKey key).leaf = key := by
  have hkey := intercalate_parts key
  rw [h] at hkey
  exact hkey

end KeyPath

/-! ## Inside the namespaces -/

namespace Scope

/-- The lines of some declarations in the text, one block after the other. -/
def blockLines (s : Scope) (es : List (String × Declaration)) : List (List Char) :=
  es.flatMap fun e => insideLines (s.declarationLines e.1 e.2)

theorem blockLines_append (s : Scope) (es more : List (String × Declaration)) :
    s.blockLines (es ++ more) = s.blockLines es ++ s.blockLines more :=
  List.flatMap_append

/-- The lines of a module with the given ones inside its two namespaces: above
them the header, the directives and the two openings, below them the two closing
braces and the bindings. -/
def enclosed (s : Scope) (c : Category) (inside : List (List Char)) : List (List Char) :=
  (s.draft c).topLines s.settings ++ pieceLines s.settings.outerOpening ++
    pieceLines (innerOpening c.displayName) ++ inside ++ ["  \x7d".toList, "\x7d".toList] ++
    (s.draft c).closingLines s.settings

/-- Inside the two namespaces stand the declarations and nothing else. -/
theorem splitLines_moduleFile (s : Scope) (c : Category) :
    splitLines (s.moduleFile c).text.toList = s.enclosed c (s.blockLines c.present) := by
  have hblocks : (s.draft c).blocks.flatMap Block.textLines = s.blockLines c.present := by
    rw [s.draft_eq c, List.flatMap_map]
    rfl
  have hname : (s.draft c).displayName = c.displayName := by rw [s.draft_eq c]
  show splitLines ((s.draft c).text s.settings).toList = _
  rw [Draft.splitLines_text, Draft.innerLines, hblocks, hname, enclosed]
  simp only [List.append_assoc]
  rfl

end Scope

/-- In the text some lines stand in the place of a declaration: inside the two
namespaces, behind the declarations that come before it and in front of those
that come after it. -/
def ModuleFile.Shows (m : ModuleFile) (s : Scope) (c : Category) (e : String × Declaration)
    (lines : List (List Char)) : Prop :=
  ∃ before after, c.present = before ++ e :: after ∧
    splitLines m.text.toList = s.enclosed c (s.blockLines before ++ lines ++ s.blockLines after)

namespace Scope

/-- **Every declaration is shown.** -/
theorem shows_block (s : Scope) {c : Category} {e : String × Declaration} (he : e ∈ c.present) :
    (s.moduleFile c).Shows s c e (insideLines (s.declarationLines e.1 e.2)) := by
  obtain ⟨before, after, hpresent⟩ := List.append_of_mem he
  refine ⟨before, after, hpresent, ?_⟩
  rw [s.splitLines_moduleFile, hpresent, s.blockLines_append, List.append_assoc]
  rfl

/-- The lines of a declaration: documentation, opening lines, the declaration,
closing braces. -/
theorem insideLines_declarationLines (s : Scope) (key : String) (d : Declaration) :
    insideLines (s.declarationLines key d) =
      insideLines (docBlock d.doc) ++
        insideLines ((KeyPath.ofKey key).namespaces.map wrapperOpening) ++
        insideLines (s.bodyLines (KeyPath.ofKey key).leaf d) ++
        insideLines ((KeyPath.ofKey key).namespaces.map fun _ => closeBrace) := by
  simp only [declarationLines, insideLines_append]

/-! ## The first line of a declaration -/

/-- What the first line of a declaration begins with. -/
def bodyOpening (s : Scope) (name : String) (d : Declaration) : String :=
  match d.kind with
  | .enum => "enum " ++ name ++ openBrace
  | .interface =>
      match s.settings.overrides.base? name s.displayName with
      | some _ => "interface " ++ name ++ " extends"
      | none => "interface " ++ name ++ openBrace

theorem exists_bodyLines (s : Scope) (name : String) (d : Declaration) :
    ∃ more rest, s.bodyLines name d = (s.bodyOpening name d ++ more) :: rest := by
  unfold bodyLines bodyOpening
  cases d.kind with
  | enum =>
      refine ⟨" " ++ ", ".intercalate (d.properties.map (·.name)) ++ " " ++ closeBrace, [], ?_⟩
      simp only [renderEnum, String.append_assoc]
  | interface =>
      have hhead : ∃ more, s.interfaceHead name =
          (match s.settings.overrides.base? name s.displayName with
            | some _ => "interface " ++ name ++ " extends"
            | none => "interface " ++ name ++ openBrace) ++ more := by
        unfold interfaceHead
        cases s.settings.overrides.base? name s.displayName with
        | none => exact ⟨"", String.append_empty.symm⟩
        | some base => exact ⟨" " ++ base ++ openBrace, by simp only [String.append_assoc]; rfl⟩
      obtain ⟨more, hmore⟩ := hhead
      show ∃ more rest, s.interfaceLines name d = _
      unfold interfaceLines
      rw [hmore]
      split
      · exact ⟨more ++ " " ++ closeBrace, [], by simp only [String.append_assoc]⟩
      · exact ⟨more, s.memberLines d ++ [closeBrace], rfl⟩

theorem isVisibleLine_bodyOpening (s : Scope) {name : String} (d : Declaration)
    (hname : '\n' ∉ name.toList) : IsVisibleLine (s.bodyOpening name d).toList := by
  have hextends : IsVisibleLine " extends".toList := ⟨by decide, 's', rfl, rfl⟩
  unfold bodyOpening
  cases d.kind with
  | enum =>
      exact isVisibleLine_append (not_mem_toList_append (by decide) hname) isVisibleLine_openBrace
  | interface =>
      have hhead : '\n' ∉ ("interface " ++ name).toList := not_mem_toList_append (by decide) hname
      cases s.settings.overrides.base? name s.displayName with
      | none => exact isVisibleLine_append hhead isVisibleLine_openBrace
      | some base => exact isVisibleLine_append hhead hextends

/-! ## The lines of a declaration -/

theorem indent_of_mem {line : String} {c : Char} (h : c ∈ line.toList) :
    indent line = "    " ++ line := by
  have hne : line ≠ "" := by
    rintro rfl
    exact List.not_mem_nil h
  rw [indent, if_neg hne]

theorem indent_append_of_mem {line : String} {c : Char} (h : c ∈ line.toList) (more : String) :
    indent (line ++ more) = "    " ++ line ++ more := by
  have hmem : c ∈ (line ++ more).toList := by
    rw [String.toList_append]
    exact List.mem_append_left _ h
  rw [indent_of_mem hmem, String.append_assoc]

theorem insideLines_map {names : List String} {line : String → String}
    (h : ∀ n ∈ names, IsVisibleLine (line n).toList) :
    insideLines (names.map line) = names.map fun n => ("    " ++ line n).toList := by
  rw [insideLines, List.map_map, List.flatMap_map, List.map_eq_flatMap]
  refine List.flatMap_congr fun n hn => ?_
  obtain ⟨c, hlast, -⟩ := (h n hn).visibleEnd
  rw [Function.comp_apply, indent_of_mem (List.mem_of_getLast? hlast)]
  exact pieceLines_eq_singleton (isVisibleLine_append (by decide) (h n hn))

/-- Where its name is one line, a declaration begins with what its first line
begins with. -/
theorem exists_insideLines_bodyLines (s : Scope) {name : String} (d : Declaration)
    (hname : '\n' ∉ name.toList) :
    ∃ first rest, insideLines (s.bodyLines name d) = first :: rest ∧
      ("    " ++ s.bodyOpening name d).toList <+: first := by
  have hopening := s.isVisibleLine_bodyOpening d hname
  obtain ⟨c, hlast, -⟩ := hopening.visibleEnd
  obtain ⟨more, below, hbody⟩ := s.exists_bodyLines name d
  have hpiece : ("    " ++ s.bodyOpening name d ++ more).toList =
      ("    " ++ s.bodyOpening name d).toList ++ more.toList := String.toList_append
  obtain ⟨first, rest, hlines, hstart⟩ :=
    exists_pieceLine_prefix hpiece (isVisibleLine_append (by decide) hopening)
  refine ⟨first, rest ++ insideLines below, ?_, hstart⟩
  rw [hbody, insideLines, List.map_cons, List.flatMap_cons,
    indent_append_of_mem (List.mem_of_getLast? hlast) more, hlines]
  rfl

theorem insideLines_declarationLines_of_not_mem (s : Scope) {key : String} (d : Declaration)
    (hkey : '\n' ∉ key.toList) :
    insideLines (s.declarationLines key d) =
      insideLines (docBlock d.doc) ++
        (KeyPath.ofKey key).namespaces.map (fun n => ("    " ++ wrapperOpening n).toList) ++
        insideLines (s.bodyLines (KeyPath.ofKey key).leaf d) ++
        (KeyPath.ofKey key).namespaces.map fun _ => ("    " ++ closeBrace).toList := by
  have hopenings : ∀ n ∈ (KeyPath.ofKey key).namespaces,
      IsVisibleLine (wrapperOpening n).toList := by
    intro n hn
    have hfeed : '\n' ∉ n.toList := fun hmem =>
      hkey ((KeyPath.mem_part (List.mem_append_left _ hn)).2 _ hmem)
    exact isVisibleLine_append (not_mem_toList_append (by decide) hfeed) isVisibleLine_openBrace
  rw [insideLines_declarationLines, insideLines_map hopenings,
    insideLines_map fun _ _ => isVisibleLine_closeBrace]

end Scope

end Ambient
