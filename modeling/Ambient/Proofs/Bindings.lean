import Ambient.Proofs.ByteOrder
import Ambient.Proofs.Exports
import Ambient.Proofs.QualifiedTypes

/-!
# The bindings at the end of a module

Which names a module exports is read off its category: the text after the last
dot of each key whose declaration has the URL of a service, without repetition
and in the order of bytes.  What follows the outer namespace in the text is one
binding for each of them, in the same order, and nothing else.

Only the end of a line can change on the way into the text, and only where a
note ends in white space, since every binding ends in a semicolon.  For the same
reason the last binding is never dropped as a blank line.
-/

namespace Ambient

open Text

/-! ## Names and keys -/

/-- Whether a name is the text after the last dot of a key, or the whole of a
key without dot. -/
def IsLeafOf (name key : String) : Prop :=
  '.' ∉ name.toList ∧ (key = name ∨ ∃ above, key = above ++ "." ++ name)

theorem KeyPath.leaf_append (above : String) {name : String} (h : '.' ∉ name.toList) :
    (ofKey (above ++ "." ++ name)).leaf = name := by
  have hlist : (above ++ "." ++ name).toList = above.toList ++ '.' :: name.toList := by simp
  show (((above ++ "." ++ name).toList.splitOn '.').map String.ofList).getLastD "" = name
  rw [hlist, List.splitOn_append_cons_self, List.splitOn_eq_singleton h]
  simp

theorem KeyPath.leaf_eq_iff {key name : String} : (ofKey key).leaf = name ↔ IsLeafOf name key := by
  constructor
  · rintro rfl
    refine ⟨dot_not_mem_leaf key, ?_⟩
    obtain ⟨last, hdot, hkey | ⟨above, hkey⟩⟩ := exists_last_piece '.' key.toList
    · refine .inl ?_
      rw [ofKey_of_not_mem (hkey ▸ hdot)]
    · refine .inr ⟨String.ofList above, ?_⟩
      have heq : key = String.ofList above ++ "." ++ String.ofList last :=
        String.toList_injective (by simp [hkey])
      have hleaf : (ofKey key).leaf = String.ofList last := by
        rw [heq]
        exact leaf_append _ (by simpa using hdot)
      rw [hleaf]
      exact heq
  · rintro ⟨hdot, rfl | ⟨above, rfl⟩⟩
    · rw [ofKey_of_not_mem hdot]
    · exact leaf_append above hdot

theorem ServiceIndex.isService_eq_true_iff {services : ServiceIndex} {url : String} :
    services.isService url = true ↔ services.entries.get? url = some true := by
  unfold isService
  cases services.entries.get? url with
  | none => simp
  | some b => simp

/-! ## The lines behind the outer namespace -/

theorem pieceLines_of_not_mem {piece : String} (h : '\n' ∉ piece.toList) :
    pieceLines piece = [trimEnd piece.toList] := by
  rw [pieceLines, splitLines_of_not_mem h, List.map_singleton]

theorem Category.lineFeed_not_mem_displayName (c : Category) : '\n' ∉ c.displayName.toList :=
  fun h => absurd (Category.isIdentifierChar_of_mem_displayName h) (by decide)

namespace Settings

variable {s : Settings} {displayName name : String}

theorem lineFeed_not_mem_bindingLines (hspace : '\n' ∉ s.outerNamespace.toList)
    (hdisplay : '\n' ∉ displayName.toList) (hname : '\n' ∉ name.toList)
    (hnote : ∀ note ∈ s.overrides.exportNote? name, '\n' ∉ note.toList) :
    ∀ line ∈ s.bindingLines displayName name, '\n' ∉ line.toList := by
  have hpath : '\n' ∉ (".".intercalate (s.bindingPath displayName name)).toList :=
    not_mem_toList_append (not_mem_toList_append (not_mem_toList_append
      (not_mem_toList_append hspace (by decide)) hdisplay) (by decide)) hname
  have hbinding : '\n' ∉ ("declare var " ++ name ++ ": " ++
      ".".intercalate (s.bindingPath displayName name) ++ ";").toList :=
    not_mem_toList_append (not_mem_toList_append (not_mem_toList_append
      (not_mem_toList_append (by decide) hname) (by decide)) hpath) (by decide)
  unfold bindingLines
  cases hfound : s.overrides.exportNote? name with
  | none =>
      intro line hline
      obtain rfl := List.mem_singleton.mp hline
      exact hbinding
  | some note =>
      intro line hline
      rcases List.mem_cons.mp hline with rfl | hline
      · exact not_mem_toList_append (by decide) (hnote note hfound)
      · obtain rfl := List.mem_singleton.mp hline
        exact not_mem_toList_append (by decide) hbinding

end Settings

/-- What follows the outer namespace: nothing, or an empty line and all bindings. -/
theorem Draft.closingLines_eq {d : Draft} {s : Settings}
    (hline : ∀ name ∈ d.exports.toList, ∀ line ∈ s.bindingLines d.displayName name,
      '\n' ∉ line.toList) :
    d.closingLines s =
      (if d.exports.toList = [] then []
        else [] :: (d.exports.toList.flatMap (s.bindingLines d.displayName)).map
          fun line => trimEnd line.toList) ++ [[]] := by
  have hbinding : d.binding s = s.bindingLines d.displayName := funext (d.binding_eq s)
  have hlines : (d.exports.toList.flatMap (s.bindingLines d.displayName)).flatMap pieceLines =
      (d.exports.toList.flatMap (s.bindingLines d.displayName)).map
        fun line => trimEnd line.toList := by
    rw [List.map_eq_flatMap]
    refine List.flatMap_congr fun line hmem => ?_
    obtain ⟨name, hname, hmem⟩ := List.mem_flatMap.mp hmem
    exact pieceLines_of_not_mem (hline name hname line hmem)
  rw [closingLines, hbinding, hlines]
  by_cases hempty : d.exports.toList = []
  · rw [if_pos hempty, hempty]
    rfl
  · -- The last line of the last binding is not blank, so nothing is dropped.
    rw [if_neg hempty, ← hlines]
    obtain ⟨before, last, hexports⟩ := (List.eq_nil_or_concat d.exports.toList).resolve_left hempty
    obtain ⟨above, line, hend, hvisible⟩ := s.exists_bindingLine_last d.displayName last
    rw [hexports, List.concat_eq_append, List.flatMap_append, List.flatMap_singleton,
      List.flatMap_append, hend, ← List.append_assoc, ← List.cons_append,
      List.rdropWhile_concat_neg _ _ _ (by simp [hvisible])]

/-- **The exports of a module.**  Their names ascend in the order of bytes, and
they are the text after the last dot of each key whose declaration has a URL
that the index of services maps to true.  Where no line feed stands in the way,
what follows the brace that closes the outer namespace is nothing if there is no
export, and else an empty line and the binding of each name in the same order,
written as a comment under its note exactly if it has one. -/
theorem exports_bound_in_order (d : Description) (s : Settings) {key : String} {c : Category}
    (hc : d.category? key = some c) :
    ∃ m, emitCategory d s key = some m ∧
      m.exports.Pairwise (fun a b => utf8Bytes a < utf8Bytes b) ∧
      (∀ name, name ∈ m.exports ↔
        ∃ e ∈ c.present, d.services.entries.get? e.2.url = some true ∧ IsLeafOf name e.1) ∧
      ('\n' ∉ s.outerNamespace.toList → (∀ name ∈ m.exports, '\n' ∉ name.toList) →
        (∀ name ∈ m.exports, ∀ note ∈ s.overrides.commentedExports.get? name,
          '\n' ∉ note.toList) →
        splitLines m.text.toList =
          (Scope.draft ⟨d, s, key⟩ c).topLines s ++ pieceLines s.outerOpening ++
            (Scope.draft ⟨d, s, key⟩ c).innerLines ++
            ((if m.exports = [] then []
              else [] :: (m.exports.flatMap (s.bindingLines c.displayName)).map
                fun line => trimEnd line.toList) ++ [[]])) := by
  refine ⟨Scope.moduleFile ⟨d, s, key⟩ c, by rw [emitCategory, hc]; rfl,
    (exportedNames d.services c).sorted.imp utf8Bytes_lt, fun name => ?_, ?_⟩
  · show name ∈ exportedNames d.services c ↔ _
    rw [mem_exportedNames]
    simp only [ServiceIndex.isService_eq_true_iff, KeyPath.leaf_eq_iff]
  · intro hspace hnames hnotes
    have hline : ∀ name ∈ (Scope.draft ⟨d, s, key⟩ c).exports.toList,
        ∀ line ∈ s.bindingLines c.displayName name, '\n' ∉ line.toList := fun name hname =>
      Settings.lineFeed_not_mem_bindingLines hspace c.lineFeed_not_mem_displayName
        (hnames name hname) (hnotes name hname)
    show splitLines ((Scope.draft ⟨d, s, key⟩ c).text s).toList = _
    rw [Draft.splitLines_text, Draft.closingLines_eq hline]
    rfl

/-! ## One category -/

/-- A category in which two keys share their leaf, a URL is empty, one is mapped
to false and one is not in the index. -/
def paletteCategory : Category where
  name := some "Palette"
  declarations := ⟨[
    ("A.Color", some { kind := .enum, url := "color" }),
    ("B.Color", some { url := "hue" }),
    ("Gone", none),
    ("MimeType", some { url := "mime" }),
    ("Old", some { url := "old" }),
    ("Plain", some { url := "nowhere" }),
    ("Void", some {})], by decide⟩

def paletteDescription : Description where
  categories := ⟨[("palette", paletteCategory)], by decide⟩
  services := ⟨⟨[("", true), ("color", true), ("hue", true), ("mime", true), ("old", false)],
    by decide⟩⟩

/-- Three names are exported, and what follows the outer namespace are their
bindings, the second of them as a comment. -/
theorem palette_exports_bound :
    paletteDescription.category? "palette" = some paletteCategory ∧
      '\n' ∉ ({} : Settings).outerNamespace.toList ∧
      ∃ m, emitCategory paletteDescription {} "palette" = some m ∧
        m.exports = ["Color", "MimeType", "Void"] ∧
        m.exports.Pairwise (fun a b => utf8Bytes a < utf8Bytes b) ∧
        ∃ above, splitLines m.text.toList = above ++
          ([] :: ["declare var Color: GoogleAppsScript.Palette.Color;",
              "// conflicts with MimeType in lib.d.ts",
              "// declare var MimeType: GoogleAppsScript.Palette.MimeType;",
              "declare var Void: GoogleAppsScript.Palette.Void;"].map (trimEnd ·.toList) ++
            [[]]) := by
  have hc : paletteDescription.category? "palette" = some paletteCategory := by rfl
  have hspace : '\n' ∉ ({} : Settings).outerNamespace.toList := by decide
  obtain ⟨m, hm, hsorted, -, htext⟩ := exports_bound_in_order paletteDescription {} hc
  have hexports : m.exports = ["Color", "MimeType", "Void"] := by
    rw [emitCategory, hc] at hm
    obtain rfl := Option.some.inj hm
    decide
  have hbindings : ["Color", "MimeType", "Void"].flatMap
      (({} : Settings).bindingLines paletteCategory.displayName) =
        ["declare var Color: GoogleAppsScript.Palette.Color;",
          "// conflicts with MimeType in lib.d.ts",
          "// declare var MimeType: GoogleAppsScript.Palette.MimeType;",
          "declare var Void: GoogleAppsScript.Palette.Void;"] := by rfl
  have hlines := htext hspace (by rw [hexports]; decide) (by rw [hexports]; decide)
  rw [hexports, if_neg (by decide), hbindings] at hlines
  exact ⟨hc, hspace, m, hm, hexports, hsorted, _, hlines⟩

end Ambient
