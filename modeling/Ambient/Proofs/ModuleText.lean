import Ambient.Proofs.FinishedLines

/-!
# The text of a module, line by line

The parts of a draft become one text, and the text is finished; what is read
in the end are its lines.  `Draft.splitLines_text` lists them: the header, a
directive for each reference, an empty line, the two opening lines, the blocks,
the two closing braces, and what follows the outer namespace.

A piece that holds line feeds puts several lines into the text, so each part is
told by `pieceLines`.  Only behind the outer brace can lines be dropped: the
brace itself is not blank.
-/

namespace Ambient

open Text

/-! ## Pieces -/

theorem not_mem_toList_append {a b : String} {c : Char} (ha : c ∉ a.toList) (hb : c ∉ b.toList) :
    c ∉ (a ++ b).toList := by
  rw [String.toList_append, List.mem_append]
  exact fun h => h.elim ha hb

theorem getLast?_toList_append (a : String) {b : String} {c : Char}
    (h : b.toList.getLast? = some c) : (a ++ b).toList.getLast? = some c := by
  rw [String.toList_append, List.getLast?_append, h]
  rfl

theorem isVisibleLine_append {a b : String} (ha : '\n' ∉ a.toList) (hb : IsVisibleLine b.toList) :
    IsVisibleLine (a ++ b).toList := by
  rw [String.toList_append]
  exact hb.append ha

theorem isVisibleLine_openBrace : IsVisibleLine openBrace.toList :=
  ⟨by decide, '\x7b', rfl, rfl⟩

theorem isVisibleLine_closeBrace : IsVisibleLine closeBrace.toList :=
  ⟨by decide, '\x7d', rfl, rfl⟩

/-- The lines that a piece puts into a text: its own lines, each trimmed. -/
def pieceLines (piece : String) : List (List Char) :=
  (splitLines piece.toList).map trimEnd

theorem pieceLines_eq_singleton {piece : String} (h : IsVisibleLine piece.toList) :
    pieceLines piece = [piece.toList] := by
  rw [pieceLines, splitLines_of_not_mem h.noFeed, List.map_singleton, h.trimEnd_eq]

theorem pieceLines_empty : pieceLines "" = [[]] := rfl

theorem toList_intercalate_lineFeed (pieces : List String) :
    ("\n".intercalate pieces).toList = joinLines (pieces.map String.toList) := by
  simp [joinLines]

theorem map_splitLines_intercalate {pieces : List String} (h : pieces ≠ []) :
    (splitLines ("\n".intercalate pieces).toList).map trimEnd = pieces.flatMap pieceLines := by
  rw [toList_intercalate_lineFeed, splitLines_joinLines (by simpa using h), List.flatMap_map, List.map_flatMap]
  rfl

/-- A piece that ends in `v` puts `v` at the end of its last line. -/
theorem exists_pieceLine_suffix {piece : String} {u v : List Char} (h : piece.toList = u ++ v)
    (hv : IsVisibleLine v) : ∃ above k, pieceLines piece = above ++ [k ++ v] := by
  obtain ⟨above, k, hlines⟩ := exists_last_line u hv.noFeed
  have hlast : trimEnd (k ++ v) = k ++ v := by
    rw [trimEnd_append k (by rw [hv.trimEnd_eq]; exact hv.ne_nil), hv.trimEnd_eq]
  refine ⟨above.map trimEnd, k, ?_⟩
  rw [pieceLines, h, hlines, List.map_append, List.map_singleton, hlast]

theorem exists_pieceLine_prefix {piece : String} {u w : List Char} (h : piece.toList = u ++ w)
    (hu : IsVisibleLine u) : ∃ l rest, pieceLines piece = l :: rest ∧ u <+: l := by
  obtain ⟨first, hf, rfl | ⟨below, rfl⟩⟩ := exists_first_line w
  · refine ⟨_, [], ?_, prefix_trimEnd w hu⟩
    rw [pieceLines, h, splitLines_of_not_mem (by simp [hu.noFeed, hf]), List.map_singleton]
  · have hline : splitLines (u ++ first) = [u ++ first] :=
      splitLines_of_not_mem (by simp [hu.noFeed, hf])
    refine ⟨_, (splitLines below).map trimEnd, ?_, prefix_trimEnd first hu⟩
    rw [pieceLines, h, ← List.append_assoc, splitLines_append, hline, List.map_append,
      List.map_singleton, List.singleton_append]

/-! ## The parts of a module -/

/-- The lines that some lines of a declaration put into the text, where they
stand inside two namespaces. -/
def insideLines (lines : List String) : List (List Char) :=
  (lines.map indent).flatMap pieceLines

theorem insideLines_append (lines more : List String) :
    insideLines (lines ++ more) = insideLines lines ++ insideLines more := by
  simp only [insideLines, List.map_append, List.flatMap_append]

def Block.textLines (b : Block) : List (List Char) :=
  insideLines b.lines

/-- The lines of the header in the text; an empty header puts none. -/
def Settings.headerLines (s : Settings) : List (List Char) :=
  if s.header = "" then [] else pieceLines s.header

def Settings.outerOpening (s : Settings) : String :=
  "declare namespace " ++ s.outerNamespace ++ openBrace

def innerOpening (displayName : String) : String :=
  "  namespace " ++ displayName ++ openBrace

/-- What follows the outer namespace in the text: an empty line and the
bindings, without the blank lines at the end, and nothing behind the last line
feed. -/
def Draft.closingLines (d : Draft) (s : Settings) : List (List Char) :=
  ([] :: (d.exports.toList.flatMap (d.binding s)).flatMap pieceLines).rdropWhile List.isEmpty ++
    [[]]

/-- The lines above the outer namespace: the header, the directives and an empty line. -/
def Draft.topLines (d : Draft) (s : Settings) : List (List Char) :=
  s.headerLines ++ (d.references.keys.map s.directive).flatMap pieceLines ++ [[]]

/-- The lines inside the outer namespace, with the brace that closes it. -/
def Draft.innerLines (d : Draft) : List (List Char) :=
  pieceLines (innerOpening d.displayName) ++ d.blocks.flatMap Block.textLines ++
    [("  " ++ closeBrace).toList, closeBrace.toList]

theorem Draft.flatMap_lines (d : Draft) (s : Settings) :
    (d.lines s).flatMap pieceLines =
      d.topLines s ++ pieceLines s.outerOpening ++ d.innerLines ++
        ([] :: (d.exports.toList.flatMap (d.binding s)).flatMap pieceLines) := by
  have hinner : pieceLines ("  " ++ closeBrace) = [("  " ++ closeBrace).toList] :=
    pieceLines_eq_singleton (isVisibleLine_append (by decide) isVisibleLine_closeBrace)
  have houter : pieceLines closeBrace = [closeBrace.toList] :=
    pieceLines_eq_singleton isVisibleLine_closeBrace
  have hheader : (if s.header = "" then [] else [s.header]).flatMap pieceLines = s.headerLines := by
    unfold Settings.headerLines
    split <;> simp
  have hblocks : (fun b : Block => (b.lines.map indent).flatMap pieceLines) = Block.textLines := rfl
  -- `unfold` asks for no equation lemmas, whose making would evaluate the literals.
  unfold Draft.lines Draft.body Draft.topLines Draft.innerLines Settings.outerOpening innerOpening
  simp only [List.flatMap_append, List.flatMap_cons, hheader, hinner, houter,
    pieceLines_empty, List.flatMap_assoc, hblocks, List.append_assoc, List.nil_append,
    List.cons_append]

theorem Draft.lines_ne_nil (d : Draft) (s : Settings) : d.lines s ≠ [] := by
  simp [Draft.lines, Draft.body]

theorem Draft.exists_innerLines (d : Draft) :
    ∃ above, d.innerLines = above ++ [closeBrace.toList] :=
  ⟨_, (List.append_assoc _ [("  " ++ closeBrace).toList] _).symm⟩

/-- A module is not blank: it has the brace that closes the outer namespace. -/
theorem Draft.exists_visible_line (d : Draft) (s : Settings) :
    ∃ l ∈ splitLines ("\n".intercalate (d.lines s)).toList, trimEnd l ≠ [] := by
  obtain ⟨above, habove⟩ := d.exists_innerLines
  have hmem : closeBrace.toList ∈
      (splitLines ("\n".intercalate (d.lines s)).toList).map trimEnd := by
    rw [map_splitLines_intercalate (d.lines_ne_nil s), d.flatMap_lines s, habove]
    simp
  obtain ⟨l, hl, heq⟩ := List.mem_map.mp hmem
  exact ⟨l, hl, by rw [heq]; simp [closeBrace]⟩

/-- **The lines of a module.** -/
theorem Draft.splitLines_text (d : Draft) (s : Settings) :
    splitLines (d.text s).toList =
      d.topLines s ++ pieceLines s.outerOpening ++ d.innerLines ++ d.closingLines s := by
  have hbrace : List.isEmpty closeBrace.toList = false := rfl
  obtain ⟨above, habove⟩ := d.exists_innerLines
  rw [Draft.text, String.toList_ofList, splitLines_finish (d.exists_visible_line s),
    map_splitLines_intercalate (d.lines_ne_nil s), d.flatMap_lines s, habove, ← List.append_assoc,
    List.append_assoc, List.singleton_append, rdropWhile_append_cons _ _ hbrace]
  simp [Draft.closingLines]

end Ambient
