import Ambient.Proofs.Paragraphs
import Mathlib.Data.List.Chain

/-!
# Tidied documentation

What the block of a declaration shows of its text (`docBlock_keeps_text`): the
lines that hold more than white space, in order and up to white space at their
ends; between two of them at most one blank line, and one exactly if there was
one; no white space at the end.

From the second line on no two blank lines follow each other
(`noBlankPair_tidyLines`).  Lines of which that is true are left as they are by
tidying (`collapseBlanks_of_noBlankPair`), so tidying twice is tidying once.  At
the start two blank lines may stay: a run there ends in front of a text line but
begins behind none, so with two blank lines it has only two line breaks.
-/

namespace Ambient

open Text

/-! ## No two blank lines -/

/-- No blank line follows another one. -/
def NoBlankPair (lines : List (List Char)) : Prop :=
  lines.IsChain fun a b => ¬ (isBlankLine a = true ∧ isBlankLine b = true)

namespace NoBlankPair

theorem append {ls ks : List (List Char)} (hls : NoBlankPair ls) (hks : NoBlankPair ks)
    (hhead : ∀ k, ks.head? = some k → isBlankLine k = false) : NoBlankPair (ls ++ ks) := by
  refine List.isChain_append.mpr ⟨hls, hks, fun a _ b hb hpair => ?_⟩
  rw [hhead b hb] at hpair
  exact Bool.noConfusion hpair.2

theorem cons {l : List Char} {ls : List (List Char)} (hl : isBlankLine l = false)
    (hls : NoBlankPair ls) : NoBlankPair (l :: ls) := by
  refine List.isChain_cons.mpr ⟨fun b _ hpair => ?_, hls⟩
  rw [hl] at hpair
  exact Bool.noConfusion hpair.1

theorem of_length_le_one {ls : List (List Char)} (h : ls.length ≤ 1) : NoBlankPair ls := by
  match ls, h with
  | [], _ => exact .nil
  | [l], _ => exact .singleton l

theorem length_le_one {ls : List (List Char)} (h : NoBlankPair ls)
    (hblank : ∀ l ∈ ls, isBlankLine l = true) : ls.length ≤ 1 := by
  match ls, h with
  | [], _ => exact Nat.zero_le 1
  | [l], _ => exact le_refl 1
  | a :: b :: ls, h =>
      exact absurd ⟨hblank a (by simp), hblank b (by simp)⟩ (List.isChain_cons_cons.mp h).1

end NoBlankPair

theorem noBlankPair_flatMap_tidy {ps : List Paragraph} (h : ∀ p ∈ ps, p.IsProper) :
    NoBlankPair (ps.flatMap Paragraph.tidy) ∧
      ∀ k, (ps.flatMap Paragraph.tidy).head? = some k → isBlankLine k = false := by
  induction ps with
  | nil => exact ⟨.nil, fun k hk => nomatch hk⟩
  | cons p ps ih =>
      obtain ⟨hp, hps⟩ := List.forall_mem_cons.mp h
      obtain ⟨hchain, hhead⟩ := ih hps
      obtain ⟨line, gap, htidy, -, hline, hgap, hlength⟩ := Paragraph.exists_tidy hp
      have hshort : NoBlankPair gap := .of_length_le_one (by omega)
      rw [List.flatMap_cons, htidy]
      refine ⟨(NoBlankPair.cons hline hshort).append hchain hhead, fun k hk => ?_⟩
      rw [← Option.some.inj hk]
      exact hline

/-- After tidying only the first two lines may both be blank. -/
theorem noBlankPair_collapseBlanks (lines : List (List Char)) :
    NoBlankPair (collapseBlanks lines).tail := by
  obtain ⟨-, hblanks, hlater⟩ := paragraphs_rebuild lines
  obtain ⟨hchain, hhead⟩ := noBlankPair_flatMap_tidy hlater
  obtain ⟨-, hlength⟩ := shortStart_spec hblanks
  rw [collapseBlanks_eq]
  cases hstart : shortStart (paragraphs lines).1 with
  | nil => exact List.IsChain.tail hchain
  | cons b rest =>
      rw [hstart, List.length_cons] at hlength
      exact (NoBlankPair.of_length_le_one (by omega)).append hchain hhead

/-- **Where no two blank lines follow each other behind the first line, nothing
is tidied.** -/
theorem collapseBlanks_of_noBlankPair {lines : List (List Char)} (h : NoBlankPair lines.tail) :
    collapseBlanks lines = lines := by
  obtain ⟨hlines, hblanks, hlater⟩ := paragraphs_rebuild lines
  have hstart : shortStart (paragraphs lines).1 = (paragraphs lines).1 := by
    refine if_neg fun hlong => ?_
    have hpre : (paragraphs lines).1.tail <+: lines.tail := by
      conv_rhs => rw [hlines]
      rw [List.tail_append_of_ne_nil (List.ne_nil_of_length_pos (by omega))]
      exact List.prefix_append _ _
    have hone := NoBlankPair.length_le_one ( List.IsChain.prefix h hpre)
      fun b hb => hblanks b (List.mem_of_mem_tail hb)
    rw [List.length_tail] at hone
    omega
  have htidy : ∀ p ∈ (paragraphs lines).2, p.tidy = p.lines := by
    intro p hp
    refine if_neg fun hlong => ?_
    -- The text line in front of the blank ones keeps these away from the first line.
    obtain ⟨above, below, hp'⟩ := List.append_of_mem hp
    have hinside : p.blanks <:+: lines.tail := by
      conv_rhs => rw [hlines, hp']
      rw [List.flatMap_append, List.flatMap_cons, Paragraph.lines, ← List.append_assoc,
        List.cons_append]
      cases (paragraphs lines).1 ++ above.flatMap Paragraph.lines with
      | nil => exact (List.prefix_append _ _).isInfix
      | cons k ks => exact ⟨ks ++ [p.line], below.flatMap Paragraph.lines, by simp⟩
    have hone := NoBlankPair.length_le_one ( List.IsChain.infix h hinside) (hlater p hp).blanks
    omega
  conv_rhs => rw [hlines]
  rw [collapseBlanks_eq, hstart, List.flatMap_congr htidy]

/-! ## The lines of a tidied text -/

theorem lineFeed_not_mem_collapseBlanks {doc : String} {l : List Char}
    (h : l ∈ collapseBlanks (splitLines doc.toList)) : '\n' ∉ l := by
  have hne : splitLines doc.toList ≠ [] := by simp [splitLines]
  obtain ⟨k, hk, hpre⟩ := prefix_of_mem_collapseBlanks hne h
  exact fun hmem => (mem_of_mem_splitOn hk).1 (hpre.subset hmem)

theorem noBlankPair_tidyLines (doc : String) : NoBlankPair (tidyLines doc).tail := by
  have hfeed : ∀ l ∈ collapseBlanks (splitLines doc.toList), '\n' ∉ l :=
    fun _ => lineFeed_not_mem_collapseBlanks
  have hchain := noBlankPair_collapseBlanks (splitLines doc.toList)
  rw [tidyLines_eq]
  rcases white_or_exists_last (collapseBlanks (splitLines doc.toList)) with
    hwhite | ⟨above, line, below, heq, hline, hbelow⟩
  · rw [trimLines_of_white hwhite]
    exact .nil
  · rw [heq] at hfeed hchain ⊢
    rw [trimLines_append_cons (fun l hl => hfeed l (List.mem_append_left _ hl))
      (hfeed line (by simp)) hline hbelow]
    cases above with
    | nil => exact .nil
    | cons k above =>
        have hvisible : isBlankLine (trimEnd line) = false :=
          isBlankLine_of_isWhiteLine ((isWhiteLine_trimEnd line).trans hline)
        refine NoBlankPair.append ( List.IsChain.prefix hchain (List.prefix_append _ _))
          (.singleton _) fun l hl => ?_
        rw [← Option.some.inj hl]
        exact hvisible

theorem visibleLines_tidyLines (doc : String) :
    visibleLines (tidyLines doc) = visibleLines (splitLines doc.toList) := by
  rw [tidyLines_eq, visibleLines_trimLines fun _ => lineFeed_not_mem_collapseBlanks,
    visibleLines_collapseBlanks]

theorem endsVisibly_of_getLast?_trimLines {lines : List (List Char)} (hfeed : ∀ l ∈ lines, '\n' ∉ l)
    {l : List Char} (h : (trimLines lines).getLast? = some l) : EndsVisibly l := by
  rcases white_or_exists_last lines with hwhite | ⟨above, line, below, rfl, hline, hbelow⟩
  · rw [trimLines_of_white hwhite] at h
    rw [← Option.some.inj h]
    exact fun c hc => nomatch hc
  · rw [trimLines_append_cons (fun l hl => hfeed l (List.mem_append_left _ hl))
      (hfeed line (by simp)) hline hbelow, List.getLast?_concat] at h
    rw [← Option.some.inj h]
    exact endsVisibly_trimEnd line

theorem exists_trimLines_cons {line : List Char} {below : List (List Char)}
    (hfeed : ∀ l ∈ line :: below, '\n' ∉ l) (h : ∃ l ∈ line :: below, isWhiteLine l = false) :
    ∃ first rest, trimLines (line :: below) = first :: rest ∧ trimEnd first = trimEnd line := by
  rcases white_or_exists_last (line :: below) with hwhite | ⟨above, last, white, heq, hlast, hwhite⟩
  · obtain ⟨l, hl, hvisible⟩ := h
    rw [hwhite l hl] at hvisible
    exact Bool.noConfusion hvisible
  · rw [heq] at hfeed ⊢
    rw [trimLines_append_cons (fun l hl => hfeed l (List.mem_append_left _ hl))
      (hfeed last (by simp)) hlast hwhite]
    cases above with
    | nil =>
        obtain ⟨rfl, -⟩ := List.cons_eq_cons.mp heq
        exact ⟨_, _, rfl, trimEnd_trimEnd line⟩
    | cons k above =>
        obtain ⟨rfl, -⟩ := List.cons_eq_cons.mp heq
        exact ⟨_, _, rfl, rfl⟩

/-- **Between two text lines** stays one blank line, if there was one or more. -/
theorem exists_gap_tidyLines {doc : String} {above blanks below : List (List Char)}
    {line next : List Char}
    (hdoc : splitLines doc.toList = above ++ line :: (blanks ++ next :: below))
    (hline : isBlankLine line = false) (hblanks : ∀ b ∈ blanks, isBlankLine b = true)
    (hnext : isBlankLine next = false) (hkept : ∃ l ∈ next :: below, isWhiteLine l = false) :
    ∃ above' line' gap next' below',
      tidyLines doc = above' ++ line' :: (gap ++ next' :: below') ∧
        visibleLines above' = visibleLines above ∧ trimEnd line' = trimEnd line ∧
        (∀ b ∈ gap, isBlankLine b = true) ∧ gap.length = min blanks.length 1 ∧
        trimEnd next' = trimEnd next := by
  have hproper : (⟨line, blanks⟩ : Paragraph).IsProper := ⟨hline, hblanks⟩
  have hnextProper : (⟨next, (paragraphs below).1⟩ : Paragraph).IsProper :=
    ⟨hnext, (paragraphs_rebuild below).2.1⟩
  obtain ⟨line', gap, htidy, htrim, -, hgap, hlength⟩ := Paragraph.exists_tidy hproper
  -- The text behind the gap, and its first line.
  obtain ⟨first, firstGap, hfirst, hfirstTrim, -⟩ := Paragraph.exists_tidy hnextProper
  have hbehind := collapseBlanks_cons hnext below
  rw [hfirst] at hbehind
  have hwhole := collapseBlanks_append_paragraph hline hblanks hnext above below
  rw [← hdoc, htidy] at hwhole
  have hfeed : ∀ l ∈ (collapseBlanks above ++ line' :: gap) ++ collapseBlanks (next :: below),
      '\n' ∉ l := fun l hl => lineFeed_not_mem_collapseBlanks (hwhole ▸ hl)
  have hbelowFeed : ∀ l ∈ collapseBlanks (next :: below), '\n' ∉ l :=
    fun l hl => hfeed l (List.mem_append_right _ hl)
  have hvisible := exists_visible_collapseBlanks hkept
  obtain ⟨next', below', hnext', hnextTrim⟩ :
      ∃ next' below', trimLines (collapseBlanks (next :: below)) = next' :: below' ∧
        trimEnd next' = trimEnd first := by
    rw [hbehind, List.cons_append] at hbelowFeed hvisible ⊢
    exact exists_trimLines_cons hbelowFeed hvisible
  refine ⟨collapseBlanks above, line', gap, next', below', ?_, visibleLines_collapseBlanks above,
    htrim, hgap, hlength, hnextTrim.trans hfirstTrim⟩
  rw [tidyLines_eq, hwhole,
    trimLines_append (fun l hl => hfeed l (List.mem_append_left _ hl)) hbelowFeed hvisible, hnext',
    List.append_assoc, List.cons_append]

theorem tidyLines_tidyLines (doc : String) :
    tidyLines (String.ofList (joinLines (tidyLines doc))) = tidyLines doc := by
  have hne : tidyLines doc ≠ [] := by simp [tidyLines, splitLines]
  have hfeed : ∀ l ∈ tidyLines doc, '\n' ∉ l := fun l hl => (mem_of_mem_splitOn hl).1
  have hsplit : splitLines (joinLines (tidyLines doc)) = tidyLines doc :=
    List.splitOn_intercalate _ hfeed hne
  have htrimmed : trimLines (tidyLines doc) = tidyLines doc := by
    rw [tidyLines_eq, trimLines, trimLines, joinLines_splitLines, trimEnd_trimEnd]
  rw [tidyLines_eq (String.ofList _), String.toList_ofList, hsplit,
    collapseBlanks_of_noBlankPair (noBlankPair_tidyLines doc), htrimmed]

/-! ## The block of a declaration -/

/-- The lines of a block between its first and its last one, without what stands
in front of each of them. -/
def contentLines (lines : List String) : List (List Char) :=
  lines.tail.dropLast.map fun line => line.toList.drop " * ".length

theorem contentLines_block (lines : List String) :
    contentLines (block lines) = lines.map String.toList := by
  have hinner : (block lines).tail.dropLast = lines.map (" * " ++ ·) := by
    rw [block, List.append_assoc, List.singleton_append, List.tail_cons]
    exact List.dropLast_concat
  rw [contentLines, hinner, List.map_map]
  refine List.map_congr_left fun line _ => ?_
  show (" * " ++ line).toList.drop " * ".length = line.toList
  rw [String.toList_append]
  exact List.drop_left

/-- What the content of a block keeps of the lines of a text. -/
structure KeepsText (lines content : List (List Char)) : Prop where
  /-- The lines that hold more than white space are kept, in order and up to white
  space at their ends. -/
  visible : visibleLines content = visibleLines lines
  /-- From the second line on no two blank lines follow each other. -/
  noBlankPair : content.tail.IsChain fun a b => ¬ (isBlankLine a = true ∧ isBlankLine b = true)
  /-- Between two lines that hold more than spaces stays one blank line, if there
  was any, as far as the text is not trimmed away. -/
  gap : ∀ above line blanks next below, lines = above ++ line :: (blanks ++ next :: below) →
    isBlankLine line = false → (∀ b ∈ blanks, isBlankLine b = true) → isBlankLine next = false →
    (∃ l ∈ next :: below, isWhiteLine l = false) →
    ∃ above' line' gap next' below', content = above' ++ line' :: (gap ++ next' :: below') ∧
      visibleLines above' = visibleLines above ∧ trimEnd line' = trimEnd line ∧
      (∀ b ∈ gap, isBlankLine b = true) ∧ gap.length = min blanks.length 1 ∧
      trimEnd next' = trimEnd next
  /-- The last line does not end in white space. -/
  last : ∀ line, content.getLast? = some line → EndsVisibly line

/-- **The block of a declaration keeps its text**, and its content has the same
block as the text. -/
theorem docBlock_keeps_text (doc : String) :
    docBlock doc = block ((contentLines (docBlock doc)).map String.ofList) ∧
      KeepsText (splitLines doc.toList) (contentLines (docBlock doc)) ∧
      docBlock (String.ofList (joinLines (contentLines (docBlock doc)))) = docBlock doc := by
  have hcontent : contentLines (docBlock doc) = tidyLines doc := by
    rw [docBlock, contentLines_block, List.map_map]
    exact (List.map_congr_left fun l _ => String.toList_ofList).trans (List.map_id _)
  rw [hcontent]
  refine ⟨rfl, ⟨visibleLines_tidyLines doc, noBlankPair_tidyLines doc, ?_, ?_⟩, ?_⟩
  · intro above line blanks next below hdoc hline hblanks hnext hkept
    exact exists_gap_tidyLines hdoc hline hblanks hnext hkept
  · intro line hline
    rw [tidyLines_eq] at hline
    exact endsVisibly_of_getLast?_trimLines (fun _ => lineFeed_not_mem_collapseBlanks) hline
  · rw [docBlock, tidyLines_tidyLines]
    rfl

/-- A text with a run that begins behind spaces and ends in front of a tab, and
one at its end. -/
def noteDoc : String :=
  "One  \n \n\n\tTwo\n\n\t\n"

/-- Of the two blank lines between the lines of that text one stays. -/
theorem noteDoc_keeps_text :
    splitLines noteDoc.toList =
        [] ++ "One  ".toList :: ([[' '], []] ++ "\tTwo".toList :: [[], ['\t'], []]) ∧
      docBlock noteDoc = ["/**", " * One", " * ", " * \tTwo", " */"] ∧
      ∃ above line gap next below,
        contentLines (docBlock noteDoc) = above ++ line :: (gap ++ next :: below) ∧
        trimEnd line = "One".toList ∧ gap.length = 1 ∧ trimEnd next = "\tTwo".toList := by
  have hsplit : splitLines noteDoc.toList =
      [] ++ "One  ".toList :: ([[' '], []] ++ "\tTwo".toList :: [[], ['\t'], []]) := by
    decide +kernel
  obtain ⟨-, hkeeps, -⟩ := docBlock_keeps_text noteDoc
  obtain ⟨above, line, gap, next, below, hcontent, -, hline, -, hlength, hnext⟩ :=
    hkeeps.gap _ _ _ _ _ hsplit (by decide) (by decide) (by decide) (by decide +kernel)
  refine ⟨hsplit, by decide +kernel, above, line, gap, next, below, hcontent, ?_, hlength, ?_⟩
  · rw [hline]
    decide +kernel
  · rw [hnext]
    decide +kernel

end Ambient
