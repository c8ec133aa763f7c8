import Ambient.DocBlock
import Ambient.Proofs.NormalForm

/-!
# Paragraphs of a documentation

The lines of a text are its blank lines at the start and then its paragraphs:
each a text line with the blank lines behind it (`paragraphs_rebuild`).  Tidying
works on each paragraph alone, so a text can be cut in front of any text line
(`collapseBlanks_append`), and what it leaves of a paragraph is the text line and
at most one blank line (`Paragraph.exists_tidy`).

Behind that the whole text is trimmed at its end, which drops the white lines
there and trims the last line that is kept (`trimLines_append_cons`).
-/

namespace Ambient

open Text

/-! ## White lines

A blank line holds spaces only; a white line holds any white space.  Runs are
made of blank lines, and the end of the text is trimmed of white ones. -/

def isWhiteLine (line : List Char) : Bool :=
  line.all isBlank

theorem isWhiteLine_of_isBlankLine {line : List Char} (h : isBlankLine line = true) :
    isWhiteLine line = true := by
  refine List.all_eq_true.mpr fun c hc => ?_
  rw [eq_of_beq (List.all_eq_true.mp h c hc)]
  decide

theorem isBlankLine_of_isWhiteLine {line : List Char} (h : isWhiteLine line = false) :
    isBlankLine line = false := by
  cases hblank : isBlankLine line with
  | false => rfl
  | true => rw [isWhiteLine_of_isBlankLine hblank] at h; exact Bool.noConfusion h

theorem trimEnd_eq_nil_iff {line : List Char} : trimEnd line = [] ↔ isWhiteLine line = true := by
  rw [isWhiteLine, List.all_eq_true]
  exact List.rdropWhile_eq_nil_iff

theorem trimEnd_append_of_white {cs ds : List Char} (h : isWhiteLine ds = true) :
    trimEnd (cs ++ ds) = trimEnd cs := by
  induction ds using List.reverseRecOn with
  | nil => rw [List.append_nil]
  | append_singleton ds c ih =>
      have hall := List.all_eq_true.mp h
      rw [← List.append_assoc, trimEnd_concat_blank _ (hall c (by simp))]
      exact ih (List.all_eq_true.mpr fun d hd => hall d (List.mem_append_left _ hd))

theorem isWhiteLine_trimEnd (line : List Char) : isWhiteLine (trimEnd line) = isWhiteLine line := by
  rw [Bool.eq_iff_iff, ← trimEnd_eq_nil_iff, ← trimEnd_eq_nil_iff, trimEnd_trimEnd]

/-- A line is the line without the spaces at its end, and spaces. -/
theorem exists_trimSpaces (line : List Char) :
    ∃ spaces, line = trimSpaces line ++ spaces ∧ isBlankLine spaces = true :=
  ⟨line.rtakeWhile (· == ' '), List.rdropWhile_append_rtakeWhile.symm,
    List.all_eq_true.mpr fun _ hc => by simpa using List.mem_rtakeWhile_imp hc⟩

theorem getLast?_trimSpaces_ne (line : List Char) : (trimSpaces line).getLast? ≠ some ' ' := by
  intro hspace
  have hne : trimSpaces line ≠ [] := List.ne_nil_of_mem (List.mem_of_getLast? hspace)
  rw [List.getLast?_eq_some_getLast hne] at hspace
  exact List.rdropWhile_last_not (· == ' ') line hne (beq_iff_eq.mpr (Option.some.inj hspace))

theorem trimEnd_trimSpaces (line : List Char) : trimEnd (trimSpaces line) = trimEnd line := by
  obtain ⟨spaces, hline, hspaces⟩ := exists_trimSpaces line
  conv_rhs => rw [hline, trimEnd_append_of_white (isWhiteLine_of_isBlankLine hspaces)]

/-- The lines that hold more than white space, each without the white space at
its end. -/
def visibleLines (lines : List (List Char)) : List (List Char) :=
  (lines.filter fun line => !isWhiteLine line).map trimEnd

theorem visibleLines_append (ls ks : List (List Char)) :
    visibleLines (ls ++ ks) = visibleLines ls ++ visibleLines ks := by
  rw [visibleLines, List.filter_append, List.map_append]
  rfl

theorem visibleLines_of_white {ls : List (List Char)} (h : ∀ l ∈ ls, isWhiteLine l = true) :
    visibleLines ls = [] := by
  rw [visibleLines, List.filter_eq_nil_iff.mpr fun l hl => by simp [h l hl], List.map_nil]

theorem visibleLines_cons_white (line : List Char) {ls : List (List Char)}
    (h : ∀ l ∈ ls, isWhiteLine l = true) : visibleLines (line :: ls) = visibleLines [line] := by
  rw [← List.singleton_append, visibleLines_append, visibleLines_of_white h, List.append_nil]

theorem visibleLines_singleton_congr {line other : List Char} (h : trimEnd line = trimEnd other) :
    visibleLines [line] = visibleLines [other] := by
  have hwhite : isWhiteLine line = isWhiteLine other := by
    rw [← isWhiteLine_trimEnd line, h, isWhiteLine_trimEnd]
  unfold visibleLines
  rw [List.filter_singleton, List.filter_singleton, hwhite]
  cases isWhiteLine other with
  | true => rfl
  | false => exact congrArg (fun l => [l]) h

/-! ## Paragraphs -/

def Paragraph.lines (p : Paragraph) : List (List Char) :=
  p.line :: p.blanks

/-- The line of a paragraph holds more than spaces, and those behind it do not. -/
structure Paragraph.IsProper (p : Paragraph) : Prop where
  line : isBlankLine p.line = false
  blanks : ∀ b ∈ p.blanks, isBlankLine b = true

theorem paragraphs_cons_of_blank {line : List Char} (h : isBlankLine line = true)
    (lines : List (List Char)) :
    paragraphs (line :: lines) = (line :: (paragraphs lines).1, (paragraphs lines).2) :=
  if_pos h

theorem paragraphs_cons {line : List Char} (h : isBlankLine line = false)
    (lines : List (List Char)) :
    paragraphs (line :: lines) = ([], ⟨line, (paragraphs lines).1⟩ :: (paragraphs lines).2) :=
  if_neg (Bool.eq_false_iff.mp h)

/-- **Nothing is lost**: the lines are the blank ones at the start and those of
the paragraphs, and each of these is proper. -/
theorem paragraphs_rebuild (lines : List (List Char)) :
    lines = (paragraphs lines).1 ++ (paragraphs lines).2.flatMap Paragraph.lines ∧
      (∀ b ∈ (paragraphs lines).1, isBlankLine b = true) ∧
      ∀ p ∈ (paragraphs lines).2, p.IsProper := by
  induction lines with
  | nil => exact ⟨rfl, by simp [paragraphs], by simp [paragraphs]⟩
  | cons line lines ih =>
      obtain ⟨hlines, hblanks, hlater⟩ := ih
      cases hline : isBlankLine line with
      | true =>
          rw [paragraphs_cons_of_blank hline]
          refine ⟨congrArg (line :: ·) hlines, ?_, hlater⟩
          exact List.forall_mem_cons.mpr ⟨hline, hblanks⟩
      | false =>
          rw [paragraphs_cons hline]
          refine ⟨congrArg (line :: ·) hlines, List.forall_mem_nil _, ?_⟩
          exact List.forall_mem_cons.mpr ⟨⟨hline, hblanks⟩, hlater⟩

/-- In front of a text line a text can be cut. -/
theorem paragraphs_append {line : List Char} (h : isBlankLine line = false)
    (above below : List (List Char)) :
    paragraphs (above ++ line :: below) =
      ((paragraphs above).1, (paragraphs above).2 ++ (paragraphs (line :: below)).2) := by
  induction above with
  | nil => rw [List.nil_append, paragraphs_cons h]; rfl
  | cons k above ih =>
      rw [List.cons_append]
      cases hk : isBlankLine k with
      | true => rw [paragraphs_cons_of_blank hk, paragraphs_cons_of_blank hk, ih]
      | false => rw [paragraphs_cons hk, paragraphs_cons hk, ih, List.cons_append]

/-- Blank lines go to what is in front of them. -/
theorem paragraphs_blanks_append {blanks : List (List Char)}
    (h : ∀ b ∈ blanks, isBlankLine b = true) (below : List (List Char)) :
    paragraphs (blanks ++ below) =
      (blanks ++ (paragraphs below).1, (paragraphs below).2) := by
  induction blanks with
  | nil => rfl
  | cons b blanks ih =>
      obtain ⟨hb, hblanks⟩ := List.forall_mem_cons.mp h
      rw [List.cons_append, paragraphs_cons_of_blank hb, ih hblanks, List.cons_append]

/-! ## Tidying -/

/-- **What tidying leaves of a paragraph**: its text line, perhaps without
spaces at the end, and one blank line if there was any. -/
theorem Paragraph.exists_tidy {p : Paragraph} (h : p.IsProper) :
    ∃ line gap, p.tidy = line :: gap ∧ trimEnd line = trimEnd p.line ∧
      isBlankLine line = false ∧ (∀ b ∈ gap, isBlankLine b = true) ∧
      gap.length = min p.blanks.length 1 := by
  unfold tidy
  split
  · rename_i hlong
    refine ⟨trimSpaces p.line, [[]], rfl, trimEnd_trimSpaces p.line, ?_, ?_, ?_⟩
    · obtain ⟨spaces, hline, hspaces⟩ := exists_trimSpaces p.line
      cases hblank : isBlankLine (trimSpaces p.line) with
      | false => rfl
      | true =>
          have hall : isBlankLine p.line = true := by
            rw [hline, isBlankLine, List.all_append]
            exact Bool.and_eq_true_iff.mpr ⟨hblank, hspaces⟩
          rw [h.line] at hall
          exact Bool.noConfusion hall
    · exact List.forall_mem_singleton.mpr rfl
    · rw [List.length_singleton]
      omega
  · rename_i hshort
    exact ⟨p.line, p.blanks, rfl, rfl, h.line, h.blanks, by omega⟩

/-- The blank lines at the start as tidying leaves them. -/
def shortStart (blanks : List (List Char)) : List (List Char) :=
  if 3 ≤ blanks.length then [[], []] else blanks

theorem collapseBlanks_eq (lines : List (List Char)) :
    collapseBlanks lines =
      shortStart (paragraphs lines).1 ++ (paragraphs lines).2.flatMap Paragraph.tidy :=
  rfl

theorem shortStart_spec {blanks : List (List Char)} (h : ∀ b ∈ blanks, isBlankLine b = true) :
    (∀ b ∈ shortStart blanks, isBlankLine b = true) ∧ (shortStart blanks).length ≤ 2 := by
  unfold shortStart
  split
  · exact ⟨by simp [isBlankLine], le_refl 2⟩
  · exact ⟨h, by omega⟩

/-- **Tidying works on what is in front of a text line and behind it apart.** -/
theorem collapseBlanks_append {line : List Char} (h : isBlankLine line = false)
    (above below : List (List Char)) :
    collapseBlanks (above ++ line :: below) =
      collapseBlanks above ++ collapseBlanks (line :: below) := by
  have hstart : (paragraphs (line :: below)).1 = [] := by rw [paragraphs_cons h]
  rw [collapseBlanks_eq, collapseBlanks_eq, collapseBlanks_eq, paragraphs_append h, hstart,
    List.flatMap_append, ← List.append_assoc]
  rfl

theorem collapseBlanks_cons {line : List Char} (h : isBlankLine line = false)
    (below : List (List Char)) :
    collapseBlanks (line :: below) =
      Paragraph.tidy ⟨line, (paragraphs below).1⟩ ++
        (paragraphs below).2.flatMap Paragraph.tidy := by
  rw [collapseBlanks_eq, paragraphs_cons h, List.flatMap_cons]
  rfl

theorem collapseBlanks_append_paragraph {line next : List Char} {blanks : List (List Char)}
    (hline : isBlankLine line = false) (hblanks : ∀ b ∈ blanks, isBlankLine b = true)
    (hnext : isBlankLine next = false) (above below : List (List Char)) :
    collapseBlanks (above ++ line :: (blanks ++ next :: below)) =
      (collapseBlanks above ++ Paragraph.tidy ⟨line, blanks⟩) ++
        collapseBlanks (next :: below) := by
  have hstart : (paragraphs (next :: below)).1 = [] := by rw [paragraphs_cons hnext]
  have hrest : (paragraphs (next :: below)).2.flatMap Paragraph.tidy =
      collapseBlanks (next :: below) := by
    rw [collapseBlanks_eq, hstart]
    rfl
  rw [collapseBlanks_append hline, collapseBlanks_cons hline, paragraphs_blanks_append hblanks,
    hstart, List.append_nil, hrest, List.append_assoc]

theorem visibleLines_flatMap_tidy {ps : List Paragraph} (h : ∀ p ∈ ps, p.IsProper) :
    visibleLines (ps.flatMap Paragraph.tidy) = visibleLines (ps.flatMap Paragraph.lines) := by
  induction ps with
  | nil => rfl
  | cons p ps ih =>
      obtain ⟨hp, hps⟩ := List.forall_mem_cons.mp h
      obtain ⟨line, gap, htidy, htrim, -, hgap, -⟩ := Paragraph.exists_tidy hp
      have hline : visibleLines p.tidy = visibleLines p.lines := by
        rw [htidy, Paragraph.lines,
          visibleLines_cons_white line fun b hb => isWhiteLine_of_isBlankLine (hgap b hb),
          visibleLines_cons_white p.line fun b hb => isWhiteLine_of_isBlankLine (hp.blanks b hb),
          visibleLines_singleton_congr htrim]
      rw [List.flatMap_cons, List.flatMap_cons, visibleLines_append, visibleLines_append, ih hps,
        hline]

/-- Tidying changes nothing of the text but the white space at the ends of lines. -/
theorem visibleLines_collapseBlanks (lines : List (List Char)) :
    visibleLines (collapseBlanks lines) = visibleLines lines := by
  obtain ⟨hlines, hblanks, hlater⟩ := paragraphs_rebuild lines
  have hstart : visibleLines (shortStart (paragraphs lines).1) = [] :=
    visibleLines_of_white fun b hb =>
      isWhiteLine_of_isBlankLine ((shortStart_spec hblanks).1 b hb)
  have hbefore : visibleLines (paragraphs lines).1 = [] :=
    visibleLines_of_white fun b hb => isWhiteLine_of_isBlankLine (hblanks b hb)
  conv_rhs => rw [hlines]
  rw [collapseBlanks_eq, visibleLines_append, visibleLines_append, hstart, hbefore,
    visibleLines_flatMap_tidy hlater]

theorem exists_visible_collapseBlanks {lines : List (List Char)}
    (h : ∃ l ∈ lines, isWhiteLine l = false) :
    ∃ l ∈ collapseBlanks lines, isWhiteLine l = false := by
  by_contra hnone
  have hwhite : ∀ l ∈ collapseBlanks lines, isWhiteLine l = true := by simpa using hnone
  have hempty : visibleLines lines = [] := by
    rw [← visibleLines_collapseBlanks, visibleLines_of_white hwhite]
  rw [visibleLines, List.map_eq_nil_iff, List.filter_eq_nil_iff] at hempty
  obtain ⟨l, hl, hvisible⟩ := h
  exact hempty l hl (by simp [hvisible])

theorem prefix_of_mem_collapseBlanks {lines : List (List Char)} {l : List Char}
    (hne : lines ≠ []) (h : l ∈ collapseBlanks lines) : ∃ k ∈ lines, l <+: k := by
  obtain ⟨k, hk⟩ := List.exists_mem_of_ne_nil lines hne
  have hsame : ∀ l ∈ lines, ∃ k ∈ lines, l <+: k := fun l hl => ⟨l, hl, List.prefix_rfl⟩
  have hempty : ∃ k ∈ lines, [] <+: k := ⟨k, hk, List.nil_prefix⟩
  obtain ⟨hlines, -, -⟩ := paragraphs_rebuild lines
  have hstart : ∀ b ∈ (paragraphs lines).1, b ∈ lines := fun b hb =>
    hlines ▸ List.mem_append_left _ hb
  have hlater : ∀ p ∈ (paragraphs lines).2, ∀ b ∈ p.lines, b ∈ lines := fun p hp b hb =>
    hlines ▸ List.mem_append_right _ (List.mem_flatMap_of_mem hp hb)
  rw [collapseBlanks_eq] at h
  rcases List.mem_append.mp h with h | h
  · unfold shortStart at h
    split at h
    · obtain rfl : l = [] := by simpa using h
      exact hempty
    · exact hsame l (hstart l h)
  · obtain ⟨p, hp, hl⟩ := List.mem_flatMap.mp h
    unfold Paragraph.tidy at hl
    split at hl
    · rcases List.mem_cons.mp hl with rfl | hl
      · exact ⟨p.line, hlater p hp _ List.mem_cons_self, List.rdropWhile_prefix _ _⟩
      · exact List.mem_singleton.mp hl ▸ hempty
    · exact hsame l (hlater p hp l hl)

/-! ## Trimming at the end -/

theorem joinLines_cons (l : List Char) (ls : List (List Char)) :
    joinLines (l :: ls) = l ++ ls.flatMap ('\n' :: ·) := by
  induction ls generalizing l with
  | nil => simp [joinLines]
  | cons k ls ih =>
      rw [List.flatMap_cons, List.cons_append, ← ih k, ← List.singleton_append,
        joinLines_append (List.cons_ne_nil _ _) (List.cons_ne_nil _ _)]
      simp [joinLines]

def trimLines (lines : List (List Char)) : List (List Char) :=
  splitLines (trimEnd (joinLines lines))

theorem tidyLines_eq (doc : String) :
    tidyLines doc = trimLines (collapseBlanks (splitLines doc.toList)) :=
  rfl

theorem trimLines_of_white {lines : List (List Char)} (h : ∀ l ∈ lines, isWhiteLine l = true) :
    trimLines lines = [[]] := by
  have hjoined : trimEnd (joinLines lines) = [] := by
    induction lines using List.reverseRecOn with
    | nil => rfl
    | append_singleton lines l ih =>
        have hl : isWhiteLine l = true := h l (by simp)
        by_cases hlines : lines = []
        · subst hlines
          simpa [joinLines] using trimEnd_eq_nil_iff.mpr hl
        · have hfeed : isWhiteLine ('\n' :: l) = true := hl
          rw [joinLines_concat l hlines, trimEnd_append_of_white hfeed]
          exact ih fun k hk => h k (List.mem_append_left _ hk)
  rw [trimLines, hjoined]
  rfl

/-- **Trimming cuts behind the last line that is not white, and trims that line.** -/
theorem trimLines_append_cons {above below : List (List Char)} {line : List Char}
    (habove : ∀ l ∈ above, '\n' ∉ l) (hfeed : '\n' ∉ line) (hline : isWhiteLine line = false)
    (hbelow : ∀ l ∈ below, isWhiteLine l = true) :
    trimLines (above ++ line :: below) = above ++ [trimEnd line] := by
  have htrimmed : trimEnd (joinLines (above ++ line :: below)) =
      joinLines (above ++ [trimEnd line]) := by
    induction below using List.reverseRecOn with
    | nil =>
        have hne : trimEnd line ≠ [] := by
          rw [ne_eq, trimEnd_eq_nil_iff, hline]
          exact Bool.false_ne_true
        by_cases hnil : above = []
        · subst hnil
          simp [joinLines]
        · rw [joinLines_concat _ hnil, joinLines_concat _ hnil, ← List.singleton_append,
            ← List.append_assoc, trimEnd_append _ hne, List.append_assoc, List.singleton_append]
    | append_singleton below l ih =>
        have hwhite : isWhiteLine ('\n' :: l) = true := hbelow l (by simp)
        rw [← List.cons_append, ← List.append_assoc, joinLines_concat _ (by simp),
          trimEnd_append_of_white hwhite]
        exact ih fun k hk => hbelow k (List.mem_append_left _ hk)
  have hnofeed : ∀ l ∈ above ++ [trimEnd line], '\n' ∉ l := by
    intro l hl
    rcases List.mem_append.mp hl with hl | hl
    · exact habove l hl
    · rw [List.mem_singleton.mp hl]
      exact fun hmem => hfeed ((List.rdropWhile_prefix _ _).subset hmem)
  rw [trimLines, htrimmed]
  exact List.splitOn_intercalate _ hnofeed (by simp)

theorem white_or_exists_last (lines : List (List Char)) :
    (∀ l ∈ lines, isWhiteLine l = true) ∨
      ∃ above line below, lines = above ++ line :: below ∧ isWhiteLine line = false ∧
        ∀ l ∈ below, isWhiteLine l = true := by
  induction lines with
  | nil => exact .inl (List.forall_mem_nil _)
  | cons k lines ih =>
      rcases ih with hwhite | ⟨above, line, below, rfl, hline, hbelow⟩
      · cases hk : isWhiteLine k with
        | true => exact .inl (List.forall_mem_cons.mpr ⟨hk, hwhite⟩)
        | false => exact .inr ⟨[], k, lines, rfl, hk, hwhite⟩
      · exact .inr ⟨k :: above, line, below, rfl, hline, hbelow⟩

theorem trimLines_append {above below : List (List Char)} (habove : ∀ l ∈ above, '\n' ∉ l)
    (hbelow : ∀ l ∈ below, '\n' ∉ l) (h : ∃ l ∈ below, isWhiteLine l = false) :
    trimLines (above ++ below) = above ++ trimLines below := by
  rcases white_or_exists_last below with hwhite | ⟨as, line, bs, rfl, hline, hbs⟩
  · obtain ⟨l, hl, hvisible⟩ := h
    rw [hwhite l hl] at hvisible
    exact Bool.noConfusion hvisible
  · have has : ∀ l ∈ as, '\n' ∉ l := fun l hl => hbelow l (List.mem_append_left _ hl)
    have hfeed : '\n' ∉ line := hbelow line (by simp)
    have hall : ∀ l ∈ above ++ as, '\n' ∉ l :=
      fun l hl => (List.mem_append.mp hl).elim (habove l) (has l)
    rw [← List.append_assoc, trimLines_append_cons hall hfeed hline hbs,
      trimLines_append_cons has hfeed hline hbs, List.append_assoc]

theorem visibleLines_trimLines {lines : List (List Char)} (hfeed : ∀ l ∈ lines, '\n' ∉ l) :
    visibleLines (trimLines lines) = visibleLines lines := by
  rcases white_or_exists_last lines with hwhite | ⟨above, line, below, rfl, hline, hbelow⟩
  · rw [trimLines_of_white hwhite, visibleLines_of_white hwhite]
    rfl
  · rw [trimLines_append_cons (fun l hl => hfeed l (List.mem_append_left _ hl))
        (hfeed line (by simp)) hline hbelow,
      visibleLines_append, visibleLines_append, visibleLines_cons_white line hbelow,
      visibleLines_singleton_congr (trimEnd_trimEnd line)]

end Ambient
