import Ambient.Proofs.Paragraphs

/-!
# Runs of line breaks

Tidying is told in lines.  Told in characters, it replaces runs: a run is a
number of line breaks, each with any spaces in front of it (`Breaks`), and a text
is shortened by writing two line breaks for every run of three or more, from
left to right and each of them as long as it can be (`Shortened`).  A run may
begin behind the last visible character of a line, takes the blank lines below,
and ends in front of the spaces of the next text line.

Every text can be shortened in exactly one way (`Shortened.unique`), and the
lines of the shortened text are the tidied lines, up to the white space at the end
of the text, which is trimmed in either case (`tidyLines_eq_of_shortened`).
-/

namespace Ambient

open Text

/-! ## Runs -/

/-- Some line breaks, each with any number of spaces in front of it. -/
inductive Breaks : Nat → List Char → Prop where
  | none : Breaks 0 []
  | more {n : Nat} {spaces cs : List Char} : isBlankLine spaces = true → Breaks n cs →
      Breaks (n + 1) (spaces ++ '\n' :: cs)

/-- The second text is the first one with two line breaks for every run of three
or more, from left to right and each of them as long as it can be. -/
inductive Shortened : List Char → List Char → Prop where
  | nil : Shortened [] []
  | keep (c : Char) {cs ds : List Char} :
      (∀ n run, Breaks n run → run <+: c :: cs → n < 3) → Shortened cs ds →
      Shortened (c :: cs) (c :: ds)
  | run {n : Nat} {run rest ds : List Char} : Breaks n run → 3 ≤ n →
      (∀ m longer, Breaks m longer → longer <+: run ++ rest → longer.length ≤ run.length) →
      Shortened rest ds → Shortened (run ++ rest) ('\n' :: '\n' :: ds)

theorem isBlankLine_iff {line : List Char} : isBlankLine line = true ↔ ∀ c ∈ line, c = ' ' := by
  simp [isBlankLine]

theorem lineFeed_not_mem_of_isBlankLine {line : List Char} (h : isBlankLine line = true) :
    '\n' ∉ line :=
  fun hmem => absurd (isBlankLine_iff.mp h _ hmem) (by decide)

/-- Runs are told by their characters: spaces and line feeds, with a line feed at
the end. -/
theorem breaks_iff {n : Nat} {cs : List Char} :
    Breaks n cs ↔ (∀ c ∈ cs, c = ' ' ∨ c = '\n') ∧ cs.count '\n' = n ∧
      ∀ c, cs.getLast? = some c → c = '\n' := by
  constructor
  · intro h
    induction h with
    | none => exact ⟨List.forall_mem_nil _, rfl, fun c hc => nomatch hc⟩
    | @more n spaces cs hspaces _ ih =>
        obtain ⟨hchars, hcount, hlast⟩ := ih
        refine ⟨fun c hc => ?_, ?_, fun c hc => ?_⟩
        · rcases List.mem_append.mp hc with hc | hc
          · exact .inl (isBlankLine_iff.mp hspaces c hc)
          · exact (List.mem_cons.mp hc).elim .inr (hchars c)
        · rw [List.count_append, List.count_cons_self, hcount,
            List.count_eq_zero.mpr (lineFeed_not_mem_of_isBlankLine hspaces), Nat.zero_add]
        · rw [List.getLast?_append_of_ne_nil _ (by simp), List.getLast?_cons] at hc
          cases hcs : cs.getLast? with
          | none => rw [hcs] at hc; exact (Option.some.inj hc).symm
          | some d => rw [hcs] at hc; exact Option.some.inj hc ▸ hlast d hcs
  · rintro ⟨hchars, hcount, hlast⟩
    induction n generalizing cs with
    | zero =>
        cases hcs : cs.getLast? with
        | none => rw [List.getLast?_eq_none_iff.mp hcs]; exact .none
        | some c =>
            have hfeed : '\n' ∈ cs := hlast c hcs ▸ List.mem_of_getLast? hcs
            exact absurd hfeed (List.count_eq_zero.mp hcount)
    | succ n ih =>
        have hfeed : '\n' ∈ cs := List.count_pos_iff.mp (by omega)
        obtain ⟨spaces, rest, rfl, hspaces⟩ := List.eq_append_cons_of_mem hfeed
        have hblank : isBlankLine spaces = true := isBlankLine_iff.mpr fun c hc =>
          (hchars c (List.mem_append_left _ hc)).resolve_right fun h => hspaces (h ▸ hc)
        rw [List.count_append, List.count_eq_zero.mpr hspaces, List.count_cons_self] at hcount
        refine .more hblank (ih (fun c hc => hchars c (by simp [hc])) (by omega) fun c hc => ?_)
        refine hlast c ?_
        rw [List.getLast?_append_of_ne_nil _ (by simp), List.getLast?_cons, hc]
        rfl

theorem breaks_flatMap {blanks : List (List Char)} (h : ∀ b ∈ blanks, isBlankLine b = true) :
    Breaks blanks.length (blanks.flatMap (· ++ ['\n'])) := by
  induction blanks with
  | nil => exact .none
  | cons b blanks ih =>
      obtain ⟨hb, hblanks⟩ := List.forall_mem_cons.mp h
      rw [List.flatMap_cons, List.append_assoc, List.singleton_append]
      exact .more hb (ih hblanks)

/-! ## Where a run ends -/

/-- No line break stands at the start of a text, not even behind spaces. -/
def BreakFree (s : List Char) : Prop :=
  ∀ n run, Breaks n run → run <+: s → run = []

theorem breakFree_append {spaces rest : List Char} (hspaces : isBlankLine spaces = true)
    (hrest : ∀ c, rest.head? = some c → c ≠ ' ' ∧ c ≠ '\n') : BreakFree (spaces ++ rest) := by
  intro n run hrun hpre
  obtain ⟨hchars, -, hlast⟩ := breaks_iff.mp hrun
  have hinside : run <+: spaces := by
    rcases List.prefix_or_prefix_of_prefix hpre (List.prefix_append spaces rest) with h | h
    · exact h
    · obtain ⟨extra, rfl⟩ := h
      rw [List.prefix_append_right_inj] at hpre
      cases extra with
      | nil => simp
      | cons c extra =>
          obtain ⟨more, rfl⟩ := hpre
          obtain ⟨hspace, hfeed⟩ := hrest c rfl
          exact absurd (hchars c (by simp)) (not_or.mpr ⟨hspace, hfeed⟩)
  by_contra hne
  have hlast' := hlast _ (List.getLast?_eq_some_getLast hne)
  have hspace := isBlankLine_iff.mp hspaces _ (hinside.subset (List.getLast_mem hne))
  rw [hlast'] at hspace
  exact absurd hspace (by decide)

theorem breakFree_of_isBlankLine {spaces : List Char} (h : isBlankLine spaces = true) :
    BreakFree spaces := by
  have hfree : BreakFree (spaces ++ []) := breakFree_append h fun c hc => nomatch hc
  rwa [List.append_nil] at hfree

theorem breakFree_line {line : List Char} (h : isBlankLine line = false) (hfeed : '\n' ∉ line)
    (rest : List Char) : BreakFree (line ++ rest) := by
  have hcut : line.takeWhile (· == ' ') ++ line.dropWhile (· == ' ') = line :=
    List.takeWhile_append_dropWhile
  have hspaces : isBlankLine (line.takeWhile (· == ' ')) = true :=
    List.all_eq_true.mpr fun c hc => by simpa using List.mem_takeWhile_imp hc
  have hne : line.dropWhile (· == ' ') ≠ [] := by
    intro hnil
    rw [hnil, List.append_nil] at hcut
    rw [hcut, h] at hspaces
    exact Bool.noConfusion hspaces
  rw [← hcut, List.append_assoc]
  refine breakFree_append hspaces fun c hc => ?_
  rw [List.head?_append_of_ne_nil _ hne] at hc
  constructor
  · rintro rfl
    have hnot := List.head?_dropWhile_not (· == ' ') line
    rw [hc] at hnot
    exact absurd hnot (by decide)
  · rintro rfl
    exact hfeed ((List.dropWhile_suffix _).subset (List.mem_of_head? hc))

theorem prefix_of_breakFree {s rest run : List Char} {n : Nat} (hrest : BreakFree rest)
    (hrun : Breaks n run) (h : run <+: s ++ rest) : run <+: s := by
  rcases List.prefix_or_prefix_of_prefix h (List.prefix_append s rest) with hinside | ⟨extra, rfl⟩
  · exact hinside
  · rw [List.prefix_append_right_inj] at h
    obtain ⟨hchars, -, hlast⟩ := breaks_iff.mp hrun
    have hextra : Breaks (extra.count '\n') extra := by
      refine breaks_iff.mpr ⟨fun c hc => hchars c (List.mem_append_right _ hc), rfl,
        fun c hc => hlast c ?_⟩
      rw [List.getLast?_append, hc]
      rfl
    simp [hrest _ _ hextra h]

/-! ## Shortening part by part -/

namespace Shortened

theorem unique {s t u : List Char} (ht : Shortened s t) (hu : Shortened s u) : t = u := by
  induction ht generalizing u with
  | nil =>
      generalize hs : ([] : List Char) = s at hu
      cases hu with
      | nil => rfl
      | keep => exact nomatch hs
      | @run n run rest ds hrun hlong =>
          obtain ⟨rfl, -⟩ := List.append_eq_nil_iff.mp hs.symm
          have hcount := (breaks_iff.mp hrun).2.1
          rw [List.count_nil] at hcount
          omega
  | @keep c cs ds hshort _ ih =>
      generalize hs : c :: cs = s at hu
      cases hu with
      | nil => exact nomatch hs
      | keep d _ htail =>
          obtain ⟨rfl, rfl⟩ := List.cons_eq_cons.mp hs
          rw [ih htail]
      | @run n run rest ds hrun hlong =>
          have hlt := hshort n run hrun (hs ▸ List.prefix_append run rest)
          omega
  | @run n run rest ds hrun hlong hlongest _ ih =>
      generalize hs : run ++ rest = s at hu
      cases hu with
      | nil =>
          obtain ⟨rfl, -⟩ := List.append_eq_nil_iff.mp hs
          have hcount := (breaks_iff.mp hrun).2.1
          rw [List.count_nil] at hcount
          omega
      | keep d hshort =>
          have hlt := hshort n run hrun (hs ▸ List.prefix_append run rest)
          omega
      | @run m other rest' es hother _ hlongest' htail =>
          have hle := hlongest m other hother (hs ▸ List.prefix_append other rest')
          have hge := hlongest' n run hrun (hs ▸ List.prefix_append run rest)
          obtain ⟨rfl, rfl⟩ := List.append_inj hs (by omega)
          rw [ih htail]

/-- At most two line breaks in front of a text without line break are kept. -/
theorem append_of_count {s rest t : List Char} (hcount : s.count '\n' < 3) (hrest : BreakFree rest)
    (h : Shortened rest t) : Shortened (s ++ rest) (s ++ t) := by
  induction s with
  | nil => exact h
  | cons c s ih =>
      have hle := List.Sublist.count_le '\n' (List.sublist_cons_self c s)
      refine .keep c (fun n run hrun hpre => ?_) (ih (by omega))
      have hinside := (prefix_of_breakFree (s := c :: s) hrest hrun hpre).sublist.count_le '\n'
      rw [(breaks_iff.mp hrun).2.1] at hinside
      omega

theorem append_of_visible {s rest t : List Char} (hfeed : '\n' ∉ s)
    (hlast : s.getLast? ≠ some ' ') (h : Shortened rest t) : Shortened (s ++ rest) (s ++ t) := by
  induction s with
  | nil => exact h
  | cons c s ih =>
      obtain ⟨hc, hs⟩ : '\n' ≠ c ∧ '\n' ∉ s := by simpa using hfeed
      refine .keep c (fun n run hrun hpre => ?_) (ih hs fun hspace => hlast ?_)
      · have hfree : BreakFree (c :: s ++ rest) := by
          refine breakFree_line (Bool.eq_false_iff.mpr fun hblank => hlast ?_) hfeed rest
          rw [List.getLast?_eq_some_getLast (List.cons_ne_nil c s),
            isBlankLine_iff.mp hblank _ (List.getLast_mem (List.cons_ne_nil c s))]
        have hnil := hfree n run hrun hpre
        rw [← (breaks_iff.mp hrun).2.1, hnil]
        decide
      · rw [List.getLast?_cons, hspace]
        rfl

/-- A run of three or more line breaks in front of a text without line break. -/
theorem run_append {n : Nat} {run rest t : List Char} (hrun : Breaks n run) (hlong : 3 ≤ n)
    (hrest : BreakFree rest) (h : Shortened rest t) :
    Shortened (run ++ rest) ('\n' :: '\n' :: t) :=
  .run hrun hlong (fun _ _ hlonger hpre => (prefix_of_breakFree hrest hlonger hpre).length_le) h

end Shortened

/-! ## Gaps -/

/-- A text of spaces and line feeds. -/
def IsGap (s : List Char) : Prop :=
  ∀ c ∈ s, c = ' ' ∨ c = '\n'

namespace IsGap

variable {s t : List Char}

theorem isWhiteLine (h : IsGap s) : isWhiteLine s = true := by
  refine List.all_eq_true.mpr fun c hc => ?_
  rcases h c hc with rfl | rfl
  · decide
  · decide

theorem of_isBlankLine (h : isBlankLine s = true) : IsGap s :=
  fun c hc => .inl (isBlankLine_iff.mp h c hc)

theorem append (hs : IsGap s) (ht : IsGap t) : IsGap (s ++ t) :=
  fun c hc => (List.mem_append.mp hc).elim (hs c) (ht c)

theorem of_blanks {blanks : List (List Char)} (h : ∀ b ∈ blanks, isBlankLine b = true) :
    IsGap (blanks.flatMap ('\n' :: ·)) := by
  intro c hc
  obtain ⟨b, hb, hc⟩ := List.mem_flatMap.mp hc
  rcases List.mem_cons.mp hc with rfl | hc
  · exact .inr rfl
  · exact of_isBlankLine (h b hb) c hc

theorem joinLines {blanks : List (List Char)} (h : ∀ b ∈ blanks, isBlankLine b = true) :
    IsGap (joinLines blanks) := by
  cases blanks with
  | nil => exact fun c hc => absurd hc List.not_mem_nil
  | cons b blanks =>
      obtain ⟨hb, hblanks⟩ := List.forall_mem_cons.mp h
      rw [joinLines_cons]
      exact (of_isBlankLine hb).append (of_blanks hblanks)

end IsGap

/-- A gap is shortened to white space. -/
theorem exists_shortened_of_gap {s : List Char} (h : IsGap s) :
    ∃ t, Shortened s t ∧ isWhiteLine t = true := by
  by_cases hcount : s.count '\n' < 3
  · have hkept := Shortened.append_of_count hcount (breakFree_of_isBlankLine rfl) .nil
    rw [List.append_nil] at hkept
    exact ⟨s, hkept, h.isWhiteLine⟩
  · -- The run goes up to the last line feed; spaces are left behind it.
    obtain ⟨spaces, hs, hspaces⟩ := exists_trimSpaces s
    have hlast : ∀ c, (trimSpaces s).getLast? = some c → c = '\n' := by
      intro c hc
      have hmem : c ∈ s := hs ▸ List.mem_append_left _ (List.mem_of_getLast? hc)
      exact (h c hmem).resolve_left fun hspace => getLast?_trimSpaces_ne s (hspace ▸ hc)
    have hrun : Breaks (s.count '\n') (trimSpaces s) := by
      refine breaks_iff.mpr ⟨fun c hc => h c (hs ▸ List.mem_append_left _ hc), ?_, hlast⟩
      conv_rhs => rw [hs]
      rw [List.count_append, List.count_eq_zero.mpr (lineFeed_not_mem_of_isBlankLine hspaces),
        Nat.add_zero]
    have hkept : Shortened (spaces ++ []) (spaces ++ []) := by
      refine .append_of_count ?_ (breakFree_of_isBlankLine rfl) .nil
      rw [List.count_eq_zero.mpr (lineFeed_not_mem_of_isBlankLine hspaces)]
      decide
    rw [List.append_nil] at hkept
    have hbreaks : IsGap ['\n', '\n'] := by simp [IsGap]
    refine ⟨'\n' :: '\n' :: spaces, ?_, (hbreaks.append (.of_isBlankLine hspaces)).isWhiteLine⟩
    conv => arg 1; rw [hs]
    exact .run_append hrun (by omega) (breakFree_of_isBlankLine hspaces) hkept

/-! ## Tidied lines -/

theorem joinLines_append_flatMap (ls : List (List Char)) {ks : List (List Char)} (h : ks ≠ []) :
    joinLines (ls ++ ks) = ls.flatMap (· ++ ['\n']) ++ joinLines ks := by
  induction ls with
  | nil => rfl
  | cons l ls ih =>
      rw [← List.singleton_append, List.append_assoc,
        joinLines_append (List.cons_ne_nil _ _) (by simp [h]), ih]
      simp [joinLines]

theorem trimEnd_append_congr {s t : List Char} (cs : List Char) (h : trimEnd s = trimEnd t) :
    trimEnd (cs ++ s) = trimEnd (cs ++ t) := by
  by_cases hs : trimEnd s = []
  · rw [trimEnd_append_of_white (trimEnd_eq_nil_iff.mp hs),
      trimEnd_append_of_white (trimEnd_eq_nil_iff.mp (h ▸ hs))]
  · rw [trimEnd_append cs hs, trimEnd_append cs (h ▸ hs), h]

theorem trimEnd_joinLines_cons {l : List Char} {ls : List (List Char)}
    (h : ∀ k ∈ ls, isWhiteLine k = true) : trimEnd (joinLines (l :: ls)) = trimEnd l := by
  rw [joinLines_cons]
  refine trimEnd_append_of_white (List.all_eq_true.mpr fun c hc => ?_)
  obtain ⟨k, hk, hc⟩ := List.mem_flatMap.mp hc
  rcases List.mem_cons.mp hc with rfl | hc
  · decide
  · exact List.all_eq_true.mp (h k hk) c hc

/-- A text shortened to `t` has the same lines as another text, up to the white
space at the end. -/
def ShortensTo (s : List Char) (lines : List (List Char)) : Prop :=
  ∃ t, Shortened s t ∧ trimEnd t = trimEnd (joinLines lines)

/-- A paragraph at the end of a text. -/
theorem shortensTo_last {p : Paragraph} (hproper : p.IsProper) (hfeed : '\n' ∉ p.line) :
    ShortensTo (joinLines p.lines) p.tidy := by
  obtain ⟨spaces, hline, hspaces⟩ := exists_trimSpaces p.line
  obtain ⟨line, gap, htidy, htrim, -, hgap, -⟩ := Paragraph.exists_tidy hproper
  have hpre : trimSpaces p.line <+: p.line := ⟨spaces, hline.symm⟩
  have hbehind : IsGap (spaces ++ p.blanks.flatMap ('\n' :: ·)) :=
    (IsGap.of_isBlankLine hspaces).append (.of_blanks hproper.blanks)
  obtain ⟨t, hshort, hwhite⟩ := exists_shortened_of_gap hbehind
  refine ⟨trimSpaces p.line ++ t, ?_, ?_⟩
  · rw [Paragraph.lines, joinLines_cons]
    conv => arg 1; rw [hline, List.append_assoc]
    exact .append_of_visible (fun hmem => hfeed (hpre.subset hmem))
      (getLast?_trimSpaces_ne p.line) hshort
  · rw [htidy, trimEnd_joinLines_cons fun b hb => isWhiteLine_of_isBlankLine (hgap b hb), htrim,
      trimEnd_append_of_white hwhite, trimEnd_trimSpaces]

/-- What a run of blank lines is shortened to. -/
def shortRun (blanks : List (List Char)) : List Char :=
  if 3 ≤ blanks.length then ['\n', '\n'] else blanks.flatMap (· ++ ['\n'])

/-- A run between a text up to something visible and a text without line break at
its start. -/
theorem ShortensTo.append_run {start rest : List Char} {blanks lines ks : List (List Char)}
    (h : ShortensTo rest ks) (hfeed : '\n' ∉ start) (hlast : start.getLast? ≠ some ' ')
    (hblanks : ∀ b ∈ blanks, isBlankLine b = true) (hrest : BreakFree rest)
    (hlines : joinLines (lines ++ ks) = start ++ (shortRun blanks ++ joinLines ks)) :
    ShortensTo (start ++ (blanks.flatMap (· ++ ['\n']) ++ rest)) (lines ++ ks) := by
  obtain ⟨t, hshort, htrim⟩ := h
  have hrun := breaks_flatMap hblanks
  refine ⟨start ++ (shortRun blanks ++ t), ?_, ?_⟩
  · unfold shortRun
    split
    · rename_i hlong
      exact .append_of_visible hfeed hlast (.run_append hrun hlong hrest hshort)
    · rename_i hfew
      rw [← List.append_assoc, ← List.append_assoc]
      refine .append_of_count ?_ hrest hshort
      rw [List.count_append, List.count_eq_zero.mpr hfeed, (breaks_iff.mp hrun).2.1]
      omega
  · rw [hlines]
    exact trimEnd_append_congr start (trimEnd_append_congr _ htrim)

theorem joinLines_tidy_append {p : Paragraph} {spaces : List Char}
    (hline : p.line = trimSpaces p.line ++ spaces) {ks : List (List Char)} (hks : ks ≠ []) :
    joinLines (p.tidy ++ ks) =
      trimSpaces p.line ++ (shortRun (spaces :: p.blanks) ++ joinLines ks) := by
  rw [joinLines_append_flatMap _ hks, Paragraph.tidy, shortRun, List.length_cons]
  by_cases hlong : 2 ≤ p.blanks.length
  · rw [if_pos hlong, if_pos (Nat.succ_le_succ hlong)]
    simp
  · rw [if_neg hlong, if_neg (by omega), List.flatMap_cons, List.flatMap_cons]
    conv_lhs => rw [hline]
    simp

theorem joinLines_shortStart_append (blanks : List (List Char)) {ks : List (List Char)}
    (hks : ks ≠ []) : joinLines (shortStart blanks ++ ks) = shortRun blanks ++ joinLines ks := by
  rw [joinLines_append_flatMap _ hks, shortStart, shortRun]
  split
  · rfl
  · rfl

theorem shortensTo_append {p : Paragraph} (hproper : p.IsProper) (hfeed : '\n' ∉ p.line)
    {ls ks : List (List Char)} (hls : ls ≠ []) (hks : ks ≠ []) (hfree : BreakFree (joinLines ls))
    (h : ShortensTo (joinLines ls) ks) : ShortensTo (joinLines (p.lines ++ ls)) (p.tidy ++ ks) := by
  obtain ⟨spaces, hline, hspaces⟩ := exists_trimSpaces p.line
  have hblanks : ∀ b ∈ spaces :: p.blanks, isBlankLine b = true :=
    List.forall_mem_cons.mpr ⟨hspaces, hproper.blanks⟩
  have hpre : trimSpaces p.line <+: p.line := ⟨spaces, hline.symm⟩
  have htext : joinLines (p.lines ++ ls) =
      trimSpaces p.line ++ ((spaces :: p.blanks).flatMap (· ++ ['\n']) ++ joinLines ls) := by
    rw [joinLines_append_flatMap _ hls, Paragraph.lines, List.flatMap_cons, List.flatMap_cons]
    conv_lhs => rw [hline]
    simp
  rw [htext]
  exact h.append_run (fun hmem => hfeed (hpre.subset hmem)) (getLast?_trimSpaces_ne p.line) hblanks
    hfree (joinLines_tidy_append hline hks)

theorem shortensTo_paragraphs {ps : List Paragraph} (hne : ps ≠ []) (hproper : ∀ p ∈ ps, p.IsProper)
    (hfeed : ∀ p ∈ ps, '\n' ∉ p.line) :
    BreakFree (joinLines (ps.flatMap Paragraph.lines)) ∧ ps.flatMap Paragraph.tidy ≠ [] ∧
      ShortensTo (joinLines (ps.flatMap Paragraph.lines)) (ps.flatMap Paragraph.tidy) := by
  induction ps with
  | nil => exact absurd rfl hne
  | cons p ps ih =>
      obtain ⟨hp, hps⟩ := List.forall_mem_cons.mp hproper
      obtain ⟨hpf, hpsf⟩ := List.forall_mem_cons.mp hfeed
      obtain ⟨line, gap, htidy, -⟩ := Paragraph.exists_tidy hp
      refine ⟨?_, by rw [List.flatMap_cons, htidy]; simp, ?_⟩
      · rw [List.flatMap_cons, Paragraph.lines, List.cons_append, joinLines_cons]
        exact breakFree_line hp.line hpf _
      · by_cases hnil : ps = []
        · subst hnil
          simpa using shortensTo_last hp hpf
        · obtain ⟨hfree, hks, hrest⟩ := ih hnil hps hpsf
          have hls : ps.flatMap Paragraph.lines ≠ [] := by
            obtain ⟨q, qs, rfl⟩ := List.exists_cons_of_ne_nil hnil
            simp [Paragraph.lines]
          rw [List.flatMap_cons, List.flatMap_cons]
          exact shortensTo_append hp hpf hls hks hfree hrest

theorem shortensTo_collapseBlanks {lines : List (List Char)} (hfeed : ∀ l ∈ lines, '\n' ∉ l) :
    ShortensTo (joinLines lines) (collapseBlanks lines) := by
  obtain ⟨hlines, hblanks, hproper⟩ := paragraphs_rebuild lines
  obtain ⟨hstart, -⟩ := shortStart_spec hblanks
  rw [collapseBlanks_eq]
  generalize (paragraphs lines).1 = blanks at hlines hblanks hstart ⊢
  generalize (paragraphs lines).2 = ps at hlines hproper ⊢
  subst hlines
  by_cases hps : ps = []
  · subst hps
    rw [List.flatMap_nil, List.flatMap_nil, List.append_nil, List.append_nil]
    obtain ⟨t, hshort, hwhite⟩ := exists_shortened_of_gap (IsGap.joinLines hblanks)
    refine ⟨t, hshort, ?_⟩
    have hwhite' := (IsGap.joinLines hstart).isWhiteLine
    rw [trimEnd_eq_nil_iff.mpr hwhite, trimEnd_eq_nil_iff.mpr hwhite']
  · have hpsFeed : ∀ p ∈ ps, '\n' ∉ p.line := fun p hp =>
      hfeed _ (List.mem_append_right _ (List.mem_flatMap_of_mem hp List.mem_cons_self))
    obtain ⟨hfree, hks, hrest⟩ := shortensTo_paragraphs hps hproper hpsFeed
    have hls : ps.flatMap Paragraph.lines ≠ [] := by
      obtain ⟨q, qs, rfl⟩ := List.exists_cons_of_ne_nil hps
      simp [Paragraph.lines]
    rw [joinLines_append_flatMap _ hls]
    have hnone : ([] : List Char).getLast? ≠ some ' ' := by simp
    exact hrest.append_run List.not_mem_nil hnone hblanks hfree
      (joinLines_shortStart_append blanks hks)

/-- **The lines of a tidied text are those of the shortened text**, trimmed at its
end, and every text can be shortened. -/
theorem tidyLines_eq_of_shortened (doc : String) :
    (∃ text, Shortened doc.toList text) ∧
      ∀ text, Shortened doc.toList text → tidyLines doc = splitLines (trimEnd text) := by
  have hfeed : ∀ l ∈ splitLines doc.toList, '\n' ∉ l := fun l hl => (mem_of_mem_splitOn hl).1
  obtain ⟨t, hshort, htrim⟩ := shortensTo_collapseBlanks hfeed
  rw [joinLines_splitLines] at hshort
  refine ⟨⟨t, hshort⟩, fun text htext => ?_⟩
  rw [htext.unique hshort, htrim]
  rfl

end Ambient
