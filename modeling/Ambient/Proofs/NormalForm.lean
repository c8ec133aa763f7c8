import Ambient.Proofs.ModuleText
import Ambient.Proofs.Recording

/-!
# The normal form of a text

A text is finished if no line of it ends in white space and its one line feed at
the end stands behind something visible.  `finish` makes such a text out of
every text that is not blank (`isFinished_finish`), takes nothing from it but
white space (`filter_finish`), and leaves it as it is (`finish_of_isFinished`),
so finishing twice is finishing once.

The text of a module is always finished, because the brace that closes the outer
namespace is not blank.
-/

namespace Ambient

namespace Text

/-! ## Finished texts -/

/-- Whether a line does not end in white space. -/
def EndsVisibly (line : List Char) : Prop :=
  ∀ c, line.getLast? = some c → isBlank c = false

/-- A text of which no line ends in white space, with exactly one line feed at
the end, behind a line that is not blank. -/
structure IsFinished (text : List Char) : Prop where
  ending : ∃ above c, text = above ++ [c, '\n'] ∧ isBlank c = false
  trimmed : ∀ line ∈ splitLines text, EndsVisibly line

theorem trimEnd_eq_self_iff {line : List Char} : trimEnd line = line ↔ EndsVisibly line := by
  refine List.rdropWhile_eq_self_iff.trans ⟨fun h c hlast => ?_, fun h hne => ?_⟩
  · have hne : line ≠ [] := List.ne_nil_of_mem (List.mem_of_getLast? hlast)
    obtain rfl := Option.some.inj ((List.getLast?_eq_some_getLast hne).symm.trans hlast)
    exact Bool.eq_false_iff.mpr (h hne)
  · simp [h _ (List.getLast?_eq_some_getLast hne)]

theorem endsVisibly_trimEnd (line : List Char) : EndsVisibly (trimEnd line) :=
  trimEnd_eq_self_iff.mp (trimEnd_trimEnd line)

theorem EndsVisibly.exists_last {line : List Char} (h : EndsVisibly line) (hne : line ≠ []) :
    ∃ above c, line = above ++ [c] ∧ isBlank c = false :=
  ⟨line.dropLast, line.getLast hne, (List.dropLast_append_getLast hne).symm,
    h _ (List.getLast?_eq_some_getLast hne)⟩

/-! ## What finishing keeps -/

section Visible

variable {p : Char → Bool}

theorem filter_trimEnd (hp : ∀ c, isBlank c = true → p c = false) (cs : List Char) :
    (trimEnd cs).filter p = cs.filter p := by
  induction cs using List.reverseRecOn with
  | nil => rfl
  | append_singleton cs c ih =>
      cases hc : isBlank c with
      | true =>
          rw [trimEnd_concat_blank cs hc, ih, List.filter_append,
            List.filter_cons_of_neg (by simp [hp c hc]), List.filter_nil, List.append_nil]
      | false => rw [trimEnd_concat cs hc]

theorem filter_joinLines (hp : p '\n' = false) (ls : List (List Char)) :
    (joinLines ls).filter p = ls.flatMap (·.filter p) := by
  induction ls using List.reverseRecOn with
  | nil => rfl
  | append_singleton ls l ih =>
      by_cases hls : ls = []
      · subst hls
        simp [joinLines]
      · rw [joinLines_concat l hls, List.filter_append, ih, List.filter_cons_of_neg (by simp [hp])]
        simp

/-- Finishing takes nothing away but white space, and adds nothing else. -/
theorem filter_finish (hp : ∀ c, isBlank c = true → p c = false) (cs : List Char) :
    (finish cs).filter p = cs.filter p := by
  have hfeed : p '\n' = false := hp '\n' rfl
  have hlines : (splitLines cs).flatMap (·.filter p) = cs.filter p := by
    rw [← filter_joinLines hfeed, joinLines_splitLines]
  rw [finish, List.filter_append, filter_trimEnd hp, filter_joinLines hfeed, List.flatMap_map,
    List.filter_cons_of_neg (by simp [hfeed]), List.filter_nil, List.append_nil, ← hlines]
  exact List.flatMap_congr fun line _ => filter_trimEnd hp line

end Visible

/-! ## Finishing -/

theorem isFinished_finish {cs : List Char} (h : ∃ l ∈ splitLines cs, trimEnd l ≠ []) :
    IsFinished (finish cs) where
  ending := by
    obtain ⟨l, hl, hne⟩ := h
    obtain ⟨above, c, hlast, hc⟩ := (endsVisibly_trimEnd l).exists_last hne
    have hkept : c ∈ trimEnd l := by simp [hlast]
    have hmem : c ∈ l := (List.rdropWhile_prefix isBlank l).subset hkept
    -- Something visible is in the text, so something is left in front of the line feed.
    have hvisible : c ∈ (finish cs).filter fun c => !isBlank c := by
      rw [filter_finish (by simp), List.mem_filter]
      exact ⟨(mem_of_mem_splitOn hl).2 c hmem, by simp [hc]⟩
    have htrimmed := endsVisibly_trimEnd (joinLines ((splitLines cs).map trimEnd))
    obtain ⟨above, d, hend, hd⟩ := htrimmed.exists_last (by
      intro hnil
      rw [finish, hnil] at hvisible
      obtain ⟨hfeed, hnot⟩ := List.mem_filter.mp hvisible
      obtain rfl := List.mem_singleton.mp hfeed
      exact absurd hnot (by decide))
    exact ⟨above, d, by rw [finish, hend, List.append_assoc]; rfl, hd⟩
  trimmed := by
    rw [splitLines_finish h]
    intro line hline
    rcases List.mem_append.mp hline with hline | hline
    · obtain ⟨l, -, rfl⟩ := List.mem_map.mp ((List.rdropWhile_prefix _ _).subset hline)
      exact endsVisibly_trimEnd l
    · obtain rfl := List.mem_singleton.mp hline
      intro c hc
      cases hc

theorem finish_of_isFinished {text : List Char} (h : IsFinished text) : finish text = text := by
  obtain ⟨above, c, rfl, hc⟩ := h.ending
  have hlines : (splitLines (above ++ [c, '\n'])).map trimEnd = splitLines (above ++ [c, '\n']) :=
    (List.map_congr_left fun line hline => trimEnd_eq_self_iff.mpr (h.trimmed line hline)).trans
      (List.map_id _)
  have hfeed : above ++ [c, '\n'] = above ++ [c] ++ ['\n'] := by simp
  rw [finish, hlines, joinLines_splitLines, hfeed, trimEnd_concat_blank _ rfl, trimEnd_concat _ hc]

/-- In a finished text no line feed has other white space in front of it. -/
theorem IsFinished.not_blank_feed {text : List Char} (h : IsFinished text) {x : Char}
    (hx : isBlank x = true) (hne : x ≠ '\n') : ¬ [x, '\n'] <:+: text := by
  rintro ⟨above, below, rfl⟩
  obtain ⟨lines, k, hlines⟩ := exists_last_line (v := [x]) above (by simpa using Ne.symm hne)
  have hsplit : splitLines (above ++ [x, '\n'] ++ below) = lines ++ [k ++ [x]] ++ splitLines below := by
    rw [← hlines, ← splitLines_append]
    simp
  have hmem : k ++ [x] ∈ splitLines (above ++ [x, '\n'] ++ below) := by
    rw [hsplit]
    simp
  have hvisible := h.trimmed _ hmem x (by simp)
  rw [hx] at hvisible
  exact Bool.noConfusion hvisible

/-! ## The start of a text -/

theorem joinLines_append {above below : List (List Char)} (ha : above ≠ []) (hb : below ≠ []) :
    joinLines (above ++ below) = joinLines above ++ '\n' :: joinLines below := by
  induction below using List.reverseRecOn with
  | nil => exact absurd rfl hb
  | append_singleton ls l ih =>
      by_cases hls : ls = []
      · subst hls
        rw [List.nil_append, joinLines_concat l ha]
        simp [joinLines]
      · rw [← List.append_assoc, joinLines_concat l (by simp [ha]), ih hls, joinLines_concat l hls,
          List.append_assoc, List.cons_append]

theorem prefix_of_splitLines {text start : List Char} {below : List (List Char)}
    (h : splitLines text = splitLines start ++ below) (hb : below ≠ []) :
    start ++ ['\n'] <+: text := by
  have hstart : splitLines start ≠ [] := by simp [splitLines]
  refine ⟨joinLines below, ?_⟩
  rw [← joinLines_splitLines text, h, joinLines_append hstart hb, joinLines_splitLines,
    List.append_assoc, List.singleton_append]

end Text

open Text

/-! ## Modules -/

/-- The lines of a module are those of its pieces, trimmed and without the blank
ones at the end; behind the last line feed stands nothing. -/
theorem Draft.splitLines_text_eq_pieces (d : Draft) (s : Settings) :
    splitLines (d.text s).toList =
      ((d.lines s).flatMap pieceLines).rdropWhile List.isEmpty ++ [[]] := by
  rw [Draft.text, String.toList_ofList, splitLines_finish (d.exists_visible_line s),
    map_splitLines_intercalate (d.lines_ne_nil s)]

theorem Settings.headerLines_eq {s : Settings} (hne : s.header ≠ "")
    (h : ∀ line ∈ splitLines s.header.toList, EndsVisibly line) :
    s.headerLines = splitLines s.header.toList := by
  rw [headerLines, if_neg hne, pieceLines]
  exact (List.map_congr_left fun line hline => trimEnd_eq_self_iff.mpr (h line hline)).trans
    (List.map_id _)

/-- **The normal form of a module.**  Its text is finished, and finishing it
once more changes nothing; no carriage return stands in front of a line feed.
Its lines are those of the pieces it was made from, each without the white space
at its end, up to the last line that is not blank, so nothing but white space is
lost and nothing is added.  A header that needs no trimming is the start of the
text. -/
theorem emitCategory_isFinished (d : Description) (s : Settings) {key : String} {c : Category}
    (hc : d.category? key = some c) :
    ∃ m, emitCategory d s key = some m ∧ IsFinished m.text.toList ∧
      finish m.text.toList = m.text.toList ∧ ¬ ['\r', '\n'] <:+: m.text.toList ∧
      splitLines m.text.toList =
        (((Scope.draft ⟨d, s, key⟩ c).lines s).flatMap pieceLines).rdropWhile List.isEmpty ++
          [[]] ∧
      m.text.toList.filter (!isBlank ·) =
        ((Scope.draft ⟨d, s, key⟩ c).lines s).flatMap (·.toList.filter (!isBlank ·)) ∧
      (s.header ≠ "" → (∀ line ∈ splitLines s.header.toList, EndsVisibly line) →
        s.header.toList ++ ['\n'] <+: m.text.toList) := by
  have hfinished : IsFinished ((Scope.draft ⟨d, s, key⟩ c).text s).toList := by
    rw [Draft.text, String.toList_ofList]
    exact isFinished_finish (Draft.exists_visible_line _ s)
  have hvisible : ∀ x, isBlank x = true → (!isBlank x) = false := by simp
  refine ⟨Scope.moduleFile ⟨d, s, key⟩ c, by rw [emitCategory, hc]; rfl, hfinished,
    finish_of_isFinished hfinished, hfinished.not_blank_feed rfl (by decide),
    Draft.splitLines_text_eq_pieces _ s, ?_, ?_⟩
  · show ((Scope.draft ⟨d, s, key⟩ c).text s).toList.filter _ = _
    rw [Draft.text, String.toList_ofList, filter_finish hvisible, toList_intercalate_lineFeed,
      filter_joinLines rfl, List.flatMap_map]
  · intro hne hheader
    have htext := Draft.splitLines_text (Scope.draft ⟨d, s, key⟩ c) s
    rw [Draft.topLines, Settings.headerLines_eq hne hheader] at htext
    simp only [List.append_assoc] at htext
    exact prefix_of_splitLines htext (by simp)

/-! ## One module -/

/-- A header of three lines, the second of which is empty. -/
def bannerSettings : Settings where
  header := "// a\n\n// b"

/-- A category with white space at the end of lines: in front of a line feed, at
the end of a documentation and inside a name. -/
def looseCategory : Category where
  name := some "Loose"
  declarations := ⟨[("A", some {
    kind := .enum
    doc := "one \r\ntwo\u00A0"
    properties := [{ name := "X\t\n" }] })], by decide⟩

def looseDescription : Description where
  categories := ⟨[("loose", looseCategory)], by decide⟩

/-- The module of that category is finished, and has the header at its start. -/
theorem loose_module_isFinished :
    looseDescription.category? "loose" = some looseCategory ∧ bannerSettings.header ≠ "" ∧
      (∀ line ∈ splitLines bannerSettings.header.toList, EndsVisibly line) ∧
      ∃ m, emitCategory looseDescription bannerSettings "loose" = some m ∧
        IsFinished m.text.toList ∧ finish m.text.toList = m.text.toList ∧
        ¬ ['\r', '\n'] <:+: m.text.toList ∧
        "// a\n\n// b\n".toList <+: m.text.toList := by
  have hc : looseDescription.category? "loose" = some looseCategory := by rfl
  have hne : bannerSettings.header ≠ "" := by decide
  have htrimmed : ∀ line ∈ splitLines bannerSettings.header.toList, trimEnd line = line := by
    decide +kernel
  have hheader : ∀ line ∈ splitLines bannerSettings.header.toList, EndsVisibly line :=
    fun line hline => trimEnd_eq_self_iff.mp (htrimmed line hline)
  obtain ⟨m, hm, hfinished, hagain, hreturn, -, -, hstart⟩ :=
    emitCategory_isFinished looseDescription bannerSettings hc
  exact ⟨hc, hne, hheader, m, hm, hfinished, hagain, hreturn, hstart hne hheader⟩

end Ambient
