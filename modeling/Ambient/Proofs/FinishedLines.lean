import Ambient.ModuleFile
import Mathlib.Data.List.DropRight

/-!
# The lines of a finished text

`finish` works on one text: it splits it, trims each line, joins the lines and
trims the whole.  Here it is read line by line.  A finished text has the
trimmed lines of what it was made from, without the blank ones at the end, and
the empty piece behind its last line feed (`splitLines_finish`).

The one hypothesis, that some line is not blank, cannot be left out: a text of
blank lines is finished as one empty line, and not as none.
-/

namespace Ambient.Text

/-! ## Trimming at the end

`trimEnd` drops from the right what `isBlank` holds of, so the library's
lemmas about `List.rdropWhile` speak about it. -/

theorem trimEnd_concat_blank {c : Char} (cs : List Char) (h : isBlank c = true) :
    trimEnd (cs ++ [c]) = trimEnd cs :=
  List.rdropWhile_concat_pos _ _ _ h

theorem trimEnd_concat {c : Char} (cs : List Char) (h : isBlank c = false) :
    trimEnd (cs ++ [c]) = cs ++ [c] :=
  List.rdropWhile_concat_neg _ _ _ (by simp [h])

theorem trimEnd_trimEnd (cs : List Char) : trimEnd (trimEnd cs) = trimEnd cs :=
  List.rdropWhile_idempotent _ _

/-- Trimming stops inside the last part that holds more than white space. -/
theorem trimEnd_append {ds : List Char} (cs : List Char) (h : trimEnd ds ≠ []) :
    trimEnd (cs ++ ds) = cs ++ trimEnd ds := by
  induction ds using List.reverseRecOn with
  | nil => exact absurd rfl h
  | append_singleton ds c ih =>
      cases hc : isBlank c with
      | true =>
          rw [trimEnd_concat_blank ds hc] at h ⊢
          rw [← List.append_assoc, trimEnd_concat_blank _ hc]
          exact ih h
      | false =>
          rw [← List.append_assoc, trimEnd_concat _ hc, trimEnd_concat ds hc, List.append_assoc]

/-- A text that is one line and keeps its end when it is trimmed. -/
structure IsVisibleLine (cs : List Char) : Prop where
  noFeed : '\n' ∉ cs
  visibleEnd : ∃ c, cs.getLast? = some c ∧ isBlank c = false

namespace IsVisibleLine

variable {cs : List Char}

theorem trimEnd_eq (h : IsVisibleLine cs) : trimEnd cs = cs := by
  obtain ⟨c, hlast, hc⟩ := h.visibleEnd
  obtain ⟨ds, rfl⟩ := List.getLast?_eq_some_iff.mp hlast
  exact trimEnd_concat ds hc

theorem ne_nil (h : IsVisibleLine cs) : cs ≠ [] := by
  obtain ⟨c, hlast, -⟩ := h.visibleEnd
  rintro rfl
  exact absurd hlast (by simp)

theorem append {start : List Char} (hstart : '\n' ∉ start) (h : IsVisibleLine cs) :
    IsVisibleLine (start ++ cs) := by
  obtain ⟨c, hlast, hc⟩ := h.visibleEnd
  refine ⟨?_, c, ?_, hc⟩
  · rw [List.mem_append]
    exact fun hmem => hmem.elim hstart h.noFeed
  · rw [List.getLast?_append, hlast]
    rfl

end IsVisibleLine

/-! ## Splitting and joining -/

theorem splitLines_append (cs ds : List Char) :
    splitLines (cs ++ '\n' :: ds) = splitLines cs ++ splitLines ds :=
  List.splitOn_append_cons_self _ _

theorem splitLines_of_not_mem {cs : List Char} (h : '\n' ∉ cs) : splitLines cs = [cs] :=
  List.splitOn_eq_singleton h

/-- The last piece of a text, found by cutting at the last separator: the text
is that piece, or some text, a separator and that piece. -/
theorem exists_last_piece (x : Char) (cs : List Char) :
    ∃ last, x ∉ last ∧ (cs = last ∨ ∃ above, cs = above ++ x :: last) := by
  induction cs with
  | nil => exact ⟨[], by simp, .inl rfl⟩
  | cons c cs ih =>
      obtain ⟨last, hl, rfl | ⟨above, rfl⟩⟩ := ih
      · by_cases hc : c = x
        · exact ⟨cs, hl, .inr ⟨[], by simp [hc]⟩⟩
        · exact ⟨c :: cs, by simp [hl, Ne.symm hc], .inl rfl⟩
      · exact ⟨last, hl, .inr ⟨c :: above, rfl⟩⟩

theorem mem_of_mem_splitOn {x : Char} {piece : List Char} :
    ∀ {cs : List Char}, piece ∈ cs.splitOn x → x ∉ piece ∧ ∀ c ∈ piece, c ∈ cs := by
  intro cs
  induction hn : cs.length using Nat.strongRecOn generalizing cs with
  | ind n ih =>
      intro h
      obtain ⟨last, hl, rfl | ⟨above, rfl⟩⟩ := exists_last_piece x cs
      · rw [List.splitOn_eq_singleton hl, List.mem_singleton] at h
        subst h
        exact ⟨hl, fun c hc => hc⟩
      · rw [List.splitOn_append_cons_self, List.splitOn_eq_singleton hl, List.mem_append,
          List.mem_singleton] at h
        rcases h with h | rfl
        · obtain ⟨hx, hsub⟩ := ih above.length (by simp at hn; omega) rfl h
          exact ⟨hx, fun c hc => List.mem_append_left _ (hsub c hc)⟩
        · exact ⟨hl, fun c hc => List.mem_append_right _ (List.mem_cons_of_mem _ hc)⟩

theorem joinLines_concat {ls : List (List Char)} (l : List Char) (h : ls ≠ []) :
    joinLines (ls ++ [l]) = joinLines ls ++ '\n' :: l := by
  induction ls with
  | nil => exact absurd rfl h
  | cons k ls ih =>
      by_cases hls : ls = []
      · subst hls
        simp [joinLines, List.intercalate_cons_cons]
      · have hstep : ∀ ms : List (List Char), ms ≠ [] →
            joinLines (k :: ms) = k ++ ['\n'] ++ joinLines ms :=
          fun ms hms => List.intercalate_cons_of_ne_nil hms
        rw [List.cons_append, hstep _ (by simp), hstep _ hls, ih hls]
        simp

theorem splitLines_joinLines {pieces : List (List Char)} (h : pieces ≠ []) :
    splitLines (joinLines pieces) = pieces.flatMap splitLines := by
  induction pieces using List.reverseRecOn with
  | nil => exact absurd rfl h
  | append_singleton pieces piece ih =>
      by_cases hp : pieces = []
      · subst hp
        simp [joinLines]
      · rw [joinLines_concat piece hp, splitLines_append, ih hp]
        simp

/-! ## Finishing -/

theorem trimEnd_joinLines {ls : List (List Char)} (h : ∀ l ∈ ls, trimEnd l = l) :
    trimEnd (joinLines ls) = joinLines (ls.rdropWhile List.isEmpty) := by
  induction ls using List.reverseRecOn with
  | nil => rfl
  | append_singleton ls l ih =>
      have hl : trimEnd l = l := h l (by simp)
      have hls : ∀ k ∈ ls, trimEnd k = k := fun k hk => h k (by simp [hk])
      by_cases hempty : l = []
      · -- The line feed in front of the empty line is white space of the whole text.
        subst hempty
        rw [List.rdropWhile_concat_pos _ _ _ rfl, ← ih hls]
        by_cases hnil : ls = []
        · subst hnil
          rfl
        · rw [joinLines_concat _ hnil]
          exact trimEnd_concat_blank _ (by decide)
      · rw [List.rdropWhile_concat_neg _ _ _ (by simpa using hempty)]
        by_cases hnil : ls = []
        · subst hnil
          simpa [joinLines] using hl
        · rw [joinLines_concat _ hnil, ← List.singleton_append, ← List.append_assoc,
            trimEnd_append _ (by rw [hl]; exact hempty), hl]

/-- The lines of a finished text are the trimmed lines without the empty ones
at the end; behind the last line feed stands nothing. -/
theorem splitLines_finish {cs : List Char} (h : ∃ l ∈ splitLines cs, trimEnd l ≠ []) :
    splitLines (finish cs) =
      ((splitLines cs).map trimEnd).rdropWhile List.isEmpty ++ [[]] := by
  have htrimmed : ∀ l ∈ (splitLines cs).map trimEnd, trimEnd l = l := by
    intro l hl
    obtain ⟨k, -, rfl⟩ := List.mem_map.mp hl
    exact trimEnd_trimEnd k
  have hkept : ((splitLines cs).map trimEnd).rdropWhile List.isEmpty ≠ [] := by
    obtain ⟨l, hl, hne⟩ := h
    intro hnil
    have hall := List.rdropWhile_eq_nil_iff.mp hnil (trimEnd l) (List.mem_map_of_mem hl)
    exact hne (List.isEmpty_iff.mp hall)
  have hfeed : ∀ l ∈ ((splitLines cs).map trimEnd).rdropWhile List.isEmpty, '\n' ∉ l := by
    intro l hl hmem
    obtain ⟨k, hk, rfl⟩ := List.mem_map.mp ((List.rdropWhile_prefix _ _).subset hl)
    exact (mem_of_mem_splitOn hk).1 ((List.rdropWhile_prefix _ _).subset hmem)
  have hsplit : splitLines (joinLines (((splitLines cs).map trimEnd).rdropWhile List.isEmpty)) =
      ((splitLines cs).map trimEnd).rdropWhile List.isEmpty :=
    List.splitOn_intercalate _ hfeed hkept
  rw [finish, trimEnd_joinLines htrimmed, splitLines_append, hsplit]
  rfl

/-- What is dropped at the end of a list ends before an element that is kept. -/
theorem rdropWhile_append_cons {α : Type} {p : α → Bool} {a : α} (as bs : List α)
    (h : p a = false) : (as ++ a :: bs).rdropWhile p = as ++ a :: bs.rdropWhile p := by
  induction bs using List.reverseRecOn with
  | nil => exact List.rdropWhile_concat_neg _ _ _ (by simp [h])
  | append_singleton bs b ih =>
      rw [← List.cons_append, ← List.append_assoc, List.rdropWhile_concat, List.rdropWhile_concat]
      split
      · exact ih
      · simp

/-! ## What survives on a line

Trimming takes nothing from the start of a line up to something visible, so the
first and the last line of a text can be told from how it starts and ends. -/

theorem exists_first_line (cs : List Char) :
    ∃ first, '\n' ∉ first ∧ (cs = first ∨ ∃ below, cs = first ++ '\n' :: below) := by
  induction cs with
  | nil => exact ⟨[], by simp, .inl rfl⟩
  | cons c cs ih =>
      obtain ⟨first, hf, h⟩ := ih
      by_cases hc : c = '\n'
      · exact ⟨[], by simp, .inr ⟨cs, by simp [hc]⟩⟩
      · refine ⟨c :: first, by simp [hf, Ne.symm hc], ?_⟩
        rcases h with rfl | ⟨below, rfl⟩
        · exact .inl rfl
        · exact .inr ⟨below, rfl⟩

theorem exists_last_line {v : List Char} (u : List Char) (hv : '\n' ∉ v) :
    ∃ above k, splitLines (u ++ v) = above ++ [k ++ v] := by
  obtain ⟨last, hl, rfl | ⟨above, rfl⟩⟩ := exists_last_piece '\n' u
  · exact ⟨[], u, splitLines_of_not_mem (by simp [hl, hv])⟩
  · have hline : splitLines (last ++ v) = [last ++ v] :=
      splitLines_of_not_mem (by simp [hl, hv])
    refine ⟨splitLines above, last, ?_⟩
    rw [List.append_assoc, List.cons_append, splitLines_append, hline]

theorem prefix_trimEnd {v : List Char} (first : List Char) (hv : IsVisibleLine v) :
    v <+: trimEnd (v ++ first) := by
  by_cases hblank : trimEnd first = []
  · have hall : ∀ c ∈ first, isBlank c = true := List.rdropWhile_eq_nil_iff.mp hblank
    induction first using List.reverseRecOn with
    | nil => simp only [List.append_nil, hv.trimEnd_eq, List.prefix_rfl]
    | append_singleton first c ih =>
        have hc : isBlank c = true := hall c (by simp)
        rw [← List.append_assoc, trimEnd_concat_blank _ hc]
        rw [trimEnd_concat_blank _ hc] at hblank
        exact ih hblank fun d hd => hall d (by simp [hd])
  · rw [trimEnd_append _ hblank]
    exact List.prefix_append _ _

end Ambient.Text
