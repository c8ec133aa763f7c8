import Ambient.Proofs.Paragraphs
import Mathlib.Data.List.Forall2
import Mathlib.Data.List.Infix

/-!
# Blocks are comments

A block is one comment: it opens in its first line, is closed at its very end and
nowhere before, and each of its lines is one line (`IsComment`).  That is so for
the block around any lines that hold neither `*/` nor a line feed
(`isComment_block`).

What is written for a declaration or a method are such lines if the texts hold no
`*/`.  Nothing that shapes a text brings the star and the slash together: what
stands between two texts is a space or a line feed (`ClosingFree.append_cons`),
tidied lines are starts of lines of the text, and when the text of a parameter is
brought onto one line a space stays where a line break was
(`ClosingFree.unbroken`).
-/

namespace Ambient

open Text

/-! ## The end of a comment -/

def closing : List Char :=
  ['*', '/']

/-- Nothing in the text closes a comment. -/
def ClosingFree (text : List Char) : Prop :=
  ¬ closing <:+: text

instance (text : List Char) : Decidable (ClosingFree text) :=
  inferInstanceAs (Decidable (¬ closing <:+: text))

/-- The text closes a comment at its end and nowhere else. -/
def ClosesAtEnd (text : List Char) : Prop :=
  closing <:+ text ∧ ∀ above below, text = above ++ closing ++ below → below = []

namespace ClosingFree

variable {text other : List Char}

theorem mono (h : ClosingFree text) (hin : other <:+: text) : ClosingFree other :=
  fun hother => h (hother.trans hin)

theorem trimEnd (h : ClosingFree text) : ClosingFree (trimEnd text) :=
  h.mono (List.rdropWhile_prefix isBlank text).isInfix

/-- Two texts with a character between them that is neither a star nor a slash. -/
theorem append_cons (h : ClosingFree text) (hother : ClosingFree other) {c : Char}
    (hc : c ∉ closing) : ClosingFree (text ++ c :: other) := by
  rintro ⟨above, below, heq⟩
  have hstar : c ≠ '*' := by rintro rfl; exact hc (by decide)
  have hslash : c ≠ '/' := by rintro rfl; exact hc (by decide)
  rw [List.append_assoc] at heq
  rcases List.append_eq_append_iff.mp heq with ⟨rest, htext, hbehind⟩ | ⟨rest, habove, hbehind⟩
  · -- The star stands in the first text, and so does the slash.
    match rest, hbehind with
    | [], hbehind => exact hstar (List.cons.inj hbehind).1.symm
    | [_], hbehind => exact hslash (List.cons.inj (List.cons.inj hbehind).2).1.symm
    | a :: b :: rest, hbehind =>
        obtain ⟨ha, hbehind⟩ := List.cons.inj hbehind
        have hb := (List.cons.inj hbehind).1
        exact h ⟨above, rest, by rw [htext, ← ha, ← hb]; simp [closing]⟩
  · match rest, hbehind with
    | [], hbehind => exact hstar (List.cons.inj hbehind).1
    | a :: rest, hbehind =>
        have htext := (List.cons.inj hbehind).2
        exact hother ⟨rest, below, by rw [htext, List.append_assoc]; rfl⟩

theorem append_space (h : ClosingFree text) (hother : ClosingFree other) :
    ClosingFree (text ++ ' ' :: other) :=
  h.append_cons hother (by decide)

theorem joinLines {ls : List (List Char)} (h : ∀ l ∈ ls, ClosingFree l) :
    ClosingFree (joinLines ls) := by
  induction ls using List.reverseRecOn with
  | nil => simp [ClosingFree, Text.joinLines, closing]
  | append_singleton ls l ih =>
      have hl : ClosingFree l := h l (by simp)
      by_cases hls : ls = []
      · subst hls
        simpa [Text.joinLines] using hl
      · rw [joinLines_concat l hls]
        exact (ih fun k hk => h k (List.mem_append_left _ hk)).append_cons hl (by decide)

end ClosingFree

theorem infix_of_mem_splitLines {cs line : List Char} (h : line ∈ splitLines cs) :
    line <:+: cs := by
  rw [← joinLines_splitLines cs]
  generalize splitLines cs = ls at h
  cases ls with
  | nil => exact absurd h List.not_mem_nil
  | cons l ls =>
      rw [joinLines_cons]
      rcases List.mem_cons.mp h with rfl | h
      · exact (List.prefix_append _ _).isInfix
      · have hfeed : line <:+: '\n' :: line := (List.suffix_cons _ _).isInfix
        have hlater : '\n' :: line <:+: ls.flatMap ('\n' :: ·) :=
          List.infix_of_mem_flatten (List.mem_map_of_mem h)
        exact (hfeed.trans hlater).trans (List.suffix_append _ _).isInfix

theorem ClosingFree.mem_splitLines {cs line : List Char} (h : ClosingFree cs)
    (hline : line ∈ splitLines cs) : ClosingFree line :=
  h.mono (infix_of_mem_splitLines hline)

theorem ClosingFree.mem_tidyLines {doc : String} (h : ClosingFree doc.toList) {line : List Char}
    (hline : line ∈ tidyLines doc) : ClosingFree line := by
  have hne : splitLines doc.toList ≠ [] := by simp [splitLines]
  have hcollapsed : ∀ l ∈ collapseBlanks (splitLines doc.toList), ClosingFree l := by
    intro l hl
    obtain ⟨k, hk, hpre⟩ := prefix_of_mem_collapseBlanks hne hl
    exact (h.mem_splitLines hk).mono hpre.isInfix
  exact (ClosingFree.joinLines hcollapsed).trimEnd.mem_splitLines hline

/-! ## One line -/

theorem lineFeed_not_mem_unbroken (gap : Bool) (cs : List Char) : '\n' ∉ unbroken gap cs := by
  induction cs generalizing gap with
  | nil => exact List.not_mem_nil
  | cons c cs ih =>
      rw [unbroken]
      split
      · exact ih true
      · split
        · exact List.not_mem_cons_of_ne_of_not_mem (by decide) (ih true)
        · rename_i hc
          exact List.not_mem_cons_of_ne_of_not_mem (Ne.symm hc) (ih false)

theorem filter_unbroken {p : Char → Bool} (hp : ∀ c, isBlank c = true → p c = false) (gap : Bool)
    (cs : List Char) : (unbroken gap cs).filter p = cs.filter p := by
  have hspace : p ' ' = false := hp ' ' (by decide)
  induction cs generalizing gap with
  | nil => rfl
  | cons c cs ih =>
      rw [unbroken]
      split
      · rename_i hskip
        have hc : p c = false := hp c (Bool.and_eq_true_iff.mp hskip).2
        rw [ih, List.filter_cons_of_neg (by simp [hc])]
      · split
        · rename_i hc
          have hfeed : p c = false := hp c (hc ▸ by decide)
          rw [List.filter_cons_of_neg (by simp [hspace]), ih,
            List.filter_cons_of_neg (by simp [hfeed])]
        · rw [List.filter_cons, List.filter_cons, ih]

/-- What a text on one line begins with, unless it is a space, the text began with. -/
theorem head?_unbroken {c : Char} {cs : List Char} (h : (unbroken false cs).head? = some c)
    (hc : c ≠ ' ') : cs.head? = some c := by
  cases cs with
  | nil => exact nomatch h
  | cons d cs =>
      rw [unbroken, Bool.false_and] at h
      split at h
      · rename_i hskip
        exact nomatch hskip
      · split at h
        · exact absurd (Option.some.inj h).symm hc
        · exact h

/-- A text on one line closes a comment only where the text did. -/
theorem ClosingFree.unbroken {cs : List Char} (h : ClosingFree cs) (gap : Bool) :
    ClosingFree (unbroken gap cs) := by
  induction cs generalizing gap with
  | nil => exact h
  | cons c cs ih =>
      have hrest : ClosingFree cs := h.mono (List.suffix_cons c cs).isInfix
      rw [Ambient.unbroken]
      split
      · exact ih hrest true
      · split
        · have hnil : ClosingFree [] := by decide
          exact hnil.append_space (ih hrest true)
        · intro hin
          rcases List.infix_cons_iff.mp hin with hstart | hinside
          · -- The slash behind the star was behind it in the text.
            obtain ⟨rfl, hslash⟩ := List.cons_prefix_cons.mp hstart
            obtain ⟨rest, hrest'⟩ := hslash
            have hhead : cs.head? = some '/' :=
              head?_unbroken (by rw [← hrest']; rfl) (by decide)
            obtain ⟨tail, rfl⟩ := List.head?_eq_some_iff.mp hhead
            exact h ⟨[], tail, rfl⟩
          · exact ih hrest false hinside

/-! ## Blocks -/

/-- The lines of one comment: it is opened in the first line and closed at the end
of the last one, and nowhere before; each line between begins with a star. -/
structure IsComment (lines : List String) : Prop where
  shape : ∃ inner, lines = ["/**"] ++ inner ++ [" */"] ∧
    ∀ l ∈ inner, " * ".toList <+: l.toList
  lineFeed_not_mem : ∀ l ∈ lines, '\n' ∉ l.toList
  closes : ClosesAtEnd (joinLines (lines.map String.toList))

theorem closesAtEnd_append {body : List Char} (h : ClosingFree (body ++ ['*'])) :
    ClosesAtEnd (body ++ closing) := by
  refine ⟨List.suffix_append _ _, fun above below heq => ?_⟩
  cases below using List.reverseRecOn with
  | nil => rfl
  | append_singleton below c =>
      have hlast : (body ++ ['*']) ++ ['/'] = (above ++ closing ++ below) ++ [c] := by
        rw [List.append_assoc, List.append_assoc (above ++ closing)]
        exact heq
      obtain ⟨hbody, -⟩ := List.append_inj' hlast rfl
      exact absurd ⟨above, below, hbody.symm⟩ h

/-- **The block around lines is a comment** if none of them closes one or is broken. -/
theorem isComment_block {lines : List String} (hfeed : ∀ l ∈ lines, '\n' ∉ l.toList)
    (hfree : ∀ l ∈ lines, ClosingFree l.toList) : IsComment (block lines) := by
  have hstarred : ∀ l ∈ lines.map (" * " ++ ·), '\n' ∉ l.toList ∧ ClosingFree l.toList := by
    intro l hl
    obtain ⟨k, hk, rfl⟩ := List.mem_map.mp hl
    have htext : (" * " ++ k).toList = [' ', '*'] ++ ' ' :: k.toList := String.toList_append
    have hstar : ClosingFree [' ', '*'] := by decide
    rw [htext]
    exact ⟨by simpa using hfeed k hk, hstar.append_space (hfree k hk)⟩
  have hopened : ∀ l ∈ ["/**"] ++ lines.map (" * " ++ ·), '\n' ∉ l.toList ∧ ClosingFree l.toList :=
    List.forall_mem_cons.mpr ⟨by decide, hstarred⟩
  refine ⟨⟨lines.map (" * " ++ ·), rfl, fun l hl => ?_⟩, fun l hl => ?_, ?_⟩
  · obtain ⟨k, -, rfl⟩ := List.mem_map.mp hl
    rw [String.toList_append]
    exact List.prefix_append _ _
  · rcases List.mem_append.mp hl with hl | hl
    · exact (hopened l hl).1
    · rw [List.mem_singleton.mp hl]
      decide
  · rw [block, List.map_append, List.map_singleton, joinLines_concat _ (by simp)]
    generalize ["/**"] ++ lines.map (" * " ++ ·) = opened at hopened
    have hbody : ClosingFree (joinLines (opened.map String.toList)) := by
      refine ClosingFree.joinLines fun l hl => ?_
      obtain ⟨k, hk, rfl⟩ := List.mem_map.mp hl
      exact (hopened k hk).2
    have hclosed : ClosingFree (joinLines (opened.map String.toList) ++ ['\n', ' '] ++ ['*']) := by
      rw [List.append_assoc]
      exact hbody.append_cons (by decide) (by decide)
    simpa [closing] using closesAtEnd_append hclosed

/-! ## Declarations -/

theorem isComment_docBlock {doc : String} (h : ClosingFree doc.toList) :
    IsComment (docBlock doc) := by
  have hlines : ∀ l ∈ (tidyLines doc).map String.ofList,
      '\n' ∉ l.toList ∧ ClosingFree l.toList := by
    intro l hl
    obtain ⟨k, hk, rfl⟩ := List.mem_map.mp hl
    rw [String.toList_ofList]
    exact ⟨(mem_of_mem_splitOn hk).1, h.mem_tidyLines hk⟩
  exact isComment_block (fun l hl => (hlines l hl).1) fun l hl => (hlines l hl).2

/-! ## Methods -/

/-- No text of the method closes a comment, and those that are written into a line
as they are hold no line feed. -/
structure Method.FitsComment (m : Method) : Prop where
  doc : ClosingFree m.doc.toList
  url : ClosingFree m.url.toList ∧ '\n' ∉ m.url.toList
  names : ∀ p ∈ m.parameters, ClosingFree p.name.toList ∧ '\n' ∉ p.name.toList
  docs : ∀ p ∈ m.parameters, ClosingFree p.doc.toList

/-- A line that names the parameter and holds what can be seen of its text. -/
def Parameter.ShownBy (p : Parameter) (line : String) : Prop :=
  ∃ text, line = " * @param " ++ p.name ++ " " ++ text ∧
    text.toList.filter (!isBlank ·) = p.doc.toList.filter (!isBlank ·)

theorem Parameter.toList_docLine (p : Parameter) :
    p.docLine.toList =
      "@param".toList ++ ' ' :: (p.name.toList ++ ' ' :: unbroken false p.doc.toList) := by
  simp [docLine]

theorem Parameter.docLine_spec {p : Parameter}
    (hname : ClosingFree p.name.toList ∧ '\n' ∉ p.name.toList) (hdoc : ClosingFree p.doc.toList) :
    '\n' ∉ p.docLine.toList ∧ ClosingFree p.docLine.toList := by
  have htag : ClosingFree "@param".toList := by decide
  rw [p.toList_docLine]
  refine ⟨?_, htag.append_space (hname.1.append_space (hdoc.unbroken false))⟩
  simpa using ⟨hname.2, lineFeed_not_mem_unbroken false p.doc.toList⟩

theorem Parameter.shownBy_docLine (p : Parameter) : p.ShownBy (" * " ++ p.docLine) := by
  refine ⟨String.ofList (unbroken false p.doc.toList), ?_, ?_⟩
  · rw [Parameter.docLine, ← String.append_assoc, ← String.append_assoc, ← String.append_assoc]
    rfl
  · rw [String.toList_ofList]
    exact filter_unbroken (fun c hc => by simp [hc]) false p.doc.toList

theorem Method.docBlock_eq (m : Method) :
    ∃ parameterLines,
      m.docBlock = ["/**"] ++ (splitLines m.doc.toList).map (" * " ++ String.ofList ·) ++
        [" * " ++ m.url] ++ parameterLines ++ [" */"] ∧
      List.Forall₂ Parameter.ShownBy m.parameters parameterLines := by
  refine ⟨m.parameters.map fun p => " * " ++ p.docLine, ?_, ?_⟩
  · rw [docBlock, block, List.map_append, List.map_append, List.map_map, List.map_map]
    simp [Function.comp_def]
  · exact List.forall₂_map_right_iff.mpr (List.forall₂_same.mpr fun p _ => p.shownBy_docLine)

theorem Method.FitsComment.isComment {m : Method} (h : m.FitsComment) : IsComment m.docBlock := by
  have hlines : ∀ l ∈ (splitLines m.doc.toList).map String.ofList ++ [m.url] ++
      m.parameters.map Parameter.docLine, '\n' ∉ l.toList ∧ ClosingFree l.toList := by
    intro l hl
    rcases List.mem_append.mp hl with hl | hl
    · rcases List.mem_append.mp hl with hl | hl
      · obtain ⟨k, hk, rfl⟩ := List.mem_map.mp hl
        rw [String.toList_ofList]
        exact ⟨(mem_of_mem_splitOn hk).1, h.doc.mem_splitLines hk⟩
      · exact List.mem_singleton.mp hl ▸ h.url.symm
    · obtain ⟨p, hp, rfl⟩ := List.mem_map.mp hl
      exact Parameter.docLine_spec (h.names p hp) (h.docs p hp)
  exact isComment_block (fun l hl => (hlines l hl).1) fun l hl => (hlines l hl).2

/-- **Documentation stays inside its comment.**  If the text of a declaration does
not close a comment, its block is one; if the texts of a method do not, its block
is one, and it holds the lines of its text as they are, its URL, and a line for
each parameter that keeps what can be seen of the parameter's text. -/
theorem docBlocks_are_comments :
    (∀ doc : String, ClosingFree doc.toList → IsComment (docBlock doc)) ∧
    ∀ m : Method, m.FitsComment → IsComment m.docBlock ∧
      ∃ parameterLines,
        m.docBlock = ["/**"] ++ (splitLines m.doc.toList).map (" * " ++ String.ofList ·) ++
          [" * " ++ m.url] ++ parameterLines ++ [" */"] ∧
        List.Forall₂ Parameter.ShownBy m.parameters parameterLines := by
  constructor
  · intro doc hdoc
    exact isComment_docBlock hdoc
  · intro m hm
    exact ⟨hm.isComment, m.docBlock_eq⟩

/-- The text of this method, and that of its parameter, hold a star in front of a
line feed and a slash behind it. -/
def starredMethod : Method where
  name := "run"
  parameters := [{ name := "path", type := { name := "String" }, doc := "a *\n\t/ b" }]
  doc := "Runs *\n/ it."
  url := "https://example.com/run"

/-- The blocks of that method and of its text are comments. -/
theorem starredMethod_is_comment :
    ClosingFree starredMethod.doc.toList ∧ IsComment (docBlock starredMethod.doc) ∧
      starredMethod.FitsComment ∧ IsComment starredMethod.docBlock := by
  have hdoc : ClosingFree starredMethod.doc.toList := by decide
  have hfits : starredMethod.FitsComment :=
    ⟨hdoc, by decide, by decide, by decide⟩
  obtain ⟨hdeclaration, hmethod⟩ := docBlocks_are_comments
  exact ⟨hdoc, hdeclaration _ hdoc, hfits, (hmethod _ hfits).1⟩

end Ambient
