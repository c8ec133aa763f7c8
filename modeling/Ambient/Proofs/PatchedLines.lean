import Ambient.Proofs.FinishedLines
import Ambient.Proofs.PatchMarks

/-!
# Lines with a name that occurs twice

The patch goes through a whole text from left to right, but what it does to a
line depends on that line alone: if the label, a name with its colon, starts
there at two or more word boundaries, the last of these labels gets a `_`
before its colon (`apply_marks_last_label`).

`starts` lists the places at which a label starts.  The search for the last
start gives the last entry of that list, and as two labels never overlap, the
list of a line that begins with a label is the first place and the places
behind that label (`starts_append_label`).
-/

namespace Ambient.ParameterPatch

open Text

/-! ## The places where a label starts -/

/-- The places at which a label starts in a text that stands behind `before`. -/
def starts (label : List Char) (before : Option Char) (s : List Char) : List Nat :=
  (List.range s.length).filter fun i => startsAt label ((s.take i).getLast?.or before) (s.drop i)

/-- A text with a `_` at one place. -/
def mark (place : Nat) (s : List Char) : List Char :=
  s.take place ++ '_' :: s.drop place

/-- A line, standing behind `before`, with a `_` before the colon of the last of
its labels, if there are at least two of them. -/
def patchedLine (name : List Char) (before : Option Char) (line : List Char) : List Char :=
  let places := starts (label name) before line
  if 2 ≤ places.length then mark (places.getLastD 0 + name.length) line else line

theorem mark_cons (place : Nat) (c : Char) (s : List Char) :
    mark (1 + place) (c :: s) = c :: mark place s := by
  rw [Nat.add_comm]
  rfl

section Starts

variable {lab : List Char} {before : Option Char}

theorem starts_append (p s : List Char) :
    starts lab before (p ++ s) =
      ((List.range p.length).filter fun i =>
        startsAt lab ((p.take i).getLast?.or before) (p.drop i ++ s)) ++
      (starts lab (p.getLast?.or before) s).map (p.length + ·) := by
  unfold starts
  rw [List.length_append, List.range_add, List.filter_append, List.filter_map]
  congr 1
  · refine List.filter_congr fun i hi => ?_
    have hle : i ≤ p.length := (List.mem_range.mp hi).le
    rw [List.take_append_of_le_length hle, List.drop_append_of_le_length hle]
  · refine congrArg _ (List.filter_congr fun i _ => ?_)
    show startsAt lab (((p ++ s).take (p.length + i)).getLast?.or before)
      ((p ++ s).drop (p.length + i)) = _
    rw [List.take_length_add_append, List.drop_length_add_append, List.getLast?_append,
      Option.or_assoc]

theorem starts_cons (c : Char) (s : List Char) :
    starts lab before (c :: s) =
      (if startsAt lab before (c :: s) then [0] else []) ++
        (starts lab (some c) s).map (1 + ·) := by
  have hsplit : starts lab before ([c] ++ s) = _ ++ (starts lab (some c) s).map _ :=
    starts_append [c] s
  have hhead : ((List.range 1).filter fun i =>
      startsAt lab (([c].take i).getLast?.or before) ([c].drop i ++ s)) =
      if startsAt lab before (c :: s) then [0] else [] := by
    rw [List.range_one, List.filter_singleton, Bool.cond_eq_ite]
    rfl
  rwa [List.length_singleton, hhead] at hsplit

end Starts

/-! ## Two labels do not overlap -/

section Label

variable {name : List Char}

theorem length_label (name : List Char) : (label name).length = name.length + 1 := by
  rw [label, List.length_append, List.length_singleton]

/-- Behind its first character, no label starts inside a label: its colon would
be in the name. -/
theorem not_prefix_drop_label (hcolon : ':' ∉ name) {i : Nat} (hpos : 0 < i)
    (hi : i < (label name).length) (x : List Char) :
    ¬ label name <+: (label name).drop i ++ x := by
  intro hprefix
  rw [length_label] at hi
  have hdrop : (label name).drop i = name.drop i ++ [':'] :=
    List.drop_append_of_le_length (by omega)
  have hname : name <+: (label name).drop i ++ x := (List.prefix_append name [':']).trans hprefix
  have hlength : ((label name).drop i).length ≤ name.length := by
    rw [List.length_drop, length_label]
    omega
  have hinside : (label name).drop i <+: name :=
    List.prefix_of_prefix_length_le (List.prefix_append _ x) hname hlength
  rw [hdrop] at hinside
  exact hcolon (hinside.subset (List.mem_append_right _ (List.mem_singleton_self _)))

/-- A label at the start of a text is followed by the labels behind it. -/
theorem starts_append_label (hcolon : ':' ∉ name) {before : Option Char} {x : List Char}
    (hstart : startsAt (label name) before (label name ++ x) = true) :
    starts (label name) before (label name ++ x) =
      0 :: (starts (label name) (some ':') x).map ((label name).length + ·) := by
  have hlast : (label name).getLast?.or before = some ':' := by
    rw [label, List.getLast?_append, List.getLast?_singleton]
    rfl
  have hinside : ∀ i ∈ List.range name.length,
      ¬ startsAt (label name) (((label name).take (i + 1)).getLast?.or before)
        ((label name).drop (i + 1) ++ x) = true := by
    intro i hi h
    have hlt := List.mem_range.mp hi
    exact not_prefix_drop_label hcolon (Nat.succ_pos i) (by rw [length_label]; omega) x
      (List.isPrefixOf_iff_prefix.mp (Bool.and_eq_true_iff.mp h).2)
  have hfirst : ((List.range (label name).length).filter fun i =>
      startsAt (label name) (((label name).take i).getLast?.or before)
        ((label name).drop i ++ x)) = [0] := by
    have hhere : startsAt (label name) (((label name).take 0).getLast?.or before)
        ((label name).drop 0 ++ x) = true := hstart
    rw [length_label, List.range_succ_eq_map, List.filter_cons, if_pos hhere, List.filter_map]
    exact congrArg (0 :: ·) (List.map_eq_nil_iff.mpr (List.filter_eq_nil_iff.mpr hinside))
  rw [starts_append, hlast, hfirst]
  rfl

end Label

/-! ## The search on one line -/

section Line

variable {name : List Char}

theorem startsAt_nil (name : List Char) (before : Option Char) :
    startsAt (label name) before [] = false := by
  cases name <;> simp [startsAt, label]

theorem lastStart?_eq_getLast? {s : List Char} (hline : '\n' ∉ s) (before : Option Char) :
    lastStart? (label name) before s = (starts (label name) before s).getLast? := by
  induction s generalizing before with
  | nil =>
      rw [lastStart?, startsAt_nil]
      rfl
  | cons c rest ih =>
      obtain ⟨hc, hrest⟩ : '\n' ≠ c ∧ '\n' ∉ rest := by simpa using hline
      rw [lastStart?, if_neg hc.symm, ih hrest, starts_cons, List.getLast?_append, List.getLast?_map]
      cases (starts (label name) (some c) rest).getLast? with
      | some n => simp [Nat.add_comm]
      | none =>
          by_cases hstart : startsAt (label name) before (c :: rest) = true
          · simp [hstart]
          · simp [hstart]

/-- The place that is patched, where the line begins with a label: the last of
the labels behind it. -/
theorem target?_label {x : List Char} (hline : '\n' ∉ x) {before : Option Char}
    (hstart : startsAt (label name) before (label name ++ x) = true) :
    target? (label name) before (label name ++ x) =
      (starts (label name) (some ':') x).getLast?.map fun n =>
        (label name).length + n + name.length := by
  have hlast : (label name).getLast? = some ':' := by
    rw [label, List.getLast?_append, List.getLast?_singleton]
    rfl
  have hlength : (label name).length - 1 = name.length := by
    rw [length_label, Nat.add_sub_cancel]
  rw [target?, if_pos hstart, hlast, List.drop_left, lastStart?_eq_getLast? hline, hlength]

end Line

/-! ## Patching one line -/

section Patch

variable {name : List Char} {before : Option Char}

theorem patchFrom_pending (lab start : List Char) (c : Char) (rest : List Char) :
    patchFrom lab before (some start.length) (start ++ c :: rest) =
      start ++ '_' :: c :: patchFrom lab (some c) none rest := by
  induction start generalizing before with
  | nil => rfl
  | cons d start ih => exact congrArg (d :: ·) ih

/-- The pending place as seen from the next character. -/
def advance : Option Nat → Option Nat
  | some (n + 1) => some n
  | _ => none

theorem patchFrom_cons (lab : List Char) (before : Option Char) (c : Char) (rest : List Char) :
    patchFrom lab before none (c :: rest) =
      c :: patchFrom lab (some c) (advance (target? lab before (c :: rest))) rest := by
  rw [patchFrom]
  split <;> rename_i heq <;> rw [heq] <;> rfl

theorem patchFrom_of_no_target {lab rest : List Char} {c : Char}
    (h : target? lab before (c :: rest) = none) :
    patchFrom lab before none (c :: rest) = c :: patchFrom lab (some c) none rest := by
  rw [patchFrom_cons, h]
  rfl

theorem patchFrom_of_target {lab start rest : List Char} {c : Char} (hne : start ≠ [])
    (h : target? lab before (start ++ c :: rest) = some start.length) :
    patchFrom lab before none (start ++ c :: rest) =
      start ++ '_' :: c :: patchFrom lab (some c) none rest := by
  cases start with
  | nil => exact absurd rfl hne
  | cons d start =>
      rw [List.cons_append] at h ⊢
      rw [patchFrom_cons, h]
      exact congrArg (d :: ·) (patchFrom_pending lab start c rest)

theorem patchFrom_of_length_starts (hcolon : ':' ∉ name) {s : List Char} (hline : '\n' ∉ s)
    (h : (starts (label name) before s).length < 2) :
    patchFrom (label name) before none s = s := by
  induction s generalizing before with
  | nil => rw [patchFrom]
  | cons c rest ih =>
      obtain ⟨-, hrest⟩ : '\n' ≠ c ∧ '\n' ∉ rest := by simpa using hline
      have hlater : (starts (label name) (some c) rest).length < 2 := by
        rw [starts_cons, List.length_append, List.length_map] at h
        omega
      have htarget : target? (label name) before (c :: rest) = none := by
        by_cases hstart : startsAt (label name) before (c :: rest) = true
        · obtain ⟨x, hx⟩ :=
            List.isPrefixOf_iff_prefix.mp (Bool.and_eq_true_iff.mp hstart).2
          rw [← hx] at hstart h hline ⊢
          rw [starts_append_label hcolon hstart, List.length_cons, List.length_map] at h
          have hnone : starts (label name) (some ':') x = [] :=
            List.eq_nil_of_length_eq_zero (by omega)
          rw [target?_label (fun hmem => hline (List.mem_append_right _ hmem)) hstart, hnone]
          rfl
        · rw [target?, if_neg hstart]
      rw [patchFrom_of_no_target htarget, ih hrest hlater]

theorem exists_last_label (hcolon : ':' ∉ name) {x : List Char} {n : Nat}
    (h : (starts (label name) before x).getLast? = some n) :
    ∃ a y, x = a ++ (label name ++ y) ∧ a.length = n ∧ starts (label name) (some ':') y = [] := by
  obtain ⟨hrange, hstart⟩ := List.mem_filter.mp (List.mem_of_getLast? h)
  obtain ⟨y, hy⟩ := List.isPrefixOf_iff_prefix.mp (Bool.and_eq_true_iff.mp hstart).2
  have hlength : (x.take n).length = n := List.length_take_of_le (List.mem_range.mp hrange).le
  have hx : x = x.take n ++ (label name ++ y) := by
    rw [hy, List.take_append_drop]
  refine ⟨x.take n, y, hx, hlength, ?_⟩
  -- A later label would be a later entry of the list.
  rw [← hy] at hstart
  rw [hx, starts_append, starts_append_label hcolon hstart, hlength, List.getLast?_append,
    List.map_cons, List.getLast?_cons, Option.some_or] at h
  by_contra hne
  rw [List.getLast?_map, List.getLast?_map, List.getLast?_eq_some_getLast hne] at h
  have heq : n + ((label name).length + _) = n := Option.some.inj h
  rw [length_label] at heq
  omega

theorem patchFrom_label (hcolon : ':' ∉ name) {x : List Char} (hline : '\n' ∉ x)
    (hstart : startsAt (label name) before (label name ++ x) = true) {n : Nat}
    (hlast : (starts (label name) (some ':') x).getLast? = some n) :
    patchFrom (label name) before none (label name ++ x) =
      mark ((label name).length + n + name.length) (label name ++ x) := by
  obtain ⟨a, y, rfl, rfl, hnone⟩ := exists_last_label hcolon hlast
  have htarget := target?_label hline hstart
  rw [hlast, Option.map_some] at htarget
  -- The text up to the colon of the last label, and that colon.
  obtain ⟨start, hbegin⟩ : ∃ start, start = label name ++ (a ++ name) := ⟨_, rfl⟩
  have hplace : (label name).length + a.length + name.length = start.length := by
    rw [hbegin, List.length_append, List.length_append, Nat.add_assoc]
  have htext : label name ++ (a ++ (label name ++ y)) = start ++ ':' :: y := by
    rw [hbegin]
    simp only [label, List.append_assoc, List.cons_append, List.nil_append]
  have hy : '\n' ∉ y := fun hmem =>
    hline (List.mem_append_right _ (List.mem_append_right _ hmem))
  have hrest : patchFrom (label name) (some ':') none y = y :=
    patchFrom_of_length_starts hcolon hy (by rw [hnone]; decide)
  have hne : start ≠ [] := by
    rw [hbegin, label]
    simp
  rw [htext, hplace] at htarget
  rw [htext, hplace, patchFrom_of_target hne htarget, hrest, mark, List.take_left, List.drop_left]

/-- **On one line the patch is told by the places of the labels.** -/
theorem patchFrom_eq_patchedLine (hcolon : ':' ∉ name) {line : List Char} (hline : '\n' ∉ line)
    (before : Option Char) :
    patchFrom (label name) before none line = patchedLine name before line := by
  induction line generalizing before with
  | nil => rfl
  | cons c rest ih =>
      obtain ⟨hc, hrest⟩ : '\n' ≠ c ∧ '\n' ∉ rest := by simpa using hline
      by_cases htwo : 2 ≤ (starts (label name) before (c :: rest)).length
      · rw [patchedLine, if_pos htwo]
        by_cases hstart : startsAt (label name) before (c :: rest) = true
        · obtain ⟨x, hx⟩ := List.isPrefixOf_iff_prefix.mp (Bool.and_eq_true_iff.mp hstart).2
          rw [← hx] at hstart htwo hline ⊢
          rw [starts_append_label hcolon hstart] at htwo ⊢
          have hne : starts (label name) (some ':') x ≠ [] := by
            rw [List.length_cons, List.length_map] at htwo
            exact List.ne_nil_of_length_pos (by omega)
          have hlast := List.getLast?_eq_some_getLast hne
          rw [patchFrom_label hcolon (fun hmem => hline (List.mem_append_right _ hmem)) hstart hlast,
            List.getLastD_cons, List.getLastD_eq_getLast?, List.getLast?_map, hlast]
          rfl
        · have hlater : starts (label name) before (c :: rest) =
              (starts (label name) (some c) rest).map (1 + ·) := by
            rw [starts_cons, if_neg hstart, List.nil_append]
          rw [hlater, List.length_map] at htwo
          have hne : starts (label name) (some c) rest ≠ [] :=
            List.ne_nil_of_length_pos (by omega)
          have hlast := List.getLast?_eq_some_getLast hne
          have htarget : target? (label name) before (c :: rest) = none := by
            rw [target?, if_neg hstart]
          rw [patchFrom_of_no_target htarget, ih hrest, patchedLine, if_pos htwo, hlater,
            List.getLastD_eq_getLast?, List.getLastD_eq_getLast?, List.getLast?_map, hlast]
          simp only [Option.map_some, Option.getD_some, Nat.add_assoc, mark_cons]
      · rw [patchedLine, if_neg htwo]
        exact patchFrom_of_length_starts hcolon hline (Nat.lt_of_not_le htwo)

end Patch

/-! ## Line by line -/

section Lines

variable {name : List Char}

theorem isWordSide_feed : isWordSide (some '\n') = false := by
  decide +kernel

/-- A label that begins on a line ends on that line. -/
theorem label_prefix_append_feed (hfeed : '\n' ∉ name) {s rest : List Char} :
    label name <+: s ++ '\n' :: rest ↔ label name <+: s := by
  refine ⟨fun h => ?_, fun h => h.trans (List.prefix_append _ _)⟩
  have hlabel : '\n' ∉ label name := by
    rw [label, List.mem_append, not_or]
    exact ⟨hfeed, by decide⟩
  rcases List.prefix_or_prefix_of_prefix h (List.prefix_append s _) with hinside | ⟨extra, hextra⟩
  · exact hinside
  · rw [← hextra, List.prefix_append_right_inj] at h
    cases extra with
    | nil =>
        rw [List.append_nil] at hextra
        exact hextra ▸ List.prefix_rfl
    | cons c extra =>
        obtain ⟨rfl, -⟩ := List.cons_prefix_cons.mp h
        rw [← hextra] at hlabel
        exact absurd (List.mem_append_right _ List.mem_cons_self) hlabel

theorem startsAt_append_feed (hfeed : '\n' ∉ name) (before : Option Char) (s rest : List Char) :
    startsAt (label name) before (s ++ '\n' :: rest) = startsAt (label name) before s := by
  have hprefix : (label name).isPrefixOf (s ++ '\n' :: rest) = (label name).isPrefixOf s := by
    rw [Bool.eq_iff_iff, List.isPrefixOf_iff_prefix, List.isPrefixOf_iff_prefix]
    exact label_prefix_append_feed hfeed
  have hside : isWordSide (s ++ '\n' :: rest).head? = isWordSide s.head? := by
    cases s with
    | nil => exact isWordSide_feed
    | cons c s => rfl
  rw [startsAt, startsAt, hprefix, isWordBoundary, isWordBoundary, hside]

theorem lastStart?_append_feed (hfeed : '\n' ∉ name) {s : List Char} (hline : '\n' ∉ s)
    (before : Option Char) (rest : List Char) :
    lastStart? (label name) before (s ++ '\n' :: rest) = lastStart? (label name) before s := by
  have hstart := startsAt_append_feed hfeed before s rest
  induction s generalizing before with
  | nil =>
      rw [List.nil_append] at hstart ⊢
      rw [lastStart?, lastStart?, hstart]
      rfl
  | cons c s ih =>
      obtain ⟨hc, hs⟩ : '\n' ≠ c ∧ '\n' ∉ s := by simpa using hline
      have hlater := ih hs (some c) (startsAt_append_feed hfeed _ s rest)
      rw [List.cons_append] at hstart ⊢
      rw [lastStart?, lastStart?, hstart, hlater]

theorem target?_append_feed (hfeed : '\n' ∉ name) {s : List Char} (hline : '\n' ∉ s)
    (before : Option Char) (rest : List Char) :
    target? (label name) before (s ++ '\n' :: rest) = target? (label name) before s := by
  rw [target?, target?, startsAt_append_feed hfeed]
  by_cases hstart : startsAt (label name) before s = true
  · have hprefix := List.isPrefixOf_iff_prefix.mp (Bool.and_eq_true_iff.mp hstart).2
    rw [List.drop_append_of_le_length hprefix.length_le,
      lastStart?_append_feed hfeed fun hmem => hline (List.mem_of_mem_drop hmem)]
  · rw [if_neg hstart, if_neg hstart]

/-- A line is patched without a look at those below it, which are patched as if
the text began with them. -/
theorem patchFrom_append_feed (hfeed : '\n' ∉ name) {line : List Char} (hline : '\n' ∉ line)
    (before : Option Char) (pending : Option Nat) (rest : List Char)
    (hpending : ∀ n, pending = some n → n < line.length) :
    patchFrom (label name) before pending (line ++ '\n' :: rest) =
      patchFrom (label name) before pending line ++
        '\n' :: patchFrom (label name) (some '\n') none rest := by
  induction line generalizing before pending with
  | nil =>
      have htarget : target? (label name) before ('\n' :: rest) = none := by
        have hnone := target?_append_feed hfeed (s := []) List.not_mem_nil before rest
        rw [List.nil_append] at hnone
        rw [hnone, target?, startsAt_nil]
        rfl
      cases pending with
      | some n => exact absurd (hpending n rfl) (Nat.not_lt_zero n)
      | none =>
          rw [List.nil_append, patchFrom_of_no_target htarget]
          rfl
  | cons c line ih =>
      obtain ⟨-, hrest⟩ : '\n' ≠ c ∧ '\n' ∉ line := by simpa using hline
      have hnone : ∀ n, (none : Option Nat) = some n → n < line.length :=
        fun n h => absurd h.symm (Option.some_ne_none n)
      have hsome : ∀ k, k + 1 < (c :: line).length → ∀ n, some k = some n → n < line.length := by
        intro k hk n hn
        rw [← Option.some.inj hn]
        exact Nat.lt_of_succ_lt_succ hk
      cases pending with
      | some n =>
          cases n with
          | zero => exact congrArg ('_' :: c :: ·) (ih hrest _ none hnone)
          | succ k => exact congrArg (c :: ·) (ih hrest _ (some k) (hsome k (hpending _ rfl)))
      | none =>
          have htarget := target?_append_feed hfeed hline before rest
          have hpending : ∀ n, advance (target? (label name) before (c :: line)) = some n →
              n < line.length := by
            intro n hn
            cases hfound : target? (label name) before (c :: line) with
            | none =>
                rw [hfound] at hn
                exact absurd hn.symm (Option.some_ne_none n)
            | some place =>
                obtain ⟨hplace, -⟩ := List.getElem?_eq_some_iff.mp (target?_spec hfound).1
                cases place with
                | zero =>
                    rw [hfound] at hn
                    exact absurd hn.symm (Option.some_ne_none n)
                | succ m =>
                    rw [hfound] at hn
                    exact hsome m hplace n hn
          rw [List.cons_append] at htarget ⊢
          rw [patchFrom_cons, patchFrom_cons, htarget, ih hrest _ _ hpending]
          rfl

theorem patchFrom_feed (name s : List Char) :
    patchFrom (label name) (some '\n') none s = patchFrom (label name) none none s := by
  cases s with
  | nil => rfl
  | cons c rest =>
      have hstart : startsAt (label name) (some '\n') (c :: rest) =
          startsAt (label name) none (c :: rest) := by
        rw [startsAt, startsAt, isWordBoundary, isWordBoundary, isWordSide_feed]
        rfl
      have htarget : target? (label name) (some '\n') (c :: rest) =
          target? (label name) none (c :: rest) := by
        rw [target?, target?, hstart]
      rw [patchFrom_cons, patchFrom_cons, htarget]

theorem feed_not_mem_patchedLine {line : List Char} (hline : '\n' ∉ line) :
    '\n' ∉ patchedLine name none line := by
  unfold patchedLine mark
  dsimp only
  split_ifs
  · intro hmem
    rcases List.mem_append.mp hmem with hmem | hmem
    · exact hline (List.mem_of_mem_take hmem)
    · rcases List.mem_cons.mp hmem with heq | hmem
      · exact absurd heq (by decide)
      · exact hline (List.mem_of_mem_drop hmem)
  · exact hline

/-- **The lines of a patched text are the patched lines of the text.** -/
theorem splitLines_patchFrom (hcolon : ':' ∉ name) (hfeed : '\n' ∉ name) (text : List Char) :
    splitLines (patchFrom (label name) none none text) =
      (splitLines text).map (patchedLine name none) := by
  induction hn : text.length using Nat.strongRecOn generalizing text with
  | ind n ih =>
      by_cases hmem : '\n' ∈ text
      · obtain ⟨line, rest, rfl, hline⟩ := List.eq_append_cons_of_mem hmem
        have hshort : rest.length < n := by
          rw [← hn, List.length_append, List.length_cons]
          omega
        rw [patchFrom_append_feed hfeed hline none none rest (fun _ h => nomatch h), patchFrom_feed,
          patchFrom_eq_patchedLine hcolon hline, splitLines_append, splitLines_append,
          splitLines_of_not_mem hline, splitLines_of_not_mem (feed_not_mem_patchedLine hline),
          ih _ hshort rest rfl]
        rfl
      · rw [patchFrom_eq_patchedLine hcolon hmem, splitLines_of_not_mem hmem,
          splitLines_of_not_mem (feed_not_mem_patchedLine hmem)]
        rfl

end Lines

/-! ## The patch -/

/-- **What the patch for a name does to a text.**  It only puts `_` between an
occurrence of the name and the colon right after it.  If the name is made of
word characters, each line is patched by itself: the last of the places where
the name with its colon starts at a word boundary gets a `_`, if there are at
least two, and otherwise the line stays as it is. -/
theorem apply_marks_last_label (name text : String) :
    MarkedBehind name.toList [] text.toList (apply name text).toList ∧
    (name ≠ "" → (∀ c ∈ name.toList, isWordChar c = true) →
      splitLines (apply name text).toList =
        (splitLines text.toList).map (patchedLine name.toList none)) := by
  refine ⟨markedBehind_apply name text, fun _ hword => ?_⟩
  have hcolon : ':' ∉ name.toList := fun hmem =>
    absurd (hword ':' hmem) (by decide +kernel)
  have hfeed : '\n' ∉ name.toList := fun hmem =>
    absurd (hword '\n' hmem) (by decide +kernel)
  rw [apply, String.toList_ofList]
  exact splitLines_patchFrom hcolon hfeed text.toList

/-- Two lists of parameters: in the first one the name occurs twice, and once
inside another name; in the second one it occurs once. -/
def twoLists : String :=
  "sql: A, xsql: B, sql: C\nsql: D"

/-- Of the first list the third parameter is marked, and nothing of the second. -/
theorem twoLists_patched :
    ("sql" ≠ "" ∧ ∀ c ∈ "sql".toList, isWordChar c = true) ∧
      MarkedBehind "sql".toList [] twoLists.toList (apply "sql" twoLists).toList ∧
      splitLines (apply "sql" twoLists).toList =
        ["sql: A, xsql: B, sql_: C".toList, "sql: D".toList] := by
  have hname : "sql" ≠ "" := by decide
  have hword : ∀ c ∈ "sql".toList, isWordChar c = true :=
    List.all_eq_true.mp (by decide +kernel)
  obtain ⟨hmarked, hlines⟩ := apply_marks_last_label "sql" twoLists
  refine ⟨⟨hname, hword⟩, hmarked, (hlines hname hword).trans ?_⟩
  decide +kernel

end Ambient.ParameterPatch
