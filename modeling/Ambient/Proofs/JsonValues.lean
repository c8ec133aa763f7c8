import Ambient.Json.Record
import Ambient.Proofs.JsonTexts
import Ambient.Proofs.SortedContent
import Mathlib.Data.List.TakeWhile

/-!
# Reading values back

`Reads value a w` says that a reader reads `w` as `a`, behind any blanks and
whatever follows.  Texts, lists, maps and records are read back in every form
that the format has for them: items with blanks around them, a text with any
escapes, the members of an object in any order, and members of unknown name in
a record that passes over them.

A list, a map and a record are all parts between brackets.  `Parts` holds what
they share, and each of the three readers is one induction on it; the limit
only has to be as long as the parts.
-/

namespace Ambient.Json

/-- The ways to write a value. -/
abbrev Form (α : Type) :=
  α → List Char → Prop

/-! ## Blanks -/

def Blanks (ws : List Char) : Prop :=
  ∀ c ∈ ws, isBlank c = true

theorem Blanks.nil : Blanks [] :=
  fun _ h => absurd h List.not_mem_nil

theorem skipBlanks_append {ws s : List Char} {c : Char} (hws : Blanks ws)
    (hc : isBlank c = false) : skipBlanks (ws ++ c :: s) = c :: s := by
  rw [skipBlanks, List.dropWhile_append_of_pos hws, List.dropWhile_cons_of_neg (by simp [hc])]

/-! ## What a reader reads -/

/-- A reader reads `w` as a value, behind blanks and whatever follows.  A
written value does not begin like the end of a list. -/
structure Reads {α : Type} (value : Reader α) (a : α) (w : List Char) : Prop where
  start : ∃ c rest, w = c :: rest ∧ isBlank c = false ∧ c ≠ ']'
  read : ∀ ws rest : List Char, Blanks ws → value (ws ++ (w ++ rest)) = .ok (a, rest)

theorem Reads.map {α β : Type} {value : Reader α} {a : α} {w : List Char} (f : α → β)
    (h : Reads value a w) : Reads (fun s => (value s).map fun p => (f p.1, p.2)) (f a) w where
  start := h.start
  read := by
    intro ws rest hws
    show (value (ws ++ (w ++ rest))).map _ = _
    rw [h.read ws rest hws]
    rfl

def textForm : Form String :=
  fun s w => ∃ body, TextForm s.toList body ∧ w = '"' :: (body ++ ['"'])

theorem reads_text {s : String} {w : List Char} (h : textForm s w) : Reads text s w := by
  obtain ⟨body, hbody, rfl⟩ := h
  refine ⟨⟨_, _, rfl, rfl, by decide⟩, ?_⟩
  intro ws rest hws
  unfold text
  rw [List.cons_append, skipBlanks_append hws rfl, List.append_assoc,
    List.singleton_append]
  simp only [textBody_append hbody, String.ofList_toList]

theorem head?_of_textForm {s : String} {w : List Char} (h : textForm s w) :
    w.head? ≠ some 'n' := by
  obtain ⟨body, -, rfl⟩ := h
  simp

def booleanForm : Form Bool
  | true, w => w = ['t', 'r', 'u', 'e']
  | false, w => w = ['f', 'a', 'l', 's', 'e']

theorem word_append (cs rest : List Char) : word cs (cs ++ rest) = .ok ((), rest) := by
  induction cs with
  | nil => rfl
  | cons c cs ih => rw [List.cons_append, word, if_pos rfl, ih]

/-- A reader that goes on with the rest of a word behind its first letter reads the word. -/
theorem reads_word {α : Type} {value : Reader α} {a : α} {c : Char} {cs : List Char}
    (hblank : isBlank c = false) (hcloser : c ≠ ']')
    (h : ∀ s rest, skipBlanks s = c :: rest → value s = (word cs rest).map fun p => (a, p.2)) :
    Reads value a (c :: cs) := by
  refine ⟨⟨c, cs, rfl, hblank, hcloser⟩, fun ws rest hws => ?_⟩
  have hskip : skipBlanks (ws ++ (c :: cs ++ rest)) = c :: (cs ++ rest) :=
    skipBlanks_append hws hblank
  rw [h _ _ hskip, word_append]
  rfl

theorem reads_boolean {b : Bool} {w : List Char} (h : booleanForm b w) : Reads boolean b w := by
  cases b with
  | true =>
      obtain rfl := h
      refine reads_word rfl (by decide) fun s rest hs => ?_
      rw [boolean, hs]
      rfl
  | false =>
      obtain rfl := h
      refine reads_word rfl (by decide) fun s rest hs => ?_
      rw [boolean, hs]
      rfl

/-- A value stands for itself where it may be left out. -/
theorem reads_optional {α : Type} {value : Reader α} {a : α} {w : List Char}
    (h : Reads value a w) (hnull : w.head? ≠ some 'n') : Reads (optional value) (some a) w := by
  refine ⟨h.start, ?_⟩
  obtain ⟨c, w', rfl, hblank, -⟩ := h.start
  intro ws rest hws
  have hc : c ≠ 'n' := fun heq => hnull (by rw [heq]; rfl)
  have hvalue : value (c :: (w' ++ rest)) = .ok (a, rest) := h.read [] rest .nil
  unfold optional
  rw [List.cons_append, skipBlanks_append hws hblank]
  split
  · rename_i heq
    exact absurd (List.cons_eq_cons.mp heq).1 hc
  · rw [hvalue]
    rfl

theorem reads_optional_null {α : Type} (value : Reader α) :
    Reads (optional value) none ['n', 'u', 'l', 'l'] := by
  refine reads_word rfl (by decide) fun s rest hs => ?_
  rw [optional, hs]
  rfl

/-- A value, or the word `null` if there is none. -/
def nullableForm {α : Type} (value : Form α) : Form (Option α)
  | none, w => w = ['n', 'u', 'l', 'l']
  | some a, w => value a w

theorem reads_nullable {α : Type} {form : Form α} {value : Reader α}
    (hvalue : ∀ a w, form a w → Reads value a w ∧ w.head? ≠ some 'n') {a : Option α}
    {w : List Char} (h : nullableForm form a w) : Reads (optional value) a w := by
  cases a with
  | none =>
      obtain rfl := h
      exact reads_optional_null value
  | some a =>
      obtain ⟨hreads, hnull⟩ := hvalue a w h
      exact reads_optional hreads hnull

/-! ## Parts between brackets -/

/-- What stands in front of a part: blanks, and a comma unless it is the first. -/
inductive Gap : Bool → List Char → Prop where
  | first {ws : List Char} : Blanks ws → Gap true ws
  | comma {ws ws' : List Char} : Blanks ws → Blanks ws' → Gap false (ws ++ ',' :: ws')

/-- Parts with their gaps, and the closing bracket behind them; the Boolean
tells whether no part came before. -/
inductive Parts {β : Type} (closer : Char) (part : Form β) : Bool → List β → List Char → Prop where
  | nil {first : Bool} {ws : List Char} : Blanks ws → Parts closer part first [] (ws ++ [closer])
  | cons {first : Bool} {gap w rest : List Char} {b : β} {bs : List β} : Gap first gap →
      part b w → Parts closer part false bs rest →
      Parts closer part first (b :: bs) (gap ++ (w ++ rest))

theorem Parts.map {β γ : Type} {closer : Char} {part : Form β} {part' : Form γ} (f : β → γ)
    {first : Bool} {bs : List β} {w : List Char} (h : Parts closer part first bs w)
    (hpart : ∀ b v, part b v → part' (f b) v) : Parts closer part' first (bs.map f) w := by
  induction h with
  | nil hws => exact .nil hws
  | cons hgap hb _ ih => exact .cons hgap (hpart _ _ hb) ih

/-! ## Lists -/

def listForm {α : Type} (item : Form α) : Form (List α) :=
  fun as w => ∃ parts, Parts ']' item true as parts ∧ w = '[' :: parts

theorem nextItem_closer {ws : List Char} (hws : Blanks ws) (first : Bool) (rest : List Char) :
    nextItem first (ws ++ ']' :: rest) = .ok (false, ']' :: rest) := by
  rw [nextItem, skipBlanks_append hws rfl]
  rfl

theorem nextItem_gap {first : Bool} {gap : List Char} (hgap : Gap first gap) {c : Char}
    (hblank : isBlank c = false) (hcloser : c ≠ ']') (rest : List Char) :
    nextItem first (gap ++ c :: rest) = .ok (true, c :: rest) := by
  cases hgap with
  | first hws =>
      rw [nextItem, skipBlanks_append hws hblank]
      simp
  | comma hws hws' =>
      rw [nextItem, List.append_assoc, List.cons_append, skipBlanks_append hws rfl]
      simp [skipBlanks_append hws' hblank, hcloser]

theorem itemsFrom_append {α : Type} {item : Form α} {value : Reader α}
    (hitem : ∀ a w, item a w → Reads value a w) {first : Bool} {as : List α} {parts : List Char}
    (h : Parts ']' item first as parts) :
    ∀ (seen : List α) (limit rest : List Char), parts.length ≤ limit.length →
      itemsFrom value first seen limit (parts ++ rest) = .ok (seen.reverse ++ as, rest) := by
  induction h with
  | @nil first ws hws =>
      intro seen limit rest hlimit
      have hstep : ws.length < limit.length := by
        rwa [List.length_append, List.length_singleton] at hlimit
      obtain ⟨l, limit, rfl, -⟩ := exists_limit_step hstep
      rw [itemsFrom, List.append_assoc, List.singleton_append, nextItem_closer hws,
        List.append_nil]
      rfl
  | @cons first gap w parts a as hgap ha _ ih =>
      intro seen limit rest hlimit
      obtain ⟨c, w', rfl, hblank, hcloser⟩ := (hitem a w ha).start
      have hread := (hitem a _ ha).read [] (parts ++ rest) .nil
      have hstep : parts.length < limit.length := by
        rw [List.length_append, List.length_append, List.length_cons] at hlimit
        omega
      obtain ⟨l, limit, rfl, hshorter⟩ := exists_limit_step hstep
      rw [itemsFrom, List.append_assoc, List.append_assoc, List.cons_append,
        nextItem_gap hgap hblank hcloser]
      rw [List.nil_append, List.cons_append] at hread
      simp only [hread]
      rw [ih _ _ _ hshorter, List.reverse_cons, List.append_assoc, List.singleton_append]

theorem reads_list {α : Type} {item : Form α} {value : Reader α}
    (hitem : ∀ a w, item a w → Reads value a w) {as : List α} {w : List Char}
    (h : listForm item as w) : Reads (list value) as w := by
  obtain ⟨parts, hparts, rfl⟩ := h
  refine ⟨⟨_, _, rfl, rfl, by decide⟩, ?_⟩
  intro ws rest hws
  unfold list
  rw [List.cons_append, skipBlanks_append hws rfl]
  exact itemsFrom_append hitem hparts [] _ rest (by rw [List.length_append]; omega)

theorem reads_textSet {as : List String} {w : List Char} (h : listForm textForm as w) :
    Reads textSet (.ofList as) w :=
  (reads_list (fun _ _ => reads_text) h).map SortedSet.ofList

/-! ## Whole texts -/

theorem Blanks.skipBlanks_eq_nil {ws : List Char} (h : Blanks ws) : skipBlanks ws = [] :=
  List.dropWhile_eq_nil_iff.mpr h

theorem readAll_ofList {α : Type} {value : Reader α} {a : α} {s rest : List Char}
    (h : value s = .ok (a, rest)) (hrest : Blanks rest) :
    readAll value (String.ofList s) = .ok a := by
  unfold readAll
  simp only [String.toList_ofList, h, hrest.skipBlanks_eq_nil]

/-- A text that holds one value between blanks is read as that value. -/
theorem readAll_of_reads {α : Type} {value : Reader α} {a : α} {w ws ws' : List Char}
    (h : Reads value a w) (hws : Blanks ws) (hws' : Blanks ws') :
    readAll value (String.ofList (ws ++ (w ++ ws'))) = .ok a :=
  readAll_ofList (h.read ws ws' hws) hws'

end Ambient.Json
