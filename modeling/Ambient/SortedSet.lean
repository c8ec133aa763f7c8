import Ambient.SortedMap

/-!
# Sets of texts in ascending order

A `SortedSet` is the strictly ascending list of its members, so two sets with
the same members are the SAME value and `toList` is their listing without
repetition.
-/

namespace Ambient

/-- Put a text into an ascending list, unless it is there. -/
def insertText (text : String) : List String → List String
  | [] => [text]
  | t :: rest =>
      if text < t then text :: t :: rest
      else if text = t then t :: rest
      else t :: insertText text rest

/-- The members after an insertion are the new one and the old ones. -/
theorem mem_insertText {text x : String} :
    ∀ {l : List String}, x ∈ insertText text l ↔ x = text ∨ x ∈ l
  | [] => by simp [insertText]
  | t :: rest => by
      rw [insertText]
      split
      · exact List.mem_cons
      · split
        · rename_i heq
          subst heq
          simp
        · simp only [List.mem_cons, mem_insertText]
          exact or_left_comm

/-- Insertion keeps the strict order. -/
theorem sorted_insertText {text : String} :
    ∀ {l : List String}, l.Pairwise (· < ·) → (insertText text l).Pairwise (· < ·)
  | [], _ => by simp [insertText]
  | t :: rest, h => by
      have ht : ∀ x ∈ rest, t < x := (List.pairwise_cons.mp h).1
      rw [insertText]
      split
      · rename_i hlt
        refine List.pairwise_cons.mpr ⟨fun x hx => ?_, h⟩
        rcases List.mem_cons.mp hx with rfl | hx
        · exact hlt
        · exact String.lt_trans hlt (ht x hx)
      · split
        · exact h
        · rename_i hnlt hne
          refine List.pairwise_cons.mpr ⟨fun x hx => ?_, sorted_insertText (List.pairwise_cons.mp h).2⟩
          rcases mem_insertText.mp hx with rfl | hx
          · exact Decidable.byContradiction fun h' => hne (text_eq_of_not_lt hnlt h')
          · exact ht x hx

/-- A finite set of texts, listed in strictly ascending order. -/
structure SortedSet where
  toList : List String
  sorted : toList.Pairwise (· < ·) := by simp
deriving DecidableEq

namespace SortedSet

def empty : SortedSet where
  toList := []

instance : EmptyCollection SortedSet := ⟨empty⟩

instance : Inhabited SortedSet := ⟨empty⟩

instance : Membership String SortedSet := ⟨fun s x => x ∈ s.toList⟩

instance (x : String) (s : SortedSet) : Decidable (x ∈ s) :=
  inferInstanceAs (Decidable (x ∈ s.toList))

def insert (s : SortedSet) (text : String) : SortedSet where
  toList := insertText text s.toList
  sorted := sorted_insertText s.sorted

def ofList (texts : List String) : SortedSet :=
  texts.foldl insert empty

def contains (s : SortedSet) (text : String) : Bool :=
  s.toList.contains text

theorem mem_insert {s : SortedSet} {text x : String} : x ∈ s.insert text ↔ x = text ∨ x ∈ s :=
  mem_insertText

/-- Sets with the same listing are the same set. -/
theorem ext {s s' : SortedSet} (h : s.toList = s'.toList) : s = s' := by
  cases s; cases s'; cases h; rfl

end SortedSet

end Ambient
