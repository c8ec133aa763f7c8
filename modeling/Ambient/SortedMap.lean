/-!
# Maps with text keys in ascending order

A `SortedMap β` is the list of its entries in strictly ascending key order
(code point by code point).  The order is part of the type, so two maps with
the same content are the SAME value, and walking a map never depends on the
order in which it was filled.

`insert` makes one pass and replaces the value of a key that is already
there: of several writes to one key the last one counts.
-/

namespace Ambient

/-! ## Entry lists -/

/-- Put `value` under `key` into an ascending entry list, replacing the value
that the key had. -/
def insertEntry {β : Type} (key : String) (value : β) : List (String × β) → List (String × β)
  | [] => [(key, value)]
  | (k, v) :: rest =>
      if key < k then (key, value) :: (k, v) :: rest
      else if key = k then (key, value) :: rest
      else (k, v) :: insertEntry key value rest

/-- The entries after an insertion are the new one and old ones. -/
theorem mem_insertEntry {β : Type} {key : String} {value : β} {e : String × β} :
    ∀ {l : List (String × β)}, e ∈ insertEntry key value l → e = (key, value) ∨ e ∈ l
  | [], h => by simpa [insertEntry] using h
  | (k, v) :: rest, h => by
      rw [insertEntry] at h
      split at h
      · exact List.mem_cons.mp h
      · split at h
        · exact (List.mem_cons.mp h).imp id (List.mem_cons_of_mem _)
        · rcases List.mem_cons.mp h with h | h
          · exact .inr (List.mem_cons.mpr (.inl h))
          · exact (mem_insertEntry h).imp id (List.mem_cons_of_mem _)

/-- Two texts of which neither is smaller are the same text. -/
theorem text_eq_of_not_lt {a b : String} (h : ¬ a < b) (h' : ¬ b < a) : a = b :=
  String.le_antisymm (String.not_lt.mp h') (String.not_lt.mp h)

/-- Insertion keeps the strict order. -/
theorem sorted_insertEntry {β : Type} {key : String} {value : β} :
    ∀ {l : List (String × β)}, l.Pairwise (fun a b => a.1 < b.1) →
      (insertEntry key value l).Pairwise (fun a b => a.1 < b.1)
  | [], _ => by simp [insertEntry]
  | (k, v) :: rest, h => by
      have hk : ∀ e ∈ rest, k < e.1 := (List.pairwise_cons.mp h).1
      have hr := (List.pairwise_cons.mp h).2
      rw [insertEntry]
      split
      · rename_i hlt
        refine List.pairwise_cons.mpr ⟨fun e he => ?_, h⟩
        rcases List.mem_cons.mp he with rfl | he
        · exact hlt
        · exact String.lt_trans hlt (hk e he)
      · split
        · rename_i heq
          exact List.pairwise_cons.mpr ⟨fun e he => heq ▸ hk e he, hr⟩
        · rename_i hnlt hne
          refine List.pairwise_cons.mpr ⟨fun e he => ?_, sorted_insertEntry hr⟩
          rcases mem_insertEntry he with rfl | he
          · exact Decidable.byContradiction fun h' => hne (text_eq_of_not_lt hnlt h')
          · exact hk e he

/-! ## The map -/

/-- A finite map with text keys; its entries stand in strictly ascending key order. -/
structure SortedMap (β : Type) where
  entries : List (String × β)
  sorted : entries.Pairwise fun a b => a.1 < b.1 := by simp
deriving DecidableEq

namespace SortedMap

variable {β : Type}

def empty : SortedMap β where
  entries := []

instance : EmptyCollection (SortedMap β) := ⟨empty⟩

instance : Inhabited (SortedMap β) := ⟨empty⟩

/-- The map with `value` under `key` and everything else unchanged. -/
def insert (m : SortedMap β) (key : String) (value : β) : SortedMap β where
  entries := insertEntry key value m.entries
  sorted := sorted_insertEntry m.sorted

/-- The map of a list of pairs; of several pairs with one key the last one counts. -/
def ofList (pairs : List (String × β)) : SortedMap β :=
  pairs.foldl (fun m p => m.insert p.1 p.2) empty

def get? (m : SortedMap β) (key : String) : Option β :=
  m.entries.lookup key

def keys (m : SortedMap β) : List String :=
  m.entries.map (·.1)

def size (m : SortedMap β) : Nat :=
  m.entries.length

def isEmpty (m : SortedMap β) : Bool :=
  m.entries.isEmpty

/-- Maps with the same entries are the same map. -/
theorem ext {m m' : SortedMap β} (h : m.entries = m'.entries) : m = m' := by
  cases m; cases m'; cases h; rfl

end SortedMap

end Ambient
