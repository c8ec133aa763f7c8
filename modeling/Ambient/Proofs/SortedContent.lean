import Ambient.Description
import Ambient.SortedSet
import Mathlib.Data.List.Induction
import Mathlib.Data.List.Perm.Basic
import Mathlib.Data.List.Sort

/-!
# The content of sorted maps and sets

A look-up finds an entry exactly if the entry is there, and filling a map with
the entries of a map, in any order and also repeatedly, gives that map again.
The last fact is what lets a written container be read back.  Of several entries
with one key the one that is filled in last is found.  A map whose values are
worked on one by one is looked up by working on the value that is found.

Filling in ascending order only ever appends, so refilling is one induction with
the part that is already there in front.  Any other order gives the same map
because insertions under two keys commute.  A set is told by its members.
-/

namespace Ambient

theorem lookup_cons_eq_ite {α β : Type} [BEq α] [LawfulBEq α] [DecidableEq α] (key k : α) (v : β)
    (l : List (α × β)) : ((key, v) :: l).lookup k = if k = key then some v else l.lookup k := by
  rw [List.lookup_cons]
  by_cases hk : k = key
  · rw [if_pos hk, beq_iff_eq.mpr hk]
  · rw [if_neg hk, beq_eq_false_iff_ne.mpr hk]

/-! ## Appending at the end -/

theorem insertEntry_of_forall_lt {β : Type} {key : String} {value : β} :
    ∀ {l : List (String × β)}, (∀ e ∈ l, e.1 < key) →
      insertEntry key value l = l ++ [(key, value)]
  | [], _ => rfl
  | (k, v) :: rest, h => by
      have hk : k < key := h (k, v) List.mem_cons_self
      have hrest : ∀ e ∈ rest, e.1 < key := fun e he => h e (List.mem_cons_of_mem _ he)
      have hnot : ¬ key < k := fun hlt => String.lt_irrefl _ (String.lt_trans hk hlt)
      have hne : key ≠ k := fun heq => String.lt_irrefl _ (heq ▸ hk)
      rw [insertEntry, if_neg hnot, if_neg hne, insertEntry_of_forall_lt hrest, List.cons_append]

theorem insertEntry_comm {β : Type} {key key' : String} (hne : key ≠ key') (value value' : β)
    (l : List (String × β)) : insertEntry key value (insertEntry key' value' l) =
      insertEntry key' value' (insertEntry key value l) := by
  have hasymm : ∀ {a b : String}, a < b → ¬ b < a :=
    fun h h' => String.lt_irrefl _ (String.lt_trans h h')
  have htotal : ¬ key < key' → key' < key :=
    fun h => Decidable.byContradiction fun h' => hne (text_eq_of_not_lt h h')
  induction l with
  | nil => grind [insertEntry]
  | cons e rest ih => grind [insertEntry, String.lt_trans]

/-! ## Maps -/

namespace SortedMap

variable {β : Type}

theorem value_unique {m : SortedMap β} {key : String} {v w : β} (hv : (key, v) ∈ m.entries)
    (hw : (key, w) ∈ m.entries) : v = w := by
  obtain ⟨l, r, hl⟩ := List.append_of_mem hv
  have hsorted := m.sorted
  rw [hl] at hw hsorted
  obtain ⟨-, hr, hlr⟩ := List.pairwise_append.mp hsorted
  rcases List.mem_append.mp hw with hw | hw
  · exact absurd (hlr _ hw _ List.mem_cons_self) (String.lt_irrefl _)
  · rcases List.mem_cons.mp hw with heq | hw
    · exact (congrArg Prod.snd heq).symm
    · exact absurd ((List.pairwise_cons.mp hr).1 _ hw) (String.lt_irrefl _)

theorem get?_eq_some_iff {m : SortedMap β} {key : String} {v : β} :
    m.get? key = some v ↔ (key, v) ∈ m.entries := by
  constructor
  · intro h
    obtain ⟨l, r, hl, -⟩ := List.lookup_eq_some_iff.mp h
    rw [hl]
    exact List.mem_append_right _ List.mem_cons_self
  · intro h
    have hsome : (m.entries.lookup key).isSome = true :=
      List.lookup_isSome_iff.mpr ⟨_, h, by simp⟩
    obtain ⟨w, hw⟩ := Option.isSome_iff_exists.mp hsome
    obtain ⟨l, r, hl, -⟩ := List.lookup_eq_some_iff.mp hw
    have hmem : (key, w) ∈ m.entries := by
      rw [hl]
      exact List.mem_append_right _ List.mem_cons_self
    rw [get?, hw, value_unique h hmem]

theorem lookup_insertEntry {key k : String} {value : β} (l : List (String × β)) :
    (insertEntry key value l).lookup k = if k = key then some value else l.lookup k := by
  induction l with
  | nil => exact lookup_cons_eq_ite key k value []
  | cons e l ih =>
      obtain ⟨k', v⟩ := e
      rw [insertEntry]
      split
      · exact lookup_cons_eq_ite key k value _
      · split
        · rename_i heq
          subst heq
          rw [lookup_cons_eq_ite, lookup_cons_eq_ite]
          split <;> rfl
        · rename_i hne
          rw [lookup_cons_eq_ite, lookup_cons_eq_ite, ih]
          by_cases hk : k = key
          · have hk' : k ≠ k' := hk ▸ hne
            rw [if_neg hk', if_pos hk, if_pos hk]
          · rw [if_neg hk, if_neg hk]

theorem get?_insert (m : SortedMap β) (key k : String) (value : β) :
    (m.insert key value).get? k = if k = key then some value else m.get? k :=
  lookup_insertEntry m.entries

/-- Of several values under one key the last one is found. -/
theorem get?_ofList (pairs : List (String × β)) (key : String) :
    (ofList pairs).get? key = pairs.reverse.lookup key := by
  induction pairs using List.reverseRecOn with
  | nil => rfl
  | append_singleton pairs p ih =>
      have hstep : ofList (pairs ++ [p]) = (ofList pairs).insert p.1 p.2 := List.foldl_append
      rw [hstep, get?_insert, ih, List.reverse_append, List.reverse_singleton,
        List.singleton_append, lookup_cons_eq_ite]

theorem mem_keys {m : SortedMap β} {key : String} : key ∈ m.keys ↔ ∃ v, m.get? key = some v := by
  rw [keys, List.mem_map]
  constructor
  · rintro ⟨⟨k, v⟩, he, rfl⟩
    exact ⟨v, get?_eq_some_iff.mpr he⟩
  · rintro ⟨v, hv⟩
    exact ⟨(key, v), get?_eq_some_iff.mp hv, rfl⟩

theorem pairwise_keys (m : SortedMap β) : m.keys.Pairwise fun a b => a < b := by
  rw [keys, List.pairwise_map]
  exact m.sorted

theorem nodup_keys (m : SortedMap β) : m.keys.Nodup := by
  refine m.pairwise_keys.imp fun {a b} hlt heq => ?_
  subst heq
  exact String.lt_irrefl _ hlt

/-- Filling goes on at the end of a map as long as the keys ascend. -/
theorem entries_foldl_insert (l : List (String × β)) :
    ∀ m : SortedMap β, (m.entries ++ l).Pairwise (fun a b => a.1 < b.1) →
      (l.foldl (fun m p => m.insert p.1 p.2) m).entries = m.entries ++ l := by
  induction l with
  | nil => exact fun m _ => (List.append_nil _).symm
  | cons e l ih =>
      intro m h
      have hlast : ∀ p ∈ m.entries, p.1 < e.1 := fun p hp =>
        (List.pairwise_append.mp h).2.2 p hp e List.mem_cons_self
      have hentries : (m.insert e.1 e.2).entries = m.entries ++ [e] :=
        insertEntry_of_forall_lt hlast
      have hnext := ih (m.insert e.1 e.2) (by rwa [hentries, List.append_assoc])
      rw [List.foldl_cons, hnext, hentries, List.append_assoc, List.singleton_append]

theorem ofList_entries (m : SortedMap β) : ofList m.entries = m :=
  ext (entries_foldl_insert m.entries empty m.sorted)

theorem insert_comm {key key' : String} (hne : key ≠ key') (value value' : β) (m : SortedMap β) :
    (m.insert key value).insert key' value' = (m.insert key' value').insert key value :=
  ext (insertEntry_comm hne.symm value' value m.entries)

theorem ofList_of_perm {l : List (String × β)} {m : SortedMap β} (h : l.Perm m.entries) :
    ofList l = m := by
  have hcomm : ∀ p ∈ l, ∀ q ∈ l, ∀ n : SortedMap β,
      (n.insert p.1 p.2).insert q.1 q.2 = (n.insert q.1 q.2).insert p.1 p.2 := by
    intro p hp q hq n
    rcases eq_or_ne p.1 q.1 with heq | hne
    · -- one key has one value, so it is the same entry twice
      obtain ⟨k, v⟩ := p
      obtain ⟨k', w⟩ := q
      obtain rfl : k = k' := heq
      rw [value_unique (h.mem_iff.mp hp) (h.mem_iff.mp hq)]
    · exact insert_comm hne _ _ n
  calc ofList l = ofList m.entries := h.foldl_eq' hcomm empty
    _ = m := ofList_entries m

/-- A map is filled by its own entries, in any order and with repetitions. -/
theorem ofList_of_mem_iff {l : List (String × β)} {m : SortedMap β}
    (h : ∀ e, e ∈ l ↔ e ∈ m.entries) : ofList l = m := by
  have hfound : ∀ key v, (ofList l).get? key = some v → (key, v) ∈ m.entries := by
    intro key v hv
    rw [get?_ofList] at hv
    obtain ⟨l₁, l₂, hl, -⟩ := List.lookup_eq_some_iff.mp hv
    rw [← h, ← List.mem_reverse, hl]
    exact List.mem_append_right _ List.mem_cons_self
  refine ext (List.Pairwise.eq_of_mem_iff (ofList l).sorted m.sorted fun e => ?_)
  obtain ⟨key, v⟩ := e
  constructor
  · exact fun he => hfound key v (get?_eq_some_iff.mpr he)
  · intro he
    -- Something is found under the key, and it can only be this value.
    have hsome : (l.reverse.lookup key).isSome = true :=
      List.lookup_isSome_iff.mpr ⟨(key, v), List.mem_reverse.mpr ((h _).mpr he), by simp⟩
    rw [← get?_ofList] at hsome
    obtain ⟨w, hw⟩ := Option.isSome_iff_exists.mp hsome
    rw [value_unique he (hfound key w hw)]
    exact get?_eq_some_iff.mp hw

/-- The map with what `f` makes of each value, without the keys for which it
makes nothing. -/
def filterMap {γ : Type} (f : β → Option γ) (m : SortedMap β) : SortedMap γ where
  entries := m.entries.filterMap fun e => (f e.2).map (e.1, ·)
  sorted := by
    rw [List.pairwise_filterMap]
    refine m.sorted.imp fun {a b} hlt a' ha b' hb => ?_
    obtain ⟨v, -, rfl⟩ := Option.map_eq_some_iff.mp ha
    obtain ⟨w, -, rfl⟩ := Option.map_eq_some_iff.mp hb
    exact hlt

theorem get?_filterMap {γ : Type} (f : β → Option γ) (m : SortedMap β) (key : String) :
    (m.filterMap f).get? key = (m.get? key).bind f := by
  ext w
  rw [get?_eq_some_iff, Option.bind_eq_some_iff]
  constructor
  · intro h
    obtain ⟨⟨k, v⟩, hv, hw⟩ := List.mem_filterMap.mp h
    obtain ⟨w', hw', heq⟩ := Option.map_eq_some_iff.mp hw
    obtain ⟨rfl, rfl⟩ := Prod.mk.inj heq
    exact ⟨v, get?_eq_some_iff.mpr hv, hw'⟩
  · rintro ⟨v, hv, hw⟩
    exact List.mem_filterMap.mpr ⟨(key, v), get?_eq_some_iff.mp hv, by rw [hw]; rfl⟩

theorem keys_filterMap_some {γ : Type} (f : β → γ) (m : SortedMap β) :
    (m.filterMap fun v => some (f v)).keys = m.keys := by
  unfold keys filterMap
  rw [List.map_filterMap]
  exact congrFun List.filterMap_eq_map m.entries

end SortedMap

/-! ## Sets -/

namespace SortedSet

theorem mem_ofList {l : List String} {x : String} : x ∈ ofList l ↔ x ∈ l := by
  have hfold : ∀ s : SortedSet, x ∈ l.foldl insert s ↔ x ∈ l ∨ x ∈ s := by
    induction l with
    | nil => exact fun s => by simp
    | cons t l ih =>
        intro s
        rw [List.foldl_cons, ih, mem_insert, List.mem_cons]
        exact or_left_comm.trans or_assoc.symm
  exact (hfold empty).trans (or_iff_left List.not_mem_nil)

/-- A set is filled by its own members, in any order and with repetitions. -/
theorem ofList_of_mem_iff {l : List String} {s : SortedSet} (h : ∀ x, x ∈ l ↔ x ∈ s) :
    ofList l = s :=
  ext (List.Pairwise.eq_of_mem_iff (ofList l).sorted s.sorted fun x => mem_ofList.trans (h x))

end SortedSet

/-! ## Categories -/

/-- The declarations that are rendered are those that are not absent. -/
theorem Category.mem_present {c : Category} {key : String} {d : Declaration} :
    (key, d) ∈ c.present ↔ c.declarations.get? key = some (some d) := by
  rw [SortedMap.get?_eq_some_iff, Category.present, List.mem_filterMap]
  constructor
  · rintro ⟨⟨k, decl⟩, he, h⟩
    obtain ⟨d', rfl, h'⟩ := Option.map_eq_some_iff.mp h
    obtain ⟨rfl, rfl⟩ := Prod.mk.inj h'
    exact he
  · exact fun h => ⟨_, h, rfl⟩

end Ambient
