import Ambient.Proofs.Recording
import Mathlib.Data.List.FinRange

/-!
# Calls that share their references

All types of a module are written with one list of references, and a call that
writes a type may make that list longer.  Calls in a row could disturb each
other through it.  They do not: what a call yields is a function of the call
(`Scope.run_resolve`), and all that a call does to the list is to put its
foreign owner behind it, unless that is there already (`Scope.Grows`).

A run of calls keeps what each call keeps.  The list has no key twice and
starts with the foundational category (`References.IsRecord`), and its members
do not depend on the order of the calls.  `Scope.resolveAll_undisturbed` puts
this together for the results and the lists of a whole run.
-/

namespace Ambient

/-! ## Recorded keys -/

namespace References

variable {r : References} {foundational : String}

theorem mem_keys_insert {key k : String} : k ∈ (r.insert key).keys ↔ k ∈ r.keys ∨ k = key := by
  rw [keys_insert, List.mem_append]
  split_ifs with h
  · constructor
    · rintro (hk | hk)
      · exact .inl hk
      · exact absurd hk List.not_mem_nil
    · rintro (hk | rfl)
      · exact .inl hk
      · exact .inl h
  · rw [List.mem_singleton]

theorem mem_keys_insertAll {keys : List String} {k : String} :
    k ∈ (r.insertAll keys).keys ↔ k ∈ r.keys ∨ k ∈ keys := by
  induction keys generalizing r with
  | nil => exact (or_iff_left List.not_mem_nil).symm
  | cons key keys ih =>
      show k ∈ ((r.insert key).insertAll keys).keys ↔ _
      rw [ih, mem_keys_insert, List.mem_cons, or_assoc]

/-- What holds of references at all times: no key is in them twice, and the
first one is that of the foundational category. -/
structure IsRecord (r : References) (foundational : String) : Prop where
  nodup : r.keys.Nodup
  first : r.keys.head? = some foundational

theorem isRecord_start (foundational : String) : (start foundational).IsRecord foundational :=
  ⟨List.nodup_singleton foundational, rfl⟩

theorem IsRecord.insert (h : r.IsRecord foundational) (key : String) :
    (r.insert key).IsRecord foundational := by
  constructor
  · rw [keys_insert]
    split_ifs with hkey
    · rw [List.append_nil]
      exact h.nodup
    · rw [← List.concat_eq_append]
      exact h.nodup.concat hkey
  · rw [keys_insert, List.head?_append, h.first]
    rfl

theorem IsRecord.insertAll (h : r.IsRecord foundational) (keys : List String) :
    (r.insertAll keys).IsRecord foundational := by
  induction keys generalizing r with
  | nil => exact h
  | cons key keys ih => exact ih (h.insert key)

/-- Keys that are met in another order give the same members, in another order. -/
theorem IsRecord.perm_insertAll (h : r.IsRecord foundational) {keys keys' : List String}
    (hkeys : keys.Perm keys') : (r.insertAll keys).keys.Perm (r.insertAll keys').keys := by
  -- Without repetition the members alone decide, and they do not depend on the order.
  rw [List.perm_ext_iff_of_nodup (h.insertAll keys).nodup (h.insertAll keys').nodup]
  intro k
  rw [mem_keys_insertAll, mem_keys_insertAll, hkeys.mem_iff]

end References

/-! ## Calls -/

/-- A call: a member, the type it refers to and where it stands. -/
structure Use where
  name : String
  type : TypeRef
  site : Site

namespace Scope

/-- Write the member of one call. -/
def resolve (s : Scope) (u : Use) : StateM References String :=
  s.typedName u.name u.type u.site

/-- Write the members of several calls that share their references. -/
def resolveAll (s : Scope) (uses : List Use) : StateM References (List String) :=
  uses.mapM s.resolve

/-- The references after the first calls of a run. -/
def seenAfter (s : Scope) (r : References) (uses : List Use) (count : Nat) : References :=
  ((s.resolveAll (uses.take count)).run r).2

/-- What a call does to the references: they stay as they are, and behind them
stands the foreign owner of the call, if there is one that was not among them. -/
structure Grows (s : Scope) (u : Use) (before after : References) : Prop where
  kept : before.keys <+: after.keys
  size_le : after.size ≤ before.size + 1
  added : after.keys =
    before.keys ++ ((s.foreignOwner? u.type).filter (· ∉ before.keys)).toList

theorem run_resolve (s : Scope) (u : Use) (r : References) :
    (s.resolve u).run r =
      (s.typed u.name u.type u.site, r.insertAll (s.foreignOwner? u.type).toList) :=
  s.records_typedName u.name u.type u.site r

theorem run_resolveAll (s : Scope) (uses : List Use) (r : References) :
    (s.resolveAll uses).run r =
      (uses.map fun u => s.typed u.name u.type u.site,
        r.insertAll (s.owners (uses.map (·.type)))) := by
  rw [← flatMap_owner]
  exact Records.mapM (fun u : Use => s.records_typedName u.name u.type u.site) uses r

theorem grows_resolve (s : Scope) (u : Use) (r : References) :
    s.Grows u r ((s.resolve u).run r).2 := by
  have hadded : (r.insertAll (s.foreignOwner? u.type).toList).keys =
      r.keys ++ ((s.foreignOwner? u.type).filter (· ∉ r.keys)).toList := by
    cases howner : s.foreignOwner? u.type with
    | none => exact (List.append_nil r.keys).symm
    | some owner =>
        show (r.insert owner).keys = _
        rw [References.keys_insert, Option.filter_some]
        by_cases hmem : owner ∈ r.keys
        · rw [if_pos hmem, if_neg (by simpa using hmem)]
          rfl
        · rw [if_neg hmem, if_pos (by simpa using hmem)]
          rfl
  rw [run_resolve]
  refine ⟨?_, ?_, hadded⟩
  · rw [hadded]
    exact List.prefix_append _ _
  · rw [References.size, References.size, hadded, List.length_append]
    exact Nat.add_le_add_left (Option.length_toList_le) _

theorem seenAfter_eq (s : Scope) (r : References) (uses : List Use) (count : Nat) :
    s.seenAfter r uses count = r.insertAll (s.owners ((uses.take count).map (·.type))) := by
  rw [seenAfter, run_resolveAll]

theorem seenAfter_succ (s : Scope) (r : References) (uses : List Use) (i : Fin uses.length) :
    s.seenAfter r uses (i + 1) = ((s.resolve (uses.get i)).run (s.seenAfter r uses i)).2 := by
  have htake : uses.take (i + 1) = uses.take i ++ [uses.get i] :=
    List.take_succ_eq_append_getElem i.isLt
  rw [run_resolve, seenAfter_eq, seenAfter_eq, htake, List.map_append, List.map_singleton,
    owners_append, References.insertAll_append, owners_singleton]

theorem isRecord_seenAfter (s : Scope) {r : References} {foundational : String}
    (h : r.IsRecord foundational) (uses : List Use) (count : Nat) :
    (s.seenAfter r uses count).IsRecord foundational := by
  rw [seenAfter_eq]
  exact h.insertAll _

/-- **Calls do not disturb each other.**  The references may have met any
categories before.  The results of a run are what its calls yield one by one,
from whatever references; each call keeps the list that the calls before it left
and adds its foreign owner at most; the list has no key twice and starts with
the foundational category at all times; and calls in another order have the same
results in that order, and the same references up to their order. -/
theorem resolveAll_undisturbed (s : Scope) (foundational : String) (known : List String)
    (uses : List Use) :
    let r := (References.start foundational).insertAll known
    (∀ other : References, ((s.resolveAll uses).run r).1 =
        uses.map fun u => ((s.resolve u).run other).1) ∧
      (∀ i : Fin uses.length,
        s.seenAfter r uses (i + 1) = ((s.resolve (uses.get i)).run (s.seenAfter r uses i)).2 ∧
          s.Grows (uses.get i) (s.seenAfter r uses i) (s.seenAfter r uses (i + 1))) ∧
      (∀ count, (s.seenAfter r uses count).IsRecord foundational) ∧
      ∀ σ : Equiv.Perm (Fin uses.length),
        (∀ i : Fin uses.length,
          ((s.resolveAll (List.ofFn (uses.get ∘ σ))).run r).1[i.val]? =
            ((s.resolveAll uses).run r).1[(σ i).val]?) ∧
          ((s.resolveAll (List.ofFn (uses.get ∘ σ))).run r).2.keys.Perm
            ((s.resolveAll uses).run r).2.keys := by
  intro r
  have hr : r.IsRecord foundational := (References.isRecord_start foundational).insertAll known
  refine ⟨fun other => ?_, fun i => ⟨s.seenAfter_succ r uses i, ?_⟩,
    s.isRecord_seenAfter hr uses, fun σ => ⟨fun i => ?_, ?_⟩⟩
  · simp only [run_resolveAll, run_resolve]
  · rw [seenAfter_succ]
    exact s.grows_resolve (uses.get i) _
  · have hcall : (List.ofFn (uses.get ∘ σ))[i.val]? = uses[(σ i).val]? := by
      simp
    rw [run_resolveAll, run_resolveAll, List.getElem?_map, List.getElem?_map, hcall]
  · have hperm : (List.ofFn (uses.get ∘ σ)).Perm uses := by
      have hofFn := σ.ofFn_comp_perm uses.get
      rwa [List.ofFn_get] at hofFn
    rw [run_resolveAll, run_resolveAll]
    exact hr.perm_insertAll ((hperm.map _).filterMap _)

end Scope

end Ambient
