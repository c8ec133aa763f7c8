import Ambient.ParameterPatch
import Mathlib.Data.List.Basic

/-!
# What the patch of a parameter list writes

A patch only adds: the text stays as it is, apart from a `_` in front of some
of its colons.  `Marked s t` says that `t` is `s` with such marks, and
`MarkedBehind name seen s t` that each of them also stands right behind the name.

A patch for one name marks behind that name (`markedBehind_apply`).  Behind
which names the patches for several names mark is not followed: a later patch
sees the marks of an earlier one.  But the marks alone are transitive, so all
the patches together only mark (`marked_applyAll`).
-/

namespace Ambient.ParameterPatch

open Text

/-! ## Where a patch goes -/

theorem prefix_drop_of_lastStart? {label : List Char} :
    ∀ {before : Option Char} {s : List Char} {n : Nat},
      lastStart? label before s = some n → label <+: s.drop n
  | before, [], n, h => by
      rw [lastStart?] at h
      split at h
      · rename_i hstart
        obtain rfl := Option.some.inj h
        exact List.isPrefixOf_iff_prefix.mp (Bool.and_eq_true_iff.mp hstart).2
      · exact absurd h (by simp)
  | before, c :: rest, n, h => by
      rw [lastStart?] at h
      split at h
      · rename_i m hlater
        obtain rfl := Option.some.inj h
        rw [List.drop_succ_cons]
        split at hlater
        · exact absurd hlater (by simp)
        · exact prefix_drop_of_lastStart? hlater
      · split at h
        · rename_i hstart
          obtain rfl := Option.some.inj h
          exact List.isPrefixOf_iff_prefix.mp (Bool.and_eq_true_iff.mp hstart).2
        · exact absurd h (by simp)

/-- The place that is patched is a colon with the name in front of it. -/
theorem target?_spec {name : List Char} {before : Option Char} {s : List Char} {n : Nat}
    (h : target? (label name) before s = some n) :
    s[n]? = some ':' ∧ name <:+ s.take n := by
  rw [target?] at h
  split at h
  · obtain ⟨m, hm, rfl⟩ := Option.map_eq_some_iff.mp h
    obtain ⟨rest, hrest⟩ := prefix_drop_of_lastStart? hm
    have hlength : (label name).length = name.length + 1 := by simp [label]
    have hdrop : s.drop ((label name).length + m) = name ++ ':' :: rest := by
      rw [← List.drop_drop, ← hrest, label, List.append_assoc, List.singleton_append]
    have hplace : (label name).length + m + ((label name).length - 1) =
        (label name).length + m + name.length := by omega
    rw [hplace]
    constructor
    · rw [← List.getElem?_drop, hdrop]
      simp
    · rw [List.take_add, hdrop, List.take_left]
      exact List.suffix_append _ _
  · exact absurd h (by simp)

/-! ## Marks -/

/-- The second text is the first one with a `_` in front of some colons. -/
inductive Marked : List Char → List Char → Prop where
  | nil : Marked [] []
  | keep (c : Char) {s t : List Char} : Marked s t → Marked (c :: s) (c :: t)
  | mark {s t : List Char} : Marked (':' :: s) t → Marked (':' :: s) ('_' :: t)

namespace Marked

theorem refl : ∀ s : List Char, Marked s s
  | [] => .nil
  | c :: s => .keep c (refl s)

theorem trans {s t u : List Char} (hst : Marked s t) (htu : Marked t u) : Marked s u := by
  induction htu generalizing s with
  | nil => exact hst
  | keep c h ih =>
      cases hst with
      | keep _ hs => exact .keep c (ih hs)
      | mark hs => exact .mark (ih hs)
  | mark h ih =>
      cases hst with
      | keep _ hs => exact .mark (ih (.keep _ hs))

/-- A text in two parts is marked part by part. -/
theorem exists_append {s₁ s₂ t : List Char} (h : Marked (s₁ ++ s₂) t) :
    ∃ t₁ t₂, t = t₁ ++ t₂ ∧ Marked s₁ t₁ ∧ Marked s₂ t₂ := by
  generalize hs : s₁ ++ s₂ = s at h
  induction h generalizing s₁ with
  | nil =>
      obtain ⟨rfl, rfl⟩ := List.append_eq_nil_iff.mp hs
      exact ⟨[], [], rfl, .nil, .nil⟩
  | @keep c s t h ih =>
      cases s₁ with
      | nil =>
          obtain rfl : s₂ = c :: s := hs
          exact ⟨[], c :: t, rfl, .nil, .keep c h⟩
      | cons c' s₁ =>
          obtain ⟨rfl, htail⟩ := List.cons_eq_cons.mp hs
          obtain ⟨t₁, t₂, rfl, h₁, h₂⟩ := ih htail
          exact ⟨c' :: t₁, t₂, rfl, .keep c' h₁, h₂⟩
  | @mark s t h ih =>
      cases s₁ with
      | nil =>
          obtain rfl : s₂ = ':' :: s := hs
          exact ⟨[], '_' :: t, rfl, .nil, .mark h⟩
      | cons c' s₁ =>
          obtain ⟨rfl, -⟩ := List.cons_eq_cons.mp hs
          obtain ⟨t₁, t₂, rfl, h₁, h₂⟩ := ih hs
          exact ⟨'_' :: t₁, t₂, rfl, .mark h₁, h₂⟩

/-- A text without colon takes no mark. -/
theorem eq_of_not_mem {s t : List Char} (h : Marked s t) (hs : ':' ∉ s) : t = s := by
  induction h with
  | nil => rfl
  | keep c _ ih => rw [ih fun hmem => hs (List.mem_cons_of_mem _ hmem)]
  | mark => exact absurd List.mem_cons_self hs

theorem exists_append_of_not_mem {s₁ s₂ t : List Char} (h : Marked (s₁ ++ s₂) t) (hs : ':' ∉ s₁) :
    ∃ t₂, t = s₁ ++ t₂ ∧ Marked s₂ t₂ := by
  obtain ⟨t₁, t₂, rfl, h₁, h₂⟩ := h.exists_append
  rw [h₁.eq_of_not_mem hs]
  exact ⟨t₂, rfl, h₂⟩

theorem getLast?_eq {s t : List Char} (h : Marked s t) : t.getLast? = s.getLast? := by
  induction h with
  | nil => rfl
  | keep c _ ih => rw [List.getLast?_cons, List.getLast?_cons, ih]
  | mark _ ih =>
      rw [List.getLast?_cons, ih, List.getLast?_cons]
      rfl

end Marked

/-! ## Marks behind a name -/

/-- The second text is the first one, standing behind `seen`, with a `_` between
some occurrences of the name and the colon right after them. -/
inductive MarkedBehind (name : List Char) : List Char → List Char → List Char → Prop where
  | nil {seen : List Char} : MarkedBehind name seen [] []
  | keep (c : Char) {seen s t : List Char} : MarkedBehind name (seen ++ [c]) s t →
      MarkedBehind name seen (c :: s) (c :: t)
  | mark {seen s t : List Char} : name <:+ seen → MarkedBehind name (seen ++ [':']) s t →
      MarkedBehind name seen (':' :: s) ('_' :: ':' :: t)

theorem MarkedBehind.marked {name seen s t : List Char} (h : MarkedBehind name seen s t) :
    Marked s t := by
  induction h with
  | nil => exact .nil
  | keep c _ ih => exact .keep c ih
  | mark _ _ ih => exact .mark (.keep ':' ih)

/-! ## Patches -/

/-- A patch marks behind the name.  The recursion keeps that the pending
position is a colon with the name in front of it. -/
theorem markedBehind_patchFrom (name s : List Char) :
    ∀ (seen : List Char) (before : Option Char) (pending : Option Nat),
      (∀ n, pending = some n → s[n]? = some ':' ∧ name <:+ seen ++ s.take n) →
      MarkedBehind name seen s (patchFrom (label name) before pending s) := by
  induction s with
  | nil =>
      intro seen before pending _
      rw [patchFrom]
      exact .nil
  | cons c rest ih =>
      intro seen before pending hpending
      have hnone : ∀ n, (none : Option Nat) = some n →
          rest[n]? = some ':' ∧ name <:+ (seen ++ [c]) ++ rest.take n :=
        fun n h => nomatch h
      have hsome : ∀ n, (c :: rest)[n + 1]? = some ':' → name <:+ seen ++ (c :: rest).take (n + 1) →
          ∀ k, some n = some k → rest[k]? = some ':' ∧ name <:+ (seen ++ [c]) ++ rest.take k := by
        intro n hcolon hname k hk
        obtain rfl := Option.some.inj hk
        rw [List.append_assoc]
        exact ⟨by simpa using hcolon, hname⟩
      match pending with
      | some 0 =>
          obtain ⟨hcolon, hname⟩ := hpending 0 rfl
          obtain rfl : c = ':' := by simpa using hcolon
          rw [List.take_zero, List.append_nil] at hname
          exact .mark hname (ih _ _ none hnone)
      | some (n + 1) =>
          obtain ⟨hcolon, hname⟩ := hpending (n + 1) rfl
          exact .keep c (ih _ _ (some n) (hsome n hcolon hname))
      | none =>
          rw [patchFrom]
          split
          · rename_i n htarget
            obtain ⟨hcolon, hname⟩ := target?_spec htarget
            exact .keep c (ih _ _ (some n) (hsome n hcolon (hname.trans (List.suffix_append _ _))))
          · exact .keep c (ih _ _ none hnone)
          · exact .keep c (ih _ _ none hnone)

theorem markedBehind_apply (name parameters : String) :
    MarkedBehind name.toList [] parameters.toList (apply name parameters).toList := by
  rw [apply, String.toList_ofList]
  exact markedBehind_patchFrom name.toList _ [] none none fun n h => nomatch h

theorem marked_apply (name parameters : String) :
    Marked parameters.toList (apply name parameters).toList :=
  (markedBehind_apply name parameters).marked

/-- **Patches only mark.** -/
theorem marked_applyAll (names : List String) (parameters : String) :
    Marked parameters.toList (applyAll names parameters).toList := by
  induction names generalizing parameters with
  | nil => exact .refl _
  | cons name names ih => exact (marked_apply name parameters).trans (ih (apply name parameters))

end Ambient.ParameterPatch
