import Ambient.Proofs.JsonRecords

/-!
# The layout is one of the forms

What is laid out is read back because it has the form that the readers take:
the line feeds and the indentation are blanks, and the commas stand where a
form has them.  Nothing here depends on how wide the indentation is.
-/

namespace Ambient.Json

theorem blanks_indentation (depth : Nat) : Blanks (indentation depth) := by
  intro c hc
  obtain rfl := List.eq_of_mem_replicate hc
  rfl

theorem Blanks.cons_lineFeed {ws : List Char} (h : Blanks ws) : Blanks ('\n' :: ws) := by
  intro c hc
  rcases List.mem_cons.mp hc with rfl | hmem
  · rfl
  · exact h c hmem

theorem intercalate_cons (sep x : List Char) (xs : List (List Char)) :
    sep.intercalate (x :: xs) = x ++ xs.flatMap (sep ++ ·) := by
  induction xs generalizing x with
  | nil => simp
  | cons y ys ih =>
      rw [List.intercalate_cons_of_ne_nil (List.cons_ne_nil y ys), ih y, List.flatMap_cons]
      simp only [List.append_assoc]

/-! ## Containers -/

section Items

variable {β : Type} {part : Form β} {bs : List β} {items : List (List Char)}

/-- The items behind the first one, each on a line of its own, with the bracket. -/
theorem parts_items (closer : Char) (depth : Nat) (h : List.Forall₂ part bs items) :
    Parts closer part false bs
      ((items.map (indentation (depth + 1) ++ ·)).flatMap ([',', '\n'] ++ ·) ++
        ('\n' :: indentation depth ++ [closer])) := by
  induction h with
  | nil => exact .nil (blanks_indentation depth).cons_lineFeed
  | @cons b w bs items hb _ ih =>
      have hgap : Gap false ([] ++ ',' :: '\n' :: indentation (depth + 1)) :=
        .comma .nil (blanks_indentation _).cons_lineFeed
      have hparts := Parts.cons hgap hb ih
      rw [List.map_cons, List.flatMap_cons]
      simpa only [List.append_assoc, List.cons_append, List.nil_append] using hparts

theorem exists_parts_layoutItems (opener closer : Char) (depth : Nat)
    (h : List.Forall₂ part bs items) :
    ∃ parts, layoutItems opener closer depth items = opener :: parts ∧
      Parts closer part true bs parts := by
  cases h with
  | nil => exact ⟨[closer], rfl, .nil .nil⟩
  | @cons b w bs items hb hbs =>
      have hgap : Gap true ('\n' :: indentation (depth + 1)) :=
        .first (blanks_indentation _).cons_lineFeed
      refine ⟨_, ?_, Parts.cons hgap hb (parts_items closer depth hbs)⟩
      rw [layoutItems, List.isEmpty_cons, if_neg Bool.false_ne_true, List.map_cons,
        intercalate_cons]
      simp only [List.append_assoc, List.cons_append, List.nil_append]

end Items

theorem textForm_layoutText (s : String) : textForm s (layoutText s) :=
  ⟨_, textForm_flatMap s.toList, by rw [layoutText, List.append_assoc]; rfl⟩

theorem memberForm_layoutText {β : Type} {value : String → Form β} {key : String} {b : β}
    {v : List Char} (h : value key b v) :
    memberForm value (key, b) (layoutText key ++ ':' :: v) :=
  ⟨layoutText key, [], [], v, textForm_layoutText key, .nil, .nil, h, rfl⟩

theorem memberForm_layoutMember {β : Type} {value : String → Form β} {key : String} {b : β}
    {v : List Char} (h : value key b v) :
    memberForm value (key, b) (layoutText key ++ [':', ' '] ++ v) := by
  have hspace : Blanks [' '] := fun c hc => List.mem_singleton.mp hc ▸ rfl
  refine ⟨layoutText key, [], [' '], v, textForm_layoutText key, .nil, hspace, h, ?_⟩
  rw [List.append_assoc]
  rfl

theorem gap_comma {ws : List Char} (hws : Blanks ws) : Gap false (ws ++ [',']) :=
  .comma hws .nil

theorem listForm_layoutList {α : Type} {item : Form α} {f : α → List Char}
    (h : ∀ a, item a (f a)) (depth : Nat) (as : List α) :
    listForm item as (layoutList depth (as.map f)) := by
  have hitems : List.Forall₂ item as (as.map f) := by
    rw [List.forall₂_map_right_iff, List.forall₂_same]
    exact fun a _ => h a
  obtain ⟨parts, hlayout, hparts⟩ := exists_parts_layoutItems '[' ']' depth hitems
  exact ⟨parts, hparts, hlayout⟩

theorem exists_parts_layoutObject {β : Type} {member : Form β} (depth : Nat) {bs : List β}
    {members : List (String × List Char)}
    (h : List.Forall₂ (fun b t => member b (layoutText t.1 ++ [':', ' '] ++ t.2)) bs members) :
    ∃ parts, layoutObject depth members = '{' :: parts ∧ Parts '}' member true bs parts :=
  exists_parts_layoutItems '{' '}' depth (List.forall₂_map_right_iff.mpr h)

theorem mapForm_layoutObject {α : Type} {value : Form α} {f : α → List Char}
    (h : ∀ a, value a (f a)) (depth : Nat) (ms : List (String × α)) :
    mapForm value ms (layoutObject depth (ms.map fun m => (m.1, f m.2))) := by
  have hmembers : List.Forall₂ (fun (m : String × α) (t : String × List Char) =>
      memberForm (fun _ => value) m (layoutText t.1 ++ [':', ' '] ++ t.2)) ms
      (ms.map fun m => (m.1, f m.2)) := by
    rw [List.forall₂_map_right_iff, List.forall₂_same]
    exact fun m _ => memberForm_layoutMember (h m.2)
  obtain ⟨parts, hlayout, hparts⟩ := exists_parts_layoutObject depth hmembers
  exact ⟨parts, hparts, hlayout⟩

/-- Members whose values fill the slots under their keys. -/
theorem objectOf_layoutObject {slots : List Slot} {members : List (String × List Char)}
    (depth : Nat) (hvalues : ∀ m ∈ members, valueUnder slots m.1 m.2)
    (hkeys : (members.map Prod.fst).Nodup)
    (hslots : ∀ slot ∈ slots, slot.key ∈ members.map Prod.fst ∨ slot.mayOmit) :
    objectOf slots (layoutObject depth members) := by
  have hmembers : List.Forall₂ (fun key (m : String × List Char) =>
      keyedForm (valueUnder slots) key (layoutText m.1 ++ [':', ' '] ++ m.2))
      (members.map Prod.fst) members := by
    rw [List.forall₂_map_left_iff, List.forall₂_same]
    exact fun m hm => memberForm_layoutMember (hvalues m hm)
  obtain ⟨parts, hlayout, hparts⟩ := exists_parts_layoutObject depth hmembers
  exact ⟨_, parts, hparts, hkeys.filter _, hslots, hlayout⟩

end Ambient.Json
