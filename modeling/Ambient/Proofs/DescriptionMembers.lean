import Ambient.Proofs.DescriptionForms
import Ambient.Proofs.JsonMembers

/-!
# What stands in a document

The readers of a description are exact: whatever they accept is one value, with
blanks around it.  So the categories of an accepted document can be told from
its text (`categoriesForm`), each with its key and as it is written, and the
description holds under each key what is read of the last category with that
key (`exists_categoriesForm`).  The same goes for the declarations of a category
(`exists_declarations`).
-/

namespace Ambient

open Json

/-! ## Exact readers -/

theorem exact_typeRef : Exact TypeRef.record.read := by
  refine RecordType.exact_read ?_
  simp only [TypeRef.record, List.forall_mem_cons]
  exact ⟨exact_defaulted exact_text _ _, exact_defaulted (exact_optional exact_text) _ _,
    List.forall_mem_nil _⟩

theorem exact_property : Exact Property.record.read := by
  refine RecordType.exact_read ?_
  simp only [Property.record, List.forall_mem_cons]
  exact ⟨exact_required exact_text _ _, exact_defaulted exact_typeRef _ _,
    exact_defaulted exact_boolean _ _, List.forall_mem_nil _⟩

theorem exact_parameter : Exact Parameter.record.read := by
  refine RecordType.exact_read ?_
  simp only [Parameter.record, List.forall_mem_cons]
  exact ⟨exact_required exact_text _ _, exact_defaulted exact_typeRef _ _,
    exact_defaulted exact_text _ _, List.forall_mem_nil _⟩

theorem exact_method : Exact Method.record.read := by
  refine RecordType.exact_read ?_
  simp only [Method.record, List.forall_mem_cons]
  exact ⟨exact_required exact_text _ _, exact_defaulted (exact_list exact_parameter) _ _,
    exact_defaulted exact_typeRef _ _, exact_defaulted exact_text _ _,
    exact_defaulted exact_text _ _, exact_defaulted exact_boolean _ _, List.forall_mem_nil _⟩

/-- A kind in an object: its name as the only key, with `null` under it. -/
def kindObjectForm (name : String) (w : List Char) : Prop :=
  ∃ v, mapForm (takenForm Json.null) [(name, (), v)] w

theorem taken_kindObject {name : String} {w : List Char} (h : kindObjectForm name w) :
    Taken DeclarationKind.read (.ofName name) w := by
  obtain ⟨_, parts, hparts, rfl⟩ := h
  refine ⟨⟨⟨_, _, rfl, rfl, by decide⟩, fun ws rest hws => ?_⟩,
    .bracket (b := .curly) (wellFormed_of_members hparts fun _ _ _ hv => hv.1.wellFormed)⟩
  cases hparts with
  | cons hgap hm hend =>
      obtain ⟨key, ws', wsv, v, hkey, hws', hwsv, ⟨hnull, -⟩, rfl⟩ := hm
      cases hend with
      | nil hend =>
          unfold DeclarationKind.read
          rw [List.cons_append, skipBlanks_append hws rfl]
          simp only [member_append_assoc, nextKey_gap hgap hkey, colon_append hws',
            hnull.reads.read wsv _ hwsv]
          rw [List.append_assoc, List.singleton_append, skipBlanks_append hend rfl]
          rfl

theorem exact_kind : Exact DeclarationKind.read := by
  intro s rest kind h
  unfold DeclarationKind.read at h
  split at h
  · cases h
  · rename_i hquote
    split at h
    · cases h
    · rename_i hbody
      cases h
      obtain ⟨ws, hws, rfl⟩ := exists_of_skipBlanks hquote
      obtain ⟨w, hw, heq⟩ := exists_textForm_of_textBody hbody
      exact ⟨ws, w, hws, ⟨reads_kindName hw, wellFormed_of_textForm hw⟩, by rw [heq]⟩
  · rename_i hopener
    obtain ⟨ws, hws, rfl⟩ := exists_of_skipBlanks hopener
    split at h
    · cases h
    · cases h
    · rename_i name _ hnext
      split at h
      · cases h
      · rename_i hcolon
        split at h
        · cases h
        · rename_i hnull
          split at h
          · rename_i hcloser
            cases h
            rcases exists_of_nextKey hnext with ⟨hkey, -⟩ | ⟨_, gap, key, heq, hgap, hkey, rfl⟩
            · cases hkey
            · obtain rfl := Option.some.inj heq
              obtain ⟨ws', hws', rfl⟩ := exists_of_colon hcolon
              obtain ⟨wsv, v, hwsv, hv, rfl⟩ := exact_null hnull
              obtain ⟨wse, hwse, rfl⟩ := exists_of_skipBlanks hcloser
              have hmember : memberForm (fun _ => takenForm Json.null) (name, (), v) _ :=
                ⟨key, ws', wsv, v, hkey, hws', hwsv, ⟨hv, rfl⟩, rfl⟩
              refine ⟨ws, _, hws, taken_kindObject ⟨v, _, .cons hgap hmember (.nil hwse), rfl⟩, ?_⟩
              rw [List.cons_append, member_append_assoc]
              simp
          · cases h
          · cases h
  · cases h

theorem exact_declaration : Exact Declaration.record.read := by
  refine RecordType.exact_read ?_
  simp only [Declaration.record, List.forall_mem_cons]
  exact ⟨exact_defaulted exact_kind _ _, exact_defaulted exact_text _ _,
    exact_defaulted exact_text _ _, exact_defaulted (exact_list exact_property) _ _,
    exact_defaulted (exact_list exact_method) _ _, List.forall_mem_nil _⟩

theorem exact_category_fields : ∀ f ∈ Category.record.fields, Exact f.read := by
  simp only [Category.record, List.forall_mem_cons]
  exact ⟨exact_defaulted (exact_optional exact_text) _ _,
    exact_defaulted (exact_map (exact_optional exact_declaration)) _ _, List.forall_mem_nil _⟩

theorem exact_category : Exact Category.record.read :=
  RecordType.exact_read exact_category_fields

theorem exact_description_fields : ∀ f ∈ Description.record.fields, Exact f.read := by
  simp only [Description.record, List.forall_mem_cons]
  exact ⟨exact_defaulted (exact_map exact_category) _ _,
    exact_defaulted (exact_map exact_boolean) _ _, List.forall_mem_nil _⟩

/-! ## The declarations of a category -/

/-- The declarations that a category writes, each with its key, as they are written. -/
def declarationsForm : Form (List (String × List Char)) :=
  fieldMembers "decls"

theorem exists_declarations {c : Category} {w : List Char} (h : Taken Category.record.read c w)
    (hcurly : w.head? = some '\x7b') :
    ∃ ds, (∀ ds', declarationsForm ds' w ↔ ds' = ds) ∧
      Holds (Json.optional Declaration.record.read) c.declarations ds := by
  obtain ⟨ms, hms⟩ := RecordType.exists_takenObject exact_category_fields h hcurly
  refine RecordType.TakenObject.exists_fieldMembers (exact_optional exact_declaration)
    Category.declarations hms rfl (fun _ _ => rfl) ?_ rfl
  simp only [Category.record, List.forall_mem_cons]
  exact ⟨fun _ => Field.keeps_defaulted fun _ _ => rfl, fun hname => absurd rfl hname,
    List.forall_mem_nil _⟩

/-! ## The categories of a document -/

/-- The categories that a document writes, each with its key, as they are written. -/
def categoriesForm : Form (List (String × List Char)) :=
  fun cs w => ∃ ws v ws', Blanks ws ∧ fieldMembers "categories" cs v ∧ Blanks ws' ∧
    w = ws ++ (v ++ ws')

theorem categoriesForm_unique {cs cs' : List (String × List Char)} {w : List Char}
    (h : categoriesForm cs w) (h' : categoriesForm cs' w) : cs = cs' := by
  obtain ⟨ws, v, after, hws, hcs, hafter, heq⟩ := h
  obtain ⟨ws', v', after', hws', hcs', hafter', heq'⟩ := h'
  obtain ⟨outer, houter, hinner⟩ := id hcs
  obtain ⟨outer', houter', hinner'⟩ := id hcs'
  have hdocument : documentMembers outer w := ⟨ws, v, after, hws, houter, hafter, heq⟩
  have hdocument' : documentMembers outer' w := ⟨ws', v', after', hws', houter', hafter', heq'⟩
  obtain rfl := documentMembers_unique hdocument hdocument'
  exact fieldMembers_unique hcs ⟨outer, houter, hinner'⟩

theorem readAll_of_ofText {text : String} {d : Description} (h : Description.ofText text = .ok d) :
    readAll Description.record.read text = .ok d := by
  unfold Description.ofText at h
  cases hread : readAll Description.record.read text with
  | error e =>
      rw [hread] at h
      cases h
  | ok d' =>
      rw [hread] at h
      cases h
      rfl

/-- A document that is an object has categories, and the description that is
read of it holds the last one under each key. -/
theorem exists_categoriesForm {text : String} {d : Description}
    (h : Description.ofText text = .ok d) (hcurly : (skipBlanks text.toList).head? = some '\x7b') :
    ∃ cs, (∀ cs', categoriesForm cs' text.toList ↔ cs' = cs) ∧
      Holds Category.record.read d.categories cs := by
  obtain ⟨rest, hread, hrest⟩ := exists_of_readAll (readAll_of_ofText h)
  obtain ⟨_, hopener⟩ := List.head?_eq_some_iff.mp hcurly
  obtain ⟨ws, w, ms, hws, hms, heq⟩ :=
    RecordType.exists_of_read exact_description_fields hread hopener
  obtain ⟨cs, hcs, hholds⟩ := RecordType.TakenObject.exists_fieldMembers exact_category
    Description.categories hms rfl (fun _ _ => rfl) (by
      simp only [Description.record, List.forall_mem_cons]
      exact ⟨fun hname => absurd rfl hname, fun _ => Field.keeps_defaulted fun _ _ => rfl,
        List.forall_mem_nil _⟩) rfl
  have hform : categoriesForm cs text.toList := ⟨ws, w, rest, hws, (hcs cs).mpr rfl, hrest, heq⟩
  exact ⟨cs, fun cs' => ⟨fun hcs' => categoriesForm_unique hcs' hform, fun h => h ▸ hform⟩, hholds⟩

end Ambient
