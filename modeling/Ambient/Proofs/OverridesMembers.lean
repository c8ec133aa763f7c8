import Ambient.Overrides.Reading
import Ambient.Proofs.JsonLayout
import Ambient.Proofs.JsonMembers

/-!
# The names in a document of override tables

A document that is accepted and is an object names nothing but the four tables:
a name that is none of them is refused.  It is different inside the list of
rules.  A rule that is an object may have members of any other name, and they
are passed over; the rule is what its members `names`, `base` and `category`
say (`ofText_members`).

So a misspelled name goes unnoticed in a rule.  As a rule without category
applies in all of them, a misspelled `category` makes a rule for one category a
rule for all (`unknown_rule_member_accepted`).
-/

namespace Ambient

open Json

/-! ## Exact readers -/

theorem exact_rule_fields : ∀ f ∈ ExtendsRule.record.fields, Exact f.read := by
  simp only [ExtendsRule.record, List.forall_mem_cons]
  exact ⟨exact_required exact_textSet _ _, exact_required exact_text _ _,
    exact_defaulted (exact_optional exact_text) _ _, List.forall_mem_nil _⟩

theorem exact_rule : Exact ExtendsRule.record.read :=
  RecordType.exact_read exact_rule_fields

theorem exact_overrides_fields : ∀ f ∈ Overrides.record.fields, Exact f.read := by
  simp only [Overrides.record, List.forall_mem_cons]
  exact ⟨exact_defaulted exact_textSet _ _, exact_defaulted (exact_list exact_rule) _ _,
    exact_defaulted (exact_map exact_text) _ _, exact_defaulted (exact_list exact_text) _ _,
    List.forall_mem_nil _⟩

/-! ## Rules -/

/-- A rule is what the members of an object say under its three keys; members of
other names say nothing. -/
structure RuleTold (rule : ExtendsRule) (rs : List (String × List Char)) : Prop where
  names : ∃ v, rs.lookup "names" = some v ∧ Taken textSet rule.names v
  base : ∃ v, rs.lookup "base" = some v ∧ Taken text rule.base v
  category : rs.lookup "category" = none ∧ rule.category = none ∨
    ∃ v, rs.lookup "category" = some v ∧ Taken (Json.optional text) rule.category v

/-- A rule that is an object is told by its members. -/
theorem exists_ruleTold {rule : ExtendsRule} {w : List Char}
    (h : Taken ExtendsRule.record.read rule w) (hcurly : w.head? = some '\x7b') :
    ∃ rs, (∀ rs', membersForm rs' w ↔ rs' = rs) ∧ RuleTold rule rs := by
  obtain ⟨ms, hms⟩ := RecordType.exists_takenObject exact_rule_fields h hcurly
  refine ⟨_, fun rs' => ⟨fun hrs' => membersForm_unique hrs' hms.membersForm,
    fun heq => heq ▸ hms.membersForm⟩, ⟨?_, ?_, ?_⟩⟩
  · refine hms.requiredField rfl (fun _ _ => rfl) ?_
    simp only [ExtendsRule.record, List.forall_mem_cons]
    exact ⟨fun hname => absurd rfl hname, fun _ => Field.keeps_required fun _ _ => rfl,
      fun _ => Field.keeps_defaulted fun _ _ => rfl, List.forall_mem_nil _⟩
  · refine hms.requiredField rfl (fun _ _ => rfl) ?_
    simp only [ExtendsRule.record, List.forall_mem_cons]
    exact ⟨fun _ => Field.keeps_required fun _ _ => rfl, fun hname => absurd rfl hname,
      fun _ => Field.keeps_defaulted fun _ _ => rfl, List.forall_mem_nil _⟩
  · refine hms.field rfl (fun _ _ => rfl) ?_
    simp only [ExtendsRule.record, List.forall_mem_cons]
    exact ⟨fun _ => Field.keeps_required fun _ _ => rfl, fun _ => Field.keeps_required fun _ _ => rfl,
      fun hname => absurd rfl hname, List.forall_mem_nil _⟩

/-! ## Documents -/

/-- The rules of a document, in a list as they are written. -/
def RulesTold (rules : List ExtendsRule) (items : List (List Char)) : Prop :=
  List.Forall₂ (fun rule w => Taken ExtendsRule.record.read rule w ∧
    (w.head? = some '\x7b' → ∃ rs, (∀ rs', membersForm rs' w ↔ rs' = rs) ∧ RuleTold rule rs))
    rules items

/-- **The names in a document of override tables.**  If a document is an object
and is accepted, each of its members is one of the four tables.  Its rules are
those of the list under `extends`, and a rule that is an object is told by three
of its members, whatever other members it has; without the list, the rules are
the built-in ones. -/
theorem ofText_members {text : String} {o : Overrides} (h : Overrides.ofText text = .ok o)
    (hcurly : (skipBlanks text.toList).head? = some '\x7b') :
    ∃ ms, (∀ ms', documentMembers ms' text.toList ↔ ms' = ms) ∧
      (∀ name ∈ ms.map Prod.fst,
        name ∈ ["any_types", "extends", "commented_exports", "duplicate_params"]) ∧
      (ms.lookup "extends" = none ∧ o.extensions = Overrides.builtIn.extensions ∨
        ∃ v items, ms.lookup "extends" = some v ∧ (∀ items', itemsForm items' v ↔ items' = items) ∧
          RulesTold o.extensions items) := by
  obtain ⟨rest, hread, hrest⟩ := exists_of_readAll h
  obtain ⟨_, hopener⟩ := List.head?_eq_some_iff.mp hcurly
  obtain ⟨ws, w, ms, hws, hms, heq⟩ :=
    RecordType.exists_of_read exact_overrides_fields hread hopener
  have hdocument : documentMembers (ms.map fun m => (m.1, m.2.2)) text.toList :=
    ⟨ws, w, rest, hws, hms.membersForm, hrest, heq⟩
  refine ⟨_, fun ms' => ⟨fun hms' => documentMembers_unique hms' hdocument,
    fun heq => heq ▸ hdocument⟩, hms.mem_fieldNames rfl, ?_⟩
  have hextends : (ms.map fun m => (m.1, m.2.2)).lookup "extends" = none ∧
      o.extensions = Overrides.builtIn.extensions ∨
      ∃ v, (ms.map fun m => (m.1, m.2.2)).lookup "extends" = some v ∧
        Taken (list ExtendsRule.record.read) o.extensions v := by
    refine hms.field rfl (fun _ _ => rfl) ?_
    simp only [Overrides.record, List.forall_mem_cons]
    exact ⟨fun _ => Field.keeps_defaulted fun _ _ => rfl, fun hname => absurd rfl hname,
      fun _ => Field.keeps_defaulted fun _ _ => rfl, fun _ => Field.keeps_defaulted fun _ _ => rfl,
      List.forall_mem_nil _⟩
  rcases hextends with hnone | ⟨v, hv, htaken⟩
  · exact .inl hnone
  · obtain ⟨items, hitems, hall⟩ := htaken.exists_items exact_rule
    exact .inr ⟨v, items, hv, hitems, hall.imp fun _ _ hw => ⟨hw, exists_ruleTold hw⟩⟩

/-! ## A name that goes unnoticed -/

def misspelledMembers : List (String × List Char) :=
  [("names", '[' :: (layoutText "Slide" ++ [']'])), ("base", layoutText "Page"),
    ("categroy", layoutText "Slides")]

def misspelledRule : String :=
  "\x7b\"names\":[\"Slide\"],\"base\":\"Page\",\"categroy\":\"Slides\"\x7d"

def misspelledRules : List Char :=
  '[' :: (misspelledRule.toList ++ [']'])

def misspelledDocument : String :=
  "\x7b\"extends\":[" ++ misspelledRule ++ "]\x7d"

def misspelledTables : Overrides :=
  { Overrides.builtIn with
    extensions := [{ names := { toList := ["Slide"], sorted := by decide }, base := "Page" }] }

theorem membersForm_misspelledRule : membersForm misspelledMembers misspelledRule.toList := by
  have htext : ∀ s, asWritten (layoutText s) (layoutText s) := fun s =>
    ⟨wellFormed_of_textForm (textForm_layoutText s), rfl⟩
  have hnames : itemsForm [layoutText "Slide"] ('[' :: (layoutText "Slide" ++ [']'])) :=
    ⟨_, .cons (.first .nil) (htext "Slide") (.nil .nil), rfl⟩
  exact ⟨_, .cons (.first .nil) (memberForm_layoutText ⟨wellFormed_of_itemsForm hnames, rfl⟩)
    (.cons (gap_comma .nil) (memberForm_layoutText (htext "Page"))
      (.cons (gap_comma .nil) (memberForm_layoutText (htext "Slides")) (.nil .nil))),
    by decide +kernel⟩

theorem itemsForm_misspelledRules : itemsForm [misspelledRule.toList] misspelledRules :=
  ⟨_, .cons (.first .nil) ⟨wellFormed_of_membersForm membersForm_misspelledRule, rfl⟩ (.nil .nil),
    rfl⟩

theorem documentMembers_misspelledDocument :
    documentMembers [("extends", misspelledRules)] misspelledDocument.toList := by
  have hrules := wellFormed_of_itemsForm itemsForm_misspelledRules
  exact ⟨[], _, [], .nil,
    ⟨_, .cons (.first .nil) (memberForm_layoutText ⟨hrules, rfl⟩) (.nil .nil), rfl⟩, .nil,
    by decide +kernel⟩

theorem ofText_misspelledDocument :
    Overrides.ofText misspelledDocument = .ok misspelledTables := by
  rfl

/-- The rule is told by its names and its base, and applies in all categories. -/
theorem ofText_members_misspelled :
    Overrides.ofText misspelledDocument = .ok misspelledTables ∧
      (skipBlanks misspelledDocument.toList).head? = some '\x7b' ∧
      ∀ rule ∈ misspelledTables.extensions,
        RuleTold rule misspelledMembers ∧ ∀ category, rule.applies "Slide" category = true := by
  have hcurly : (skipBlanks misspelledDocument.toList).head? = some '\x7b' := by decide +kernel
  refine ⟨ofText_misspelledDocument, hcurly, ?_⟩
  obtain ⟨ms, hms, -, hextends⟩ := ofText_members ofText_misspelledDocument hcurly
  obtain rfl := (hms _).mp documentMembers_misspelledDocument
  rcases hextends with ⟨hnone, -⟩ | ⟨v, items, hv, hitems, hrules⟩
  · exact nomatch hnone
  · obtain rfl : misspelledRules = v := Option.some.inj hv
    obtain rfl := (hitems _).mp itemsForm_misspelledRules
    cases hrules with
    | cons hrule _ =>
        obtain ⟨rs, hrs, htold⟩ := hrule.2 (by decide +kernel)
        obtain rfl := (hrs _).mp membersForm_misspelledRule
        exact List.forall_mem_singleton.mpr ⟨htold, fun _ => rfl⟩

/-- A document may be accepted although an object among its rules has a member
of an unknown name. -/
theorem unknown_rule_member_accepted :
    ¬ ∀ (text : String) (o : Overrides), Overrides.ofText text = .ok o →
      ∀ ms v items, documentMembers ms text.toList → ms.lookup "extends" = some v →
        itemsForm items v → ∀ w ∈ items, ∀ rs, membersForm rs w →
          ∀ name ∈ rs.map Prod.fst, name ∈ ["names", "base", "category"] := by
  intro h
  have hnames := h _ _ ofText_misspelledDocument _ _ _ documentMembers_misspelledDocument rfl
    itemsForm_misspelledRules _ List.mem_cons_self _ membersForm_misspelledRule "categroy"
    (by simp [misspelledMembers])
  revert hnames
  decide

end Ambient
