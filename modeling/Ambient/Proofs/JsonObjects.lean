import Ambient.Proofs.JsonValues

/-!
# Reading objects back

The members of an object are parts whose form is a key, a colon and a value.
A map takes every key.  A record knows the keys of its fields, each of which
may stand once, and what is read of a member is the change that it makes: so
the value of the whole is the default with the changes made in the order in
which the members stand (`reads_record`).
-/

namespace Ambient.Json

/-! ## Members -/

/-- A member: a key, a colon and a value, with blanks around the colon. -/
def memberForm {β : Type} (value : String → Form β) : Form (String × β) :=
  fun m w => ∃ key ws ws' v, textForm m.1 key ∧ Blanks ws ∧ Blanks ws' ∧ value m.1 m.2 v ∧
    w = key ++ (ws ++ ':' :: (ws' ++ v))

theorem nextKey_closer {ws : List Char} (hws : Blanks ws) (first : Bool) (rest : List Char) :
    nextKey first (ws ++ '}' :: rest) = .ok (none, '}' :: rest) := by
  rw [nextKey, skipBlanks_append hws rfl]
  rfl

theorem nextKey_gap {first : Bool} {gap key : List Char} {k : String} (hgap : Gap first gap)
    (hkey : textForm k key) (rest : List Char) :
    nextKey first (gap ++ (key ++ rest)) = .ok (some k, rest) := by
  obtain ⟨body, hbody, rfl⟩ := hkey
  have hread : textBody (body ++ '"' :: rest) = .ok (k.toList, rest) := textBody_append hbody rest
  rw [List.cons_append, List.append_assoc, List.singleton_append]
  cases hgap with
  | first hws =>
      rw [nextKey, skipBlanks_append hws rfl]
      simp [hread]
  | comma hws hws' =>
      rw [nextKey, List.append_assoc, List.cons_append, skipBlanks_append hws rfl]
      simp [skipBlanks_append hws', hread, isBlank]

theorem member_append_assoc (gap key ws ws' v parts rest : List Char) :
    gap ++ ((key ++ (ws ++ ':' :: (ws' ++ v))) ++ parts) ++ rest =
      gap ++ (key ++ (ws ++ ':' :: (ws' ++ (v ++ (parts ++ rest))))) := by
  simp only [List.append_assoc, List.cons_append]

theorem member_length_lt {gap key ws ws' v parts : List Char} {n : Nat}
    (h : (gap ++ ((key ++ (ws ++ ':' :: (ws' ++ v))) ++ parts)).length ≤ n) : parts.length < n := by
  rw [List.length_append, List.length_append, List.length_append, List.length_append,
    List.length_cons] at h
  omega

theorem colon_append {ws : List Char} (hws : Blanks ws) (rest : List Char) :
    colon (ws ++ ':' :: rest) = .ok ((), rest) := by
  rw [colon, skipBlanks_append hws rfl]
  rfl

/-! ## Maps -/

/-- An object with arbitrary keys, some of which may stand several times. -/
def mapForm {α : Type} (value : Form α) : Form (List (String × α)) :=
  fun ms w => ∃ parts, Parts '}' (memberForm fun _ => value) true ms parts ∧ w = '{' :: parts

theorem entriesFrom_append {α : Type} {form : Form α} {value : Reader α}
    (hvalue : ∀ a w, form a w → Reads value a w) {first : Bool} {ms : List (String × α)}
    {parts : List Char} (h : Parts '}' (memberForm fun _ => form) first ms parts) :
    ∀ (seen : SortedMap α) (limit rest : List Char), parts.length ≤ limit.length →
      entriesFrom value first seen limit (parts ++ rest) =
        .ok (ms.foldl (fun m p => m.insert p.1 p.2) seen, rest) := by
  induction h with
  | @nil first ws hws =>
      intro seen limit rest hlimit
      have hstep : ws.length < limit.length := by
        rwa [List.length_append, List.length_singleton] at hlimit
      obtain ⟨l, limit, rfl, -⟩ := exists_limit_step hstep
      rw [entriesFrom, List.append_assoc, List.singleton_append, nextKey_closer hws]
      rfl
  | @cons first gap w parts m ms hgap hm _ ih =>
      intro seen limit rest hlimit
      obtain ⟨key, ws, ws', v, hkey, hws, hws', hv, rfl⟩ := hm
      have hread := (hvalue m.2 v hv).read ws' (parts ++ rest) hws'
      obtain ⟨l, limit, rfl, hshorter⟩ := exists_limit_step (member_length_lt hlimit)
      rw [entriesFrom, member_append_assoc, nextKey_gap hgap hkey]
      simp only [colon_append hws, hread]
      exact ih _ _ _ hshorter

theorem reads_map {α : Type} {form : Form α} {value : Reader α}
    (hvalue : ∀ a w, form a w → Reads value a w) {ms : List (String × α)} {w : List Char}
    (h : mapForm form ms w) : Reads (map value) (.ofList ms) w := by
  obtain ⟨parts, hparts, rfl⟩ := h
  refine ⟨⟨_, _, rfl, rfl, by decide⟩, ?_⟩
  intro ws rest hws
  unfold map
  rw [List.cons_append, skipBlanks_append hws rfl]
  exact entriesFrom_append hvalue hparts {} _ rest (by rw [List.length_append]; omega)

/-- The entries of a map as an object, in any order. -/
def entriesForm {α : Type} (value : Form α) : Form (SortedMap α) :=
  fun m w => ∃ entries, entries.Perm m.entries ∧ mapForm value entries w

theorem reads_entries {α : Type} {form : Form α} {value : Reader α}
    (hvalue : ∀ a w, form a w → Reads value a w) {m : SortedMap α} {w : List Char}
    (h : entriesForm form m w) : Reads (map value) m w := by
  obtain ⟨entries, hperm, hentries⟩ := h
  rw [← SortedMap.ofList_of_perm hperm]
  exact reads_map hvalue hentries

/-! ## Records -/

/-- A value that nobody asked for is followed by a blank, a comma or a bracket. -/
def Delimited (s : List Char) : Prop :=
  ∃ c rest, s = c :: rest ∧ (isBlank c = true ∨ c = ',' ∨ c = ']' ∨ c = '}')

/-- A value that can be passed over. -/
def Skips (w : List Char) : Prop :=
  ∀ ws rest : List Char, Blanks ws → Delimited rest →
    skipValue (ws ++ (w ++ rest)) = .ok ((), rest)

theorem Blanks.delimited {ws rest : List Char} {c : Char} (hws : Blanks ws)
    (hc : c = ',' ∨ c = ']' ∨ c = '}') : Delimited (ws ++ c :: rest) := by
  cases ws with
  | nil => exact ⟨c, rest, rfl, .inr hc⟩
  | cons b ws => exact ⟨b, ws ++ c :: rest, rfl, .inl (hws b List.mem_cons_self)⟩

theorem Gap.delimited {gap : List Char} (h : Gap false gap) (rest : List Char) :
    Delimited (gap ++ rest) := by
  cases h with
  | comma hws =>
      rw [List.append_assoc, List.cons_append]
      exact hws.delimited (.inl rfl)

theorem Parts.delimited {β : Type} {part : Form β} {closer : Char} {bs : List β}
    {parts : List Char} (h : Parts closer part false bs parts)
    (hcloser : closer = ']' ∨ closer = '}') (rest : List Char) : Delimited (parts ++ rest) := by
  cases h with
  | nil hws =>
      rw [List.append_assoc, List.singleton_append]
      exact hws.delimited (.inr hcloser)
  | cons hgap =>
      rw [List.append_assoc]
      exact hgap.delimited _

section Fields

variable {α β : Type} {name : String} {value : Reader β} {set : β → α → α} {b : β} {w : List Char}

theorem Field.reads_required (h : Reads value b w) :
    Reads (Field.required name value set).read (set b) w :=
  h.map set

theorem Field.reads_defaulted (h : Reads value b w) :
    Reads (Field.defaulted name value set).read (set b) w :=
  h.map set

end Fields

namespace RecordType

variable {α : Type}

/-- What stands under a key, with the change that it makes: what the reader of
the field reads, or under an unknown key a value that is passed over. -/
def valueForm (r : RecordType α) (key : String) : Form (α → α) :=
  fun change w =>
    match r.field? key with
    | some f => Reads f.read change w
    | none => r.isExtensible = true ∧ change = id ∧ Skips w

def fieldKeys (r : RecordType α) (ms : List (String × (α → α))) : List String :=
  (ms.map Prod.fst).filter fun key => (r.field? key).isSome

/-- An object in which each field stands at most once, and each required field does. -/
def objectForm (r : RecordType α) : Form α :=
  fun a w => ∃ ms parts, Parts '}' (memberForm r.valueForm) true ms parts ∧
    (r.fieldKeys ms).Nodup ∧
    (∀ f ∈ r.fields, f.isRequired = true → f.name ∈ r.fieldKeys ms) ∧
    ms.foldl (fun a m => m.2 a) r.default = a ∧ w = '{' :: parts

theorem valueForm_of_field? {r : RecordType α} {key : String} {f : Field α} {change : α → α}
    {w : List Char} (hf : r.field? key = some f) (h : Reads f.read change w) :
    r.valueForm key change w := by
  rw [valueForm, hf]
  exact h

theorem missing?_eq_none {r : RecordType α} {seen : List String}
    (h : ∀ f ∈ r.fields, f.isRequired = true → f.name ∈ seen) : r.missing? seen = none := by
  have hfind : (r.fields.find? fun f => f.isRequired && !seen.contains f.name) = none := by
    rw [List.find?_eq_none]
    intro f hf hmissing
    obtain ⟨hrequired, hunseen⟩ := Bool.and_eq_true_iff.mp hmissing
    simp [h f hf hrequired] at hunseen
  rw [missing?, hfind]
  rfl

/-- The members of a record change it one after the other. -/
theorem fieldsFrom_append (r : RecordType α) {first : Bool} {ms : List (String × (α → α))}
    {parts : List Char} (h : Parts '}' (memberForm r.valueForm) first ms parts) :
    ∀ (seen : List String) (value : α) (limit rest : List Char), parts.length ≤ limit.length →
      (r.fieldKeys ms ++ seen).Nodup →
      (∀ f ∈ r.fields, f.isRequired = true → f.name ∈ r.fieldKeys ms ++ seen) →
      r.fieldsFrom first seen value limit (parts ++ rest) =
        .ok (ms.foldl (fun a m => m.2 a) value, rest) := by
  induction h with
  | @nil first ws hws =>
      intro seen value limit rest hlimit _ hrequired
      have hstep : ws.length < limit.length := by
        rwa [List.length_append, List.length_singleton] at hlimit
      obtain ⟨l, limit, rfl, -⟩ := exists_limit_step hstep
      have hmissing : r.missing? seen = none := missing?_eq_none hrequired
      rw [fieldsFrom, List.append_assoc, List.singleton_append, nextKey_closer hws]
      simp only [hmissing]
      rfl
  | @cons first gap w parts m ms hgap hm hms ih =>
      intro seen value limit rest hlimit hnodup hrequired
      obtain ⟨key, ws, ws', v, hkey, hws, hws', hv, rfl⟩ := hm
      obtain ⟨l, limit, rfl, hshorter⟩ := exists_limit_step (member_length_lt hlimit)
      rw [fieldsFrom, member_append_assoc, nextKey_gap hgap hkey]
      cases hfield : r.field? m.1 with
      | some f =>
          have hf : Reads f.read m.2 v := by
            rwa [valueForm, hfield] at hv
          have hkeys : r.fieldKeys (m :: ms) = m.1 :: r.fieldKeys ms := by
            rw [fieldKeys, List.map_cons, List.filter_cons_of_pos (by rw [hfield]; rfl)]
            rfl
          rw [hkeys, List.cons_append] at hnodup hrequired
          have hseen : seen.contains m.1 = false := by
            have hnot := (List.nodup_cons.mp hnodup).1
            simpa using fun hmem => hnot (List.mem_append_right _ hmem)
          simp only [hfield, hseen, Bool.false_eq_true, if_false, colon_append hws,
            hf.read ws' (parts ++ rest) hws']
          refine ih _ _ _ _ hshorter (List.perm_middle.nodup_iff.mpr hnodup) fun g hg hr => ?_
          exact List.perm_middle.mem_iff.mpr (hrequired g hg hr)
      | none =>
          rw [valueForm, hfield] at hv
          obtain ⟨hextensible, hid, hskips⟩ := hv
          have hkeys : r.fieldKeys (m :: ms) = r.fieldKeys ms := by
            rw [fieldKeys, List.map_cons, List.filter_cons_of_neg (by rw [hfield]; simp)]
            rfl
          rw [hkeys] at hnodup hrequired
          have hskip := hskips ws' (parts ++ rest) hws' (hms.delimited (.inr rfl) rest)
          simp only [hfield, hextensible, if_true, colon_append hws, hskip]
          rw [List.foldl_cons, hid]
          exact ih _ _ _ _ hshorter hnodup hrequired

/-- **A record is read back** as the default with the changes of its members. -/
theorem reads_record (r : RecordType α) {a : α} {w : List Char} (h : r.objectForm a w) :
    Reads r.read a w := by
  obtain ⟨ms, parts, hparts, hnodup, hrequired, hvalue, rfl⟩ := h
  refine ⟨⟨_, _, rfl, rfl, by decide⟩, ?_⟩
  intro ws rest hws
  unfold read
  rw [List.cons_append, skipBlanks_append hws rfl]
  have hread := r.fieldsFrom_append hparts [] r.default (parts ++ rest) rest
    (by rw [List.length_append]; omega) (by rwa [List.append_nil])
    (by rwa [List.append_nil])
  rw [hvalue] at hread
  exact hread

end RecordType

end Ambient.Json
