import Ambient.Proofs.JsonGrammar
import Mathlib.Data.List.Forall2
import Mathlib.Data.List.Nodup

/-!
# Records in any order

How a record stands in an object, told without its reader: each field has a slot
with its key and the forms of the value at hand, a slot may be left out if it
says so, and under any other key stands a value of any kind (`objectOf`).

A record type reads the object if its fields are what the slots say, each field
as a change that puts its value in (`Fits`).  The members come in any order and
some are missing, so the changes are only compared up to order: they commute,
and those that are not made would not change the default (`reads_objectOf`).
-/

namespace Ambient.Json

/-! ## Objects with slots -/

/-- A place for a field: its key, what may be written there for the value at
hand, and whether it may be left out. -/
structure Slot where
  key : String
  form : List Char → Prop
  mayOmit : Prop

/-- What may stand under a key: a form of the slot with that key, or under an
unknown key a value of any kind. -/
def valueUnder (slots : List Slot) (key : String) : List Char → Prop :=
  match slots.find? (·.key == key) with
  | some slot => slot.form
  | none => WellFormed .value

/-- A member whose value may stand under its key. -/
def keyedForm (value : String → List Char → Prop) : Form String :=
  fun key => memberForm (fun key _ => value key) (key, ())

/-- An object in which each slot is filled once, or is left out where it may
be, among members with unknown keys, in any order. -/
def objectOf (slots : List Slot) (w : List Char) : Prop :=
  ∃ keys parts, Parts '}' (keyedForm (valueUnder slots)) true keys parts ∧
    (keys.filter (· ∈ slots.map Slot.key)).Nodup ∧
    (∀ slot ∈ slots, slot.key ∈ keys ∨ slot.mayOmit) ∧ w = '{' :: parts

theorem head?_of_objectOf {slots : List Slot} {w : List Char} (h : objectOf slots w) :
    w.head? ≠ some 'n' := by
  obtain ⟨_, parts, -, -, -, rfl⟩ := h
  simp

/-! ## Slots and fields -/

section Fits

variable {α β : Type} {default : α} {name : String} {value : Reader β} {set : β → α → α} {b : β}
  {form : List Char → Prop}

/-- A slot is what a field says: everything that may be written there is read as
one change, a required field is not left out, and if the slot is left out the
change would do nothing to the default. -/
structure Fits (default : α) (f : Field α) (row : Slot × (α → α)) : Prop where
  key : f.name = row.1.key
  reads : ∀ w, row.1.form w → Reads f.read row.2 w
  required : f.isRequired = true → ¬ row.1.mayOmit
  omitted : row.1.mayOmit → row.2 default = default

theorem fits_required (hreads : ∀ w, form w → Reads value b w) :
    Fits default (.required name value set) (⟨name, form, False⟩, set b) where
  key := rfl
  reads := fun w hw => Field.reads_required (hreads w hw)
  required := fun _ h => h
  omitted := fun h => h.elim

/-- A field with a default may be left out where it has that default. -/
theorem fits_defaulted {b₀ : β} (hreads : ∀ w, form w → Reads value b w)
    (hdefault : set b₀ default = default) :
    Fits default (.defaulted name value set) (⟨name, form, b = b₀⟩, set b) where
  key := rfl
  reads := fun w hw => Field.reads_defaulted (hreads w hw)
  required := fun h => Bool.noConfusion h
  omitted := by
    rintro rfl
    exact hdefault

end Fits

/-! ## Changes -/

section Changes

variable {α : Type}

/-- The change that is made under a key. -/
def changeUnder (rows : List (Slot × (α → α))) (key : String) : α → α :=
  match rows.find? (·.1.key == key) with
  | some row => row.2
  | none => id

variable {rows : List (Slot × (α → α))}

theorem changeUnder_eq (rows : List (Slot × (α → α))) (key : String) :
    (∃ row ∈ rows, row.1.key = key ∧ changeUnder rows key = row.2) ∨
      (key ∉ rows.map (·.1.key) ∧ changeUnder rows key = id) := by
  unfold changeUnder
  cases hfind : rows.find? (·.1.key == key) with
  | some row =>
      have hkey : row.1.key = key := by simpa using List.find?_some hfind
      exact .inl ⟨row, List.mem_of_find?_eq_some hfind, hkey, rfl⟩
  | none =>
      refine .inr ⟨?_, rfl⟩
      intro hmem
      obtain ⟨row, hrow, hkey⟩ := List.mem_map.mp hmem
      simpa [hkey] using List.find?_eq_none.mp hfind row hrow

theorem changeUnder_key (hkeys : (rows.map (·.1.key)).Nodup) {row : Slot × (α → α)}
    (hrow : row ∈ rows) : changeUnder rows row.1.key = row.2 := by
  rcases changeUnder_eq rows row.1.key with ⟨row', hrow', hkey, heq⟩ | ⟨hnot, -⟩
  · rw [heq, List.inj_on_of_nodup_map hkeys hrow' hrow hkey]
  · exact absurd (List.mem_map_of_mem hrow) hnot

theorem changeUnder_comm (hcomm : ∀ p ∈ rows, ∀ q ∈ rows, ∀ x, p.2 (q.2 x) = q.2 (p.2 x))
    (key key' : String) (x : α) :
    changeUnder rows key (changeUnder rows key' x) =
      changeUnder rows key' (changeUnder rows key x) := by
  rcases changeUnder_eq rows key with ⟨p, hp, -, heq⟩ | ⟨-, heq⟩
  · rcases changeUnder_eq rows key' with ⟨q, hq, -, heq'⟩ | ⟨-, heq'⟩
    · rw [heq, heq']
      exact hcomm p hp q hq x
    · rw [heq, heq']
      rfl
  · rw [heq]
    rfl

/-- The value that the changes under some keys make, one after the other. -/
def changeAll (rows : List (Slot × (α → α))) (keys : List String) (a : α) : α :=
  keys.foldl (fun a key => changeUnder rows key a) a

theorem changeAll_filter (keys : List String) (a : α) :
    changeAll rows (keys.filter (· ∈ rows.map (·.1.key))) a = changeAll rows keys a := by
  unfold changeAll
  rw [List.foldl_filter]
  refine List.foldl_ext _ _ _ fun a key _ => ?_
  by_cases hmem : key ∈ rows.map (·.1.key)
  · rw [if_pos (decide_eq_true hmem)]
  · rw [if_neg (by simpa using hmem)]
    rcases changeUnder_eq rows key with ⟨row, hrow, hkey, -⟩ | ⟨-, heq⟩
    · exact absurd (hkey ▸ List.mem_map_of_mem hrow) hmem
    · exact (congrFun heq a).symm

theorem changeAll_of_perm (hcomm : ∀ p ∈ rows, ∀ q ∈ rows, ∀ x, p.2 (q.2 x) = q.2 (p.2 x))
    {keys keys' : List String} (h : keys.Perm keys') (a : α) :
    changeAll rows keys a = changeAll rows keys' a :=
  h.foldl_eq' (fun key _ key' _ x => changeUnder_comm hcomm key' key x) a

theorem changeAll_of_fixed {a : α} :
    ∀ {keys : List String}, (∀ key ∈ keys, changeUnder rows key a = a) →
      changeAll rows keys a = a
  | [], _ => rfl
  | key :: keys, h => by
      have hrest : ∀ key ∈ keys, changeUnder rows key a = a :=
        fun key hkey => h key (List.mem_cons_of_mem _ hkey)
      have hfixed : changeAll rows keys a = a := changeAll_of_fixed hrest
      unfold changeAll at hfixed ⊢
      rw [List.foldl_cons, h key List.mem_cons_self, hfixed]

theorem changeAll_keys (hkeys : (rows.map (·.1.key)).Nodup) (a : α) :
    changeAll rows (rows.map (·.1.key)) a = rows.foldl (fun a row => row.2 a) a := by
  unfold changeAll
  rw [List.foldl_map]
  exact List.foldl_ext _ _ _ fun a row hrow => congrFun (changeUnder_key hkeys hrow) a

/-- The changes under the keys of an object make what all changes would make,
if each known key stands once and what is missing changes nothing. -/
theorem changeAll_of_missing {keys : List String} {default : α}
    (hkeys : (rows.map (·.1.key)).Nodup)
    (hcomm : ∀ p ∈ rows, ∀ q ∈ rows, ∀ x, p.2 (q.2 x) = q.2 (p.2 x))
    (hnodup : (keys.filter (· ∈ rows.map (·.1.key))).Nodup)
    (hmissing : ∀ row ∈ rows, row.1.key ∉ keys → row.2 default = default) :
    changeAll rows keys default = rows.foldl (fun a row => row.2 a) default := by
  let names := rows.map (·.1.key)
  let known := keys.filter (· ∈ names)
  let absent := names.filter (· ∉ keys)
  have hpresent : known.Perm (names.filter (· ∈ keys)) := by
    refine (List.perm_ext_iff_of_nodup hnodup (hkeys.filter _)).mpr fun key => ?_
    simp [and_comm]
  have hsplit : (absent ++ known).Perm names := by
    refine (List.perm_append_comm.trans (hpresent.append_right _)).trans ?_
    simpa [absent] using List.filter_append_perm (· ∈ keys) names
  have hfixed : changeAll rows absent default = default := by
    refine changeAll_of_fixed fun key hkey => ?_
    obtain ⟨hmem, hnot⟩ := List.mem_filter.mp hkey
    obtain ⟨row, hrow, rfl⟩ := List.mem_map.mp hmem
    rw [changeUnder_key hkeys hrow]
    exact hmissing row hrow (of_decide_eq_true hnot)
  calc changeAll rows keys default
      = changeAll rows known default := (changeAll_filter keys default).symm
    _ = changeAll rows known (changeAll rows absent default) := by rw [hfixed]
    _ = changeAll rows (absent ++ known) default := List.foldl_append.symm
    _ = changeAll rows names default := changeAll_of_perm hcomm hsplit default
    _ = rows.foldl (fun a row => row.2 a) default := changeAll_keys hkeys default

end Changes

/-! ## Reading -/

namespace RecordType

variable {α : Type} {r : RecordType α} {rows : List (Slot × (α → α))}

theorem find?_of_fits {fields : List (Field α)} {default : α}
    (h : List.Forall₂ (Fits default) fields rows) (key : String) :
    (fields.find? (·.name == key) = none ∧ rows.find? (·.1.key == key) = none) ∨
      ∃ f row, fields.find? (·.name == key) = some f ∧ rows.find? (·.1.key == key) = some row ∧
        Fits default f row := by
  induction h with
  | nil => exact .inl ⟨rfl, rfl⟩
  | @cons f row fields rows hfits _ ih =>
      by_cases hkey : row.1.key = key
      · refine .inr ⟨f, row, ?_, ?_, hfits⟩
        · exact List.find?_cons_of_pos (by simp [hfits.key, hkey])
        · exact List.find?_cons_of_pos (by simp [hkey])
      · rw [List.find?_cons_of_neg (by simp [hfits.key, hkey]),
          List.find?_cons_of_neg (by simp [hkey])]
        exact ih

theorem exists_mem_of_forall₂ {γ δ : Type} {R : γ → δ → Prop} {l : List γ} {l' : List δ}
    (h : List.Forall₂ R l l') {c : γ} (hc : c ∈ l) : ∃ d ∈ l', R c d := by
  induction h with
  | nil => exact absurd hc List.not_mem_nil
  | @cons c' d l l' hR _ ih =>
      rcases List.mem_cons.mp hc with rfl | hc
      · exact ⟨d, List.mem_cons_self, hR⟩
      · obtain ⟨d', hd', hR'⟩ := ih hc
        exact ⟨d', List.mem_cons_of_mem _ hd', hR'⟩

theorem valueForm_changeUnder (h : List.Forall₂ (Fits r.default) r.fields rows)
    (hextensible : r.isExtensible = true) {key : String} {v : List Char}
    (hv : valueUnder (rows.map Prod.fst) key v) :
    r.valueForm key (changeUnder rows key) v := by
  have hfind : (rows.map Prod.fst).find? (·.key == key) =
      (rows.find? (·.1.key == key)).map Prod.fst := List.find?_map
  rw [valueUnder, hfind] at hv
  unfold RecordType.valueForm RecordType.field? changeUnder
  rcases find?_of_fits h key with ⟨hfield, hrow⟩ | ⟨f, row, hfield, hrow, hfits⟩
  · rw [hrow] at hv ⊢
    rw [hfield]
    exact ⟨hextensible, rfl, WellFormed.skips hv⟩
  · rw [hrow] at hv ⊢
    rw [hfield]
    exact hfits.reads v hv

theorem fieldKeys_changeUnder (h : List.Forall₂ (Fits r.default) r.fields rows)
    (keys : List String) :
    r.fieldKeys (keys.map fun key => (key, changeUnder rows key)) =
      keys.filter (· ∈ rows.map (·.1.key)) := by
  rw [fieldKeys, List.map_map]
  show (keys.map id).filter _ = _
  rw [List.map_id]
  refine List.filter_congr fun key _ => ?_
  have hmem : (rows.find? (·.1.key == key)).isSome = decide (key ∈ rows.map (·.1.key)) := by
    rw [Bool.eq_iff_iff, List.find?_isSome]
    simp
  rw [← hmem]
  show (r.fields.find? _).isSome = _
  rcases find?_of_fits h key with ⟨hfield, hrow⟩ | ⟨f, row, hfield, hrow, -⟩
  · rw [hfield, hrow]
    rfl
  · rw [hfield, hrow]
    rfl

/-- The slots of fields one by one, with the changes that they make. -/
inductive Filled (default : α) : List (Field α) → List Slot → List (α → α) → Prop where
  | nil : Filled default [] [] []
  | cons {f : Field α} {slot : Slot} {change : α → α} {fields : List (Field α)} {slots : List Slot}
      {changes : List (α → α)} : Fits default f (slot, change) →
      Filled default fields slots changes →
      Filled default (f :: fields) (slot :: slots) (change :: changes)

theorem Filled.exists_rows {default : α} {fields : List (Field α)} {slots : List Slot}
    {changes : List (α → α)} (h : Filled default fields slots changes) :
    ∃ rows, List.Forall₂ (Fits default) fields rows ∧ rows.map Prod.fst = slots ∧
      rows.map Prod.snd = changes ∧ rows.map (·.1.key) = fields.map (·.name) := by
  induction h with
  | nil => exact ⟨[], .nil, rfl, rfl, rfl⟩
  | @cons f slot change fields slots changes hfits _ ih =>
      obtain ⟨rows, hrows, rfl, rfl, hkeys⟩ := ih
      refine ⟨(slot, change) :: rows, .cons hfits hrows, rfl, rfl, ?_⟩
      rw [List.map_cons, List.map_cons, hkeys, hfits.key]

/-- **A record is read from its object**, whatever the order of the members,
with slots left out and with members of unknown name: if its changes commute and
all of them make the value of the default. -/
theorem reads_objectOf {slots : List Slot} {changes : List (α → α)} {a : α} {w : List Char}
    (hw : objectOf slots w) (hextensible : r.isExtensible = true)
    (hdistinct : r.fieldNames.Nodup) (hfilled : Filled r.default r.fields slots changes)
    (hcomm : ∀ p ∈ changes, ∀ q ∈ changes, ∀ x, p (q x) = q (p x))
    (hcomplete : changes.foldl (fun a change => change a) r.default = a) : Reads r.read a w := by
  obtain ⟨rows, hfits, rfl, rfl, hnames⟩ := hfilled.exists_rows
  obtain ⟨keys, parts, hparts, hnodup, hpresent, rfl⟩ := hw
  have hkeys : (rows.map Prod.fst).map Slot.key = rows.map (·.1.key) := List.map_map
  rw [hkeys] at hnodup
  rw [fieldNames, ← hnames] at hdistinct
  refine r.reads_record ⟨keys.map fun key => (key, changeUnder rows key), parts, ?_, ?_, ?_, ?_, rfl⟩
  · refine hparts.map _ fun key v hmember => ?_
    obtain ⟨key', ws, ws', v', hkey', hws, hws', hv', rfl⟩ := hmember
    exact ⟨key', ws, ws', v', hkey', hws, hws', valueForm_changeUnder hfits hextensible hv', rfl⟩
  · rw [fieldKeys_changeUnder hfits]
    exact hnodup
  · intro f hf hrequired
    obtain ⟨row, hrow, hfit⟩ := exists_mem_of_forall₂ hfits hf
    rw [fieldKeys_changeUnder hfits, hfit.key, List.mem_filter]
    rcases hpresent row.1 (List.mem_map_of_mem hrow) with hmem | homit
    · exact ⟨hmem, decide_eq_true (List.mem_map_of_mem hrow)⟩
    · exact absurd homit (hfit.required hrequired)
  · have hmissing : ∀ row ∈ rows, row.1.key ∉ keys → row.2 r.default = r.default := by
      intro row hrow hnot
      obtain ⟨f, -, hfit⟩ := exists_mem_of_forall₂ (List.Forall₂.flip hfits) hrow
      exact hfit.omitted ((hpresent row.1 (List.mem_map_of_mem hrow)).resolve_left hnot)
    have hrows : ∀ p ∈ rows, ∀ q ∈ rows, ∀ x, p.2 (q.2 x) = q.2 (p.2 x) := fun p hp q hq =>
      hcomm p.2 (List.mem_map_of_mem hp) q.2 (List.mem_map_of_mem hq)
    rw [List.foldl_map]
    rw [List.foldl_map] at hcomplete
    exact (changeAll_of_missing hdistinct hrows hnodup hmissing).trans hcomplete

end RecordType

end Ambient.Json
