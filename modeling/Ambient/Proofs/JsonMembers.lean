import Ambient.Proofs.JsonExact

/-!
# The members of an object

An object has its members in one way only: names in order, each with the value
as it is written (`membersForm_unique`).  So what a document says under a name
can be told from its text, and compared with what is read:

* under each name of a map stands what is read of the last value with that name
  (`exists_of_mapForm`);
* under the key of a field stands what is read of the value there, and without
  the key the default (`RecordType.TakenObject.field`).
-/

namespace Ambient.Json

/-! ## Members as they are written -/

def asWritten : Form (List Char) :=
  fun v w => WellFormed .value w ∧ w = v

/-- The members of an object: its names in order, each with its value as it is
written.  A name may occur several times. -/
def membersForm : Form (List (String × List Char)) :=
  mapForm asWritten

/-- What is written under a name; of several values the last one counts. -/
def lastUnder (ms : List (String × List Char)) (name : String) : Option (List Char) :=
  ms.reverse.lookup name

theorem mem_names_iff {ms : List (String × List Char)} {name : String} :
    name ∈ ms.map Prod.fst ↔ ∃ v, lastUnder ms name = some v := by
  rw [lastUnder, ← Option.isSome_iff_exists, List.lookup_isSome_iff, List.mem_map]
  constructor
  · rintro ⟨m, hm, rfl⟩
    exact ⟨m, List.mem_reverse.mpr hm, beq_self_eq_true _⟩
  · rintro ⟨m, hm, hname⟩
    exact ⟨m, List.mem_reverse.mp hm, (eq_of_beq hname).symm⟩

/-- Parts are parted in one way only, whatever follows. -/
theorem parts_unique {first : Bool} {ms ms' : List (String × List Char)}
    {parts parts' rest rest' : List Char}
    (h : Parts '\x7d' (memberForm fun _ => asWritten) first ms parts)
    (h' : Parts '\x7d' (memberForm fun _ => asWritten) first ms' parts')
    (heq : parts ++ rest = parts' ++ rest') : ms = ms' ∧ rest = rest' := by
  induction h generalizing ms' parts' with
  | @nil first ws hws =>
      have hnext : nextKey first (ws ++ ['\x7d'] ++ rest) = .ok (none, '\x7d' :: rest) := by
        rw [List.append_assoc, List.singleton_append]
        exact nextKey_closer hws first rest
      cases h' with
      | @nil _ ws' hws' =>
          rw [heq, List.append_assoc, List.singleton_append, nextKey_closer hws'] at hnext
          obtain ⟨-, hrest⟩ := Prod.mk.inj (Except.ok.inj hnext)
          exact ⟨rfl, ((List.cons_eq_cons.mp hrest).2).symm⟩
      | cons hgap hm =>
          obtain ⟨key, ws', ws'', v, hkey, -, -, -, rfl⟩ := hm
          rw [heq, member_append_assoc, nextKey_gap hgap hkey] at hnext
          cases hnext
  | @cons first gap w parts m ms hgap hm hms ih =>
      obtain ⟨key, ws, wsv, v, hkey, hws, hwsv, ⟨hv, hmv⟩, rfl⟩ := hm
      have hnext := nextKey_gap hgap hkey (ws ++ ':' :: (wsv ++ (v ++ (parts ++ rest))))
      rw [← member_append_assoc, heq] at hnext
      cases h' with
      | @nil _ ws' hws' =>
          rw [List.append_assoc, List.singleton_append, nextKey_closer hws'] at hnext
          cases hnext
      | @cons _ gap' _ parts' m' ms' hgap' hm' hms' =>
          obtain ⟨key', ws', wsv', v', hkey', hws', hwsv', ⟨hv', hmv'⟩, rfl⟩ := hm'
          rw [member_append_assoc, nextKey_gap hgap' hkey'] at hnext
          obtain ⟨hname, hafter⟩ := Prod.mk.inj (Except.ok.inj hnext)
          -- The colon and the value are taken from the same text on both sides.
          have hcolon := colon_append hws (wsv ++ (v ++ (parts ++ rest)))
          rw [← hafter, colon_append hws'] at hcolon
          obtain ⟨-, hvalue⟩ := Prod.mk.inj (Except.ok.inj hcolon)
          have hskip := hv.skips wsv (parts ++ rest) hwsv (hms.delimited (.inr rfl) rest)
          rw [← hvalue, hv'.skips wsv' _ hwsv' (hms'.delimited (.inr rfl) rest')] at hskip
          obtain ⟨-, htail⟩ := Prod.mk.inj (Except.ok.inj hskip)
          have hwritten : v' ++ (parts' ++ rest') = v ++ (parts ++ rest) := by
            rw [← skipBlanks_of_wellFormed hwsv' hv', hvalue, skipBlanks_of_wellFormed hwsv hv]
          rw [htail] at hwritten
          obtain ⟨rfl, hrest⟩ := ih hms' htail.symm
          refine ⟨?_, hrest⟩
          have hm : m = m' :=
            Prod.ext (Option.some.inj hname).symm
              (by rw [← hmv, ← hmv', List.append_cancel_right hwritten])
          rw [hm]

theorem membersForm_unique_append {ms ms' : List (String × List Char)}
    {w w' rest rest' : List Char} (h : membersForm ms w) (h' : membersForm ms' w')
    (heq : w ++ rest = w' ++ rest') : ms = ms' ∧ rest = rest' := by
  obtain ⟨parts, hparts, rfl⟩ := h
  obtain ⟨parts', hparts', rfl⟩ := h'
  exact parts_unique hparts hparts' (List.cons_eq_cons.mp heq).2

/-- **The members of an object are determined by its text.** -/
theorem membersForm_unique {ms ms' : List (String × List Char)} {w : List Char}
    (h : membersForm ms w) (h' : membersForm ms' w) : ms = ms' := by
  have heq : w ++ [] = w ++ [] := rfl
  exact (membersForm_unique_append h h' heq).1

theorem wellFormed_of_membersForm {ms : List (String × List Char)} {w : List Char}
    (h : membersForm ms w) : WellFormed .value w := by
  obtain ⟨parts, hparts, rfl⟩ := h
  refine .bracket (b := .curly) (wellFormed_of_members hparts fun _ _ _ hv => ?_)
  obtain ⟨hv, rfl⟩ := hv
  exact hv

/-- The members of an object that is a whole text, between blanks. -/
def documentMembers : Form (List (String × List Char)) :=
  fun ms w => ∃ ws v ws', Blanks ws ∧ membersForm ms v ∧ Blanks ws' ∧ w = ws ++ (v ++ ws')

theorem documentMembers_unique {ms ms' : List (String × List Char)} {w : List Char}
    (h : documentMembers ms w) (h' : documentMembers ms' w) : ms = ms' := by
  obtain ⟨ws, v, after, hws, hms, -, rfl⟩ := h
  obtain ⟨ws', v', after', hws', hms', -, heq⟩ := h'
  have hskip : skipBlanks (ws ++ (v ++ after)) = v ++ after :=
    skipBlanks_of_wellFormed hws (wellFormed_of_membersForm hms)
  rw [heq, skipBlanks_of_wellFormed hws' (wellFormed_of_membersForm hms')] at hskip
  exact (membersForm_unique_append hms' hms hskip).1.symm

theorem asWritten_of_parts {β : Type} {value : String → Form β} {written : β → List Char}
    {first : Bool} {ms : List (String × β)} {parts : List Char}
    (h : Parts '\x7d' (memberForm value) first ms parts)
    (hvalue : ∀ key b v, value key b v → WellFormed .value v ∧ v = written b) :
    Parts '\x7d' (memberForm fun _ => asWritten) first (ms.map fun m => (m.1, written m.2))
      parts := by
  refine h.map _ fun m v hm => ?_
  obtain ⟨key, ws, ws', v, hkey, hws, hws', hv, rfl⟩ := hm
  exact ⟨key, ws, ws', v, hkey, hws, hws', hvalue _ _ _ hv, rfl⟩

/-! ## Lists -/

/-- The items of a list in order, each as it is written. -/
def itemsForm : Form (List (List Char)) :=
  listForm asWritten

theorem wellFormed_of_itemsForm {vs : List (List Char)} {w : List Char} (h : itemsForm vs w) :
    WellFormed .value w := by
  obtain ⟨parts, hparts, rfl⟩ := h
  exact .bracket (b := .square) (wellFormed_of_items hparts fun _ _ hv => hv.1)

theorem nextItem_append {first : Bool} {gap v : List Char} (hgap : Gap first gap)
    (hv : WellFormed .value v) (parts rest : List Char) :
    nextItem first (gap ++ (v ++ parts) ++ rest) = .ok (true, v ++ (parts ++ rest)) := by
  obtain ⟨c, v, rfl, hblank, hcloser⟩ := hv.start
  have hnext := nextItem_gap hgap hblank (hcloser .square) (v ++ (parts ++ rest))
  simpa using hnext

theorem items_unique {first : Bool} {vs vs' : List (List Char)} {parts parts' rest rest' : List Char}
    (h : Parts ']' asWritten first vs parts) (h' : Parts ']' asWritten first vs' parts')
    (heq : parts ++ rest = parts' ++ rest') : vs = vs' ∧ rest = rest' := by
  induction h generalizing vs' parts' with
  | @nil first ws hws =>
      have hnext : nextItem first (ws ++ [']'] ++ rest) = .ok (false, ']' :: rest) := by
        rw [List.append_assoc, List.singleton_append]
        exact nextItem_closer hws first rest
      cases h' with
      | nil hws' =>
          rw [heq, List.append_assoc, List.singleton_append, nextItem_closer hws'] at hnext
          obtain ⟨-, hrest⟩ := Prod.mk.inj (Except.ok.inj hnext)
          exact ⟨rfl, ((List.cons_eq_cons.mp hrest).2).symm⟩
      | cons hgap hv =>
          rw [heq, nextItem_append hgap hv.1] at hnext
          cases hnext
  | @cons first gap v parts v₁ vs hgap hv hvs ih =>
      obtain ⟨hv, rfl⟩ := hv
      have hnext := nextItem_append hgap hv parts rest
      rw [heq] at hnext
      cases h' with
      | nil hws' =>
          rw [List.append_assoc, List.singleton_append, nextItem_closer hws'] at hnext
          cases hnext
      | @cons _ gap' v' parts' v₁' vs' hgap' hv' hvs' =>
          obtain ⟨hv', rfl⟩ := hv'
          rw [nextItem_append hgap' hv'] at hnext
          obtain ⟨-, hafter⟩ := Prod.mk.inj (Except.ok.inj hnext)
          have hskip := hv.skips [] (parts ++ rest) .nil (hvs.delimited (.inl rfl) rest)
          rw [List.nil_append, ← hafter] at hskip
          have hskip' := hv'.skips [] (parts' ++ rest') .nil (hvs'.delimited (.inl rfl) rest')
          rw [List.nil_append, hskip] at hskip'
          obtain ⟨-, htail⟩ := Prod.mk.inj (Except.ok.inj hskip')
          obtain ⟨rfl, hrest⟩ := ih hvs' htail
          rw [htail] at hafter
          exact ⟨by rw [List.append_cancel_right hafter], hrest⟩

/-- **The items of a list are determined by its text.** -/
theorem itemsForm_unique {vs vs' : List (List Char)} {w : List Char} (h : itemsForm vs w)
    (h' : itemsForm vs' w) : vs = vs' := by
  obtain ⟨parts, hparts, rfl⟩ := h
  obtain ⟨parts', hparts', heq⟩ := h'
  have hend : parts ++ [] = parts' ++ [] := by rw [(List.cons_eq_cons.mp heq).2]
  exact (items_unique hparts hparts' hend).1

theorem exists_itemsForm {α : Type} {item : Reader α} {first : Bool} {as : List α}
    {parts : List Char} (h : Parts ']' (Taken item) first as parts) :
    ∃ vs, Parts ']' asWritten first vs parts ∧ List.Forall₂ (Taken item) as vs := by
  induction h with
  | nil hws => exact ⟨[], .nil hws, .nil⟩
  | cons hgap ha _ ih =>
      obtain ⟨vs, hvs, hall⟩ := ih
      exact ⟨_ :: vs, .cons hgap ⟨ha.wellFormed, rfl⟩ hvs, .cons ha hall⟩

/-! ## Maps -/

theorem Parts.exists_of_mem {β : Type} {closer : Char} {part : Form β} {first : Bool}
    {bs : List β} {w : List Char} (h : Parts closer part first bs w) {b : β} (hb : b ∈ bs) :
    ∃ v, part b v := by
  induction h with
  | nil => exact absurd hb List.not_mem_nil
  | cons _ hpart _ ih =>
      rcases List.mem_cons.mp hb with rfl | hb
      · exact ⟨_, hpart⟩
      · exact ih hb

theorem lookup_map_snd {β γ : Type} (f : β → γ) (l : List (String × β)) (name : String) :
    (l.map fun e => (e.1, f e.2)).lookup name = (l.lookup name).map f := by
  induction l with
  | nil => rfl
  | cons e l ih =>
      rw [List.map_cons, List.lookup_cons, List.lookup_cons, ih]
      cases name == e.1 <;> rfl

theorem mem_of_lookup_reverse {β : Type} {l : List (String × β)} {name : String} {b : β}
    (h : l.reverse.lookup name = some b) : (name, b) ∈ l := by
  obtain ⟨l₁, l₂, hl, -⟩ := List.lookup_eq_some_iff.mp h
  rw [← List.mem_reverse, hl]
  exact List.mem_append_right _ List.mem_cons_self

theorem membersForm_of_mapForm {α : Type} {value : Reader α} {ms : List (String × α × List Char)}
    {w : List Char} (h : mapForm (takenForm value) ms w) :
    membersForm (ms.map fun e => (e.1, e.2.2)) w := by
  obtain ⟨parts, hparts, rfl⟩ := h
  exact ⟨parts, asWritten_of_parts hparts fun _ _ _ hv => ⟨hv.1.wellFormed, hv.2⟩, rfl⟩

/-- Under each name of an object stands what is read of its last value. -/
theorem exists_of_mapForm {α : Type} {value : Reader α} {ms : List (String × α × List Char)}
    {w : List Char} (h : mapForm (takenForm value) ms w) (name : String) :
    (SortedMap.ofList (ms.map fun e => (e.1, e.2.1))).get? name = none ∧
        lastUnder (ms.map fun e => (e.1, e.2.2)) name = none ∨
      ∃ a v, (SortedMap.ofList (ms.map fun e => (e.1, e.2.1))).get? name = some a ∧
        lastUnder (ms.map fun e => (e.1, e.2.2)) name = some v ∧ Taken value a v := by
  have hread : (SortedMap.ofList (ms.map fun e => (e.1, e.2.1))).get? name =
      (ms.reverse.lookup name).map Prod.fst := by
    rw [SortedMap.get?_ofList, ← List.map_reverse]
    exact lookup_map_snd Prod.fst _ _
  have hwritten : lastUnder (ms.map fun e => (e.1, e.2.2)) name =
      (ms.reverse.lookup name).map Prod.snd := by
    rw [lastUnder, ← List.map_reverse]
    exact lookup_map_snd Prod.snd _ _
  rw [hread, hwritten]
  cases hlast : ms.reverse.lookup name with
  | none => exact .inl ⟨rfl, rfl⟩
  | some p =>
      obtain ⟨parts, hparts, -⟩ := h
      obtain ⟨_, hm⟩ := hparts.exists_of_mem (mem_of_lookup_reverse hlast)
      obtain ⟨key, ws, ws', v, -, -, -, ⟨htaken, rfl⟩, -⟩ := hm
      exact .inr ⟨p.1, p.2, rfl, rfl, htaken⟩

/-- A value that is the whole of a text is the one that is taken from it. -/
theorem eq_of_wellFormed {w w' ws : List Char} (hw : WellFormed .value w) (hws : Blanks ws)
    (hw' : WellFormed .value w') (h : w ++ [] = ws ++ (w' ++ [])) : w = w' := by
  have hskip : skipBlanks (w ++ []) = w ++ [] := skipBlanks_of_wellFormed .nil hw
  rw [h, skipBlanks_of_wellFormed hws hw', ← h] at hskip
  exact (List.append_cancel_right hskip).symm

/-- A value that may be left out is nothing exactly where `null` is written. -/
theorem Taken.of_optional {α : Type} {value : Reader α} (hvalue : Exact value) {a : Option α}
    {w : List Char} (h : Taken (optional value) a w) :
    a = none ∧ w = ['n', 'u', 'l', 'l'] ∨
      ∃ b, a = some b ∧ Taken value b w ∧ w ≠ ['n', 'u', 'l', 'l'] := by
  obtain ⟨ws, w', hws, heq, ⟨rfl, rfl⟩ | ⟨b, rfl, hb, hhead⟩⟩ :=
    exists_of_optional hvalue (h.reads.read [] [] .nil)
  · exact .inl ⟨rfl, eq_of_wellFormed h.wellFormed hws .null heq⟩
  · obtain rfl := eq_of_wellFormed h.wellFormed hws hb.wellFormed heq
    exact .inr ⟨b, rfl, hb, fun hnull => hhead (hnull ▸ rfl)⟩

theorem Taken.exists_items {α : Type} {item : Reader α} (hitem : Exact item) {as : List α}
    {w : List Char} (h : Taken (list item) as w) :
    ∃ vs, (∀ vs', itemsForm vs' w ↔ vs' = vs) ∧ List.Forall₂ (Taken item) as vs := by
  obtain ⟨ws, w', hws, hlist, heq⟩ := exists_of_list hitem (h.reads.read [] [] .nil)
  obtain rfl := eq_of_wellFormed h.wellFormed hws (taken_list hlist).wellFormed heq
  obtain ⟨parts, hparts, rfl⟩ := hlist
  obtain ⟨vs, hvs, hall⟩ := exists_itemsForm hparts
  have hform : itemsForm vs ('[' :: parts) := ⟨parts, hvs, rfl⟩
  exact ⟨vs, fun vs' => ⟨fun hvs' => itemsForm_unique hvs' hform, fun heq => heq ▸ hform⟩, hall⟩

theorem Taken.exists_mapForm {α : Type} {value : Reader α} (hvalue : Exact value)
    {m : SortedMap α} {w : List Char} (h : Taken (Json.map value) m w) :
    ∃ ms, mapForm (takenForm value) ms w ∧ m = .ofList (ms.map fun e => (e.1, e.2.1)) := by
  obtain ⟨ws, w', ms, hws, hms, rfl, heq⟩ := exists_of_map hvalue (h.reads.read [] [] .nil)
  rw [eq_of_wellFormed h.wellFormed hws (taken_map hms).wellFormed heq]
  exact ⟨ms, hms, rfl⟩

/-! ## Fields -/

/-- Whatever is read of a field, it leaves a part of the record as it is. -/
def Field.Keeps {α β : Type} (f : Field α) (get : α → β) : Prop :=
  ∀ (change : α → α) (w : List Char), Reads f.read change w → ∀ a, get (change a) = get a

section Fields

variable {α β γ : Type} {name : String} {value : Reader β} {set : β → α → α}

theorem Field.exists_of_reads_defaulted {change : α → α} {w ws : List Char}
    (h : Reads (Field.defaulted name value set).read change w) (hws : Blanks ws)
    (rest : List Char) :
    ∃ b, value (ws ++ (w ++ rest)) = .ok (b, rest) ∧ set b = change := by
  have hread : (value (ws ++ (w ++ rest))).map (fun p => (set p.1, p.2)) = .ok (change, rest) :=
    h.read ws rest hws
  cases hvalue : value (ws ++ (w ++ rest)) with
  | error e =>
      rw [hvalue] at hread
      cases hread
  | ok p =>
      obtain ⟨b, rest'⟩ := p
      rw [hvalue] at hread
      obtain ⟨hchange, rfl⟩ := Prod.mk.inj (Except.ok.inj hread)
      exact ⟨b, rfl, hchange⟩

theorem Field.keeps_defaulted {get : α → γ} (h : ∀ b a, get (set b a) = get a) :
    (Field.defaulted name value set).Keeps get := by
  intro change w hreads a
  obtain ⟨b, -, rfl⟩ := Field.exists_of_reads_defaulted hreads .nil []
  exact h b a

theorem Field.keeps_required {get : α → γ} (h : ∀ b a, get (set b a) = get a) :
    (Field.required name value set).Keeps get := by
  show (Field.defaulted name value set).Keeps get
  exact Field.keeps_defaulted h

theorem Field.reads_of_reads_defaulted {get : α → β} (hget : ∀ b a, get (set b a) = b)
    {change : α → α} {w : List Char} (h : Reads (Field.defaulted name value set).read change w)
    (a : α) : Reads value (get (change a)) w := by
  refine ⟨h.start, fun ws rest hws => ?_⟩
  obtain ⟨b, hb, rfl⟩ := Field.exists_of_reads_defaulted h hws rest
  rw [hb, hget]

end Fields

namespace RecordType

variable {α β : Type} {r : RecordType α} {name : String} {value : Reader β} {set : β → α → α}
  {get : α → β}

theorem TakenObject.membersForm {a : α} {ms : List (String × (α → α) × List Char)}
    {w : List Char} (h : r.TakenObject a ms w) : membersForm (ms.map fun m => (m.1, m.2.2)) w := by
  obtain ⟨⟨parts, hparts, rfl⟩, -, -, -⟩ := h
  exact ⟨parts, asWritten_of_parts hparts fun _ _ _ hv => ⟨hv.1.2, hv.2⟩, rfl⟩

theorem mem_fieldKeys {key : String} {f : Field α} (hf : r.field? key = some f)
    {ms : List (String × (α → α) × List Char)} :
    key ∈ r.fieldKeys (changes ms) ↔ key ∈ ms.map Prod.fst := by
  rw [fieldKeys, changes, List.map_map, List.mem_filter]
  exact and_iff_left (by rw [hf]; rfl)

/-- A member under another key leaves a field as it is. -/
theorem keeps_of_valueForm (hothers : ∀ f ∈ r.fields, f.name ≠ name → f.Keeps get) {key : String}
    {change : α → α} {v : List Char} (hv : r.valueForm key change v) (hkey : key ≠ name) (a : α) :
    get (change a) = get a := by
  unfold valueForm at hv
  split at hv
  · rename_i f hf
    have hname : f.name = key := by simpa using List.find?_some hf
    exact hothers f (List.mem_of_find?_eq_some hf) (hname ▸ hkey) _ _ hv a
  · obtain ⟨-, rfl, -⟩ := hv
    rfl

/-- What the members make of a record under the key of a field, if the other
fields leave it as it is. -/
theorem field_of_members {f : Field α} (hfield : r.field? name = some f)
    (hread : f.read = (Field.defaulted name value set).read)
    (hget : ∀ b a, get (set b a) = b) (hothers : ∀ f ∈ r.fields, f.name ≠ name → f.Keeps get) :
    ∀ (ms : List (String × (α → α) × List Char)) (a : α),
      (∀ m ∈ ms, r.valueForm m.1 m.2.1 m.2.2 ∧ WellFormed .value m.2.2) →
      (r.fieldKeys (changes ms)).Nodup →
      (ms.lookup name = none ∧ get ((changes ms).foldl (fun a m => m.2 a) a) = get a) ∨
        ∃ p, ms.lookup name = some p ∧
          Taken value (get ((changes ms).foldl (fun a m => m.2 a) a)) p.2
  | [], a, _, _ => .inl ⟨rfl, rfl⟩
  | (key, change, v) :: ms, a, hms, hnodup => by
      have hrest := field_of_members hfield hread hget hothers ms (change a)
        fun m hm => hms m (List.mem_cons_of_mem _ hm)
      obtain ⟨hv, hwellFormed⟩ := hms _ List.mem_cons_self
      have hfold : (changes ((key, change, v) :: ms)).foldl (fun a m => m.2 a) a =
          (changes ms).foldl (fun a m => m.2 a) (change a) := rfl
      rw [hfold]
      by_cases hkey : key = name
      · subst hkey
        rw [fieldKeys_cons_of_some hfield] at hnodup
        obtain ⟨hnot, hnodup⟩ := List.nodup_cons.mp hnodup
        have hset : Reads f.read change v := by
          rwa [valueForm, hfield] at hv
        rw [hread] at hset
        have hreads := Field.reads_of_reads_defaulted hget hset a
        refine .inr ⟨(change, v), List.lookup_cons_self, ?_⟩
        -- The field stands once, so what is behind leaves it as it is.
        rcases hrest hnodup with ⟨-, hkept⟩ | ⟨p, hp, -⟩
        · rw [hkept]
          exact ⟨hreads, hwellFormed⟩
        · obtain ⟨l₁, l₂, rfl, -⟩ := List.lookup_eq_some_iff.mp hp
          exact absurd ((mem_fieldKeys hfield).mpr (by simp)) hnot
      · have hnodup' : (r.fieldKeys (changes ms)).Nodup := by
          cases hf : r.field? key with
          | some f =>
              rw [fieldKeys_cons_of_some hf] at hnodup
              exact (List.nodup_cons.mp hnodup).2
          | none => rwa [fieldKeys_cons_of_none hf] at hnodup
        have hkept := keeps_of_valueForm hothers hv hkey a
        rw [lookup_cons_eq_ite, if_neg (Ne.symm hkey), ← hkept]
        exact hrest hnodup'

theorem TakenObject.taken_of_mem {a : α} {ms : List (String × (α → α) × List Char)} {w : List Char}
    (h : r.TakenObject a ms w) {m : String × (α → α) × List Char} (hm : m ∈ ms) :
    r.valueForm m.1 m.2.1 m.2.2 ∧ WellFormed .value m.2.2 := by
  obtain ⟨⟨parts, hparts, -⟩, -, -, -⟩ := h
  obtain ⟨_, key, ws, ws', v, -, -, -, ⟨hv, rfl⟩, -⟩ := hparts.exists_of_mem hm
  exact hv

theorem TakenObject.mem_fieldNames (hextensible : r.isExtensible = false) {a : α}
    {ms : List (String × (α → α) × List Char)} {w : List Char} (h : r.TakenObject a ms w) :
    ∀ name ∈ (ms.map fun m => (m.1, m.2.2)).map Prod.fst, name ∈ r.fieldNames := by
  intro name hname
  obtain ⟨e, he, rfl⟩ := List.mem_map.mp hname
  obtain ⟨m, hm, rfl⟩ := List.mem_map.mp he
  obtain ⟨hv, -⟩ := h.taken_of_mem hm
  unfold valueForm at hv
  split at hv
  · rename_i f hf
    have hkey : f.name = m.1 := by simpa using List.find?_some hf
    exact List.mem_map.mpr ⟨f, List.mem_of_find?_eq_some hf, hkey⟩
  · rw [hextensible] at hv
    exact Bool.noConfusion hv.1

/-- Under the key of a field stands what the record has there; without the key
it has the default. -/
theorem TakenObject.field {a : α} {ms : List (String × (α → α) × List Char)} {w : List Char}
    (h : r.TakenObject a ms w) (hfield : r.field? name = some (.defaulted name value set))
    (hget : ∀ b a, get (set b a) = b) (hothers : ∀ f ∈ r.fields, f.name ≠ name → f.Keeps get) :
    ((ms.map fun m => (m.1, m.2.2)).lookup name = none ∧ get a = get r.default) ∨
      ∃ v, (ms.map fun m => (m.1, m.2.2)).lookup name = some v ∧ Taken value (get a) v := by
  rw [lookup_map_snd Prod.snd, ← h.made]
  rcases field_of_members hfield rfl hget hothers ms r.default (fun _ => h.taken_of_mem) h.once with
    ⟨hnone, heq⟩ | ⟨p, hp, htaken⟩
  · exact .inl ⟨by rw [hnone]; rfl, heq⟩
  · exact .inr ⟨p.2, by rw [hp]; rfl, htaken⟩

theorem TakenObject.requiredField {a : α} {ms : List (String × (α → α) × List Char)}
    {w : List Char} (h : r.TakenObject a ms w)
    (hfield : r.field? name = some (.required name value set)) (hget : ∀ b a, get (set b a) = b)
    (hothers : ∀ f ∈ r.fields, f.name ≠ name → f.Keeps get) :
    ∃ v, (ms.map fun m => (m.1, m.2.2)).lookup name = some v ∧ Taken value (get a) v := by
  rw [lookup_map_snd Prod.snd, ← h.made]
  rcases field_of_members hfield rfl hget hothers ms r.default (fun _ => h.taken_of_mem) h.once with
    ⟨hnone, -⟩ | ⟨p, hp, htaken⟩
  · have hkey := h.required _ (List.mem_of_find?_eq_some hfield) rfl
    obtain ⟨m, hm, hname⟩ := List.mem_map.mp ((mem_fieldKeys hfield).mp hkey)
    exact absurd hname.symm (by simpa using List.lookup_eq_none_iff.mp hnone m hm)
  · exact ⟨p.2, by rw [hp]; rfl, htaken⟩

theorem exists_takenObject (hfields : ∀ f ∈ r.fields, Exact f.read) {a : α} {w : List Char}
    (h : Taken r.read a w) (hcurly : w.head? = some '\x7b') : ∃ ms, r.TakenObject a ms w := by
  obtain ⟨rest, hw⟩ := List.head?_eq_some_iff.mp hcurly
  have hskip : skipBlanks (w ++ []) = '\x7b' :: rest := by
    rw [hw, List.append_nil]
    exact skipBlanks_append Blanks.nil rfl
  obtain ⟨ws, w', ms, hws, hms, heq⟩ := exists_of_read hfields (h.reads.read [] [] .nil) hskip
  rw [eq_of_wellFormed h.wellFormed hws hms.taken.wellFormed heq]
  exact ⟨ms, hms⟩

end RecordType

/-! ## Objects inside objects -/

/-- The members of the object under a key of an object; without the key there are none. -/
def fieldMembers (name : String) : Form (List (String × List Char)) :=
  fun ms w => ∃ outer, membersForm outer w ∧
    (outer.lookup name = none ∧ ms = [] ∨ ∃ v, outer.lookup name = some v ∧ membersForm ms v)

theorem fieldMembers_unique {name : String} {ms ms' : List (String × List Char)} {w : List Char}
    (h : fieldMembers name ms w) (h' : fieldMembers name ms' w) : ms = ms' := by
  obtain ⟨outer, houter, h⟩ := h
  obtain ⟨outer', houter', h'⟩ := h'
  obtain rfl := membersForm_unique houter houter'
  rcases h with ⟨hnone, rfl⟩ | ⟨v, hv, hms⟩ <;> rcases h' with ⟨hnone', rfl⟩ | ⟨v', hv', hms'⟩
  · rfl
  · exact nomatch hnone.symm.trans hv'
  · exact nomatch hnone'.symm.trans hv
  · obtain rfl := Option.some.inj (hv.symm.trans hv')
    exact membersForm_unique hms hms'

/-- A map holds under each name what is read of the last value that is written
for it, and nothing under other names. -/
def Holds {α : Type} (value : Reader α) (m : SortedMap α) (ms : List (String × List Char)) : Prop :=
  ∀ name, m.get? name = none ∧ lastUnder ms name = none ∨
    ∃ a v, m.get? name = some a ∧ lastUnder ms name = some v ∧ Taken value a v

theorem Holds.mem_keys_iff {α : Type} {value : Reader α} {m : SortedMap α}
    {ms : List (String × List Char)} (h : Holds value m ms) (name : String) :
    name ∈ m.keys ↔ name ∈ ms.map Prod.fst := by
  rw [SortedMap.mem_keys, mem_names_iff]
  rcases h name with ⟨hm, hms⟩ | ⟨a, v, hm, hms, -⟩
  · simp [hm, hms]
  · simp [hm, hms]

/-- A map that is a field of a record holds the members under the key of the field. -/
theorem RecordType.TakenObject.exists_fieldMembers {α β : Type} {r : RecordType α} {name : String}
    {value : Reader β} (hvalue : Exact value) {set : SortedMap β → α → α} (get : α → SortedMap β)
    {a : α} {ms : List (String × (α → α) × List Char)} {w : List Char} (h : r.TakenObject a ms w)
    (hfield : r.field? name = some (.defaulted name (Json.map value) set))
    (hget : ∀ m a, get (set m a) = m) (hothers : ∀ f ∈ r.fields, f.name ≠ name → f.Keeps get)
    (hdefault : get r.default = {}) :
    ∃ inner, (∀ inner', fieldMembers name inner' w ↔ inner' = inner) ∧
      Holds value (get a) inner := by
  have hunique : ∀ {inner}, fieldMembers name inner w →
      ∀ inner', fieldMembers name inner' w ↔ inner' = inner := fun hinner inner' =>
    ⟨fun hinner' => fieldMembers_unique hinner' hinner, fun heq => heq ▸ hinner⟩
  rcases h.field hfield hget hothers with ⟨hnone, heq⟩ | ⟨v, hv, htaken⟩
  · refine ⟨[], hunique ⟨_, h.membersForm, .inl ⟨hnone, rfl⟩⟩, fun key => .inl ⟨?_, rfl⟩⟩
    rw [heq, hdefault]
    rfl
  · obtain ⟨inner, hinner, hmap⟩ := htaken.exists_mapForm hvalue
    refine ⟨_, hunique ⟨_, h.membersForm, .inr ⟨v, hv, membersForm_of_mapForm hinner⟩⟩, ?_⟩
    rw [hmap]
    exact exists_of_mapForm hinner

end Ambient.Json
