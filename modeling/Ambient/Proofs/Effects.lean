import Ambient.Proofs.Loading
import Ambient.Proofs.SortedContent
import Ambient.Proofs.TreeRuns

/-!
# What a run leaves behind

All inputs are read before anything is touched, so a run that fails on an input
leaves the tree as it was.  Any other run has written the modules of the first
few categories in key order, each in whole, and has changed no other file
(`run_writes_first_modules`).

`Inputs.Writes` is that writing as a relation between the tree before and the
tree behind the last module; what holds of every step is carried along it by
induction, and the run of the program is an instance of it.
-/

namespace Ambient

/-! ## Writing the modules of some categories -/

theorem fileName_of_emitCategory {d : Description} {s : Settings} {key : String} {m : ModuleFile}
    (h : emitCategory d s key = some m) : m.fileName = s.fileName key := by
  obtain ⟨c, -, rfl⟩ := Option.map_eq_some_iff.mp h
  rfl

theorem exists_emitCategory {d : Description} (s : Settings) {key : String}
    (h : key ∈ d.categories.keys) : ∃ m, emitCategory d s key = some m := by
  obtain ⟨⟨k, c⟩, hc, rfl⟩ := List.mem_map.mp h
  exact ⟨_, by rw [emitCategory, Description.category?, SortedMap.get?_eq_some_iff.mpr hc]; rfl⟩

namespace Inputs

def modulePath (i : Inputs) (outDir key : String) : String :=
  joinPath outDir (i.settings.fileName key)

/-- The modules of some categories are written one after the other. -/
inductive Writes (i : Inputs) (outDir : String) : FileTree → List String → FileTree → Prop
  | nil (t : FileTree) : Writes i outDir t [] t
  | cons {t t' t'' : FileTree} {key : String} {keys : List String} {m : ModuleFile} :
      emitCategory i.description i.settings key = some m →
      t.writeFile (i.modulePath outDir key) m.text.toUTF8 = .ok t' →
      Writes i outDir t' keys t'' → Writes i outDir t (key :: keys) t''

/-- What the modules of some categories, written in turn, make of the files of a tree. -/
structure Leaves (i : Inputs) (outDir : String) (keys : List String) (t t' : FileTree) : Prop where
  /-- The path of each of these modules leads to a location. -/
  reached : ∀ key ∈ keys, ∃ l, t'.Reaches (i.modulePath outDir key) l
  /-- A location holds the whole text of the last module whose path leads to it. -/
  content : ∀ before key after l, keys = before ++ key :: after →
    t'.Reaches (i.modulePath outDir key) l →
    (∀ later ∈ after, ¬ t'.Reaches (i.modulePath outDir later) l) →
    ∃ m, emitCategory i.description i.settings key = some m ∧
      t'.entry? l = some (.file m.text.toUTF8)
  /-- Where no such path leads, the files are those that were there. -/
  elsewhere : ∀ l, (∀ key ∈ keys, ¬ t'.Reaches (i.modulePath outDir key) l) →
    ∀ content, t'.entry? l = some (.file content) ↔ t.entry? l = some (.file content)
  /-- No file is removed. -/
  kept : ∀ l content, t.entry? l = some (.file content) →
    ∃ content', t'.entry? l = some (.file content')

variable {i : Inputs} {outDir : String} {keys : List String} {t t' t'' : FileTree}

theorem Writes.extends (h : i.Writes outDir t keys t') : t.Extends t' := by
  induction h with
  | nil t => exact .refl t
  | cons _ hwrite _ ih =>
      obtain ⟨l, rfl, hfree, -⟩ := FileTree.writeFile_eq_ok hwrite
      exact (FileTree.Extends.set hfree _).trans ih

theorem Leaves.nil (i : Inputs) (outDir : String) (t : FileTree) : i.Leaves outDir [] t t where
  reached := fun _ h => absurd h List.not_mem_nil
  content := fun before _ _ _ h => absurd h.symm (by simp)
  elsewhere := fun _ _ _ => Iff.rfl
  kept := fun _ content h => ⟨content, h⟩

/-- One more module in front.  Its location is told by the tree at the end, and
what the later ones leave alone there is its text. -/
theorem Leaves.cons {key : String} {m : ModuleFile} {l : Location}
    (hm : emitCategory i.description i.settings key = some m)
    (hfree : t.entry? l ≠ some .directory) (hpath : t'.Reaches (i.modulePath outDir key) l)
    (h : i.Leaves outDir keys (t.set l (.file m.text.toUTF8)) t') :
    i.Leaves outDir (key :: keys) t t' where
  reached := by
    intro k hk
    rcases List.mem_cons.mp hk with rfl | hk
    · exact ⟨l, hpath⟩
    · exact h.reached k hk
  content := by
    intro before k after l' hkeys hreaches hlast
    cases before with
    | nil =>
        obtain ⟨rfl, rfl⟩ := List.cons_eq_cons.mp hkeys
        obtain rfl := hpath.unique hreaches
        refine ⟨m, hm, (h.elsewhere l hlast _).mpr ?_⟩
        exact FileTree.entry_set_self (FileTree.isAnchor_eq_false hfree) _ _
    | cons b before =>
        exact h.content before k after l' (List.cons_eq_cons.mp hkeys).2 hreaches hlast
  elsewhere := by
    intro l' hfar content
    have hne : l' ≠ l := by
      rintro rfl
      exact hfar key List.mem_cons_self hpath
    rw [h.elsewhere l' (fun k hk => hfar k (List.mem_cons_of_mem _ hk)),
      FileTree.entry_set_of_ne hne]
  kept := by
    intro l' content hcontent
    by_cases heq : l' = l
    · refine h.kept l' m.text.toUTF8 ?_
      rw [heq, FileTree.entry_set_self (FileTree.isAnchor_eq_false hfree)]
    · refine h.kept l' content ?_
      rwa [FileTree.entry_set_of_ne heq]

theorem Writes.leaves (h : i.Writes outDir t keys t') : i.Leaves outDir keys t t' := by
  induction h with
  | nil t => exact .nil i outDir t
  | cons hm hwrite hrest ih =>
      obtain ⟨l, rfl, hfree, hpath⟩ := FileTree.writeFile_eq_ok hwrite
      exact .cons hm hfree (hrest.extends.reaches hpath) ih

theorem Leaves.of_growsDirectories (h : i.Leaves outDir keys t' t'')
    (hgrows : t.GrowsDirectories t') : i.Leaves outDir keys t t'' where
  reached := h.reached
  content := h.content
  elsewhere := fun l hfar content =>
    (h.elsewhere l hfar content).trans (hgrows.file_iff l content)
  kept := fun l content hcontent => h.kept l content ((hgrows.file_iff l content).mpr hcontent)

/-! ## The run -/

/-- The run that writes the modules of some categories. -/
def writing (i : Inputs) (outDir : String) (t : FileTree) (keys : List String) : Run :=
  writeModules outDir t (keys.filterMap (emitCategory i.description i.settings))

theorem writing_of_refused {key : String} {m : ModuleFile} {e : SystemError}
    (hm : emitCategory i.description i.settings key = some m)
    (hwrite : t.writeFile (i.modulePath outDir key) m.text.toUTF8 = .error e) :
    i.writing outDir t (key :: keys) = ⟨t, [], .error (.unwritable (i.modulePath outDir key) e)⟩ := by
  rw [modulePath, ← fileName_of_emitCategory hm] at hwrite ⊢
  rw [writing, List.filterMap_cons_some hm, writeModules_of_refused _ hwrite]

theorem writing_of_written {key : String} {m : ModuleFile}
    (hm : emitCategory i.description i.settings key = some m)
    (hwrite : t.writeFile (i.modulePath outDir key) m.text.toUTF8 = .ok t') :
    i.writing outDir t (key :: keys) =
      { i.writing outDir t' keys with
        events := writtenEvent (i.modulePath outDir key) :: (i.writing outDir t' keys).events } := by
  rw [modulePath, ← fileName_of_emitCategory hm] at hwrite ⊢
  rw [writing, List.filterMap_cons_some hm, writeModules_of_written _ hwrite]
  rfl

/-- The writing ends behind the last module or at the first refusal. -/
theorem exists_writes (i : Inputs) (outDir : String) :
    ∀ (keys : List String) (t : FileTree),
      (∀ key ∈ keys, ∃ m, emitCategory i.description i.settings key = some m) →
      ∃ written, written <+: keys ∧ i.Writes outDir t written (i.writing outDir t keys).tree ∧
        ((i.writing outDir t keys).result = .ok () ↔ written = keys) ∧
        ∀ e, (i.writing outDir t keys).result = .error e → e.isOfInput = false
  | [], t, _ => ⟨[], List.prefix_rfl, .nil t, ⟨fun _ => rfl, fun _ => rfl⟩, fun _ h => nomatch h⟩
  | key :: keys, t, hall => by
      obtain ⟨m, hm⟩ := hall key List.mem_cons_self
      cases hwrite : t.writeFile (i.modulePath outDir key) m.text.toUTF8 with
      | error e =>
          rw [writing_of_refused hm hwrite]
          refine ⟨[], List.nil_prefix, .nil t, ⟨fun h => (nomatch h), fun h => (nomatch h)⟩, ?_⟩
          exact fun e' h => Except.error.inj h ▸ rfl
      | ok t' =>
          obtain ⟨written, hprefix, hwrites, hresult, herror⟩ :=
            i.exists_writes outDir keys t' fun k hk => hall k (List.mem_cons_of_mem _ hk)
          rw [writing_of_written hm hwrite]
          refine ⟨key :: written, List.cons_prefix_cons.mpr ⟨rfl, hprefix⟩, .cons hm hwrite hwrites,
            ?_, herror⟩
          rw [List.cons_inj_right]
          exact hresult

theorem exists_leaves_run (i : Inputs) (outDir : String) (t : FileTree)
    (hcheck : i.settings.check = .ok ()) :
    ∃ keys, keys <+: i.description.categories.keys ∧ i.Leaves outDir keys t (i.run outDir t).tree ∧
      ((i.run outDir t).result = .ok () ↔
        (t.createDirectories outDir).2 = .ok () ∧ keys = i.description.categories.keys) ∧
      ∀ e, (i.run outDir t).result = .error e → e.isOfInput = false := by
  have hgrows := t.createDirectories_growsDirectories outDir
  cases hcreate : t.createDirectories outDir with
  | mk t' created =>
      rw [hcreate] at hgrows
      cases created with
      | error e =>
          rw [run_of_directory_refused hcheck hcreate]
          refine ⟨[], List.nil_prefix, (Leaves.nil i outDir t').of_growsDirectories hgrows,
            ⟨fun h => (nomatch h), fun h => (nomatch h.1)⟩, ?_⟩
          exact fun e' h => Except.error.inj h ▸ rfl
      | ok _ =>
          obtain ⟨written, hprefix, hwrites, hresult, herror⟩ :=
            i.exists_writes outDir i.description.categories.keys t' fun key hkey =>
              exists_emitCategory i.settings hkey
          rw [run_of_directory_created hcheck hcreate]
          exact ⟨written, hprefix, hwrites.leaves.of_growsDirectories hgrows,
            hresult.trans ⟨fun h => ⟨rfl, h⟩, fun h => h.2⟩, herror⟩

end Inputs

theorem Request.run_of_load_eq_error {r : Request} {stdin : ByteArray} {today : Date}
    {t : FileTree} {e : Failure} (h : (r.load (t.sources stdin today)).run = .error e) :
    r.run stdin today t = ⟨t, [], .error e⟩ := by
  unfold Request.run
  rw [h]

theorem Request.run_of_load_eq_ok {r : Request} {stdin : ByteArray} {today : Date}
    {t : FileTree} {i : Inputs} (h : (r.load (t.sources stdin today)).run = .ok i) :
    r.run stdin today t = i.run r.outDir t := by
  unfold Request.run
  rw [h]

/-- **A run touches nothing before all inputs are settled, and then a prefix of
the modules.**  A run that fails on an input leaves the tree as it was.  Every
other run has read all inputs; behind it the modules of the first few
categories in ascending key order stand in whole where their paths lead, every
other file is as it was, and none is removed.  It succeeds exactly if the
directory could be created and these are all the modules. -/
theorem run_writes_first_modules (r : Request) (stdin : ByteArray) (today : Date) (t : FileTree) :
    (∀ e, (r.run stdin today t).result = .error e → e.isOfInput = true →
      (r.run stdin today t).tree = t) ∧
    ((∀ e, (r.run stdin today t).result = .error e → e.isOfInput = false) →
      ∃ i, (r.load (t.sources stdin today)).run = .ok i ∧ i.settings.check = .ok () ∧
        ∃ keys, keys <+: i.description.categories.keys ∧
          i.Leaves r.outDir keys t (r.run stdin today t).tree ∧
          ((r.run stdin today t).result = .ok () ↔
            (t.createDirectories r.outDir).2 = .ok () ∧ keys = i.description.categories.keys)) := by
  cases hload : (r.load (t.sources stdin today)).run with
  | error e =>
      have hrun : r.run stdin today t = ⟨t, [], .error e⟩ := by
        unfold Request.run
        rw [hload]
      rw [hrun]
      refine ⟨fun _ _ _ => rfl, fun h => ?_⟩
      have hinput := failsOnInput_load (t.sources stdin today) r e hload
      rw [h e rfl] at hinput
      exact Bool.noConfusion hinput
  | ok i =>
      have hrun : r.run stdin today t = i.run r.outDir t := by
        unfold Request.run
        rw [hload]
      rw [hrun]
      cases hcheck : i.settings.check with
      | error e =>
          rw [Inputs.run_of_check_eq_error hcheck]
          exact ⟨fun _ _ _ => rfl, fun h => nomatch h (.settings e) rfl⟩
      | ok _ =>
          obtain ⟨keys, hprefix, hleaves, hresult, herror⟩ :=
            i.exists_leaves_run r.outDir t hcheck
          refine ⟨fun e he hinput => ?_, fun _ => ⟨i, rfl, hcheck, keys, hprefix, hleaves, hresult⟩⟩
          rw [herror e he] at hinput
          exact Bool.noConfusion hinput

/-! ## Two runs in one directory -/

/-- A tree with a header, a document, and an output directory that has an
earlier module and another file in it. -/
def outputTree (document : String) : FileTree :=
  ⟨[(["HEADER"], .file "// {date}".toUTF8), (["api.json"], .file document.toUTF8),
    (["out"], .directory),
    (["out", "google-apps-script.base.d.ts"], .file "stale".toUTF8),
    (["out", "notes.txt"], .file "kept".toUTF8)]⟩

def leapDay : Date :=
  ⟨2024, 2, 29, by decide⟩

def outputRequest : Request where
  input := some "api.json"
  header := "HEADER"
  outDir := "out"
  date := some "2024-02-29"

def outputDocument : String :=
  "\x7b\"categories\": \x7b\"doc\": \x7b\x7d, \"base\": \x7b\"name\": \"Base\"\x7d\x7d\x7d"

/-- What is read of the header and of the document. -/
def outputInputs : Inputs where
  settings := { header := fillDate "// {date}" leapDay }
  description := { categories := ⟨[("base", { name := some "Base" }), ("doc", {})], by decide⟩ }

theorem load_outputRequest_of_openPath {t : FileTree} {document : String}
    (hheader : t.openPath "HEADER" = .ok (.file "// {date}".toUTF8))
    (hinput : t.openPath "api.json" = .ok (.file document.toUTF8)) :
    (outputRequest.load (t.sources .empty leapDay)).run =
      ((Description.ofText document).mapError .description).map
        fun d => { outputInputs with description := d } := by
  have hfilled : ((t.sources .empty leapDay).header "HEADER" (some "2024-02-29")).run =
      .ok outputInputs.settings.header := by
    refine (run_bind_of_ok (FileTree.run_text .empty leapDay hheader) _).trans ?_
    rfl
  have hdescription := FileTree.run_description .empty leapDay hinput
  refine (run_bind_of_ok hfilled _).trans ?_
  refine (run_bind_of_ok (a := Overrides.builtIn) rfl _).trans ?_
  cases hread : Description.ofText document with
  | error e =>
      rw [hread] at hdescription
      exact run_bind_of_error hdescription _
  | ok d =>
      rw [hread] at hdescription
      exact run_bind_of_ok hdescription _

theorem load_outputRequest (document : String) :
    (outputRequest.load ((outputTree document).sources .empty leapDay)).run =
      ((Description.ofText document).mapError .description).map
        fun d => { outputInputs with description := d } :=
  load_outputRequest_of_openPath rfl rfl

theorem run_outputRequest :
    outputRequest.run .empty leapDay (outputTree outputDocument) =
      outputInputs.run "out" (outputTree outputDocument) := by
  have hread : Description.ofText outputDocument = .ok outputInputs.description := by rfl
  unfold Request.run
  rw [load_outputRequest, hread]
  rfl

/-- The one run writes both modules and leaves the other file alone; the other
run, on half a document, leaves everything alone. -/
theorem output_modules_written :
    (∀ e, (outputRequest.run .empty leapDay (outputTree outputDocument)).result = .error e →
      e.isOfInput = false) ∧
    (∃ base doc, emitCategory outputInputs.description outputInputs.settings "base" = some base ∧
      emitCategory outputInputs.description outputInputs.settings "doc" = some doc ∧
      (outputRequest.run .empty leapDay (outputTree outputDocument)).tree.openPath
        "out/google-apps-script.base.d.ts" = .ok (.file base.text.toUTF8) ∧
      (outputRequest.run .empty leapDay (outputTree outputDocument)).tree.openPath
        "out/google-apps-script.doc.d.ts" = .ok (.file doc.text.toUTF8) ∧
      (outputRequest.run .empty leapDay (outputTree outputDocument)).tree.openPath
        "out/notes.txt" = .ok (.file "kept".toUTF8)) ∧
    (outputRequest.run .empty leapDay (outputTree "\x7b")).tree = outputTree "\x7b" := by
  have hresult : (outputRequest.run .empty leapDay (outputTree outputDocument)).result = .ok () := by
    rw [run_outputRequest]
    rfl
  have hinput : ∀ e, (outputRequest.run .empty leapDay (outputTree outputDocument)).result =
      .error e → e.isOfInput = false := by
    rw [hresult]
    exact fun _ h => nomatch h
  refine ⟨hinput, ?_, ?_⟩
  · obtain ⟨i, hload, -, keys, -, hleaves, hok⟩ :=
      (run_writes_first_modules outputRequest .empty leapDay (outputTree outputDocument)).2 hinput
    obtain ⟨-, rfl⟩ := hok.mp hresult
    have hread : Description.ofText outputDocument = .ok outputInputs.description := by rfl
    rw [load_outputRequest, hread] at hload
    obtain rfl := Except.ok.inj hload
    rw [run_outputRequest] at hleaves ⊢
    have hbase : (outputInputs.run "out" (outputTree outputDocument)).tree.Reaches
        (outputInputs.modulePath "out" "base") ["out", "google-apps-script.base.d.ts"] := ⟨rfl, rfl⟩
    have hdoc : (outputInputs.run "out" (outputTree outputDocument)).tree.Reaches
        (outputInputs.modulePath "out" "doc") ["out", "google-apps-script.doc.d.ts"] := ⟨rfl, rfl⟩
    have hnotes : (outputInputs.run "out" (outputTree outputDocument)).tree.Reaches
        "out/notes.txt" ["out", "notes.txt"] := ⟨rfl, rfl⟩
    obtain ⟨base, hmbase, hcontent⟩ := hleaves.content [] "base" ["doc"] _ rfl hbase
      fun later hlater h => by
        obtain rfl := List.mem_singleton.mp hlater
        exact absurd (hdoc.unique h) (by decide)
    obtain ⟨doc, hmdoc, hcontent'⟩ := hleaves.content ["base"] "doc" [] _ rfl hdoc
      fun _ h => absurd h List.not_mem_nil
    refine ⟨base, doc, hmbase, hmdoc, hbase.openPath hcontent, hdoc.openPath hcontent',
      hnotes.openPath ((hleaves.elsewhere _ ?_ _).mpr rfl)⟩
    intro key hkey h
    rcases List.mem_cons.mp hkey with rfl | hkey
    · exact absurd (hbase.unique h) (by decide)
    · obtain rfl := List.mem_singleton.mp hkey
      exact absurd (hdoc.unique h) (by decide)
  · have hread : ∃ e, Description.ofText "\x7b" = .error e := ⟨_, rfl⟩
    obtain ⟨e, hread⟩ := hread
    have hrun : (outputRequest.run .empty leapDay (outputTree "\x7b")).result =
        .error (.description e) := by
      unfold Request.run
      rw [load_outputRequest, hread]
      rfl
    exact (run_writes_first_modules outputRequest .empty leapDay (outputTree "\x7b")).1 _ hrun rfl

end Ambient
