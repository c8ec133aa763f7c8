import Ambient.Proofs.Effects
import Ambient.Proofs.RepeatedChanges

/-!
# A run that is made again

A run whose date is given depends on nothing but its inputs.  If no module is
written where an input stands, the run can be made again in the tree that it
left, with the same result, the same events and the same tree (`run_again`).

- The inputs are the same: their paths lead where they led, and what stands
  there is no module (`load_again`).
- The output directory exists now, and the modules are written where they were.
  All of them together leave the tree that they left the first time, also if
  several of their paths lead to one location (`Inputs.Writes.again`).
-/

namespace Ambient

/-! ## The inputs -/

/-- The paths of the files that a request reads. -/
def Request.inputPaths (r : Request) : List String :=
  r.header :: (r.overrides.toList ++ r.input.toList)

section Sources

variable {s s' : Sources Id} {path : String}

theorem Sources.text_congr (h : s.file path = s'.file path) : s.text path = s'.text path := by
  unfold Sources.text
  rw [h]

theorem load_congr {r : Request} (hdate : r.date.isSome = true)
    (hstdin : s.standardInput = s'.standardInput)
    (hfiles : ∀ path ∈ r.inputPaths, s.file path = s'.file path) : r.load s = r.load s' := by
  obtain ⟨input, header, outDir, overrides, date⟩ := r
  obtain ⟨text, rfl⟩ := Option.isSome_iff_exists.mp hdate
  have hheader : s.header header (some text) = s'.header header (some text) := by
    unfold Sources.header
    rw [Sources.text_congr (hfiles header List.mem_cons_self)]
  have hoverrides : s.overrides overrides = s'.overrides overrides := by
    cases overrides with
    | none => rfl
    | some path =>
        unfold Sources.overrides
        dsimp only
        rw [Sources.text_congr (hfiles path (by simp [Request.inputPaths]))]
  have hdescription : s.description input = s'.description input := by
    cases input with
    | none =>
        unfold Sources.description
        rw [hstdin]
    | some path =>
        unfold Sources.description
        dsimp only
        rw [hfiles path (by simp [Request.inputPaths])]
  unfold Request.load
  rw [hheader, hoverrides, hdescription]

theorem exists_of_run_file_eq_ok {β : Type} {next : Except SystemError Content → ExceptT Failure Id β}
    {b : β} (h : ((liftM (s.file path) : ExceptT Failure Id _) >>= next).run = .ok b)
    (hrefused : ∀ e, (next (.error e)).run ≠ .ok b) :
    ∃ content, s.file path = .ok content := by
  obtain ⟨opened, hopened, hrest⟩ := exists_of_run_bind_eq_ok h
  obtain rfl : s.file path = opened := Except.ok.inj hopened
  cases hfile : s.file path with
  | error e =>
      rw [hfile] at hrest
      exact absurd hrest (hrefused e)
  | ok content => exact ⟨content, rfl⟩

theorem exists_of_run_text_eq_ok {text : String} (h : (s.text path).run = .ok text) :
    ∃ content, s.file path = .ok content :=
  exists_of_run_file_eq_ok h fun _ => nofun

theorem exists_of_run_load_eq_ok {r : Request} {i : Inputs} (h : (r.load s).run = .ok i) :
    ∀ path ∈ r.inputPaths, ∃ content, s.file path = .ok content := by
  obtain ⟨header, hheader, h⟩ := exists_of_run_bind_eq_ok h
  obtain ⟨overrides, hoverrides, h⟩ := exists_of_run_bind_eq_ok h
  obtain ⟨description, hdescription, -⟩ := exists_of_run_bind_eq_ok h
  intro path hpath
  rcases List.mem_cons.mp hpath with rfl | hpath
  · obtain ⟨text, htext, -⟩ := exists_of_run_bind_eq_ok hheader
    exact exists_of_run_text_eq_ok htext
  rcases List.mem_append.mp hpath with hpath | hpath
  · rw [Option.mem_toList.mp hpath] at hoverrides
    obtain ⟨text, htext, -⟩ := exists_of_run_bind_eq_ok hoverrides
    exact exists_of_run_text_eq_ok htext
  · rw [Option.mem_toList.mp hpath] at hdescription
    exact exists_of_run_file_eq_ok hdescription fun _ => nofun

/-- A request reads the same in every tree in which its files are the same. -/
theorem load_again {r : Request} {i : Inputs} {t u : FileTree} {stdin : ByteArray}
    {today today' : Date} (hdate : r.date.isSome = true)
    (hload : (r.load (t.sources stdin today)).run = .ok i)
    (hopen : ∀ path ∈ r.inputPaths, ∀ e, t.openPath path = .ok e → u.openPath path = .ok e) :
    (r.load (u.sources stdin today')).run = .ok i := by
  have hfiles : ∀ path ∈ r.inputPaths,
      (u.sources stdin today').file path = (t.sources stdin today).file path := by
    intro path hpath
    obtain ⟨content, hcontent⟩ := exists_of_run_load_eq_ok hload path hpath
    replace hcontent : (t.openPath path).map Entry.bytes = .ok content := hcontent
    show (u.openPath path).map Entry.bytes = (t.openPath path).map Entry.bytes
    cases he : t.openPath path with
    | error e =>
        rw [he] at hcontent
        exact nomatch hcontent
    | ok e => rw [hopen path hpath e he]
  have hsame : r.load (u.sources stdin today') = r.load (t.sources stdin today) :=
    load_congr hdate rfl hfiles
  rw [hsame, hload]

end Sources

namespace Inputs

variable {i : Inputs} {outDir : String} {keys : List String} {t t' t'' : FileTree}

/-- In a tree, the path of no module leads where that of an input leads. -/
def ApartIn (i : Inputs) (r : Request) (t : FileTree) : Prop :=
  ∀ key ∈ i.description.categories.keys, ∀ path ∈ r.inputPaths, ∀ l,
    t.Reaches path l → ¬ t.Reaches (i.modulePath r.outDir key) l

/-- What stood at a path is still there, unless a module was written to it. -/
theorem Leaves.openPath {path : String} {e : Entry} (h : i.Leaves outDir keys t t')
    (hextends : t.Extends t') (hopen : t.openPath path = .ok e)
    (hapart : ∀ key ∈ keys, ∀ l, t'.Reaches path l → ¬ t'.Reaches (i.modulePath outDir key) l) :
    t'.openPath path = .ok e := by
  obtain ⟨l, hreaches, hentry⟩ := FileTree.exists_reaches_of_openPath hopen
  have hreaches' := hextends.reaches hreaches
  refine hreaches'.openPath ?_
  cases e with
  | directory => exact hextends.directory l hentry
  | file content => exact (h.elsewhere l (fun key hkey => hapart key hkey l hreaches') _).mpr hentry

/-! ## The modules -/

theorem Writes.entry_ne_directory {l : Location} (h : i.Writes outDir t keys t')
    (hfree : t.entry? l ≠ some .directory) : t'.entry? l ≠ some .directory := by
  induction h with
  | nil => exact hfree
  | cons _ hwrite _ ih =>
      obtain ⟨l', rfl, -, -⟩ := FileTree.writeFile_eq_ok hwrite
      exact ih (FileTree.entry_set_file_ne_directory hfree l' _)

/-- Writing modules is putting files into the tree, and later trees get the same
files. -/
theorem Writes.exists_putFiles (h : i.Writes outDir t keys t') :
    ∃ files : List (Location × ByteArray), t' = t.putFiles files ∧
      (∀ l ∈ files.map Prod.fst, t'.entry? l ≠ some .directory) ∧
      ∀ u, t'.Extends u → (∀ l ∈ files.map Prod.fst, u.entry? l ≠ some .directory) →
        i.Writes outDir u keys (u.putFiles files) := by
  induction h with
  | nil t => exact ⟨[], rfl, fun _ h => absurd h List.not_mem_nil, fun u _ _ => .nil u⟩
  | @cons t t' t'' key keys m hm hwrite hrest ih =>
      obtain ⟨files, hput, hfree, hagain⟩ := ih
      obtain ⟨l, rfl, hl, hlater⟩ := FileTree.writeFile_again hwrite
      refine ⟨(l, m.text.toUTF8) :: files, hput, ?_, ?_⟩
      · intro l' hl'
        rcases List.mem_cons.mp hl' with rfl | hl'
        · exact hrest.entry_ne_directory (FileTree.entry_set_file_ne_directory hl _ _)
        · exact hfree l' hl'
      · intro u hextends hfree'
        have hu : u.entry? l ≠ some .directory := hfree' l List.mem_cons_self
        have hold : t.Extends u := ((FileTree.Extends.set hl _).trans hrest.extends).trans hextends
        refine .cons hm (hlater u hold hu) (hagain _ (hextends.trans (.set hu _)) ?_)
        intro l' hl'
        exact FileTree.entry_set_file_ne_directory (hfree' l' (List.mem_cons_of_mem _ hl')) l _

/-- **Modules that are written again** leave the tree as it is. -/
theorem Writes.again (h : i.Writes outDir t keys t') : i.Writes outDir t' keys t' := by
  obtain ⟨files, hput, hfree, hagain⟩ := h.exists_putFiles
  have htwice : t'.putFiles files = t' := by
    rw [hput]
    exact FileTree.putFiles_putFiles files t
  have hwrites := hagain t' (.refl t') hfree
  rwa [htwice] at hwrites

/-! ## The run -/

theorem Writes.writing_eq (h : i.Writes outDir t keys t') :
    i.writing outDir t keys =
      ⟨t', keys.map fun key => writtenEvent (i.modulePath outDir key), .ok ()⟩ := by
  induction h with
  | nil t => rfl
  | cons hm hwrite _ ih => rw [writing_of_written hm hwrite, ih, List.map_cons]

theorem exists_writes_of_run_eq_ok (h : (i.run outDir t).result = .ok ()) :
    i.settings.check = .ok () ∧ ∃ t', t.createDirectories outDir = (t', .ok ()) ∧
      i.Writes outDir t' i.description.categories.keys (i.run outDir t).tree := by
  cases hcheck : i.settings.check with
  | error e =>
      rw [run_of_check_eq_error hcheck] at h
      exact nomatch h
  | ok _ =>
      refine ⟨rfl, ?_⟩
      cases hcreate : t.createDirectories outDir with
      | mk t' created =>
          cases created with
          | error e =>
              rw [run_of_directory_refused hcheck hcreate] at h
              exact nomatch h
          | ok _ =>
              rw [run_of_directory_created hcheck hcreate] at h ⊢
              obtain ⟨written, -, hwrites, hresult, -⟩ :=
                i.exists_writes outDir i.description.categories.keys t' fun key hkey =>
                  exists_emitCategory i.settings hkey
              obtain rfl := hresult.mp h
              exact ⟨t', rfl, hwrites⟩

theorem run_of_writes (hcheck : i.settings.check = .ok ())
    (hcreate : t.createDirectories outDir = (t', .ok ()))
    (hwrites : i.Writes outDir t' i.description.categories.keys t'') :
    i.run outDir t =
      ⟨t'', loadedEvent i.description ::
          (emitAll i.description i.settings).flatMap (moduleEvents i.description) ++
        i.description.categories.keys.map fun key => writtenEvent (i.modulePath outDir key),
        .ok ()⟩ := by
  have hwriting : writeModules outDir t' (emitAll i.description i.settings) = _ := hwrites.writing_eq
  rw [run_of_directory_created hcheck hcreate, hwriting]

end Inputs

/-- **A run that succeeded can be made again** in the tree that it left, on any
day, if its date is given and no module was written where an input stands.  It
succeeds again, and the tree stays as it is, entry by entry. -/
theorem run_again (r : Request) (stdin : ByteArray) (today today' : Date) (t : FileTree)
    (hdate : r.date.isSome = true) (hresult : (r.run stdin today t).result = .ok ())
    (hapart : ∀ i, (r.load (t.sources stdin today)).run = .ok i →
      i.ApartIn r (r.run stdin today t).tree) :
    r.run stdin today' (r.run stdin today t).tree = r.run stdin today t := by
  cases hload : (r.load (t.sources stdin today)).run with
  | error e =>
      unfold Request.run at hresult
      rw [hload] at hresult
      exact nomatch hresult
  | ok i =>
      have hrun : r.run stdin today t = i.run r.outDir t := by
        unfold Request.run
        rw [hload]
      replace hapart := hapart i hload
      rw [hrun] at hresult hapart ⊢
      obtain ⟨hcheck, t', hcreate, hwrites⟩ := Inputs.exists_writes_of_run_eq_ok hresult
      have hgrows : t.GrowsDirectories t' := by
        have hcreated := t.createDirectories_growsDirectories r.outDir
        rwa [hcreate] at hcreated
      have hextends : t.Extends (i.run r.outDir t).tree := hgrows.extends.trans hwrites.extends
      have hleaves := hwrites.leaves.of_growsDirectories hgrows
      have hload' : (r.load ((i.run r.outDir t).tree.sources stdin today')).run = .ok i :=
        load_again hdate hload fun path hpath e hopen =>
          hleaves.openPath hextends hopen fun key hkey l => hapart key hkey path hpath l
      have hcreate' := FileTree.createDirectories_again hcreate hwrites.extends
      have hfirst := Inputs.run_of_writes hcheck hcreate hwrites
      have hsecond := Inputs.run_of_writes hcheck hcreate' hwrites.again
      unfold Request.run
      rw [hload']
      exact hsecond.trans hfirst.symm

/-- The run that writes two modules beside its inputs can be made again on
another day. -/
theorem output_run_again :
    outputRequest.date.isSome = true ∧
      (outputRequest.run .empty leapDay (outputTree outputDocument)).result = .ok () ∧
      outputRequest.run .empty ⟨2025, 1, 1, by decide⟩
          (outputRequest.run .empty leapDay (outputTree outputDocument)).tree =
        outputRequest.run .empty leapDay (outputTree outputDocument) := by
  have hresult : (outputRequest.run .empty leapDay (outputTree outputDocument)).result = .ok () := by
    rw [run_outputRequest]
    rfl
  refine ⟨rfl, hresult, run_again outputRequest .empty leapDay _ _ rfl hresult ?_⟩
  intro i hload
  have hread : Description.ofText outputDocument = .ok outputInputs.description := by rfl
  rw [load_outputRequest, hread] at hload
  obtain rfl := Except.ok.inj hload
  rw [run_outputRequest]
  have hmodules : ∀ key ∈ ["base", "doc"],
      (outputInputs.run "out" (outputTree outputDocument)).tree.Reaches
        (outputInputs.modulePath "out" key) ["out", outputInputs.settings.fileName key] := by
    intro key hkey
    rcases List.mem_cons.mp hkey with rfl | hkey
    · exact ⟨rfl, rfl⟩
    · obtain rfl := List.mem_singleton.mp hkey
      exact ⟨rfl, rfl⟩
  have hinputs : ∀ path ∈ ["HEADER", "api.json"],
      (outputInputs.run "out" (outputTree outputDocument)).tree.Reaches path [path] := by
    intro path hpath
    rcases List.mem_cons.mp hpath with rfl | hpath
    · exact ⟨rfl, rfl⟩
    · obtain rfl := List.mem_singleton.mp hpath
      exact ⟨rfl, rfl⟩
  intro key hkey path hpath l hl hl'
  have hlocation := ((hinputs path hpath).unique hl).trans (hl'.unique (hmodules key hkey))
  exact nomatch (List.cons_eq_cons.mp hlocation).2

end Ambient
