import Ambient.Proofs.Effects
import Ambient.Proofs.FinishedLines
import Ambient.Proofs.RepeatedChanges

/-!
# Where a run writes

A run writes nothing but modules, and the path of a module is the output
directory with the file name of its category behind it.  The key of a category
is part of that file name as it is, and its slashes are slashes of the path.  So
a file that a run created or changed is in the directory to which these slashes
lead from the output directory (`changed_file_placed`).

This is the output directory itself if the key has no slash.  With
`x/../../evil` for a key, and a directory that has the right name, a module is
written beside the output directory (`not_confined_to_outDir`).

The name behind the last slash is never one that stays or goes up, because every
file name ends in `.d.ts`.
-/

namespace Ambient

/-! ## Names between slashes -/

namespace FileTree

variable {t : FileTree} {d l l' : Location} {outDir s s' name path : String}

theorem segments_append_slash (s s' : String) :
    segments (s ++ "/" ++ s') = segments s ++ segments s' := by
  have hlist : (s ++ "/" ++ s').toList = s.toList ++ '/' :: s'.toList := by simp
  rw [segments, hlist, List.splitOn_append_cons_self, List.map_append]
  rfl

theorem segments_of_notMem (h : '/' ∉ s.toList) : segments s = [s] := by
  rw [segments, List.splitOn_eq_singleton h, List.map_singleton, String.ofList_toList]

theorem segments_ne_nil (s : String) : segments s ≠ [] := by
  simp [segments, List.splitOn_ne_nil]

theorem exists_segments_cons {c : Char} {cs : List Char} (h : s.toList = c :: cs) (hc : c ≠ '/') :
    ∃ first rest, segments s = first :: rest ∧ first ≠ "" := by
  obtain ⟨piece, pieces, hpieces⟩ := List.exists_cons_of_ne_nil (List.splitOn_ne_nil '/' cs)
  refine ⟨String.ofList (c :: piece), pieces.map String.ofList, ?_, by simp⟩
  rw [segments, h, List.splitOn_cons_eq_if_modifyHead, if_neg (by simpa using hc), hpieces]
  rfl

theorem exists_eq_append_slash (h : s.toList.getLast? = some '/') : ∃ s', s = s' ++ "/" ++ "" := by
  obtain ⟨cs, hcs⟩ := List.getLast?_eq_some_iff.mp h
  exact ⟨String.ofList cs, by rw [← String.toList_inj, hcs]; simp⟩

/-! ## Where a path leads from a directory -/

/-- The text of a directory leads to a location; the empty one stays. -/
def LeadsTo (t : FileTree) (path : String) (d : Location) : Prop :=
  if path = "" then d = [] else t.walk (segments path) = .ok d

theorem LeadsTo.unique {d' : Location} (h : t.LeadsTo path d) (h' : t.LeadsTo path d') :
    d = d' := by
  unfold LeadsTo at h h'
  split_ifs at h h'
  · rw [h, h']
  · exact Except.ok.inj (h.symm.trans h')

/-- A location is that of an entry of a directory. -/
def IsChildOf (t : FileTree) (path : String) (l : Location) : Prop :=
  ∃ d name, t.LeadsTo path d ∧ l = d ++ [name]

theorem isChildOf_concat (h : t.LeadsTo path d) {m : Location} :
    t.IsChildOf path (m ++ [name]) ↔ m = d := by
  constructor
  · rintro ⟨d', name', hd', heq⟩
    rw [h.unique hd']
    exact (List.append_inj' heq rfl).1
  · rintro rfl
    exact ⟨m, name, h, rfl⟩

theorem exists_leadsTo_of_walk_joinPath {c : Char} {cs : List Char} (hname : name.toList = c :: cs)
    (hc : c ≠ '/') (h : t.walk (segments (joinPath outDir name)) = .ok l) :
    ∃ d, t.LeadsTo outDir d ∧ (segments name).foldlM t.step d = .ok l := by
  obtain ⟨first, rest, hsegments, hfirst⟩ := exists_segments_cons hname hc
  unfold LeadsTo
  unfold joinPath at h
  split_ifs at h ⊢ with hempty hslash
  · rw [hsegments, t.walk_cons hfirst, ← hsegments] at h
    exact ⟨[], rfl, h⟩
  · obtain ⟨o, rfl⟩ := exists_eq_append_slash hslash
    rw [String.append_empty, segments_append_slash, t.walk_append (segments_ne_nil o)] at h
    obtain ⟨d, hd, hrest⟩ := ok_of_bind_eq_ok h
    refine ⟨d, ?_, hrest⟩
    rw [hsegments, List.foldlM_cons] at hrest
    obtain ⟨_, hstep, -⟩ := ok_of_bind_eq_ok hrest
    rw [segments_append_slash, t.walk_append (segments_ne_nil o), hd]
    exact foldlM_step_replicate (entry_of_step_eq_ok hstep) 1
  · rw [segments_append_slash, t.walk_append (segments_ne_nil outDir)] at h
    exact ok_of_bind_eq_ok h

theorem eq_of_step_eq_ok (h : t.step l name = .ok l')
    (hname : ¬ (name = "" ∨ name = "." ∨ name = "..")) : l' = l ++ [name] := by
  obtain ⟨_, -, hrest⟩ := ok_of_bind_eq_ok h
  obtain ⟨hempty, hdot, hup⟩ : name ≠ "" ∧ name ≠ "." ∧ name ≠ ".." := by
    simpa only [not_or] using hname
  rw [if_neg (not_or.mpr ⟨hempty, hdot⟩), if_neg hup] at hrest
  split_ifs at hrest
  exact (Except.ok.inj hrest).symm

/-- A location holds a file that was created or got another content. -/
def Changed (t t' : FileTree) (l : Location) : Prop :=
  ∃ content, t'.entry? l = some (.file content) ∧ t.entry? l ≠ some (.file content)

end FileTree

/-! ## The location of a module -/

/-- The location of the module of a category, seen from the output directory:
an entry of it if the key has no slash, and otherwise an entry of the directory
to which the text before the last slash leads. -/
inductive Placed (t : FileTree) (s : Settings) (d : Location) : String → Location → Prop
  | direct {key : String} : '/' ∉ key.toList → Placed t s d key (d ++ [s.fileName key])
  | behind {above name : String} {m : Location} : '/' ∉ name.toList →
      (FileTree.segments (s.filePrefix ++ "." ++ above)).foldlM t.step d = .ok m →
      Placed t s d (above ++ "/" ++ name) (m ++ [name ++ ".d.ts"])

theorem isProper_append_dts (s : String) :
    ¬ (s ++ ".d.ts" = "" ∨ s ++ ".d.ts" = "." ∨ s ++ ".d.ts" = "..") := by
  rintro (h | h | h) <;> simpa using congrArg (List.length ∘ String.toList) h

section Placing

variable {t : FileTree} {s : Settings} {d l : Location} {key : String}

theorem placed_of_foldlM_step (hbegins : '/' ∉ s.filePrefix.toList)
    (h : (FileTree.segments (s.fileName key)).foldlM t.step d = .ok l) : Placed t s d key l := by
  -- The text behind the last slash goes on with `.d.ts` and is the last name.
  obtain ⟨last, hlast, hkey | ⟨above, hkey⟩⟩ := Text.exists_last_piece '/' key.toList
  · have hslash : '/' ∉ key.toList := hkey ▸ hlast
    have hname : '/' ∉ (s.fileName key).toList := by
      simp [Settings.fileName, hbegins, hslash]
    rw [FileTree.segments_of_notMem hname, List.foldlM_cons] at h
    obtain ⟨l', hstep, hl⟩ := ok_of_bind_eq_ok h
    obtain rfl := Except.ok.inj hl
    rw [FileTree.eq_of_step_eq_ok hstep (isProper_append_dts _)]
    exact .direct hslash
  · obtain rfl : key = String.ofList above ++ "/" ++ String.ofList last := by
      rw [← String.toList_inj, hkey]
      simp
    have hfile : s.fileName (String.ofList above ++ "/" ++ String.ofList last) =
        s.filePrefix ++ "." ++ String.ofList above ++ "/" ++ (String.ofList last ++ ".d.ts") := by
      simp [Settings.fileName, String.append_assoc]
    have hname : '/' ∉ (String.ofList last ++ ".d.ts").toList := by
      simp [hlast]
    rw [hfile, FileTree.segments_append_slash, FileTree.segments_of_notMem hname,
      List.foldlM_append] at h
    obtain ⟨m, hm, hrest⟩ := ok_of_bind_eq_ok h
    rw [List.foldlM_cons] at hrest
    obtain ⟨l', hstep, hl⟩ := ok_of_bind_eq_ok hrest
    obtain rfl := Except.ok.inj hl
    rw [FileTree.eq_of_step_eq_ok hstep (isProper_append_dts _)]
    exact .behind (by simpa using hlast) hm

end Placing

theorem filePrefix_of_run_load_eq_ok {r : Request} {src : Sources Id} {i : Inputs}
    (h : (r.load src).run = .ok i) : i.settings.filePrefix = "google-apps-script" := by
  obtain ⟨header, -, h⟩ := exists_of_run_bind_eq_ok h
  obtain ⟨overrides, -, h⟩ := exists_of_run_bind_eq_ok h
  obtain ⟨description, -, h⟩ := exists_of_run_bind_eq_ok h
  obtain rfl := Except.ok.inj h
  rfl

/-! ## The files of a run -/

/-- What is not as it was is a module, in a run that has read all inputs. -/
theorem exists_of_changed {r : Request} {stdin : ByteArray} {today : Date} {t : FileTree}
    {l : Location} (h : t.Changed (r.run stdin today t).tree l) :
    ∃ i, (r.load (t.sources stdin today)).run = .ok i ∧ ∃ key ∈ i.description.categories.keys,
      (r.run stdin today t).tree.Reaches (i.modulePath r.outDir key) l := by
  obtain ⟨content, hnew, hold⟩ := h
  cases hload : (r.load (t.sources stdin today)).run with
  | error e =>
      rw [Request.run_of_load_eq_error hload] at hnew
      exact absurd hnew hold
  | ok i =>
      rw [Request.run_of_load_eq_ok hload] at hnew ⊢
      refine ⟨i, rfl, ?_⟩
      cases hcheck : i.settings.check with
      | error e =>
          rw [Inputs.run_of_check_eq_error hcheck] at hnew
          exact absurd hnew hold
      | ok _ =>
          obtain ⟨keys, hkeys, hleaves, -, -⟩ := i.exists_leaves_run r.outDir t hcheck
          by_contra hnone
          refine hold ((hleaves.elsewhere l (fun key hkey hreaches => hnone ?_) content).mp hnew)
          exact ⟨key, hkeys.subset hkey, hreaches⟩

/-- **Where a run writes.**  A file that a run created or changed is the module
of a category, and it stands where the slashes in the key of the category lead
from the output directory; it is an entry of the output directory exactly if
they lead back to it, and in any case if there is none. -/
theorem changed_file_placed (r : Request) (stdin : ByteArray) (today : Date) (t : FileTree)
    (l : Location) (h : t.Changed (r.run stdin today t).tree l) :
    ∃ i, (r.load (t.sources stdin today)).run = .ok i ∧ ∃ key ∈ i.description.categories.keys,
      ∃ d, (r.run stdin today t).tree.LeadsTo r.outDir d ∧
        Placed (r.run stdin today t).tree i.settings d key l ∧
        ((r.run stdin today t).tree.IsChildOf r.outDir l ↔ l.dropLast = d) ∧
        ('/' ∉ key.toList → (r.run stdin today t).tree.IsChildOf r.outDir l) := by
  obtain ⟨i, hload, key, hkey, hreaches⟩ := exists_of_changed h
  have hbegins := filePrefix_of_run_load_eq_ok hload
  have hname : (i.settings.fileName key).toList =
      'g' :: ("oogle-apps-script." ++ key ++ ".d.ts").toList := by
    simp [Settings.fileName, hbegins]
  obtain ⟨d, hd, hwalk⟩ :=
    FileTree.exists_leadsTo_of_walk_joinPath hname (by decide) hreaches.2
  have hplaced : Placed _ i.settings d key l :=
    placed_of_foldlM_step (by rw [hbegins]; decide) hwalk
  refine ⟨i, hload, key, hkey, d, hd, hplaced, ?_, ?_⟩
  · cases hplaced with
    | direct _ => rw [FileTree.isChildOf_concat hd, List.dropLast_concat]
    | behind _ _ => rw [FileTree.isChildOf_concat hd, List.dropLast_concat]
  · intro hslash
    cases hplaced with
    | direct _ => exact (FileTree.isChildOf_concat hd).mpr rfl
    | behind _ _ => exact absurd (by simp) hslash

/-! ## A key that leads out -/

/-- A tree with the inputs, an output directory, and in it a directory with the
name at which the key of the category `x/../../evil` starts. -/
def escapeTree : FileTree :=
  ⟨[(["HEADER"], .file "// {date}".toUTF8),
    (["api.json"], .file "\x7b\"categories\": \x7b\"x/../../evil\": \x7b\x7d\x7d\x7d".toUTF8),
    (["out"], .directory), (["out", "google-apps-script.x"], .directory)]⟩

def escapeInputs : Inputs :=
  { outputInputs with description := { categories := ⟨[("x/../../evil", {})], by decide⟩ } }

theorem load_escapeTree :
    (outputRequest.load (escapeTree.sources .empty leapDay)).run = .ok escapeInputs := by
  refine (load_outputRequest_of_openPath rfl rfl).trans ?_
  rfl

def escapeModule : ModuleFile :=
  Scope.moduleFile ⟨escapeInputs.description, escapeInputs.settings, "x/../../evil"⟩ {}

theorem tree_run_escapeTree :
    (outputRequest.run .empty leapDay escapeTree).tree =
      escapeTree.set ["evil.d.ts"] (.file escapeModule.text.toUTF8) := by
  have hcheck : escapeInputs.settings.check = .ok () := by rfl
  have hcreate : escapeTree.createDirectories "out" = (escapeTree, .ok ()) := by rfl
  have hmodules : emitAll escapeInputs.description escapeInputs.settings = [escapeModule] := by rfl
  have hwrite : escapeTree.writeFile (joinPath "out" escapeModule.fileName)
      escapeModule.text.toUTF8 = .ok (escapeTree.set ["evil.d.ts"]
        (.file escapeModule.text.toUTF8)) := by
    rfl
  have hwritten := writeModules_of_written [] hwrite
  have hrun := Inputs.run_of_directory_created hcheck hcreate
  rw [Request.run_of_load_eq_ok load_escapeTree]
  show (escapeInputs.run "out" escapeTree).tree = _
  rw [hrun, hmodules, hwritten]
  rfl

theorem changed_escapeTree :
    escapeTree.Changed (outputRequest.run .empty leapDay escapeTree).tree ["evil.d.ts"] := by
  rw [tree_run_escapeTree]
  exact ⟨_, rfl, nofun⟩

theorem leadsTo_escapeTree :
    (outputRequest.run .empty leapDay escapeTree).tree.LeadsTo "out" ["out"] := by
  rw [tree_run_escapeTree]
  rfl

/-- The slashes of the key lead from the output directory to the directory
above it. -/
theorem changed_file_placed_beside :
    escapeTree.Changed (outputRequest.run .empty leapDay escapeTree).tree ["evil.d.ts"] ∧
      Placed (outputRequest.run .empty leapDay escapeTree).tree escapeInputs.settings ["out"]
        "x/../../evil" ["evil.d.ts"] ∧
      ¬ (outputRequest.run .empty leapDay escapeTree).tree.IsChildOf "out" ["evil.d.ts"] := by
  obtain ⟨i, hload, key, hkey, d, hd, hplaced, hchild, -⟩ :=
    changed_file_placed outputRequest .empty leapDay escapeTree _ changed_escapeTree
  rw [load_escapeTree] at hload
  obtain rfl := Except.ok.inj hload
  obtain rfl := List.mem_singleton.mp hkey
  obtain rfl := leadsTo_escapeTree.unique hd
  exact ⟨changed_escapeTree, hplaced, fun h => nomatch hchild.mp h⟩

/-- A run is not confined to its output directory. -/
theorem not_confined_to_outDir :
    ¬ ∀ (r : Request) (stdin : ByteArray) (today : Date) (t : FileTree) (l : Location),
      t.Changed (r.run stdin today t).tree l →
        (r.run stdin today t).tree.IsChildOf r.outDir l := by
  intro h
  have hchild := h outputRequest .empty leapDay escapeTree _ changed_escapeTree
  exact nomatch (FileTree.isChildOf_concat (m := []) leadsTo_escapeTree).mp hchild

end Ambient
