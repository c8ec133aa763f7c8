import Ambient.Proofs.TreeChanges
import Mathlib.Data.List.DropRight
import Mathlib.Data.Prod.Basic

/-!
# Changes that are made again

What has been done to a tree can be done again, now or in any later tree that
keeps what is there, and the second time nothing is new.

- A directory that was created is found to exist, so the tree stays as it is
  (`createDirectories_again`).
- A file that was written is written to the same location (`writeFile_again`).
  When a whole list of files is put into a tree twice, the second round first
  goes back to contents that were overwritten, if two of the files share a
  location, but it ends where it began (`putFiles_putFiles`).

Trees are compared as lists of entries, so this is more than that the same can
be found at every location.
-/

namespace Ambient

/-! ## Entries that are put twice -/

section Entries

variable {l l' : Location} {e e' : Entry} {entries : List (Location × Entry)}

theorem setEntry_setEntry (l : Location) (e e' : Entry) :
    ∀ entries : List (Location × Entry),
      setEntry l e' (setEntry l e entries) = setEntry l e' entries
  | [] => if_pos rfl
  | (k, v) :: rest => by
      by_cases hk : k = l
      · rw [setEntry, if_pos hk, setEntry, if_pos rfl, setEntry, if_pos hk]
      · rw [setEntry, if_neg hk, setEntry, if_neg hk, setEntry, if_neg hk,
          setEntry_setEntry l e e' rest]

theorem setEntry_of_lookup (h : entries.lookup l = some e) : setEntry l e entries = entries := by
  induction entries with
  | nil => exact nomatch h
  | cons first rest ih =>
      obtain ⟨k, v⟩ := first
      rw [lookup_cons_eq_ite] at h
      by_cases hk : k = l
      · rw [if_pos hk.symm] at h
        rw [setEntry, if_pos hk, hk, Option.some.inj h]
      · rw [if_neg (Ne.symm hk)] at h
        rw [setEntry, if_neg hk, ih h]

/-- Entries at two locations can be put in either order.  If one of them is
there already, the new entries also come to stand in the same order. -/
theorem setEntry_comm (hne : l ≠ l') (h : (entries.lookup l).isSome = true) :
    setEntry l' e' (setEntry l e entries) = setEntry l e (setEntry l' e' entries) := by
  induction entries with
  | nil => exact nomatch h
  | cons first rest ih =>
      obtain ⟨k, v⟩ := first
      rw [lookup_cons_eq_ite] at h
      by_cases hk : k = l
      · have hk' : k ≠ l' := fun heq => hne (hk.symm.trans heq)
        rw [setEntry, if_pos hk, setEntry, if_neg hne, setEntry, if_neg hk', setEntry, if_pos hk]
      · rw [if_neg (Ne.symm hk)] at h
        rw [setEntry, if_neg hk]
        by_cases hk' : k = l'
        · rw [setEntry, if_pos hk', setEntry, if_pos hk', setEntry, if_neg hne.symm]
        · rw [setEntry, if_neg hk', setEntry, if_neg hk', setEntry, if_neg hk, ih h]

end Entries

namespace FileTree

variable {t t' u : FileTree}

/-! ## Files that are put twice -/

section Files

variable {l : Location} {content content' : ByteArray} {files : List (Location × ByteArray)}

/-- The tree with some files in it, put there one after the other. -/
def putFiles (t : FileTree) (files : List (Location × ByteArray)) : FileTree :=
  files.foldl (fun t f => t.set f.1 (.file f.2)) t

theorem isSome_lookup_set (h : (t.entries.lookup l).isSome = true) (l' : Location) (e : Entry) :
    ((t.set l' e).entries.lookup l).isSome = true := by
  show ((setEntry l' e t.entries).lookup l).isSome = true
  rw [lookup_setEntry]
  split_ifs
  · rfl
  · exact h

theorem isSome_lookup_putFiles (h : (t.entries.lookup l).isSome = true) :
    ((t.putFiles files).entries.lookup l).isSome = true := by
  induction files generalizing t with
  | nil => exact h
  | cons f files ih => exact ih (isSome_lookup_set h f.1 (.file f.2))

theorem lookup_putFiles_of_notMem (h : l ∉ files.map Prod.fst) :
    (t.putFiles files).entries.lookup l = t.entries.lookup l := by
  induction files generalizing t with
  | nil => rfl
  | cons f files ih =>
      obtain ⟨hne, hfiles⟩ : l ≠ f.1 ∧ l ∉ files.map Prod.fst := by simpa using h
      refine (ih hfiles).trans ?_
      show (setEntry f.1 (.file f.2) t.entries).lookup l = _
      rw [lookup_setEntry, if_neg hne]

theorem set_set (t : FileTree) (l : Location) (e e' : Entry) :
    (t.set l e).set l e' = t.set l e' :=
  congrArg FileTree.mk (setEntry_setEntry l e e' t.entries)

theorem set_comm {l' : Location} (hne : l ≠ l') (hl : (t.entries.lookup l).isSome = true)
    (e e' : Entry) : (t.set l e).set l' e' = (t.set l' e').set l e :=
  congrArg FileTree.mk (setEntry_comm hne hl)

theorem putFiles_set_of_notMem (hl : (t.entries.lookup l).isSome = true)
    (h : l ∉ files.map Prod.fst) :
    (t.set l (.file content)).putFiles files = (t.putFiles files).set l (.file content) := by
  induction files generalizing t with
  | nil => rfl
  | cons f files ih =>
      obtain ⟨hne, hfiles⟩ : l ≠ f.1 ∧ l ∉ files.map Prod.fst := by simpa using h
      calc (t.set l (.file content)).putFiles (f :: files)
          = ((t.set l (.file content)).set f.1 (.file f.2)).putFiles files := rfl
        _ = ((t.set f.1 (.file f.2)).set l (.file content)).putFiles files := by
            rw [set_comm hne hl]
        _ = ((t.set f.1 (.file f.2)).putFiles files).set l (.file content) :=
            ih (isSome_lookup_set hl f.1 _) hfiles

/-- A file makes no difference if another one is put at its location later. -/
theorem putFiles_set_of_mem (hl : (t.entries.lookup l).isSome = true)
    (h : l ∈ files.map Prod.fst) :
    (t.set l (.file content)).putFiles files = t.putFiles files := by
  induction files generalizing t with
  | nil => exact absurd h List.not_mem_nil
  | cons f files ih =>
      show ((t.set l (.file content)).set f.1 (.file f.2)).putFiles files =
        (t.set f.1 (.file f.2)).putFiles files
      by_cases heq : l = f.1
      · rw [heq, set_set]
      · have hfiles : l ∈ files.map Prod.fst := (List.mem_cons.mp h).resolve_left heq
        rw [set_comm heq hl, ih (isSome_lookup_set hl f.1 _) hfiles]

/-- **Files that are put twice** leave the tree that they left the first time. -/
theorem putFiles_putFiles (files : List (Location × ByteArray)) (t : FileTree) :
    (t.putFiles files).putFiles files = t.putFiles files := by
  induction files generalizing t with
  | nil => rfl
  | cons f files ih =>
      obtain ⟨l, content⟩ := f
      have hput : (t.set l (.file content)).entries.lookup l = some (.file content) := by
        show (setEntry l _ t.entries).lookup l = _
        rw [lookup_setEntry, if_pos rfl]
      have hthere : (((t.set l (.file content)).putFiles files).entries.lookup l).isSome = true :=
        isSome_lookup_putFiles (Option.isSome_of_mem hput)
      have hrest := ih (t.set l (.file content))
      show (((t.set l (.file content)).putFiles files).set l (.file content)).putFiles files =
        (t.set l (.file content)).putFiles files
      by_cases h : l ∈ files.map Prod.fst
      · exact (putFiles_set_of_mem hthere h).trans hrest
      · -- Nothing later is put there, so the file is there already.
        rw [putFiles_set_of_notMem hthere h, hrest]
        refine congrArg FileTree.mk (setEntry_of_lookup ?_)
        rw [lookup_putFiles_of_notMem h, hput]

end Files

/-! ## A file that is written again -/

theorem Extends.place {names : List String} {p : Location × String} (h : t.Extends u)
    (hplace : t.place names = .ok p) : u.place names = .ok p := by
  obtain ⟨l, hwalk, hrest⟩ := ok_of_bind_eq_ok hplace
  obtain ⟨_, hdirectory, hpair⟩ := ok_of_bind_eq_ok hrest
  have hdirectory' : u.checkDirectory l = .ok () :=
    checkDirectory_eq_ok.mpr (h.directory l (checkDirectory_eq_ok.mp hdirectory))
  unfold FileTree.place
  rw [h.walk hwalk]
  show (u.checkDirectory l >>= fun _ => _) = _
  rw [hdirectory']
  exact hpair

/-- A path that was written to can be written to in every later tree, unless a
directory is in the way; it leads to the same location. -/
theorem writeFile_again {path : String} {content : ByteArray}
    (h : t.writeFile path content = .ok t') :
    ∃ l, t' = t.set l (.file content) ∧ t.entry? l ≠ some .directory ∧
      ∀ u, t.Extends u → u.entry? l ≠ some .directory →
        u.writeFile path content = .ok (u.set l (.file content)) := by
  obtain ⟨hcheck, l, name, hplace, hname, hlong, hfree, rfl⟩ := writeFile_eq_ok_iff.mp h
  refine ⟨l ++ [name], rfl, hfree, fun u hextends hfree' => writeFile_eq_ok_iff.mpr ?_⟩
  exact ⟨hcheck, l, name, hextends.place hplace, hname, hlong, hfree', rfl⟩

/-! ## Directories that are created again -/

section Directories

variable {names : List String}

theorem isDirectory_iff :
    t.isDirectory names = true ↔ ∃ l, t.walk names = .ok l ∧ t.entry? l = some .directory := by
  unfold isDirectory
  cases hwalk : t.walk names with
  | error e => exact ⟨fun h => (nomatch h), fun ⟨_, h, _⟩ => (nomatch h)⟩
  | ok l =>
      have hok : (t.checkDirectory l).isOk = true ↔ t.entry? l = some .directory := by
        rw [← checkDirectory_eq_ok]
        cases t.checkDirectory l with
        | error e => exact ⟨fun h => (nomatch h), fun h => (nomatch h)⟩
        | ok _ => exact ⟨fun _ => rfl, fun _ => rfl⟩
      exact hok.trans ⟨fun h => ⟨l, rfl, h⟩, fun ⟨_, heq, h⟩ => Except.ok.inj heq ▸ h⟩

theorem Extends.isDirectory (h : t.Extends u) (hnames : t.isDirectory names = true) :
    u.isDirectory names = true := by
  obtain ⟨l, hwalk, hdirectory⟩ := isDirectory_iff.mp hnames
  exact isDirectory_iff.mpr ⟨l, h.walk hwalk, h.directory l hdirectory⟩

theorem entry_of_step_eq_ok {l l' : Location} {name : String} (h : t.step l name = .ok l') :
    t.entry? l = some .directory := by
  obtain ⟨_, hdirectory, -⟩ := ok_of_bind_eq_ok h
  exact checkDirectory_eq_ok.mp hdirectory

theorem isSome_of_step_eq_ok {l l' : Location} {name : String} (h : t.step l name = .ok l')
    (hname : ¬ (name = "" ∨ name = "." ∨ name = "..")) :
    ¬ longestName < name.utf8ByteSize ∧ (t.entry? (l ++ [name])).isSome = true := by
  obtain ⟨_, -, hrest⟩ := ok_of_bind_eq_ok h
  obtain ⟨hempty, hdot, hup⟩ : name ≠ "" ∧ name ≠ "." ∧ name ≠ ".." := by
    simpa only [not_or] using hname
  rw [if_neg (not_or.mpr ⟨hempty, hdot⟩), if_neg hup] at hrest
  split_ifs at hrest with hlong hnone
  exact ⟨hlong, by simpa [Option.isSome_iff_ne_none] using hnone⟩

theorem foldlM_step_replicate {l : Location} (h : t.entry? l = some .directory) (n : Nat) :
    (List.replicate n "").foldlM t.step l = .ok l := by
  have hstay : t.step l "" = .ok l := by
    unfold step
    rw [checkDirectory_eq_ok.mpr h]
    rfl
  induction n with
  | zero => rfl
  | succ n ih =>
      rw [List.replicate_succ, List.foldlM_cons, hstay]
      exact ih

theorem exists_trimSegments_append (names : List String) :
    ∃ n, names = trimSegments names ++ List.replicate n "" := by
  have hcut : trimSegments names ++ names.rtakeWhile (· == "") = names :=
    List.rdropWhile_append_rtakeWhile
  have hempty : names.rtakeWhile (· == "") =
      List.replicate (names.rtakeWhile (· == "")).length "" := by
    refine List.eq_replicate_iff.mpr ⟨rfl, fun name hname => ?_⟩
    exact beq_iff_eq.mp (List.mem_rtakeWhile_imp (p := (· == "")) hname)
  exact ⟨_, by rw [← hempty, hcut]⟩

/-- Empty names at the end say nothing more about a directory. -/
theorem isDirectory_trimSegments (t : FileTree) (names : List String) :
    t.isDirectory (trimSegments names) = true ↔ t.isDirectory names = true := by
  obtain ⟨n, hnames⟩ := exists_trimSegments_append names
  by_cases hne : trimSegments names = []
  · -- Nothing but empty names: the working directory or the root.
    rw [hne] at hnames ⊢
    rw [hnames]
    have hstart : t.isDirectory [] = true := isDirectory_iff.mpr ⟨[], rfl, rfl⟩
    refine iff_of_true hstart ?_
    cases n with
    | zero => exact hstart
    | succ n => exact isDirectory_iff.mpr ⟨["/"], foldlM_step_replicate rfl n, rfl⟩
  · have hwalk : t.walk names =
        t.walk (trimSegments names) >>= fun l => (List.replicate n "").foldlM t.step l := by
      rw [← t.walk_append hne, ← hnames]
    rw [isDirectory_iff, isDirectory_iff, hwalk]
    constructor
    · rintro ⟨l, htrimmed, hdirectory⟩
      rw [htrimmed]
      exact ⟨l, foldlM_step_replicate hdirectory n, hdirectory⟩
    · rintro ⟨l, hwhole, hdirectory⟩
      obtain ⟨m, htrimmed, hrest⟩ := ok_of_bind_eq_ok hwhole
      refine ⟨m, htrimmed, ?_⟩
      cases n with
      | zero => exact Except.ok.inj hrest ▸ hdirectory
      | succ n =>
          rw [List.replicate_succ, List.foldlM_cons] at hrest
          obtain ⟨_, hstep, -⟩ := ok_of_bind_eq_ok hrest
          exact entry_of_step_eq_ok hstep

theorem makeDirectory_of_isDirectory (h : t.isDirectory names = true) :
    t.makeDirectory names = .error .alreadyExists := by
  obtain ⟨l', hwalk, -⟩ := isDirectory_iff.mp ((t.isDirectory_trimSegments names).mpr h)
  have hlast : ∀ hne : trimSegments names ≠ [], (trimSegments names).getLast hne ≠ "" := by
    intro hne heq
    exact List.rdropWhile_last_not (· == "") names hne (beq_iff_eq.mpr heq)
  unfold makeDirectory
  generalize trimSegments names = trimmed at hwalk hlast
  rcases List.eq_nil_or_concat trimmed with rfl | ⟨init, last, rfl⟩
  · rfl
  · have hname : last ≠ "" := by simpa using hlast
    rw [List.concat_eq_append] at hwalk ⊢
    rw [t.walk_concat init hname] at hwalk
    obtain ⟨l, hinit, hstep⟩ := ok_of_bind_eq_ok hwalk
    have hdirectory : t.checkDirectory l = .ok () :=
      checkDirectory_eq_ok.mpr (entry_of_step_eq_ok hstep)
    have hplace : t.place (init ++ [last]) = .ok (l, last) := by
      unfold place
      rw [List.dropLast_concat, hinit, List.getLastD_concat]
      show (t.checkDirectory l >>= fun _ => _) = _
      rw [hdirectory]
      rfl
    rw [hplace]
    show (if last = "" ∨ last = "." ∨ last = ".." then throw .alreadyExists
      else if longestName < last.utf8ByteSize then throw .nameTooLong
      else if (t.entry? (l ++ [last])).isSome then throw .alreadyExists
      else pure (t.set (l ++ [last]) .directory) : Except SystemError FileTree) = _
    by_cases hdots : last = "" ∨ last = "." ∨ last = ".."
    · exact if_pos hdots
    · obtain ⟨hlong, hsome⟩ := isSome_of_step_eq_ok hstep hdots
      rw [if_neg hdots, if_neg hlong]
      exact if_pos hsome

theorem isDirectory_of_makeDirectory (h : t.makeDirectory names = .ok t') :
    t'.isDirectory names = true := by
  obtain ⟨l, name, hplace, hname, hlong, hnone, rfl⟩ := makeDirectory_eq_ok h
  have hfree : t.entry? (l ++ [name]) ≠ some .directory := by
    rw [hnone]
    exact nofun
  have hwalk := walk_of_place (e := .directory) hplace hname hlong hfree
  refine (isDirectory_trimSegments _ _).mp (isDirectory_iff.mpr ⟨l ++ [name], hwalk, ?_⟩)
  exact entry_set_self (isAnchor_eq_false hfree) t .directory

theorem isDirectory_of_kept {e : SystemError}
    (h : (if e = .alreadyExists ∧ t.isDirectory names = true then .ok () else .error e, t) =
      ((.ok () : Except SystemError Unit), t')) : t'.isDirectory names = true := by
  obtain ⟨hresult, rfl⟩ := Prod.mk.inj h
  split_ifs at hresult with hkept
  exact hkept.2

theorem isDirectory_of_ensureDirectory
    (h : (system.ensureDirectory names).run t = (.ok (), t')) : t'.isDirectory names = true := by
  rw [run_ensureDirectory] at h
  split at h
  · rename_i hmake
    exact (Prod.mk.inj h).2 ▸ isDirectory_of_makeDirectory hmake
  · exact isDirectory_of_kept h

theorem isDirectory_of_makeChain {above : List (List String)}
    (h : (system.makeChain (names :: above)).run t = (.ok (), t')) :
    t'.isDirectory names = true := by
  rw [run_makeChain_cons] at h
  split at h
  · rename_i hmake
    exact (Prod.mk.inj h).2 ▸ isDirectory_of_makeDirectory hmake
  · split at h
    · exact nomatch (Prod.mk.inj h).1
    · exact isDirectory_of_ensureDirectory h
  · exact isDirectory_of_kept h

/-- **A directory that was created** is kept as it is in every later tree. -/
theorem createDirectories_again {path : String} (h : t.createDirectories path = (t', .ok ()))
    (hextends : t'.Extends u) : u.createDirectories path = (u, .ok ()) := by
  unfold createDirectories FileSystem.createDirectories at h ⊢
  split_ifs at h ⊢ with hpath
  · rfl
  · split at h
    · exact nomatch (Prod.mk.inj h).2
    · have hmade := Prod.swap_eq_iff_eq_swap.mp h
      have hdirectory := hextends.isDirectory (isDirectory_of_makeChain hmade)
      unfold chain
      rw [run_makeChain_cons, makeDirectory_of_isDirectory hdirectory]
      exact congrArg (u, ·) (if_pos ⟨rfl, hdirectory⟩)

end Directories

end FileTree

end Ambient
