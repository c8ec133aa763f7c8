import Ambient.CommandLine
import Mathlib.Data.List.Basic
import Mathlib.Data.List.Nodup

/-!
# Command lines that are read back

Options can be written as a command line in many ways.  `Names` lists the
arguments that name a flag, and `Spells` the arguments that spell one thing that
is given: a value stands behind `=` in the argument of its setting, or in an
argument of its own if it does not look like an option, and a switch stands
alone.  The things that are given come in any order (`Options.GivenBy`), and
what is not given, or has its default, may be left out.

Reading finds the options again (`ofArguments_of_writtenAs`).  A value that
stands in an argument of its own is settled late, when the next flag or the end
is reached, so what is read so far is compared after it has been settled
(`Progress.Stands`).  One spelling keeps this, whatever stood before it, and a
command line is one spelling behind the other.
-/

namespace Ambient

/-! ## Spellings -/

def Flag.longName : Flag → String
  | .setting .input => "input"
  | .setting .header => "header"
  | .setting .outDir => "out-dir"
  | .setting .overrides => "overrides"
  | .setting .date => "date"
  | .switch .printOverrides => "print-overrides"
  | .switch .verbose => "verbose"
  | .help => "help"

def Flag.letter? : Flag → Option Char
  | .setting .input => some 'i'
  | .setting .outDir => some 'o'
  | .switch .verbose => some 'v'
  | .help => some 'h'
  | _ => none

def Flag.longArgument (f : Flag) : String :=
  "--" ++ f.longName

/-- The arguments that name a flag. -/
inductive Names : Flag → String → Prop
  | long (f : Flag) : Names f f.longArgument
  | short {f : Flag} {letter : Char} : f.letter? = some letter →
      Names f (String.ofList ['-', letter])

/-- What a command line can give: a value for a setting, or a switch. -/
inductive Given where
  | value (s : Setting) (text : String)
  | on (s : Switch)
deriving DecidableEq

def Given.flag : Given → Flag
  | .value s _ => .setting s
  | .on s => .switch s

def LooksLikeOption (text : String) : Prop :=
  text.toList.head? = some '-'

instance (text : String) : Decidable (LooksLikeOption text) :=
  inferInstanceAs (Decidable (text.toList.head? = some '-'))

/-- The arguments that spell what is given. -/
inductive Spells : Given → List String → Prop
  | attached (s : Setting) (text : String) :
      Spells (.value s text) [(Flag.setting s).longArgument ++ "=" ++ text]
  | apart {s : Setting} {arg text : String} : Names (.setting s) arg → ¬ LooksLikeOption text →
      Spells (.value s text) [arg, text]
  | switch {s : Switch} {arg : String} : Names (.switch s) arg → Spells (.on s) [arg]

namespace Options

def value? (o : Options) : Setting → Option String
  | .input => o.input
  | .header => some o.header
  | .outDir => some o.outDir
  | .overrides => o.overrides
  | .date => o.date

def isOn (o : Options) : Switch → Bool
  | .printOverrides => o.printOverrides
  | .verbose => o.verbose

/-- Options are given by a list: no flag is given twice, a given value is that
of the options, a setting that is not given has its default, and the switches
that are given are those that are on. -/
structure GivenBy (o : Options) (gs : List Given) : Prop where
  once : (gs.map Given.flag).Nodup
  value : ∀ s text, .value s text ∈ gs → o.value? s = some text
  left : ∀ s, (∀ text, .value s text ∉ gs) → o.value? s = ({} : Options).value? s
  switch : ∀ s, .on s ∈ gs ↔ o.isOn s = true

/-- A command line writes options: it spells, in some order, what gives them. -/
def WrittenAs (o : Options) (args : List String) : Prop :=
  ∃ gs pieces, o.GivenBy gs ∧ List.Forall₂ Spells gs pieces ∧ args = pieces.flatten

theorem eq_of_values {o o' : Options} (hvalue : ∀ s, o.value? s = o'.value? s)
    (hswitch : ∀ s, o.isOn s = o'.isOn s) : o = o' := by
  obtain ⟨input, header, outDir, overrides, date, printOverrides, verbose⟩ := o
  obtain ⟨input', header', outDir', overrides', date', printOverrides', verbose'⟩ := o'
  obtain rfl : input = input' := hvalue .input
  obtain rfl : header = header' := Option.some.inj (hvalue .header)
  obtain rfl : outDir = outDir' := Option.some.inj (hvalue .outDir)
  obtain rfl : overrides = overrides' := hvalue .overrides
  obtain rfl : date = date' := hvalue .date
  obtain rfl : printOverrides = printOverrides' := hswitch .printOverrides
  obtain rfl : verbose = verbose' := hswitch .verbose
  rfl

theorem GivenBy.reverse {o : Options} {gs : List Given} (h : o.GivenBy gs) :
    o.GivenBy gs.reverse where
  once := by
    rw [List.map_reverse, List.nodup_reverse]
    exact h.once
  value s text hmem := h.value s text (List.mem_reverse.mp hmem)
  left s hnone := h.left s fun text hmem => hnone text (List.mem_reverse.mpr hmem)
  switch s := List.mem_reverse.trans (h.switch s)

end Options

/-! ## The names of flags -/

namespace Flag

theorem ofLong?_longName (f : Flag) : Flag.ofLong? f.longName = some f := by
  cases f with
  | setting s => cases s <;> decide
  | switch s => cases s <;> decide
  | help => decide

theorem longName_ne_empty (f : Flag) : f.longName ≠ "" := by
  cases f with
  | setting s => cases s <;> decide
  | switch s => cases s <;> decide
  | help => decide

theorem equals_not_mem_longName (f : Flag) : '=' ∉ f.longName.toList := by
  cases f with
  | setting s => cases s <;> decide
  | switch s => cases s <;> decide
  | help => decide

theorem ofShort?_letter {f : Flag} {letter : Char} (h : f.letter? = some letter) :
    Flag.ofShort? letter = some f := by
  cases f with
  | setting s =>
      cases s with
      | input => exact Option.some.inj h ▸ rfl
      | outDir => exact Option.some.inj h ▸ rfl
      | header => exact nomatch h
      | overrides => exact nomatch h
      | date => exact nomatch h
  | switch s =>
      cases s with
      | verbose => exact Option.some.inj h ▸ rfl
      | printOverrides => exact nomatch h
  | help => exact Option.some.inj h ▸ rfl

theorem letter_ne_dash {f : Flag} {letter : Char} (h : f.letter? = some letter) :
    letter ≠ '-' := by
  have hnone : Flag.ofShort? '-' = none := by decide
  rintro rfl
  exact nomatch hnone.symm.trans (ofShort?_letter h)

theorem toList_longArgument (f : Flag) :
    f.longArgument.toList = '-' :: '-' :: f.longName.toList := by
  rw [longArgument, String.toList_append]
  rfl

end Flag

/-! ## The shape of a spelling -/

theorem ofText_of_dashes {arg name : String} {rest : List Char}
    (harg : arg.toList = '-' :: '-' :: (name.toList ++ rest)) (hne : name ≠ "")
    (hname : '=' ∉ name.toList) (hrest : rest.takeWhile (· != '=') = []) :
    Argument.ofText arg =
      .long name ((rest.dropWhile (· != '=')).tail?.map String.ofList) := by
  have hbefore : ∀ c ∈ name.toList, (c != '=') = true := by
    intro c hc
    rw [bne_iff_ne]
    rintro rfl
    exact hname hc
  have hstart : (name.toList ++ rest).takeWhile (· != '=') = name.toList := by
    rw [List.takeWhile_append_of_pos hbefore, hrest, List.append_nil]
  have hend : (name.toList ++ rest).dropWhile (· != '=') = rest.dropWhile (· != '=') :=
    List.dropWhile_append_of_pos hbefore
  obtain ⟨c, tail, hcons⟩ : ∃ c tail, name.toList ++ rest = c :: tail := by
    refine List.exists_cons_of_ne_nil fun hnil => hne ?_
    exact String.toList_eq_nil_iff.mp (List.append_eq_nil_iff.mp hnil).1
  rw [hcons] at harg hstart hend
  rw [Argument.ofText, harg]
  show Argument.long (String.ofList ((c :: tail).takeWhile (· != '='))) _ = _
  rw [hstart, hend, String.ofList_toList]
  cases rest.dropWhile (· != '=') with
  | nil => rfl
  | cons _ _ => rfl

theorem ofText_longArgument (f : Flag) :
    Argument.ofText f.longArgument = .long f.longName none := by
  have harg : f.longArgument.toList = '-' :: '-' :: (f.longName.toList ++ []) := by
    rw [f.toList_longArgument, List.append_nil]
  exact ofText_of_dashes harg f.longName_ne_empty f.equals_not_mem_longName rfl

theorem ofText_attached (f : Flag) (text : String) :
    Argument.ofText (f.longArgument ++ "=" ++ text) = .long f.longName (some text) := by
  have harg : (f.longArgument ++ "=" ++ text).toList =
      '-' :: '-' :: (f.longName.toList ++ '=' :: text.toList) := by
    rw [String.toList_append, String.toList_append, f.toList_longArgument, List.append_assoc]
    rfl
  rw [ofText_of_dashes harg f.longName_ne_empty f.equals_not_mem_longName
      (List.takeWhile_cons_of_neg (by decide)),
    List.dropWhile_cons_of_neg (by decide)]
  show Argument.long f.longName (some (String.ofList text.toList)) = _
  rw [String.ofList_toList]

theorem ofText_letter {letter : Char} (h : letter ≠ '-') :
    Argument.ofText (String.ofList ['-', letter]) = .short [letter] := by
  rw [Argument.ofText, String.toList_ofList]
  split
  · rename_i heq
    exact absurd (List.cons_eq_cons.mp (List.cons_eq_cons.mp heq).2).1 h
  · rename_i heq
    exact absurd (List.cons_eq_cons.mp (List.cons_eq_cons.mp heq).2).1 h
  · rename_i heq
    obtain ⟨rfl, rfl⟩ := List.cons_eq_cons.mp (List.cons_eq_cons.mp heq).2
    rfl
  · rename_i hshort
    exact absurd rfl (hshort letter [])

theorem ofText_of_not_looksLikeOption {text : String} (h : ¬ LooksLikeOption text) :
    Argument.ofText text = .plain text := by
  have hdash : ∀ rest, text.toList ≠ '-' :: rest := by
    intro rest hrest
    exact h (by rw [LooksLikeOption, hrest]; rfl)
  unfold Argument.ofText
  split
  · rename_i heq
    exact absurd heq (hdash _)
  · rename_i heq
    exact absurd heq (hdash _)
  · rename_i heq
    exact absurd heq (hdash _)
  · rfl

/-! ## What has been read -/

namespace Given

/-- The setting that is given, with its value. -/
def setting? : Given → Option (Setting × String)
  | .value s text => some (s, text)
  | .on _ => none

def switch? : Given → Option Switch
  | .value _ _ => none
  | .on s => some s

theorem lookup_of_not_mem {gs : List Given} {s : Setting} (h : ∀ text, .value s text ∉ gs) :
    (gs.filterMap setting?).lookup s = none := by
  rw [List.lookup_eq_none_iff]
  rintro ⟨s', text⟩ hentry
  obtain ⟨g, hg, hvalue⟩ := List.mem_filterMap.mp hentry
  cases g with
  | on _ => exact nomatch hvalue
  | value s'' text' =>
      obtain ⟨rfl, rfl⟩ : s'' = s' ∧ text' = text := by simpa [setting?] using hvalue
      rw [bne_iff_ne]
      rintro rfl
      exact h _ hg

theorem lookup_of_mem {gs : List Given} (hnodup : (gs.map flag).Nodup) {s : Setting}
    {text : String} (h : .value s text ∈ gs) : (gs.filterMap setting?).lookup s = some text := by
  induction gs with
  | nil => exact absurd h List.not_mem_nil
  | cons g gs ih =>
      obtain ⟨hfresh, hrest⟩ := List.nodup_cons.mp hnodup
      rcases List.mem_cons.mp h with rfl | hmem
      · exact List.lookup_cons_self
      · have hflag : g.flag ≠ .setting s := by
          intro heq
          exact hfresh (heq ▸ List.mem_map_of_mem hmem)
        cases g with
        | on _ => exact ih hrest hmem
        | value s' text' =>
            have hne : (s == s') = false := beq_eq_false_iff_ne.mpr fun heq => hflag (heq ▸ rfl)
            show List.lookup s ((s', text') :: gs.filterMap setting?) = _
            rw [List.lookup_cons, hne]
            exact ih hrest hmem

theorem mem_switches {gs : List Given} {s : Switch} : s ∈ gs.filterMap switch? ↔ .on s ∈ gs := by
  rw [List.mem_filterMap]
  constructor
  · rintro ⟨g, hg, hswitch⟩
    cases g with
    | value _ _ => exact nomatch hswitch
    | on s' =>
        obtain rfl : s' = s := Option.some.inj hswitch
        exact hg
  · intro h
    exact ⟨.on s, h, rfl⟩

end Given

namespace Progress

/-- What has been read when everything that is given is settled; what was given
last comes first. -/
def ofGiven (gs : List Given) : Progress where
  values := gs.filterMap Given.setting?
  switches := gs.filterMap Given.switch?

/-- The options that have been read are those that the list gives. -/
theorem options_ofGiven {o : Options} {gs : List Given} (h : o.GivenBy gs) :
    (ofGiven gs).options = o := by
  refine Options.eq_of_values (fun s => ?_) (fun s => ?_)
  -- A setting has the value that was read for it, or else its default.
  · have hread : (ofGiven gs).options.value? s =
        ((gs.filterMap Given.setting?).lookup s).or (({} : Options).value? s) := by
      cases s with
      | input => exact Option.or_none.symm
      | header => exact Option.or_some.symm
      | outDir => exact Option.or_some.symm
      | overrides => exact Option.or_none.symm
      | date => exact Option.or_none.symm
    rw [hread]
    by_cases hgiven : ∃ text, .value s text ∈ gs
    · obtain ⟨text, hmem⟩ := hgiven
      rw [Given.lookup_of_mem h.once hmem, h.value s text hmem, Option.some_or]
    · rw [not_exists] at hgiven
      rw [Given.lookup_of_not_mem hgiven, h.left s hgiven, Option.none_or]
  · have hread : (ofGiven gs).options.isOn s = decide (s ∈ gs.filterMap Given.switch?) := by
      cases s with
      | printOverrides => rfl
      | verbose => rfl
    rw [hread, Bool.eq_iff_iff, decide_eq_true_eq, Given.mem_switches, h.switch s]

theorem assign_ofGiven {gs : List Given} {s : Setting} {text : String}
    (hnew : Flag.setting s ∉ gs.map Given.flag) (hne : text ≠ "") :
    (ofGiven gs).assign s text = .ok (ofGiven (.value s text :: gs)) := by
  have hnone : (ofGiven gs).values.lookup s = none :=
    Given.lookup_of_not_mem fun _ hmem => hnew (List.mem_map_of_mem hmem)
  have hfree : ¬ ((ofGiven gs).values.lookup s).isSome = true := by
    rw [hnone]
    exact Bool.false_ne_true
  rw [assign, if_neg hfree, if_neg fun h => hne h.2]
  rfl

theorem turnOn_ofGiven {gs : List Given} {s : Switch}
    (hnew : Flag.switch s ∉ gs.map Given.flag) :
    (ofGiven gs).turnOn s = .ok (ofGiven (.on s :: gs)) := by
  have hoff : s ∉ (ofGiven gs).switches :=
    fun hmem => hnew (List.mem_map_of_mem (Given.mem_switches.mp hmem))
  rw [turnOn, if_neg hoff]
  rfl

/-- What has been read stands for a list of what was given: options have not
ended, and settling what is pending gives just that list. -/
structure Stands (p : Progress) (gs : List Given) : Prop where
  running : p.ended = false
  settled : p.settle = .ok (ofGiven gs)

theorem stands_ofGiven (gs : List Given) : (ofGiven gs).Stands gs :=
  ⟨rfl, rfl⟩

/-! ## Reading a spelling -/

section Read

variable {p : Progress} {gs : List Given}

theorem Stands.read_long (h : p.Stands gs) {arg name : String} {value : Option String}
    (hshape : Argument.ofText arg = .long name value) : p.read arg = p.readLong name value := by
  simp only [read, h.running, hshape, Bool.false_eq_true, if_false]

theorem Stands.read_short (h : p.Stands gs) {arg : String} {letters : List Char}
    (hshape : Argument.ofText arg = .short letters) : p.read arg = p.readShort letters := by
  simp only [read, h.running, hshape, Bool.false_eq_true, if_false]

theorem read_attached (h : p.Stands gs) {s : Setting} {text : String}
    (hnew : Flag.setting s ∉ gs.map Given.flag) (hne : text ≠ "") :
    p.read ((Flag.setting s).longArgument ++ "=" ++ text) =
      .ok (ofGiven (.value s text :: gs)) := by
  rw [h.read_long (ofText_attached _ text)]
  unfold readLong
  rw [Flag.ofLong?_longName]
  show (p.settle >>= fun q => q.assign s text) = _
  rw [h.settled]
  exact assign_ofGiven hnew hne

theorem read_setting (h : p.Stands gs) {s : Setting} {arg : String}
    (hname : Names (.setting s) arg) :
    p.read arg = .ok { ofGiven gs with pending := some (s, none) } := by
  have hpending : (p.settle >>= fun q => pure { q with pending := some (s, none) }) =
      Except.ok { ofGiven gs with pending := some (s, none) } := by
    rw [h.settled]
    rfl
  cases hname with
  | long =>
      rw [h.read_long (ofText_longArgument _)]
      unfold readLong
      rw [Flag.ofLong?_longName]
      exact hpending
  | short hletter =>
      rw [h.read_short (ofText_letter (Flag.letter_ne_dash hletter)), readShort,
        Flag.ofShort?_letter hletter]
      exact hpending

theorem read_value (gs : List Given) (s : Setting) {text : String}
    (htext : ¬ LooksLikeOption text) :
    read { ofGiven gs with pending := some (s, none) } text =
      .ok { ofGiven gs with pending := some (s, some text) } := by
  rw [read, ofText_of_not_looksLikeOption htext]
  rfl

theorem read_switch (h : p.Stands gs) {s : Switch} {arg : String} (hname : Names (.switch s) arg)
    (hnew : Flag.switch s ∉ gs.map Given.flag) : p.read arg = .ok (ofGiven (.on s :: gs)) := by
  cases hname with
  | long =>
      rw [h.read_long (ofText_longArgument _)]
      unfold readLong
      rw [Flag.ofLong?_longName]
      show (p.settle >>= fun q => q.turnOn s) = _
      rw [h.settled]
      exact turnOn_ofGiven hnew
  | short hletter =>
      rw [h.read_short (ofText_letter (Flag.letter_ne_dash hletter))]
      simp only [readShort, Flag.ofShort?_letter hletter, h.settled, turnOn_ofGiven hnew]

/-- One spelling, behind whatever else was read, gives one thing more. -/
theorem stands_of_spells {g : Given} {piece : List String} (h : p.Stands gs)
    (hspells : Spells g piece) (hnew : g.flag ∉ gs.map Given.flag)
    (hne : ∀ s text, g = .value s text → text ≠ "") :
    ∃ p', piece.foldlM read p = .ok p' ∧ p'.Stands (g :: gs) := by
  cases hspells with
  | attached s text =>
      refine ⟨ofGiven (.value s text :: gs), ?_, stands_ofGiven _⟩
      rw [List.foldlM_cons, read_attached h hnew (hne s text rfl)]
      rfl
  | @apart s arg text hname htext =>
      -- The value stays pending: only what comes next settles it.
      refine ⟨{ ofGiven gs with pending := some (s, some text) }, ?_, rfl,
        assign_ofGiven hnew (hne s text rfl)⟩
      rw [List.foldlM_cons, read_setting h hname]
      show [text].foldlM read { ofGiven gs with pending := some (s, none) } = _
      rw [List.foldlM_cons, read_value gs s htext]
      rfl
  | @switch s arg hname =>
      refine ⟨ofGiven (.on s :: gs), ?_, stands_ofGiven _⟩
      rw [List.foldlM_cons, read_switch h hname hnew]
      rfl

end Read

theorem stands_of_spelled {more : List Given} {pieces : List (List String)}
    (hspelled : List.Forall₂ Spells more pieces) {p : Progress} {gs : List Given}
    (h : p.Stands gs) (honce : ((more.reverse ++ gs).map Given.flag).Nodup)
    (hne : ∀ s text, .value s text ∈ more → text ≠ "") :
    ∃ p', pieces.flatten.foldlM read p = .ok p' ∧ p'.Stands (more.reverse ++ gs) := by
  -- What is given first ends up deepest in the list, so the list grows with each spelling.
  induction hspelled generalizing p gs with
  | nil => exact ⟨p, rfl, h⟩
  | @cons g piece more pieces hspells _ ih =>
      rw [List.reverse_cons, List.append_assoc, List.singleton_append] at honce ⊢
      have hnew : g.flag ∉ gs.map Given.flag := by
        rw [List.map_append] at honce
        exact (List.nodup_cons.mp (List.nodup_append.mp honce).2.1).1
      obtain ⟨q, hpiece, hq⟩ := stands_of_spells h hspells hnew fun s text hg =>
        hne s text (hg ▸ List.mem_cons_self)
      obtain ⟨p', hpieces, hp'⟩ := ih hq honce fun s text hmem =>
        hne s text (List.mem_cons_of_mem _ hmem)
      refine ⟨p', ?_, hp'⟩
      rw [List.flatten_cons, List.foldlM_append, hpiece]
      exact hpieces

end Progress

/-- **A command line is read back.**  Let every value of some options be other
than the empty text.  Each command line that spells the options, in any order and
without those that are absent or have their default, is read as just these
options, whatever the values look like. -/
theorem ofArguments_of_writtenAs (o : Options) (args : List String)
    (hvalues : ∀ s text, o.value? s = some text → text ≠ "") (hargs : o.WrittenAs args) :
    Options.ofArguments args = .ok o := by
  obtain ⟨gs, pieces, hgiven, hspelled, rfl⟩ := hargs
  have honce : ((gs.reverse ++ []).map Given.flag).Nodup := by
    rw [List.append_nil]
    exact hgiven.reverse.once
  obtain ⟨p, hread, hp⟩ := Progress.stands_of_spelled hspelled (Progress.stands_ofGiven []) honce
    fun s text hmem => hvalues s text (hgiven.value s text hmem)
  have hstart : pieces.flatten.foldlM Progress.read {} = .ok p := hread
  rw [Options.ofArguments, hstart]
  show (p.settle >>= fun q => pure q.options) = _
  rw [hp.settled, List.append_nil]
  exact congrArg Except.ok (Progress.options_ofGiven hgiven.reverse)

/-- Options whose values look like something else. -/
def trickyOptions : Options where
  input := some "--header=x"
  outDir := "=out-dir"
  date := some "date"
  verbose := true

/-- What gives them; the header has its default and the tables are absent. -/
def trickyGiven : List Given :=
  [.on .verbose, .value .date "date", .value .input "--header=x", .value .outDir "=out-dir"]

theorem trickyOptions_givenBy : trickyOptions.GivenBy trickyGiven where
  once := by decide
  value s text hmem := by
    simp only [trickyGiven, List.mem_cons, reduceCtorEq, Given.value.injEq, List.not_mem_nil,
      or_false, false_or] at hmem
    rcases hmem with ⟨rfl, rfl⟩ | ⟨rfl, rfl⟩ | ⟨rfl, rfl⟩
    · rfl
    · rfl
    · rfl
  left s hnone := by
    cases s with
    | input => exact absurd (by decide) (hnone "--header=x")
    | header => rfl
    | outDir => exact absurd (by decide) (hnone "=out-dir")
    | overrides => rfl
    | date => exact absurd (by decide) (hnone "date")
  switch s := by
    cases s with
    | printOverrides => decide
    | verbose => decide

/-- They are read back from a command line in an order of its own. -/
theorem trickyOptions_read_back :
    (∀ s text, trickyOptions.value? s = some text → text ≠ "") ∧
      trickyOptions.WrittenAs
        ["-v", "--date", "date", "--input=--header=x", "-o", "=out-dir"] ∧
      Options.ofArguments ["-v", "--date", "date", "--input=--header=x", "-o", "=out-dir"] =
        .ok trickyOptions := by
  have hvalues : ∀ s text, trickyOptions.value? s = some text → text ≠ "" := by
    rintro s text hvalue rfl
    cases s with
    | input => exact absurd hvalue (by decide)
    | header => exact absurd hvalue (by decide)
    | outDir => exact absurd hvalue (by decide)
    | overrides => exact absurd hvalue (by decide)
    | date => exact absurd hvalue (by decide)
  have hwritten : trickyOptions.WrittenAs
      ["-v", "--date", "date", "--input=--header=x", "-o", "=out-dir"] := by
    refine ⟨trickyGiven, _, trickyOptions_givenBy,
      .cons (.switch (.short rfl)) (.cons (.apart (.long _) (by decide)) (.cons (.attached .input _)
        (.cons (.apart (.short rfl) (by decide)) .nil))), ?_⟩
    rfl
  exact ⟨hvalues, hwritten, ofArguments_of_writtenAs _ _ hvalues hwritten⟩

end Ambient
