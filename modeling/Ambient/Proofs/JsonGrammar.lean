import Ambient.Proofs.JsonObjects

/-!
# Values of any kind

The grammar of JSON values without their meaning: words, numbers, texts, and
parts between brackets that nest to any depth.  A text may hold halves of
surrogate pairs and a number may have any size, since nobody asks what they
stand for.

The value of an unknown key is passed over by a reader that does not recurse
into it but holds the open brackets in a list.  The grammar is the recursion
that this reader lacks.  By induction on it, reading goes on behind a value with
the brackets that were open, and behind the parts of a bracket with that bracket
closed (`Passed`); so every value of the grammar is passed over, at any depth
(`WellFormed.skips`).
-/

namespace Ambient.Json

/-! ## The grammar -/

/-- A text between its quotes, of which only the form counts. -/
inductive TextShape : List Char → Prop where
  | nil : TextShape []
  | plain {c : Char} {body : List Char} : c ≠ '"' → c ≠ '\\' → isControl c = false →
      TextShape body → TextShape (c :: body)
  | letter {e c : Char} {body : List Char} : shortEscape? e = some c →
      TextShape body → TextShape ('\\' :: e :: body)
  | digits {w x y z : Char} {n : Nat} {body : List Char} : hexValue? w x y z = some n →
      TextShape body → TextShape ('\\' :: 'u' :: w :: x :: y :: z :: body)

/-- One or more decimal digits. -/
def Digits (w : List Char) : Prop :=
  w ≠ [] ∧ ∀ c ∈ w, c.isDigit = true

/-- An integer part: zero, or digits of which the first is not zero. -/
inductive IntegerShape : List Char → Prop where
  | zero : IntegerShape ['0']
  | digits {d : Char} {ds : List Char} : d ≠ '0' → Digits (d :: ds) → IntegerShape (d :: ds)

/-- A fraction, which may be absent. -/
inductive FractionShape : List Char → Prop where
  | absent : FractionShape []
  | digits {ds : List Char} : Digits ds → FractionShape ('.' :: ds)

/-- An exponent with or without a sign, which may be absent. -/
inductive ExponentShape : List Char → Prop where
  | absent : ExponentShape []
  | digits {e : Char} {sign ds : List Char} : e = 'e' ∨ e = 'E' →
      sign = [] ∨ sign = ['+'] ∨ sign = ['-'] → Digits ds → ExponentShape (e :: (sign ++ ds))

/-- A number of any size. -/
inductive NumberShape : List Char → Prop where
  | mk {sign whole fraction exponent : List Char} : sign = [] ∨ sign = ['-'] →
      IntegerShape whole → FractionShape fraction → ExponentShape exponent →
      NumberShape (sign ++ (whole ++ (fraction ++ exponent)))

def Bracket.opener : Bracket → Char
  | .square => '['
  | .curly => '{'

theorem Bracket.isBlank_opener (b : Bracket) : isBlank b.opener = false := by
  cases b with
  | square => rfl
  | curly => rfl

/-- What stands between the gap and the value of a part: nothing in a list, a
key and a colon in an object. -/
inductive Lead : Bracket → List Char → Prop where
  | item : Lead .square []
  | key {body ws ws' : List Char} : TextShape body → Blanks ws → Blanks ws' →
      Lead .curly ('"' :: (body ++ '"' :: (ws ++ ':' :: ws')))

/-- What the grammar speaks about: a value, or the parts that are left in a
bracket with its closer; the Boolean tells whether no part came before. -/
inductive Phrase where
  | value
  | parts (bracket : Bracket) (first : Bool)

/-- The grammar of values. -/
inductive WellFormed : Phrase → List Char → Prop where
  | null : WellFormed .value ['n', 'u', 'l', 'l']
  | boolean {b : Bool} {w : List Char} : booleanForm b w → WellFormed .value w
  | number {w : List Char} : NumberShape w → WellFormed .value w
  | text {body : List Char} : TextShape body → WellFormed .value ('"' :: (body ++ ['"']))
  | bracket {b : Bracket} {parts : List Char} : WellFormed (.parts b true) parts →
      WellFormed .value (b.opener :: parts)
  | close {b : Bracket} {first : Bool} {ws : List Char} : Blanks ws →
      WellFormed (.parts b first) (ws ++ [b.closer])
  | part {b : Bracket} {first : Bool} {gap lead v parts : List Char} : Gap first gap →
      Lead b lead → WellFormed .value v → WellFormed (.parts b false) parts →
      WellFormed (.parts b first) (gap ++ (lead ++ (v ++ parts)))

/-! ## Texts -/

theorem skipTextFrom_append {body : List Char} (h : TextShape body) :
    ∀ limit rest : List Char, body.length ≤ limit.length →
      skipTextFrom limit (body ++ '"' :: rest) = .ok ((), rest) := by
  induction h with
  | nil =>
      intro limit rest _
      rw [List.nil_append, skipTextFrom]
  | @plain c body hquote hbackslash hcontrol _ ih =>
      intro limit rest hlimit
      obtain ⟨l, limit, rfl, hshorter⟩ := exists_limit_step hlimit
      rw [List.cons_append, skipTextFrom]
      · rw [hcontrol, if_neg Bool.false_ne_true]
        exact ih limit rest hshorter
      · exact hquote
      · exact hbackslash
  | @letter e c body he _ ih =>
      intro limit rest hlimit
      have hstep : body.length < limit.length := by
        rw [List.length_cons, List.length_cons] at hlimit
        omega
      obtain ⟨l, limit, rfl, hshorter⟩ := exists_limit_step hstep
      have hescape : skipEscape (e :: (body ++ '"' :: rest)) = .ok ((), body ++ '"' :: rest) := by
        rw [skipEscape]
        · rw [he]
        · exact ne_u_of_shortEscape? he
      rw [List.cons_append, List.cons_append, skipTextFrom, hescape]
      exact ih limit rest hshorter
  | @digits w x y z n body hn _ ih =>
      intro limit rest hlimit
      have hstep : body.length < limit.length := by
        simp only [List.length_cons] at hlimit
        omega
      obtain ⟨l, limit, rfl, hshorter⟩ := exists_limit_step hstep
      have hescape : skipEscape ('u' :: w :: x :: y :: z :: (body ++ '"' :: rest)) =
          .ok ((), body ++ '"' :: rest) := by
        rw [skipEscape, hexEscape_append hn]
      simp only [List.cons_append]
      rw [skipTextFrom, hescape]
      exact ih limit rest hshorter

theorem skipText_append {body : List Char} (h : TextShape body) (rest : List Char) :
    skipText (body ++ '"' :: rest) = .ok ((), rest) := by
  have hlimit : body.length ≤ (body ++ '"' :: rest).length := by
    rw [List.length_append]
    omega
  exact skipTextFrom_append h _ rest hlimit

/-! ## Numbers -/

theorem Delimited.exists_head {s : List Char} (h : Delimited s) :
    ∃ c rest, s = c :: rest ∧ c.isDigit = false ∧ c ≠ '.' ∧ ¬ (c = 'e' ∨ c = 'E') := by
  obtain ⟨c, rest, rfl, hc⟩ := h
  have hcases : c = ' ' ∨ c = '\n' ∨ c = '\t' ∨ c = '\r' ∨ c = ',' ∨ c = ']' ∨ c = '}' := by
    simpa [isBlank, or_assoc] using hc
  refine ⟨c, rest, rfl, ?_⟩
  rcases hcases with rfl | rfl | rfl | rfl | rfl | rfl | rfl <;> decide

theorem Delimited.startsWithDigit {s : List Char} (h : Delimited s) :
    startsWithDigit s = false := by
  obtain ⟨c, rest, rfl, hdigit, -⟩ := h.exists_head
  exact hdigit

theorem ne_of_isDigit {d c : Char} (hd : d.isDigit = true) (hc : c.isDigit = false) : d ≠ c := by
  rintro rfl
  rw [hc] at hd
  exact Bool.false_ne_true hd

theorem Digits.exists_cons {ds : List Char} (h : Digits ds) :
    ∃ d rest, ds = d :: rest ∧ d.isDigit = true ∧ ∀ c ∈ rest, c.isDigit = true := by
  obtain ⟨hne, hall⟩ := h
  obtain ⟨d, rest, rfl⟩ := List.exists_cons_of_ne_nil hne
  exact ⟨d, rest, rfl, hall d List.mem_cons_self, fun c hc => hall c (List.mem_cons_of_mem d hc)⟩

theorem dropWhile_digits {ds s : List Char} (hds : ∀ c ∈ ds, c.isDigit = true)
    (hs : startsWithDigit s = false) : (ds ++ s).dropWhile Char.isDigit = s := by
  rw [List.dropWhile_append_of_pos hds]
  cases s with
  | nil => rfl
  | cons c rest => exact List.dropWhile_cons_of_neg (by simpa [startsWithDigit] using hs)

theorem skipDigits_append {ds s : List Char} (hds : Digits ds) (hs : startsWithDigit s = false) :
    skipDigits (ds ++ s) = .ok ((), s) := by
  obtain ⟨d, rest, rfl, hd, hrest⟩ := hds.exists_cons
  rw [List.cons_append, skipDigits, if_pos hd, dropWhile_digits hrest hs]

theorem skipExponent_append {w s : List Char} (h : ExponentShape w) (hs : Delimited s) :
    skipExponent (w ++ s) = .ok ((), s) := by
  unfold skipExponent
  cases h with
  | absent =>
      obtain ⟨c, rest, rfl, -, -, he⟩ := hs.exists_head
      exact if_neg he
  | @digits e sign ds he hsign hds =>
      have hskip : skipDigits (ds ++ s) = .ok ((), s) := skipDigits_append hds hs.startsWithDigit
      rw [List.cons_append, List.append_assoc]
      simp only [if_pos he]
      rcases hsign with rfl | rfl | rfl
      · -- without a sign the digits begin at once
        obtain ⟨d, rest, rfl, hd, -⟩ := hds.exists_cons
        rw [List.nil_append, List.cons_append]
        split
        · rename_i heq
          exact absurd (List.cons_eq_cons.mp heq).1 (ne_of_isDigit hd rfl)
        · rename_i heq
          exact absurd (List.cons_eq_cons.mp heq).1 (ne_of_isDigit hd rfl)
        · exact hskip
      · exact hskip
      · exact hskip

theorem ExponentShape.exists_head {w s : List Char} (h : ExponentShape w) (hs : Delimited s) :
    ∃ c rest, w ++ s = c :: rest ∧ c.isDigit = false ∧ c ≠ '.' := by
  cases h with
  | absent =>
      obtain ⟨c, rest, rfl, hdigit, hpoint, -⟩ := hs.exists_head
      exact ⟨c, rest, rfl, hdigit, hpoint⟩
  | digits he =>
      refine ⟨_, _, rfl, ?_⟩
      rcases he with rfl | rfl <;> decide

theorem skipFraction_append {fraction exponent s : List Char} (h : FractionShape fraction)
    (hexponent : ExponentShape exponent) (hs : Delimited s) :
    skipFraction (fraction ++ (exponent ++ s)) = .ok ((), s) := by
  have hskip : skipExponent (exponent ++ s) = .ok ((), s) := skipExponent_append hexponent hs
  obtain ⟨c, rest, heq, hdigit, hpoint⟩ := hexponent.exists_head hs
  cases h with
  | absent =>
      rw [List.nil_append, skipFraction]
      · exact hskip
      · rintro rest' heq'
        exact hpoint (List.cons_eq_cons.mp (heq.symm.trans heq')).1
  | @digits ds hds =>
      obtain ⟨d, ds, rfl, hd, hds⟩ := hds.exists_cons
      have hstart : startsWithDigit (exponent ++ s) = false := by
        rw [heq]
        exact hdigit
      rw [List.cons_append, List.cons_append, skipFraction, if_pos hd, dropWhile_digits hds hstart]
      exact hskip

theorem skipUnsigned_append {whole fraction exponent s : List Char} (h : IntegerShape whole)
    (hfraction : FractionShape fraction) (hexponent : ExponentShape exponent) (hs : Delimited s) :
    skipUnsigned (whole ++ (fraction ++ (exponent ++ s))) = .ok ((), s) := by
  have hskip : skipFraction (fraction ++ (exponent ++ s)) = .ok ((), s) :=
    skipFraction_append hfraction hexponent hs
  have hhead : ∃ c rest, fraction ++ (exponent ++ s) = c :: rest ∧ c.isDigit = false := by
    cases hfraction with
    | absent =>
        obtain ⟨c, rest, heq, hdigit, -⟩ := hexponent.exists_head hs
        exact ⟨c, rest, heq, hdigit⟩
    | digits => exact ⟨_, _, rfl, rfl⟩
  obtain ⟨c, rest, heq, hdigit⟩ := hhead
  rw [heq] at hskip ⊢
  cases h with
  | zero =>
      rw [List.singleton_append, skipUnsigned]
      simp only [hdigit, Bool.false_eq_true, if_false]
      exact hskip
  | @digits d ds hzero hds =>
      have hdigits : skipDigits (d :: ds ++ c :: rest) = .ok ((), c :: rest) :=
        skipDigits_append hds hdigit
      rw [List.cons_append] at hdigits ⊢
      rw [skipUnsigned, hdigits]
      · exact hskip
      · intro rest' heq'
        exact hzero (List.cons_eq_cons.mp heq').1

/-! ## Values without parts -/

theorem skipStart_null (s : List Char) : skipStart (['n', 'u', 'l', 'l'] ++ s) = .ok (none, s) := by
  simp [skipStart, word]

theorem skipStart_boolean {b : Bool} {w : List Char} (h : booleanForm b w) (s : List Char) :
    skipStart (w ++ s) = .ok (none, s) := by
  cases b with
  | true =>
      obtain rfl := h
      simp [skipStart, word]
  | false =>
      obtain rfl := h
      simp [skipStart, word]

theorem skipStart_text {body : List Char} (h : TextShape body) (s : List Char) :
    skipStart ('"' :: (body ++ ['"']) ++ s) = .ok (none, s) := by
  have hskip : skipText (body ++ '"' :: s) = .ok ((), s) := skipText_append h s
  simp [skipStart, hskip]

theorem IntegerShape.exists_cons {whole : List Char} (h : IntegerShape whole) :
    ∃ d rest, whole = d :: rest ∧ d.isDigit = true := by
  cases h with
  | zero => exact ⟨'0', [], rfl, rfl⟩
  | @digits d ds _ hds => exact ⟨d, ds, rfl, hds.2 d List.mem_cons_self⟩

theorem skipStart_number {w s : List Char} (h : NumberShape w) (hs : Delimited s) :
    skipStart (w ++ s) = .ok (none, s) := by
  obtain ⟨hsign, hwhole, hfraction, hexponent⟩ := h
  have hskip := skipUnsigned_append hwhole hfraction hexponent hs
  rcases hsign with rfl | rfl
  · obtain ⟨d, rest, rfl, hd⟩ := hwhole.exists_cons
    simp only [List.cons_append] at hskip
    simp [skipStart, hskip, hd, ne_of_isDigit hd]
  · simp [skipStart, hskip]

theorem skipStart_opener (b : Bracket) (s : List Char) :
    skipStart (b.opener :: s) = .ok (some b, s) := by
  cases b with
  | square => rfl
  | curly => rfl

/-- A value begins neither with a blank nor with a closing bracket. -/
theorem WellFormed.start {v : List Char} (h : WellFormed .value v) :
    ∃ c rest, v = c :: rest ∧ isBlank c = false ∧ ∀ b : Bracket, c ≠ b.closer := by
  have hclosers : ∀ c : Char, c ≠ ']' → c ≠ '}' → ∀ b : Bracket, c ≠ b.closer := by
    intro c hsquare hcurly b
    cases b with
    | square => exact hsquare
    | curly => exact hcurly
  cases h with
  | null => exact ⟨_, _, rfl, rfl, hclosers _ (by decide) (by decide)⟩
  | @boolean b _ hb =>
      cases b with
      | true => exact ⟨_, _, hb, rfl, hclosers _ (by decide) (by decide)⟩
      | false => exact ⟨_, _, hb, rfl, hclosers _ (by decide) (by decide)⟩
  | number hnumber =>
      obtain ⟨hsign, hwhole, -, -⟩ := hnumber
      rcases hsign with rfl | rfl
      · obtain ⟨d, rest, rfl, hd⟩ := hwhole.exists_cons
        have hblank : isBlank d = false := by
          simp [isBlank, ne_of_isDigit hd]
        exact ⟨d, _, rfl, hblank, hclosers d (ne_of_isDigit hd rfl) (ne_of_isDigit hd rfl)⟩
      · exact ⟨_, _, rfl, rfl, hclosers _ (by decide) (by decide)⟩
  | text => exact ⟨_, _, rfl, rfl, hclosers _ (by decide) (by decide)⟩
  | @bracket b _ _ =>
      refine ⟨_, _, rfl, b.isBlank_opener, ?_⟩
      cases b with
      | square => exact hclosers _ (by decide) (by decide)
      | curly => exact hclosers _ (by decide) (by decide)

/-! ## Nesting -/

/-- How passing over goes on with the next part of the innermost open bracket. -/
def proceed (limit : List Char) : List Bracket × List Char → Except Failure (Unit × List Char)
  | ([], rest) => .ok ((), rest)
  | (.square :: outer, rest) => skipWithin limit (.square :: outer) rest
  | (.curly :: outer, rest) =>
      match skipKey rest with
      | .error e => .error e
      | .ok (_, rest) => skipWithin limit (.curly :: outer) rest

/-- How passing over goes on behind a value, or behind the bracket that opens
one: closers are taken, and then the next part. -/
def resume (limit : List Char) (comma : Bool) (opened : List Bracket) (s : List Char) :
    Except Failure (Unit × List Char) :=
  (settle comma opened s).bind (proceed limit)

theorem skipWithin_of_start {s rest : List Char} {start : Option Bracket}
    (h : skipStart (skipBlanks s) = .ok (start, rest)) (l : Char) (limit : List Char)
    (opened : List Bracket) :
    skipWithin (l :: limit) opened s = resume limit start.isNone (start.toList ++ opened) rest := by
  cases start with
  | none =>
      simp only [skipWithin, h, resume, Option.isNone_none, Option.toList_none, List.nil_append]
      rcases settle true opened rest with e | ⟨_ | ⟨_ | _, outer⟩, rest'⟩ <;> rfl
  | some b =>
      simp only [skipWithin, h, resume, Option.isNone_some, Option.toList_some, List.singleton_append]
      rcases settle false (b :: opened) rest with e | ⟨_ | ⟨_ | _, outer⟩, rest'⟩ <;> rfl

theorem settle_closer {ws : List Char} (hws : Blanks ws) (comma : Bool) (b : Bracket)
    (opened : List Bracket) (rest : List Char) :
    settle comma (b :: opened) (ws ++ b.closer :: rest) = settle true opened rest := by
  have hblank : isBlank b.closer = false := by
    cases b with
    | square => rfl
    | curly => rfl
  rw [settle, skipBlanks_append hws hblank]
  exact if_pos rfl

theorem exists_settle_gap {first : Bool} {gap : List Char} (hgap : Gap first gap) {c : Char}
    {b : Bracket} (hblank : isBlank c = false) (hcloser : c ≠ b.closer) (opened : List Bracket)
    (rest : List Char) :
    ∃ ws, Blanks ws ∧
      settle (!first) (b :: opened) (gap ++ c :: rest) = .ok (b :: opened, ws ++ c :: rest) := by
  cases hgap with
  | first hws =>
      refine ⟨[], .nil, ?_⟩
      rw [settle, skipBlanks_append hws hblank]
      simp [hcloser]
  | @comma ws ws' hws hws' =>
      have hcomma : ',' ≠ b.closer := by
        cases b with
        | square => decide
        | curly => decide
      refine ⟨ws', hws', ?_⟩
      rw [List.append_assoc, List.cons_append, settle, skipBlanks_append hws rfl]
      simp [hcomma]

theorem skipKey_append {ws ws' ws'' body : List Char} (hws : Blanks ws) (hbody : TextShape body)
    (hws' : Blanks ws') (rest : List Char) :
    skipKey (ws ++ ('"' :: (body ++ '"' :: (ws' ++ ':' :: ws'')) ++ rest)) =
      .ok ((), ws'' ++ rest) := by
  have hskip : skipText (body ++ '"' :: (ws' ++ ':' :: (ws'' ++ rest))) =
      .ok ((), ws' ++ ':' :: (ws'' ++ rest)) := skipText_append hbody _
  have hcolon : skipBlanks (ws' ++ ':' :: (ws'' ++ rest)) = ':' :: (ws'' ++ rest) :=
    skipBlanks_append hws' rfl
  simp only [List.cons_append, List.append_assoc]
  rw [skipKey, skipBlanks_append hws rfl]
  simp only [hskip, hcolon]

/-- Up to the value of a part, its gap and its key are taken up to blanks. -/
theorem exists_resume_part {b : Bracket} {first : Bool} {gap lead v : List Char}
    (hgap : Gap first gap) (hlead : Lead b lead) (hv : WellFormed .value v)
    (limit : List Char) (opened : List Bracket) (rest : List Char) :
    ∃ ws, Blanks ws ∧ resume limit (!first) (b :: opened) (gap ++ (lead ++ (v ++ rest))) =
      skipWithin limit (b :: opened) (ws ++ (v ++ rest)) := by
  cases hlead with
  | item =>
      obtain ⟨c, v, rfl, hblank, hclosers⟩ := hv.start
      obtain ⟨ws, hws, hsettle⟩ := exists_settle_gap hgap hblank (hclosers .square) opened (v ++ rest)
      refine ⟨ws, hws, ?_⟩
      rw [List.nil_append, List.cons_append, resume, hsettle]
      rfl
  | @key body ws' ws'' hbody hws' hws'' =>
      obtain ⟨ws, hws, hsettle⟩ := exists_settle_gap (c := '"') (b := .curly) hgap rfl (by decide)
        opened (body ++ '"' :: (ws' ++ ':' :: ws'') ++ (v ++ rest))
      have hkey : skipKey (ws ++ ('"' :: (body ++ '"' :: (ws' ++ ':' :: ws'')) ++ (v ++ rest))) =
          .ok ((), ws'' ++ (v ++ rest)) := skipKey_append hws hbody hws' (v ++ rest)
      refine ⟨ws'', hws'', ?_⟩
      rw [List.cons_append, resume, hsettle]
      show proceed limit (.curly :: opened, _) = _
      rw [← List.cons_append, proceed, hkey]

/-! ## Passing over -/

/-- What it means that a phrase is passed over: reading goes on behind a value
with the brackets that were open, and behind the parts of a bracket with that
bracket closed. -/
def Passed : Phrase → List Char → Prop
  | .value, v => ∀ (limit : List Char) (opened : List Bracket) (ws rest : List Char),
      Blanks ws → Delimited rest → (v ++ rest).length ≤ limit.length →
      ∃ limit' : List Char, rest.length ≤ limit'.length ∧
        skipWithin limit opened (ws ++ (v ++ rest)) = resume limit' true opened rest
  | .parts b first, parts => ∀ (limit : List Char) (opened : List Bracket) (rest : List Char),
      (parts ++ rest).length ≤ limit.length →
      ∃ limit' : List Char, rest.length ≤ limit'.length ∧
        resume limit (!first) (b :: opened) (parts ++ rest) = resume limit' true opened rest

theorem passed_of_skipStart {v : List Char} (hv : WellFormed .value v)
    (h : ∀ rest : List Char, Delimited rest → skipStart (v ++ rest) = .ok (none, rest)) :
    Passed .value v := by
  intro limit opened ws rest hws hrest hlimit
  obtain ⟨c, v', rfl, hblank, -⟩ := hv.start
  have hstep : rest.length < limit.length := by
    rw [List.length_append, List.length_cons] at hlimit
    omega
  obtain ⟨l, limit, rfl, hshorter⟩ := exists_limit_step hstep
  have hstart : skipStart (skipBlanks (ws ++ (c :: v' ++ rest))) = .ok (none, rest) := by
    rw [List.cons_append, skipBlanks_append hws hblank]
    exact h rest hrest
  exact ⟨limit, hshorter, skipWithin_of_start hstart l limit opened⟩

theorem passed_bracket {b : Bracket} {parts : List Char} (h : Passed (.parts b true) parts) :
    Passed .value (b.opener :: parts) := by
  intro limit opened ws rest hws _ hlimit
  have hstep : (parts ++ rest).length < limit.length := by
    rwa [List.cons_append, List.length_cons] at hlimit
  obtain ⟨l, limit, rfl, hshorter⟩ := exists_limit_step hstep
  have hstart : skipStart (skipBlanks (ws ++ (b.opener :: parts ++ rest))) =
      .ok (some b, parts ++ rest) := by
    rw [List.cons_append, skipBlanks_append hws b.isBlank_opener]
    exact skipStart_opener b _
  obtain ⟨limit', hlimit', hresume⟩ := h limit opened rest hshorter
  refine ⟨limit', hlimit', ?_⟩
  rw [skipWithin_of_start hstart l limit opened]
  exact hresume

theorem passed_close {b : Bracket} {first : Bool} {ws : List Char} (hws : Blanks ws) :
    Passed (.parts b first) (ws ++ [b.closer]) := by
  intro limit opened rest hlimit
  refine ⟨limit, ?_, ?_⟩
  · rw [List.length_append] at hlimit
    omega
  · rw [List.append_assoc, List.singleton_append, resume, settle_closer hws]
    rfl

theorem WellFormed.delimited {b : Bracket} {parts : List Char}
    (h : WellFormed (.parts b false) parts) (rest : List Char) : Delimited (parts ++ rest) := by
  cases h with
  | close hws =>
      rw [List.append_assoc, List.singleton_append]
      refine hws.delimited (.inr ?_)
      cases b with
      | square => exact .inl rfl
      | curly => exact .inr rfl
  | part hgap =>
      rw [List.append_assoc]
      exact hgap.delimited _

theorem passed_part {b : Bracket} {first : Bool} {gap lead v parts : List Char}
    (hgap : Gap first gap) (hlead : Lead b lead) (hv : WellFormed .value v)
    (hparts : WellFormed (.parts b false) parts) (ihv : Passed .value v)
    (ihparts : Passed (.parts b false) parts) :
    Passed (.parts b first) (gap ++ (lead ++ (v ++ parts))) := by
  intro limit opened rest hlimit
  have hvalue : (v ++ (parts ++ rest)).length ≤ limit.length := by
    simp only [List.length_append] at hlimit ⊢
    omega
  obtain ⟨ws, hws, hpart⟩ := exists_resume_part hgap hlead hv limit opened (parts ++ rest)
  obtain ⟨limit', hlimit', hresume⟩ :=
    ihv limit (b :: opened) ws (parts ++ rest) hws (hparts.delimited rest) hvalue
  obtain ⟨limit'', hlimit'', hresume'⟩ := ihparts limit' opened rest hlimit'
  refine ⟨limit'', hlimit'', ?_⟩
  calc resume limit (!first) (b :: opened) (gap ++ (lead ++ (v ++ parts)) ++ rest)
      = resume limit (!first) (b :: opened) (gap ++ (lead ++ (v ++ (parts ++ rest)))) := by
        simp only [List.append_assoc]
    _ = skipWithin limit (b :: opened) (ws ++ (v ++ (parts ++ rest))) := hpart
    _ = resume limit' true (b :: opened) (parts ++ rest) := hresume
    _ = resume limit'' true opened rest := hresume'

/-- Every phrase is passed over. -/
theorem WellFormed.passed {p : Phrase} {w : List Char} (h : WellFormed p w) : Passed p w := by
  induction h with
  | null => exact passed_of_skipStart .null fun rest _ => skipStart_null rest
  | boolean hb => exact passed_of_skipStart (.boolean hb) fun rest _ => skipStart_boolean hb rest
  | number hn => exact passed_of_skipStart (.number hn) fun rest hrest => skipStart_number hn hrest
  | text ht => exact passed_of_skipStart (.text ht) fun rest _ => skipStart_text ht rest
  | bracket _ ih => exact passed_bracket ih
  | close hws => exact passed_close hws
  | part hgap hlead hv hparts ihv ihparts => exact passed_part hgap hlead hv hparts ihv ihparts

/-- **A value of any kind is passed over**, and reading goes on right behind it. -/
theorem WellFormed.skips {v : List Char} (h : WellFormed .value v) : Skips v := by
  intro ws rest hws hrest
  have hlimit : (v ++ rest).length ≤ (ws ++ (v ++ rest)).length := by
    simp only [List.length_append]
    omega
  obtain ⟨limit', -, hresume⟩ := h.passed (ws ++ (v ++ rest)) [] ws rest hws hrest hlimit
  rw [skipValue, hresume]
  rfl

end Ambient.Json
