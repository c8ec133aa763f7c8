import Ambient.Proofs.JsonGrammar

/-!
# What the readers accept

The other half of the laws about forms: where a reader succeeds, what it took has
the form that it is for.  A text literal is a form of the text that is yielded,
and a value that is passed over is a value of the grammar
(`exists_of_skipValue`).

Passing over follows no recursion, so its success is told by what is left of all
open brackets at once (`Completes`).  What settles the brackets and what takes
the next value hand each other shorter limits, and the induction is on the limit.
-/

namespace Ambient.Json

/-! ## Blanks and words -/

theorem exists_of_skipBlanks {s rest : List Char} {c : Char} (h : skipBlanks s = c :: rest) :
    ∃ ws, Blanks ws ∧ s = ws ++ c :: rest := by
  refine ⟨s.takeWhile isBlank, fun d hd => List.mem_takeWhile_imp hd, ?_⟩
  rw [← h]
  exact List.takeWhile_append_dropWhile.symm

theorem isBlank_of_skipBlanks {s rest : List Char} {c : Char} (h : skipBlanks s = c :: rest) :
    isBlank c = false := by
  induction s with
  | nil => cases h
  | cons d s ih =>
      rw [skipBlanks, List.dropWhile_cons] at h
      split at h
      · exact ih h
      · rename_i hd
        obtain rfl := (List.cons_eq_cons.mp h).1
        exact Bool.eq_false_iff.mpr hd

theorem eq_append_of_word {cs s rest : List Char} {u : Unit} (h : word cs s = .ok (u, rest)) :
    s = cs ++ rest := by
  induction cs generalizing s with
  | nil =>
      cases h
      rfl
  | cons c cs ih =>
      cases s with
      | nil => cases h
      | cons d s =>
          rw [word] at h
          split at h
          · rename_i heq
            rw [heq, ih h, List.cons_append]
          · cases h

/-! ## Texts -/

theorem exists_of_hexEscape {s rest : List Char} {n : Nat} (h : hexEscape s = .ok (n, rest)) :
    ∃ w x y z, hexValue? w x y z = some n ∧ s = w :: x :: y :: z :: rest := by
  unfold hexEscape at h
  split at h
  · split at h
    · rename_i hn
      cases h
      exact ⟨_, _, _, _, hn, rfl⟩
    · cases h
  · split at h <;> cases h

theorem exists_of_lowEscape {high : Nat} {s rest : List Char} {c : Char}
    (h : lowEscape high s = .ok (c, rest)) :
    ∃ w x y z low, hexValue? w x y z = some low ∧ isLowSurrogate low = true ∧
      c = pairChar high low ∧ s = '\\' :: 'u' :: w :: x :: y :: z :: rest := by
  unfold lowEscape at h
  split at h
  · split at h
    · cases h
    · rename_i hlow
      obtain ⟨w, x, y, z, hn, rfl⟩ := exists_of_hexEscape hlow
      split at h
      · rename_i hhalf
        obtain ⟨rfl, rfl⟩ := Prod.mk.inj (Except.ok.inj h)
        exact ⟨w, x, y, z, _, hn, hhalf, rfl, rfl⟩
      · cases h
  all_goals cases h

theorem exists_of_unicodeEscape {s rest : List Char} {c : Char}
    (h : unicodeEscape s = .ok (c, rest)) :
    ∃ w, CharForm c ('\\' :: 'u' :: w) ∧ s = w ++ rest := by
  unfold unicodeEscape at h
  split at h
  · cases h
  · rename_i n _ hdigits
    obtain ⟨w, x, y, z, hn, rfl⟩ := exists_of_hexEscape hdigits
    split at h
    · cases h
    · rename_i hlow
      split at h
      · rename_i hhigh
        obtain ⟨w', x', y', z', low, hn', hlow', hc, rfl⟩ := exists_of_lowEscape h
        rw [hc]
        exact ⟨[w, x, y, z, '\\', 'u', w', x', y', z'], .pair hn hn' hhigh hlow', rfl⟩
      · rename_i hhigh
        obtain ⟨rfl, rfl⟩ := Prod.mk.inj (Except.ok.inj h)
        exact ⟨[w, x, y, z], .digits hn (Bool.eq_false_iff.mpr hlow) (Bool.eq_false_iff.mpr hhigh),
          rfl⟩

theorem exists_of_escape {s rest : List Char} {c : Char} (h : escape s = .ok (c, rest)) :
    ∃ w, CharForm c ('\\' :: w) ∧ s = w ++ rest := by
  unfold escape at h
  split at h
  · cases h
  · obtain ⟨w, hw, rfl⟩ := exists_of_unicodeEscape h
    exact ⟨_, hw, rfl⟩
  · split at h
    · rename_i he
      cases h
      exact ⟨[_], .letter he, rfl⟩
    · cases h

theorem exists_of_textFrom {seen limit s cs rest : List Char}
    (h : textFrom seen limit s = .ok (cs, rest)) :
    ∃ body cs', TextForm cs' body ∧ cs = seen.reverse ++ cs' ∧ s = body ++ '"' :: rest := by
  -- A character is taken in its form, and the rest is read with it among those seen.
  have hstep : ∀ {c : Char} {w t : List Char} {seen : List Char}, CharForm c w →
      (∃ body cs', TextForm cs' body ∧ cs = (c :: seen).reverse ++ cs' ∧ t = body ++ '"' :: rest) →
      ∃ body cs', TextForm cs' body ∧ cs = seen.reverse ++ cs' ∧ w ++ t = body ++ '"' :: rest := by
    rintro c w _ seen hc ⟨body, cs', hbody, hcs, rfl⟩
    refine ⟨w ++ body, c :: cs', .cons hc hbody, ?_, (List.append_assoc _ _ _).symm⟩
    rw [hcs, List.reverse_cons, List.append_assoc, List.singleton_append]
  fun_induction textFrom seen limit s with
  | case1 => cases h
  | case2 =>
      cases h
      exact ⟨[], [], .nil, (List.append_nil _).symm, rfl⟩
  | case3 => cases h
  | case4 => cases h
  | case5 _ _ _ _ _ _ hescape ih =>
      obtain ⟨w, hw, rfl⟩ := exists_of_escape hescape
      exact hstep hw (ih h)
  | case6 => cases h
  | case7 _ _ _ _ _ hquote hbackslash hcontrol ih =>
      exact hstep (.plain hquote hbackslash (Bool.eq_false_iff.mpr hcontrol)) (ih h)

theorem exists_of_textBody {s cs rest : List Char} (h : textBody s = .ok (cs, rest)) :
    ∃ body, TextForm cs body ∧ s = body ++ '"' :: rest := by
  obtain ⟨body, cs', hbody, rfl, rfl⟩ := exists_of_textFrom h
  exact ⟨body, hbody, rfl⟩

theorem TextForm.shape {cs body : List Char} (h : TextForm cs body) : TextShape body := by
  induction h with
  | nil => exact .nil
  | cons hc _ ih =>
      cases hc with
      | plain hquote hbackslash hcontrol => exact .plain hquote hbackslash hcontrol ih
      | letter he => exact .letter he ih
      | digits hn => exact .digits hn ih
      | pair hhigh hlow => exact .digits hhigh (.digits hlow ih)

/-! ## Values without parts -/

theorem exists_of_skipEscape {s rest : List Char} {u : Unit} (h : skipEscape s = .ok (u, rest)) :
    ∃ w, s = w ++ rest ∧ ∀ body, TextShape body → TextShape ('\\' :: (w ++ body)) := by
  unfold skipEscape at h
  split at h
  · cases h
  · split at h
    · cases h
    · rename_i hdigits
      cases h
      obtain ⟨w, x, y, z, hn, rfl⟩ := exists_of_hexEscape hdigits
      exact ⟨['u', w, x, y, z], rfl, fun _ hbody => .digits hn hbody⟩
  · split at h
    · rename_i he
      cases h
      exact ⟨[_], rfl, fun _ hbody => .letter he hbody⟩
    · cases h

theorem exists_of_skipTextFrom {limit s rest : List Char} {u : Unit}
    (h : skipTextFrom limit s = .ok (u, rest)) :
    ∃ body, TextShape body ∧ s = body ++ '"' :: rest := by
  fun_induction skipTextFrom limit s with
  | case1 => cases h
  | case2 =>
      cases h
      exact ⟨[], .nil, rfl⟩
  | case3 => cases h
  | case4 => cases h
  | case5 _ _ _ _ _ hescape ih =>
      obtain ⟨w, rfl, hw⟩ := exists_of_skipEscape hescape
      obtain ⟨body, hbody, rfl⟩ := ih h
      exact ⟨'\\' :: (w ++ body), hw body hbody, by rw [List.cons_append, List.append_assoc]⟩
  | case6 => cases h
  | case7 _ _ c _ hquote hbackslash hcontrol ih =>
      obtain ⟨body, hbody, rfl⟩ := ih h
      exact ⟨c :: body, .plain hquote hbackslash (Bool.eq_false_iff.mpr hcontrol) hbody, rfl⟩

theorem digits_takeWhile {c : Char} (hc : c.isDigit = true) (s : List Char) :
    Digits (c :: s.takeWhile Char.isDigit) := by
  refine ⟨List.cons_ne_nil _ _, fun d hd => ?_⟩
  rcases List.mem_cons.mp hd with rfl | hd
  · exact hc
  · exact List.mem_takeWhile_imp hd

theorem exists_of_skipDigits {s rest : List Char} {u : Unit} (h : skipDigits s = .ok (u, rest)) :
    ∃ ds, Digits ds ∧ s = ds ++ rest := by
  unfold skipDigits at h
  split at h
  · cases h
  · split at h
    · rename_i c s hc
      cases h
      exact ⟨_, digits_takeWhile hc s,
        congrArg (c :: ·) List.takeWhile_append_dropWhile.symm⟩
    · cases h

theorem exists_of_skipExponent {s rest : List Char} {u : Unit}
    (h : skipExponent s = .ok (u, rest)) : ∃ w, ExponentShape w ∧ s = w ++ rest := by
  unfold skipExponent at h
  split at h
  · split at h
    · rename_i he
      split at h
      · obtain ⟨ds, hds, rfl⟩ := exists_of_skipDigits h
        exact ⟨_, @ExponentShape.digits _ ['+'] _ he (.inr (.inl rfl)) hds, rfl⟩
      · obtain ⟨ds, hds, rfl⟩ := exists_of_skipDigits h
        exact ⟨_, @ExponentShape.digits _ ['-'] _ he (.inr (.inr rfl)) hds, rfl⟩
      · obtain ⟨ds, hds, rfl⟩ := exists_of_skipDigits h
        exact ⟨_, @ExponentShape.digits _ [] _ he (.inl rfl) hds, rfl⟩
    · cases h
      exact ⟨[], .absent, rfl⟩
  · cases h
    exact ⟨[], .absent, rfl⟩

theorem exists_of_skipFraction {s rest : List Char} {u : Unit}
    (h : skipFraction s = .ok (u, rest)) :
    ∃ fraction exponent, FractionShape fraction ∧ ExponentShape exponent ∧
      s = fraction ++ (exponent ++ rest) := by
  unfold skipFraction at h
  split at h
  · split at h
    · rename_i c s
      split at h
      · rename_i hc
        obtain ⟨exponent, hexponent, heq⟩ := exists_of_skipExponent h
        refine ⟨'.' :: c :: s.takeWhile Char.isDigit, exponent, .digits (digits_takeWhile hc s),
          hexponent, ?_⟩
        rw [← heq, List.cons_append, List.cons_append, List.takeWhile_append_dropWhile]
      · cases h
    · cases h
  · obtain ⟨exponent, hexponent, rfl⟩ := exists_of_skipExponent h
    exact ⟨[], exponent, .absent, hexponent, rfl⟩

theorem exists_of_skipUnsigned {s rest : List Char} {u : Unit}
    (h : skipUnsigned s = .ok (u, rest)) :
    ∃ whole fraction exponent, IntegerShape whole ∧ FractionShape fraction ∧
      ExponentShape exponent ∧ s = whole ++ (fraction ++ (exponent ++ rest)) := by
  have hzero : ∀ {t : List Char}, skipFraction t = .ok (u, rest) →
      ∃ whole fraction exponent, IntegerShape whole ∧ FractionShape fraction ∧
        ExponentShape exponent ∧ '0' :: t = whole ++ (fraction ++ (exponent ++ rest)) := by
    intro t ht
    obtain ⟨fraction, exponent, hfraction, hexponent, rfl⟩ := exists_of_skipFraction ht
    exact ⟨['0'], fraction, exponent, .zero, hfraction, hexponent, rfl⟩
  unfold skipUnsigned at h
  split at h
  · split at h
    · split at h
      · cases h
      · exact hzero h
    · exact hzero h
  · rename_i hne
    split at h
    · cases h
    · rename_i hdigits
      obtain ⟨ds, hds, rfl⟩ := exists_of_skipDigits hdigits
      obtain ⟨fraction, exponent, hfraction, hexponent, rfl⟩ := exists_of_skipFraction h
      obtain ⟨d, ds, rfl, -⟩ := hds.exists_cons
      exact ⟨_, fraction, exponent, .digits (fun heq => hne _ (by rw [heq]; rfl)) hds, hfraction,
        hexponent, rfl⟩

/-- A value that is taken in one step is taken by its own reader. -/
theorem eq_ok_of_match {r : Except Failure (Unit × List Char)} {start : Option Bracket}
    {rest : List Char}
    (h : (match r with
      | .error e => Except.error e
      | .ok (_, rest) => .ok (none, rest)) = Except.ok (start, rest)) :
    start = none ∧ r = .ok ((), rest) := by
  rcases r with e | ⟨_, rest'⟩
  · cases h
  · cases h
    exact ⟨rfl, rfl⟩

/-- What is taken first is a value without parts, or the opener of the bracket
that is returned. -/
theorem exists_of_skipStart {s rest : List Char} {start : Option Bracket}
    (h : skipStart s = .ok (start, rest)) :
    (start = none ∧ ∃ v, WellFormed .value v ∧ s = v ++ rest) ∨
      ∃ b, start = some b ∧ s = b.opener :: rest := by
  cases s with
  | nil => cases h
  | cons c s =>
      have hnumber : ∀ {sign t : List Char}, sign = [] ∨ sign = ['-'] →
          skipUnsigned t = .ok ((), rest) → ∃ v, WellFormed .value v ∧ sign ++ t = v ++ rest := by
        intro sign t hsign ht
        obtain ⟨whole, fraction, exponent, hwhole, hfraction, hexponent, rfl⟩ :=
          exists_of_skipUnsigned ht
        exact ⟨_, .number (.mk hsign hwhole hfraction hexponent),
          by simp only [List.append_assoc]⟩
      unfold skipStart at h
      dsimp only at h
      split_ifs at h with hn ht hf hquote hminus hdigit hsquare hcurly
      · obtain ⟨hstart, hword⟩ := eq_ok_of_match h
        exact .inl ⟨hstart, _, .null, by rw [hn, eq_append_of_word hword]; rfl⟩
      · obtain ⟨hstart, hword⟩ := eq_ok_of_match h
        exact .inl ⟨hstart, _, .boolean (b := true) rfl, by rw [ht, eq_append_of_word hword]; rfl⟩
      · obtain ⟨hstart, hword⟩ := eq_ok_of_match h
        exact .inl ⟨hstart, _, .boolean (b := false) rfl, by rw [hf, eq_append_of_word hword]; rfl⟩
      · obtain ⟨hstart, hskip⟩ := eq_ok_of_match h
        obtain ⟨body, hbody, rfl⟩ := exists_of_skipTextFrom hskip
        exact .inl ⟨hstart, _, .text hbody, by rw [hquote]; simp⟩
      · obtain ⟨hstart, hskip⟩ := eq_ok_of_match h
        exact .inl ⟨hstart, by rw [hminus]; exact hnumber (.inr rfl) hskip⟩
      · obtain ⟨hstart, hskip⟩ := eq_ok_of_match h
        exact .inl ⟨hstart, hnumber (.inl rfl) hskip⟩
      · cases h
        exact .inr ⟨.square, rfl, by rw [hsquare]; rfl⟩
      · cases h
        exact .inr ⟨.curly, rfl, by rw [hcurly]; rfl⟩

/-! ## Nesting -/

/-- A text that completes open brackets, innermost first: in each of them the
parts that are left, with its closer.  The Boolean tells whether no part came
before in the innermost one. -/
inductive Completes : Bool → List Bracket → List Char → Prop where
  | nil {first : Bool} : Completes first [] []
  | cons {first : Bool} {b : Bracket} {opened : List Bracket} {parts w : List Char} :
      WellFormed (.parts b first) parts → Completes false opened w →
      Completes first (b :: opened) (parts ++ w)

namespace Completes

variable {first : Bool} {b : Bracket} {opened : List Bracket} {w : List Char}

theorem close {ws : List Char} (hws : Blanks ws) (h : Completes false opened w) :
    Completes first (b :: opened) (ws ++ b.closer :: w) := by
  have hclosed : Completes first (b :: opened) (ws ++ [b.closer] ++ w) := .cons (.close hws) h
  rwa [List.append_assoc, List.singleton_append] at hclosed

theorem part {gap lead v : List Char} (hgap : Gap first gap) (hlead : Lead b lead)
    (hv : WellFormed .value v) (h : Completes false (b :: opened) w) :
    Completes first (b :: opened) (gap ++ (lead ++ (v ++ w))) := by
  cases h with
  | @cons _ _ _ parts w hparts hw =>
      have hcompleted := Completes.cons (.part hgap hlead hv hparts) hw
      simpa only [List.append_assoc] using hcompleted

end Completes

theorem exists_of_skipKey {s rest : List Char} {u : Unit} (h : skipKey s = .ok (u, rest)) :
    ∃ ws lead, Blanks ws ∧ (∀ ws', Blanks ws' → Lead .curly (lead ++ ws')) ∧
      s = ws ++ (lead ++ rest) := by
  unfold skipKey at h
  split at h
  · cases h
  · rename_i hquote
    split at h
    · cases h
    · rename_i hskip
      split at h
      · cases h
      · rename_i hcolon
        cases h
        obtain ⟨ws, hws, rfl⟩ := exists_of_skipBlanks hquote
        obtain ⟨body, hbody, rfl⟩ := exists_of_skipTextFrom hskip
        obtain ⟨ws', hws', rfl⟩ := exists_of_skipBlanks hcolon
        refine ⟨ws, '"' :: (body ++ '"' :: (ws' ++ [':'])), hws, fun ws'' hws'' => ?_, by simp⟩
        have hlead := Lead.key hbody hws' hws''
        simpa using hlead
      · cases h
  · cases h

theorem Blanks.append {ws ws' : List Char} (h : Blanks ws) (h' : Blanks ws') :
    Blanks (ws ++ ws') :=
  fun c hc => (List.mem_append.mp hc).elim (h c) (h' c)

theorem Gap.append_blanks {first : Bool} {gap ws : List Char} (h : Gap first gap)
    (hws : Blanks ws) : Gap first (gap ++ ws) := by
  cases h with
  | first h => exact .first (h.append hws)
  | comma h h' =>
      rw [List.append_assoc, List.cons_append]
      exact .comma h (h'.append hws)

/-- What it means for a limit that passing over takes the values that complete
the open brackets: what is taken is a value and what completes the brackets. -/
def Takes (limit : List Char) : Prop :=
  ∀ {opened : List Bracket} {s rest : List Char} {u : Unit},
    skipWithin limit opened s = .ok (u, rest) →
    ∃ ws v w, Blanks ws ∧ WellFormed .value v ∧ Completes false opened w ∧
      s = ws ++ (v ++ (w ++ rest))

theorem Takes.exists_of_proceed {limit : List Char} (h : Takes limit) {first : Bool} {b : Bracket}
    {opened : List Bracket} {gap s rest : List Char} {u : Unit} (hgap : Gap first gap)
    (hproceed : proceed limit (b :: opened, s) = .ok (u, rest)) :
    ∃ w, Completes first (b :: opened) w ∧ gap ++ s = w ++ rest := by
  cases b with
  | square =>
      obtain ⟨ws, v, w, hws, hv, hw, rfl⟩ := h hproceed
      exact ⟨_, .part (hgap.append_blanks hws) .item hv hw, by simp⟩
  | curly =>
      rw [proceed] at hproceed
      split at hproceed
      · cases hproceed
      · rename_i hkey
        obtain ⟨ws, lead, hws, hlead, rfl⟩ := exists_of_skipKey hkey
        obtain ⟨ws', v, w, hws', hv, hw, rfl⟩ := h hproceed
        exact ⟨_, .part (hgap.append_blanks hws) (hlead ws' hws') hv hw, by simp⟩

/-- Behind a value, or behind the bracket that opens one, what completes the
brackets is taken. -/
theorem Takes.exists_of_resume {limit : List Char} (h : Takes limit) :
    ∀ {opened : List Bracket} (first : Bool) {s rest : List Char} {u : Unit},
      resume limit (!first) opened s = .ok (u, rest) →
      ∃ w, Completes first opened w ∧ s = w ++ rest
  | [], first, s, rest, u, hresume => by
      cases hresume
      exact ⟨[], .nil, rfl⟩
  | b :: opened, first, s, rest, u, hresume => by
      unfold resume settle at hresume
      split at hresume
      · cases hresume
      · rename_i c s' hskip
        obtain ⟨ws, hws, rfl⟩ := exists_of_skipBlanks hskip
        have hblank := isBlank_of_skipBlanks hskip
        split_ifs at hresume with hcloser hfirst hcomma
        · obtain ⟨w, hw, rfl⟩ := h.exists_of_resume false hresume
          exact ⟨_, .close hws hw, by rw [hcloser]; simp⟩
        · have hgap : Gap first ws := by
            obtain rfl : first = true := by simpa using hfirst
            exact .first hws
          exact h.exists_of_proceed hgap hresume
        · have hgap : Gap first (ws ++ [',']) := by
            obtain rfl : first = false := by simpa using hfirst
            exact .comma hws .nil
          obtain ⟨w, hw, heq⟩ := h.exists_of_proceed hgap hresume
          exact ⟨w, hw, by rw [hcomma, ← heq]; simp⟩
        · cases hresume

theorem takes (limit : List Char) : Takes limit := by
  induction limit with
  | nil =>
      intro _ _ _ _ h
      cases h
  | cons l limit ih =>
      intro opened s rest u h
      cases hstart : skipStart (skipBlanks s) with
      | error e =>
          rw [skipWithin, hstart] at h
          cases h
      | ok taken =>
          obtain ⟨start, rest'⟩ := taken
          rw [skipWithin_of_start hstart] at h
          rcases exists_of_skipStart hstart with ⟨rfl, v, hv, heq⟩ | ⟨b, rfl, heq⟩
          · obtain ⟨c, v, rfl, -⟩ := hv.start
            obtain ⟨ws, hws, rfl⟩ := exists_of_skipBlanks heq
            obtain ⟨w, hw, rfl⟩ := ih.exists_of_resume false h
            exact ⟨ws, c :: v, w, hws, hv, hw, rfl⟩
          · obtain ⟨ws, hws, rfl⟩ := exists_of_skipBlanks heq
            obtain ⟨w, hw, rfl⟩ := ih.exists_of_resume true h
            cases hw with
            | @cons _ _ _ parts w hparts hw =>
                exact ⟨ws, b.opener :: parts, w, hws, .bracket hparts, hw, by simp⟩

/-- **What is passed over is a value**, behind blanks. -/
theorem exists_of_skipValue {s rest : List Char} {u : Unit} (h : skipValue s = .ok (u, rest)) :
    ∃ ws v, Blanks ws ∧ WellFormed .value v ∧ s = ws ++ (v ++ rest) := by
  obtain ⟨ws, v, w, hws, hv, hw, heq⟩ := takes s h
  cases hw with
  | nil => exact ⟨ws, v, hws, hv, heq⟩

end Ambient.Json
