import Ambient.Header
import Ambient.Proofs.WrittenDates
import Mathlib.Data.List.Infix

/-!
# Templates with a token filled in

Filling a date into a template replaces the first date token and leaves what is
around it (`fillDate_fills_one_token`).

That a token is gone and no other one came up is told by the number of places at
which the token stands (`occurrences`).  A token can only stand across a seam if
one of its characters behind the first one stands at the seam.  The opening
brace stands nowhere else in the token, so a text can be cut in front of a token
without losing one; and nothing of a date stands in it, so neither seam of a
date can complete one.
-/

namespace Ambient

/-! ## Where a token stands -/

/-- The number of places of a text at which a token begins. -/
def occurrences (token s : List Char) : Nat :=
  s.tails.countP (token.isPrefixOf ·)

section Occurrences

variable {token p q t : List Char} {b c : Char}

theorem occurrences_nil (b : Char) (token : List Char) : occurrences (b :: token) [] = 0 := rfl

theorem occurrences_cons (token : List Char) (c : Char) (s : List Char) :
    occurrences token (c :: s) = occurrences token s + if token <+: c :: s then 1 else 0 := by
  unfold occurrences
  rw [List.tails_cons, List.countP_cons]
  simp only [ List.isPrefixOf_iff_prefix]

theorem occurrences_append_of_notMem (h : b ∉ t) (q : List Char) :
    occurrences (b :: token) (t ++ q) = occurrences (b :: token) q := by
  induction t with
  | nil => rfl
  | cons c t ih =>
      obtain ⟨hne, ht⟩ : b ≠ c ∧ b ∉ t := by simpa using h
      rw [List.cons_append, occurrences_cons, ih ht, if_neg, Nat.add_zero]
      exact fun hbegins => hne (List.cons_prefix_cons.mp hbegins).1

/-- A text that begins across a character that is not in it ends before it. -/
theorem prefix_append_cons_iff (h : c ∉ t) : t <+: p ++ c :: q ↔ t <+: p := by
  refine ⟨fun hbegins => ?_, fun hbegins => hbegins.trans (List.prefix_append p _)⟩
  rcases Nat.lt_or_ge p.length t.length with hlong | hshort
  · have hover : p ++ [c] <+: p ++ c :: q := ⟨q, by simp⟩
    have hinside : p ++ [c] <+: t :=
      List.prefix_of_prefix_length_le hover hbegins (by simp; omega)
    exact absurd (hinside.subset (by simp)) h
  · exact List.prefix_of_prefix_length_le hbegins (List.prefix_append p _) hshort

/-- A text can be cut in front of a character that may only begin the token. -/
theorem occurrences_append_cons (h : c ∉ token) (p q : List Char) :
    occurrences (b :: token) (p ++ c :: q) =
      occurrences (b :: token) p + occurrences (b :: token) (c :: q) := by
  induction p with
  | nil => rw [List.nil_append, occurrences_nil, Nat.zero_add]
  | cons a p ih =>
      have hsame : b :: token <+: a :: (p ++ c :: q) ↔ b :: token <+: a :: p := by
        rw [List.cons_prefix_cons, List.cons_prefix_cons, prefix_append_cons_iff h]
      rw [List.cons_append, occurrences_cons, ih, occurrences_cons (b :: token) a p]
      simp only [hsame]
      omega

theorem occurrences_token_append (h : b ∉ token) (q : List Char) :
    occurrences (b :: token) (b :: token ++ q) = occurrences (b :: token) q + 1 := by
  have hstart : b :: token <+: b :: (token ++ q) := List.prefix_append (b :: token) q
  rw [List.cons_append, occurrences_cons, occurrences_append_of_notMem h, if_pos hstart]

end Occurrences

/-! ## The first place -/

section FirstPlace

variable {token p s : List Char} {b : Char}

theorem exists_first_place (h : token <:+: s) (hne : token ≠ []) :
    ∃ p q, s = p ++ (token ++ q) ∧ ¬ token <:+: p := by
  induction s with
  | nil => exact absurd (List.infix_nil.mp h) hne
  | cons c s ih =>
      by_cases hbegins : token <+: c :: s
      · obtain ⟨q, hq⟩ := hbegins
        exact ⟨[], q, hq.symm, fun hempty => hne (List.infix_nil.mp hempty)⟩
      · obtain ⟨p, q, rfl, hp⟩ := ih ((List.infix_cons_iff.mp h).resolve_left hbegins)
        refine ⟨c :: p, q, rfl, fun hinfix => ?_⟩
        rcases List.infix_cons_iff.mp hinfix with hstart | hlater
        · exact hbegins (hstart.trans (List.prefix_append (c :: p) _))
        · exact hp hlater

theorem replaceFirst_of_not_infix (h : ¬ token <:+: s) (replacement : List Char) :
    replaceFirst token replacement s = s := by
  induction s with
  | nil => rfl
  | cons c s ih =>
      obtain ⟨hbegins, hinfix⟩ := not_or.mp (mt List.infix_cons_iff.mpr h)
      have hno : token.isPrefixOf (c :: s) = false := by
        simpa [← List.isPrefixOf_iff_prefix] using hbegins
      rw [replaceFirst, hno, ih hinfix]
      rfl

theorem replaceFirst_append (hb : b ∉ token) (hp : ¬ b :: token <:+: p)
    (replacement q : List Char) :
    replaceFirst (b :: token) replacement (p ++ (b :: token ++ q)) = p ++ (replacement ++ q) := by
  induction p with
  | nil =>
      have hyes : (b :: token).isPrefixOf (b :: (token ++ q)) = true :=
        List.isPrefixOf_iff_prefix.mpr (List.prefix_append (b :: token) q)
      rw [List.nil_append, List.cons_append, replaceFirst, if_pos hyes, ← List.cons_append,
        List.drop_left, List.nil_append]
  | cons c p ih =>
      obtain ⟨hbegins, hinfix⟩ := not_or.mp (mt List.infix_cons_iff.mpr hp)
      have hno : ¬ (b :: token).isPrefixOf (c :: (p ++ (b :: token ++ q))) = true := by
        rw [ List.isPrefixOf_iff_prefix, List.cons_prefix_cons, List.cons_append,
          prefix_append_cons_iff hb, ← List.cons_prefix_cons]
        exact hbegins
      rw [List.cons_append, replaceFirst, if_neg hno, ih hinfix]
      rfl

end FirstPlace

/-! ## Dates in a template -/

section Dates

variable {template : String} {d d' : Date} {p q : List Char}

theorem notMem_dateToken {c : Char} (h : c ∈ d.text) : c ∉ dateToken := by
  have htoken : ∀ c ∈ dateToken, ¬ (c.isDigit = true ∨ c = '-' ∨ c = '+') := by
    simp [dateToken, Char.isDigit]
  exact fun hmem => htoken c hmem (Date.digit_or_sign_of_mem_text h)

theorem Date.text_ne_nil (d : Date) : d.text ≠ [] := by
  simp [Date.text]

theorem fillDate_eq (htemplate : template.toList = p ++ (dateToken ++ q))
    (hp : ¬ dateToken <:+: p) (d : Date) :
    (fillDate template d).toList = p ++ (d.text ++ q) := by
  rw [fillDate, String.toList_ofList, htemplate]
  exact replaceFirst_append (by decide) hp _ _

theorem fillDate_of_not_infix (h : ¬ dateToken <:+: template.toList) (d : Date) :
    fillDate template d = template := by
  rw [fillDate, replaceFirst_of_not_infix h, String.ofList_toList]

/-- A token between two texts counts, also if they look like the beginning or
the end of one. -/
theorem occurrences_dateToken (p q : List Char) :
    occurrences dateToken (p ++ (dateToken ++ q)) =
      occurrences dateToken p + occurrences dateToken q + 1 := by
  have hcut : occurrences dateToken (p ++ (dateToken ++ q)) =
      occurrences dateToken p + occurrences dateToken (dateToken ++ q) :=
    occurrences_append_cons (by decide) p _
  have htoken : occurrences dateToken (dateToken ++ q) = occurrences dateToken q + 1 :=
    occurrences_token_append (by decide) q
  omega

/-- A date between two texts completes no token. -/
theorem occurrences_text (d : Date) (p q : List Char) :
    occurrences dateToken (p ++ (d.text ++ q)) =
      occurrences dateToken p + occurrences dateToken q := by
  obtain ⟨c, rest, htext⟩ := List.exists_cons_of_ne_nil d.text_ne_nil
  -- In front of the date the text can be cut, and the date itself begins no token.
  have hcut : occurrences dateToken (p ++ (d.text ++ q)) =
      occurrences dateToken p + occurrences dateToken (d.text ++ q) := by
    have hfirst := notMem_dateToken (d := d) (c := c) (by simp [htext])
    rw [htext]
    exact occurrences_append_cons (List.not_mem_of_not_mem_cons hfirst) p _
  have hdate : occurrences dateToken (d.text ++ q) = occurrences dateToken q :=
    occurrences_append_of_notMem (fun hbrace => notMem_dateToken hbrace (by decide)) q
  rw [hcut, hdate]

theorem fillDate_inj (h : dateToken <:+: template.toList)
    (heq : fillDate template d = fillDate template d') : d = d' := by
  obtain ⟨p, q, htemplate, hp⟩ := exists_first_place h (by decide)
  have htext : p ++ (d.text ++ q) = p ++ (d'.text ++ q) := by
    rw [← fillDate_eq htemplate hp d, heq, fillDate_eq htemplate hp d']
  have hwritten : d.written = d'.written := by
    rw [Date.written, List.append_cancel_right (List.append_cancel_left htext), Date.written]
  have hread := Date.ofText?_written d
  rw [hwritten, Date.ofText?_written d'] at hread
  exact (Option.some.inj hread).symm

end Dates

/-- **One token is filled in.**  A template with a date token keeps what is in
front of the first one and what is behind it, and has one token fewer; a
template without stays as it is. -/
theorem fillDate_fills_one_token (template : String) (d : Date) :
    (dateToken <:+: template.toList →
      (∃ p q, template.toList = p ++ dateToken ++ q ∧ ¬ dateToken <:+: p ∧
        (fillDate template d).toList = p ++ d.text ++ q) ∧
      occurrences dateToken (fillDate template d).toList + 1 =
        occurrences dateToken template.toList) ∧
    (¬ dateToken <:+: template.toList → fillDate template d = template) := by
  refine ⟨fun htoken => ?_, fun hno => fillDate_of_not_infix hno d⟩
  obtain ⟨p, q, htemplate, hp⟩ := exists_first_place htoken (by decide)
  have hfilled := fillDate_eq htemplate hp d
  refine ⟨⟨p, q, by rw [htemplate, List.append_assoc], hp, by rw [hfilled, List.append_assoc]⟩, ?_⟩
  rw [htemplate, hfilled, occurrences_dateToken, occurrences_text]

/-- Look-alikes around a token are kept, and so is a second token; without a
token nothing changes. -/
theorem fillDate_fills_one_token_nested :
    (∃ p q, "\x7b\x7bdate\x7d \x7bda\x7bdate\x7dte\x7d".toList = p ++ dateToken ++ q ∧
      ¬ dateToken <:+: p ∧
      (fillDate "\x7b\x7bdate\x7d \x7bda\x7bdate\x7dte\x7d" ⟨2024, 2, 29, by decide⟩).toList =
        p ++ "2024-02-29".toList ++ q) ∧
    occurrences dateToken "\x7b2024-02-29 \x7bda\x7bdate\x7dte\x7d".toList + 1 =
      occurrences dateToken "\x7b\x7bdate\x7d \x7bda\x7bdate\x7dte\x7d".toList ∧
    fillDate "\x7bda te\x7d" ⟨2024, 2, 29, by decide⟩ = "\x7bda te\x7d" := by
  have hnested := (fillDate_fills_one_token "\x7b\x7bdate\x7d \x7bda\x7bdate\x7dte\x7d"
    ⟨2024, 2, 29, by decide⟩).1 (by decide)
  exact ⟨hnested.1, hnested.2,
    (fillDate_fills_one_token "\x7bda te\x7d" ⟨2024, 2, 29, by decide⟩).2 (by decide)⟩

/-- **Dates round-trip through a header.**  What stands in place of the token is
read as the date that was filled in.  So a text that is read as a date, in
whatever spelling, stands for a day that exists; the text that is filled in for
it is read as that day again, and is filled in for itself; and two texts give
the same header exactly if they stand for the same day. -/
theorem fillDate_round_trip :
    (∀ (d : Date) (p q : List Char), ¬ dateToken <:+: p →
      (fillDate (String.ofList (p ++ dateToken ++ q)) d).toList = p ++ d.written.toList ++ q ∧
      Date.ofText? d.written = some d) ∧
    (∀ (text : String) (d : Date), Date.ofText? text = some d →
      IsDay d.year d.month d.day ∧ Date.ofText? d.written = some d ∧
      fillDate (String.ofList dateToken) d = d.written) ∧
    (∀ (template text text' : String) (d d' : Date), dateToken <:+: template.toList →
      Date.ofText? text = some d → Date.ofText? text' = some d' →
      (fillDate template d = fillDate template d' ↔ d = d')) := by
  have hbetween : ∀ (d : Date) (p q : List Char), ¬ dateToken <:+: p →
      (fillDate (String.ofList (p ++ dateToken ++ q)) d).toList = p ++ d.written.toList ++ q := by
    intro d p q hp
    have htemplate : (String.ofList (p ++ dateToken ++ q)).toList = p ++ (dateToken ++ q) := by
      rw [String.toList_ofList, List.append_assoc]
    rw [fillDate_eq htemplate hp, Date.written, String.toList_ofList, List.append_assoc]
  refine ⟨fun d p q hp => ⟨hbetween d p q hp, d.ofText?_written⟩,
    fun _ d _ => ⟨d.isDay, d.ofText?_written, ?_⟩,
    fun template _ _ d d' htoken _ _ => ⟨fillDate_inj htoken, fun h => by rw [h]⟩⟩
  apply String.toList_injective
  simpa using hbetween d [] [] (by decide)

/-- Spaces, a sign and other counts of digits make no difference to a header. -/
theorem fillDate_round_trip_spelled :
    Date.ofText? " +02024-2- 29" = some ⟨2024, 2, 29, by decide⟩ ∧
    IsDay 2024 2 29 ∧
    Date.ofText? "2024-02-29" = some ⟨2024, 2, 29, by decide⟩ ∧
    (fillDate "// \x7bdate\x7d" ⟨2024, 2, 29, by decide⟩ =
      fillDate "// \x7bdate\x7d" ⟨-44, 3, 15, by decide⟩ ↔
        (⟨2024, 2, 29, by decide⟩ : Date) = ⟨-44, 3, 15, by decide⟩) := by
  have hspelled : Date.ofText? " +02024-2- 29" = some ⟨2024, 2, 29, by decide⟩ := by decide
  have hyear : Date.ofText? "-044-3-15" = some ⟨-44, 3, 15, by decide⟩ := by decide
  obtain ⟨-, hread, hheaders⟩ := fillDate_round_trip
  obtain ⟨hday, hagain, -⟩ := hread _ _ hspelled
  exact ⟨hspelled, hday, hagain, hheaders _ _ _ _ _ (by decide) hspelled hyear⟩

end Ambient
