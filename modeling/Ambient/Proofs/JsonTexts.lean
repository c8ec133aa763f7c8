import Ambient.Json.Layout
import Ambient.Json.Token
import Mathlib.Data.List.Basic

/-!
# Text literals

A character of a text literal stands for itself or is escaped: by a letter, by
four hexadecimal digits, or by the two halves of a surrogate pair.  `TextForm`
relates a text to everything that can be written for it between the quotes.

The reader gives back the text of every form (`textBody_append`), and what the
layout writes is one of the forms (`textForm_flatMap`).
-/

namespace Ambient.Json

/-! ## Forms -/

/-- What can be written for one character. -/
inductive CharForm : Char → List Char → Prop where
  | plain {c : Char} : c ≠ '"' → c ≠ '\\' → isControl c = false → CharForm c [c]
  | letter {c e : Char} : shortEscape? e = some c → CharForm c ['\\', e]
  | digits {w x y z : Char} {n : Nat} : hexValue? w x y z = some n →
      isLowSurrogate n = false → isHighSurrogate n = false →
      CharForm (Char.ofNat n) ['\\', 'u', w, x, y, z]
  | pair {w x y z w' x' y' z' : Char} {high low : Nat} : hexValue? w x y z = some high →
      hexValue? w' x' y' z' = some low → isHighSurrogate high = true →
      isLowSurrogate low = true →
      CharForm (pairChar high low) ['\\', 'u', w, x, y, z, '\\', 'u', w', x', y', z']

/-- What can be written for a text between the quotes. -/
inductive TextForm : List Char → List Char → Prop where
  | nil : TextForm [] []
  | cons {c : Char} {cs w body : List Char} : CharForm c w → TextForm cs body →
      TextForm (c :: cs) (w ++ body)

/-! ## Reading -/

theorem isLowSurrogate_eq_false {n : Nat} (h : isHighSurrogate n = true) :
    isLowSurrogate n = false := by
  have hbounds := of_decide_eq_true h
  exact decide_eq_false (by omega)

theorem hexEscape_append {w x y z : Char} {n : Nat} (h : hexValue? w x y z = some n)
    (rest : List Char) : hexEscape (w :: x :: y :: z :: rest) = .ok (n, rest) := by
  rw [hexEscape, h]

theorem unicodeEscape_digits {w x y z : Char} {n : Nat} (hn : hexValue? w x y z = some n)
    (hlow : isLowSurrogate n = false) (hhigh : isHighSurrogate n = false) (rest : List Char) :
    unicodeEscape (w :: x :: y :: z :: rest) = .ok (Char.ofNat n, rest) := by
  unfold unicodeEscape
  rw [hexEscape_append hn]
  simp only [hlow, hhigh, Bool.false_eq_true, if_false]

theorem unicodeEscape_pair {w x y z w' x' y' z' : Char} {high low : Nat}
    (hhighValue : hexValue? w x y z = some high) (hlowValue : hexValue? w' x' y' z' = some low)
    (hhigh : isHighSurrogate high = true) (hlow : isLowSurrogate low = true) (rest : List Char) :
    unicodeEscape (w :: x :: y :: z :: '\\' :: 'u' :: w' :: x' :: y' :: z' :: rest) =
      .ok (pairChar high low, rest) := by
  unfold unicodeEscape
  rw [hexEscape_append hhighValue]
  simp only [isLowSurrogate_eq_false hhigh, hhigh, Bool.false_eq_true, if_false, if_true]
  rw [lowEscape, hexEscape_append hlowValue]
  simp only [hlow, if_true]

theorem ne_u_of_shortEscape? {e c : Char} (h : shortEscape? e = some c) : e ≠ 'u' := by
  rintro rfl
  have hnone : shortEscape? 'u' = none := rfl
  rw [hnone] at h
  exact nomatch h

theorem escape_append {c : Char} {w : List Char} (h : CharForm c ('\\' :: w)) (rest : List Char) :
    escape (w ++ rest) = .ok (c, rest) := by
  generalize hw : '\\' :: w = full at h
  cases h with
  | plain _ hbackslash =>
      exact absurd (List.cons_eq_cons.mp hw).1.symm hbackslash
  | @letter _ e he =>
      obtain rfl : w = [e] := (List.cons_eq_cons.mp hw).2
      rw [List.singleton_append, escape]
      · rw [he]
      · exact ne_u_of_shortEscape? he
  | digits hn hlow hhigh =>
      obtain rfl := (List.cons_eq_cons.mp hw).2
      exact unicodeEscape_digits hn hlow hhigh rest
  | pair hhighValue hlowValue hhigh hlow =>
      obtain rfl := (List.cons_eq_cons.mp hw).2
      exact unicodeEscape_pair hhighValue hlowValue hhigh hlow rest

/-- A written character costs one step, whatever its form. -/
theorem textFrom_char {c : Char} {w : List Char} (h : CharForm c w) (seen : List Char) (l : Char)
    (limit rest : List Char) :
    textFrom seen (l :: limit) (w ++ rest) = textFrom (c :: seen) limit rest := by
  have hescape : ∀ v, w = '\\' :: v →
      textFrom seen (l :: limit) (w ++ rest) = textFrom (c :: seen) limit rest := by
    rintro v rfl
    rw [List.cons_append, textFrom, escape_append h]
  cases h with
  | plain hquote hbackslash hcontrol =>
      rw [List.singleton_append, textFrom]
      · rw [hcontrol, if_neg Bool.false_ne_true]
      · exact hquote
      · exact hbackslash
  | letter => exact hescape _ rfl
  | digits => exact hescape _ rfl
  | pair => exact hescape _ rfl

theorem CharForm.length_pos {c : Char} {w : List Char} (h : CharForm c w) : 0 < w.length := by
  cases h <;> simp

/-- A limit longer than what is still to be read has a step for the part in front. -/
theorem exists_limit_step {n : Nat} {limit : List Char} (h : n < limit.length) :
    ∃ l limit', limit = l :: limit' ∧ n ≤ limit'.length := by
  cases limit with
  | nil => exact absurd h (Nat.not_lt_zero n)
  | cons l limit' => exact ⟨l, limit', rfl, Nat.lt_succ_iff.mp h⟩

/-- Every form of a text is read as that text. -/
theorem textFrom_append {cs body : List Char} (h : TextForm cs body) :
    ∀ (seen limit rest : List Char), body.length ≤ limit.length →
      textFrom seen limit (body ++ '"' :: rest) = .ok (seen.reverse ++ cs, rest) := by
  induction h with
  | nil =>
      intro seen limit rest _
      rw [List.nil_append, textFrom, List.append_nil]
  | @cons c cs w body hc _ ih =>
      intro seen limit rest hlimit
      have hpos := hc.length_pos
      have hstep : body.length < limit.length := by
        rw [List.length_append] at hlimit
        omega
      obtain ⟨l, limit, rfl, hshorter⟩ := exists_limit_step hstep
      rw [List.append_assoc, textFrom_char hc, ih _ _ _ hshorter, List.reverse_cons,
        List.append_assoc, List.singleton_append]

theorem textBody_append {cs body : List Char} (h : TextForm cs body) (rest : List Char) :
    textBody (body ++ '"' :: rest) = .ok (cs, rest) := by
  have hlimit : body.length ≤ (body ++ '"' :: rest).length := by
    rw [List.length_append]
    omega
  exact textFrom_append h [] _ rest hlimit

/-! ## Writing -/

theorem hexValue?_digitChar {n : Nat} (h : n < 0x20) :
    hexValue? '0' '0' (Nat.digitChar (n / 16)) (Nat.digitChar (n % 16)) = some n := by
  have hall : ∀ n < 0x20,
      hexValue? '0' '0' (Nat.digitChar (n / 16)) (Nat.digitChar (n % 16)) = some n := by decide
  exact hall n h

theorem charForm_escapedChar (c : Char) : CharForm c (escapedChar c) := by
  unfold escapedChar
  split_ifs with hquote hbackslash hbackspace hformFeed hlineFeed hreturn htab hcontrol
  · exact .letter (by rw [hquote]; rfl)
  · exact .letter (by rw [hbackslash]; rfl)
  · exact .letter (by rw [hbackspace]; rfl)
  · exact .letter (by rw [hformFeed]; rfl)
  · exact .letter (by rw [hlineFeed]; rfl)
  · exact .letter (by rw [hreturn]; rfl)
  · exact .letter (by rw [htab]; rfl)
  · have hform := CharForm.digits (hexValue?_digitChar hcontrol) (decide_eq_false (by omega))
      (decide_eq_false (by omega))
    rwa [Char.ofNat_toNat] at hform
  · exact .plain hquote hbackslash (decide_eq_false hcontrol)

theorem textForm_flatMap (cs : List Char) : TextForm cs (cs.flatMap escapedChar) := by
  induction cs with
  | nil => exact .nil
  | cons c cs ih => exact .cons (charForm_escapedChar c) ih

end Ambient.Json
