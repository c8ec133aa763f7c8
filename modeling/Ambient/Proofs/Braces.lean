import Ambient.Proofs.NormalForm
import Ambient.Proofs.PatchMarks
import Ambient.Proofs.QualifiedTypes

/-!
# Braces

`Leads n cs m` says that a text that begins inside `n` open braces ends inside
`m`, and closes no brace on the way that is not open.  Texts are put together by
`Leads.append`, so what is left to know of a piece is which braces it has itself:
none (`leads_of_braceFree`), one at its end that opens (`leads_opening`) or one
that closes (`leads_closing`).

Only braces count: two texts with the same braces in the same order lead to the
same depth (`Leads.congr`), and so neither indentation nor finishing matters.
-/

namespace Ambient

open Text

/-! ## Depth -/

def isBrace (c : Char) : Bool :=
  c == '\x7b' || c == '\x7d'

theorem isBrace_eq_false {p : Char → Bool} (hopen : p '\x7b' = false) (hclose : p '\x7d' = false)
    {c : Char} (h : p c = true) : isBrace c = false := by
  rw [Bool.eq_false_iff]
  intro hbrace
  rcases (Bool.or_eq_true _ _).mp hbrace with heq | heq
  · rw [eq_of_beq heq, hopen] at h
    exact Bool.noConfusion h
  · rw [eq_of_beq heq, hclose] at h
    exact Bool.noConfusion h

/-- A text that begins inside `n` open braces ends inside `m`, and nowhere are
more braces closed than open. -/
structure Leads (n : Nat) (cs : List Char) (m : Nat) : Prop where
  inside : ∀ p, p <+: cs → p.count '\x7d' ≤ n + p.count '\x7b'
  total : n + cs.count '\x7b' = m + cs.count '\x7d'

/-- A text in which every brace that is closed is open, and every brace that is
opened is closed. -/
structure WellNested (cs : List Char) : Prop where
  inside : ∀ p, p <+: cs → p.count '\x7d' ≤ p.count '\x7b'
  total : cs.count '\x7d' = cs.count '\x7b'

namespace Leads

variable {n m k : Nat} {as bs : List Char}

theorem nil (n : Nat) : Leads n [] n where
  inside := by
    intro p hp
    obtain rfl := List.prefix_nil.mp hp
    exact Nat.zero_le _
  total := rfl

theorem append (ha : Leads n as m) (hb : Leads m bs k) : Leads n (as ++ bs) k where
  inside := by
    intro p hp
    rcases List.prefix_or_prefix_of_prefix hp (List.prefix_append as bs) with hp' | ⟨q, rfl⟩
    · exact ha.inside p hp'
    · have hq := hb.inside q ((List.prefix_append_right_inj as).mp hp)
      have htotal := ha.total
      rw [List.count_append, List.count_append]
      omega
  total := by
    have hta := ha.total
    have htb := hb.total
    rw [List.count_append, List.count_append]
    omega

theorem flatMap {α : Type} {f : α → List Char} {l : List α} (h : ∀ a ∈ l, Leads n (f a) n) :
    Leads n (l.flatMap f) n := by
  induction l with
  | nil => exact .nil n
  | cons a l ih =>
      rw [List.flatMap_cons]
      exact (h a List.mem_cons_self).append (ih fun b hb => h b (List.mem_cons_of_mem a hb))

theorem count_filter_isBrace (cs : List Char) {c : Char} (hc : isBrace c = true) :
    (cs.filter isBrace).count c = cs.count c :=
  List.count_filter hc

/-- Only the braces of a text decide where it leads. -/
theorem congr (h : Leads n as m) (hab : bs.filter isBrace = as.filter isBrace) : Leads n bs m where
  inside := by
    rintro p ⟨q, rfl⟩
    rw [List.filter_append] at hab
    obtain ⟨p', q', rfl, hp', -⟩ := List.filter_eq_append_iff.mp hab.symm
    have hinside := h.inside p' (List.prefix_append p' q')
    rwa [← count_filter_isBrace p' rfl, ← count_filter_isBrace p' rfl, hp',
      count_filter_isBrace p rfl, count_filter_isBrace p rfl] at hinside
  total := by
    have htotal := h.total
    rwa [← count_filter_isBrace as rfl, ← count_filter_isBrace as rfl, ← hab,
      count_filter_isBrace bs rfl, count_filter_isBrace bs rfl] at htotal

theorem wellNested (h : Leads 0 as 0) : WellNested as where
  inside := fun p hp => by simpa using h.inside p hp
  total := by simpa using h.total.symm

end Leads

/-! ## Texts without braces -/

def BraceFree (cs : List Char) : Prop :=
  ∀ c ∈ cs, isBrace c = false

instance (cs : List Char) : Decidable (BraceFree cs) :=
  List.decidableBAll (fun c => isBrace c = false) cs

namespace BraceFree

variable {as bs : List Char}

theorem mono (h : BraceFree as) (hsub : bs ⊆ as) : BraceFree bs :=
  fun c hc => h c (hsub hc)

theorem append (ha : BraceFree as) (hb : BraceFree bs) : BraceFree (as ++ bs) :=
  fun c hc => (List.mem_append.mp hc).elim (ha c) (hb c)

theorem count_eq_zero (h : BraceFree as) {c : Char} (hc : isBrace c = true) : as.count c = 0 :=
  List.count_eq_zero.mpr fun hmem => by
    rw [h c hmem] at hc
    exact Bool.noConfusion hc

end BraceFree

theorem leads_of_braceFree {cs : List Char} (h : BraceFree cs) (n : Nat) : Leads n cs n where
  inside := fun p hp => by
    rw [(h.mono hp.subset).count_eq_zero rfl]
    exact Nat.zero_le _
  total := by rw [h.count_eq_zero rfl, h.count_eq_zero rfl]

theorem leads_opening {cs : List Char} (h : BraceFree cs) (n : Nat) :
    Leads n (cs ++ ['\x7b']) (n + 1) := by
  refine (leads_of_braceFree h n).append ⟨fun p hp => ?_, rfl⟩
  have hnone : ['\x7b'].count '\x7d' = 0 := rfl
  exact ((hp.sublist.count_le _).trans hnone.le).trans (Nat.zero_le _)

theorem leads_closing {cs : List Char} (h : BraceFree cs) (n : Nat) :
    Leads (n + 1) (cs ++ ['\x7d']) n := by
  refine (leads_of_braceFree h (n + 1)).append ⟨fun p hp => ?_, rfl⟩
  have hone : ['\x7d'].count '\x7d' = 1 := rfl
  exact ((hp.sublist.count_le _).trans hone.le).trans (by omega)

end Ambient
