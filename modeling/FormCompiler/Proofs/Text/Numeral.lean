import FormCompiler.Text.Blank
import FormCompiler.Text.Numeral
import Mathlib.Data.List.DropRight

namespace FormCompiler.Text

def Blank (s : String) : Prop := ∀ c ∈ s.toList, isBlank c = true

instance (s : String) : Decidable (Blank s) :=
  List.decidableBAll (fun c => isBlank c = true) s.toList

theorem dropWhile_isBlank_eq_self {cs : List Char} (h : ∀ c ∈ cs, isBlank c = false) :
    cs.dropWhile isBlank = cs := by
  cases cs with
  | nil => rfl
  | cons c cs => rw [List.dropWhile_cons_of_neg (by simp [h c List.mem_cons_self])]

theorem trim_append {before core after : List Char} (hbefore : ∀ c ∈ before, isBlank c = true)
    (hcore : ∀ c ∈ core, isBlank c = false) (hafter : ∀ c ∈ after, isBlank c = true) :
    trim (before ++ core ++ after) = core := by
  have hafter' : ∀ c ∈ after.reverse, isBlank c = true := by simpa using hafter
  have hcore' : ∀ c ∈ core.reverse, isBlank c = false := by simpa using hcore
  rw [trim, List.append_assoc, List.dropWhile_append_of_pos hbefore, List.dropWhile_append,
    dropWhile_isBlank_eq_self hcore]
  split
  case isTrue hempty =>
    rw [List.isEmpty_iff.mp hempty, List.dropWhile_eq_nil_iff.mpr hafter]
    rfl
  case isFalse =>
    rw [List.reverse_append, List.dropWhile_append_of_pos hafter',
      dropWhile_isBlank_eq_self hcore', List.reverse_reverse]

theorem exists_trim (cs : List Char) : ∃ before after, (∀ c ∈ before, isBlank c = true) ∧
    (∀ c ∈ after, isBlank c = true) ∧ cs = before ++ trim cs ++ after := by
  refine ⟨cs.takeWhile isBlank, (cs.dropWhile isBlank).rtakeWhile isBlank, ?_, ?_, ?_⟩
  · exact fun c => List.mem_takeWhile_imp
  · exact fun c => List.mem_rtakeWhile_imp
  · have htrim : trim cs = (cs.dropWhile isBlank).rdropWhile isBlank := rfl
    rw [htrim, List.append_assoc, List.rdropWhile_append_rtakeWhile,
      List.takeWhile_append_dropWhile]

theorem mem_trim {cs : List Char} {c : Char} (hc : isBlank c = false) (h : c ∈ cs) :
    c ∈ trim cs := by
  obtain ⟨before, after, hbefore, hafter, hcs⟩ := exists_trim cs
  rw [hcs, List.mem_append, List.mem_append] at h
  rcases h with (h | h) | h
  · rw [hbefore c h] at hc
    cases hc
  · exact h
  · rw [hafter c h] at hc
    cases hc

structure Digits (cs : List Char) (n : Nat) : Prop where
  ne_nil : cs ≠ []
  isDigit : ∀ c ∈ cs, c.isDigit = true
  value : Nat.ofDigitChars 10 cs 0 = n

inductive Numeral : List Char → Nat → Prop
  | plain {cs : List Char} {n : Nat} : Digits cs n → Numeral cs n
  | signed {cs : List Char} {n : Nat} : Digits cs n → Numeral ('+' :: cs) n

theorem digitValue?_eq (c : Char) :
    digitValue? c = if c.isDigit then some (c.toNat - '0'.toNat) else none := by
  have hdigit : c.isDigit = true ↔ '0' ≤ c ∧ c ≤ '9' := by
    simp only [Char.isDigit, Bool.and_eq_true, decide_eq_true_eq, ge_iff_le, Char.le_def]
  simp only [digitValue?, hdigit]

theorem isDigit_eq (c : Char) : isDigit c = c.isDigit := by
  rw [isDigit, digitValue?_eq]
  cases c.isDigit <;> rfl

theorem digitsFrom_eq_some_iff (acc : Nat) (cs : List Char) (n : Nat) :
    digitsFrom acc cs = some n ↔
      (∀ c ∈ cs, c.isDigit = true) ∧ Nat.ofDigitChars 10 cs acc = n := by
  induction cs generalizing acc with
  | nil => simp [digitsFrom]
  | cons c cs ih =>
    rw [digitsFrom, digitValue?_eq, List.forall_mem_cons, Nat.ofDigitChars_cons]
    by_cases hc : c.isDigit = true
    · simp only [hc, if_true, ih, true_and, Nat.mul_comm acc]
    · simp [hc]

theorem digits?_eq_some_iff (cs : List Char) (n : Nat) : digits? cs = some n ↔ Digits cs n := by
  rw [digits?, Option.ite_none_left_eq_some, List.isEmpty_iff, digitsFrom_eq_some_iff]
  exact ⟨fun ⟨hne, hdigit, hvalue⟩ => ⟨hne, hdigit, hvalue⟩,
    fun ⟨hne, hdigit, hvalue⟩ => ⟨hne, hdigit, hvalue⟩⟩

theorem unsigned_of_digits {cs : List Char} {n : Nat} (h : Digits cs n) : unsigned cs = cs := by
  unfold unsigned
  split
  case h_1 rest => exact absurd (h.isDigit '+' List.mem_cons_self) (by decide)
  case h_2 => rfl

theorem digits_unsigned_iff (cs : List Char) (n : Nat) :
    Digits (unsigned cs) n ↔ Numeral cs n := by
  constructor
  · intro h
    unfold unsigned at h
    split at h
    · exact .signed h
    · exact .plain h
  · rintro (h | h)
    · rwa [unsigned_of_digits h]
    · exact h

theorem numeral?_eq_some_iff (cs : List Char) (n : Nat) :
    numeral? cs = some n ↔ Numeral cs n ∧ n < Nat.pow 2 64 := by
  rw [numeral?, Option.filter_eq_some_iff, digits?_eq_some_iff, digits_unsigned_iff,
    decide_eq_true_eq]

theorem Numeral.eq_plus_or_isDigit {cs : List Char} {n : Nat} (h : Numeral cs n) :
    ∀ c ∈ cs, c = '+' ∨ c.isDigit = true := by
  intro c hc
  rcases h with h | h
  · exact .inr (h.isDigit c hc)
  · exact (List.mem_cons.mp hc).imp_right (h.isDigit c)

theorem not_numeral_trim {cs : List Char} {c : Char} (hc : c ∈ cs) (hblank : isBlank c = false)
    (hplus : c ≠ '+') (hdigit : c.isDigit = false) (n : Nat) : ¬ Numeral (trim cs) n := by
  intro h
  rcases h.eq_plus_or_isDigit c (mem_trim hblank hc) with he | he
  · exact hplus he
  · rw [hdigit] at he
    cases he

theorem isBlank_of_isDigit {c : Char} (h : c.isDigit = true) : isBlank c = false := by
  have hrange : 48 ≤ c.toNat ∧ c.toNat ≤ 57 := Char.isDigit_iff_toNat.mp h
  simp only [isBlank, Bool.or_eq_false_iff, Bool.and_eq_false_imp, beq_eq_false_iff_ne,
    decide_eq_true_eq, decide_eq_false_iff_not]
  omega

theorem Numeral.isBlank_eq_false {cs : List Char} {n : Nat} (h : Numeral cs n) :
    ∀ c ∈ cs, isBlank c = false := by
  intro c hc
  rcases h.eq_plus_or_isDigit c hc with rfl | hdigit
  · decide
  · exact isBlank_of_isDigit hdigit

theorem numeral_trim_iff (s : String) (n : Nat) : Numeral (trim s.toList) n ↔
    ∃ before core after : String, Blank before ∧ Blank after ∧ s = before ++ core ++ after ∧
      Numeral core.toList n := by
  constructor
  · intro h
    obtain ⟨before, after, hbefore, hafter, hs⟩ := exists_trim s.toList
    refine ⟨String.ofList before, String.ofList (trim s.toList), String.ofList after, ?_, ?_, ?_,
      ?_⟩
    · simpa [Blank] using hbefore
    · simpa [Blank] using hafter
    · rw [← String.toList_inj]
      simpa using hs
    · simpa using h
  · rintro ⟨before, core, after, hbefore, hafter, rfl, h⟩
    rw [String.toList_append, String.toList_append,
      trim_append hbefore h.isBlank_eq_false hafter]
    exact h

theorem le_ofDigitChars (cs : List Char) (acc : Nat) : acc ≤ Nat.ofDigitChars 10 cs acc := by
  rw [Nat.ofDigitChars_eq_ofDigitChars_zero]
  exact Nat.le_add_right_of_le (Nat.le_mul_of_pos_left acc (Nat.pow_pos (by decide)))

theorem ofDigitChars_eq_zero_iff {cs : List Char} (h : ∀ c ∈ cs, c.isDigit = true) :
    Nat.ofDigitChars 10 cs 0 = 0 ↔ ∀ c ∈ cs, c = '0' := by
  constructor
  · intro hzero
    induction cs with
    | nil => exact List.forall_mem_nil _
    | cons c cs ih =>
      rw [List.forall_mem_cons] at h ⊢
      rw [Nat.ofDigitChars_cons] at hzero
      have hle := le_ofDigitChars cs (10 * 0 + (c.toNat - '0'.toNat))
      rw [hzero, Nat.mul_zero, Nat.zero_add, Nat.le_zero] at hle
      rw [hle] at hzero
      have hc : c.toNat = '0'.toNat :=
        Nat.le_antisymm (Nat.sub_eq_zero_iff_le.mp hle) (Char.isDigit_iff_toNat.mp h.1).1
      exact ⟨Char.toNat_inj.mp hc, ih h.2 hzero⟩
  · intro hall
    rw [List.eq_replicate_of_mem hall, Nat.ofDigitChars_replicate_zero, Nat.mul_zero]

theorem digits_zero_iff (cs : List Char) :
    Digits cs 0 ↔ ∃ n, cs = List.replicate (n + 1) '0' := by
  constructor
  · intro h
    have hall := (ofDigitChars_eq_zero_iff h.isDigit).mp h.value
    refine ⟨cs.length - 1, ?_⟩
    rw [Nat.sub_add_cancel (List.length_pos_iff.mpr h.ne_nil)]
    exact List.eq_replicate_of_mem hall
  · rintro ⟨n, rfl⟩
    have hdigit : ∀ c ∈ List.replicate (n + 1) '0', c.isDigit = true := by
      intro c hc
      rw [List.eq_of_mem_replicate hc]
      rfl
    refine ⟨by simp, hdigit, ?_⟩
    exact (ofDigitChars_eq_zero_iff hdigit).mpr fun c => List.eq_of_mem_replicate

theorem numeral?_eq_zero_iff (cs : List Char) :
    numeral? cs = some 0 ↔ ∃ n, unsigned cs = List.replicate (n + 1) '0' := by
  rw [numeral?_eq_some_iff, and_iff_left (by decide), ← digits_unsigned_iff, digits_zero_iff]

theorem digits_toString (n : Nat) : Digits (toString n).toList n := by
  rw [Nat.toString_eq_ofList_toDigits, String.toList_ofList]
  exact ⟨Nat.toDigits_ne_nil, fun c => Nat.isDigit_of_mem_toDigits (by decide) (by decide),
    Nat.ofDigitChars_ten_toDigits⟩

theorem Digits.eq_of_numeral {cs : List Char} {m n : Nat} (hm : Digits cs m) (hn : Numeral cs n) :
    m = n := by
  rw [← digits_unsigned_iff, unsigned_of_digits hm] at hn
  rw [← hm.value, hn.value]

end FormCompiler.Text
