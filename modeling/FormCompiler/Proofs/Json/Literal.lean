import FormCompiler.Json.Parser
import FormCompiler.Json.Printer
import FormCompiler.Proofs.Text.Numeral

namespace FormCompiler

theorem Binary64.mark_mem_layout (digits : String) (power : Int) :
    '.' ∈ (layout digits power).toList ∨ 'e' ∈ (layout digits power).toList := by
  unfold layout
  dsimp only
  split_ifs <;> simp

theorem Binary64.mark_mem_text (x : Binary64) : '.' ∈ x.text.toList ∨ 'e' ∈ x.text.toList := by
  have hlayout := mark_mem_layout (toString x.shortest.1) x.shortest.2
  simp only [text, String.toList_append, List.mem_append]
  exact hlayout.imp .inr .inr

theorem Number.numeral_trim_text_iff (x : Number) {before after : String}
    (hbefore : Text.Blank before) (hafter : Text.Blank after) (n : Nat) :
    Text.Numeral (Text.trim (before ++ x.text ++ after).toList) n ↔ x = .integer n := by
  have hlist : (before ++ x.text ++ after).toList =
      before.toList ++ x.text.toList ++ after.toList := by simp
  have hmem : ∀ c ∈ x.text.toList, c ∈ (before ++ x.text ++ after).toList := by
    intro c hc
    simp [hc]
  cases x with
  | float x =>
    -- the point and the exponent's letter stand in no numeral
    simp only [reduceCtorEq, iff_false]
    rcases x.mark_mem_text with hmark | hmark
    · exact Text.not_numeral_trim (hmem '.' hmark) (by decide) (by decide) (by decide) n
    · exact Text.not_numeral_trim (hmem 'e' hmark) (by decide) (by decide) (by decide) n
  | integer i =>
    cases i with
    | ofNat m =>
      have hdigits : Text.Digits (Number.integer (.ofNat m)).text.toList m := Text.digits_toString m
      have htrim := Text.trim_append hbefore (Text.Numeral.plain hdigits).isBlank_eq_false hafter
      rw [hlist, htrim]
      constructor
      · intro h
        rw [hdigits.eq_of_numeral h]
        rfl
      · intro h
        cases h
        exact .plain hdigits
    | negSucc m =>
      have hsign : '-' ∈ (Number.integer (.negSucc m)).text.toList := by
        have htext : (Number.integer (.negSucc m)).text = "-" ++ toString (m + 1) := rfl
        simp [htext]
      have hnot := Text.not_numeral_trim (hmem '-' hsign) (by decide) (by decide) (by decide) n
      refine iff_of_false hnot ?_
      rw [Number.integer.injEq]
      omega

namespace Json

structure Literal (cs : List Char) (n : Nat) : Prop extends Text.Digits cs n where
  leading : cs.head? = some '0' → cs = ['0']

namespace Parser

variable {negative : Bool} {significand : Nat} {power : Int} {cs rest : List Char} {i : Int}
  {n : Nat}

theorem scaled_ne_integer : scaled negative significand power ≠ some (.integer i) := by
  simp [scaled, Option.bind_eq_some_iff]

theorem scaled_bind_ne_integer :
    (scaled negative significand power).bind (fun x => some (x, cs)) ≠ some (.integer i, rest) := by
  intro h
  obtain ⟨x, hx, h⟩ := Option.bind_eq_some_iff.mp h
  cases h
  exact scaled_ne_integer hx

theorem exponentPart_ne_integer :
    exponentPart negative significand power cs ≠ some (.integer i, rest) := by
  fun_cases exponentPart negative significand power cs with
  | case1 => nofun
  | case2 => nofun
  | case3 => nofun
  | case4 => exact scaled_bind_ne_integer

theorem floatEnd_ne_integer :
    floatEnd negative significand power cs ≠ some (.integer i, rest) := by
  fun_cases floatEnd negative significand power cs with
  | case1 => exact exponentPart_ne_integer
  | case2 => exact exponentPart_ne_integer
  | case3 => exact scaled_bind_ne_integer

theorem fractionPart_ne_integer :
    fractionPart negative significand power cs ≠ some (.integer i, rest) := by
  intro h
  rw [fractionPart, Option.ite_none_right_eq_some] at h
  exact floatEnd_ne_integer h.2

def Ends (rest : List Char) : Prop :=
  ∀ c, rest.head? = some c → c.isDigit = false ∧ c ≠ '.' ∧ c ≠ 'e' ∧ c ≠ 'E'

theorem startsWithDigit_eq_false_iff (cs : List Char) :
    startsWithDigit cs = false ↔ ∀ c, cs.head? = some c → c.isDigit = false := by
  cases cs with
  | nil => simp [startsWithDigit]
  | cons c cs => simp [startsWithDigit, Text.isDigit_eq]

theorem Ends.startsWithDigit (h : Ends cs) : startsWithDigit cs = false :=
  (startsWithDigit_eq_false_iff cs).mpr fun c hc => (h c hc).1

theorem numberEnd_eq_integer_iff :
    numberEnd negative significand cs = some (.integer n, rest) ↔
      negative = false ∧ significand = n ∧ cs = rest ∧ Ends cs := by
  fun_cases numberEnd negative significand cs with
  | case1 =>
    refine iff_of_false fractionPart_ne_integer ?_
    rintro ⟨-, -, -, hends⟩
    exact (hends '.' rfl).2.1 rfl
  | case2 =>
    refine iff_of_false floatEnd_ne_integer ?_
    rintro ⟨-, -, -, hends⟩
    exact (hends 'e' rfl).2.2.1 rfl
  | case3 =>
    refine iff_of_false floatEnd_ne_integer ?_
    rintro ⟨-, -, -, hends⟩
    exact (hends 'E' rfl).2.2.2 rfl
  | case4 _ _ _ _ hdigit =>
    refine iff_of_false fractionPart_ne_integer ?_
    rintro ⟨-, -, -, hends⟩
    exact absurd hdigit (by simp [hends.startsWithDigit])
  | case5 _ _ _ _ hdigit =>
    refine iff_of_false floatEnd_ne_integer ?_
    rintro ⟨-, -, -, hends⟩
    exact absurd hdigit (by simp [hends.startsWithDigit])
  | case6 _ hpoint he hE hdigit hsign =>
    have hends : Ends cs := by
      intro c hc
      obtain ⟨tail, rfl⟩ := List.head?_eq_some_iff.mp hc
      have hstop := (startsWithDigit_eq_false_iff _).mp (Bool.eq_false_iff.mpr hdigit) c hc
      refine ⟨hstop, ?_, ?_, ?_⟩
      · rintro rfl
        exact hpoint tail rfl
      · rintro rfl
        exact he tail rfl
      · rintro rfl
        exact hE tail rfl
    have hpositive : negative = false := by simpa using hsign
    rw [Option.some_inj, Prod.mk.injEq, Number.integer.injEq, Int.ofNat_inj]
    exact ⟨fun ⟨hn, hrest⟩ => ⟨hpositive, hn, hrest, hends⟩, fun ⟨_, hn, hrest, _⟩ => ⟨hn, hrest⟩⟩
  | case7 _ _ _ _ _ hsign =>
    -- a negative zero, or a number below all integers of 64 bits, is read as a double
    refine iff_of_false scaled_bind_ne_integer ?_
    rintro ⟨rfl, -⟩
    exact hsign rfl
  | case8 _ _ _ _ _ hsign hrange =>
    constructor
    · intro h
      have hi : (-significand : Int) = n := by simpa using congrArg (fun p => p.map (·.1)) h
      omega
    · rintro ⟨rfl, -⟩
      exact absurd rfl hsign

theorem takeDigits_of_stop {taken : Nat} (h : startsWithDigit cs = false) :
    takeDigits significand taken cs = (significand, taken, cs) := by
  cases cs with
  | nil => rfl
  | cons c cs =>
    have hc := (startsWithDigit_eq_false_iff _).mp h c rfl
    simp [takeDigits, Text.digitValue?_eq, hc]

theorem takeDigits_append {taken : Nat} {ds : List Char} (hdigit : ∀ c ∈ ds, c.isDigit = true)
    (hfit : Nat.ofDigitChars 10 ds significand < Nat.pow 2 64) :
    takeDigits significand taken (ds ++ rest) =
      takeDigits (Nat.ofDigitChars 10 ds significand) (taken + ds.length) rest := by
  induction ds generalizing significand taken with
  | nil => rfl
  | cons c ds ih =>
    rw [List.forall_mem_cons] at hdigit
    rw [Nat.ofDigitChars_cons, Nat.mul_comm] at hfit
    have hnext := Text.le_ofDigitChars ds (significand * 10 + (c.toNat - '0'.toNat))
    have htake : significand * 10 + (c.toNat - '0'.toNat) < Nat.pow 2 64 := by omega
    have hc : Text.digitValue? c = some (c.toNat - '0'.toNat) := by
      rw [Text.digitValue?_eq, if_pos hdigit.1]
    rw [List.cons_append, takeDigits, hc]
    dsimp only
    rw [if_pos htake, ih hdigit.2 hfit, Nat.ofDigitChars_cons, Nat.mul_comm 10, List.length_cons]
    congr 1
    omega

theorem exists_takeDigits (taken : Nat) (cs : List Char) (h : significand < Nat.pow 2 64) :
    ∃ ds, cs = ds ++ (takeDigits significand taken cs).2.2 ∧ (∀ c ∈ ds, c.isDigit = true) ∧
      (takeDigits significand taken cs).1 = Nat.ofDigitChars 10 ds significand ∧
      Nat.ofDigitChars 10 ds significand < Nat.pow 2 64 := by
  fun_induction takeDigits significand taken cs with
  | case1 => exact ⟨[], rfl, nofun, rfl, h⟩
  | case2 => exact ⟨[], rfl, nofun, rfl, h⟩
  | case3 significand taken c rest d hd hfit ih =>
    obtain ⟨ds, hrest, hdigit, hvalue, hlt⟩ := ih hfit
    rw [Text.digitValue?_eq, Option.ite_none_right_eq_some] at hd
    obtain ⟨hc, hd⟩ := hd
    cases hd
    refine ⟨c :: ds, ?_, List.forall_mem_cons.mpr ⟨hc, hdigit⟩, ?_, ?_⟩
    · rw [List.cons_append, ← hrest]
    · rw [hvalue, Nat.ofDigitChars_cons, Nat.mul_comm 10]
    · rwa [Nat.ofDigitChars_cons, Nat.mul_comm 10]
  | case4 => exact ⟨[], rfl, nofun, rfl, h⟩

theorem startsWithDigit_append {ds : List Char} (h : Literal ds n) (rest : List Char) :
    startsWithDigit (ds ++ rest) = true := by
  cases ds with
  | nil => exact absurd rfl h.ne_nil
  | cons c ds =>
    rw [List.cons_append, startsWithDigit, Text.isDigit_eq]
    exact h.isDigit c List.mem_cons_self

theorem exists_literal_zero_iff {tail : List Char} :
    (∃ ds, Literal ds n ∧ '0' :: tail = ds ++ rest ∧ Ends rest) ↔
      n = 0 ∧ tail = rest ∧ Ends rest := by
  constructor
  · rintro ⟨ds, hds, happend, hends⟩
    cases ds with
    | nil => exact absurd rfl hds.ne_nil
    | cons c ds =>
      obtain ⟨rfl, rfl⟩ := List.cons.inj happend
      obtain ⟨-, rfl⟩ := List.cons.inj (hds.leading rfl)
      exact ⟨hds.value.symm, rfl, hends⟩
  · rintro ⟨rfl, rfl, hends⟩
    exact ⟨['0'], ⟨⟨nofun, List.all_eq_true.mp rfl, rfl⟩, fun _ => rfl⟩, rfl, hends⟩

theorem unsignedNumber_eq_integer_iff :
    unsignedNumber negative cs = some (.integer n, rest) ↔
      negative = false ∧ n < Nat.pow 2 64 ∧ ∃ ds, Literal ds n ∧ cs = ds ++ rest ∧ Ends rest := by
  fun_cases unsignedNumber negative cs with
  | case1 tail hdigit =>
    rw [exists_literal_zero_iff]
    refine iff_of_false nofun ?_
    rintro ⟨-, -, -, rfl, hends⟩
    exact absurd hdigit (by simp [hends.startsWithDigit])
  | case2 tail hdigit =>
    rw [exists_literal_zero_iff, numberEnd_eq_integer_iff]
    constructor
    · rintro ⟨hsign, rfl, rfl, hends⟩
      exact ⟨hsign, by decide, rfl, rfl, hends⟩
    · rintro ⟨hsign, -, rfl, rfl, hends⟩
      exact ⟨hsign, rfl, rfl, hends⟩
  | case3 _ hzero hdigit significand taken tail htake =>
    rw [numberEnd_eq_integer_iff]
    constructor
    · rintro ⟨hsign, rfl, rfl, hends⟩
      have hzero' : 0 < Nat.pow 2 64 := by decide
      obtain ⟨ds, hcs, hds, hvalue, hlt⟩ := exists_takeDigits 0 cs hzero'
      rw [htake] at hcs hvalue
      refine ⟨hsign, hvalue.trans_lt hlt, ds, ⟨⟨?_, hds, hvalue.symm⟩, ?_⟩, hcs, hends⟩
      · rintro rfl
        rw [hcs, List.nil_append, hends.startsWithDigit] at hdigit
        cases hdigit
      · intro hhead
        obtain ⟨ds, rfl⟩ := List.head?_eq_some_iff.mp hhead
        exact (hzero _ hcs).elim
    · rintro ⟨hsign, hlt, ds, hds, rfl, hends⟩
      have hfit : Nat.ofDigitChars 10 ds 0 < Nat.pow 2 64 := by rwa [hds.value]
      rw [takeDigits_append hds.isDigit hfit, takeDigits_of_stop hends.startsWithDigit,
        hds.value] at htake
      cases htake
      exact ⟨hsign, rfl, rfl, hends⟩
  | case4 _ _ hdigit =>
    refine iff_of_false nofun ?_
    rintro ⟨-, -, ds, hds, rfl, -⟩
    exact hdigit (startsWithDigit_append hds rest)

theorem number_eq_integer_iff :
    number cs = some (.integer n, rest) ↔
      n < Nat.pow 2 64 ∧ ∃ ds, Literal ds n ∧ cs = ds ++ rest ∧ Ends rest := by
  fun_cases number cs with
  | case1 tail =>
    rw [unsignedNumber_eq_integer_iff]
    refine iff_of_false nofun ?_
    rintro ⟨-, ds, hds, happend, -⟩
    have hsign : startsWithDigit ('-' :: tail) = false := rfl
    rw [happend, startsWithDigit_append hds rest] at hsign
    cases hsign
  | case2 =>
    rw [unsignedNumber_eq_integer_iff, and_iff_right rfl]

theorem number_of_other {c : Char} (hsign : c ≠ '-') (hdigit : Text.isDigit c = false)
    (tail : List Char) : number (c :: tail) = none := by
  have hzero : c ≠ '0' := by
    rintro rfl
    exact absurd hdigit (by decide)
  simp [number, unsignedNumber, startsWithDigit, hsign, hzero, hdigit]

theorem value_eq_number_iff (shape : Shape) (fuel depth : Nat) (cs : List Char) (x : Number) :
    value shape (fuel + 1) depth cs = some (.number x, rest) ↔
      number (skipBlanks cs) = some (x, rest) := by
  rw [value]
  split
  case h_1 hskip | h_2 hskip | h_3 hskip | h_4 hskip =>
    rw [hskip, number_of_other (by decide) (by decide)]
    simp [Option.bind_eq_some_iff]
  case h_5 hskip | h_6 hskip =>
    rw [hskip, number_of_other (by decide) (by decide)]
    cases depth with
    | zero => simp
    | succ depth =>
      dsimp only
      split
      · simp
      · simp [Option.bind_eq_some_iff]
  case h_7 => simp [Option.bind_eq_some_iff]

theorem ends_of_blanks (h : ∀ c ∈ rest, isBlank c = true) : Ends rest := by
  intro c hc
  obtain ⟨tail, rfl⟩ := List.head?_eq_some_iff.mp hc
  have hblank := h c List.mem_cons_self
  simp only [isBlank, Bool.or_eq_true, beq_iff_eq] at hblank
  rcases hblank with ((rfl | rfl) | rfl) | rfl <;> decide

theorem skipBlanks_append {before ds : List Char} (hbefore : ∀ c ∈ before, isBlank c = true)
    (hds : Literal ds n) (rest : List Char) :
    skipBlanks (before ++ ds ++ rest) = ds ++ rest := by
  rw [skipBlanks, List.append_assoc, List.dropWhile_append_of_pos hbefore]
  cases ds with
  | nil => exact absurd rfl hds.ne_nil
  | cons c ds =>
    have hblank : isBlank c ≠ true := by
      intro hblank
      have hends : Ends [c] := ends_of_blanks (by simpa using hblank)
      have hdigit := hds.isDigit c List.mem_cons_self
      rw [(hends c rfl).1] at hdigit
      cases hdigit
    rw [List.cons_append, List.dropWhile_cons_of_neg hblank]

end Parser

theorem merged_eq_number_iff (j : Json) (x : Number) : j.merged = .number x ↔ j = .number x := by
  cases j <;> simp [merged]

theorem parse_eq_number_iff (text : String) (x : Number) :
    parse text = some (.number x) ↔ ∃ rest,
      Parser.number (skipBlanks text.toList) = some (x, rest) ∧ skipBlanks rest = [] := by
  simp only [parse, Option.map_eq_some_iff, merged_eq_number_iff, exists_eq_right, parseShape,
    Option.bind_eq_bind, Option.bind_eq_some_iff, Option.ite_none_right_eq_some, List.isEmpty_iff,
    Option.some_inj, Prod.exists]
  constructor
  · rintro ⟨j, rest, hvalue, hrest, rfl⟩
    exact ⟨rest, (Parser.value_eq_number_iff _ _ _ _ _).mp hvalue, hrest⟩
  · rintro ⟨rest, hnumber, hrest⟩
    exact ⟨_, rest, (Parser.value_eq_number_iff _ _ _ _ _).mpr hnumber, hrest, rfl⟩

theorem parse_eq_integer_iff (text : String) (n : Nat) :
    parse text = some (.number (.integer n)) ↔ n < Nat.pow 2 64 ∧ ∃ before literal after : String,
      (∀ c ∈ before.toList, isBlank c = true) ∧ (∀ c ∈ after.toList, isBlank c = true) ∧
      text = before ++ literal ++ after ∧ Literal literal.toList n := by
  simp only [parse_eq_number_iff, Parser.number_eq_integer_iff]
  constructor
  · rintro ⟨rest, ⟨hlt, ds, hds, hskip, -⟩, hrest⟩
    refine ⟨hlt, String.ofList (text.toList.takeWhile isBlank), String.ofList ds,
      String.ofList rest, ?_, ?_, ?_, ?_⟩
    · rw [String.toList_ofList]
      exact fun c => List.mem_takeWhile_imp
    · rw [String.toList_ofList]
      exact List.dropWhile_eq_nil_iff.mp hrest
    · rw [← String.toList_inj]
      have hsplit := List.takeWhile_append_dropWhile (p := isBlank) (l := text.toList)
      rw [skipBlanks] at hskip
      rw [hskip] at hsplit
      simpa using hsplit.symm
    · rwa [String.toList_ofList]
  · rintro ⟨hlt, before, literal, after, hbefore, hafter, rfl, hliteral⟩
    refine ⟨after.toList, ⟨hlt, literal.toList, hliteral, ?_, Parser.ends_of_blanks hafter⟩, ?_⟩
    · rw [String.toList_append, String.toList_append, Parser.skipBlanks_append hbefore hliteral]
    · exact List.dropWhile_eq_nil_iff.mpr hafter

end Json

end FormCompiler
