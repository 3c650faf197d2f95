import FormCompiler.Proofs.Form.Notices
import FormCompiler.Proofs.Json.Literal

namespace FormCompiler

namespace Lenient

theorem count_number_eq_some_iff (x : Number) (n : Nat) :
    (count (.number x)).value = some n ↔ x = .integer n ∧ 0 < n ∧ n < Nat.pow 2 64 := by
  rw [count, Number.unsigned?_filter_eq_some_iff]

theorem count_string_eq_some_iff (s : String) (n : Nat) : (count (.string s)).value = some n ↔
    Text.Numeral (Text.trim s.toList) n ∧ 0 < n ∧ n < Nat.pow 2 64 := by
  rw [count]
  split
  case isTrue hs =>
    subst hs
    constructor
    · rintro ⟨⟩
    · rintro ⟨h, -⟩
      cases h with
      | plain h => exact absurd rfl h.ne_nil
  case isFalse hs =>
    have hnumeral := Text.numeral?_eq_some_iff (Text.trim s.toList)
    split
    case h_1 m hm =>
      obtain ⟨hnum, hlt⟩ := (hnumeral m).mp hm
      rw [Option.ite_none_right_eq_some, Option.some_inj]
      constructor
      · rintro ⟨hpos, rfl⟩
        exact ⟨hnum, hpos, hlt⟩
      · rintro ⟨hnum', hpos, hlt'⟩
        have hn := (hnumeral n).mpr ⟨hnum', hlt'⟩
        rw [hm, Option.some_inj] at hn
        exact ⟨hn ▸ hpos, hn⟩
    case h_2 hm =>
      constructor
      · rintro ⟨⟩
      · rintro ⟨hnum, -, hlt⟩
        rw [(hnumeral n).mpr ⟨hnum, hlt⟩] at hm
        cases hm

theorem count_written (x : Number) {before after : String} (hbefore : Text.Blank before)
    (hafter : Text.Blank after) :
    (count (.string (before ++ x.text ++ after))).value = (count (.number x)).value := by
  apply Option.ext
  intro n
  rw [count_string_eq_some_iff, count_number_eq_some_iff,
    x.numeral_trim_text_iff hbefore hafter]

end Lenient

namespace Form

namespace Field

def withCount (f : Field) (name : String) (count : Option Nat) : Field :=
  match name with
  | "maxLength" => { f with maxLength := count }
  | "maxCount" => { f with maxCount := count }
  | "maxSize" => { f with maxSize := count }
  | _ => f

variable (ms : Members Json) {name : String} (hname : name ∈ countNames) (j : Json)

include hname

theorem ofMembers_set_count : ofMembers (ms.set name j) =
    (ofMembers ms).withCount name (Lenient.count j).value := by
  have hattributes : (ofMembers (ms.set name j)).attributes = (ofMembers ms).attributes := by
    have hrole : ∀ name ∈ countNames, (role? name).isNone = false := by decide
    exact Members.filter_set ms (fun name => (role? name).isNone) (hrole name hname) j
  simp only [ofMembers] at hattributes
  simp only [countNames, List.mem_cons, List.not_mem_nil, or_false] at hname
  rcases hname with rfl | rfl | rfl <;>
    simp [ofMembers, withCount, lenient, flag, Choice.set?, Members.lookup_set, hattributes]

theorem read?_set_count : read? (.object (ms.set name j)) =
    (read? (.object ms)).map fun f => f.withCount name (Lenient.count j).value := by
  have hreadable : ∀ name ∈ countNames, ∀ j, readable name j = true := by
    have hrole : ∀ name ∈ countNames, role? name = some .count := by decide
    intro name hname j
    rw [readable, hrole name hname]
  rw [read?, Members.all_set ms, ofMembers_set_count ms hname j, read?]
  · split <;> rfl
  · exact hreadable name hname

end Field

def ReadsCount (ms : Members Json) (name : String) (j : Json) (IsCount : Nat → Prop) : Prop :=
  ∃ count : Option Nat, (∀ n, count = some n ↔ IsCount n) ∧
    Field.read? (.object (ms.set name j)) =
      (Field.read? (.object ms)).map fun f => f.withCount name count

/-- A count is read from a number as from the text of the number, with blanks around it: positive
integers of 64 bits count, and nothing else. A text counts if it is, between blanks, a numeral of
such a number. The JSON reader takes for integers the numbers that are written as such and fit. -/
theorem counts_read (ms : Members Json) {name : String} (hname : name ∈ countNames) :
    (∀ x before after, Text.Blank before → Text.Blank after →
      Field.read? (.object (ms.set name (.string (before ++ x.text ++ after)))) =
        Field.read? (.object (ms.set name (.number x)))) ∧
    (∀ x, ReadsCount ms name (.number x) fun n => x = .integer n ∧ 0 < n ∧ n < Nat.pow 2 64) ∧
    (∀ s, ReadsCount ms name (.string s) fun n => 0 < n ∧ n < Nat.pow 2 64 ∧
      ∃ before numeral after, Text.Blank before ∧ Text.Blank after ∧
        s = before ++ numeral ++ after ∧ Text.Numeral numeral.toList n) ∧
    ∀ text (n : Nat), Json.parse text = some (.number (.integer n)) ↔ n < Nat.pow 2 64 ∧
      ∃ before literal after : String, (∀ c ∈ before.toList, Json.isBlank c = true) ∧
        (∀ c ∈ after.toList, Json.isBlank c = true) ∧ text = before ++ literal ++ after ∧
        Json.Literal literal.toList n := by
  refine ⟨?_, ?_, ?_, Json.parse_eq_integer_iff⟩
  · intro x before after hbefore hafter
    rw [Field.read?_set_count ms hname, Field.read?_set_count ms hname,
      Lenient.count_written x hbefore hafter]
  · intro x
    exact ⟨_, Lenient.count_number_eq_some_iff x, Field.read?_set_count ms hname _⟩
  · intro s
    refine ⟨_, ?_, Field.read?_set_count ms hname _⟩
    intro n
    rw [Lenient.count_string_eq_some_iff, Text.numeral_trim_iff, and_comm, and_assoc]

theorem counts_read_greatest :
    let ms : Members Json := [("title", "Phone"), ("maxLength", .number (.integer 3))]
    let greatest : Number := .integer 18446744073709551615
    "maxLength" ∈ countNames ∧ Text.Blank "\u3000\t" ∧ Text.Blank " " ∧
      Json.parse " 18446744073709551615" = some (.number greatest) ∧
      ∃ f, Field.read? (.object (ms.set "maxLength" (.number greatest))) = some f ∧
        f.maxLength = some 18446744073709551615 ∧
        Field.read? (.object (ms.set "maxLength" (.string "\u3000\t18446744073709551615 "))) =
          some f ∧
        Field.read? (.object (ms.set "maxLength" (.string "+018446744073709551615"))) = some f ∧
        Field.read? (.object (ms.set "maxLength" (.string "18446744073709551617"))) =
          some { f with maxLength := none } := by
  intro ms greatest
  have hname : "maxLength" ∈ countNames := by decide
  have hbefore : Text.Blank "\u3000\t" := by decide
  have hafter : Text.Blank " " := by decide
  obtain ⟨hwritten, hnumbers, htexts, hliterals⟩ := counts_read ms hname
  have hparse : Json.parse " 18446744073709551615" = some (.number greatest) :=
    (hliterals _ 18446744073709551615).mpr ⟨by decide, " ", "18446744073709551615", "",
      List.all_eq_true.mp rfl, nofun, rfl, ⟨nofun, List.all_eq_true.mp rfl, rfl⟩, nofun⟩
  obtain ⟨count, hcount, hread⟩ := hnumbers greatest
  have hset : count = some 18446744073709551615 := (hcount _).mpr ⟨rfl, by decide, by decide⟩
  obtain ⟨signed, hsigned, hreadSigned⟩ := htexts "+018446744073709551615"
  have hsetSigned : signed = some 18446744073709551615 :=
    (hsigned _).mpr ⟨by decide, by decide, "", "+018446744073709551615", "", by decide, by decide,
      rfl, .signed ⟨nofun, List.all_eq_true.mp rfl, rfl⟩⟩
  obtain ⟨beyond, hbeyond, hreadBeyond⟩ := hnumbers (.integer 18446744073709551617)
  have hunset : beyond = none := by
    rw [Option.eq_none_iff_forall_ne_some]
    intro n hn
    obtain ⟨hn, -, hlt⟩ := (hbeyond n).mp hn
    cases hn
    exact absurd hlt (by decide)
  refine ⟨hname, hbefore, hafter, hparse, _, hread, ?_, ?_, ?_, ?_⟩
  · rw [hset]
    rfl
  · exact (hwritten greatest _ _ hbefore hafter).trans hread
  · rw [hreadSigned, hsetSigned, hset]
    rfl
  · rw [hunset] at hreadBeyond
    exact (hwritten (.integer 18446744073709551617) "" "" (by decide) (by decide)).trans hreadBeyond

end Form

end FormCompiler
