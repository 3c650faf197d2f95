import FormCompiler.Form.Field
import FormCompiler.Proofs.Members
import FormCompiler.Proofs.Text.Numeral

namespace FormCompiler

namespace Form

def textNames : List String :=
  ["title", "requiredMessage", "placeholder", "pattern", "patternMessage", "enumDict", "enumApi",
    "widget", "bindBlock", "bindCode", "fileTypes"]

def countNames : List String := ["maxLength", "maxCount", "maxSize"]

def lenientNames : List String := "type" :: textNames ++ countNames

def Field.isSet (f : Field) : String → Bool
  | "title" => f.title.isSome
  | "type" => f.type.isSome
  | "requiredMessage" => f.requiredMessage.isSome
  | "placeholder" => f.placeholder.isSome
  | "pattern" => f.pattern.isSome
  | "patternMessage" => f.patternMessage.isSome
  | "maxLength" => f.maxLength.isSome
  | "enumDict" => f.enumDict.isSome
  | "enumApi" => f.enumApi.isSome
  | "widget" => f.widget.isSome
  | "bindBlock" => f.bindBlock.isSome
  | "bindCode" => f.bindCode.isSome
  | "maxCount" => f.maxCount.isSome
  | "maxSize" => f.maxSize.isSome
  | "fileTypes" => f.fileTypes.isSome
  | _ => false

inductive Silent (name : String) : Json → Prop where
  | null : Silent name .null
  | empty : Silent name (.string "")
  | number {n : Number} : name ∈ countNames →
      (∀ k : Nat, 0 < k → k < Nat.pow 2 64 → n ≠ .integer k) → Silent name (.number n)
  | zeros {s : String} {n : Nat} : name ∈ countNames →
      Text.unsigned (Text.trim s.toList) = List.replicate (n + 1) '0' → Silent name (.string s)

end Form

structure Lenient.Accounts {α : Type} (r : Lenient α) (silent : Prop) : Prop where
  unnoticed : r.value.isSome = true → r.notice = none
  silent_iff : silent ↔ r.value.isSome = false ∧ r.notice = none
  warning : ∀ n, r.notice = some n → n.isError = false

namespace Lenient.Accounts

variable {α : Type} {silent : Prop}

theorem unset (h : silent) : (Lenient.unset : Lenient α).Accounts silent where
  unnoticed hset := by cases hset
  silent_iff := iff_of_true h ⟨rfl, rfl⟩
  warning n hn := by cases hn

theorem isSet (value : α) (h : ¬ silent) : (Lenient.isSet value).Accounts silent where
  unnoticed _ := rfl
  silent_iff := iff_of_false h fun ⟨hunset, _⟩ => by cases hunset
  warning n hn := by cases hn

theorem dropped {notice : Notice} (hnotice : notice.isError = false) (h : ¬ silent) :
    (Lenient.dropped notice : Lenient α).Accounts silent where
  unnoticed hset := by cases hset
  silent_iff := iff_of_false h fun ⟨_, hnone⟩ => by cases hnone
  warning n hn := by
    cases hn
    exact hnotice

end Lenient.Accounts

theorem Number.unsigned?_filter_eq_some_iff (x : Number) (n : Nat) :
    x.unsigned?.filter (0 < ·) = some n ↔ x = .integer n ∧ 0 < n ∧ n < Nat.pow 2 64 := by
  rw [Option.filter_eq_some_iff, decide_eq_true_eq]
  cases x with
  | float x => simp [unsigned?]
  | integer i =>
    rw [unsigned?, Option.ite_none_right_eq_some, Option.some_inj, integer.injEq]
    omega

theorem Number.unsigned?_filter_eq_none_iff (x : Number) :
    (x.unsigned?.filter (0 < ·)).isSome = false ↔
      ∀ n : Nat, 0 < n → n < Nat.pow 2 64 → x ≠ .integer n := by
  rw [Option.isSome_eq_false_iff, Option.isNone_iff_eq_none, Option.eq_none_iff_forall_ne_some]
  refine forall_congr' fun n => ?_
  rw [Ne, unsigned?_filter_eq_some_iff]
  constructor
  · intro h hpos hlt hx
    exact h ⟨hx, hpos, hlt⟩
  · rintro h ⟨hx, hpos, hlt⟩
    exact h hpos hlt hx

namespace Form

variable {name : String}

theorem silent_string_iff (s : String) : Silent name (.string s) ↔
    s = "" ∨ name ∈ countNames ∧ Text.numeral? (Text.trim s.toList) = some 0 := by
  rw [Text.numeral?_eq_zero_iff]
  constructor
  · rintro (_ | _ | _ | ⟨hname, hn⟩)
    · exact .inl rfl
    · exact .inr ⟨hname, _, hn⟩
  · rintro (rfl | ⟨hname, n, hn⟩)
    · exact .empty
    · exact .zeros hname hn

theorem accounts_text (hname : name ∉ countNames) (j : Json) :
    (Lenient.text j).Accounts (Silent name j) := by
  cases j with
  | null => exact .unset .null
  | bool b =>
    refine .isSet _ ?_
    rintro ⟨⟩
  | number n =>
    refine .isSet _ ?_
    rintro (_ | _ | ⟨hcount, -⟩)
    exact hname hcount
  | string s =>
    rw [Lenient.text]
    split
    case isTrue hs =>
      subst hs
      exact .unset .empty
    case isFalse hs =>
      refine .isSet _ ?_
      rw [silent_string_iff]
      rintro (he | ⟨hcount, -⟩)
      · exact hs he
      · exact hname hcount
  | array items =>
    refine .dropped rfl ?_
    rintro ⟨⟩
  | object ms =>
    refine .dropped rfl ?_
    rintro ⟨⟩

theorem accounts_type (hname : name ∉ countNames) (j : Json) :
    (Lenient.type j).Accounts (Silent name j) := by
  have htext := accounts_text hname j
  rw [Lenient.type]
  split
  case h_1 s notice hs =>
    rw [hs] at htext
    have hsilent : ¬ Silent name j := fun h => by cases (htext.silent_iff.mp h).1
    have hnotice : notice = none := htext.unnoticed rfl
    subst hnotice
    split
    · exact .isSet _ hsilent
    · exact .dropped rfl hsilent
  case h_2 notice hs =>
    rw [hs] at htext
    exact ⟨nofun, htext.silent_iff, htext.warning⟩

theorem accounts_count (hname : name ∈ countNames) (j : Json) :
    (Lenient.count j).Accounts (Silent name j) := by
  cases j with
  | null => exact .unset .null
  | bool b =>
    refine .dropped rfl ?_
    rintro ⟨⟩
  | number n =>
    refine ⟨fun _ => rfl, ?_, nofun⟩
    rw [Lenient.count, Number.unsigned?_filter_eq_none_iff]
    constructor
    · rintro (_ | _ | ⟨-, hn⟩)
      exact ⟨hn, rfl⟩
    · rintro ⟨hn, -⟩
      exact .number hname hn
  | string s =>
    rw [Lenient.count]
    split
    case isTrue hs =>
      subst hs
      exact .unset .empty
    case isFalse hs =>
      have hsilent : Silent name (.string s) ↔ Text.numeral? (Text.trim s.toList) = some 0 := by
        rw [silent_string_iff, or_iff_right hs, and_iff_right hname]
      rw [hsilent]
      split
      case h_1 n hn =>
        refine ⟨fun _ => rfl, ?_, nofun⟩
        rw [hn, Option.some_inj]
        cases n <;> simp
      case h_2 hn =>
        refine .dropped rfl ?_
        rw [hn]
        rintro ⟨⟩
  | array items =>
    refine .dropped rfl ?_
    rintro ⟨⟩
  | object ms =>
    refine .dropped rfl ?_
    rintro ⟨⟩

theorem not_mem_countNames : ∀ name ∈ textNames, name ∉ countNames := by decide

theorem notice?_text : ∀ name ∈ textNames, ∀ j,
    Field.notice? name j = (Lenient.text j).notice := by
  have hrole : ∀ name ∈ textNames, Field.role? name = some .text := by decide
  intro name hname j
  rw [Field.notice?, hrole name hname]

theorem notice?_count : ∀ name ∈ countNames, ∀ j,
    Field.notice? name j = (Lenient.count j).notice := by
  have hrole : ∀ name ∈ countNames, Field.role? name = some .count := by decide
  intro name hname j
  rw [Field.notice?, hrole name hname]

theorem isSet_text (ms : Members Json) : ∀ name ∈ textNames,
    (Field.ofMembers ms).isSet name = (Field.lenient Lenient.text ms name).isSome := by
  simp [textNames, Field.isSet, Field.ofMembers]

theorem isSet_count (ms : Members Json) : ∀ name ∈ countNames,
    (Field.ofMembers ms).isSet name = (Field.lenient Lenient.count ms name).isSome := by
  simp [countNames, Field.isSet, Field.ofMembers]

theorem exists_accounts (hname : name ∈ lenientNames) {ms : Members Json} {j : Json}
    (hj : ms.lookup name = some j) : ∃ (α : Type) (r : Lenient α), r.Accounts (Silent name j) ∧
      (Field.ofMembers ms).isSet name = r.value.isSome ∧ Field.notice? name j = r.notice := by
  have hlenient : ∀ {α : Type} (read : Json → Lenient α),
      Field.lenient read ms name = (read j).value := by
    intro α read
    rw [Field.lenient, hj, Option.bind_some]
  rcases List.mem_cons.mp hname with rfl | hname
  · refine ⟨_, Lenient.type j, accounts_type (by decide) j, ?_, rfl⟩
    exact congrArg Option.isSome (hlenient Lenient.type)
  rcases List.mem_append.mp hname with htext | hcount
  · refine ⟨_, Lenient.text j, accounts_text (not_mem_countNames name htext) j, ?_, ?_⟩
    · rw [isSet_text ms name htext, hlenient]
    · exact notice?_text name htext j
  · refine ⟨_, Lenient.count j, accounts_count hcount j, ?_, ?_⟩
    · rw [isSet_count ms name hcount, hlenient]
    · exact notice?_count name hcount j

theorem notices_of_readable {ms : Members Json} (h : ∀ m ∈ ms, Field.readable m.1 m.2 = true) :
    Field.notices (.object ms) = ms.filterMap fun (name, j) => Field.notice? name j := by
  have htake : (ms.takeWhile fun (name, j) => Field.readable name j) = ms := by
    induction ms with
    | nil => rfl
    | cons m ms ih =>
      rw [List.forall_mem_cons] at h
      rw [List.takeWhile_cons, if_pos h.1, ih h.2]
  rw [Field.notices, htake]

/-- A member with a forgiving reader has at most one notice, a warning, and none if it ends up set.
It is left unset without a warning only for null, the empty text and, in a count, for zero and any
number that is no positive integer of 64 bits. -/
theorem lenient_members_noticed {before after : Members Json} {name : String} {j : Json} {f : Field}
    (hread : Field.read? (.object (before ++ (name, j) :: after)) = some f)
    (hbefore : name ∉ before.names) (hname : name ∈ lenientNames) :
    ∃ own : List Notice,
      Field.notices (.object (before ++ (name, j) :: after)) =
        Field.notices (.object before) ++ (own ++ Field.notices (.object after)) ∧
      (f.isSet name = true → own = []) ∧
      (Silent name j ↔ f.isSet name = false ∧ own = []) ∧
      (f.isSet name = false → ¬ Silent name j → ∃ n : Notice, own = [n] ∧ n.isError = false) := by
  rw [Field.read?, Option.ite_none_right_eq_some, List.all_eq_true, Option.some_inj] at hread
  obtain ⟨hreadable, rfl⟩ := hread
  have hlookup : (before ++ (name, j) :: after).lookup name = some j := by
    rw [List.lookup_append, (Members.lookup_eq_none_iff before name).mpr hbefore, Option.none_or,
      List.lookup_cons_self]
  obtain ⟨α, r, haccounts, hset, hnotice⟩ := exists_accounts hname hlookup
  have hparts := List.forall_mem_append.mp hreadable
  refine ⟨r.notice.toList, ?_, ?_, ?_, ?_⟩
  · rw [notices_of_readable hreadable, notices_of_readable hparts.1,
      notices_of_readable (List.forall_mem_cons.mp hparts.2).2, List.filterMap_append,
      List.filterMap_cons]
    simp only [hnotice]
    cases r.notice <;> rfl
  · intro hf
    rw [hset] at hf
    rw [haccounts.unnoticed hf, Option.toList_none]
  · rw [hset, Option.toList_eq_nil_iff]
    exact haccounts.silent_iff
  · intro hf hsilent
    rw [hset] at hf
    cases hn : r.notice with
    | none => exact absurd (haccounts.silent_iff.mpr ⟨hf, hn⟩) hsilent
    | some n => exact ⟨n, rfl, haccounts.warning n hn⟩

theorem lenient_members_noticed_unit :
    let before : Members Json := [("type", "Date")]
    let after : Members Json := [("enums", .array []), ("title", .array [])]
    ∃ f own, Field.read? (.object (before ++ ("maxLength", .string "11位") :: after)) = some f ∧
      Field.notices (.object (before ++ ("maxLength", .string "11位") :: after)) =
        Field.notices (.object before) ++ (own ++ Field.notices (.object after)) ∧
      f.isSet "maxLength" = false ∧ ∃ n : Notice, own = [n] ∧ n.isError = false := by
  intro before after
  have hread : Field.read? (.object (before ++ ("maxLength", .string "11位") :: after)) =
      some (Field.ofMembers (before ++ ("maxLength", .string "11位") :: after)) := rfl
  obtain ⟨own, hnotices, -, hsilent, hwarned⟩ :=
    lenient_members_noticed hread (by decide) (by decide)
  have hunset : (Field.ofMembers (before ++ ("maxLength", .string "11位") :: after)).isSet
      "maxLength" = false := by decide
  refine ⟨_, own, hread, hnotices, hunset, hwarned hunset ?_⟩
  rw [silent_string_iff]
  decide

/-- A negative count is dropped without a warning. -/
theorem negative_count_unnoticed :
    let member : Json := .object [("maxLength", .number (.integer (-1)))]
    ∃ f, Field.read? member = some f ∧ f.isSet "maxLength" = false ∧ Field.notices member = [] := by
  exact ⟨_, rfl, by decide, rfl⟩

end Form

end FormCompiler
