import FormCompiler.Json.Record
import FormCompiler.Proofs.Json.Distinct

namespace FormCompiler.Json

variable {α : Type} {read : Json → Option α} {write : α → Json}

theorem required?_of_lookup {ms : Members Json} {name : String} {j : Json} {a : α}
    (h : ms.lookup name = some j) (hread : read j = some a) :
    required? ms name read = some a := by
  rw [required?, h, Option.bind_some, hread]

theorem defaulted?_of_lookup {ms : Members Json} {name : String} {j : Json} {a default : α}
    (h : ms.lookup name = some j) (hread : read j = some a) :
    defaulted? ms name default read = some a := by
  rw [defaulted?, h]
  exact hread

theorem unset?_of_lookup {ms : Members Json} {name : String} {value : Option α}
    (h : ms.lookup name = value.map write)
    (hread : ∀ a, value = some a → write a ≠ .null ∧ read (write a) = some a) :
    unset? ms name read = some value := by
  rw [unset?, defaulted?, h]
  cases value with
  | none => rfl
  | some a =>
    obtain ⟨hnull, ha⟩ := hread a rfl
    rw [Option.map_some]
    dsimp only
    rw [optional?, ha]
    · rfl
    · exact hnull

theorem mapM_map {β : Type} (f : α → β) {g : β → Option α} {l : List α}
    (h : ∀ a ∈ l, g (f a) = some a) : (l.map f).mapM g = some l := by
  induction l with
  | nil => rfl
  | cons a l ih =>
    rw [List.forall_mem_cons] at h
    rw [List.map_cons, List.mapM_cons, h.1, ih h.2]
    rfl

theorem listOf?_map {l : List α} (h : ∀ a ∈ l, read (write a) = some a) :
    listOf? read (.array (l.map write)) = some l := mapM_map write h

theorem membersOf?_map {ms : Members α} (h : ∀ name a, (name, a) ∈ ms → read (write a) = some a) :
    membersOf? read (.object (ms.map fun (name, a) => (name, write a))) = some ms := by
  apply mapM_map (fun m : String × α => (m.1, write m.2))
  rintro ⟨name, a⟩ hm
  simp only [h name a hm, Option.map_some]

theorem lookup_of_required? {ms : Members Json} {name : String} {a : α}
    (h : required? ms name read = some a) : ∃ j, ms.lookup name = some j ∧ read j = some a :=
  Option.bind_eq_some_iff.mp h

theorem lookup_of_unset? {ms : Members Json} {name : String} {value : Option α}
    (h : unset? ms name read = some value) {a : α} (ha : value = some a) :
    ∃ j, ms.lookup name = some j ∧ j ≠ .null ∧ read j = some a := by
  subst ha
  unfold unset? defaulted? at h
  split at h
  · cases h
  case h_2 j hj =>
    refine ⟨j, hj, ?_⟩
    unfold optional? at h
    split at h
    · cases h
    case h_2 hnull =>
      obtain ⟨a', hread, he⟩ := Option.map_eq_some_iff.mp h
      cases he
      exact ⟨hnull, hread⟩

theorem forall₂_of_mapM {β : Type} {f : α → Option β} {l : List α} {l' : List β}
    (h : l.mapM f = some l') : List.Forall₂ (fun a b => f a = some b) l l' := by
  induction l generalizing l' with
  | nil => cases h; exact .nil
  | cons a l ih =>
    rw [List.mapM_cons] at h
    obtain ⟨b, hb, h⟩ := Option.bind_eq_some_iff.mp h
    obtain ⟨rest, hrest, h⟩ := Option.bind_eq_some_iff.mp h
    cases h
    exact .cons hb (ih hrest)

theorem of_membersOf? {j : Json} {ms : Members α} (h : membersOf? read j = some ms) :
    ∃ written, j = .object written ∧ Members.names written = ms.names ∧
      ∀ name a, (name, a) ∈ ms → ∃ v, (name, v) ∈ written ∧ read v = some a := by
  cases j with
  | object written =>
    refine ⟨written, rfl, ?_⟩
    have hforall := forall₂_of_mapM h
    clear h
    induction hforall with
    | nil => exact ⟨rfl, by simp⟩
    | @cons m m' written ms hm _ ih =>
      obtain ⟨a, ha, rfl⟩ := Option.map_eq_some_iff.mp hm
      refine ⟨by rw [Members.names_cons, Members.names_cons, ih.1], ?_⟩
      intro name a' hmem
      rcases List.mem_cons.mp hmem with he | hmem
      · cases he
        exact ⟨m.2, List.mem_cons_self, ha⟩
      · obtain ⟨v, hv, hread⟩ := ih.2 name a' hmem
        exact ⟨v, List.mem_cons_of_mem _ hv, hread⟩
  | _ => cases h

theorem distinct_of_record? {names : List String} {j : Json} (hj : j.Distinct) {ms : Members Json}
    (h : record? names j = some ms) {name : String} {v : Json} (hv : ms.lookup name = some v) :
    v.Distinct := by
  have hmem := Members.mem_of_lookup hv
  cases j with
  | object members =>
    cases h
    exact hj.of_mem hmem
  | array items =>
    simp only [record?, Option.ite_none_right_eq_some, Option.some_inj] at h
    obtain ⟨-, rfl⟩ := h
    rw [Distinct, distinctItems_iff] at hj
    exact hj v (List.of_mem_zip hmem).2
  | _ => cases h

theorem unsigned?_lt {j : Json} {n : Nat} (h : j.unsigned? = some n) : n < Nat.pow 2 64 := by
  cases j with
  | number x =>
    cases x with
    | integer i =>
      simp only [unsigned?, Number.unsigned?, Option.ite_none_right_eq_some, Option.some_inj] at h
      obtain ⟨⟨-, hlt⟩, rfl⟩ := h
      exact hlt
    | float => cases h
  | _ => cases h

theorem unsigned?_ofNat {n : Nat} (h : n < Nat.pow 2 64) : (ofNat n).unsigned? = some n := by
  have hn : (0 : Int) ≤ n ∧ (n : Int).toNat < Nat.pow 2 64 := ⟨Int.natCast_nonneg n, h⟩
  rw [ofNat, unsigned?, Number.unsigned?, if_pos hn]
  rfl

section

variable {ms : Members Json} {name : String}

theorem unset?_bool {value : Option Bool} (h : ms.lookup name = value.map .bool) :
    unset? ms name bool? = some value :=
  unset?_of_lookup h fun _ _ => ⟨by simp, rfl⟩

theorem unset?_string {value : Option String} (h : ms.lookup name = value.map .string) :
    unset? ms name string? = some value :=
  unset?_of_lookup h fun _ _ => ⟨by simp, rfl⟩

theorem unset?_unsigned {value : Option Nat} (h : ms.lookup name = value.map .ofNat)
    (hvalue : ∀ n, value = some n → n < Nat.pow 2 64) : unset? ms name unsigned? = some value :=
  unset?_of_lookup h fun n hn => ⟨by simp [ofNat], unsigned?_ofNat (hvalue n hn)⟩

theorem lt_of_unset? {value : Option Nat} (h : unset? ms name unsigned? = some value) :
    ∀ n, value = some n → n < Nat.pow 2 64 := by
  intro n hn
  obtain ⟨j, -, -, hj⟩ := lookup_of_unset? h hn
  exact unsigned?_lt hj

end

end FormCompiler.Json
