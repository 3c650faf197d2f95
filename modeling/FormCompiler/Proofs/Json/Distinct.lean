import FormCompiler.Json.Parser
import FormCompiler.Proofs.Members

namespace FormCompiler

namespace Json

mutual

def Distinct : Json → Prop
  | .array items => DistinctItems items
  | .object ms => (Members.names ms).Nodup ∧ DistinctMembers ms
  | _ => True

def DistinctItems : List Json → Prop
  | [] => True
  | j :: rest => Distinct j ∧ DistinctItems rest

def DistinctMembers : Members Json → Prop
  | [] => True
  | (_, j) :: rest => Distinct j ∧ DistinctMembers rest

end

theorem distinctMembers_iff (ms : Members Json) :
    DistinctMembers ms ↔ ∀ name j, (name, j) ∈ ms → j.Distinct := by
  induction ms with
  | nil => simp [DistinctMembers]
  | cons m ms ih =>
    obtain ⟨k, v⟩ := m
    rw [DistinctMembers, ih]
    constructor
    · rintro ⟨hv, hms⟩ name j hmem
      rcases List.mem_cons.mp hmem with he | hmem
      · cases he
        exact hv
      · exact hms name j hmem
    · intro h
      exact ⟨h k v List.mem_cons_self, fun name j hmem => h name j (List.mem_cons_of_mem _ hmem)⟩

theorem distinctItems_iff (items : List Json) :
    DistinctItems items ↔ ∀ j ∈ items, j.Distinct := by
  induction items with
  | nil => simp [DistinctItems]
  | cons j items ih => rw [DistinctItems, ih, List.forall_mem_cons]

theorem Distinct.names {ms : Members Json} (h : (Json.object ms).Distinct) :
    (Members.names ms).Nodup := by
  rw [Distinct] at h
  exact h.1

theorem Distinct.of_mem {ms : Members Json} (h : (Json.object ms).Distinct) {name : String}
    {j : Json} (hmem : (name, j) ∈ ms) : j.Distinct := by
  rw [Distinct] at h
  exact (distinctMembers_iff ms).mp h.2 name j hmem

theorem Distinct.get? {j value : Json} (h : j.Distinct) {name : String}
    (hget : j.get? name = some value) : value.Distinct := by
  cases j with
  | object ms => exact h.of_mem (Members.mem_of_lookup hget)
  | _ => cases hget

theorem distinct_foldl_set (ms acc : Members Json) (hacc : (Json.object acc).Distinct)
    (hms : DistinctMembers ms) :
    (Json.object (ms.foldl (fun acc (k, v) => Members.set acc k v) acc)).Distinct := by
  induction ms generalizing acc with
  | nil => exact hacc
  | cons m ms ih =>
    obtain ⟨k, v⟩ := m
    rw [DistinctMembers] at hms
    refine ih _ ?_ hms.2
    rw [Distinct, distinctMembers_iff]
    constructor
    · rw [Members.names_set]
      split
      · exact hacc.names
      case isFalse hk => simpa using hacc.names.concat hk
    · intro name j hmem
      rcases Members.mem_set hmem with he | hmem
      · cases he
        exact hms.1
      · exact hacc.of_mem hmem

mutual

theorem distinct_merged : (j : Json) → (merged j).Distinct
  | .null | .bool _ | .number _ | .string _ => by simp [merged, Distinct]
  | .array items => by
    rw [merged, Distinct]
    exact distinctItems_merged items
  | .object ms => by
    rw [merged]
    exact distinct_foldl_set _ [] (by simp [Distinct, DistinctMembers]) (distinctMembers_merged ms)

theorem distinctItems_merged : (items : List Json) → DistinctItems (mergedItems items)
  | [] => by simp [mergedItems, DistinctItems]
  | j :: rest => by
    rw [mergedItems, DistinctItems]
    exact ⟨distinct_merged j, distinctItems_merged rest⟩

theorem distinctMembers_merged : (ms : Members Json) → DistinctMembers (mergedMembers ms)
  | [] => by simp [mergedMembers, DistinctMembers]
  | (_, j) :: rest => by
    rw [mergedMembers, DistinctMembers]
    exact ⟨distinct_merged j, distinctMembers_merged rest⟩

end

theorem distinct_parse {text : String} {j : Json} (h : parse text = some j) : j.Distinct := by
  obtain ⟨written, -, rfl⟩ := Option.map_eq_some_iff.mp h
  exact distinct_merged written

end Json

end FormCompiler
