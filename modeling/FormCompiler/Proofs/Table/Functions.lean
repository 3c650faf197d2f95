import FormCompiler.Proofs.Table.Insertion
import FormCompiler.Proofs.Text.Segments
import Mathlib.Data.List.Induction

namespace FormCompiler

variable {φ : Type}

inductive NodeKind (φ : Type) where
  | group
  | function (f : φ)
  | value (j : Json)

namespace LookupNode

def kind : LookupNode φ → NodeKind φ
  | .group _ => .group
  | .function f => .function f
  | .value j => .value j

def kindAt? (table : LookupTable φ) (path : String) : Option (NodeKind φ) :=
  (table.at? path).map kind

theorem at?_eq_function_iff (table : LookupTable φ) (path : String) (f : φ) :
    table.at? path = some (.function f) ↔ table.kindAt? path = some (.function f) := by
  rw [kindAt?]
  cases table.at? path with
  | none => simp
  | some node => cases node <;> simp [kind]

def ofFunctions (functions : Members φ) : LookupTable φ :=
  functions.foldl (fun table (path, f) => table.insert path (.function f)) empty

theorem kindAt?_insert (table : LookupTable φ) (key : String) (f : φ) {path : String}
    (hpath : path ≠ "") :
    (path = key → (table.insert key (.function f)).kindAt? path = some (.function f)) ∧
      (Text.Above path key → (table.insert key (.function f)).kindAt? path = some .group) ∧
      (Text.Above key path → (table.insert key (.function f)).kindAt? path = none) ∧
      (path ≠ key → ¬ Text.Above path key → ¬ Text.Above key path →
        (table.insert key (.function f)).kindAt? path = table.kindAt? path) := by
  have hat : ∀ t : LookupTable φ, t.kindAt? path =
      (walk child? t (Text.segments path)).map kind := by
    intro t
    rw [kindAt?, at?, nodeAt?, if_neg hpath]
  simp only [hat, insert]
  refine ⟨?_, ?_, ?_, ?_⟩
  · rintro rfl
    have hself := walk_insertAt_append (.function f) table (Text.segments path) []
    rw [List.append_nil] at hself
    rw [hself]
    rfl
  · intro habove
    obtain ⟨rest, hrest, hkey⟩ := (Text.above_iff path key).mp habove
    obtain ⟨children, hwalk⟩ := walk_insertAt_above (.function f) table hrest
    rw [hkey, hwalk]
    rfl
  · intro hbelow
    obtain ⟨rest, hrest, hsegments⟩ := (Text.above_iff key path).mp hbelow
    rw [hsegments, walk_insertAt_append]
    cases rest with
    | nil => exact absurd rfl hrest
    | cons segment rest => rfl
  · intro hne habove hbelow
    rw [walk_insertAt_beside]
    · exact fun hprefix => hbelow (Text.above_of_prefix hprefix (Ne.symm hne))
    · exact fun hprefix => habove (Text.above_of_prefix hprefix hne)

def Rising (functions : Members φ) : Prop :=
  functions.names.Pairwise fun earlier later => later ≠ earlier ∧ ¬ Text.Above later earlier

open scoped Classical in
theorem kindAt?_ofFunctions {functions : Members φ} (h : Rising functions) {path : String}
    (hpath : path ≠ "") :
    (ofFunctions functions).kindAt? path =
      if ∃ key ∈ functions.names, Text.Above path key then some .group
      else (functions.lookup path).map .function := by
  induction functions using List.reverseRecOn with
  | nil => simp [ofFunctions, kindAt?, at?, nodeAt?, hpath, walk_empty (Text.segments_ne_nil path)]
  | append_singleton functions last ih =>
    obtain ⟨key, f⟩ := last
    rw [Rising, Members.names_append, List.pairwise_append] at h
    obtain ⟨hrising, -, hlast⟩ := h
    have hearlier : ∀ k ∈ Members.names functions, key ≠ k ∧ ¬ Text.Above key k :=
      fun k hk => hlast k hk key (by simp)
    have hnames : (∃ k ∈ Members.names (functions ++ [(key, f)]), Text.Above path k) ↔
        (∃ k ∈ Members.names functions, Text.Above path k) ∨ Text.Above path key := by
      simp [or_and_right, exists_or]
    have hstep : ofFunctions (functions ++ [(key, f)]) =
        (ofFunctions functions).insert key (.function f) := by
      simp [ofFunctions]
    obtain ⟨hself, habove, hbelow, hother⟩ := kindAt?_insert (ofFunctions functions) key f hpath
    rw [hstep, List.lookup_append, Members.lookup_cons_ite, List.lookup_nil]
    simp only [hnames]
    by_cases hself' : path = key
    · subst hself'
      have hnone : functions.lookup path = none := by
        rw [Members.lookup_eq_none_iff]
        exact fun hmem => (hearlier path hmem).1 rfl
      rw [hself rfl, hnone, if_pos rfl, if_neg]
      · rfl
      · rintro (⟨k, hk, hk'⟩ | hk')
        · exact (hearlier k hk).2 hk'
        · exact String.lt_irrefl path hk'.lt
    by_cases habove' : Text.Above path key
    · rw [habove habove', if_pos (.inr habove')]
    by_cases hbelow' : Text.Above key path
    · -- no earlier path is one that the last one leads to
      have hnone : functions.lookup path = none := by
        rw [Members.lookup_eq_none_iff]
        exact fun hmem => (hearlier path hmem).2 hbelow'
      rw [hbelow hbelow', hnone, if_neg hself', if_neg]
      · rfl
      · rintro (⟨k, hk, hk'⟩ | hk')
        · exact (hearlier k hk).2 (hbelow'.trans hk')
        · exact habove' hk'
    · rw [hother hself' habove' hbelow', ih hrising, if_neg hself', Option.or_none]
      simp only [habove', or_false]

end LookupNode

end FormCompiler
