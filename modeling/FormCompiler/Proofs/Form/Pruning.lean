import FormCompiler.Proofs.Form.Omissions

namespace FormCompiler

namespace Form

namespace Field

def regularNames : List String :=
  ["title", "type", "emptyValue", "required", "requiredMessage", "disabled", "hidden",
    "placeholder", "pattern", "patternMessage", "maxLength", "enums", "enumDict", "enumApi",
    "enumApiParams", "widget", "bindBlock", "bindCode", "maxCount", "maxSize", "fileTypes",
    "fieldClass"]

def passedOn (start : String) (ms : Members Json) : Members Json :=
  ms.filter fun (name, _) => name.startsWith start && !regularNames.contains name

def kept (start : String) (ms : Members Json) : Members Json :=
  ms.filter fun (name, _) => name.startsWith start || regularNames.contains name

def pruned (start : String) : Json → Json
  | .object ms => .object (kept start ms)
  | j => j

def trimmed (start : String) (f : Field) : Field := { f with attributes := f.extensions start }

theorem isSome_role? (name : String) : (role? name).isSome = regularNames.contains name := by
  unfold role?
  split <;> simp_all [regularNames]

theorem isNone_role? (name : String) : (role? name).isNone = !regularNames.contains name := by
  rw [← isSome_role?, Option.not_isSome]

theorem readable_of_attribute {name : String} (h : regularNames.contains name = false) (j : Json) :
    readable name j = true := by
  rw [← isSome_role?, Option.isSome_eq_false_iff, Option.isNone_iff_eq_none] at h
  rw [readable, h]

theorem notice?_of_attribute {name : String} (h : regularNames.contains name = false) (j : Json) :
    notice? name j = none := by
  rw [← isSome_role?, Option.isSome_eq_false_iff, Option.isNone_iff_eq_none] at h
  rw [notice?, h]

theorem extensions_ofMembers (ms : Members Json) (start : String) :
    (ofMembers ms).extensions start = passedOn start ms := by
  rw [extensions, ofMembers, Members.startingWith, List.filter_filter, passedOn]
  apply List.filter_congr
  rintro ⟨name, j⟩ -
  exact congrArg (name.startsWith start && ·) (isNone_role? name)

theorem ofMembers_kept (start : String) (ms : Members Json) :
    ofMembers (kept start ms) = (ofMembers ms).trimmed start := by
  have hkept : ∀ name, name ∈ regularNames → (kept start ms).lookup name = ms.lookup name := by
    intro name h
    have hfilter := Members.lookup_filter ms
      (fun name => name.startsWith start || regularNames.contains name) name
    rw [if_pos (by simp [h])] at hfilter
    exact hfilter
  have hattributes : (kept start ms).filter (fun (name, _) => (role? name).isNone) =
      (ofMembers ms).extensions start := by
    rw [extensions_ofMembers, kept, List.filter_filter, passedOn]
    apply List.filter_congr
    rintro ⟨name, j⟩ -
    dsimp only
    rw [isNone_role?, Bool.and_or_distrib_left, Bool.not_and_self, Bool.or_false, Bool.and_comm]
  rw [trimmed, ← hattributes]
  simp (disch := decide) only [ofMembers, lenient, flag, Choice.set?, hkept]

theorem read?_pruned (start : String) (j : Json) :
    read? (pruned start j) = (read? j).map (trimmed start) := by
  cases j with
  | object ms =>
    have hall : (kept start ms).all (fun (name, j) => readable name j) =
        ms.all fun (name, j) => readable name j := by
      rw [kept, List.all_filter]
      congr 1
      funext ⟨name, j⟩
      dsimp only
      cases hname : regularNames.contains name with
      | true => rw [Bool.or_true, Bool.not_true, Bool.false_or]
      | false => rw [readable_of_attribute hname, Bool.or_true]
    rw [pruned, read?, read?, hall, ofMembers_kept]
    split <;> rfl
  | _ => rfl

theorem notices_kept (start : String) (ms : Members Json) :
    notices (.object (kept start ms)) = notices (.object ms) := by
  rw [notices, notices]
  induction ms with
  | nil => rfl
  | cons m ms ih =>
    obtain ⟨name, j⟩ := m
    cases hname : regularNames.contains name with
    | true =>
      have hkept : kept start ((name, j) :: ms) = (name, j) :: kept start ms :=
        List.filter_cons_of_pos (Bool.or_eq_true_iff.mpr (.inr hname))
      rw [hkept, List.takeWhile_cons, List.takeWhile_cons]
      by_cases hread : readable name j = true
      · rw [if_pos hread, if_pos hread, List.filterMap_cons, List.filterMap_cons, ih]
      · rw [if_neg hread, if_neg hread]
    | false =>
      have hread := readable_of_attribute hname j
      have hskip : ∀ rest : Members Json,
          (((name, j) :: rest).takeWhile fun (name, j) => readable name j).filterMap
              (fun (name, j) => notice? name j) =
            (rest.takeWhile fun (name, j) => readable name j).filterMap fun (name, j) =>
              notice? name j := by
        intro rest
        rw [List.takeWhile_cons, if_pos hread]
        exact List.filterMap_cons_none (notice?_of_attribute hname j)
      rw [hskip, ← ih]
      by_cases hkeep : (name.startsWith start || regularNames.contains name) = true
      · have hkept : kept start ((name, j) :: ms) = (name, j) :: kept start ms :=
          List.filter_cons_of_pos hkeep
        rw [hkept, hskip]
      · have hkept : kept start ((name, j) :: ms) = kept start ms := List.filter_cons_of_neg hkeep
        rw [hkept]

theorem notices_pruned (start : String) (j : Json) : notices (pruned start j) = notices j := by
  cases j with
  | object ms => exact notices_kept start ms
  | _ => rfl

end Field

def prunedFields (start : String) : Json → Json
  | .object fields => .object (fields.map fun (name, j) => (name, Field.pruned start j))
  | j => j

def Block.pruned (start : String) : Json → Json
  | .object own => .object (Members.update own "properties" (prunedFields start))
  | j => j

def pruned (start : String) (ms : Members Json) : Members Json :=
  ms.map fun (key, j) => (key, Block.pruned start j)

def Block.trimmed (start : String) (b : Block) : Block :=
  { b with fields := b.fields.map fun (key, f) => (key, f.trimmed start) }

def trimmed (start : String) (form : Form) : Form :=
  { form with blocks := form.blocks.map fun (key, b) => (key, b.trimmed start) }

theorem readFields_pruned (start : String) (fields : Members Json) :
    Block.readFields (fields.map fun (name, j) => (name, Field.pruned start j)) =
      (Block.readFields fields).map fun (key, f) => (key, f.trimmed start) := by
  rw [Block.readFields, Block.readFields, List.filterMap_map, List.map_filterMap]
  apply List.filterMap_congr
  rintro ⟨name, j⟩ -
  simp only [Function.comp_apply, Field.read?_pruned, Option.map_map]
  rfl

theorem fieldNotices_pruned (start block name : String) (j : Json) :
    Block.fieldNotices block name (Field.pruned start j) = Block.fieldNotices block name j := by
  rw [Block.fieldNotices, Block.fieldNotices, Field.notices_pruned, Field.read?_pruned,
    Option.isSome_map]

theorem parts?_pruned (start : String) (j : Json) :
    Block.parts? (Block.pruned start j) = (Block.parts? j).map fun (own, fields) =>
      (Members.update own "properties" (prunedFields start),
        fields.map fun (name, j) => (name, Field.pruned start j)) := by
  cases j with
  | object own =>
    simp only [Block.pruned, Block.parts?, Json.members?, Option.bind_eq_bind, Option.bind_some,
      Members.lookup_update, ↓reduceIte]
    cases own.lookup "properties" with
    | none => rfl
    | some p => cases p <;> rfl
  | _ => rfl

theorem blockParts_pruned (start : String) (ms : Members Json) :
    blockParts (pruned start ms) = (blockParts ms).map fun (key, own, fields) =>
      (key, Members.update own "properties" (prunedFields start),
        fields.map fun (name, j) => (name, Field.pruned start j)) := by
  rw [blockParts, pruned, List.filterMap_map, blockParts, List.map_filterMap]
  apply List.filterMap_congr
  rintro ⟨key, j⟩ -
  simp only [Function.comp_apply, parts?_pruned]
  split
  · rfl
  · rw [Option.map_map, Option.map_map]
    rfl

theorem names_nodup_of_blockParts {ms : Members Json} (h : (Json.object ms).Distinct)
    {key : String} {own fields : Members Json} (hparts : (key, own, fields) ∈ blockParts ms) :
    own.names.Nodup := by
  obtain ⟨⟨key', j⟩, hj, hread⟩ := List.mem_filterMap.mp hparts
  rw [Option.ite_none_left_eq_some] at hread
  obtain ⟨-, hread⟩ := hread
  obtain ⟨parts, hp, he⟩ := Option.map_eq_some_iff.mp hread
  cases he
  obtain ⟨rfl, -⟩ := (parts?_eq_some_iff j own fields).mp hp
  exact (h.of_mem hj).names

theorem ownMembers_pruned {own : Members Json} (h : own.names.Nodup) (start : String) :
    Block.ownMembers (Members.update own "properties" (prunedFields start)) =
      Block.ownMembers own :=
  Members.swapErase_update h "properties" _

theorem notices_pruned {ms : Members Json} (h : (Json.object ms).Distinct) (start : String) :
    notices (pruned start ms) = notices ms := by
  rw [notices, blockParts_pruned, List.flatMap_map, notices]
  apply List.flatMap_congr
  rintro ⟨key, own, fields⟩ hparts
  have hown := ownMembers_pruned (names_nodup_of_blockParts h hparts) start
  simp only [Block.notices, Block.titleNotices, Block.readOwn?, hown, List.flatMap_map,
    fieldNotices_pruned]
  rfl

theorem readTitle_pruned (start : String) (ms : Members Json) :
    readTitle (pruned start ms) = readTitle ms := by
  have hlookup : (pruned start ms).lookup titleKey =
      (ms.lookup titleKey).map (Block.pruned start) :=
    Members.lookup_mapValues ms (fun _ j => Block.pruned start j) titleKey
  rw [readTitle, hlookup, readTitle]
  cases ms.lookup titleKey with
  | none => rfl
  | some j => cases j <;> rfl

theorem ofMembers_pruned {ms : Members Json} (h : (Json.object ms).Distinct) (start : String) :
    ofMembers (pruned start ms) = (ofMembers ms).trimmed start := by
  rw [ofMembers, readTitle_pruned, blockParts_pruned, trimmed, ofMembers, List.map_map,
    List.map_map]
  congr 1
  apply List.map_congr_left
  rintro ⟨key, own, fields⟩ hparts
  have hown := ownMembers_pruned (names_nodup_of_blockParts h hparts) start
  simp only [Function.comp_apply, Block.ofMembers, Block.readOwn?, hown, readFields_pruned,
    Block.trimmed]

end Form

end FormCompiler
