import FormCompiler.Endpoint.Table
import FormCompiler.Proofs.Json.Record
import FormCompiler.Proofs.Table.Functions
import FormCompiler.Settings.Basic

namespace FormCompiler

namespace LookupNode

variable {φ : Type}

theorem rising_of_ordered {functions : Members φ} (h : functions.Ordered) : Rising functions := by
  refine List.Pairwise.imp ?_ h
  intro earlier later hlt
  constructor
  · rintro rfl
    exact String.lt_irrefl later hlt
  · intro habove
    exact String.lt_asymm hlt habove.lt

theorem rising_of_apart {functions : Members φ} (h : functions.names.Nodup)
    (hapart : ∀ p ∈ functions.names, ∀ q ∈ functions.names, ¬ Text.Above p q) :
    Rising functions := by
  apply List.Pairwise.imp_of_mem _ h
  intro earlier later hearlier hlater hne
  exact ⟨Ne.symm hne, hapart later hlater earlier hearlier⟩

theorem kindAt?_empty (table : LookupTable φ) : table.kindAt? "" = none := by
  rw [kindAt?, at?, nodeAt?, if_pos rfl]
  rfl

theorem kindAt?_perm {functions functions' : Members φ} (hperm : functions.Perm functions')
    (h : Rising functions) (h' : Rising functions') (hnodup : functions.names.Nodup)
    (path : String) : (ofFunctions functions).kindAt? path = (ofFunctions functions').kindAt? path := by
  by_cases hpath : path = ""
  · subst hpath
    rw [kindAt?_empty, kindAt?_empty]
  · have hnames : ∀ key, key ∈ functions.names ↔ key ∈ functions'.names :=
      fun key => (hperm.map _).mem_iff
    have hlonger : (∃ key ∈ functions.names, Text.Above path key) ↔
        ∃ key ∈ functions'.names, Text.Above path key :=
      exists_congr fun key => and_congr_left' (hnames key)
    rw [kindAt?_ofFunctions h hpath, kindAt?_ofFunctions h' hpath,
      Members.lookup_perm hperm hnodup]
    by_cases hlong : ∃ key ∈ functions.names, Text.Above path key
    · rw [if_pos hlong, if_pos (hlonger.mp hlong)]
    · rw [if_neg hlong, if_neg (mt hlonger.mpr hlong)]

end LookupNode

namespace EndpointTable

def prepareAll (env : Environment) (endpoints : Members Endpoint) : Members Remote :=
  endpoints.map fun (path, e) => (path, e.prepare env)

theorem names_prepareAll (env : Environment) (endpoints : Members Endpoint) :
    (prepareAll env endpoints).names = endpoints.names := by
  simp [prepareAll, Members.names, Function.comp_def]

theorem mem_prepareAll {env : Environment} {endpoints : Members Endpoint} {path : String}
    {f : Remote} :
    (path, f) ∈ prepareAll env endpoints ↔ ∃ e, (path, e) ∈ endpoints ∧ f = e.prepare env := by
  simp only [prepareAll, List.mem_map, Prod.mk.injEq, Prod.exists]
  constructor
  · rintro ⟨_, e, hmem, rfl, rfl⟩
    exact ⟨e, hmem, rfl⟩
  · rintro ⟨e, hmem, rfl⟩
    exact ⟨path, e, hmem, rfl, rfl⟩

theorem ofEndpoints_eq (env : Environment) (endpoints : Members Endpoint) :
    ofEndpoints env endpoints = .ofFunctions (prepareAll env endpoints) := by
  rw [LookupNode.ofFunctions, prepareAll, List.foldl_map]
  rfl

def written? : Json → Option Endpoint
  | .object ms => Endpoint.read? Json.record? (.object ms)
  | _ => none

def Writes (members : Members Json) (endpoints : Members Endpoint) : Prop :=
  ∃ es, Json.membersOf? written? (.object members) = some es ∧ es.Perm endpoints

theorem hasAddress_of_read? {ms : Members Json} {e : Endpoint}
    (h : Endpoint.read? Json.record? (.object ms) = some e) : hasAddress ms = true := by
  obtain ⟨url, hurl, -⟩ := Option.bind_eq_some_iff.mp h
  rw [Json.required?] at hurl
  rw [hasAddress, hurl]
  rfl

theorem node?_of_written? (env : Environment) {j : Json} {e : Endpoint} (h : written? j = some e) :
    node? env j = some (.function (e.prepare env)) := by
  cases j with
  | object ms =>
    have hread : Endpoint.read? Json.record? (.object ms) = some e := h
    rw [node?, if_pos (hasAddress_of_read? hread), hread]
    rfl
  | _ => cases h

theorem children?_of_written? (env : Environment) {members : Members Json}
    {endpoints : Members Endpoint}
    (h : Json.membersOf? written? (.object members) = some endpoints) :
    children? env members =
      some (endpoints.map fun (path, e) => (path, .function (e.prepare env))) := by
  have hforall := Json.forall₂_of_mapM h
  clear h
  induction hforall with
  | nil => rw [children?]; rfl
  | @cons m m' members endpoints hm _ ih =>
    obtain ⟨key, j⟩ := m
    obtain ⟨e, he, rfl⟩ := Option.map_eq_some_iff.mp hm
    rw [children?, node?_of_written? env he, ih]
    rfl

theorem ofDocument_of_written? (env : Environment) {members : Members Json}
    {endpoints : Members Endpoint}
    (h : Json.membersOf? written? (.object members) = some endpoints) :
    ofDocument env (.object members) = .ok (.ofFunctions (prepareAll env endpoints)) := by
  rw [ofDocument, children?_of_written? env h, LookupNode.ofFunctions, prepareAll, List.foldl_map]
  dsimp only
  rw [List.foldl_map]

theorem ordered_prepareAll (env : Environment) {endpoints : Members Endpoint}
    (h : endpoints.Ordered) : (prepareAll env endpoints).Ordered := by
  rw [Members.Ordered, names_prepareAll]
  exact h

theorem at?_ofEndpoints_eq_function (env : Environment) {endpoints : Members Endpoint}
    (h : endpoints.Ordered) {path : String} (hpath : path ≠ "") (f : Remote) :
    (ofEndpoints env endpoints).at? path = some (.function f) ↔
      (∃ e, (path, e) ∈ endpoints ∧ f = e.prepare env) ∧
        ∀ s, path ++ "." ++ s ∉ endpoints.names := by
  have hordered := ordered_prepareAll env h
  have hlookup : ((prepareAll env endpoints).lookup path).map NodeKind.function =
      some (.function f) ↔ ∃ e, (path, e) ∈ endpoints ∧ f = e.prepare env := by
    rw [Option.map_eq_some_iff]
    simp only [NodeKind.function.injEq, exists_eq_right,
      Members.lookup_eq_some_iff hordered.nodup, mem_prepareAll]
  rw [LookupNode.at?_eq_function_iff, ofEndpoints_eq,
    LookupNode.kindAt?_ofFunctions (LookupNode.rising_of_ordered hordered) hpath, names_prepareAll]
  split
  case isTrue hlonger =>
    obtain ⟨key, hkey, s, rfl⟩ := hlonger
    simp only [Option.some_inj, reduceCtorEq, false_iff]
    exact fun ⟨_, hend⟩ => hend s hkey
  case isFalse hlonger =>
    have hend : ∀ s, path ++ "." ++ s ∉ endpoints.names :=
      fun s hmem => hlonger ⟨_, hmem, s, rfl⟩
    rw [hlookup]
    exact ⟨fun he => ⟨he, hend⟩, fun he => he.1⟩

theorem kindAt?_of_perm (env : Environment) {endpoints es : Members Endpoint}
    (h : endpoints.Ordered) (hperm : es.Perm endpoints)
    (hapart : ∀ path ∈ endpoints.names, ∀ s, path ++ "." ++ s ∉ endpoints.names) (path : String) :
    (LookupNode.ofFunctions (prepareAll env es)).kindAt? path =
      (ofEndpoints env endpoints).kindAt? path := by
  have hnames : (prepareAll env es).names.Perm endpoints.names := by
    rw [names_prepareAll]
    exact hperm.map _
  have hnodup := hnames.nodup_iff.mpr h.nodup
  have hrising : LookupNode.Rising (prepareAll env es) := by
    apply LookupNode.rising_of_apart hnodup
    rintro p hp q hq ⟨s, rfl⟩
    exact hapart p (hnames.mem_iff.mp hp) s (hnames.mem_iff.mp hq)
  rw [ofEndpoints_eq]
  exact LookupNode.kindAt?_perm (hperm.map _) hrising
    (LookupNode.rising_of_ordered (ordered_prepareAll env h)) hnodup path

end EndpointTable

theorem Settings.ordered_endpoints {record : Json.RecordReader} {j : Json} {settings : Settings}
    (h : Settings.read? record j = some settings) : settings.endpoints.Ordered := by
  simp only [Settings.read?, Option.bind_eq_bind, Option.bind_eq_some_iff] at h
  obtain ⟨ms, -, wording, -, dictionaries, -, endpoints, hendpoints, h⟩ := h
  cases h
  unfold Json.defaulted? at hendpoints
  split at hendpoints
  · cases hendpoints
    exact List.Pairwise.nil
  · obtain ⟨written, -, rfl⟩ := Option.map_eq_some_iff.mp hendpoints
    exact Members.ordered_sorted written

open EndpointTable in
/-- In a table of endpoints with dotted paths a path leads to its endpoint unless a longer path goes
on from it. When no path goes on from another one, a document that writes the endpoints as its
members, in any order, makes a table that cannot be told from it. -/
theorem endpoints_reachable (env : Environment) {endpoints : Members Endpoint}
    (h : endpoints.Ordered) :
    (∀ path f, (ofEndpoints env endpoints).at? path = some (.function f) ↔
      path ≠ "" ∧ (∃ e, (path, e) ∈ endpoints ∧ f = e.prepare env) ∧
        ∀ s, path ++ "." ++ s ∉ endpoints.names) ∧
    ((∀ path ∈ endpoints.names, ∀ s, path ++ "." ++ s ∉ endpoints.names) →
      ∀ members, Writes members endpoints →
        ∃ table, ofDocument env (.object members) = .ok table ∧
          ∀ path, (table.at? path).map LookupNode.kind =
            ((ofEndpoints env endpoints).at? path).map LookupNode.kind) := by
  constructor
  · intro path f
    by_cases hpath : path = ""
    · subst hpath
      simp [LookupNode.at?_eq_function_iff, LookupNode.kindAt?_empty]
    · rw [at?_ofEndpoints_eq_function env h hpath]
      simp only [ne_eq, hpath, not_false_eq_true, true_and]
  · rintro hapart members ⟨es, hes, hperm⟩
    exact ⟨_, ofDocument_of_written? env hes, kindAt?_of_perm env h hperm hapart⟩

open EndpointTable in
theorem endpoints_reachable_unordered :
    let list : Endpoint := { url := "https://shop.example/list" }
    let query : Endpoint := { url := "https://shop.example/$\x7benv:HOST\x7d" }
    let endpoints := Members.sorted [("api.query", query), ("api.list", list)]
    endpoints.Ordered ∧
      (ofEndpoints [] endpoints).at? "api.query" = some (.function (query.prepare [])) ∧
      ∃ table, ofDocument [] (.object [("api.query", query.toJson), ("api.list", list.toJson)]) =
          .ok table ∧
        (table.at? "api.query").map LookupNode.kind = some (.function (query.prepare [])) := by
  intro list query endpoints
  have hordered : endpoints.Ordered := Members.ordered_sorted _
  obtain ⟨hreach, hdocument⟩ := endpoints_reachable [] hordered
  have hsegments : ∀ name ∈ endpoints.names, (Text.segments name).length = 2 := by decide
  have hapart : ∀ path ∈ endpoints.names, ∀ s, path ++ "." ++ s ∉ endpoints.names := by
    intro path hpath s hmem
    have hlength := hsegments _ hmem
    rw [Text.segments_dotted, List.length_append, hsegments path hpath] at hlength
    exact Text.segments_ne_nil s (List.length_eq_zero_iff.mp (by omega))
  have hquery : (ofEndpoints [] endpoints).at? "api.query" = some (.function (query.prepare [])) := by
    apply (hreach "api.query" _).mpr
    exact ⟨by decide, ⟨query, .tail _ (.head _), rfl⟩, hapart "api.query" (by decide)⟩
  have hwrites : Writes [("api.query", query.toJson), ("api.list", list.toJson)] endpoints :=
    ⟨[("api.query", query), ("api.list", list)], rfl, List.Perm.swap _ _ _⟩
  obtain ⟨table, htable, hsame⟩ := hdocument hapart _ hwrites
  refine ⟨hordered, hquery, table, htable, ?_⟩
  rw [hsame, hquery]
  rfl

end FormCompiler
