import FormCompiler.Proofs.Files
import FormCompiler.Proofs.Resolution.AtHand
import FormCompiler.Workspace
import Mathlib.Logic.Relation

namespace FormCompiler

theorem toOption_mapError {ε ε' α : Type} (result : Except ε α) (f : ε → ε') :
    (result.mapError f).toOption = result.toOption := by
  cases result <;> rfl

namespace Workspace

variable (w : Workspace) (env : Environment) (files : FileTree) (tables : TableFiles)

def dictionary? : Option Json :=
  (w.settings.dictionaries ++ tables.dictionaries).findSome? fun path =>
    (Document.load files (Path.resolve w.directory path)).toOption

def endpointTable? : Option (LookupTable Remote) :=
  match w.settings.endpoints with
  | [] => do
    let path ← tables.lookups
    let document ← (Document.load files (Path.resolve w.directory path)).toOption
    (EndpointTable.ofDocument env document).toOption
  | endpoints => some (EndpointTable.ofEndpoints env endpoints)

def fileStrategies : List (Strategy (LookupTable Remote)) :=
  (tables.lookups.map fun path => endpointFile env files (w.resolve path)).toList

def supply (backend : Backend Remote) : Supply Remote where
  dictionaries := w.dictionaryStrategies files tables
  lookups := w.lookupStrategies env files tables
  backend := backend

theorem table?_dictionaryStrategies :
    Strategy.table? (w.dictionaryStrategies files tables) = w.dictionary? files tables := by
  rw [Strategy.table?, dictionaryStrategies, dictionaryPaths, List.map_map, List.findSome?_map,
    dictionary?]
  congr 1
  funext path
  exact toOption_mapError _ _

theorem outcome_endpointFile (path : String) (n : Nat) :
    ((endpointFile env files path).attempt n).outcome.toOption =
      (Document.load files path).toOption.bind fun document =>
        (EndpointTable.ofDocument env document).toOption := by
  simp only [endpointFile, EndpointTable.ofFile]
  cases Document.load files path with
  | error e => rfl
  | ok document => exact toOption_mapError _ _

theorem lookupStrategies_of_endpoints (h : w.settings.endpoints ≠ []) :
    w.lookupStrategies env files tables =
      tableAtHand "settings" (EndpointTable.ofEndpoints env w.settings.endpoints) ::
        w.fileStrategies env files tables := by
  rw [lookupStrategies, if_neg (by simpa using h)]
  rfl

theorem table?_lookupStrategies :
    Strategy.table? (w.lookupStrategies env files tables) = w.endpointTable? env files tables := by
  unfold endpointTable?
  split
  case h_1 hnone =>
    rw [lookupStrategies, hnone, List.isEmpty_nil, if_pos rfl, List.nil_append]
    cases tables.lookups with
    | none => rfl
    | some path =>
      have houtcome := outcome_endpointFile env files (w.resolve path) 0
      rw [Option.map_some, Option.toList_some, Strategy.table?_cons, houtcome]
      exact Option.or_none
  case h_2 hendpoints =>
    rw [w.lookupStrategies_of_endpoints env files tables hendpoints, Strategy.table?_cons]
    rfl

theorem constant_supply (backend : Backend Remote) :
    (w.supply env files tables backend).Constant where
  dictionaries s hs := by
    obtain ⟨path, -, rfl⟩ := List.mem_map.mp hs
    exact fun _ _ => rfl
  lookups s hs := by
    rcases List.mem_append.mp hs with hs | hs
    · split at hs
      · cases hs
      · rw [List.mem_singleton.mp hs]
        exact fun _ _ => rfl
    · obtain ⟨path, -, rfl⟩ := Option.map_eq_some_iff.mp (Option.mem_toList.mp hs)
      exact fun _ _ => rfl

theorem tables_supply (backend : Backend Remote) :
    (w.supply env files tables backend).tables = ⟨w.dictionary? files tables,
      w.endpointTable? env files tables⟩ := by
  rw [Supply.tables, supply, table?_dictionaryStrategies, table?_lookupStrategies]

theorem reaches_cache (backend : Backend Remote) :
    (w.supply env files tables backend).Reaches (w.cache env files tables) [] :=
  .note _ .init

theorem atHand_tableAtHand {τ : Type} (name : String) (table : τ) :
    (tableAtHand name table).AtHand := fun _ => ⟨rfl, table, rfl⟩

variable {w env files tables}

theorem dictionaryStrategies_congr {files' : FileTree} {tables' : TableFiles}
    (hdictionaries : tables'.dictionaries = tables.dictionaries)
    (hfiles : ∀ path ∈ w.dictionaryPaths tables,
      Document.load files' path = Document.load files path) :
    w.dictionaryStrategies files' tables' = w.dictionaryStrategies files tables := by
  rw [dictionaryStrategies, dictionaryPaths, hdictionaries]
  apply List.map_congr_left
  intro path hpath
  rw [dictionaryFile, hfiles path hpath]
  rfl

theorem cache_eq_withOthers (h : w.settings.endpoints ≠ []) {files' : FileTree}
    {tables' : TableFiles}
    (hstrategies : w.dictionaryStrategies files' tables' = w.dictionaryStrategies files tables) :
    w.cache env files' tables' =
      (w.cache env files tables).withOthers (w.fileStrategies env files' tables') := by
  rw [cache, hstrategies, w.lookupStrategies_of_endpoints env files' tables' h, cache,
    w.lookupStrategies_of_endpoints env files tables h]
  rfl

theorem reaches_withOthers (h : w.settings.endpoints ≠ []) {files' : FileTree}
    {tables' : TableFiles} {backend : Backend Remote} {c : Cache Remote} {tasks : List Task}
    (hstrategies : w.dictionaryStrategies files' tables' = w.dictionaryStrategies files tables)
    (hc : (w.supply env files tables backend).Reaches c tasks) :
    (w.supply env files' tables' backend).Reaches
      (c.withOthers (w.fileStrategies env files' tables')) tasks := by
  have hreaches := hc.withOthers (w.lookupStrategies_of_endpoints env files tables h)
    (atHand_tableAtHand _ _) (w.fileStrategies env files' tables')
  rw [← w.lookupStrategies_of_endpoints env files' tables' h] at hreaches
  simp only [supply, ← hstrategies] at hreaches
  exact hreaches

theorem atHand_cache (h : w.settings.endpoints ≠ []) {c : Cache Remote} {tasks : List Task}
    {backend : Backend Remote} (hc : (w.supply env files tables backend).Reaches c tasks) :
    c.AtHand :=
  hc.atHand (w.lookupStrategies_of_endpoints env files tables h) (atHand_tableAtHand _ _)

theorem compileForm_of_loaded {form : String} {document : Json}
    (h : Document.load files (w.resolve form) = .ok document) (backend : Backend Remote)
    (c : Cache Remote) :
    (w.compileForm files form backend c).1 = (compile document w.settings.options backend c).1 ∧
      (w.compileForm files form backend c).2.toOption =
        (compile document w.settings.options backend c).2 := by
  simp only [compileForm, h]
  generalize compile document w.settings.options backend c = compiled
  obtain ⟨c', schema⟩ := compiled
  cases schema <;> constructor <;> rfl

theorem compileForm_withOthers {files' : FileTree} {form : String} {c : Cache Remote}
    (hform : Document.load files' (w.resolve form) = Document.load files (w.resolve form))
    (backend : Backend Remote) (h : c.lookups.AtHand)
    (others : List (Strategy (LookupTable Remote))) :
    w.compileForm files' form backend (c.withOthers others) =
      ((w.compileForm files form backend c).1.withOthers others,
        (w.compileForm files form backend c).2) := by
  simp only [compileForm, hform]
  cases Document.load files (w.resolve form) with
  | error e => rfl
  | ok document =>
    have hcompile := compile_withOthers document w.settings.options backend h others
    simp only [hcompile]
    generalize compile document w.settings.options backend c = compiled
    obtain ⟨c', schema⟩ := compiled
    cases schema <;> rfl

theorem strategy_of_started (h : w.settings.endpoints ≠ []) {c : Cache Remote} {tasks : List Task}
    {backend : Backend Remote} (hc : (w.supply env files tables backend).Reaches c tasks) {i : Nat}
    (hi : .started .lookup i ∈ c.history) :
    (w.lookupStrategies env files tables)[i]? =
      some (tableAtHand "settings" (EndpointTable.ofEndpoints env w.settings.endpoints)) := by
  rw [(atHand_cache h hc).started i hi, w.lookupStrategies_of_endpoints env files tables h]
  rfl

end Workspace

/-- In whatever order and between whatever else a form is compiled, its fields get the document of
the first dictionary file that holds one, and the table of the endpoints in the settings or else of
the file of endpoints. With endpoints in the settings, that file is not read, and nothing changes
whether there is one or not and whatever it holds. -/
theorem workspace_tables (w : Workspace) (env : Environment) (files : FileTree)
    (tables : TableFiles) (backend : Backend Remote) :
    let supply := w.supply env files tables backend
    let c₀ := w.cache env files tables
    let given : Tables Remote := ⟨w.dictionary? files tables, w.endpointTable? env files tables⟩
    supply.Reaches c₀ [] ∧
    (∀ c tasks, supply.Reaches c tasks →
      (∀ document o, CompilesGiven given document o backend c (compile document o backend c).1
        (compile document o backend c).2) ∧
      (∀ form document, Document.load files (w.resolve form) = .ok document →
        CompilesGiven given document w.settings.options backend c
          (w.compileForm files form backend c).1
          (w.compileForm files form backend c).2.toOption) ∧
      ∀ document o between log y,
        (∀ c c' tasks, between c c' → supply.Reaches c tasks → supply.Reaches c' tasks) →
        (Resolution.activity backend).Runs between (awaiting document o c) log y →
        Resolution.Given backend given (awaiting document o c).2 log y.2) ∧
    (w.settings.endpoints ≠ [] →
      (∀ c tasks, supply.Reaches c tasks → ∀ i, .started .lookup i ∈ c.history →
        (w.lookupStrategies env files tables)[i]? =
          some (tableAtHand "settings" (EndpointTable.ofEndpoints env w.settings.endpoints))) ∧
      ∀ files' tables', tables'.dictionaries = tables.dictionaries →
        (∀ path ∈ w.dictionaryPaths tables,
          Document.load files' path = Document.load files path) →
        let supply' := w.supply env files' tables' backend
        let instead := fun c : Cache Remote => c.withOthers (w.fileStrategies env files' tables')
        w.cache env files' tables' = instead c₀ ∧
        ∀ c tasks, supply.Reaches c tasks →
          supply'.Reaches (instead c) tasks ∧ (instead c).history = c.history ∧
          (∀ document o, compile document o backend (instead c) =
            (instead (compile document o backend c).1, (compile document o backend c).2)) ∧
          (∀ form, Document.load files' (w.resolve form) = Document.load files (w.resolve form) →
            w.compileForm files' form backend (instead c) =
              (instead (w.compileForm files form backend c).1,
                (w.compileForm files form backend c).2)) ∧
          ∀ document o between c' schema,
            (∀ c c' tasks, between c c' → supply.Reaches c tasks → supply.Reaches c' tasks) →
            CompilesAmid between document o backend c c' schema →
            CompilesAmid (Relation.Map between instead instead) document o backend (instead c)
              (instead c') schema) := by
  intro supply c₀ given
  have hreaches := w.reaches_cache env files tables backend
  have hconstant := w.constant_supply env files tables backend
  have htables : supply.tables = given := w.tables_supply env files tables backend
  refine ⟨hreaches, fun c tasks hc => ?_, fun hendpoints => ?_⟩
  · rw [← htables]
    have hcompile := fun document o => compilesGiven_compile hconstant hc document o
    refine ⟨hcompile, ?_, ?_⟩
    · intro form document hload
      obtain ⟨hcache, hresult⟩ := Workspace.compileForm_of_loaded hload backend c
      rw [hcache, hresult]
      exact hcompile document w.settings.options
    · intro document o between log y hbetween hruns
      exact hc.given hconstant hbetween hruns
  · refine ⟨fun c tasks hc i hi => Workspace.strategy_of_started hendpoints hc hi, ?_⟩
    intro files' tables' hdictionaries hfiles supply' instead
    have hstrategies := Workspace.dictionaryStrategies_congr hdictionaries hfiles
    -- the table of the settings is at hand, and nothing gets to the strategies behind it
    refine ⟨Workspace.cache_eq_withOthers hendpoints hstrategies, fun c tasks hc => ?_⟩
    have hathand := (Workspace.atHand_cache hendpoints hc).slot
    refine ⟨Workspace.reaches_withOthers hendpoints hstrategies hc, rfl, ?_, ?_, ?_⟩
    · intro document o
      exact compile_withOthers document o backend hathand _
    · intro form hform
      exact Workspace.compileForm_withOthers hform backend hathand _
    · intro document o between c' schema hbetween hschema
      have hlookups := w.lookupStrategies_of_endpoints env files tables hendpoints
      exact compilesAmid_withOthers hlookups (Workspace.atHand_tableAtHand _ _) hc hbetween hschema _

/-- The first dictionary that can be read lacks what the form asks for, and the second has it. -/
def shop : Workspace where
  directory := "/"
  settings := {
    dictionaries := ["missing.json", "first.json"]
    endpoints := [("regions", { url := "https://shop.example/regions" })] }

def shopTables : TableFiles where
  dictionaries := ["second.json"]
  lookups := some "more.json"

def shopFiles : FileTree where
  files := [
    (["form.json"], choosing.render.toUTF8),
    (["first.json"], "\x7b\"other\": []\x7d".toUTF8),
    (["second.json"], "\x7b\"sexDict\": [\x7b\"code\": 1\x7d]\x7d".toUTF8)]

def shopFilesWithMore : FileTree where
  files := (["more.json"], "\x7b\"regions\": \x7b\x7d\x7d".toUTF8) :: shopFiles.files

def shopNames : List String := ["form.json", "missing.json", "first.json", "second.json"]

theorem isName_shopNames : ∀ name ∈ shopNames, FileTree.IsName name := by
  simp only [shopNames, List.forall_mem_cons]
  refine ⟨?_, ?_, ?_, ?_, by simp⟩ <;> constructor <;> decide

theorem resolve_shop {name : String} (h : name ∈ shopNames) : shop.resolve name = "/" ++ name :=
  FileTree.resolve_top (isName_shopNames name h)

theorem load_shopFilesWithMore {name : String} (h : name ∈ shopNames) :
    Document.load shopFilesWithMore (shop.resolve name) =
      Document.load shopFiles (shop.resolve name) := by
  have hfile : shopFilesWithMore.file? [name] = shopFiles.file? [name] ∧
      shopFilesWithMore.isDirectory [name] = shopFiles.isDirectory [name] := by
    simp only [shopNames, List.mem_cons, List.not_mem_nil, or_false] at h
    rcases h with rfl | rfl | rfl | rfl <;> exact ⟨rfl, rfl⟩
  rw [resolve_shop h]
  simp only [Document.load, FileTree.read, FileTree.find_top (isName_shopNames name h), hfile]

theorem load_shop_form : Document.load shopFiles (shop.resolve "form.json") = .ok choosing := by
  have hname : "form.json" ∈ shopNames := by simp [shopNames]
  rw [resolve_shop hname]
  exact FileTree.load_top (isName_shopNames _ hname) rfl (by decide) (by cbv)

theorem dictionary?_shop :
    shop.dictionary? shopFiles shopTables = some (.object [("other", .array [])]) := by
  have hmissing : (Document.load shopFiles (shop.resolve "missing.json")).toOption = none := by
    have hname : "missing.json" ∈ shopNames := by simp [shopNames]
    rw [resolve_shop hname, Document.load,
      FileTree.read_top_of_absent (isName_shopNames _ hname) rfl rfl]
    rfl
  have hfirst : (Document.load shopFiles (shop.resolve "first.json")).toOption =
      some (.object [("other", .array [])]) := by
    have hname : "first.json" ∈ shopNames := by simp [shopNames]
    rw [resolve_shop hname,
      FileTree.load_top (isName_shopNames _ hname) rfl (by decide) (by cbv)]
    rfl
  change List.findSome? (fun path => (Document.load shopFiles (shop.resolve path)).toOption)
    ["missing.json", "first.json", "second.json"] = _
  simp only [List.findSome?_cons, hmissing, hfirst]

theorem workspace_tables_shadowed :
    let backend : Backend Remote := fun _ _ _ => ⟨1, .ok (.object [
      ("code", .ofNat 0), ("data", .array [.object [("code", .string "north")]])])⟩
    let c₀ := shop.cache [] shopFiles shopTables
    let c := ((Task.lookup .fresh).poll backend 1 c₀).1
    (∃ schema, (shop.compileForm shopFiles "form.json" backend c₀).2 = .ok schema ∧
        (schema.field? "A" "sex").bind (·.codes) = some [] ∧
        (schema.field? "A" "region").bind (·.codes) = some [.string "north"]) ∧
      shop.settings.endpoints ≠ [] ∧ .started .lookup 0 ∈ c.history ∧
      (shop.lookupStrategies [] shopFiles shopTables)[0]? =
        some (tableAtHand "settings" (EndpointTable.ofEndpoints [] shop.settings.endpoints)) ∧
      (shop.compileForm shopFilesWithMore "form.json" backend
          (shop.cache [] shopFilesWithMore shopTables)).2 =
        (shop.compileForm shopFiles "form.json" backend c₀).2 := by
  intro backend c₀ c
  have hendpoints : shop.settings.endpoints ≠ [] := by simp [shop]
  have hdictionaries : ∀ path ∈ shop.dictionaryPaths shopTables,
      Document.load shopFilesWithMore path = Document.load shopFiles path := by
    intro path h
    obtain ⟨name, hname, rfl⟩ := List.mem_map.mp h
    exact load_shopFilesWithMore (List.mem_cons_of_mem _ hname)
  obtain ⟨hreaches, hgiven, hsettings⟩ := workspace_tables shop [] shopFiles shopTables backend
  obtain ⟨hstarted, hinstead⟩ := hsettings hendpoints
  obtain ⟨hcache, hsame⟩ := hinstead shopFilesWithMore shopTables rfl hdictionaries
  obtain ⟨-, -, -, hcompile, -⟩ := hsame c₀ [] hreaches
  have hbegun : (shop.supply [] shopFiles shopTables backend).Reaches c₀ [.lookup .fresh] :=
    hreaches.begin [.lookup .fresh] (by simp [Task.Fresh])
  have hstart : .started .lookup 0 ∈ c.history := List.mem_append_right _ (.head _)
  refine ⟨?_, hendpoints, hstart, hstarted c _ (hbegun.poll [] [] _ 1) 0 hstart, ?_⟩
  · obtain ⟨-, hforms, -⟩ := hgiven c₀ [] hreaches
    obtain ⟨log, options, hruns, ⟨-, hends⟩, hresult⟩ :=
      hforms "form.json" choosing load_shop_form
    have hconfig : Form.config? choosing = some _ := rfl
    have hlength : options.length = 2 := by
      rw [length_options hconfig hruns]
      rfl
    obtain ⟨sexes, regions, rfl⟩ := List.length_eq_two.mp hlength
    have hsexes := hends 0 (.inl (.dictionary "sexDict" .fresh)) sexes rfl rfl
    have hregions := hends 1 (.inl (.lookup "regions" (.object []) .fresh)) regions rfl rfl
    obtain ⟨remote, hfunction⟩ : ∃ remote,
        (shop.endpointTable? [] shopFiles shopTables).bind (fun table =>
          (Resolution.target? "regions" (.ok ⟨0, table⟩)).toOption) = some remote := ⟨_, rfl⟩
    simp only [Resolution.EndsBy, dictionary?_shop] at hsexes
    simp only [Resolution.EndsBy, hfunction] at hregions
    obtain ⟨_, rfl⟩ := hregions
    subst hsexes
    generalize (shop.compileForm shopFiles "form.json" backend c₀).2 = result at hresult ⊢
    cases result with
    | error e => cases hresult
    | ok schema =>
      cases hresult
      exact ⟨_, rfl, rfl, rfl⟩
  · have hname : "form.json" ∈ shopNames := List.mem_cons_self
    rw [hcache, hcompile "form.json" (load_shopFilesWithMore hname)]

end FormCompiler
