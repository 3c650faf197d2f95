import FormCompiler.Proofs.Resolution.Outcomes

namespace FormCompiler

def Form.OptionSource.path? : Form.OptionSource → Option String
  | .inline _ => none
  | .dictionary path => some path
  | .lookup path _ => some path

namespace Resolution

variable {φ : Type} [DecidableEq φ] {backend : Backend φ} {options : ChoiceList}
  {log : List (PollRecord (Cache φ) Resolution)}

/-- A source leads to a list of entries: it stands at the path of the dictionary that the source has
got, or in the response to the call of the function that stands at the path of its lookup table. -/
inductive LeadsTo (backend : Backend φ) (log : List (PollRecord (Cache φ) Resolution)) :
    Form.OptionSource → List Json → Prop where
  | dictionary {path : String} {t : Loaded Json} {entries : List Json} :
      log.findSome? (TableView.dictionary (φ := φ)).answer? = some (.ok t) →
      t.table.at? path = some (.array entries) → LeadsTo backend log (.dictionary path) entries
  | lookup {path : String} {params : Json} {t : Loaded (LookupTable φ)} {f : φ} {response : Json}
      {code : Number} {entries : List Json} :
      log.findSome? (TableView.lookup (φ := φ)).answer? = some (.ok t) →
      t.table.at? path = some (.function f) →
      log.findSome? (made? backend) = some ((f, params), .ok response) →
      response.get? "code" = some (.number code) → code.isZero = true →
      response.get? "data" = some (.array entries) →
      LeadsTo backend log (.lookup path params) entries

omit [DecidableEq φ] in
theorem eq_of_target? {path : String} {result : LoadResult (LookupTable φ)} {f : φ}
    (h : target? path result = .ok f) :
    ∃ t, result = .ok t ∧ t.table.at? path = some (.function f) := by
  unfold target? at h
  split at h
  · cases h
  case h_2 t =>
    split at h
    case h_1 g hg =>
      cases h
      exact ⟨t, rfl, hg⟩
    · cases h

theorem eq_of_dictionaryOptions {path : String} {result : LoadResult Json} {options : ChoiceList}
    (h : dictionaryOptions path result = .ok options) : ∃ t entries,
      result = .ok t ∧ t.table.at? path = some (.array entries) ∧ options = .ofEntries entries := by
  unfold dictionaryOptions at h
  split at h
  · cases h
  case h_2 t =>
    split at h
    case h_1 entries he =>
      cases h
      exact ⟨t, entries, rfl, he, rfl⟩
    · cases h

theorem eq_of_responseOptions {path : String} {response : Json} {options : ChoiceList}
    (h : responseOptions path response = .ok options) : ∃ code entries,
      response.get? "code" = some (.number code) ∧ code.isZero = true ∧
      response.get? "data" = some (.array entries) ∧ options = .ofEntries entries := by
  unfold responseOptions at h
  split at h
  case h_1 code entries hcode hdata =>
    split at h
    case isTrue hzero =>
      cases h
      exact ⟨code, entries, hcode, hzero, hdata, rfl⟩
    · cases h
  · cases h

theorem exists_settles {source : Form.OptionSource} {path : String}
    (hpath : source.path? = some path) (h : Concludes backend log options (ofSource source)) :
    ∃ result, Settles backend log options path result ∧
      (∀ entries, LeadsTo backend log source entries → result = .ok (.ofEntries entries)) ∧
      ∀ options', result = .ok options' → ∃ entries, LeadsTo backend log source entries := by
  cases source with
  | inline choices => cases hpath
  | dictionary path =>
    cases hpath
    obtain ⟨result, hanswer, hsettles⟩ := h
    refine ⟨_, hsettles, ?_, ?_⟩
    · rintro entries (⟨ht, hat⟩ | _)
      rw [hanswer, Option.some_inj] at ht
      simp only [ht, dictionaryOptions, hat]
    · intro options' hoptions
      obtain ⟨t, entries, rfl, hat, -⟩ := eq_of_dictionaryOptions hoptions
      exact ⟨entries, .dictionary hanswer hat⟩
  | lookup path params =>
    cases hpath
    obtain ⟨result, hanswer, hcalled, hrefused⟩ := h
    cases htarget : target? path result with
    | error error =>
      refine ⟨_, hrefused error htarget, ?_, fun _ he => by cases he⟩
      rintro entries (_ | ⟨ht, hat, -, -, -, -⟩)
      rw [hanswer, Option.some_inj] at ht
      rw [ht, target?_of_at? hat] at htarget
      cases htarget
    | ok f =>
      obtain ⟨outcome, hmade, hsettles⟩ := hcalled f htarget
      refine ⟨_, hsettles, ?_, ?_⟩
      · rintro entries (_ | ⟨-, -, hmade', hcode, hzero, hdata⟩)
        rw [hmade, Option.some_inj, Prod.mk.injEq] at hmade'
        rw [hmade'.2, callOptions, responseOptions_of_zero hcode hzero hdata]
      · intro options' hoptions
        obtain ⟨t, rfl, hat⟩ := eq_of_target? htarget
        cases outcome with
        | error failure => cases hoptions
        | ok response =>
          obtain ⟨code, entries, hcode, hzero, hdata, -⟩ := eq_of_responseOptions hoptions
          exact ⟨entries, .lookup hanswer hat hmade hcode hzero hdata⟩

/-- Sources that are resolved side by side all end. However they are polled and whatever others do
to the cache, a source that leads to a list ends with one code and one label for each of its entries
and leaves nothing noticed but what loads do. Any other source of a table ends without options and
leaves one warning, which names its path. -/
theorem options_or_degraded (backend : Backend φ) (c : Cache φ)
    (sources : List Form.OptionSource) :
    (∃ log, (activity backend).Runs Eq (c, sources.map ofSource) log
      ((resolveAll backend c sources).1, (resolveAll backend c sources).2.map .inr)) ∧
    (resolveAll backend c sources).2.length = sources.length ∧
    ∀ between log y, (activity backend).Runs between (c, sources.map ofSource) log y →
      (∀ p ∈ log, (poll backend p.live p.state p.activity).1.history.filterMap Event.notice? =
        p.state.history.filterMap Event.notice? ++
          ((loadEvents p).filterMap Event.notice? ++ ownNotices backend p)) ∧
      ∀ i source path options, sources[i]? = some source → source.path? = some path →
        y.2[i]? = some (.inr options) →
        (∀ entries, LeadsTo backend (PollRecord.ofPosition log i) source entries →
          options.codes = entries.map (fun e => (Choice.ofJson e).code) ∧
          options.labels = entries.map (fun e => (Choice.ofJson e).label) ∧
          (PollRecord.ofPosition log i).flatMap (ownNotices backend) = []) ∧
        ((∀ entries, ¬ LeadsTo backend (PollRecord.ofPosition log i) source entries) →
          options.codes = [] ∧ options.labels = [] ∧
          ∃ error : OptionError, (PollRecord.ofPosition log i).flatMap (ownNotices backend) =
              [.degraded path error] ∧
            (Notice.degraded path error).line =
              "WARN " ++ ("options of `" ++ path ++ "` degraded to empty: " ++ error.text)) := by
  refine ⟨(activity backend).runs_finish c _, ?_, ?_⟩
  · rw [resolveAll, Activity.length_finish, List.length_map]
  intro between log y hruns
  refine ⟨fun p _ => notices_poll backend p, ?_⟩
  intro i source path options hsource hpath hend
  have hentry : (sources.map ofSource)[i]? = some (ofSource source) := by
    rw [List.getElem?_map, hsource, Option.map_some]
  obtain ⟨result, hsettles, hleads, hexists⟩ :=
    exists_settles hpath (concludes_of_runs hruns hentry hend)
  constructor
  · intro entries hentries
    obtain ⟨hoptions, hnotices⟩ := hsettles
    rw [hleads entries hentries] at hoptions hnotices
    subst hoptions
    refine ⟨?_, ?_, hnotices⟩
    · exact List.map_map
    · exact List.map_map
  · intro hnone
    obtain ⟨hoptions, hnotices⟩ := hsettles
    cases result with
    | ok options' =>
      obtain ⟨entries, hentries⟩ := hexists options' rfl
      exact absurd hentries (hnone entries)
    | error error =>
      subst hoptions
      exact ⟨rfl, rfl, error, hnotices, rfl⟩

theorem options_or_degraded_refused :
    let table : Json := .object [("d", .array [.array [.object [("code", .string "1")], .null]])]
    let c : Cache Nat := .ofStrategies
      [{ name := "dictionary", attempt _ := { delay := .polls 0, outcome := .ok table } }]
      [{ name := "functions"
         attempt _ := { delay := .polls 0, outcome := .ok (.group [("f", .function 0)]) } }]
    let backend : Backend Nat := fun _ _ _ =>
      ⟨0, .ok (.object [("code", .ofNat 1), ("data", .array [])])⟩
    let sources : List Form.OptionSource := [.dictionary "d.0", .lookup "f" .null]
    ∃ log c' found refused,
      (activity backend).Runs Eq (c, sources.map ofSource) log (c', [.inr found, .inr refused]) ∧
      found.codes = [.string "1", .null] ∧ found.labels = ["", ""] ∧
      (PollRecord.ofPosition log 0).flatMap (ownNotices backend) = [] ∧
      refused.codes = [] ∧ refused.labels = [] ∧
      ∃ error, (PollRecord.ofPosition log 1).flatMap (ownNotices backend) =
        [.degraded "f" error] := by
  intro table c backend sources
  have hruns : (activity backend).Runs Eq (c, sources.map ofSource)
      [⟨0, 2, _, _⟩, ⟨1, 2, _, _⟩] (_, [.inr _, .inr _]) :=
    .poll rfl rfl (.poll rfl rfl (.refl _))
  obtain ⟨-, -, hall⟩ := options_or_degraded backend c sources
  obtain ⟨-, hends⟩ := hall Eq _ _ hruns
  obtain ⟨hfound, -⟩ := hends 0 _ "d.0" _ rfl rfl rfl
  obtain ⟨-, hrefused⟩ := hends 1 _ "f" _ rfl rfl rfl
  obtain ⟨hcodes, hlabels, hnotices⟩ := hfound _ (.dictionary rfl rfl)
  obtain ⟨hempty, hempty', error, hnotice, -⟩ := hrefused (by
    rintro entries (_ | ⟨ht, hat, hmade, hcode, hzero, -⟩)
    cases ht
    cases hat
    cases hmade
    cases hcode
    cases hzero)
  exact ⟨_, _, _, _, hruns, hcodes, hlabels, hnotices, hempty, hempty', error, hnotice⟩

end Resolution

end FormCompiler
