import FormCompiler.Proofs.Layout.Orders
import FormCompiler.Proofs.Resolution.Supply

namespace FormCompiler

inductive Task where
  | options (r : Resolution)
  | dictionary (request : Request)
  | lookup (request : Request)

variable {φ : Type} {w : Supply φ} {c : Cache φ}

namespace Task

def Fresh : Task → Prop
  | .options (.dictionary _ request) => request = .fresh
  | .options (.lookup _ _ request) => request = .fresh
  | .options (.call _ _ _) => False
  | .dictionary request => request = .fresh
  | .lookup request => request = .fresh

def Underway (w : Supply φ) (c : Cache φ) : Task → Prop
  | .options r => ∃ options, r.Expects w c options
  | .dictionary request => c.dictionaries.Issued request
  | .lookup request => c.lookups.Issued request

theorem Fresh.underway {t : Task} (h : t.Fresh) (w : Supply φ) (c : Cache φ) :
    t.Underway w c := by
  cases t with
  | options r =>
    cases r with
    | dictionary path request =>
      cases h
      exact ⟨_, trivial, rfl⟩
    | lookup path params request =>
      cases h
      exact ⟨_, trivial, rfl⟩
    | call path n outcome => cases h
  | dictionary request =>
    cases h
    trivial
  | lookup request =>
    cases h
    trivial

theorem Underway.mono {t : Task} {c' : Cache φ} (h : c.Grows c') (ht : t.Underway w c) :
    t.Underway w c' := by
  cases t with
  | options r =>
    obtain ⟨options, hr⟩ := ht
    exact ⟨options, hr.mono h⟩
  | dictionary request => exact Slot.Issued.mono h.dictionaries ht
  | lookup request => exact Slot.Issued.mono h.lookups ht

variable [DecidableEq φ]

def poll (backend : Backend φ) (live : Nat) (c : Cache φ) : Task → Cache φ × Option Task
  | .options r => ((r.poll backend live c).1, (r.poll backend live c).2.getLeft?.map .options)
  | .dictionary request =>
    ((c.pollDictionary live request).1, (c.pollDictionary live request).2.getLeft?.map .dictionary)
  | .lookup request =>
    ((c.pollLookup live request).1, (c.pollLookup live request).2.getLeft?.map .lookup)

theorem grows_poll (backend : Backend φ) (live : Nat) (c : Cache φ) (t : Task) :
    c.Grows (t.poll backend live c).1 := by
  cases t with
  | options r => exact r.grows_poll backend live c
  | dictionary request => exact ⟨Slot.length_loads_le_poll _ live request, Nat.le_refl _⟩
  | lookup request => exact ⟨Nat.le_refl _, Slot.length_loads_le_poll _ live request⟩

theorem steady_poll (hw : w.Constant) (hc : c.Steady w) {t : Task} (ht : t.Underway w c)
    (live : Nat) :
    (t.poll w.backend live c).1.Steady w ∧
      ∀ t' ∈ (t.poll w.backend live c).2, t'.Underway w (t.poll w.backend live c).1 := by
  cases t with
  | options r =>
    obtain ⟨options, hr⟩ := ht
    refine ⟨hc.poll hw w.backend live hr, ?_⟩
    intro t' ht'
    obtain ⟨r', hr', rfl⟩ := Option.map_eq_some_iff.mp ht'
    exact Resolution.exists_expects_poll hw w.backend live hc hr (Sum.getLeft?_eq_some_iff.mp hr')
  | dictionary request =>
    obtain ⟨hslot, hanswers⟩ := hc.pollDictionary hw live ht
    refine ⟨⟨hslot, hc.lookups⟩, ?_⟩
    intro t' ht'
    obtain ⟨request', hr', rfl⟩ := Option.map_eq_some_iff.mp ht'
    exact hanswers.issued hr'
  | lookup request =>
    obtain ⟨hslot, hanswers⟩ := hc.pollLookup hw live ht
    refine ⟨⟨hc.dictionaries, hslot⟩, ?_⟩
    intro t' ht'
    obtain ⟨request', hr', rfl⟩ := Option.map_eq_some_iff.mp ht'
    exact hanswers.issued hr'

end Task

variable [DecidableEq φ]

def Activity.HasTasks {τ ρ : Type} (A : Activity (Cache φ) τ ρ) (backend : Backend φ)
    (task : τ → Task) : Prop :=
  ∀ live c t, (task t).poll backend live c =
    ((A.poll live c t).1, (A.poll live c t).2.getLeft?.map task)

theorem hasTasks_resolutions {backend : Backend φ} :
    (Resolution.activity backend).HasTasks backend .options := fun _ _ _ => rfl

theorem hasTasks_dictionaryRequests {backend : Backend φ} :
    Cache.dictionaryRequests.HasTasks backend .dictionary := fun _ _ _ => rfl

theorem hasTasks_lookupRequests {backend : Backend φ} :
    Cache.lookupRequests.HasTasks backend .lookup := fun _ _ _ => rfl

/-- The caches that a supply can lead to, with the tasks under way. Compiles, resolves and requests
begin and are polled and dropped in any order, and tables are reset. -/
inductive Supply.Reaches (w : Supply φ) : Cache φ → List Task → Prop where
  | init : w.Reaches (.ofStrategies w.dictionaries w.lookups) []
  | note {c : Cache φ} {tasks : List Task} (notices : List Notice) :
      w.Reaches c tasks → w.Reaches (c.note notices) tasks
  | begin {c : Cache φ} {tasks : List Task} (fresh : List Task) :
      (∀ t ∈ fresh, t.Fresh) → w.Reaches c tasks → w.Reaches c (tasks ++ fresh)
  | poll {c : Cache φ} (before after : List Task) (t : Task) (live : Nat) :
      w.Reaches c (before ++ t :: after) →
        w.Reaches (t.poll w.backend live c).1
          (before ++ ((t.poll w.backend live c).2.toList ++ after))
  | drop {c : Cache φ} (before after : List Task) (t : Task) :
      w.Reaches c (before ++ t :: after) → w.Reaches c (before ++ after)
  | reset {c : Cache φ} {tasks : List Task} : w.Reaches c tasks → w.Reaches c.reset tasks

namespace Supply.Reaches

theorem steady (hw : w.Constant) {tasks : List Task} (h : w.Reaches c tasks) :
    c.Steady w ∧ ∀ t ∈ tasks, t.Underway w c := by
  induction h with
  | init => exact ⟨.init w, by simp⟩
  | note notices _ ih => exact ⟨ih.1.note notices, ih.2⟩
  | begin fresh hfresh _ ih =>
    refine ⟨ih.1, ?_⟩
    intro t ht
    rcases List.mem_append.mp ht with ht | ht
    · exact ih.2 t ht
    · exact (hfresh t ht).underway w _
  | @poll c before after t live _ ih =>
    obtain ⟨hc, htasks⟩ := ih
    have hsplit := List.forall_mem_append.mp htasks
    have ht := List.forall_mem_cons.mp hsplit.2
    obtain ⟨hc', ht'⟩ := Task.steady_poll hw hc ht.1 live
    have hgrows := t.grows_poll w.backend live c
    refine ⟨hc', ?_⟩
    rw [List.forall_mem_append, List.forall_mem_append]
    refine ⟨fun t' h => (hsplit.1 t' h).mono hgrows, ?_, fun t' h => (ht.2 t' h).mono hgrows⟩
    intro t'' h
    exact ht' t'' (Option.mem_toList.mp h)
  | drop before after t _ ih =>
    obtain ⟨hc, htasks⟩ := ih
    have hsplit := List.forall_mem_append.mp htasks
    exact ⟨hc, List.forall_mem_append.mpr ⟨hsplit.1, (List.forall_mem_cons.mp hsplit.2).2⟩⟩
  | reset _ ih => exact ⟨ih.1.reset, fun t ht => (ih.2 t ht).mono ⟨Nat.le_refl _, Nat.le_refl _⟩⟩

variable {τ ρ : Type} {A : Activity (Cache φ) τ ρ} {task : τ → Task}

def tasksOf (task : τ → Task) (entries : List (τ ⊕ ρ)) : List Task :=
  entries.filterMap fun e => e.getLeft?.map task

theorem tasksOf_append (task : τ → Task) (entries entries' : List (τ ⊕ ρ)) :
    tasksOf task (entries ++ entries') = tasksOf task entries ++ tasksOf task entries' :=
  List.filterMap_append

theorem tasksOf_cons (task : τ → Task) (e : τ ⊕ ρ) (rest : List (τ ⊕ ρ)) :
    tasksOf task (e :: rest) = (e.getLeft?.map task).toList ++ tasksOf task rest := by
  rw [tasksOf, List.filterMap_cons]
  cases e <;> rfl

theorem tasksOf_results (task : τ → Task) (results : List ρ) :
    tasksOf task (results.map .inr : List (τ ⊕ ρ)) = [] := by
  simp [tasksOf]

theorem turns (htask : A.HasTasks w.backend task)
    {x y : Cache φ × List (τ ⊕ ρ)} (h : A.Turns x y) {tasks : List Task}
    (hx : w.Reaches x.1 (tasks ++ tasksOf task x.2)) :
    w.Reaches y.1 (tasks ++ tasksOf task y.2) := by
  induction h with
  | refl => exact hx
  | tail _ hturn ih =>
    cases hturn with
    | poll live c before after t =>
      have hbefore : w.Reaches c (tasks ++ tasksOf task before ++ task t :: tasksOf task after) := by
        rw [tasksOf_append, tasksOf_cons, ← List.append_assoc] at ih
        exact ih
      have hafter := hbefore.poll _ _ _ live
      rw [htask live c t, List.append_assoc] at hafter
      rw [tasksOf_append, tasksOf_cons]
      exact hafter

theorem ended (htask : A.HasTasks w.backend task) {c c' : Cache φ} {entries : List (τ ⊕ ρ)}
    {results : List ρ}
    (h : A.Turns (c, entries) (c', results.map .inr)) {tasks : List Task}
    (hfresh : ∀ t ∈ tasksOf task entries, t.Fresh) (hc : w.Reaches c tasks) :
    w.Reaches c' tasks := by
  have hend := turns htask h (hc.begin _ hfresh)
  rw [tasksOf_results, List.append_nil] at hend
  exact hend

theorem fresh_ofSource (sources : List Form.OptionSource) :
    ∀ t ∈ tasksOf .options (sources.map Resolution.ofSource), t.Fresh := by
  intro t ht
  obtain ⟨e, he, ht⟩ := List.mem_filterMap.mp ht
  obtain ⟨source, -, rfl⟩ := List.mem_map.mp he
  cases source <;> cases ht <;> rfl

theorem awaiting {c : Cache φ} {tasks : List Task} (hc : w.Reaches c tasks) (document : Json)
    (o : CompilerOptions) :
    w.Reaches (FormCompiler.awaiting document o c).1
      (tasks ++ tasksOf .options (FormCompiler.awaiting document o c).2) := by
  unfold FormCompiler.awaiting
  split
  · rw [tasksOf, List.filterMap_nil, List.append_nil]
    exact hc.note _
  · exact ((hc.note _).note _).begin _ (fresh_ofSource _)

theorem of_runs (htask : A.HasTasks w.backend task) {between : Cache φ → Cache φ → Prop}
    (hbetween : ∀ c c' tasks, between c c' → w.Reaches c tasks → w.Reaches c' tasks)
    {x y : Cache φ × List (τ ⊕ ρ)} {log : List (PollRecord (Cache φ) τ)}
    (h : A.Runs between x log y) {tasks : List Task}
    (hx : w.Reaches x.1 (tasks ++ tasksOf task x.2)) :
    ∀ p ∈ log, ∃ tasks', w.Reaches p.state tasks' ∧ task p.activity ∈ tasks' := by
  induction h with
  | refl => simp
  | @poll s s' entries position live t log y hentry hbetween' _ ih =>
    have hs := hbetween s s' _ hbetween' hx
    rw [List.forall_mem_cons]
    constructor
    · refine ⟨_, hs, List.mem_append_right _ ?_⟩
      exact List.mem_filterMap.mpr ⟨.inl t, List.mem_of_getElem? hentry, rfl⟩
    · exact ih (turns htask (.single (Activity.Runs.turn hentry live)) hs)

theorem resolved {c c' : Cache φ} {sources : List Form.OptionSource} {options : List ChoiceList}
    (h : (Resolution.activity w.backend).Turns (c, sources.map Resolution.ofSource)
      (c', options.map .inr)) {tasks : List Task} (hc : w.Reaches c tasks) :
    w.Reaches c' tasks := ended hasTasks_resolutions h (fresh_ofSource sources) hc

theorem compiled {document : Json} {o : CompilerOptions} {c c' : Cache φ} {result : Option Schema}
    (h : CompilesTo document o w.backend c c' result) {tasks : List Task}
    (hc : w.Reaches c tasks) : w.Reaches c' tasks := by
  unfold CompilesTo at h
  split at h
  case h_1 =>
    rw [h.1]
    exact hc.note _
  case h_2 ms _ =>
    obtain ⟨_, -, options, hturns, -⟩ := h
    exact ((hc.note _).note _).resolved hturns

theorem resolve (f : Form.Field) {tasks : List Task} (hc : w.Reaches c tasks) :
    w.Reaches (Resolution.resolveField w.backend c f).1 tasks := by
  unfold Resolution.resolveField
  split
  · exact hc
  · exact hc.resolved (Activity.turns_finish _ _ _)

theorem joined (htask : A.HasTasks w.backend task) {t : τ} (hfresh : (task t).Fresh) (n : Nat)
    {tasks : List Task} (hc : w.Reaches c tasks) :
    w.Reaches (A.join c (List.replicate n t)).1 tasks := by
  refine ended htask (A.turns_finish _ _) ?_ hc
  intro t' ht'
  obtain ⟨e, he, ht'⟩ := List.mem_filterMap.mp ht'
  obtain ⟨_, hmem, rfl⟩ := List.mem_map.mp he
  rw [List.eq_of_mem_replicate hmem] at ht'
  cases ht'
  exact hfresh

theorem load (n : Nat) {tasks : List Task} (hc : w.Reaches c tasks) :
    w.Reaches (Cache.dictionaryRequests.join c (List.replicate n .fresh)).1 tasks ∧
      w.Reaches (Cache.lookupRequests.join c (List.replicate n .fresh)).1 tasks :=
  ⟨joined hasTasks_dictionaryRequests rfl n hc, joined hasTasks_lookupRequests rfl n hc⟩

end Supply.Reaches

end FormCompiler
