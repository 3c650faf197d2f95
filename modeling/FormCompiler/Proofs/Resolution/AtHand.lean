import FormCompiler.Proofs.Cache.AtHand
import FormCompiler.Proofs.Resolution.Agreement
import FormCompiler.Proofs.Resolution.Given

namespace FormCompiler

variable {φ : Type}

theorem Event.started_mem_ofLoad {table table' : TableId} {strategy : Nat}
    {events : List LoadEvent} :
    Event.started (φ := φ) table strategy ∈ events.map (Event.ofLoad table') ↔
      table' = table ∧ .started strategy ∈ events := by
  rw [List.mem_map]
  constructor
  · rintro ⟨e, he, heq⟩
    cases e with
    | started =>
      cases heq
      exact ⟨rfl, he⟩
    | noticed => cases heq
  · rintro ⟨rfl, he⟩
    exact ⟨_, he, rfl⟩

namespace Cache

def withOthers (c : Cache φ) (others : List (Strategy (LookupTable φ))) : Cache φ :=
  { c with lookups := c.lookups.withOthers others }

structure AtHand (c : Cache φ) : Prop where
  slot : c.lookups.AtHand
  started : ∀ i, .started .lookup i ∈ c.history → i = 0

namespace AtHand

variable {c : Cache φ}

theorem note (h : c.AtHand) (notices : List Notice) : (c.note notices).AtHand where
  slot := h.slot
  started i hi := by
    rcases List.mem_append.mp hi with hi | hi
    · exact h.started i hi
    · simp at hi

theorem reset (h : c.AtHand) : c.reset.AtHand := ⟨h.slot.reset, h.started⟩

theorem pollDictionary (h : c.AtHand) (live : Nat) (request : Request) :
    (c.pollDictionary live request).1.AtHand where
  slot := h.slot
  started i hi := by
    rcases List.mem_append.mp hi with hi | hi
    · exact h.started i hi
    · cases (Event.started_mem_ofLoad.mp hi).1

theorem pollLookup (h : c.AtHand) (live : Nat) (request : Request) :
    (c.pollLookup live request).1.AtHand where
  slot := (h.slot.poll live request).1
  started i hi := by
    rcases List.mem_append.mp hi with hi | hi
    · exact h.started i hi
    · exact (h.slot.poll live request).2 i (Event.started_mem_ofLoad.mp hi).2

variable [DecidableEq φ]

theorem poll (h : c.AtHand) (backend : Backend φ) (live : Nat) (r : Resolution) :
    (r.poll backend live c).1.AtHand where
  slot := by
    rw [(r.poll_slots backend live c).2]
    split
    · exact (h.slot.poll live _).1
    · exact h.slot
  started i hi := by
    rw [Resolution.history_eq backend ⟨0, live, c, r⟩] at hi
    rcases List.mem_append.mp hi with hi | hi
    · exact h.started i hi
    · obtain ⟨notices, hevents⟩ := Resolution.events_eq backend ⟨0, live, c, r⟩
      rw [hevents] at hi
      rcases List.mem_append.mp hi with hi | hi
      · cases r with
        | dictionary path request => cases (Event.started_mem_ofLoad.mp hi).1
        | lookup path params request =>
          exact (h.slot.poll live request).2 i (Event.started_mem_ofLoad.mp hi).2
        | call path polls outcome => cases hi
      · simp at hi

theorem pollTask (h : c.AtHand) (backend : Backend φ) (live : Nat) (t : Task) :
    (t.poll backend live c).1.AtHand := by
  cases t with
  | options r => exact h.poll backend live r
  | dictionary request => exact h.pollDictionary live request
  | lookup request => exact h.pollLookup live request

end AtHand

variable [DecidableEq φ]

theorem congruence_withOthers (others : List (Strategy (LookupTable φ))) :
    Congruence fun c c' : Cache φ => c.lookups.AtHand ∧ c' = c.withOthers others where
  record := by
    rintro c _ ⟨h, rfl⟩ events
    exact ⟨h, rfl⟩
  calls := by
    rintro c _ ⟨-, rfl⟩ f
    rfl
  pollDictionary := by
    rintro c _ ⟨h, rfl⟩ live r
    exact ⟨⟨h, rfl⟩, rfl⟩
  pollLookup := by
    rintro c _ ⟨h, rfl⟩ live r
    have hpoll := h.poll_withOthers others live r
    simp only [Cache.pollLookup, withOthers, hpoll, and_true]
    exact ⟨(h.poll live r).1, rfl⟩

end Cache

variable [DecidableEq φ]

theorem Resolution.poll_withOthers (backend : Backend φ) (live : Nat) {c : Cache φ}
    (h : c.lookups.AtHand) (others : List (Strategy (LookupTable φ))) (r : Resolution) :
    r.poll backend live (c.withOthers others) =
      ((r.poll backend live c).1.withOthers others, (r.poll backend live c).2) := by
  obtain ⟨⟨-, hstate⟩, he⟩ :=
    (Cache.congruence_withOthers others).alike backend live c _ r ⟨h, rfl⟩
  exact Prod.ext hstate he.symm

theorem Task.poll_withOthers (backend : Backend φ) (live : Nat) {c : Cache φ}
    (h : c.lookups.AtHand) (others : List (Strategy (LookupTable φ))) (t : Task) :
    t.poll backend live (c.withOthers others) =
      ((t.poll backend live c).1.withOthers others, (t.poll backend live c).2) := by
  cases t with
  | options r => simp only [Task.poll, r.poll_withOthers backend live h others]
  | dictionary request => rfl
  | lookup request =>
    simp only [Task.poll, Cache.pollLookup, Cache.withOthers, h.poll_withOthers others]
    rfl

namespace Supply.Reaches

variable {w : Supply φ} {first : Strategy (LookupTable φ)} {rest : List (Strategy (LookupTable φ))}
  {c : Cache φ} {tasks : List Task}

theorem atHand (hw : w.lookups = first :: rest) (hfirst : first.AtHand) (h : w.Reaches c tasks) :
    c.AtHand := by
  induction h with
  | init =>
    refine ⟨⟨⟨first, rest, hw, hfirst⟩, ?_⟩, ?_⟩
    · intro l hl
      cases hl
    · intro i hi
      cases hi
  | note notices _ ih => exact ih.note notices
  | begin fresh _ _ ih => exact ih
  | poll before after t live _ ih => exact ih.pollTask w.backend live t
  | drop before after t _ ih => exact ih
  | reset _ ih => exact ih.reset

theorem withOthers (hw : w.lookups = first :: rest) (hfirst : first.AtHand)
    (h : w.Reaches c tasks) (others : List (Strategy (LookupTable φ))) :
    Supply.Reaches { w with lookups := first :: others } (c.withOthers others) tasks := by
  induction h with
  | init =>
    have hinit : (Cache.ofStrategies w.dictionaries w.lookups).withOthers others =
        Cache.ofStrategies w.dictionaries (first :: others) := by
      rw [hw]
      rfl
    rw [hinit]
    exact .init
  | note notices _ ih => exact ih.note notices
  | begin fresh hfresh _ ih => exact ih.begin fresh hfresh
  | poll before after t live hc ih =>
    -- the cache that is reached has its table at hand, so the poll does the same at the other one
    have hpoll := ih.poll before after t live
    rw [t.poll_withOthers w.backend live (hc.atHand hw hfirst).slot others] at hpoll
    exact hpoll
  | drop before after t _ ih => exact ih.drop before after t
  | reset _ ih => exact ih.reset

end Supply.Reaches

theorem compile_withOthers (document : Json) (o : CompilerOptions) (backend : Backend φ)
    {c : Cache φ} (h : c.lookups.AtHand) (others : List (Strategy (LookupTable φ))) :
    compile document o backend (c.withOthers others) =
      ((compile document o backend c).1.withOthers others, (compile document o backend c).2) := by
  unfold compile
  cases Form.config? document with
  | none => rfl
  | some ms =>
    obtain ⟨⟨-, hstate⟩, hresults⟩ :=
      ((Cache.congruence_withOthers others).alike backend).finish
        ((c.note (Form.notices ms)).note (Layout.ofForm (Form.ofMembers ms) o).notices)
        (((Layout.ofForm (Form.ofMembers ms) o).pending.map (·.source)).map Resolution.ofSource)
        _ ⟨h, rfl⟩
    simp only [Form.compile, Resolution.resolveAll]
    rw [hresults, ← hstate]
    rfl

theorem compilesAmid_withOthers {w : Supply φ} {first : Strategy (LookupTable φ)}
    {rest : List (Strategy (LookupTable φ))} (hw : w.lookups = first :: rest)
    (hfirst : first.AtHand) {c c' : Cache φ} {tasks : List Task} (hc : w.Reaches c tasks)
    {between : Cache φ → Cache φ → Prop}
    (hbetween : ∀ c c' tasks, between c c' → w.Reaches c tasks → w.Reaches c' tasks)
    {document : Json} {o : CompilerOptions} {schema : Schema}
    (h : CompilesAmid between document o w.backend c c' schema)
    (others : List (Strategy (LookupTable φ))) :
    CompilesAmid (Relation.Map between (·.withOthers others) (·.withOthers others)) document o
      w.backend (c.withOthers others) (c'.withOthers others) schema := by
  obtain ⟨ms, log, options, hconfig, hlog, rfl⟩ := h
  have hpolls := Supply.Reaches.of_runs hasTasks_resolutions hbetween hlog (hc.awaiting document o)
  have hawaiting : awaiting document o (c.withOthers others) =
      ((awaiting document o c).1.withOthers others, (awaiting document o c).2) := by
    simp only [awaiting, hconfig]
    rfl
  -- whatever others do in between, a poll finds a cache that the supply leads to
  have hruns := hlog.map (f := (·.withOthers others)) fun p hp => by
    obtain ⟨tasks', hstate, -⟩ := hpolls p hp
    exact p.activity.poll_withOthers w.backend p.live (hstate.atHand hw hfirst).slot others
  rw [← hawaiting] at hruns
  exact ⟨ms, _, options, hconfig, hruns, rfl⟩

end FormCompiler
