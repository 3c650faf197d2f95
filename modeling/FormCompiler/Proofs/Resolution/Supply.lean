import FormCompiler.Proofs.Cache.Constancy
import FormCompiler.Proofs.Cache.Schedule
import FormCompiler.Schema.Resolution

namespace FormCompiler

structure Supply (φ : Type) where
  dictionaries : List (Strategy Json)
  lookups : List (Strategy (LookupTable φ))
  backend : Backend φ

variable {φ : Type}

namespace Supply

structure Alike (w w' : Supply φ) : Prop where
  dictionaries : List.Forall₂ Strategy.Alike w.dictionaries w'.dictionaries
  lookups : List.Forall₂ Strategy.Alike w.lookups w'.lookups
  replies : ∀ f n n' params, (w.backend f n params).outcome = (w'.backend f n' params).outcome

structure Constant (w : Supply φ) : Prop where
  dictionaries : ∀ s ∈ w.dictionaries, s.Alike s
  lookups : ∀ s ∈ w.lookups, s.Alike s

variable {w w' : Supply φ}

theorem Alike.constant (h : w.Alike w') : w.Constant :=
  ⟨Strategy.alike_self h.dictionaries, Strategy.alike_self h.lookups⟩

theorem Alike.left (h : w.Alike w') : w.Alike w where
  dictionaries := List.forall₂_same.mpr (Strategy.alike_self h.dictionaries)
  lookups := List.forall₂_same.mpr (Strategy.alike_self h.lookups)
  replies f n n' params := (h.replies f n 0 params).trans (h.replies f n' 0 params).symm

theorem Alike.symm (h : w.Alike w') : w'.Alike w where
  dictionaries := h.dictionaries.flip.imp fun _ _ => Strategy.Alike.symm
  lookups := h.lookups.flip.imp fun _ _ => Strategy.Alike.symm
  replies f n n' params := (h.replies f n' n params).symm

def choices (w : Supply φ) : Form.OptionSource → ChoiceList
  | .inline choices => .ofChoices choices
  | .dictionary path =>
    ((Strategy.table? w.dictionaries).bind fun table =>
      (Resolution.dictionaryOptions path (.ok ⟨0, table⟩)).toOption).getD .empty
  | .lookup path params =>
    (((Strategy.table? w.lookups).bind fun table =>
      (Resolution.target? path (.ok ⟨0, table⟩)).toOption).bind fun f =>
      (Resolution.callOptions path (w.backend f 0 params).outcome).toOption).getD .empty

theorem Alike.choices_eq (h : w.Alike w') : w.choices = w'.choices := by
  funext source
  cases source with
  | inline => rfl
  | dictionary path => rw [choices, choices, Strategy.table?_congr h.dictionaries]
  | lookup path params =>
    have hreplies : ∀ f, (w.backend f 0 params).outcome = (w'.backend f 0 params).outcome :=
      fun f => h.replies f 0 0 params
    simp only [choices, Strategy.table?_congr h.lookups, hreplies]

end Supply

structure Cache.Steady (w : Supply φ) (c : Cache φ) : Prop where
  dictionaries : c.dictionaries.Steady w.dictionaries
  lookups : c.lookups.Steady w.lookups

structure Cache.Grows (c c' : Cache φ) : Prop where
  dictionaries : c.dictionaries.loads.length ≤ c'.dictionaries.loads.length
  lookups : c.lookups.loads.length ≤ c'.lookups.loads.length

namespace Resolution

theorem settle_answer (c : Cache φ) (path : String) (result : Except OptionError ChoiceList) :
    (settle c path result).2 = .inr (result.toOption.getD .empty) := by
  cases result <;> rfl

theorem settle_slots (c : Cache φ) (path : String) (result : Except OptionError ChoiceList) :
    (settle c path result).1.dictionaries = c.dictionaries ∧
      (settle c path result).1.lookups = c.lookups := by
  cases result <;> exact ⟨rfl, rfl⟩

theorem toOption_dictionaryOptions (path : String) (result : LoadResult Json) :
    (dictionaryOptions path result).toOption =
      (result.toOption.map Loaded.table).bind fun table =>
        (dictionaryOptions path (.ok ⟨0, table⟩)).toOption := by
  cases result <;> rfl

theorem toOption_target? (path : String) (result : LoadResult (LookupTable φ)) :
    (target? path result).toOption =
      (result.toOption.map Loaded.table).bind fun table =>
        (target? path (.ok ⟨0, table⟩)).toOption := by
  cases result <;> rfl

def Expects (w : Supply φ) (c : Cache φ) : Resolution → ChoiceList → Prop
  | .dictionary path request, options =>
    c.dictionaries.Issued request ∧ w.choices (.dictionary path) = options
  | .lookup path params request, options =>
    c.lookups.Issued request ∧ w.choices (.lookup path params) = options
  | .call path _ outcome, options => (callOptions path outcome).toOption.getD .empty = options

theorem Expects.mono {w : Supply φ} {c c' : Cache φ} (h : c.Grows c') {r : Resolution}
    {options : ChoiceList} (hr : r.Expects w c options) : r.Expects w c' options := by
  cases r with
  | dictionary path request => exact ⟨hr.1.mono h.dictionaries, hr.2⟩
  | lookup path params request => exact ⟨hr.1.mono h.lookups, hr.2⟩
  | call path n outcome => exact hr

variable [DecidableEq φ]

theorem startCall_slots (backend : Backend φ) (c : Cache φ) (path : String) (f : φ)
    (params : Json) :
    (startCall backend c path f params).1.dictionaries = c.dictionaries ∧
      (startCall backend c path f params).1.lookups = c.lookups := by
  unfold startCall
  dsimp only
  split
  · exact ⟨rfl, rfl⟩
  · exact settle_slots _ path _

theorem poll_slots (backend : Backend φ) (live : Nat) (c : Cache φ) (r : Resolution) :
    (poll backend live c r).1.dictionaries =
        (match r with
          | .dictionary _ request => (c.dictionaries.poll live request).slot
          | _ => c.dictionaries) ∧
      (poll backend live c r).1.lookups =
        (match r with
          | .lookup _ _ request => (c.lookups.poll live request).slot
          | _ => c.lookups) := by
  cases r with
  | dictionary path request =>
    simp only [poll]
    split
    · exact ⟨rfl, rfl⟩
    · exact settle_slots _ path _
  | lookup path params request =>
    simp only [poll]
    split
    · exact ⟨rfl, rfl⟩
    · split
      · exact startCall_slots backend _ path _ params
      · exact settle_slots _ path _
  | call path n outcome =>
    cases n with
    | zero => exact settle_slots _ path _
    | succ n => exact ⟨rfl, rfl⟩

theorem grows_poll (backend : Backend φ) (live : Nat) (c : Cache φ) (r : Resolution) :
    c.Grows (poll backend live c r).1 := by
  obtain ⟨hdictionaries, hlookups⟩ := poll_slots backend live c r
  constructor
  · rw [hdictionaries]
    split
    · exact Slot.length_loads_le_poll _ live _
    · exact Nat.le_refl _
  · rw [hlookups]
    split
    · exact Slot.length_loads_le_poll _ live _
    · exact Nat.le_refl _

end Resolution

namespace Cache.Steady

variable {w : Supply φ} {c : Cache φ}

theorem init (w : Supply φ) : (Cache.ofStrategies w.dictionaries w.lookups).Steady w :=
  ⟨.init _ _, .init _ _⟩

theorem reset (h : c.Steady w) : c.reset.Steady w := ⟨h.dictionaries.reset, h.lookups.reset⟩

theorem note (h : c.Steady w) (notices : List Notice) : (c.note notices).Steady w :=
  ⟨h.dictionaries, h.lookups⟩

theorem pollDictionary (h : c.Steady w) (hw : w.Constant) (live : Nat) {request : Request}
    (hr : c.dictionaries.Issued request) :
    (c.dictionaries.poll live request).slot.Steady w.dictionaries ∧
      (c.dictionaries.poll live request).slot.Answers (Strategy.table? w.dictionaries)
        (c.dictionaries.poll live request).answer :=
  h.dictionaries.poll hw.dictionaries live hr

theorem pollLookup (h : c.Steady w) (hw : w.Constant) (live : Nat) {request : Request}
    (hr : c.lookups.Issued request) :
    (c.lookups.poll live request).slot.Steady w.lookups ∧
      (c.lookups.poll live request).slot.Answers (Strategy.table? w.lookups)
        (c.lookups.poll live request).answer :=
  h.lookups.poll hw.lookups live hr

theorem poll [DecidableEq φ] (h : c.Steady w) (hw : w.Constant) (backend : Backend φ) (live : Nat)
    {r : Resolution} {options : ChoiceList} (hr : r.Expects w c options) :
    (Resolution.poll backend live c r).1.Steady w := by
  obtain ⟨hdictionaries, hlookups⟩ := Resolution.poll_slots backend live c r
  constructor
  · rw [hdictionaries]
    split
    case h_1 path request => exact (h.pollDictionary hw live hr.1).1
    case h_2 => exact h.dictionaries
  · rw [hlookups]
    split
    case h_1 path params request => exact (h.pollLookup hw live hr.1).1
    case h_2 => exact h.lookups

end Cache.Steady

namespace Resolution

open Activity

theorem heading_ofSource (w : Supply φ) (c : Cache φ) (sources : List Form.OptionSource) :
    List.Forall₂ (Heading (Expects w) c) (sources.map ofSource) (sources.map w.choices) := by
  rw [List.forall₂_map_left_iff, List.forall₂_map_right_iff, List.forall₂_same]
  intro source _
  cases source with
  | inline choices => rfl
  | dictionary path => exact ⟨trivial, rfl⟩
  | lookup path params => exact ⟨trivial, rfl⟩

variable [DecidableEq φ] {w : Supply φ}

theorem heading_startCall (hw : w.Alike w) (c c' : Cache φ) (path : String) (f : φ)
    (params : Json) :
    Heading (Expects w) c' (startCall w.backend c path f params).2
      ((callOptions path (w.backend f 0 params).outcome).toOption.getD .empty) := by
  have hreply := hw.replies f (callCount c f) 0 params
  simp only [startCall]
  split
  · rw [← hreply]
    rfl
  · rw [← hreply, settle_answer]
    rfl

theorem heading_poll (hw : w.Alike w) (live : Nat) {c : Cache φ} (hc : c.Steady w)
    {r : Resolution} {options : ChoiceList} (hr : r.Expects w c options) :
    Heading (Expects w) (poll w.backend live c r).1 (poll w.backend live c r).2 options := by
  cases r with
  | dictionary path request =>
    obtain ⟨hissued, rfl⟩ := hr
    have hanswers := (hc.pollDictionary hw.constant live hissued).2
    cases ha : (c.dictionaries.poll live request).answer with
    | inl request' =>
      rw [ha] at hanswers
      simp only [poll, Cache.pollDictionary, ha]
      exact ⟨hanswers, rfl⟩
    | inr result =>
      rw [ha] at hanswers
      simp only [poll, Cache.pollDictionary, ha, settle_answer]
      rw [toOption_dictionaryOptions, hanswers]
      rfl
  | lookup path params request =>
    obtain ⟨hissued, rfl⟩ := hr
    have hanswers := (hc.pollLookup hw.constant live hissued).2
    cases ha : (c.lookups.poll live request).answer with
    | inl request' =>
      rw [ha] at hanswers
      simp only [poll, Cache.pollLookup, ha]
      exact ⟨hanswers, rfl⟩
    | inr result =>
      rw [ha] at hanswers
      have hchoices : w.choices (.lookup path params) = ((target? path result).toOption.bind
          fun f => (callOptions path (w.backend f 0 params).outcome).toOption).getD .empty := by
        rw [toOption_target?, hanswers]
        rfl
      simp only [poll, Cache.pollLookup, ha, hchoices]
      -- the table decides whether there is a call at all
      cases target? path result with
      | ok f => exact heading_startCall hw _ _ path f params
      | error error => rw [settle_answer]; rfl
  | call path n outcome =>
    cases n with
    | succ n => exact hr
    | zero =>
      simp only [poll, settle_answer]
      exact hr

theorem exists_expects_poll (hw : w.Constant) (backend : Backend φ) (live : Nat) {c : Cache φ}
    (hc : c.Steady w) {r r' : Resolution} {options : ChoiceList} (hr : r.Expects w c options)
    (h : (poll backend live c r).2 = .inl r') :
    ∃ options', r'.Expects w (poll backend live c r).1 options' := by
  cases r with
  | dictionary path request =>
    have hanswers := (hc.pollDictionary hw live hr.1).2
    cases ha : (c.dictionaries.poll live request).answer with
    | inl request' =>
      rw [ha] at hanswers
      simp only [poll, Cache.pollDictionary, ha] at h ⊢
      cases h
      exact ⟨_, hanswers, rfl⟩
    | inr result =>
      simp only [poll, Cache.pollDictionary, ha] at h
      exact absurd h (settle_ne_inl _ _ _ _)
  | lookup path params request =>
    have hanswers := (hc.pollLookup hw live hr.1).2
    cases ha : (c.lookups.poll live request).answer with
    | inl request' =>
      rw [ha] at hanswers
      simp only [poll, Cache.pollLookup, ha] at h ⊢
      cases h
      exact ⟨_, hanswers, rfl⟩
    | inr result =>
      simp only [poll, Cache.pollLookup, ha] at h
      split at h
      · simp only [startCall] at h
        split at h
        · cases h
          exact ⟨_, rfl⟩
        · exact absurd h (settle_ne_inl _ _ _ _)
      · exact absurd h (settle_ne_inl _ _ _ _)
  | call path n outcome =>
    cases n with
    | succ n =>
      cases h
      exact ⟨_, rfl⟩
    | zero => exact absurd h (settle_ne_inl _ _ _ _)

theorem leads_activity (hw : w.Alike w) :
    (activity w.backend).Leads (Cache.Steady w) (Expects w) where
  state live _ _ _ hc hr := hc.poll hw.constant w.backend live hr
  self live _ _ _ hc hr := heading_poll hw live hc hr
  others live c r _ _ _ hr' := hr'.mono (grows_poll w.backend live c r)

theorem options_of_turns (hw : w.Alike w) {c c' : Cache φ} (hc : c.Steady w)
    {sources : List Form.OptionSource} {options : List ChoiceList}
    (h : (activity w.backend).Turns (c, sources.map ofSource) (c', options.map .inr)) :
    options = sources.map w.choices :=
  ((leads_activity hw).results h hc (heading_ofSource w c sources)).2

theorem resolveAll_eq (hw : w.Alike w) {c : Cache φ} (hc : c.Steady w)
    (sources : List Form.OptionSource) :
    (resolveAll w.backend c sources).2 = sources.map w.choices :=
  options_of_turns hw hc (turns_finish _ _ _)

theorem resolveField_eq (hw : w.Alike w) {c : Cache φ} (hc : c.Steady w) (f : Form.Field) :
    (resolveField w.backend c f).2 = f.optionSource?.map w.choices := by
  unfold resolveField
  split
  case h_1 hs => rw [hs]; rfl
  case h_2 source hs =>
    rw [hs]
    simp only [resolveAll_eq hw hc]
    rfl

end Resolution

end FormCompiler
