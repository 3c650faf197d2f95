import FormCompiler.Proofs.Cache.Schedule
import FormCompiler.Schema.Resolution

namespace FormCompiler

variable {φ : Type} [DecidableEq φ]

structure Cache.Agree (c c' : Cache φ) : Prop where
  dictionaries : c.dictionaries = c'.dictionaries
  lookups : c.lookups = c'.lookups
  calls : ∀ f, Resolution.callCount c f = Resolution.callCount c' f

namespace Resolution

def calls (f : φ) (events : List (Event φ)) : Nat :=
  events.countP fun e => match e with
    | .called g _ => g = f
    | _ => false

theorem callCount_record (c : Cache φ) (events : List (Event φ)) (f : φ) :
    callCount (c.record events) f = callCount c f + calls f events :=
  List.countP_append

theorem calls_noticed (f : φ) (notices : List Notice) : calls f (notices.map .noticed) = 0 := by
  rw [calls, List.countP_eq_zero]
  intro e he
  obtain ⟨n, -, rfl⟩ := List.mem_map.mp he
  simp

theorem callCount_note (c : Cache φ) (notices : List Notice) (f : φ) :
    callCount (c.note notices) f = callCount c f := by
  rw [Cache.note, callCount_record, calls_noticed, Nat.add_zero]

end Resolution

structure Cache.Congruence (R : Cache φ → Cache φ → Prop) : Prop where
  record : ∀ {c c'}, R c c' → ∀ events, R (c.record events) (c'.record events)
  calls : ∀ {c c'}, R c c' → ∀ f, Resolution.callCount c f = Resolution.callCount c' f
  pollDictionary : ∀ {c c'}, R c c' → ∀ live r,
    R (c.pollDictionary live r).1 (c'.pollDictionary live r).1 ∧
      (c.pollDictionary live r).2 = (c'.pollDictionary live r).2
  pollLookup : ∀ {c c'}, R c c' → ∀ live r,
    R (c.pollLookup live r).1 (c'.pollLookup live r).1 ∧
      (c.pollLookup live r).2 = (c'.pollLookup live r).2

namespace Cache.Congruence

variable {R : Cache φ → Cache φ → Prop} {c c' : Cache φ}

theorem settle (hR : Congruence R) (h : R c c') (path : String)
    (result : Except OptionError ChoiceList) :
    R (Resolution.settle c path result).1 (Resolution.settle c' path result).1 ∧
      (Resolution.settle c path result).2 = (Resolution.settle c' path result).2 := by
  cases result with
  | ok options => exact ⟨h, rfl⟩
  | error error => exact ⟨hR.record h _, rfl⟩

theorem startCall (hR : Congruence R) (h : R c c') (backend : Backend φ) (path : String) (f : φ)
    (params : Json) :
    R (Resolution.startCall backend c path f params).1
        (Resolution.startCall backend c' path f params).1 ∧
      (Resolution.startCall backend c path f params).2 =
        (Resolution.startCall backend c' path f params).2 := by
  simp only [Resolution.startCall, ← hR.calls h]
  split
  · exact ⟨hR.record h _, rfl⟩
  · exact hR.settle (hR.record h _) path _

theorem alike (hR : Congruence R) (backend : Backend φ) :
    (Resolution.activity backend).Alike R := by
  intro live c c' r h
  cases r with
  | dictionary path request =>
    obtain ⟨hturn, he⟩ := hR.pollDictionary h live request
    simp only [Resolution.activity, Resolution.poll, ← he]
    split
    · exact ⟨hturn, rfl⟩
    · exact hR.settle hturn path _
  | lookup path params request =>
    obtain ⟨hturn, he⟩ := hR.pollLookup h live request
    simp only [Resolution.activity, Resolution.poll, ← he]
    split
    · exact ⟨hturn, rfl⟩
    · split
      · exact hR.startCall hturn backend path _ params
      · exact hR.settle hturn path _
  | call path n outcome =>
    cases n with
    | zero => exact hR.settle h path _
    | succ n => exact ⟨h, rfl⟩

end Cache.Congruence

namespace Cache.Agree

theorem note (c : Cache φ) (notices notices' : List Notice) :
    Agree (c.note notices) (c.note notices') where
  dictionaries := rfl
  lookups := rfl
  calls f := by rw [Resolution.callCount_note, Resolution.callCount_note]

theorem record {c c' : Cache φ} (h : Agree c c') (events : List (Event φ)) :
    Agree (c.record events) (c'.record events) where
  dictionaries := h.dictionaries
  lookups := h.lookups
  calls f := by rw [Resolution.callCount_record, Resolution.callCount_record, h.calls]

theorem congruence : Congruence (Agree (φ := φ)) where
  record := record
  calls := calls
  pollDictionary := by
    intro c c' h live r
    simp only [Cache.pollDictionary, ← h.dictionaries, and_true]
    apply record
    exact ⟨rfl, h.lookups, h.calls⟩
  pollLookup := by
    intro c c' h live r
    simp only [Cache.pollLookup, ← h.lookups, and_true]
    apply record
    exact ⟨h.dictionaries, rfl, h.calls⟩

end Cache.Agree

theorem Resolution.resolveAll_congr {c c' : Cache φ} (h : Cache.Agree c c') (backend : Backend φ)
    (sources : List Form.OptionSource) :
    (resolveAll backend c sources).2 = (resolveAll backend c' sources).2 :=
  ((Cache.Agree.congruence.alike backend).finish c _ c' h).2

end FormCompiler
