import Signer.Gateway.Limits
import Signer.Service.PeriodLedger

/-!
# Daily totals that survive a crash

What memory and file know of the grants made so far. The state in memory covers them, and so does
the state in the file, if it can be read: a total is in the file before its grant is made, and a day
is only ever replaced by a later one. So what a call starts from covers the grants of its day, also
in a process that has just been started.
-/

namespace Signer.Gateway

open PeriodLedger (Grant Covers granted)

variable {α κ : Type} [OfNat α 0] [DecidableEq κ] {units : α → Nat} {keyOf : κ → String}
  {codec : AtomicFile.Codec (DayState α)} {grants : List (Grant κ)} {grant : Grant κ}
  {s s' : DayState α} {store store' : DayStore α}

/-- The totals of a state cover the grants, counted in `units` and kept under `keyOf`. -/
def DayState.Covers (units : α → Nat) (keyOf : κ → String) (grants : List (Grant κ))
    (s : DayState α) : Prop :=
  ∀ key, PeriodLedger.Covers grants key s.day (units (s.total (keyOf key)))

/-- Memory covers the grants, and so does a file that can be read. -/
structure DayStore.Sound (units : α → Nat) (keyOf : κ → String)
    (codec : AtomicFile.Codec (DayState α)) (grants : List (Grant κ)) (store : DayStore α) :
    Prop where
  cached : ∀ s, store.cache = some s → s.Covers units keyOf grants
  stored : ∀ s, AtomicFile.load codec true store.file = .value s → s.Covers units keyOf grants
  unused : AtomicFile.load codec true store.file = .missing →
    ∀ key period, granted grants key period = 0

namespace DayState

theorem total_set_self (s : DayState α) (key : String) (value : α) :
    (s.set key value).total key = value := by
  simp [set, total, Finmap.lookup_insert]

theorem total_set_of_ne (s : DayState α) {key other : String} (h : other ≠ key) (value : α) :
    (s.set key value).total other = s.total other := by
  simp [set, total, Finmap.lookup_insert_of_ne _ h]

omit [OfNat α 0] in
theorem day_of_forward {day : Nat} (h : s.forward day = some s') : s'.day = day := by
  unfold forward at h
  split at h
  · cases h
    assumption
  · split at h
    · cases h
      rfl
    · cases h

theorem Covers.forward (hs : s.Covers units keyOf grants) {day : Nat}
    (h : s.forward day = some s') : s'.Covers units keyOf grants := by
  unfold DayState.forward at h
  split at h
  · cases h
    exact hs
  · split at h
    · rename_i hlt
      cases h
      exact fun key => (hs key).advance hlt
    · cases h

theorem Covers.set (hs : s.Covers units keyOf grants) {key : String} {value : α}
    (hle : units (s.total key) ≤ units value) : (s.set key value).Covers units keyOf grants := by
  intro other
  by_cases hkey : keyOf other = key
  · rw [hkey, total_set_self]
    exact (hs other).mono (hkey ▸ hle)
  · rw [total_set_of_ne s hkey]
    exact hs other

theorem Covers.set_append (hs : s.Covers units keyOf grants) {value : α}
    (hday : grant.period = s.day)
    (hle : units (s.total (keyOf grant.key)) + grant.amount ≤ units value) :
    (s.set (keyOf grant.key) value).Covers units keyOf (grants ++ [grant]) := by
  intro other
  by_cases hkey : keyOf other = keyOf grant.key
  · rw [hkey, total_set_self]
    have hother := hs other
    rw [hkey] at hother
    exact hother.append hday (by omega) fun _ => hle
  · rw [total_set_of_ne s hkey]
    exact (hs other).append_of_ne fun hself => hkey (by rw [hself])

end DayState

namespace DayStore.Sound

theorem nil (store : DayStore α) : store.Sound units keyOf codec ([] : List (Grant κ)) where
  cached _ _ _ := .nil
  stored _ _ _ := .nil
  unused _ _ _ := rfl

theorem load (h : store.Sound units keyOf codec grants) {reads : Bool} {day : Nat}
    (hload : DayStore.load codec reads day store.file = some s) :
    s.Covers units keyOf grants ∧ s.day = day := by
  unfold DayStore.load at hload
  rcases AtomicFile.load_eq_or_failed codec reads store.file with hread | hfailed
  · rw [hread] at hload
    cases hfile : AtomicFile.load codec true store.file with
    | missing =>
      rw [hfile] at hload
      cases hload
      exact ⟨fun key => .of_granted_eq_zero (h.unused hfile key), rfl⟩
    | failed =>
      rw [hfile] at hload
      cases hload
    | value found =>
      rw [hfile] at hload
      exact ⟨(h.stored found hfile).forward hload, DayState.day_of_forward hload⟩
  · rw [hfailed] at hload
    cases hload

theorem resolve (h : store.Sound units keyOf codec grants) {reads : Bool} {day : Nat}
    (hresolve : store.resolve codec reads day = some s) :
    s.Covers units keyOf grants ∧ s.day = day := by
  unfold DayStore.resolve at hresolve
  cases hcache : store.cache with
  | none =>
    rw [hcache] at hresolve
    exact h.load hresolve
  | some cached =>
    rw [hcache] at hresolve
    exact ⟨(h.cached cached hcache).forward hresolve, DayState.day_of_forward hresolve⟩

theorem keep (h : store.Sound units keyOf codec grants) (hs : s.Covers units keyOf grants) :
    ({ store with cache := some s } : DayStore α).Sound units keyOf codec grants where
  cached found hfound := by
    cases hfound
    exact hs
  stored := h.stored
  unused := h.unused

theorem restart (h : store.Sound units keyOf codec grants) :
    store.restart.Sound units keyOf codec grants where
  cached found hfound := by cases hfound
  stored := h.stored
  unused := h.unused

theorem of_stored {file : Option Bytes} (hs : s.Covers units keyOf grants)
    (hfile : AtomicFile.load codec true file = .value s) :
    (⟨some s, file⟩ : DayStore α).Sound units keyOf codec grants where
  cached found hfound := by
    cases hfound
    exact hs
  stored found hfound := by
    rw [hfile] at hfound
    cases hfound
    exact hs
  unused hmissing := by
    rw [hfile] at hmissing
    cases hmissing

theorem written (hcodec : codec.RoundTrip) {writes : Bool} (hs : s.Covers units keyOf grants)
    (h : (store.writeThrough codec writes s).1 = true) :
    (store.writeThrough codec writes s).2.Sound units keyOf codec grants :=
  of_stored hs (AtomicFile.load_store hcodec h)

theorem unwritten (h : store.Sound units keyOf codec grants) {writes : Bool}
    (hs : s.Covers units keyOf grants) (hfailed : (store.writeThrough codec writes s).1 = false) :
    (store.writeThrough codec writes s).2.Sound units keyOf codec grants := by
  have hfile : (AtomicFile.store codec writes s store.file).2 = store.file :=
    AtomicFile.store_of_failed hfailed
  simp only [DayStore.writeThrough, hfile]
  exact h.keep hs

theorem bootProbe (hcodec : codec.RoundTrip) (h : store.Sound units keyOf codec grants)
    (reads writes : Bool) (now : Nat) :
    (store.bootProbe codec reads writes now).2.Sound units keyOf codec grants := by
  unfold DayStore.bootProbe
  cases hload : DayStore.load codec reads (today now) store.file with
  | none => exact h
  | some found =>
    have hfound := (h.load hload).1
    rcases hstore : AtomicFile.store codec writes found store.file with ⟨_ | _, file⟩
    · have hkept : (AtomicFile.store codec writes found store.file).2 = store.file :=
        AtomicFile.store_of_failed (by rw [hstore])
      rw [hstore] at hkept
      subst hkept
      simpa only [hstore] using h
    · have hfile := AtomicFile.load_store hcodec (by rw [hstore])
      rw [hstore] at hfile
      simpa [hstore] using of_stored hfound hfile

end DayStore.Sound

end Signer.Gateway
