import Mathlib.Algebra.Ring.Nat
import Signer.Gateway.ReconcileRuns

/-!
# What an incident bundle says

At its end a job writes down what it saw on each venue: the book at first, the book at last, and how
many cancels were acknowledged. The listings and cancels of the run determine this.
-/

namespace Signer.Gateway

open Program

/-! ### What was seen -/

def listingsOf (venue : String) (past : List JobEvent) : List (Except String (List OpenOrder)) :=
  past.filterMap fun
    | ⟨.listOpen v, answer⟩ => if v = venue then some answer.1 else none
    | _ => none

def readings (venue : String) (past : List JobEvent) : List (List OpenOrder) :=
  (listingsOf venue past).filterMap Except.toOption

def CancelOutcome.acknowledged : CancelOutcome → Bool
  | .cancelled | .gone => true
  | .failed _ => false

def acknowledgedIn (venue : String) : JobEvent → ℕ
  | ⟨.cancel v orders, answer⟩ =>
    if v = venue then (((orders.zip answer.1).map (·.2)).countP (·.acknowledged)) else 0
  | _ => 0

def acknowledged (venue : String) (past : List JobEvent) : ℕ :=
  (past.map (acknowledgedIn venue)).sum

def bundles (past : List JobEvent) : List IncidentBundle :=
  past.filterMap fun
    | ⟨.writeBundle bundle, _⟩ => some bundle
    | _ => none

section

variable (venue : String) (past events : List JobEvent)

@[simp]
theorem listingsOf_append :
    listingsOf venue (past ++ events) = listingsOf venue past ++ listingsOf venue events :=
  List.filterMap_append

@[simp]
theorem acknowledged_append :
    acknowledged venue (past ++ events) = acknowledged venue past + acknowledged venue events := by
  rw [acknowledged, List.map_append, List.sum_append]
  rfl

@[simp]
theorem bundles_append : bundles (past ++ events) = bundles past ++ bundles events :=
  List.filterMap_append

end

/-! ### What is kept -/

def Unwind.on (u : Unwind) (venue : String) : VenueReconcile := (u.progress.lookup venue).getD {}

variable {past : List JobEvent}

namespace Unwind

variable {u : Unwind} {venue other : String}

theorem on_modify (f : VenueReconcile → VenueReconcile) :
    (u.modify venue f).on other = if other = venue then f (u.on venue) else u.on other := by
  simp only [on, modify, lookup_insertEntry]
  split <;> rfl

theorem before_noteListed (orders : List OpenOrder) :
    (u.noteListed venue orders).before =
      if u.rounds = 1 then insertEntry venue orders u.before else u.before := rfl

theorem after_noteListed (orders : List OpenOrder) :
    (u.noteListed venue orders).after = insertEntry venue orders u.after := rfl

theorem on_noteListed (orders : List OpenOrder) :
    (u.noteListed venue orders).on other =
      if other = venue then
        { u.on venue with
          found := if u.rounds = 1 then UInt32.ofNat orders.length else (u.on venue).found
          resting := some (UInt32.ofNat orders.length)
          error := none }
      else u.on other :=
  on_modify fun pv =>
    { pv with
      found := if u.rounds = 1 then UInt32.ofNat orders.length else pv.found
      resting := some (UInt32.ofNat orders.length)
      error := none }

structure Counted (venue : String) (u later : Unwind) (n : ℕ) : Prop where
  before : later.before = u.before
  after : later.after = u.after
  other : ∀ other, other ≠ venue → later.on other = u.on other
  found : (later.on venue).found = (u.on venue).found
  resting : (later.on venue).resting = (u.on venue).resting
  cancelled : (later.on venue).cancelled = (u.on venue).cancelled + UInt32.ofNat n

theorem Counted.trans {later last : Unwind} {m n : ℕ} (h : Counted venue u later m)
    (h' : Counted venue later last n) : Counted venue u last (m + n) where
  before := h'.before.trans h.before
  after := h'.after.trans h.after
  other o ho := (h'.other o ho).trans (h.other o ho)
  found := h'.found.trans h.found
  resting := h'.resting.trans h.resting
  cancelled := by rw [h'.cancelled, h.cancelled, UInt32.ofNat_add, UInt32.add_assoc]

theorem counted_noteOutcome (result : CancelOutcome) :
    Counted venue u (noteOutcome venue u result) (if result.acknowledged then 1 else 0) := by
  have hmodify : ∀ f : VenueReconcile → VenueReconcile, (∀ pv, (f pv).found = pv.found) →
      (∀ pv, (f pv).resting = pv.resting) → ∀ n, (∀ pv, (f pv).cancelled = pv.cancelled +
        UInt32.ofNat n) → Counted venue u (u.modify venue f) n := by
    intro f hfound hresting n hcancelled
    refine ⟨rfl, rfl, fun o ho => ?_, ?_, ?_, ?_⟩
    · rw [on_modify, if_neg ho]
    · rw [on_modify, if_pos rfl, hfound]
    · rw [on_modify, if_pos rfl, hresting]
    · rw [on_modify, if_pos rfl, hcancelled]
  have hone := hmodify (fun pv => { pv with cancelled := pv.cancelled + 1 }) (fun _ => rfl)
    (fun _ => rfl) 1 (fun _ => rfl)
  cases result with
  | cancelled => exact hone
  | gone => exact hone
  | failed e =>
    have h := hmodify (fun pv => { pv with error := some (truncate e 300) }) (fun _ => rfl)
      (fun _ => rfl) 0 (by simp)
    exact ⟨h.before, h.after, h.other, h.found, h.resting, h.cancelled⟩

theorem counted_noteOutcomes (orders : List OpenOrder) (outcomes : List CancelOutcome) :
    Counted venue u (u.noteOutcomes venue orders outcomes)
      (((orders.zip outcomes).map (·.2)).countP (·.acknowledged)) := by
  unfold noteOutcomes
  generalize (orders.zip outcomes).map (·.2) = results
  induction results generalizing u with
  | nil => exact ⟨rfl, rfl, fun _ _ => rfl, rfl, rfl, by simp⟩
  | cons result results ih =>
    have h := (counted_noteOutcome result).trans (@ih (noteOutcome venue u result))
    rw [List.countP_cons, Nat.add_comm]
    exact h

/-- What the job keeps of a venue, from the listings so far. -/
structure Kept (u : Unwind) (venue : String) (past : List JobEvent) : Prop where
  before : u.before.lookup venue = (listingsOf venue past).head?.bind Except.toOption
  after : u.after.lookup venue = (readings venue past).getLast?
  found : (u.on venue).found =
    UInt32.ofNat (((listingsOf venue past).head?.bind Except.toOption).elim 0 List.length)
  resting : (u.on venue).resting =
    ((listingsOf venue past).getLast?.bind Except.toOption).map fun orders =>
      UInt32.ofNat orders.length
  cancelled : (u.on venue).cancelled = UInt32.ofNat (acknowledged venue past)

theorem Kept.of_silent {later : Unwind}
    (h : u.Kept venue past) (event : JobEvent) (hlistings : listingsOf venue [event] = [])
    (hacknowledged : acknowledged venue [event] = 0)
    (hbefore : later.before.lookup venue = u.before.lookup venue)
    (hafter : later.after.lookup venue = u.after.lookup venue)
    (hon : later.on venue = u.on venue) : later.Kept venue (past ++ [event]) := by
  have hsame : listingsOf venue (past ++ [event]) = listingsOf venue past := by
    rw [listingsOf_append, hlistings, List.append_nil]
  have hcount : acknowledged venue (past ++ [event]) = acknowledged venue past := by
    rw [acknowledged_append, hacknowledged, Nat.add_zero]
  refine ⟨?_, ?_, ?_, ?_, ?_⟩
  · rw [hbefore, hsame, h.before]
  · rw [hafter, readings, hsame, ← readings, h.after]
  · rw [hon, hsame, h.found]
  · rw [hon, hsame, h.resting]
  · rw [hon, hcount, h.cancelled]

section

variable {past : List JobEvent}

theorem listingsOf_listOpen (v : String) (answer : JobQuery.Answer (.listOpen venue)) :
    listingsOf v [⟨.listOpen venue, answer⟩] = if venue = v then [answer.1] else [] := by
  by_cases h : venue = v <;> simp [listingsOf, h]

theorem kept_noteUnreadable (hkept : ∀ v, u.Kept v past) (e : String) (raw : List RawExchange)
    (v : String) :
    (u.noteUnreadable venue e).Kept v (past ++ [⟨.listOpen venue, (.error e, raw)⟩]) := by
  by_cases hv : v = venue
  · subst hv
    obtain ⟨hbefore, hafter, hfound, -, hcancelled⟩ := hkept v
    have hlistings : listingsOf v (past ++ [⟨.listOpen v, (.error e, raw)⟩]) =
        listingsOf v past ++ [.error e] := by
      rw [listingsOf_append, listingsOf_listOpen, if_pos rfl]
    have hhead : (listingsOf v past ++ [Except.error e]).head?.bind Except.toOption =
        (listingsOf v past).head?.bind Except.toOption := by
      cases listingsOf v past <;> rfl
    refine ⟨?_, ?_, ?_, ?_, ?_⟩
    · rw [hlistings, hhead, ← hbefore]
      rfl
    · rw [readings, hlistings, List.filterMap_append]
      exact hafter.trans (congrArg List.getLast? (List.append_nil _).symm)
    · rw [hlistings, hhead, noteUnreadable, on_modify, if_pos rfl, ← hfound]
    · rw [hlistings, noteUnreadable, on_modify, if_pos rfl]
      simp [Except.toOption]
    · rw [noteUnreadable, on_modify, if_pos rfl, acknowledged_append]
      exact hcancelled
  · refine (hkept v).of_silent _ ?_ rfl rfl rfl ?_
    · rw [listingsOf_listOpen, if_neg (Ne.symm hv)]
    · rw [noteUnreadable, on_modify, if_neg hv]

theorem kept_noteListed (hkept : ∀ v, u.Kept v past)
    (hfirst : listingsOf venue past = [] ↔ u.rounds = 1) (orders : List OpenOrder)
    (raw : List RawExchange) (v : String) :
    (u.noteListed venue orders).Kept v (past ++ [⟨.listOpen venue, (.ok orders, raw)⟩]) := by
  by_cases hv : v = venue
  · subst hv
    obtain ⟨hbefore, hafter, hfound, -, hcancelled⟩ := hkept v
    have hlistings : listingsOf v (past ++ [⟨.listOpen v, (.ok orders, raw)⟩]) =
        listingsOf v past ++ [.ok orders] := by
      rw [listingsOf_append, listingsOf_listOpen, if_pos rfl]
    have hhead : (listingsOf v past ++ [Except.ok orders]).head?.bind Except.toOption =
        if u.rounds = 1 then some orders else (listingsOf v past).head?.bind Except.toOption := by
      cases hpast : listingsOf v past with
      | nil => rw [if_pos (hfirst.mp hpast)]; rfl
      | cons first rest => rw [if_neg fun h => by simp [hfirst.mpr h] at hpast]; rfl
    refine ⟨?_, ?_, ?_, ?_, ?_⟩
    · rw [hlistings, hhead, ← hbefore, before_noteListed]
      split <;> simp [lookup_insertEntry]
    · rw [readings, hlistings, List.filterMap_append, after_noteListed, lookup_insertEntry,
        if_pos rfl]
      exact List.getLast?_concat.symm
    · rw [hlistings, hhead, on_noteListed, if_pos rfl, hfound]
      split <;> rfl
    · rw [hlistings, on_noteListed, if_pos rfl]
      simp [Except.toOption]
    · rw [on_noteListed, if_pos rfl, acknowledged_append]
      exact hcancelled
  · refine (hkept v).of_silent _ ?_ rfl ?_ ?_ ?_
    · rw [listingsOf_listOpen, if_neg (Ne.symm hv)]
    · rw [before_noteListed]
      split <;> simp [lookup_insertEntry, hv]
    · rw [after_noteListed, lookup_insertEntry, if_neg hv]
    · rw [on_noteListed, if_neg hv]

theorem kept_noteOutcomes (hkept : ∀ v, u.Kept v past) (orders : List OpenOrder)
    (outcomes : List CancelOutcome) (raw : List RawExchange) (v : String) :
    (u.noteOutcomes venue orders outcomes).Kept v
      (past ++ [⟨.cancel venue orders, (outcomes, raw)⟩]) := by
  have hcounted := @counted_noteOutcomes u venue orders outcomes
  by_cases hv : v = venue
  · subst hv
    obtain ⟨hbefore, hafter, hfound, hresting, hcancelled⟩ := hkept v
    have hlistings : listingsOf v (past ++ [⟨.cancel v orders, (outcomes, raw)⟩]) =
        listingsOf v past := by
      rw [listingsOf_append]
      exact List.append_nil _
    refine ⟨?_, ?_, ?_, ?_, ?_⟩
    · rw [hcounted.before, hlistings, hbefore]
    · rw [hcounted.after, readings, hlistings, ← readings, hafter]
    · rw [hcounted.found, hlistings, hfound]
    · rw [hcounted.resting, hlistings, hresting]
    · rw [hcounted.cancelled, hcancelled, acknowledged_append, UInt32.ofNat_add]
      simp [acknowledged, acknowledgedIn]
  · refine (hkept v).of_silent _ rfl ?_ ?_ ?_ (hcounted.other v hv)
    · simp [acknowledged, acknowledgedIn, Ne.symm hv]
    · rw [hcounted.before]
    · rw [hcounted.after]

end

end Unwind

/-! ### A run -/

def RoundEnd.unwind : RoundEnd → Unwind
  | .released u => u
  | .complete u _ => u

variable {venue : String}

section

variable {u : Unwind} {past : List JobEvent}

theorem Unwind.Kept.with_raw (h : u.Kept venue past) (raw : List RawExchange) :
    ({ u with raw := raw } : Unwind).Kept venue past :=
  ⟨h.before, h.after, h.found, h.resting, h.cancelled⟩

structure ListsVenue (venue : String) (past now : List JobEvent) : Prop where
  others : ∀ v, v ≠ venue → listingsOf v now = listingsOf v past
  listed : listingsOf venue now ≠ []
  bundles : bundles now = bundles past

theorem listsVenue_listOpen (venue : String) (answer : JobQuery.Answer (.listOpen venue)) :
    ListsVenue venue past (past ++ [⟨.listOpen venue, answer⟩]) where
  others v hv := by
    rw [listingsOf_append, Unwind.listingsOf_listOpen, if_neg (Ne.symm hv), List.append_nil]
  listed := by
    rw [listingsOf_append, Unwind.listingsOf_listOpen, if_pos rfl]
    simp
  bundles := (bundles_append _ _).trans (List.append_nil _)

theorem ListsVenue.append {now : List JobEvent} (h : ListsVenue venue past now)
    (event : JobEvent) (hlistings : ∀ v, listingsOf v [event] = [])
    (hbundles : Gateway.bundles [event] = []) : ListsVenue venue past (now ++ [event]) where
  others v hv := by rw [listingsOf_append, hlistings, List.append_nil, h.others v hv]
  listed := by rw [listingsOf_append, hlistings, List.append_nil]; exact h.listed
  bundles := by rw [bundles_append, hbundles, List.append_nil, h.bundles]

theorem unwindVenue_keeps (venue : String) (clean : Bool) (hkept : ∀ v, u.Kept v past)
    (hfirst : listingsOf venue past = [] ↔ u.rounds = 1) :
    (unwindVenue venue u clean).Follows anything past fun now result =>
      (∀ v, result.unwind.Kept v now) ∧ result.unwind.rounds = u.rounds ∧
        ListsVenue venue past now := by
  simp only [unwindVenue, follows_bind, follows_query, anything, true_and]
  rintro ⟨listed, raw⟩
  have hraw : ∀ v, ({ u with raw := u.raw ++ raw } : Unwind).Kept v past := fun v =>
    (hkept v).with_raw _
  have hlists := @listsVenue_listOpen past venue (listed, raw)
  cases listed with
  | error e => exact ⟨Unwind.kept_noteUnreadable hraw e raw, rfl, hlists⟩
  | ok orders =>
    have hnoted := Unwind.kept_noteListed hraw hfirst orders raw
    dsimp only
    split
    · exact ⟨hnoted, rfl, hlists⟩
    · simp only [follows_bind, follows_query, anything, true_and]
      intro state
      have hlooked := fun v =>
        (hnoted v).of_silent ⟨.stateOf, state⟩ rfl rfl rfl rfl rfl
      have hlists' := hlists.append ⟨.stateOf, state⟩ (fun _ => rfl) rfl
      split
      · exact ⟨hlooked, rfl, hlists'⟩
      · simp only [follows_bind, follows_query, follows_pure, anything,
          true_and]
        rintro ⟨outcomes, cancelRaw⟩
        refine ⟨Unwind.kept_noteOutcomes (fun v => (hlooked v).with_raw _) orders outcomes
          cancelRaw, ?_, hlists'.append _ (fun _ => rfl) rfl⟩
        simp [RoundEnd.unwind]

theorem unwindVenues_keeps (venues : List String) (clean : Bool) (hnodup : venues.Nodup)
    (hkept : ∀ v, u.Kept v past) (hfirst : ∀ v ∈ venues, listingsOf v past = [] ↔ u.rounds = 1) :
    (unwindVenues venues u clean).Follows anything past fun now result =>
      (∀ v, result.unwind.Kept v now) ∧ result.unwind.rounds = u.rounds ∧
        bundles now = bundles past ∧ (∀ v ∉ venues, listingsOf v now = listingsOf v past) ∧
        ∀ u' clean', result = .complete u' clean' → ∀ v ∈ venues, listingsOf v now ≠ [] := by
  induction venues generalizing u clean past with
  | nil => exact ⟨hkept, rfl, rfl, fun _ _ => rfl, by simp⟩
  | cons venue venues ih =>
    obtain ⟨hvenue, hnodup⟩ := List.nodup_cons.mp hnodup
    rw [unwindVenues, follows_bind]
    refine (unwindVenue_keeps venue clean hkept (hfirst venue List.mem_cons_self)).mono ?_
    rintro now result ⟨hnow, hrounds, hlists⟩
    cases result with
    | released u' =>
      refine ⟨hnow, hrounds, hlists.bundles, fun v hv => hlists.others v ?_, by simp⟩
      exact fun h => hv (h ▸ List.mem_cons_self)
    | complete u' clean' =>
      -- the venues of the rest of the round are not the one just listed
      have hrest : ∀ v ∈ venues, listingsOf v now = [] ↔ u'.rounds = 1 := by
        intro v hv
        rw [hlists.others v fun h => hvenue (h ▸ hv), show u'.rounds = u.rounds from hrounds]
        exact hfirst v (List.mem_cons_of_mem _ hv)
      refine (ih clean' hnodup hnow hrest).mono ?_
      rintro later result ⟨hlater, hrounds', hbundles, hothers, hlisted⟩
      refine ⟨hlater, hrounds'.trans hrounds, hbundles.trans hlists.bundles, fun v hv => ?_,
        fun u'' clean'' hcomplete => List.forall_mem_cons.mpr ⟨?_, hlisted u'' clean'' hcomplete⟩⟩
      · rw [List.mem_cons, not_or] at hv
        rw [hothers v hv.2, hlists.others v hv.1]
      · rw [hothers venue hvenue]
        exact hlists.listed

theorem unwindRounds_keeps (venues : List String) (left : ℕ) (hnodup : venues.Nodup)
    (hkept : ∀ v, u.Kept v past) (hfirst : ∀ v ∈ venues, listingsOf v past = [] ↔ u.rounds = 0) :
    (unwindRounds venues left u).Follows anything past fun now result =>
      (∀ v, result.2.Kept v now) ∧ bundles now = bundles past := by
  induction left generalizing u past with
  | zero => exact ⟨hkept, rfl⟩
  | succ left ih =>
    simp only [unwindRounds, follows_bind, follows_query, anything, true_and]
    intro state
    have hlooked : ∀ v, ({ u with rounds := u.rounds + 1 } : Unwind).Kept v
        (past ++ [⟨.stateOf, state⟩]) := fun v =>
      (hkept v).of_silent _ rfl rfl rfl rfl rfl
    have hbundles : bundles (past ++ [⟨.stateOf, state⟩]) = bundles past :=
      (bundles_append _ _).trans (List.append_nil _)
    split
    · exact ⟨hlooked, hbundles⟩
    · have hround : ∀ v ∈ venues, listingsOf v (past ++ [⟨.stateOf, state⟩]) = [] ↔
          u.rounds + 1 = 1 := by
        intro v hv
        rw [listingsOf_append]
        simpa [listingsOf] using hfirst v hv
      rw [follows_bind]
      refine (unwindVenues_keeps venues true hnodup hlooked hround).mono ?_
      rintro now result ⟨hnow, hrounds, hsame, -, hlisted⟩
      cases result with
      | released u' => exact ⟨hnow, hsame.trans hbundles⟩
      | complete u' clean =>
        have hnext : ∀ v ∈ venues, listingsOf v now = [] ↔ u'.rounds = 0 := by
          intro v hv
          have hrounds : u'.rounds = u.rounds + 1 := hrounds
          simp [hlisted u' clean rfl v hv, hrounds]
        simp only [follows_bind, follows_query, anything, true_and]
        intro _
        -- what happens between two rounds is no listing, no cancel and no bundle
        have hmarked : ∀ v, u'.Kept v (now ++ [⟨.updateReconcile (.markRound u'), ()⟩]) := fun v =>
          (hnow v).of_silent _ rfl rfl rfl rfl rfl
        have hmarkedBundles : bundles (now ++ [⟨.updateReconcile (.markRound u'), ()⟩]) =
            bundles past := by
          rw [bundles_append, hsame, hbundles]
          exact List.append_nil _
        have hmarkedNext : ∀ v ∈ venues,
            listingsOf v (now ++ [⟨.updateReconcile (.markRound u'), ()⟩]) = [] ↔
              u'.rounds = 0 := by
          intro v hv
          rw [listingsOf_append]
          simpa [listingsOf] using hnext v hv
        split_ifs with hgated hdone hfirst hsleep
        · exact ⟨hmarked, hmarkedBundles⟩
        · exact ⟨hmarked, hmarkedBundles⟩
        · exact ⟨hmarked, hmarkedBundles⟩
        · simp only [follows_bind, follows_query, anything, true_and]
          intro _
          refine (ih (fun v => (hmarked v).of_silent _ rfl rfl rfl rfl rfl) fun v hv => ?_).mono ?_
          · rw [listingsOf_append]
            simpa [listingsOf] using hmarkedNext v hv
          · rintro later result ⟨hlater, hlaterBundles⟩
            refine ⟨hlater, ?_⟩
            rw [hlaterBundles, bundles_append, hmarkedBundles]
            exact List.append_nil _
        · refine (ih hmarked hmarkedNext).mono ?_
          rintro later result ⟨hlater, hlaterBundles⟩
          exact ⟨hlater, hlaterBundles.trans hmarkedBundles⟩

theorem kept_starting (venues : List String) (venue : String)
    (hlistings : listingsOf venue past = []) (hacknowledged : acknowledged venue past = 0) :
    ({ progress := startingProgress venues } : Unwind).Kept venue past := by
  have hplain : ∀ progress : List (String × VenueReconcile),
      (∀ pv, progress.lookup venue = some pv →
        pv.found = 0 ∧ pv.resting = none ∧ pv.cancelled = 0) →
      ∀ pv, (venues.foldl (fun progress v => insertEntry v
        (if supported v then {}
          else { error := some "venue not unwindable by this version — unwind by hand",
                 unsupported := true }) progress) progress).lookup venue = some pv →
        pv.found = 0 ∧ pv.resting = none ∧ pv.cancelled = 0 := by
    induction venues with
    | nil => exact fun _ h => h
    | cons v venues ih =>
      refine fun progress h => ih _ fun pv hpv => ?_
      rw [lookup_insertEntry] at hpv
      split at hpv
      · cases hpv
        split <;> exact ⟨rfl, rfl, rfl⟩
      · exact h pv hpv
  have hon : ∃ pv, ({ progress := startingProgress venues } : Unwind).on venue = pv ∧
      pv.found = 0 ∧ pv.resting = none ∧ pv.cancelled = 0 := by
    refine ⟨_, rfl, ?_⟩
    unfold Unwind.on
    cases hfound : (startingProgress venues).lookup venue with
    | none => exact ⟨rfl, rfl, rfl⟩
    | some pv => exact hplain [] (by simp) pv hfound
  obtain ⟨pv, hpv, hfound, hresting, hcancelled⟩ := hon
  refine ⟨?_, ?_, ?_, ?_, ?_⟩
  · simp [hlistings]
  · simp [readings, hlistings]
  · simp [hpv, hfound, hlistings]
  · simp [hpv, hresting, hlistings]
  · simp [hpv, hcancelled, hacknowledged]

theorem run_keeps (customer : String) {venues : List String} (hnodup : venues.Nodup) :
    (run customer venues).Follows anything [] fun now _ =>
      ∃ (bundle : IncidentBundle) (u : Unwind), bundles now = [bundle] ∧
      bundle.customer = customer ∧ now.head? = some ⟨.nowUnix, bundle.startedUnix⟩ ∧
      bundle.before = u.before ∧ bundle.after = u.after ∧ bundle.venues = u.progress ∧
      ∀ v, u.Kept v now := by
  simp only [run, follows_bind, follows_query, anything, true_and]
  intro started _
  refine (unwindRounds_keeps _ maxRounds (hnodup.filter _)
    (fun v => kept_starting venues v rfl rfl) (fun v _ => by simp [listingsOf])).grows.mono ?_
  rintro _ ⟨phase, u⟩ ⟨⟨later, rfl⟩, hkept, hbundles⟩
  simp only [finish, follows_bind, follows_query, follows_pure, anything,
    true_and]
  intro finished state path _
  refine ⟨{
    customer, tenantState := state, startedUnix := started, finishedUnix := finished
    phase := (verdict venues phase u).1, rounds := u.rounds, venues := u.progress
    before := u.before, after := u.after, raw := u.raw }, u, ?_, rfl, rfl, rfl, rfl, rfl, fun v => ?_⟩
  · simp only [bundles_append, hbundles]
    rfl
  · exact ((((hkept v).of_silent _ rfl rfl rfl rfl rfl).of_silent _ rfl rfl rfl rfl rfl).of_silent _
      rfl rfl rfl rfl rfl).of_silent _ rfl rfl rfl rfl rfl

end

/-! ### What the bundle says -/

/-- The bundle tells of a venue what the listings and cancels of the run determine. -/
structure IncidentBundle.Tells (bundle : IncidentBundle) (venue : String)
    (past : List JobEvent) : Prop where
  before : bundle.before.lookup venue = (readings venue past).head?
  found : ((bundle.venues.lookup venue).getD {}).found.toNat =
    (readings venue past).head?.elim 0 List.length
  after : bundle.after.lookup venue = (listingsOf venue past).getLast?.bind Except.toOption
  resting : ∀ orders, bundle.after.lookup venue = some orders →
    ((bundle.venues.lookup venue).getD {}).resting.map UInt32.toNat = some orders.length
  cancelled : ((bundle.venues.lookup venue).getD {}).cancelled.toNat = acknowledged venue past

def Countable (n : ℕ) : Prop := n < 2 ^ 32

/-- The first and the last listing could be read, or none could, and the counts fit a `u32`. -/
structure ReadAtBothEnds (venue : String) (past : List JobEvent) : Prop where
  ends : readings venue past = [] ∨
    (∃ orders, (listingsOf venue past).head? = some (.ok orders) ∧ Countable orders.length) ∧
    ∃ orders, (listingsOf venue past).getLast? = some (.ok orders) ∧ Countable orders.length
  acknowledged : Countable (acknowledged venue past)

theorem bind_toOption_eq_some {ε α : Type} {o : Option (Except ε α)} {a : α} :
    o.bind Except.toOption = some a ↔ o = some (.ok a) := by
  rcases o with - | (e | b) <;> simp [Except.toOption]

theorem toNat_ofNat_eq_iff (n : ℕ) : (UInt32.ofNat n).toNat = n ↔ Countable n := by
  rw [UInt32.toNat_ofNat', Nat.mod_eq_iff_lt (by decide)]
  rfl

variable {orders : List OpenOrder}

theorem head?_readings
    (h : (listingsOf venue past).head? = some (.ok orders)) :
    (readings venue past).head? = some orders := by
  obtain ⟨rest, hrest⟩ := List.head?_eq_some_iff.mp h
  rw [readings, hrest]
  rfl

theorem getLast?_readings
    (h : (listingsOf venue past).getLast? = some (.ok orders)) :
    (readings venue past).getLast? = some orders := by
  obtain ⟨rest, hrest⟩ := List.getLast?_eq_some_iff.mp h
  rw [readings, hrest, List.filterMap_append]
  exact List.getLast?_concat

theorem tells_iff_readAtBothEnds {bundle : IncidentBundle} {u : Unwind}
    (hbefore : bundle.before = u.before) (hafter : bundle.after = u.after)
    (hvenues : bundle.venues = u.progress) (hkept : u.Kept venue past) :
    bundle.Tells venue past ↔ ReadAtBothEnds venue past := by
  have hon : (bundle.venues.lookup venue).getD {} = u.on venue := by rw [hvenues, Unwind.on]
  have hcount : (u.on venue).cancelled.toNat = acknowledged venue past ↔
      Countable (acknowledged venue past) := by rw [hkept.cancelled, toNat_ofNat_eq_iff]
  constructor
  · intro htells
    refine ⟨?_, hcount.mp (hon ▸ htells.cancelled)⟩
    by_cases hread : readings venue past = []
    · exact .inl hread
    · obtain ⟨first, hfirst⟩ := Option.ne_none_iff_exists'.mp (mt List.head?_eq_none_iff.mp hread)
      obtain ⟨last, hlast⟩ := Option.ne_none_iff_exists'.mp (mt List.getLast?_eq_none_iff.mp hread)
      -- what was kept is the first listing of all, and the last that was read
      have hhead : (listingsOf venue past).head?.bind Except.toOption = some first := by
        rw [← hkept.before, ← hbefore, htells.before, hfirst]
      have hafterLast : bundle.after.lookup venue = some last := by rw [hafter, hkept.after, hlast]
      have hlastListing : (listingsOf venue past).getLast?.bind Except.toOption = some last := by
        rw [← htells.after, hafterLast]
      have hfound := htells.found
      rw [hon, hkept.found, hhead, hfirst] at hfound
      have hresting := htells.resting last hafterLast
      rw [hon, hkept.resting, hlastListing] at hresting
      exact .inr ⟨⟨first, bind_toOption_eq_some.mp hhead, (toNat_ofNat_eq_iff _).mp hfound⟩,
        last, bind_toOption_eq_some.mp hlastListing,
        (toNat_ofNat_eq_iff _).mp (Option.some.inj hresting)⟩
  · rintro ⟨hnone | ⟨⟨first, hfirst, hfirstCount⟩, last, hlast, hlastCount⟩, hacknowledged⟩
    · have hhead : (listingsOf venue past).head?.bind Except.toOption = none := by
        refine Option.eq_none_iff_forall_ne_some.mpr fun orders h => ?_
        simpa [hnone] using head?_readings (bind_toOption_eq_some.mp h)
      have hlast : (listingsOf venue past).getLast?.bind Except.toOption = none := by
        refine Option.eq_none_iff_forall_ne_some.mpr fun orders h => ?_
        simpa [hnone] using getLast?_readings (bind_toOption_eq_some.mp h)
      refine ⟨?_, ?_, ?_, ?_, hon ▸ hcount.mpr hacknowledged⟩
      · rw [hbefore, hkept.before, hhead, hnone]
        rfl
      · rw [hon, hkept.found, hhead, hnone]
        rfl
      · rw [hafter, hkept.after, hlast, hnone]
        rfl
      · intro orders horders
        rw [hafter, hkept.after, hnone] at horders
        cases horders
    · refine ⟨?_, ?_, ?_, ?_, hon ▸ hcount.mpr hacknowledged⟩
      · rw [hbefore, hkept.before, hfirst, head?_readings hfirst]
        rfl
      · rw [hon, hkept.found, hfirst, head?_readings hfirst]
        exact (toNat_ofNat_eq_iff _).mpr hfirstCount
      · rw [hafter, hkept.after, getLast?_readings hlast, hlast]
        rfl
      · intro orders horders
        rw [hafter, hkept.after, getLast?_readings hlast] at horders
        cases horders
        rw [hon, hkept.resting, hlast]
        exact congrArg some ((toNat_ofNat_eq_iff _).mpr hlastCount)

theorem nodup_venuesOf (customer : String) {blobs : List String} (hblobs : blobs.Nodup) :
    (venuesOf customer blobs).Nodup := by
  have hstems : (blobs.filterMap (Text.stripPrefix (customer ++ "/"))).Nodup := by
    refine hblobs.filterMap fun a b stem ha hb => ?_
    rw [Text.stripPrefix_eq_some_iff.mp ha, Text.stripPrefix_eq_some_iff.mp hb]
  exact (List.perm_insertionSort _ _).nodup_iff.mpr (hstems.filter _)

/-- The bundle of a run says what was seen on a venue exactly where the first and the last listing
of the venue could be read, or none could; and the numbers fit its counters. The blobs of a customer
have different names. -/
theorem bundle_tells_iff (customer : String) {blobs : List String} (hblobs : blobs.Nodup)
    (world : List JobEvent → (q : JobQuery) → q.Answer) :
    let venues := venuesOf customer blobs
    let past := ((run customer venues).exec world []).1
    ∃ bundle, bundles past = [bundle] ∧ ∀ venue ∈ venues, supported venue = true →
      (bundle.Tells venue past ↔ ReadAtBothEnds venue past) := by
  intro venues past
  obtain ⟨bundle, u, hbundles, -, -, hbefore, hafter, hvenues, hkept⟩ :=
    (run_keeps customer (nodup_venuesOf customer hblobs)).exec world
  exact ⟨bundle, hbundles, fun venue _ _ =>
    tells_iff_readAtBothEnds hbefore hafter hvenues (hkept venue)⟩

/-- An order that was cancelled: the bundle says so. -/
theorem bundle_tells_iff_cancelled :
    ∃ bundle, bundles (Sample.oneOrderRun .cancelled (.ok [])).1 = [bundle] ∧
      bundle.Tells "okx" (Sample.oneOrderRun .cancelled (.ok [])).1 ∧
      bundle.before.lookup "okx" = some [Sample.oneOrder] := by
  have hcount : ∀ n < 2, Countable n := fun n hn => lt_trans hn (by decide)
  have hends : ReadAtBothEnds "okx" (Sample.oneOrderRun .cancelled (.ok [])).1 :=
    ⟨.inr ⟨⟨[Sample.oneOrder], rfl, hcount 1 (by decide)⟩, [], rfl, hcount 0 (by decide)⟩,
      hcount 1 (by decide)⟩
  have hvenue : "okx" ∈ venuesOf "c" ["c/okx"] := by decide +kernel
  obtain ⟨bundle, hbundles, htells⟩ := @bundle_tells_iff "c" ["c/okx"] (by decide)
    (Sample.oneOrderWorld .cancelled (.ok []))
  have h := (htells "okx" hvenue (by decide)).mpr hends
  exact ⟨bundle, hbundles, h, h.before⟩

/-- An order that could not be cancelled, on a venue that then could not be listed any more: the
bundle still has the listing from before. -/
theorem unread_venue_still_in_bundle :
    ∃ bundle, bundles (Sample.oneOrderRun (.failed "refused") (.error "timeout")).1 = [bundle] ∧
      (listingsOf "okx" (Sample.oneOrderRun (.failed "refused") (.error "timeout")).1).getLast? =
        some (.error "timeout") ∧
      bundle.after.lookup "okx" = some [Sample.oneOrder] ∧
      ¬ bundle.Tells "okx" (Sample.oneOrderRun (.failed "refused") (.error "timeout")).1 := by
  refine ⟨_, rfl, rfl, rfl, fun htells => ?_⟩
  have hafter := htells.after
  cases hafter

end Signer.Gateway
